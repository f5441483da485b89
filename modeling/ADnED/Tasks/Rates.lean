import ADnED.Driver.Stages
import ADnED.Tasks.TaskFrame
import ADnED.Tasks.StartStop

/-!
# The event rates

An update publishes `m_eventsSinceLastUpdate` and `m_detEventsSinceLastUpdate` as rates
and sets them to 0. Nothing else does: neither `clearParams` nor a start touches them, and
the constructor leaves them uninitialised. `rates_of_this_run` shows that the rates
published after a Start count only events received since, if the counts were 0 at the
Start; `rate_of_earlier_run` is a run in which they were not.
-/

namespace ADnED

namespace Driver

/-- The counts of the next update are at most `n` events, and `m det` in the range of `det`. -/
structure AtMost (d : Driver) (n : Nat) (m : Nat → Nat) : Prop where
  events : d.eventsSinceLastUpdate.toNat ≤ n
  detEvents : ∀ det, 1 ≤ det → det ≤ maxDets → (d.detEventsSinceLastUpdate det).toNat ≤ m det

/-- The events of the packet in the range that `det` has at the time. -/
def eventsFor (d : Driver) (det : Nat) (p : Packet) : List (UInt32 × UInt32) :=
  p.events.filter fun e => d.config.inDet det e.1

/-- The update that the packet makes, if it makes one: the locals of `eventHandler`, and the
driver just before, whose counts are the numerators. -/
def pendingUpdate (d : Driver) (p : Packet) : Option (Pending × Driver) :=
  match d.snapshotStep p with
  | (d, .ok v) => if v.vars.due.isSome then (d.tally v).map fun counted => (v, counted) else none
  | (_, .error _) => none

variable {d d' : Driver} {n : Nat} {m : Nat → Nat} {p : Packet} {v : Pending}

theorem AtMost.congr (h : d.AtMost n m) (events : d'.eventsSinceLastUpdate = d.eventsSinceLastUpdate)
    (detEvents : d'.detEventsSinceLastUpdate = d.detEventsSinceLastUpdate) : d'.AtMost n m := by
  refine ⟨?_, fun det => ?_⟩
  · rw [events]
    exact h.events
  · rw [detEvents]
    exact h.detEvents det

theorem AtMost.mono {n' : Nat} {m' : Nat → Nat} (h : d.AtMost n m) (events : n ≤ n') (detEvents : ∀ det, m det ≤ m' det) :
    d.AtMost n' m' :=
  ⟨h.events.trans events, fun det lo hi => (h.detEvents det lo hi).trans (detEvents det)⟩

theorem toNat_add_ofNat_le (a : UInt32) (k : Nat) : (a + UInt32.ofNat k).toNat ≤ a.toNat + k := by
  rw [UInt32.toNat_add, UInt32.toNat_ofNat']
  calc (a.toNat + k % 2 ^ 32) % 2 ^ 32 ≤ a.toNat + k % 2 ^ 32 := Nat.mod_le _ _
    _ ≤ a.toNat + k := Nat.add_le_add_left (Nat.mod_le _ _) _

/-- A detector counts at most the events in its range. -/
theorem hits_le (d : Driver) (numDet : Int32) (det : Nat) (events : List (UInt32 × UInt32)) :
    d.hits det (turns (dets numDet) events) ≤
      if det ∈ dets numDet then events.countP (fun e => d.inDet det e.1) else 0 := by
  split
  · rename_i mem
    exact (countP_turns List.nodup_range' mem events fun e => d.inDet det e.1).le
  · rename_i other
    rw [Nat.le_zero, hits, List.countP_eq_zero]
    intro t mem
    have there := (mem_turns.1 mem).1
    have elsewhere : t.1 ≠ det := by
      rintro rfl
      exact other there
    simp [elsewhere]

/-- What a packet can add before the update. -/
theorem tally_atMost (h : d.AtMost n m) (passes : (d.snapshotStep p).2 = .ok v)
    (counts : (d.snapshotStep p).1.tally v = some d') :
    d'.AtMost (n + p.events.length) fun det => m det + (d.eventsFor det p).length := by
  obtain ⟨ready, read⟩ := snapshotStep_ok passes
  have noted := snapshotStep_noted d p
  have before : (d.snapshotStep p).1.AtMost n m := h.congr (by rw [noted.eq]) (by rw [noted.eq])
  have numDet : v.vars.numDet = d.numDetClamped := by rw [ready.vars, handlerVars]
  refine ⟨?_, fun det lo hi => ?_⟩
  · rw [tally_eq counts, ready.events]
    exact (toNat_add_ofNat_le _ _).trans (Nat.add_le_add_right before.events _)
  · have old := before.detEvents det lo hi
    rw [tally_detEvents counts]
    split
    · omega
    · refine (toNat_add_ofNat_le _ _).trans (Nat.add_le_add old ?_)
      refine (hits_le _ _ det _).trans ?_
      rw [numDet]
      split
      · rename_i mem
        have range : ∀ pixel, (d.snapshotStep p).1.inDet det pixel = d.config.inDet det pixel := by
          intro pixel
          simp only [inDet, read det mem]
          rfl
        simp only [range, ready.events, eventsFor, List.countP_eq_length_filter, le_refl]
      · exact Nat.zero_le _

theorem updateChannels_counts (cs : List Nat) (d : Driver) :
    (d.updateChannels cs).eventsSinceLastUpdate = d.eventsSinceLastUpdate ∧
      (d.updateChannels cs).detEventsSinceLastUpdate = d.detEventsSinceLastUpdate := by
  induction cs generalizing d with
  | nil => exact ⟨rfl, rfl⟩
  | cons c cs ih => exact ih _

/-- The update of the detectors sets their counts to 0. -/
theorem updateDets_atMost (elapsed : ℚ) (ds : List Nat) : ∀ {d : Driver}, d.AtMost n m →
    (d.updateDets elapsed ds).AtMost n m := by
  induction ds with
  | nil => intro d h; exact h
  | cons det ds ih =>
    intro d h
    apply ih
    refine ⟨h.events, fun det' lo hi => ?_⟩
    have old := h.detEvents det' lo hi
    show (Function.update d.detEventsSinceLastUpdate det 0 det').toNat ≤ m det'
    by_cases here : det' = det
    · subst here
      simp
    · rw [Function.update_of_ne here]
      exact old

theorem publish_atMost (h : d.AtMost n m) (v : Pending) : (d.publish v).AtMost n m := by
  unfold publish
  cases v.vars.due with
  | none => exact h
  | some elapsed =>
    let d₁ := d.updateChannels (List.range v.vars.numChan.toInt.toNat)
    let d₂ := d₁.setInt 0 .pulseCounter d₁.pulseCounter.toInt32
    let d₃ := d₂.setInt 0 .eventRate (rate d₂.eventsSinceLastUpdate elapsed)
    obtain ⟨events, detEvents⟩ := updateChannels_counts (List.range v.vars.numChan.toInt.toNat) d
    have channels : d₁.AtMost n m := h.congr events detEvents
    have zeroed : { d₃ with eventsSinceLastUpdate := 0 }.AtMost n m := ⟨Nat.zero_le n, channels.detEvents⟩
    have detectors := updateDets_atMost elapsed (dets v.vars.numDet) zeroed
    exact ⟨detectors.events, detectors.detEvents⟩

/-- What a packet can add. -/
theorem eventHandler_atMost {r : Driver × Outcome} (h : d.AtMost n m) (hr : d.eventHandler p = some r) :
    r.1.AtMost (n + p.events.length) fun det => m det + (d.eventsFor det p).length := by
  rw [eventHandler_stages] at hr
  rcases resume_cases hr with ⟨o, -, rfl⟩ | ⟨v, d', passes, counts, rfl⟩
  · have noted := snapshotStep_noted d p
    have before : (d.snapshotStep p).1.AtMost n m := h.congr (by rw [noted.eq]) (by rw [noted.eq])
    exact before.mono (by omega) fun det => by omega
  · exact publish_atMost (tally_atMost h passes counts) v

theorem updateDets_int (elapsed : ℚ) (ds : List Nat) (nodup : ds.Nodup) (d : Driver) (det : Nat) :
    (d.updateDets elapsed ds).int 0 .eventRate = d.int 0 .eventRate ∧
      (d.updateDets elapsed ds).int det .detEventRate =
        if det ∈ ds then rate (d.detEventsSinceLastUpdate det) elapsed else d.int det .detEventRate := by
  induction ds generalizing d with
  | nil => exact ⟨rfl, rfl⟩
  | cons first ds ih =>
    obtain ⟨other, rest⟩ := List.nodup_cons.1 nodup
    obtain ⟨rate₀, rate₁⟩ := ih rest
      ({ d.setInt first .detEventRate (rate (d.detEventsSinceLastUpdate first) elapsed) with
        detEventsSinceLastUpdate := Function.update d.detEventsSinceLastUpdate first 0 }.setDbl first
        .detEventTotal (d.detTotalEvents first))
    refine ⟨rate₀.trans (by simp [setDbl, setInt]), rate₁.trans ?_⟩
    by_cases here : det = first
    · subst here
      simp [setDbl, setInt, other]
    · simp [setDbl, setInt, here]

/-- The stages of `eventHandler` on the way to an update. -/
theorem pendingUpdate_some {counted : Driver} (h : d.pendingUpdate p = some (v, counted)) :
    (d.snapshotStep p).2 = .ok v ∧ (d.snapshotStep p).1.tally v = some counted ∧
      ∃ elapsed, v.vars.due = some elapsed := by
  unfold pendingUpdate at h
  split at h
  · rename_i w stage
    split at h
    · rename_i due
      obtain ⟨c, counts, same⟩ := Option.map_eq_some_iff.1 h
      cases same
      rw [stage]
      exact ⟨rfl, counts, Option.isSome_iff_exists.1 due⟩
    · cases h
  · cases h

/-- The counts of `counted` are the numerators of the rates that the update publishes. -/
theorem pendingUpdate_rates {counted : Driver} (h : d.pendingUpdate p = some (v, counted)) :
    ∃ elapsed r, v.vars.due = some elapsed ∧ d.eventHandler p = some r ∧
      r.1.int 0 .eventRate = rate counted.eventsSinceLastUpdate elapsed ∧
      ∀ det ∈ dets v.vars.numDet,
        r.1.int det .detEventRate = rate (counted.detEventsSinceLastUpdate det) elapsed := by
  obtain ⟨passes, counts, elapsed, due⟩ := pendingUpdate_some h
  obtain ⟨events, detEvents⟩ := updateChannels_counts (List.range v.vars.numChan.toInt.toNat) counted
  have stage : d.snapshotStep p = ((d.snapshotStep p).1, .ok v) := Prod.ext rfl passes
  have handled : d.eventHandler p = some (counted.publish v, if v.vars.paused then .paused else .integrated) := by
    rw [eventHandler_stages, stage]
    show integrationStep _ v = _
    rw [integrationStep, counts]
    rfl
  let d₁ := counted.updateChannels (List.range v.vars.numChan.toInt.toNat)
  let d₂ := d₁.setInt 0 .pulseCounter d₁.pulseCounter.toInt32
  let d₃ := d₂.setInt 0 .eventRate (rate d₂.eventsSinceLastUpdate elapsed)
  have published : ∀ addr q, (counted.publish v).int addr q =
      (updateDets { d₃ with eventsSinceLastUpdate := 0 } elapsed (dets v.vars.numDet)).int addr q := by
    intro addr q
    rw [publish, due]
    rfl
  refine ⟨elapsed, _, due, handled, ?_, fun det mem => ?_⟩
  · rw [published, (updateDets_int elapsed (dets v.vars.numDet) List.nodup_range' _ 0).1]
    have rated : d₃.int 0 .eventRate = rate d₂.eventsSinceLastUpdate elapsed := by
      simp only [d₃, setInt, Store.set_apply, and_self, if_true]
    exact rated.trans (congrArg (rate · elapsed) events)
  · rw [published, (updateDets_int elapsed (dets v.vars.numDet) List.nodup_range' _ det).2, if_pos mem]
    exact congrArg (rate · elapsed) (congrFun detEvents det)

end Driver

/-- The events that the step delivers. -/
def Label.events : Label → List (UInt32 × UInt32)
  | .packet p => p.events
  | _ => []

namespace Sys

/-- The events that the step delivers in the range that `det` has at the time. -/
def eventsFor (det : Nat) (s : Sys) : Label → List (UInt32 × UInt32)
  | .packet p => s.drv.eventsFor det p
  | _ => []

/-- The events received in a run. -/
def received (s : Sys) (ls : List Label) : List (UInt32 × UInt32) := Runs.log step (fun _ l => l.events) s ls

/-- The events received in a run, each in the range that `det` has at the time. -/
def receivedFor (det : Nat) (s : Sys) (ls : List Label) : List (UInt32 × UInt32) :=
  Runs.log step (eventsFor det) s ls

variable {n : Nat} {m : Nat → Nat} {s s' : Sys}

theorem step_atMost {l : Label} (h : s.drv.AtMost n m) (hs : s.step l = some s') :
    s'.drv.AtMost (n + l.events.length) fun det => m det + (s.eventsFor det l).length := by
  by_cases packet : ∃ p, l = .packet p
  · obtain ⟨p, rfl⟩ := packet
    obtain ⟨-, r, handled, rfl⟩ := step_packet hs
    exact Driver.eventHandler_atMost h handled
  · have carried := step_carried (fun p eq => packet ⟨p, eq⟩) hs
    have same : s'.drv.AtMost n m :=
      h.congr (congrArg Carried.eventsSinceLastUpdate carried) (congrArg Carried.detEventsSinceLastUpdate carried)
    exact same.mono (Nat.le_add_right _ _) fun det => Nat.le_add_right _ _

/-- The counts grow by no more than what is received. -/
theorem run_atMost {ls : List Label} (h : s.drv.AtMost n m) (hr : s.run ls = some s') :
    s'.drv.AtMost (n + (s.received ls).length) fun det => m det + (s.receivedFor det ls).length := by
  induction ls generalizing s n m with
  | nil =>
    cases hr
    exact h
  | cons l ls ih =>
    obtain ⟨t, ht, rest⟩ := Runs.run_cons_some hr
    refine (ih (step_atMost h ht) rest).mono ?_ fun det => ?_
    · rw [received, received, Runs.log_cons _ ls ht, List.length_append]
      omega
    · rw [receivedFor, receivedFor, Runs.log_cons _ ls ht, List.length_append]
      omega

theorem received_packet (s : Sys) (p : Packet) : s.received [.packet p] = p.events := by
  unfold received Runs.log
  cases s.step (.packet p) <;> simp [Runs.log, Label.events]

theorem receivedFor_packet (det : Nat) (s : Sys) (p : Packet) :
    s.receivedFor det [.packet p] = s.drv.eventsFor det p := by
  unfold receivedFor Runs.log
  cases s.step (.packet p) <;> simp [Runs.log, eventsFor]

/-- **Rates count the current run.** If the counts of the next update are 0 when a Start is
accepted, then every update after it uses counts of at most the events received since then,
and for each detector of at most the events received in its range. -/
theorem rates_of_this_run {s₀ s₁ : Sys} {l : Label} {ks : List Label} {p : Packet} {v : Pending} {counted : Driver}
    (start : s₀.AcceptsStart l) (started : s₀.step l = some s₁) (zero : s₀.drv.AtMost 0 fun _ => 0)
    (run : s₁.run ks = some s) (publishes : s.drv.pendingUpdate p = some (v, counted)) :
    counted.eventsSinceLastUpdate.toNat ≤ (s₁.received (ks ++ [.packet p])).length ∧
      ∀ det ∈ dets v.vars.numDet,
        (counted.detEventsSinceLastUpdate det).toNat ≤ (s₁.receivedFor det (ks ++ [.packet p])).length := by
  obtain ⟨passes, counts, -⟩ := Driver.pendingUpdate_some publishes
  have write : ∀ p, l ≠ .packet p := by
    rintro p rfl
    exact start
  have carried := step_carried write started
  have after : s₁.drv.AtMost 0 fun _ => 0 :=
    zero.congr (congrArg Carried.eventsSinceLastUpdate carried) (congrArg Carried.detEventsSinceLastUpdate carried)
  have bound := Driver.tally_atMost (run_atMost after run) passes counts
  refine ⟨?_, fun det mem => ?_⟩
  · have all : s₁.received (ks ++ [.packet p]) = s₁.received ks ++ p.events := by
      rw [received, Runs.log_append _ _ run]
      exact congrArg _ (received_packet s p)
    rw [all, List.length_append, ← Nat.zero_add (s₁.received ks).length]
    exact bound.events
  · have all : s₁.receivedFor det (ks ++ [.packet p]) = s₁.receivedFor det ks ++ s.drv.eventsFor det p := by
      rw [receivedFor, Runs.log_append _ _ run]
      exact congrArg _ (receivedFor_packet det s p)
    have numDet : v.vars.numDet = s.drv.numDetClamped := by
      rw [(Driver.snapshotStep_ok passes).1.vars, Driver.handlerVars]
    have lo := (mem_dets.1 mem).1
    rw [numDet] at mem
    rw [all, List.length_append, ← Nat.zero_add (s₁.receivedFor det ks).length]
    exact bound.detEvents det lo (Driver.active_le mem)

/-- An update every second. -/
def slowUpdates : Uninit := { Uninit.blank with eventUpdatePeriod := 1000 }

theorem length_replicate_lt (n : UInt8) (x : UInt32) : (List.replicate n.toNat x).length < 2 ^ 32 := by
  have few := n.toNat_lt
  rw [List.length_replicate]
  omega

/-- A packet with `n` events of one pixel, all at time of flight 0. -/
def packetAt (now : ℚ) (n : UInt8) (pixel : UInt32) : Packet where
  channelID := 0
  now := now
  timeStamp := some ⟨1, 0, 0⟩
  pCharge := some 1
  pixels := some ⟨List.replicate n.toNat pixel, length_replicate_lt n pixel⟩
  tof := some ⟨List.replicate n.toNat 0, length_replicate_lt n 0⟩

/-- A detector of one pixel, with `eventTask` at its wait for a Start. -/
def oneDetector : List Label :=
  [.write 0 .numDet 1 true, .write 1 .pixelROISizeX 1 true, eventStep, eventStep, eventStep]

/-- A first run with one event counts one. -/
theorem rates_of_this_run_first :
    ∃ s₀ s₁ s v counted, (init slowUpdates).run oneDetector = some s₀ ∧ s₀.step startWrite = some s₁ ∧
      s₁.run [eventStep, eventStep, eventStep] = some s ∧
      s.drv.pendingUpdate (packetAt 2 1 0) = some (v, counted) ∧
      counted.eventsSinceLastUpdate.toNat ≤
        (s₁.received ([eventStep, eventStep, eventStep] ++ [.packet (packetAt 2 1 0)])).length := by
  obtain ⟨s₀, reached⟩ : ∃ s₀, (init slowUpdates).run oneDetector = some s₀ := ⟨_, rfl⟩
  have update : ((s₀.step startWrite).bind fun s₁ => (s₁.run [eventStep, eventStep, eventStep]).bind
      fun s => s.drv.pendingUpdate (packetAt 2 1 0)).isSome = true := by
    cases reached
    decide +kernel
  have zero : s₀.drv.AtMost 0 fun _ => 0 := by
    cases reached
    exact ⟨Nat.le_refl 0, fun _ _ _ => Nat.le_refl 0⟩
  have accepted : s₀.AcceptsStart startWrite := by
    cases reached
    exact ⟨by decide, rfl, by decide, rfl⟩
  obtain ⟨⟨v, counted⟩, update⟩ := Option.isSome_iff_exists.1 update
  obtain ⟨s₁, started, update⟩ := Option.bind_eq_some_iff.1 update
  obtain ⟨s, run, update⟩ := Option.bind_eq_some_iff.1 update
  exact ⟨s₀, s₁, s, v, counted, reached, started, run, update,
    (rates_of_this_run accepted started zero run update).1⟩

/-- An acquisition that ends before its one event is in an update. -/
def unpublishedRun : List Label :=
  oneDetector ++ [startWrite, eventStep, eventStep, eventStep, .packet (packetAt 0 1 0),
    stopWrite, eventStep, eventStep, eventStep, eventStep]

/-- The first update after the next Start comes with a packet without events, and counts one. -/
theorem rate_of_earlier_run :
    ∃ s₀ s₁ v counted, (init slowUpdates).run unpublishedRun = some s₀ ∧ s₀.AcceptsStart startWrite ∧
      s₀.step startWrite = some s₁ ∧ s₁.drv.pendingUpdate (packetAt 2 0 0) = some (v, counted) ∧
      counted.eventsSinceLastUpdate = 1 ∧ s₁.received [.packet (packetAt 2 0 0)] = [] ∧
      dets v.vars.numDet = [1] ∧ counted.detEventsSinceLastUpdate 1 = 1 ∧
      s₁.receivedFor 1 [.packet (packetAt 2 0 0)] = [] := by
  have idle : ((init slowUpdates).run unpublishedRun).map (fun s => Driver.startable s.drv.adStatus) = some true := by
    decide +kernel
  have update : ((init slowUpdates).run unpublishedRun).bind (fun s₀ => (s₀.step startWrite).bind fun s₁ =>
      (s₁.drv.pendingUpdate (packetAt 2 0 0)).map fun r =>
        (r.2.eventsSinceLastUpdate, dets r.1.vars.numDet, r.2.detEventsSinceLastUpdate 1)) = some (1, [1], 1) := by
    decide +kernel
  obtain ⟨s₀, reached, update⟩ := Option.bind_eq_some_iff.1 update
  obtain ⟨s₁, started, update⟩ := Option.bind_eq_some_iff.1 update
  obtain ⟨⟨v, counted⟩, update, counts⟩ := Option.map_eq_some_iff.1 update
  rw [reached] at idle
  have accepted : s₀.AcceptsStart startWrite := ⟨by decide, rfl, by decide, Option.some.inj idle⟩
  simp only [Prod.mk.injEq] at counts
  obtain ⟨events, detectors, detEvents⟩ := counts
  exact ⟨s₀, s₁, v, counted, reached, accepted, started, update, events, received_packet s₁ _, detectors, detEvents,
    receivedFor_packet 1 s₁ _⟩

end Sys

end ADnED
