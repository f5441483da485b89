import Mathlib.Algebra.BigOperators.Ring.Finset
import ADnED.Driver.Cells
import ADnED.Tasks.Rates
import ADnED.Tasks.Requests

/-!
# The rates over time

An update of the parameters divides the events counted since the last one by the time since
the timer was last due (`ADnED.cpp:1000-1012`, `1275-1291`). Over a whole run of any
requests these are two accounts. Each event that is received is in one update or still
pending, and each stretch of time is in one update or was due at a packet that made none.
So the rates that were published, summed up over the time that they stand for, give the
number of events, up to one event per second (`rates_integrate`). The time of an update that
a rejected packet has missed stands for no rate, while its events are in the next one.

The rate of the whole instrument and those of the detectors are treated alike, the former as
number 0.
-/

namespace ADnED

/-- The update of one rate: the time it divides by, the events it counts, and the parameter
it sets. -/
structure RateUpdate where
  elapsed : ℚ
  events : UInt32
  rate : Int32

namespace Driver

/-- The events counted for the next update of a rate. -/
def pendingEvents (d : Driver) (i : Nat) : UInt32 :=
  if i = 0 then d.eventsSinceLastUpdate else d.detEventsSinceLastUpdate i

/-- A rate, as the parameters show it. -/
def shownRate (d : Driver) (i : Nat) : Int32 :=
  if i = 0 then d.int 0 .eventRate else d.int i .detEventRate

/-- The events of a packet that count for a rate: a pause stops the counts of the detectors. -/
def rateEvents (d : Driver) (p : Packet) (i : Nat) : List (UInt32 × UInt32) :=
  match d.check p with
  | .error _ => []
  | .ok v =>
    if i = 0 then p.events
    else if v.vars.paused = false ∧ i ∈ dets v.vars.numDet then d.eventsFor i p
    else []

/-- The update of a rate that a packet makes: the time it divides by and the events it counts. -/
def rateUpdate (d : Driver) (p : Packet) (i : Nat) : Option (ℚ × UInt32) :=
  match d.check p with
  | .error _ => none
  | .ok v =>
    if i = 0 ∨ i ∈ dets v.vars.numDet then
      v.vars.due.map fun elapsed => (elapsed, d.pendingEvents i + UInt32.ofNat (d.rateEvents p i).length)
    else none

variable {d d' : Driver} {p : Packet} {v : Pending} {i : Nat}

theorem pendingEvents_congr (events : d'.eventsSinceLastUpdate = d.eventsSinceLastUpdate)
    (detEvents : d'.detEventsSinceLastUpdate = d.detEventsSinceLastUpdate) (i : Nat) :
    d'.pendingEvents i = d.pendingEvents i := by
  rw [pendingEvents, events, detEvents, pendingEvents]

theorem snapshotStep_pending (d : Driver) (p : Packet) (i : Nat) :
    (d.snapshotStep p).1.pendingEvents i = d.pendingEvents i := by
  have noted := snapshotStep_noted d p
  exact pendingEvents_congr (by rw [noted.eq]) (by rw [noted.eq]) i

/-- A detector counts the events in its range. -/
theorem hits_eq (passes : (d.snapshotStep p).2 = .ok v) {det : Nat} (mem : det ∈ dets v.vars.numDet) :
    (d.snapshotStep p).1.hits det (turns (dets v.vars.numDet) v.events) = (d.eventsFor det p).length := by
  obtain ⟨ready, read⟩ := snapshotStep_ok passes
  have active : det ∈ d.active := by
    rw [ready.vars] at mem
    exact mem
  have range : ∀ pixel, (d.snapshotStep p).1.inDet det pixel = d.config.inDet det pixel := by
    intro pixel
    simp only [inDet, read det active]
    rfl
  have nodup : (dets v.vars.numDet).Nodup := List.nodup_range'
  have one := countP_turns nodup mem v.events fun e => (d.snapshotStep p).1.inDet det e.1
  rw [hits, one, ready.events]
  simp only [range, eventsFor, List.countP_eq_length_filter]

/-- The counting of a packet. -/
theorem tally_pending (passes : (d.snapshotStep p).2 = .ok v) (counts : (d.snapshotStep p).1.tally v = some d')
    (i : Nat) : d'.pendingEvents i = d.pendingEvents i + UInt32.ofNat (d.rateEvents p i).length := by
  have before := snapshotStep_pending d p i
  have check : d.check p = .ok v := (snapshotStep_check d p).symm.trans passes
  simp only [rateEvents, check]
  by_cases total : i = 0
  · rw [if_pos total]
    simp only [pendingEvents, if_pos total] at before ⊢
    rw [tally_eq counts, ← before, (snapshotStep_ok passes).1.events]
  rw [if_neg total]
  simp only [pendingEvents, if_neg total] at before ⊢
  rw [tally_detEvents counts, before]
  by_cases counted : v.vars.paused = false ∧ i ∈ dets v.vars.numDet
  · rw [if_neg (by simp [counted.1]), if_pos counted, hits_eq passes counted.2]
  · rw [if_neg counted]
    have none : UInt32.ofNat ([] : List (UInt32 × UInt32)).length = 0 := rfl
    rw [none, UInt32.add_zero]
    cases paused : v.vars.paused with
    | true => rfl
    | false =>
      have other : i ∉ dets v.vars.numDet := fun mem => counted ⟨paused, mem⟩
      have nothing := hits_le (d.snapshotStep p).1 v.vars.numDet i v.events
      rw [if_neg other] at nothing
      rw [if_neg Bool.false_ne_true, Nat.le_zero.1 nothing]
      exact UInt32.add_zero _

theorem updateDets_pending (elapsed : ℚ) (ds : List Nat) (d : Driver) :
    (d.updateDets elapsed ds).eventsSinceLastUpdate = d.eventsSinceLastUpdate ∧
      ∀ i, (d.updateDets elapsed ds).detEventsSinceLastUpdate i =
        if i ∈ ds then 0 else d.detEventsSinceLastUpdate i := by
  induction ds generalizing d with
  | nil => exact ⟨rfl, fun i => by simp [updateDets]⟩
  | cons det ds ih =>
    obtain ⟨events, detEvents⟩ := ih ({ d.setInt det .detEventRate (rate (d.detEventsSinceLastUpdate det) elapsed) with
      detEventsSinceLastUpdate := Function.update d.detEventsSinceLastUpdate det 0 }.setDbl det
        .detEventTotal (d.detTotalEvents det))
    refine ⟨events, fun i => (detEvents i).trans ?_⟩
    by_cases here : i = det
    · subst here
      simp [setDbl, setInt]
    · simp [setDbl, setInt, here]

/-- An update takes what is pending. -/
theorem publish_pending (d : Driver) (v : Pending) (i : Nat) :
    (d.publish v).pendingEvents i =
      if v.vars.due.isSome = true ∧ (i = 0 ∨ i ∈ dets v.vars.numDet) then 0 else d.pendingEvents i := by
  unfold publish
  cases v.vars.due with
  | none => simp
  | some elapsed =>
    let d₁ := d.updateChannels (List.range v.vars.numChan.toInt.toNat)
    let d₂ := d₁.setInt 0 .pulseCounter d₁.pulseCounter.toInt32
    let d₃ := d₂.setInt 0 .eventRate (rate d₂.eventsSinceLastUpdate elapsed)
    have channels := (updateChannels_counts (List.range v.vars.numChan.toInt.toNat) d).2
    obtain ⟨events, detEvents⟩ := updateDets_pending elapsed (dets v.vars.numDet) { d₃ with eventsSinceLastUpdate := 0 }
    by_cases total : i = 0
    · simp only [pendingEvents, total, if_true, Option.isSome_some, true_or, and_self]
      exact events
    · simp only [pendingEvents, total, if_false, Option.isSome_some, true_and, false_or]
      refine (detEvents i).trans ?_
      split
      · rfl
      · exact congrFun channels i

/-- A packet that makes no update of a rate adds its events to what is pending. -/
theorem eventHandler_keeps {r : Driver × Outcome} (hr : d.eventHandler p = some r) (none : d.rateUpdate p i = none) :
    r.1.pendingEvents i = d.pendingEvents i + UInt32.ofNat (d.rateEvents p i).length := by
  rw [eventHandler_stages] at hr
  rcases resume_cases hr with ⟨o, rejects, rfl⟩ | ⟨v, d', passes, counts, rfl⟩
  · have check : d.check p = .error o := (snapshotStep_check d p).symm.trans rejects
    simp only [rateEvents, check]
    exact (snapshotStep_pending d p i).trans (UInt32.add_zero _).symm
  · have check : d.check p = .ok v := (snapshotStep_check d p).symm.trans passes
    simp only [rateUpdate, check] at none
    rw [publish_pending, if_neg, tally_pending passes counts i]
    rintro ⟨due, updated⟩
    rw [if_pos updated, Option.map_eq_none_iff] at none
    rw [none] at due
    cases due

/-- A packet that makes one shows all of them in the rate. -/
theorem eventHandler_updates {r : Driver × Outcome} {elapsed : ℚ} {n : UInt32} (hr : d.eventHandler p = some r)
    (update : d.rateUpdate p i = some (elapsed, n)) :
    n = d.pendingEvents i + UInt32.ofNat (d.rateEvents p i).length ∧ r.1.pendingEvents i = 0 ∧
      r.1.shownRate i = rate n elapsed ∧ (d.timer p.now).2 = some elapsed := by
  have handled := hr
  rw [eventHandler_stages] at hr
  rcases resume_cases hr with ⟨o, rejects, rfl⟩ | ⟨v, d', passes, counts, rfl⟩
  · have check : d.check p = .error o := (snapshotStep_check d p).symm.trans rejects
    simp only [rateUpdate, check] at update
    cases update
  · have check : d.check p = .ok v := (snapshotStep_check d p).symm.trans passes
    have stage : d.snapshotStep p = ((d.snapshotStep p).1, .ok v) := Prod.ext rfl passes
    simp only [rateUpdate, check] at update
    split at update
    · rename_i updated
      obtain ⟨secs, due, same⟩ := Option.map_eq_some_iff.1 update
      obtain ⟨rfl, rfl⟩ := Prod.mk.inj same
      have pending := tally_pending passes counts i
      have publishes : d.pendingUpdate p = some (v, d') := by
        rw [pendingUpdate, stage]
        simp only [due, Option.isSome_some, if_true, counts, Option.map_some]
      obtain ⟨secs', r', due', handled', total, each⟩ := pendingUpdate_rates publishes
      obtain rfl : secs' = secs := Option.some.inj (due'.symm.trans due)
      obtain rfl := Option.some.inj (handled'.symm.trans handled)
      refine ⟨rfl, ?_, ?_, ?_⟩
      · rw [publish_pending, due, if_pos ⟨rfl, updated⟩]
      · rw [← pending, shownRate, pendingEvents]
        split
        · exact total
        · rename_i single
          exact each i (updated.resolve_left single)
      · rw [← due, (snapshotStep_ok passes).1.vars]
        rfl
    · cases update

theorem stamp_lastTimeSecs (d : Driver) (p : Packet) : (d.stamp p).lastTimeSecs = d.lastTimeSecs := by
  unfold stamp
  cases p.timeStamp with
  | none => rfl
  | some ts =>
    simp only [noteTimeStamp, noteSeqID]
    split
    · rfl
    · split <;> rfl

/-- The timer moves by the time that it finds elapsed. -/
theorem timer_lastTimeSecs (d : Driver) (now : ℚ) :
    (d.timer now).1.lastTimeSecs = d.lastTimeSecs + (d.timer now).2.getD 0 := by
  simp only [timer]
  split
  · exact (add_zero _).symm
  · exact (add_sub_cancel _ _).symm

/-- The timer is all that moves the time, whatever becomes of the packet. -/
theorem eventHandler_lastTimeSecs {r : Driver × Outcome} (hr : d.eventHandler p = some r) :
    r.1.lastTimeSecs = d.lastTimeSecs + (d.timer p.now).2.getD 0 := by
  have first : (d.snapshotStep p).1.lastTimeSecs = (d.timer p.now).1.lastTimeSecs := by
    obtain ⟨values, taken, -⟩ := snapshot_eq (dets (d.timer p.now).1.numDetClamped) (d.timer p.now).1
    rw [snapshotStep_of rfl taken]
    split
    · rfl
    · split
      · rw [stampStep_eq]
        exact stamp_lastTimeSecs _ p
      · rfl
  rw [← timer_lastTimeSecs, ← first]
  rw [eventHandler_stages] at hr
  rcases resume_cases hr with ⟨o, -, rfl⟩ | ⟨v, d', -, counts, rfl⟩
  · rfl
  · rw [(publish_published d' v).eq, tally_eq counts]

/-- The rate that an update shows, if it fits. -/
theorem rate_toInt {n : UInt32} {elapsed : ℚ} (pos : 0 < elapsed) (fits : (n.toNat : ℚ) < 2 ^ 31 * elapsed) :
    (rate n elapsed).toInt = ⌊(n.toNat : ℚ) / elapsed⌋ := by
  have nonneg : (0 : ℚ) ≤ n.toNat / elapsed := by positivity
  have below : (n.toNat : ℚ) / elapsed < 2 ^ 31 := (div_lt_iff₀ pos).2 fits
  have bound : ⌊(n.toNat : ℚ) / elapsed⌋ < 2 ^ 31 := Int.floor_lt.2 (by exact_mod_cast below)
  have floor : 0 ≤ ⌊(n.toNat : ℚ) / elapsed⌋ := Int.floor_nonneg.2 nonneg
  have whole := toNat_floorUInt32 nonneg (n := 2 ^ 31) (by exact_mod_cast below.le) (by decide)
  rw [floor_eq] at whole
  rw [rate, Word32.toInt_toInt32_of_lt (by omega), whole]
  omega

/-- The rate stands for the events of its update, up to one per second. -/
theorem rate_bounds {n : UInt32} {elapsed : ℚ} (pos : 0 < elapsed) (fits : (n.toNat : ℚ) < 2 ^ 31 * elapsed) :
    ((rate n elapsed).toInt : ℚ) * elapsed ≤ n.toNat ∧
      (n.toNat : ℚ) ≤ ((rate n elapsed).toInt + 1) * elapsed := by
  rw [rate_toInt pos fits]
  exact ⟨(le_div_iff₀ pos).1 (Int.floor_le _), ((div_le_iff₀ pos).1 (Int.lt_floor_add_one _).le)⟩

end Driver

namespace Sys

/-- The events that a request counts for a rate. -/
def rateEvents (i : Nat) (s : Sys) : Request → List (UInt32 × UInt32)
  | .sys (.packet p) => s.drv.rateEvents p i
  | _ => []

/-- The update of a rate that a request makes. -/
def rateUpdates (i : Nat) (s : Sys) (r : Request) : List RateUpdate :=
  match r with
  | .sys (.packet p) =>
    match s.drv.rateUpdate p i, s.serve r with
    | some (elapsed, events), some s' => [⟨elapsed, events, s'.drv.shownRate i⟩]
    | _, _ => []
  | _ => []

/-- The time of an update that was due at a request, but is not one of this rate. -/
def missedUpdates (i : Nat) (s : Sys) : Request → List ℚ
  | .sys (.packet p) =>
    match s.drv.rateUpdate p i, (s.drv.timer p.now).2 with
    | none, some elapsed => [elapsed]
    | _, _ => []
  | _ => []

/-- The events of a packet do not overflow the counter, and the rate fits its parameter. -/
def RateFits (i : Nat) (s : Sys) : Request → Prop
  | .sys (.packet p) => (s.drv.pendingEvents i).toNat + (s.drv.rateEvents p i).length < 2 ^ 32 ∧
      ∀ u ∈ s.drv.rateUpdate p i, 0 < u.1 ∧ (u.2.toNat : ℚ) < 2 ^ 31 * u.1
  | _ => True

instance (i : Nat) (s : Sys) (r : Request) : Decidable (RateFits i s r) :=
  match r with
  | .sys (.packet _) => inferInstanceAs (Decidable (_ ∧ _))
  | .sys (.write ..) | .sys (.event _) | .sys (.frame _) | .float .. | .octet .. => isTrue trivial

variable {s s' : Sys} {i : Nat}

/-- A request is a packet, or it counts no event and does not move the timer. -/
theorem serve_rate_cases {r : Request} (h : s.serve r = some s') (i : Nat) :
    (∃ p, r = .sys (.packet p)) ∨
      (s.rateEvents i r = [] ∧ s.rateUpdates i r = [] ∧ s.missedUpdates i r = []) ∧
        s'.drv.pendingEvents i = s.drv.pendingEvents i ∧ s'.drv.lastTimeSecs = s.drv.lastTimeSecs := by
  by_cases packet : ∃ p, r = .sys (.packet p)
  · exact .inl packet
  refine .inr ⟨?_, ?_⟩
  · cases r with
    | float addr p value => exact ⟨rfl, rfl, rfl⟩
    | octet addr p value erange env => exact ⟨rfl, rfl, rfl⟩
    | sys l =>
      cases l with
      | packet p => exact absurd ⟨p, rfl⟩ packet
      | write addr p value callocOk => exact ⟨rfl, rfl, rfl⟩
      | event env => exact ⟨rfl, rfl, rfl⟩
      | frame env => exact ⟨rfl, rfl, rfl⟩
  · rcases serve_cases h with ⟨l, rfl, step⟩ | loaded
    · have carried := step_carried (fun p eq => packet ⟨p, congrArg Request.sys eq⟩) step
      exact ⟨Driver.pendingEvents_congr (congrArg Carried.eventsSinceLastUpdate carried)
        (congrArg Carried.detEventsSinceLastUpdate carried) i, congrArg Carried.lastTimeSecs carried⟩
    · rw [loaded.eq]
      exact ⟨rfl, rfl⟩

/-- What a packet does to a rate: it makes no update, or one that takes all that is pending. -/
theorem serve_packet_rate {p : Packet} (h : s.serve (.sys (.packet p)) = some s') (i : Nat) :
    s.rateUpdates i (.sys (.packet p)) = [] ∧ s.missedUpdates i (.sys (.packet p)) = (s.drv.timer p.now).2.toList ∧
        s'.drv.pendingEvents i = s.drv.pendingEvents i + UInt32.ofNat (s.drv.rateEvents p i).length ∨
      ∃ elapsed n, s.drv.rateUpdate p i = some (elapsed, n) ∧
        s.rateUpdates i (.sys (.packet p)) = [⟨elapsed, n, Driver.rate n elapsed⟩] ∧
        s.missedUpdates i (.sys (.packet p)) = [] ∧ (s.drv.timer p.now).2 = some elapsed ∧
        n = s.drv.pendingEvents i + UInt32.ofNat (s.drv.rateEvents p i).length ∧ s'.drv.pendingEvents i = 0 := by
  obtain ⟨-, r, handled, rfl⟩ := step_packet h
  cases update : s.drv.rateUpdate p i with
  | none =>
    refine .inl ⟨?_, ?_, Driver.eventHandler_keeps handled update⟩
    · simp only [rateUpdates, update]
    · simp only [missedUpdates, update]
      cases (s.drv.timer p.now).2 <;> rfl
  | some u =>
    obtain ⟨elapsed, n⟩ := u
    obtain ⟨all, taken, shown, due⟩ := Driver.eventHandler_updates handled update
    refine .inr ⟨elapsed, n, rfl, ?_, ?_, due, all, taken⟩
    · simp only [rateUpdates, update, h, shown]
    · simp only [missedUpdates, update]

/-- **The events of one request**: they are in an update, or pending. -/
theorem serve_rateEvents {r : Request} (fits : RateFits i s r) (h : s.serve r = some s') :
    (s.drv.pendingEvents i).toNat + ((s.rateEvents i r).map fun _ => 1).sum =
      ((s.rateUpdates i r).map fun u => u.events.toNat).sum + (s'.drv.pendingEvents i).toNat := by
  rcases serve_rate_cases h i with ⟨p, rfl⟩ | ⟨⟨events, updates, -⟩, pending, -⟩
  · have exact_sum : (s.drv.pendingEvents i + UInt32.ofNat (s.drv.rateEvents p i).length).toNat =
        (s.drv.pendingEvents i).toNat + (s.drv.rateEvents p i).length := by
      have small := fits.1
      rw [UInt32.toNat_add, UInt32.toNat_ofNat']
      omega
    have counted : ((s.rateEvents i (.sys (.packet p))).map fun _ => 1).sum = (s.drv.rateEvents p i).length := by
      simp [rateEvents]
    rcases serve_packet_rate h i with ⟨updates, -, kept⟩ | ⟨elapsed, n, -, updates, -, -, all, taken⟩
    · rw [counted, updates, kept, exact_sum, List.map_nil, List.sum_nil, Nat.zero_add]
    · rw [counted, updates, taken, all, List.map_singleton, List.sum_singleton, exact_sum]
      rfl
  · rw [events, updates, pending]
    simp

/-- **The time of one request**: it is in an update, or one was due and missed. -/
theorem serve_lastTimeSecs {r : Request} (h : s.serve r = some s') :
    -s.drv.lastTimeSecs + ((s.missedUpdates i r).map fun t => -t).sum =
      ((s.rateUpdates i r).map RateUpdate.elapsed).sum + -s'.drv.lastTimeSecs := by
  rcases serve_rate_cases h i with ⟨p, rfl⟩ | ⟨⟨-, updates, missed⟩, -, time⟩
  · have moved : s'.drv.lastTimeSecs = s.drv.lastTimeSecs + (s.drv.timer p.now).2.getD 0 := by
      obtain ⟨-, r, handled, rfl⟩ := step_packet h
      exact Driver.eventHandler_lastTimeSecs handled
    rcases serve_packet_rate h i with ⟨updates, missed, -⟩ | ⟨elapsed, n, -, updates, missed, due, -⟩
    · rw [updates, missed, moved]
      cases (s.drv.timer p.now).2 <;> simp [add_comm]
    · rw [updates, missed, moved, due]
      simp
  · rw [missed, updates, time]
    simp

/-- The rate of each update stands for its events. -/
theorem serve_rate_bounds {r : Request} (fits : RateFits i s r) (h : s.serve r = some s') :
    ∀ u ∈ s.rateUpdates i r, (u.rate.toInt : ℚ) * u.elapsed ≤ u.events.toNat ∧
      (u.events.toNat : ℚ) ≤ (u.rate.toInt + 1) * u.elapsed := by
  rcases serve_rate_cases h i with ⟨p, rfl⟩ | ⟨⟨-, updates, -⟩, -⟩
  · rcases serve_packet_rate h i with ⟨updates, -⟩ | ⟨elapsed, n, update, updates, -⟩
    · simp [updates]
    · obtain ⟨pos, small⟩ := fits.2 (elapsed, n) update
      rw [updates]
      intro u mem
      obtain rfl := List.mem_singleton.1 mem
      exact Driver.rate_bounds pos small
  · simp [updates]

/-- **The rates over time.** In a run of any requests, the packets one at a time, whose counts and rates fit their
types, take the updates of a rate (that of the instrument, number 0, or of a detector). The events in them are those
that were counted for the rate and are no longer pending, none lost and none in two updates. Each value that an update
has shown, times the time that this update has divided by, sums up to that number, up to one event per second of that
time. The rest of the time that has passed is that of the updates that were missed. -/
theorem rates_integrate {rs : List Request} (i : Nat) (run : Runs.run serve s rs = some s')
    (fits : Runs.Meets serve (RateFits i) s rs) :
    let us := Runs.log serve (rateUpdates i) s rs
    let counted : ℚ := (s.drv.pendingEvents i).toNat + (Runs.log serve (rateEvents i) s rs).length -
      (s'.drv.pendingEvents i).toNat
    (s.drv.pendingEvents i).toNat + (Runs.log serve (rateEvents i) s rs).length =
        (us.map fun u => u.events.toNat).sum + (s'.drv.pendingEvents i).toNat ∧
      (us.map fun u => (u.rate.toInt : ℚ) * u.elapsed).sum ≤ counted ∧
      counted ≤ (us.map fun u => ((u.rate.toInt : ℚ) + 1) * u.elapsed).sum ∧
      s.drv.lastTimeSecs + (us.map RateUpdate.elapsed).sum + (Runs.log serve (missedUpdates i) s rs).sum =
        s'.drv.lastTimeSecs := by
  intro us counted
  have events := Runs.run_balance (rateEvents i) (rateUpdates i) (fun _ => 1) (fun u => u.events.toNat)
    (fun s => (s.drv.pendingEvents i).toNat) (fun _ _ _ => serve_rateEvents) run fits
  have time := Runs.run_balance (missedUpdates i) (rateUpdates i) (fun t => -t) RateUpdate.elapsed
    (fun s => -s.drv.lastTimeSecs) (fun _ _ _ _ => serve_lastTimeSecs) run fits
  simp only [List.map_const', List.sum_replicate, nsmul_eq_mul, mul_one, Nat.cast_id] at events
  have bounds := Runs.log_forall (fun _ _ _ => serve_rate_bounds) run fits
  have total : counted = (us.map fun u => (u.events.toNat : ℚ)).sum := by
    have cast : (us.map fun u => (u.events.toNat : ℚ)).sum = ((us.map fun u => u.events.toNat).sum : ℕ) := by
      rw [Nat.cast_list_sum, List.map_map]
      rfl
    rw [cast, sub_eq_iff_eq_add]
    exact_mod_cast events
  refine ⟨events, ?_, ?_, ?_⟩
  · rw [total]
    exact List.sum_le_sum fun u mem => (bounds u mem).1
  · rw [total]
    exact List.sum_le_sum fun u mem => (bounds u mem).2
  · rw [← List.sum_neg] at time
    linarith

/-- Three events in two seconds; two seconds later a packet without a proton charge, at which the update is missed; one
event in the second after that, and two more that are pending. -/
def missedUpdate : List Request :=
  (oneDetector ++ [startWrite, eventStep, eventStep, eventStep, .packet (packetAt 2 3 0),
    .packet { packetAt 4 1 0 with pCharge := none }, .packet (packetAt 5 1 0),
    .packet (packetAt 5 2 0)]).map .sys

/-- One event per second, shown for three of the five seconds. -/
theorem rates_integrate_missedUpdate : ∃ s, Runs.run serve (init slowUpdates) missedUpdate = some s ∧
    s.drv.pendingEvents 1 = 2 ∧ Runs.log serve (missedUpdates 1) (init slowUpdates) missedUpdate = [2] ∧
    (Runs.log serve (rateUpdates 1) (init slowUpdates) missedUpdate).map (fun u => (u.rate, u.elapsed)) =
      [(1, 2), (1, 1)] ∧
    ((init slowUpdates).drv.pendingEvents 1).toNat +
        (Runs.log serve (rateEvents 1) (init slowUpdates) missedUpdate).length =
      ((Runs.log serve (rateUpdates 1) (init slowUpdates) missedUpdate).map fun u => u.events.toNat).sum +
        (s.drv.pendingEvents 1).toNat ∧
    ((Runs.log serve (rateUpdates 1) (init slowUpdates) missedUpdate).map fun u => (u.rate.toInt : ℚ) * u.elapsed).sum ≤
      ((init slowUpdates).drv.pendingEvents 1).toNat +
        (Runs.log serve (rateEvents 1) (init slowUpdates) missedUpdate).length - (s.drv.pendingEvents 1).toNat := by
  have state : (Runs.run serve (init slowUpdates) missedUpdate).map (fun s => s.drv.pendingEvents 1) = some 2 := by
    decide +kernel
  have missed : Runs.log serve (missedUpdates 1) (init slowUpdates) missedUpdate = [2] := by decide +kernel
  have shown : (Runs.log serve (rateUpdates 1) (init slowUpdates) missedUpdate).map (fun u => (u.rate, u.elapsed)) =
      [(1, 2), (1, 1)] := by
    decide +kernel
  have fits : Runs.Meets serve (RateFits 1) (init slowUpdates) missedUpdate :=
    Runs.meets_of_decide (by decide +kernel)
  obtain ⟨s, reached, pending⟩ := Option.map_eq_some_iff.1 state
  obtain ⟨balance, below, -⟩ := rates_integrate 1 reached fits
  exact ⟨s, reached, pending, missed, shown, balance, below⟩

end Sys

end ADnED
