import ADnED.Driver.Ledger
import Mathlib.Data.Finset.Card
import Mathlib.Algebra.BigOperators.Group.List.Basic

/-!
# The proton charge of the counted pulses

The first packet of channel 0 with a new time stamp decides about its pulse: if its
events are integrated, the pulse is counted and its charge added, and no later packet with
the same time stamp can do that. So the charge covers the pulses in the data exactly if
every pulse of which some packet is integrated begins with one that is
(`charge_exact_iff`).
-/

namespace ADnED

/-- The time of a packet. -/
def Packet.nanos (p : Packet) : Int := (p.timeStamp.map TimeStamp.nanos).getD 0

/-- The proton charge of a packet. -/
def Packet.charge (p : Packet) : ℚ := p.pCharge.getD 0

/-! ## Packets in the order of their time stamps -/

/-- The integrated packets whose time stamp is not the one before. A packet comes with whether
it is integrated. -/
def firsts (last : Int) : List (Packet × Bool) → List Packet
  | [] => []
  | x :: xs => (if x.1.nanos ≠ last ∧ x.2 = true then [x.1] else []) ++ firsts x.1.nanos xs

/-- The first packet with the time `t` is integrated. -/
def LeadIntegrated (xs : List (Packet × Bool)) (t : Int) : Prop :=
  (xs.find? (·.1.nanos = t)).any (·.2) = true

instance (xs : List (Packet × Bool)) (t : Int) : Decidable (LeadIntegrated xs t) :=
  inferInstanceAs (Decidable (_ = true))

/-- Time stamps that do not run backwards, from `last` on. -/
structure Forwards (last : Int) (xs : List (Packet × Bool)) : Prop where
  above : ∀ x ∈ xs, last ≤ x.1.nanos
  order : xs.Pairwise (·.1.nanos ≤ ·.1.nanos)

theorem Forwards.tail {last : Int} {x : Packet × Bool} {xs : List (Packet × Bool)} (h : Forwards last (x :: xs)) :
    Forwards x.1.nanos xs :=
  ⟨fun _ mem => List.rel_of_pairwise_cons h.order mem, h.order.of_cons⟩

theorem Forwards.cons {last : Int} {x : Packet × Bool} {xs : List (Packet × Bool)} (first : last ≤ x.1.nanos)
    (h : Forwards x.1.nanos xs) : Forwards last (x :: xs) where
  above := by
    intro y mem
    rcases List.mem_cons.1 mem with rfl | mem
    · exact first
    · exact Int.le_trans first (h.above y mem)
  order := List.pairwise_cons.2 ⟨h.above, h.order⟩

theorem leadIntegrated_cons (x : Packet × Bool) (xs : List (Packet × Bool)) (t : Int) :
    LeadIntegrated (x :: xs) t ↔ if x.1.nanos = t then x.2 = true else LeadIntegrated xs t := by
  unfold LeadIntegrated
  by_cases here : x.1.nanos = t <;> simp [here]

theorem LeadIntegrated.mem {xs : List (Packet × Bool)} {t : Int} (h : LeadIntegrated xs t) :
    ∃ x ∈ xs, x.1.nanos = t := by
  unfold LeadIntegrated at h
  cases found : xs.find? (·.1.nanos = t) with
  | none =>
    rw [found] at h
    cases h
  | some x => exact ⟨x, List.mem_of_find?_eq_some found, by simpa using List.find?_some found⟩

/-- The pulses that are counted are those whose first packet is integrated. -/
theorem mem_firsts {last t : Int} {xs : List (Packet × Bool)} (h : Forwards last xs) :
    t ∈ (firsts last xs).map Packet.nanos ↔ t ≠ last ∧ LeadIntegrated xs t := by
  induction xs generalizing last with
  | nil =>
    simp only [firsts, List.map_nil, List.not_mem_nil, false_iff]
    rintro ⟨-, lead⟩
    obtain ⟨x, mem, -⟩ := lead.mem
    cases mem
  | cons x xs ih =>
    have first := h.above x (by simp)
    rw [firsts, List.map_append, List.mem_append, ih h.tail, leadIntegrated_cons]
    by_cases here : x.1.nanos = t
    · subst here
      simp only [ne_eq, not_true_eq_false, false_and, or_false, if_true]
      split_ifs with new <;> simp_all
    · rw [if_neg here]
      have other : t ∉ (if x.1.nanos ≠ last ∧ x.2 = true then [x.1] else []).map Packet.nanos := by
        split_ifs <;> simp [Ne.symm here]
      simp only [other, false_or]
      constructor
      · rintro ⟨-, lead⟩
        obtain ⟨y, mem, rfl⟩ := lead.mem
        have later := h.tail.above y mem
        exact ⟨by omega, lead⟩
      · rintro ⟨-, lead⟩
        exact ⟨Ne.symm here, lead⟩

/-- They come in the order of their time stamps, one for each. -/
theorem firsts_nodup {last : Int} {xs : List (Packet × Bool)} (h : Forwards last xs) :
    ((firsts last xs).map Packet.nanos).Nodup := by
  induction xs generalizing last with
  | nil => exact List.nodup_nil
  | cons x xs ih =>
    rw [firsts]
    split_ifs
    · rw [List.singleton_append, List.map_cons, List.nodup_cons]
      exact ⟨fun mem => ((mem_firsts h.tail).1 mem).1 rfl, ih h.tail⟩
    · exact ih h.tail

theorem firsts_sublist (last : Int) (xs : List (Packet × Bool)) :
    (firsts last xs).Sublist ((xs.filter (·.2)).map Prod.fst) := by
  induction xs generalizing last with
  | nil => exact List.Sublist.refl _
  | cons x xs ih =>
    rw [firsts]
    by_cases integrated : x.2 = true
    · rw [List.filter_cons_of_pos integrated, List.map_cons]
      split_ifs
      · exact (ih _).cons_cons x.1
      · exact (ih _).cons x.1
    · rw [List.filter_cons_of_neg integrated, if_neg fun new => integrated new.2]
      exact ih _

/-! ## What the driver counts -/

/-- A part of a list without duplicates under `f` has as many elements as the list has values, exactly
if it has an element for each of them. -/
theorem length_le_card {α β : Type} [DecidableEq β] {f : α → β} {part all : List α} (sub : part.Sublist all)
    (distinct : (part.map f).Nodup) :
    part.length ≤ (all.map f).toFinset.card ∧
      ((all.map f).toFinset.card ≤ part.length ↔ ∀ x ∈ all, f x ∈ part.map f) := by
  have subset : (part.map f).toFinset ⊆ (all.map f).toFinset := by
    intro y mem
    rw [List.mem_toFinset] at mem ⊢
    exact (sub.map f).subset mem
  have number : (part.map f).toFinset.card = part.length := by
    rw [List.toFinset_card_of_nodup distinct, List.length_map]
  rw [← number]
  refine ⟨Finset.card_le_card subset, fun enough x mem => ?_, fun covers => Finset.card_le_card fun y mem => ?_⟩
  · have equal := Finset.eq_of_subset_of_card_le subset enough
    rw [← List.mem_toFinset, equal, List.mem_toFinset]
    exact List.mem_map_of_mem mem
  · obtain ⟨x, listed, rfl⟩ := List.mem_map.1 (List.mem_toFinset.1 mem)
    exact List.mem_toFinset.2 (covers x listed)

namespace Driver

/-- The time stamp of a packet of channel 0 becomes the last one. -/
def stampsPulse (d : Driver) (p : Packet) : Bool :=
  p.channelID = 0 && decide d.Wide &&
    match p.timeStamp with
    | some ts => decide ((d.timeStampLast 0).nanos ≤ ts.nanos)
    | none => false

/-- A packet of channel 0 whose time stamp has been noted, with whether its events are integrated. -/
def pulseEntry (d : Driver) : Input → List (Packet × Bool)
  | .packet p => if d.stampsPulse p then [(p, decide (d.verdict p = .integrated))] else []
  | .pause _ => []

/-- The packets of channel 0 that are integrated. -/
def integratedEntry (d : Driver) (i : Input) : List Packet :=
  (i.packetOn 0).toList.filter (d.verdict · = .integrated)

/-- The packets of channel 0 whose time stamps a session notes. -/
def pulseLog (d : Driver) (inputs : List Input) : List (Packet × Bool) := Runs.log feed pulseEntry d inputs

/-- The packets of channel 0 whose events a session integrates. -/
def integratedLog (d : Driver) (inputs : List Input) : List Packet := Runs.log feed integratedEntry d inputs

theorem stampsPulse_le {d : Driver} {p : Packet} (h : d.stampsPulse p = true) :
    (d.timeStampLast 0).nanos ≤ p.nanos := by
  cases stamp : p.timeStamp with
  | none => simp [stampsPulse, stamp] at h
  | some ts =>
    simp only [stampsPulse, stamp, Bool.and_eq_true, decide_eq_true_eq] at h
    simpa [Packet.nanos, stamp] using h.2

/-- An integrated packet has been stamped. -/
theorem Ready.stampsPulse {d : Driver} {p : Packet} {v : Pending} (ready : d.Ready p v) (zero : p.channelID = 0) :
    d.stampsPulse p = true := by
  obtain ⟨ts, stamp, forwards, -⟩ := ready.stamp
  rw [zero] at forwards
  simp [Driver.stampsPulse, zero, ready.wide, stamp, Int.not_lt.1 forwards]

theorem integrated_ready {d : Driver} {p : Packet} (h : d.verdict p = .integrated) :
    ∃ v, d.check p = .ok v ∧ d.Ready p v ∧ v.vars.paused = false := by
  rcases check_cases d p with ⟨-, rejected⟩ | ⟨v, ok, ready, verdict⟩
  · exact absurd h rejected
  · refine ⟨v, ok, ready, ?_⟩
    rw [h] at verdict
    cases paused : v.vars.paused with
    | false => rfl
    | true => simp [paused] at verdict

theorem pulseEntry_integrated (d : Driver) (i : Input) :
    ((d.pulseEntry i).filter (·.2)).map Prod.fst = d.integratedEntry i := by
  cases i with
  | pause value => rfl
  | packet p =>
    by_cases zero : p.channelID = 0
    · by_cases integrated : d.verdict p = .integrated
      · obtain ⟨v, -, ready, -⟩ := integrated_ready integrated
        simp [pulseEntry, integratedEntry, Input.packetOn, zero, integrated, ready.stampsPulse zero]
      · have none : (d.pulseEntry (.packet p)).filter (·.2) = [] := by
          simp only [pulseEntry]
          split_ifs <;> simp [integrated]
        rw [none]
        simp [integratedEntry, Input.packetOn, zero, integrated]
    · simp [pulseEntry, stampsPulse, integratedEntry, Input.packetOn, zero]

/-- The last time stamp of channel 0 after a packet. -/
theorem eventHandler_last {d : Driver} {p : Packet} {r : Driver × Outcome} (h : d.eventHandler p = some r) :
    (r.1.timeStampLast 0).nanos = if d.stampsPulse p then p.nanos else (d.timeStampLast 0).nanos := by
  have entered := congrArg Ledger.last (eventHandler_ledger h 0)
  change (r.1.timeStampLast 0).nanos = _ at entered
  rw [entered]
  by_cases valid : 0 = p.channelID ∧ 0 < maxChannels ∧ d.Wide
  · rw [if_pos valid]
    cases stamp : p.timeStamp with
    | none => simp [stampsPulse, stamp, Ledger.note, ledger]
    | some ts =>
      by_cases backwards : ts.nanos < (d.timeStampLast 0).nanos
      · have late : ¬ (d.timeStampLast 0).nanos ≤ ts.nanos := by omega
        simp [stampsPulse, stamp, Ledger.note, ledger, backwards, late]
      · have early : (d.timeStampLast 0).nanos ≤ ts.nanos := by omega
        have noted : ∀ (l : Ledger) seqID, (l.noteSeqID seqID).last = l.last := by
          intro l seqID
          unfold Ledger.noteSeqID
          split_ifs <;> rfl
        simp [stampsPulse, stamp, Ledger.note, ledger, backwards, early, noted, ← valid.1, valid.2.2, Packet.nanos]
  · rw [if_neg valid, if_neg]
    · rfl
    · intro stamps
      simp only [stampsPulse, Bool.and_eq_true, decide_eq_true_eq] at stamps
      exact valid ⟨stamps.1.1.symm, by decide, stamps.1.2⟩

/-- The packet counts its pulse. -/
def Pulse (d : Driver) (p : Packet) : Prop :=
  d.verdict p = .integrated ∧ p.channelID = 0 ∧ p.nanos ≠ (d.timeStampLast 0).nanos

instance (d : Driver) (p : Packet) : Decidable (d.Pulse p) := inferInstanceAs (Decidable (_ ∧ _))

theorem firsts_pulseEntry (d : Driver) (p : Packet) :
    firsts (d.timeStampLast 0).nanos (d.pulseEntry (.packet p)) = if d.Pulse p then [p] else [] := by
  by_cases integrated : d.verdict p = .integrated
  · obtain ⟨v, -, ready, -⟩ := integrated_ready integrated
    by_cases zero : p.channelID = 0
    · simp [pulseEntry, ready.stampsPulse zero, firsts, Pulse, integrated, zero]
    · simp [pulseEntry, stampsPulse, firsts, Pulse, zero]
  · simp only [pulseEntry, Pulse, integrated]
    split_ifs <;> simp_all [firsts]

/-- The pulse that a packet adds. -/
theorem eventHandler_pulses {d : Driver} {p : Packet} {r : Driver × Outcome} (h : d.eventHandler p = some r) :
    r.1.pulseCounter = (if d.Pulse p then d.pulseCounter + 1 else d.pulseCounter) ∧
      r.1.pChargeInt = if d.Pulse p then d.pChargeInt + p.charge else d.pChargeInt := by
  obtain ⟨secs, values, step, -⟩ := snapshotStep_eq d p
  have noted := snapshotStep_noted d p
  have checked : (d.snapshotStep p).2 = d.check p := by rw [step]
  have counter : (d.snapshotStep p).1.pulseCounter = d.pulseCounter := by rw [noted.eq]
  have charge : (d.snapshotStep p).1.pChargeInt = d.pChargeInt := by rw [noted.eq]
  rw [eventHandler_stages] at h
  rcases resume_cases h with ⟨o, error, rfl⟩ | ⟨v, d', ok, tallied, rfl⟩
  · have rejected : ¬ d.Pulse p := by
      rintro ⟨integrated, -⟩
      obtain ⟨v, passed, -⟩ := integrated_ready integrated
      rw [checked, passed] at error
      cases error
    rw [if_neg rejected, if_neg rejected]
    exact ⟨counter, charge⟩
  · rw [checked] at ok
    have ready : d.Ready p v ∧ d.verdict p = if v.vars.paused then .paused else .integrated := by
      rcases check_cases d p with ⟨error, -⟩ | ⟨v', passed, ready, verdict⟩
      · rw [error] at ok
        cases ok
      · rw [passed] at ok
        cases ok
        exact ⟨ready, verdict⟩
    obtain ⟨⟨_, _, _, _, pCharge, _, ts, stamp, _, isNew⟩, verdict⟩ := ready
    have adds : v.adds = true ↔ d.Pulse p := by
      have time : p.nanos = ts.nanos := by simp [Packet.nanos, stamp]
      rw [Pulse, verdict, time, Pending.adds, isNew, newPulse]
      cases v.vars.paused <;> simp [eq_comm (a := ts.nanos)]
    have counted := tally_eq tallied
    have published := publish_published d' v
    have added : p.charge = v.pCharge := by simp [Packet.charge, pCharge]
    rw [published.eq, counted, counter, charge, added]
    simp only [adds, and_self]

/-- What one step of a session adds to the log, the counter and the charge. -/
theorem feed_pulses {d d' : Driver} {i : Input} (h : d.feed i = some d') {xs : List (Packet × Bool)}
    (later : Forwards (d'.timeStampLast 0).nanos xs) :
    Forwards (d.timeStampLast 0).nanos (d.pulseEntry i ++ xs) ∧
      ∃ ps, firsts (d.timeStampLast 0).nanos (d.pulseEntry i ++ xs) = ps ++ firsts (d'.timeStampLast 0).nanos xs ∧
        d'.pulseCounter = d.pulseCounter + UInt32.ofNat ps.length ∧
        d'.pChargeInt = d.pChargeInt + (ps.map Packet.charge).sum := by
  cases i with
  | pause value =>
    cases h
    rw [pause_eq] at later ⊢
    have same : ((d.storeInt 0 .pause value).timeStampLast 0).nanos = (d.timeStampLast 0).nanos :=
      congrArg Ledger.last (storeInt_ledger d 0 value rfl 0)
    rw [same] at later ⊢
    refine ⟨later, [], rfl, ?_⟩
    unfold storeInt
    split_ifs <;> simp [setInt]
  | packet p =>
    obtain ⟨r, handled, rfl⟩ := Option.map_eq_some_iff.1 h
    have last := eventHandler_last handled
    obtain ⟨counter, charge⟩ := eventHandler_pulses handled
    have added : r.1.pulseCounter = d.pulseCounter +
          UInt32.ofNat (firsts (d.timeStampLast 0).nanos (d.pulseEntry (.packet p))).length ∧
        r.1.pChargeInt = d.pChargeInt +
          ((firsts (d.timeStampLast 0).nanos (d.pulseEntry (.packet p))).map Packet.charge).sum := by
      rw [counter, charge, firsts_pulseEntry]
      split_ifs <;> simp
    by_cases stamps : d.stampsPulse p = true
    · rw [if_pos stamps] at last
      have entry : d.pulseEntry (.packet p) = [(p, decide (d.verdict p = .integrated))] := if_pos stamps
      rw [last] at later ⊢
      rw [entry] at added ⊢
      refine ⟨.cons (stampsPulse_le stamps) later, _, ?_, added⟩
      simp only [List.singleton_append, firsts, List.append_nil]
    · rw [if_neg stamps] at last
      have entry : d.pulseEntry (.packet p) = [] := if_neg stamps
      rw [last] at later ⊢
      rw [entry] at added ⊢
      exact ⟨later, _, rfl, added⟩

/-- What a session leaves in the pulse counter and in the integrated charge. -/
theorem run_pulses {d d' : Driver} {inputs : List Input} (h : Runs.run feed d inputs = some d') :
    Forwards (d.timeStampLast 0).nanos (d.pulseLog inputs) ∧
      d'.pulseCounter = d.pulseCounter +
        UInt32.ofNat (firsts (d.timeStampLast 0).nanos (d.pulseLog inputs)).length ∧
      d'.pChargeInt = d.pChargeInt +
        ((firsts (d.timeStampLast 0).nanos (d.pulseLog inputs)).map Packet.charge).sum := by
  induction inputs generalizing d with
  | nil =>
    cases h
    exact ⟨⟨by simp [pulseLog, Runs.log], by simp [pulseLog, Runs.log]⟩, by simp [pulseLog, Runs.log, firsts]⟩
  | cons i inputs ih =>
    obtain ⟨d₁, now, later⟩ := Runs.run_cons_some h
    obtain ⟨order, counter, charge⟩ := ih later
    have log : d.pulseLog (i :: inputs) = d.pulseEntry i ++ d₁.pulseLog inputs := Runs.log_cons _ _ now
    obtain ⟨forwards, ps, split, counted, charged⟩ := feed_pulses now order
    rw [log]
    refine ⟨forwards, ?_, ?_⟩
    · rw [counter, counted, split, List.length_append, UInt32.ofNat_add, UInt32.add_assoc]
    · rw [charge, charged, split, List.map_append, List.sum_append, add_assoc]

end Driver

/-! ## The charge of the pulses in the data -/

/-- One packet for each time stamp that occurs. -/
structure OnePerPulse (chosen all : List Packet) : Prop where
  sublist : chosen.Sublist all
  nodup : (chosen.map Packet.nanos).Nodup
  covers : ∀ p ∈ all, p.nanos ∈ chosen.map Packet.nanos

namespace Driver

/-- The pulse counter is the number of distinct time stamps of the packets, and the integrated charge the
sum of one charge for each. -/
structure ChargeExact (d : Driver) (integrated : List Packet) : Prop where
  counter : d.pulseCounter.toNat = (integrated.map Packet.nanos).toFinset.card
  charge : ∃ chosen, OnePerPulse chosen integrated ∧ d.pChargeInt = (chosen.map Packet.charge).sum

theorem pulseLog_integrated {d d' : Driver} {inputs : List Input} (h : Runs.run feed d inputs = some d') :
    ((d.pulseLog inputs).filter (·.2)).map Prod.fst = d.integratedLog inputs := by
  induction inputs generalizing d with
  | nil => rfl
  | cons i inputs ih =>
    obtain ⟨d₁, now, later⟩ := Runs.run_cons_some h
    rw [pulseLog, integratedLog, Runs.log_cons _ _ now, Runs.log_cons _ _ now, List.filter_append, List.map_append,
      pulseEntry_integrated]
    exact congrArg _ (ih later)

theorem pulseLog_later {d d' : Driver} {inputs : List Input} (h : Runs.run feed d inputs = some d')
    (later : ∀ p ∈ packetsOn 0 inputs, ∀ ts, p.timeStamp = some ts → 0 < ts.nanos) :
    ∀ x ∈ d.pulseLog inputs, 0 < x.1.nanos := by
  induction inputs generalizing d with
  | nil =>
    intro x mem
    cases mem
  | cons i inputs ih =>
    obtain ⟨d₁, now, rest⟩ := Runs.run_cons_some h
    have tail : ∀ p ∈ packetsOn 0 inputs, ∀ ts, p.timeStamp = some ts → 0 < ts.nanos := by
      intro p mem
      refine later p ?_
      rw [packetsOn, List.filterMap_cons]
      split
      · exact mem
      · exact List.mem_cons_of_mem _ mem
    intro x mem
    rw [pulseLog, Runs.log_cons _ _ now, List.mem_append] at mem
    rcases mem with mem | mem
    · cases i with
      | pause value => cases mem
      | packet p =>
        simp only [pulseEntry] at mem
        split_ifs at mem with stamps
        · obtain rfl := List.mem_singleton.1 mem
          cases stamp : p.timeStamp with
          | none => simp [stampsPulse, stamp] at stamps
          | some ts =>
            have zero : p.channelID = 0 := by
              simp only [stampsPulse, Bool.and_eq_true, decide_eq_true_eq] at stamps
              exact stamps.1.1
            have positive := later p (by simp [packetsOn, Input.packetOn, zero]) ts stamp
            simpa [Packet.nanos, stamp] using positive
        · cases mem
    · exact ih rest tail x mem

/-- **The charge covers the pulses in the data.** After a clear and a session whose time stamps on
channel 0 are later than the epoch, the pulse counter and the integrated charge are those
of the packets that were integrated if and only if there are fewer than `2^32` pulses,
and each pulse of which a packet was integrated began with a packet that was. -/
theorem charge_exact_iff {d d' : Driver} {inputs : List Input}
    (reached : Runs.run feed d.clearParams inputs = some d')
    (later : ∀ p ∈ packetsOn 0 inputs, ∀ ts, p.timeStamp = some ts → 0 < ts.nanos) :
    d'.ChargeExact (d.clearParams.integratedLog inputs) ↔
      ((d.clearParams.integratedLog inputs).map Packet.nanos).toFinset.card < 2 ^ 32 ∧
        ∀ p ∈ d.clearParams.integratedLog inputs, LeadIntegrated (d.clearParams.pulseLog inputs) p.nanos := by
  have epoch : (d.clearParams.timeStampLast 0).nanos = 0 :=
    congrArg Ledger.last (clearParams_ledger d (c := 0) (by decide))
  obtain ⟨forwards, counter, charge⟩ := run_pulses reached
  have positive := pulseLog_later reached later
  have all := pulseLog_integrated reached
  have cleared : d.clearParams.pulseCounter = 0 ∧ d.clearParams.pChargeInt = 0 := ⟨rfl, rfl⟩
  rw [epoch] at forwards counter charge
  rw [cleared.1, UInt32.zero_add] at counter
  rw [cleared.2, zero_add] at charge
  have counted := firsts_sublist 0 (d.clearParams.pulseLog inputs)
  rw [all] at counted
  have distinct := firsts_nodup forwards
  have leads : ∀ p ∈ d.clearParams.integratedLog inputs,
      p.nanos ∈ (firsts 0 (d.clearParams.pulseLog inputs)).map Packet.nanos ↔
        LeadIntegrated (d.clearParams.pulseLog inputs) p.nanos := by
    intro p mem
    rw [mem_firsts forwards, and_iff_right]
    rw [← all] at mem
    obtain ⟨x, logged, rfl⟩ := List.mem_map.1 mem
    have := positive x (List.mem_of_mem_filter logged)
    omega
  -- the counted pulses are among those in the data, so it is enough to compare the numbers
  obtain ⟨fewer, covers⟩ := length_le_card counted distinct
  constructor
  · rintro ⟨same, -⟩
    rw [counter, UInt32.toNat_ofNat'] at same
    exact ⟨by omega, fun p mem => (leads p mem).1 (covers.1 (by omega) p mem)⟩
  · rintro ⟨few, began⟩
    have covered := fun p mem => (leads p mem).2 (began p mem)
    have enough := covers.2 covered
    refine ⟨?_, _, ⟨counted, distinct, covered⟩, charge⟩
    rw [counter, UInt32.toNat_ofNat']
    omega

end Driver

/-- A packet of channel 0 with one event and a unit of charge. -/
def Packet.pulse (secs : Int) : Packet :=
  ⟨0, 0, some ⟨secs, 0, 0⟩, some 1, some ⟨[0], by decide⟩, some ⟨[0], by decide⟩⟩

namespace Driver

/-- A detector of one pixel, laid out. -/
def onePixel : Driver := ((withInts [(0, .numDet, 1), (1, .pixelROISizeX, 1)]).allocArray true).1

/-- A pulse of two packets, and one that begins and ends while the driver is paused. -/
def wholePulses : List Input :=
  [.packet (.pulse 1), .packet (.pulse 1), .pause 1, .packet (.pulse 2), .pause 0, .packet (.pulse 3)]

theorem charge_exact_wholePulses :
    ∃ d', Runs.run feed onePixel.clearParams wholePulses = some d' ∧
      d'.ChargeExact (onePixel.clearParams.integratedLog wholePulses) := by
  have defined : (Runs.run feed onePixel.clearParams wholePulses).isSome = true := by decide +kernel
  obtain ⟨d', reached⟩ := Option.isSome_iff_exists.1 defined
  have integrated : (onePixel.clearParams.integratedLog wholePulses).map Packet.nanos =
      [1000000000, 1000000000, 3000000000] := by decide +kernel
  have packets : packetsOn 0 wholePulses = [.pulse 1, .pulse 1, .pulse 2, .pulse 3] := rfl
  have began : ([1000000000, 1000000000, 3000000000] : List Int).all
      (fun t => LeadIntegrated (onePixel.clearParams.pulseLog wholePulses) t) = true := by decide +kernel
  refine ⟨d', reached, (charge_exact_iff reached ?_).2 ⟨?_, ?_⟩⟩
  · rw [packets]
    simp [Packet.pulse, TimeStamp.nanos]
  · rw [integrated]
    decide
  · intro p mem
    have stamp := List.mem_map_of_mem (f := Packet.nanos) mem
    rw [integrated] at stamp
    simpa using List.all_eq_true.1 began _ stamp

/-- A pulse whose first packet arrives while the driver is paused is in the data, but its charge is not. -/
theorem charge_misses_pulse :
    (Runs.run feed onePixel.clearParams
        [.pause 1, .packet (.pulse 1), .pause 0, .packet (.pulse 1)]).map (·.pulseCounter) = some 0 ∧
    (onePixel.clearParams.integratedLog [.pause 1, .packet (.pulse 1), .pause 0, .packet (.pulse 1)]).map
      Packet.nanos = [1000000000] ∧
    ∀ d', Runs.run feed onePixel.clearParams
        [.pause 1, .packet (.pulse 1), .pause 0, .packet (.pulse 1)] = some d' →
      ¬ d'.ChargeExact
        (onePixel.clearParams.integratedLog [.pause 1, .packet (.pulse 1), .pause 0, .packet (.pulse 1)]) := by
  have counted : (Runs.run feed onePixel.clearParams
      [.pause 1, .packet (.pulse 1), .pause 0, .packet (.pulse 1)]).map (·.pulseCounter) = some 0 := by
    decide +kernel
  have integrated : (onePixel.clearParams.integratedLog
      [.pause 1, .packet (.pulse 1), .pause 0, .packet (.pulse 1)]).map Packet.nanos = [1000000000] := by
    decide +kernel
  refine ⟨counted, integrated, ?_⟩
  rintro d' reached ⟨counter, -⟩
  rw [reached, Option.map_some, Option.some.injEq] at counted
  rw [counted, integrated] at counter
  revert counter
  decide

end Driver

end ADnED
