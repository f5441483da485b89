import ADnED.Driver.Handler

/-!
# What `eventHandler` can change

`Handled d d'` is the frame of `eventHandler`: the configuration, the layout and the
events between the threads stay as they are, and `p_Data` keeps its size. Whatever the
packet and wherever the function returns, the driver after it is `Handled`.
-/

namespace ADnED

/-- The readbacks that `eventHandler` sets. -/
def IntParam.measured : IntParam → Bool
  | .seqCounter | .seqID | .seqIDMissing | .seqIDNumMissing | .badTimeStamp
  | .pulseCounter | .eventRate | .detEventRate => true
  | _ => false

/-- The floating-point readbacks that `eventHandler` sets. -/
def DblParam.measured : DblParam → Bool
  | .pCharge | .pChargeInt | .detEventTotal => true
  | _ => false

/-- `d'` is `d` after some more measuring. -/
structure Handled (d d' : Driver) : Prop where
  eq : d' = { d with
    int := d'.int, dbl := d'.dbl, seqCounter := d'.seqCounter, seqID := d'.seqID
    lastSeqID := d'.lastSeqID, pulseCounter := d'.pulseCounter, pChargeInt := d'.pChargeInt
    lastTimeSecs := d'.lastTimeSecs, pData := d'.pData, timeStamp := d'.timeStamp
    timeStampLast := d'.timeStampLast, det := d'.det
    eventsSinceLastUpdate := d'.eventsSinceLastUpdate
    detEventsSinceLastUpdate := d'.detEventsSinceLastUpdate
    detTotalEvents := d'.detTotalEvents }
  int : ∀ addr p, p.measured = false → d'.int addr p = d.int addr p
  dbl : ∀ addr p, p.measured = false → d'.dbl addr p = d.dbl addr p
  size : d'.pData.map List.length = d.pData.map List.length

namespace Handled

variable {d d' d'' : Driver}

/-- A change of counters and stamps only. -/
theorem of_members (eq : d' = { d with
      seqCounter := d'.seqCounter, seqID := d'.seqID, lastSeqID := d'.lastSeqID
      pulseCounter := d'.pulseCounter, pChargeInt := d'.pChargeInt
      lastTimeSecs := d'.lastTimeSecs, timeStamp := d'.timeStamp
      timeStampLast := d'.timeStampLast, det := d'.det
      eventsSinceLastUpdate := d'.eventsSinceLastUpdate
      detEventsSinceLastUpdate := d'.detEventsSinceLastUpdate
      detTotalEvents := d'.detTotalEvents }) : Handled d d' := by
  rw [eq]
  exact ⟨rfl, fun _ _ _ => rfl, fun _ _ _ => rfl, rfl⟩

theorem refl (d : Driver) : Handled d d := of_members rfl

theorem trans (h : Handled d d') (h' : Handled d' d'') : Handled d d'' where
  eq := by rw [h'.eq, h.eq]
  int := fun addr p hp => (h'.int addr p hp).trans (h.int addr p hp)
  dbl := fun addr p hp => (h'.dbl addr p hp).trans (h.dbl addr p hp)
  size := h'.size.trans h.size

theorem setInt (h : Handled d d') (addr : Nat) {p : IntParam} (v : Int32) (hp : p.measured = true) :
    Handled d (d'.setInt addr p v) := by
  refine h.trans ⟨rfl, ?_, fun _ _ _ => rfl, rfl⟩
  intro a q hq
  have other : q ≠ p := ne_of_apply_ne IntParam.measured (by simp [hp, hq])
  simp [Driver.setInt, other]

theorem setDbl (h : Handled d d') (addr : Nat) {p : DblParam} (v : ℚ) (hp : p.measured = true) :
    Handled d (d'.setDbl addr p v) := by
  refine h.trans ⟨rfl, fun _ _ _ => rfl, ?_, rfl⟩
  intro a q hq
  have other : q ≠ p := ne_of_apply_ne DblParam.measured (by simp [hp, hq])
  simp [Driver.setDbl, other]

end Handled

namespace Driver

theorem timer_handled (d : Driver) (now : ℚ) : Handled d (d.timer now).1 := by
  simp only [timer]
  split
  · exact .refl d
  · exact .of_members rfl

theorem snapshot_handled (ds : List Nat) (d : Driver) : Handled d (snapshot ds d).1 := by
  induction ds generalizing d with
  | nil => exact .refl d
  | cons det ds ih =>
    have read : Handled d { d with det := Function.update d.det det (d.readDet det) } := .of_members rfl
    simp only [snapshot]
    split
    · exact read
    · exact read.trans (ih _)

theorem noteSeqID_handled (d : Driver) (c : Nat) (seqID : UInt32) : Handled d (d.noteSeqID c seqID) := by
  have noted : Handled d { d with seqID := Function.update d.seqID c seqID } := .of_members rfl
  simp only [noteSeqID]
  split
  · exact ((noted.setInt c _ rfl).setInt c _ rfl).trans (.of_members rfl)
  · exact noted.trans (.of_members rfl)

theorem noteTimeStamp_handled (d : Driver) (c : Nat) (ts : TimeStamp) :
    Handled d (d.noteTimeStamp c ts).1 := by
  let last := (d.timeStampLast c).put ts.secondsPastEpoch ts.nanoseconds
  let d₁ := { d with timeStamp := Function.update d.timeStamp c ts }
  let d₂ := { d₁ with timeStampLast := Function.update d.timeStampLast c last }
  have stamped : Handled d d₁ := .of_members rfl
  have advanced : Handled d d₂ := .of_members rfl
  simp only [noteTimeStamp]
  split
  · exact stamped.setInt c 1 rfl
  · exact advanced.trans (noteSeqID_handled d₂ c _)

/-- The integration loop keeps the size of the buffer. -/
theorem integrateEvents_length {d : Driver} {ds : List Nat} {events : List (UInt32 × UInt32)}
    {s s' : Integration} (h : d.integrateEvents ds events s = some s') :
    s'.pData.length = s.pData.length := by
  have turn : ∀ {event s s' det}, d.integrateTurn event s det = some s' →
      s'.pData.length = s.pData.length := by
    intro event s s' det h
    simp only [integrateTurn, Option.bind_eq_bind, Option.bind_eq_some_iff, Option.some.injEq] at h
    obtain ⟨⟨vars, bumps⟩, -, b, hb, rfl⟩ := h
    have same := Tally.bumpAll_length hb
    split <;> exact same
  have event : ∀ {ds event s s'}, d.integrateEvent ds s event = some s' →
      s'.pData.length = s.pData.length := by
    intro ds event
    induction ds with
    | nil => intro s s' h; cases h; rfl
    | cons det ds ih =>
      intro s s' h
      simp only [integrateEvent, List.foldlM_cons, Option.bind_eq_bind, Option.bind_eq_some_iff] at h
      obtain ⟨t, ht, rest⟩ := h
      rw [ih rest, turn ht]
  induction events generalizing s with
  | nil => cases h; rfl
  | cons e es ih =>
    simp only [integrateEvents, List.foldlM_cons, Option.bind_eq_bind, Option.bind_eq_some_iff] at h
    obtain ⟨t, ht, rest⟩ := h
    rw [ih rest, event ht]

theorem integrate_handled {d d' : Driver} {numDet : Int32} {b : List UInt32}
    {events : List (UInt32 × UInt32)} (data : d.pData = some b)
    (h : d.integrate numDet b events = some d') : Handled d d' := by
  obtain ⟨s, hs, rfl⟩ := Option.map_eq_some_iff.1 h
  refine ⟨rfl, fun _ _ _ => rfl, fun _ _ _ => rfl, ?_⟩
  simp [data, integrateEvents_length hs]

theorem addPulse_handled (d : Driver) (isNew : Bool) (pCharge : ℚ) : Handled d (d.addPulse isNew pCharge) := by
  unfold addPulse
  split
  · exact .of_members rfl
  · exact .refl d

theorem updateChannels_handled (cs : List Nat) (d : Driver) : Handled d (d.updateChannels cs) := by
  induction cs generalizing d with
  | nil => exact .refl d
  | cons c cs ih => exact (((Handled.refl d).setInt c _ rfl).setInt c _ rfl).trans (ih _)

theorem updateDets_handled (elapsed : ℚ) (ds : List Nat) (d : Driver) :
    Handled d (d.updateDets elapsed ds) := by
  induction ds generalizing d with
  | nil => exact .refl d
  | cons det ds ih =>
    have rated : Handled d (d.setInt det .detEventRate (rate (d.detEventsSinceLastUpdate det) elapsed)) :=
      (Handled.refl d).setInt det _ rfl
    exact ((rated.trans (.of_members rfl)).setDbl det _ rfl).trans (ih _)

theorem updateParams_handled (d : Driver) (numChan numDet : Int32) (elapsed pCharge : ℚ) :
    Handled d (d.updateParams numChan numDet elapsed pCharge) := by
  let d₁ := d.updateChannels (List.range numChan.toInt.toNat)
  let d₂ := d₁.setInt 0 .pulseCounter d₁.pulseCounter.toInt32
  let d₃ := d₂.setInt 0 .eventRate (rate d₂.eventsSinceLastUpdate elapsed)
  have rated : Handled d d₃ := ((updateChannels_handled _ d).setInt 0 _ rfl).setInt 0 _ rfl
  have channels : Handled d { d₃ with eventsSinceLastUpdate := 0 } := rated.trans (.of_members rfl)
  have detectors := channels.trans (updateDets_handled elapsed (dets numDet) _)
  exact (detectors.setDbl 0 pCharge rfl).setDbl 0 _ rfl

theorem countPacket_handled {d : Driver} {h : HandlerVars} {b : List UInt32}
    {events : List (UInt32 × UInt32)} {isNew : Bool} {pCharge : ℚ} {r : Driver × Outcome}
    (data : d.pData = some b) (hr : d.countPacket h b events isNew pCharge = some r) : Handled d r.1 := by
  let d₁ := { d with eventsSinceLastUpdate := d.eventsSinceLastUpdate + UInt32.ofNat events.length }
  have counted : Handled d d₁ := .of_members rfl
  have updated : ∀ {d₂ : Driver} (elapsed : ℚ), Handled d d₂ →
      Handled d (d₂.updateParams h.numChan h.numDet elapsed pCharge) :=
    fun elapsed integrated => integrated.trans (updateParams_handled _ _ _ _ _)
  simp only [countPacket, Option.bind_eq_bind] at hr
  split at hr
  · cases hr
    cases h.due with
    | some elapsed => exact updated elapsed counted
    | none => exact counted
  · obtain ⟨d₂, hd, hr⟩ := Option.bind_eq_some_iff.1 hr
    obtain ⟨d₃, hi, rfl⟩ := Option.map_eq_some_iff.1 hd
    have integrated := (counted.trans (integrate_handled data hi)).trans (addPulse_handled d₃ isNew pCharge)
    cases hr
    cases h.due with
    | some elapsed => exact updated elapsed integrated
    | none => exact integrated

theorem handleArrays_handled {d : Driver} {h : HandlerVars} {p : Packet} {isNew : Bool}
    {r : Driver × Outcome} (hr : d.handleArrays h p isNew = some r) : Handled d r.1 := by
  have rejected : ∀ {o}, some (d, o) = some r → Handled d r.1 := by
    rintro _ ⟨⟩
    exact .refl d
  simp only [handleArrays] at hr
  split at hr
  · exact rejected hr
  · split at hr
    · exact rejected hr
    · rename_i data
      split at hr
      · exact rejected hr
      · split at hr
        · split at hr
          · exact rejected hr
          · exact countPacket_handled data hr
        · exact rejected hr

theorem handleStamp_handled {d : Driver} {h : HandlerVars} {p : Packet} {r : Driver × Outcome}
    (hr : d.handleStamp h p = some r) : Handled d r.1 := by
  let d₁ := { d with seqCounter := Function.update d.seqCounter p.channelID (d.seqCounter p.channelID + 1) }
  have counted : Handled d d₁ := .of_members rfl
  simp only [handleStamp] at hr
  split at hr
  · cases hr
    exact counted
  · rename_i ts _
    have stamped := noteTimeStamp_handled d₁ p.channelID ts
    split at hr
    · rename_i d₂ hd
      rw [hd] at stamped
      cases hr
      exact counted.trans stamped
    · rename_i d₂ hd
      rw [hd] at stamped
      exact (counted.trans stamped).trans (handleArrays_handled hr)

/-- Whatever the packet, `eventHandler` only measures. -/
theorem eventHandler_handled {d : Driver} {p : Packet} {r : Driver × Outcome}
    (hr : d.eventHandler p = some r) : Handled d r.1 := by
  have timed := timer_handled d p.now
  simp only [eventHandler] at hr
  split at hr
  · cases hr
    exact timed
  · have read := snapshot_handled (dets (d.timer p.now).1.numDetClamped) (d.timer p.now).1
    split at hr
    · rename_i d₁ hd
      rw [hd] at read
      cases hr
      exact timed.trans read
    · rename_i d₁ hd
      rw [hd] at read
      exact (timed.trans read).trans (handleStamp_handled hr)

end Driver

end ADnED
