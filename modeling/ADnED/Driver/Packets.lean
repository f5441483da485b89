import ADnED.Driver.Trace
import ADnED.Driver.HandlerFrame
import ADnED.Lib.Runs

/-!
# Packets that are integrated

`eventHandler` integrates the events of a packet that passes all its checks, with the
parameters as they are when it is called; every other packet leaves `p_Data` and the
totals alone. `verdict` collects the checks, `config` is the driver with the snapshot
of the parameters taken, and `eventHandler_accepted` and `eventHandler_rejected` are
the two halves of the specification. What a sequence of accepted packets, on any
channels, does to `p_Data` is one list of increments (`run_deliver`).
-/

namespace ADnED

/-- The two drivers treat an event that `det` sees alike. -/
structure AgreesAt (det : Nat) (d d' : Driver) : Prop where
  values : d'.det det = d.det det
  twoDType : d'.int det .twoDType = d.int det .twoDType
  tofNumBins : d'.int det .tofNumBins = d.int det .tofNumBins
  tofMax : d'.tofMax = d.tofMax
  transform : d'.transform det = d.transform det
  pixelMap : d'.pixelMap det = d.pixelMap det
  pixelMapSize : d'.pixelMapSize det = d.pixelMapSize det

/-- `d'` has the data of `d`. -/
structure SameData (d d' : Driver) : Prop where
  pData : d'.pData = d.pData
  detTotalEvents : d'.detTotalEvents = d.detTotalEvents

theorem SameData.trans {d d' d'' : Driver} (h : SameData d d') (h' : SameData d' d'') : SameData d d'' :=
  ⟨h'.pData.trans h.pData, h'.detTotalEvents.trans h.detTotalEvents⟩

/-- The driver with the snapshot of every detector taken. -/
def Driver.config (d : Driver) : Driver := { d with det := d.readDet }

/-- Measuring does not change how events are treated with a snapshot of the parameters. -/
theorem Handled.agreesAt {d d' : Driver} {det : Nat} (h : Handled d d') (read : d'.det det = d.readDet det) :
    AgreesAt det d.config d' := by
  refine ⟨read, h.int det .twoDType rfl, h.int det .tofNumBins rfl, ?_, ?_, ?_, ?_⟩
  all_goals
    rw [h.eq]
    rfl

namespace Driver

theorem inDet_congr {det : Nat} {d d' : Driver} (h : AgreesAt det d d') (pixel : UInt32) :
    d'.inDet det pixel = d.inDet det pixel := by
  simp only [inDet, h.values]

theorem integrateDet_congr {det : Nat} {d d' : Driver} (h : AgreesAt det d d') (pixel tof : UInt32)
    (v : LoopVars) : d'.integrateDet det pixel tof v = d.integrateDet det pixel tof v := by
  have spectrum : ∀ v, d'.bumpSpectrum det v = d.bumpSpectrum det v := by
    intro v
    unfold bumpSpectrum passesPixelROI
    rw [h.values, h.tofMax]
  have pixels : ∀ v, d'.bumpPixels det v = d.bumpPixels det v := by
    intro v
    simp only [bumpPixels, binnedIndex, h.values, h.tofMax]
  have tofs : d'.eventTOF det pixel tof = d.eventTOF det pixel tof := by
    simp only [eventTOF, pixelOffset, h.values, h.transform]
  have mapped : d'.mapPixel det pixel = d.mapPixel det pixel := by
    simp only [mapPixel, pixelOffset, h.values, h.pixelMap, h.pixelMapSize]
  simp only [integrateDet, inDet_congr h, tofs, mapped, pixels, spectrum, h.twoDType, h.tofNumBins, h.tofMax]

theorem trace_congr {d d' : Driver} {ts : List Turn} (h : ∀ t ∈ ts, AgreesAt t.1 d d') (v : LoopVars) :
    d'.trace ts v = d.trace ts v := by
  induction ts generalizing v with
  | nil => rfl
  | cons t ts ih =>
    have rest : d'.trace ts = d.trace ts := funext (ih fun t ht => h t (by simp [ht]))
    rw [trace, trace, integrateDet_congr (h t (by simp)), rest]

theorem hits_congr {d d' : Driver} {ts : List Turn} (h : ∀ t ∈ ts, AgreesAt t.1 d d') (det : Nat) :
    d'.hits det ts = d.hits det ts := by
  apply List.countP_congr
  intro t ht
  by_cases here : t.1 = det
  · have agrees := h t ht
    rw [here] at agrees
    simp [inDet_congr agrees]
  · simp [here]

/-! ## The parts of `eventHandler` -/

theorem timer_eq (d : Driver) (now : ℚ) : ∃ secs due, d.timer now = ({ d with lastTimeSecs := secs }, due) := by
  simp only [timer]
  split
  · exact ⟨d.lastTimeSecs, none, rfl⟩
  · exact ⟨now, _, rfl⟩

/-- A detector that is not in the list keeps its old snapshot. -/
theorem snapshot_other {ds : List Nat} {d : Driver} {det : Nat} (h : det ∉ ds) :
    (snapshot ds d).1.det det = d.det det := by
  induction ds generalizing d with
  | nil => rfl
  | cons e ds ih =>
    have other : det ≠ e := fun eq => h (by simp [eq])
    simp only [snapshot]
    split
    · simp [other]
    · rw [ih fun mem => h (by simp [mem])]
      simp [other]

theorem snapshot_frame (ds : List Nat) (d : Driver) :
    (snapshot ds d).1 = { d with det := (snapshot ds d).1.det } := by
  induction ds generalizing d with
  | nil => rfl
  | cons det ds ih =>
    simp only [snapshot]
    split
    · rfl
    · rw [ih]

/-- The snapshot loop gives up exactly at a detector whose pixel ROI has no width. -/
theorem snapshot_complete (ds : List Nat) (d : Driver) :
    (snapshot ds d).2 = true ↔ ∀ det ∈ ds, 0 < d.int det .pixelROISizeX := by
  induction ds generalizing d with
  | nil => simp [snapshot]
  | cons det ds ih =>
    have width : (d.readDet det).pixelROISizeX = d.int det .pixelROISizeX := rfl
    simp only [snapshot, Function.update_self, width]
    split
    · rename_i empty
      have none_wide : ¬ 0 < d.int det .pixelROISizeX := Int32.not_lt.2 empty
      simp [none_wide]
    · rename_i wide
      rw [ih]
      simp [Int32.not_le.1 wide]

/-- A complete snapshot holds the parameters as they were. -/
theorem snapshot_det {ds : List Nat} {d : Driver} (h : (snapshot ds d).2 = true) {det : Nat}
    (mem : det ∈ ds) : (snapshot ds d).1.det det = d.readDet det := by
  induction ds generalizing d with
  | nil => cases mem
  | cons e ds ih =>
    simp only [snapshot] at h ⊢
    split at h
    · cases h
    · rename_i wide
      rw [if_neg wide]
      by_cases later : det ∈ ds
      · exact ih h later
      · obtain rfl : det = e := by simpa [later] using mem
        rw [snapshot_other later]
        simp

/-- The snapshot loop as a whole. -/
theorem snapshot_eq (ds : List Nat) (d : Driver) :
    ∃ values, snapshot ds d = ({ d with det := values }, decide (∀ det ∈ ds, 0 < d.int det .pixelROISizeX)) ∧
      ((∀ det ∈ ds, 0 < d.int det .pixelROISizeX) → ∀ det ∈ ds, values det = d.readDet det) := by
  refine ⟨(snapshot ds d).1.det, Prod.ext (snapshot_frame ds d) ?_, ?_⟩
  · rw [Bool.eq_iff_iff, snapshot_complete, decide_eq_true_iff]
  · intro wide det mem
    exact snapshot_det ((snapshot_complete ds d).2 wide) mem

/-- The time stamp section leaves the data and the snapshot alone. -/
theorem noteTimeStamp_eq (d : Driver) (c : Nat) (ts : TimeStamp) :
    ∃ d', d.noteTimeStamp c ts = (d', decide (¬ ts.nanos < (d.timeStampLast c).nanos)) ∧
      Handled d d' ∧ SameData d d' ∧ d'.det = d.det := by
  refine ⟨(d.noteTimeStamp c ts).1, Prod.ext rfl ?_, noteTimeStamp_handled d c ts, ?_⟩
  · simp only [noteTimeStamp]
    split <;> simp [*]
  · simp only [noteTimeStamp, noteSeqID]
    split
    · exact ⟨⟨rfl, rfl⟩, rfl⟩
    · split <;> exact ⟨⟨rfl, rfl⟩, rfl⟩

theorem updateChannels_same (cs : List Nat) (d : Driver) : SameData d (d.updateChannels cs) := by
  induction cs generalizing d with
  | nil => exact ⟨rfl, rfl⟩
  | cons c cs ih =>
    rw [updateChannels]
    refine SameData.trans ?_ (ih _)
    exact ⟨rfl, rfl⟩

theorem updateDets_same (elapsed : ℚ) (ds : List Nat) (d : Driver) : SameData d (d.updateDets elapsed ds) := by
  induction ds generalizing d with
  | nil => exact ⟨rfl, rfl⟩
  | cons det ds ih =>
    rw [updateDets]
    refine SameData.trans ?_ (ih _)
    exact ⟨rfl, rfl⟩

theorem updateParams_same (d : Driver) (numChan numDet : Int32) (elapsed pCharge : ℚ) :
    SameData d (d.updateParams numChan numDet elapsed pCharge) := by
  let d₁ := d.updateChannels (List.range numChan.toInt.toNat)
  let d₂ := d₁.setInt 0 .pulseCounter d₁.pulseCounter.toInt32
  let d₃ := { d₂.setInt 0 .eventRate (rate d₂.eventsSinceLastUpdate elapsed) with eventsSinceLastUpdate := 0 }
  have channels : SameData d d₃ := (updateChannels_same _ d).trans ⟨rfl, rfl⟩
  exact (channels.trans (updateDets_same elapsed (dets numDet) d₃)).trans ⟨rfl, rfl⟩

theorem addPulse_same (d : Driver) (isNew : Bool) (pCharge : ℚ) : SameData d (d.addPulse isNew pCharge) := by
  unfold addPulse
  split <;> exact ⟨rfl, rfl⟩

/-! ## The specification of `eventHandler` -/

/-- The detectors that `eventHandler` looks at. -/
def active (d : Driver) : List Nat := dets d.numDetClamped

theorem active_le {d : Driver} {det : Nat} (h : det ∈ d.active) : det ≤ maxDets := by
  have bound := (mem_dets.1 h).2
  unfold numDetClamped at bound
  split at bound
  · exact bound
  · unfold maxDets at *
    omega

/-- Where `handleArrays` returns, by its checks in their order. -/
def arraysVerdict (d : Driver) (p : Packet) (paused : Bool) : Outcome :=
  if p.pCharge = none then .noPCharge
  else if d.pData = none ∨ d.dataMaxSize = 0 then .notAllocated
  else
    match p.pixels, p.tof with
    | some pixels, some tof =>
      if pixels.data.length ≠ tof.data.length then .lengthMismatch
      else if paused then .paused
      else .integrated
    | _, _ => .noArrays

/-- Where `handleStamp` returns. -/
def stampVerdict (d : Driver) (p : Packet) (paused : Bool) : Outcome :=
  match p.timeStamp with
  | none => .noTimeStamp
  | some ts =>
    if ts.nanos < (d.timeStampLast p.channelID).nanos then .backwards else d.arraysVerdict p paused

/-- Where `eventHandler` returns. -/
def verdict (d : Driver) (p : Packet) : Outcome :=
  if maxChannels ≤ p.channelID then .badChannel
  else if ∃ det ∈ d.active, d.int det .pixelROISizeX ≤ 0 then .badROISize
  else d.stampVerdict p (d.int 0 .pause ≠ 0)

/-- Either some pixel ROI has no width, or all have one. -/
theorem narrow_iff (d : Driver) : (∃ det ∈ d.active, d.int det .pixelROISizeX ≤ 0) ↔
    ¬ ∀ det ∈ d.active, 0 < d.int det .pixelROISizeX := by
  simp only [not_forall, Int32.not_lt, exists_prop]

end Driver

/-- The events of a packet. -/
def Packet.events (p : Packet) : List (UInt32 × UInt32) :=
  match p.pixels, p.tof with
  | some pixels, some tof => pixels.data.zip tof.data
  | _, _ => []

namespace Driver

/-- The return with outcome `o`, without any integration. -/
def Returns (d : Driver) (o : Outcome) (result : Option (Driver × Outcome)) : Prop :=
  ∃ d', result = some (d', o) ∧ SameData d d' ∧ o ≠ .integrated

theorem update_same (d : Driver) (h : HandlerVars) (pCharge : ℚ) :
    SameData d (match h.due with
      | some elapsed => d.updateParams h.numChan h.numDet elapsed pCharge
      | none => d) := by
  cases h.due with
  | none => exact ⟨rfl, rfl⟩
  | some elapsed => exact updateParams_same d h.numChan h.numDet elapsed pCharge

theorem countPacket_paused {d : Driver} {h : HandlerVars} (paused : h.paused = true) (b : List UInt32)
    (events : List (UInt32 × UInt32)) (isNew : Bool) (pCharge : ℚ) :
    d.Returns .paused (d.countPacket h b events isNew pCharge) := by
  simp only [countPacket, paused, if_true, Option.bind_eq_bind, Option.bind_some]
  refine ⟨_, rfl, ?_, by decide⟩
  refine SameData.trans ?_ (update_same _ h pCharge)
  exact ⟨rfl, rfl⟩

theorem handleArrays_cases (d : Driver) (h : HandlerVars) (p : Packet) (isNew : Bool) :
    d.Returns (d.arraysVerdict p h.paused) (d.handleArrays h p isNew) ∨
      d.arraysVerdict p h.paused = .integrated ∧ h.paused = false ∧ ∃ b pCharge, d.pData = some b ∧
        d.handleArrays h p isNew = d.countPacket h b p.events isNew pCharge := by
  have rejected : ∀ {o}, o ≠ .integrated → d.Returns o (some (d, o)) := fun h => ⟨d, rfl, ⟨rfl, rfl⟩, h⟩
  simp only [handleArrays, arraysVerdict, Packet.events]
  cases p.pCharge with
  | none => exact .inl (rejected (by simp))
  | some pCharge =>
    cases data : d.pData with
    | none => exact .inl (rejected (by simp))
    | some b =>
      by_cases empty : d.dataMaxSize = 0
      · simp only [empty, or_true, if_true]
        exact .inl (rejected (by simp))
      · simp only [empty, reduceCtorEq, or_self, if_false]
        cases p.pixels with
        | none => exact .inl (rejected (by simp))
        | some pixels =>
          cases p.tof with
          | none => exact .inl (rejected (by simp))
          | some tof =>
            by_cases lengths : pixels.data.length ≠ tof.data.length
            · simp only [if_pos lengths]
              exact .inl (rejected (by simp))
            · simp only [if_neg lengths]
              cases paused : h.paused with
              | true => exact .inl (countPacket_paused paused _ _ _ _)
              | false => exact .inr ⟨rfl, rfl, b, pCharge, rfl, rfl⟩

theorem handleStamp_cases (d : Driver) (h : HandlerVars) (p : Packet) :
    d.Returns (d.stampVerdict p h.paused) (d.handleStamp h p) ∨
      d.stampVerdict p h.paused = .integrated ∧ h.paused = false ∧ ∃ d₁ b isNew pCharge,
        d.pData = some b ∧ d.handleStamp h p = d₁.countPacket h b p.events isNew pCharge ∧
        Handled d d₁ ∧ SameData d d₁ ∧ d₁.det = d.det := by
  let d₀ := { d with seqCounter := Function.update d.seqCounter p.channelID (d.seqCounter p.channelID + 1) }
  have counted : Handled d d₀ := .of_members rfl
  cases stamp : p.timeStamp with
  | none =>
    simp only [handleStamp, stampVerdict, stamp]
    exact .inl ⟨_, rfl, ⟨rfl, rfl⟩, by decide⟩
  | some ts =>
    obtain ⟨d₁, noted, stamped, same, det⟩ := noteTimeStamp_eq d₀ p.channelID ts
    have size : d₁.dataMaxSize = d.dataMaxSize := by rw [stamped.eq]
    have data : d₁.pData = d.pData := same.pData
    have verdict : d₁.arraysVerdict p h.paused = d.arraysVerdict p h.paused := by
      simp only [arraysVerdict, size, data]
    simp only [handleStamp, stampVerdict, stamp]
    rw [noted]
    by_cases backwards : ts.nanos < (d.timeStampLast p.channelID).nanos
    · simp only [d₀, backwards, not_true, decide_false, if_true]
      exact .inl ⟨d₁, rfl, ⟨data, same.detTotalEvents⟩, by decide⟩
    · simp only [d₀, backwards, not_false_eq_true, decide_true, if_false]
      rw [← verdict]
      rcases handleArrays_cases d₁ h p (d₀.newPulse p.channelID ts) with
        ⟨d₂, result, same', rejected⟩ | ⟨accepted, running, b, pCharge, some_data, result⟩
      · exact .inl ⟨d₂, result, SameData.trans ⟨data, same.detTotalEvents⟩ same', rejected⟩
      · exact .inr ⟨accepted, running, d₁, b, _, pCharge, data.symm.trans some_data, result,
          counted.trans stamped, ⟨data, same.detTotalEvents⟩, det⟩

/-- `eventHandler` after the timer and the snapshot. -/
theorem eventHandler_eq {d d₀ d₁ : Driver} {p : Packet} {due : Option ℚ} {ok : Bool}
    (timed : d.timer p.now = (d₀, due)) (taken : snapshot (dets d₀.numDetClamped) d₀ = (d₁, ok)) :
    d.eventHandler p = if maxChannels ≤ p.channelID then some (d₀, .badChannel)
      else if ok then d₁.handleStamp ⟨decide (d.int 0 .pause ≠ 0), due, d₀.numChanClamped, d₀.numDetClamped⟩ p
      else some (d₁, .badROISize) := by
  simp only [eventHandler, timed, taken]
  cases ok <;> rfl

/-- The handler reaches the integration of an accepted packet in a driver with the
same data and with the snapshot taken. -/
structure Counts (d : Driver) (p : Packet) (d₁ : Driver) (h : HandlerVars) (b : List UInt32)
    (isNew : Bool) (pCharge : ℚ) : Prop where
  eq : d.eventHandler p = d₁.countPacket h b p.events isNew pCharge
  running : h.paused = false
  numDet : h.numDet = d.numDetClamped
  data : d.pData = some b
  totals : d₁.detTotalEvents = d.detTotalEvents
  agrees : ∀ det ∈ d.active, AgreesAt det d.config d₁

theorem eventHandler_cases (d : Driver) (p : Packet) :
    d.Returns (d.verdict p) (d.eventHandler p) ∨
      d.verdict p = .integrated ∧ ∃ d₁ h b isNew pCharge, d.Counts p d₁ h b isNew pCharge := by
  obtain ⟨secs, due, timed⟩ := timer_eq d p.now
  let d₀ := { d with lastTimeSecs := secs }
  obtain ⟨values, taken, read⟩ := snapshot_eq d.active d₀
  let d₁ := { d₀ with det := values }
  have configured : Handled d d₁ := .of_members rfl
  let h : HandlerVars := ⟨decide (d.int 0 .pause ≠ 0), due, d.numChanClamped, d.numDetClamped⟩
  have handler := eventHandler_eq timed taken
  rw [handler, verdict]
  by_cases channel : maxChannels ≤ p.channelID
  · simp only [if_pos channel]
    exact .inl ⟨_, rfl, ⟨rfl, rfl⟩, by decide⟩
  simp only [if_neg channel]
  by_cases wide : ∀ det ∈ d.active, 0 < d.int det .pixelROISizeX
  · have some_width := mt (narrow_iff d).1 (not_not_intro wide)
    have complete : decide (∀ det ∈ d.active, 0 < d₀.int det .pixelROISizeX) = true := decide_eq_true wide
    rw [if_neg some_width, complete]
    rcases handleStamp_cases d₁ h p with
      ⟨d₂, result, same, rejected⟩ | ⟨accepted, running, d₂, b, isNew, pCharge, data, result, handled, same, det⟩
    · exact .inl ⟨d₂, result, ⟨same.pData, same.detTotalEvents⟩, rejected⟩
    · refine .inr ⟨accepted, d₂, _, b, isNew, pCharge, ?_, running, rfl, data, same.detTotalEvents, ?_⟩
      · rw [handler, if_neg channel, complete]
        exact result
      · intro det' mem
        have snapped : d₂.det det' = d.readDet det' := by
          rw [det]
          exact read wide det' mem
        exact (configured.trans handled).agreesAt snapped
  · have no_width := (narrow_iff d).2 wide
    have incomplete : decide (∀ det ∈ d.active, 0 < d₀.int det .pixelROISizeX) = false := decide_eq_false wide
    rw [if_pos no_width, incomplete]
    exact .inl ⟨d₁, rfl, ⟨rfl, rfl⟩, by decide⟩

/-- The increments for a list of events. -/
def bumps (d : Driver) (ds : List Nat) (events : List (UInt32 × UInt32)) : Option (List Bump) :=
  (d.trace (turns ds events) .zero).map Prod.snd

/-- The integration as it is made for a packet. -/
theorem countPacket_data {d : Driver} {h : HandlerVars} (running : h.paused = false) (b : List UInt32)
    (events : List (UInt32 × UInt32)) (isNew : Bool) (pCharge : ℚ) :
    (d.countPacket h b events isNew pCharge).map (fun r => (r.2, r.1.pData, r.1.detTotalEvents)) =
      (d.bumps (dets h.numDet) events).bind fun bs => (Tally.bumpAll (bs.map Bump.index) b).map fun b' =>
        (.integrated, some b',
          fun det => dblSucc^[d.hits det (turns (dets h.numDet) events)] (d.detTotalEvents det)) := by
  let d₁ := { d with eventsSinceLastUpdate := d.eventsSinceLastUpdate + UInt32.ofNat events.length }
  have agrees : ∀ t ∈ turns (dets h.numDet) events, AgreesAt t.1 d d₁ :=
    fun _ _ => ⟨rfl, rfl, rfl, rfl, rfl, rfl, rfl⟩
  have counted : d.countPacket h b events isNew pCharge =
      ((d₁.integrate h.numDet b events).map (·.addPulse isNew pCharge)).bind fun d₂ =>
        some (match h.due with
          | some elapsed => d₂.updateParams h.numChan h.numDet elapsed pCharge
          | none => d₂, .integrated) := by
    simp only [countPacket, running]
    rfl
  rw [counted, integrate, integrateEvents_eq, trace_congr agrees, bumps]
  cases d.trace (turns (dets h.numDet) events) .zero with
  | none => rfl
  | some r =>
    simp only [Option.map_some, Option.bind_some]
    cases Tally.bumpAll (r.2.map Bump.index) b with
    | none => rfl
    | some b' =>
      simp only [Option.map_some, Option.bind_some, Integration.after, hits_congr agrees]
      have same := (addPulse_same { d₁ with
        pData := some b'
        detEventsSinceLastUpdate := fun det =>
          d.detEventsSinceLastUpdate det + UInt32.ofNat (d.hits det (turns (dets h.numDet) events))
        detTotalEvents := fun det =>
          dblSucc^[d.hits det (turns (dets h.numDet) events)] (d.detTotalEvents det) } isNew pCharge).trans
        (update_same _ h pCharge)
      exact congrArg some (Prod.ext rfl (Prod.ext same.pData same.detTotalEvents))

/-- A packet that does not pass the checks leaves the data alone. -/
theorem eventHandler_rejected {d : Driver} {p : Packet} (h : d.verdict p ≠ .integrated) :
    ∃ d', d.eventHandler p = some (d', d.verdict p) ∧ SameData d d' := by
  rcases eventHandler_cases d p with ⟨d', result, same, -⟩ | ⟨accepted, -⟩
  · exact ⟨d', result, same⟩
  · exact absurd accepted h

/-- **`eventHandler` on an accepted packet.** Its events are integrated with the
parameters as they are, and the data afterwards are those of its increments. -/
theorem eventHandler_accepted {d : Driver} {p : Packet} {b : List UInt32} (h : d.verdict p = .integrated)
    (data : d.pData = some b) :
    (d.eventHandler p).map (fun r => (r.2, r.1.pData, r.1.detTotalEvents)) =
      (d.config.bumps d.active p.events).bind fun bs => (Tally.bumpAll (bs.map Bump.index) b).map fun b' =>
        (.integrated, some b',
          fun det => dblSucc^[d.config.hits det (turns d.active p.events)] (d.detTotalEvents det)) := by
  rcases eventHandler_cases d p with ⟨d', result, same, rejected⟩ | ⟨-, d₁, vars, b', isNew, pCharge, counts⟩
  · exact absurd h rejected
  · obtain rfl : b' = b := Option.some.inj (counts.data.symm.trans data)
    have agrees : ∀ t ∈ turns d.active p.events, AgreesAt t.1 d.config d₁ := by
      intro t mem
      exact counts.agrees t.1 (mem_turns.1 mem).1
    rw [counts.eq, countPacket_data counts.running, counts.numDet, counts.totals]
    change ((d₁.bumps d.active p.events).bind _) = _
    rw [bumps, trace_congr agrees, bumps]
    have hits : ∀ det, d₁.hits det (turns (dets d.numDetClamped) p.events) =
        d.config.hits det (turns d.active p.events) := hits_congr agrees
    simp only [hits]

/-! ## Sequences of packets -/

/-- One call of `eventHandler`. -/
def deliver (d : Driver) (p : Packet) : Option Driver := (d.eventHandler p).map Prod.fst

/-- The packet passes all the checks, and the driver is not paused. -/
def Accepted (d : Driver) (p : Packet) : Prop := d.verdict p = .integrated

instance (d : Driver) (p : Packet) : Decidable (d.Accepted p) := inferInstanceAs (Decidable (_ = _))

/-- A packet is only accepted once there is a buffer. -/
theorem Accepted.data {d : Driver} {p : Packet} (h : d.Accepted p) : ∃ b, d.pData = some b := by
  rcases eventHandler_cases d p with ⟨d', -, -, rejected⟩ | ⟨-, d₁, vars, b, isNew, pCharge, counts⟩
  · exact absurd h rejected
  · exact ⟨b, counts.data⟩

/-- The increments for the packets of a sequence. -/
def bumpsOf (d : Driver) (ds : List Nat) : List (List (UInt32 × UInt32)) → Option (List Bump)
  | [] => some []
  | events :: rest => (d.bumps ds events).bind fun bs => (d.bumpsOf ds rest).map (bs ++ ·)

theorem deliver_handled {d d' : Driver} {p : Packet} (h : d.deliver p = some d') : Handled d d' := by
  obtain ⟨r, hr, rfl⟩ := Option.map_eq_some_iff.1 h
  exact eventHandler_handled hr

/-- The next packet is treated as this one was. -/
theorem config_agreesAt {d d' : Driver} (h : Handled d d') (det : Nat) : AgreesAt det d.config d'.config := by
  have read : d'.readDet det = d.readDet det := by
    unfold readDet
    congr 1 <;> first | exact h.int det _ rfl | exact h.dbl det _ rfl
  have kept : Handled d d'.config := h.trans (.of_members rfl)
  exact kept.agreesAt read

theorem active_congr {d d' : Driver} (h : Handled d d') : d'.active = d.active := by
  simp only [active, numDetClamped, h.int 0 .numDet rfl]

theorem bumpsOf_congr {d d' : Driver} {ds : List Nat} (h : ∀ det ∈ ds, AgreesAt det d d')
    (packets : List (List (UInt32 × UInt32))) : d'.bumpsOf ds packets = d.bumpsOf ds packets := by
  induction packets with
  | nil => rfl
  | cons events rest ih =>
    have agrees : ∀ t ∈ turns ds events, AgreesAt t.1 d d' := fun t mem => h t.1 (mem_turns.1 mem).1
    rw [bumpsOf, bumps, trace_congr agrees, ih, bumpsOf, bumps]

theorem deliver_accepted {d : Driver} {p : Packet} {b : List UInt32} (h : d.Accepted p) (data : d.pData = some b) :
    (d.deliver p).map (fun d' => (d'.pData, d'.detTotalEvents)) =
      (d.config.bumps d.active p.events).bind fun bs => (Tally.bumpAll (bs.map Bump.index) b).map fun b' =>
        (some b', fun det => dblSucc^[d.config.hits det (turns d.active p.events)] (d.detTotalEvents det)) := by
  have result := congrArg (Option.map Prod.snd) (eventHandler_accepted h data)
  simpa [deliver, Option.map_bind, Function.comp_def] using result

/-- **A sequence of accepted packets** makes the increments of all of them. -/
theorem run_deliver {d : Driver} {b : List UInt32} {packets : List Packet}
    (accepted : Runs.Meets deliver Accepted d packets) (data : d.pData = some b) :
    (Runs.run deliver d packets).map (fun d' => (d'.pData, d'.detTotalEvents)) =
      (d.config.bumpsOf d.active (packets.map Packet.events)).bind fun bs =>
        (Tally.bumpAll (bs.map Bump.index) b).map fun b' => (some b', fun det =>
          dblSucc^[d.config.hits det (turns d.active (packets.flatMap Packet.events))] (d.detTotalEvents det)) := by
  induction packets generalizing d b with
  | nil => simp [bumpsOf, Tally.bumpAll, turns, hits, data]
  | cons p packets ih =>
    obtain ⟨first, rest⟩ := accepted
    have result := deliver_accepted first data
    simp only [Runs.run_cons, List.map_cons, bumpsOf]
    cases bumped : d.config.bumps d.active p.events with
    | none =>
      rw [bumped] at result
      rw [Option.map_eq_none_iff.1 result]
      rfl
    | some bs =>
      rw [bumped] at result
      cases now : Tally.bumpAll (bs.map Bump.index) b with
      | none =>
        rw [Option.bind_some, now] at result
        simp [Option.map_eq_none_iff.1 result, Option.bind_map, Tally.bumpAll_append, now]
      | some b' =>
        rw [Option.bind_some, now, Option.map_some, Option.map_eq_some_iff] at result
        obtain ⟨d', delivered, same⟩ := result
        obtain ⟨data', totals⟩ := Prod.mk.inj same
        have frame := deliver_handled delivered
        have agrees := fun det (_ : det ∈ d.active) => config_agreesAt frame det
        rw [delivered, Option.bind_some, ih (rest d' delivered) data', active_congr frame,
          bumpsOf_congr agrees]
        have hits : ∀ det, d'.config.hits det (turns d.active (packets.flatMap Packet.events)) =
            d.config.hits det (turns d.active (packets.flatMap Packet.events)) :=
          hits_congr fun t _ => config_agreesAt frame t.1
        have counts : ∀ det, d.config.hits det (turns d.active ((p :: packets).flatMap Packet.events)) =
            d.config.hits det (turns d.active (packets.flatMap Packet.events)) +
              d.config.hits det (turns d.active p.events) := by
          intro det
          rw [List.flatMap_cons, turns_append, Driver.hits, List.countP_append, Nat.add_comm]
          rfl
        simp only [hits, counts, totals, Function.iterate_add_apply, Option.bind_some, Option.bind_map,
          Function.comp_def, List.map_append, Tally.bumpAll_append, now]

end Driver

end ADnED
