import ADnED.Driver.Packets

/-!
# The two stages of `eventHandler`

`eventHandler` takes its snapshot of the parameters, looks at the time stamp and makes
all its checks before it takes the lock for the integration. `snapshotStep` is that
first stage; what it carries over is a `Pending`. `integrationStep` is the second
stage, on whatever the driver is by then, and `eventHandler` is one right after the
other (`eventHandler_stages`). Each stage has a frame (`Noted`, `Published`). What the
first one does to the accounts of a channel is the function `Ledger.note`
(`snapshotStep_ledger`).
-/

namespace ADnED

/-- The locals of `eventHandler` at its last `lock()`. -/
structure Pending where
  vars : HandlerVars
  events : List (UInt32 × UInt32)
  isNew : Bool
  pCharge : ℚ

/-- The packet adds its proton charge. -/
def Pending.adds (v : Pending) : Bool := !v.vars.paused && v.isNew

namespace Driver

/-- The checks after the time stamp section. -/
def checkArrays (d : Driver) (h : HandlerVars) (p : Packet) (isNew : Bool) : Except Outcome Pending :=
  match p.pCharge with
  | none => .error .noPCharge
  | some pCharge =>
    if d.pData = none ∨ d.dataMaxSize = 0 then .error .notAllocated
    else
      match p.pixels, p.tof with
      | some pixels, some tof =>
        if pixels.data.length ≠ tof.data.length then .error .lengthMismatch
        else .ok ⟨h, pixels.data.zip tof.data, isNew, pCharge⟩
      | _, _ => .error .noArrays

/-- The time stamp section and the checks after it. -/
def stampStep (d : Driver) (h : HandlerVars) (p : Packet) : Driver × Except Outcome Pending :=
  let c := p.channelID
  let d := { d with seqCounter := Function.update d.seqCounter c (d.seqCounter c + 1) }
  match p.timeStamp with
  | none => (d, .error .noTimeStamp)
  | some ts =>
    match d.noteTimeStamp c ts with
    | (d', false) => (d', .error .backwards)
    | (d', true) => (d', d'.checkArrays h p (d.newPulse c ts))

/-- `eventHandler` up to its last `lock()`: the outcome if it returns before that, and else
what it integrates. -/
def snapshotStep (d : Driver) (p : Packet) : Driver × Except Outcome Pending :=
  let paused := d.int 0 .pause ≠ 0
  match d.timer p.now with
  | (d, due) =>
    if maxChannels ≤ p.channelID then (d, .error .badChannel)
    else
      let h : HandlerVars := ⟨paused, due, d.numChanClamped, d.numDetClamped⟩
      match snapshot (dets h.numDet) d with
      | (d, false) => (d, .error .badROISize)
      | (d, true) => d.stampStep h p

/-- `m_eventsSinceLastUpdate += pixelsLength`. -/
def noteEvents (d : Driver) (v : Pending) : Driver :=
  { d with eventsSinceLastUpdate := d.eventsSinceLastUpdate + UInt32.ofNat v.events.length }

/-- The counting of a packet. `p_Data` is read here, and may have become NULL since it was
checked. -/
def tally (d : Driver) (v : Pending) : Option Driver :=
  if v.vars.paused then some (d.noteEvents v)
  else ((d.noteEvents v).integrate v.vars.numDet (d.pData.getD []) v.events).map fun d' =>
    { d'.addPulse v.isNew v.pCharge with pData := d.pData.bind fun _ => d'.pData }

/-- The parameter update, if one is due. -/
def publish (d : Driver) (v : Pending) : Driver :=
  match v.vars.due with
  | some elapsed => d.updateParams v.vars.numChan v.vars.numDet elapsed v.pCharge
  | none => d

/-- `eventHandler` from its last `lock()` on. -/
def integrationStep (d : Driver) (v : Pending) : Option (Driver × Outcome) :=
  (d.tally v).map fun d' => (d'.publish v, if v.vars.paused then .paused else .integrated)

/-- The second stage right after the first one. -/
def resume : Driver × Except Outcome Pending → Option (Driver × Outcome)
  | (d, .error o) => some (d, o)
  | (d, .ok v) => d.integrationStep v

/-! ## The stages make up the function -/

theorem addPulse_pData (d : Driver) (isNew : Bool) (pCharge : ℚ) : (d.addPulse isNew pCharge).pData = d.pData :=
  (addPulse_same d isNew pCharge).pData

theorem countPacket_eq (d : Driver) (b : List UInt32) (v : Pending) :
    d.countPacket v.vars b v.events v.isNew v.pCharge =
      (if v.vars.paused then some (d.noteEvents v)
        else ((d.noteEvents v).integrate v.vars.numDet b v.events).map (·.addPulse v.isNew v.pCharge)).map
          fun d' => (d'.publish v, if v.vars.paused then .paused else .integrated) := by
  cases paused : v.vars.paused with
  | true =>
    simp only [countPacket, paused, if_true]
    rfl
  | false =>
    simp only [countPacket, paused, Bool.false_eq_true, if_false, Option.map_eq_bind]
    rfl

theorem integrationStep_eq {d : Driver} {b : List UInt32} (data : d.pData = some b) (v : Pending) :
    d.integrationStep v = d.countPacket v.vars b v.events v.isNew v.pCharge := by
  have same : ∀ d' : Driver, { d'.addPulse v.isNew v.pCharge with pData := d'.pData } =
      d'.addPulse v.isNew v.pCharge := by
    intro d'
    rw [← addPulse_pData d' v.isNew v.pCharge]
  rw [countPacket_eq, integrationStep, tally, data]
  simp only [Option.getD_some, Option.bind_some, same]

theorem resume_checkArrays (d : Driver) (h : HandlerVars) (p : Packet) (isNew : Bool) :
    resume (d, d.checkArrays h p isNew) = d.handleArrays h p isNew := by
  simp only [checkArrays, handleArrays]
  cases p.pCharge with
  | none => rfl
  | some pCharge =>
    cases data : d.pData with
    | none => rfl
    | some b =>
      by_cases empty : d.dataMaxSize = 0
      · simp [empty, resume]
      · simp only [empty, reduceCtorEq, or_self, if_false]
        cases p.pixels with
        | none => rfl
        | some pixels =>
          cases p.tof with
          | none => rfl
          | some tof =>
            by_cases lengths : pixels.data.length ≠ tof.data.length
            · simp only [if_pos lengths]
              rfl
            · simp only [if_neg lengths]
              exact integrationStep_eq data _

theorem resume_stampStep (d : Driver) (h : HandlerVars) (p : Packet) :
    resume (d.stampStep h p) = d.handleStamp h p := by
  simp only [stampStep, handleStamp]
  cases p.timeStamp with
  | none => rfl
  | some ts =>
    simp only
    rcases noteTimeStamp { d with
      seqCounter := Function.update d.seqCounter p.channelID (d.seqCounter p.channelID + 1) } p.channelID ts with
      ⟨d', inOrder⟩
    cases inOrder with
    | false => rfl
    | true => exact resume_checkArrays _ _ _ _

/-- **`eventHandler` is its two stages in a row.** -/
theorem eventHandler_stages (d : Driver) (p : Packet) : d.eventHandler p = resume (d.snapshotStep p) := by
  simp only [eventHandler, snapshotStep]
  by_cases channel : maxChannels ≤ p.channelID
  · rw [if_pos channel, if_pos channel]
    rfl
  · rw [if_neg channel, if_neg channel]
    rcases snapshot (dets (d.timer p.now).1.numDetClamped) (d.timer p.now).1 with ⟨d', complete⟩
    cases complete with
    | false => rfl
    | true => exact (resume_stampStep _ _ p).symm

end Driver

/-! ## What a stage leaves alone -/

/-- The readbacks of the time stamp section. -/
def IntParam.isStamp : IntParam → Bool
  | .seqIDMissing | .seqIDNumMissing | .badTimeStamp => true
  | _ => false

/-- `d'` is `d` after some first stages. -/
structure Noted (d d' : Driver) : Prop where
  eq : d' = { d with
    int := d'.int, seqCounter := d'.seqCounter, seqID := d'.seqID, lastSeqID := d'.lastSeqID
    lastTimeSecs := d'.lastTimeSecs, timeStamp := d'.timeStamp, timeStampLast := d'.timeStampLast
    det := d'.det }
  int : ∀ addr p, p.isStamp = false → d'.int addr p = d.int addr p

/-- `d'` is `d` after some updates of the parameters. -/
structure Published (d d' : Driver) : Prop where
  eq : d' = { d with
    int := d'.int, dbl := d'.dbl, eventsSinceLastUpdate := d'.eventsSinceLastUpdate
    detEventsSinceLastUpdate := d'.detEventsSinceLastUpdate }
  int : ∀ addr p, p.measured = false ∨ p.isStamp = true → d'.int addr p = d.int addr p
  dbl : ∀ addr p, p.measured = false → d'.dbl addr p = d.dbl addr p

namespace Noted

variable {d d' d'' : Driver}

theorem of_members (eq : d' = { d with
      seqCounter := d'.seqCounter, seqID := d'.seqID, lastSeqID := d'.lastSeqID
      lastTimeSecs := d'.lastTimeSecs, timeStamp := d'.timeStamp, timeStampLast := d'.timeStampLast
      det := d'.det }) : Noted d d' := by
  rw [eq]
  exact ⟨rfl, fun _ _ _ => rfl⟩

theorem trans (h : Noted d d') (h' : Noted d' d'') : Noted d d'' where
  eq := by rw [h'.eq, h.eq]
  int := fun addr p hp => (h'.int addr p hp).trans (h.int addr p hp)

theorem setInt (h : Noted d d') (addr : Nat) {p : IntParam} (v : Int32) (hp : p.isStamp = true) :
    Noted d (d'.setInt addr p v) := by
  refine h.trans ⟨rfl, ?_⟩
  intro a q hq
  have other : q ≠ p := ne_of_apply_ne IntParam.isStamp (by simp [hp, hq])
  simp [Driver.setInt, other]

end Noted

namespace Published

variable {d d' d'' : Driver}

theorem of_members (eq : d' = { d with
      eventsSinceLastUpdate := d'.eventsSinceLastUpdate
      detEventsSinceLastUpdate := d'.detEventsSinceLastUpdate }) : Published d d' := by
  rw [eq]
  exact ⟨rfl, fun _ _ _ => rfl, fun _ _ _ => rfl⟩

theorem trans (h : Published d d') (h' : Published d' d'') : Published d d'' where
  eq := by rw [h'.eq, h.eq]
  int := fun addr p hp => (h'.int addr p hp).trans (h.int addr p hp)
  dbl := fun addr p hp => (h'.dbl addr p hp).trans (h.dbl addr p hp)

theorem setInt (h : Published d d') (addr : Nat) {p : IntParam} (v : Int32)
    (hp : p.measured = true ∧ p.isStamp = false) : Published d (d'.setInt addr p v) := by
  refine h.trans ⟨rfl, ?_, fun _ _ _ => rfl⟩
  intro a q hq
  have other : q ≠ p := by
    rintro rfl
    simp [hp] at hq
  simp [Driver.setInt, other]

theorem setDbl (h : Published d d') (addr : Nat) {p : DblParam} (v : ℚ) (hp : p.measured = true) :
    Published d (d'.setDbl addr p v) := by
  refine h.trans ⟨rfl, fun _ _ _ => rfl, ?_⟩
  intro a q hq
  have other : q ≠ p := ne_of_apply_ne DblParam.measured (by simp [hp, hq])
  simp [Driver.setDbl, other]

end Published

namespace Driver

theorem noteSeqID_noted (d : Driver) (c : Nat) (seqID : UInt32) : Noted d (d.noteSeqID c seqID) := by
  have noted : Noted d { d with seqID := Function.update d.seqID c seqID } := .of_members rfl
  simp only [noteSeqID]
  split
  · exact ((noted.setInt c _ rfl).setInt c _ rfl).trans (.of_members rfl)
  · exact noted.trans (.of_members rfl)

theorem noteTimeStamp_noted (d : Driver) (c : Nat) (ts : TimeStamp) : Noted d (d.noteTimeStamp c ts).1 := by
  let last := (d.timeStampLast c).put ts.secondsPastEpoch ts.nanoseconds
  let d₁ := { d with timeStamp := Function.update d.timeStamp c ts }
  let d₂ := { d₁ with timeStampLast := Function.update d.timeStampLast c last }
  have stamped : Noted d d₁ := .of_members rfl
  have advanced : Noted d d₂ := .of_members rfl
  simp only [noteTimeStamp]
  split
  · exact stamped.setInt c 1 rfl
  · exact advanced.trans (noteSeqID_noted d₂ c _)

/-- The packet of `p` has been counted on its channel. -/
def countSeq (d : Driver) (c : Nat) : Driver :=
  { d with seqCounter := Function.update d.seqCounter c (d.seqCounter c + 1) }

/-- The time stamp section. -/
def stamp (d : Driver) (p : Packet) : Driver :=
  match p.timeStamp with
  | none => d.countSeq p.channelID
  | some ts => ((d.countSeq p.channelID).noteTimeStamp p.channelID ts).1

theorem stamp_noted (d : Driver) (p : Packet) : Noted d (d.stamp p) := by
  have counted : Noted d (d.countSeq p.channelID) := .of_members rfl
  unfold stamp
  cases p.timeStamp with
  | none => exact counted
  | some ts => exact counted.trans (noteTimeStamp_noted _ _ ts)

/-- Every detector in use has a pixel ROI of some width. -/
def Wide (d : Driver) : Prop := ∀ det ∈ d.active, 0 < d.int det .pixelROISizeX

instance (d : Driver) : Decidable d.Wide := inferInstanceAs (Decidable (∀ det ∈ d.active, _))

/-- The locals that the first stage has read when it looks at the time stamp. -/
def handlerVars (d : Driver) (now : ℚ) : HandlerVars :=
  ⟨d.int 0 .pause ≠ 0, (d.timer now).2, d.numChanClamped, d.numDetClamped⟩

/-- The checks from the time stamp on. -/
def checkStamp (d : Driver) (h : HandlerVars) (p : Packet) : Except Outcome Pending :=
  match p.timeStamp with
  | none => .error .noTimeStamp
  | some ts =>
    if ts.nanos < (d.timeStampLast p.channelID).nanos then .error .backwards
    else d.checkArrays h p (d.newPulse p.channelID ts)

/-- All the checks of the first stage. -/
def check (d : Driver) (p : Packet) : Except Outcome Pending :=
  if maxChannels ≤ p.channelID then .error .badChannel
  else if d.Wide then d.checkStamp (d.handlerVars p.now) p
  else .error .badROISize

theorem checkArrays_congr {d d' : Driver} (data : d'.pData = d.pData) (size : d'.dataMaxSize = d.dataMaxSize)
    (h : HandlerVars) (p : Packet) (isNew : Bool) : d'.checkArrays h p isNew = d.checkArrays h p isNew := by
  rw [checkArrays, data, size, checkArrays]

/-- The first stage from the time stamp section on. -/
theorem stampStep_eq (d : Driver) (h : HandlerVars) (p : Packet) :
    d.stampStep h p = (d.stamp p, d.checkStamp h p) := by
  simp only [stampStep, stamp, checkStamp]
  cases p.timeStamp with
  | none => rfl
  | some ts =>
    obtain ⟨d', noted, handled, same, -⟩ := noteTimeStamp_eq (d.countSeq p.channelID) p.channelID ts
    have size : d'.dataMaxSize = d.dataMaxSize := by rw [handled.eq]; rfl
    simp only [countSeq] at noted ⊢
    rw [noted]
    by_cases backwards : ts.nanos < (d.timeStampLast p.channelID).nanos
    · simp [backwards]
    · simp only [backwards, not_false_eq_true, decide_true, if_false]
      rw [checkArrays_congr same.pData size]
      rfl

/-- The first stage after the timer and the snapshot loop. -/
theorem snapshotStep_of {d d₀ d₁ : Driver} {p : Packet} {due : Option ℚ} {ok : Bool}
    (timed : d.timer p.now = (d₀, due)) (taken : snapshot (dets d₀.numDetClamped) d₀ = (d₁, ok)) :
    d.snapshotStep p = if maxChannels ≤ p.channelID then (d₀, .error .badChannel)
      else if ok then d₁.stampStep ⟨decide (d.int 0 .pause ≠ 0), due, d₀.numChanClamped, d₀.numDetClamped⟩ p
      else (d₁, .error .badROISize) := by
  simp only [snapshotStep, timed, taken]
  cases ok <;> rfl

/-- **The first stage.** The stamps are looked at only on a valid channel, and only if every pixel
ROI has some width; then the snapshot holds the parameters as they are. -/
theorem snapshotStep_eq (d : Driver) (p : Packet) :
    ∃ secs values, d.snapshotStep p = (if p.channelID < maxChannels ∧ d.Wide
        then ({ d with lastTimeSecs := secs, det := values } : Driver).stamp p
        else { d with lastTimeSecs := secs, det := values }, d.check p) ∧
      (p.channelID < maxChannels ∧ d.Wide → ∀ det ∈ d.active, values det = d.readDet det) := by
  obtain ⟨secs, due, timed⟩ := timer_eq d p.now
  obtain ⟨values, taken, read⟩ := snapshot_eq d.active { d with lastTimeSecs := secs }
  have step := snapshotStep_of timed taken
  have vars : d.handlerVars p.now = ⟨decide (d.int 0 .pause ≠ 0), due, d.numChanClamped, d.numDetClamped⟩ := by
    rw [handlerVars, timed]
  by_cases channel : maxChannels ≤ p.channelID
  · refine ⟨secs, d.det, ?_, fun valid => absurd channel (by omega)⟩
    rw [step, if_pos channel, if_neg (by omega), check, if_pos channel]
  · refine ⟨secs, values, ?_, fun valid => read valid.2⟩
    rw [step, if_neg channel, check, if_neg channel]
    by_cases wide : d.Wide
    · have complete : decide (∀ det ∈ d.active, 0 < d.int det .pixelROISizeX) = true := decide_eq_true wide
      rw [complete, if_pos rfl, if_pos wide, if_pos ⟨by omega, wide⟩, stampStep_eq, vars]
      rfl
    · have incomplete : decide (∀ det ∈ d.active, 0 < d.int det .pixelROISizeX) = false := decide_eq_false wide
      rw [incomplete, if_neg Bool.false_ne_true, if_neg wide, if_neg fun valid => wide valid.2]

theorem snapshotStep_check (d : Driver) (p : Packet) : (d.snapshotStep p).2 = d.check p := by
  obtain ⟨secs, values, step, -⟩ := snapshotStep_eq d p
  rw [step]

theorem snapshotStep_noted (d : Driver) (p : Packet) : Noted d (d.snapshotStep p).1 := by
  obtain ⟨secs, values, step, -⟩ := snapshotStep_eq d p
  have read : Noted d { d with lastTimeSecs := secs, det := values } := .of_members rfl
  rw [step]
  split
  · exact read.trans (stamp_noted _ p)
  · exact read

/-! ## The checks and the verdict -/

/-- What a packet that passes the checks carries over. -/
structure Ready (d : Driver) (p : Packet) (v : Pending) : Prop where
  channel : p.channelID < maxChannels
  wide : d.Wide
  vars : v.vars = d.handlerVars p.now
  events : v.events = p.events
  pCharge : p.pCharge = some v.pCharge
  allocated : d.pData ≠ none ∧ d.dataMaxSize ≠ 0
  stamp : ∃ ts, p.timeStamp = some ts ∧ ¬ ts.nanos < (d.timeStampLast p.channelID).nanos ∧
    v.isNew = d.newPulse p.channelID ts

theorem checkArrays_cases (d : Driver) (h : HandlerVars) (p : Packet) (isNew : Bool) :
    d.checkArrays h p isNew = .error (d.arraysVerdict p h.paused) ∧ d.arraysVerdict p h.paused ≠ .integrated ∨
      ∃ pCharge, p.pCharge = some pCharge ∧ (d.pData ≠ none ∧ d.dataMaxSize ≠ 0) ∧
        d.checkArrays h p isNew = .ok ⟨h, p.events, isNew, pCharge⟩ ∧
        d.arraysVerdict p h.paused = if h.paused then .paused else .integrated := by
  unfold checkArrays arraysVerdict Packet.events
  cases p.pCharge with
  | none => simp
  | some pCharge =>
    by_cases absent : d.pData = none ∨ d.dataMaxSize = 0
    · simp [absent]
    · simp only [if_neg absent, reduceCtorEq, if_false]
      cases p.pixels with
      | none => simp
      | some pixels =>
        cases p.tof with
        | none => simp
        | some tof =>
          by_cases lengths : pixels.data.length = tof.data.length
          · simp [lengths, not_or.1 absent]
          · simp [lengths]

/-- The checks fail with the verdict, or let a packet through to be counted. -/
theorem check_cases (d : Driver) (p : Packet) :
    d.check p = .error (d.verdict p) ∧ d.verdict p ≠ .integrated ∨
      ∃ v, d.check p = .ok v ∧ d.Ready p v ∧
        d.verdict p = if v.vars.paused then .paused else .integrated := by
  unfold check verdict
  by_cases channel : maxChannels ≤ p.channelID
  · simp [channel]
  rw [if_neg channel, if_neg channel]
  by_cases wide : d.Wide
  · have some_width := mt (narrow_iff d).1 (not_not_intro wide)
    rw [if_pos wide, if_neg some_width]
    unfold checkStamp stampVerdict
    cases stamp : p.timeStamp with
    | none => simp
    | some ts =>
      by_cases backwards : ts.nanos < (d.timeStampLast p.channelID).nanos
      · simp [backwards]
      · simp only [if_neg backwards]
        rcases checkArrays_cases d (d.handlerVars p.now) p (d.newPulse p.channelID ts) with
          rejected | ⟨pCharge, charge, allocated, ok, accepted⟩
        · exact .inl rejected
        · exact .inr ⟨_, ok, ⟨by omega, wide, rfl, rfl, charge, allocated, ts, stamp, backwards, rfl⟩, accepted⟩
  · have no_width := (narrow_iff d).2 wide
    simp [wide, no_width]

theorem stamp_det (d : Driver) (p : Packet) : (d.stamp p).det = d.det := by
  unfold stamp
  cases p.timeStamp with
  | none => rfl
  | some ts =>
    obtain ⟨d', noted, -, -, det⟩ := noteTimeStamp_eq (d.countSeq p.channelID) p.channelID ts
    simp only [noted]
    exact det

/-- A packet that passes the checks leaves the snapshot of every detector in use. -/
theorem snapshotStep_ok {d : Driver} {p : Packet} {v : Pending} (h : (d.snapshotStep p).2 = .ok v) :
    d.Ready p v ∧ ∀ det ∈ d.active, (d.snapshotStep p).1.det det = d.readDet det := by
  obtain ⟨secs, values, step, read⟩ := snapshotStep_eq d p
  rw [step] at h
  have ready : d.Ready p v := by
    rcases check_cases d p with ⟨rejected, -⟩ | ⟨w, passed, ready, -⟩
    · cases rejected.symm.trans h
    · cases passed.symm.trans h
      exact ready
  refine ⟨ready, fun det mem => ?_⟩
  rw [step, if_pos ⟨ready.channel, ready.wide⟩, stamp_det]
  exact read ⟨ready.channel, ready.wide⟩ det mem

/-! ## The second stage -/

theorem updateChannels_published (cs : List Nat) (d : Driver) : Published d (d.updateChannels cs) := by
  induction cs generalizing d with
  | nil => exact .of_members rfl
  | cons c cs ih =>
    exact (((Published.of_members (d := d) rfl).setInt c _ ⟨rfl, rfl⟩).setInt c _ ⟨rfl, rfl⟩).trans (ih _)

theorem updateDets_published (elapsed : ℚ) (ds : List Nat) (d : Driver) :
    Published d (d.updateDets elapsed ds) := by
  induction ds generalizing d with
  | nil => exact .of_members rfl
  | cons det ds ih =>
    have rated : Published d (d.setInt det .detEventRate (rate (d.detEventsSinceLastUpdate det) elapsed)) :=
      (Published.of_members rfl).setInt det _ ⟨rfl, rfl⟩
    exact ((rated.trans (.of_members rfl)).setDbl det _ rfl).trans (ih _)

theorem publish_published (d : Driver) (v : Pending) : Published d (d.publish v) := by
  unfold publish
  cases v.vars.due with
  | none => exact .of_members rfl
  | some elapsed =>
    let d₁ := d.updateChannels (List.range v.vars.numChan.toInt.toNat)
    let d₂ := d₁.setInt 0 .pulseCounter d₁.pulseCounter.toInt32
    let d₃ := d₂.setInt 0 .eventRate (rate d₂.eventsSinceLastUpdate elapsed)
    have rated : Published d d₃ :=
      ((updateChannels_published _ d).setInt 0 _ ⟨rfl, rfl⟩).setInt 0 _ ⟨rfl, rfl⟩
    have channels : Published d { d₃ with eventsSinceLastUpdate := 0 } := rated.trans (.of_members rfl)
    have detectors := channels.trans (updateDets_published elapsed (dets v.vars.numDet) _)
    exact (detectors.setDbl 0 v.pCharge rfl).setDbl 0 _ rfl

/-- What the counting changes, and the pulse it adds. -/
theorem tally_eq {d d' : Driver} {v : Pending} (h : d.tally v = some d') :
    d' = { d with
      eventsSinceLastUpdate := d.eventsSinceLastUpdate + UInt32.ofNat v.events.length
      pulseCounter := if v.adds then d.pulseCounter + 1 else d.pulseCounter
      pChargeInt := if v.adds then d.pChargeInt + v.pCharge else d.pChargeInt
      pData := d'.pData, detEventsSinceLastUpdate := d'.detEventsSinceLastUpdate
      detTotalEvents := d'.detTotalEvents } := by
  unfold tally at h
  cases paused : v.vars.paused with
  | true =>
    rw [paused, if_pos rfl] at h
    cases h
    simp [noteEvents, Pending.adds, paused]
  | false =>
    rw [paused, if_neg Bool.false_ne_true] at h
    obtain ⟨d₁, integrated, rfl⟩ := Option.map_eq_some_iff.1 h
    obtain ⟨s, -, rfl⟩ := Option.map_eq_some_iff.1 integrated
    cases isNew : v.isNew <;> simp [noteEvents, Pending.adds, addPulse, paused, isNew]

/-- The counts of the detectors. -/
theorem tally_detEvents {d d' : Driver} {v : Pending} (h : d.tally v = some d') (det : Nat) :
    d'.detEventsSinceLastUpdate det = if v.vars.paused then d.detEventsSinceLastUpdate det
      else d.detEventsSinceLastUpdate det + UInt32.ofNat (d.hits det (turns (dets v.vars.numDet) v.events)) := by
  unfold tally at h
  split at h
  · rename_i paused
    cases h
    rw [if_pos paused]
    rfl
  · rename_i running
    obtain ⟨d₁, integrated, rfl⟩ := Option.map_eq_some_iff.1 h
    obtain ⟨s, loop, rfl⟩ := Option.map_eq_some_iff.1 integrated
    rw [if_neg running]
    rw [integrateEvents_eq] at loop
    obtain ⟨r, -, loop⟩ := Option.bind_eq_some_iff.1 loop
    obtain ⟨b, -, rfl⟩ := Option.map_eq_some_iff.1 loop
    cases isNew : v.isNew <;> rfl

/-- How a call ends: the first stage returns, or the second one counts the packet. -/
theorem resume_cases {s : Driver × Except Outcome Pending} {r : Driver × Outcome} (h : resume s = some r) :
    (∃ o, s.2 = .error o ∧ r = (s.1, o)) ∨
      ∃ v d', s.2 = .ok v ∧ s.1.tally v = some d' ∧
        r = (d'.publish v, if v.vars.paused then .paused else .integrated) := by
  obtain ⟨d, checked⟩ := s
  cases checked with
  | error o =>
    cases h
    exact .inl ⟨o, rfl, rfl⟩
  | ok v =>
    obtain ⟨d', tallied, rfl⟩ := Option.map_eq_some_iff.1 h
    exact .inr ⟨v, d', rfl, tallied, rfl⟩

end Driver

end ADnED
