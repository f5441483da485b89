import ADnED.Tasks.Clears
import ADnED.Tasks.DataFrame
import ADnED.Tasks.Snapshots

/-!
# The calls of `eventHandler` in a row

The monitors of the channels call `eventHandler` from threads of their own, so that its two
stages interleave with those of other calls and with the tasks. As long as no setting is
written and nothing is cleared in between (so there is no Start, and `eventTask` is not in the
section of a start, which zeroes `p_Data`), this does not show: the counts are those of a
driver that handles one packet after the other, in the order of the second stages
(`handlers_atomic`). A channel keeps the order of its packets, and none is lost or counted
twice.

The sequential driver is always a little behind: the packets in flight have been entered in
the ledgers of their channels already (`Behind`).
-/

namespace ADnED

/-- What a call carries over, without the update timer. -/
def Pending.timeless (v : Pending) : Pending := { v with vars := { v.vars with due := none } }

/-- What the packets are counted by is the same. -/
structure SameGround (d e : Driver) : Prop where
  setup : SameSetup d e
  tofMax : e.tofMax = d.tofMax
  dataMaxSize : e.dataMaxSize = d.dataMaxSize
  pause : e.int 0 .pause = d.int 0 .pause

/-- What has been counted is the same. -/
structure SameTallies (d e : Driver) : Prop where
  pData : e.pData = d.pData
  detTotalEvents : e.detTotalEvents = d.detTotalEvents
  pulseCounter : e.pulseCounter = d.pulseCounter
  pChargeInt : e.pChargeInt = d.pChargeInt

namespace SameGround

variable {d e e' : Driver}

theorem symm (h : SameGround d e) : SameGround e d where
  setup := h.setup.symm
  tofMax := h.tofMax.symm
  dataMaxSize := h.dataMaxSize.symm
  pause := h.pause.symm

theorem trans (h : SameGround d e) (h' : SameGround e e') : SameGround d e' where
  setup := h.setup.trans h'.setup
  tofMax := h'.tofMax.trans h.tofMax
  dataMaxSize := h'.dataMaxSize.trans h.dataMaxSize
  pause := h'.pause.trans h.pause

theorem of_handled (h : Handled d e) : SameGround d e where
  setup := .of_handled h
  tofMax := by rw [h.eq]
  dataMaxSize := by rw [h.eq]
  pause := h.int 0 .pause rfl

theorem of_noted (h : Noted d e) : SameGround d e := by
  refine .of_handled ⟨by rw [h.eq], fun addr p measured => h.int addr p ?_, fun addr p _ => by rw [h.eq], by rw [h.eq]⟩
  cases p <;> first | rfl | cases measured

theorem of_published (h : Published d e) : SameGround d e :=
  .of_handled ⟨by rw [h.eq], fun addr p measured => h.int addr p (.inl measured), h.dbl, by rw [h.eq]⟩

theorem of_tally {v : Pending} (h : d.tally v = some e) : SameGround d e := by
  rw [Driver.tally_eq h]
  exact ⟨⟨fun _ _ _ _ => rfl, fun _ _ _ _ => rfl, fun _ _ => rfl, fun _ _ => rfl, fun _ _ => rfl⟩, rfl, rfl, rfl⟩

theorem of_integrationStep {v : Pending} {r : Driver × Outcome} (h : d.integrationStep v = some r) :
    SameGround d r.1 := by
  obtain ⟨d', tallied, rfl⟩ := Option.map_eq_some_iff.1 h
  exact (of_tally tallied).trans (of_published (Driver.publish_published d' v))

end SameGround

namespace SameTallies

variable {d e e' : Driver}

theorem symm (h : SameTallies d e) : SameTallies e d :=
  ⟨h.pData.symm, h.detTotalEvents.symm, h.pulseCounter.symm, h.pChargeInt.symm⟩

theorem trans (h : SameTallies d e) (h' : SameTallies e e') : SameTallies d e' where
  pData := h'.pData.trans h.pData
  detTotalEvents := h'.detTotalEvents.trans h.detTotalEvents
  pulseCounter := h'.pulseCounter.trans h.pulseCounter
  pChargeInt := h'.pChargeInt.trans h.pChargeInt

theorem of_noted (h : Noted d e) : SameTallies d e := by
  rw [h.eq]
  exact ⟨rfl, rfl, rfl, rfl⟩

theorem of_published (h : Published d e) : SameTallies d e := by
  rw [h.eq]
  exact ⟨rfl, rfl, rfl, rfl⟩

end SameTallies

namespace Driver

variable {d e : Driver}

/-! ## The first stage -/

theorem checkArrays_timeless (ground : SameGround d e) (held : e.pData = none ↔ d.pData = none) (p : Packet)
    (isNew : Bool) :
    (e.checkArrays (e.handlerVars p.now) p isNew).map Pending.timeless =
      (d.checkArrays (d.handlerVars p.now) p isNew).map Pending.timeless := by
  have vars : ∀ events pCharge, (⟨e.handlerVars p.now, events, isNew, pCharge⟩ : Pending).timeless =
      (⟨d.handlerVars p.now, events, isNew, pCharge⟩ : Pending).timeless := by
    intro events pCharge
    simp only [Pending.timeless, handlerVars, numChanClamped, numDetClamped, ground.pause,
      ground.setup.int 0 .numChannels (by decide) rfl, ground.setup.int 0 .numDet (by decide) rfl]
  unfold checkArrays
  cases p.pCharge with
  | none => rfl
  | some pCharge =>
    simp only [held, ground.dataMaxSize]
    split_ifs
    · rfl
    · cases p.pixels with
      | none => rfl
      | some pixels =>
        cases p.tof with
        | none => rfl
        | some tof =>
          simp only
          split_ifs
          · rfl
          · exact congrArg Except.ok (vars _ _)

/-- The checks of a packet go by the ground and by the last time stamp of its channel. -/
theorem check_timeless (ground : SameGround d e) (held : e.pData = none ↔ d.pData = none) {p : Packet}
    (last : p.channelID < maxChannels → e.ledger p.channelID = d.ledger p.channelID) :
    (e.check p).map Pending.timeless = (d.check p).map Pending.timeless := by
  unfold check
  by_cases channel : maxChannels ≤ p.channelID
  · rw [if_pos channel, if_pos channel]
  rw [if_neg channel, if_neg channel]
  have stamp : (e.timeStampLast p.channelID).nanos = (d.timeStampLast p.channelID).nanos :=
    congrArg Ledger.last (last (Nat.lt_of_not_le channel))
  by_cases wide : d.Wide
  · rw [if_pos wide, if_pos (ground.setup.wide.2 wide)]
    unfold checkStamp
    cases p.timeStamp with
    | none => rfl
    | some ts =>
      simp only [stamp]
      split_ifs
      · rfl
      · have pulse : e.newPulse p.channelID ts = d.newPulse p.channelID ts := by
          by_cases zero : p.channelID = 0
          · rw [zero] at stamp
            simp only [newPulse, stamp]
          · simp [newPulse, zero]
        rw [pulse]
        exact checkArrays_timeless ground held p _
  · rw [if_neg wide, if_neg fun wide' => wide (ground.setup.wide.1 wide')]

/-- A packet does not change the checks of those on other channels. -/
theorem eventHandler_check {p q : Packet} {r : Driver × Outcome} (h : d.eventHandler p = some r)
    (other : q.channelID ≠ p.channelID) : (r.1.check q).map Pending.timeless = (d.check q).map Pending.timeless := by
  have handled := eventHandler_handled h
  refine check_timeless (.of_handled handled) ?_ fun _ => ?_
  · have size := handled.size
    cases here : d.pData <;> cases there : r.1.pData <;> simp [here, there] at size ⊢
  · rw [eventHandler_ledger h, if_neg fun entered => other entered.1]

/-! ## The second stage -/

theorem integrationStep_pulses {v : Pending} {r : Driver × Outcome} (h : d.integrationStep v = some r) :
    r.1.pulseCounter = (if v.adds then d.pulseCounter + 1 else d.pulseCounter) ∧
      r.1.pChargeInt = if v.adds then d.pChargeInt + v.pCharge else d.pChargeInt := by
  obtain ⟨d', tallied, rfl⟩ := Option.map_eq_some_iff.1 h
  have published := SameTallies.of_published (publish_published d' v)
  rw [published.pulseCounter, published.pChargeInt, tally_eq tallied]
  exact ⟨rfl, rfl⟩

theorem integrationStep_det {v : Pending} {r : Driver × Outcome} (h : d.integrationStep v = some r) :
    r.1.det = d.det := by
  obtain ⟨d', tallied, rfl⟩ := Option.map_eq_some_iff.1 h
  rw [(publish_published d' v).eq, tally_eq tallied]

/-- The second stage goes by the snapshots of the detectors and by what has been counted. -/
theorem integrationStep_tallies {v w : Pending} (same : w.timeless = v.timeless) (held : d.pData ≠ none)
    (tallies : SameTallies d e) (agrees : ∀ det ∈ dets v.vars.numDet, AgreesAt det d e) :
    Option.Rel (fun r r' => SameTallies r.1 r'.1) (d.integrationStep v) (e.integrationStep w) := by
  obtain ⟨b, data⟩ := Option.ne_none_iff_exists'.1 held
  have data' : e.pData = some b := tallies.pData.trans data
  simp only [Pending.timeless, Pending.mk.injEq, HandlerVars.mk.injEq] at same
  obtain ⟨⟨paused, -, -, numDet⟩, events, isNew, pCharge⟩ := same
  have adds : w.adds = v.adds := by rw [Pending.adds, paused, isNew, Pending.adds]
  have counted : Option.Rel (fun r r' : Driver × Outcome => r'.1.pData = r.1.pData ∧
      r'.1.detTotalEvents = r.1.detTotalEvents) (d.integrationStep v) (e.integrationStep w) := by
    cases running : v.vars.paused with
    | false =>
      have turn : ∀ t ∈ turns (dets v.vars.numDet) v.events, AgreesAt t.1 d e :=
        fun t mem => agrees t.1 (mem_turns.1 mem).1
      have bumps : e.bumps (dets w.vars.numDet) w.events = d.bumps (dets v.vars.numDet) v.events := by
        rw [numDet, events, Driver.bumps, trace_congr turn, Driver.bumps]
      have hits : ∀ det, e.hits det (turns (dets w.vars.numDet) w.events) =
          d.hits det (turns (dets v.vars.numDet) v.events) := by
        rw [numDet, events]
        exact hits_congr turn
      have same : Option.Rel
          (fun x y : Outcome × Option (List UInt32) × (Nat → Nat) => y.2.1 = x.2.1 ∧ y.2.2 = x.2.2)
          ((d.integrationStep v).map fun r => (r.2, r.1.pData, r.1.detTotalEvents))
          ((e.integrationStep w).map fun r => (r.2, r.1.pData, r.1.detTotalEvents)) := by
        rw [integrationStep_eq data, integrationStep_eq data', countPacket_data running,
          countPacket_data (paused.trans running), bumps]
        simp only [hits, tallies.detTotalEvents]
        cases d.bumps (dets v.vars.numDet) v.events with
        | none => exact .none
        | some bs =>
          rw [Option.bind_some]
          cases Tally.bumpAll (bs.map Bump.index) b with
          | none => exact .none
          | some b' => exact .some ⟨rfl, rfl⟩
      exact Runs.rel_of_map same
    | true =>
      have here := SameTallies.of_published (publish_published (d.noteEvents v) v)
      have there := SameTallies.of_published (publish_published (e.noteEvents w) w)
      simp only [integrationStep, tally, running, paused, if_true, Option.map_some]
      refine .some ⟨?_, ?_⟩
      · exact there.pData.trans (tallies.pData.trans here.pData.symm)
      · exact there.detTotalEvents.trans (tallies.detTotalEvents.trans here.detTotalEvents.symm)
  refine Runs.rel_refine counted ?_
  rintro r r' first second ⟨cells, totals⟩
  have here := integrationStep_pulses first
  have there := integrationStep_pulses second
  rw [adds, tallies.pulseCounter, tallies.pChargeInt, pCharge] at there
  exact ⟨cells, totals, there.1.trans here.1.symm, there.2.trans here.2.symm⟩

/-! ## What leaves the calls alone -/

/-- `e` is `d` after steps that no call notices. -/
structure Untouched (d e : Driver) : Prop where
  ground : SameGround d e
  tallies : SameTallies d e
  ledger : ∀ c, e.ledger c = d.ledger c
  det : e.det = d.det

theorem Untouched.refl (d : Driver) : Untouched d d where
  ground := .of_handled (.refl d)
  tallies := ⟨rfl, rfl, rfl, rfl⟩
  ledger := fun _ => rfl
  det := rfl

theorem Untouched.trans {d e e' : Driver} (h : Untouched d e) (h' : Untouched e e') : Untouched d e' where
  ground := h.ground.trans h'.ground
  tallies := h.tallies.trans h'.tallies
  ledger := fun c => (h'.ledger c).trans (h.ledger c)
  det := h'.det.trans h.det

theorem Untouched.tasked (tasked : Tasked d e) (data : SameData d e) : Untouched d e where
  ground := ⟨.of_tasked tasked, by rw [tasked.eq], by rw [tasked.eq], tasked.int 0 .pause rfl⟩
  tallies := ⟨data.pData, data.detTotalEvents, by rw [tasked.eq], by rw [tasked.eq]⟩
  ledger := by
    intro c
    rw [Driver.ledger, Driver.ledger, tasked.int c _ rfl, tasked.int c _ rfl, tasked.int c _ rfl, tasked.eq]
  det := by rw [tasked.eq]

theorem storeInt_tallies (d : Driver) (addr : Nat) (p : IntParam) (value : Int32) :
    SameTallies d (d.storeInt addr p value) := by
  rw [storeInt_eq]
  exact ⟨rfl, rfl, rfl, rfl⟩

theorem storeInt_untouched (d : Driver) (addr : Nat) {p : IntParam} (value : Int32) (setup : p.isSetup = false)
    (account : clearedByChannel p = false) (pause : addr = 0 → p ≠ .pause) : Untouched d (d.storeInt addr p value) where
  ground := by
    refine ⟨.storeInt d addr value setup, by rw [storeInt_eq], by rw [storeInt_eq], ?_⟩
    rw [storeInt_eq]
    refine if_neg ?_
    rintro ⟨here, same⟩
    exact pause here.symm same.symm
  tallies := storeInt_tallies d addr p value
  ledger := storeInt_ledger d addr value account
  det := by rw [storeInt_eq]

/-- A Stop only takes the pause back. -/
theorem stop_untouched (callocOk : Bool) (d : Driver) (addr : Nat) (value : Int32) (running : d.int 0 .pause = 0) :
    Untouched d (d.applyInt32 callocOk addr .stop value).1 := by
  have stored : ∀ e : Driver, Untouched e (e.storeInt addr .stop value) :=
    fun e => storeInt_untouched e addr value rfl rfl (by simp)
  have sent : Untouched d d.sendStop := by
    have same : d.sendStop = { d with stopEvent := true } := by
      have pause : d.int.set 0 .pause 0 = d.int := by
        funext a q
        rw [Store.set_apply]
        split_ifs with here
        · rw [here.1, here.2, running]
        · rfl
      rw [sendStop, setInt, pause]
    rw [same]
    exact .tasked (.of_members rfl) ⟨rfl, rfl⟩
  by_cases range : maxDets < addr
  · simp only [applyInt32, if_pos range]
    exact .refl d
  simp only [applyInt32, if_neg range]
  split_ifs
  · exact sent.trans (stored _)
  · exact .tasked (.setInt d 0 0 rfl) ⟨rfl, rfl⟩
  · exact stored d

end Driver

/-- A parameter that `eventHandler` has no use for but to print. -/
def IntParam.aside : IntParam → Bool
  | .eventDebug | .tofTransPrint | .pixelMapPrint | .adAcquire | .ndArrayCallbacks => true
  | _ => false

theorem Driver.aside_untouched (callocOk : Bool) (d : Driver) (addr : Nat) {p : IntParam} (value : Int32)
    (aside : p.aside = true) : Untouched d (d.applyInt32 callocOk addr p value).1 := by
  by_cases range : maxDets < addr
  · simp only [applyInt32, if_pos range]
    exact .refl d
  have plain : (d.applyInt32 callocOk addr p value).1 = d.storeInt addr p value := by
    cases p <;> first | exact congrArg Prod.fst (if_neg range) | cases aside
  have setup : p.isSetup = false := by
    cases p <;> first | rfl | cases aside
  have account : clearedByChannel p = false := by
    cases p <;> first | rfl | cases aside
  rw [plain]
  apply storeInt_untouched d addr value setup account
  rintro - rfl
  cases aside

namespace Flights

/-- The driver with its calls in flight, and the packet of the last call on each channel. -/
structure Traced where
  flights : Flights
  packet : Nat → Option Packet

/-- The packets after a step. -/
def Traced.hold (s : Traced) : Act → Nat → Option Packet
  | .sys _ => s.packet
  | .snapshot p => Function.update s.packet p.channelID (some p)
  | .integrate _ => s.packet

/-- The steps are those of `Flights`. -/
def Traced.step (s : Traced) (a : Act) : Option Traced := (s.flights.step a).map fun f => ⟨f, s.hold a⟩

/-- What the sequential driver is given at a step: a packet that is turned away when it comes, the
others when they are integrated. -/
def Traced.inputs (s : Traced) : Act → List Input
  | .sys (.write addr p value _) => if addr = 0 ∧ p = .pause then [.pause value] else []
  | .sys (.packet _) => []
  | .sys (.event _) => []
  | .sys (.frame _) => []
  | .snapshot p => if (s.flights.sys.drv.check p).toOption.isSome then [] else [.packet p]
  | .integrate c => ((s.packet c).map Input.packet).toList

/-- The calls in the order in which they take effect. -/
def order (f : Flights) (as : List Act) : List Input := Runs.log Traced.step Traced.inputs ⟨f, fun _ => none⟩ as

/-- No setting is written and nothing is cleared: there is no Start or Reset, and `eventTask` is not in the
section of a start, which zeroes `p_Data`. The pause switch may be written between calls, and a Stop that has
no pause to take back may come at any time. -/
def Calm (s : Flights) : Act → Prop
  | .sys (.write addr p _ _) => p.aside = true ∨ (p = .stop ∧ s.sys.drv.int 0 .pause = 0) ∨
      (p = .pause ∧ (addr = 0 → ∀ c, s.pending c = none))
  | .sys (.packet _) => True
  | .sys (.event _) => s.sys.event.pc ≠ .startSection
  | .sys (.frame _) => True
  | .snapshot _ => True
  | .integrate _ => True

/-- The sequential driver `d` is behind by the calls in flight. -/
structure Behind (s : Traced) (d : Driver) : Prop where
  ground : SameGround d s.flights.sys.drv
  tallies : SameTallies d s.flights.sys.drv
  settled : ∀ c, c < maxChannels → s.flights.pending c = none → s.flights.sys.drv.ledger c = d.ledger c
  flying : ∀ c v, s.flights.pending c = some v → ∃ p, s.packet c = some p ∧ p.channelID = c ∧
    (d.check p).map Pending.timeless = .ok v.timeless ∧
    s.flights.sys.drv.ledger c = (d.ledger c).note p.timeStamp
  read : (∃ c, s.flights.pending c ≠ none) →
    ∀ det ∈ s.flights.sys.drv.active, s.flights.sys.drv.det det = s.flights.sys.drv.readDet det

namespace Behind

variable {s : Traced} {d : Driver}

/-- Steps that no call notices. -/
theorem untouched (h : Behind s d) {t : Sys} (same : Driver.Untouched s.flights.sys.drv t.drv) :
    Behind ⟨{ s.flights with sys := t }, s.packet⟩ d where
  ground := h.ground.trans same.ground
  tallies := h.tallies.trans same.tallies
  settled := fun c channel idle => (same.ledger c).trans (h.settled c channel idle)
  flying := by
    intro c v waiting
    obtain ⟨p, held, channel, checked, entered⟩ := h.flying c v waiting
    exact ⟨p, held, channel, checked, (same.ledger c).trans entered⟩
  read := by
    intro waiting det mem
    have setup := same.ground.setup
    change det ∈ t.drv.active at mem
    rw [setup.active] at mem
    change t.drv.det det = t.drv.readDet det
    rw [same.det, setup.readDet (Driver.active_le mem)]
    exact h.read waiting det mem

/-- The pause switch between calls. -/
theorem pause (h : Behind s d) (idle : ∀ c, s.flights.pending c = none) {t : Sys} (value : Int32)
    (stored : t.drv = s.flights.sys.drv.storeInt 0 .pause value) :
    Behind ⟨{ s.flights with sys := t }, s.packet⟩ (d.storeInt 0 .pause value) where
  ground := by
    have here := SameSetup.storeInt d 0 (p := .pause) value rfl
    have there := SameSetup.storeInt s.flights.sys.drv 0 (p := .pause) value rfl
    change SameGround _ t.drv
    rw [stored]
    refine ⟨here.symm.trans (h.ground.setup.trans there), ?_, ?_, ?_⟩
    · rw [Driver.storeInt_eq, Driver.storeInt_eq]
      exact h.ground.tofMax
    · rw [Driver.storeInt_eq, Driver.storeInt_eq]
      exact h.ground.dataMaxSize
    · rw [Driver.pause_storeInt, Driver.pause_storeInt]
  tallies := by
    change SameTallies _ t.drv
    rw [stored]
    exact (Driver.storeInt_tallies d ..).symm.trans (h.tallies.trans (Driver.storeInt_tallies ..))
  settled := by
    intro c channel _
    change t.drv.ledger c = _
    rw [stored, Driver.storeInt_ledger _ 0 value rfl, Driver.storeInt_ledger d 0 value rfl]
    exact h.settled c channel (idle c)
  flying := by
    intro c v waiting
    change s.flights.pending c = some v at waiting
    rw [idle c] at waiting
    cases waiting
  read := by
    rintro ⟨c, waiting⟩
    exact absurd (idle c) waiting

/-- A packet on a channel without a call in flight passes the same checks. -/
theorem check (h : Behind s d) {p : Packet} (idle : s.flights.pending p.channelID = none) :
    (s.flights.sys.drv.check p).map Pending.timeless = (d.check p).map Pending.timeless := by
  refine Driver.check_timeless h.ground ?_ fun channel => h.settled _ channel idle
  rw [h.tallies.pData]

/-- The ledgers of the channels, after a first stage in one and a call in the other. -/
theorem ledger_step (h : Behind s d) {p : Packet} {r : Driver × Outcome} (handled : d.eventHandler p = some r)
    {c : Nat} (channel : c < maxChannels) (idle : s.flights.pending c = none) :
    (s.flights.sys.drv.snapshotStep p).1.ledger c = r.1.ledger c := by
  rw [Driver.snapshotStep_ledger, Driver.eventHandler_ledger handled, h.settled c channel idle]
  simp only [h.ground.setup.wide]

/-- The calls in flight are not affected by a packet on another channel. -/
theorem flying_step (h : Behind s d) {p : Packet} {r : Driver × Outcome} (handled : d.eventHandler p = some r)
    {c : Nat} {v : Pending} (waiting : s.flights.pending c = some v) (other : c ≠ p.channelID) :
    ∃ q, s.packet c = some q ∧ q.channelID = c ∧ (r.1.check q).map Pending.timeless = .ok v.timeless ∧
      s.flights.sys.drv.ledger c = (r.1.ledger c).note q.timeStamp := by
  obtain ⟨q, held, channel, checked, entered⟩ := h.flying c v waiting
  refine ⟨q, held, channel, ?_, ?_⟩
  · rw [Driver.eventHandler_check handled (by rwa [channel]), checked]
  · rw [Driver.eventHandler_ledger handled, if_neg fun entered => other entered.1, entered]

/-- The snapshots of the detectors, after a first stage. -/
theorem read_step (h : Behind s d) (p : Packet) (waiting : ∃ c, s.flights.pending c ≠ none) {det : Nat}
    (mem : det ∈ (s.flights.sys.drv.snapshotStep p).1.active) :
    (s.flights.sys.drv.snapshotStep p).1.det det = (s.flights.sys.drv.snapshotStep p).1.readDet det := by
  have setup := (SameGround.of_noted (Driver.snapshotStep_noted s.flights.sys.drv p)).setup
  rw [setup.active] at mem
  rw [setup.readDet (Driver.active_le mem)]
  rcases Driver.snapshotStep_values s.flights.sys.drv p det with kept | ⟨-, read⟩
  · rw [kept]
    exact h.read waiting det mem
  · exact read

/-- **A packet that is turned away** is handled at once. -/
theorem away (h : Behind s d) {p : Packet} (idle : s.flights.pending p.channelID = none) {o : Outcome}
    (error : s.flights.sys.drv.check p = .error o) :
    ∃ d', d.deliver p = some d' ∧
      Behind ⟨⟨{ s.flights.sys with drv := (s.flights.sys.drv.snapshotStep p).1 }, s.flights.pending⟩,
        Function.update s.packet p.channelID (some p)⟩ d' := by
  have rejected : d.check p = .error o := by
    have same := h.check idle
    rw [error] at same
    cases checked : d.check p with
    | error o' =>
      rw [checked] at same
      cases same
      rfl
    | ok v =>
      rw [checked] at same
      cases same
  have handled : d.eventHandler p = some ((d.snapshotStep p).1, o) := by
    have stage : d.snapshotStep p = ((d.snapshotStep p).1, .error o) :=
      Prod.ext rfl ((Driver.snapshotStep_check d p).trans rejected)
    rw [Driver.eventHandler_stages, stage]
    rfl
  have here := Driver.snapshotStep_noted s.flights.sys.drv p
  have there := Driver.snapshotStep_noted d p
  refine ⟨(d.snapshotStep p).1, ?_, ?_, ?_, ?_, ?_, ?_⟩
  · rw [Driver.deliver, handled]
    rfl
  · exact (SameGround.of_noted there).symm.trans (h.ground.trans (.of_noted here))
  · exact (SameTallies.of_noted there).symm.trans (h.tallies.trans (.of_noted here))
  · intro c channel none
    exact h.ledger_step handled channel none
  · intro c v waiting
    have other : c ≠ p.channelID := by
      rintro rfl
      rw [idle] at waiting
      cases waiting
    obtain ⟨q, held, channel, checked, entered⟩ := h.flying_step handled waiting other
    refine ⟨q, (Function.update_of_ne other ..).trans held, channel, checked, ?_⟩
    rw [← entered]
    exact (Driver.snapshotStep_ledger ..).trans (if_neg fun entered => other entered.1)
  · intro waiting det mem
    exact h.read_step p waiting mem

/-- **A packet that is let through** stays in flight. -/
theorem taken (h : Behind s d) {p : Packet} (idle : s.flights.pending p.channelID = none) {v : Pending}
    (ok : s.flights.sys.drv.check p = .ok v) :
    Behind ⟨⟨{ s.flights.sys with drv := (s.flights.sys.drv.snapshotStep p).1 },
      Function.update s.flights.pending p.channelID (some v)⟩, Function.update s.packet p.channelID (some p)⟩ d := by
  have here := Driver.snapshotStep_noted s.flights.sys.drv p
  obtain ⟨ready, read⟩ := Driver.snapshotStep_ok ((Driver.snapshotStep_check _ p).trans ok)
  have entered := Driver.snapshotStep_ledger s.flights.sys.drv p
  refine ⟨h.ground.trans (.of_noted here), h.tallies.trans (.of_noted here), ?_, ?_, ?_⟩
  · intro c channel none
    have other : c ≠ p.channelID := by
      rintro rfl
      simp at none
    change Function.update s.flights.pending p.channelID (some v) c = _ at none
    rw [Function.update_of_ne other] at none
    rw [← h.settled c channel none]
    exact (entered c).trans (if_neg fun entered => other entered.1)
  · intro c w waiting
    by_cases same : c = p.channelID
    · subst same
      have taken : w = v := by simpa using waiting.symm
      subst taken
      refine ⟨p, Function.update_self .., rfl, ?_, ?_⟩
      · rw [← h.check idle, ok]
        rfl
      · rw [← h.settled _ ready.channel idle]
        exact (entered _).trans (if_pos ⟨rfl, ready.channel, ready.wide⟩)
    · change Function.update s.flights.pending p.channelID (some v) c = _ at waiting
      rw [Function.update_of_ne same] at waiting
      obtain ⟨q, held, channel, checked, noted⟩ := h.flying c w waiting
      refine ⟨q, (Function.update_of_ne same ..).trans held, channel, checked, ?_⟩
      rw [← noted]
      exact (entered c).trans (if_neg fun entered => same entered.1)
  · intro _ det mem
    have setup := (SameGround.of_noted here).setup
    change det ∈ (s.flights.sys.drv.snapshotStep p).1.active at mem
    rw [setup.active] at mem
    exact (read det mem).trans (setup.readDet (Driver.active_le mem)).symm

/-- **The second stage** is the sequential call. -/
theorem integrated (h : Behind s d) {c : Nat} {v : Pending} (waiting : s.flights.pending c = some v)
    {r : Driver × Outcome} (hr : s.flights.sys.drv.integrationStep v = some r) :
    ∃ p d', s.packet c = some p ∧ d.deliver p = some d' ∧
      Behind ⟨⟨{ s.flights.sys with drv := r.1 }, Function.update s.flights.pending c none⟩, s.packet⟩ d' := by
  obtain ⟨p, held, channel, checked, entered⟩ := h.flying c v waiting
  obtain ⟨w, passed, same⟩ : ∃ w, d.check p = .ok w ∧ w.timeless = v.timeless := by
    cases result : d.check p with
    | error o =>
      rw [result] at checked
      cases checked
    | ok w =>
      rw [result] at checked
      exact ⟨w, rfl, Except.ok.inj checked⟩
  obtain ⟨ready, read⟩ := Driver.snapshotStep_ok ((Driver.snapshotStep_check d p).trans passed)
  have noted := Driver.snapshotStep_noted d p
  have ground : SameGround s.flights.sys.drv (d.snapshotStep p).1 := h.ground.symm.trans (.of_noted noted)
  have active : dets v.vars.numDet = d.active := by
    have numDet : w.timeless.vars.numDet = v.timeless.vars.numDet := by rw [same]
    have clamped : w.vars.numDet = d.numDetClamped := by
      rw [ready.vars]
      rfl
    rw [Driver.active, ← clamped]
    exact congrArg dets numDet.symm
  have agrees : ∀ det ∈ dets v.vars.numDet, AgreesAt det s.flights.sys.drv (d.snapshotStep p).1 := by
    intro det mem
    rw [active] at mem
    have le := Driver.active_le mem
    have snapshot := h.read ⟨c, by simp [waiting]⟩ det (by rwa [h.ground.setup.active])
    refine ⟨?_, ground.setup.int det _ le rfl, ground.setup.int det _ le rfl, ground.tofMax,
      ground.setup.transform det le, ground.setup.pixelMap det le, ground.setup.pixelMapSize det le⟩
    rw [read det mem, snapshot, h.ground.setup.readDet le]
  have allocated : s.flights.sys.drv.pData ≠ none := by
    rw [h.tallies.pData]
    exact ready.allocated.1
  have counted := Driver.integrationStep_tallies same allocated (h.tallies.symm.trans (.of_noted noted)) agrees
  rw [hr] at counted
  obtain ⟨r', second, tallies⟩ : ∃ r', (d.snapshotStep p).1.integrationStep w = some r' ∧ SameTallies r.1 r'.1 := by
    cases result : (d.snapshotStep p).1.integrationStep w with
    | none =>
      rw [result] at counted
      cases counted
    | some r' =>
      rw [result] at counted
      cases counted with
      | some tallies => exact ⟨r', rfl, tallies⟩
  have handled : d.eventHandler p = some r' := by
    have stage : d.snapshotStep p = ((d.snapshotStep p).1, .ok w) :=
      Prod.ext rfl ((Driver.snapshotStep_check d p).trans passed)
    rw [Driver.eventHandler_stages, stage]
    exact second
  have ledger := Driver.integrationStep_ledger hr
  have after : SameGround s.flights.sys.drv r.1 := .of_integrationStep hr
  refine ⟨p, r'.1, held, ?_, ?_, tallies.symm, ?_, ?_, ?_⟩
  · rw [Driver.deliver, handled]
    rfl
  · exact (SameGround.of_integrationStep second).symm.trans (ground.symm.trans after)
  · intro c' channel' none
    by_cases here : c' = c
    · rw [here]
      refine (ledger c).trans (entered.trans ?_)
      rw [Driver.eventHandler_ledger handled, if_pos ⟨channel.symm, channel ▸ ready.channel, ready.wide⟩]
    · change Function.update s.flights.pending c _ c' = _ at none
      rw [Function.update_of_ne here] at none
      refine (ledger c').trans ((h.settled c' channel' none).trans ?_)
      rw [Driver.eventHandler_ledger handled, if_neg fun entered => here (entered.1.trans channel)]
  · intro c' v' waiting'
    have here : c' ≠ c := by
      rintro rfl
      simp at waiting'
    change Function.update s.flights.pending c _ c' = _ at waiting'
    rw [Function.update_of_ne here] at waiting'
    obtain ⟨q, held, channel', checked, noted⟩ := h.flying_step handled waiting' (by rwa [channel])
    exact ⟨q, held, channel', checked, (ledger c').trans noted⟩
  · intro _ det mem
    change det ∈ r.1.active at mem
    rw [after.setup.active] at mem
    change r.1.det det = r.1.readDet det
    rw [Driver.integrationStep_det hr, after.setup.readDet (Driver.active_le mem)]
    exact h.read ⟨c, by simp [waiting]⟩ det mem

end Behind

/-- **One step.** -/
theorem step_behind {s s' : Traced} {d : Driver} {a : Act} (h : Behind s d) (calm : s.flights.Calm a)
    (hs : s.step a = some s') : ∃ d', Runs.run Driver.feed d (s.inputs a) = some d' ∧ Behind s' d' := by
  obtain ⟨f, taken, rfl⟩ := Option.map_eq_some_iff.1 hs
  cases a with
  | sys l =>
    obtain ⟨other, t, moved, rfl⟩ := step_sys taken
    cases l with
    | packet p => exact absurd rfl (other p)
    | event env =>
      obtain ⟨r, worked, rfl⟩ := Sys.step_eventTask moved
      obtain ⟨-, tasked, -⟩ := (EventTask.step_tasked worked).resolve_right fun start => calm start.1
      exact ⟨d, rfl, h.untouched (.tasked tasked (EventTask.step_sameData worked calm))⟩
    | frame env =>
      obtain ⟨r, worked, rfl⟩ := Sys.step_frameTask moved
      exact ⟨d, rfl, h.untouched (.tasked (FrameTask.step_tasked worked).1 (FrameTask.step_sameData worked))⟩
    | write addr p value callocOk =>
      obtain ⟨-, -, rfl⟩ := Sys.step_write moved
      by_cases switch : addr = 0 ∧ p = .pause
      · obtain ⟨rfl, rfl⟩ := switch
        have idle : ∀ c, s.flights.pending c = none := by
          rcases calm with aside | ⟨stop, -⟩ | ⟨-, idle⟩
          · cases aside
          · cases stop
          · exact idle rfl
        exact ⟨d.storeInt 0 .pause value, rfl, h.pause idle value rfl⟩
      · refine ⟨d, ?_, h.untouched ?_⟩
        · rw [Traced.inputs, if_neg switch]
          rfl
        · rcases calm with aside | ⟨rfl, running⟩ | ⟨rfl, -⟩
          · exact Driver.aside_untouched callocOk _ addr value aside
          · exact Driver.stop_untouched callocOk _ addr value running
          · have stored : (s.flights.sys.drv.applyInt32 callocOk addr .pause value).1 =
                if maxDets < addr then s.flights.sys.drv else s.flights.sys.drv.storeInt addr .pause value := by
              unfold Driver.applyInt32
              split_ifs <;> rfl
            change Driver.Untouched _ (s.flights.sys.drv.applyInt32 callocOk addr .pause value).1
            rw [stored]
            split_ifs
            · exact .refl _
            · exact Driver.storeInt_untouched _ addr value rfl rfl fun zero _ => switch ⟨zero, rfl⟩
  | snapshot p =>
    simp only [step] at taken
    split at taken
    · cases taken
    rename_i busy
    have idle : s.flights.pending p.channelID = none := by simpa using busy
    cases taken
    rw [Driver.snapshotStep_check]
    cases checked : s.flights.sys.drv.check p with
    | error o =>
      obtain ⟨d', delivered, behind⟩ := h.away idle checked
      refine ⟨d', ?_, ?_⟩
      · simp only [Traced.inputs, checked, Except.toOption]
        exact congrArg (Option.bind · some) delivered
      · have unchanged : Function.update s.flights.pending p.channelID none = s.flights.pending := by
          rw [← idle, Function.update_eq_self]
        simp only [Except.toOption, unchanged]
        exact behind
    | ok v =>
      refine ⟨d, ?_, h.taken idle checked⟩
      simp only [Traced.inputs, checked, Except.toOption]
      rfl
  | integrate c =>
    obtain ⟨v, r, waiting, counted, rfl⟩ := step_integrate taken
    obtain ⟨p, d', held, delivered, behind⟩ := h.integrated waiting counted
    refine ⟨d', ?_, behind⟩
    simp only [Traced.inputs, held]
    exact congrArg (Option.bind · some) delivered

/-! ## The order of the packets -/

/-- The packets that arrive on the channel `c`. -/
def arrivals (c : Nat) : Act → List Packet
  | .sys _ => []
  | .snapshot p => if p.channelID = c then [p] else []
  | .integrate _ => []

/-- The packet in flight on the channel `c`. -/
def Traced.inFlight (s : Traced) (c : Nat) : List Packet := (s.flights.pending c).elim [] fun _ => (s.packet c).toList

/-- The calls in flight have their packets. -/
def Traced.Holds (s : Traced) : Prop :=
  ∀ c v, s.flights.pending c = some v → ∃ p, s.packet c = some p ∧ p.channelID = c

theorem step_holds {s s' : Traced} {a : Act} (h : s.Holds) (hs : s.step a = some s') : s'.Holds := by
  obtain ⟨f, taken, rfl⟩ := Option.map_eq_some_iff.1 hs
  cases a with
  | sys l =>
    obtain ⟨-, t, -, rfl⟩ := step_sys taken
    exact h
  | snapshot p =>
    simp only [step] at taken
    split at taken <;> cases taken
    intro c v waiting
    by_cases here : c = p.channelID
    · subst here
      exact ⟨p, Function.update_self .., rfl⟩
    · obtain ⟨q, held, channel⟩ := h c v ((Function.update_of_ne here ..).symm.trans waiting)
      exact ⟨q, (Function.update_of_ne here ..).trans held, channel⟩
  | integrate c' =>
    obtain ⟨v', r, -, -, rfl⟩ := step_integrate taken
    intro c v waiting
    by_cases here : c = c'
    · simp [here] at waiting
    · exact h c v ((Function.update_of_ne here ..).symm.trans waiting)

/-- A packet on the channel `c` arrives, takes effect or stays in flight. -/
theorem step_conserves {s s' : Traced} {a : Act} (h : s.Holds) (hs : s.step a = some s') (c : Nat) :
    s.inFlight c ++ arrivals c a = packetsOn c (s.inputs a) ++ s'.inFlight c := by
  obtain ⟨f, taken, rfl⟩ := Option.map_eq_some_iff.1 hs
  cases a with
  | sys l =>
    obtain ⟨-, t, -, rfl⟩ := step_sys taken
    have silent : packetsOn c (s.inputs (.sys l)) = [] := by
      cases l with
      | write addr p value callocOk =>
        rw [Traced.inputs]
        split_ifs <;> rfl
      | packet p => rfl
      | event env => rfl
      | frame env => rfl
    rw [silent, arrivals, List.append_nil]
    rfl
  | snapshot p =>
    simp only [step] at taken
    split at taken
    · cases taken
    rename_i busy
    have idle : s.flights.pending p.channelID = none := by simpa using busy
    cases taken
    rw [Driver.snapshotStep_check]
    by_cases here : p.channelID = c
    · subst here
      cases checked : s.flights.sys.drv.check p with
      | error o => simp [Traced.inFlight, idle, arrivals, Traced.inputs, checked, Except.toOption, packetsOn, Input.packetOn]
      | ok v =>
        simp [Traced.inFlight, idle, arrivals, Traced.inputs, checked, Except.toOption, packetsOn, Traced.hold]
    · have other : c ≠ p.channelID := Ne.symm here
      have silent : packetsOn c (s.inputs (.snapshot p)) = [] := by
        rw [Traced.inputs]
        split_ifs <;> simp [packetsOn, Input.packetOn, here]
      simp [silent, Traced.inFlight, arrivals, here, Traced.hold, other]
  | integrate c' =>
    obtain ⟨v, r, waiting, -, rfl⟩ := step_integrate taken
    obtain ⟨p, held, channel⟩ := h c' v waiting
    by_cases here : c' = c
    · subst here
      simp [Traced.inFlight, waiting, held, arrivals, Traced.inputs, packetsOn, Input.packetOn, channel]
    · have other : c ≠ c' := Ne.symm here
      simp [Traced.inFlight, held, arrivals, Traced.inputs, packetsOn, Input.packetOn, channel, here, other, Traced.hold]

/-- **The calls are atomic.** As long as no setting is written and nothing is cleared, by a write or by the section
of a start (`Calm`), and whatever the order in which the threads take their steps, the counts are those of a driver
that is given the packets one at a time in some order. On a channel without a call in flight this is the order in
which they came, and its accounts are the same. -/
theorem handlers_atomic {f f' : Flights} {as : List Act} (idle : ∀ c, f.pending c = none)
    (reached : f.run as = some f') (calm : Runs.Meets step Calm f as) :
    ∃ d, Runs.run Driver.feed f.sys.drv (f.order as) = some d ∧ SameTallies d f'.sys.drv ∧
      ∀ c, c < maxChannels → f'.pending c = none →
        f'.sys.drv.ledger c = d.ledger c ∧ packetsOn c (f.order as) = as.flatMap (arrivals c) := by
  have erase : ∀ (s : Traced) a, (s.step a).map Traced.flights = s.flights.step a := by
    intro s a
    rw [Traced.step, Option.map_map]
    exact Option.map_id'
  have traced := Runs.run_ghost Traced.flights erase ⟨f, fun _ => none⟩ as
  obtain ⟨s', run, rfl⟩ := Option.map_eq_some_iff.1 (traced.trans reached)
  have behind : Behind ⟨f, fun _ => none⟩ f.sys.drv := by
    refine ⟨.of_handled (.refl _), ⟨rfl, rfl, rfl, rfl⟩, fun _ _ _ => rfl, ?_, ?_⟩
    · intro c v waiting
      cases (idle c).symm.trans waiting
    · rintro ⟨c, waiting⟩
      exact absurd (idle c) waiting
  obtain ⟨d, sequential, ends⟩ := Runs.run_simulates Traced.inputs Behind
    (fun _ _ _ _ behind calm next => step_behind behind calm next) run (calm.ghost Traced.flights erase) behind
  refine ⟨d, sequential, ends.tallies, fun c channel landed => ⟨ends.settled c channel landed, ?_⟩⟩
  have holds : Traced.Holds ⟨f, fun _ => none⟩ := by
    intro c v waiting
    cases (idle c).symm.trans waiting
  have conserved := Runs.run_conserves (fun s a => packetsOn c (s.inputs a)) (arrivals c) (·.inFlight c)
    (fun s a s' inv next => ⟨step_holds inv next, step_conserves inv next c⟩) run holds
  have before : Traced.inFlight ⟨f, fun _ => none⟩ c = [] := by
    rw [Traced.inFlight, idle c]
    rfl
  have after : s'.inFlight c = [] := by
    rw [Traced.inFlight, landed]
    rfl
  rw [before, after, List.nil_append, List.append_nil] at conserved
  rw [conserved]
  exact Runs.log_filterMap ..

/-- The condition, evaluated for runs that leave the pause switch alone. -/
def calmCheck (s : Flights) : Act → Bool
  | .sys (.write _ p _ _) => p.aside || (p == .stop && s.sys.drv.int 0 .pause == 0)
  | .sys (.event _) => s.sys.event.pc != .startSection
  | _ => true

theorem calm_of_check (s : Flights) (a : Act) (h : s.calmCheck a = true) : s.Calm a := by
  cases a with
  | sys l =>
    cases l with
    | write addr p value callocOk =>
      rcases Bool.or_eq_true_iff.1 h with aside | stop
      · exact .inl aside
      · exact .inr (.inl (by simpa using stop))
    | packet p => trivial
    | event env => exact ne_of_beq_false (by simpa [calmCheck, bne] using h)
    | frame env => trivial
  | snapshot p => trivial
  | integrate c => trivial

/-- Calls on the channels 0 and 1 that overlap, with a Stop in between, and one on a channel that
does not exist. -/
def overlapping : List Act :=
  [.snapshot (.single 0 3 0), .snapshot (.single 1 3 0), .integrate 1, .sys Sys.eventStep, .snapshot (.single 1 5 0),
    .sys Sys.stopWrite, .integrate 0, .snapshot (.single 7 5 0), .integrate 1]

theorem handlers_atomic_overlapping :
    ∃ t f', (Sys.init .blank).run tenPixels = some t ∧ (⟨t, fun _ => none⟩ : Flights).run overlapping = some f' ∧
      f'.sys.drv.pData = some [0, 0, 0, 2, 0, 1, 0, 0, 0, 0, 3] ∧
      ∃ d, Runs.run Driver.feed t.drv ((⟨t, fun _ => none⟩ : Flights).order overlapping) = some d ∧
        SameTallies d f'.sys.drv ∧
        packetsOn 1 ((⟨t, fun _ => none⟩ : Flights).order overlapping) = [.single 1 3 0, .single 1 5 0] := by
  have state : ((Sys.init .blank).run tenPixels).bind (fun t =>
      ((⟨t, fun _ => none⟩ : Flights).run overlapping).map fun f' =>
        (f'.sys.drv.pData, (f'.pending 1).isNone, Runs.checks step calmCheck ⟨t, fun _ => none⟩ overlapping)) =
      some (some [0, 0, 0, 2, 0, 1, 0, 0, 0, 0, 3], true, true) := by
    decide +kernel
  obtain ⟨t, begun, state⟩ := Option.bind_eq_some_iff.1 state
  obtain ⟨f', reached, state⟩ := Option.map_eq_some_iff.1 state
  simp only [Prod.mk.injEq] at state
  obtain ⟨data, landed, checked⟩ := state
  obtain ⟨d, sequential, tallies, channels⟩ :=
    handlers_atomic (fun _ => rfl) reached (Runs.meets_of_checks calm_of_check checked)
  exact ⟨t, f', begun, reached, data, d, sequential, tallies, (channels 1 (by decide) (by simpa using landed)).2⟩

end Flights

end ADnED
