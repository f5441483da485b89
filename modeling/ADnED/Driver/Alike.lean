import ADnED.Driver.Pulses
import ADnED.Driver.Freshness

/-!
# Drivers that count alike

Two drivers with the same setup, the same data and the same accounts count the same
packets alike, whatever else is different between them: the update timer, the readbacks,
the snapshots of earlier packets, the times at which the packets arrive. `Alike` lists what
has to be the same, one packet keeps it (`Alike.deliver`), and so does any sequence of
packets with the same pause settings (`run_alike`).
-/

namespace ADnED

/-- The configuration and the published layout. -/
def IntParam.isSetup : IntParam → Bool
  | .numChannels | .numDet | .tofMax
  | .pixelNumStart | .pixelNumEnd | .pixelNumSize | .tofNumBins | .twoDType
  | .tofROIStart | .tofROISize | .tofROIEnable | .tofTransInt _ | .tofTransType | .pixelMapEnable
  | .pixelROIStartX | .pixelROISizeX | .pixelROIStartY | .pixelROISizeY | .pixelSizeX | .pixelROIEnable
  | .ndArrayStart | .ndArrayEnd | .ndArraySize | .ndArrayTOFStart | .ndArrayTOFEnd => true
  | _ => false

theorem IntParam.measured_of_isSetup {p : IntParam} (h : p.isSetup = true) : p.measured = false := by
  cases p <;> first | rfl | cases h

theorem IntParam.isSetup_of_layoutAt {p : IntParam} {addr : Nat} (h : p.layoutAt addr = true) : p.isSetup = true := by
  cases p <;> first | rfl | cases h

/-- The same configuration, published layout, pixel maps and transformations. -/
structure SameSetup (d d' : Driver) : Prop where
  int : ∀ addr p, addr ≤ maxDets → p.isSetup = true → d'.int addr p = d.int addr p
  dbl : ∀ addr p, addr ≤ maxDets → p.measured = false → d'.dbl addr p = d.dbl addr p
  pixelMap : ∀ det, det ≤ maxDets → d'.pixelMap det = d.pixelMap det
  pixelMapSize : ∀ det, det ≤ maxDets → d'.pixelMapSize det = d.pixelMapSize det
  transform : ∀ det, det ≤ maxDets → d'.transform det = d.transform det

namespace SameSetup

variable {d d' d'' e e' : Driver}

theorem symm (h : SameSetup d d') : SameSetup d' d where
  int := fun addr p le setup => (h.int addr p le setup).symm
  dbl := fun addr p le config => (h.dbl addr p le config).symm
  pixelMap := fun det le => (h.pixelMap det le).symm
  pixelMapSize := fun det le => (h.pixelMapSize det le).symm
  transform := fun det le => (h.transform det le).symm

theorem trans (h : SameSetup d d') (h' : SameSetup d' d'') : SameSetup d d'' where
  int := fun addr p le setup => (h'.int addr p le setup).trans (h.int addr p le setup)
  dbl := fun addr p le config => (h'.dbl addr p le config).trans (h.dbl addr p le config)
  pixelMap := fun det le => (h'.pixelMap det le).trans (h.pixelMap det le)
  pixelMapSize := fun det le => (h'.pixelMapSize det le).trans (h.pixelMapSize det le)
  transform := fun det le => (h'.transform det le).trans (h.transform det le)

theorem of_handled (h : Handled d d') : SameSetup d d' where
  int := fun addr p _ setup => h.int addr p (IntParam.measured_of_isSetup setup)
  dbl := fun addr p _ config => h.dbl addr p config
  pixelMap := fun det _ => by rw [h.eq]
  pixelMapSize := fun det _ => by rw [h.eq]
  transform := fun det _ => by rw [h.eq]

theorem storeInt (d : Driver) (addr : Nat) {p : IntParam} (value : Int32) (other : p.isSetup = false) :
    SameSetup d (d.storeInt addr p value) := by
  rw [Driver.storeInt_eq]
  refine ⟨?_, fun _ _ _ _ => rfl, fun _ _ => rfl, fun _ _ => rfl, fun _ _ => rfl⟩
  intro a q _ setup
  have ne : q ≠ p := ne_of_apply_ne IntParam.isSetup (by simp [other, setup])
  exact Store.set_other_param d.int addr p value a ne

theorem active (h : SameSetup d d') : d'.active = d.active := by
  simp only [Driver.active, Driver.numDetClamped, h.int 0 .numDet (by decide) rfl]

theorem wide (h : SameSetup d d') : d'.Wide ↔ d.Wide :=
  Driver.wide_congr (h.int 0 .numDet (by decide) rfl) fun det le => h.int det .pixelROISizeX le rfl

theorem readDet (h : SameSetup d d') {det : Nat} (le : det ≤ maxDets) : d'.readDet det = d.readDet det := by
  unfold Driver.readDet
  congr 1
  all_goals first | exact h.int det _ le rfl | exact h.dbl det _ le rfl

theorem agreesAt (h : SameSetup d d') (range : d'.tofMax = d.tofMax) {det : Nat} (le : det ≤ maxDets) :
    AgreesAt det d.config d'.config where
  values := h.readDet le
  twoDType := h.int det .twoDType le rfl
  tofNumBins := h.int det .tofNumBins le rfl
  tofMax := range
  transform := h.transform det le
  pixelMap := h.pixelMap det le
  pixelMapSize := h.pixelMapSize det le

end SameSetup

/-- The packet without the time at which it arrives. -/
def Packet.content (p : Packet) : Packet := { p with now := 0 }

/-- What makes two drivers count the same packets alike. -/
structure Alike (d d' : Driver) : Prop where
  setup : SameSetup d d'
  range : d'.tofMax = d.tofMax
  allocated : d.dataMaxSize ≠ 0 ∧ d'.dataMaxSize ≠ 0
  data : d'.pData = d.pData
  totals : ∀ det, det ≤ maxDets → d'.detTotalEvents det = d.detTotalEvents det
  ledger : ∀ c, c < maxChannels → d'.ledger c = d.ledger c
  pulseCounter : d'.pulseCounter = d.pulseCounter
  pChargeInt : d'.pChargeInt = d.pChargeInt

namespace Alike

open Driver

variable {d d' d'' : Driver}

theorem symm (h : Alike d d') : Alike d' d where
  setup := h.setup.symm
  range := h.range.symm
  allocated := h.allocated.symm
  data := h.data.symm
  totals := fun det le => (h.totals det le).symm
  ledger := fun c channel => (h.ledger c channel).symm
  pulseCounter := h.pulseCounter.symm
  pChargeInt := h.pChargeInt.symm

theorem trans (h : Alike d d') (h' : Alike d' d'') : Alike d d'' where
  setup := h.setup.trans h'.setup
  range := h'.range.trans h.range
  allocated := ⟨h.allocated.1, h'.allocated.2⟩
  data := h'.data.trans h.data
  totals := fun det le => (h'.totals det le).trans (h.totals det le)
  ledger := fun c channel => (h'.ledger c channel).trans (h.ledger c channel)
  pulseCounter := h'.pulseCounter.trans h.pulseCounter
  pChargeInt := h'.pChargeInt.trans h.pChargeInt

/-- The pause setting does not matter. -/
theorem pause (h : Alike d d') (value : Int32) : Alike d (d'.storeInt 0 .pause value) where
  setup := h.setup.trans (.storeInt d' 0 value rfl)
  range := by rw [storeInt_eq]; exact h.range
  allocated := by rw [storeInt_eq]; exact h.allocated
  data := by rw [storeInt_eq]; exact h.data
  totals := by rw [storeInt_eq]; exact h.totals
  ledger := fun c channel => (storeInt_ledger d' 0 value rfl c).trans (h.ledger c channel)
  pulseCounter := by rw [storeInt_eq]; exact h.pulseCounter
  pChargeInt := by rw [storeInt_eq]; exact h.pChargeInt

theorem last (h : Alike d d') {c : Nat} (channel : c < maxChannels) :
    (d'.timeStampLast c).nanos = (d.timeStampLast c).nanos :=
  congrArg Ledger.last (h.ledger c channel)

/-- The checks have the same result. -/
theorem verdict (h : Alike d d') (pause : d'.int 0 .pause = d.int 0 .pause) (p : Packet) :
    d'.verdict p.content = d.verdict p := by
  change d'.verdict p = d.verdict p
  have arrays : ∀ paused, d'.arraysVerdict p paused = d.arraysVerdict p paused := by
    intro paused
    simp only [arraysVerdict, h.data, h.allocated.1, h.allocated.2]
  have narrow := (narrow_iff d').trans ((not_congr h.setup.wide).trans (narrow_iff d).symm)
  unfold Driver.verdict
  by_cases channel : maxChannels ≤ p.channelID
  · rw [if_pos channel, if_pos channel]
  · rw [if_neg channel, if_neg channel]
    have last := h.last (Nat.lt_of_not_le channel)
    simp only [narrow, stampVerdict, arrays, last, pause]

theorem pulse (h : Alike d d') (pause : d'.int 0 .pause = d.int 0 .pause) (p : Packet) :
    d'.Pulse p.content ↔ d.Pulse p := by
  unfold Pulse
  rw [h.verdict pause, h.last (by decide)]
  rfl

/-- The events of a packet are treated alike. -/
theorem agrees (h : Alike d d') (events : List (UInt32 × UInt32)) :
    ∀ t ∈ turns d.active events, AgreesAt t.1 d.config d'.config := by
  intro t mem
  exact h.setup.agreesAt h.range (active_le (mem_turns.1 mem).1)

/-- A packet has the same effect on the data. -/
theorem data_step (h : Alike d d') (pause : d'.int 0 .pause = d.int 0 .pause) (p : Packet) :
    Option.Rel (fun r r' => r'.1.pData = r.1.pData ∧
        ∀ det, det ≤ maxDets → r'.1.detTotalEvents det = r.1.detTotalEvents det)
      (d.eventHandler p) (d'.eventHandler p.content) := by
  have verdict := h.verdict pause p
  by_cases accepted : d.verdict p = .integrated
  · obtain ⟨b, data⟩ := Accepted.data accepted
    have here := eventHandler_accepted accepted data
    have there := eventHandler_accepted (verdict.trans accepted) (h.data.trans data)
    have agrees := h.agrees p.events
    have bumps : d'.config.bumps d'.active p.content.events = d.config.bumps d.active p.events := by
      rw [h.setup.active, Driver.bumps, Driver.bumps, ← trace_congr agrees]
      rfl
    have hits : ∀ det, d'.config.hits det (turns d'.active p.content.events) =
        d.config.hits det (turns d.active p.events) := by
      intro det
      rw [h.setup.active, ← hits_congr agrees]
      rfl
    have counted : Option.Rel
        (fun x y : Outcome × Option (List UInt32) × (Nat → Nat) =>
          y.2.1 = x.2.1 ∧ ∀ det, det ≤ maxDets → y.2.2 det = x.2.2 det)
        ((d.eventHandler p).map fun r => (r.2, r.1.pData, r.1.detTotalEvents))
        ((d'.eventHandler p.content).map fun r => (r.2, r.1.pData, r.1.detTotalEvents)) := by
      rw [here, there, bumps]
      simp only [hits]
      cases d.config.bumps d.active p.events with
      | none => exact .none
      | some bs =>
        rw [Option.bind_some, Option.bind_some]
        cases Tally.bumpAll (bs.map Bump.index) b with
        | none => exact .none
        | some b' => exact .some ⟨rfl, fun det le => by simp only [h.totals det le]⟩
    exact Runs.rel_of_map counted
  · obtain ⟨e, handled, same⟩ := eventHandler_rejected accepted
    obtain ⟨e', handled', same'⟩ := eventHandler_rejected (d := d') (p := p.content) (by rwa [verdict])
    rw [handled, handled']
    refine .some ⟨?_, fun det le => ?_⟩
    · exact same'.pData.trans (h.data.trans same.pData.symm)
    · change e'.detTotalEvents det = e.detTotalEvents det
      rw [same'.detTotalEvents, same.detTotalEvents]
      exact h.totals det le

/-- **A packet keeps drivers alike.** -/
theorem deliver (h : Alike d d') (pause : d'.int 0 .pause = d.int 0 .pause) (p : Packet) :
    Option.Rel Alike (d.deliver p) (d'.deliver p.content) := by
  refine Runs.rel_map (h.data_step pause p) ?_
  rintro r r' handled handled' ⟨data, totals⟩
  have frame := eventHandler_handled handled
  have frame' := eventHandler_handled handled'
  have pulses := eventHandler_pulses handled
  have pulses' := eventHandler_pulses handled'
  simp only [h.pulse pause p, h.pulseCounter, h.pChargeInt] at pulses'
  refine ⟨?_, ?_, ?_, data, totals, ?_, ?_, ?_⟩
  · exact (SameSetup.of_handled frame).symm.trans (h.setup.trans (.of_handled frame'))
  · rw [frame.eq, frame'.eq]
    exact h.range
  · rw [frame.eq, frame'.eq]
    exact h.allocated
  · intro c channel
    rw [eventHandler_ledger handled, eventHandler_ledger handled', h.ledger c channel]
    simp only [h.setup.wide, Packet.content]
  · exact pulses'.1.trans pulses.1.symm
  · exact pulses'.2.trans pulses.2.symm

end Alike

/-! ## Sessions -/

/-- The packets of a session, without their times, each with the pause setting it finds. -/
def paced (setting : Int32) : List Input → List (Int32 × Packet)
  | [] => []
  | .pause value :: inputs => paced value inputs
  | .packet p :: inputs => (setting, p.content) :: paced setting inputs

namespace Driver

variable {d d' : Driver}

/-- A packet that finds a given pause setting. -/
def deliverAt (d : Driver) (x : Int32 × Packet) : Option Driver := (d.storeInt 0 .pause x.1).deliver x.2

theorem pause_storeInt (d : Driver) (value : Int32) : (d.storeInt 0 .pause value).int 0 .pause = value := by
  rw [storeInt_eq]
  exact Store.set_same d.int 0 .pause value

/-- A session is as good as its packets with their pause settings. -/
theorem run_paced (h : Alike d d') (inputs : List Input) :
    Option.Rel Alike (Runs.run feed d inputs) (Runs.run deliverAt d' (paced (d.int 0 .pause) inputs)) := by
  induction inputs generalizing d d' with
  | nil => exact .some h
  | cons i inputs ih =>
    cases i with
    | pause value =>
      have stored : Alike (d.storeInt 0 .pause value) d' := (h.symm.pause value).symm
      have rest := ih stored
      rw [pause_storeInt] at rest
      exact rest
    | packet p =>
      have step := (h.pause (d.int 0 .pause)).deliver (pause_storeInt d' _) p
      refine Runs.rel_bind step ?_
      intro e e' delivered _ same
      have kept : e.int 0 .pause = d.int 0 .pause := (deliver_handled delivered).int 0 _ rfl
      have rest := ih same
      rw [kept] at rest
      exact rest

/-- **Drivers that are alike count alike.** -/
theorem run_alike (h : Alike d d') {xs ys : List Input}
    (same : paced (d'.int 0 .pause) ys = paced (d.int 0 .pause) xs) :
    Option.Rel Alike (Runs.run feed d xs) (Runs.run feed d' ys) := by
  have first := run_paced h xs
  have second := run_paced (h.symm.trans h) ys
  rw [same] at second
  exact Runs.rel_meet first second fun _ _ _ here there => here.trans there.symm

end Driver

end ADnED
