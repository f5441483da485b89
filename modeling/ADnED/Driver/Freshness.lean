import ADnED.Driver.Layout
import ADnED.Driver.HandlerFrame

/-!
# The published layout is current

`m_dataAlloc` is a dirty flag: while it is down, the published layout should be the one
of the current parameters. `Current` states that as an invariant of the driver, and one
lemma for each operation says that the operation keeps it. A write of `NumDet` does not
raise the flag, so it keeps the invariant only if it changes nothing.
-/

namespace ADnED

/-- The parameters at `addr` that the layout is computed from, or that it consists of. -/
def IntParam.layoutAt (p : IntParam) (addr : Nat) : Bool :=
  match p with
  | .numDet | .tofMax => addr == 0
  | .pixelNumStart | .pixelNumEnd | .pixelNumSize => true
  | .ndArrayStart | .ndArrayEnd | .ndArraySize | .ndArrayTOFStart | .ndArrayTOFEnd => true
  | _ => false

/-- The readbacks that publish the layout. -/
def IntParam.isLayout : IntParam → Bool
  | .ndArrayStart | .ndArrayEnd | .ndArraySize | .ndArrayTOFStart | .ndArrayTOFEnd => true
  | _ => false

/-- `d'` has the layout of `d`, and the same parameters to compute it from. -/
structure SameLayout (d d' : Driver) : Prop where
  int : ∀ addr p, p.layoutAt addr = true → d'.int addr p = d.int addr p
  tofMax : d'.tofMax = d.tofMax
  dataMaxSize : d'.dataMaxSize = d.dataMaxSize
  bufferMaxSize : d'.bufferMaxSize = d.bufferMaxSize
  dataAlloc : d'.dataAlloc = d.dataAlloc
  size : d'.pData.map List.length = d.pData.map List.length

namespace SameLayout

variable {d d' d'' : Driver}

theorem refl (d : Driver) : SameLayout d d := ⟨fun _ _ _ => rfl, rfl, rfl, rfl, rfl, rfl⟩

/-- The strings, the status, the transformations and the signals are no part of the layout. -/
theorem of_members (h : d' = { d with
    str := d'.str, adStatus := d'.adStatus, transform := d'.transform
    startEvent := d'.startEvent, stopEvent := d'.stopEvent
    startFrame := d'.startFrame, stopFrame := d'.stopFrame }) : SameLayout d d' := by
  rw [h]
  exact ⟨fun _ _ _ => rfl, rfl, rfl, rfl, rfl, rfl⟩

theorem trans (h : SameLayout d d') (h' : SameLayout d' d'') : SameLayout d d'' where
  int := fun addr p hp => (h'.int addr p hp).trans (h.int addr p hp)
  tofMax := h'.tofMax.trans h.tofMax
  dataMaxSize := h'.dataMaxSize.trans h.dataMaxSize
  bufferMaxSize := h'.bufferMaxSize.trans h.bufferMaxSize
  dataAlloc := h'.dataAlloc.trans h.dataAlloc
  size := h'.size.trans h.size

theorem detSize (h : SameLayout d d') (det : Nat) : d'.detSize det = d.detSize det := by
  simp only [Driver.detSize, h.int det .pixelNumSize rfl, h.int det .pixelNumStart rfl,
    h.int det .pixelNumEnd rfl]

theorem numDets (h : SameLayout d d') : d'.numDets = d.numDets := by
  rw [Driver.numDets, h.int 0 .numDet rfl, Driver.numDets]

theorem layoutValue (h : SameLayout d d') (det : Nat) (p : IntParam) :
    d'.layoutValue det p = d.layoutValue det p := by
  rw [Driver.layoutValue, h.numDets, h.int 0 .tofMax rfl, Driver.cellsBelow_congr h.detSize,
    Driver.pixelValue_congr h.detSize, Driver.layoutValue]

theorem bufferCells (h : SameLayout d d') : d'.bufferCells = d.bufferCells := by
  rw [Driver.bufferCells, h.numDets, h.int 0 .tofMax rfl, h.int 0 .numDet rfl,
    Driver.cellsBelow_congr h.detSize, Driver.bufferCells]

/-- A parameter the layout does not depend on. -/
theorem setInt (d : Driver) (addr : Nat) {p : IntParam} (v : Int32) (hp : p.layoutAt addr = false) :
    SameLayout d (d.setInt addr p v) := by
  refine ⟨?_, rfl, rfl, rfl, rfl, rfl⟩
  intro a q hq
  have other : ¬(a = addr ∧ q = p) := by
    rintro ⟨rfl, rfl⟩
    rw [hp] at hq
    cases hq
  simp [Driver.setInt, Store.set_apply, other]

/-- A packet does not touch the layout. -/
theorem of_handled (h : Handled d d') : SameLayout d d' := by
  refine ⟨fun addr p hp => h.int addr p ?_, ?_, ?_, ?_, ?_, h.size⟩
  · cases p <;> first | rfl | cases hp
  all_goals rw [h.eq]

end SameLayout

namespace Driver

/-- The published layout is the one of the current parameters. -/
structure LaidOut (d : Driver) : Prop where
  layable : d.Layable
  values : ∀ det, 1 ≤ det → det ≤ d.numDets → ∀ p v, d.layoutValue det p = some v → d.int det p = v
  tofMax : d.tofMax = (d.int 0 .tofMax).toUInt32
  dataMaxSize : d.dataMaxSize = d.cellsBelow d.numDets
  bufferMaxSize : d.bufferMaxSize = d.bufferCells
  buffer : d.pData.map List.length = some d.bufferMaxSize.toNat

theorem LaidOut.congr {d d' : Driver} (h : d.LaidOut) (same : SameLayout d d') : d'.LaidOut where
  layable := by
    refine ⟨fun det lo hi => ?_, ?_⟩
    · rw [same.int det .pixelNumStart rfl, same.int det .pixelNumEnd rfl]
      rw [same.numDets] at hi
      exact h.layable.ordered det lo hi
    · rw [same.numDets, cellsBelow_congr same.detSize]
      exact h.layable.nonempty
  values := by
    intro det lo hi p v hv
    rw [same.numDets] at hi
    rw [same.layoutValue] at hv
    have layout : p.layoutAt det = true := by
      cases p <;> first | rfl | cases hv
    rw [same.int det p layout]
    exact h.values det lo hi p v hv
  tofMax := by rw [same.tofMax, same.int 0 .tofMax rfl, h.tofMax]
  dataMaxSize := by rw [same.dataMaxSize, same.numDets, cellsBelow_congr same.detSize, h.dataMaxSize]
  bufferMaxSize := by rw [same.bufferMaxSize, same.bufferCells, h.bufferMaxSize]
  buffer := by rw [same.size, same.bufferMaxSize, h.buffer]

/-- The parameters that are not published keep their values. -/
theorem layOut_int (d : Driver) (addr : Nat) (p : IntParam) :
    d.layOut.int addr p =
      if 0 < addr ∧ addr ≤ d.numDets then (d.layoutValue addr p).getD (d.int addr p) else d.int addr p := by
  simp [layOut, published]

theorem layOut_detSize (d : Driver) (det : Nat) : d.layOut.detSize det = d.detSize det := by
  have first : d.layOut.int det .pixelNumStart = d.int det .pixelNumStart := by
    rw [layOut_int]
    exact ite_self _
  have last : d.layOut.int det .pixelNumEnd = d.int det .pixelNumEnd := by
    rw [layOut_int]
    exact ite_self _
  have size : d.layOut.int det .pixelNumSize =
      if 0 < det ∧ det ≤ d.numDets then d.detSize det else d.int det .pixelNumSize := by
    rw [layOut_int]
    rfl
  by_cases inside : 0 < det ∧ det ≤ d.numDets
  · rw [if_pos inside] at size
    exact detSize_idem size first last
  · rw [if_neg inside] at size
    simp only [detSize, size, first, last]

/-- What `allocArray` computes is the layout of the parameters it leaves. -/
theorem layOut_laidOut {d : Driver} (h : d.Layable) : d.layOut.LaidOut := by
  have sizes := layOut_detSize d
  have numDet : d.layOut.int 0 .numDet = d.int 0 .numDet := by simp [layOut_int]
  have tofMax : d.layOut.int 0 .tofMax = d.int 0 .tofMax := by simp [layOut_int]
  have count : d.layOut.numDets = d.numDets := by rw [numDets, numDet, numDets]
  have value : ∀ det p, d.layOut.layoutValue det p = d.layoutValue det p := by
    intro det p
    rw [layoutValue, count, tofMax, cellsBelow_congr sizes, pixelValue_congr sizes, layoutValue]
  have cells : d.layOut.bufferCells = d.bufferCells := by
    rw [bufferCells, count, tofMax, numDet, cellsBelow_congr sizes, bufferCells]
  refine ⟨⟨?_, ?_⟩, ?_, ?_, ?_, ?_, ?_⟩
  · intro det lo hi
    rw [count] at hi
    have ordered := h.ordered det lo hi
    simpa [layOut_int, layoutValue, tofValue, pixelValue] using ordered
  · rw [count, cellsBelow_congr sizes]
    exact h.nonempty
  · intro det lo hi p v hv
    rw [count] at hi
    rw [value] at hv
    rw [layOut_int, if_pos ⟨by omega, hi⟩, hv]
    rfl
  · rw [tofMax]
    rfl
  · rw [count, cellsBelow_congr sizes]
    rfl
  · rw [cells]
    rfl
  · simp [layOut, published]

/-- The layout `allocArray` computes from the current parameters. -/
def recomputed (d : Driver) : Driver × AsynStatus := allocArray true { d with dataAlloc := true }

/-- The published layout is the one `allocArray` computes from the current parameters, and
`p_Data` has the size of that layout. -/
structure Fresh (d : Driver) : Prop where
  success : d.recomputed.2 = .success
  published : ∀ det ∈ dets (d.int 0 .numDet), ∀ p, p.isLayout = true →
    d.int det p = d.recomputed.1.int det p
  buffer : ∃ b, d.pData = some b ∧ b.length = d.recomputed.1.bufferMaxSize.toNat

theorem LaidOut.fresh {d : Driver} (h : d.LaidOut) : d.Fresh := by
  let e : Driver := { d with dataAlloc := true }
  have sizes : ∀ det, e.detSize det = d.detSize det := fun _ => rfl
  have layable : e.Layable := by
    refine ⟨h.layable.ordered, ?_⟩
    rw [cellsBelow_congr sizes]
    exact h.layable.nonempty
  have value : ∀ det p, e.layoutValue det p = d.layoutValue det p := by
    intro det p
    rw [layoutValue, cellsBelow_congr sizes, pixelValue_congr sizes, layoutValue]
    rfl
  have computed : d.recomputed = (e.layOut, .success) := allocArray_of_layable rfl layable
  refine ⟨by rw [computed], ?_, ?_⟩
  · intro det hdet p hp
    rw [mem_dets] at hdet
    have inside : 0 < det ∧ det ≤ e.numDets := ⟨by omega, hdet.2⟩
    obtain ⟨v, hv⟩ : ∃ v, d.layoutValue det p = some v := by
      cases p <;> first | exact ⟨_, rfl⟩ | cases hp
    rw [computed, layOut_int, if_pos inside, value, hv]
    exact h.values det hdet.1 hdet.2 p v hv
  · obtain ⟨b, data, length⟩ := Option.map_eq_some_iff.1 h.buffer
    refine ⟨b, data, ?_⟩
    rw [length, h.bufferMaxSize, computed]
    rw [show e.layOut.bufferMaxSize = e.bufferCells from rfl, bufferCells, bufferCells, cellsBelow_congr sizes]
    rfl

/-! ## The invariant -/

/-- While `m_dataAlloc` is down the layout is current, and it is down in an acquisition. -/
structure Current (d : Driver) : Prop where
  laidOut : d.dataAlloc = false → d.LaidOut
  allocated : d.adStatus = .acquire → d.dataAlloc = false

theorem Current.congr {d d' : Driver} (h : d.Current) (same : SameLayout d d')
    (status : d'.adStatus = .acquire → d.adStatus = .acquire) : d'.Current where
  laidOut := by
    intro down
    rw [same.dataAlloc] at down
    exact (h.laidOut down).congr same
  allocated := by
    intro acquire
    rw [same.dataAlloc]
    exact h.allocated (status acquire)

/-- A layout that is due is current, outside an acquisition. -/
theorem Current.of_due {d : Driver} (due : d.dataAlloc = true) (idle : d.adStatus ≠ .acquire) : d.Current :=
  ⟨fun down => by simp [due] at down, fun acquire => absurd acquire idle⟩

/-- After a successful `allocArray` the layout is current. -/
theorem allocArray_laidOut (callocOk : Bool) {d : Driver} (h : d.Current)
    (success : (d.allocArray callocOk).2 = .success) :
    (d.allocArray callocOk).1.dataAlloc = false ∧ (d.allocArray callocOk).1.LaidOut := by
  cases due : d.dataAlloc with
  | false =>
    rw [allocArray, if_pos due]
    exact ⟨due, h.laidOut due⟩
  | true =>
    rcases allocArray_cases callocOk due with ⟨layable, computed⟩ | ⟨failed, -⟩
    · rw [computed]
      exact ⟨rfl, layOut_laidOut layable⟩
    · rw [failed] at success
      cases success

/-- A failed `allocArray` leaves the layout due. -/
theorem allocArray_due (callocOk : Bool) {d : Driver} (failed : (d.allocArray callocOk).2 = .error) :
    (d.allocArray callocOk).1.dataAlloc = true := by
  cases due : d.dataAlloc with
  | false =>
    rw [allocArray, if_pos due] at failed
    cases failed
  | true =>
    rcases allocArray_cases callocOk due with ⟨-, computed⟩ | ⟨-, stays⟩
    · rw [computed] at failed
      cases failed
    · exact stays

theorem length_zeroCells (b : List UInt32) (first n : Nat) : (zeroCells b first n).length = b.length := by
  simp [zeroCells]

theorem clearParams_same (d : Driver) : SameLayout d d.clearParams := by
  refine ⟨fun addr p hp => ?_, rfl, rfl, rfl, rfl, ?_⟩
  · have kept : p ≠ .pulseCounter ∧ clearedByChannel p = false := by
      cases p <;> simp_all [IntParam.layoutAt, clearedByChannel]
    simp [clearParams, kept.1, kept.2]
  · simp [clearParams, Function.comp_def, length_zeroCells]

theorem resetTOFArray_same (d : Driver) (det : Nat) : SameLayout d (d.resetTOFArray det) := by
  unfold resetTOFArray
  split
  · exact ⟨fun _ _ _ => rfl, rfl, rfl, rfl, rfl, by simp [Function.comp_def, length_zeroCells]⟩
  · exact .refl d

theorem storeInt_eq (d : Driver) (addr : Nat) (p : IntParam) (v : Int32) :
    d.storeInt addr p v = { d with
      int := d.int.set addr p v
      allocSpaceStatus := if d.dataAlloc then .req else d.allocSpaceStatus } := by
  unfold storeInt setInt
  split <;> rfl

/-- Storing a value the layout does not depend on, or that is there already. -/
theorem storeInt_same (d : Driver) {addr : Nat} {p : IntParam} {v : Int32}
    (hp : p.layoutAt addr = true → v = d.int addr p) : SameLayout d (d.storeInt addr p v) := by
  rw [storeInt_eq]
  refine ⟨fun a q hq => ?_, rfl, rfl, rfl, rfl, rfl⟩
  simp only [Store.set_apply]
  split_ifs with here
  · obtain ⟨rfl, rfl⟩ := here
    exact hp hq
  · rfl

@[simp] theorem storeInt_adStatus (d : Driver) (addr : Nat) (p : IntParam) (v : Int32) :
    (d.storeInt addr p v).adStatus = d.adStatus := by
  rw [storeInt_eq]

@[simp] theorem storeInt_dataAlloc (d : Driver) (addr : Nat) (p : IntParam) (v : Int32) :
    (d.storeInt addr p v).dataAlloc = d.dataAlloc := by
  rw [storeInt_eq]

/-- The write of `NumDet` changes nothing while the layout counts as allocated. -/
def KeepsNumDet (d : Driver) (addr : Nat) (p : IntParam) (value : Int32) : Prop :=
  p = .numDet → addr = 0 → d.dataAlloc = false → d.adStatus ≠ .acquire → value.toInt ≤ maxDets →
    value = d.int 0 .numDet

/-! ## Record writes -/

/-- What a write does to the layout: nothing, or it makes a new one due, changes `NumDet`, or
runs `allocArray`. -/
inductive Wrote (callocOk : Bool) (d : Driver) (addr : Nat) (p : IntParam) (value : Int32) : Driver → Prop where
  | same {d' : Driver} (layout : SameLayout d d') (status : d'.adStatus = d.adStatus) :
      Wrote callocOk d addr p value d'
  | due (idle : d.adStatus ≠ .acquire) :
      Wrote callocOk d addr p value (storeInt { d with dataAlloc := true } addr p value)
  | numDet (param : p = .numDet) (idle : d.adStatus ≠ .acquire) (few : value.toInt ≤ maxDets) :
      Wrote callocOk d addr p value (d.storeInt addr .numDet value)
  | allocated {e : Driver} (param : p = .allocSpace) (inRange : addr ≤ maxDets) (idle : d.adStatus ≠ .acquire)
      (success : d.allocArray callocOk = (e, .success)) :
      Wrote callocOk d addr p value (e.storeInt addr .allocSpace value)
  | failed {e : Driver} (param : p = .allocSpace) (inRange : addr ≤ maxDets) (idle : d.adStatus ≠ .acquire)
      (error : d.allocArray callocOk = (e, .error)) :
      Wrote callocOk d addr p value e.allocSpaceFailed

/-- A parameter outside the layout, after anything that keeps the layout. -/
theorem Wrote.plain {callocOk : Bool} {d e : Driver} {addr : Nat} {p q : IntParam} {value v : Int32}
    (same : SameLayout d e) (status : e.adStatus = d.adStatus) (outside : q.layoutAt addr = false) :
    Wrote callocOk d addr p value (e.storeInt addr q v) := by
  refine .same (same.trans (storeInt_same e fun layout => ?_)) ((storeInt_adStatus e addr q v).trans status)
  rw [outside] at layout
  cases layout

theorem writeLayout_wrote (callocOk : Bool) (d : Driver) (addr : Nat) (p : IntParam) (value : Int32) :
    Wrote callocOk d addr p value (d.writeLayout addr p value).1 := by
  unfold writeLayout
  split
  · rename_i idle
    exact .due idle
  · exact .same (.refl d) rfl

/-- **Record writes.** Every write is one of these. -/
theorem applyInt32_wrote (callocOk : Bool) (d : Driver) (addr : Nat) {p : IntParam} (value : Int32)
    (writable : p.writable = true) : Wrote callocOk d addr p value (d.applyInt32 callocOk addr p value).1 := by
  have kept : Wrote callocOk d addr p value d := .same (.refl d) rfl
  unfold applyInt32
  by_cases inRange : addr ≤ maxDets
  case neg =>
    rw [if_pos (by omega)]
    exact kept
  rw [if_neg (by omega)]
  cases p <;> simp only
  case allocSpace =>
    split
    · rename_i idle
      split
      · rename_i e success
        exact .allocated rfl inRange idle success
      · rename_i e error
        exact .failed rfl inRange idle error
    · exact kept
  case pixelNumStart | pixelNumEnd | pixelNumSize | tofMax => exact writeLayout_wrote callocOk d addr _ value
  case numDet =>
    unfold writeBounded
    split
    · rename_i idle
      split
      · exact kept
      · exact .numDet rfl idle (by omega)
    · exact kept
  case numChannels =>
    unfold writeBounded
    split
    · split
      · exact kept
      · exact .plain (.refl d) rfl rfl
    · exact kept
  case reset => exact .plain (clearParams_same d) rfl rfl
  case start =>
    split
    · split
      · have paused := SameLayout.setInt (p := .pause) d.clearParams 0 0 rfl
        have same := (clearParams_same d).trans paused
        exact .plain ⟨same.int, rfl, rfl, rfl, rfl, same.size⟩ rfl rfl
      · exact .same (.setInt d _ 0 rfl) rfl
    · exact .plain (.refl d) rfl rfl
  case stop =>
    split
    · split
      · have paused := SameLayout.setInt (p := .pause) d 0 0 rfl
        exact .plain ⟨paused.int, rfl, rfl, rfl, rfl, rfl⟩ rfl rfl
      · exact .same (.setInt d _ 0 rfl) rfl
    · exact .plain (.refl d) rfl rfl
  case tofTransDebug | tofTransInt => exact .plain (.of_members rfl) rfl rfl
  case tofArrayReset => exact .plain (resetTOFArray_same d addr) (by unfold resetTOFArray; split <;> rfl) rfl
  case pixelROIEnable | tofROIEnable =>
    split
    · exact .plain (.setInt d _ 0 rfl) rfl rfl
    · exact .plain (.refl d) rfl rfl
  all_goals first | exact .plain (.refl d) rfl rfl | cases writable

/-- Every write keeps the layout current, apart from one that changes `NumDet` behind a
layout that counts as allocated. -/
theorem applyInt32_current {callocOk : Bool} {d : Driver} (h : d.Current) {addr : Nat} {p : IntParam}
    {value : Int32} (writable : p.writable = true) (keeps : d.KeepsNumDet addr p value) :
    (d.applyInt32 callocOk addr p value).1.Current := by
  have wrote := applyInt32_wrote callocOk d addr value writable
  generalize (d.applyInt32 callocOk addr p value).1 = d' at wrote ⊢
  cases wrote with
  | same layout status => exact h.congr layout fun acquire => status.symm.trans acquire
  | due idle => exact .of_due (by simp) (by simpa using idle)
  | numDet param idle few =>
    cases due : d.dataAlloc with
    | true => exact .of_due (by simpa using due) (by simpa using idle)
    | false =>
      refine h.congr (storeInt_same d fun layout => ?_) (by simp)
      have zero : addr = 0 := by simpa [IntParam.layoutAt] using layout
      rw [zero]
      exact keeps param zero due idle few
  | @allocated e param inRange idle success =>
    obtain ⟨down, laidOut⟩ := allocArray_laidOut callocOk h (by rw [success])
    rw [success] at down laidOut
    have current : e.Current := ⟨fun _ => laidOut, fun _ => down⟩
    refine current.congr (storeInt_same e fun layout => ?_) (by simp)
    cases layout
  | @failed e param inRange idle error =>
    have due := allocArray_due callocOk (d := d) (by rw [error])
    rw [error] at due
    exact .of_due due (by simp [allocSpaceFailed])

end Driver

end ADnED
