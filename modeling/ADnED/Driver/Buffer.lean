import ADnED.Driver.Freshness

/-!
# The block behind `p_Data`

`allocArray` frees the block before it knows whether it gets another one, and it sets
`m_bufferMaxSize` on one of its paths only: the block stays, it is replaced by one of the new
layout, or it is lost (`LosesBuffer`). `Buffered` is what holds between the block and the
members that describe it whatever the outcomes were (`allocArray_buffered`), and `Reconfigured`
what the operations other than `allocArray` can change.
-/

namespace ADnED

namespace Driver

instance (d : Driver) (i k : Nat) : Decidable (d.Ordered i k) :=
  decidable_of_iff ((List.range' (i + 1) k).all fun det => d.int det .pixelNumStart ≤ d.int det .pixelNumEnd) (by
    simp only [Ordered, List.all_eq_true, List.mem_range'_1, decide_eq_true_eq]
    exact ⟨fun h det lo hi => h det (by omega), fun h det range => h det (by omega) (by omega)⟩)

instance (callocOk : Bool) (d : Driver) : Decidable (LosesBuffer callocOk d) :=
  decidable_of_iff (d.dataAlloc = true ∧ d.int 0 .numDet ≠ 0 ∧ d.Ordered 0 d.numDets ∧
      (d.cellsBelow d.numDets = 0 ∨ callocOk = false))
    ⟨fun ⟨due, some_det, ordered, no_block⟩ => ⟨due, some_det, ordered, no_block⟩,
      fun h => ⟨h.due, h.some_det, h.ordered, h.no_block⟩⟩

/-- What the members say about the block, whatever has happened to it. -/
structure Buffered (d : Driver) : Prop where
  size : ∀ b, d.pData = some b → b.length = d.bufferMaxSize.toNat
  held : d.dataAlloc = false → d.pData ≠ none
  cells : d.dataAlloc = false → d.dataMaxSize ≠ 0
  tofMax : d.dataAlloc = false → d.tofMax = (d.int 0 .tofMax).toUInt32

end Driver

/-- `d'` is `d` up to a new configuration: the block and what it was made for are the same,
and a layout parameter other than `NumDet` changes only together with the flag. -/
structure Reconfigured (d d' : Driver) : Prop where
  tofMax : d'.tofMax = d.tofMax
  dataMaxSize : d'.dataMaxSize = d.dataMaxSize
  bufferMaxSize : d'.bufferMaxSize = d.bufferMaxSize
  size : d'.pData.map List.length = d.pData.map List.length
  published : ∀ addr p, p.isLayout = true → d'.int addr p = d.int addr p
  lowered : d'.dataAlloc = false → d.dataAlloc = false
  kept : d'.dataAlloc = false → ∀ addr p, p.layoutAt addr = true → p ≠ .numDet → d'.int addr p = d.int addr p

theorem SameLayout.reconfigured {d d' : Driver} (h : SameLayout d d') : Reconfigured d d' where
  tofMax := h.tofMax
  dataMaxSize := h.dataMaxSize
  bufferMaxSize := h.bufferMaxSize
  size := h.size
  published := fun addr p layout => h.int addr p (by cases p <;> first | rfl | cases layout)
  lowered := fun down => h.dataAlloc.symm.trans down
  kept := fun _ addr p layout _ => h.int addr p layout

namespace Driver

theorem Buffered.of_reconfigured {d d' : Driver} (h : d.Buffered) (r : Reconfigured d d') : d'.Buffered where
  size := by
    intro b data
    have length := r.size
    rw [data] at length
    obtain ⟨c, data', same⟩ := Option.map_eq_some_iff.1 length.symm
    rw [r.bufferMaxSize, ← h.size c data', same]
  held := by
    intro down none
    have length := r.size
    rw [none] at length
    exact h.held (r.lowered down) (Option.map_eq_none_iff.1 length.symm)
  cells := fun down => r.dataMaxSize ▸ h.cells (r.lowered down)
  tofMax := by
    intro down
    rw [r.tofMax, r.kept down 0 .tofMax rfl (by simp)]
    exact h.tofMax (r.lowered down)

/-- Whatever `allocArray` does, the members describe the block it leaves. -/
theorem allocArray_buffered (callocOk : Bool) {d : Driver} (h : d.Buffered) :
    (d.allocArray callocOk).1.Buffered := by
  have outcome := allocArray_reallocated callocOk d
  generalize d.allocArray callocOk = r at outcome ⊢
  cases outcome with
  | down flag => exact h
  | replaced due layable calloc =>
    have laid := layOut_laidOut layable
    refine ⟨fun b data => ?_, fun _ => by simp [layOut, published], fun _ => layable.nonempty, fun _ => laid.tofMax⟩
    have length := laid.buffer
    rw [data] at length
    exact Option.some.inj length
  | @refused e due flag data size range =>
    refine ⟨fun b held => ?_, ?_, ?_, ?_⟩
    · show b.length = e.bufferMaxSize.toNat
      rw [size]
      exact h.size b (data.symm.trans held)
    all_goals
      intro down
      simp [flag] at down
  | @lost e loses flag data =>
    refine ⟨fun b held => ?_, ?_, ?_, ?_⟩
    · simp [data] at held
    all_goals
      intro down
      simp [flag] at down

theorem storeInt_other (d : Driver) {addr a : Nat} {p q : IntParam} {value : Int32} (other : q ≠ p) :
    (d.storeInt addr p value).int a q = d.int a q := by
  simp [storeInt_eq, other]

/-- An accepted `AllocSpace` leaves the layout of `allocArray`. -/
theorem allocSpace_layout (callocOk : Bool) {d : Driver} {addr : Nat} (value : Int32) (inRange : addr ≤ maxDets)
    (idle : d.adStatus ≠ .acquire) :
    SameLayout (d.allocArray callocOk).1 (d.applyInt32 callocOk addr .allocSpace value).1 := by
  unfold applyInt32
  rw [if_neg (by omega)]
  simp only
  rw [if_pos idle]
  split
  · rename_i e success
    rw [success]
    exact storeInt_same e fun layout => by cases layout
  · rename_i e error
    rw [error]
    exact ⟨fun _ _ _ => rfl, rfl, rfl, rfl, rfl, rfl⟩

/-- Every other record write is a new configuration. -/
theorem applyInt32_reconfigured (callocOk : Bool) (d : Driver) {addr : Nat} {p : IntParam} (value : Int32)
    (writable : p.writable = true) (other : ¬(p = .allocSpace ∧ addr ≤ maxDets ∧ d.adStatus ≠ .acquire)) :
    Reconfigured d (d.applyInt32 callocOk addr p value).1 := by
  have wrote := applyInt32_wrote callocOk d addr value writable
  generalize (d.applyInt32 callocOk addr p value).1 = d' at wrote ⊢
  cases wrote with
  | same layout status => exact layout.reconfigured
  | due idle =>
    have other : ∀ q : IntParam, q.isLayout = true → q ≠ p := by
      rintro q layout rfl
      cases q <;> simp [IntParam.isLayout, IntParam.writable] at layout writable
    refine ⟨?_, ?_, ?_, ?_, fun a q layout => storeInt_other _ (other q layout), ?_, ?_⟩
    all_goals simp [storeInt_eq]
  | numDet param idle few =>
    have other : ∀ q : IntParam, q.isLayout = true → q ≠ .numDet := by
      rintro q layout rfl
      cases layout
    refine ⟨?_, ?_, ?_, ?_, fun a q layout => storeInt_other d (other q layout), ?_,
      fun _ a q _ other => storeInt_other d other⟩
    all_goals simp [storeInt_eq]
  | allocated param inRange idle success => exact absurd ⟨param, inRange, idle⟩ other
  | failed param inRange idle error => exact absurd ⟨param, inRange, idle⟩ other

end Driver

end ADnED
