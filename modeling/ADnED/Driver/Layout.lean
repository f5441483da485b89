import ADnED.Driver.AllocFrame
import Mathlib.Tactic.SplitIfs
import Mathlib.Data.List.Range

/-!
# The layout that `allocArray` computes

The two loops of `allocArray` in closed form. `cellsBelow n` is the number of pixel
cells of the detectors `1..n`, in 32-bit arithmetic; everything that is published
follows from it. `layOut` is the state a successful allocation leaves, `Layable` says
which parameters have one (`allocArray_of_layable`), and in every other case the layout
stays due (`allocArray_cases`).
-/

namespace ADnED

/-- The readbacks that publish the spectra. -/
def IntParam.isSpectrum : IntParam → Bool
  | .ndArrayTOFStart | .ndArrayTOFEnd => true
  | _ => false

namespace Driver

/-- The pixel cells of the detectors `1..n`. -/
def cellsBelow (d : Driver) : Nat → UInt32
  | 0 => 0
  | n + 1 => d.cellsBelow n + (d.detSize (n + 1)).toUInt32

/-- What the first loop publishes for `det`. -/
def pixelValue (d : Driver) (det : Nat) : IntParam → Option Int32
  | .pixelNumSize => some (d.detSize det)
  | .ndArrayStart => some (d.cellsBelow (det - 1)).toInt32
  | .ndArrayEnd => some (d.cellsBelow det - 1).toInt32
  | .ndArraySize => some (d.detSize det)
  | _ => none

/-- The first cell of the spectrum of `det`, when the spectra begin at `first`. -/
def tofFirst (first : UInt32) (tofMax : Int32) (det : Nat) : UInt32 :=
  first + UInt32.ofNat (det - 1) * (tofMax.toUInt32 + 1)

/-- What the second loop publishes for `det`. -/
def tofValue (first : UInt32) (tofMax : Int32) (det : Nat) : IntParam → Option Int32
  | .ndArrayTOFStart => some (tofFirst first tofMax det).toInt32
  | .ndArrayTOFEnd => some (tofFirst first tofMax det + tofMax.toUInt32).toInt32
  | _ => none

/-- The parameters of the detectors `i+1..i+k` replaced by the published values. -/
def published (d : Driver) (value : Nat → IntParam → Option Int32) (i k : Nat) : Driver :=
  { d with int := fun addr p =>
      if i < addr ∧ addr ≤ i + k then (value addr p).getD (d.int addr p) else d.int addr p }

/-- The driver with `m_dataMaxSize` set. -/
def withCells (d : Driver) (n : UInt32) : Driver := { d with dataMaxSize := n }

theorem published_withCells (d : Driver) (value : Nat → IntParam → Option Int32) (i k : Nat) (n : UInt32) :
    (d.published value i k).withCells n = (d.withCells n).published value i k := rfl

theorem withCells_withCells (d : Driver) (m n : UInt32) : (d.withCells m).withCells n = d.withCells n := rfl

/-- A size of 0 may be replaced by the one it stands for. -/
theorem detSize_idem {d d' : Driver} {det : Nat} (size : d'.int det .pixelNumSize = d.detSize det)
    (first : d'.int det .pixelNumStart = d.int det .pixelNumStart)
    (last : d'.int det .pixelNumEnd = d.int det .pixelNumEnd) : d'.detSize det = d.detSize det := by
  rw [detSize, size, first, last]
  by_cases zero : d.detSize det = 0
  · rw [if_pos zero]
    unfold detSize at zero ⊢
    split_ifs at zero ⊢
    · rfl
    · contradiction
  · rw [if_neg zero]

theorem detSize_publishPixels (d : Driver) (det det' : Nat) :
    (d.publishPixels det).detSize det' = d.detSize det' := by
  by_cases h : det' = det
  · subst h
    apply detSize_idem <;> simp [publishPixels]
  · simp [detSize, publishPixels, h]

theorem cellsBelow_congr {d d' : Driver} (h : ∀ det, d'.detSize det = d.detSize det) (n : Nat) :
    d'.cellsBelow n = d.cellsBelow n := by
  induction n with
  | zero => rfl
  | succ n ih => rw [cellsBelow, ih, h, cellsBelow]

theorem pixelValue_congr {d d' : Driver} (h : ∀ det, d'.detSize det = d.detSize det) (det : Nat)
    (p : IntParam) : d'.pixelValue det p = d.pixelValue det p := by
  cases p <;> simp [pixelValue, h, cellsBelow_congr h]

/-- One turn of the first loop. -/
theorem publishPixels_eq {d : Driver} {i : Nat} (h : d.dataMaxSize = d.cellsBelow i) :
    d.publishPixels (i + 1) =
      (d.withCells (d.cellsBelow (i + 1))).published d.pixelValue i 1 := by
  have next : d.dataMaxSize + (d.detSize (i + 1)).toUInt32 = d.cellsBelow (i + 1) := by
    rw [h, cellsBelow]
  simp only [publishPixels, published, withCells, next]
  congr 1
  funext addr p
  by_cases here : addr = i + 1
  · subst here
    cases p <;> simp [pixelValue, h]
  · have other : ¬(i < addr ∧ addr ≤ i + 1) := by omega
    simp [here, other]

/-- Two stretches of detectors published one after the other. -/
theorem published_published {d : Driver} {value value' : Nat → IntParam → Option Int32} {i k : Nat}
    (h : ∀ det p, value' det p = value det p) :
    (d.published value i 1).published value' (i + 1) k = d.published value i (k + 1) := by
  simp only [published]
  congr 1
  funext addr p
  rw [h]
  by_cases here : addr = i + 1
  · subst here
    simp
  · by_cases later : i + 1 < addr ∧ addr ≤ i + 1 + k
    · have all : i < addr ∧ addr ≤ i + (k + 1) := by omega
      have now : ¬(i < addr ∧ addr ≤ i + 1) := by omega
      rw [if_pos later, if_pos all, if_neg now]
    · have all : ¬(i < addr ∧ addr ≤ i + (k + 1)) := by omega
      have now : ¬(i < addr ∧ addr ≤ i + 1) := by omega
      rw [if_neg later, if_neg all, if_neg now]

/-- The pixel ID ranges of the detectors `i+1..i+k` are in order. -/
def Ordered (d : Driver) (i k : Nat) : Prop :=
  ∀ det, i < det → det ≤ i + k → d.int det .pixelNumStart ≤ d.int det .pixelNumEnd

theorem ordered_succ {d : Driver} {i k : Nat} :
    d.Ordered i (k + 1) ↔
      d.int (i + 1) .pixelNumStart ≤ d.int (i + 1) .pixelNumEnd ∧ (d.publishPixels (i + 1)).Ordered (i + 1) k := by
  have same : ∀ det, (d.publishPixels (i + 1)).int det .pixelNumStart = d.int det .pixelNumStart ∧
      (d.publishPixels (i + 1)).int det .pixelNumEnd = d.int det .pixelNumEnd := by
    intro det
    simp [publishPixels]
  unfold Ordered
  constructor
  · intro h
    refine ⟨h (i + 1) (by omega) (by omega), fun det lo hi => ?_⟩
    rw [(same det).1, (same det).2]
    exact h det (by omega) (by omega)
  · rintro ⟨now, later⟩ det lo hi
    by_cases here : det = i + 1
    · rw [here]
      exact now
    · have ordered := later det (by omega) (by omega)
      rw [(same det).1, (same det).2] at ordered
      exact ordered

/-- The first loop over ranges that are in order. -/
theorem allocPixels_of_ordered (k : Nat) : ∀ {d : Driver} {i : Nat}, d.dataMaxSize = d.cellsBelow i →
    d.Ordered i k → allocPixels (List.range' (i + 1) k) d =
      ((d.withCells (d.cellsBelow (i + k))).published d.pixelValue i k, .success) := by
  induction k with
  | zero =>
    intro d i h _
    have none : ∀ addr, ¬(i < addr ∧ addr ≤ i) := by
      intro addr
      omega
    simp [allocPixels, published, withCells, none, ← h]
  | succ k ih =>
    intro d i h ordered
    obtain ⟨now, later⟩ := ordered_succ.1 ordered
    have sizes := detSize_publishPixels d (i + 1)
    have first : (d.publishPixels (i + 1)).dataMaxSize = (d.publishPixels (i + 1)).cellsBelow (i + 1) := by
      rw [cellsBelow_congr sizes, publishPixels_eq h]
      rfl
    have turn : allocPixels (List.range' (i + 1) (k + 1)) d =
        allocPixels (List.range' (i + 1 + 1) k) (d.publishPixels (i + 1)) := by
      rw [List.range'_succ, allocPixels, if_pos now]
    have total : i + 1 + k = i + (k + 1) := by omega
    rw [turn, ih first later, cellsBelow_congr sizes, total]
    have values := pixelValue_congr sizes
    generalize (d.publishPixels (i + 1)).pixelValue = value at values ⊢
    rw [publishPixels_eq h, published_withCells, withCells_withCells, published_published values]

/-- The first loop gives up at a range that is not in order. -/
theorem allocPixels_of_not_ordered (k : Nat) : ∀ {d : Driver} {i : Nat}, ¬d.Ordered i k →
    (allocPixels (List.range' (i + 1) k) d).2 = .error := by
  induction k with
  | zero =>
    intro d i h
    exact absurd (fun det lo hi => by omega) h
  | succ k ih =>
    intro d i h
    rw [List.range'_succ, allocPixels]
    split
    · rename_i now
      exact ih fun later => h (ordered_succ.2 ⟨now, later⟩)
    · rfl

theorem tofFirst_succ (first : UInt32) (tofMax : Int32) (i : Nat) :
    tofFirst first tofMax (i + 1) + tofMax.toUInt32 + 1 = tofFirst first tofMax (i + 1 + 1) := by
  simp only [tofFirst, Nat.add_sub_cancel, UInt32.ofNat_add, UInt32.add_mul, UInt32.ofNat_one, UInt32.one_mul,
    UInt32.add_assoc]

/-- The second loop. -/
theorem allocTOF_range' (first : UInt32) (tofMax : Int32) (k : Nat) : ∀ (d : Driver) (i : Nat),
    allocTOF tofMax (List.range' (i + 1) k) (tofFirst first tofMax (i + 1)) d =
      d.published (tofValue first tofMax) i k := by
  induction k with
  | zero =>
    intro d i
    have none : ∀ addr, ¬(i < addr ∧ addr ≤ i) := by
      intro addr
      omega
    simp [allocTOF, published, none]
  | succ k ih =>
    intro d i
    have turn : (d.setInt (i + 1) .ndArrayTOFStart (tofFirst first tofMax (i + 1)).toInt32).setInt (i + 1)
        .ndArrayTOFEnd (tofFirst first tofMax (i + 1) + tofMax.toUInt32).toInt32 =
          d.published (tofValue first tofMax) i 1 := by
      simp only [setInt, published]
      congr 1
      funext addr p
      by_cases here : addr = i + 1
      · subst here
        cases p <;> simp [tofValue]
      · have other : ¬(i < addr ∧ addr ≤ i + 1) := by omega
        simp [here, other]
    rw [List.range'_succ, allocTOF, tofFirst_succ, ih, turn]
    exact published_published fun _ _ => rfl

/-! ## The specification of `allocArray` -/

/-- The number of detectors the loops run over. -/
def numDets (d : Driver) : Nat := (d.int 0 .numDet).toInt.toNat

/-- Everything `allocArray` publishes for `det`. -/
def layoutValue (d : Driver) (det : Nat) (p : IntParam) : Option Int32 :=
  (tofValue (d.cellsBelow d.numDets) (d.int 0 .tofMax) det p).or (d.pixelValue det p)

/-- The size of the buffer. -/
def bufferCells (d : Driver) : UInt32 :=
  d.cellsBelow d.numDets + (d.int 0 .numDet * (d.int 0 .tofMax + 1)).toUInt32

/-- The current parameters have a layout. -/
structure Layable (d : Driver) : Prop where
  ordered : d.Ordered 0 d.numDets
  nonempty : d.cellsBelow d.numDets ≠ 0

/-- The driver with the layout of its current parameters. -/
def layOut (d : Driver) : Driver :=
  ({ d with
      tofMax := (d.int 0 .tofMax).toUInt32
      dataMaxSize := d.cellsBelow d.numDets
      bufferMaxSize := d.bufferCells
      pData := some (List.replicate d.bufferCells.toNat 0)
      dataAlloc := false
      allocSpaceStatus := .ok } : Driver).published d.layoutValue 0 d.numDets

theorem numDet_ne_zero {d : Driver} (h : d.Layable) : d.int 0 .numDet ≠ 0 := by
  intro zero
  apply h.nonempty
  simp [numDets, zero, cellsBelow]

theorem dets_eq (d : Driver) : dets (d.int 0 .numDet) = List.range' (0 + 1) d.numDets := rfl

/-- The values of the second loop on top of those of the first. -/
theorem published_or {d : Driver} {value value' : Nat → IntParam → Option Int32} {k : Nat} :
    (d.published value 0 k).published value' 0 k =
      d.published (fun det p => (value' det p).or (value det p)) 0 k := by
  simp only [published]
  congr 1
  funext addr p
  split_ifs
  · cases value' addr p <;> rfl
  · rfl

/-- The first loop as `allocArray` runs it. -/
theorem allocPixels_due {d : Driver} (h : d.Ordered 0 d.numDets) :
    allocPixels (dets (d.int 0 .numDet)) (d.withCells 0) =
      ((d.withCells (d.cellsBelow d.numDets)).published d.pixelValue 0 d.numDets, .success) := by
  have sizes : ∀ det, (d.withCells 0).detSize det = d.detSize det := fun _ => rfl
  have values : (d.withCells 0).pixelValue = d.pixelValue := by
    funext det p
    exact pixelValue_congr sizes det p
  have pixels := allocPixels_of_ordered (d := d.withCells 0) (i := 0) d.numDets rfl h
  rw [values, cellsBelow_congr sizes, Nat.zero_add d.numDets, withCells_withCells] at pixels
  exact pixels

/-- The second loop as `allocArray` runs it. -/
theorem allocTOF_due (d : Driver) (numDet tofMax : Int32) (first : UInt32) :
    allocTOF tofMax (dets numDet) first d = d.published (tofValue first tofMax) 0 numDet.toInt.toNat := by
  have start : tofFirst first tofMax (0 + 1) = first := by simp [tofFirst]
  have spectra := allocTOF_range' first tofMax numDet.toInt.toNat d 0
  rw [start] at spectra
  exact spectra

/-- The buffer of a layout that has one. -/
theorem allocBuffer_nonempty {d : Driver} (h : d.dataMaxSize ≠ 0) (numDet tofMax : Int32) :
    allocFinish (allocBuffer true numDet tofMax d) =
      ({ d with
          bufferMaxSize := d.dataMaxSize + (numDet * (tofMax + 1)).toUInt32
          pData := some (List.replicate (d.dataMaxSize + (numDet * (tofMax + 1)).toUInt32).toNat 0)
          dataAlloc := false
          allocSpaceStatus := .ok }, .success) := by
  simp [allocBuffer, h, allocFinish]

/-- `allocArray` once the first loop has gone through. -/
theorem allocArray_of_pixels {callocOk : Bool} {d e : Driver} (due : d.dataAlloc = true)
    (some_det : d.int 0 .numDet ≠ 0)
    (pixels : allocPixels (dets (d.int 0 .numDet))
      ({ d with tofMax := (d.int 0 .tofMax).toUInt32 }.withCells 0) = (e, .success)) :
    d.allocArray callocOk = allocFinish (allocBuffer callocOk (d.int 0 .numDet) (d.int 0 .tofMax)
      (allocTOF (d.int 0 .tofMax) (dets (d.int 0 .numDet)) e.dataMaxSize e)) := by
  rw [allocArray, if_neg (by simp [due])]
  refine (if_neg some_det).trans ?_
  rw [withCells] at pixels
  simp only [pixels]

/-- A layout that is due is computed if the parameters have one. -/
theorem allocArray_of_layable {d : Driver} (due : d.dataAlloc = true) (h : d.Layable) :
    d.allocArray true = (d.layOut, .success) := by
  let d₁ : Driver := { d with tofMax := (d.int 0 .tofMax).toUInt32 }
  have sizes : ∀ det, d₁.detSize det = d.detSize det := fun _ => rfl
  have values : d₁.pixelValue = d.pixelValue := by
    funext det p
    exact pixelValue_congr sizes det p
  have pixels := allocPixels_due (d := d₁) h.ordered
  rw [values, cellsBelow_congr sizes] at pixels
  have first : ((d₁.withCells (d.cellsBelow d.numDets)).published d.pixelValue 0 d.numDets).dataMaxSize =
      d.cellsBelow d.numDets := rfl
  rw [allocArray_of_pixels due (numDet_ne_zero h) pixels]
  rw [allocTOF_due, show d₁.numDets = d.numDets from rfl, first]
  rw [show (d.int 0 .numDet).toInt.toNat = d.numDets from rfl, published_or, allocBuffer_nonempty h.nonempty]
  rfl

/-- The first loop leaves the flag, the block and the TOF range alone. -/
theorem allocPixels_keeps (ds : List Nat) (d : Driver) :
    (allocPixels ds d).1.dataAlloc = d.dataAlloc ∧ (allocPixels ds d).1.pData = d.pData ∧
      (allocPixels ds d).1.bufferMaxSize = d.bufferMaxSize ∧ (allocPixels ds d).1.tofMax = d.tofMax := by
  induction ds generalizing d with
  | nil => exact ⟨rfl, rfl, rfl, rfl⟩
  | cons det ds ih =>
    rw [allocPixels]
    split
    · exact ih (d.publishPixels det)
    · exact ⟨rfl, rfl, rfl, rfl⟩

/-- Nor does it publish the spectra. -/
theorem allocPixels_spectra (ds : List Nat) (d : Driver) (addr : Nat) {p : IntParam} (h : p.isSpectrum = true) :
    (allocPixels ds d).1.int addr p = d.int addr p := by
  have other : p ≠ .pixelNumSize ∧ p ≠ .ndArrayStart ∧ p ≠ .ndArrayEnd ∧ p ≠ .ndArraySize := by
    refine ⟨?_, ?_, ?_, ?_⟩ <;> (rintro rfl; cases h)
  induction ds generalizing d with
  | nil => rfl
  | cons det ds ih =>
    rw [allocPixels]
    split
    · rw [ih]
      simp [publishPixels, other]
    · rfl

/-- Without a block, or for a layout of no pixels, `m_dataAlloc` stays up. -/
theorem allocBuffer_fails {callocOk : Bool} {d : Driver} (h : d.dataMaxSize = 0 ∨ callocOk = false)
    (numDet tofMax : Int32) : ∃ e, allocFinish (allocBuffer callocOk numDet tofMax d) = (e, .error) ∧
      e.dataAlloc = d.dataAlloc ∧ e.pData = none := by
  by_cases empty : d.dataMaxSize = 0
  · simp [allocBuffer, empty, allocFinish]
  · have none := h.resolve_left empty
    simp [allocBuffer, empty, none, allocFinish]

/-- `allocArray` frees the block and does not get another one: the first loop goes through,
and the layout is empty or `calloc` fails. -/
structure LosesBuffer (callocOk : Bool) (d : Driver) : Prop where
  due : d.dataAlloc = true
  some_det : d.int 0 .numDet ≠ 0
  ordered : d.Ordered 0 d.numDets
  no_block : d.cellsBelow d.numDets = 0 ∨ callocOk = false

/-- `allocArray` gives up before it publishes the spectra: there is no detector, or a pixel
ID range that is not in order. -/
def Refuses (d : Driver) : Prop := d.int 0 .numDet = 0 ∨ ¬ d.Ordered 0 d.numDets

theorem allocArray_refuses (callocOk : Bool) {d : Driver} (due : d.dataAlloc = true) (refuses : d.Refuses) :
    ∃ e, d.allocArray callocOk = (e, .error) ∧ e.dataAlloc = true ∧ e.pData = d.pData ∧
      e.bufferMaxSize = d.bufferMaxSize ∧ e.tofMax = (d.int 0 .tofMax).toUInt32 ∧
      ∀ addr p, p.isSpectrum = true → e.int addr p = d.int addr p := by
  let d₁ : Driver := { d with tofMax := (d.int 0 .tofMax).toUInt32 }
  have refused := allocPixels_of_not_ordered (d := d₁.withCells 0) (i := 0) d.numDets
  obtain ⟨flag, data, size, range⟩ := allocPixels_keeps (dets (d.int 0 .numDet)) (d₁.withCells 0)
  have spectra := allocPixels_spectra (dets (d.int 0 .numDet)) (d₁.withCells 0)
  rw [allocArray, if_neg (by simp [due])]
  simp only
  split
  · exact ⟨_, rfl, due, rfl, rfl, rfl, fun _ _ _ => rfl⟩
  · rename_i some_det
    have failed := refused (refuses.resolve_left some_det)
    rw [← dets_eq] at failed
    generalize laid : allocPixels (dets (d.int 0 .numDet)) (d₁.withCells 0) = r at flag data size range spectra failed
    obtain ⟨e, status⟩ := r
    cases failed
    simp only [d₁, withCells] at laid
    simp only [laid]
    exact ⟨e, rfl, flag.trans due, data, size, range, fun addr p => spectra addr⟩

theorem allocArray_loses {callocOk : Bool} {d : Driver} (loses : LosesBuffer callocOk d) :
    ∃ e, d.allocArray callocOk = (e, .error) ∧ e.dataAlloc = true ∧ e.pData = none := by
  let d₁ : Driver := { d with tofMax := (d.int 0 .tofMax).toUInt32 }
  have pixels := allocPixels_due (d := d₁) loses.ordered
  rw [cellsBelow_congr (show ∀ det, d₁.detSize det = d.detSize det from fun _ => rfl)] at pixels
  rw [allocArray_of_pixels loses.due loses.some_det pixels, allocTOF_due]
  obtain ⟨e, error, flag, data⟩ := allocBuffer_fails (d := ((d₁.withCells (d.cellsBelow d.numDets)).published
    d₁.pixelValue 0 d₁.numDets).published (tofValue (d.cellsBelow d.numDets) (d.int 0 .tofMax)) 0 d.numDets)
    loses.no_block (d.int 0 .numDet) (d.int 0 .tofMax)
  exact ⟨e, error, flag.trans loses.due, data⟩

/-- Behind the first loop `allocArray` loses the block, or computes the layout. -/
theorem allocArray_goes_on (callocOk : Bool) {d : Driver} (due : d.dataAlloc = true) (goes : ¬ d.Refuses) :
    (LosesBuffer callocOk d ∧ ∃ e, d.allocArray callocOk = (e, .error) ∧ e.dataAlloc = true ∧ e.pData = none) ∨
      callocOk = true ∧ d.Layable ∧ d.allocArray callocOk = (d.layOut, .success) := by
  obtain ⟨some_det, ordered⟩ := not_or.1 goes
  have ordered : d.Ordered 0 d.numDets := not_not.1 ordered
  by_cases fails : d.cellsBelow d.numDets = 0 ∨ callocOk = false
  · have loses : LosesBuffer callocOk d := ⟨due, some_det, ordered, fails⟩
    exact .inl ⟨loses, allocArray_loses loses⟩
  · obtain ⟨nonempty, calloc⟩ := not_or.1 fails
    obtain rfl : callocOk = true := by simpa using calloc
    exact .inr ⟨rfl, ⟨ordered, nonempty⟩, allocArray_of_layable due ⟨ordered, nonempty⟩⟩

/-- The outcomes of `allocArray`. -/
inductive Reallocated (callocOk : Bool) (d : Driver) : Driver × AsynStatus → Prop where
  | down (flag : d.dataAlloc = false) : Reallocated callocOk d (d, .success)
  | replaced (due : d.dataAlloc = true) (layable : d.Layable) (calloc : callocOk = true) :
      Reallocated callocOk d (d.layOut, .success)
  | refused {e : Driver} (due : d.dataAlloc = true) (flag : e.dataAlloc = true) (data : e.pData = d.pData)
      (size : e.bufferMaxSize = d.bufferMaxSize) (range : e.tofMax = (d.int 0 .tofMax).toUInt32) :
      Reallocated callocOk d (e, .error)
  | lost {e : Driver} (loses : LosesBuffer callocOk d) (flag : e.dataAlloc = true) (data : e.pData = none) :
      Reallocated callocOk d (e, .error)

/-- **`allocArray`.** A layout that is due is computed completely, or it stays due; then the
block behind `p_Data` is the old one, or there is none. -/
theorem allocArray_reallocated (callocOk : Bool) (d : Driver) :
    Reallocated callocOk d (d.allocArray callocOk) := by
  cases due : d.dataAlloc with
  | false =>
    rw [allocArray, if_pos due]
    exact .down due
  | true =>
    by_cases refuses : d.Refuses
    · obtain ⟨e, refused, flag, data, size, range, -⟩ := allocArray_refuses callocOk due refuses
      rw [refused]
      exact .refused due flag data size range
    · rcases allocArray_goes_on callocOk due refuses with ⟨loses, e, lost, flag, data⟩ | ⟨calloc, layable, result⟩
      · rw [lost]
        exact .lost loses flag data
      · rw [result]
        exact .replaced due layable calloc

/-- A layout that is due is either computed completely, or stays due. -/
theorem allocArray_cases (callocOk : Bool) {d : Driver} (due : d.dataAlloc = true) :
    (d.Layable ∧ d.allocArray callocOk = (d.layOut, .success)) ∨
      (d.allocArray callocOk).2 = .error ∧ (d.allocArray callocOk).1.dataAlloc = true := by
  have outcome := allocArray_reallocated callocOk d
  generalize d.allocArray callocOk = r at outcome ⊢
  cases outcome with
  | down flag => simp [due] at flag
  | replaced due layable calloc => exact .inl ⟨layable, rfl⟩
  | refused due flag data size range => exact .inr ⟨rfl, flag⟩
  | lost loses flag data => exact .inr ⟨rfl, flag⟩

end Driver

end ADnED
