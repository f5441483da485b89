import ADnED.Driver.Freshness
import ADnED.Lib.Word32

/-!
# The regions of `p_Data`

The layout that `allocArray` publishes, read without wrapping: every detector has a
pixel region, in detector order, and behind them one spectrum of `TOFMax + 1` cells.
For a layout whose sizes are not negative and whose buffer has less than `2^31` cells
the published values are these, the regions lie in the buffer (`region_in_buffer`) and
no two of them share a cell (`regions_disjoint`).
-/

namespace ADnED

namespace Driver

/-- The pixel cells of `det`. -/
def pixelCells (d : Driver) (det : Nat) : Nat := (d.detSize det).toInt.toNat

/-- The pixel cells of the detectors `1..n`. -/
def pixelsBelow (d : Driver) : Nat → Nat
  | 0 => 0
  | n + 1 => d.pixelsBelow n + d.pixelCells (n + 1)

/-- The cells of a spectrum. -/
def tofCells (d : Driver) : Nat := (d.int 0 .tofMax).toInt.toNat + 1

/-- The cells of the whole buffer. -/
def totalCells (d : Driver) : Nat := d.pixelsBelow d.numDets + d.numDets * d.tofCells

/-- The first cell of a plot. -/
def firstCell (d : Driver) (det : Nat) : Plot → Nat
  | .pixels => d.pixelsBelow (det - 1)
  | .spectrum => d.pixelsBelow d.numDets + (det - 1) * d.tofCells

/-- The number of cells of a plot. -/
def numCells (d : Driver) (det : Nat) : Plot → Nat
  | .pixels => d.pixelCells det
  | .spectrum => d.tofCells

/-- The cell `i` belongs to the plot. -/
def InPlot (d : Driver) (det : Nat) (plot : Plot) (i : Int) : Prop :=
  (d.firstCell det plot : Int) ≤ i ∧ i < (d.firstCell det plot + d.numCells det plot : Nat)

/-- A published layout of non-negative sizes, for at most four detectors and in less
than `2^31` cells. -/
structure Placed (d : Driver) : Prop extends d.LaidOut where
  numDets_le : d.numDets ≤ maxDets
  sizes : ∀ det, 1 ≤ det → det ≤ d.numDets → 0 ≤ d.detSize det
  tofMax_nonneg : 0 ≤ d.int 0 .tofMax
  total : d.totalCells < 2 ^ 31

theorem LaidOut.numDets_pos {d : Driver} (h : d.LaidOut) : 1 ≤ d.numDets := by
  by_contra none
  apply h.layable.nonempty
  rw [show d.numDets = 0 by omega]
  rfl

theorem pixelsBelow_mono (d : Driver) {m n : Nat} (h : m ≤ n) : d.pixelsBelow m ≤ d.pixelsBelow n := by
  induction n with
  | zero =>
    obtain rfl : m = 0 := by omega
    exact Nat.le_refl _
  | succ n ih =>
    by_cases here : m = n + 1
    · rw [here]
    · have below := ih (by omega)
      rw [pixelsBelow]
      omega

theorem pixelsBelow_pred (d : Driver) {det : Nat} (h : 1 ≤ det) :
    d.pixelsBelow (det - 1) + d.pixelCells det = d.pixelsBelow det := by
  obtain ⟨n, rfl⟩ : ∃ n, det = n + 1 := ⟨det - 1, by omega⟩
  rfl

/-- A plot ends before those of the same kind of the later detectors. -/
theorem plots_in_order (d : Driver) {det det' : Nat} (plot : Plot) (lo : 1 ≤ det) (before : det < det') :
    d.firstCell det plot + d.numCells det plot ≤ d.firstCell det' plot := by
  cases plot with
  | pixels =>
    have mono := d.pixelsBelow_mono (show det ≤ det' - 1 by omega)
    have last := d.pixelsBelow_pred lo
    simp only [firstCell, numCells]
    omega
  | spectrum =>
    have mono := Nat.mul_le_mul_right d.tofCells (show det - 1 + 1 ≤ det' - 1 by omega)
    rw [Nat.add_mul, Nat.one_mul] at mono
    simp only [firstCell, numCells]
    omega

/-- The pixel regions end before the spectra, and these at the end of the buffer. -/
theorem plots_end (d : Driver) {det : Nat} (lo : 1 ≤ det) (hi : det ≤ d.numDets) :
    d.firstCell det .pixels + d.numCells det .pixels ≤ d.pixelsBelow d.numDets ∧
      d.firstCell det .spectrum + d.numCells det .spectrum ≤ d.totalCells := by
  constructor
  · have mono := d.pixelsBelow_mono hi
    have last := d.pixelsBelow_pred lo
    simp only [firstCell, numCells]
    omega
  · have mono := Nat.mul_le_mul_right d.tofCells (show det - 1 + 1 ≤ d.numDets by omega)
    rw [Nat.add_mul, Nat.one_mul] at mono
    simp only [firstCell, numCells, totalCells]
    omega

/-- The sums of the first loop do not wrap as long as they fit. -/
theorem toNat_cellsBelow_of_fits {d : Driver} {n : Nat}
    (sizes : ∀ det, 1 ≤ det → det ≤ n → 0 ≤ (d.detSize det).toInt) (fits : d.pixelsBelow n < 2 ^ 32) :
    (d.cellsBelow n).toNat = d.pixelsBelow n := by
  induction n with
  | zero => rfl
  | succ n ih =>
    have size := sizes (n + 1) (by omega) (Nat.le_refl _)
    rw [pixelsBelow, pixelCells] at fits ⊢
    have below := ih (fun det lo hi => sizes det lo (by omega)) (by omega)
    rw [cellsBelow, UInt32.toNat_add, below, Word32.toNat_toUInt32_of_nonneg size]
    omega

/-- Nor do those of the second loop. -/
theorem toNat_tofFirst_of_fits {d : Driver} {first : UInt32} {det : Nat} (tofMax : 0 ≤ (d.int 0 .tofMax).toInt)
    (fits : first.toNat + (det - 1) * d.tofCells < 2 ^ 32) :
    (tofFirst first (d.int 0 .tofMax) det).toNat = first.toNat + (det - 1) * d.tofCells := by
  have bounds := Word32.toInt_bounds (d.int 0 .tofMax)
  have cells : ((d.int 0 .tofMax).toUInt32 + 1).toNat = d.tofCells := by
    rw [UInt32.toNat_add, Word32.toNat_toUInt32_of_nonneg tofMax, UInt32.toNat_one, tofCells]
    omega
  have before : det - 1 ≤ (det - 1) * d.tofCells := Nat.le_mul_of_pos_right _ (Nat.succ_pos _)
  have number : (UInt32.ofNat (det - 1)).toNat = det - 1 := by
    rw [UInt32.toNat_ofNat']
    omega
  rw [tofFirst, UInt32.toNat_add, UInt32.toNat_mul, number, cells]
  generalize (det - 1) * d.tofCells = below at *
  omega

/-- Nor does the size of the buffer. -/
theorem toNat_bufferCells_of_fits {d : Driver}
    (sizes : ∀ det, 1 ≤ det → det ≤ d.numDets → 0 ≤ (d.detSize det).toInt)
    (tofMax : 0 ≤ (d.int 0 .tofMax).toInt) (some_det : 1 ≤ d.numDets) (fits : d.totalCells < 2 ^ 32) :
    d.bufferCells.toNat = d.totalCells := by
  have bounds := Word32.toInt_bounds (d.int 0 .tofMax)
  have number : (d.int 0 .numDet).toUInt32.toNat = d.numDets := by
    rw [numDets] at some_det ⊢
    exact Word32.toNat_toUInt32_of_nonneg (by omega)
  have cells : ((d.int 0 .tofMax).toUInt32 + 1).toNat = d.tofCells := by
    rw [UInt32.toNat_add, Word32.toNat_toUInt32_of_nonneg tofMax, UInt32.toNat_one, tofCells]
    omega
  rw [totalCells] at fits ⊢
  have pixels := toNat_cellsBelow_of_fits sizes (by omega)
  rw [bufferCells, Int32.toUInt32_mul, Int32.toUInt32_add, Int32.toUInt32_ofNat, UInt32.toNat_add,
    UInt32.toNat_mul, number, cells, pixels]
  generalize d.numDets * d.tofCells = spectra at *
  omega

namespace Placed

variable {d : Driver} {det : Nat}

theorem numDets_pos (h : d.Placed) : 1 ≤ d.numDets := h.toLaidOut.numDets_pos

theorem pixelsBelow_le (h : d.Placed) {n : Nat} (hn : n ≤ d.numDets) : d.pixelsBelow n < 2 ^ 31 := by
  have mono := d.pixelsBelow_mono hn
  have total := h.total
  unfold totalCells at total
  omega

theorem sizes_nonneg (h : d.Placed) (lo : 1 ≤ det) (hi : det ≤ d.numDets) : 0 ≤ (d.detSize det).toInt :=
  Int32.le_iff_toInt_le.1 (h.sizes det lo hi)

theorem tofMax_toInt (h : d.Placed) : 0 ≤ (d.int 0 .tofMax).toInt := Int32.le_iff_toInt_le.1 h.tofMax_nonneg

theorem toNat_cellsBelow (h : d.Placed) {n : Nat} (hn : n ≤ d.numDets) :
    (d.cellsBelow n).toNat = d.pixelsBelow n := by
  have bound := h.pixelsBelow_le hn
  exact toNat_cellsBelow_of_fits (fun det lo hi => h.sizes_nonneg lo (by omega)) (by omega)

/-- A published value is the one of the layout. -/
theorem int_of_value (h : d.Placed) (lo : 1 ≤ det) (hi : det ≤ d.numDets) {p : IntParam} {v : Int32}
    (hv : d.layoutValue det p = some v) : d.int det p = v :=
  h.values det lo hi p v hv

theorem ndArrayStart (h : d.Placed) (lo : 1 ≤ det) (hi : det ≤ d.numDets) :
    (d.int det .ndArrayStart).toInt = d.firstCell det .pixels := by
  have below := h.toNat_cellsBelow (n := det - 1) (by omega)
  have bound := h.pixelsBelow_le (n := det - 1) (by omega)
  rw [h.int_of_value lo hi rfl, Word32.toInt_toInt32_of_lt (by omega), below]
  rfl

theorem pixelNumSize (h : d.Placed) (lo : 1 ≤ det) (hi : det ≤ d.numDets) :
    (d.int det .pixelNumSize).toInt = d.numCells det .pixels := by
  have size := h.sizes_nonneg lo hi
  rw [h.int_of_value lo hi rfl, numCells, pixelCells]
  omega

theorem ndArraySize (h : d.Placed) (lo : 1 ≤ det) (hi : det ≤ d.numDets) :
    (d.int det .ndArraySize).toInt = d.numCells det .pixels := by
  rw [← h.pixelNumSize lo hi, h.int_of_value (p := .ndArraySize) lo hi rfl,
    h.int_of_value (p := .pixelNumSize) lo hi rfl]

theorem toNat_tofMax (h : d.Placed) : (d.int 0 .tofMax).toUInt32.toNat + 1 = d.tofCells := by
  rw [Word32.toNat_toUInt32_of_nonneg h.tofMax_toInt, tofCells]

theorem tofMax_eq (h : d.Placed) : d.tofMax.toNat + 1 = d.tofCells := by
  rw [h.tofMax, h.toNat_tofMax]

theorem tofMax_lt (h : d.Placed) : d.tofMax.toNat < 2 ^ 31 := by
  have cells : d.numCells 1 .spectrum = d.tofMax.toNat + 1 := h.tofMax_eq.symm
  have last := (d.plots_end (Nat.le_refl 1) h.numDets_pos).2
  have total := h.total
  omega

theorem toNat_tofFirst (h : d.Placed) (lo : 1 ≤ det) (hi : det ≤ d.numDets) :
    (tofFirst (d.cellsBelow d.numDets) (d.int 0 .tofMax) det).toNat = d.firstCell det .spectrum := by
  have total := h.total
  have last := (d.plots_end lo hi).2
  have below := h.toNat_cellsBelow (Nat.le_refl d.numDets)
  rw [firstCell, ← below] at last ⊢
  exact toNat_tofFirst_of_fits h.tofMax_toInt (by omega)

theorem ndArrayTOFStart (h : d.Placed) (lo : 1 ≤ det) (hi : det ≤ d.numDets) :
    (d.int det .ndArrayTOFStart).toInt = d.firstCell det .spectrum := by
  have first := h.toNat_tofFirst lo hi
  have last := (d.plots_end lo hi).2
  have total := h.total
  rw [h.int_of_value lo hi rfl, Word32.toInt_toInt32_of_lt (by omega), first]

theorem ndArrayTOFEnd (h : d.Placed) (lo : 1 ≤ det) (hi : det ≤ d.numDets) :
    (d.int det .ndArrayTOFEnd).toInt + 1 = (d.firstCell det .spectrum + d.numCells det .spectrum : Nat) := by
  have first := h.toNat_tofFirst lo hi
  have last := (d.plots_end lo hi).2
  have total := h.total
  have cells : d.numCells det .spectrum = (d.int 0 .tofMax).toUInt32.toNat + 1 := h.toNat_tofMax.symm
  have sum : (tofFirst (d.cellsBelow d.numDets) (d.int 0 .tofMax) det + (d.int 0 .tofMax).toUInt32).toNat + 1 =
      d.firstCell det .spectrum + d.numCells det .spectrum := by
    rw [UInt32.toNat_add]
    omega
  rw [h.int_of_value lo hi rfl, Word32.toInt_toInt32_of_lt (by omega)]
  omega

/-- The buffer has the cells of the layout. -/
theorem buffer_length (h : d.Placed) : ∃ b, d.pData = some b ∧ b.length = d.totalCells := by
  obtain ⟨b, data, length⟩ := Option.map_eq_some_iff.1 h.buffer
  have total := h.total
  have cells := toNat_bufferCells_of_fits (fun det lo hi => h.sizes_nonneg lo hi) h.tofMax_toInt
    h.numDets_pos (by omega)
  exact ⟨b, data, by rw [length, h.bufferMaxSize, cells]⟩

end Placed

/-- The regions lie in the buffer. -/
theorem region_in_buffer (d : Driver) {det : Nat} (lo : 1 ≤ det) (hi : det ≤ d.numDets) (plot : Plot) :
    d.firstCell det plot + d.numCells det plot ≤ d.totalCells := by
  obtain ⟨pixels, spectrum⟩ := d.plots_end lo hi
  cases plot with
  | pixels =>
    rw [totalCells]
    omega
  | spectrum => exact spectrum

/-- A cell of the pixel regions is not in a spectrum. -/
theorem pixels_before_spectra {d : Driver} {det det' : Nat} {i : Int} (lo : 1 ≤ det) (hi : det ≤ d.numDets)
    (mem : d.InPlot det .pixels i) : ¬ d.InPlot det' .spectrum i := by
  intro mem'
  have last := (d.plots_end lo hi).1
  have first : d.pixelsBelow d.numDets ≤ d.firstCell det' .spectrum := Nat.le_add_right _ _
  have below := mem.2
  have above := mem'.1
  omega

/-- **No two regions share a cell.** -/
theorem regions_disjoint {d : Driver} {det det' : Nat} {plot plot' : Plot} {i : Int} (lo : 1 ≤ det)
    (hi : det ≤ d.numDets) (lo' : 1 ≤ det') (hi' : det' ≤ d.numDets) (mem : d.InPlot det plot i)
    (mem' : d.InPlot det' plot' i) : det = det' ∧ plot = plot' := by
  have kind : plot = plot' := by
    cases plot <;> cases plot'
    · rfl
    · exact absurd mem' (pixels_before_spectra lo hi mem)
    · exact absurd mem (pixels_before_spectra lo' hi' mem')
    · rfl
  subst kind
  obtain ⟨above, below⟩ := mem
  obtain ⟨above', below'⟩ := mem'
  refine ⟨?_, rfl⟩
  rcases Nat.lt_trichotomy det det' with before | here | after
  · have order := d.plots_in_order plot lo before
    omega
  · exact here
  · have order := d.plots_in_order plot lo' after
    omega

/-! ## Layouts that are placed -/

/-- The parameters have a layout without negative sizes and in less than `2^31` cells. -/
def placeable (d : Driver) : Bool :=
  decide (d.numDets ≤ maxDets) && decide (0 ≤ d.int 0 .tofMax) && decide (d.cellsBelow d.numDets ≠ 0) &&
    decide (d.totalCells < 2 ^ 31) &&
    (dets (d.int 0 .numDet)).all fun det =>
      decide (d.int det .pixelNumStart ≤ d.int det .pixelNumEnd) && decide (0 ≤ d.detSize det)

theorem layOut_pixelsBelow (d : Driver) (n : Nat) : d.layOut.pixelsBelow n = d.pixelsBelow n := by
  induction n with
  | zero => rfl
  | succ n ih => rw [pixelsBelow, pixelsBelow, ih, pixelCells, layOut_detSize, pixelCells]

/-- What `allocArray` computes from sizes that are not negative and fit is placed. -/
theorem Layable.placed {d : Driver} (h : d.Layable) (four : d.numDets ≤ maxDets)
    (sizes : ∀ det, 1 ≤ det → det ≤ d.numDets → 0 ≤ d.detSize det) (tofMax : 0 ≤ d.int 0 .tofMax)
    (total : d.totalCells < 2 ^ 31) : d.layOut.Placed := by
  have numDet : d.layOut.int 0 .numDet = d.int 0 .numDet := by simp [layOut_int]
  have range : d.layOut.int 0 .tofMax = d.int 0 .tofMax := by simp [layOut_int]
  have count : d.layOut.numDets = d.numDets := by rw [numDets, numDet, numDets]
  refine ⟨layOut_laidOut h, ?_, ?_, ?_, ?_⟩
  · rw [count]
    exact four
  · intro det lo hi
    rw [count] at hi
    rw [layOut_detSize]
    exact sizes det lo hi
  · rw [range]
    exact tofMax
  · rw [totalCells, tofCells, count, layOut_pixelsBelow, range]
    exact total

/-- Parameters that can be checked. -/
theorem layOut_placed {d : Driver} (h : d.placeable = true) : d.Layable ∧ d.layOut.Placed := by
  simp only [placeable, Bool.and_eq_true, decide_eq_true_eq, List.all_eq_true, mem_dets] at h
  obtain ⟨⟨⟨⟨four, tofMax⟩, nonempty⟩, total⟩, each⟩ := h
  have layable : d.Layable :=
    ⟨fun det lo hi => (each det ⟨lo, by rw [Nat.zero_add] at hi; exact hi⟩).1, nonempty⟩
  exact ⟨layable, layable.placed four (fun det lo hi => (each det ⟨lo, hi⟩).2) tofMax total⟩

/-- The parameters `allocArray` publishes. -/
def layoutParams : List IntParam :=
  [.pixelNumSize, .ndArrayStart, .ndArrayEnd, .ndArraySize, .ndArrayTOFStart, .ndArrayTOFEnd]

theorem mem_layoutParams {d : Driver} {det : Nat} {p : IntParam} {v : Int32} (h : d.layoutValue det p = some v) :
    p ∈ layoutParams := by
  cases p <;> first | decide | cases h

/-- The published layout is that of the parameters, and there is nothing wrong with it. -/
def placedCheck (d : Driver) : Bool :=
  d.placeable && decide (d.tofMax = (d.int 0 .tofMax).toUInt32) &&
    decide (d.dataMaxSize = d.cellsBelow d.numDets) && decide (d.bufferMaxSize = d.bufferCells) &&
    decide (d.pData.map List.length = some d.bufferMaxSize.toNat) &&
    (dets (d.int 0 .numDet)).all fun det =>
      layoutParams.all fun p => (d.layoutValue det p).all fun v => decide (d.int det p = v)

theorem placed_of_check {d : Driver} (h : d.placedCheck = true) : d.Placed := by
  simp only [placedCheck, Bool.and_eq_true, decide_eq_true_eq, List.all_eq_true, mem_dets] at h
  obtain ⟨⟨⟨⟨⟨placeable, range⟩, dataMaxSize⟩, bufferMaxSize⟩, buffer⟩, values⟩ := h
  have layable := (layOut_placed placeable).1
  simp only [Driver.placeable, Bool.and_eq_true, decide_eq_true_eq, List.all_eq_true, mem_dets] at placeable
  obtain ⟨⟨⟨⟨four, tofMax⟩, -⟩, total⟩, each⟩ := placeable
  refine ⟨⟨layable, ?_, range, dataMaxSize, bufferMaxSize, buffer⟩, four, ?_, tofMax, total⟩
  · intro det lo hi p v published
    simpa [published] using values det ⟨lo, hi⟩ p (mem_layoutParams published)
  · exact fun det lo hi => (each det ⟨lo, hi⟩).2

end Driver

end ADnED
