import ADnED.Driver.Regions
import Mathlib.Tactic.IntervalCases

/-!
# When an allocation is sound

`allocArray` sums the sizes without checking them, so it can report success for a
layout whose regions are empty, overlap or lie outside of the buffer. `Sound` is what
the published parameters should satisfy after a success, `Sizable` what the parameters
must satisfy before the call, and the two are equivalent
(`allocArray_sound_iff_sizable`).
-/

namespace ADnED

namespace Driver

/-- The first cell of a plot, as published. -/
def plotFirst (d : Driver) (det : Nat) : Plot → Int
  | .pixels => (d.int det .ndArrayStart).toInt
  | .spectrum => (d.int det .ndArrayTOFStart).toInt

/-- The last cell of a plot, as published. -/
def plotLast (d : Driver) (det : Nat) : Plot → Int
  | .pixels => (d.int det .ndArrayEnd).toInt
  | .spectrum => (d.int det .ndArrayTOFEnd).toInt

/-- The published regions of the detectors in use are not empty, lie in the buffer and are
pairwise disjoint, and the published sizes are theirs. -/
structure Sound (d : Driver) : Prop where
  nonempty : ∀ det plot, 1 ≤ det → det ≤ d.numDets → d.plotFirst det plot ≤ d.plotLast det plot
  inside : ∀ det plot, 1 ≤ det → det ≤ d.numDets →
    0 ≤ d.plotFirst det plot ∧ d.plotLast det plot < d.bufferMaxSize.toNat
  disjoint : ∀ det plot det' plot', 1 ≤ det → det ≤ d.numDets → 1 ≤ det' → det' ≤ d.numDets →
    (det, plot) ≠ (det', plot') →
      d.plotLast det plot < d.plotFirst det' plot' ∨ d.plotLast det' plot' < d.plotFirst det plot
  size : ∀ det, 1 ≤ det → det ≤ d.numDets →
    d.int det .ndArraySize = d.int det .ndArrayEnd - d.int det .ndArrayStart + 1
  range : ∀ det, 1 ≤ det → det ≤ d.numDets →
    d.int det .ndArrayTOFEnd - d.int det .ndArrayTOFStart = d.int 0 .tofMax

/-- Every detector in use has pixels, the time-of-flight range is not negative, and the
cells of all regions together can be counted by an `int`. -/
structure Sizable (d : Driver) : Prop where
  sizes : ∀ det, 1 ≤ det → det ≤ d.numDets → 1 ≤ (d.detSize det).toInt
  tofMax : 0 ≤ (d.int 0 .tofMax).toInt
  total : d.totalCells ≤ 2 ^ 31

variable {d : Driver} {det : Nat}

/-! ## Sizes that fit -/

namespace Sizable

theorem toNat_cellsBelow (h : d.Sizable) {n : Nat} (hn : n ≤ d.numDets) :
    (d.cellsBelow n).toNat = d.pixelsBelow n := by
  have mono := d.pixelsBelow_mono hn
  have total := h.total
  rw [totalCells] at total
  refine toNat_cellsBelow_of_fits (fun det lo hi => ?_) (by omega)
  have size := h.sizes det lo (by omega)
  omega

theorem toNat_tofFirst (h : d.Sizable) (lo : 1 ≤ det) (hi : det ≤ d.numDets) :
    (tofFirst (d.cellsBelow d.numDets) (d.int 0 .tofMax) det).toNat = d.firstCell det .spectrum := by
  have total := h.total
  have last := (d.plots_end lo hi).2
  have below := h.toNat_cellsBelow (Nat.le_refl d.numDets)
  rw [firstCell, ← below] at last ⊢
  exact toNat_tofFirst_of_fits h.tofMax (by omega)

/-- No plot is empty. -/
theorem numCells_pos (h : d.Sizable) (lo : 1 ≤ det) (hi : det ≤ d.numDets) (plot : Plot) :
    1 ≤ d.numCells det plot := by
  cases plot with
  | pixels =>
    have size := h.sizes det lo hi
    rw [numCells, pixelCells]
    omega
  | spectrum => exact Nat.succ_pos _

/-- The published regions are those of the layout read without wrapping. -/
theorem plots (h : d.Sizable) (laid : d.LaidOut) (lo : 1 ≤ det) (hi : det ≤ d.numDets) (plot : Plot) :
    d.plotFirst det plot = d.firstCell det plot ∧
      d.plotLast det plot + 1 = (d.firstCell det plot + d.numCells det plot : Nat) := by
  have total := h.total
  have last := d.region_in_buffer lo hi plot
  have some_cell := h.numCells_pos lo hi plot
  cases plot with
  | pixels =>
    have first := h.toNat_cellsBelow (n := det - 1) (by omega)
    have next := h.toNat_cellsBelow hi
    have cells := d.pixelsBelow_pred lo
    simp only [firstCell, numCells] at last some_cell ⊢
    have before : (d.cellsBelow det - 1).toNat = (d.cellsBelow det).toNat - 1 := by
      rw [UInt32.toNat_sub, UInt32.toNat_one]
      omega
    rw [plotFirst, plotLast, laid.values det lo hi .ndArrayStart _ rfl, laid.values det lo hi .ndArrayEnd _ rfl,
      Word32.toInt_toInt32_of_lt (by omega), Word32.toInt_toInt32_of_lt (by omega)]
    omega
  | spectrum =>
    have first := h.toNat_tofFirst lo hi
    have range := Word32.toNat_toUInt32_of_nonneg h.tofMax
    have cells : d.numCells det .spectrum = (d.int 0 .tofMax).toInt.toNat + 1 := rfl
    have sum : (tofFirst (d.cellsBelow d.numDets) (d.int 0 .tofMax) det + (d.int 0 .tofMax).toUInt32).toNat + 1 =
        d.firstCell det .spectrum + d.numCells det .spectrum := by
      rw [UInt32.toNat_add]
      omega
    rw [plotFirst, plotLast, laid.values det lo hi .ndArrayTOFStart _ rfl,
      laid.values det lo hi .ndArrayTOFEnd _ rfl, Word32.toInt_toInt32_of_lt (by omega),
      Word32.toInt_toInt32_of_lt (by omega)]
    omega

end Sizable

/-- The published sizes are those of the regions in 32-bit arithmetic, whatever they are. -/
theorem LaidOut.sizes_agree (laid : d.LaidOut) (lo : 1 ≤ det) (hi : det ≤ d.numDets) :
    d.int det .ndArraySize = d.int det .ndArrayEnd - d.int det .ndArrayStart + 1 ∧
      d.int det .ndArrayTOFEnd - d.int det .ndArrayTOFStart = d.int 0 .tofMax := by
  have below : d.cellsBelow det = d.cellsBelow (det - 1) + (d.detSize det).toUInt32 := by
    obtain ⟨n, rfl⟩ : ∃ n, det = n + 1 := ⟨det - 1, by omega⟩
    rfl
  rw [laid.values det lo hi .ndArraySize _ rfl, laid.values det lo hi .ndArrayEnd _ rfl,
    laid.values det lo hi .ndArrayStart _ rfl, laid.values det lo hi .ndArrayTOFStart _ rfl,
    laid.values det lo hi .ndArrayTOFEnd _ rfl, below]
  constructor <;> apply Word32.toUInt32_inj.1
  · simp only [Int32.toUInt32_add, Int32.toUInt32_sub, UInt32.toUInt32_toInt32, show Int32.toUInt32 1 = 1 from rfl]
    grind
  · simp only [Int32.toUInt32_sub, UInt32.toUInt32_toInt32]
    grind

/-- Sizes that fit give a sound layout. -/
theorem Sizable.sound (h : d.Sizable) (laid : d.LaidOut) (some_det : 1 ≤ d.numDets) : d.Sound where
  nonempty det plot lo hi := by
    have region := h.plots laid lo hi plot
    have some_cell := h.numCells_pos lo hi plot
    omega
  inside det plot lo hi := by
    have region := h.plots laid lo hi plot
    have last := d.region_in_buffer lo hi plot
    have total := h.total
    have cells := toNat_bufferCells_of_fits (fun det lo hi => by have := h.sizes det lo hi; omega) h.tofMax
      some_det (by omega)
    rw [laid.bufferMaxSize, cells]
    omega
  disjoint det plot det' plot' lo hi lo' hi' other := by
    have region := h.plots laid lo hi plot
    have region' := h.plots laid lo' hi' plot'
    have some_cell := h.numCells_pos lo hi plot
    have some_cell' := h.numCells_pos lo' hi' plot'
    -- two regions that meet share the later of their first cells
    by_contra meet
    let cell := max (d.plotFirst det plot) (d.plotFirst det' plot')
    have own : d.InPlot det plot cell := ⟨by omega, by omega⟩
    have own' : d.InPlot det' plot' cell := ⟨by omega, by omega⟩
    obtain ⟨rfl, rfl⟩ := regions_disjoint lo hi lo' hi' own own'
    exact other rfl
  size _ lo hi := (laid.sizes_agree lo hi).1
  range _ lo hi := (laid.sizes_agree lo hi).2

/-! ## A sound layout has sizes that fit -/

namespace Sound

/-- Every sum of the first loop is published as the begin of the next region. -/
theorem cellsBelow_lt (h : d.Sound) (laid : d.LaidOut) (some_det : 1 ≤ d.numDets) {n : Nat}
    (hn : n ≤ d.numDets) : (d.cellsBelow n).toNat < 2 ^ 31 := by
  by_cases last : n = d.numDets
  · have inside := (h.inside 1 .spectrum (Nat.le_refl 1) some_det).1
    have first : tofFirst (d.cellsBelow d.numDets) (d.int 0 .tofMax) 1 = d.cellsBelow d.numDets := by
      simp [tofFirst]
    rw [plotFirst, laid.values 1 (Nat.le_refl 1) some_det .ndArrayTOFStart _ rfl, first] at inside
    rw [last]
    exact (Word32.toNat_of_toInt32_nonneg inside).1
  · have inside := (h.inside (n + 1) .pixels (by omega) (by omega)).1
    rw [plotFirst, laid.values (n + 1) (by omega) (by omega) .ndArrayStart _ rfl] at inside
    exact (Word32.toNat_of_toInt32_nonneg inside).1

/-- So every detector adds at least one cell to it, and the size is what it adds. -/
theorem detSize_eq (h : d.Sound) (laid : d.LaidOut) {n : Nat} (hn : n + 1 ≤ d.numDets) :
    1 ≤ (d.detSize (n + 1)).toInt ∧
      (d.cellsBelow (n + 1)).toNat = (d.cellsBelow n).toNat + d.pixelCells (n + 1) := by
  have below := h.cellsBelow_lt laid (by omega) (n := n) (by omega)
  have next := h.cellsBelow_lt laid (by omega) hn
  have nonempty := h.nonempty (n + 1) .pixels (by omega) hn
  rw [plotFirst, plotLast, laid.values (n + 1) (by omega) hn .ndArrayStart _ rfl,
    laid.values (n + 1) (by omega) hn .ndArrayEnd _ rfl, Nat.add_sub_cancel,
    Word32.toInt_toInt32_of_lt below] at nonempty
  have last := Word32.toNat_of_toInt32_nonneg (x := d.cellsBelow (n + 1) - 1) (by omega)
  rw [UInt32.toNat_sub, UInt32.toNat_one] at last
  have sum : (d.cellsBelow (n + 1)).toNat =
      ((d.cellsBelow n).toNat + (d.detSize (n + 1)).toUInt32.toNat) % 2 ^ 32 := by
    rw [cellsBelow, UInt32.toNat_add]
  have size := Word32.toNat_toUInt32 (d.detSize (n + 1))
  have bounds := Word32.toInt_bounds (d.detSize (n + 1))
  rw [pixelCells]
  omega

theorem toNat_cellsBelow (h : d.Sound) (laid : d.LaidOut) {n : Nat} (hn : n ≤ d.numDets) :
    (d.cellsBelow n).toNat = d.pixelsBelow n := by
  induction n with
  | zero => rfl
  | succ n ih => rw [(h.detSize_eq laid hn).2, ih (by omega), pixelsBelow]

/-- A spectrum does not wrap, so the time-of-flight range is not negative. -/
theorem tofEnd (h : d.Sound) (laid : d.LaidOut) (lo : 1 ≤ det) (hi : det ≤ d.numDets) :
    0 ≤ (d.int 0 .tofMax).toInt ∧
      (tofFirst (d.cellsBelow d.numDets) (d.int 0 .tofMax) det).toNat + d.tofCells ≤ 2 ^ 31 := by
  have inside := (h.inside det .spectrum lo hi).1
  have nonempty := h.nonempty det .spectrum lo hi
  rw [plotFirst, laid.values det lo hi .ndArrayTOFStart _ rfl] at inside nonempty
  rw [plotLast, laid.values det lo hi .ndArrayTOFEnd _ rfl] at nonempty
  have first := Word32.toNat_of_toInt32_nonneg inside
  have last := Word32.toNat_of_toInt32_nonneg (Int.le_trans inside nonempty)
  rw [UInt32.toNat_add] at last
  have range := Word32.toNat_toUInt32 (d.int 0 .tofMax)
  have bounds := Word32.toInt_bounds (d.int 0 .tofMax)
  rw [tofCells]
  omega

theorem toNat_tofFirst (h : d.Sound) (laid : d.LaidOut) {n : Nat} (hn : n + 1 ≤ d.numDets) :
    (tofFirst (d.cellsBelow d.numDets) (d.int 0 .tofMax) (n + 1)).toNat =
      d.pixelsBelow d.numDets + n * d.tofCells := by
  induction n with
  | zero =>
    rw [← h.toNat_cellsBelow laid (Nat.le_refl _)]
    simp [tofFirst]
  | succ n ih =>
    have first := ih (by omega)
    obtain ⟨nonneg, last⟩ := h.tofEnd laid (show 1 ≤ n + 1 by omega) (by omega)
    have range := Word32.toNat_toUInt32_of_nonneg nonneg
    have cells : d.tofCells = (d.int 0 .tofMax).toInt.toNat + 1 := rfl
    rw [← tofFirst_succ, UInt32.toNat_add, UInt32.toNat_add, UInt32.toNat_one, Nat.add_mul, Nat.one_mul]
    omega

theorem sizable (h : d.Sound) (laid : d.LaidOut) (some_det : 1 ≤ d.numDets) : d.Sizable where
  sizes det lo hi := by
    obtain ⟨n, rfl⟩ : ∃ n, det = n + 1 := ⟨det - 1, by omega⟩
    exact (h.detSize_eq laid hi).1
  tofMax := (h.tofEnd laid (Nat.le_refl 1) some_det).1
  total := by
    obtain ⟨n, hn⟩ : ∃ n, d.numDets = n + 1 := ⟨d.numDets - 1, by omega⟩
    have first := h.toNat_tofFirst laid (n := n) (by omega)
    have last := (h.tofEnd laid (show 1 ≤ n + 1 by omega) (by omega)).2
    have spectra : d.numDets * d.tofCells = n * d.tofCells + d.tofCells := by
      rw [hn, Nat.add_mul, Nat.one_mul]
    rw [totalCells, spectra]
    omega

end Sound

/-! ## `allocArray` -/

/-- The layout does not change what the regions are computed from. -/
theorem layOut_sizable (d : Driver) : d.layOut.Sizable ↔ d.Sizable := by
  have numDet : d.layOut.int 0 .numDet = d.int 0 .numDet := by simp [layOut_int]
  have range : d.layOut.int 0 .tofMax = d.int 0 .tofMax := by simp [layOut_int]
  have count : d.layOut.numDets = d.numDets := by rw [numDets, numDet, numDets]
  have total : d.layOut.totalCells = d.totalCells := by
    rw [totalCells, tofCells, count, layOut_pixelsBelow, range, totalCells, tofCells]
  constructor
  · rintro ⟨sizes, tofMax, fits⟩
    rw [count] at sizes
    simp only [layOut_detSize] at sizes
    exact ⟨sizes, range ▸ tofMax, total ▸ fits⟩
  · rintro ⟨sizes, tofMax, fits⟩
    refine ⟨fun det lo hi => ?_, by rw [range]; exact tofMax, by rw [total]; exact fits⟩
    rw [count] at hi
    rw [layOut_detSize]
    exact sizes det lo hi

/-- **`allocArray` is sound exactly for sizes that fit.** The layout of a call that succeeds
consists of non-empty, pairwise disjoint regions of the buffer if and only if every
detector in use has at least one pixel, `TOFMax` is not negative and all cells together
are at most `2^31`. -/
theorem allocArray_sound_iff_sizable {d d' : Driver} (due : d.dataAlloc = true)
    (done : d.allocArray true = (d', .success)) : d'.Sound ↔ d.Sizable := by
  rcases allocArray_cases true due with ⟨layable, laid⟩ | ⟨failed, -⟩
  · obtain rfl : d' = d.layOut := by
      rw [laid] at done
      exact (congrArg Prod.fst done).symm
    have current := layOut_laidOut layable
    have some_det := current.numDets_pos
    rw [← layOut_sizable]
    exact ⟨fun sound => sound.sizable current some_det, fun sizable => sizable.sound current some_det⟩
  · rw [done] at failed
    cases failed

/-- Two detectors with ten and twenty pixels. -/
def tenAndTwenty : Driver :=
  withInts [(0, .numDet, 2), (0, .tofMax, 100), (1, .pixelNumEnd, 9), (2, .pixelNumStart, 20), (2, .pixelNumSize, 20),
    (2, .pixelNumEnd, 39)]

theorem tenAndTwenty_layable : tenAndTwenty.Layable := (layOut_placed (by decide)).1

theorem tenAndTwenty_sizable : tenAndTwenty.Sizable where
  sizes det lo hi := by
    have two : det ≤ 2 := hi
    interval_cases det <;> decide
  tofMax := by decide
  total := by decide

theorem allocArray_sound_tenAndTwenty :
    tenAndTwenty.allocArray true = (tenAndTwenty.layOut, .success) ∧ tenAndTwenty.layOut.Sound := by
  have done := allocArray_of_layable rfl tenAndTwenty_layable
  exact ⟨done, (allocArray_sound_iff_sizable rfl done).2 tenAndTwenty_sizable⟩

/-- One pixel, and a size of `-1`: the sum is `2^32 - 1`, and with the one cell of the
spectrum the buffer has no cells at all. -/
def negativeSize : Driver := withInts [(0, .numDet, 1), (1, .pixelNumSize, -1)]

theorem negativeSize_layable : negativeSize.Layable where
  ordered det lo hi := by
    obtain rfl : det = 1 := by
      have one : det ≤ 0 + 1 := hi
      omega
    decide
  nonempty := by decide

theorem allocArray_unsound :
    negativeSize.allocArray true = (negativeSize.layOut, .success) ∧ negativeSize.layOut.bufferMaxSize = 0 ∧
      negativeSize.layOut.int 1 .ndArrayStart = 0 ∧ negativeSize.layOut.int 1 .ndArrayEnd = -2 ∧
      ¬ negativeSize.layOut.Sound := by
  refine ⟨allocArray_of_layable rfl negativeSize_layable, by decide, by decide, by decide, fun sound => ?_⟩
  have nonempty := sound.nonempty 1 .pixels (Nat.le_refl 1) (by decide)
  revert nonempty
  decide

end Driver

end ADnED
