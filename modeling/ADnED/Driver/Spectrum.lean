import ADnED.Driver.Counts

/-!
# The TOF spectra

The spectrum of a detector is a histogram of the times of flight of its events,
filtered by the pixel ROI: `spectrum_exact`. The code finds the row of a pixel by
comparing its index with the bounds of the ROI times the width, `passesPixelROI_iff`
says that this is the row `m / W`.
-/

namespace ADnED

namespace Driver

/-- The pixel `m` is in the ROI, or the ROI is not in use. -/
def PassesROI (d : Driver) (det m : Nat) : Prop :=
  d.int det .pixelROIEnable = 0 ∨ d.int det .pixelMapEnable = 0 ∨
    ((d.int det .pixelROIStartX).toInt ≤ m % (d.int det .pixelSizeX).toInt ∧
      m % (d.int det .pixelSizeX).toInt < (d.int det .pixelROIStartX).toInt + (d.int det .pixelROISizeX).toInt) ∧
    ((d.int det .pixelROIStartY).toInt ≤ m / (d.int det .pixelSizeX).toInt ∧
      m / (d.int det .pixelSizeX).toInt < (d.int det .pixelROIStartY).toInt + (d.int det .pixelROISizeY).toInt)

/-- The event belongs to the cell `k` of the spectrum. -/
def CountsTOF (d : Driver) (det k : Nat) (e : UInt32 × UInt32) : Prop :=
  d.Sees det e.1 ∧ e.2.toNat = k ∧ d.PassesROI det (d.mappedIndex det e.1)

instance (d : Driver) (det m : Nat) : Decidable (d.PassesROI det m) :=
  inferInstanceAs (Decidable (_ ∨ _ ∨ (_ ∧ _) ∧ (_ ∧ _)))

instance (d : Driver) (det k : Nat) (e : UInt32 × UInt32) : Decidable (d.CountsTOF det k e) :=
  inferInstanceAs (Decidable (_ ∧ _ ∧ _))

/-- The bounds of a pixel ROI that is in use can be computed. -/
structure ROIFits (d : Driver) (det : Nat) : Prop where
  width : 0 < (d.int det .pixelSizeX).toInt
  columns : Word32.IsInt32 ((d.int det .pixelROIStartX).toInt + (d.int det .pixelROISizeX).toInt)
  rows : Word32.IsInt32 ((d.int det .pixelROIStartY).toInt + (d.int det .pixelROISizeY).toInt)
  firstRow : Word32.IsInt32 ((d.int det .pixelROIStartY).toInt * (d.int det .pixelSizeX).toInt)
  lastRow : Word32.IsInt32 (((d.int det .pixelROIStartY).toInt + (d.int det .pixelROISizeY).toInt) *
    (d.int det .pixelSizeX).toInt)

/-- The comparisons of the code are the row and the column of the pixel. -/
theorem passesPixelROI_iff {d : Driver} {det : Nat}
    (fits : d.int det .pixelROIEnable ≠ 0 → d.int det .pixelMapEnable ≠ 0 → d.ROIFits det) {m : Int32}
    (nonneg : 0 ≤ m.toInt) :
    d.config.passesPixelROI det m = true ↔ d.PassesROI det m.toInt.toNat := by
  unfold passesPixelROI PassesROI
  by_cases roi : d.int det .pixelROIEnable = 0
  · have disabled : ¬ (d.config.det det).pixelROIEnable ≠ 0 := not_not.2 roi
    simp only [if_neg disabled, roi, true_or]
  have enabled : (d.config.det det).pixelROIEnable ≠ 0 := roi
  simp only [if_pos enabled, roi, false_or]
  by_cases map : d.int det .pixelMapEnable = 0
  · have unmapped : (d.config.det det).pixelMappingEnabled = 0 := map
    simp only [if_pos unmapped, map, true_or]
  have mapped : ¬ (d.config.det det).pixelMappingEnabled = 0 := map
  obtain ⟨width, columns, rows, firstRow, lastRow⟩ := fits roi map
  have wide : 0 < (d.config.det det).pixelSizeX := Int32.lt_iff_toInt_lt.2 width
  simp only [if_neg mapped, if_pos wide, map, false_or]
  have column := Word32.toInt_mod (y := d.int det .pixelSizeX) nonneg
  have lastColumn := Word32.toInt_add columns.1 columns.2
  have first := Word32.toInt_mul firstRow.1 firstRow.2
  have sum := Word32.toInt_add rows.1 rows.2
  rw [← sum] at lastRow
  have last := Word32.toInt_mul lastRow.1 lastRow.2
  simp only [Bool.and_eq_true, decide_eq_true_iff, Int32.le_iff_toInt_le, Int32.lt_iff_toInt_lt]
  change (((_ ≤ (m % d.int det .pixelSizeX).toInt ∧ (m % d.int det .pixelSizeX).toInt <
      (d.int det .pixelROIStartX + d.int det .pixelROISizeX).toInt) ∧
    (d.int det .pixelROIStartY * d.int det .pixelSizeX).toInt ≤ _) ∧
    _ < ((d.int det .pixelROIStartY + d.int det .pixelROISizeY) * d.int det .pixelSizeX).toInt) ↔ _
  rw [column, lastColumn, first, last, sum, Int.toNat_of_nonneg nonneg, Int.le_ediv_iff_mul_le width,
    Int.ediv_lt_iff_lt_mul width, and_assoc]
  rfl

/-- **Exact TOF spectra.** After a clear, a sequence of accepted packets leaves in every
cell of a spectrum the number of its events modulo `2^32`. -/
theorem spectrum_exact {d : Driver} (h : d.Placed) (maps : ∀ det, 1 ≤ det → det ≤ d.numDets → d.Maps det)
    (xy : ∀ det, 1 ≤ det → det ≤ d.numDets → d.int det .twoDType = 0)
    (rois : ∀ det, 1 ≤ det → det ≤ d.numDets → d.int det .pixelROIEnable ≠ 0 →
      d.int det .pixelMapEnable ≠ 0 → d.ROIFits det)
    {packets : List Packet} (accepted : Runs.Meets deliver Accepted d.clearParams packets) :
    ∃ d' b, Runs.run deliver d.clearParams packets = some d' ∧ d'.pData = some b ∧
      ∀ det, 1 ≤ det → det ≤ d.numDets → ∀ k : Nat, (k : Int) ≤ (d.int 0 .tofMax).toInt →
        b[(d.int det .ndArrayTOFStart).toInt.toNat + k]? =
          some (UInt32.ofNat ((packets.flatMap Packet.events).countP (d.CountsTOF det k))) := by
  have fits : ∀ e ∈ packets.flatMap Packet.events, ∀ det, 1 ≤ det → det ≤ d.numDets → d.BinFits det e := by
    intro e _ det lo hi _ bin
    exact absurd (xy det lo hi) bin.2.1
  obtain ⟨d', b, reached, data, exact⟩ := cells_exact h maps accepted fits
  refine ⟨d', b, reached, data, fun det lo hi k le => ?_⟩
  have range : k < d.tofCells := by
    rw [tofCells]
    omega
  have tracked : k ≤ d.tofMax.toNat := by
    have cells := h.tofMax_eq
    omega
  rw [h.ndArrayTOFStart lo hi, Int.toNat_natCast, (exact det lo hi).1 .spectrum k range tracked]
  congr 2
  apply List.countP_congr
  intro e _
  rw [decide_eq_true_iff, decide_eq_true_iff]
  apply and_congr_right
  intro sees
  apply and_congr_right
  intro _
  obtain ⟨m, -, value, -⟩ := mapPixel_eq h lo hi (maps det lo hi) sees
  rw [Word32.ofNat_eq value, passesPixelROI_iff (rois det lo hi) (by omega), value, Int.toNat_natCast]

/-- The driver with a pixel map for every detector. -/
def withMap (d : Driver) (m : List UInt32) : Driver :=
  { d with pixelMap := fun _ => some m, pixelMapSize := fun _ => UInt32.ofNat m.length }

/-- Four pixels in reverse, of which the ROI lets the first one through. -/
def reversed : Driver :=
  (withInts
    [(0, .tofMax, 9), (0, .numDet, 1),
      (1, .pixelNumStart, 0), (1, .pixelNumEnd, 3), (1, .pixelNumSize, 4), (1, .pixelSizeX, 2),
      (1, .pixelMapEnable, 1), (1, .pixelROIEnable, 1), (1, .pixelROISizeX, 1), (1, .pixelROISizeY, 1)]).withMap
    [3, 2, 1, 0]

/-- Of three events at the same time of flight, the ROI lets two through. -/
theorem spectrum_exact_reversed :
    ∃ d' b, Runs.run deliver reversed.layOut.clearParams [.single 0 3 5, .single 0 0 5, .single 1 3 5] = some d' ∧
      d'.pData = some b ∧ b[9]? = some 2 := by
  have one : ∀ {det}, 1 ≤ det → det ≤ reversed.layOut.numDets → det = 1 := by
    intro det lo hi
    have last : det ≤ 1 := hi
    omega
  have accepted : Runs.Meets deliver Accepted reversed.layOut.clearParams
      [.single 0 3 5, .single 0 0 5, .single 1 3 5] := Runs.meets_of_decide (by decide +kernel)
  obtain ⟨d', b, reached, data, exact⟩ := spectrum_exact (layOut_placed (d := reversed) (by decide)).2
    (fun det lo hi => by
      obtain rfl := one lo hi
      refine ⟨by decide, by decide, .inr ⟨by decide, by decide, [3, 2, 1, 0], rfl, by decide, ?_⟩⟩
      simp only [List.forall_mem_cons, List.not_mem_nil, false_implies, implies_true, and_true]
      decide)
    (fun det lo hi => by
      obtain rfl := one lo hi
      rfl)
    (fun det lo hi _ _ => by
      obtain rfl := one lo hi
      exact ⟨by decide, by decide, by decide, by decide, by decide⟩)
    accepted
  exact ⟨d', b, reached, data, exact 1 (by decide) (by decide) 5 (by decide)⟩

end Driver

end ADnED
