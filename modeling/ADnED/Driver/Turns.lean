import ADnED.Driver.Packets
import ADnED.Driver.Regions
import Mathlib.Data.Rat.Floor

/-!
# One turn of the integration loop

What one event increments for one detector. `load` is the part of the loop body that
sets the loop variables; behind it come the increment of the 2-D plot and that of the
spectrum (`integrateDet_eq`). The rest of the file is the 2-D plot, case by case, for
a time of flight that is not transformed.
-/

namespace ADnED

theorem floor_eq (q : ℚ) : q.floor = ⌊q⌋ := by
  rw [Rat.floor_def, Rat.floor_def']

theorem fin_within (t tofMax : UInt32) : (Dbl.fin t.toNat).within 0 tofMax.toNat = decide (t ≤ tofMax) := by
  simp [Dbl.within, UInt32.le_iff_toNat_le]

theorem fin_floorUInt32 (t : UInt32) : (Dbl.fin t.toNat).floorUInt32 = t := by
  have bound : t.toNat < 2 ^ 32 := t.toNat_lt
  have same : ((t.toNat : Int) % 2 ^ 32).toNat = t.toNat := by omega
  rw [Dbl.floorUInt32, floor_eq, Int.floor_natCast, same, UInt32.ofNat_toNat]

/-- The bins of a plot, as a number. -/
def binCount (tofNumBins : Int32) (tofMax : UInt32) : Nat :=
  if tofNumBins < 1 then 1 else min tofNumBins.toInt.toNat tofMax.toNat

theorem toInt_clampBins (tofNumBins : Int32) {tofMax : UInt32} (h : tofMax.toNat < 2147483648) :
    (clampBins tofNumBins tofMax).toInt = binCount tofNumBins tofMax := by
  simp only [clampBins, binCount]
  split
  · rfl
  · rename_i one
    have pos : 1 ≤ tofNumBins.toInt := Int32.le_iff_toInt_le.1 (Int32.not_lt.1 one)
    have bins := Word32.toNat_toUInt32_of_nonneg (x := tofNumBins) (by omega)
    split
    · rename_i more
      rw [UInt32.lt_iff_toNat_lt] at more
      rw [Word32.toInt_toInt32_of_lt h]
      omega
    · rename_i less
      rw [UInt32.lt_iff_toNat_lt] at less
      omega

theorem binCount_bounds (tofNumBins : Int32) {tofMax : UInt32} (some_tof : 1 ≤ tofMax.toNat) :
    0 < binCount tofNumBins tofMax ∧ binCount tofNumBins tofMax ≤ tofMax.toNat := by
  simp only [binCount]
  split
  · omega
  · rename_i one
    have pos : 1 ≤ tofNumBins.toInt := Int32.le_iff_toInt_le.1 (Int32.not_lt.1 one)
    omega

theorem floor_bounds {q : ℚ} {n : Nat} (nonneg : 0 ≤ q) (le : q ≤ n) : 0 ≤ ⌊q⌋ ∧ ⌊q⌋ ≤ n := by
  have small : q ≤ (n : ℤ) := by exact_mod_cast le
  exact ⟨Int.floor_nonneg.2 nonneg, Int.floor_le_iff.2 (small.trans_lt (lt_add_one _))⟩

/-- The bin of a time of flight is no later than the time of flight. -/
theorem floor_div_bounds {q : ℚ} {n : Nat} (w : Nat) (nonneg : 0 ≤ q) (le : q ≤ n) :
    0 ≤ ⌊q / w⌋ ∧ ⌊q / w⌋ ≤ n :=
  floor_bounds (div_nonneg nonneg (Nat.cast_nonneg w)) ((div_nat_le_self_of_nonnneg nonneg w).trans le)

/-- The bin of a time of flight: the width of the bins is rounded down. -/
theorem tofBin_fin (tofNumBins : Int32) {tofMax : UInt32} {q : ℚ} (h : tofMax.toNat < 2147483648)
    (some_tof : 1 ≤ tofMax.toNat) (nonneg : 0 ≤ q) (le : q ≤ tofMax.toNat) :
    ∃ bin, tofBin (.fin q) tofMax (clampBins tofNumBins tofMax) = some bin ∧
      bin.toInt = (q / (tofMax.toNat / binCount tofNumBins tofMax : Nat)).floor.toNat := by
  have bins := toInt_clampBins tofNumBins h
  obtain ⟨pos, fit⟩ := binCount_bounds tofNumBins some_tof
  have width : (tofMax / (clampBins tofNumBins tofMax).toUInt32).toNat =
      tofMax.toNat / binCount tofNumBins tofMax := by
    rw [UInt32.toNat_div, Word32.toNat_toUInt32_of_nonneg (x := clampBins tofNumBins tofMax) (by omega), bins]
    rfl
  have wide : 1 ≤ tofMax.toNat / binCount tofNumBins tofMax := Nat.div_pos fit pos
  have some_bins : clampBins tofNumBins tofMax ≠ 0 := by
    intro zero
    rw [zero] at bins
    have zero : (0 : Int32).toInt = 0 := rfl
    omega
  have some_width : tofMax / (clampBins tofNumBins tofMax).toUInt32 ≠ 0 := by
    intro zero
    rw [zero] at width
    have zero : (0 : UInt32).toNat = 0 := rfl
    omega
  simp only [tofBin, if_neg some_bins, if_neg some_width]
  rw [width, floor_eq]
  obtain ⟨first, last⟩ := floor_div_bounds (tofMax.toNat / binCount tofNumBins tofMax) nonneg le
  rw [toInt32?, if_pos (by omega)]
  refine ⟨_, rfl, ?_⟩
  rw [Int32.toInt_ofInt_of_le] <;> omega

/-- For a whole time of flight this is the division of the naturals. -/
theorem tofBin_eq (tofNumBins : Int32) {tofMax t : UInt32} (h : tofMax.toNat < 2147483648)
    (some_tof : 1 ≤ tofMax.toNat) (le : t ≤ tofMax) :
    ∃ bin, tofBin (.fin t.toNat) tofMax (clampBins tofNumBins tofMax) = some bin ∧
      bin.toInt = (t.toNat / (tofMax.toNat / binCount tofNumBins tofMax) : Nat) := by
  obtain ⟨bin, computed, value⟩ := tofBin_fin tofNumBins h some_tof (q := t.toNat) (Nat.cast_nonneg _)
    (by exact_mod_cast UInt32.le_iff_toNat_le.1 le)
  refine ⟨bin, computed, ?_⟩
  rw [value, floor_eq, Rat.floor_natCast_div_natCast]
  rfl

/-- Without a TOF range there are no bins. -/
theorem tofBin_eq_none (tofNumBins : Int32) (x : Dbl) : tofBin x 0 (clampBins tofNumBins 0) = none := by
  simp only [tofBin]
  split
  · rfl
  · cases x with
    | fin q => simp
    | nonfin => rfl

namespace Driver

variable {d : Driver} {det : Nat}

theorem inDet_iff {pixel : UInt32} :
    d.inDet det pixel = true ↔ (d.det det).start.toUInt32 ≤ pixel ∧ pixel ≤ (d.det det).stop.toUInt32 := by
  rw [inDet, Bool.and_eq_true, decide_eq_true_iff, decide_eq_true_iff]

/-- The loop variables of a turn when its increments begin. -/
def load (d : Driver) (det : Nat) (x : Dbl) (mapped : Int32) (v : LoopVars) : LoopVars :=
  { v with
    mappedPixelIndex := mapped
    tof := x
    tofInt := x.floorUInt32
    plotType := d.int det .twoDType
    tofBins := clampBins (d.int det .tofNumBins) d.tofMax }

/-- The 2-D plot only changes the variables it computes its cell in. -/
theorem bumpPixels_vars {v : LoopVars} {r : LoopVars × List Bump} (h : d.bumpPixels det v = some r) :
    r.1 = { v with xPos := r.1.xPos, yPos := r.1.yPos, tofIndex := r.1.tofIndex } := by
  have binned : ∀ {v'}, d.binnedIndex det v = some v' →
      v' = { v with xPos := v'.xPos, yPos := v'.yPos, tofIndex := v'.tofIndex } := by
    intro v' h
    simp only [binnedIndex] at h
    split_ifs at h
    · obtain ⟨bin, -, rfl⟩ := Option.map_eq_some_iff.1 h
      rfl
    · obtain ⟨bin, -, rfl⟩ := Option.map_eq_some_iff.1 h
      rfl
    · obtain ⟨bin, -, rfl⟩ := Option.map_eq_some_iff.1 h
      rfl
    · cases h
      rfl
  simp only [bumpPixels] at h
  split_ifs at h
  · cases h
    rfl
  · cases h
    rfl
  · cases h
    rfl
  · obtain ⟨v', hv, rfl⟩ := Option.map_eq_some_iff.1 h
    have same := binned hv
    split <;> exact same
  · cases h
    rfl

theorem integrateDet_outside {pixel : UInt32} (h : d.inDet det pixel = false) (t : UInt32) (v : LoopVars) :
    d.integrateDet det pixel t v = some (v, []) := by
  rw [integrateDet, if_neg (by simp [h])]

/-- The loop body: the loads, then the two increments. -/
theorem integrateDet_eq {pixel : UInt32} (h : d.inDet det pixel = true) (t : UInt32) (v : LoopVars) :
    d.integrateDet det pixel t v =
      (d.eventTOF det pixel t).bind fun x => (d.mapPixel det pixel).bind fun mapped =>
        (d.bumpPixels det (d.load det x mapped v)).map fun r =>
          (r.1, r.2 ++ d.bumpSpectrum det (d.load det x mapped v)) := by
  have spectrum : ∀ {v r}, d.bumpPixels det v = some r → d.bumpSpectrum det r.1 = d.bumpSpectrum det v := by
    intro v r plotted
    rw [bumpPixels_vars plotted]
    rfl
  rw [integrateDet, if_pos h]
  simp only [Option.bind_eq_bind]
  congr 1
  funext x
  congr 1
  funext mapped
  cases plotted : d.bumpPixels det (d.load det x mapped v) with
  | none =>
    rw [load] at plotted
    rw [plotted]
    rfl
  | some r =>
    rw [← spectrum plotted]
    rw [load] at plotted
    rw [plotted]
    rfl

/-- The increment of the 2-D plot is one of a pixel cell of `det`. -/
theorem bumpPixels_mem {v : LoopVars} {r : LoopVars × List Bump} (h : d.bumpPixels det v = some r) :
    ∀ bump ∈ r.2, bump.det = det ∧ bump.plot = .pixels := by
  intro bump mem
  simp only [bumpPixels] at h
  split_ifs at h
  · cases h
    simp [List.mem_singleton.1 mem]
  · cases h
    cases mem
  · cases h
    simp [List.mem_singleton.1 mem]
  · obtain ⟨v', -, rfl⟩ := Option.map_eq_some_iff.1 h
    split at mem
    · simp [List.mem_singleton.1 mem]
    · cases mem
  · cases h
    cases mem

/-- The increment of the spectrum is one of a TOF cell of `det`. -/
theorem bumpSpectrum_mem {v : LoopVars} :
    ∀ bump ∈ d.bumpSpectrum det v, bump.det = det ∧ bump.plot = .spectrum := by
  intro bump mem
  rw [bumpSpectrum] at mem
  split at mem
  · simp [List.mem_singleton.1 mem]
  · cases mem

/-- A turn only increments plots of its own detector. -/
theorem integrateDet_det {pixel t : UInt32} {v : LoopVars} {r : LoopVars × List Bump}
    (h : d.integrateDet det pixel t v = some r) : ∀ bump ∈ r.2, bump.det = det := by
  by_cases inside : d.inDet det pixel = true
  · rw [integrateDet_eq inside] at h
    obtain ⟨x, -, h⟩ := Option.bind_eq_some_iff.1 h
    obtain ⟨mapped, -, h⟩ := Option.bind_eq_some_iff.1 h
    obtain ⟨q, plotted, rfl⟩ := Option.map_eq_some_iff.1 h
    rw [List.forall_mem_append]
    exact ⟨fun bump mem => (bumpPixels_mem plotted bump mem).1, fun bump mem => (bumpSpectrum_mem bump mem).1⟩
  · rw [integrateDet_outside (by simpa using inside)] at h
    cases h
    simp

theorem trace_det {ts : List Turn} {v : LoopVars} {r : LoopVars × List Bump} (h : d.trace ts v = some r) :
    ∀ bump ∈ r.2, ∃ t ∈ ts, bump.det = t.1 := by
  induction ts generalizing v r with
  | nil =>
    cases h
    simp
  | cons t ts ih =>
    obtain ⟨q, first, h⟩ := Option.bind_eq_some_iff.1 h
    obtain ⟨q', rest, rfl⟩ := Option.map_eq_some_iff.1 h
    intro bump mem
    rcases List.mem_append.1 mem with now | later
    · exact ⟨t, by simp, integrateDet_det first bump now⟩
    · obtain ⟨t', mem', same⟩ := ih rest bump later
      exact ⟨t', by simp [mem'], same⟩

/-- The row of a pixel in a binned plot. -/
def plotRow (plotType : Int32) (sizeX mapped : Nat) : Nat :=
  if plotType = 1 then mapped % sizeX else if plotType = 2 then mapped / sizeX else mapped

/-- The cell of a binned plot, before it is reduced to 32 bits. -/
def binnedCell (d : Driver) (det mapped t : Nat) : Nat :=
  plotRow (d.int det .twoDType) (d.det det).pixelSizeX.toInt.toNat mapped *
      binCount (d.int det .tofNumBins) d.tofMax +
    t / (d.tofMax.toNat / binCount (d.int det .tofNumBins) d.tofMax)

/-- The configured plot of `det` is one of the three binned ones. -/
def Binned (d : Driver) (det : Nat) : Prop :=
  d.int det .twoDType = 1 ∨ d.int det .twoDType = 2 ∨ d.int det .twoDType = 3

theorem divDefined_of_pos {a b : Int32} (h : 0 < b.toInt) : divDefined a b = true := by
  have nonzero : b ≠ 0 := by
    rintro rfl
    exact absurd h (by decide)
  have positive : b ≠ -1 := by
    rintro rfl
    exact absurd h (by decide)
  simp [divDefined, nonzero, positive]

/-- The cell of a binned plot, for the bin of the time of flight. -/
theorem binnedIndex_of_bin {x : Dbl} {mapped bin : Int32} {n : Nat} (binned : d.Binned det)
    (small : d.tofMax.toNat < 2147483648)
    (sizeX : d.int det .twoDType ≠ 3 → 0 < (d.det det).pixelSizeX.toInt) (nonneg : 0 ≤ mapped.toInt)
    (hbin : tofBin x d.tofMax (clampBins (d.int det .tofNumBins) d.tofMax) = some bin) (value : bin.toInt = n)
    (v : LoopVars) :
    ∃ v', d.binnedIndex det (d.load det x mapped v) = some v' ∧
      v'.tofIndex = (UInt32.ofNat (plotRow (d.int det .twoDType) (d.det det).pixelSizeX.toInt.toNat mapped.toInt.toNat *
        binCount (d.int det .tofNumBins) d.tofMax + n)).toInt32 := by
  have bins := Word32.toUInt32_eq_ofNat (toInt_clampBins (d.int det .tofNumBins) small)
  have bin_word := Word32.toUInt32_eq_ofNat value
  rcases binned with type | type | type
  · have pos := sizeX (by rw [type]; decide)
    have row : (mapped % (d.det det).pixelSizeX).toInt =
        (mapped.toInt.toNat % (d.det det).pixelSizeX.toInt.toNat : Nat) := by
      rw [Word32.toInt_mod nonneg, Int.natCast_emod, Int.toNat_of_nonneg nonneg, Int.toNat_of_nonneg pos.le]
    have kind : (1 : Int32).toUInt32 = 1 := rfl
    simp only [binnedIndex, load, type, kind, if_true, divDefined_of_pos pos, hbin, Option.map_some]
    refine ⟨_, rfl, ?_⟩
    simp only [plotRow, if_true, UInt32.ofNat_add, UInt32.ofNat_mul,
      Word32.toUInt32_eq_ofNat row, bins, bin_word]
  · have pos := sizeX (by rw [type]; decide)
    have row : (mapped / (d.det det).pixelSizeX).toInt =
        (mapped.toInt.toNat / (d.det det).pixelSizeX.toInt.toNat : Nat) := by
      rw [Word32.toInt_div nonneg pos.le, Int.natCast_ediv, Int.toNat_of_nonneg nonneg,
        Int.toNat_of_nonneg pos.le]
    have kind : (2 : Int32).toUInt32 = 2 := rfl
    have other : (2 : UInt32) ≠ 1 := by decide
    have row_kind : (2 : Int32) ≠ 1 := by decide
    simp only [binnedIndex, load, type, kind, if_neg other, if_true, divDefined_of_pos pos, hbin, Option.map_some]
    refine ⟨_, rfl, ?_⟩
    simp only [plotRow, if_neg row_kind, if_true, UInt32.ofNat_add, UInt32.ofNat_mul,
      Word32.toUInt32_eq_ofNat row, bins, bin_word]
  · have row : mapped.toInt = mapped.toInt.toNat := (Int.toNat_of_nonneg nonneg).symm
    have kind : (3 : Int32).toUInt32 = 3 := rfl
    have others : (3 : UInt32) ≠ 1 ∧ (3 : UInt32) ≠ 2 := by decide
    have row_kinds : (3 : Int32) ≠ 1 ∧ (3 : Int32) ≠ 2 := by decide
    have wraps : ∀ x y z : Int32, x * y + z = (x.toUInt32 * y.toUInt32 + z.toUInt32).toInt32 :=
      fun _ _ _ => rfl
    simp only [binnedIndex, load, type, kind, if_neg others.1, if_neg others.2, if_true, hbin, Option.map_some]
    refine ⟨_, rfl, ?_⟩
    simp only [plotRow, if_neg row_kinds.1, if_neg row_kinds.2, UInt32.ofNat_add,
      UInt32.ofNat_mul, wraps, Word32.toUInt32_eq_ofNat row, bins, bin_word]

/-- The cell of a binned plot. -/
theorem binnedIndex_eq {mapped : Int32} {t : UInt32} (binned : d.Binned det)
    (small : d.tofMax.toNat < 2147483648) (some_tof : 1 ≤ d.tofMax.toNat)
    (sizeX : d.int det .twoDType ≠ 3 → 0 < (d.det det).pixelSizeX.toInt) (nonneg : 0 ≤ mapped.toInt)
    (le : t ≤ d.tofMax) (v : LoopVars) :
    ∃ v', d.binnedIndex det (d.load det (.fin t.toNat) mapped v) = some v' ∧
      v'.tofIndex = (UInt32.ofNat (d.binnedCell det mapped.toInt.toNat t.toNat)).toInt32 := by
  obtain ⟨bin, hbin, value⟩ := tofBin_eq (d.int det .tofNumBins) small some_tof le
  exact binnedIndex_of_bin binned small sizeX nonneg hbin value v

/-- A binned plot needs the bin of the event, whatever its rows are. -/
theorem binnedIndex_of_tofBin (binned : d.Binned det) {x : Dbl}
    (undefined : tofBin x d.tofMax (clampBins (d.int det .tofNumBins) d.tofMax) = none) (mapped : Int32) (v : LoopVars) :
    d.binnedIndex det (d.load det x mapped v) = none := by
  simp only [binnedIndex, load, undefined, Option.map_none]
  rcases binned with type | type | type
  · rw [type, if_pos (by decide), ite_self]
  · rw [type, if_neg (by decide), if_pos (by decide), ite_self]
  · rw [type, if_neg (by decide), if_neg (by decide), if_pos (by decide)]

/-- Without a TOF range a binned plot is undefined. -/
theorem binnedIndex_eq_none (binned : d.Binned det) (no_tof : d.tofMax = 0) (x : Dbl) (mapped : Int32)
    (v : LoopVars) : d.binnedIndex det (d.load det x mapped v) = none := by
  apply binnedIndex_of_tofBin binned
  rw [no_tof]
  exact tofBin_eq_none ..

/-- A plot type that is none of the four leaves the cell of an earlier turn. -/
theorem binnedIndex_other (binned : ¬ d.Binned det) (x : Dbl) (mapped : Int32) (v : LoopVars) :
    d.binnedIndex det (d.load det x mapped v) = some (d.load det x mapped v) := by
  simp only [Binned, not_or] at binned
  obtain ⟨x_tof, y_tof, id_tof⟩ := binned
  simp only [binnedIndex]
  split_ifs with xKind xDefined yKind yDefined idKind
  · exact absurd ((Word32.toUInt32_inj (y := 1)).1 xKind) x_tof
  · exact absurd ((Word32.toUInt32_inj (y := 1)).1 xKind) x_tof
  · exact absurd ((Word32.toUInt32_inj (y := 2)).1 yKind) y_tof
  · exact absurd ((Word32.toUInt32_inj (y := 2)).1 yKind) y_tof
  · exact absurd ((Word32.toUInt32_inj (y := 3)).1 idKind) id_tof
  · rfl

/-! ## The 2-D plot -/

/-- The TOF ROI of `det` is `[tofROIStart, tofROIStart + tofROISize)`, the end being
computed in 32 bits. -/
def inROI (d : Driver) (det : Nat) (t : UInt32) : Prop :=
  (d.det det).tofROIStart.toInt ≤ t.toNat ∧ (t.toNat : Int) < ((d.det det).tofROIStart + (d.det det).tofROISize).toInt

/-- An event at `t` is plotted at its pixel: the TOF ROI filter lets it through, or
there is no filter and the plot is X/Y. -/
def PlotsPixel (d : Driver) (det : Nat) (t : UInt32) : Prop :=
  if (d.det det).tofROIEnabled ≠ 0 then d.inROI det t else d.int det .twoDType = 0

/-- An event at `t` is plotted at its bin. -/
def PlotsBin (d : Driver) (det : Nat) (t : UInt32) : Prop :=
  (d.det det).tofROIEnabled = 0 ∧ d.int det .twoDType ≠ 0 ∧ t ≤ d.tofMax

theorem PlotsPixel.not_plotsBin {t : UInt32} (h : d.PlotsPixel det t) : ¬ d.PlotsBin det t := by
  rintro ⟨roi, type, -⟩
  rw [PlotsPixel, if_neg (by simp [roi])] at h
  exact type h

theorem fin_inWindow (t : UInt32) (lo hi : Int32) :
    (Dbl.fin t.toNat).inWindow lo.toInt hi.toInt = true ↔ lo.toInt ≤ t.toNat ∧ (t.toNat : Int) < hi.toInt := by
  simp only [Dbl.inWindow, Bool.and_eq_true, decide_eq_true_eq]
  norm_cast

section Plot

variable (t : UInt32) (mapped : Int32) (v : LoopVars)

theorem bumpPixels_pixel (h : d.PlotsPixel det t) :
    d.bumpPixels det (d.load det (.fin t.toNat) mapped v) =
      some (d.load det (.fin t.toNat) mapped v,
        [⟨det, .pixels, ((d.det det).ndArrayStart + mapped).toInt⟩]) := by
  unfold PlotsPixel at h
  simp only [bumpPixels]
  split at h
  · rename_i roi
    rw [if_pos roi]
    exact if_pos ((fin_inWindow ..).2 h)
  · rename_i roi
    rw [if_neg roi]
    exact if_pos ((Word32.toUInt32_inj (y := 0)).2 h)

theorem bumpPixels_bin (h : d.PlotsBin det t) :
    d.bumpPixels det (d.load det (.fin t.toNat) mapped v) =
      (d.binnedIndex det (d.load det (.fin t.toNat) mapped v)).map fun v' =>
        if v'.tofIndex < (d.det det).size - 1 then
          (v', [⟨det, .pixels, ((d.det det).ndArrayStart + v'.tofIndex).toInt⟩])
        else (v', []) := by
  obtain ⟨roi, type, le⟩ := h
  have kind : ¬ (d.load det (.fin t.toNat) mapped v).plotType.toUInt32 = 0 :=
    fun zero => type ((Word32.toUInt32_inj (y := 0)).1 zero)
  have within : (d.load det (.fin t.toNat) mapped v).tof.within 0 d.tofMax.toNat = true :=
    (fin_within t d.tofMax).trans (decide_eq_true le)
  simp only [bumpPixels]
  rw [if_neg (by simp [roi]), if_neg kind, if_pos within]

theorem bumpPixels_none (h : ¬ d.PlotsPixel det t) (h' : ¬ d.PlotsBin det t) :
    d.bumpPixels det (d.load det (.fin t.toNat) mapped v) = some (d.load det (.fin t.toNat) mapped v, []) := by
  unfold PlotsPixel at h
  simp only [bumpPixels]
  split at h
  · rename_i roi
    rw [if_pos roi]
    exact if_neg fun window => h ((fin_inWindow ..).1 window)
  · rename_i roi
    have kind : ¬ (d.load det (.fin t.toNat) mapped v).plotType.toUInt32 = 0 :=
      fun zero => h ((Word32.toUInt32_inj (y := 0)).1 zero)
    have late : ¬ t ≤ d.tofMax := fun le => h' ⟨by simpa using roi, h, le⟩
    have outside : (d.load det (.fin t.toNat) mapped v).tof.within 0 d.tofMax.toNat ≠ true := by
      rw [show (d.load det (.fin t.toNat) mapped v).tof = .fin t.toNat from rfl, fin_within]
      simp [late]
    rw [if_neg roi, if_neg kind, if_neg outside]

theorem bumpSpectrum_eq :
    d.bumpSpectrum det (d.load det (.fin t.toNat) mapped v) =
      if t ≤ d.tofMax ∧ d.passesPixelROI det mapped = true then
        [⟨det, .spectrum, ((d.det det).ndArrayTOFStart.toUInt32 + t).toNat⟩]
      else [] := by
  simp only [bumpSpectrum, load, fin_within, fin_floorUInt32, Bool.and_eq_true, decide_eq_true_eq]

end Plot

/-- The turn of an event whose time of flight is not transformed. -/
theorem integrateDet_plain {pixel : UInt32} {mapped : Int32} (inside : d.inDet det pixel = true)
    (plain : (d.det det).tofTransType = 0) (hm : d.mapPixel det pixel = some mapped) (t : UInt32) (v : LoopVars) :
    d.integrateDet det pixel t v =
      (d.bumpPixels det (d.load det (.fin t.toNat) mapped v)).map fun r =>
        (r.1, r.2 ++ d.bumpSpectrum det (d.load det (.fin t.toNat) mapped v)) := by
  have time : d.eventTOF det pixel t = some (.fin t.toNat) := by simp [eventTOF, plain]
  rw [integrateDet_eq inside, time, hm]
  rfl

/-! ## The cells of a placed layout -/

section Cells

variable (h : d.Placed) (lo : 1 ≤ det) (hi : det ≤ d.numDets)
include h lo hi

/-- A pixel lands in its region if it is below the size, and wrapping does not help. -/
theorem pixel_inPlot_iff (m : Int32) :
    d.InPlot det .pixels (d.int det .ndArrayStart + m).toInt ↔
      0 ≤ m.toInt ∧ m.toInt < d.numCells det .pixels := by
  have first := h.ndArrayStart lo hi
  have region := d.region_in_buffer lo hi .pixels
  have total := h.total
  have bounds := Word32.toInt_bounds m
  unfold InPlot
  rcases Word32.toInt_add_cases (x := d.int det .ndArrayStart) (by omega) m with exact | ⟨large, wrapped⟩
  · omega
  · omega

/-- The cell of a pixel. -/
theorem pixel_cell {m : Int32} (nonneg : 0 ≤ m.toInt) (lt : m.toInt < d.numCells det .pixels) :
    (d.int det .ndArrayStart + m).toInt = d.firstCell det .pixels + m.toInt := by
  have first := h.ndArrayStart lo hi
  have region := d.region_in_buffer lo hi .pixels
  have total := h.total
  rw [Word32.toInt_add] <;> omega

/-- The cell of a time of flight. -/
theorem spectrum_cell {t : UInt32} (le : t ≤ d.tofMax) :
    ((d.int det .ndArrayTOFStart).toUInt32 + t).toNat = d.firstCell det .spectrum + t.toNat := by
  have first := h.ndArrayTOFStart lo hi
  have region := d.region_in_buffer lo hi .spectrum
  have cells : d.tofMax.toNat + 1 = d.numCells det .spectrum := h.tofMax_eq
  have total := h.total
  rw [UInt32.le_iff_toNat_le] at le
  rw [UInt32.toNat_add, Word32.toNat_toUInt32_of_nonneg (by omega)]
  omega

theorem spectrum_inPlot {t : UInt32} (le : t ≤ d.tofMax) :
    d.InPlot det .spectrum (((d.int det .ndArrayTOFStart).toUInt32 + t).toNat : Nat) := by
  have cells : d.tofMax.toNat + 1 = d.numCells det .spectrum := h.tofMax_eq
  rw [UInt32.le_iff_toNat_le] at le
  rw [spectrum_cell h lo hi (UInt32.le_iff_toNat_le.2 le)]
  constructor <;> omega

end Cells

end Driver

end ADnED
