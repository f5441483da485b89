import ADnED.Driver.Histogram

/-!
# Binned plots

The X/TOF, Y/TOF and PixelID/TOF plots have a row of bins for every column, line or
pixel. The width of the bins is `m_tofMax / tofBins`, rounded down, so that the times of
flight behind the last whole bin belong to the next row (`tofIndex_in_row_iff`). The
test of the cell against the size is off by one and leaves out the last cell of the
region; every other cell counts the events of its bin, and the sum over the region
counts all of them exactly if none belongs to the last cell and no cell wraps
(`binned_sum_iff`).
-/

namespace ADnED

namespace Driver

/-- The bins of a row of the plot of `det`. -/
def rowBins (d : Driver) (det : Nat) : Nat := binCount (d.int det .tofNumBins) d.tofMax

/-- The row of the mapped pixel `m` in the plot of `det`. -/
def rowOf (d : Driver) (det m : Nat) : Nat :=
  plotRow (d.int det .twoDType) (d.int det .pixelSizeX).toInt.toNat m

theorem binnedCell_eq (d : Driver) (det m t : Nat) :
    d.config.binnedCell det m t = d.rowOf det m * d.rowBins det + t / (d.tofMax.toNat / d.rowBins det) := rfl

/-- The bins that fit into a row are those that are full. -/
theorem binnedCell_in_row_iff {d : Driver} {det : Nat} (some_tof : 1 ≤ d.tofMax.toNat) (m t : Nat) :
    (d.rowOf det m * d.rowBins det ≤ d.config.binnedCell det m t ∧
        d.config.binnedCell det m t < (d.rowOf det m + 1) * d.rowBins det) ↔
      t < d.rowBins det * (d.tofMax.toNat / d.rowBins det) := by
  obtain ⟨pos, fit⟩ : 0 < d.rowBins det ∧ d.rowBins det ≤ d.tofMax.toNat := binCount_bounds _ some_tof
  have width : 0 < d.tofMax.toNat / d.rowBins det := Nat.div_pos fit pos
  rw [binnedCell_eq, Nat.add_mul, Nat.one_mul, Nat.add_lt_add_iff_left, Nat.div_lt_iff_lt_mul width]
  exact and_iff_right (Nat.le_add_right _ _)

/-- The time of flight goes to a bin. -/
theorem plotsBin_of_binned {d : Driver} {det : Nat} {t : UInt32} (binned : d.Binned det)
    (roi : d.int det .tofROIEnable = 0) : d.config.PlotsBin det t ↔ t ≤ d.tofMax := by
  have type : d.int det .twoDType ≠ 0 := by
    rcases binned with type | type | type <;> rw [type] <;> decide
  exact ⟨fun bin => bin.2.2, fun le => ⟨roi, type, le⟩⟩

theorem not_plotsPixel_of_binned {d : Driver} {det : Nat} {t : UInt32} (binned : d.Binned det)
    (roi : d.int det .tofROIEnable = 0) : ¬ d.config.PlotsPixel det t := by
  have disabled : ¬ (d.config.det det).tofROIEnabled ≠ 0 := not_not.2 roi
  rw [PlotsPixel, if_neg disabled]
  intro type
  rcases binned with type' | type' | type' <;> exact absurd (type'.symm.trans type) (by decide)

/-- **Rows.** The cell of an event in a binned plot is in the row of its pixel exactly if
the time of flight is in one of the full bins. -/
theorem tofIndex_in_row_iff {d : Driver} {det : Nat} {pixel t : UInt32} {m : Int32} (binned : d.Binned det)
    (roi : d.int det .tofROIEnable = 0) (plain : d.int det .tofTransType = 0)
    (tofMax : 1 ≤ d.tofMax.toNat ∧ d.tofMax.toNat < 2 ^ 31) (sizeX : 1 ≤ (d.int det .pixelSizeX).toInt)
    (inside : d.config.inDet det pixel = true) (mapped : d.config.mapPixel det pixel = some m)
    (nonneg : 0 ≤ m.toInt) (le : t ≤ d.tofMax)
    (fits : d.config.binnedCell det m.toInt.toNat t.toNat < 2 ^ 31) (v : LoopVars) :
    ∃ r, d.config.integrateDet det pixel t v = some r ∧
      (((d.rowOf det m.toInt.toNat * d.rowBins det : Nat) : Int) ≤ r.1.tofIndex.toInt ∧
          r.1.tofIndex.toInt < ((d.rowOf det m.toInt.toNat + 1) * d.rowBins det : Nat) ↔
        t.toNat < d.rowBins det * (d.tofMax.toNat / d.rowBins det)) := by
  have bin : d.config.PlotsBin det t := (plotsBin_of_binned binned roi).2 le
  obtain ⟨v', index, value⟩ := binnedIndex_eq (d := d.config) binned tofMax.2 tofMax.1 (fun _ => sizeX) nonneg le v
  have cell : v'.tofIndex.toInt = d.config.binnedCell det m.toInt.toNat t.toNat := by
    have word : (UInt32.ofNat (d.config.binnedCell det m.toInt.toNat t.toNat)).toNat =
        d.config.binnedCell det m.toInt.toNat t.toNat := by
      rw [UInt32.toNat_ofNat']
      omega
    rw [value, Word32.toInt_toInt32_of_lt (by omega), word]
  rw [integrateDet_plain inside plain mapped, bumpPixels_bin _ _ _ bin, index]
  refine ⟨_, rfl, ?_⟩
  rw [apply_ite Prod.fst, ite_self, cell, Int.ofNat_le, Int.ofNat_lt]
  exact binnedCell_in_row_iff tofMax.1 m.toInt.toNat t.toNat

/-- The last time of flight of the last bin of a row. -/
theorem tofIndex_in_row_lastBin :
    ∃ r, setupExample.layOut.config.integrateDet 4 5 159999 .zero = some r ∧
      800 ≤ r.1.tofIndex.toInt ∧ r.1.tofIndex.toInt < 960 := by
  have binned : setupExample.layOut.Binned 4 := .inr (.inr (by decide))
  have inside : setupExample.layOut.config.inDet 4 5 = true := by decide
  have mapped : setupExample.layOut.config.mapPixel 4 5 = some 5 := by decide
  have le : (159999 : UInt32) ≤ setupExample.layOut.tofMax := by decide
  obtain ⟨r, turn, row⟩ := tofIndex_in_row_iff binned (by decide) (by decide) (by decide) (by decide) inside mapped
    (by decide) le (by decide) .zero
  exact ⟨r, turn, row.2 (by decide)⟩

/-- The time of flight after it, which is `TOFMax`, is in the first bin of the next row. -/
theorem tofIndex_spills :
    setupExample.allocArray true = (setupExample.layOut, .success) ∧ setupExample.layOut.Binned 4 ∧
      setupExample.layOut.int 4 .tofROIEnable = 0 ∧ setupExample.layOut.int 4 .tofTransType = 0 ∧
      setupExample.layOut.tofMax = 160000 ∧ setupExample.layOut.int 4 .pixelSizeX = 32 ∧
      setupExample.layOut.config.inDet 4 5 = true ∧ setupExample.layOut.config.mapPixel 4 5 = some 5 ∧
      setupExample.layOut.rowOf 4 5 = 5 ∧ setupExample.layOut.rowBins 4 = 160 ∧
      (setupExample.layOut.config.integrateDet 4 5 160000 .zero).map (·.1.tofIndex) = some ((5 + 1) * 160) :=
  ⟨allocArray_of_layable rfl setupExample_placed.1, .inr (.inr (by decide)), by decide, by decide, by decide,
    by decide, by decide, by decide, by decide, by decide, by decide +kernel⟩

/-! ## Sums -/

/-- The cell of an event in the binned plot of `det`, in 32 bits: `none` if the event is
not in the range of `det` or too late. -/
def binOf (d : Driver) (det : Nat) (e : UInt32 × UInt32) : Option Nat :=
  if d.config.inDet det e.1 = true ∧ e.2 ≤ d.tofMax then
    (d.config.mapPixel det e.1).map fun m => d.config.binnedCell det m.toInt.toNat e.2.toNat % 2 ^ 32
  else none

/-- The cell that the loop computes for the event is one of the region of `det`. A
binned plot computes its cell in every turn, whatever the loop variables were. -/
def ComputesCell (d : Driver) (det : Nat) (e : UInt32 × UInt32) : Prop :=
  d.config.inDet det e.1 = true ∧ e.2 ≤ d.tofMax ∧
    (d.config.integrateDet det e.1 e.2 .zero).any fun r =>
      0 ≤ r.1.tofIndex.toInt && r.1.tofIndex.toInt < (d.int det .ndArraySize).toInt

instance (d : Driver) (det : Nat) (e : UInt32 × UInt32) : Decidable (d.ComputesCell det e) :=
  inferInstanceAs (Decidable (_ ∧ _ ∧ _))

/-- What an event needs to be plotted by `det`, if it sees the event: no transformation,
and a pixel index that has a cell. -/
def HasCell (d : Driver) (det : Nat) (e : UInt32 × UInt32) : Prop :=
  d.config.inDet det e.1 = true → d.int det .tofTransType = 0 ∧
    ∃ m, d.config.mapPixel det e.1 = some m ∧ d.Lands det e.2 m

/-- The turn of the event is defined, and increments nothing but cells of the plots of its detector. -/
def StaysHome (d : Driver) (det : Nat) (e : UInt32 × UInt32) : Prop :=
  ∀ v : LoopVars, 0 ≤ v.tofIndex.toInt → ∃ r, d.config.integrateDet det e.1 e.2 v = some r ∧
    0 ≤ r.1.tofIndex.toInt ∧ ∀ bump ∈ r.2, d.InPlot bump.det bump.plot bump.index

/-- A turn in which no cell is looked at. -/
theorem StaysHome.turn {d : Driver} {det : Nat} {e : UInt32 × UInt32} (home : d.StaysHome det e)
    {K C : Plot → Nat → Prop} [∀ plot k, Decidable (C plot k)] (none : ∀ plot k, ¬ K plot k) :
    d.TurnCounts K C det e := by
  intro v hv
  obtain ⟨r, turn, nonneg, own⟩ := home v hv
  exact ⟨r, turn, nonneg, own, fun plot k looked => absurd looked (none plot k)⟩

section Turn

variable {d : Driver} {det : Nat} (h : d.Placed) (lo : 1 ≤ det) (hi : det ≤ d.numDets)
include h lo hi

/-- A turn of an event that has a cell is confined. -/
theorem HasCell.staysHome {e : UInt32 × UInt32} (has : d.HasCell det e) : d.StaysHome det e := by
  intro v hv
  by_cases inside : d.config.inDet det e.1 = true
  · obtain ⟨plain, m, mapped, lands⟩ := has inside
    obtain ⟨r, plotted, nonneg, own, -⟩ := pixels_turn h lo hi (offset_bounds h lo hi inside).2 lands hv
    rw [integrateDet_plain inside plain mapped, plotted]
    exact ⟨_, rfl, nonneg, List.forall_mem_append.2 ⟨own, spectrum_confined h lo hi m e.2 v⟩⟩
  · rw [integrateDet_outside (by simpa using inside)]
    exact ⟨_, rfl, hv, by simp⟩

variable (binned : d.Binned det) (roi : d.int det .tofROIEnable = 0) {e : UInt32 × UInt32} (has : d.HasCell det e)
include binned roi has

/-- The turn of a binned plot computes the bin of the event, and increments it unless it
is the last cell of the region or behind it. -/
theorem binned_integrate (v : LoopVars) :
    ∃ r bs, d.config.integrateDet det e.1 e.2 v = some r ∧ (∀ k, d.binOf det e = some k → r.1.tofIndex.toInt = k) ∧
      r.2 = ((d.binOf det e).filter (· + 1 < d.numCells det .pixels)).toList.map (fun k =>
        ⟨det, .pixels, (d.firstCell det .pixels + k : Nat)⟩) ++ bs ∧
      ∀ i, bs.count ⟨det, .pixels, i⟩ = 0 := by
  by_cases inside : d.config.inDet det e.1 = true
  · obtain ⟨plain, m, mapped, lands⟩ := has inside
    rw [integrateDet_plain inside plain mapped]
    by_cases late : e.2 ≤ d.tofMax
    · have bin : d.binOf det e = some (d.config.binnedCell det m.toInt.toNat e.2.toNat % 2 ^ 32) := by
        rw [binOf, if_pos ⟨inside, late⟩, mapped]
        rfl
      obtain ⟨r, plotted, cell, shown⟩ := binned_turn h lo hi (offset_bounds h lo hi inside).2 lands
        ((plotsBin_of_binned binned roi).2 late) binned v
      rw [plotted, bin]
      refine ⟨_, d.config.bumpSpectrum det (d.config.load det (.fin e.2.toNat) m v), rfl, ?_, ?_,
        fun i => count_pixels_spectrum _ _ _ _ _⟩
      · rintro k ⟨⟩
        exact cell
      · simp only [shown, Option.filter_some, decide_eq_true_eq]
        split <;> rfl
    · have bin : d.binOf det e = none := if_neg fun seen => late seen.2
      have no_bin : ¬ d.config.PlotsBin det e.2 := fun plots => late plots.2.2
      rw [bumpPixels_none _ _ _ (not_plotsPixel_of_binned binned roi) no_bin, bin]
      exact ⟨_, _, rfl, nofun, rfl, fun i => count_pixels_spectrum _ _ _ _ _⟩
  · have bin : d.binOf det e = none := if_neg fun seen => inside seen.1
    rw [integrateDet_outside (by simpa using inside), bin]
    exact ⟨_, [], rfl, nofun, rfl, fun _ => rfl⟩

/-- One turn of a binned plot. -/
theorem binned_counts : d.TurnCounts (fun plot _ => plot = .pixels)
    (fun _ k => k + 1 < d.numCells det .pixels ∧ d.binOf det e = some k) det e := by
  intro v hv
  -- What is in the regions, and that `tofIndex` stays non-negative, is the same for every plot.
  obtain ⟨r, turn, nonneg, own⟩ := has.staysHome h lo hi v hv
  obtain ⟨r', bs, turn', -, bumps, others⟩ := binned_integrate h lo hi binned roi has v
  obtain rfl : r' = r := Option.some.inj (turn'.symm.trans turn)
  refine ⟨r', turn, nonneg, own, ?_⟩
  rintro plot k rfl
  rw [bumps, List.count_append, others]
  cases d.binOf det e with
  | none => simp
  | some j =>
    by_cases below : j + 1 < d.numCells det .pixels
    · by_cases same : j = k
      · simp [← same, below, Option.filter_some]
      · simp [below, same, Option.filter_some]
    · have other : ¬ (k + 1 < d.numCells det .pixels ∧ j = k) := by omega
      simp [below, other, Option.filter_some]

/-- The computed cell is one of the region if the bin is. -/
theorem computesCell_iff :
    d.ComputesCell det e ↔ (d.binOf det e).any (· < d.numCells det .pixels) = true := by
  obtain ⟨r, -, turn, cell, -⟩ := binned_integrate h lo hi binned roi has .zero
  rw [ComputesCell, turn, h.ndArraySize lo hi, ← and_assoc]
  by_cases seen : d.config.inDet det e.1 = true ∧ e.2 ≤ d.tofMax
  · obtain ⟨-, m, mapped, -⟩ := has seen.1
    have bin : d.binOf det e = some (d.config.binnedCell det m.toInt.toNat e.2.toNat % 2 ^ 32) := by
      rw [binOf, if_pos seen, mapped]
      rfl
    rw [and_iff_right seen, bin]
    have value := cell _ bin
    generalize d.config.binnedCell det m.toInt.toNat e.2.toNat % 2 ^ 32 = k at value
    simp only [Option.any_some, Bool.and_eq_true, decide_eq_true_eq, value]
    omega
  · have bin : d.binOf det e = none := if_neg seen
    simp [seen, bin]

end Turn

/-- What the events need for the plot of `det` to be binned: a pixel index that is not
negative, and a cell that does not become negative in 32 bits. -/
def BinsFit (d : Driver) (det : Nat) (e : UInt32 × UInt32) : Prop :=
  d.config.inDet det e.1 = true → ∃ m, d.config.mapPixel det e.1 = some m ∧ 0 ≤ m.toInt ∧
    (e.2 ≤ d.tofMax → d.config.binnedCell det m.toInt.toNat e.2.toNat % 2 ^ 32 < 2 ^ 31)

theorem BinsFit.hasCell {d : Driver} {det : Nat} {e : UInt32 × UInt32} (fit : d.BinsFit det e)
    (binned : d.Binned det) (roi : d.int det .tofROIEnable = 0) (plain : d.int det .tofTransType = 0)
    (some_tof : 1 ≤ d.tofMax.toNat) (sizeX : 1 ≤ (d.int det .pixelSizeX).toInt) : d.HasCell det e := by
  intro inside
  obtain ⟨m, mapped, nonneg, cell⟩ := fit inside
  exact ⟨plain, m, mapped, nonneg, fun pixel => absurd pixel (not_plotsPixel_of_binned binned roi),
    fun bin _ => ⟨some_tof, fun _ => sizeX, cell bin.2.2⟩⟩

/-- The bin of an event is known only if its detector has cells. -/
theorem some_cell_of_binOf {d : Driver} (h : d.Placed) {det : Nat} (lo : 1 ≤ det) (hi : det ≤ d.numDets)
    {e : UInt32 × UInt32} {k : Nat} (bin : d.binOf det e = some k) : 1 ≤ d.numCells det .pixels := by
  unfold binOf at bin
  split at bin
  · rename_i seen
    exact (offset_bounds h lo hi seen.1).2
  · cases bin

/-- The increments of a sequence of packets, in the region of a binned plot. -/
theorem binned_bumps {d : Driver} (h : d.Placed) {det : Nat} (lo : 1 ≤ det) (hi : det ≤ d.numDets)
    (binned : d.Binned det) (roi : d.int det .tofROIEnable = 0) (packets : List (List (UInt32 × UInt32)))
    (has : ∀ e ∈ packets.flatten, d.HasCell det e)
    (others : ∀ e ∈ packets.flatten, ∀ det', 1 ≤ det' → det' ≤ d.numDets → det' ≠ det → d.StaysHome det' e) :
    ∃ bs, d.config.bumpsOf d.active packets = some bs ∧
      (∀ bump ∈ bs, 1 ≤ bump.det ∧ bump.det ≤ d.numDets ∧ d.InPlot bump.det bump.plot bump.index) ∧
      ∀ k < d.numCells det .pixels, (bs.map Bump.index).count ((d.firstCell det .pixels + k : Nat) : Int) =
        if k + 1 < d.numCells det .pixels then packets.flatten.countP (d.binOf det · == some k) else 0 := by
  let K : Nat → Plot → Nat → Prop := fun det' plot _ => det' = det ∧ plot = .pixels
  let C : Nat → Plot → Nat → UInt32 × UInt32 → Prop := fun _ _ k e =>
    k + 1 < d.numCells det .pixels ∧ d.binOf det e = some k
  have turn : ∀ e ∈ packets.flatten, ∀ det', 1 ≤ det' → det' ≤ d.numDets →
      d.TurnCounts (K det') (fun plot k => C det' plot k e) det' e := by
    intro e he det' lo' hi'
    by_cases here : det' = det
    · subst here
      exact (binned_counts h lo hi binned roi (has e he)).mono fun plot k looked => ⟨looked.2, Iff.rfl⟩
    · exact (others e he det' lo' hi' here).turn fun plot k looked => here looked.1
  obtain ⟨bs, bumped, own, counts⟩ := bumpsOf_counts (K := K) (C := C) h packets turn
  refine ⟨bs, bumped, own, fun k below => ?_⟩
  have mem : d.InPlot det .pixels (d.firstCell det .pixels + k : Nat) := by
    constructor <;> omega
  rw [count_index lo hi mem own, counts det lo hi .pixels k ⟨rfl, rfl⟩]
  by_cases counted : k + 1 < d.numCells det .pixels
  · rw [if_pos counted]
    apply List.countP_congr
    simp [C, counted]
  · rw [if_neg counted]
    apply List.countP_eq_zero.2
    simp [C, counted]

/-- **Sums of binned plots.** If the other detectors stay in their own plots, every cell of the region counts
the events of its bin, but the last one counts nothing. The sum over the region grows by the number of the events
that have a cell in it exactly if none of them has the last one, and no cell wraps. -/
theorem binned_sum_iff {d : Driver} (h : d.Placed) {det : Nat} (lo : 1 ≤ det) (hi : det ≤ d.numDets)
    (binned : d.Binned det) (roi : d.int det .tofROIEnable = 0) (plain : d.int det .tofTransType = 0)
    (some_tof : 1 ≤ (d.int 0 .tofMax).toInt) (sizeX : 1 ≤ (d.int det .pixelSizeX).toInt)
    {packets : List Packet} (accepted : Runs.Meets deliver Accepted d packets)
    (fit : ∀ e ∈ packets.flatMap Packet.events, d.BinsFit det e)
    (others : ∀ e ∈ packets.flatMap Packet.events, ∀ det', 1 ≤ det' → det' ≤ d.numDets → det' ≠ det →
      d.StaysHome det' e)
    {b : List UInt32} (data : d.pData = some b) {first size : Nat} (start : (d.int det .ndArrayStart).toInt = first)
    (cells : (d.int det .ndArraySize).toInt = size) :
    ∃ d' b', Runs.run deliver d packets = some d' ∧ d'.pData = some b' ∧
      (∀ k < size, b'.getD (first + k) 0 = b.getD (first + k) 0 + UInt32.ofNat
        (if k + 1 < size then (packets.flatMap Packet.events).countP (d.binOf det · == some k) else 0)) ∧
      (Tally.total b' first size =
          Tally.total b first size + (packets.flatMap Packet.events).countP (d.ComputesCell det) ↔
        (∀ e ∈ packets.flatMap Packet.events, d.binOf det e ≠ some (size - 1)) ∧
          ∀ k < size, (b.getD (first + k) 0).toNat +
            (packets.flatMap Packet.events).countP (d.binOf det · == some k) < 2 ^ 32) := by
  have tof : 1 ≤ d.tofMax.toNat := by
    have range := h.tofMax_eq
    rw [tofCells] at range
    omega
  have has : ∀ e ∈ packets.flatMap Packet.events, d.HasCell det e :=
    fun e he => (fit e he).hasCell binned roi plain tof sizeX
  obtain rfl : size = d.numCells det .pixels := by
    have published := h.ndArraySize lo hi
    omega
  obtain rfl : first = d.firstCell det .pixels := by
    have published := h.ndArrayStart lo hi
    omega
  obtain ⟨bs, bumped, own, cell⟩ := binned_bumps h lo hi binned roi (packets.map Packet.events) has others
  simp only [← List.flatMap_def] at cell
  obtain ⟨b₀, data₀, length⟩ := h.buffer_length
  obtain rfl : b₀ = b := Option.some.inj (data₀.symm.trans data)
  obtain ⟨b', counted⟩ := bumpAll_of_inPlot length own
  have result := run_deliver accepted data
  rw [bumped, Option.bind_some, counted, Option.map_some, Option.map_eq_some_iff] at result
  obtain ⟨d', reached, same⟩ := result
  rw [Prod.mk.injEq] at same
  have region := d.region_in_buffer lo hi .pixels
  have each : ∀ e ∈ packets.flatMap Packet.events,
      ((d.binOf det e).any (· < d.numCells det .pixels) = true ↔ decide (d.ComputesCell det e) = true) := by
    intro e he
    rw [decide_eq_true_iff]
    exact (computesCell_iff h lo hi binned roi (has e he)).symm
  refine ⟨d', b', reached, same.1, ?_, ?_⟩
  · intro k below
    rw [Tally.bumpAll_getD counted (by omega), cell k below]
  · rw [← List.countP_congr each, ← Tally.sum_countP, Tally.total_bumpAll_lost_iff counted (by omega) cell]
    refine and_congr_left fun _ => ?_
    constructor
    · intro kept e he last
      have some_cell := some_cell_of_binOf h lo hi last
      exact List.countP_eq_zero.1 (kept some_cell) e he (by simpa using last)
    · intro kept _
      apply List.countP_eq_zero.2
      intro e he last
      exact kept e he (by simpa using last)

/-- A bin before the last one. -/
theorem binned_sum_twoPlots :
    ∃ d' b', Runs.run deliver twoPlots.layOut [.single 0 3 4] = some d' ∧ d'.pData = some b' ∧
      Tally.total b' 4 6 = Tally.total (List.replicate 30 0) 4 6 + 1 := by
  have accepted : Runs.Meets deliver Accepted twoPlots.layOut [.single 0 3 4] :=
    Runs.meets_of_decide (by decide +kernel)
  have events : [Packet.single 0 3 4].flatMap Packet.events = [(3, 4)] := rfl
  have binned : twoPlots.layOut.Binned 2 := .inl (by decide)
  have fit : ∀ e ∈ [Packet.single 0 3 4].flatMap Packet.events, twoPlots.layOut.BinsFit 2 e := by
    rw [events, List.forall_mem_singleton]
    exact fun _ => ⟨1, by decide, by decide, fun _ => by decide⟩
  have other : twoPlots.layOut.HasCell 1 (3, 4) :=
    fun _ => ⟨by decide, 3, by decide, by decide, fun _ => by decide, fun bin => absurd rfl bin.2.1⟩
  have others : ∀ e ∈ [Packet.single 0 3 4].flatMap Packet.events, ∀ det, 1 ≤ det →
      det ≤ twoPlots.layOut.numDets → det ≠ 2 → twoPlots.layOut.StaysHome det e := by
    rw [events, List.forall_mem_singleton]
    intro det lo hi ne
    have two : det ≤ 2 := hi
    obtain rfl : det = 1 := by omega
    exact other.staysHome twoPlots_placed lo hi
  have data : twoPlots.layOut.pData = some (List.replicate 30 0) := by decide +kernel
  have first : (twoPlots.layOut.int 2 .ndArrayStart).toInt = (4 : Nat) := by decide
  have size : (twoPlots.layOut.int 2 .ndArraySize).toInt = (6 : Nat) := by decide
  obtain ⟨d', b', reached, data', -, sum⟩ := binned_sum_iff twoPlots_placed (by decide) (by decide) binned (by decide)
    (by decide) (by decide) (by decide) accepted fit others data first size
  have counted : ([Packet.single 0 3 4].flatMap Packet.events).countP (twoPlots.layOut.ComputesCell 2) = 1 := by
    decide +kernel
  rw [counted] at sum
  refine ⟨d', b', reached, data', sum.2 ⟨?_, by decide +kernel⟩⟩
  rw [events, List.forall_mem_singleton]
  decide +kernel

/-- An event of the last bin of the last row has a cell in the region, and is lost. -/
theorem binned_sum_lost :
    twoPlots.allocArray true = (twoPlots.layOut, .success) ∧ twoPlots.layOut.Binned 2 ∧
      twoPlots.layOut.int 2 .tofROIEnable = 0 ∧ twoPlots.layOut.int 2 .tofTransType = 0 ∧
      twoPlots.layOut.int 0 .tofMax = 9 ∧ twoPlots.layOut.int 2 .pixelSizeX = 2 ∧
      twoPlots.layOut.int 2 .ndArrayStart = 4 ∧ twoPlots.layOut.int 2 .ndArraySize = 6 ∧
      ([(3, 6)] : List (UInt32 × UInt32)).countP (twoPlots.layOut.ComputesCell 2) = 1 ∧
      Runs.checks deliver (fun d p => decide (d.Accepted p)) twoPlots.layOut [.single 0 3 6] = true ∧
      (Runs.run deliver twoPlots.layOut [.single 0 3 6]).map (fun d => d.pData.map (Tally.total · 4 6)) =
        some (twoPlots.layOut.pData.map (Tally.total · 4 6)) :=
  ⟨allocArray_of_layable rfl (layOut_placed (by decide)).1, .inl (by decide), by decide, by decide, by decide,
    by decide, by decide, by decide, by decide +kernel, by decide +kernel, by decide +kernel⟩

end Driver

end ADnED
