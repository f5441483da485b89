import ADnED.Driver.Confined

/-!
# What the cells count

A cell of a plot counts the events that belong to it. `CountsIn` says which events
those are, for a cell of a 2-D plot that shows pixels and for a cell of a spectrum. One
turn makes one increment for each plot that the event belongs to (`turn_counts`), all
increments stay in their regions, and no two regions share a cell; so after a clear and
any sequence of accepted packets every cell is the number of its events modulo `2^32`
(`cells_exact`).
-/

namespace ADnED

namespace Driver

/-- The pixel ID is in the range of the detector. -/
def Sees (d : Driver) (det : Nat) (pixel : UInt32) : Prop :=
  (d.int det .pixelNumStart).toInt ≤ pixel.toNat ∧ (pixel.toNat : Int) ≤ (d.int det .pixelNumEnd).toInt

/-- The pixel index of an event in its detector: its entry in the map, or its offset
when mapping is off. -/
def mappedIndex (d : Driver) (det : Nat) (pixel : UInt32) : Nat :=
  let offset := pixel.toNat - (d.int det .pixelNumStart).toInt.toNat
  if d.int det .pixelMapEnable = 0 then offset else (((d.pixelMap det).getD []).getD offset 0).toNat

instance (d : Driver) (det : Nat) (t : UInt32) : Decidable (d.PlotsPixel det t) :=
  inferInstanceAs (Decidable (if (d.det det).tofROIEnabled ≠ 0 then _ ∧ _ else _))

instance (d : Driver) (det : Nat) (pixel : UInt32) : Decidable (d.Sees det pixel) :=
  inferInstanceAs (Decidable (_ ∧ _))

/-- The pixels of a detector have cells: its range begins at 0 or later, and either
mapping is off and the range is no longer than the region, or there is a map for the
whole range with entries in the region. -/
structure Maps (d : Driver) (det : Nat) : Prop where
  start : 0 ≤ (d.int det .pixelNumStart).toInt
  transformation : d.int det .tofTransType = 0
  cells : d.int det .pixelMapEnable = 0 ∧
      (d.int det .pixelNumEnd).toInt - (d.int det .pixelNumStart).toInt < (d.int det .pixelNumSize).toInt ∨
    d.int det .pixelMapEnable ≠ 0 ∧ 0 < d.pixelMapSize det ∧ ∃ m, d.pixelMap det = some m ∧
      (d.int det .pixelNumEnd).toInt - (d.int det .pixelNumStart).toInt < m.length ∧
      ∀ x ∈ m, (x.toNat : Int) < (d.int det .pixelNumSize).toInt

/-- The 2-D plot of `det` shows pixels. -/
def ShowsPixels (d : Driver) (det : Nat) : Prop := d.int det .twoDType = 0 ∨ d.int det .tofROIEnable ≠ 0

/-- If the event goes to a binned plot of `det`, the plot has a TOF range and rows, and
the cell does not become negative in 32 bits. -/
def BinFits (d : Driver) (det : Nat) (e : UInt32 × UInt32) : Prop :=
  d.Sees det e.1 → d.config.PlotsBin det e.2 → d.Binned det →
    1 ≤ d.tofMax.toNat ∧ (d.int det .twoDType ≠ 3 → 0 < (d.int det .pixelSizeX).toInt) ∧
      d.config.binnedCell det (d.mappedIndex det e.1) e.2.toNat % 2 ^ 32 < 2 ^ 31

instance (d : Driver) (det : Nat) (e : UInt32 × UInt32) : Decidable (d.BinFits det e) :=
  inferInstanceAs (Decidable (d.Sees det e.1 → _ ∧ _ ∧ _ → _ ∨ _ ∨ _ → _ ∧ (_ → _) ∧ _))

/-- The code counts the event in the cell `k` of the plot. -/
def CountsIn (d : Driver) (det : Nat) (plot : Plot) (k : Nat) (e : UInt32 × UInt32) : Prop :=
  d.Sees det e.1 ∧
    match plot with
    | .pixels => d.mappedIndex det e.1 = k ∧ d.config.PlotsPixel det e.2
    | .spectrum => e.2.toNat = k ∧ d.config.passesPixelROI det (Int32.ofNat (d.mappedIndex det e.1)) = true

instance (d : Driver) (det : Nat) (plot : Plot) (k : Nat) (e : UInt32 × UInt32) :
    Decidable (d.CountsIn det plot k e) :=
  match plot with
  | .pixels => inferInstanceAs (Decidable (_ ∧ _ ∧ _))
  | .spectrum => inferInstanceAs (Decidable (_ ∧ _ ∧ _))

/-- The plot shows pixels, or the cell is one of a spectrum. -/
def Tracked (d : Driver) (det : Nat) (k : Nat) : Plot → Prop
  | .pixels => d.ShowsPixels det
  | .spectrum => k ≤ d.tofMax.toNat

/-- The pixel index `m` of an event at `t` has a cell in the 2-D plot of `det`, if the
event is plotted: it is below the size, or its bin does not become negative in 32
bits. -/
structure Lands (d : Driver) (det : Nat) (t : UInt32) (m : Int32) : Prop where
  nonneg : 0 ≤ m.toInt
  pixel : d.config.PlotsPixel det t → m.toInt < (d.int det .ndArraySize).toInt
  bin : d.config.PlotsBin det t → d.Binned det →
    1 ≤ d.tofMax.toNat ∧ (d.int det .twoDType ≠ 3 → 0 < (d.int det .pixelSizeX).toInt) ∧
      d.config.binnedCell det m.toInt.toNat t.toNat % 2 ^ 32 < 2 ^ 31

/-- The turn of `det` at the event `e` is defined, stays in its regions, and increments
a cell `k` of a plot that is looked at (`K`) once if the event counts there (`C`) and
else not at all. A plot type that is none of the four goes on with the cell of an
earlier turn, so `tofIndex` must not be negative, and stays so. -/
def TurnCounts (d : Driver) (K : Plot → Nat → Prop) (C : Plot → Nat → Prop) [∀ plot k, Decidable (C plot k)]
    (det : Nat) (e : UInt32 × UInt32) : Prop :=
  ∀ v : LoopVars, 0 ≤ v.tofIndex.toInt →
    ∃ r, d.config.integrateDet det e.1 e.2 v = some r ∧ 0 ≤ r.1.tofIndex.toInt ∧
      (∀ bump ∈ r.2, d.InPlot bump.det bump.plot bump.index) ∧
      ∀ plot k, K plot k → r.2.count ⟨det, plot, (d.firstCell det plot + k : Nat)⟩ = if C plot k then 1 else 0

/-- Fewer cells that are looked at. -/
theorem TurnCounts.mono {d : Driver} {det : Nat} {e : UInt32 × UInt32} {K K' C C' : Plot → Nat → Prop}
    [∀ plot k, Decidable (C plot k)] [∀ plot k, Decidable (C' plot k)] (turn : d.TurnCounts K C det e)
    (fewer : ∀ plot k, K' plot k → K plot k ∧ (C plot k ↔ C' plot k)) : d.TurnCounts K' C' det e := by
  intro v hv
  obtain ⟨r, defined, nonneg, own, counts⟩ := turn v hv
  refine ⟨r, defined, nonneg, own, fun plot k looked => ?_⟩
  obtain ⟨looked, same⟩ := fewer plot k looked
  simp only [counts plot k looked, same]

theorem active_nodup (d : Driver) : d.active.Nodup := List.nodup_range'

/-- The spectrum is not a pixel plot. -/
theorem count_pixels_spectrum (d : Driver) (det det' : Nat) (i : Int) (v : LoopVars) :
    (d.bumpSpectrum det v).count ⟨det', .pixels, i⟩ = 0 := by
  apply List.count_eq_zero_of_not_mem
  intro mem
  cases (bumpSpectrum_mem _ mem).2

theorem ShowsPixels.not_plotsBin {d : Driver} {det : Nat} (h : d.ShowsPixels det) (t : UInt32) :
    ¬ d.config.PlotsBin det t := by
  rintro ⟨off, type, -⟩
  exact h.elim type fun roi => roi off

section Turn

variable {d : Driver} {det : Nat} (h : d.Placed) (lo : 1 ≤ det) (hi : det ≤ d.numDets) (maps : d.Maps det)
include h lo hi maps

omit maps in
/-- The comparisons of the code are unsigned, so the range must not begin below 0. -/
theorem inDet_iff_sees_of_nonneg (start : 0 ≤ (d.int det .pixelNumStart).toInt) (pixel : UInt32) :
    d.config.inDet det pixel = true ↔ d.Sees det pixel := by
  have ordered : (d.int det .pixelNumStart).toInt ≤ (d.int det .pixelNumEnd).toInt :=
    Int32.le_iff_toInt_le.1 (h.layable.ordered det (by omega) (by omega))
  have first := Word32.toNat_toUInt32_of_nonneg start
  have last := Word32.toNat_toUInt32_of_nonneg (x := d.int det .pixelNumEnd) (by omega)
  rw [inDet_iff, UInt32.le_iff_toNat_le, UInt32.le_iff_toNat_le]
  change (d.int det .pixelNumStart).toUInt32.toNat ≤ _ ∧ _ ≤ (d.int det .pixelNumEnd).toUInt32.toNat ↔ _
  unfold Sees
  omega

theorem inDet_iff_sees (pixel : UInt32) : d.config.inDet det pixel = true ↔ d.Sees det pixel :=
  inDet_iff_sees_of_nonneg h lo hi maps.start pixel

/-- The mapped pixel of an event has a cell. -/
theorem mapPixel_eq {pixel : UInt32} (sees : d.Sees det pixel) :
    ∃ m, d.config.mapPixel det pixel = some m ∧ m.toInt = d.mappedIndex det pixel ∧
      d.mappedIndex det pixel < d.numCells det .pixels := by
  obtain ⟨above, below⟩ := sees
  have start := maps.start
  have size := h.pixelNumSize lo hi
  have region := d.region_in_buffer lo hi .pixels
  have total := h.total
  have last := Word32.toInt_bounds (d.int det .pixelNumEnd)
  have first := Word32.toNat_toUInt32_of_nonneg start
  have offset : (d.config.pixelOffset det pixel).toNat =
      pixel.toNat - (d.int det .pixelNumStart).toInt.toNat := by
    change (pixel - (d.int det .pixelNumStart).toUInt32).toNat = _
    rw [UInt32.toNat_sub_of_le _ _ (UInt32.le_iff_toNat_le.2 (by omega)), first]
  rcases maps.cells with ⟨off, fits⟩ | ⟨on, loaded, m, map, long, entries⟩
  · have plain : d.config.mapPixel det pixel = some (d.config.pixelOffset det pixel).toInt32 := by
      simp [mapPixel, config, readDet, off]
    have index : d.mappedIndex det pixel = pixel.toNat - (d.int det .pixelNumStart).toInt.toNat := by
      simp [mappedIndex, off]
    refine ⟨_, plain, ?_, by omega⟩
    rw [Word32.toInt_toInt32_of_lt (by omega), offset, index]
  · have inside : (d.config.pixelOffset det pixel).toNat < m.length := by omega
    have entry := entries _ (List.getElem_mem inside)
    have mapped : d.config.mapPixel det pixel = some (m[(d.config.pixelOffset det pixel).toNat]).toInt32 := by
      have enabled : (d.config.det det).pixelMappingEnabled ≠ 0 ∧ 0 < d.config.pixelMapSize det := ⟨on, loaded⟩
      have map' : d.config.pixelMap det = some m := map
      simp only [mapPixel, if_pos enabled, map', List.getElem?_eq_getElem inside, Option.map_some]
    have index : d.mappedIndex det pixel = (m[(d.config.pixelOffset det pixel).toNat]).toNat := by
      simp only [mappedIndex, if_neg on, map, Option.getD_some, ← offset, List.getD_eq_getElem?_getD,
        List.getElem?_eq_getElem inside]
    refine ⟨_, mapped, ?_, by omega⟩
    rw [Word32.toInt_toInt32_of_lt (by omega), index]

omit maps in
/-- The spectrum counts the times of flight that the pixel ROI lets through. -/
theorem spectrum_count (mapped : Int32) (t : UInt32) (v : LoopVars) {k : Nat} (hk : k ≤ d.tofMax.toNat) :
    (d.config.bumpSpectrum det (d.config.load det (.fin t.toNat) mapped v)).count
        ⟨det, .spectrum, (d.firstCell det .spectrum + k : Nat)⟩ =
      if t.toNat = k ∧ d.config.passesPixelROI det mapped = true then 1 else 0 := by
  rw [bumpSpectrum_eq]
  by_cases passes : t ≤ d.tofMax ∧ d.config.passesPixelROI det mapped = true
  · have cell : ((d.config.det det).ndArrayTOFStart.toUInt32 + t).toNat =
        d.firstCell det .spectrum + t.toNat := spectrum_cell h lo hi passes.1
    have pass : t ≤ d.config.tofMax ∧ d.config.passesPixelROI det mapped = true := passes
    rw [if_pos pass, cell, List.count_singleton]
    simp [passes.2]
  · have pass : ¬ (t ≤ d.config.tofMax ∧ d.config.passesPixelROI det mapped = true) := passes
    rw [if_neg pass, if_neg]
    · rfl
    · rintro ⟨rfl, roi⟩
      exact passes ⟨UInt32.le_iff_toNat_le.2 hk, roi⟩

omit maps in
/-- A binned plot in one turn: the cell is computed, and incremented unless it is the
last one of the region or behind it. -/
theorem binned_turn {t : UInt32} {m : Int32} (some_cell : 1 ≤ d.numCells det .pixels) (lands : d.Lands det t m)
    (bin : d.config.PlotsBin det t) (binned : d.Binned det) (v : LoopVars) :
    ∃ r, d.config.bumpPixels det (d.config.load det (.fin t.toNat) m v) = some r ∧
      r.1.tofIndex.toInt = (d.config.binnedCell det m.toInt.toNat t.toNat % 2 ^ 32 : Nat) ∧
      r.2 = if d.config.binnedCell det m.toInt.toNat t.toNat % 2 ^ 32 + 1 < d.numCells det .pixels then
        [⟨det, .pixels,
          (d.firstCell det .pixels + d.config.binnedCell det m.toInt.toNat t.toNat % 2 ^ 32 : Nat)⟩] else [] := by
  obtain ⟨some_tof, sizeX, positive⟩ := lands.bin bin binned
  obtain ⟨v', index, value⟩ := binnedIndex_eq (d := d.config) binned h.tofMax_lt some_tof sizeX lands.nonneg
    bin.2.2 v
  have cell : v'.tofIndex.toInt = (d.config.binnedCell det m.toInt.toNat t.toNat % 2 ^ 32 : Nat) := by
    rw [value, Word32.toInt_toInt32_of_lt, UInt32.toNat_ofNat']
    rw [UInt32.toNat_ofNat']
    exact positive
  generalize d.config.binnedCell det m.toInt.toNat t.toNat % 2 ^ 32 = k at cell
  have size := h.pixelNumSize lo hi
  have region := d.region_in_buffer lo hi .pixels
  have total := h.total
  have one : (1 : Int32).toInt = 1 := rfl
  have last : (d.int det .pixelNumSize - 1).toInt = d.numCells det .pixels - 1 := by
    rw [Word32.toInt_sub] <;> omega
  have below : v'.tofIndex < (d.config.det det).size - 1 ↔ k + 1 < d.numCells det .pixels := by
    rw [Int32.lt_iff_toInt_lt, cell]
    change (k : Int) < (d.int det .pixelNumSize - 1).toInt ↔ _
    omega
  rw [bumpPixels_bin _ _ _ bin, index, Option.map_some]
  refine ⟨_, rfl, ?_, ?_⟩
  · rw [apply_ite Prod.fst, ite_self]
    exact cell
  · simp only [apply_ite Prod.snd, below]
    split
    · have place : (d.int det .ndArrayStart + v'.tofIndex).toInt = (d.firstCell det .pixels + k : Nat) := by
        rw [pixel_cell h lo hi (by omega) (by omega)]
        omega
      rw [← place]
      rfl
    · rfl

omit maps in
/-- The 2-D plot in one turn. -/
theorem pixels_turn {t : UInt32} {m : Int32} (some_cell : 1 ≤ d.numCells det .pixels) (lands : d.Lands det t m)
    {v : LoopVars} (hv : 0 ≤ v.tofIndex.toInt) :
    ∃ r, d.config.bumpPixels det (d.config.load det (.fin t.toNat) m v) = some r ∧
      0 ≤ r.1.tofIndex.toInt ∧ (∀ bump ∈ r.2, d.InPlot bump.det bump.plot bump.index) ∧
      (d.ShowsPixels det → r.2 = if d.config.PlotsPixel det t then
        [⟨det, .pixels, (d.firstCell det .pixels + m.toInt.toNat : Nat)⟩] else []) := by
  have nonneg := lands.nonneg
  by_cases pixel : d.config.PlotsPixel det t
  · have below := lands.pixel pixel
    rw [h.ndArraySize lo hi] at below
    have place : ((d.config.det det).ndArrayStart + m).toInt = (d.firstCell det .pixels + m.toInt.toNat : Nat) := by
      have cell := pixel_cell h lo hi nonneg below
      change (d.int det .ndArrayStart + m).toInt = _
      omega
    rw [bumpPixels_pixel _ _ _ pixel, place]
    refine ⟨_, rfl, hv, ?_, fun _ => (if_pos pixel).symm⟩
    rw [List.forall_mem_singleton]
    constructor <;> simp only <;> omega
  · by_cases bin : d.config.PlotsBin det t
    · by_cases binned : d.Binned det
      · obtain ⟨r, plotted, cell, shown⟩ := binned_turn h lo hi some_cell lands bin binned v
        refine ⟨r, plotted, by omega, ?_, fun shows => absurd bin (shows.not_plotsBin t)⟩
        rw [shown]
        split
        · rw [List.forall_mem_singleton]
          constructor <;> simp only <;> omega
        · simp
      · -- A plot type that is none of the four: the cell of an earlier turn.
        have own := (bin_inPlot_iff h lo hi some_cell v.tofIndex).2 hv
        rw [bumpPixels_bin _ _ _ bin, binnedIndex_other (d := d.config) binned, Option.map_some]
        refine ⟨_, rfl, ?_, ?_, fun shows => absurd bin (shows.not_plotsBin t)⟩
        · split <;> exact hv
        · simp only [apply_ite Prod.snd]
          exact own
    · rw [bumpPixels_none _ _ _ pixel bin]
      exact ⟨_, rfl, hv, by simp, fun _ => (if_neg pixel).symm⟩

omit maps in
/-- An event of a detector whose pixels have cells, and whose bins do, has a cell. -/
theorem BinFits.lands {e : UInt32 × UInt32} (fits : d.BinFits det e) (sees : d.Sees det e.1) {m : Int32}
    (mapped : m.toInt = d.mappedIndex det e.1) (cell : d.mappedIndex det e.1 < d.numCells det .pixels) :
    d.Lands det e.2 m where
  nonneg := by omega
  pixel := by
    rw [h.ndArraySize lo hi]
    omega
  bin bin binned := by
    rw [mapped, Int.toNat_natCast]
    exact fits sees bin binned

/-- **One turn.** It increments the cell of the pixel and the cell of the time of
flight, and keeps `tofIndex` non-negative. -/
theorem turn_counts {e : UInt32 × UInt32} (fits : d.BinFits det e) :
    d.TurnCounts (fun plot k => d.Tracked det k plot) (fun plot k => d.CountsIn det plot k e) det e := by
  intro v hv
  by_cases sees : d.Sees det e.1
  · have inside := (inDet_iff_sees h lo hi maps e.1).2 sees
    obtain ⟨m, mapped, value, cell⟩ := mapPixel_eq h lo hi maps sees
    obtain ⟨r, plotted, nonneg, own, shown⟩ :=
      pixels_turn h lo hi (by omega) (fits.lands h lo hi sees value cell) hv
    rw [integrateDet_plain inside maps.transformation mapped, plotted]
    refine ⟨_, rfl, nonneg, List.forall_mem_append.2 ⟨own, spectrum_confined h lo hi m e.2 v⟩, ?_⟩
    intro plot k tracked
    rw [List.count_append]
    cases plot with
    | pixels =>
      rw [count_pixels_spectrum, shown tracked, value, Int.toNat_natCast]
      by_cases plots : d.config.PlotsPixel det e.2
      · simp [CountsIn, plots, sees, List.count_singleton]
      · simp [CountsIn, plots]
    | spectrum =>
      have noPixel : ∀ i, ⟨det, .spectrum, i⟩ ∉ r.2 := by
        intro i mem
        cases (bumpPixels_mem plotted _ mem).2
      rw [List.count_eq_zero_of_not_mem (noPixel _), spectrum_count h lo hi m e.2 v tracked]
      simp [CountsIn, sees, Word32.ofNat_eq value]
  · have outside : d.config.inDet det e.1 = false := by
      rw [← Bool.not_eq_true, inDet_iff_sees h lo hi maps]
      exact sees
    rw [integrateDet_outside outside]
    refine ⟨_, rfl, hv, by simp, fun plot k _ => ?_⟩
    rw [if_neg fun counts => sees counts.1]
    rfl

end Turn

section Sequence

variable {d : Driver} {K : Nat → Plot → Nat → Prop} {C : Nat → Plot → Nat → UInt32 × UInt32 → Prop}
  [∀ det plot k e, Decidable (C det plot k e)]

/-- A list of turns counts each of them in its cells. -/
theorem trace_counts {ts : List Turn}
    (turn : ∀ t ∈ ts, d.TurnCounts (K t.1) (fun plot k => C t.1 plot k t.2) t.1 t.2) {v : LoopVars}
    (hv : 0 ≤ v.tofIndex.toInt) :
    ∃ r, d.config.trace ts v = some r ∧ (∀ bump ∈ r.2, d.InPlot bump.det bump.plot bump.index) ∧
      ∀ det plot k, K det plot k → r.2.count ⟨det, plot, (d.firstCell det plot + k : Nat)⟩ =
        ts.countP fun t => t.1 == det && decide (C det plot k t.2) := by
  induction ts generalizing v with
  | nil => exact ⟨(v, []), rfl, by simp, fun _ _ _ _ => rfl⟩
  | cons t ts ih =>
    obtain ⟨now, later⟩ := List.forall_mem_cons.1 turn
    obtain ⟨r, first, nonneg, own, counts⟩ := now v hv
    obtain ⟨q, rest, own', counts'⟩ := ih later nonneg
    refine ⟨(q.1, r.2 ++ q.2), ?_, List.forall_mem_append.2 ⟨own, own'⟩, ?_⟩
    · rw [trace, first, Option.bind_some, rest]
      rfl
    · intro det plot k tracked
      rw [List.count_append, counts' det plot k tracked, List.countP_cons, Nat.add_comm]
      congr 1
      by_cases here : t.1 = det
      · subst here
        rw [counts plot k tracked]
        simp
      · have other : ⟨det, plot, (d.firstCell det plot + k : Nat)⟩ ∉ r.2 := by
          intro mem
          exact here (integrateDet_det first _ mem).symm
        rw [List.count_eq_zero_of_not_mem other]
        simp [here]

/-- A sequence of packets counts each of its events in its cells. -/
theorem bumpsOf_counts (h : d.Placed) (packets : List (List (UInt32 × UInt32)))
    (turn : ∀ e ∈ packets.flatten, ∀ det, 1 ≤ det → det ≤ d.numDets →
      d.TurnCounts (K det) (fun plot k => C det plot k e) det e) :
    ∃ bs, d.config.bumpsOf d.active packets = some bs ∧
      (∀ bump ∈ bs, 1 ≤ bump.det ∧ bump.det ≤ d.numDets ∧ d.InPlot bump.det bump.plot bump.index) ∧
      ∀ det, 1 ≤ det → det ≤ d.numDets → ∀ plot k, K det plot k →
        bs.count ⟨det, plot, (d.firstCell det plot + k : Nat)⟩ = packets.flatten.countP (C det plot k) := by
  induction packets with
  | nil => exact ⟨[], rfl, by simp, by simp⟩
  | cons events packets ih =>
    rw [List.flatten_cons, List.forall_mem_append] at turn
    obtain ⟨bs, rest, own', counts'⟩ := ih turn.2
    have now : ∀ t ∈ turns d.active events, d.TurnCounts (K t.1) (fun plot k => C t.1 plot k t.2) t.1 t.2 := by
      intro t mem
      obtain ⟨det, event⟩ := mem_turns.1 mem
      obtain ⟨lo, hi⟩ := (mem_active h).1 det
      exact turn.1 t.2 event t.1 lo hi
    obtain ⟨r, traced, own, counts⟩ := trace_counts now (v := .zero) (Int.le_refl 0)
    have bumped : d.config.bumps d.active events = some r.2 := by
      rw [bumps, traced]
      rfl
    refine ⟨r.2 ++ bs, ?_, ?_, ?_⟩
    · rw [bumpsOf, bumped, Option.bind_some, rest]
      rfl
    · rw [List.forall_mem_append]
      refine ⟨fun bump mem => ?_, own'⟩
      obtain ⟨lo, hi⟩ := bumps_det h bumped bump mem
      exact ⟨lo, hi, own bump mem⟩
    · intro det lo hi plot k tracked
      have each := countP_turns d.active_nodup ((mem_active h).2 ⟨lo, hi⟩) events fun e => C det plot k e
      rw [List.count_append, counts det plot k tracked, counts' det lo hi plot k tracked, each,
        List.flatten_cons, List.countP_append]

end Sequence

/-- In a list of increments that stay in their regions, those of a cell are those of
its plot. -/
theorem count_index {d : Driver} {bs : List Bump} {det : Nat} {plot : Plot} {i : Int} (lo : 1 ≤ det)
    (hi : det ≤ d.numDets) (mem : d.InPlot det plot i)
    (own : ∀ bump ∈ bs, 1 ≤ bump.det ∧ bump.det ≤ d.numDets ∧ d.InPlot bump.det bump.plot bump.index) :
    (bs.map Bump.index).count i = bs.count ⟨det, plot, i⟩ := by
  rw [List.count, List.countP_map, List.count]
  apply List.countP_congr
  intro bump hb
  obtain ⟨lo', hi', mem'⟩ := own bump hb
  simp only [Function.comp, beq_iff_eq]
  constructor
  · rintro rfl
    obtain ⟨rfl, rfl⟩ := regions_disjoint lo hi lo' hi' mem mem'
    rfl
  · rintro rfl
    rfl

/-! ## After a clear -/

theorem clearParams_handled (d : Driver) : Handled d d.clearParams := by
  refine ⟨rfl, fun addr p hp => ?_, fun addr p hp => ?_, ?_⟩
  · have counter : p ≠ .pulseCounter := by
      rintro rfl
      cases hp
    have kept : clearedByChannel p = false := by
      cases p <;> first | rfl | cases hp
    simp [clearParams, counter, kept]
  · have charge : p ≠ .pCharge ∧ p ≠ .pChargeInt := by
      constructor <;> rintro rfl <;> cases hp
    have total : p ≠ .detEventTotal := by
      rintro rfl
      cases hp
    simp [clearParams, charge.1, charge.2, total]
  · simp [clearParams, Function.comp_def, length_zeroCells]

/-- A buffer that is zeroed as a whole. -/
theorem zeroCells_all (b : List UInt32) : zeroCells b 0 b.length = List.replicate b.length 0 := by
  apply List.ext_getElem
  · simp [zeroCells]
  · intro i inside _
    have bound : i < b.length := by simpa [zeroCells] using inside
    simp [zeroCells, bound]

/-- A clear leaves zeros in all cells. -/
theorem clearParams_data {d : Driver} (h : d.Placed) :
    d.clearParams.pData = some (List.replicate d.totalCells 0) := by
  obtain ⟨b, data, length⟩ := h.buffer_length
  have whole : d.bufferMaxSize.toNat = b.length := by
    have size := h.buffer
    rw [data] at size
    exact (Option.some.inj size).symm
  have cleared : d.clearParams.pData = d.pData.map fun b => zeroCells b 0 d.bufferMaxSize.toNat := rfl
  rw [cleared, data, Option.map_some, whole, ← length, zeroCells_all]

/-- `m_detTotalEvents` is exact up to `2^53` events. -/
theorem iterate_dblSucc {n : Nat} (h : n ≤ 2 ^ 53) : dblSucc^[n] 0 = n := by
  induction n with
  | zero => rfl
  | succ n ih => rw [Function.iterate_succ_apply', ih (by omega), dblSucc, if_pos (by omega)]

/-- **Exact cells.** After a clear and a sequence of accepted packets whose events have
cells, every cell is the number of its events modulo `2^32`, and the totals count the
events that the detectors see. -/
theorem cells_exact {d : Driver} (h : d.Placed) (maps : ∀ det, 1 ≤ det → det ≤ d.numDets → d.Maps det)
    {packets : List Packet} (accepted : Runs.Meets deliver Accepted d.clearParams packets)
    (fits : ∀ e ∈ packets.flatMap Packet.events, ∀ det, 1 ≤ det → det ≤ d.numDets → d.BinFits det e) :
    ∃ d' b, Runs.run deliver d.clearParams packets = some d' ∧ d'.pData = some b ∧
      ∀ det, 1 ≤ det → det ≤ d.numDets →
        (∀ plot k, k < d.numCells det plot → d.Tracked det k plot →
          b[d.firstCell det plot + k]? =
            some (UInt32.ofNat ((packets.flatMap Packet.events).countP (d.CountsIn det plot k)))) ∧
        d'.detTotalEvents det = dblSucc^[(packets.flatMap Packet.events).countP (d.Sees det ·.1)] 0 := by
  have frame := clearParams_handled d
  have agrees := fun det (_ : det ∈ d.active) => config_agreesAt frame det
  have result := run_deliver accepted (clearParams_data h)
  rw [active_congr frame, bumpsOf_congr agrees] at result
  obtain ⟨bs, bumped, own, counts⟩ := bumpsOf_counts h (packets.map Packet.events)
    fun e he det lo hi => turn_counts h lo hi (maps det lo hi) (fits e he det lo hi)
  obtain ⟨b, counted⟩ := bumpAll_of_inPlot (List.length_replicate ..) own
  rw [bumped, Option.bind_some, counted, Option.map_some, Option.map_eq_some_iff] at result
  obtain ⟨d', reached, same⟩ := result
  rw [Prod.mk.injEq] at same
  refine ⟨d', b, reached, same.1, fun det lo hi => ⟨fun plot k below tracked => ?_, ?_⟩⟩
  · have region := d.region_in_buffer lo hi plot
    have mem : d.InPlot det plot (d.firstCell det plot + k : Nat) := by
      constructor <;> omega
    have zero : (List.replicate d.totalCells (0 : UInt32))[d.firstCell det plot + k]? = some 0 :=
      List.getElem?_replicate_of_lt (by omega)
    rw [Tally.bumpAll_cell counted, zero, count_index lo hi mem own, counts det lo hi plot k tracked,
      Option.map_some, UInt32.zero_add]
    rfl
  · have hits : d.clearParams.config.hits det (turns d.active (packets.flatMap Packet.events)) =
        (packets.flatMap Packet.events).countP (d.Sees det ·.1) := by
      rw [hits_congr fun t _ => config_agreesAt frame t.1, Driver.hits,
        countP_turns d.active_nodup ((mem_active h).2 ⟨lo, hi⟩) _ fun e => d.config.inDet det e.1]
      apply List.countP_congr
      intro e _
      rw [inDet_iff_sees h lo hi (maps det lo hi), decide_eq_true_iff]
    have cleared : d.clearParams.detTotalEvents det = 0 := if_pos (hi.trans h.numDets_le)
    rw [same.2]
    simp only [hits, cleared]

end Driver

end ADnED
