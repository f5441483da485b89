import ADnED.Driver.Confined
import ADnED.Driver.Buffer
import ADnED.Driver.Stages

/-!
# A snapshot and the block it is used on

The second stage of `eventHandler` takes the regions of a detector from the snapshot and
the block from `p_Data`. `InBlock` says that the regions of the snapshot lie in the block
that is there; `trace_in_block` shows that the increments then do, and `snapshotStep_taken`
that a snapshot of a layout that covers its pixels is like that when it is taken. `Roomy` is what
`allocArray` has to observe for a snapshot that is still in use.
-/

namespace ADnED

namespace Driver

/-- The cells of the block behind `p_Data`. -/
def blockCells (d : Driver) : Nat := (d.pData.getD []).length

/-- Without mapping and transformation, the regions that the snapshot of `det` names lie in
the block, and the pixel region has a cell for every pixel in range. -/
structure InBlock (d : Driver) (det : Nat) : Prop where
  mapping : (d.det det).pixelMappingEnabled = 0
  transformation : (d.det det).tofTransType = 0
  ordered : (d.det det).start.toInt ≤ (d.det det).stop.toInt
  covers : (d.det det).stop.toInt - (d.det det).start.toInt < (d.det det).size.toInt
  pixels : 0 ≤ (d.det det).ndArrayStart.toInt
  pixels_end : (d.det det).ndArrayStart.toInt + (d.det det).size.toInt < 2147483648
  pixels_block : (d.det det).ndArrayStart.toInt + (d.det det).size.toInt ≤ d.blockCells
  spectrum : 0 ≤ (d.det det).ndArrayTOFStart.toInt
  spectrum_end : (d.det det).ndArrayTOFStart.toInt + d.tofMax.toNat < 2147483648
  spectrum_block : (d.det det).ndArrayTOFStart.toInt + d.tofMax.toNat < d.blockCells

/-- A longer block and a shorter TOF range do no harm. -/
theorem InBlock.mono {d d' : Driver} {det : Nat} (h : d.InBlock det) (values : d'.det det = d.det det)
    (cells : d.blockCells ≤ d'.blockCells) (range : d'.tofMax ≤ d.tofMax) : d'.InBlock det := by
  have block := h.pixels_block
  have tofEnd := h.spectrum_end
  have tofBlock := h.spectrum_block
  rw [UInt32.le_iff_toNat_le] at range
  constructor
  all_goals rw [values]
  · exact h.mapping
  · exact h.transformation
  · exact h.ordered
  · exact h.covers
  · exact h.pixels
  · exact h.pixels_end
  · omega
  · exact h.spectrum
  · omega
  · omega

/-- If the event is plotted at a bin of `det`, there is a TOF range, the rows of the plot have
some width, and the cell is not negative in 32 bits. -/
def BinInside (d : Driver) (det : Nat) (e : UInt32 × UInt32) : Prop :=
  d.inDet det e.1 = true → d.PlotsBin det e.2 → d.Binned det →
    1 ≤ d.tofMax.toNat ∧ (d.int det .twoDType ≠ 3 → 0 < (d.det det).pixelSizeX.toInt) ∧
      d.binnedCell det (d.pixelOffset det e.1).toNat e.2.toNat % 2 ^ 32 < 2 ^ 31

namespace InBlock

variable {d : Driver} {det : Nat} (h : d.InBlock det)
include h

/-- The offset of a pixel in range is below the size. -/
theorem offset_lt {pixel : UInt32} (inside : d.inDet det pixel = true) :
    ((d.pixelOffset det pixel).toNat : Int) < (d.det det).size.toInt := by
  have ordered := h.ordered
  have covers := h.covers
  have first := Word32.toNat_toUInt32 (d.det det).start
  have last := Word32.toNat_toUInt32 (d.det det).stop
  have bounds := Word32.toInt_bounds (d.det det).start
  have bounds' := Word32.toInt_bounds (d.det det).stop
  obtain ⟨above, below⟩ := inDet_iff.1 inside
  have offset : (d.pixelOffset det pixel).toNat = pixel.toNat - (d.det det).start.toUInt32.toNat :=
    UInt32.toNat_sub_of_le _ _ above
  rw [UInt32.le_iff_toNat_le] at above below
  omega

/-- A cell below the size is in the block. -/
theorem pixel_lt {m : Int32} (nonneg : 0 ≤ m.toInt) (lt : m.toInt < (d.det det).size.toInt) :
    0 ≤ ((d.det det).ndArrayStart + m).toInt ∧ ((d.det det).ndArrayStart + m).toInt < d.blockCells := by
  have first := h.pixels
  have last := h.pixels_end
  have block := h.pixels_block
  rw [Word32.toInt_add (by omega) (by omega)]
  omega

theorem spectrum_lt {t : UInt32} (le : t ≤ d.tofMax) :
    (((d.det det).ndArrayTOFStart.toUInt32 + t).toNat : Int) < d.blockCells := by
  have first := h.spectrum
  have last := h.spectrum_end
  have block := h.spectrum_block
  rw [UInt32.le_iff_toNat_le] at le
  rw [UInt32.toNat_add, Word32.toNat_toUInt32_of_nonneg first]
  omega

/-- The 2-D plot of an event. The cell of a binned plot stays in `v.tofIndex`, where a turn of
an unknown plot type finds it. -/
theorem plot_in_block {e : UInt32 × UInt32} {v : LoopVars} {r : LoopVars × List Bump}
    (inside : d.inDet det e.1 = true) (fits : d.BinInside det e) (nonneg : 0 ≤ v.tofIndex.toInt)
    (plotted : d.bumpPixels det (d.load det (.fin e.2.toNat) (d.pixelOffset det e.1).toInt32 v) = some r) :
    (∀ bump ∈ r.2, 0 ≤ bump.index ∧ bump.index < d.blockCells) ∧ 0 ≤ r.1.tofIndex.toInt := by
  have lt := h.offset_lt inside
  have size := Word32.toInt_bounds (d.det det).size
  have offset : (d.pixelOffset det e.1).toInt32.toInt = (d.pixelOffset det e.1).toNat :=
    Word32.toInt_toInt32_of_lt (by omega)
  by_cases pixel : d.PlotsPixel det e.2
  · rw [bumpPixels_pixel _ _ _ pixel] at plotted
    cases plotted
    exact ⟨List.forall_mem_singleton.2 (h.pixel_lt (by omega) (by omega)), nonneg⟩
  · by_cases bin : d.PlotsBin det e.2
    · rw [bumpPixels_bin _ _ _ bin] at plotted
      obtain ⟨v', index, same⟩ := Option.map_eq_some_iff.1 plotted
      have cell : 0 ≤ v'.tofIndex.toInt := by
        by_cases binned : d.Binned det
        · obtain ⟨some_tof, sizeX, small⟩ := fits inside bin binned
          have range := h.spectrum_end
          have first := h.spectrum
          have row : 0 ≤ (d.pixelOffset det e.1).toInt32.toInt := by omega
          obtain ⟨w, found, cell⟩ := binnedIndex_eq binned (by omega) some_tof sizeX row bin.2.2 v
          cases found.symm.trans index
          rw [cell, Word32.toInt_ofNat_nonneg, offset, Int.toNat_natCast]
          exact small
        · rw [binnedIndex_other binned] at index
          cases index
          exact nonneg
      split at same
      · rename_i below
        cases same
        have one : (1 : Int32).toInt = 1 := rfl
        rw [Int32.lt_iff_toInt_lt, Word32.toInt_sub (by omega) (by omega)] at below
        exact ⟨List.forall_mem_singleton.2 (h.pixel_lt cell (by omega)), cell⟩
      · cases same
        exact ⟨List.forall_mem_nil _, cell⟩
    · rw [bumpPixels_none _ _ _ pixel bin] at plotted
      cases plotted
      exact ⟨List.forall_mem_nil _, nonneg⟩

/-- One turn. -/
theorem turn_in_block {e : UInt32 × UInt32} {v : LoopVars} {r : LoopVars × List Bump} (fits : d.BinInside det e)
    (nonneg : 0 ≤ v.tofIndex.toInt) (turn : d.integrateDet det e.1 e.2 v = some r) :
    (∀ bump ∈ r.2, 0 ≤ bump.index ∧ bump.index < d.blockCells) ∧ 0 ≤ r.1.tofIndex.toInt := by
  by_cases inside : d.inDet det e.1 = true
  · have mapped : d.mapPixel det e.1 = some (d.pixelOffset det e.1).toInt32 := by
      simp [mapPixel, h.mapping]
    rw [integrateDet_plain inside h.transformation mapped] at turn
    obtain ⟨q, plotted, rfl⟩ := Option.map_eq_some_iff.1 turn
    obtain ⟨pixels, cell⟩ := h.plot_in_block inside fits nonneg plotted
    refine ⟨List.forall_mem_append.2 ⟨pixels, fun bump mem => ?_⟩, cell⟩
    rw [bumpSpectrum_eq] at mem
    split at mem
    · rename_i passes
      obtain rfl := List.mem_singleton.1 mem
      exact ⟨Int.natCast_nonneg _, h.spectrum_lt passes.1⟩
    · cases mem
  · rw [integrateDet_outside (by simpa using inside)] at turn
    cases turn
    exact ⟨List.forall_mem_nil _, nonneg⟩

end InBlock

/-- **All turns.** What is incremented is in the block if the regions of the snapshots are. -/
theorem trace_in_block {d : Driver} {ts : List Turn} {v : LoopVars} {r : LoopVars × List Bump}
    (regions : ∀ t ∈ ts, d.InBlock t.1) (fits : ∀ t ∈ ts, d.BinInside t.1 t.2) (nonneg : 0 ≤ v.tofIndex.toInt)
    (traced : d.trace ts v = some r) : ∀ bump ∈ r.2, 0 ≤ bump.index ∧ bump.index < d.blockCells := by
  induction ts generalizing v r with
  | nil =>
    cases traced
    exact List.forall_mem_nil _
  | cons t ts ih =>
    obtain ⟨region, regions⟩ := List.forall_mem_cons.1 regions
    obtain ⟨fit, fits⟩ := List.forall_mem_cons.1 fits
    obtain ⟨q, first, traced⟩ := Option.bind_eq_some_iff.1 traced
    obtain ⟨q', rest, rfl⟩ := Option.map_eq_some_iff.1 traced
    obtain ⟨now, cell⟩ := region.turn_in_block fit nonneg first
    exact List.forall_mem_append.2 ⟨now, ih regions fits cell rest⟩

/-! ## A snapshot when it is taken -/

/-- The published layout is placed and has a cell for every pixel in range; mapping and
transformation are off. -/
structure Covering (d : Driver) : Prop where
  placed : d.Placed
  covers : ∀ det, 1 ≤ det → det ≤ d.numDets →
    (d.int det .pixelNumEnd).toInt - (d.int det .pixelNumStart).toInt < (d.int det .pixelNumSize).toInt
  mapping : ∀ det, 1 ≤ det → det ≤ d.numDets → d.int det .pixelMapEnable = 0
  transformation : ∀ det, 1 ≤ det → det ≤ d.numDets → d.int det .tofTransType = 0

def coveringCheck (d : Driver) : Bool :=
  d.placedCheck && (dets (d.int 0 .numDet)).all fun det =>
    decide ((d.int det .pixelNumEnd).toInt - (d.int det .pixelNumStart).toInt < (d.int det .pixelNumSize).toInt) &&
      decide (d.int det .pixelMapEnable = 0) && decide (d.int det .tofTransType = 0)

theorem covering_of_check {d : Driver} (h : d.coveringCheck = true) : d.Covering := by
  simp only [coveringCheck, Bool.and_eq_true, decide_eq_true_eq, List.all_eq_true, mem_dets] at h
  obtain ⟨placed, each⟩ := h
  exact ⟨placed_of_check placed, fun det lo hi => (each det ⟨lo, hi⟩).1.1, fun det lo hi => (each det ⟨lo, hi⟩).1.2,
    fun det lo hi => (each det ⟨lo, hi⟩).2⟩

/-- What a snapshot of such a layout names is in the block. -/
theorem Covering.inBlock {d : Driver} {det : Nat} (h : d.Covering) (mem : det ∈ d.active) : d.config.InBlock det := by
  obtain ⟨lo, hi⟩ := (mem_active h.placed).1 mem
  obtain ⟨b, data, length⟩ := h.placed.buffer_length
  have cells : d.config.blockCells = d.totalCells := by
    rw [← length]
    simp [blockCells, config, data]
  have first := h.placed.ndArrayStart lo hi
  have size := h.placed.pixelNumSize lo hi
  have region := d.region_in_buffer lo hi .pixels
  have tofFirst := h.placed.ndArrayTOFStart lo hi
  have tofRegion := d.region_in_buffer lo hi .spectrum
  have tofCells : d.tofMax.toNat + 1 = d.numCells det .spectrum := h.placed.tofMax_eq
  have total := h.placed.total
  have ordered : (d.int det .pixelNumStart).toInt ≤ (d.int det .pixelNumEnd).toInt :=
    Int32.le_iff_toInt_le.1 (h.placed.layable.ordered det (by omega) (by omega))
  refine ⟨h.mapping det lo hi, h.transformation det lo hi, ordered, h.covers det lo hi, ?_, ?_, ?_, ?_, ?_, ?_⟩
  all_goals
    simp only [config, readDet] at cells ⊢
    omega

/-- The snapshot loop replaces the values of a detector by the parameters, or leaves them. -/
theorem snapshot_values (ds : List Nat) (d : Driver) (det : Nat) :
    (snapshot ds d).1.det det = d.det det ∨ det ∈ ds ∧ (snapshot ds d).1.det det = d.readDet det := by
  induction ds generalizing d with
  | nil => exact .inl rfl
  | cons e ds ih =>
    have now : Function.update d.det e (d.readDet e) det = d.det det ∨
        det ∈ e :: ds ∧ Function.update d.det e (d.readDet e) det = d.readDet det := by
      by_cases here : det = e
      · subst here
        simp
      · simp [here]
    simp only [snapshot]
    split
    · exact now
    · rcases ih { d with det := Function.update d.det e (d.readDet e) } with kept | ⟨later, read⟩
      · rw [kept]
        exact now
      · exact .inr ⟨by simp [later], read⟩

theorem snapshotStep_values (d : Driver) (p : Packet) (det : Nat) :
    (d.snapshotStep p).1.det det = d.det det ∨ det ∈ d.active ∧ (d.snapshotStep p).1.det det = d.readDet det := by
  obtain ⟨secs, due, timed⟩ := timer_eq d p.now
  have values := snapshot_values d.active { d with lastTimeSecs := secs } det
  rw [snapshotStep_of timed Prod.mk.eta.symm]
  split
  · exact .inl rfl
  · split
    · rw [stampStep_eq, stamp_det]
      exact values
    · exact values

/-- The first stage leaves the block and the TOF range. -/
theorem InBlock.of_snapshotStep {d d₀ : Driver} {p : Packet} {det : Nat} (h : d₀.InBlock det)
    (cells : d₀.blockCells = d.blockCells) (range : d₀.tofMax = d.tofMax)
    (values : (d.snapshotStep p).1.det det = d₀.det det) : (d.snapshotStep p).1.InBlock det := by
  have noted := snapshotStep_noted d p
  refine h.mono values ?_ ?_
  · rw [cells, noted.eq]
    exact Nat.le_refl _
  · rw [range, noted.eq]
    exact UInt32.le_refl _

/-- The snapshots that are in use stay in the block when another one is taken. -/
theorem snapshotStep_inBlock {d : Driver} (covering : d.Covering) (p : Packet) {det : Nat} (h : d.InBlock det) :
    (d.snapshotStep p).1.InBlock det := by
  rcases snapshotStep_values d p det with kept | ⟨mem, read⟩
  · exact h.of_snapshotStep rfl rfl kept
  · exact (covering.inBlock mem).of_snapshotStep rfl rfl read

/-- The snapshot that is taken is in the block. -/
theorem snapshotStep_taken {d : Driver} (covering : d.Covering) {p : Packet} {v : Pending}
    (h : (d.snapshotStep p).2 = .ok v) {det : Nat} (mem : det ∈ dets v.vars.numDet) :
    (d.snapshotStep p).1.InBlock det := by
  obtain ⟨ready, read⟩ := snapshotStep_ok h
  rw [ready.vars] at mem
  exact (covering.inBlock mem).of_snapshotStep rfl rfl (read det mem)

/-! ## A snapshot in use -/

/-- If a layout is due, the block that `allocArray` leaves can take the place of the old one:
it does not lose the block or make it shorter, and the TOF range does not grow. -/
structure Roomy (callocOk : Bool) (d : Driver) : Prop where
  kept : ¬ LosesBuffer callocOk d
  range : d.dataAlloc = true → (d.int 0 .tofMax).toUInt32 ≤ d.tofMax
  cells : d.dataAlloc = true → d.Layable → d.blockCells ≤ d.bufferCells.toNat

def roomyCheck (d : Driver) (callocOk : Bool) : Bool :=
  !decide (LosesBuffer callocOk d) && (!d.dataAlloc ||
    decide ((d.int 0 .tofMax).toUInt32 ≤ d.tofMax) && decide (d.blockCells ≤ d.bufferCells.toNat))

theorem roomy_of_check {d : Driver} {callocOk : Bool} (h : d.roomyCheck callocOk = true) : Roomy callocOk d := by
  simp only [roomyCheck, Bool.and_eq_true, Bool.not_eq_true', decide_eq_false_iff_not, Bool.or_eq_true,
    decide_eq_true_eq] at h
  obtain ⟨kept, flag | ⟨range, cells⟩⟩ := h
  · exact ⟨kept, fun due => by simp [flag] at due, fun due => by simp [flag] at due⟩
  · exact ⟨kept, fun _ => range, fun _ _ => cells⟩

theorem blockCells_congr {d d' : Driver} (size : d'.pData.map List.length = d.pData.map List.length) :
    d'.blockCells = d.blockCells := by
  have lengths : ∀ x : Option (List UInt32), (x.getD []).length = (x.map List.length).getD 0 := by
    intro x
    cases x <;> rfl
  rw [blockCells, lengths, size, ← lengths, blockCells]

theorem allocArray_inBlock {callocOk : Bool} {d : Driver} {det : Nat} (roomy : Roomy callocOk d)
    (h : d.InBlock det) : (d.allocArray callocOk).1.InBlock det := by
  have values : (d.allocArray callocOk).1.det = d.det := by
    rw [(allocArray_relaid callocOk d).eq]
  have outcome := allocArray_reallocated callocOk d
  generalize d.allocArray callocOk = r at outcome values ⊢
  cases outcome with
  | down flag => exact h
  | replaced due layable calloc =>
    refine h.mono (congrFun values det) ?_ (roomy.range due)
    have length : d.layOut.blockCells = d.bufferCells.toNat := by simp [blockCells, layOut, published]
    rw [length]
    exact roomy.cells due layable
  | refused due flag data size range =>
    refine h.mono (congrFun values det) ?_ ?_
    · rw [blockCells, blockCells, data]
    · rw [range]
      exact roomy.range due
  | lost loses => exact absurd loses roomy.kept

theorem tally_cells {d d' : Driver} {v : Pending} (h : d.tally v = some d') : d'.blockCells = d.blockCells := by
  unfold tally at h
  split at h
  · cases h
    rfl
  · obtain ⟨d₁, integrated, rfl⟩ := Option.map_eq_some_iff.1 h
    obtain ⟨s, loop, rfl⟩ := Option.map_eq_some_iff.1 integrated
    have length : s.pData.length = d.blockCells := integrateEvents_length loop
    cases data : d.pData with
    | none => simp [blockCells, data]
    | some b =>
      rw [← length]
      simp [blockCells]

/-- The second stage leaves the snapshots, and the length of the block. -/
theorem integrationStep_inBlock {d : Driver} {v : Pending} {r : Driver × Outcome} {det : Nat}
    (h : d.InBlock det) (hr : d.integrationStep v = some r) : r.1.InBlock det := by
  obtain ⟨d', tallied, rfl⟩ := Option.map_eq_some_iff.1 hr
  have published := publish_published d' v
  have counted := tally_eq tallied
  refine h.mono ?_ ?_ ?_
  · rw [published.eq]
    show d'.det det = _
    rw [counted]
  · rw [published.eq]
    exact (tally_cells tallied).ge
  · rw [published.eq]
    show d'.tofMax ≤ _
    rw [counted]
    exact UInt32.le_refl _

end Driver

end ADnED
