import ADnED.Driver.Bins
import ADnED.Driver.Spectrum

/-!
# The cells of an event

Which cells an event is counted in, for every setting of its detector: pixels looked up
in a map or not, times of flight transformed or not, an X/Y plot, one of the three binned
plots or the TOF ROI filter, and the pixel ROI of the spectrum. `cellsOf` says it in
numbers that do not wrap. For settings that keep the arithmetic of the code inside its
words (`Wired`) the turn of the loop increments exactly these cells
(`integrateDet_cells`), and a packet leaves in each cell what was there and its number of
events (`packet_cells`).
-/

namespace ADnED

/-- A cell of one of the two plots of a detector. -/
structure Cell where
  det : Nat
  plot : Plot
  index : Nat
  deriving DecidableEq, Repr

namespace Driver

/-- The pixel map that the events of `det` are looked up in. -/
def mapInUse (d : Driver) (det : Nat) : Option (List UInt32) :=
  if d.int det .pixelMapEnable ≠ 0 ∧ 0 < d.pixelMapSize det then d.pixelMap det else none

/-- The pixel index of an event in its detector. -/
def pixelIndex (d : Driver) (det : Nat) (pixel : UInt32) : Nat :=
  let offset := pixel.toNat - (d.int det .pixelNumStart).toInt.toNat
  (d.mapInUse det).elim offset fun m => (m.getD offset 0).toNat

/-- The bin of a time of flight in a row. -/
def binIndex (d : Driver) (det : Nat) (q : ℚ) : Nat := (q / (d.tofMax.toNat / d.rowBins det : Nat)).floor.toNat

/-- The cell of a binned plot. The last cell of the region is never used. -/
def binCell (d : Driver) (det m : Nat) : Dbl → Option Nat
  | .fin q =>
    if 0 ≤ q ∧ q ≤ d.tofMax.toNat ∧ d.rowOf det m * d.rowBins det + d.binIndex det q + 1 < d.numCells det .pixels then
      some (d.rowOf det m * d.rowBins det + d.binIndex det q)
    else none
  | .nonfin => none

/-- The cell of the 2-D plot for the pixel `m` at the time of flight `x`. -/
def pixelCell (d : Driver) (det m : Nat) (x : Dbl) : Option Nat :=
  if d.int det .tofROIEnable ≠ 0 then
    if x.inWindow (d.int det .tofROIStart).toInt
        ((d.int det .tofROIStart).toInt + (d.int det .tofROISize).toInt : Int) then some m
    else none
  else if d.int det .twoDType = 0 then some m
  else d.binCell det m x

/-- The cell of the spectrum for the pixel `m` at the time of flight `x`. -/
def spectrumCell (d : Driver) (det m : Nat) : Dbl → Option Nat
  | .fin q => if 0 ≤ q ∧ q ≤ d.tofMax.toNat ∧ d.PassesROI det m then some q.floor.toNat else none
  | .nonfin => none

/-- The cell of one of the plots. -/
def plotCell (d : Driver) (det m : Nat) (x : Dbl) : Plot → Option Nat
  | .pixels => d.pixelCell det m x
  | .spectrum => d.spectrumCell det m x

/-- The cells of one of the plots of `det` for the pixel `m` at the time of flight `x`: one or none. -/
def plotCells (d : Driver) (det m : Nat) (x : Dbl) (plot : Plot) : List Cell :=
  (d.plotCell det m x plot).toList.map fun k => ⟨det, plot, k⟩

/-- The cells of `det` that an event is counted in. -/
def cellsOf (d : Driver) (det : Nat) (e : UInt32 × UInt32) : List Cell :=
  if d.Sees det e.1 then
    (d.config.eventTOF det e.1 e.2).elim [] fun x =>
      d.plotCells det (d.pixelIndex det e.1) x .pixels ++ d.plotCells det (d.pixelIndex det e.1) x .spectrum
  else []

/-- The cells that a list of events is counted in, by the detectors in use. -/
def cellsHit (d : Driver) (events : List (UInt32 × UInt32)) : List Cell :=
  (turns d.active events).flatMap fun t => d.cellsOf t.1 t.2

/-- The cell is one of the layout. -/
def LaysOut (d : Driver) (c : Cell) : Prop := 1 ≤ c.det ∧ c.det ≤ d.numDets ∧ c.index < d.numCells c.det c.plot

/-- The place of a cell in `p_Data`. -/
def place (d : Driver) (c : Cell) : Nat := d.firstCell c.det c.plot + c.index

/-- The increment of a cell. -/
def bumpOf (d : Driver) (c : Cell) : Bump := ⟨c.det, c.plot, d.place c⟩

/-- The cells of a binned plot can be computed: there is a TOF range, there are rows, and no
cell exceeds an `int`. -/
@[mk_iff]
structure BinsWired (d : Driver) (det : Nat) : Prop where
  binned : d.Binned det
  range : 1 ≤ d.tofMax.toNat
  columns : d.int det .twoDType ≠ 3 → 0 < (d.int det .pixelSizeX).toInt
  cells : ∀ m < d.numCells det .pixels, d.rowOf det m * d.rowBins det + d.tofMax.toNat < 2 ^ 31

/-- The settings of a detector keep the arithmetic of the code in its words: its range begins
at 0 or later, every pixel ID of the range has an index below the size, the ends of the ROIs
that are in use are `int`s, and the plot is one of the four. -/
@[mk_iff]
structure Wired (d : Driver) (det : Nat) : Prop where
  start : 0 ≤ (d.int det .pixelNumStart).toInt
  range : (d.int det .pixelNumEnd).toInt - (d.int det .pixelNumStart).toInt <
    (d.mapInUse det).elim (d.numCells det .pixels) List.length
  entries : ∀ x ∈ (d.mapInUse det).getD [], x.toNat < d.numCells det .pixels
  window : d.int det .tofROIEnable ≠ 0 →
    Word32.IsInt32 ((d.int det .tofROIStart).toInt + (d.int det .tofROISize).toInt)
  roi : d.int det .pixelROIEnable ≠ 0 → d.int det .pixelMapEnable ≠ 0 → d.ROIFits det
  plot : d.int det .tofROIEnable = 0 → d.int det .twoDType ≠ 0 → d.BinsWired det

/-! The conditions can be evaluated. -/

instance (d : Driver) (det : Nat) : Decidable (d.BinsWired det) :=
  haveI : Decidable (d.Binned det) := inferInstanceAs (Decidable (_ ∨ _ ∨ _))
  decidable_of_iff _ (binsWired_iff d det).symm

instance (d : Driver) (det : Nat) : Decidable (d.ROIFits det) :=
  decidable_of_iff (0 < (d.int det .pixelSizeX).toInt ∧
      Word32.IsInt32 ((d.int det .pixelROIStartX).toInt + (d.int det .pixelROISizeX).toInt) ∧
      Word32.IsInt32 ((d.int det .pixelROIStartY).toInt + (d.int det .pixelROISizeY).toInt) ∧
      Word32.IsInt32 ((d.int det .pixelROIStartY).toInt * (d.int det .pixelSizeX).toInt) ∧
      Word32.IsInt32 (((d.int det .pixelROIStartY).toInt + (d.int det .pixelROISizeY).toInt) *
        (d.int det .pixelSizeX).toInt))
    ⟨fun h => ⟨h.1, h.2.1, h.2.2.1, h.2.2.2.1, h.2.2.2.2⟩,
      fun h => ⟨h.width, h.columns, h.rows, h.firstRow, h.lastRow⟩⟩

instance (d : Driver) (det : Nat) : Decidable (d.Wired det) :=
  haveI : Decidable (∀ x ∈ (d.mapInUse det).getD [], x.toNat < d.numCells det .pixels) := List.decidableBAll _ _
  decidable_of_iff _ (wired_iff d det).symm

theorem within_fin {q hi : ℚ} : (Dbl.fin q).within 0 hi = true ↔ 0 ≤ q ∧ q ≤ hi := by
  rw [Dbl.within, Bool.and_eq_true, decide_eq_true_iff, decide_eq_true_iff]

theorem toNat_floorUInt32 {q : ℚ} {n : Nat} (nonneg : 0 ≤ q) (le : q ≤ n) (small : n < 4294967296) :
    (Dbl.fin q).floorUInt32.toNat = q.floor.toNat := by
  have bounds := floor_bounds nonneg le
  rw [Dbl.floorUInt32, floor_eq, UInt32.toNat_ofNat']
  omega

section Turn

variable {d : Driver} {det : Nat} (h : d.Placed) (lo : 1 ≤ det) (hi : det ≤ d.numDets)

/-- The lookup of the code, for the map in use. -/
theorem mapPixel_inUse (pixel : UInt32) :
    d.config.mapPixel det pixel = (d.mapInUse det).elim (some (d.config.pixelOffset det pixel).toInt32)
      fun m => m[(d.config.pixelOffset det pixel).toNat]?.map UInt32.toInt32 := by
  have enabled : (d.config.det det).pixelMappingEnabled = d.int det .pixelMapEnable := rfl
  have size : d.config.pixelMapSize det = d.pixelMapSize det := rfl
  have map : d.config.pixelMap det = d.pixelMap det := rfl
  simp only [mapPixel, mapInUse, enabled, size, map]
  split
  · cases d.pixelMap det <;> rfl
  · rfl

include h lo hi

/-- The pixel index of an event that the detector sees is below its size. -/
theorem mapPixel_wired (wired : d.Wired det) {pixel : UInt32} (sees : d.Sees det pixel) :
    ∃ m, d.config.mapPixel det pixel = some m ∧ m.toInt = d.pixelIndex det pixel ∧
      d.pixelIndex det pixel < d.numCells det .pixels := by
  obtain ⟨above, below⟩ := sees
  have start := wired.start
  have range := wired.range
  have entries := wired.entries
  have region := d.region_in_buffer lo hi .pixels
  have total := h.total
  have offset : (d.config.pixelOffset det pixel).toNat =
      pixel.toNat - (d.int det .pixelNumStart).toInt.toNat := by
    have first := Word32.toNat_toUInt32_of_nonneg start
    change (pixel - (d.int det .pixelNumStart).toUInt32).toNat = _
    rw [UInt32.toNat_sub_of_le _ _ (UInt32.le_iff_toNat_le.2 (by omega)), first]
  rw [mapPixel_inUse]
  unfold pixelIndex
  cases inUse : d.mapInUse det with
  | none =>
    rw [inUse, Option.elim_none] at range
    simp only [Option.elim_none]
    refine ⟨_, rfl, ?_, by omega⟩
    rw [Word32.toInt_toInt32_of_lt (by omega), offset]
  | some m =>
    rw [inUse] at range entries
    simp only [Option.elim_some, Option.getD_some] at range entries ⊢
    have inside : (d.config.pixelOffset det pixel).toNat < m.length := by omega
    have entry := entries _ (List.getElem_mem inside)
    rw [← offset, List.getElem?_eq_getElem inside, List.getD_eq_getElem?_getD, List.getElem?_eq_getElem inside]
    refine ⟨_, rfl, ?_, entry⟩
    exact Word32.toInt_toInt32_of_lt (by omega)

variable {m : Nat} {mapped : Int32} (value : mapped.toInt = m) (below : m < d.numCells det .pixels)
include value below

/-- The increment at a pixel index. -/
theorem pixel_bump :
    (⟨det, .pixels, ((d.config.det det).ndArrayStart + mapped).toInt⟩ : Bump) = d.bumpOf ⟨det, .pixels, m⟩ := by
  have cell := pixel_cell h lo hi (m := mapped) (by omega) (by omega)
  have index : ((d.config.det det).ndArrayStart + mapped).toInt = (d.firstCell det .pixels + m : Nat) := by
    change (d.int det .ndArrayStart + mapped).toInt = _
    omega
  rw [index]
  rfl

omit lo hi in
/-- A binned plot, at a time of flight in the range. -/
theorem binnedIndex_cell (wired : d.BinsWired det) {q : ℚ} (nonneg : 0 ≤ q) (le : q ≤ d.tofMax.toNat)
    (v : LoopVars) :
    ∃ v', d.config.binnedIndex det (d.config.load det (.fin q) mapped v) = some v' ∧
      v'.tofIndex.toInt = (d.rowOf det m * d.rowBins det + d.binIndex det q : Nat) := by
  obtain ⟨bin, hbin, hvalue⟩ := tofBin_fin (d.int det .tofNumBins) h.tofMax_lt wired.range nonneg le
  obtain ⟨v', index, cell⟩ := @binnedIndex_of_bin d.config det (.fin q) mapped bin _ wired.binned h.tofMax_lt
    wired.columns (by omega) hbin hvalue v
  have bounds := wired.cells m below
  have late : d.binIndex det q ≤ d.tofMax.toNat := by
    have last := (floor_div_bounds (d.tofMax.toNat / d.rowBins det) nonneg le).2
    rw [binIndex, floor_eq]
    omega
  have row : v'.tofIndex = (UInt32.ofNat (d.rowOf det m * d.rowBins det + d.binIndex det q)).toInt32 := by
    rw [cell, value, Int.toNat_natCast]
    rfl
  generalize d.rowOf det m * d.rowBins det = first at *
  refine ⟨v', index, ?_⟩
  rw [row, Word32.toInt_toInt32_of_lt] <;> rw [UInt32.toNat_ofNat'] <;> omega

/-- **The 2-D plot in one turn.** -/
theorem bumpPixels_cell (wired : d.Wired det) (x : Dbl) (v : LoopVars) :
    ∃ v', d.config.bumpPixels det (d.config.load det x mapped v) =
        some (v', (d.plotCells det m x .pixels).map d.bumpOf) ∧
      (0 ≤ v.tofIndex.toInt → 0 ≤ v'.tofIndex.toInt) := by
  have pixel := pixel_bump h lo hi value below
  have time : (d.config.load det x mapped v).tof = x := rfl
  by_cases roi : d.int det .tofROIEnable ≠ 0
  · have enabled : (d.config.det det).tofROIEnabled ≠ 0 := roi
    have stop : ((d.config.det det).tofROIStart + (d.config.det det).tofROISize).toInt =
        (d.int det .tofROIStart).toInt + (d.int det .tofROISize).toInt :=
      Word32.toInt_add (wired.window roi).1 (wired.window roi).2
    have first : (d.config.det det).tofROIStart.toInt = (d.int det .tofROIStart).toInt := rfl
    simp only [bumpPixels, if_pos enabled, plotCells, plotCell, pixelCell, if_pos roi, stop, first, time]
    split
    · exact ⟨_, congrArg (fun bump => some (_, [bump])) pixel, id⟩
    · exact ⟨_, rfl, id⟩
  have disabled : ¬ (d.config.det det).tofROIEnabled ≠ 0 := roi
  by_cases kind : d.int det .twoDType = 0
  · have xy : (d.config.load det x mapped v).plotType.toUInt32 = 0 := (Word32.toUInt32_inj (y := 0)).2 kind
    simp only [bumpPixels, if_neg disabled, if_pos xy, plotCells, plotCell, pixelCell, if_neg roi, if_pos kind]
    exact ⟨_, congrArg (fun bump => some (_, [bump])) pixel, id⟩
  have binned : ¬ (d.config.load det x mapped v).plotType.toUInt32 = 0 :=
    fun zero => kind ((Word32.toUInt32_inj (y := 0)).1 zero)
  have wired := wired.plot (not_not.1 roi) kind
  simp only [bumpPixels, if_neg disabled, if_neg binned, plotCells, plotCell, pixelCell, if_neg roi, if_neg kind, time]
  cases x with
  | nonfin => exact ⟨_, rfl, id⟩
  | fin q =>
    by_cases inside : 0 ≤ q ∧ q ≤ d.tofMax.toNat
    · have within : (Dbl.fin q).within 0 d.config.tofMax.toNat = true := within_fin.2 inside
      obtain ⟨v', index, cell⟩ := binnedIndex_cell h value below wired inside.1 inside.2 v
      have size := h.pixelNumSize lo hi
      have region := d.region_in_buffer lo hi .pixels
      have total := h.total
      have one : (1 : Int32).toInt = 1 := rfl
      have last : (d.int det .pixelNumSize - 1).toInt = d.numCells det .pixels - 1 := by
        rw [Word32.toInt_sub] <;> omega
      have fits : v'.tofIndex < (d.config.det det).size - 1 ↔
          d.rowOf det m * d.rowBins det + d.binIndex det q + 1 < d.numCells det .pixels := by
        rw [Int32.lt_iff_toInt_lt, cell]
        change _ < (d.int det .pixelNumSize - 1).toInt ↔ _
        omega
      rw [if_pos within, index, Option.map_some]
      simp only [binCell, fits, inside, true_and]
      split
      · rename_i room
        exact ⟨_, congrArg (fun bump => some (_, [bump])) (pixel_bump h lo hi cell (by omega)), fun _ => by omega⟩
      · exact ⟨_, rfl, fun _ => by omega⟩
    · have outside : ¬ (Dbl.fin q).within 0 d.config.tofMax.toNat = true := fun within => inside (within_fin.1 within)
      have none : d.binCell det m (.fin q) = none := if_neg fun all => inside ⟨all.1, all.2.1⟩
      rw [if_neg outside, none]
      exact ⟨_, rfl, id⟩

omit below in
/-- **The spectrum in one turn.** -/
theorem bumpSpectrum_cell (wired : d.Wired det) (x : Dbl) (v : LoopVars) :
    d.config.bumpSpectrum det (d.config.load det x mapped v) = (d.plotCells det m x .spectrum).map d.bumpOf := by
  have passes : d.config.passesPixelROI det mapped = true ↔ d.PassesROI det m := by
    rw [passesPixelROI_iff wired.roi (by omega), value, Int.toNat_natCast]
  simp only [bumpSpectrum, load, plotCells, plotCell, Bool.and_eq_true, passes]
  cases x with
  | nonfin => rfl
  | fin q =>
    simp only [within_fin, spectrumCell, and_assoc]
    change (if 0 ≤ q ∧ q ≤ d.tofMax.toNat ∧ d.PassesROI det m then _ else _) = _
    split
    · rename_i inside
      have range := h.tofMax_lt
      have whole := toNat_floorUInt32 inside.1 inside.2.1 (by omega)
      have cell := spectrum_cell h lo hi (t := (Dbl.fin q).floorUInt32) (by
        have last := (floor_bounds inside.1 inside.2.1).2
        rw [UInt32.le_iff_toNat_le, whole, floor_eq]
        omega)
      rw [whole] at cell
      exact congrArg (fun i : Nat => [(⟨det, .spectrum, i⟩ : Bump)]) cell
    · rfl

omit value below

/-- The time of flight of an event that the detector sees can be computed: no table is read
past its end. -/
def Timed (d : Driver) (det : Nat) (e : UInt32 × UInt32) : Prop :=
  d.Sees det e.1 → (d.config.eventTOF det e.1 e.2).isSome = true

/-- **One turn** increments the cells of the event. -/
theorem integrateDet_cells (wired : d.Wired det) {e : UInt32 × UInt32} (timed : d.Timed det e) (v : LoopVars) :
    ∃ v', d.config.integrateDet det e.1 e.2 v = some (v', (d.cellsOf det e).map d.bumpOf) ∧
      (0 ≤ v.tofIndex.toInt → 0 ≤ v'.tofIndex.toInt) := by
  have seen := inDet_iff_sees_of_nonneg h lo hi wired.start e.1
  by_cases sees : d.Sees det e.1
  · obtain ⟨x, time⟩ := Option.isSome_iff_exists.1 (timed sees)
    obtain ⟨mapped, lookup, value, below⟩ := mapPixel_wired h lo hi wired sees
    obtain ⟨v', plotted, nonneg⟩ := bumpPixels_cell h lo hi value below wired x v
    rw [integrateDet_eq (seen.2 sees), time, Option.bind_some, lookup, Option.bind_some, plotted, Option.map_some,
      bumpSpectrum_cell h lo hi value wired, cellsOf, if_pos sees, time, Option.elim_some, List.map_append]
    exact ⟨v', rfl, nonneg⟩
  · have outside : d.config.inDet det e.1 = false := by
      rw [← Bool.not_eq_true, seen]
      exact sees
    rw [integrateDet_outside outside, cellsOf, if_neg sees]
    exact ⟨v, rfl, id⟩

omit lo hi in
/-- The cell of a pixel index below the size is one of the plot. -/
theorem plotCell_lt {m k : Nat} {x : Dbl} {plot : Plot} (below : m < d.numCells det .pixels)
    (cell : d.plotCell det m x plot = some k) : k < d.numCells det plot := by
  cases plot with
  | pixels =>
    simp only [plotCell, pixelCell] at cell
    split_ifs at cell
    · cases cell
      exact below
    · cases cell
      exact below
    · cases x with
      | nonfin => cases cell
      | fin q =>
        simp only [binCell] at cell
        split_ifs at cell with inside
        cases cell
        omega
  | spectrum =>
    cases x with
    | nonfin => cases cell
    | fin q =>
      simp only [plotCell, spectrumCell] at cell
      split_ifs at cell with inside
      cases cell
      have last := (floor_bounds inside.1 inside.2.1).2
      have cells : d.tofMax.toNat + 1 = d.numCells det .spectrum := h.tofMax_eq
      rw [floor_eq]
      omega

/-- The cells of an event are cells of the layout. -/
theorem mem_cellsOf (wired : d.Wired det) {e : UInt32 × UInt32} {c : Cell} (mem : c ∈ d.cellsOf det e) :
    d.LaysOut c := by
  unfold cellsOf at mem
  split at mem
  · rename_i sees
    obtain ⟨-, -, -, below⟩ := mapPixel_wired h lo hi wired sees
    cases time : d.config.eventTOF det e.1 e.2 with
    | none =>
      rw [time] at mem
      cases mem
    | some x =>
      rw [time, Option.elim_some, List.mem_append] at mem
      have own : ∀ plot, c ∈ d.plotCells det (d.pixelIndex det e.1) x plot → d.LaysOut c := by
        intro plot mem
        obtain ⟨k, cell, rfl⟩ := List.mem_map.1 mem
        exact ⟨lo, hi, plotCell_lt h below (Option.mem_toList.1 cell)⟩
      exact mem.elim (own _) (own _)
  · cases mem

/-- A detector that is wired stays in its plots, transformed or not. -/
theorem Wired.staysHome (wired : d.Wired det) {e : UInt32 × UInt32} (timed : d.Timed det e) : d.StaysHome det e := by
  intro v hv
  obtain ⟨v', turn, nonneg⟩ := integrateDet_cells h lo hi wired timed v
  refine ⟨_, turn, nonneg hv, fun bump mem => ?_⟩
  obtain ⟨c, listed, rfl⟩ := List.mem_map.1 mem
  obtain ⟨-, -, below⟩ := mem_cellsOf h lo hi wired listed
  constructor
  · exact Int.ofNat_le.2 (Nat.le_add_right _ _)
  · exact Int.ofNat_lt.2 (Nat.add_lt_add_left below _)

end Turn

/-- The detectors in use are wired, and the times of flight of the events can be computed. -/
def Routes (d : Driver) (events : List (UInt32 × UInt32)) : Prop :=
  ∀ det, 1 ≤ det → det ≤ d.numDets → d.Wired det ∧ ∀ e ∈ events, d.Timed det e

instance (d : Driver) (det : Nat) (e : UInt32 × UInt32) : Decidable (d.Timed det e) :=
  inferInstanceAs (Decidable (_ → _))

/-- The check of `Routes`. -/
def routesCheck (d : Driver) (events : List (UInt32 × UInt32)) : Bool :=
  (dets (d.int 0 .numDet)).all fun det => decide (d.Wired det) && events.all fun e => decide (d.Timed det e)

theorem routes_of_check {d : Driver} {events : List (UInt32 × UInt32)} (h : d.routesCheck events = true) :
    d.Routes events := by
  intro det lo hi
  rw [routesCheck, List.all_eq_true] at h
  obtain ⟨wired, timed⟩ := Bool.and_eq_true_iff.1 (h det (mem_dets.2 ⟨lo, hi⟩))
  rw [List.all_eq_true] at timed
  exact ⟨of_decide_eq_true wired, fun e mem => of_decide_eq_true (timed e mem)⟩

section Packet

variable {d : Driver} (h : d.Placed)
include h

/-- A list of turns increments the cells of each of them. -/
theorem trace_cells {ts : List Turn}
    (turn : ∀ t ∈ ts, 1 ≤ t.1 ∧ t.1 ≤ d.numDets ∧ d.Wired t.1 ∧ d.Timed t.1 t.2) (v : LoopVars) :
    ∃ v', d.config.trace ts v = some (v', (ts.flatMap fun t => d.cellsOf t.1 t.2).map d.bumpOf) := by
  induction ts generalizing v with
  | nil => exact ⟨v, rfl⟩
  | cons t ts ih =>
    obtain ⟨⟨lo, hi, wired, timed⟩, later⟩ := List.forall_mem_cons.1 turn
    obtain ⟨v', first, -⟩ := integrateDet_cells h lo hi wired timed v
    obtain ⟨v'', rest⟩ := ih later v'
    refine ⟨v'', ?_⟩
    rw [trace, first, Option.bind_some, rest, Option.map_some, List.flatMap_cons, List.map_append]

/-- The increments of a packet are those of the cells of its events. -/
theorem bumps_cells {events : List (UInt32 × UInt32)} (routes : d.Routes events) :
    d.config.bumps d.active events = some ((d.cellsHit events).map d.bumpOf) := by
  have turn : ∀ t ∈ turns d.active events, 1 ≤ t.1 ∧ t.1 ≤ d.numDets ∧ d.Wired t.1 ∧ d.Timed t.1 t.2 := by
    intro t mem
    obtain ⟨det, event⟩ := mem_turns.1 mem
    obtain ⟨lo, hi⟩ := (mem_active h).1 det
    exact ⟨lo, hi, (routes t.1 lo hi).1, (routes t.1 lo hi).2 t.2 event⟩
  obtain ⟨v, traced⟩ := trace_cells h turn .zero
  rw [bumps, traced]
  rfl

/-- The cells that are hit are cells of the layout. -/
theorem mem_cellsHit {events : List (UInt32 × UInt32)} (routes : d.Routes events) {c : Cell}
    (mem : c ∈ d.cellsHit events) : d.LaysOut c := by
  obtain ⟨t, turn, mem⟩ := List.mem_flatMap.1 mem
  obtain ⟨lo, hi⟩ := (mem_active h).1 (mem_turns.1 turn).1
  exact mem_cellsOf h lo hi (routes t.1 lo hi).1 mem

omit h in
theorem bumpOf_injective : Function.Injective d.bumpOf := by
  rintro ⟨det, plot, k⟩ ⟨det', plot', k'⟩ same
  simp only [bumpOf, place, Bump.mk.injEq] at same
  obtain ⟨rfl, rfl, same⟩ := same
  rw [show k = k' by omega]

omit h in
/-- A cell of the layout is in its plot. -/
theorem LaysOut.inPlot {c : Cell} (laysOut : d.LaysOut c) : d.InPlot c.det c.plot (d.place c) := by
  have below := laysOut.2.2
  unfold place
  constructor <;> omega

/-- **The increments of a packet** are made, and each cell of the layout is incremented once
for each time it is hit. -/
theorem bumpAll_cells {events : List (UInt32 × UInt32)} (routes : d.Routes events) {b : List UInt32}
    (length : b.length = d.totalCells) :
    ∃ b', Tally.bumpAll (((d.cellsHit events).map d.bumpOf).map Bump.index) b = some b' ∧
      ∀ c, d.LaysOut c → b'[d.place c]? = b[d.place c]?.map (· + UInt32.ofNat ((d.cellsHit events).count c)) := by
  have own : ∀ bump ∈ (d.cellsHit events).map d.bumpOf,
      1 ≤ bump.det ∧ bump.det ≤ d.numDets ∧ d.InPlot bump.det bump.plot bump.index := by
    intro bump mem
    obtain ⟨c, hit, rfl⟩ := List.mem_map.1 mem
    have laysOut := mem_cellsHit h routes hit
    exact ⟨laysOut.1, laysOut.2.1, laysOut.inPlot⟩
  obtain ⟨b', bumped⟩ := bumpAll_of_inPlot length own
  refine ⟨b', bumped, fun c laysOut => ?_⟩
  have same : d.bumpOf c = ⟨c.det, c.plot, d.place c⟩ := rfl
  rw [Tally.bumpAll_cell bumped, count_index laysOut.1 laysOut.2.1 laysOut.inPlot own, ← same,
    List.count_map_of_injective _ _ bumpOf_injective]

/-- **An accepted packet** is handled, and adds to each cell of the layout the number of times
that the cell is hit. -/
theorem packet_cells {p : Packet} (accepted : d.Accepted p) (routes : d.Routes p.events) {b : List UInt32}
    (data : d.pData = some b) :
    ∃ d' b', d.deliver p = some d' ∧ d'.pData = some b' ∧
      ∀ c, d.LaysOut c → b'[d.place c]? = b[d.place c]?.map (· + UInt32.ofNat ((d.cellsHit p.events).count c)) := by
  obtain ⟨c, held, length⟩ := h.buffer_length
  obtain rfl : c = b := Option.some.inj (held.symm.trans data)
  obtain ⟨b', bumped, cells⟩ := bumpAll_cells h routes length
  have result := deliver_accepted accepted data
  rw [bumps_cells h routes, Option.bind_some, bumped, Option.map_some, Option.map_eq_some_iff] at result
  obtain ⟨d', delivered, same⟩ := result
  exact ⟨d', b', delivered, congrArg Prod.fst same, cells⟩

end Packet

end Driver

end ADnED
