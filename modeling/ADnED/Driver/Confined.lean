import ADnED.Driver.Turns
import Mathlib.Tactic.IntervalCases

/-!
# Increments stay in their regions

`Confined d p`: `eventHandler` is defined on the packet `p`, and every increment it
makes for a detector stays in the region that is published for it. The size of a
region is compared with the pixel ID only on the way through the binned plots, and
there against a cell that has been reduced to 32 bits, so this needs a condition on
the events: `Fits`. `turn_confined_iff` has it for one event and one detector,
`trace_confined_iff` for all turns of a packet.
-/

namespace ADnED

namespace Driver

/-- The increments that `eventHandler` makes for a packet. -/
def increments (d : Driver) (p : Packet) : Option (List Bump) :=
  if d.verdict p = .integrated then d.config.bumps d.active p.events else some []

/-- The increment stays in the region published for its detector and its plot. -/
def InOwnRegion (d : Driver) (bump : Bump) : Prop :=
  match bump.plot with
  | .pixels =>
    (d.int bump.det .ndArrayStart).toInt ≤ bump.index ∧
      bump.index < (d.int bump.det .ndArrayStart).toInt + (d.int bump.det .ndArraySize).toInt
  | .spectrum =>
    (d.int bump.det .ndArrayTOFStart).toInt ≤ bump.index ∧ bump.index ≤ (d.int bump.det .ndArrayTOFEnd).toInt

/-- `eventHandler` is defined on the packet, its increments are all that it does to
`p_Data`, and each of them stays in its own region. -/
def Confined (d : Driver) (p : Packet) : Prop :=
  ∃ bs d' o, d.increments p = some bs ∧ (∀ bump ∈ bs, d.InOwnRegion bump) ∧
    d.eventHandler p = some (d', o) ∧ d'.pData = d.pData.bind (Tally.bumpAll (bs.map Bump.index))

/-- A detector without pixel mapping and without TOF transformation. -/
structure Unmapped (d : Driver) (det : Nat) : Prop where
  plotType : d.int det .twoDType = 0 ∨ d.Binned det
  sizeX : 1 ≤ (d.int det .pixelSizeX).toInt
  mapping : d.int det .pixelMapEnable = 0
  transformation : d.int det .tofTransType = 0

/-- An event in the range of `det` has a cell in its 2-D plot, if it is plotted: its
pixel is below the size, or its bin has a cell that does not become negative in 32
bits. -/
structure Fits (d : Driver) (det : Nat) (e : UInt32 × UInt32) : Prop where
  pixel : d.config.PlotsPixel det e.2 →
    ((d.config.pixelOffset det e.1).toNat : Int) < (d.int det .ndArraySize).toInt
  bin : d.config.PlotsBin det e.2 →
    1 ≤ d.tofMax.toNat ∧
      d.config.binnedCell det (d.config.pixelOffset det e.1).toNat e.2.toNat % 2 ^ 32 < 2 ^ 31

theorem mem_active {d : Driver} {det : Nat} (h : d.Placed) :
    det ∈ d.active ↔ 1 ≤ det ∧ det ≤ d.numDets := by
  have four := h.numDets_le
  have clamped : d.numDetClamped = d.int 0 .numDet := by
    rw [numDetClamped, if_neg]
    rw [numDets] at four
    omega
  rw [active, clamped, mem_dets]
  rfl

/-- Increments that are confined anyway make no difference. -/
theorem exists_append_confined {d : Driver} {x : Option (LoopVars × List Bump)} {bs : List Bump}
    (hbs : ∀ bump ∈ bs, d.InPlot bump.det bump.plot bump.index) :
    (∃ r, x.map (fun r => (r.1, r.2 ++ bs)) = some r ∧ ∀ bump ∈ r.2, d.InPlot bump.det bump.plot bump.index) ↔
      ∃ r, x = some r ∧ ∀ bump ∈ r.2, d.InPlot bump.det bump.plot bump.index := by
  cases x with
  | none => simp
  | some r =>
    simp only [Option.map_some, Option.some.injEq, exists_eq_left', List.forall_mem_append]
    exact and_iff_left hbs

section Turn

variable {d : Driver} {det : Nat} (h : d.Placed) (lo : 1 ≤ det) (hi : det ≤ d.numDets)
include h lo hi

/-- The published regions are those of the layout. -/
theorem inOwnRegion_iff {plot : Plot} {i : Int} : d.InOwnRegion ⟨det, plot, i⟩ ↔ d.InPlot det plot i := by
  have last := h.ndArrayTOFEnd lo hi
  cases plot with
  | pixels =>
    simp only [InOwnRegion, InPlot, h.ndArrayStart lo hi, h.ndArraySize lo hi]
    omega
  | spectrum =>
    simp only [InOwnRegion, InPlot, h.ndArrayTOFStart lo hi]
    omega

/-- The offset of a pixel in range is not negative as an `int`, and the region is not
empty. -/
theorem offset_bounds {pixel : UInt32} (inside : d.config.inDet det pixel = true) :
    (d.config.pixelOffset det pixel).toNat < 2147483648 ∧ 1 ≤ d.numCells det .pixels := by
  have ordered : (d.int det .pixelNumStart).toInt ≤ (d.int det .pixelNumEnd).toInt :=
    Int32.le_iff_toInt_le.1 (h.layable.ordered det (by omega) (by omega))
  have first := Word32.toNat_toUInt32 (d.int det .pixelNumStart)
  have last := Word32.toNat_toUInt32 (d.int det .pixelNumEnd)
  have bounds := Word32.toInt_bounds (d.int det .pixelNumStart)
  have bounds' := Word32.toInt_bounds (d.int det .pixelNumEnd)
  obtain ⟨above, below⟩ : (d.int det .pixelNumStart).toUInt32 ≤ pixel ∧
      pixel ≤ (d.int det .pixelNumEnd).toUInt32 := inDet_iff.1 inside
  rw [UInt32.le_iff_toNat_le] at above below
  constructor
  · change (pixel - (d.int det .pixelNumStart).toUInt32).toNat < _
    rw [UInt32.toNat_sub_of_le _ _ (UInt32.le_iff_toNat_le.2 above)]
    omega
  · have size := h.pixelNumSize lo hi
    by_contra empty
    have zero : d.int det .pixelNumSize = 0 := by
      apply Int32.toInt_inj.1
      rw [size]
      have : (0 : Int32).toInt = 0 := rfl
      omega
    have value : d.int det .pixelNumSize = d.detSize det := h.int_of_value lo hi rfl
    rw [detSize, if_pos zero, zero] at value
    have range : (d.int det .pixelNumEnd - d.int det .pixelNumStart).toInt =
        (d.int det .pixelNumEnd).toInt - (d.int det .pixelNumStart).toInt := by
      apply Word32.toInt_sub <;> omega
    have one : (1 : Int32).toInt = 1 := rfl
    have sum := Word32.toInt_add_cases (x := d.int det .pixelNumEnd - d.int det .pixelNumStart) (by omega) 1
    rw [← value] at sum
    have : (0 : Int32).toInt = 0 := rfl
    omega

/-- The spectrum never leaves its region. -/
theorem spectrum_confined (mapped : Int32) (t : UInt32) (v : LoopVars) :
    ∀ bump ∈ d.config.bumpSpectrum det (d.config.load det (.fin t.toNat) mapped v),
      d.InPlot bump.det bump.plot bump.index := by
  intro bump mem
  rw [bumpSpectrum_eq] at mem
  split at mem
  · rename_i passes
    obtain rfl := List.mem_singleton.1 mem
    exact spectrum_inPlot h lo hi passes.1
  · cases mem

/-- The test of the binned plots against the size keeps a cell in the region unless it
is negative. -/
theorem bin_inPlot_iff (some_cell : 1 ≤ d.numCells det .pixels) (k : Int32) :
    (∀ bump ∈ (if k < d.int det .pixelNumSize - 1 then
        [(⟨det, .pixels, (d.int det .ndArrayStart + k).toInt⟩ : Bump)] else []),
      d.InPlot bump.det bump.plot bump.index) ↔ 0 ≤ k.toInt := by
  have size := h.pixelNumSize lo hi
  have region := d.region_in_buffer lo hi .pixels
  have total := h.total
  have one : (1 : Int32).toInt = 1 := rfl
  have last : (d.int det .pixelNumSize - 1).toInt = d.numCells det .pixels - 1 := by
    rw [Word32.toInt_sub] <;> omega
  have plotted := pixel_inPlot_iff h lo hi k
  split
  · rename_i below
    rw [Int32.lt_iff_toInt_lt, last] at below
    rw [List.forall_mem_singleton, plotted]
    omega
  · rename_i above
    rw [Int32.lt_iff_toInt_lt, last] at above
    simp only [List.not_mem_nil, false_imp_iff, implies_true, true_iff]
    omega

/-- A binned plot is defined and stays in its region exactly if there is a TOF range
and the cell is not negative. -/
theorem bin_confined_iff (unmapped : d.Unmapped det) (some_cell : 1 ≤ d.numCells det .pixels) {mapped : Int32}
    {t : UInt32} (nonneg : 0 ≤ mapped.toInt) (bin : d.config.PlotsBin det t) (v : LoopVars) :
    (∃ r, d.config.bumpPixels det (d.config.load det (.fin t.toNat) mapped v) = some r ∧
        ∀ bump ∈ r.2, d.InPlot bump.det bump.plot bump.index) ↔
      1 ≤ d.tofMax.toNat ∧ d.config.binnedCell det mapped.toInt.toNat t.toNat % 2 ^ 32 < 2 ^ 31 := by
  have binned : d.config.Binned det := unmapped.plotType.resolve_left bin.2.1
  rw [bumpPixels_bin _ _ _ bin]
  by_cases some_tof : 1 ≤ d.tofMax.toNat
  · obtain ⟨v', index, cell⟩ := binnedIndex_eq binned h.tofMax_lt some_tof
      (fun _ => unmapped.sizeX) nonneg bin.2.2 v
    have sign := Word32.toInt_ofNat_nonneg (d.config.binnedCell det mapped.toInt.toNat t.toNat)
    rw [← cell] at sign
    have plotted := bin_inPlot_iff h lo hi some_cell v'.tofIndex
    rw [index]
    simp only [Option.map_some, Option.some.injEq, exists_eq_left', apply_ite Prod.snd]
    rw [and_iff_right some_tof]
    exact plotted.trans sign
  · have no_tof : d.config.tofMax = 0 := by
      apply UInt32.toNat_inj.1
      change d.tofMax.toNat = 0
      omega
    rw [binnedIndex_eq_none binned no_tof]
    simp [some_tof]

/-- **One turn.** It is defined and stays in the regions of its detector exactly if the
event fits. -/
theorem turn_confined_iff (unmapped : d.Unmapped det) (e : UInt32 × UInt32) (v : LoopVars) :
    (∃ r, d.config.integrateDet det e.1 e.2 v = some r ∧ ∀ bump ∈ r.2, d.InPlot bump.det bump.plot bump.index) ↔
      (d.config.inDet det e.1 = true → d.Fits det e) := by
  by_cases inside : d.config.inDet det e.1 = true
  · obtain ⟨small, some_cell⟩ := offset_bounds h lo hi inside
    have mapped : d.config.mapPixel det e.1 = some (d.config.pixelOffset det e.1).toInt32 := by
      simp [mapPixel, config, readDet, unmapped.mapping]
    have offset := Word32.toInt_toInt32_of_lt small
    have spectrum := spectrum_confined h lo hi (d.config.pixelOffset det e.1).toInt32 e.2 v
    rw [integrateDet_plain inside unmapped.transformation mapped, exists_append_confined spectrum]
    rw [forall_prop_of_true inside]
    by_cases pixel : d.config.PlotsPixel det e.2
    · rw [bumpPixels_pixel _ _ _ pixel]
      have plotted : d.InPlot det .pixels (d.int det .ndArrayStart + (d.config.pixelOffset det e.1).toInt32).toInt ↔
          ((d.config.pixelOffset det e.1).toNat : Int) < (d.int det .ndArraySize).toInt := by
        rw [pixel_inPlot_iff h lo hi, offset, h.ndArraySize lo hi]
        omega
      simp only [Option.some.injEq, exists_eq_left', List.forall_mem_singleton]
      constructor
      · intro own
        exact ⟨fun _ => plotted.1 own, fun bin => absurd bin pixel.not_plotsBin⟩
      · intro fits
        exact plotted.2 (fits.pixel pixel)
    · by_cases bin : d.config.PlotsBin det e.2
      · have fits : d.Fits det e ↔ 1 ≤ d.tofMax.toNat ∧
            d.config.binnedCell det (d.config.pixelOffset det e.1).toNat e.2.toNat % 2 ^ 32 < 2 ^ 31 :=
          ⟨fun fits => fits.bin bin, fun fit => ⟨fun plots => absurd plots pixel, fun _ => fit⟩⟩
        have nonneg : 0 ≤ (d.config.pixelOffset det e.1).toInt32.toInt := by omega
        have cell := bin_confined_iff h lo hi unmapped some_cell nonneg bin v
        rw [fits, cell, offset, Int.toNat_natCast]
      · rw [bumpPixels_none _ _ _ pixel bin]
        simp only [Option.some.injEq, exists_eq_left', List.not_mem_nil, false_imp_iff, implies_true, true_iff]
        exact ⟨fun plots => absurd plots pixel, fun plots => absurd plots bin⟩
  · rw [integrateDet_outside (by simpa using inside)]
    simp [inside]

end Turn

/-- All turns of a packet. -/
theorem trace_confined_iff {d : Driver} (h : d.Placed) {ts : List Turn}
    (range : ∀ t ∈ ts, 1 ≤ t.1 ∧ t.1 ≤ d.numDets ∧ d.Unmapped t.1) (v : LoopVars) :
    (∃ r, d.config.trace ts v = some r ∧ ∀ bump ∈ r.2, d.InPlot bump.det bump.plot bump.index) ↔
      ∀ t ∈ ts, d.config.inDet t.1 t.2.1 = true → d.Fits t.1 t.2 := by
  induction ts generalizing v with
  | nil => simp [trace]
  | cons t ts ih =>
    obtain ⟨⟨lo, hi, unmapped⟩, range⟩ := List.forall_mem_cons.1 range
    have turn := turn_confined_iff h lo hi unmapped t.2
    rw [List.forall_mem_cons, ← turn v]
    constructor
    · rintro ⟨r, traced, own⟩
      obtain ⟨q, first, traced⟩ := Option.bind_eq_some_iff.1 traced
      obtain ⟨q', rest, rfl⟩ := Option.map_eq_some_iff.1 traced
      obtain ⟨now, later⟩ := List.forall_mem_append.1 own
      exact ⟨⟨q, first, now⟩, (ih range q.1).1 ⟨q', rest, later⟩⟩
    · rintro ⟨⟨q, first, now⟩, fits⟩
      obtain ⟨q', rest, later⟩ := (ih range q.1).2 fits
      refine ⟨(q'.1, q.2 ++ q'.2), ?_, List.forall_mem_append.2 ⟨now, later⟩⟩
      rw [trace, first, Option.bind_some, rest]
      rfl

/-- Increments that stay in their regions are in the buffer. -/
theorem bumpAll_of_inPlot {d : Driver} {bs : List Bump} {b : List UInt32} (length : b.length = d.totalCells)
    (own : ∀ bump ∈ bs, 1 ≤ bump.det ∧ bump.det ≤ d.numDets ∧ d.InPlot bump.det bump.plot bump.index) :
    ∃ b', Tally.bumpAll (bs.map Bump.index) b = some b' := by
  apply Option.isSome_iff_exists.1
  rw [Tally.bumpAll_isSome]
  intro i mem
  obtain ⟨bump, hb, rfl⟩ := List.mem_map.1 mem
  obtain ⟨lo, hi, above, below⟩ := own bump hb
  have region := d.region_in_buffer lo hi bump.plot
  omega

theorem bumps_det {d : Driver} (h : d.Placed) {events : List (UInt32 × UInt32)} {bs : List Bump}
    (bumped : d.config.bumps d.active events = some bs) :
    ∀ bump ∈ bs, 1 ≤ bump.det ∧ bump.det ≤ d.numDets := by
  obtain ⟨r, traced, rfl⟩ := Option.map_eq_some_iff.1 bumped
  intro bump mem
  obtain ⟨t, ht, same⟩ := trace_det traced bump mem
  rw [same]
  exact (mem_active h).1 (mem_turns.1 ht).1

/-- The increments of a list of events are defined and stay in their regions exactly if
the events fit. -/
theorem bumps_confined_iff {d : Driver} (h : d.Placed)
    (unmapped : ∀ det, 1 ≤ det → det ≤ d.numDets → d.Unmapped det) (events : List (UInt32 × UInt32)) :
    (∃ bs, d.config.bumps d.active events = some bs ∧ ∀ bump ∈ bs, d.InOwnRegion bump) ↔
      ∀ e ∈ events, ∀ det, 1 ≤ det → det ≤ d.numDets → d.config.inDet det e.1 = true → d.Fits det e := by
  have range : ∀ t ∈ turns d.active events, 1 ≤ t.1 ∧ t.1 ≤ d.numDets ∧ d.Unmapped t.1 := by
    intro t mem
    obtain ⟨lo, hi⟩ := (mem_active h).1 (mem_turns.1 mem).1
    exact ⟨lo, hi, unmapped t.1 lo hi⟩
  have fits : (∀ t ∈ turns d.active events, d.config.inDet t.1 t.2.1 = true → d.Fits t.1 t.2) ↔
      ∀ e ∈ events, ∀ det, 1 ≤ det → det ≤ d.numDets → d.config.inDet det e.1 = true → d.Fits det e := by
    constructor
    · intro fit e he det lo hi
      exact fit (det, e) (mem_turns.2 ⟨(mem_active h).2 ⟨lo, hi⟩, he⟩)
    · intro fit t mem
      obtain ⟨lo, hi⟩ := (mem_active h).1 (mem_turns.1 mem).1
      exact fit t.2 (mem_turns.1 mem).2 t.1 lo hi
  rw [← fits, ← trace_confined_iff h range .zero]
  constructor
  · rintro ⟨bs, bumped, inside⟩
    have range := bumps_det h bumped
    obtain ⟨r, traced, rfl⟩ := Option.map_eq_some_iff.1 bumped
    exact ⟨r, traced, fun bump mem => (inOwnRegion_iff h (range bump mem).1 (range bump mem).2).1 (inside bump mem)⟩
  · rintro ⟨r, traced, inside⟩
    have bumped : d.config.bumps d.active events = some r.2 := by
      rw [bumps, traced]
      rfl
    have range := bumps_det h bumped
    exact ⟨r.2, bumped,
      fun bump mem => (inOwnRegion_iff h (range bump mem).1 (range bump mem).2).2 (inside bump mem)⟩

/-- **Region confinement.** `eventHandler` is confined on a packet that it integrates
exactly if every event of it fits into the plots of every detector that sees it. -/
theorem region_confinement {d : Driver} (h : d.Placed)
    (unmapped : ∀ det, 1 ≤ det → det ≤ d.numDets → d.Unmapped det) (p : Packet) :
    d.Confined p ↔ (d.verdict p = .integrated → ∀ e ∈ p.events, ∀ det, 1 ≤ det → det ≤ d.numDets →
      d.config.inDet det e.1 = true → d.Fits det e) := by
  by_cases accepted : d.verdict p = .integrated
  · obtain ⟨b, data, length⟩ := h.buffer_length
    have handled := eventHandler_accepted accepted data
    rw [forall_prop_of_true accepted, ← bumps_confined_iff h unmapped]
    constructor
    · rintro ⟨bs, -, -, bumped, inside, -, -⟩
      rw [increments, if_pos accepted] at bumped
      exact ⟨bs, bumped, inside⟩
    · rintro ⟨bs, bumped, inside⟩
      have own : ∀ bump ∈ bs, 1 ≤ bump.det ∧ bump.det ≤ d.numDets ∧
          d.InPlot bump.det bump.plot bump.index := by
        intro bump mem
        obtain ⟨lo, hi⟩ := bumps_det h bumped bump mem
        exact ⟨lo, hi, (inOwnRegion_iff h lo hi).1 (inside bump mem)⟩
      obtain ⟨b', counted⟩ := bumpAll_of_inPlot length own
      rw [bumped, Option.bind_some, counted, Option.map_some] at handled
      obtain ⟨⟨d', o⟩, handled, same⟩ := Option.map_eq_some_iff.1 handled
      have after : d'.pData = some b' := by
        simp only [Prod.mk.injEq] at same
        exact same.2.1
      exact ⟨bs, d', o, by rw [increments, if_pos accepted, bumped], inside, handled,
        by rw [after, data, Option.bind_some, counted]⟩
  · obtain ⟨d', handled, same⟩ := eventHandler_rejected accepted
    have kept : d'.pData = d.pData.bind (Tally.bumpAll []) := by
      rw [same.pData]
      cases d.pData <;> rfl
    have confined : d.Confined p := ⟨[], d', _, if_neg accepted, by simp, handled, kept⟩
    simp [confined, accepted]

/-- The detectors of `setup_example.sh`. The range of the second one is one pixel longer
than its size. -/
def setupExample : Driver :=
  withInts
    [(0, .tofMax, 160000), (0, .numDet, 4),
      (1, .pixelNumStart, 0), (1, .pixelNumEnd, 1023), (1, .pixelNumSize, 1024), (1, .pixelSizeX, 32),
      (2, .pixelNumStart, 2048), (2, .pixelNumEnd, 3072), (2, .pixelNumSize, 1024), (2, .pixelSizeX, 32),
      (3, .pixelNumStart, 0), (3, .pixelNumEnd, 1023), (3, .pixelNumSize, 5120), (3, .pixelSizeX, 32),
      (3, .twoDType, 2), (3, .tofNumBins, 160),
      (4, .pixelNumStart, 0), (4, .pixelNumEnd, 1023), (4, .pixelNumSize, 163840), (4, .pixelSizeX, 32),
      (4, .twoDType, 3), (4, .tofNumBins, 160),
      (1, .pixelROISizeX, 1), (2, .pixelROISizeX, 1), (3, .pixelROISizeX, 1), (4, .pixelROISizeX, 1)]

end Driver

/-- A packet with some events. -/
def Packet.ofEvents (channelID : Nat) (events : List (UInt32 × UInt32)) (short : events.length < 2 ^ 32) : Packet where
  channelID := channelID
  now := 0
  timeStamp := some ⟨0, 0, 0⟩
  pCharge := some 0
  pixels := some ⟨events.map Prod.fst, by simpa using short⟩
  tof := some ⟨events.map Prod.snd, by simpa using short⟩

/-- A packet of one event. -/
def Packet.single (channelID : Nat) (pixel tof : UInt32) : Packet := .ofEvents channelID [(pixel, tof)] (by simp)

namespace Driver

theorem setupExample_placed : setupExample.Layable ∧ setupExample.layOut.Placed :=
  layOut_placed (by decide)

theorem setupExample_unmapped (det : Nat) (lo : 1 ≤ det) (hi : det ≤ setupExample.layOut.numDets) :
    setupExample.layOut.Unmapped det := by
  have four : det ≤ 4 := hi
  interval_cases det <;> exact ⟨by unfold Binned; decide, by decide, by decide, by decide⟩

/-- The last pixel that has a cell. -/
theorem region_confinement_lastPixel :
    setupExample.layOut.verdict (.single 0 3071 0) = .integrated ∧
      setupExample.layOut.Confined (.single 0 3071 0) := by
  refine ⟨by decide +kernel, (region_confinement setupExample_placed.2 setupExample_unmapped _).2 ?_⟩
  intro _ e he det lo hi inside
  obtain rfl : e = (3071, 0) := List.mem_singleton.1 he
  have four : det ≤ 4 := hi
  interval_cases det
  · exact absurd inside (by decide)
  · exact ⟨fun _ => by decide, fun bin => absurd rfl bin.2.1⟩
  · exact absurd inside (by decide)
  · exact absurd inside (by decide)

/-- The pixel after it lands in the plot of the third detector. -/
theorem region_confinement_nextPixel :
    setupExample.allocArray true = (setupExample.layOut, .success) ∧
      setupExample.layOut.increments (.single 0 3072 0) =
        some [⟨2, .pixels, 2048⟩, ⟨2, .spectrum, 331009⟩] ∧
      setupExample.layOut.int 2 .ndArrayEnd = 2047 ∧ setupExample.layOut.int 3 .ndArrayStart = 2048 ∧
      ¬ setupExample.layOut.Confined (.single 0 3072 0) := by
  have bumped : setupExample.layOut.increments (.single 0 3072 0) =
      some [⟨2, .pixels, 2048⟩, ⟨2, .spectrum, 331009⟩] := by decide +kernel
  refine ⟨allocArray_of_layable rfl setupExample_placed.1, bumped, by decide, by decide, ?_⟩
  rintro ⟨bs, d', o, some_bumps, own, -⟩
  obtain rfl := Option.some.inj (bumped.symm.trans some_bumps)
  have inside := own ⟨2, .pixels, 2048⟩ (by simp)
  revert inside
  unfold InOwnRegion
  decide

end Driver

end ADnED
