import ADnED.Driver.Counts

/-!
# The X/Y histogram

A 2-D plot that shows pixels, because it is an X/Y plot or because its TOF ROI filter
is on, is a histogram of the pixels of its events: `histogram_exact`. The statement
is in the terms of the parameters alone. It needs that the binned plots of the other
detectors do not leave their regions; `histogram_wraps` is what happens otherwise.
-/

namespace ADnED

namespace Driver

/-- The event belongs to the cell `j` of a 2-D plot that shows pixels. -/
def CountsPixel (d : Driver) (det j : Nat) (e : UInt32 × UInt32) : Prop :=
  d.Sees det e.1 ∧ d.mappedIndex det e.1 = j ∧
    (d.int det .tofROIEnable ≠ 0 →
      (d.int det .tofROIStart).toInt ≤ e.2.toNat ∧
        (e.2.toNat : Int) < (d.int det .tofROIStart).toInt + (d.int det .tofROISize).toInt)

instance (d : Driver) (det j : Nat) (e : UInt32 × UInt32) : Decidable (d.CountsPixel det j e) :=
  inferInstanceAs (Decidable (_ ∧ _ ∧ (_ → _)))

/-- For a plot that shows pixels and a ROI whose end is an `int`, these are the events
that the code counts. -/
theorem countsIn_pixels_iff {d : Driver} {det j : Nat} {e : UInt32 × UInt32} (shows : d.ShowsPixels det)
    (window : d.int det .tofROIEnable ≠ 0 →
      Word32.IsInt32 ((d.int det .tofROIStart).toInt + (d.int det .tofROISize).toInt)) :
    d.CountsIn det .pixels j e ↔ d.CountsPixel det j e := by
  apply and_congr_right
  intro _
  apply and_congr_right
  intro _
  by_cases roi : d.int det .tofROIEnable = 0
  · have type : d.int det .twoDType = 0 := shows.resolve_right (not_not.2 roi)
    have disabled : ¬ (d.config.det det).tofROIEnabled ≠ 0 := not_not.2 roi
    have plots : d.config.PlotsPixel det e.2 := by
      rw [PlotsPixel, if_neg disabled]
      exact type
    simp [plots, roi]
  · have stop : ((d.config.det det).tofROIStart + (d.config.det det).tofROISize).toInt =
        (d.int det .tofROIStart).toInt + (d.int det .tofROISize).toInt :=
      Word32.toInt_add (window roi).1 (window roi).2
    have enabled : (d.config.det det).tofROIEnabled ≠ 0 := roi
    have plots : d.config.PlotsPixel det e.2 ↔ d.config.inROI det e.2 := by
      rw [PlotsPixel, if_pos enabled]
    rw [plots, inROI, stop, forall_prop_of_true roi]
    rfl

/-- **Exact X/Y histograms.** After a clear, a sequence of accepted packets leaves in
every cell of a plot that shows pixels the number of its events modulo `2^32`, and in
the totals the numbers of events that the detectors see. -/
theorem histogram_exact {d : Driver} (h : d.Placed) (maps : ∀ det, 1 ≤ det → det ≤ d.numDets → d.Maps det)
    (windows : ∀ det, 1 ≤ det → det ≤ d.numDets → d.int det .tofROIEnable ≠ 0 →
      Word32.IsInt32 ((d.int det .tofROIStart).toInt + (d.int det .tofROISize).toInt))
    {packets : List Packet} (accepted : Runs.Meets deliver Accepted d.clearParams packets)
    (fits : ∀ e ∈ packets.flatMap Packet.events, ∀ det, 1 ≤ det → det ≤ d.numDets → d.BinFits det e)
    (few : ∀ det, 1 ≤ det → det ≤ d.numDets →
      (packets.flatMap Packet.events).countP (d.Sees det ·.1) ≤ 2 ^ 53) :
    ∃ d' b, Runs.run deliver d.clearParams packets = some d' ∧ d'.pData = some b ∧
      ∀ det, 1 ≤ det → det ≤ d.numDets →
        (d.ShowsPixels det → ∀ j : Nat, (j : Int) < (d.int det .ndArraySize).toInt →
          b[(d.int det .ndArrayStart).toInt.toNat + j]? =
            some (UInt32.ofNat ((packets.flatMap Packet.events).countP (d.CountsPixel det j)))) ∧
        d'.detTotalEvents det = (packets.flatMap Packet.events).countP (d.Sees det ·.1) := by
  obtain ⟨d', b, reached, data, exact⟩ := cells_exact h maps accepted fits
  refine ⟨d', b, reached, data, fun det lo hi => ⟨fun shows j below => ?_, ?_⟩⟩
  · rw [h.ndArraySize lo hi] at below
    have cell := (exact det lo hi).1 .pixels j (by omega) shows
    rw [h.ndArrayStart lo hi, Int.toNat_natCast, cell]
    simp only [countsIn_pixels_iff shows (windows det lo hi)]
  · rw [(exact det lo hi).2, iterate_dblSucc (few det lo hi)]

/-- An X/Y plot and an X/TOF plot whose ranges overlap. -/
def twoPlots : Driver :=
  withInts
    [(0, .tofMax, 9), (0, .numDet, 2),
      (1, .pixelNumStart, 0), (1, .pixelNumEnd, 3), (1, .pixelNumSize, 4), (1, .pixelROISizeX, 1),
      (2, .pixelNumStart, 2), (2, .pixelNumEnd, 5), (2, .pixelNumSize, 6), (2, .pixelROISizeX, 1),
      (2, .pixelSizeX, 2), (2, .twoDType, 1), (2, .tofNumBins, 3)]

theorem twoPlots_placed : twoPlots.layOut.Placed := (layOut_placed (by decide)).2

theorem twoPlots_maps (det : Nat) (lo : 1 ≤ det) (hi : det ≤ twoPlots.layOut.numDets) :
    twoPlots.layOut.Maps det := by
  have two : det ≤ 2 := hi
  interval_cases det <;> exact ⟨by decide, by decide, .inl (by decide)⟩

/-- Three packets on two channels. -/
def threePackets : List Packet := [.single 0 2 4, .single 1 3 5, .single 1 2 12]

/-- The pixel 2 of the first detector has two events, one of them outside the range of
the spectra. -/
theorem histogram_exact_twoPlots :
    ∃ d' b, Runs.run deliver twoPlots.layOut.clearParams threePackets = some d' ∧ d'.pData = some b ∧
      b[2]? = some 2 ∧ d'.detTotalEvents 1 = 3 := by
  have accepted : Runs.Meets deliver Accepted twoPlots.layOut.clearParams threePackets :=
    Runs.meets_of_decide (by decide +kernel)
  have windows : ∀ det, 1 ≤ det → det ≤ 2 → twoPlots.layOut.int det .tofROIEnable = 0 := by
    intro det lo hi
    interval_cases det <;> rfl
  have bins : (threePackets.flatMap Packet.events).all fun e =>
      twoPlots.layOut.BinFits 1 e ∧ twoPlots.layOut.BinFits 2 e := by decide +kernel
  have fits : ∀ e ∈ threePackets.flatMap Packet.events, ∀ det, 1 ≤ det → det ≤ twoPlots.layOut.numDets →
      twoPlots.layOut.BinFits det e := by
    intro e he det lo hi
    have two : det ≤ 2 := hi
    have both := of_decide_eq_true (List.all_eq_true.mp bins e he)
    interval_cases det
    · exact both.1
    · exact both.2
  obtain ⟨d', b, reached, data, exact⟩ := histogram_exact twoPlots_placed twoPlots_maps
    (fun det lo hi roi => absurd (windows det lo hi) roi) accepted fits
    (fun det _ _ => List.countP_le_length.trans (by decide))
  refine ⟨d', b, reached, data, ?_, ?_⟩
  · exact (exact 1 (by decide) (by decide)).1 (.inl rfl) 2 (by decide)
  · exact (exact 1 (by decide) (by decide)).2

/-- An X/Y plot of ten pixels and behind it a large X/TOF plot. -/
def largePlot : Driver :=
  withInts
    [(0, .tofMax, 65536), (0, .numDet, 2),
      (1, .pixelNumStart, 0), (1, .pixelNumEnd, 9), (1, .pixelNumSize, 10), (1, .pixelROISizeX, 1),
      (2, .pixelNumStart, 100000), (2, .pixelNumEnd, 165535), (2, .pixelNumSize, 65536), (2, .pixelROISizeX, 1),
      (2, .pixelSizeX, 65536), (2, .twoDType, 1), (2, .tofNumBins, 65536)]

theorem largePlot_placed : largePlot.layOut.Placed := (layOut_placed (by decide)).2

/-- An event that only the second detector sees is counted as pixel 5 of the first: its
cell 65535 * 65536 + 65531 of the X/TOF plot is -5 as an `int`, and passes the test
against the size. -/
theorem histogram_wraps :
    largePlot.layOut.Placed ∧ (∀ det, 1 ≤ det → det ≤ largePlot.layOut.numDets → largePlot.layOut.Maps det) ∧
      Runs.Meets deliver Accepted largePlot.layOut.clearParams [.single 0 165535 65531] ∧
      ∃ d' b, Runs.run deliver largePlot.layOut.clearParams [.single 0 165535 65531] = some d' ∧
        d'.pData = some b ∧ largePlot.layOut.ShowsPixels 1 ∧
        b[(largePlot.layOut.int 1 .ndArrayStart).toInt.toNat + 5]? = some 1 ∧
        ([(165535, 65531)] : List (UInt32 × UInt32)).countP (largePlot.layOut.CountsPixel 1 5) = 0 := by
  have maps : ∀ det, 1 ≤ det → det ≤ largePlot.layOut.numDets → largePlot.layOut.Maps det := by
    intro det lo hi
    have two : det ≤ 2 := hi
    interval_cases det <;> exact ⟨by decide, by decide, .inl (by decide)⟩
  have accepted : Runs.Meets deliver Accepted largePlot.layOut.clearParams [.single 0 165535 65531] :=
    ⟨by decide +kernel, fun _ _ => trivial⟩
  have bumped : largePlot.layOut.clearParams.config.bumpsOf largePlot.layOut.clearParams.active
      [[(165535, 65531)]] = some [⟨2, .pixels, 5⟩, ⟨2, .spectrum, 196614⟩] := by decide +kernel
  have cells : largePlot.layOut.totalCells = 196620 := by decide
  have result := run_deliver accepted (clearParams_data largePlot_placed)
  obtain ⟨b, counted⟩ : ∃ b, Tally.bumpAll [5, 196614] (List.replicate 196620 0) = some b := by
    rw [← Option.isSome_iff_exists, Tally.bumpAll_isSome, List.length_replicate]
    decide
  rw [cells] at result
  change _ = (largePlot.layOut.clearParams.config.bumpsOf _ [[(165535, 65531)]]).bind _ at result
  rw [bumped, Option.bind_some] at result
  change _ = (Tally.bumpAll [5, 196614] _).map _ at result
  rw [counted, Option.map_some, Option.map_eq_some_iff] at result
  obtain ⟨d', reached, same⟩ := result
  refine ⟨largePlot_placed, maps, accepted, d', b, reached, congrArg Prod.fst same, .inl rfl, ?_, by decide⟩
  have first : (largePlot.layOut.int 1 .ndArrayStart).toInt.toNat + 5 = 5 := by decide
  rw [first, Tally.bumpAll_cell counted, List.getElem?_replicate_of_lt (by decide)]
  rfl

end Driver

end ADnED
