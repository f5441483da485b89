import ADnED.Driver.Bins
import ADnED.Tasks.System

/-!
# Divisors

The integer divisions and remainders of the integration loop: by `PixelSizeX` in the
X/TOF and Y/TOF plots and in the pixel ROI filter, and by the number of bins in all
binned plots. Only the one in the filter is guarded. `turnDivisors` lists the divisors
that one turn comes to; a zero among them makes the turn undefined
(`integrateDet_zero_divisor`). `no_zero_divisor` has the parameters for which no packet
comes to one.
-/

namespace ADnED

/-- Clamping leaves no bins exactly if there is no TOF range to clamp to. -/
theorem clampBins_eq_zero_iff (tofNumBins : Int32) (tofMax : UInt32) :
    clampBins tofNumBins tofMax = 0 ↔ tofMax = 0 ∧ ¬ tofNumBins < 1 := by
  have word : tofMax.toInt32 = 0 ↔ tofMax = 0 := by
    rw [← Word32.toUInt32_inj]
    exact Iff.rfl
  unfold clampBins
  split
  · rename_i few
    simp [few]
  · rename_i one
    have pos : 1 ≤ tofNumBins.toInt := Int32.le_iff_toInt_le.1 (Int32.not_lt.1 one)
    have bins := Word32.toNat_toUInt32_of_nonneg (x := tofNumBins) (by omega)
    split
    · simp [one, word]
    · rename_i less
      have some_tof : tofMax ≠ 0 := by
        rintro rfl
        rw [UInt32.lt_iff_toNat_lt, UInt32.toNat_zero] at less
        omega
      have some_bins : tofNumBins ≠ 0 := by
        rintro rfl
        exact absurd pos (by decide)
      simp [some_tof, some_bins]

namespace Driver

/-- The divisors of the 2-D plot for a time of flight `x`, in their order. -/
def plotDivisors (d : Driver) (det : Nat) (x : Dbl) : List Int :=
  let sizeX := (d.det det).pixelSizeX.toInt
  let tofBins := ((clampBins (d.int det .tofNumBins) d.tofMax).toUInt32.toNat : Int)
  if (d.det det).tofROIEnabled ≠ 0 then []
  else if (d.int det .twoDType).toUInt32 = 0 then []
  else if x.within 0 d.tofMax.toNat then
    if (d.int det .twoDType).toUInt32 = 1 then [sizeX, tofBins]
    else if (d.int det .twoDType).toUInt32 = 2 then [sizeX, tofBins]
    else if (d.int det .twoDType).toUInt32 = 3 then [tofBins]
    else []
  else []

/-- The divisors of the pixel ROI filter. The second remainder is only computed if the
first one is not before the ROI. -/
def filterDivisors (d : Driver) (det : Nat) (x : Dbl) (mapped : Int32) : List Int :=
  let dv := d.det det
  if x.within 0 d.tofMax.toNat ∧ dv.pixelROIEnable ≠ 0 ∧ dv.pixelMappingEnabled ≠ 0 ∧ 0 < dv.pixelSizeX then
    dv.pixelSizeX.toInt :: if dv.pixelROIStartX ≤ mapped % dv.pixelSizeX then [dv.pixelSizeX.toInt] else []
  else []

/-- The divisors that a turn comes to, if it gets as far as the plots. -/
def turnDivisors (d : Driver) (det : Nat) (e : UInt32 × UInt32) : List Int :=
  if d.inDet det e.1 then
    ((d.eventTOF det e.1 e.2).bind fun x => (d.mapPixel det e.1).map fun mapped =>
      d.plotDivisors det x ++ d.filterDivisors det x mapped).getD []
  else []

/-- The divisors of the turns of a packet that is integrated. -/
def divisors (d : Driver) (p : Packet) : List Int :=
  if d.verdict p = .integrated then (turns d.active p.events).flatMap fun t => d.config.turnDivisors t.1 t.2
  else []

/-- A binned plot of `det` has rows and bins. -/
def Divides (d : Driver) (det : Nat) : Prop :=
  d.int det .tofROIEnable = 0 → d.Binned det →
    (d.int det .twoDType ≠ 3 → d.int det .pixelSizeX ≠ 0) ∧ (d.tofMax ≠ 0 ∨ d.int det .tofNumBins < 1)

theorem toInt_eq_zero_iff (x : Int32) : x.toInt = 0 ↔ x = 0 := by
  rw [← Int32.toInt_inj]
  exact Iff.rfl

/-- The filter is guarded. -/
theorem zero_not_mem_filterDivisors (d : Driver) (det : Nat) (x : Dbl) (mapped : Int32) :
    0 ∉ d.filterDivisors det x mapped := by
  simp only [filterDivisors]
  split
  · rename_i guarded
    have pos : (0 : Int32).toInt < (d.det det).pixelSizeX.toInt := Int32.lt_iff_toInt_lt.1 guarded.2.2.2
    have zero : (0 : Int32).toInt = 0 := rfl
    split <;> simp only [List.mem_cons, List.not_mem_nil, or_false, or_self] <;> omega
  · exact List.not_mem_nil

/-- A binned plot divides by the width of the detector, if it has rows of it, and by its
bins. -/
theorem plotDivisors_binned {d : Driver} {det : Nat} {x : Dbl} (roi : (d.det det).tofROIEnabled = 0)
    (binned : d.Binned det) (within : x.within 0 d.tofMax.toNat = true) :
    d.plotDivisors det x = (if d.int det .twoDType = 3 then [] else [(d.det det).pixelSizeX.toInt]) ++
      [((clampBins (d.int det .tofNumBins) d.tofMax).toUInt32.toNat : Int)] := by
  have filter : ¬ (d.det det).tofROIEnabled ≠ 0 := not_not.2 roi
  simp only [plotDivisors, if_neg filter, if_pos within]
  rcases binned with type | type | type <;> rw [type] <;> rfl

/-- The other plots do not divide. -/
theorem plotDivisors_other {d : Driver} {det : Nat} {x : Dbl}
    (h : ¬ ((d.det det).tofROIEnabled = 0 ∧ d.Binned det ∧ x.within 0 d.tofMax.toNat = true)) :
    d.plotDivisors det x = [] := by
  simp only [plotDivisors]
  split_ifs with roi xy within xKind yKind idKind
  · rfl
  · rfl
  · exact absurd ⟨not_not.1 roi, .inl ((Word32.toUInt32_inj (y := 1)).1 xKind), within⟩ h
  · exact absurd ⟨not_not.1 roi, .inr (.inl ((Word32.toUInt32_inj (y := 2)).1 yKind)), within⟩ h
  · exact absurd ⟨not_not.1 roi, .inr (.inr ((Word32.toUInt32_inj (y := 3)).1 idKind)), within⟩ h
  · rfl
  · rfl

/-- Which parameters make the 2-D plot divide by zero. -/
theorem zero_mem_plotDivisors_iff (d : Driver) (det : Nat) (x : Dbl) :
    0 ∈ d.plotDivisors det x ↔ (d.det det).tofROIEnabled = 0 ∧ d.Binned det ∧ x.within 0 d.tofMax.toNat = true ∧
      (d.int det .twoDType ≠ 3 ∧ (d.det det).pixelSizeX = 0 ∨
        clampBins (d.int det .tofNumBins) d.tofMax = 0) := by
  by_cases plots : (d.det det).tofROIEnabled = 0 ∧ d.Binned det ∧ x.within 0 d.tofMax.toNat = true
  · obtain ⟨roi, binned, within⟩ := plots
    have bins : (0 : Int) = (clampBins (d.int det .tofNumBins) d.tofMax).toUInt32.toNat ↔
        clampBins (d.int det .tofNumBins) d.tofMax = 0 := by
      rw [← Word32.toUInt32_inj, ← UInt32.toNat_inj]
      change _ ↔ _ = 0
      omega
    have size : (0 : Int) = (d.det det).pixelSizeX.toInt ↔ (d.det det).pixelSizeX = 0 := by
      rw [← toInt_eq_zero_iff]
      exact eq_comm
    rw [plotDivisors_binned roi binned within, List.mem_append, List.mem_singleton, bins]
    by_cases kind : d.int det .twoDType = 3
    · simp [roi, binned, within, kind]
    · simp [roi, binned, within, kind, size]
  · rw [plotDivisors_other plots]
    simp only [List.not_mem_nil, false_iff]
    rintro ⟨roi, binned, within, -⟩
    exact plots ⟨roi, binned, within⟩

/-- A binned plot that divides by zero is undefined. -/
theorem bumpPixels_zero_divisor {d : Driver} {det : Nat} {x : Dbl} (zero : 0 ∈ d.plotDivisors det x) (mapped : Int32)
    (v : LoopVars) : d.bumpPixels det (d.load det x mapped v) = none := by
  obtain ⟨roi, binned, within, zero⟩ := (zero_mem_plotDivisors_iff d det x).1 zero
  have filter : ¬ (d.det det).tofROIEnabled ≠ 0 := not_not.2 roi
  have type : d.int det .twoDType ≠ 0 := by
    rcases binned with type | type | type <;> rw [type] <;> decide
  have kind : ¬ (d.load det x mapped v).plotType.toUInt32 = 0 :=
    fun xy => type ((Word32.toUInt32_inj (y := 0)).1 xy)
  have range : (d.load det x mapped v).tof.within 0 d.tofMax.toNat = true := within
  have undefined : d.binnedIndex det (d.load det x mapped v) = none := by
    rcases zero with ⟨rows, noWidth⟩ | noBins
    · have division : divDefined (d.load det x mapped v).mappedPixelIndex (d.det det).pixelSizeX = false := by
        simp [divDefined, noWidth]
      have plotType : (d.load det x mapped v).plotType = d.int det .twoDType := rfl
      simp only [binnedIndex, division, plotType]
      rcases binned with type | type | type
      · rw [type]
        rfl
      · rw [type]
        rfl
      · exact absurd type rows
    · apply binnedIndex_of_tofBin binned
      rw [noBins]
      rfl
  simp only [bumpPixels]
  rw [if_neg filter, if_neg kind, if_pos range, undefined]
  rfl

/-- A zero divisor comes from the 2-D plot. -/
theorem zero_mem_turnDivisors_iff (d : Driver) (det : Nat) (e : UInt32 × UInt32) :
    0 ∈ d.turnDivisors det e ↔ d.inDet det e.1 = true ∧
      ∃ x mapped, d.eventTOF det e.1 e.2 = some x ∧ d.mapPixel det e.1 = some mapped ∧ 0 ∈ d.plotDivisors det x := by
  unfold turnDivisors
  by_cases inside : d.inDet det e.1 = true
  · rw [if_pos inside]
    cases d.eventTOF det e.1 e.2 with
    | none => simp
    | some x =>
      cases d.mapPixel det e.1 with
      | none => simp
      | some mapped => simp [inside, zero_not_mem_filterDivisors]
  · simp [inside]

/-- A turn that comes to a zero divisor is undefined. -/
theorem integrateDet_zero_divisor {d : Driver} {det : Nat} {e : UInt32 × UInt32} (zero : 0 ∈ d.turnDivisors det e)
    (v : LoopVars) : d.integrateDet det e.1 e.2 v = none := by
  obtain ⟨inside, x, mapped, time, index, plot⟩ := (zero_mem_turnDivisors_iff d det e).1 zero
  rw [integrateDet_eq inside, time, index, Option.bind_some, Option.bind_some, bumpPixels_zero_divisor plot]
  rfl

/-- Then so is the trace of its packet. -/
theorem trace_zero_divisor {d : Driver} {ts : List Turn} (zero : 0 ∈ ts.flatMap fun t => d.turnDivisors t.1 t.2)
    (v : LoopVars) : d.trace ts v = none := by
  induction ts generalizing v with
  | nil => cases zero
  | cons t ts ih =>
    rw [List.flatMap_cons, List.mem_append] at zero
    rcases zero with now | later
    · rw [trace, integrateDet_zero_divisor now]
      rfl
    · rw [trace]
      cases d.integrateDet t.1 t.2.1 t.2.2 v with
      | none => rfl
      | some r =>
        rw [Option.bind_some, ih later]
        rfl

/-- `eventHandler` is undefined on a packet that makes it divide by zero. -/
theorem eventHandler_zero_divisor {d : Driver} {p : Packet} (zero : 0 ∈ d.divisors p) : d.eventHandler p = none := by
  unfold divisors at zero
  split at zero
  · rename_i accepted
    obtain ⟨b, data⟩ := Accepted.data accepted
    have handled := eventHandler_accepted accepted data
    rw [bumps, trace_zero_divisor zero] at handled
    exact Option.map_eq_none_iff.1 handled
  · cases zero

/-- The parameters that make a binned plot divide by zero. -/
theorem not_divides_iff (d : Driver) (det : Nat) :
    ¬ d.Divides det ↔ d.int det .tofROIEnable = 0 ∧ d.Binned det ∧
      (d.int det .twoDType ≠ 3 ∧ d.int det .pixelSizeX = 0 ∨ clampBins (d.int det .tofNumBins) d.tofMax = 0) := by
  rw [clampBins_eq_zero_iff]
  simp only [Divides, Classical.not_imp, not_and_or, not_or, ne_eq, not_not]

/-- A packet makes `eventHandler` divide by zero exactly if it has an event in the TOF range
for a detector that does not divide. -/
theorem zero_mem_divisors_iff (d : Driver) (p : Packet) :
    0 ∈ d.divisors p ↔ d.verdict p = .integrated ∧ ∃ det ∈ d.active, ¬ d.Divides det ∧
      ∃ e ∈ p.events, d.config.inDet det e.1 = true ∧ (d.config.mapPixel det e.1).isSome = true ∧
        ∃ x, d.config.eventTOF det e.1 e.2 = some x ∧ x.within 0 d.tofMax.toNat = true := by
  have plot : ∀ det x, 0 ∈ d.config.plotDivisors det x ↔ x.within 0 d.tofMax.toNat = true ∧ ¬ d.Divides det := by
    intro det x
    rw [zero_mem_plotDivisors_iff, not_divides_iff]
    change _ ∧ _ ∧ _ ∧ (_ ∧ d.int det .pixelSizeX = 0 ∨ _) ↔ _
    tauto
  unfold divisors
  by_cases accepted : d.verdict p = .integrated
  · rw [if_pos accepted, and_iff_right accepted, List.mem_flatMap]
    simp only [zero_mem_turnDivisors_iff, plot, mem_turns, Option.isSome_iff_exists]
    constructor
    · rintro ⟨t, ⟨det, event⟩, inside, x, mapped, time, index, within, stuck⟩
      exact ⟨t.1, det, stuck, t.2, event, inside, ⟨mapped, index⟩, x, time, within⟩
    · rintro ⟨det, active, stuck, e, event, inside, ⟨mapped, index⟩, x, time, within⟩
      exact ⟨(det, e), ⟨active, event⟩, inside, x, mapped, time, index, within, stuck⟩
  · simp [accepted]

/-- **No zero divisor.** If every binned plot without TOF ROI filter has a width to divide
by, unless it is a PixelID/TOF plot, and either a TOF range or less than one bin to clamp,
then no packet makes `eventHandler` divide by zero. -/
theorem no_zero_divisor {d : Driver} (divides : ∀ det ∈ d.active, d.Divides det) (p : Packet) :
    0 ∉ d.divisors p := by
  rw [zero_mem_divisors_iff]
  rintro ⟨-, det, active, stuck, -⟩
  exact stuck (divides det active)

instance (d : Driver) (det : Nat) : Decidable (d.Divides det) :=
  inferInstanceAs (Decidable (_ → _ ∨ _ ∨ _ → (_ → _) ∧ _))

/-- A Y/TOF and a PixelID/TOF plot. -/
theorem no_zero_divisor_setupExample :
    setupExample.layOut.divisors (.single 0 5 100) = [32, 160, 160] ∧
      0 ∉ setupExample.layOut.divisors (.single 0 5 100) := by
  have divides : setupExample.layOut.active.all (setupExample.layOut.Divides ·) = true := by decide
  exact ⟨by decide +kernel,
    no_zero_divisor (fun det active => of_decide_eq_true (List.all_eq_true.1 divides det active)) _⟩

end Driver

namespace Sys

/-- A Y/TOF plot of a detector that has no width, and a PixelID/TOF plot without a TOF
range. -/
def noDivisors : List Label :=
  [.write 0 .numDet 2 true, .write 0 .tofMax 0 true,
    .write 1 .pixelNumEnd 3 true, .write 1 .pixelSizeX 0 true, .write 1 .twoDType 2 true,
    .write 1 .pixelROISizeX 1 true,
    .write 2 .pixelNumStart 4 true, .write 2 .pixelNumEnd 7 true, .write 2 .pixelSizeX 2 true,
    .write 2 .twoDType 3 true, .write 2 .tofNumBins 5 true, .write 2 .pixelROISizeX 1 true,
    .write 0 .allocSpace 1 true]

/-- A packet with an event at time 0 makes the handler divide by zero, for the width of the
first detector as well as for the bins of the second. -/
theorem divides_by_zero :
    ∃ s, (init .blank).run noDivisors = some s ∧ s.drv.dataAlloc = false ∧ s.drv.tofMax = 0 ∧
      0 ∈ s.drv.divisors (.single 0 1 0) ∧ 0 ∈ s.drv.divisors (.single 0 5 0) ∧
      s.drv.eventHandler (.single 0 1 0) = none ∧ s.drv.eventHandler (.single 0 5 0) = none := by
  obtain ⟨s, reached⟩ : ∃ s, (init .blank).run noDivisors = some s := ⟨_, rfl⟩
  have state : s.drv.dataAlloc = false ∧ s.drv.tofMax = 0 ∧ s.drv.divisors (.single 0 1 0) = [0, 1] ∧
      s.drv.divisors (.single 0 5 0) = [0] := by
    cases reached
    decide +kernel
  obtain ⟨down, tofMax, width, bins⟩ := state
  have first : 0 ∈ s.drv.divisors (.single 0 1 0) := by simp [width]
  have second : 0 ∈ s.drv.divisors (.single 0 5 0) := by simp [bins]
  exact ⟨s, reached, down, tofMax, first, second, Driver.eventHandler_zero_divisor first,
    Driver.eventHandler_zero_divisor second⟩

end Sys

end ADnED
