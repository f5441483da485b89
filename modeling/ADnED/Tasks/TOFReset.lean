import ADnED.Tasks.LayoutRuns
import ADnED.Driver.Buffer
import ADnED.Driver.Confined

/-!
# The reset of a spectrum

`resetTOFArray` zeroes `m_tofMax + 1` cells from `TOFStart` on, and these come from
different places: `m_tofMax` is set at the beginning of `allocArray`, whether it
succeeds or not, `TOFStart` is published for the detectors that are in use then, and
`p_Data` may be older than both. `SpectraFit` is the invariant under which the reset is
one of the region published for the detector. A run keeps it if it never lowers
`NumDet`, and never lets an allocation be refused that would change `m_tofMax` under a
buffer (`reset_own_spectrum`).
-/

namespace ADnED

namespace Driver

/-- A detector that is not in use has no published spectrum; one that is in use has none
either, or one of `m_tofMax + 1` cells in `p_Data`. -/
structure SpectraFit (d : Driver) : Prop where
  four : d.numDets ≤ maxDets
  unused : ∀ det, d.numDets < det → d.int det .ndArrayTOFStart = 0
  inside : ∀ b, d.pData = some b → ∀ det, 1 ≤ det → d.int det .ndArrayTOFStart ≠ 0 →
    0 ≤ (d.int det .ndArrayTOFStart).toInt ∧
      (d.int det .ndArrayTOFEnd).toInt = (d.int det .ndArrayTOFStart).toInt + d.tofMax.toNat ∧
      (d.int det .ndArrayTOFEnd).toInt < b.length

/-- Only the number of detectors, the spectra, the TOF range and the size of the buffer
matter. -/
theorem SpectraFit.of_same {d d' : Driver} (h : d.SpectraFit) (count : d'.int 0 .numDet = d.int 0 .numDet)
    (spectra : ∀ addr p, p.isSpectrum = true → d'.int addr p = d.int addr p) (range : d'.tofMax = d.tofMax)
    (size : d'.pData.map List.length = d.pData.map List.length) : d'.SpectraFit where
  four := by
    rw [numDets, count]
    exact h.four
  unused := by
    intro det beyond
    rw [numDets, count] at beyond
    rw [spectra det _ rfl]
    exact h.unused det beyond
  inside := by
    intro b data det lo some_start
    rw [data] at size
    obtain ⟨c, data', length⟩ := Option.map_eq_some_iff.1 size.symm
    rw [spectra det _ rfl] at some_start
    rw [spectra det _ rfl, spectra det _ rfl, range, ← length]
    exact h.inside c data' det lo some_start

theorem SpectraFit.congr {d d' : Driver} (h : d.SpectraFit) (same : SameLayout d d') : d'.SpectraFit :=
  h.of_same (same.int 0 .numDet rfl) (fun addr p spectrum => same.int addr p (by cases p <;> first | rfl | cases spectrum))
    same.tofMax same.size

/-! ## Allocations -/

/-- The first loop publishes nothing for a detector that it does not come to. -/
theorem allocPixels_other (ds : List Nat) (d : Driver) {addr : Nat} (h : addr ∉ ds) (p : IntParam) :
    (allocPixels ds d).1.int addr p = d.int addr p := by
  induction ds generalizing d with
  | nil => rfl
  | cons det ds ih =>
    have other : addr ≠ det := fun eq => h (by simp [eq])
    rw [allocPixels]
    split
    · rw [ih _ fun mem => h (by simp [mem])]
      simp [publishPixels, other]
    · rfl

/-- `allocArray` only publishes parameters of the detectors in use. -/
theorem allocArray_other (callocOk : Bool) (d : Driver) {addr : Nat} (h : addr = 0 ∨ d.numDets < addr) (p : IntParam) :
    (d.allocArray callocOk).1.int addr p = d.int addr p := by
  have outside : addr ∉ dets (d.int 0 .numDet) := by
    rw [mem_dets]
    unfold numDets at h
    omega
  have pixels := allocPixels_other (dets (d.int 0 .numDet))
    { d with tofMax := (d.int 0 .tofMax).toUInt32, dataMaxSize := 0 } outside p
  have finish : ∀ e : Driver, (allocFinish e).1.int = e.int := by
    intro e
    unfold allocFinish
    split <;> rfl
  have buffer : ∀ (e : Driver) (numDet tofMax : Int32), (allocBuffer callocOk numDet tofMax e).int = e.int := by
    intro e numDet tofMax
    unfold allocBuffer
    split <;> rfl
  simp only [allocArray]
  split
  · rfl
  · split
    · rfl
    · split
      · rename_i e failed
        rw [failed] at pixels
        exact pixels
      · rename_i e laid
        rw [laid] at pixels
        have beyond : ¬ (0 < addr ∧ addr ≤ 0 + (d.int 0 .numDet).toInt.toNat) := by
          unfold numDets at h
          omega
        rw [finish, buffer, allocTOF_due]
        exact (if_neg beyond).trans pixels

/-- The sizes and the TOF range are not negative, and the cells can be counted by an `int`. -/
structure Countable (d : Driver) : Prop where
  sizes : ∀ det, 1 ≤ det → det ≤ d.numDets → 0 ≤ d.detSize det
  tofMax : 0 ≤ d.int 0 .tofMax
  total : d.totalCells < 2 ^ 31

/-- An allocation that is refused does not change the TOF range under a buffer. -/
def KeepsRange (d : Driver) : Prop :=
  d.dataAlloc = true → d.Refuses → d.pData = none ∨ d.tofMax = (d.int 0 .tofMax).toUInt32

/-- A layout that has been computed. -/
theorem Placed.spectraFit {d : Driver} (h : d.Placed) (unused : ∀ det, d.numDets < det → d.int det .ndArrayTOFStart = 0) :
    d.SpectraFit where
  four := h.numDets_le
  unused := unused
  inside := by
    intro b data det lo some_start
    have hi : det ≤ d.numDets := by
      by_contra beyond
      exact some_start (unused det (by omega))
    obtain ⟨b', data', length⟩ := h.buffer_length
    obtain rfl : b' = b := Option.some.inj (data'.symm.trans data)
    have first := h.ndArrayTOFStart lo hi
    have last := h.ndArrayTOFEnd lo hi
    have cells : d.tofMax.toNat + 1 = d.numCells det .spectrum := h.tofMax_eq
    have region := d.region_in_buffer lo hi .spectrum
    omega

/-- `allocArray` keeps the invariant. -/
theorem allocArray_spectraFit (callocOk : Bool) {d : Driver} (h : d.SpectraFit) (countable : d.Countable)
    (keeps : d.KeepsRange) : (d.allocArray callocOk).1.SpectraFit := by
  have count : (d.allocArray callocOk).1.int 0 .numDet = d.int 0 .numDet := allocArray_other callocOk d (.inl rfl) _
  have beyond : ∀ det, d.numDets < det → (d.allocArray callocOk).1.int det .ndArrayTOFStart = 0 := by
    intro det outside
    rw [allocArray_other callocOk d (.inr outside)]
    exact h.unused det outside
  have lost : (d.allocArray callocOk).1.pData = none → (d.allocArray callocOk).1.SpectraFit := by
    intro none
    refine ⟨?_, ?_, fun b data => by simp [none] at data⟩
    · rw [numDets, count]
      exact h.four
    · intro det outside
      rw [numDets, count] at outside
      exact beyond det outside
  cases due : d.dataAlloc with
  | false =>
    rw [allocArray, if_pos due]
    exact h
  | true =>
    by_cases refuses : d.Refuses
    · obtain ⟨e, result, -, data, -, range, spectra⟩ := allocArray_refuses callocOk due refuses
      rw [result] at count lost ⊢
      rcases keeps due refuses with none | same
      · exact lost (data.trans none)
      · exact h.of_same count spectra (range.trans same.symm) (congrArg _ data)
    · rcases allocArray_goes_on callocOk due refuses with ⟨-, e, result, -, data⟩ | ⟨-, layable, result⟩
      · rw [result] at lost ⊢
        exact lost data
      · rw [result] at count beyond ⊢
        refine (layable.placed h.four countable.sizes countable.tofMax countable.total).spectraFit ?_
        intro det outside
        rw [numDets, count] at outside
        exact beyond det outside

/-! ## Record writes -/

/-- A write of `NumDet` is stored, or refused. -/
theorem applyInt32_numDet (callocOk : Bool) (d : Driver) (addr : Nat) (value : Int32) :
    (d.applyInt32 callocOk addr .numDet value).1 = d ∨ d.adStatus ≠ .acquire ∧ value.toInt ≤ maxDets ∧
      (d.applyInt32 callocOk addr .numDet value).1 = d.storeInt addr .numDet value := by
  simp only [applyInt32, writeBounded]
  split
  · exact .inl rfl
  · split
    · rename_i idle
      split
      · exact .inl rfl
      · exact .inr ⟨idle, by omega, rfl⟩
    · exact .inl rfl

/-- The write does not lower `NumDet`. -/
def KeepsDetectors (d : Driver) (addr : Nat) (p : IntParam) (value : Int32) : Prop :=
  p = .numDet → addr = 0 → d.adStatus ≠ .acquire → value.toInt ≤ maxDets → (d.int 0 .numDet).toInt ≤ value.toInt

/-- More detectors may have a spectrum; those that are there stay. -/
theorem SpectraFit.raise {d : Driver} (h : d.SpectraFit) {value : Int32} (four : value.toInt ≤ maxDets)
    (raised : (d.int 0 .numDet).toInt ≤ value.toInt) : (d.storeInt 0 .numDet value).SpectraFit := by
  have count : (d.storeInt 0 .numDet value).numDets = value.toInt.toNat := by simp [numDets, storeInt_eq]
  have others : ∀ a p, p.isSpectrum = true → (d.storeInt 0 .numDet value).int a p = d.int a p := by
    intro a p spectrum
    exact storeInt_other d (by rintro rfl; cases spectrum)
  refine ⟨by rw [count]; omega, ?_, ?_⟩
  · intro det beyond
    rw [count] at beyond
    rw [others det _ rfl]
    exact h.unused det (by unfold numDets; omega)
  · intro b data det lo some_start
    rw [others det _ rfl] at some_start
    rw [others det _ rfl, others det _ rfl]
    have held : d.pData = some b := by simpa [storeInt_eq] using data
    simpa [storeInt_eq] using h.inside b held det lo some_start

/-- Every write that does not lower `NumDet` keeps the invariant, if its allocation does. -/
theorem applyInt32_spectraFit {callocOk : Bool} {d : Driver} (h : d.SpectraFit) {addr : Nat} {p : IntParam}
    {value : Int32} (writable : p.writable = true) (detectors : d.KeepsDetectors addr p value)
    (countable : p = .allocSpace → d.Countable) (keeps : p = .allocSpace → d.adStatus ≠ .acquire → d.KeepsRange) :
    (d.applyInt32 callocOk addr p value).1.SpectraFit := by
  by_cases number : p = .numDet
  · subst number
    rcases applyInt32_numDet callocOk d addr value with same | ⟨idle, four, stored⟩
    · rw [same]
      exact h
    · rw [stored]
      by_cases here : addr = 0
      · subst here
        exact h.raise four (detectors rfl rfl idle four)
      · exact h.congr (storeInt_same d fun layout => absurd (by simpa [IntParam.layoutAt] using layout) here)
  · by_cases space : p = .allocSpace ∧ addr ≤ maxDets ∧ d.adStatus ≠ .acquire
    · obtain ⟨rfl, inRange, idle⟩ := space
      have allocated := allocArray_spectraFit callocOk h (countable rfl) (keeps rfl idle)
      exact allocated.congr (allocSpace_layout callocOk value inRange idle)
    · have wrote := applyInt32_wrote callocOk d addr value writable
      generalize (d.applyInt32 callocOk addr p value).1 = d' at wrote ⊢
      cases wrote with
      | same layout status => exact h.congr layout
      | due idle =>
        have others : ∀ a q, q.isSpectrum = true →
            (storeInt { d with dataAlloc := true } addr p value).int a q = d.int a q := by
          intro a q spectrum
          apply storeInt_other
          rintro rfl
          cases q <;> simp [IntParam.isSpectrum, IntParam.writable] at spectrum writable
        exact h.of_same (storeInt_other _ (Ne.symm number)) others (by rw [storeInt_eq]) (by rw [storeInt_eq])
      | numDet param idle few => exact absurd param number
      | allocated param inRange idle success => exact absurd ⟨param, inRange, idle⟩ space
      | failed param inRange idle error => exact absurd ⟨param, inRange, idle⟩ space

/-! ## The reset -/

/-- The reset of `det` leads from `d` to `d'`: it does nothing, or `det` is in use, its
published spectrum lies in the buffer and is what is zeroed, and no other cell is changed.
`resetTOFRange` has the cells that are written, whether or not they are in the buffer. -/
def ResetsOwn (d : Driver) (det : Nat) (d' : Driver) : Prop :=
  d.resetTOFRange det = none ∧ d'.pData = d.pData ∨ det ≤ d.numDets ∧ ∃ b first last, d.pData = some b ∧
    (d.int det .ndArrayTOFStart).toInt = (first : Nat) ∧ (d.int det .ndArrayTOFEnd).toInt = (last : Nat) ∧
    first ≤ last ∧ last < b.length ∧ d.resetTOFRange det = some (first, last + 1 - first) ∧
    d'.pData = some (b.mapIdx fun i v => if first ≤ i ∧ i ≤ last then 0 else v)

theorem SpectraFit.resetsOwn {d : Driver} (h : d.SpectraFit) {det : Nat} (lo : 1 ≤ det) :
    d.ResetsOwn det (d.resetTOFArray det) := by
  by_cases resets : 0 < d.tofMax ∧ d.pData.isSome = true ∧ 0 < d.int det .ndArrayTOFStart
  · have range : d.resetTOFRange det =
        some ((d.int det .ndArrayTOFStart).toInt.toNat, (d.tofMax + 1).toNat) := if_pos resets
    obtain ⟨-, held, start⟩ := resets
    obtain ⟨b, data⟩ := Option.isSome_iff_exists.1 held
    have some_start : d.int det .ndArrayTOFStart ≠ 0 := by
      intro zero
      rw [zero] at start
      exact absurd start (by decide)
    have used : det ≤ d.numDets := by
      by_contra beyond
      exact some_start (h.unused det (by omega))
    obtain ⟨nonneg, last, inside⟩ := h.inside b data det lo some_start
    have bounds := Word32.toInt_bounds (d.int det .ndArrayTOFEnd)
    have cells : (d.tofMax + 1).toNat = d.tofMax.toNat + 1 := by
      rw [UInt32.toNat_add, UInt32.toNat_one]
      omega
    rw [cells] at range
    refine .inr ⟨used, b, (d.int det .ndArrayTOFStart).toInt.toNat, (d.int det .ndArrayTOFEnd).toInt.toNat, data,
      by omega, by omega, by omega, by omega, ?_, ?_⟩
    · rw [range]
      congr 2
      omega
    · simp only [resetTOFArray, range, data, Option.map_some, zeroCells]
      congr 2
      funext i v
      congr 1
      rw [eq_iff_iff]
      omega
  · have range : d.resetTOFRange det = none := if_neg resets
    exact .inl ⟨range, by simp only [resetTOFArray, range]⟩

end Driver

namespace Sys

/-- An allocation that the step makes has sizes that are not negative and fit. -/
def Counts (s : Sys) : Label → Prop
  | .write _ p _ _ => p = .allocSpace → s.drv.Countable
  | .event _ => s.event.pc = .startSection → s.drv.Countable
  | _ => True

/-- The step does not lower `NumDet`, and an allocation that it makes does not change the
TOF range under a buffer without replacing this. -/
def KeepsSpectra (s : Sys) : Label → Prop
  | .write addr p value _ =>
    s.drv.KeepsDetectors addr p value ∧ (p = .allocSpace → s.drv.adStatus ≠ .acquire → s.drv.KeepsRange)
  | .event _ => s.event.pc = .startSection → s.drv.KeepsRange
  | _ => True

/-- Every such step keeps the invariant. -/
theorem step_spectraFit {s s' : Sys} {l : Label} (h : s.drv.SpectraFit) (ok : s.Counts l ∧ s.KeepsSpectra l)
    (hs : s.step l = some s') : s'.drv.SpectraFit := by
  cases l with
  | write addr p value callocOk =>
    obtain ⟨writable, -, rfl⟩ := step_write hs
    exact Driver.applyInt32_spectraFit h writable ok.2.1 ok.1 ok.2.2
  | packet p =>
    obtain ⟨-, r, hr, rfl⟩ := step_packet hs
    exact h.congr (.of_handled (Driver.eventHandler_handled hr))
  | event env =>
    obtain ⟨r, hr, rfl⟩ := step_eventTask hs
    rcases EventTask.step_tasked hr with ⟨-, tasked, -⟩ | ⟨pc, start⟩
    · exact h.congr tasked.sameLayout
    · have tasked := (EventTask.startSection_tasked env (s.event.thread s.drv)).1
      rw [← start] at tasked
      have allocated := Driver.allocArray_spectraFit env.callocOk h (ok.1 pc) (ok.2 pc)
      exact allocated.congr tasked.sameLayout
  | frame env =>
    obtain ⟨r, hr, rfl⟩ := step_frameTask hs
    exact h.congr (FrameTask.step_tasked hr).1.sameLayout

/-- **A reset touches only its own spectrum.** In a run of allocations that can be counted,
that never lowers `NumDet` and never has an allocation refused that changes the TOF range
under a buffer, a reset leaves `p_Data` alone, or zeroes the published spectrum of a
detector in use. -/
theorem reset_own_spectrum {u : Uninit} {ls : List Label} {s : Sys} (reached : (init u).run ls = some s)
    (counts : Runs.Meets step Counts (init u) ls) (keeps : Runs.Meets step KeepsSpectra (init u) ls)
    {det : Nat} (lo : 1 ≤ det) (hi : det ≤ maxDets) (value : Int32) (callocOk : Bool) :
    s.drv.ResetsOwn det (s.drv.applyInt32 callocOk det .tofArrayReset value).1 := by
  have fit : s.drv.SpectraFit :=
    Runs.run_invariant_of_meets (fun s => s.drv.SpectraFit) (fun _ _ _ => step_spectraFit) reached (counts.and keeps)
      ⟨Nat.zero_le _, fun _ _ => rfl, fun b data => by cases data⟩
  have reset : (s.drv.applyInt32 callocOk det .tofArrayReset value).1 =
      (s.drv.resetTOFArray det).storeInt det .tofArrayReset value := by
    rw [Driver.applyInt32, if_neg (by omega)]
  rw [reset, Driver.storeInt_eq]
  exact fit.resetsOwn lo

/-- No write lowers `NumDet`, and the parameters are right for every allocation. -/
def spectraCheck (s : Sys) : Label → Bool
  | .write _ p value _ => (p != .numDet || decide ((s.drv.int 0 .numDet).toInt ≤ value.toInt)) &&
      (p != .allocSpace || s.drv.placeable)
  | .packet _ => true
  | _ => false

/-- The allocations can be counted. -/
def countsCheck (s : Sys) : Label → Bool
  | .write _ p _ _ => p != .allocSpace || decide (0 ≤ s.drv.int 0 .tofMax) && decide (s.drv.totalCells < 2 ^ 31) &&
      (dets (s.drv.int 0 .numDet)).all fun det => decide (0 ≤ s.drv.detSize det)
  | .packet _ => true
  | _ => false

theorem counts_of_check (s : Sys) (l : Label) (h : s.countsCheck l = true) : s.Counts l := by
  cases l with
  | write addr p value callocOk =>
    rintro rfl
    simp only [countsCheck, bne_self_eq_false, Bool.false_or, Bool.and_eq_true, decide_eq_true_eq,
      List.all_eq_true, mem_dets] at h
    exact ⟨fun det lo hi => h.2 det ⟨lo, hi⟩, h.1.1, h.1.2⟩
  | packet p => trivial
  | event env => cases h
  | frame env => trivial

theorem keepsSpectra_of_check (s : Sys) (l : Label) (h : s.spectraCheck l = true) : s.KeepsSpectra l := by
  cases l with
  | write addr p value callocOk =>
    obtain ⟨number, space⟩ := Bool.and_eq_true_iff.1 h
    constructor
    · rintro rfl - - -
      simpa using number
    · rintro rfl -
      have layable := (Driver.layOut_placed (d := s.drv) (by simpa using space)).1
      intro _ refuses
      exact absurd refuses (not_or.2 ⟨Driver.numDet_ne_zero layable, not_not.2 layable.ordered⟩)
  | packet p => trivial
  | event env => cases h
  | frame env => trivial

/-- Two detectors, and an event of the second one. -/
def twoSpectra : List Label :=
  [.write 0 .numDet 2 true, .write 0 .tofMax 3 true, .write 1 .pixelNumSize 2 true,
    .write 2 .pixelNumStart 5 true, .write 2 .pixelNumEnd 7 true, .write 1 .pixelROISizeX 1 true,
    .write 2 .pixelROISizeX 1 true, .write 0 .allocSpace 1 true, .packet (.single 0 6 2)]

/-- The spectrum of the second detector is reset, and nothing else. -/
theorem reset_own_spectrum_twoSpectra :
    ∃ s, (init .blank).run twoSpectra = some s ∧ s.drv.pData = some [0, 0, 0, 1, 0, 0, 0, 0, 0, 0, 0, 1, 0] ∧
      s.drv.ResetsOwn 2 (s.drv.applyInt32 true 2 .tofArrayReset 1).1 ∧
      (s.drv.applyInt32 true 2 .tofArrayReset 1).1.pData = some [0, 0, 0, 1, 0, 0, 0, 0, 0, 0, 0, 0, 0] := by
  obtain ⟨s, reached⟩ : ∃ s, (init .blank).run twoSpectra = some s :=
    Option.isSome_iff_exists.1 (by decide +kernel)
  have counts : Runs.Meets step Counts (init .blank) twoSpectra :=
    Runs.meets_of_checks counts_of_check (by decide +kernel)
  have keeps : Runs.Meets step KeepsSpectra (init .blank) twoSpectra :=
    Runs.meets_of_checks keepsSpectra_of_check (by decide +kernel)
  have data : ((init .blank).run twoSpectra).map (fun s => (s.drv.pData,
      (s.drv.applyInt32 true 2 .tofArrayReset 1).1.pData)) =
        some (some [0, 0, 0, 1, 0, 0, 0, 0, 0, 0, 0, 1, 0], some [0, 0, 0, 1, 0, 0, 0, 0, 0, 0, 0, 0, 0]) := by
    decide +kernel
  rw [reached, Option.map_some, Option.some.injEq, Prod.mk.injEq] at data
  exact ⟨s, reached, data.1, reset_own_spectrum reached counts keeps (by decide) (by decide) 1 true, data.2⟩

/-- A second detector is taken out of use, the first one gets more pixels and counts an
event. -/
def removedDetector : List Label :=
  [.write 0 .numDet 2 true, .write 0 .tofMax 3 true, .write 1 .pixelNumSize 2 true, .write 2 .pixelNumSize 3 true,
    .write 0 .allocSpace 1 true, .write 0 .numDet 1 true, .write 1 .pixelNumSize 20 true,
    .write 1 .pixelNumEnd 19 true, .write 1 .pixelROISizeX 1 true, .write 0 .allocSpace 1 true,
    .packet (.single 0 9 100)]

/-- The TOF range is made larger, but the allocation is refused for a range that is not in
order. -/
def widerRange : List Label :=
  [.write 0 .numDet 1 true, .write 0 .tofMax 3 true, .write 1 .pixelNumEnd 1 true, .write 0 .allocSpace 1 true,
    .write 0 .tofMax 50 true, .write 1 .pixelNumStart 5 true, .write 0 .allocSpace 1 true]

/-- The reset of the detector that is not in use zeroes the pixel 9 of the other one. The
reset after the refused allocation writes 51 cells from 2 on into a buffer of 6. -/
theorem reset_other_cells :
    (∃ s b, (init .blank).run removedDetector = some s ∧ Runs.Meets step Counts (init .blank) removedDetector ∧
      s.drv.int 0 .numDet = 1 ∧ s.drv.int 1 .ndArrayStart = 0 ∧ s.drv.int 1 .ndArrayEnd = 19 ∧
      s.drv.pData = some b ∧ b[9]? = some 1 ∧
      (s.drv.applyInt32 true 2 .tofArrayReset 1).1.pData.bind (·[9]?) = some 0 ∧
      ¬ s.drv.ResetsOwn 2 (s.drv.applyInt32 true 2 .tofArrayReset 1).1) ∧
    ∃ s, (init .blank).run widerRange = some s ∧ Runs.Meets step Counts (init .blank) widerRange ∧
      s.drv.pData.map List.length = some 6 ∧ s.drv.resetTOFRange 1 = some (2, 51) ∧
      ¬ s.drv.ResetsOwn 1 (s.drv.applyInt32 true 1 .tofArrayReset 1).1 := by
  constructor
  · obtain ⟨s, reached⟩ : ∃ s, (init .blank).run removedDetector = some s :=
      Option.isSome_iff_exists.1 (by decide +kernel)
    have layout : ((init .blank).run removedDetector).map (fun s =>
        (s.drv.int 0 .numDet, s.drv.int 1 .ndArrayStart, s.drv.int 1 .ndArrayEnd)) = some (1, 0, 19) := by
      decide +kernel
    have cells : ((init .blank).run removedDetector).map (fun s => (s.drv.pData.bind (·[9]?),
        (s.drv.applyInt32 true 2 .tofArrayReset 1).1.pData.bind (·[9]?))) = some (some 1, some 0) := by
      decide +kernel
    rw [reached, Option.map_some, Option.some.injEq, Prod.mk.injEq] at layout cells
    obtain ⟨b, data, before⟩ := Option.bind_eq_some_iff.1 cells.1
    obtain ⟨one, regions⟩ := layout
    refine ⟨s, b, reached, Runs.meets_of_checks counts_of_check (by decide +kernel), one, congrArg Prod.fst regions,
      congrArg Prod.snd regions, data, before, cells.2, ?_⟩
    rintro (⟨-, same⟩ | ⟨used, -⟩)
    · rw [same, cells.1] at cells
      exact absurd cells.2 (by decide)
    · rw [Driver.numDets, one] at used
      exact absurd used (by decide)
  · obtain ⟨s, reached⟩ : ∃ s, (init .blank).run widerRange = some s :=
      Option.isSome_iff_exists.1 (by decide +kernel)
    have state : ((init .blank).run widerRange).map (fun s => (s.drv.pData.map List.length, s.drv.resetTOFRange 1)) =
        some (some 6, some (2, 51)) := by
      decide +kernel
    rw [reached, Option.map_some, Option.some.injEq, Prod.mk.injEq] at state
    refine ⟨s, reached, Runs.meets_of_checks counts_of_check (by decide +kernel), state.1, state.2, ?_⟩
    rintro (⟨none, -⟩ | ⟨-, b, first, last, data, -, -, -, inside, range, -⟩)
    · rw [state.2] at none
      cases none
    · have size := state.1
      rw [data, Option.map_some, Option.some.injEq] at size
      rw [state.2, Option.some.injEq, Prod.mk.injEq] at range
      omega

end Sys

end ADnED
