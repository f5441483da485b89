import ADnED.Lib.SizeT
import ADnED.Lib.Stores
import Mathlib.Algebra.Order.Ring.Rat
import Mathlib.Tactic.Linarith
import Mathlib.Tactic.Ring

/-!
# The axis of the time-of-flight plot

The functions of the `aSub` record `TOF:XAxis` (`ADnEDAxis.c`). The array is filled with one value and then
overwritten from the front by the points of the scale (`process_accepted`). The value for the rest is
`size*bin`, without the start, so the array goes down after the last point when the start is
larger than a bin (`scale_monotone_iff`).
-/

namespace ADnED

open SizeT (ofInt)
open Stores (forLoop store)

/-- The inputs `a`, `b` and `c` of the record. -/
structure AxisInputs where
  start : ℚ
  size : Int32
  bin : ℚ

/-- The arrays of an `aSub` record with a given `nova`, which cannot change: the private one at `dpvt`, and
the output `vala`. -/
structure ASubRecord (nova : UInt32) where
  dpvt : Vector ℚ nova.toNat
  vala : Vector ℚ nova.toNat

/-- What `ADnEDAxisInit` makes of `nova`. -/
def atLeastOne (nova : UInt32) : UInt32 := if nova < 1 then 1 else nova

/-- The record after `ADnEDAxisInit`. The output array is allocated by the record support. -/
def ADnEDAxisInit (nova : UInt32) : ASubRecord (atLeastOne nova) where
  dpvt := Vector.replicate _ 0
  vala := Vector.replicate _ 0

/-- `memcpy` between two blocks of doubles. -/
def memcpyDouble {n : Nat} (dst src : Vector ℚ n) (bytes : UInt64) : Option (Vector ℚ n) :=
  if bytes.toNat ≤ 8 * n then
    some (Vector.ofFn fun i : Fin n => if 8 * i.val < bytes.toNat then src.get i else dst.get i)
  else none

/-- One iteration of the second loop, on `point` and `pData`. -/
def addPoint {n : Nat} (bin : ℚ) (i : Nat) (s : ℚ × Vector ℚ n) : Option (ℚ × Vector ℚ n) :=
  (store s.2 i s.1).map fun pData => (s.1 + bin, pData)

variable {nova : UInt32}

/-- `ADnEDAxisProcess`, with the value it returns. -/
def ADnEDAxisProcess (inputs : AxisInputs) (psub : ASubRecord nova) : Option (Int × ASubRecord nova) :=
  let maxsize : Int32 := nova.toInt32
  if maxsize < inputs.size then some (1, psub)
  else do
    let point := inputs.size.toInt * inputs.bin
    let pData ← forLoop 0 maxsize.toInt.toNat (fun i pData => store pData i point) psub.dpvt
    let (_, pData) ← forLoop 0 inputs.size.toInt.toNat (addPoint inputs.bin) (inputs.start, pData)
    let vala ← memcpyDouble psub.vala pData (ofInt maxsize * 8)
    some (0, ⟨pData, vala⟩)

/-! ## What a processing leaves -/

/-- The points of the scale, and the value that the rest of the array is filled with. -/
def scale (inputs : AxisInputs) (i : Nat) : ℚ :=
  if (i : Int) < inputs.size.toInt then inputs.start + i * inputs.bin else inputs.size.toInt * inputs.bin

/-- The first `nova` values of the scale. -/
def scaled (nova : UInt32) (inputs : AxisInputs) : Vector ℚ nova.toNat := Vector.ofFn fun i => scale inputs i

theorem memcpyDouble_all {n : Nat} {dst src : Vector ℚ n} {bytes : UInt64} (all : bytes.toNat = 8 * n) :
    memcpyDouble dst src bytes = some src := by
  rw [memcpyDouble, if_pos (Nat.le_of_eq all), all]
  congr 1
  ext i below
  simp [Vector.get]

/-- The first loop leaves nothing of the former contents. -/
theorem fill_eq {n : Nat} (pData : Vector ℚ n) (point : ℚ) :
    forLoop 0 n (fun i pData => store pData i point) pData = some (Vector.replicate n point) := by
  have filled : ∃ b', forLoop 0 n (fun i pData => store pData i point) pData = some b' ∧
      Stores.Wrote point (fun j => j < n) pData b' := by
    refine Stores.forLoop_wrote (P := fun i j => i = j) (fun i b _ lt => Stores.store_wrote lt) ?_
    intro j
    constructor
    · rintro ⟨i, -, lt, rfl⟩
      exact lt
    · intro lt
      exact ⟨j, Nat.zero_le j, lt, rfl⟩
  obtain ⟨b', run, wrote⟩ := filled
  rw [run]
  congr 1
  ext i below
  rw [wrote.here i below below, Vector.getElem_replicate]

/-- The second loop before iteration `k`: the sum is the next point, and the points below `k` are in place. -/
structure PointsBelow {n : Nat} (inputs : AxisInputs) (k : Nat) (s : ℚ × Vector ℚ n) : Prop where
  next : s.1 = inputs.start + k * inputs.bin
  values : ∀ j (h : j < n),
    s.2[j] = if j < k then inputs.start + j * inputs.bin else inputs.size.toInt * inputs.bin

theorem addPoint_below {n k : Nat} {inputs : AxisInputs} {s : ℚ × Vector ℚ n} (inside : k < n)
    (soFar : PointsBelow inputs k s) :
    ∃ s', addPoint inputs.bin k s = some s' ∧ PointsBelow inputs (k + 1) s' := by
  refine ⟨(s.1 + inputs.bin, s.2.set k s.1 inside), ?_, ?_, ?_⟩
  · rw [addPoint, Stores.store_eq_some inside]
    rfl
  · rw [soFar.next]
    push_cast
    ring
  · intro j below
    rcases Nat.lt_trichotomy j k with before | rfl | after
    · rw [Vector.getElem_set_ne inside below (by omega), soFar.values j below, if_pos before, if_pos (by omega)]
    · rw [Vector.getElem_set_self, soFar.next, if_pos (Nat.lt_succ_self j)]
    · rw [Vector.getElem_set_ne inside below (by omega), soFar.values j below, if_neg (by omega), if_neg (by omega)]

theorem points_eq {inputs : AxisInputs} (fits : inputs.size.toInt ≤ nova.toNat) :
    ∃ last, forLoop 0 inputs.size.toInt.toNat (addPoint inputs.bin)
      (inputs.start, Vector.replicate nova.toNat (inputs.size.toInt * inputs.bin)) =
        some (last, scaled nova inputs) := by
  have first : PointsBelow inputs 0 (inputs.start, Vector.replicate nova.toNat (inputs.size.toInt * inputs.bin)) :=
    ⟨by simp, by simp⟩
  obtain ⟨⟨last, pData⟩, run, -, values⟩ := Stores.forLoop_invariant (PointsBelow inputs) first
    (fun k s _ (lt : k < inputs.size.toInt.toNat) soFar => addPoint_below (by omega) soFar)
  refine ⟨last, run.trans ?_⟩
  congr 2
  ext j below
  rw [values j below, scaled, Vector.getElem_ofFn, scale]
  have same : j < max 0 inputs.size.toInt.toNat ↔ (j : Int) < inputs.size.toInt := by omega
  simp only [same]

variable {inputs : AxisInputs} {psub : ASubRecord nova}

theorem toInt_nova (small : nova.toNat < 2 ^ 31) : nova.toInt32.toInt = nova.toNat :=
  Word32.toInt_toInt32_of_lt small

theorem process_accepted (small : nova.toNat < 2 ^ 31) (fits : inputs.size.toInt ≤ nova.toNat) :
    ADnEDAxisProcess inputs psub = some (0, ⟨scaled nova inputs, scaled nova inputs⟩) := by
  have maxsize := toInt_nova small
  have accepted : ¬ nova.toInt32 < inputs.size := by
    rw [Int32.lt_iff_toInt_lt, maxsize]
    omega
  have bytes : (ofInt nova.toInt32 * 8).toNat = 8 * nova.toNat := by
    have eight : (8 : UInt64).toNat = 8 := rfl
    rw [UInt64.toNat_mul, SizeT.toNat_ofInt_of_nonneg (by omega), maxsize, eight]
    omega
  obtain ⟨last, points⟩ := points_eq fits
  simp only [ADnEDAxisProcess, if_neg accepted, maxsize, Int.toNat_natCast, fill_eq, Option.bind_eq_bind,
    Option.bind_some, points, memcpyDouble_all bytes]

/-- For an array of `2^31` elements and more every size that is not negative is too large: `maxsize` is negative. -/
theorem process_rejected (large : nova.toNat < inputs.size.toInt ∨ 2 ^ 31 ≤ nova.toNat ∧ 0 ≤ inputs.size.toInt) :
    ADnEDAxisProcess inputs psub = some (1, psub) := by
  have rejected : nova.toInt32 < inputs.size := by
    have word := Word32.toInt_toInt32 nova
    have below := nova.toNat_lt
    rw [Int32.lt_iff_toInt_lt]
    split at word <;> omega
  rw [ADnEDAxisProcess, if_pos rejected]

/-! ## Processings one after the other -/

/-- The record after it has been processed with each of the inputs in turn. -/
def processings (psub : ASubRecord nova) (inputs : List AxisInputs) : Option (ASubRecord nova) :=
  inputs.foldlM (fun psub inputs => (ADnEDAxisProcess inputs psub).map Prod.snd) psub

/-- The last inputs that were not rejected. -/
def lastAccepted (nova : UInt32) (inputs : List AxisInputs) : Option AxisInputs :=
  (inputs.filter fun inputs => decide (inputs.size.toInt ≤ (nova.toNat : Int))).getLast?

theorem lastAccepted_append (list : List AxisInputs) (inputs : AxisInputs) :
    lastAccepted nova (list ++ [inputs]) =
      if inputs.size.toInt ≤ nova.toNat then some inputs else lastAccepted nova list := by
  unfold lastAccepted
  rw [List.filter_append, List.getLast?_append]
  split <;> simp [*]

/-- Nothing is left of what was there before the last inputs that were not rejected. -/
theorem processings_eq (small : nova.toNat < 2 ^ 31) (psub : ASubRecord nova) (list : List AxisInputs) :
    processings psub list =
      some (((lastAccepted nova list).map fun last => ⟨scaled nova last, scaled nova last⟩).getD psub) := by
  induction list using List.reverseRecOn with
  | nil => rfl
  | append_singleton list inputs ih =>
    rw [processings] at ih
    rw [processings, List.foldlM_append, ih, lastAccepted_append]
    by_cases fits : inputs.size.toInt ≤ nova.toNat
    · simp [process_accepted small fits, fits]
    · simp [process_rejected (.inl (Int.not_le.1 fits)), fits]

/-- The output of a record since its initialization. -/
theorem init_processings (small : (atLeastOne nova).toNat < 2 ^ 31) (list : List AxisInputs) :
    ∃ psub, processings (ADnEDAxisInit nova) list = some psub ∧
      psub.vala = ((lastAccepted (atLeastOne nova) list).map (scaled (atLeastOne nova))).getD (Vector.replicate _ 0) := by
  refine ⟨_, processings_eq small _ list, ?_⟩
  cases lastAccepted (atLeastOne nova) list <;> rfl

/-! ## The order of the values -/

theorem scale_point {i : Nat} (below : (i : Int) < inputs.size.toInt) : scale inputs i = inputs.start + i * inputs.bin :=
  if_pos below

theorem scale_rest {i : Nat} (above : inputs.size.toInt ≤ i) : scale inputs i = inputs.size.toInt * inputs.bin :=
  if_neg (Int.not_lt.2 above)

/-- Where the points end, one value of the rest follows. It is not smaller exactly if the start is at most a bin. -/
theorem scale_seam {k : Nat} (size : inputs.size.toInt = (k + 1 : Nat)) :
    scale inputs k ≤ scale inputs (k + 1) ↔ inputs.start ≤ inputs.bin := by
  rw [scale_point (by omega), scale_rest (by omega), size]
  push_cast
  constructor
  · intro up
    linarith
  · intro small
    linarith

theorem scale_le {i j : Nat} (bin : 0 ≤ inputs.bin) (le : i ≤ j)
    (seam : (j : Int) < inputs.size.toInt ∨ inputs.size.toInt ≤ 0 ∨ inputs.start ≤ inputs.bin) :
    scale inputs i ≤ scale inputs j := by
  by_cases rest : inputs.size.toInt ≤ i
  · rw [scale_rest rest, scale_rest (by omega)]
  · rw [scale_point (by omega)]
    by_cases point : (j : Int) < inputs.size.toInt
    · have steps : (i : ℚ) * inputs.bin ≤ j * inputs.bin := mul_le_mul_of_nonneg_right (by exact_mod_cast le) bin
      rw [scale_point point]
      linarith
    · -- the points go up to one bin below the value of the rest
      have small : inputs.start ≤ inputs.bin := by
        rcases seam with inside | empty | small
        · exact absurd inside point
        · omega
        · exact small
      have last : ((i : ℚ) + 1) * inputs.bin ≤ inputs.size.toInt * inputs.bin := by
        apply mul_le_mul_of_nonneg_right _ bin
        have next : (i : Int) + 1 ≤ inputs.size.toInt := by omega
        exact_mod_cast next
      rw [scale_rest (by omega)]
      linarith

theorem scale_monotone_iff {n : Nat} (bin : 0 ≤ inputs.bin) (nonneg : 0 ≤ inputs.size.toInt)
    (fits : inputs.size.toInt ≤ n) :
    (∀ i j, i ≤ j → j < n → scale inputs i ≤ scale inputs j) ↔
      inputs.size.toInt = 0 ∨ inputs.size.toInt = n ∨ inputs.start ≤ inputs.bin := by
  constructor
  · intro up
    by_cases empty : inputs.size.toInt = 0
    · exact .inl empty
    by_cases full : inputs.size.toInt = n
    · exact .inr (.inl full)
    obtain ⟨k, size⟩ : ∃ k : Nat, inputs.size.toInt = (k + 1 : Nat) := ⟨(inputs.size.toInt - 1).toNat, by omega⟩
    exact .inr (.inr ((scale_seam size).1 (up k (k + 1) (Nat.le_succ k) (by omega))))
  · intro seam i j le below
    apply scale_le bin le
    rcases seam with empty | full | small
    · exact .inr (.inl (by omega))
    · exact .inl (by omega)
    · exact .inr (.inr small)

/-- The array is a scale that never goes down exactly if its length is an `int` and there is no rest, nothing
but the rest, or a start of at most one bin. -/
theorem axis_monotone_iff (bin : 0 ≤ inputs.bin) (nonneg : 0 ≤ inputs.size.toInt)
    (fits : inputs.size.toInt ≤ nova.toNat) :
    (∃ psub', ADnEDAxisProcess inputs psub = some (0, psub') ∧
        (∀ i (h : i < nova.toNat), (i : Int) < inputs.size.toInt → psub'.vala[i] = inputs.start + i * inputs.bin) ∧
        ∀ i j (le : i ≤ j) (h : j < nova.toNat), psub'.vala[i] ≤ psub'.vala[j]) ↔
      nova.toNat < 2 ^ 31 ∧
        (inputs.size.toInt = 0 ∨ inputs.size.toInt = nova.toNat ∨ inputs.start ≤ inputs.bin) := by
  by_cases small : nova.toNat < 2 ^ 31
  · rw [← scale_monotone_iff bin nonneg fits, and_iff_right small, process_accepted small fits]
    constructor
    · rintro ⟨psub', same, -, up⟩ i j le below
      cases same
      simpa only [scaled, Vector.getElem_ofFn] using up i j le below
    · intro up
      refine ⟨_, rfl, ?_, ?_⟩
      · intro i below point
        rw [scaled, Vector.getElem_ofFn, scale_point point]
      · intro i j le below
        simpa only [scaled, Vector.getElem_ofFn] using up i j le below
  · rw [process_rejected (.inr ⟨by omega, nonneg⟩)]
    constructor
    · rintro ⟨psub', same, -⟩
      cases same
    · rintro ⟨below, -⟩
      exact absurd below small

/-- An array of three zeros. -/
def threeZeros : ASubRecord 3 := ⟨#v[0, 0, 0], #v[0, 0, 0]⟩

theorem axis_monotone_fromZero :
    ∃ psub', ADnEDAxisProcess ⟨0, 2, 1⟩ threeZeros = some (0, psub') ∧
      (∀ i (h : i < (3 : UInt32).toNat), (i : Int) < (2 : Int32).toInt → psub'.vala[i] = 0 + i * 1) ∧
      ∀ i j (le : i ≤ j) (h : j < (3 : UInt32).toNat), psub'.vala[i] ≤ psub'.vala[j] :=
  (@axis_monotone_iff 3 ⟨0, 2, 1⟩ threeZeros (by decide) (by decide) (by decide)).2 ⟨by decide, .inr (.inr (by decide))⟩

/-- From 10 on in bins of 1, the two points are followed by 2. -/
theorem axis_goesDown :
    ADnEDAxisProcess ⟨10, 2, 1⟩ threeZeros = some (0, ⟨#v[10, 11, 2], #v[10, 11, 2]⟩) := by
  have values : scaled 3 ⟨10, 2, 1⟩ = #v[10, 11, 2] := by decide +kernel
  rw [process_accepted (by decide) (by decide), values]

end ADnED
