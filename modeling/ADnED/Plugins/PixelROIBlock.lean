import ADnED.Plugins.PixelROI
import Mathlib.Tactic.FinCases
import Mathlib.Data.Fintype.Basic

/-!
# The block of the pixel ROI plugin

The dimensions are clamped one by one, in an order that leaves the size of the block without a bound:
it is compared with itself. So a block that is too long is read as it is (`block_inside_iff`). The X and Y
sizes are bounded by the size of the block each, and their product by the size of the input, which is
a different thing (`shape_cells_le_iff`).
-/

namespace ADnED

open SizeT (ofInt toInt maxOf minOf)

namespace ADnEDPixelROI

/-! ## Fixed dimensions -/

section Fix

variable (n : UInt64) (dims : Dims)

theorem foldl_fixDim_offset (dim : Fin 3) :
    (([0, 1, 2].foldl (fixDim n) dims) dim).offset = minOf (dims dim).offset (n - 1) := by
  fin_cases dim <;> simp [fixDim, Function.update]

theorem foldl_fixDim_size (dim : Fin 3) : (([0, 1, 2].foldl (fixDim n) dims) dim).size = shape dims dim := by
  fin_cases dim <;> simp [shape, fixDim, Function.update]

theorem fixDims_zero :
    (fixDims n dims 0).size = maxOf (dims 0).size 1 ∧ (fixDims n dims 0).offset = minOf (dims 0).offset (n - 1) := by
  have first : fixDims n dims 0 = [0, 1, 2].foldl (fixDim n) dims 0 := by
    unfold fixDims
    split <;> simp [Function.update]
  rw [first, foldl_fixDim_size, foldl_fixDim_offset, shape, SizeT.minOf_self]
  exact ⟨rfl, rfl⟩

theorem fixDims_shape :
    ((fixDims n dims 1).size, (fixDims n dims 2).size) =
      if n ≤ shape dims 1 * shape dims 2 then (1, 1) else (shape dims 1, shape dims 2) := by
  unfold fixDims
  rw [foldl_fixDim_size, foldl_fixDim_size]
  split
  · simp [Function.update]
  · rw [foldl_fixDim_size, foldl_fixDim_size]

end Fix

/-! ## The block that is read -/

theorem toNat_block (int : RoiParam → Int32) {n : UInt64} (nonempty : 1 ≤ n.toNat) :
    (block int n).size.toNat = max (ofInt (int (.dimSize 0))).toNat 1 ∧
      (block int n).offset.toNat = min (ofInt (int (.dimMin 0))).toNat (n.toNat - 1) := by
  have last : (n - 1).toNat = n.toNat - 1 := UInt64.toNat_sub_of_le n 1 (UInt64.le_iff_toNat_le.2 nonempty)
  obtain ⟨size, offset⟩ := fixDims_zero n (readDims int)
  simp only [block, size, offset, SizeT.toNat_maxOf, SizeT.toNat_minOf, last]
  exact ⟨rfl, rfl⟩

/-- Where the block begins: a negative position is the last element. -/
def firstElement (n : Nat) (min : Int32) : Int := if min.toInt < 0 then n - 1 else Min.min min.toInt (n - 1)

/-- A negative position is taken for a large one. -/
theorem offset_eq (min : Int32) {n : Nat} (small : n < 2 ^ 31) (nonempty : 1 ≤ n) :
    ((Min.min (ofInt min).toNat (n - 1) : Nat) : Int) = firstElement n min := by
  unfold firstElement
  by_cases nonneg : 0 ≤ min.toInt
  · rw [SizeT.toNat_ofInt_of_nonneg nonneg, if_neg (by omega)]
    omega
  · have large := SizeT.lt_ofInt nonneg
    rw [if_pos (by omega)]
    omega

/-- The block begins at an element, and whatever it is asked for has one element at least. -/
theorem block_bounds (int : RoiParam → Int32) {n : UInt64} (nonempty : 1 ≤ n.toNat) :
    1 ≤ (block int n).size.toNat ∧ (block int n).offset.toNat < n.toNat := by
  obtain ⟨size, offset⟩ := toNat_block int nonempty
  omega

theorem block_inside_iff (int : RoiParam → Int32) {n : UInt64} (nonempty : 1 ≤ n.toNat) (small : n.toNat < 2 ^ 31) :
    (block int n).offset.toNat + (block int n).size.toNat ≤ n.toNat ↔
      0 ≤ (int (.dimSize 0)).toInt ∧ firstElement n.toNat (int (.dimMin 0)) + max (int (.dimSize 0)).toInt 1 ≤ n.toNat := by
  obtain ⟨size, offset⟩ := toNat_block int nonempty
  have first := offset_eq (int (.dimMin 0)) small nonempty
  rw [← offset] at first
  by_cases nonneg : 0 ≤ (int (.dimSize 0)).toInt
  · rw [SizeT.toNat_ofInt_of_nonneg nonneg] at size
    omega
  · -- a negative size is more than there is in an array of this length
    have large := SizeT.lt_ofInt nonneg
    omega

theorem extract_isSome {a : NDArray} {target : NDDataType} {block : NDDimension}
    {element : a.dataType.Cell → target.Cell} :
    (a.extract block element).isSome ↔ block.offset.toNat + block.size.toNat ≤ a.size := by
  unfold NDArray.extract
  split <;> simp [*]

variable (s : ADnEDPixelROI) {env : RoiEnv} {mem : Arrays} {src dst : Nat} {target : NDDataType}
  {element : (mem src).dataType.Cell → target.Cell}

/-- A callback for which `convert` finds memory. -/
theorem processCallbacks_done
    (converted : env.convert (mem src).dataType (s.requestedType env (mem src)) = .done dst target element) :
    let dims := fixDims (mem src).length (readDims s.int)
    s.processCallbacks env mem src =
      ((mem src).extract (block s.int (mem src).length) element).map fun out =>
        (⟨setShape dims (env.others (writeBack (mem src).length dims s.int)), some dst⟩,
          Function.update mem dst { out with dims := [⟨(dims 1).size, 0, 1⟩, ⟨(dims 2).size, 0, 1⟩] }) := by
  simp only [processCallbacks, converted]

/-- A block is inside of the input exactly if its size is not negative and reaches at most to the end, and only
then does `convert` read nothing else. -/
theorem roi_reads_iff {x : NDDimension} (dims : (mem src).dims = [x]) (whole : (mem src).size = x.size.toNat)
    (nonempty : 1 ≤ x.size.toNat) (small : x.size.toNat < 2 ^ 31) :
    let b := block s.int (mem src).length
    ((1 ≤ b.size.toNat ∧ b.offset.toNat + b.size.toNat ≤ x.size.toNat) ↔
        0 ≤ (s.int (.dimSize 0)).toInt ∧
          firstElement x.size.toNat (s.int (.dimMin 0)) + max (s.int (.dimSize 0)).toInt 1 ≤ x.size.toNat) ∧
      ∀ dst target element,
        env.convert (mem src).dataType (s.requestedType env (mem src)) = .done dst target element →
        ((s.processCallbacks env mem src).isSome ↔ b.offset.toNat + b.size.toNat ≤ x.size.toNat) := by
  intro b
  have length : (mem src).length = x.size := by simp [NDArray.length, dims]
  have is_block : b = block s.int x.size := congrArg (block s.int) length
  constructor
  · rw [is_block, ← block_inside_iff s.int nonempty small]
    exact and_iff_right (block_bounds s.int nonempty).1
  · intro dst target element converted
    rw [processCallbacks_done s converted, Option.isSome_map, extract_isSome, whole]

/-- The numbers from 0 to 15. -/
def sixteen : NDArray := ⟨.uint32, [⟨16, 0, 1⟩], 16, Vector.ofFn fun i => UInt32.ofNat i, by decide⟩

/-- Arrays are copied to the address 1 as they are, and nobody else writes parameters. -/
def copying : RoiEnv where
  code := fun _ => 5
  convert := fun source _ => .done 1 source id
  others := fun int => int

/-- A plugin that keeps the data type. -/
def withDims (mins sizes : Vector Int32 3) : ADnEDPixelROI where
  int := fun p =>
    match p with
    | .dimMin dim => mins.get dim
    | .dimSize dim => sizes.get dim
    | .dataType => -1
    | _ => 0
  pArrays := none

theorem roi_reads_lastThree :
    ((withDims #v[13, 0, 0] #v[3, 3, 1]).processCallbacks copying (fun _ => sixteen) 0).isSome = true := by
  have reads := @roi_reads_iff (withDims #v[13, 0, 0] #v[3, 3, 1]) copying (fun _ => sixteen) 0 ⟨16, 0, 1⟩ rfl rfl
    (by decide) (by decide)
  exact (reads.2 1 .uint32 id rfl).2 (reads.1.2 (by decide)).2

/-- Four elements from the one at 13 on are one too many, and a size of -1 is one of `2^64 - 1` elements. -/
theorem roi_reads_outside :
    (withDims #v[13, 0, 0] #v[4, 1, 1]).processCallbacks copying (fun _ => sixteen) 0 = none ∧
      (block (withDims #v[13, 0, 0] #v[4, 1, 1]).int 16).offset.toNat +
        (block (withDims #v[13, 0, 0] #v[4, 1, 1]).int 16).size.toNat = 17 ∧
      (withDims #v[0, 0, 0] #v[-1, 1, 1]).processCallbacks copying (fun _ => sixteen) 0 = none ∧
      (block (withDims #v[0, 0, 0] #v[-1, 1, 1]).int 16).size.toNat = 2 ^ 64 - 1 :=
  ⟨rfl, by decide, rfl, by decide⟩

/-! ## The shape that is passed on -/

/-- X or Y for a block of `size` elements: a negative one is the whole block. -/
def shapeSize (size d : Int32) : Nat :=
  if d.toInt < 0 then size.toInt.toNat else min (max d.toInt.toNat 1) size.toInt.toNat

theorem toNat_shape {int : RoiParam → Int32} (size : 1 ≤ (int (.dimSize 0)).toInt) (dim : Fin 3) :
    (shape (readDims int) dim).toNat = shapeSize (int (.dimSize 0)) (int (.dimSize dim)) := by
  have one : (1 : UInt64).toNat = 1 := rfl
  have bounds := Word32.toInt_bounds (int (.dimSize 0))
  simp only [shape, readDims, SizeT.toNat_minOf, SizeT.toNat_maxOf, one]
  rw [@SizeT.toNat_ofInt_of_nonneg (int (.dimSize 0)) (by omega), shapeSize]
  by_cases nonneg : 0 ≤ (int (.dimSize dim)).toInt
  · rw [SizeT.toNat_ofInt_of_nonneg nonneg, if_neg (by omega)]
    omega
  · have large := SizeT.lt_ofInt nonneg
    rw [if_pos (by omega)]
    omega

/-- The product of X and Y does not wrap. -/
theorem toNat_shape_mul {int : RoiParam → Int32} (size : 1 ≤ (int (.dimSize 0)).toInt) :
    (shape (readDims int) 1 * shape (readDims int) 2).toNat =
      shapeSize (int (.dimSize 0)) (int (.dimSize 1)) * shapeSize (int (.dimSize 0)) (int (.dimSize 2)) := by
  have bounds := Word32.toInt_bounds (int (.dimSize 0))
  have small : ∀ d, shapeSize (int (.dimSize 0)) d < 2 ^ 31 := by
    intro d
    unfold shapeSize
    split <;> omega
  have product := Nat.mul_lt_mul'' (small (int (.dimSize 1))) (small (int (.dimSize 2)))
  rw [UInt64.toNat_mul, toNat_shape size, toNat_shape size]
  exact Nat.mod_eq_of_lt (by omega)

theorem fixDims_cells {int : RoiParam → Int32} {n : UInt64} (size : 1 ≤ (int (.dimSize 0)).toInt) :
    let xy := shapeSize (int (.dimSize 0)) (int (.dimSize 1)) * shapeSize (int (.dimSize 0)) (int (.dimSize 2))
    (fixDims n (readDims int) 1).size.toNat * (fixDims n (readDims int) 2).size.toNat =
      if n.toNat ≤ xy then 1 else xy := by
  intro xy
  have sizes := fixDims_shape n (readDims int)
  simp only [UInt64.le_iff_toNat_le, toNat_shape_mul size] at sizes
  split at sizes <;> rename_i large <;> obtain ⟨hx, hy⟩ := Prod.mk.inj sizes
  · rw [hx, hy, if_pos large]
    rfl
  · rw [hx, hy, if_neg large, toNat_shape size, toNat_shape size]

/-- Too many elements for the input are replaced by one, which is always there; any other number is kept. -/
theorem shape_cells_le_iff {int : RoiParam → Int32} {n : UInt64} (size : 1 ≤ (int (.dimSize 0)).toInt) :
    let xy := shapeSize (int (.dimSize 0)) (int (.dimSize 1)) * shapeSize (int (.dimSize 0)) (int (.dimSize 2))
    (fixDims n (readDims int) 1).size.toNat * (fixDims n (readDims int) 2).size.toNat ≤ (int (.dimSize 0)).toInt.toNat ↔
      xy ≤ (int (.dimSize 0)).toInt.toNat ∨ n.toNat ≤ xy := by
  intro xy
  rw [fixDims_cells size]
  split <;> rename_i large
  · exact iff_of_true (by omega) (.inr large)
  · exact ⟨.inl, fun fits => fits.resolve_right large⟩

theorem processCallbacks_inside {x : NDDimension} (dims : (mem src).dims = [x])
    (converted : env.convert (mem src).dataType (s.requestedType env (mem src)) = .done dst target element)
    (inside : (block s.int x.size).offset.toNat + (block s.int x.size).size.toNat ≤ (mem src).size) :
    let fixed := fixDims x.size (readDims s.int)
    ∃ s' mem', s.processCallbacks env mem src = some (s', mem') ∧ s'.pArrays = some dst ∧
      (mem' dst).dims = [⟨(fixed 1).size, 0, 1⟩, ⟨(fixed 2).size, 0, 1⟩] ∧
      (mem' dst).size = (block s.int x.size).size.toNat := by
  intro fixed
  have length : (mem src).length = x.size := by simp [NDArray.length, dims]
  have run := processCallbacks_done s converted
  rw [length, NDArray.extract, dif_pos inside] at run
  refine ⟨_, _, run, rfl, ?_, ?_⟩
  · rw [Function.update_self]
  · rw [Function.update_self]

/-- The shape speaks of more elements than the block has exactly if X*Y is between the size of the block and
the size of the input. -/
theorem roi_shape_iff {x : NDDimension} (dims : (mem src).dims = [x]) (whole : (mem src).size = x.size.toNat)
    (small : x.size.toNat < 2 ^ 31)
    (converted : env.convert (mem src).dataType (s.requestedType env (mem src)) = .done dst target element)
    (min : 0 ≤ (s.int (.dimMin 0)).toInt) (size : 1 ≤ (s.int (.dimSize 0)).toInt)
    (inside : (s.int (.dimMin 0)).toInt + (s.int (.dimSize 0)).toInt ≤ x.size.toNat) :
    let xy := shapeSize (s.int (.dimSize 0)) (s.int (.dimSize 1)) * shapeSize (s.int (.dimSize 0)) (s.int (.dimSize 2))
    ∃ s' mem' cx cy, s.processCallbacks env mem src = some (s', mem') ∧ s'.pArrays = some dst ∧
      (mem' dst).dims = [cx, cy] ∧ (mem' dst).size = (s.int (.dimSize 0)).toInt.toNat ∧
      (cx.size.toNat * cy.size.toNat ≤ (mem' dst).size ↔
        xy ≤ (s.int (.dimSize 0)).toInt.toNat ∨ x.size.toNat ≤ xy) := by
  intro xy
  have nonempty : 1 ≤ x.size.toNat := by omega
  have fits : (block s.int x.size).offset.toNat + (block s.int x.size).size.toNat ≤ x.size.toNat := by
    rw [block_inside_iff s.int nonempty small]
    unfold firstElement
    split <;> omega
  have length : (block s.int x.size).size.toNat = (s.int (.dimSize 0)).toInt.toNat := by
    rw [(toNat_block s.int nonempty).1, SizeT.toNat_ofInt_of_nonneg (by omega)]
    omega
  obtain ⟨s', mem', run, published, shaped, copied⟩ := processCallbacks_inside s dims converted (whole ▸ fits)
  refine ⟨s', mem', _, _, run, published, shaped, copied.trans length, ?_⟩
  rw [copied, length]
  exact shape_cells_le_iff size

theorem roi_shape_fourByThree :
    ∃ s' mem' cx cy, (withDims #v[4, 0, 0] #v[12, 4, 3]).processCallbacks copying (fun _ => sixteen) 0 = some (s', mem') ∧
      s'.pArrays = some 1 ∧ (mem' 1).dims = [cx, cy] ∧ (mem' 1).size = 12 ∧ cx.size.toNat * cy.size.toNat ≤ 12 := by
  obtain ⟨s', mem', cx, cy, run, published, shaped, copied, fits⟩ :=
    @roi_shape_iff (withDims #v[4, 0, 0] #v[12, 4, 3]) copying (fun _ => sixteen) 0 1 .uint32 id ⟨16, 0, 1⟩ rfl rfl
      (by decide) rfl (by decide) (by decide) (by decide)
  have twelve : (mem' 1).size = 12 := copied
  exact ⟨s', mem', cx, cy, run, published, shaped, twelve, twelve ▸ fits.2 (.inl (by decide))⟩

/-- Three rows of three need nine elements, but the block has four: 9 is compared with the 16 of the input. -/
theorem roi_shape_threeByThree :
    ∃ s' mem' cx cy, (withDims #v[4, 0, 0] #v[4, 3, 3]).processCallbacks copying (fun _ => sixteen) 0 = some (s', mem') ∧
      s'.pArrays = some 1 ∧ (mem' 1).dims = [cx, cy] ∧ (mem' 1).size = 4 ∧ cx.size.toNat * cy.size.toNat = 9 :=
  ⟨_, _, _, _, rfl, rfl, rfl, rfl, rfl⟩

end ADnEDPixelROI

end ADnED
