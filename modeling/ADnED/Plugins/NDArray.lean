import ADnED.Driver.Params
import ADnED.Lib.SizeT
import Mathlib.Data.List.Basic
import Mathlib.Logic.Function.Basic

/-!
# The arrays that plugins pass on

What the plugins look at of an `NDArray` (areaDetector core): its data type, its dimensions and the
block of elements behind `pData`. The dimensions can be set without the block, so how many elements
they speak of (`cells`) and how many there are (`size`) are two things.
-/

namespace ADnED

/-- `NDDataType_t`. -/
inductive NDDataType where
  | int8
  | uint8
  | int16
  | uint16
  | int32
  | uint32
  | float32
  | float64
  /-- A value that `NDPluginMask::doMask` has no case for. -/
  | other
  deriving DecidableEq

namespace NDDataType

/-- The type of an element. -/
abbrev Cell : NDDataType → Type
  | int8 => Int8
  | uint8 => UInt8
  | int16 => Int16
  | uint16 => UInt16
  | int32 => Int32
  | uint32 => UInt32
  | float32 => Float32
  | float64 => Float
  | other => Unit

/-- `static_cast<epicsType>` of a `size_t`, for the types that `NDPluginMask::doMask` has a case for. -/
def staticCast : (t : NDDataType) → Option (UInt64 → t.Cell)
  | int8 => some fun x => x.toUInt8.toInt8
  | uint8 => some UInt64.toUInt8
  | int16 => some fun x => x.toUInt16.toInt16
  | uint16 => some UInt64.toUInt16
  | int32 => some fun x => x.toUInt32.toInt32
  | uint32 => some UInt64.toUInt32
  | float32 => some UInt64.toFloat32
  | float64 => some UInt64.toFloat
  | other => none

/-- An integer as an element of one of the integer types, modulo the number of its values. -/
def wrap : (t : NDDataType) → Option (Int → t.Cell)
  | int8 => some fun v => .ofBitVec (.ofInt 8 v)
  | uint8 => some fun v => .ofBitVec (.ofInt 8 v)
  | int16 => some fun v => .ofBitVec (.ofInt 16 v)
  | uint16 => some fun v => .ofBitVec (.ofInt 16 v)
  | int32 => some fun v => .ofBitVec (.ofInt 32 v)
  | uint32 => some fun v => .ofBitVec (.ofInt 32 v)
  | float32 => none
  | float64 => none
  | other => none

/-- For the integer types the way of an `int` through `size_t` makes no difference. -/
theorem staticCast_of_wrap {t : NDDataType} {wrap : Int → t.Cell} (integer : t.wrap = some wrap) :
    ∃ cast, t.staticCast = some cast ∧ ∀ v : Int32, cast (SizeT.ofInt v) = wrap v.toInt := by
  cases t <;> cases integer <;> refine ⟨_, rfl, fun v => ?_⟩
  case int8 =>
    apply Int8.toBitVec_inj.1
    exact (UInt64.toBitVec_toUInt8 _).trans (SizeT.setWidth_ofInt v (by decide))
  case uint8 =>
    apply UInt8.toBitVec_inj.1
    exact (UInt64.toBitVec_toUInt8 _).trans (SizeT.setWidth_ofInt v (by decide))
  case int16 =>
    apply Int16.toBitVec_inj.1
    exact (UInt64.toBitVec_toUInt16 _).trans (SizeT.setWidth_ofInt v (by decide))
  case uint16 =>
    apply UInt16.toBitVec_inj.1
    exact (UInt64.toBitVec_toUInt16 _).trans (SizeT.setWidth_ofInt v (by decide))
  case int32 =>
    apply Int32.toBitVec_inj.1
    exact (UInt64.toBitVec_toUInt32 _).trans (SizeT.setWidth_ofInt v (by decide))
  case uint32 =>
    apply UInt32.toBitVec_inj.1
    exact (UInt64.toBitVec_toUInt32 _).trans (SizeT.setWidth_ofInt v (by decide))

theorem wrap_ne {t : NDDataType} {wrap : Int → t.Cell} (integer : t.wrap = some wrap) : wrap 0 ≠ wrap 1 := by
  cases t <;> cases integer <;> decide

end NDDataType

/-- `NDDimension_t`. -/
structure NDDimension where
  size : UInt64
  offset : UInt64
  binning : Int32

/-- `NDArray`. `ndims` is the number of the `dims`, and `size` the number of elements that `pData` points
to. -/
structure NDArray where
  dataType : NDDataType
  dims : List NDDimension
  size : Nat
  pData : Vector dataType.Cell size
  addressable : size < 2 ^ 64

namespace NDArray

def ndims (a : NDArray) : Nat := a.dims.length

/-- The number of elements that the dimensions speak of. -/
def cells (a : NDArray) : Nat := (a.dims.map (·.size.toNat)).prod

/-- A consumer that goes by the dimensions stays in the block. -/
def Fits (a : NDArray) : Prop := a.cells ≤ a.size

instance (a : NDArray) : Decidable a.Fits := inferInstanceAs (Decidable (_ ≤ _))

theorem cells_one {a : NDArray} {x : NDDimension} (dims : a.dims = [x]) : a.cells = x.size.toNat := by
  simp [cells, dims]

theorem cells_two {a : NDArray} {x y : NDDimension} (dims : a.dims = [x, y]) :
    a.cells = x.size.toNat * y.size.toNat := by
  simp [cells, dims]

theorem cells_pos {a : NDArray} (shape : a.ndims = 1 ∨ a.ndims = 2)
    (nonempty : ∀ x ∈ a.dims, 1 ≤ x.size.toNat) : 0 < a.cells := by
  rcases shape with one | two
  · obtain ⟨x, dims⟩ := List.length_eq_one_iff.1 one
    rw [cells_one dims]
    exact nonempty x (by simp [dims])
  · obtain ⟨x, y, dims⟩ := List.length_eq_two.1 two
    rw [cells_two dims]
    exact Nat.mul_pos (nonempty x (by simp [dims])) (nonempty y (by simp [dims]))

end NDArray

/-- The arrays by their addresses. -/
abbrev Arrays := Nat → NDArray

/-- `NDArrayInfo`. -/
structure NDArrayInfo where
  xSize : UInt64
  ySize : UInt64
  xStride : UInt64
  yStride : UInt64

/-- What `NDArray::getInfo` says of arrays of one or two dimensions: they are stored row by row. -/
structure RowMajor (a : NDArray) (info : NDArrayInfo) : Prop where
  one : ∀ x, a.dims = [x] → info.xSize = x.size ∧ info.xStride = 1
  two : ∀ x y, a.dims = [x, y] →
    info.xSize = x.size ∧ info.ySize = y.size ∧ info.xStride = 1 ∧ info.yStride = x.size

end ADnED
