import ADnED.Plugins.NDArray

/-!
# The pixel ROI plugin

Class `ADnEDPixelROI` (`ADnEDPixelROI.cpp`): the block of one detector is taken out of the 1-D array of
the driver and gets two dimensions. `NDArrayPool::convert` belongs to the environment, except for what
it reads: it takes the elements of the block it is asked for, whether they are there or not.
-/

namespace ADnED

open SizeT (ofInt toInt maxOf minOf)

/-- The integer parameters of `ADnEDPixelROI`, with those of the base class that it sets. -/
inductive RoiParam where
  | dimMin (dim : Fin 3)
  | dimSize (dim : Fin 3)
  | dimMaxSize (dim : Fin 3)
  | dataType
  | ndArraySizeX
  | ndArraySizeY
  | ndArraySizeZ
  deriving DecidableEq

/-- The plugin object. `pArrays` is the address in `pArrays[0]`. -/
structure ADnEDPixelROI where
  int : RoiParam → Int32
  pArrays : Option Nat

/-- What `NDArrayPool::convert` comes to: an error, no array, or an array at `dst` with its elements
converted to another type. -/
inductive Conversion (source : NDDataType) where
  | failed
  | null
  | done (dst : Nat) (target : NDDataType) (element : source.Cell → target.Cell)

/-- What `processCallbacks` gets from elsewhere: the numbers of `NDDataType_t`, what `convert` makes of an
array when it is asked for a data type, and what other threads make of the parameters in the
meantime. -/
structure RoiEnv where
  code : NDDataType → Int32
  convert : (source : NDDataType) → Int32 → Conversion source
  others : (RoiParam → Int32) → RoiParam → Int32

/-- `pArray->dims[0].size`. -/
def NDArray.length (a : NDArray) : UInt64 := (a.dims.headD ⟨0, 0, 0⟩).size

/-- The elements of a block, one by one. -/
def NDArray.extract (a : NDArray) (block : NDDimension) {target : NDDataType}
    (element : a.dataType.Cell → target.Cell) : Option NDArray :=
  if h : block.offset.toNat + block.size.toNat ≤ a.size then
    some
      { dataType := target
        dims := [block]
        size := block.size.toNat
        pData := Vector.ofFn fun i : Fin block.size.toNat => element (a.pData.get ⟨block.offset.toNat + i, by omega⟩)
        addressable := block.size.toNat_lt }
  else none

namespace ADnEDPixelROI

/-- `dims[ADNED_PIXELROI_MAX_DIMS]`. -/
abbrev Dims := Fin 3 → NDDimension

/-- The dimensions as the parameters have them. -/
def readDims (int : RoiParam → Int32) : Dims := fun dim =>
  ⟨ofInt (int (.dimSize dim)), ofInt (int (.dimMin dim)), 0⟩

/-- The body of the loop that fixes the dimensions of an array of `n` elements. In the turn of the first
one, `dims[0].size` is the size that has just been set. -/
def fixDim (n : UInt64) (dims : Dims) (dim : Fin 3) : Dims :=
  let dims := Function.update dims dim
    { dims dim with
      offset := minOf (maxOf (dims dim).offset 0) (n - 1)
      size := maxOf (dims dim).size 1 }
  Function.update dims dim
    { dims dim with
      size := minOf (dims dim).size (dims 0).size
      binning := if 1 < (dims dim).binning then (dims dim).binning else 1 }

/-- The dimensions after the loop and the check of X*Y. -/
def fixDims (n : UInt64) (dims : Dims) : Dims :=
  let dims := [0, 1, 2].foldl (fixDim n) dims
  if n ≤ (dims 1).size * (dims 2).size then
    Function.update (Function.update dims 1 { dims 1 with size := 1 }) 2 { dims 2 with size := 1 }
  else dims

/-- `new_dims[0]`, the block that `convert` is asked for. -/
def block (int : RoiParam → Int32) (n : UInt64) : NDDimension :=
  let dims := fixDims n (readDims int)
  ⟨(dims 0).size, (dims 0).offset, 1⟩

/-- The parameters after the fixed values have been written back. -/
def writeBack (n : UInt64) (dims : Dims) (int : RoiParam → Int32) : RoiParam → Int32
  | .dimMaxSize _ => toInt n
  | .dimMin dim => toInt (dims dim).offset
  | .dimSize dim => toInt (dims dim).size
  | p => int p

/-- The parameters for the shape of the array that is passed on. -/
def setShape (dims : Dims) (int : RoiParam → Int32) : RoiParam → Int32
  | .ndArraySizeX => toInt (dims 1).size
  | .ndArraySizeY => toInt (dims 2).size
  | .ndArraySizeZ => 0
  | p => int p

/-- The data type that `convert` is asked for: -1 stands for the one of the input. -/
def requestedType (s : ADnEDPixelROI) (env : RoiEnv) (a : NDArray) : Int32 :=
  if s.int .dataType = -1 then env.code a.dataType else s.int .dataType

/-- `ADnEDPixelROI::processCallbacks`. It passes on the array at `pArrays`, if there is one. -/
def processCallbacks (s : ADnEDPixelROI) (env : RoiEnv) (mem : Arrays) (pArray : Nat) :
    Option (ADnEDPixelROI × Arrays) :=
  let a := mem pArray
  let dims := fixDims a.length (readDims s.int)
  let int := env.others (writeBack a.length dims s.int)
  match env.convert a.dataType (s.requestedType env a) with
  | .failed => some (⟨int, none⟩, mem)
  | .null => some (⟨int, none⟩, mem)
  | .done dst _ element =>
    (a.extract (block s.int a.length) element).map fun out =>
      (⟨setShape dims int, some dst⟩,
        Function.update mem dst { out with dims := [⟨(dims 1).size, 0, 1⟩, ⟨(dims 2).size, 0, 1⟩] })

/-- The sizes that the loop leaves, in one formula: the first one is the bound of all three. -/
def shape (dims : Dims) (dim : Fin 3) : UInt64 := minOf (maxOf (dims dim).size 1) (maxOf (dims 0).size 1)

end ADnEDPixelROI

end ADnED
