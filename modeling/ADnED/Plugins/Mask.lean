import ADnED.Plugins.NDArray
import ADnED.Lib.Stores

/-!
# The mask plugin

Class `NDPluginMask` (`ADnEDPluginMask.cpp`). The plugin copies the array it gets, writes the masks in use
over the copy one after the other, and passes it on. Positions and sizes are read anew for every
mask, clipped and written back; the lock is released while a mask is applied, and other threads may
write parameters then. The strides, the copy and what other threads write come from the
environment.
-/

namespace ADnED

open SizeT (ofInt toInt maxOf minOf)
open Stores (forLoop store)

/-- The integer parameters of `NDPluginMask`. Every mask has an asyn address. -/
inductive MaskParam where
  | use
  | maxSizeX
  | maxSizeY
  | posX
  | posY
  | sizeX
  | sizeY
  | val
  | type
  deriving DecidableEq

/-- `NDMask_t`. -/
structure NDMask where
  posX : UInt64
  posY : UInt64
  sizeX : UInt64
  sizeY : UInt64
  maskVal : UInt64
  maskType : UInt64

/-- `s_MASK_TYPE_REJECT`. -/
def maskTypeReject : UInt64 := 0

/-- `s_MASK_TYPE_PASS`. -/
def maskTypePass : UInt64 := 1

/-- The plugin object. `pArrays` is the address in `pArrays[0]`, where the array is that was last passed on. -/
structure NDPluginMask where
  maxMasks : Int32
  int : Store MaskParam Int32
  pMasks : Nat → NDMask
  arrayInfo : NDArrayInfo
  xArrayMax : UInt32
  yArrayMax : UInt32
  pArrays : Option Nat

/-- What `processCallbacks` gets from elsewhere: `NDArray::getInfo`, the address of the copy that
`NDArrayPool::copy` makes (`none` for NULL), and what other threads make of the parameters while a
mask is applied. -/
structure MaskEnv where
  getInfo : NDArray → NDArrayInfo
  copy : Option Nat
  others : Nat → Store MaskParam Int32 → Store MaskParam Int32

namespace NDPluginMask

section Apply

variable {α : Type} {n : Nat}

/-- `NDPluginMask::doMaskT`. -/
def doMaskT (s : NDPluginMask) (cast : UInt64 → α) (ndims : Nat) (pData : Vector α n) (m : NDMask) :
    Option (Vector α n) :=
  let xmin := (maxOf m.posX 0).toNat
  let xmax := (minOf (m.posX + m.sizeX) s.xArrayMax.toUInt64).toNat
  let ymin := (maxOf m.posY 0).toNat
  let ymax := (minOf (m.posY + m.sizeY) s.yArrayMax.toUInt64).toNat
  let column (ix : Nat) : Nat := (UInt64.ofNat ix * s.arrayInfo.xStride).toNat
  let row (iy : Nat) : Nat := (UInt64.ofNat iy * s.arrayInfo.yStride).toNat
  if ndims = 1 then
    if m.maskType = maskTypeReject then
      forLoop xmin xmax (fun ix pData => store pData (column ix) (cast m.maskVal)) pData
    else if m.maskType = maskTypePass then
      forLoop 0 s.xArrayMax.toNat (fun ix pData =>
        if ix < xmin ∨ xmax ≤ ix then store pData (column ix) (cast m.maskVal) else some pData) pData
    else some pData
  else if ndims = 2 then
    if m.maskType = maskTypeReject then
      forLoop ymin ymax (fun iy pData =>
        forLoop xmin xmax (fun ix pData => store pData (row iy + column ix) (cast m.maskVal)) pData) pData
    else if m.maskType = maskTypePass then
      forLoop 0 s.yArrayMax.toNat (fun iy pData =>
        forLoop 0 s.xArrayMax.toNat (fun ix pData =>
          if (ix < xmin ∨ xmax ≤ ix) ∨ (iy < ymin ∨ ymax ≤ iy) then
            store pData (row iy + column ix) (cast m.maskVal)
          else some pData) pData) pData
    else some pData
  else some pData

end Apply

/-- `NDPluginMask::doMask` on an array. -/
def maskArray (s : NDPluginMask) (a : NDArray) (m : NDMask) : Option (NDArray × AsynStatus) :=
  match a.dataType.staticCast with
  | none => some (a, .error)
  | some cast => (s.doMaskT cast a.ndims a.pData m).map fun pData => ({ a with pData := pData }, .success)

/-- `NDPluginMask::doMask`. -/
def doMask (s : NDPluginMask) (mem : Arrays) (pArray : Nat) (m : NDMask) : Option (Arrays × AsynStatus) :=
  (s.maskArray (mem pArray) m).map fun r => (Function.update mem pArray r.1, r.2)

/-- `PosX` and `PosY` as they are clipped. -/
def clipPos (extent : UInt32) (v : Int32) : UInt64 :=
  minOf (maxOf (ofInt v) 0) (extent - 1).toUInt64

/-- `SizeX` and `SizeY` as they are clipped. -/
def clipSize (extent : UInt32) (pos : UInt64) (v : Int32) : UInt64 :=
  minOf (maxOf (ofInt v) 0) (extent.toUInt64 - pos)

/-- What is put into `pMasks[mask]`. The Y fields of a mask for a 1-D array stay what they are. -/
def readMask (s : NDPluginMask) (ndims mask : Nat) : NDMask :=
  let posX := clipPos s.xArrayMax (s.int mask .posX)
  let posY := if 1 < ndims then clipPos s.yArrayMax (s.int mask .posY) else (s.pMasks mask).posY
  { posX := posX
    posY := posY
    sizeX := clipSize s.xArrayMax posX (s.int mask .sizeX)
    sizeY := if 1 < ndims then clipSize s.yArrayMax posY (s.int mask .sizeY) else (s.pMasks mask).sizeY
    maskVal := ofInt (s.int mask .val)
    maskType := ofInt (s.int mask .type) }

/-- The parameters after the clipped values have been written back. -/
def writeBack (ndims mask : Nat) (m : NDMask) (int : Store MaskParam Int32) : Store MaskParam Int32 :=
  let int := (int.set mask .posX (toInt m.posX)).set mask .sizeX (toInt m.sizeX)
  if 1 < ndims then (int.set mask .posY (toInt m.posY)).set mask .sizeY (toInt m.sizeY) else int

/-- The part of a turn of the loop over the masks that holds the lock. -/
def fetch (s : NDPluginMask) (ndims mask : Nat) : NDPluginMask :=
  let m := s.readMask ndims mask
  { s with
    pMasks := Function.update s.pMasks mask m
    int := writeBack ndims mask m s.int }

/-- A turn of the loop over the masks. The status of `doMask` is only printed. -/
def turn (env : MaskEnv) (ndims pOutput mask : Nat) (r : NDPluginMask × Arrays) : Option (NDPluginMask × Arrays) :=
  let s := r.1
  if s.int mask .use = 0 then some r
  else
    let s := s.fetch ndims mask
    (s.doMask r.2 pOutput (s.pMasks mask)).map fun done => ({ s with int := env.others mask s.int }, done.1)

/-- The members and parameters that are set from the array, before the loop over the masks. -/
def setUp (s : NDPluginMask) (pOutput : Nat) (info : NDArrayInfo) : NDPluginMask :=
  { s with
    pArrays := some pOutput
    arrayInfo := info
    int := (s.int.set 0 .maxSizeX (toInt info.xSize)).set 0 .maxSizeY (toInt info.ySize)
    xArrayMax := (toInt info.xSize).toUInt32
    yArrayMax := (toInt info.ySize).toUInt32 }

/-- `NDPluginMask::processCallbacks`. What it passes on is the array at `pArrays`. A copy that fails is
reported, and its NULL is used then. -/
def processCallbacks (s : NDPluginMask) (env : MaskEnv) (mem : Arrays) (pArray : Nat) :
    Option (NDPluginMask × Arrays) :=
  match env.copy with
  | none => none
  | some pOutput =>
    let a := mem pArray
    forLoop 0 s.maxMasks.toInt.toNat (turn env a.ndims pOutput)
      (s.setUp pOutput (env.getInfo a), Function.update mem pOutput a)

end NDPluginMask

end ADnED
