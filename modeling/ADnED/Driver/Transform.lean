import ADnED.Driver.Params

/-!
# The time-of-flight transformation

`ADnEDTransform::calculate` and the three calculations behind it
(`ADnEDTransform.cpp`). A double is read as an exact rational, or as `nonfin` when it
has no finite value (an infinity or a NaN). A read past the end of an array has no
defined result: the functions return `none` there.
-/

namespace ADnED

/-- An `epicsFloat64`: an exact rational, or one of the values without a finite reading. -/
inductive Dbl where
  | fin (q : ℚ)
  | nonfin
  deriving DecidableEq

/-- `(lo <= x) && (x <= hi)`. An infinity fails one half, a NaN both. -/
def Dbl.within (x : Dbl) (lo hi : ℚ) : Bool :=
  match x with
  | .fin q => decide (lo ≤ q) && decide (q ≤ hi)
  | .nonfin => false

/-- `(lo <= x) && (x < hi)`. -/
def Dbl.inWindow (x : Dbl) (lo hi : ℚ) : Bool :=
  match x with
  | .fin q => decide (lo ≤ q) && decide (q < hi)
  | .nonfin => false

/-- `x * scale + offset`. -/
def Dbl.affine (x : Dbl) (scale offset : ℚ) : Dbl :=
  match x with
  | .fin q => .fin (q * scale + offset)
  | .nonfin => .nonfin

/-- `ADNED_TRANSFORM_ERROR`. -/
def transformError : ℚ := -9999

/-- `ADNED_TRANSFORM_MN`, the mass of the neutron in kg. -/
def transformMN : ℚ := 1674954 / 10 ^ 33

/-- `ADNED_TRANSFORM_EV_TO_J`. -/
def transformEVToJ : ℚ := 160217635 / 10 ^ 27

/-- `ADNED_TRANSFORM_TOF_TO_S`: the TOF is in units of 100ns. -/
def transformTOFToS : ℚ := 1 / 10 ^ 7

/-- `ADNED_TRANSFORM_EV_TO_mEV`. -/
def transformEVTomEV : ℚ := 10 ^ 3

/-- The members of `ADnEDTransformBase` that the calculations use. `array k` is the
block behind `p_Array[k]`, and `arraySize` the recorded sizes. `sqrt` is the square
root of the C library on doubles. -/
structure Transform where
  intParam : Nat → UInt32
  doubleParam : Nat → ℚ
  array : Nat → Option (List ℚ)
  arraySize : Nat → UInt32
  debug : Bool
  sqrt : ℚ → ℚ

namespace Transform

/-- `calc_dspace_static`: the TOF times the pixel's entry of array 0. -/
def calcDspaceStatic (t : Transform) (pixelID tof : UInt32) : Option Dbl :=
  match t.array 0 with
  | some arr =>
    if pixelID < t.arraySize 0 then
      arr[pixelID.toNat]?.map fun x => .fin (tof.toNat * x)
    else some (.fin transformError)
  | none => some (.fin transformError)

/-- `calc_dspace_dynamic`: not implemented in the source. -/
def calcDspaceDynamic (_t : Transform) (_pixelID _tof : UInt32) : Option Dbl :=
  some (.fin transformError)

/-- The incident energy less the final one, in meV (the equation at the end of `calc_deltaE`).
A flight time equal to the secondary one divides by zero. -/
def deltaE (t : Transform) (ef l2 : ℚ) (tof : UInt32) : Dbl :=
  let efJ := ef / transformEVTomEV * transformEVToJ
  let tofS := tof.toNat * transformTOFToS
  let primary := tofS - l2 * t.sqrt (transformMN / (2 * efJ))
  if primary = 0 then .nonfin
  else
    let v := t.doubleParam 0 / primary
    let ei := 1 / 2 * transformMN * (v * v)
    .fin ((ei - efJ) / transformEVToJ * transformEVTomEV)

/-- `calc_deltaE`: neither array is checked against the pixel ID here. -/
def calcDeltaE (t : Transform) (pixelID tof : UInt32) : Option Dbl :=
  match t.array 0, t.array 1 with
  | some arr0, some arr1 => do
    let ef ← arr0[pixelID.toNat]?
    if ef ≤ 0 then some (.fin transformError)
    else
      let l2 ← arr1[pixelID.toNat]?
      if l2 ≤ 0 then some (.fin transformError)
      else if tof = 0 then some (.fin transformError)
      else some (t.deltaE ef l2 tof)
  | _, _ => some (.fin transformError)

/-- `ADnEDTransform::calculate`. -/
def calculate (t : Transform) (type pixelID tof : UInt32) : Option Dbl :=
  if type = 1 then t.calcDspaceStatic pixelID tof
  else if type = 2 then t.calcDspaceDynamic pixelID tof
  else if type = 3 then t.calcDeltaE pixelID tof
  else some (.fin transformError)

end Transform

end ADnED
