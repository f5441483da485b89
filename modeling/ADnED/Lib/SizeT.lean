import ADnED.Lib.Word32

/-!
# Sizes of 64 bits

`size_t` is `UInt64`. An `int` becomes a `size_t` by sign extension, so a negative one is larger than
every size that fits an `int` (`lt_ofInt`), and a clamp that is written for integers sees it as such:
`maxOf x 0` does nothing, and `minOf` takes the upper bound.
-/

namespace SizeT

/-- An `int` that is assigned to a `size_t`. -/
def ofInt (v : Int32) : UInt64 := v.toInt64.toUInt64

/-- A `size_t` that is cast to `int`. -/
def toInt (x : UInt64) : Int32 := x.toUInt32.toInt32

/-- `(A)>(B)?(A):(B)`. -/
def maxOf (a b : UInt64) : UInt64 := if b < a then a else b

/-- `(A)<(B)?(A):(B)`. -/
def minOf (a b : UInt64) : UInt64 := if a < b then a else b

/-- A conversion to `size_t` adds `2^64` to the negative values. -/
theorem toNat_ofInt (v : Int32) : ((ofInt v).toNat : Int) = v.toInt % 2 ^ 64 := by
  have signed : v.toInt = v.toInt64.toBitVec.toInt := (Int32.toInt_toInt64 v).symm
  have unsigned : (ofInt v).toNat = v.toInt64.toBitVec.toNat := rfl
  have bound : v.toInt64.toBitVec.toNat < 2 ^ 64 := v.toInt64.toBitVec.isLt
  rw [unsigned, signed, BitVec.toInt_eq_toNat_cond]
  split <;> omega

/-- The low bits of the conversion are those of the integer. -/
theorem setWidth_ofInt (v : Int32) {w : Nat} (narrow : w ≤ 64) :
    (ofInt v).toBitVec.setWidth w = BitVec.ofInt w v.toInt := by
  have extended : (ofInt v).toBitVec = BitVec.ofInt 64 v.toInt := rfl
  have dvd : ((2 ^ w : Nat) : Int) ∣ (2 ^ 64 : Nat) := Int.natCast_dvd_natCast.2 (Nat.pow_dvd_pow 2 narrow)
  have nonneg : 0 ≤ v.toInt % ((2 ^ 64 : Nat) : Int) := Int.emod_nonneg _ (by decide)
  rw [extended]
  apply BitVec.eq_of_toInt_eq
  rw [BitVec.toInt_setWidth, BitVec.toInt_ofInt, BitVec.toNat_ofInt, Int.toNat_of_nonneg nonneg, ← Int.emod_bmod,
    Int.emod_emod_of_dvd _ dvd, Int.emod_bmod]

theorem toNat_ofInt_of_nonneg {v : Int32} (nonneg : 0 ≤ v.toInt) : (ofInt v).toNat = v.toInt.toNat := by
  have word := toNat_ofInt v
  have bounds := Word32.toInt_bounds v
  omega

/-- A negative `int` is larger than every size that fits an `int`. -/
theorem lt_ofInt {v : Int32} (negative : ¬ 0 ≤ v.toInt) : 2 ^ 63 < (ofInt v).toNat := by
  have word := toNat_ofInt v
  have bounds := Word32.toInt_bounds v
  omega

theorem ofInt_inj {x y : Int32} : ofInt x = ofInt y ↔ x = y := by
  constructor
  · intro same
    have words : ((ofInt x).toNat : Int) = (ofInt y).toNat := by rw [same]
    have boundsX := Word32.toInt_bounds x
    have boundsY := Word32.toInt_bounds y
    rw [toNat_ofInt, toNat_ofInt] at words
    apply Int32.toInt_inj.1
    omega
  · rintro rfl
    rfl

theorem toInt_toInt {x : UInt64} (fits : x.toNat < 2 ^ 31) : (toInt x).toInt = x.toNat := by
  have low : x.toUInt32.toNat = x.toNat := by
    rw [UInt64.toNat_toUInt32]
    exact Nat.mod_eq_of_lt (by omega)
  have small : x.toUInt32.toNat < 2147483648 := by omega
  rw [toInt, Word32.toInt_toInt32_of_lt small, low]

/-- An `int` survives the way through `size_t`. -/
theorem toInt_ofInt (v : Int32) : toInt (ofInt v) = v := by
  have low := setWidth_ofInt v (show 32 ≤ 64 by decide)
  rw [show BitVec.ofInt 32 v.toInt = v.toBitVec from BitVec.ofInt_toInt] at low
  exact Int32.toBitVec_inj.1 low

/-- A cast to `int` keeps the low 32 bits. -/
theorem toNat_toInt {x : UInt64} (fits : x.toNat < 2 ^ 32) : (toInt x).toUInt32.toNat = x.toNat := by
  have low : (toInt x).toUInt32 = x.toUInt32 := rfl
  rw [low, UInt64.toNat_toUInt32]
  exact Nat.mod_eq_of_lt fits

@[simp] theorem toNat_minOf (a b : UInt64) : (minOf a b).toNat = min a.toNat b.toNat := by
  unfold minOf
  split
  · rename_i below
    have := UInt64.lt_iff_toNat_lt.1 below
    omega
  · rename_i above
    rw [UInt64.lt_iff_toNat_lt] at above
    omega

@[simp] theorem toNat_maxOf (a b : UInt64) : (maxOf a b).toNat = max a.toNat b.toNat := by
  unfold maxOf
  split
  · rename_i below
    have := UInt64.lt_iff_toNat_lt.1 below
    omega
  · rename_i above
    rw [UInt64.lt_iff_toNat_lt] at above
    omega

@[simp] theorem minOf_self (a : UInt64) : minOf a a = a := by
  unfold minOf
  split <;> rfl

/-- There is nothing below zero. -/
@[simp] theorem maxOf_zero (a : UInt64) : maxOf a 0 = a := by
  apply UInt64.toNat_inj.1
  rw [toNat_maxOf]
  exact Nat.max_eq_left (Nat.zero_le _)

/-- The way through an `int` makes no size smaller. -/
theorem le_ofInt_toInt {x : UInt64} (fits : x.toNat < 2 ^ 32) : x.toNat ≤ (ofInt (toInt x)).toNat := by
  by_cases nonneg : 0 ≤ (toInt x).toInt
  · rw [toNat_ofInt_of_nonneg nonneg, ← Word32.toNat_toUInt32_of_nonneg nonneg, toNat_toInt fits]
  · have large := lt_ofInt nonneg
    omega

/-- An `int` that has been bounded and stored is bounded already, whatever the cast has made of the bound. -/
theorem minOf_ofInt_toInt {b : UInt64} (fits : b.toNat < 2 ^ 32) (v : Int32) :
    minOf (ofInt (toInt (minOf (ofInt v) b))) b = minOf (ofInt v) b := by
  by_cases below : ofInt v < b
  · have unbounded : minOf (ofInt v) b = ofInt v := if_pos below
    rw [unbounded, toInt_ofInt, unbounded]
  · have bounded : minOf (ofInt v) b = b := if_neg below
    have large := UInt64.le_iff_toNat_le.2 (le_ofInt_toInt fits)
    rw [bounded]
    exact if_neg (UInt64.not_lt.2 large)

end SizeT
