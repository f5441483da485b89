import Mathlib.Tactic.SplitIfs
import Mathlib.Algebra.Ring.Int.Defs
import Mathlib.Algebra.Ring.Nat

/-!
# 32-bit words

What the operations and conversions of `Int32` and `UInt32` are as integers, for
results that fit. A sum, product or conversion that does not fit wraps; the facts
about conversions say how.
-/

namespace Word32

/-- The value is one of an `Int32`. -/
def IsInt32 (z : Int) : Prop := -2 ^ 31 ≤ z ∧ z < 2 ^ 31

instance (z : Int) : Decidable (IsInt32 z) := inferInstanceAs (Decidable (_ ∧ _))

theorem toInt_bounds (x : Int32) : -2147483648 ≤ x.toInt ∧ x.toInt < 2147483648 :=
  ⟨x.le_toInt, x.toInt_lt⟩

/-- A conversion to unsigned adds `2^32` to the negative values. -/
theorem toNat_toUInt32 (x : Int32) : (x.toUInt32.toNat : Int) = x.toInt % 4294967296 := by
  have signed : x.toInt = x.toBitVec.toInt := (Int32.toInt_toBitVec x).symm
  have unsigned : x.toUInt32.toNat = x.toBitVec.toNat := Int32.toNat_toBitVec x
  have bound : x.toBitVec.toNat < 4294967296 := x.toBitVec.isLt
  rw [unsigned, signed, BitVec.toInt_eq_toNat_cond]
  split <;> omega

/-- A conversion to signed takes `2^32` from the values that are too large. -/
theorem toInt_toInt32 (x : UInt32) :
    x.toInt32.toInt = if x.toNat < 2147483648 then (x.toNat : Int) else (x.toNat : Int) - 4294967296 := by
  have signed : x.toInt32.toInt = x.toBitVec.toInt := rfl
  have unsigned : x.toBitVec.toNat = x.toNat := rfl
  rw [signed, BitVec.toInt_eq_toNat_cond, unsigned]
  split_ifs <;> omega

theorem toInt_toInt32_of_lt {x : UInt32} (h : x.toNat < 2147483648) : x.toInt32.toInt = x.toNat := by
  rw [toInt_toInt32, if_pos h]

/-- A value whose conversion is not negative was not too large. -/
theorem toNat_of_toInt32_nonneg {x : UInt32} (h : 0 ≤ x.toInt32.toInt) :
    x.toNat < 2147483648 ∧ x.toInt32.toInt = x.toNat := by
  have bound := x.toNat_lt
  rw [toInt_toInt32] at h ⊢
  split_ifs at h ⊢ <;> omega

theorem toNat_toUInt32_of_nonneg {x : Int32} (h : 0 ≤ x.toInt) : x.toUInt32.toNat = x.toInt.toNat := by
  have word := toNat_toUInt32 x
  have bound := toInt_bounds x
  omega

theorem toInt_add {x y : Int32} (low : -2147483648 ≤ x.toInt + y.toInt) (high : x.toInt + y.toInt < 2147483648) :
    (x + y).toInt = x.toInt + y.toInt := by
  rw [Int32.toInt_add]
  exact Int.bmod_eq_of_le (by omega) (by omega)

/-- A sum that is too large wraps to a negative value. -/
theorem toInt_add_cases {x : Int32} (hx : 0 ≤ x.toInt) (y : Int32) :
    (x + y).toInt = x.toInt + y.toInt ∨
      2147483648 ≤ x.toInt + y.toInt ∧ (x + y).toInt = x.toInt + y.toInt - 4294967296 := by
  have bounds := toInt_bounds x
  have bounds' := toInt_bounds y
  by_cases high : x.toInt + y.toInt < 2147483648
  · exact .inl (toInt_add (by omega) high)
  · refine .inr ⟨by omega, ?_⟩
    rw [Int32.toInt_add, Int.bmod_def]
    split_ifs <;> omega

theorem toInt_sub {x y : Int32} (low : -2147483648 ≤ x.toInt - y.toInt) (high : x.toInt - y.toInt < 2147483648) :
    (x - y).toInt = x.toInt - y.toInt := by
  rw [Int32.toInt_sub]
  exact Int.bmod_eq_of_le (by omega) (by omega)

theorem toInt_mul {x y : Int32} (low : -2147483648 ≤ x.toInt * y.toInt) (high : x.toInt * y.toInt < 2147483648) :
    (x * y).toInt = x.toInt * y.toInt := by
  rw [Int32.toInt_mul]
  exact Int.bmod_eq_of_le (by omega) (by omega)

theorem toInt_mod {x y : Int32} (hx : 0 ≤ x.toInt) : (x % y).toInt = x.toInt % y.toInt := by
  rw [Int32.toInt_mod, Int.tmod_eq_emod_of_nonneg hx]

theorem toInt_div {x y : Int32} (hx : 0 ≤ x.toInt) (hy : 0 ≤ y.toInt) : (x / y).toInt = x.toInt / y.toInt := by
  have bounds := toInt_bounds x
  have small := Int.ediv_le_self y.toInt hx
  have nonneg := Int.ediv_nonneg hx hy
  rw [Int32.toInt_div, Int.tdiv_eq_ediv_of_nonneg hx]
  exact Int.bmod_eq_of_le (by omega) (by omega)

theorem toUInt32_eq_ofNat {x : Int32} {n : Nat} (h : x.toInt = n) : x.toUInt32 = UInt32.ofNat n := by
  have bounds := toInt_bounds x
  apply UInt32.toNat_inj.1
  rw [toNat_toUInt32_of_nonneg (by omega), UInt32.toNat_ofNat', h]
  omega

theorem ofNat_eq {x : Int32} {n : Nat} (h : x.toInt = n) : Int32.ofNat n = x := by
  have bounds := toInt_bounds x
  apply Int32.toInt_inj.1
  rw [h, Int32.toInt_ofNat_of_lt (by omega)]

theorem toUInt32_inj {x y : Int32} : x.toUInt32 = y.toUInt32 ↔ x = y := by
  constructor
  · intro same
    obtain ⟨x⟩ := x
    obtain ⟨y⟩ := y
    exact congrArg Int32.ofUInt32 same
  · rintro rfl
    rfl

/-- A number reduced to 32 bits is not negative if its sign bit is clear. -/
theorem toInt_ofNat_nonneg (n : Nat) : 0 ≤ (UInt32.ofNat n).toInt32.toInt ↔ n % 2 ^ 32 < 2 ^ 31 := by
  rw [toInt_toInt32, UInt32.toNat_ofNat']
  split_ifs <;> omega

end Word32
