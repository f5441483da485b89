import Mathlib.Data.List.Perm.Basic
import Mathlib.Data.List.Count
import Mathlib.Algebra.Order.BigOperators.Group.Finset
import Mathlib.Algebra.BigOperators.Group.Finset.Piecewise

/-!
# Buffers of 32-bit counters

A buffer is a list of `UInt32` cells that is only ever incremented, at indices that
come out of address arithmetic and may therefore be negative or past the end. `bump`
is one `b[i]++`, undefined (`none`) outside the buffer; `bumpAll` is a sequence of
them. The facts here are the ones a proof about a histogram needs: what a sequence of
increments leaves in a cell (`bumpAll_cell`), when it is defined (`bumpAll_isSome`),
that its order does not matter (`bumpAll_perm`), and when the sum over a region of the
buffer grows by a given number (`total_bumpAll_iff`).
-/

namespace Tally

/-- `b[i]++`. -/
def bump (b : List UInt32) (i : Int) : Option (List UInt32) :=
  if 0 ≤ i ∧ i.toNat < b.length then some (b.modify i.toNat (· + 1)) else none

/-- A sequence of increments. -/
def bumpAll : List Int → List UInt32 → Option (List UInt32)
  | [], b => some b
  | i :: is, b => (bump b i).bind (bumpAll is)

variable {b b' : List UInt32} {i : Int} {is js : List Int}

theorem bump_eq_some (h : bump b i = some b') :
    (0 ≤ i ∧ i < b.length) ∧ b' = b.modify i.toNat (· + 1) := by
  unfold bump at h
  split at h
  · rename_i inside
    cases h
    exact ⟨by omega, rfl⟩
  · cases h

theorem bump_length (h : bump b i = some b') : b'.length = b.length := by
  obtain ⟨-, rfl⟩ := bump_eq_some h
  simp

theorem bumpAll_cons_some (h : bumpAll (i :: is) b = some b') :
    ∃ c, bump b i = some c ∧ bumpAll is c = some b' :=
  Option.bind_eq_some_iff.1 h

/-- Increments never change the size of the buffer. -/
theorem bumpAll_length (h : bumpAll is b = some b') : b'.length = b.length := by
  induction is generalizing b with
  | nil => cases h; rfl
  | cons i is ih =>
    obtain ⟨c, hc, rest⟩ := bumpAll_cons_some h
    rw [ih rest, bump_length hc]

theorem bumpAll_append (is js : List Int) (b : List UInt32) :
    bumpAll (is ++ js) b = (bumpAll is b).bind (bumpAll js) := by
  induction is generalizing b with
  | nil => rfl
  | cons i is ih =>
    cases hb : bump b i with
    | none => simp [bumpAll, hb]
    | some c => simp [bumpAll, hb, ih]

/-- A sequence of increments is defined exactly if each of them hits the buffer. -/
theorem bumpAll_isSome : (bumpAll is b).isSome ↔ ∀ i ∈ is, 0 ≤ i ∧ i < b.length := by
  induction is generalizing b with
  | nil => simp [bumpAll]
  | cons i is ih =>
    cases hb : bump b i with
    | none =>
      have outside : ¬(0 ≤ i ∧ i < b.length) := by
        intro inside
        have hit : 0 ≤ i ∧ i.toNat < b.length := by omega
        simp [bump, hit] at hb
      simp [bumpAll, hb, outside]
    | some c =>
      have inside := (bump_eq_some hb).1
      simp [bumpAll, hb, ih, inside, bump_length hb]

theorem bump_cell (h : bump b i = some b') (j : Nat) :
    b'[j]? = b[j]?.map (· + if i = j then 1 else 0) := by
  obtain ⟨inside, rfl⟩ := bump_eq_some h
  rw [List.getElem?_modify]
  by_cases hit : i.toNat = j
  · have same : i = (j : Int) := by omega
    simp [same]
  · have other : i ≠ (j : Int) := by omega
    simp [hit, other]

/-- A cell is incremented once for each time it is named. -/
theorem bumpAll_cell (h : bumpAll is b = some b') (j : Nat) :
    b'[j]? = b[j]?.map (· + UInt32.ofNat (is.count (j : Int))) := by
  induction is generalizing b with
  | nil =>
    cases h
    simp
  | cons i is ih =>
    obtain ⟨c, hc, rest⟩ := bumpAll_cons_some h
    rw [ih rest, bump_cell hc, Option.map_map]
    congr 1
    funext x
    by_cases hit : i = (j : Int)
    · subst hit
      simp [UInt32.add_assoc, UInt32.add_comm]
    · simp [hit, List.count_cons_of_ne hit]

/-- The order of the increments does not matter. -/
theorem bumpAll_perm (h : is.Perm js) (b : List UInt32) : bumpAll is b = bumpAll js b := by
  have defined : (bumpAll is b).isSome ↔ (bumpAll js b).isSome := by
    simp only [bumpAll_isSome, h.mem_iff]
  cases hi : bumpAll is b with
  | none =>
    cases hj : bumpAll js b with
    | none => rfl
    | some c => simp [hi, hj] at defined
  | some c =>
    cases hj : bumpAll js b with
    | none => simp [hi, hj] at defined
    | some c' =>
      congr 1
      apply List.ext_getElem?
      intro j
      rw [bumpAll_cell hi, bumpAll_cell hj, h.count_eq]

/-- The sum of the cells `first, first + 1, ..., first + n - 1`. -/
def total (b : List UInt32) (first n : Nat) : Nat := ∑ k ∈ Finset.range n, (b.getD (first + k) 0).toNat

theorem bumpAll_getD (h : bumpAll is b = some b') {j : Nat} (inside : j < b.length) :
    b'.getD j 0 = b.getD j 0 + UInt32.ofNat (is.count (j : Int)) := by
  rw [List.getD_eq_getElem?_getD, List.getD_eq_getElem?_getD, bumpAll_cell h, List.getElem?_eq_getElem inside]
  rfl

/-- A cell grows by at most `hits`, and by as much exactly if it is incremented so often
and does not wrap. -/
theorem toNat_add_eq_iff (x : UInt32) {n hits : Nat} (le : n ≤ hits) :
    (x + UInt32.ofNat n).toNat ≤ x.toNat + hits ∧
      ((x + UInt32.ofNat n).toNat = x.toNat + hits ↔ n = hits ∧ x.toNat + hits < 2 ^ 32) := by
  have bound := x.toNat_lt
  rw [UInt32.toNat_add, UInt32.toNat_ofNat']
  omega

/-- Cells of which each is incremented at most `hits` times: their sum grows by all the
hits exactly if every hit is an increment and no cell wraps. -/
theorem total_bumpAll_iff (h : bumpAll is b = some b') {first n : Nat} (inside : first + n ≤ b.length)
    {hits : Nat → Nat} (le : ∀ k < n, is.count ((first + k : Nat) : Int) ≤ hits k) :
    total b' first n = total b first n + ∑ k ∈ Finset.range n, hits k ↔
      ∀ k < n, is.count ((first + k : Nat) : Int) = hits k ∧ (b.getD (first + k) 0).toNat + hits k < 2 ^ 32 := by
  have cell : ∀ k ∈ Finset.range n, (b'.getD (first + k) 0).toNat =
      (b.getD (first + k) 0 + UInt32.ofNat (is.count ((first + k : Nat) : Int))).toNat := by
    intro k hk
    have below := Finset.mem_range.1 hk
    rw [bumpAll_getD h (by omega)]
  rw [total, total, ← Finset.sum_add_distrib, Finset.sum_congr rfl cell, Finset.sum_eq_sum_iff_of_le]
  · apply forall_congr'
    intro k
    rw [Finset.mem_range]
    apply forall_congr'
    intro below
    exact (toNat_add_eq_iff _ (le k below)).2
  · intro k hk
    exact (toNat_add_eq_iff _ (le k (Finset.mem_range.1 hk))).1

/-- If every cell but the last one counts its hits and the last one counts nothing, the total grows
by the hits exactly if the last cell has none, and no cell wraps. -/
theorem total_bumpAll_lost_iff (h : bumpAll is b = some b') {first n : Nat} (inside : first + n ≤ b.length)
    {hits : Nat → Nat}
    (cell : ∀ k < n, is.count ((first + k : Nat) : Int) = if k + 1 < n then hits k else 0) :
    total b' first n = total b first n + ∑ k ∈ Finset.range n, hits k ↔
      (0 < n → hits (n - 1) = 0) ∧ ∀ k < n, (b.getD (first + k) 0).toNat + hits k < 2 ^ 32 := by
  have le : ∀ k < n, is.count ((first + k : Nat) : Int) ≤ hits k := by
    intro k below
    rw [cell k below]
    split
    · exact Nat.le_refl _
    · exact Nat.zero_le _
  rw [total_bumpAll_iff h inside le]
  constructor
  · intro all
    refine ⟨fun pos => ?_, fun k below => (all k below).2⟩
    have lost := (all (n - 1) (by omega)).1
    rw [cell _ (by omega), if_neg (by omega)] at lost
    exact lost.symm
  · rintro ⟨last, small⟩ k below
    refine ⟨?_, small k below⟩
    rw [cell k below]
    split
    · rfl
    · obtain rfl : k = n - 1 := by omega
      exact (last (by omega)).symm

/-- Counting by cells: every element that has a cell below `n` is counted in one of
them. -/
theorem sum_countP {α : Type} (cell : α → Option Nat) (n : Nat) (l : List α) :
    ∑ k ∈ Finset.range n, l.countP (fun a => cell a == some k) = l.countP fun a => (cell a).any (· < n) := by
  induction l with
  | nil => simp
  | cons a l ih =>
    have one : ∑ k ∈ Finset.range n, (if cell a == some k then 1 else 0) =
        if (cell a).any (· < n) then 1 else 0 := by
      cases cell a with
      | none => simp
      | some j => simp
    simp only [List.countP_cons]
    rw [Finset.sum_add_distrib, ih, one]

end Tally
