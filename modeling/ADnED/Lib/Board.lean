import Mathlib.Data.List.Count

/-!
# Banks of counters

A bank of counters, one for each cell of a type `κ`, described by what happens to it:
a cell counts once, or a set of cells starts again at zero. `count` is where a cell
stands after a history of such operations, that is the number of its hits since it was
last cleared. The rules say what an extension of the history does to a cell.
-/

namespace Board

/-- What can happen to a bank of counters. -/
inductive Op (κ : Type) where
  | hit (c : κ)
  | clear (cells : κ → Bool)

variable {κ : Type} [DecidableEq κ]

/-- A counter that stands at `n`, after one more operation. -/
def Op.apply (c : κ) (n : Nat) : Op κ → Nat
  | .hit c' => if c' = c then n + 1 else n
  | .clear cells => if cells c then 0 else n

/-- The counter of `c` after a history of operations, the newest one last. -/
def count (history : List (Op κ)) (c : κ) : Nat := history.foldl (Op.apply c) 0

@[simp] theorem count_nil (c : κ) : count [] c = 0 := rfl

theorem count_append (history later : List (Op κ)) (c : κ) :
    count (history ++ later) c = later.foldl (Op.apply c) (count history c) :=
  List.foldl_append

/-- Hits count the cells that they name. -/
theorem count_hits (history : List (Op κ)) (cells : List κ) (c : κ) :
    count (history ++ cells.map .hit) c = count history c + cells.count c := by
  rw [count_append, List.foldl_map]
  generalize count history c = n
  induction cells generalizing n with
  | nil => rfl
  | cons c' cells ih =>
    rw [List.foldl_cons, ih, Op.apply, List.count_cons]
    by_cases same : c' = c
    · simp [same]
      omega
    · simp [same]

/-- A clear leaves zero in its cells and nothing else changed. -/
theorem count_clear (history : List (Op κ)) (cells : κ → Bool) (c : κ) :
    count (history ++ [.clear cells]) c = if cells c then 0 else count history c := by
  rw [count_append]
  rfl

end Board
