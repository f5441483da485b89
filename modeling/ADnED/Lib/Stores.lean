import ADnED.Lib.Runs

/-!
# Counting loops that store into a block

A block is a `Vector`; a store outside of it is undefined (`none`). `forLoop lo hi body` is
`for (i = lo; i < hi; ++i)`. The rule for it, `forLoop_invariant`, proves that the loop ends as well as
what holds at its end, and `forLoop_keeps` only what a loop that ends has kept; `forLoop_rel` compares two
loops. Loops that store one value are summed up by the set of the indices they
store it at (`Wrote`): a loop over bodies that write `P i` writes the union of the `P i` (`forLoop_wrote`),
and two nested ones write a rectangle (`forLoop_grid_wrote`).
-/

namespace Stores

variable {α σ : Type} {n : Nat}

/-- `b[i] = v`. -/
def store (b : Vector α n) (i : Nat) (v : α) : Option (Vector α n) :=
  if h : i < n then some (b.set i v h) else none

/-- `for (i = lo; i < hi; ++i)`. -/
def forLoop (lo hi : Nat) (body : Nat → σ → Option σ) (s : σ) : Option σ :=
  (List.range' lo (hi - lo)).foldlM (fun s i => body i s) s

theorem store_eq_some {b : Vector α n} {i : Nat} (inside : i < n) (v : α) : store b i v = some (b.set i v inside) :=
  dif_pos inside

theorem store_other {b b' : Vector α n} {i j : Nat} {v : α} (stored : store b i v = some b') (h : j < n)
    (other : i ≠ j) : b'[j] = b[j] := by
  rw [store] at stored
  split at stored
  · cases stored
    exact Vector.getElem_set_ne _ h other
  · cases stored

/-- `if (c) b[i] = v`. -/
theorem ite_store_other {c : Prop} [Decidable c] {b b' : Vector α n} {i j : Nat} {v : α}
    (stored : (if c then store b i v else some b) = some b') (h : j < n) (other : i ≠ j) : b'[j] = b[j] := by
  split at stored
  · exact store_other stored h other
  · cases stored
    rfl

section Loops

variable {lo hi : Nat} {body : Nat → σ → Option σ} {s : σ}

theorem forLoop_empty (h : hi ≤ lo) : forLoop lo hi body s = some s := by
  rw [forLoop, Nat.sub_eq_zero_of_le h]
  rfl

theorem forLoop_step (h : lo < hi) : forLoop lo hi body s = (body lo s).bind (forLoop (lo + 1) hi body) := by
  have count : hi - lo = hi - (lo + 1) + 1 := by omega
  rw [forLoop, count, List.range'_succ, List.foldlM_cons]
  rfl

/-- The rule for counting loops: the body goes through wherever the invariant holds, and takes it to the
next index. -/
theorem forLoop_invariant (Inv : Nat → σ → Prop) (first : Inv lo s)
    (step : ∀ i s, lo ≤ i → i < hi → Inv i s → ∃ s', body i s = some s' ∧ Inv (i + 1) s') :
    ∃ s', forLoop lo hi body s = some s' ∧ Inv (max lo hi) s' := by
  obtain ⟨count, hcount⟩ : ∃ count, hi - lo = count := ⟨_, rfl⟩
  induction count generalizing lo s with
  | zero =>
    have le : hi ≤ lo := by omega
    refine ⟨s, forLoop_empty le, ?_⟩
    rw [Nat.max_eq_left le]
    exact first
  | succ count ih =>
    have lt : lo < hi := by omega
    obtain ⟨t, taken, next⟩ := step lo s (Nat.le_refl lo) lt first
    obtain ⟨s', done, last⟩ := ih next (fun i s le => step i s (by omega)) (by omega)
    refine ⟨s', ?_, ?_⟩
    · rw [forLoop_step lt, taken]
      exact done
    · rw [Nat.max_eq_right (Nat.le_of_lt lt)]
      rwa [Nat.max_eq_right (Nat.succ_le_of_lt lt)] at last

/-- Two loops over the same indices whose bodies take related states to related states. -/
theorem forLoop_rel {τ : Type} {body' : Nat → τ → Option τ} {t : τ} {R : σ → τ → Prop}
    (step : ∀ i s t, R s t → Option.Rel R (body i s) (body' i t)) (first : R s t) :
    Option.Rel R (forLoop lo hi body s) (forLoop lo hi body' t) := by
  obtain ⟨count, hcount⟩ : ∃ count, hi - lo = count := ⟨_, rfl⟩
  induction count generalizing lo s t with
  | zero =>
    have le : hi ≤ lo := by omega
    rw [forLoop_empty le, forLoop_empty le]
    exact .some first
  | succ count ih =>
    have lt : lo < hi := by omega
    rw [forLoop_step lt, forLoop_step lt]
    exact Runs.rel_bind (step lo s t first) fun _ _ _ _ next => ih next (by omega)

/-- What every iteration keeps is kept by a loop that ends. -/
theorem forLoop_keeps {P : σ → Prop} (each : ∀ i s s', lo ≤ i → i < hi → body i s = some s' → P s → P s')
    {s' : σ} (done : forLoop lo hi body s = some s') (start : P s) : P s' := by
  obtain ⟨count, hcount⟩ : ∃ count, hi - lo = count := ⟨_, rfl⟩
  induction count generalizing lo s with
  | zero =>
    rw [forLoop_empty (by omega)] at done
    cases done
    exact start
  | succ count ih =>
    have lt : lo < hi := by omega
    rw [forLoop_step lt] at done
    obtain ⟨t, taken, rest⟩ := Option.bind_eq_some_iff.1 done
    exact ih (fun i s s' le => each i s s' (by omega)) rest (each lo s t (Nat.le_refl lo) lt taken start) (by omega)

/-- A cell that no iteration changes. -/
theorem forLoop_other {body : Nat → Vector α n → Option (Vector α n)} {b out : Vector α n} {j : Nat} (h : j < n)
    (done : forLoop lo hi body b = some out)
    (each : ∀ i b b', lo ≤ i → i < hi → body i b = some b' → b'[j] = b[j]) : out[j] = b[j] := by
  refine forLoop_keeps (P := fun v => v[j] = b[j]) ?_ done rfl
  intro i v v' le lt taken same
  exact (each i v v' le lt taken).trans same

end Loops

/-- The cells of `b'` at the indices in `P` hold `v`, the others are those of `b`. -/
structure Wrote (v : α) (P : Nat → Prop) (b b' : Vector α n) : Prop where
  here : ∀ j (h : j < n), P j → b'[j] = v
  elsewhere : ∀ j (h : j < n), ¬ P j → b'[j] = b[j]

namespace Wrote

variable {v : α} {P Q : Nat → Prop} {b b' b'' : Vector α n}

theorem nothing (none : ∀ j, ¬ P j) : Wrote v P b b :=
  ⟨fun j _ hj => absurd hj (none j), fun _ _ _ => rfl⟩

theorem congr (h : Wrote v P b b') (same : ∀ j, j < n → (P j ↔ Q j)) : Wrote v Q b b' := by
  constructor
  · intro j lt hj
    exact h.here j lt ((same j lt).2 hj)
  · intro j lt hj
    exact h.elsewhere j lt fun now => hj ((same j lt).1 now)

theorem trans (h : Wrote v P b b') (h' : Wrote v Q b' b'') : Wrote v (fun j => P j ∨ Q j) b b'' := by
  constructor
  · intro j lt hj
    by_cases last : Q j
    · exact h'.here j lt last
    · rw [h'.elsewhere j lt last]
      exact h.here j lt (hj.resolve_right last)
  · intro j lt hj
    rw [not_or] at hj
    rw [h'.elsewhere j lt hj.2, h.elsewhere j lt hj.1]

end Wrote

variable {v : α} {b : Vector α n}

theorem store_wrote {i : Nat} (inside : i < n) : ∃ b', store b i v = some b' ∧ Wrote v (fun j => i = j) b b' := by
  refine ⟨_, store_eq_some inside v, ?_, ?_⟩
  · rintro j - rfl
    exact Vector.getElem_set_self inside
  · intro j lt other
    exact Vector.getElem_set_ne inside lt other

theorem ite_store_wrote {i : Nat} (inside : i < n) (c : Prop) [Decidable c] :
    ∃ b', (if c then store b i v else some b) = some b' ∧ Wrote v (fun j => c ∧ i = j) b b' := by
  by_cases hc : c
  · obtain ⟨b', stored, wrote⟩ := @store_wrote _ _ v b i inside
    refine ⟨b', ?_, wrote.congr fun j _ => ?_⟩
    · rw [if_pos hc, stored]
    · exact ⟨fun hit => ⟨hc, hit⟩, And.right⟩
  · exact ⟨b, if_neg hc, .nothing fun j hj => hc hj.1⟩

/-- A loop writes what its iterations write. -/
theorem forLoop_wrote {lo hi : Nat} {body : Nat → Vector α n → Option (Vector α n)} {P : Nat → Nat → Prop}
    {Q : Nat → Prop} (each : ∀ i b, lo ≤ i → i < hi → ∃ b', body i b = some b' ∧ Wrote v (P i) b b')
    (all : ∀ j, (∃ i, lo ≤ i ∧ i < hi ∧ P i j) ↔ Q j) :
    ∃ b', forLoop lo hi body b = some b' ∧ Wrote v Q b b' := by
  have start : Wrote v (fun j => ∃ i, lo ≤ i ∧ i < lo ∧ P i j) b b := by
    apply Wrote.nothing
    rintro j ⟨i, le, lt, -⟩
    omega
  -- up to `k` the loop has written what the indices below `k` write
  obtain ⟨b', done, wrote⟩ := @forLoop_invariant _ lo hi body b
    (fun k b' => Wrote v (fun j => ∃ i, lo ≤ i ∧ i < k ∧ P i j) b b') start (by
      intro i now le lt soFar
      obtain ⟨next, taken, wrote⟩ := each i now le lt
      refine ⟨next, taken, (soFar.trans wrote).congr fun j _ => ?_⟩
      constructor
      · rintro (⟨k, hk, below, hj⟩ | hj)
        · exact ⟨k, hk, by omega, hj⟩
        · exact ⟨i, le, by omega, hj⟩
      · rintro ⟨k, hk, below, hj⟩
        rcases Nat.lt_succ_iff_lt_or_eq.1 below with before | rfl
        · exact .inl ⟨k, hk, before, hj⟩
        · exact .inr hj)
  refine ⟨b', done, wrote.congr fun j _ => ?_⟩
  rw [← all j]
  constructor
  · rintro ⟨i, le, lt, hj⟩
    exact ⟨i, le, by omega, hj⟩
  · rintro ⟨i, le, lt, hj⟩
    exact ⟨i, le, by omega, hj⟩

/-- The last index below `k` with `p`. -/
def lastBelow (p : Nat → Bool) (k : Nat) : Option Nat := ((List.range k).filter p).getLast?

theorem lastBelow_succ (p : Nat → Bool) (k : Nat) :
    lastBelow p (k + 1) = if p k then some k else lastBelow p k := by
  rw [lastBelow, List.range_succ, List.filter_append]
  by_cases hp : p k = true
  · have one : [k].filter p = [k] := by simp [hp]
    rw [one, if_pos hp, List.getLast?_append]
    rfl
  · have none : [k].filter p = [] := by simp [hp]
    rw [none, if_neg hp, List.append_nil, lastBelow]

theorem lastBelow_congr {p q : Nat → Bool} {k : Nat} (same : ∀ i < k, p i = q i) : lastBelow p k = lastBelow q k := by
  rw [lastBelow, lastBelow, List.filter_congr fun i mem => same i (List.mem_range.1 mem)]

/-- The last cell of a grid is at the end of its last row. -/
theorem grid_last {w h x y : Nat} (xw : x < w) (yh : y < h) (last : y * w + x = w * h - 1) : x + 1 = w ∧ y + 1 = h := by
  have count : y * w + x + 1 = h * w := by
    have pos : 0 < w * h := Nat.mul_pos (Nat.zero_lt_of_lt xw) (Nat.zero_lt_of_lt yh)
    rw [Nat.mul_comm h]
    omega
  have next : (y + 1) * w = y * w + w := Nat.succ_mul _ _
  have row : h ≤ y + 1 := Nat.le_of_mul_le_mul_right (by omega : h * w ≤ (y + 1) * w) (Nat.zero_lt_of_lt xw)
  obtain rfl : h = y + 1 := by omega
  exact ⟨by omega, rfl⟩

/-- Row by row, the cell of `x` and `y` is at `y * w + x`. -/
theorem exists_grid_iff {w h j : Nat} {C : Nat → Nat → Prop} :
    (∃ y, y < h ∧ ∃ x, x < w ∧ C x y ∧ y * w + x = j) ↔ j < w * h ∧ C (j % w) (j / w) := by
  constructor
  · rintro ⟨y, yh, x, xw, hc, rfl⟩
    have width : 0 < w := by omega
    have column : (y * w + x) % w = x := by
      rw [Nat.mul_comm, Nat.mul_add_mod, Nat.mod_eq_of_lt xw]
    have row : (y * w + x) / w = y := by
      rw [Nat.mul_comm, Nat.mul_add_div width, Nat.div_eq_of_lt xw, Nat.add_zero]
    refine ⟨?_, ?_⟩
    · calc y * w + x < (y + 1) * w := by rw [Nat.add_one_mul]; omega
        _ ≤ h * w := Nat.mul_le_mul_right w yh
        _ = w * h := Nat.mul_comm h w
    · rwa [column, row]
  · rintro ⟨below, hc⟩
    have width : 0 < w := Nat.pos_of_mul_pos_right (Nat.lt_of_le_of_lt (Nat.zero_le j) below)
    refine ⟨j / w, Nat.div_lt_of_lt_mul below, j % w, Nat.mod_lt j width, hc, ?_⟩
    rw [Nat.mul_comm]
    exact Nat.div_add_mod j w

/-- Two nested loops over a rectangle of a block of `h` rows of `w` cells. -/
theorem forLoop_grid_wrote {lx hx ly hy w h : Nat} (fitX : hx ≤ w) (fitY : hy ≤ h)
    {body : Nat → Nat → Vector α n → Option (Vector α n)} {C : Nat → Nat → Prop} {Q : Nat → Prop}
    (each : ∀ y x b, y < hy → x < hx → ∃ b', body y x b = some b' ∧ Wrote v (fun j => C x y ∧ y * w + x = j) b b')
    (all : ∀ j, (j < w * h ∧ (lx ≤ j % w ∧ j % w < hx) ∧ (ly ≤ j / w ∧ j / w < hy) ∧ C (j % w) (j / w)) ↔ Q j) :
    ∃ b', forLoop ly hy (fun y => forLoop lx hx (body y)) b = some b' ∧ Wrote v Q b b' := by
  refine forLoop_wrote (P := fun y j => ∃ x, lx ≤ x ∧ x < hx ∧ C x y ∧ y * w + x = j) ?_ ?_
  · intro y b leY ltY
    refine forLoop_wrote (P := fun x j => C x y ∧ y * w + x = j) ?_ fun _ => Iff.rfl
    intro x b leX ltX
    exact each y x b ltY ltX
  · intro j
    rw [← all j, ← @exists_grid_iff w h j (fun x y => (lx ≤ x ∧ x < hx) ∧ (ly ≤ y ∧ y < hy) ∧ C x y)]
    constructor
    · rintro ⟨y, leY, ltY, x, leX, ltX, hc, rfl⟩
      exact ⟨y, by omega, x, by omega, ⟨⟨leX, ltX⟩, ⟨leY, ltY⟩, hc⟩, rfl⟩
    · rintro ⟨y, -, x, -, ⟨⟨leX, ltX⟩, ⟨leY, ltY⟩, hc⟩, rfl⟩
      exact ⟨y, leY, ltY, x, leX, ltX, hc, rfl⟩

end Stores
