import Mathlib.Algebra.BigOperators.Group.List.Basic
import Mathlib.Data.List.Induction

/-!
# Runs of a labelled system

A system is a step function `step : σ → ℓ → Option σ`: the label carries every choice
the environment makes, and `none` means that the step is not enabled. `run` follows a
list of labels. The rules here package the inductions over runs: an invariant that
every step keeps (`run_invariant`), one that is only kept by the steps that meet a
condition (`run_invariant_of_meets`), a request that the steps bring nearer to its answer
(`run_progress`), an account of what the steps take in and give out (`run_balance`), and
facts about the past of a run, of the form "an `A`-step was taken and `P` has held ever
since" (`Since`). Two runs side by side are compared with `Option.Rel`: both get stuck, or
both end and the ends are related (`run_rel`).
-/

namespace Runs

variable {σ ℓ : Type} (step : σ → ℓ → Option σ)

/-- The state after the steps `ls`, if all of them are enabled. -/
def run (s : σ) : List ℓ → Option σ
  | [] => some s
  | l :: ls => (step s l).bind fun s' => run s' ls

/-- Every step of the run meets the condition `ok` in the state it is taken from. -/
def Meets (ok : σ → ℓ → Prop) (s : σ) : List ℓ → Prop
  | [] => True
  | l :: ls => ok s l ∧ ∀ s', step s l = some s' → Meets ok s' ls

/-- `Meets` for a condition that can be evaluated. -/
def checks (ok : σ → ℓ → Bool) (s : σ) : List ℓ → Bool
  | [] => true
  | l :: ls => ok s l && ((step s l).map fun s' => checks ok s' ls).getD true

/-- `P` holds in every state the run visits, both ends included. -/
def Along (P : σ → Prop) (s : σ) : List ℓ → Prop
  | [] => P s
  | l :: ls => P s ∧ ∀ s', step s l = some s' → Along P s' ls

/-- The run `ls` from `s₀` took a step that satisfies `A`, and `P` held in every state
after it. -/
def Since (A : σ → ℓ → Prop) (P : σ → Prop) (s₀ : σ) (ls : List ℓ) : Prop :=
  ∃ before l after a b, ls = before ++ l :: after ∧ run step s₀ before = some a ∧ A a l ∧
    step a l = some b ∧ Along step P b after

/-- The run from `s` takes a step that satisfies `A` after at most `n` of the steps in `mine`. -/
def Within (mine : ℓ → Bool) (A : σ → ℓ → σ → Prop) (n : Nat) (s : σ) (ls : List ℓ) : Prop :=
  ∃ before l after a b, ls = before ++ l :: after ∧ run step s before = some a ∧ step a l = some b ∧ A a l b ∧
    before.countP mine ≤ n

/-- What `f` notes at the steps of a run, in their order. -/
def log {α : Type} (f : σ → ℓ → List α) (s : σ) : List ℓ → List α
  | [] => []
  | l :: ls => f s l ++ ((step s l).map fun s' => log f s' ls).getD []

variable {step}

@[simp] theorem run_nil (s : σ) : run step s [] = some s := rfl

@[simp] theorem run_cons (s : σ) (l : ℓ) (ls : List ℓ) :
    run step s (l :: ls) = (step s l).bind fun s' => run step s' ls := rfl

theorem run_append (s : σ) (ls ks : List ℓ) :
    run step s (ls ++ ks) = (run step s ls).bind fun s' => run step s' ks := by
  induction ls generalizing s with
  | nil => rfl
  | cons l ls ih =>
    cases hs : step s l with
    | none => simp [hs]
    | some s' => simp [hs, ih]

/-- The first step of a run that has one. -/
theorem run_cons_some {s s'' : σ} {l : ℓ} {ls : List ℓ} (h : run step s (l :: ls) = some s'') :
    ∃ s', step s l = some s' ∧ run step s' ls = some s'' :=
  Option.bind_eq_some_iff.1 h

theorem log_cons {α : Type} (f : σ → ℓ → List α) {s s' : σ} {l : ℓ} (ls : List ℓ) (h : step s l = some s') :
    log step f s (l :: ls) = f s l ++ log step f s' ls := by
  simp [log, h]

theorem log_append {α : Type} (f : σ → ℓ → List α) {s s' : σ} {ls : List ℓ} (ks : List ℓ)
    (h : run step s ls = some s') : log step f s (ls ++ ks) = log step f s ls ++ log step f s' ks := by
  induction ls generalizing s with
  | nil =>
    cases h
    rfl
  | cons l ls ih =>
    obtain ⟨t, ht, rest⟩ := run_cons_some h
    rw [List.cons_append, log_cons f (ls ++ ks) ht, log_cons f ls ht, ih rest, List.append_assoc]

/-- What every enabled step keeps holds at the end of every run. -/
theorem run_invariant (Inv : σ → Prop) (keep : ∀ s l s', Inv s → step s l = some s' → Inv s')
    {s s' : σ} {ls : List ℓ} (h : run step s ls = some s') (hs : Inv s) : Inv s' := by
  induction ls generalizing s with
  | nil => cases h; exact hs
  | cons l ls ih =>
    obtain ⟨t, ht, rest⟩ := run_cons_some h
    exact ih rest (keep s l t hs ht)

/-- What every step that meets `ok` keeps holds at the end of every run of such steps. -/
theorem run_invariant_of_meets (Inv : σ → Prop) {ok : σ → ℓ → Prop}
    (keep : ∀ s l s', Inv s → ok s l → step s l = some s' → Inv s')
    {s s' : σ} {ls : List ℓ} (h : run step s ls = some s') (meets : Meets step ok s ls)
    (hs : Inv s) : Inv s' := by
  induction ls generalizing s with
  | nil => cases h; exact hs
  | cons l ls ih =>
    obtain ⟨t, ht, rest⟩ := run_cons_some h
    exact ih rest (meets.2 t ht) (keep s l t hs meets.1 ht)

/-- An invariant that also speaks about two things that the run has noted so far. -/
theorem run_logs_invariant {α β : Type} (f : σ → ℓ → List α) (g : σ → ℓ → List β) (Inv : List α → List β → σ → Prop)
    {ok : σ → ℓ → Prop}
    (keep : ∀ past past' s l s', Inv past past' s → ok s l → step s l = some s' →
      Inv (past ++ f s l) (past' ++ g s l) s')
    {s s' : σ} {ls : List ℓ} (h : run step s ls = some s') (meets : Meets step ok s ls) (past : List α)
    (past' : List β) (hs : Inv past past' s) : Inv (past ++ log step f s ls) (past' ++ log step g s ls) s' := by
  induction ls generalizing s past past' with
  | nil =>
    cases h
    simpa [log] using hs
  | cons l ls ih =>
    obtain ⟨t, ht, rest⟩ := run_cons_some h
    rw [log_cons f ls ht, log_cons g ls ht, ← List.append_assoc, ← List.append_assoc]
    exact ih rest (meets.2 t ht) _ _ (keep past past' s l t hs meets.1 ht)

/-- An invariant that also speaks about what the run has noted so far. -/
theorem run_log_invariant {α : Type} (f : σ → ℓ → List α) (Inv : List α → σ → Prop) {ok : σ → ℓ → Prop}
    (keep : ∀ past s l s', Inv past s → ok s l → step s l = some s' → Inv (past ++ f s l) s')
    {s s' : σ} {ls : List ℓ} (h : run step s ls = some s') (meets : Meets step ok s ls) {past : List α}
    (hs : Inv past s) : Inv (past ++ log step f s ls) s' :=
  run_logs_invariant f (fun _ _ => ([] : List Empty)) (fun past _ s => Inv past s)
    (fun past _ s l s' => keep past s l s') h meets past [] hs

theorem log_filterMap {α β : Type} (f : σ → ℓ → List α) (g : α → Option β) (s : σ) (ls : List ℓ) :
    (log step f s ls).filterMap g = log step (fun s l => (f s l).filterMap g) s ls := by
  induction ls generalizing s with
  | nil => rfl
  | cons l ls ih =>
    rw [log, log, List.filterMap_append]
    cases step s l with
    | none => rfl
    | some s' => exact congrArg (_ ++ ·) (ih s')

/-- A simulation: every step is matched by the steps it emits, and so is the run. -/
theorem run_simulates {τ κ : Type} {step' : τ → κ → Option τ} (emit : σ → ℓ → List κ) (R : σ → τ → Prop)
    {ok : σ → ℓ → Prop}
    (match_step : ∀ s l s' t, R s t → ok s l → step s l = some s' → ∃ t', run step' t (emit s l) = some t' ∧ R s' t')
    {s s' : σ} {t : τ} {ls : List ℓ} (h : run step s ls = some s') (meets : Meets step ok s ls) (hs : R s t) :
    ∃ t', run step' t (log step emit s ls) = some t' ∧ R s' t' := by
  induction ls generalizing s t with
  | nil =>
    cases h
    exact ⟨t, rfl, hs⟩
  | cons l ls ih =>
    obtain ⟨s₁, first, rest⟩ := run_cons_some h
    obtain ⟨t₁, matched, related⟩ := match_step s l s₁ t hs meets.1 first
    obtain ⟨t', later, ends⟩ := ih rest (meets.2 s₁ first) related
    refine ⟨t', ?_, ends⟩
    rw [log_cons emit ls first, run_append, matched, Option.bind_some, later]

/-- A queue: what it holds and is given is what it puts out and holds in the end, in this order. -/
theorem run_conserves {α : Type} (f : σ → ℓ → List α) (given : ℓ → List α) (held : σ → List α) {Inv : σ → Prop}
    (keep : ∀ s l s', Inv s → step s l = some s' → Inv s' ∧ held s ++ given l = f s l ++ held s')
    {s s' : σ} {ls : List ℓ} (h : run step s ls = some s') (hs : Inv s) :
    held s ++ ls.flatMap given = log step f s ls ++ held s' := by
  induction ls generalizing s with
  | nil =>
    cases h
    simp [log]
  | cons l ls ih =>
    obtain ⟨t, first, rest⟩ := run_cons_some h
    obtain ⟨inv, now⟩ := keep s l t hs first
    rw [log_cons f ls first, List.flatMap_cons, ← List.append_assoc, now, List.append_assoc, ih rest inv,
      List.append_assoc]

/-- An account: what it holds and takes in is what it gives out and holds in the end. -/
theorem run_balance {M α β : Type} [AddCommMonoid M] (income : σ → ℓ → List α) (outgo : σ → ℓ → List β)
    (worth : α → M) (price : β → M) (held : σ → M) {ok : σ → ℓ → Prop}
    (keep : ∀ s l s', ok s l → step s l = some s' →
      held s + ((income s l).map worth).sum = ((outgo s l).map price).sum + held s')
    {s s' : σ} {ls : List ℓ} (h : run step s ls = some s') (meets : Meets step ok s ls) :
    held s + ((log step income s ls).map worth).sum = ((log step outgo s ls).map price).sum + held s' := by
  induction ls generalizing s with
  | nil =>
    cases h
    simp [log]
  | cons l ls ih =>
    obtain ⟨t, first, rest⟩ := run_cons_some h
    have later := ih rest (meets.2 t first)
    rw [log_cons income ls first, log_cons outgo ls first, List.map_append, List.map_append, List.sum_append,
      List.sum_append, ← add_assoc, keep s l t meets.1 first, add_assoc, later, add_assoc]

/-- What holds of each entry when it is made holds of the log. -/
theorem log_forall {α : Type} {f : σ → ℓ → List α} {P : α → Prop} {ok : σ → ℓ → Prop}
    (entry : ∀ s l s', ok s l → step s l = some s' → ∀ a ∈ f s l, P a)
    {s s' : σ} {ls : List ℓ} (h : run step s ls = some s') (meets : Meets step ok s ls) :
    ∀ a ∈ log step f s ls, P a := by
  induction ls generalizing s with
  | nil => simp [log]
  | cons l ls ih =>
    obtain ⟨t, first, rest⟩ := run_cons_some h
    rw [log_cons f ls first]
    intro a mem
    rcases List.mem_append.1 mem with now | later
    · exact entry s l t meets.1 first a now
    · exact ih rest (meets.2 t first) a later

theorem Within.mono {mine : ℓ → Bool} {A : σ → ℓ → σ → Prop} {m n : Nat} {s : σ} {ls : List ℓ} (le : m ≤ n)
    (h : Within step mine A m s ls) : Within step mine A n s ls := by
  obtain ⟨before, l, after, a, b, split, reached, next, answered, few⟩ := h
  exact ⟨before, l, after, a, b, split, reached, next, answered, Nat.le_trans few le⟩

/-- A request that every step answers or leaves pending, and that the steps in `mine` bring nearer to its
answer: a run answers it within the distance, or it is still pending. -/
theorem run_progress {mine : ℓ → Bool} {A : σ → ℓ → σ → Prop} (Pending : σ → Prop) (distance : σ → Nat)
    (progress : ∀ s l s', Pending s → step s l = some s' →
      A s l s' ∨ Pending s' ∧ distance s' + (mine l).toNat ≤ distance s)
    {s s' : σ} {ls : List ℓ} (h : run step s ls = some s') (hs : Pending s) :
    Within step mine A (distance s) s ls ∨ Pending s' ∧ distance s' + ls.countP mine ≤ distance s := by
  induction ls generalizing s with
  | nil =>
    cases h
    exact .inr ⟨hs, by simp⟩
  | cons l ls ih =>
    obtain ⟨t, first, rest⟩ := run_cons_some h
    have count : (l :: ls).countP mine = ls.countP mine + (mine l).toNat := by
      cases hm : mine l <;> simp [hm]
    rcases progress s l t hs first with answered | ⟨pending, nearer⟩
    · exact .inl ⟨[], l, ls, s, t, rfl, rfl, first, answered, by simp⟩
    rcases ih rest pending with ⟨before, k, after, a, b, rfl, reached, next, answered, few⟩ | ⟨still, bound⟩
    · refine .inl ⟨l :: before, k, after, a, b, rfl, ?_, next, answered, ?_⟩
      · rw [run_cons, first, Option.bind_some, reached]
      · have countBefore : (l :: before).countP mine = before.countP mine + (mine l).toNat := by
          cases hm : mine l <;> simp [hm]
        omega
    · exact .inr ⟨still, by omega⟩

section Ghost

variable {σ' : Type} {step' : σ' → ℓ → Option σ'} (π : σ' → σ) (same : ∀ s l, (step' s l).map π = step (π s) l)
include same

/-- State that the steps only carry along does not change the runs. -/
theorem run_ghost (s : σ') (ls : List ℓ) : (run step' s ls).map π = run step (π s) ls := by
  induction ls generalizing s with
  | nil => rfl
  | cons l ls ih =>
    rw [run_cons, run_cons, ← same]
    cases step' s l with
    | none => rfl
    | some s' => exact ih s'

theorem Meets.ghost {ok : σ → ℓ → Prop} {s : σ'} {ls : List ℓ} (h : Meets step ok (π s) ls) :
    Meets step' (fun s l => ok (π s) l) s ls := by
  induction ls generalizing s with
  | nil => trivial
  | cons l ls ih =>
    refine ⟨h.1, fun s' next => ih (h.2 (π s') ?_)⟩
    rw [← same, next]
    rfl

end Ghost

theorem meets_of_checks {P : σ → ℓ → Prop} {ok : σ → ℓ → Bool} (sound : ∀ s l, ok s l = true → P s l)
    {s : σ} {ls : List ℓ} (h : checks step ok s ls = true) : Meets step P s ls := by
  induction ls generalizing s with
  | nil => trivial
  | cons l ls ih =>
    obtain ⟨now, later⟩ := Bool.and_eq_true_iff.1 h
    refine ⟨sound s l now, fun s' hs => ih ?_⟩
    simpa [hs] using later

/-- A condition that can be decided along the run. -/
theorem meets_of_decide {P : σ → ℓ → Prop} [∀ s l, Decidable (P s l)] {s : σ} {ls : List ℓ}
    (h : checks step (fun s l => decide (P s l)) s ls = true) : Meets step P s ls :=
  meets_of_checks (fun _ _ => of_decide_eq_true) h

theorem Meets.and {P Q : σ → ℓ → Prop} {s : σ} {ls : List ℓ} (hp : Meets step P s ls) (hq : Meets step Q s ls) :
    Meets step (fun s l => P s l ∧ Q s l) s ls := by
  induction ls generalizing s with
  | nil => trivial
  | cons l ls ih => exact ⟨⟨hp.1, hq.1⟩, fun s' hs => ih (hp.2 s' hs) (hq.2 s' hs)⟩

/-- No condition at all. -/
theorem meets_true {s : σ} {ls : List ℓ} : Meets step (fun _ _ => True) s ls := by
  induction ls generalizing s with
  | nil => trivial
  | cons l ls ih => exact ⟨trivial, fun _ _ => ih⟩

theorem Along.snoc {P : σ → Prop} {s s' s'' : σ} {ls : List ℓ} {l : ℓ} (h : Along step P s ls)
    (reached : run step s ls = some s') (next : step s' l = some s'') (hp : P s'') :
    Along step P s (ls ++ [l]) := by
  induction ls generalizing s with
  | nil =>
    cases reached
    refine ⟨h, fun t ht => ?_⟩
    rw [next] at ht
    cases ht
    exact hp
  | cons k ls ih =>
    obtain ⟨t, ht, rest⟩ := run_cons_some reached
    refine ⟨h.1, fun t' ht' => ?_⟩
    rw [ht] at ht'
    cases ht'
    exact ih (h.2 t ht) rest

section Since

variable {A : σ → ℓ → Prop} {P : σ → Prop} {s₀ s s' : σ} {ls : List ℓ} {l : ℓ}

/-- The step just taken starts a new past. -/
theorem Since.now (reached : run step s₀ ls = some s) (ha : A s l) (h : step s l = some s')
    (hp : P s') : Since step A P s₀ (ls ++ [l]) :=
  ⟨ls, l, [], s, s', rfl, reached, ha, h, hp⟩

/-- A step into a state with `P` keeps the past. -/
theorem Since.snoc (past : Since step A P s₀ ls) (reached : run step s₀ ls = some s)
    (h : step s l = some s') (hp : P s') : Since step A P s₀ (ls ++ [l]) := by
  obtain ⟨before, k, after, a, b, rfl, hb, ha, hk, along⟩ := past
  have hafter : run step b after = some s := by
    rw [run_append, hb] at reached
    simpa [hk] using reached
  exact ⟨before, k, after ++ [l], a, b, by simp, hb, ha, hk, along.snoc hafter h hp⟩

end Since

/-- Induction over the runs from `s₀`, one step at the end at a time. -/
theorem run_induction {s₀ : σ} {P : List ℓ → σ → Prop} (base : P [] s₀)
    (next : ∀ ls s l s', run step s₀ ls = some s → step s l = some s' → P ls s → P (ls ++ [l]) s') :
    ∀ ls s, run step s₀ ls = some s → P ls s := by
  intro ls
  induction ls using List.reverseRecOn with
  | nil => intro s h; cases h; exact base
  | append_singleton ls l ih =>
    intro s h
    rw [run_append] at h
    obtain ⟨t, ht, hl⟩ := Option.bind_eq_some_iff.1 h
    have hl : step t l = some s := by simpa using hl
    exact next ls t l s ht hl (ih t ht)

section TwoRuns

variable {α β α' β' : Type} {R : α → β → Prop} {S : α' → β' → Prop} {x : Option α} {y : Option β}

/-- Related results go on to related results. -/
theorem rel_bind (h : Option.Rel R x y) {f : α → Option α'} {g : β → Option β'}
    (next : ∀ a b, x = some a → y = some b → R a b → Option.Rel S (f a) (g b)) :
    Option.Rel S (x.bind f) (y.bind g) := by
  cases h with
  | none => exact .none
  | some related => exact next _ _ rfl rfl related

theorem rel_map (h : Option.Rel R x y) {f : α → α'} {g : β → β'}
    (next : ∀ a b, x = some a → y = some b → R a b → S (f a) (g b)) : Option.Rel S (x.map f) (y.map g) := by
  cases h with
  | none => exact .none
  | some related => exact .some (next _ _ rfl rfl related)

theorem rel_of_map {f : α → α'} {g : β → β'} (h : Option.Rel S (x.map f) (y.map g)) :
    Option.Rel (fun a b => S (f a) (g b)) x y := by
  cases x <;> cases y <;> cases h
  · exact .none
  · rename_i related
    exact .some related

/-- What is known of the two results may be used for the new relation. -/
theorem rel_refine {R' : α → β → Prop} (h : Option.Rel R x y)
    (next : ∀ a b, x = some a → y = some b → R a b → R' a b) : Option.Rel R' x y := by
  cases h with
  | some related => exact .some (next _ _ rfl rfl related)
  | none => exact .none

theorem rel_mono {R' : α → β → Prop} (h : Option.Rel R x y) (weaker : ∀ a b, R a b → R' a b) :
    Option.Rel R' x y := by
  cases h with
  | none => exact .none
  | some related => exact .some (weaker _ _ related)

/-- Two results that are related to the same one. -/
theorem rel_meet {R' : α' → β → Prop} {T : α → α' → Prop} {x' : Option α'} (h : Option.Rel R x y)
    (h' : Option.Rel R' x' y) (meet : ∀ a a' b, R a b → R' a' b → T a a') : Option.Rel T x x' := by
  cases h with
  | none =>
    cases h' with
    | none => exact .none
  | some related =>
    cases h' with
    | some related' => exact .some (meet _ _ _ related related')

theorem map_eq_of_rel {γ : Type} (h : Option.Rel R x y) {f : α → γ} {g : β → γ} (same : ∀ a b, R a b → f a = g b) :
    x.map f = y.map g := by
  cases h with
  | none => rfl
  | some related => exact congrArg some (same _ _ related)

/-- Two systems that take related states to related states, by every step that is allowed. -/
theorem run_rel {step : α → ℓ → Option α} {step' : β → ℓ → Option β} {ok : ℓ → Prop}
    (next : ∀ a b l, ok l → R a b → Option.Rel R (step a l) (step' b l)) {a : α} {b : β} {ls : List ℓ}
    (allowed : ∀ l ∈ ls, ok l) (start : R a b) : Option.Rel R (run step a ls) (run step' b ls) := by
  induction ls generalizing a b with
  | nil => exact .some start
  | cons l ls ih =>
    rw [run_cons, run_cons]
    exact rel_bind (next a b l (allowed l (by simp)) start) fun _ _ _ _ related =>
      ih (fun l' later => allowed l' (by simp [later])) related

end TwoRuns

end Runs
