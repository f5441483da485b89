import Mathlib.Logic.Basic

/-!
# Computations with a log

A computation logs events, and it may become undefined (`result = none`); what has been logged up to
there is kept. Whether all the events of a sequence have a property is settled part by part
(`all_bind`), and so is its result (`result_bind`).
-/

/-- A log, and the value that is left with it. -/
structure Logged (ε α : Type) where
  events : List ε
  result : Option α

namespace Logged

variable {ε α β : Type}

protected def pure (a : α) : Logged ε α := ⟨[], some a⟩

protected def bind (x : Logged ε α) (f : α → Logged ε β) : Logged ε β :=
  match x.result with
  | none => ⟨x.events, none⟩
  | some a => ⟨x.events ++ (f a).events, (f a).result⟩

instance : Monad (Logged ε) where
  pure := Logged.pure
  bind := Logged.bind

/-- Every event has the property. -/
def All (P : ε → Prop) (x : Logged ε α) : Prop := ∀ e ∈ x.events, P e

@[simp] theorem result_pure (a : α) : (pure a : Logged ε α).result = some a := rfl

theorem result_bind (x : Logged ε α) (f : α → Logged ε β) :
    (x >>= f).result = x.result.bind fun a => (f a).result := by
  show (Logged.bind x f).result = _
  unfold Logged.bind
  cases x.result with
  | none => rfl
  | some a => rfl

variable {P : ε → Prop}

@[simp] theorem all_pure (a : α) : All P (pure a : Logged ε α) := by
  rintro e ⟨⟩

theorem all_bind (x : Logged ε α) (f : α → Logged ε β) :
    All P (x >>= f) ↔ All P x ∧ ∀ a, x.result = some a → All P (f a) := by
  show All P (Logged.bind x f) ↔ _
  unfold Logged.bind All
  cases done : x.result with
  | none => simp
  | some a => simp [or_imp, forall_and]

/-- The first part goes through: the sequence is as good as the rest. -/
theorem bind_of_result {x : Logged ε α} {a : α} (done : x.result = some a) (good : All P x) (f : α → Logged ε β) :
    (x >>= f).result = (f a).result ∧ (All P (x >>= f) ↔ All P (f a)) := by
  constructor
  · rw [result_bind, done]
    rfl
  · simp [all_bind, done, good]

end Logged
