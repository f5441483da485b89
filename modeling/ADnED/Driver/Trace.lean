import ADnED.Driver.Handler
import Mathlib.Data.List.Nodup
import Mathlib.Logic.Function.Iterate

/-!
# The increments of the integration loop

The integration loop of `eventHandler` reads and writes `p_Data` only through
increments, and which cells it increments does not depend on what is in them. `trace`
is the sequence of increments of a list of turns, a turn being one event seen by one
detector. `integrateEvents_eq` says that the loop makes exactly these increments and
counts exactly the turns whose pixel is in the range of their detector.
-/

namespace ADnED

/-- One turn of the inner loop: a detector and an event. -/
abbrev Turn := Nat × (UInt32 × UInt32)

/-- The turns of the two loops, in their order. -/
def turns (ds : List Nat) (events : List (UInt32 × UInt32)) : List Turn :=
  events.flatMap fun e => ds.map fun det => (det, e)

theorem mem_turns {ds : List Nat} {events : List (UInt32 × UInt32)} {t : Turn} :
    t ∈ turns ds events ↔ t.1 ∈ ds ∧ t.2 ∈ events := by
  obtain ⟨det, e⟩ := t
  simp only [turns, List.mem_flatMap, List.mem_map, Prod.mk.injEq]
  constructor
  · rintro ⟨e', he, det', hdet, rfl, rfl⟩
    exact ⟨hdet, he⟩
  · rintro ⟨hdet, he⟩
    exact ⟨e, he, det, hdet, rfl, rfl⟩

theorem turns_append (ds : List Nat) (events more : List (UInt32 × UInt32)) :
    turns ds (events ++ more) = turns ds events ++ turns ds more :=
  List.flatMap_append

/-- Every event has one turn for each detector. -/
theorem countP_turns {ds : List Nat} {det : Nat} (nodup : ds.Nodup) (mem : det ∈ ds)
    (events : List (UInt32 × UInt32)) (p : UInt32 × UInt32 → Bool) :
    (turns ds events).countP (fun t => t.1 == det && p t.2) = events.countP p := by
  induction events with
  | nil => rfl
  | cons e es ih =>
    have once : ds.countP (fun det' => det' == det && p e) = if p e then 1 else 0 := by
      cases p e with
      | false => simp
      | true =>
        have count := List.count_eq_one_of_mem nodup mem
        simpa [List.count] using count
    change ((ds.map fun det => (det, e)) ++ turns ds es).countP _ = _
    rw [List.countP_append, List.countP_map, ih, List.countP_cons, Nat.add_comm]
    congr 1

namespace Driver

/-- The increments of a list of turns, with the loop variables after them. -/
def trace (d : Driver) : List Turn → LoopVars → Option (LoopVars × List Bump)
  | [], v => some (v, [])
  | t :: ts, v =>
    (d.integrateDet t.1 t.2.1 t.2.2 v).bind fun r =>
      (d.trace ts r.1).map fun q => (q.1, r.2 ++ q.2)

/-- The turns of `det` that it counts. -/
def hits (d : Driver) (det : Nat) (ts : List Turn) : Nat :=
  ts.countP fun t => t.1 == det && d.inDet det t.2.1

/-- The loop over a list of turns. -/
def integrateTurns (d : Driver) (ts : List Turn) (s : Integration) : Option Integration :=
  ts.foldlM (fun s t => d.integrateTurn t.2 s t.1) s

theorem integrateEvents_eq_turns (d : Driver) (ds : List Nat) (events : List (UInt32 × UInt32))
    (s : Integration) : d.integrateEvents ds events s = d.integrateTurns (turns ds events) s := by
  induction events generalizing s with
  | nil => rfl
  | cons e es ih =>
    have event : d.integrateEvent ds s e = d.integrateTurns (ds.map fun det => (det, e)) s := by
      rw [integrateTurns, List.foldlM_map]
      rfl
    have split : turns ds (e :: es) = (ds.map fun det => (det, e)) ++ turns ds es := rfl
    rw [split, integrateTurns, List.foldlM_append]
    change (d.integrateEvent ds s e).bind (d.integrateEvents ds es) = _
    rw [event]
    congr 1
    funext s
    exact ih s

/-- What the loop leaves: the increments of its trace in `p_Data`, and the counts. -/
def Integration.after (d : Driver) (ts : List Turn) (s : Integration) (vars : LoopVars)
    (pData : List UInt32) : Integration where
  vars := vars
  pData := pData
  detEvents := fun det => s.detEvents det + UInt32.ofNat (d.hits det ts)
  detTotals := fun det => dblSucc^[d.hits det ts] (s.detTotals det)

theorem hits_cons (d : Driver) (det : Nat) (t : Turn) (ts : List Turn) :
    d.hits det (t :: ts) = d.hits det ts + if t.1 = det ∧ d.inDet det t.2.1 = true then 1 else 0 := by
  simp [hits, List.countP_cons]

/-- One turn, and the turns after it. -/
theorem Integration.after_cons (d : Driver) (t : Turn) (ts : List Turn) (s : Integration)
    (vars vars' : LoopVars) (pData pData' : List UInt32) :
    Integration.after d ts
        (if d.inDet t.1 t.2.1 then Integration.count { s with vars := vars', pData := pData' } t.1
          else { s with vars := vars', pData := pData' }) vars pData =
      Integration.after d (t :: ts) s vars pData := by
  by_cases inside : d.inDet t.1 t.2.1 = true
  · rw [if_pos inside]
    simp only [Integration.after, hits_cons]
    congr 1
    · funext det
      by_cases here : t.1 = det
      · subst here
        simp only [Integration.count, inside, Function.update_self, and_self, if_true, UInt32.ofNat_add]
        rw [UInt32.add_assoc, UInt32.add_comm 1]
        rfl
      · simp [Integration.count, Function.update_of_ne (Ne.symm here), here]
    · funext det
      by_cases here : t.1 = det
      · subst here
        simp [Integration.count, inside]
      · simp [Integration.count, Function.update_of_ne (Ne.symm here), here]
  · have same : ∀ det, d.hits det (t :: ts) = d.hits det ts := by
      intro det
      rw [hits_cons, if_neg]
      · rfl
      · rintro ⟨rfl, hit⟩
        exact inside hit
    rw [if_neg inside]
    simp only [Integration.after, same]

/-- One turn of the loop: its increments, then its counts. -/
theorem integrateTurn_eq {d : Driver} {t : Turn} {s : Integration} {r : LoopVars × List Bump}
    (h : d.integrateDet t.1 t.2.1 t.2.2 s.vars = some r) :
    d.integrateTurn t.2 s t.1 = (Tally.bumpAll (r.2.map Bump.index) s.pData).map fun b =>
      if d.inDet t.1 t.2.1 then Integration.count { s with vars := r.1, pData := b } t.1
      else { s with vars := r.1, pData := b } := by
  obtain ⟨vars, bumps⟩ := r
  rw [integrateTurn, h]
  simp only [Option.bind_eq_bind, Option.bind_some]
  cases Tally.bumpAll (bumps.map Bump.index) s.pData <;> rfl

/-- The loop over a list of turns makes the increments of its trace. -/
theorem integrateTurns_eq (d : Driver) (ts : List Turn) (s : Integration) :
    d.integrateTurns ts s = (d.trace ts s.vars).bind fun r =>
      (Tally.bumpAll (r.2.map Bump.index) s.pData).map (Integration.after d ts s r.1) := by
  induction ts generalizing s with
  | nil => simp [integrateTurns, trace, Tally.bumpAll, Integration.after, hits]
  | cons t ts ih =>
    have turn : d.integrateTurns (t :: ts) s = (d.integrateTurn t.2 s t.1).bind (d.integrateTurns ts) := rfl
    rw [turn, trace]
    cases first : d.integrateDet t.1 t.2.1 t.2.2 s.vars with
    | none =>
      rw [integrateTurn, first]
      rfl
    | some r =>
      rw [integrateTurn_eq first]
      cases now : Tally.bumpAll (r.2.map Bump.index) s.pData with
      | none =>
        simp [Option.bind_map, List.map_append, Tally.bumpAll_append, now]
      | some b =>
        simp only [Option.map_some, Option.bind_some, Option.bind_map, Function.comp_def, List.map_append,
          Tally.bumpAll_append, now]
        rw [ih]
        have vars : (if d.inDet t.1 t.2.1 then Integration.count { s with vars := r.1, pData := b } t.1
            else { s with vars := r.1, pData := b }).vars = r.1 := by split <;> rfl
        have data : (if d.inDet t.1 t.2.1 then Integration.count { s with vars := r.1, pData := b } t.1
            else { s with vars := r.1, pData := b }).pData = b := by split <;> rfl
        rw [vars, data]
        congr 1
        funext q
        congr 1
        funext c
        exact Integration.after_cons d t ts s q.1 r.1 c b

/-- **The integration loop** makes the increments of its trace, and counts its turns. -/
theorem integrateEvents_eq (d : Driver) (ds : List Nat) (events : List (UInt32 × UInt32))
    (s : Integration) :
    d.integrateEvents ds events s = (d.trace (turns ds events) s.vars).bind fun r =>
      (Tally.bumpAll (r.2.map Bump.index) s.pData).map (Integration.after d (turns ds events) s r.1) := by
  rw [integrateEvents_eq_turns, integrateTurns_eq]

end Driver

end ADnED
