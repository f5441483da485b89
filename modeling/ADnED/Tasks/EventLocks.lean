import ADnED.Tasks.EventTask
import ADnED.Driver.AllocFrame
import ADnED.Lib.Runs

/-!
# The driver mutex in `eventTask`

`eventTask` in an arbitrary environment: between any two of its steps the driver may
change at will, and each start brings its own outcome of `calloc` and of the connects.
The tail of the loop releases the mutex that the stop took. A start that fails has
released its own before it runs into the same tail, so that the tail works on the
parameter library without the mutex and then releases it once too often:
`eventTask_locks` shows that nothing else breaks the discipline.
-/

namespace ADnED

namespace EventTask

/-- A start that goes through: the layout can be allocated and every channel connects. -/
def StartOk (env : StartEnv) (d : Driver) : Prop :=
  (d.allocArray env.callocOk).2 = .success ∧ connectThrows env d (readNumChannels d) = false

/-! ## The critical sections -/

theorem idleSection_locks (t : Thread) (error : Bool) :
    (idleSection t error).locks = t.locks.touch.release := by
  simp only [idleSection]
  split <;> simp

theorem beginAcquire_locks (t : Thread) : (beginAcquire t).locks = t.locks.touch := by
  simp [beginAcquire]

theorem connect_locks (env : StartEnv) {t : Thread} (numChannels : Int32) {l : Locks}
    (h : t.locks = l.touch) : (connect env t numChannels).1.locks = l.touch := by
  have read := Thread.foldl_locks (f := fun t (_ : Nat) => t.access) (fun _ _ => rfl)
    (channels numChannels) h
  simp only [connect]
  split <;> simp [read]

theorem completeStart_locks (t : Thread) (error : Bool) :
    (completeStart t error).locks = t.locks.touch.release := by
  simp only [completeStart]
  split <;> simp

/-- A start releases the mutex, also when it fails. -/
theorem startSection_locks (env : StartEnv) (t : Thread) :
    (startSection env t).1.locks = t.locks.touch.release := by
  simp only [startSection]
  split
  · simp [completeStart_locks]
  · rename_i d _
    have begun : (beginAcquire (t.access.call fun _ => d)).locks = t.locks.touch := by
      simp [beginAcquire_locks]
    simp [completeStart_locks, connect_locks env _ begun]

theorem stopSection_locks (t : Thread) : (stopSection t).locks = t.locks.touch := by
  simp [stopSection]

/-- The tail releases the mutex, whether it is held or not. -/
theorem tailSection_locks (t : Thread) : (tailSection t).locks = t.locks.touch.release := by
  have rates := Thread.foldl_locks (t := t.access.setInt 0 .eventRate 0) (l := t.locks)
    (f := fun t det => (t.setInt det .detEventRate 0).callParamCallbacks) (by simp)
    (dets (t.drv.int 0 .numDet)) (by simp)
  simp [tailSection, rates]

/-- The connect loop reads the names of the channels and changes nothing. -/
theorem foldl_access_drv {α : Type} (as : List α) (t : Thread) :
    (as.foldl (fun t _ => t.access) t).drv = t.drv := by
  induction as generalizing t with
  | nil => rfl
  | cons a as ih => exact ih t.access

theorem connect_error (env : StartEnv) (t : Thread) (numChannels : Int32) :
    (connect env t numChannels).2 = connectThrows env t.drv numChannels := by
  simp only [connect, foldl_access_drv]
  split
  · rename_i throws
    exact throws.symm
  · rename_i connects
    exact (Bool.eq_false_of_not_eq_true connects).symm

/-- The names of the channels decide which of them are connected to. -/
theorem connectThrows_congr (env : StartEnv) {d d' : Driver}
    (same : ∀ c, d'.str c .pvName = d.str c .pvName) (numChannels : Int32) :
    connectThrows env d' numChannels = connectThrows env d numChannels := by
  simp only [connectThrows, skipsChannel, same]

/-- Up to the connect loop a start does not touch the names. -/
theorem beginAcquire_connectThrows (env : StartEnv) {t : Thread} {d : Driver} (relaid : Relaid t.drv d)
    (numChannels : Int32) :
    connectThrows env (beginAcquire (t.access.call fun _ => d)).drv numChannels =
      connectThrows env t.drv numChannels := by
  apply connectThrows_congr
  intro c
  rw [← relaid.str]
  simp [beginAcquire, Driver.setStr]

/-- `eventTask` takes the start for failed exactly if it did not go through. -/
theorem startSection_error (env : StartEnv) (t : Thread) :
    (startSection env t).2.1 = false ↔ StartOk env t.drv := by
  have relaid := Driver.allocArray_relaid env.callocOk t.drv
  simp only [startSection, StartOk, Thread.access_drv]
  split
  · rename_i failed
    simp [failed]
  · rename_i d allocated
    rw [allocated] at relaid
    rw [connect_error, beginAcquire_connectThrows env relaid, allocated]
    simp

/-! ## Runs -/

/-- A step of `eventTask`, or any change of the driver by somebody else. -/
inductive Act where
  | env (d : Driver)
  | step (env : StartEnv)

/-- `eventTask` in an arbitrary environment. -/
def move (s : Driver × EventTask) : Act → Option (Driver × EventTask)
  | .env d => some (d, s.2)
  | .step env => s.2.step env s.1

/-- If the step is a start, it goes through. -/
def Starts (s : Driver × EventTask) (a : Act) : Prop :=
  ∀ env, a = .step env → s.2.pc = .startSection → StartOk env s.1

/-- The lock discipline of `eventTask`: it has never released a mutex it did not hold, has
never used the parameter library without it, and holds nothing at a wait. -/
structure Disciplined (e : EventTask) : Prop where
  unlock : e.locks.strayUnlock = false
  access : e.locks.bareAccess = false
  wait : e.pc.isWait = true → e.locks.hold = 0

/-- How often the mutex is held at a program point. -/
def holdAt : EventPc → Nat
  | .drainWait | .idleLock | .startWait | .startLock | .stopWait | .stopLock => 0
  | .idleSection | .startSection | .stopSection | .tail => 1

/-- The mutex is held as it should be and has never been misused. -/
def Held (e : EventTask) : Prop := e.locks = ⟨holdAt e.pc, false, false⟩

/-- The mutex has been released once too often, or will be in the tail. -/
def Broken (e : EventTask) : Prop :=
  e.locks.strayUnlock = true ∨ e.pc = .tail ∧ e.locks.hold = 0

/-- The hold count of `eventTask` alone, which a failed start does not upset for long. -/
def Holds (e : EventTask) : Prop := e.locks.hold = holdAt e.pc ∨ e.pc = .tail ∧ e.locks.hold = 0

theorem step_holds {env : StartEnv} {d : Driver} {e : EventTask} {r : Driver × EventTask}
    (h : e.Holds) (hs : e.step env d = some r) : r.2.Holds := by
  have hold : (e.thread d).locks.hold = holdAt e.pc ∨ e.pc = .tail ∧ (e.thread d).locks.hold = 0 := h
  simp only [step] at hs
  cases hpc : e.pc <;> simp only [hpc, holdAt] at hs hold
  case startWait =>
    split at hs
    · cases hs
      simpa [Holds, goto, holdAt] using hold
    · cases hs
  case startSection =>
    cases hs
    simp only [Holds, goto, startSection_locks, Locks.release_hold, Locks.touch_hold]
    split <;> simp_all [holdAt]
  case stopWait =>
    split at hs <;> cases hs <;> simpa [Holds, goto, holdAt] using hold
  case tail =>
    cases hs
    left
    simp only [goto, tailSection_locks, Locks.release_hold, Locks.touch_hold, holdAt]
    omega
  all_goals
    cases hs
    simp_all [Holds, goto, holdAt, idleSection_locks, stopSection_locks]

/-- A step of a disciplined `eventTask` keeps the account, or is a start that fails. -/
theorem step_held {env : StartEnv} {d : Driver} {e : EventTask} {r : Driver × EventTask}
    (h : e.Held) (hs : e.step env d = some r) :
    (e.pc = .startSection → StartOk env d) ∧ r.2.Held ∨
      (e.pc = .startSection ∧ ¬StartOk env d) ∧ r.2.Broken := by
  have held : (e.thread d).locks = ⟨holdAt e.pc, false, false⟩ := h
  have error := startSection_error env (e.thread d)
  simp only [step] at hs
  cases hpc : e.pc <;> rw [hpc] at held <;> simp only [hpc] at hs ⊢
  case startWait =>
    split at hs
    · cases hs
      simp [Held, goto, held, holdAt]
    · cases hs
  case startSection =>
    cases hs
    have locks : (startSection env (e.thread d)).1.locks = ⟨0, false, false⟩ := by
      rw [startSection_locks, held]
      simp [holdAt]
    by_cases ok : StartOk env d
    · have went := error.2 ok
      exact .inl ⟨fun _ => ok, by simp [Held, goto, locks, went, holdAt]⟩
    · have failed : (startSection env (e.thread d)).2.1 = true := by
        cases h : (startSection env (e.thread d)).2.1 with
        | true => rfl
        | false => exact absurd (error.1 h) ok
      exact .inr ⟨⟨trivial, ok⟩, by simp [Broken, goto, locks, failed]⟩
  case stopWait =>
    split at hs <;> cases hs <;> simp [Held, goto, held, holdAt]
  all_goals
    cases hs
    simp [Held, goto, held, holdAt, idleSection_locks, stopSection_locks, tailSection_locks]

/-- A stray release stays on the account. -/
theorem step_stray {env : StartEnv} {d : Driver} {e : EventTask} {r : Driver × EventTask}
    (h : e.locks.strayUnlock = true) (hs : e.step env d = some r) : r.2.locks.strayUnlock = true := by
  have stray : (e.thread d).locks.strayUnlock = true := h
  have released : (e.thread d).locks.touch.release.strayUnlock = true :=
    Locks.release_strayUnlock (.inl stray)
  simp only [step] at hs
  cases hpc : e.pc <;> simp only [hpc] at hs
  case startWait =>
    split at hs
    · cases hs
      exact stray
    · cases hs
  case startSection =>
    cases hs
    simp [goto, startSection_locks, released]
  case stopWait =>
    split at hs <;> cases hs <;> exact stray
  all_goals
    cases hs
    simp [goto, idleSection_locks, stopSection_locks, tailSection_locks, stray, released]

/-- Once broken, the discipline stays broken. -/
theorem step_broken {env : StartEnv} {d : Driver} {e : EventTask} {r : Driver × EventTask}
    (h : e.Broken) (hs : e.step env d = some r) : r.2.Broken := by
  rcases h with stray | ⟨hpc, hold⟩
  · exact .inl (step_stray stray hs)
  · simp only [step, hpc] at hs
    cases hs
    left
    simp only [goto, tailSection_locks]
    exact Locks.release_strayUnlock (.inr hold)

theorem move_broken {s s' : Driver × EventTask} {a : Act} (h : s.2.Broken) (hm : move s a = some s') :
    s'.2.Broken := by
  cases a with
  | env d => cases hm; exact h
  | step env => exact step_broken h hm

/-- The starts alone decide whether the account is kept. -/
theorem run_held {ls : List Act} : ∀ {s s' : Driver × EventTask}, s.2.Held →
    Runs.run move s ls = some s' →
    Runs.Meets move Starts s ls ∧ s'.2.Held ∨ ¬Runs.Meets move Starts s ls ∧ s'.2.Broken := by
  induction ls with
  | nil =>
    intro s s' held h
    cases h
    exact .inl ⟨trivial, held⟩
  | cons a ls ih =>
    intro s s' held h
    obtain ⟨t, ht, rest⟩ := Runs.run_cons_some h
    have next : Runs.Meets move Starts s (a :: ls) ↔ Starts s a ∧ Runs.Meets move Starts t ls := by
      simp [Runs.Meets, ht]
    rw [next]
    have after : Starts s a ∧ t.2.Held ∨ ¬Starts s a ∧ t.2.Broken := by
      cases a with
      | env d =>
        cases ht
        exact .inl ⟨by simp [Starts], held⟩
      | step env =>
        have same : Starts s (.step env) ↔ (s.2.pc = .startSection → StartOk env s.1) :=
          ⟨fun h => h env rfl, fun h _ e => by cases e; exact h⟩
        rw [same]
        rcases step_held held ht with ⟨ok, held⟩ | ⟨⟨at_start, failed⟩, broken⟩
        · exact .inl ⟨ok, held⟩
        · exact .inr ⟨fun ok => failed (ok at_start), broken⟩
    rcases after with ⟨ok, held⟩ | ⟨failed, broken⟩
    · rcases ih held rest with ⟨meets, held⟩ | ⟨not_meets, broken⟩
      · exact .inl ⟨⟨ok, meets⟩, held⟩
      · exact .inr ⟨fun h => not_meets h.2, broken⟩
    · refine .inr ⟨fun h => failed h.1, ?_⟩
      exact Runs.run_invariant (fun s => s.2.Broken) (fun _ _ _ => move_broken) rest broken

theorem Held.disciplined {e : EventTask} (h : e.Held) : e.Disciplined := by
  refine ⟨by rw [h], by rw [h], ?_⟩
  intro wait
  rw [h]
  revert wait
  cases e.pc <;> simp [EventPc.isWait, holdAt]

/-- **The mutex in `eventTask`.** As long as every start goes through, the discipline is kept;
and wherever `eventTask` stands, other than before the tail, it is kept only then. -/
theorem eventTask_locks {d : Driver} {ls : List Act} {s : Driver × EventTask}
    (reached : Runs.run move (d, EventTask.init) ls = some s) :
    (Runs.Meets move Starts (d, EventTask.init) ls → s.2.Disciplined) ∧
      (s.2.pc ≠ .tail → s.2.Disciplined → Runs.Meets move Starts (d, EventTask.init) ls) := by
  have init : EventTask.init.Held := rfl
  rcases run_held init reached with ⟨meets, held⟩ | ⟨not_meets, broken⟩
  · exact ⟨fun _ => held.disciplined, fun _ _ => meets⟩
  · refine ⟨fun meets => absurd meets not_meets, ?_⟩
    intro not_tail disciplined
    rcases broken with stray | ⟨at_tail, -⟩
    · simp [disciplined.unlock] at stray
    · exact absurd at_tail not_tail

/-- One detector of two pixels, and a Start that `eventTask` has not seen yet. -/
def oneDetector : Driver :=
  { ((Driver.construct .blank).setInt 0 .numDet 1).setInt 1 .pixelNumSize 2 with startEvent := true }

def startsCheck (s : Driver × EventTask) : Act → Bool
  | .step env => s.2.pc != .startSection || (decide ((s.1.allocArray env.callocOk).2 = .success) &&
      !connectThrows env s.1 (readNumChannels s.1))
  | _ => true

theorem starts_of_check {s : Driver × EventTask} {a : Act} (h : startsCheck s a = true) : Starts s a := by
  rintro env rfl there
  simpa [startsCheck, there, StartOk] using h

/-- `eventTask` from its first wait through one start. -/
def oneStart (env : StartEnv) : List Act :=
  List.replicate 3 (.step env) ++ .env oneDetector :: List.replicate 3 (.step env)

/-- After a start that goes through, `eventTask` waits for the Stop without the mutex. -/
theorem eventTask_locks_stopWait :
    ∃ s, Runs.run move (.construct .blank, EventTask.init) (oneStart ⟨true, fun _ => true⟩) = some s ∧
      s.2.pc = .stopWait ∧ s.2.Disciplined := by
  obtain ⟨s, reached⟩ : ∃ s, Runs.run move (.construct .blank, EventTask.init)
      (oneStart ⟨true, fun _ => true⟩) = some s := ⟨_, rfl⟩
  have there : s.2.pc = .stopWait := by
    cases reached
    rfl
  have meets : Runs.Meets move Starts (.construct .blank, EventTask.init) (oneStart ⟨true, fun _ => true⟩) :=
    Runs.meets_of_checks (fun _ _ => starts_of_check) (by decide +kernel)
  exact ⟨s, reached, there, (eventTask_locks reached).1 meets⟩

/-- After a start for which there is no memory, `eventTask` has used the parameter library
without the mutex and released it without holding it. -/
theorem eventTask_stray_unlock :
    ∃ s, Runs.run move (.construct .blank, EventTask.init)
        (oneStart ⟨false, fun _ => true⟩ ++ [.step ⟨false, fun _ => true⟩]) = some s ∧
      s.2.pc = .drainWait ∧ s.2.locks = ⟨0, true, true⟩ :=
  ⟨_, rfl, rfl, rfl⟩

end EventTask

end ADnED
