import ADnED.Tasks.FrameTask
import ADnED.Lib.Runs
import Mathlib.Tactic.SplitIfs

/-!
# The driver mutex in `frameTask`

`frameTask` is run here in the most general environment: between any two of its steps
the driver may change arbitrarily, so that start-frame and stop-frame events, the
array callbacks setting and the buffer come and go at will. Every copied frame takes
the mutex once more than it releases it, and `frameTask_locks` accounts for that
exactly: at a wait the thread holds the mutex once per frame copied so far.
-/

namespace ADnED

namespace FrameTask

/-- A step of `frameTask`, or any change of the driver by somebody else. -/
inductive Act where
  | env (d : Driver)
  | step (env : FrameEnv)

/-- `frameTask` in an arbitrary environment. -/
def move (s : Driver × FrameTask) : Act → Option (Driver × FrameTask)
  | .env d => some (d, s.2)
  | .step env => s.2.step env s.1

/-- A step that does not copy a frame: the array callbacks are off, or the array pool
is exhausted. -/
def NoCopy (s : Driver × FrameTask) (a : Act) : Prop :=
  ∀ env, a = .step env → s.2.pc = .frameSection false →
    s.1.int 0 .ndArrayCallbacks = 0 ∨ env.allocOk = false

/-- How often the mutex is held at a program point, apart from the frames copied. -/
def baseHold : FramePc → Nat
  | .entry | .drainWait | .drainLock | .startWait | .startLock | .frameWait | .frameLock _ => 0
  | .top | .idleSection | .startSection | .acquireTop | .frameSection _ | .crashed => 1

/-- Each copied frame is still held. -/
def Accounted (f : FrameTask) : Prop := f.locks = ⟨f.copies + baseHold f.pc, false, false⟩

theorem accounted_init : FrameTask.init.Accounted := rfl

/-- A frame leaves the mutex held once more exactly if it is copied. -/
theorem frame_accounted {env : FrameEnv} {f : FrameTask} {t : Thread}
    (held : t.locks = ⟨f.copies + 1, false, false⟩) : (f.frame env t).2.Accounted := by
  simp only [frame]
  split_ifs <;> simp [Accounted, finishFrame, goto, baseHold, held]

/-- Every step keeps the account. -/
theorem step_accounted {env : FrameEnv} {d : Driver} {f : FrameTask} {r : Driver × FrameTask}
    (h : f.Accounted) (hs : f.step env d = some r) : r.2.Accounted := by
  have held : (f.thread d).locks = ⟨f.copies + baseHold f.pc, false, false⟩ := h
  simp only [step] at hs
  cases hpc : f.pc <;> rw [hpc] at held <;> simp only [hpc] at hs
  case startWait =>
    split at hs
    · cases hs
      simp [Accounted, goto, held, baseHold]
    · cases hs
  case frameSection got =>
    cases got
    · cases hs
      exact frame_accounted held
    · cases hs
      simp [Accounted, goto, held, baseHold]
  case crashed => cases hs
  all_goals
    cases hs
    simp [Accounted, goto, held, baseHold]

/-- A frame is counted exactly if it is copied. -/
theorem frame_copies (env : FrameEnv) (f : FrameTask) (t : Thread) :
    (f.frame env t).2.copies = f.copies ∧
        (t.drv.int 0 .ndArrayCallbacks = 0 ∨ env.allocOk = false) ∨
      (f.frame env t).2.copies = f.copies + 1 ∧
        ¬(t.drv.int 0 .ndArrayCallbacks = 0 ∨ env.allocOk = false) := by
  simp only [frame]
  split_ifs with on ok survives
  · exact .inr ⟨rfl, by simpa [ok] using on⟩
  · exact .inl ⟨rfl, .inr (by simpa using ok)⟩
  · exact .inl ⟨rfl, .inr (by simpa using ok)⟩
  · exact .inl ⟨rfl, .inl (by simpa using on)⟩

/-- The frame counter moves exactly at the steps that are not `NoCopy`. -/
theorem move_copies {s s' : Driver × FrameTask} {a : Act} (h : move s a = some s') :
    s'.2.copies = s.2.copies ∧ NoCopy s a ∨ s'.2.copies = s.2.copies + 1 ∧ ¬NoCopy s a := by
  cases a with
  | env d =>
    cases h
    exact .inl ⟨rfl, by simp [NoCopy]⟩
  | step env =>
    have other : s.2.pc ≠ .frameSection false → NoCopy s (.step env) :=
      fun ne _ _ hpc => absurd hpc ne
    simp only [move, step] at h
    cases hpc : s.2.pc <;> simp only [hpc] at h
    case startWait =>
      split at h
      · cases h
        exact .inl ⟨rfl, other (by simp [hpc])⟩
      · cases h
    case crashed => cases h
    case frameSection got =>
      cases got
      · cases h
        have moved := frame_copies env s.2 (s.2.thread s.1)
        have same : NoCopy s (.step env) ↔ s.1.int 0 .ndArrayCallbacks = 0 ∨ env.allocOk = false :=
          ⟨fun h => h env rfl hpc, fun h _ e _ => by cases e; exact h⟩
        rw [same]
        exact moved
      · cases h
        exact .inl ⟨rfl, other (by simp [hpc])⟩
    all_goals
      cases h
      exact .inl ⟨rfl, other (by simp [hpc])⟩

/-- Along a run the frame counter stays where it is exactly if every step is `NoCopy`. -/
theorem run_copies {ls : List Act} : ∀ {s s' : Driver × FrameTask}, Runs.run move s ls = some s' →
    s.2.copies ≤ s'.2.copies ∧ (s'.2.copies = s.2.copies ↔ Runs.Meets move NoCopy s ls) := by
  induction ls with
  | nil =>
    intro s s' h
    cases h
    simp [Runs.Meets]
  | cons a ls ih =>
    intro s s' h
    obtain ⟨t, ht, rest⟩ := Runs.run_cons_some h
    obtain ⟨grows, same⟩ := ih rest
    have next : Runs.Meets move NoCopy s (a :: ls) ↔ NoCopy s a ∧ Runs.Meets move NoCopy t ls := by
      simp [Runs.Meets, ht]
    rw [next, ← same]
    rcases move_copies ht with ⟨hc, no⟩ | ⟨hc, no⟩
    · simp only [no, true_and]
      omega
    · simp only [no, false_and, iff_false]
      omega

theorem run_accounted {d : Driver} {ls : List Act} {s : Driver × FrameTask}
    (h : Runs.run move (d, FrameTask.init) ls = some s) : s.2.Accounted := by
  refine Runs.run_invariant (fun s => s.2.Accounted) ?_ h accounted_init
  intro s a s' hs hm
  cases a with
  | env d => cases hm; exact hs
  | step env => exact step_accounted hs hm

/-- **The mutex in `frameTask`.** At a wait, or at the top of the acquire loop, the
thread holds the mutex as often as it should (never at a wait, once at the top of the
loop) exactly if no step so far has copied a frame. -/
theorem frameTask_locks {d : Driver} {ls : List Act} {s : Driver × FrameTask}
    (reached : Runs.run move (d, FrameTask.init) ls = some s)
    (check : s.2.pc.isWait = true ∨ s.2.pc = .acquireTop) :
    ((s.2.pc.isWait = true → s.2.locks.hold = 0) ∧ (s.2.pc = .acquireTop → s.2.locks.hold = 1)) ↔
      Runs.Meets move NoCopy (d, FrameTask.init) ls := by
  have account := run_accounted reached
  have copies := (run_copies reached).2
  have hold : s.2.locks.hold = s.2.copies + baseHold s.2.pc := by rw [account]
  rw [← copies, hold]
  have waits : s.2.pc.isWait = true → baseHold s.2.pc = 0 := by
    cases s.2.pc <;> simp [FramePc.isWait, baseHold]
  rcases check with wait | top
  · have notTop : s.2.pc ≠ .acquireTop := by
      intro e
      simp [e, FramePc.isWait] at wait
    simp [wait, waits wait, notTop, FrameTask.init]
  · simp [top, FramePc.isWait, baseHold, FrameTask.init]

/-- The five steps from the entry of `frameTask` to its wait for a start. -/
def toStartWait : List Act := List.replicate 5 (.step ⟨true, true⟩)

/-- A driver that acquires into a buffer of one cell, with the array callbacks on and the
start-frame event just signalled. -/
def startedDriver : Driver :=
  { Driver.construct .blank with
    adStatus := .acquire, pData := some [0], bufferMaxSize := 1, startFrame := true }

/-- `NoCopy`, evaluated. -/
def noCopyCheck (s : Driver × FrameTask) : Act → Bool
  | .env _ => true
  | .step env => s.2.pc != .frameSection false || s.1.int 0 .ndArrayCallbacks == 0 || !env.allocOk

theorem noCopy_of_check (s : Driver × FrameTask) (a : Act) (h : noCopyCheck s a = true) : NoCopy s a := by
  rintro env rfl there
  simpa [noCopyCheck, there] using h

/-- Twice around the acquire loop with the array callbacks off. -/
def withoutCallbacks : List Act :=
  toStartWait ++ .env (startedDriver.setInt 0 .ndArrayCallbacks 0) :: List.replicate 12 (.step ⟨true, true⟩)

theorem frameTask_locks_withoutCallbacks :
    ∃ s, Runs.run move (.construct .blank, FrameTask.init) withoutCallbacks = some s ∧
      s.2.pc = .frameWait ∧ s.2.locks.hold = 0 := by
  obtain ⟨s, reached⟩ : ∃ s, Runs.run move (.construct .blank, FrameTask.init) withoutCallbacks = some s := ⟨_, rfl⟩
  have there : s.2.pc = .frameWait := by
    cases reached
    rfl
  have meets : Runs.Meets move NoCopy (.construct .blank, FrameTask.init) withoutCallbacks :=
    Runs.meets_of_checks noCopy_of_check (by decide +kernel)
  have wait : s.2.pc.isWait = true := by rw [there]; rfl
  exact ⟨s, reached, there, ((frameTask_locks reached (.inl wait)).2 meets).1 wait⟩

/-- One copied frame later `frameTask` waits with the mutex held. -/
theorem frameTask_waits_holding :
    ∃ s, Runs.run move (.construct .blank, FrameTask.init)
        (toStartWait ++ .env startedDriver :: List.replicate 8 (.step ⟨true, true⟩)) = some s ∧
      s.2.pc = .frameWait ∧ s.2.copies = 1 ∧ s.2.locks.hold = 1 :=
  ⟨_, rfl, rfl, rfl, rfl⟩

end FrameTask

end ADnED
