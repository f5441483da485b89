import ADnED.Tasks.Requests

/-!
# The layout over whole runs

In every state the system reaches, the published layout is the one of the current
parameters whenever `m_dataAlloc` is down, and in particular during an acquisition, as
long as no write changes `NumDet` while the flag is down (`layout_is_fresh`). The branch
of `writeInt32` for `NumDet` is the only one of the layout parameters that does not raise
the flag; `layout_is_stale` is what comes of it.
-/

namespace ADnED

/-- Every step of `eventTask` keeps the layout current. -/
theorem EventTask.step_current {env : StartEnv} {d : Driver} {e : EventTask} {r : Driver × EventTask}
    (h : d.Current) (hs : e.step env d = some r) : r.1.Current := by
  rcases step_tasked hs with ⟨-, tasked, status⟩ | ⟨-, start⟩
  · exact h.congr tasked.sameLayout status
  · obtain ⟨tasked, failed⟩ := startSection_tasked env (e.thread d)
    rw [← start] at tasked failed
    have same := tasked.sameLayout
    cases outcome : (d.allocArray env.callocOk).2 with
    | error =>
      have due := Driver.allocArray_due env.callocOk outcome
      refine .of_due (same.dataAlloc.trans due) ?_
      rw [failed outcome]
      decide
    | success =>
      obtain ⟨down, laidOut⟩ := Driver.allocArray_laidOut env.callocOk h outcome
      exact ⟨fun _ => laidOut.congr same, fun _ => same.dataAlloc.trans down⟩

namespace Sys

/-- If the step is a write of `NumDet` behind a layout that counts as allocated, it changes
nothing. -/
def KeepsNumDet (s : Sys) : Label → Prop
  | .write addr p value _ => s.drv.KeepsNumDet addr p value
  | _ => True

/-- Every step that keeps `NumDet` keeps the layout current. -/
theorem step_current {s s' : Sys} {l : Label} (h : s.drv.Current) (keeps : s.KeepsNumDet l)
    (hs : s.step l = some s') : s'.drv.Current := by
  cases l with
  | write addr p value callocOk =>
    obtain ⟨writable, -, rfl⟩ := step_write hs
    exact Driver.applyInt32_current h writable keeps
  | packet p =>
    obtain ⟨-, r, hr, rfl⟩ := step_packet hs
    have handled := Driver.eventHandler_handled hr
    have status : r.1.adStatus = s.drv.adStatus := congrArg Signals.adStatus handled.signals
    exact h.congr (.of_handled handled) fun acquire => status.symm.trans acquire
  | event env =>
    obtain ⟨r, hr, rfl⟩ := step_eventTask hs
    exact EventTask.step_current h hr
  | frame env =>
    obtain ⟨r, hr, rfl⟩ := step_frameTask hs
    obtain ⟨tasked, status⟩ := FrameTask.step_tasked hr
    exact h.congr tasked.sameLayout fun acquire => status.symm.trans acquire

theorem run_current {u : Uninit} {ls : List Label} {s : Sys} (reached : (init u).run ls = some s)
    (meets : Runs.Meets step KeepsNumDet (init u) ls) : s.drv.Current :=
  Runs.run_invariant_of_meets (fun s => s.drv.Current) (fun _ _ _ => step_current) reached meets
    (.of_due rfl (by simp [init, Driver.construct]))

/-- The other requests leave the layout alone. -/
theorem serve_current {s s' : Sys} {r : Request} (h : s.drv.Current) (keeps : s.onStep KeepsNumDet r)
    (hs : s.serve r = some s') : s'.drv.Current := by
  rcases serve_cases hs with ⟨l, rfl, step⟩ | loaded
  · exact step_current h keeps step
  · refine h.congr loaded.sameLayout fun acquire => ?_
    rw [loaded.eq] at acquire
    exact acquire

/-- **The layout is fresh.** If no write has changed `NumDet` while `m_dataAlloc` was down,
then whenever it is down, and whenever `ADStatus` is Acquire, the published layout is the one
`allocArray` computes from the current parameters, and `p_Data` has its size. -/
theorem layout_is_fresh {u : Uninit} {ls : List Label} {s : Sys} (reached : (init u).run ls = some s)
    (meets : Runs.Meets step KeepsNumDet (init u) ls) :
    (s.drv.dataAlloc = false → s.drv.Fresh) ∧ (s.drv.adStatus = .acquire → s.drv.Fresh) := by
  have current := run_current reached meets
  refine ⟨fun down => (current.laidOut down).fresh, fun acquire => ?_⟩
  exact (current.laidOut (current.allocated acquire)).fresh

/-- Two detectors, the second of them allocated with the first. -/
def twoDetectors : List Label :=
  [.write 0 .numDet 2 true, .write 1 .pixelNumSize 2 true, .write 2 .pixelNumSize 3 true,
    .write 0 .allocSpace 1 true]

/-- No write of `NumDet` meets a layout that is allocated. -/
def keepsCheck (s : Sys) : Label → Bool
  | .write _ p _ _ => p != .numDet || s.drv.dataAlloc
  | _ => true

theorem keepsNumDet_of_check (s : Sys) (l : Label) (h : s.keepsCheck l = true) : s.KeepsNumDet l := by
  cases l with
  | write addr p value callocOk =>
    rintro rfl - down
    simp [keepsCheck, down] at h
  | packet p => trivial
  | event env => trivial
  | frame env => trivial

/-- Their layout is the one the parameters ask for. -/
theorem layout_is_fresh_twoDetectors :
    ∃ s, (init .blank).run twoDetectors = some s ∧ s.drv.dataAlloc = false ∧ s.drv.Fresh := by
  obtain ⟨s, reached⟩ : ∃ s, (init .blank).run twoDetectors = some s := ⟨_, rfl⟩
  have down : s.drv.dataAlloc = false := by
    cases reached
    rfl
  have meets : Runs.Meets step KeepsNumDet (init .blank) twoDetectors :=
    Runs.meets_of_checks keepsNumDet_of_check rfl
  exact ⟨s, reached, down, (layout_is_fresh reached meets).1 down⟩

/-- A second detector is added to a layout that is already allocated, and an acquisition
started. -/
def addedDetector : List Label :=
  [.write 0 .numDet 1 true, .write 1 .pixelNumSize 2 true, .write 2 .pixelNumSize 3 true,
    .write 0 .allocSpace 1 true, .write 0 .numDet 2 true, .write 0 .start 1 true] ++
    List.replicate 6 (.event ⟨true, fun _ => true⟩)

/-- The acquisition runs, with the region of the second detector on top of the first. -/
theorem layout_is_stale :
    ∃ s, (init .blank).run addedDetector = some s ∧ s.drv.adStatus = .acquire ∧
      s.drv.dataAlloc = false ∧ s.drv.int 0 .numDet = 2 ∧ s.drv.int 2 .ndArrayStart = 0 ∧
      s.drv.recomputed.1.int 2 .ndArrayStart = 2 ∧ ¬s.drv.Fresh := by
  obtain ⟨s, reached⟩ : ∃ s, (init .blank).run addedDetector = some s := ⟨_, rfl⟩
  have state : s.drv.adStatus = .acquire ∧ s.drv.dataAlloc = false ∧ s.drv.int 0 .numDet = 2 ∧
      s.drv.int 2 .ndArrayStart = 0 ∧ s.drv.recomputed.1.int 2 .ndArrayStart = 2 := by
    cases reached
    exact ⟨rfl, rfl, rfl, rfl, rfl⟩
  obtain ⟨acquire, down, two, published, computed⟩ := state
  refine ⟨s, reached, acquire, down, two, published, computed, fun fresh => ?_⟩
  have second : 2 ∈ dets (s.drv.int 0 .numDet) := by
    rw [two]
    decide
  have same := fresh.published 2 second .ndArrayStart rfl
  rw [published, computed] at same
  revert same
  decide

end Sys

end ADnED
