import ADnED.Tasks.Clears
import ADnED.Tasks.EventLocks
import ADnED.Tasks.FrameCopies
import ADnED.Tasks.FrameLocks

/-!
# After the first frame

`frameTask` takes the mutex once more for each frame that it copies, and never gives that
back. So after the first copy nobody else gets the mutex again: no record write and no packet
is ever served, `eventTask` never takes the mutex again, `ADStatus` stays as it is, and every
later frame shows the same data (`frame_freezes`). What is left to `eventTask` are its waits,
and the end of its loop if it is there because a start has failed: it then runs that without
the mutex.

The argument is mutual exclusion (`Exclusive`): the tasks never hold the mutex at the same
time, and a task that does not hold it can only do what needs no mutex.
-/

namespace ADnED

/-- The parameters that the tasks still write without the mutex, or in the thread that keeps it. -/
def IntParam.ticks : IntParam → Bool
  | .stop | .eventRate | .detEventRate | .ndArrayCounter => true
  | _ => false

/-- `d'` is `d`, but for the events and a few readbacks. -/
structure Standstill (d d' : Driver) : Prop where
  eq : d' = { d with
    int := d'.int, startEvent := d'.startEvent, stopEvent := d'.stopEvent
    startFrame := d'.startFrame, stopFrame := d'.stopFrame }
  int : ∀ addr p, p.ticks = false → d'.int addr p = d.int addr p

namespace Standstill

variable {d d' d'' : Driver}

theorem of_events (eq : d' = { d with
      startEvent := d'.startEvent, stopEvent := d'.stopEvent
      startFrame := d'.startFrame, stopFrame := d'.stopFrame }) : Standstill d d' := by
  rw [eq]
  exact ⟨rfl, fun _ _ _ => rfl⟩

theorem refl (d : Driver) : Standstill d d := of_events rfl

theorem trans (h : Standstill d d') (h' : Standstill d' d'') : Standstill d d'' where
  eq := by rw [h'.eq, h.eq]
  int := fun addr p other => (h'.int addr p other).trans (h.int addr p other)

theorem setInt (d : Driver) (addr : Nat) {p : IntParam} (v : Int32) (ticks : p.ticks = true) :
    Standstill d (d.setInt addr p v) := by
  refine ⟨rfl, fun a q other => ?_⟩
  have ne : q ≠ p := ne_of_apply_ne IntParam.ticks (by simp [ticks, other])
  exact Store.set_other_param d.int addr p v a ne

end Standstill

namespace FrameTask

theorem frame_standstill (env : FrameEnv) (f : FrameTask) (t : Thread) : Standstill t.drv (f.frame env t).1 := by
  have counted : ∀ v, Standstill t.drv (t.drv.setInt 0 .ndArrayCounter v) := fun v => .setInt t.drv 0 v rfl
  simp only [frame]
  split_ifs
  · exact counted _
  · exact counted _
  · exact .refl _
  · exact .refl _

/-- `frameTask` touches nothing but its events and its counter. -/
theorem step_standstill {env : FrameEnv} {d : Driver} {f : FrameTask} {r : Driver × FrameTask}
    (hs : f.step env d = some r) : Standstill d r.1 := by
  simp only [step] at hs
  cases hpc : f.pc <;> simp only [hpc] at hs
  case startWait =>
    split at hs <;> cases hs
    exact .of_events rfl
  case startSection =>
    cases hs
    exact .setInt d 0 0 rfl
  case frameSection got =>
    cases got
    · cases hs
      exact frame_standstill env f (f.thread d)
    · cases hs
      exact .refl d
  case crashed => cases hs
  all_goals
    cases hs
    exact .of_events rfl

/-- A thread without the mutex has it after a step only if the step takes it. -/
theorem step_hold {env : FrameEnv} {d : Driver} {f : FrameTask} {r : Driver × FrameTask} (h : f.Accounted)
    (hs : f.step env d = some r) (bare : f.locks.hold = 0) (waits : f.pc.takesLock = false) :
    r.2.locks.hold = 0 := by
  have hold : f.copies + baseHold f.pc = 0 := by
    have held := congrArg Locks.hold h
    exact held.symm.trans bare
  simp only [step] at hs
  cases hpc : f.pc <;> simp only [hpc, baseHold, FramePc.takesLock] at hs hold waits
  case startWait =>
    split at hs <;> cases hs
    exact bare
  case drainWait =>
    cases hs
    exact bare
  case frameWait =>
    cases hs
    exact bare
  all_goals first | omega | cases waits

theorem step_copies {env : FrameEnv} {d : Driver} {f : FrameTask} {r : Driver × FrameTask}
    (hs : f.step env d = some r) : f.copies ≤ r.2.copies := by
  rcases step_copied hs with ⟨same, -⟩ | ⟨-, more, -⟩
  · exact same.ge
  · exact (Nat.le_succ _).trans more.ge

end FrameTask

namespace EventTask

theorem tailSection_standstill (t : Thread) : Standstill t.drv (tailSection t).drv := by
  have rates : ∀ (ds : List Nat) (t : Thread), Standstill t.drv
      (ds.foldl (fun t det => (t.setInt det .detEventRate 0).callParamCallbacks) t).drv := by
    intro ds
    induction ds with
    | nil => exact fun t => .refl t.drv
    | cons det ds ih =>
      intro t
      exact (Standstill.setInt t.drv det 0 rfl).trans (ih (t.setInt det .detEventRate 0).callParamCallbacks)
  have zeroed := rates (dets (t.drv.int 0 .numDet)) (t.access.setInt 0 .eventRate 0)
  exact ((Standstill.setInt t.drv 0 0 rfl).trans zeroed).trans (.setInt _ 0 0 rfl)

/-- `eventTask` is without the mutex in one of its waits, or at the end of its loop after a failed start. -/
def Bare (e : EventTask) : Prop := e.locks.hold = 0 ∧ (e.pc.isWait = true ∨ e.pc = .tail)

/-- Without the mutex it is nowhere else, unless it is about to take it. -/
theorem bare_of_holds {e : EventTask} (h : e.Holds) (free : e.locks.hold = 0) (waits : e.pc.takesLock = false) :
    e.Bare := by
  refine ⟨free, ?_⟩
  rcases h with hold | ⟨there, -⟩
  · rw [free] at hold
    revert hold waits
    cases e.pc <;> simp [holdAt, EventPc.takesLock, EventPc.isWait]
  · exact .inr there

/-- What `eventTask` does there changes no more than the rates. -/
theorem step_bare {env : StartEnv} {d : Driver} {e : EventTask} {r : Driver × EventTask} (h : e.Bare)
    (hs : e.step env d = some r) : Standstill d r.1 ∧ r.2.locks.hold = 0 := by
  obtain ⟨bare, there⟩ := h
  simp only [step] at hs
  cases hpc : e.pc <;> simp only [hpc, EventPc.isWait] at hs there
  case drainWait =>
    cases hs
    exact ⟨.of_events rfl, bare⟩
  case startWait =>
    split at hs <;> cases hs
    exact ⟨.of_events rfl, bare⟩
  case stopWait =>
    split at hs <;> cases hs
    · exact ⟨.of_events rfl, bare⟩
    · exact ⟨.refl d, bare⟩
  case tail =>
    cases hs
    refine ⟨tailSection_standstill (e.thread d), ?_⟩
    simp only [goto, tailSection_locks, Locks.release_hold, Locks.touch_hold, thread, bare]
  all_goals simp at there

end EventTask

/-- The request is a step of one of the tasks. -/
def Request.isTask : Request → Bool
  | .sys l => l.isTask
  | .float _ _ _ => false
  | .octet _ _ _ _ _ => false

namespace Sys

variable {s s' : Sys} {r : Request}

/-- The tasks keep account of the mutex, and do not hold it at the same time. -/
structure Exclusive (s : Sys) : Prop where
  frame : s.frame.Accounted
  event : s.event.Holds
  one : s.event.locks.hold = 0 ∨ s.frame.locks.hold = 0

/-- A request that is no task waits for the mutex, and leaves the tasks alone. -/
theorem serve_other (h : s.serve r = some s') (other : r.isTask = false) :
    s.lockFree = true ∧ s'.event = s.event ∧ s'.frame = s.frame := by
  cases r with
  | sys l =>
    cases l with
    | write addr p value callocOk =>
      obtain ⟨-, free, rfl⟩ := step_write h
      exact ⟨free, rfl, rfl⟩
    | packet p =>
      obtain ⟨free, r, -, rfl⟩ := step_packet h
      exact ⟨free, rfl, rfl⟩
    | event env => cases other
    | frame env => cases other
  | float addr p value =>
    obtain ⟨r, -, rfl⟩ := serve_float h
    simp only [serve] at h
    split at h
    · rename_i enabled
      exact ⟨(Bool.and_eq_true_iff.1 enabled).2, rfl, rfl⟩
    · cases h
  | octet addr p value erange env =>
    obtain ⟨r, -, rfl⟩ := serve_octet h
    simp only [serve] at h
    split at h
    · rename_i enabled
      exact ⟨(Bool.and_eq_true_iff.1 enabled).2, rfl, rfl⟩
    · cases h

/-- A step of a task that takes the mutex finds it free. -/
theorem step_event_free {env : StartEnv} (h : s.step (.event env) = some s') :
    s.event.pc.takesLock = false ∨ s.frame.locks.hold = 0 := by
  simp only [step] at h
  split at h
  · cases h
  · rename_i enabled
    cases takes : s.event.pc.takesLock with
    | false => exact .inl rfl
    | true => exact .inr (by simpa [takes] using enabled)

theorem step_frame_free {env : FrameEnv} (h : s.step (.frame env) = some s') :
    s.frame.pc.takesLock = false ∨ s.event.locks.hold = 0 := by
  simp only [step] at h
  split at h
  · cases h
  · rename_i enabled
    cases takes : s.frame.pc.takesLock with
    | false => exact .inl rfl
    | true => exact .inr (by simpa [takes] using enabled)

/-- **Mutual exclusion** is kept by every request. -/
theorem serve_exclusive (h : s.Exclusive) (hs : s.serve r = some s') : s'.Exclusive := by
  cases task : r.isTask with
  | false =>
    obtain ⟨-, event, frame⟩ := serve_other hs task
    exact ⟨frame ▸ h.frame, event ▸ h.event, by rw [event, frame]; exact h.one⟩
  | true =>
    cases r with
    | float addr p value => cases task
    | octet addr p value erange env => cases task
    | sys l =>
      cases l with
      | write addr p value callocOk => cases task
      | packet p => cases task
      | event env =>
        obtain ⟨r, worked, rfl⟩ := step_eventTask hs
        refine ⟨h.frame, EventTask.step_holds h.event worked, ?_⟩
        rcases h.one with bare | free
        · rcases step_event_free hs with waits | free
          · exact .inl (EventTask.step_bare (EventTask.bare_of_holds h.event bare waits) worked).2
          · exact .inr free
        · exact .inr free
      | frame env =>
        obtain ⟨r, worked, rfl⟩ := step_frameTask hs
        refine ⟨FrameTask.step_accounted h.frame worked, h.event, ?_⟩
        rcases h.one with free | bare
        · exact .inl free
        · rcases step_frame_free hs with waits | free
          · exact .inr (FrameTask.step_hold h.frame worked bare waits)
          · exact .inl free

theorem run_exclusive {u : Uninit} {rs : List Request} (reached : Runs.run serve (init u) rs = some s) :
    s.Exclusive :=
  Runs.run_invariant Exclusive (fun _ _ _ => serve_exclusive) reached ⟨rfl, .inl rfl, .inl rfl⟩

/-- **One request** after a frame has been copied. -/
theorem serve_frozen (h : s.Exclusive) (copied : 0 < s.frame.copies) (hs : s.serve r = some s') :
    r.isTask = true ∧ (r.isEvent = true → s.event.Bare) ∧ Standstill s.drv s'.drv ∧ 0 < s'.frame.copies := by
  have kept : 0 < s.frame.locks.hold := by
    rw [h.frame]
    exact Nat.add_pos_left copied _
  have bare : s.event.locks.hold = 0 := h.one.resolve_right (by omega)
  cases task : r.isTask with
  | false =>
    obtain ⟨free, -, -⟩ := serve_other hs task
    simp only [lockFree, Bool.and_eq_true, beq_iff_eq] at free
    omega
  | true =>
    refine ⟨rfl, ?_⟩
    cases r with
    | float addr p value => cases task
    | octet addr p value erange env => cases task
    | sys l =>
      cases l with
      | write addr p value callocOk => cases task
      | packet p => cases task
      | event env =>
        obtain ⟨r, worked, rfl⟩ := step_eventTask hs
        have waits := (step_event_free hs).resolve_right (by omega)
        have there := EventTask.bare_of_holds h.event bare waits
        exact ⟨fun _ => there, (EventTask.step_bare there worked).1, copied⟩
      | frame env =>
        obtain ⟨r, worked, rfl⟩ := step_frameTask hs
        refine ⟨fun event => ?_, FrameTask.step_standstill worked, ?_⟩
        · cases event
        · exact Nat.lt_of_lt_of_le copied (FrameTask.step_copies worked)

/-- **The first frame is the last that shows anything new.** Once a frame has been copied, the driver
serves neither a record write nor a packet any more, whatever comes: only the tasks move. `eventTask` moves
without the mutex, so that it serves no Start and no Stop; and all that the tasks do is wait, count frames and
zero the rates. -/
theorem frame_freezes {u : Uninit} {rs ks : List Request} (reached : Runs.run serve (init u) rs = some s)
    (copied : 0 < s.frame.copies) (later : Runs.run serve s ks = some s') :
    (∀ k ∈ ks, k.isTask = true) ∧ Runs.Meets serve (fun t k => k.isEvent = true → t.event.Bare) s ks ∧
      Standstill s.drv s'.drv := by
  have exclusive := run_exclusive reached
  clear reached
  induction ks generalizing s with
  | nil =>
    cases later
    exact ⟨by simp, trivial, .refl _⟩
  | cons k ks ih =>
    obtain ⟨t, first, rest⟩ := Runs.run_cons_some later
    obtain ⟨task, bare, still, more⟩ := serve_frozen exclusive copied first
    obtain ⟨tasks, bares, stillness⟩ := ih more rest (serve_exclusive exclusive first)
    refine ⟨List.forall_mem_cons.2 ⟨task, tasks⟩, ⟨bare, fun t' next => ?_⟩, still.trans stillness⟩
    cases first.symm.trans next
    exact bares

/-- An acquisition that has copied a frame and goes on, with a Stop that is never served. -/
theorem frame_freezes_oneFrame :
    ∃ s s', Runs.run serve (init .blank) (oneFrame.map .sys) = some s ∧ s.frame.copies = 1 ∧
      s.drv.adStatus = .acquire ∧
      Runs.run serve s ([frameStep, frameStep, eventStep, frameStep, frameStep, frameStep].map .sys) = some s' ∧
      s'.frame.copies = 2 ∧ Standstill s.drv s'.drv ∧ s'.serve (.sys stopWrite) = none := by
  have state : (Runs.run serve (init .blank) (oneFrame.map .sys)).bind (fun s =>
      (Runs.run serve s ([frameStep, frameStep, eventStep, frameStep, frameStep, frameStep].map .sys)).map fun s' =>
        (s.frame.copies, s.drv.adStatus, s'.frame.copies, (s'.serve (.sys stopWrite)).isNone)) =
      some (1, .acquire, 2, true) := by
    decide +kernel
  obtain ⟨s, reached, state⟩ := Option.bind_eq_some_iff.1 state
  obtain ⟨s', later, state⟩ := Option.map_eq_some_iff.1 state
  simp only [Prod.mk.injEq] at state
  obtain ⟨one, acquiring, two, refused⟩ := state
  have still := (frame_freezes reached (by omega) later).2.2
  exact ⟨s, s', reached, one, acquiring, later, two, still, Option.isNone_iff_eq_none.1 refused⟩

end Sys

end ADnED
