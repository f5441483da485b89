import ADnED.Tasks.Requests

/-!
# Starts and stops are served

A Start or a Stop that is accepted leaves a trace that only `eventTask` removes, and only
on its way to the section that serves it. `eventTask` gets there in a bounded number of its
own steps, whatever the other threads do in between, and nothing but the mutex can keep it
from taking them (`start_served`, `stop_served`).
-/

namespace ADnED

/-- The steps that `eventTask` has to take before it runs the section of a start. -/
def EventPc.toStart : EventPc → Nat
  | .tail => 6
  | .drainWait => 5
  | .idleLock => 4
  | .idleSection => 3
  | .startWait => 2
  | .startLock => 1
  | _ => 0

/-- The steps that `eventTask` has to take, once it is told to stop, before the end of its loop. -/
def EventPc.toTail : EventPc → Nat
  | .stopWait => 3
  | .stopLock => 2
  | .stopSection => 1
  | _ => 0

namespace Control

/-- A Start is on its way. -/
def StartPending (c : Control) : Prop :=
  c.event.acquiring = false ∧ (c.sig.startEvent = true ∨ c.event = .startLock ∨ c.event = .startSection)

/-- A Stop is on its way, or the acquisition is over and the loop not yet at its end. -/
def Stopping (c : Control) : Prop := c.StopPending ∨ c.event = .tail

/-- `eventTask` brings a Start on its way nearer to its section. -/
theorem stepEvent_startPending {c c' : Control} {result : StartResult} (pending : c.StartPending)
    (h : c.stepEvent result = some c') :
    c.event = .startSection ∨ c'.StartPending ∧ c'.event.toStart + 1 ≤ c.event.toStart := by
  obtain ⟨outside, start⟩ := pending
  simp only [stepEvent] at h
  split at h <;> rename_i hpc <;> simp only [hpc, EventPc.acquiring] at outside start
  case h_4 =>
    split at h <;> cases h
    exact .inr ⟨⟨rfl, .inr (.inl rfl)⟩, by simp [hpc, EventPc.toStart]⟩
  case h_5 =>
    cases h
    exact .inr ⟨⟨rfl, .inr (.inr rfl)⟩, by simp [hpc, EventPc.toStart]⟩
  case h_6 => exact .inl hpc
  case h_7 | h_8 | h_9 => cases outside
  all_goals
    cases h
    exact .inr ⟨⟨rfl, by simpa using start⟩, by simp [hpc, EventPc.toStart]⟩

/-- No other step loses the Start. -/
theorem step_startPending {c c' : Control} {m : Move} (pending : c.StartPending) (h : c.step m = some c')
    (other : ∀ result, m ≠ .event result) : c'.StartPending ∧ c'.event = c.event := by
  obtain ⟨outside, start⟩ := pending
  cases m with
  | start =>
    simp only [step] at h
    split at h <;> cases h
    exact ⟨⟨outside, .inl rfl⟩, rfl⟩
  | stop =>
    simp only [step] at h
    split at h <;> cases h
    exact ⟨⟨outside, start⟩, rfl⟩
  | allocFails =>
    simp only [step] at h
    split at h <;> cases h
    exact ⟨⟨outside, start⟩, rfl⟩
  | quiet =>
    cases h
    exact ⟨⟨outside, start⟩, rfl⟩
  | event result => exact absurd rfl (other result)
  | frame alive =>
    obtain ⟨event, -, same, -⟩ := stepFrame_keeps h
    refine ⟨?_, event⟩
    rw [StartPending, event, same]
    exact ⟨outside, start⟩

/-- `eventTask` brings a Stop on its way nearer to the end of its loop. -/
theorem stepEvent_stopping {c c' : Control} {result : StartResult} (phased : c.Phased) (stopping : c.Stopping)
    (h : c.stepEvent result = some c') :
    c.event = .tail ∨ c'.Stopping ∧ c'.event.toTail + 1 ≤ c.event.toTail := by
  rcases stopping with ⟨status, stop⟩ | tail
  · have inside := phased.acquiring.1 status
    simp only [stepEvent] at h
    split at h <;> rename_i hpc <;> simp only [hpc, EventPc.acquiring] at inside stop
    case h_7 =>
      have signalled : c.sig.stopEvent = true := by simpa using stop
      rw [if_pos signalled] at h
      cases h
      exact .inr ⟨.inl ⟨status, .inr (.inl rfl)⟩, by simp [hpc, EventPc.toTail]⟩
    case h_8 =>
      cases h
      exact .inr ⟨.inl ⟨status, .inr (.inr rfl)⟩, by simp [hpc, EventPc.toTail]⟩
    case h_9 =>
      cases h
      exact .inr ⟨.inr rfl, by simp [hpc, EventPc.toTail]⟩
    all_goals cases inside
  · exact .inl tail

/-- No other step loses the Stop. -/
theorem step_stopping {c c' : Control} {m : Move} (stopping : c.Stopping) (h : c.step m = some c')
    (other : ∀ result, m ≠ .event result) : c'.Stopping ∧ c'.event = c.event := by
  have event : c'.event = c.event := by
    cases m with
    | start | stop | allocFails =>
      simp only [step] at h
      split at h <;> cases h
      rfl
    | quiet =>
      cases h
      rfl
    | event result => exact absurd rfl (other result)
    | frame alive => exact (stepFrame_keeps h).1
  refine ⟨?_, event⟩
  rcases stopping with ⟨status, stop⟩ | tail
  · cases m with
    | start => simp [step, status, Driver.startable] at h
    | stop =>
      simp only [step, status, if_true] at h
      cases h
      exact .inl ⟨status, .inl rfl⟩
    | allocFails => simp [step, status] at h
    | quiet =>
      cases h
      exact .inl ⟨status, stop⟩
    | event result => exact absurd rfl (other result)
    | frame alive =>
      obtain ⟨-, sameStatus, -, sameStop⟩ := stepFrame_keeps h
      left
      rw [StopPending, event, sameStatus, sameStop]
      exact ⟨status, stop⟩
  · exact .inr (event.trans tail)

end Control

namespace EventTask

theorem completeStart_start (t : Thread) (error : Bool) : (completeStart t error).drv.int 0 .start = 0 := by
  simp [completeStart, Driver.setInt]

/-- The start completes the callback of the Start, however it ends. -/
theorem startSection_start (env : StartEnv) (t : Thread) : (startSection env t).1.drv.int 0 .start = 0 := by
  simp only [startSection]
  split
  · exact completeStart_start _ true
  · exact completeStart_start _ _

section Rates

/-- The loop that zeroes the rates of the detectors. -/
def zeroRates (ds : List Nat) (t : Thread) : Thread :=
  ds.foldl (fun t det => (t.setInt det .detEventRate 0).callParamCallbacks) t

theorem zeroRates_other (ds : List Nat) (t : Thread) (addr : Nat) {p : IntParam} (other : p ≠ .detEventRate) :
    (zeroRates ds t).drv.int addr p = t.drv.int addr p := by
  induction ds generalizing t with
  | nil => rfl
  | cons d ds ih => exact (ih _).trans (Store.set_other_param t.drv.int d .detEventRate 0 addr other)

theorem zeroRates_rate {ds : List Nat} {t : Thread} {det : Nat} (h : det ∈ ds ∨ t.drv.int det .detEventRate = 0) :
    (zeroRates ds t).drv.int det .detEventRate = 0 := by
  induction ds generalizing t with
  | nil => exact h.resolve_left List.not_mem_nil
  | cons d ds ih =>
    apply ih
    by_cases same : det = d
    · right
      rw [same]
      exact Store.set_same t.drv.int d .detEventRate 0
    · refine h.imp (fun mem => (List.mem_cons.1 mem).resolve_left same) fun zero => ?_
      exact (Store.set_other_addr t.drv.int d .detEventRate 0 _ same).trans zero

end Rates

/-- The end of the loop zeroes the rates and completes the callback of the Stop. -/
theorem tailSection_zeroed (t : Thread) : (tailSection t).drv.int 0 .stop = 0 ∧
    (tailSection t).drv.int 0 .eventRate = 0 ∧
    ∀ det ∈ dets (t.drv.int 0 .numDet), (tailSection t).drv.int det .detEventRate = 0 := by
  have last : (tailSection t).drv =
      (zeroRates (dets (t.drv.int 0 .numDet)) (t.access.setInt 0 .eventRate 0)).drv.setInt 0 .stop 0 := rfl
  rw [last]
  refine ⟨by simp [Driver.setInt], ?_, fun det mem => ?_⟩
  · have kept := zeroRates_other (dets (t.drv.int 0 .numDet)) (t.access.setInt 0 .eventRate 0) 0
      (show IntParam.eventRate ≠ .detEventRate by decide)
    simpa [Driver.setInt] using kept
  · have zero := zeroRates_rate (t := t.access.setInt 0 .eventRate 0) (.inl mem)
    simpa [Driver.setInt] using zero

end EventTask

namespace Sys

/-- The request is the section of a start: the Start is completed, and `ADStatus` says how it went. -/
def StartDone (a : Sys) (r : Request) (b : Sys) : Prop :=
  a.event.pc = .startSection ∧ ∃ env, r = .sys (.event env) ∧ b.drv.int 0 .start = 0 ∧
    b.drv.adStatus = if EventTask.startResult env a.drv = .started then .acquire else .error

/-- The request is the end of the loop: the Stop is completed, the acquisition is over and the rates are zero. -/
def StopDone (a : Sys) (r : Request) (b : Sys) : Prop :=
  a.event.pc = .tail ∧ ∃ env, r = .sys (.event env) ∧ b.drv.int 0 .stop = 0 ∧ b.drv.adStatus ≠ .acquire ∧
    b.drv.int 0 .eventRate = 0 ∧ ∀ det ∈ dets (a.drv.int 0 .numDet), b.drv.int det .detEventRate = 0

theorem asks_isEvent {s : Sys} {r : Request} (other : r.isEvent = false) (result : StartResult) :
    s.asks r ≠ .event result := by
  cases r with
  | float addr p value => exact Move.noConfusion
  | octet addr p value erange env => exact Move.noConfusion
  | sys l =>
    cases l with
    | write addr p value callocOk =>
      intro moved
      have accepted := Driver.writeMove_accepts callocOk s.drv addr p value
      rw [show s.drv.writeMove callocOk addr p value = .event result from moved] at accepted
      exact accepted
    | packet p => exact Move.noConfusion
    | event env => cases other
    | frame env => exact Move.noConfusion

/-- A Start on its way, with what every reachable state satisfies. -/
structure AwaitsStart (s : Sys) : Prop where
  holds : s.event.Holds
  pending : s.control.StartPending

/-- A Stop on its way, with what every reachable state satisfies. -/
structure AwaitsStop (s : Sys) : Prop where
  holds : s.event.Holds
  phased : s.control.Phased
  stopping : s.control.Stopping

theorem step_startSection {s s' : Sys} {env : StartEnv} (h : s.step (.event env) = some s')
    (there : s.event.pc = .startSection) : StartDone s (.sys (.event env)) s' := by
  obtain ⟨r, taken, rfl⟩ := step_eventTask h
  simp only [EventTask.step, there] at taken
  cases taken
  have signals := EventTask.startSection_signals env (s.event.thread s.drv)
  refine ⟨there, env, rfl, EventTask.startSection_start env (s.event.thread s.drv), ?_⟩
  have status := congrArg Signals.adStatus signals
  refine status.trans ?_
  show (s.drv.signals.afterStart (EventTask.startResult env s.drv)).adStatus = _
  cases EventTask.startResult env s.drv <;> rfl

theorem step_tailSection {s s' : Sys} {env : StartEnv} (phased : s.control.Phased)
    (h : s.step (.event env) = some s') (there : s.event.pc = .tail) : StopDone s (.sys (.event env)) s' := by
  obtain ⟨r, taken, rfl⟩ := step_eventTask h
  simp only [EventTask.step, there] at taken
  cases taken
  obtain ⟨stop, rate, rates⟩ := EventTask.tailSection_zeroed (s.event.thread s.drv)
  have status := congrArg Signals.adStatus (EventTask.tailSection_signals (s.event.thread s.drv))
  refine ⟨there, env, rfl, stop, fun acquire => ?_, rate, rates⟩
  have inside := phased.acquiring.1 (status.symm.trans acquire)
  rw [show s.control.event = .tail from there] at inside
  cases inside

/-- One request serves the Start or leaves it on its way; those of `eventTask` bring it nearer. -/
theorem serve_awaitsStart (s : Sys) (r : Request) (s' : Sys) (awaits : s.AwaitsStart) (h : s.serve r = some s') :
    StartDone s r s' ∨ s'.AwaitsStart ∧ s'.event.pc.toStart + r.isEvent.toNat ≤ s.event.pc.toStart := by
  obtain ⟨holds, control⟩ := serve_control awaits.holds h
  cases hr : r.isEvent with
  | false =>
    obtain ⟨pending, same⟩ := Control.step_startPending awaits.pending control (asks_isEvent hr)
    have pc : s'.event.pc = s.event.pc := same
    exact .inr ⟨⟨holds, pending⟩, by rw [pc]; simp⟩
  | true =>
    obtain ⟨env, rfl⟩ := Request.isEvent_iff.1 hr
    rcases Control.stepEvent_startPending awaits.pending control with there | ⟨pending, nearer⟩
    · exact .inl (step_startSection h there)
    · exact .inr ⟨⟨holds, pending⟩, nearer⟩

/-- The same for a Stop. -/
theorem serve_awaitsStop (s : Sys) (r : Request) (s' : Sys) (awaits : s.AwaitsStop) (h : s.serve r = some s') :
    StopDone s r s' ∨ s'.AwaitsStop ∧ s'.event.pc.toTail + r.isEvent.toNat ≤ s.event.pc.toTail := by
  obtain ⟨holds, control⟩ := serve_control awaits.holds h
  have phased := Control.step_phased awaits.phased control
  cases hr : r.isEvent with
  | false =>
    obtain ⟨stopping, same⟩ := Control.step_stopping awaits.stopping control (asks_isEvent hr)
    have pc : s'.event.pc = s.event.pc := same
    exact .inr ⟨⟨holds, phased, stopping⟩, by rw [pc]; simp⟩
  | true =>
    obtain ⟨env, rfl⟩ := Request.isEvent_iff.1 hr
    rcases Control.stepEvent_stopping awaits.phased awaits.stopping control with there | ⟨stopping, nearer⟩
    · exact .inl (step_tailSection awaits.phased h there)
    · exact .inr ⟨⟨holds, phased, stopping⟩, nearer⟩

/-- `eventTask` can take its next step, whatever it is. -/
def EventReady (s : Sys) : Prop := ∀ env, ∃ s', s.step (.event env) = some s'

/-- Apart from the mutex, `eventTask` waits for nothing but a Start. -/
theorem eventReady_of_free {s : Sys} (free : s.frame.locks.hold = 0)
    (ready : s.event.pc = .startWait → s.drv.startEvent = true) : s.EventReady := by
  intro env
  simp only [step, free, EventTask.step]
  cases hpc : s.event.pc with
  | startWait => simp [ready hpc]
  | stopWait => cases hs : s.drv.stopEvent <;> simp
  | _ => simp

theorem move_of_accepts {s : Sys} {l : Label} {m : Move} (accepted : s.Accepts m l) (signal : m = .start ∨ m = .stop) :
    s.move l = m := by
  cases l with
  | write addr p value callocOk =>
    rcases signal with rfl | rfl
    all_goals
      obtain ⟨inRange, rfl, nonzero, status⟩ := accepted
      simp only [move, Driver.writeMove]
      rw [if_neg (by omega), if_pos ⟨nonzero, status⟩]
  | packet p => cases accepted
  | event env => cases accepted
  | frame env => cases accepted

theorem awaitsStart_of_accepted {s b : Sys} {l : Label} (holds : s.event.Holds) (phased : s.control.Phased)
    (accepted : s.AcceptsStart l) (h : s.step l = some b) : b.AwaitsStart := by
  have moved := step_control holds h
  rw [move_of_accepts accepted (.inl rfl)] at moved
  refine ⟨step_holds holds h, ?_⟩
  simp only [Control.step] at moved
  split at moved
  · rename_i enabled
    rw [← Option.some.inj moved]
    refine ⟨Bool.eq_false_iff.2 fun inside => ?_, .inl rfl⟩
    simp [phased.acquiring.2 inside, Driver.startable] at enabled
  · cases moved

theorem awaitsStop_of_accepted {s b : Sys} {l : Label} (holds : s.event.Holds) (phased : s.control.Phased)
    (accepted : s.AcceptsStop l) (h : s.step l = some b) : b.AwaitsStop := by
  have moved := step_control holds h
  rw [move_of_accepts accepted (.inr rfl)] at moved
  refine ⟨step_holds holds h, Control.step_phased phased moved, ?_⟩
  simp only [Control.step] at moved
  split at moved
  · rename_i acquiring
    rw [← Option.some.inj moved]
    exact .inl ⟨acquiring, .inl rfl⟩
  · cases moved

/-- **Every Start is served.** After an accepted Start, `eventTask` runs the section of a start as the
seventh of its own steps at the latest, whatever the other threads do: it completes the Start and leaves
`ADStatus` at Acquire or Error. Until then only the mutex can keep `eventTask` from its next step. -/
theorem start_served {u : Uninit} {rs ks : List Request} {s b c : Sys} {l : Label}
    (reached : Runs.run serve (init u) rs = some s) (accepted : s.AcceptsStart l) (h : s.serve (.sys l) = some b)
    (after : Runs.run serve b ks = some c) :
    Runs.Within serve Request.isEvent StartDone 6 b ks ∨
      ks.countP Request.isEvent ≤ 6 ∧ (c.frame.locks.hold = 0 → c.EventReady) := by
  obtain ⟨holds, phased⟩ := served_phased reached
  have awaits := awaitsStart_of_accepted holds phased accepted h
  have distance : b.event.pc.toStart ≤ 6 := by
    cases b.event.pc <;> decide
  rcases Runs.run_progress AwaitsStart (fun s => s.event.pc.toStart) serve_awaitsStart after awaits with
    served | ⟨still, bound⟩
  · exact .inl (served.mono distance)
  · refine .inr ⟨by omega, fun free => eventReady_of_free free fun waiting => ?_⟩
    rcases still.pending.2 with signalled | there | there
    · exact signalled
    · cases waiting.symm.trans there
    · cases waiting.symm.trans there

/-- A start without memory for the array, up to the end of the loop. -/
def failedStart : List Request :=
  (configured ++ [startWrite, eventStep, eventStep, .event ⟨false, fun _ => true⟩]).map .sys

/-- All seven steps from the end of the loop to the next start, and a write of another PV name before them. -/
def toNextStart : List Request :=
  .octet 0 .pvName "neutrons" false ⟨.unreadable, false, false, fun _ => none⟩ :: List.replicate 7 (.sys eventStep)

theorem start_served_failedStart : ∃ s b c, Runs.run serve (init .blank) failedStart = some s ∧
    s.event.pc = .tail ∧ s.serve (.sys startWrite) = some b ∧ Runs.run serve b toNextStart = some c ∧
    Runs.Within serve Request.isEvent StartDone 6 b toNextStart := by
  obtain ⟨s, reached⟩ : ∃ s, Runs.run serve (init .blank) failedStart = some s := ⟨_, rfl⟩
  have tail : s.event.pc = .tail := by
    cases reached
    rfl
  have accepted : s.AcceptsStart startWrite := by
    cases reached
    exact ⟨by decide, rfl, by decide, rfl⟩
  obtain ⟨b, h⟩ : ∃ b, s.serve (.sys startWrite) = some b := by
    cases reached
    exact ⟨_, rfl⟩
  obtain ⟨c, after⟩ : ∃ c, Runs.run serve b toNextStart = some c := by
    cases reached
    cases h
    exact ⟨_, rfl⟩
  have served := (start_served reached accepted h after).resolve_right fun few => absurd few.1 (by decide)
  exact ⟨s, b, c, reached, tail, h, after, served⟩

/-- **Every Stop is served.** After an accepted Stop, `eventTask` reaches the end of its loop as the fourth
of its own steps at the latest: the acquisition is over, the rates are zero and the Stop is completed. Until
then only the mutex can keep `eventTask` from its next step. -/
theorem stop_served {u : Uninit} {rs ks : List Request} {s b c : Sys} {l : Label}
    (reached : Runs.run serve (init u) rs = some s) (accepted : s.AcceptsStop l) (h : s.serve (.sys l) = some b)
    (after : Runs.run serve b ks = some c) :
    Runs.Within serve Request.isEvent StopDone 3 b ks ∨
      ks.countP Request.isEvent ≤ 3 ∧ (c.frame.locks.hold = 0 → c.EventReady) := by
  obtain ⟨holds, phased⟩ := served_phased reached
  have awaits := awaitsStop_of_accepted holds phased accepted h
  have distance : b.event.pc.toTail ≤ 3 := by
    cases b.event.pc <;> decide
  rcases Runs.run_progress AwaitsStop (fun s => s.event.pc.toTail) serve_awaitsStop after awaits with
    served | ⟨still, bound⟩
  · exact .inl (served.mono distance)
  · refine .inr ⟨by omega, fun free => eventReady_of_free free fun waiting => ?_⟩
    rcases still.stopping with ⟨status, -⟩ | there
    · have inside := still.phased.acquiring.1 status
      rw [show c.control.event = .startWait from waiting] at inside
      cases inside
    · cases waiting.symm.trans there

/-- An acquisition that is to be stopped. -/
def underWay : List Request := (configured ++ [startWrite, eventStep, eventStep, eventStep]).map .sys

theorem stop_served_underWay : ∃ s b c, Runs.run serve (init .blank) underWay = some s ∧
    s.serve (.sys stopWrite) = some b ∧ Runs.run serve b (List.replicate 4 (.sys eventStep)) = some c ∧
    Runs.Within serve Request.isEvent StopDone 3 b (List.replicate 4 (.sys eventStep)) := by
  obtain ⟨s, reached⟩ : ∃ s, Runs.run serve (init .blank) underWay = some s := ⟨_, rfl⟩
  have accepted : s.AcceptsStop stopWrite := by
    cases reached
    exact ⟨by decide, rfl, by decide, rfl⟩
  obtain ⟨b, h⟩ : ∃ b, s.serve (.sys stopWrite) = some b := by
    cases reached
    exact ⟨_, rfl⟩
  obtain ⟨c, after⟩ : ∃ c, Runs.run serve b (List.replicate 4 (.sys eventStep)) = some c := by
    cases reached
    cases h
    exact ⟨_, rfl⟩
  have served := (stop_served reached accepted h after).resolve_right fun few => absurd few.1 (by decide)
  exact ⟨s, b, c, reached, h, after, served⟩

end Sys

end ADnED
