import ADnED.Tasks.Simulation

/-!
# Starts and stops

Two properties of the handshake between the record writes and `eventTask`. A Stop that
was accepted during one acquisition never ends a later one (`stop_is_not_stale`): the
drain wait at the top of the loop eats whatever Stop came too late. There is no such
drain for Starts. A Start that is accepted between the return of the wait on
`m_startEvent` and the `lock()` behind it fills the event again, and the acquisition
comes back by itself after its Stop; apart from such a Start it does not
(`no_spontaneous_restart`).
-/

namespace ADnED

/-- `eventTask` is in an acquisition. -/
def EventPc.acquiring : EventPc → Bool
  | .stopWait | .stopLock | .stopSection => true
  | _ => false

/-- `eventTask` is past the drain wait and not yet in an acquisition. -/
def EventPc.drained : EventPc → Bool
  | .idleLock | .idleSection | .startWait | .startLock | .startSection => true
  | _ => false

/-- The step is a Start, accepted or not. -/
def Label.IsStart : Label → Prop
  | .write _ p value _ => p = .start ∧ value ≠ 0
  | _ => False

namespace Control

/-- `ADStatus` is Acquire exactly while `eventTask` is in an acquisition, and no Stop is
pending when one begins. -/
structure Phased (c : Control) : Prop where
  acquiring : c.sig.adStatus = .acquire ↔ c.event.acquiring = true
  drained : c.event.drained = true → c.sig.stopEvent = false

/-- `frameTask` leaves the signals between the writers and `eventTask` alone. -/
theorem stepFrame_keeps {c c' : Control} {alive : Bool} (h : c.stepFrame alive = some c') :
    c'.event = c.event ∧ c'.sig.adStatus = c.sig.adStatus ∧ c'.sig.startEvent = c.sig.startEvent ∧
      c'.sig.stopEvent = c.sig.stopEvent := by
  simp only [stepFrame] at h
  split at h
  case h_6 =>
    split at h <;> cases h
    exact ⟨rfl, rfl, rfl, rfl⟩
  case h_14 => cases h
  all_goals
    cases h
    exact ⟨rfl, rfl, rfl, rfl⟩

theorem stepEvent_phased {c c' : Control} {result : StartResult} (phased : c.Phased)
    (h : c.stepEvent result = some c') : c'.Phased := by
  obtain ⟨acquiring, drained⟩ := phased
  simp only [stepEvent] at h
  split at h <;> rename_i hpc <;> simp only [hpc, EventPc.acquiring, EventPc.drained] at acquiring drained
  case h_4 =>
    split at h
    · cases h
      exact ⟨by simpa [EventPc.acquiring] using acquiring, fun _ => drained trivial⟩
    · cases h
  case h_6 =>
    cases h
    cases result <;>
      exact ⟨by simp [Signals.afterStart, EventPc.acquiring], by simp [EventPc.drained]⟩
  case h_7 =>
    split at h <;> cases h
    · exact ⟨by simpa [EventPc.acquiring] using acquiring, by simp [EventPc.drained]⟩
    · exact ⟨by simpa [hpc, EventPc.acquiring] using acquiring, by simp [hpc, EventPc.drained]⟩
  all_goals
    cases h
    exact ⟨by simp_all [EventPc.acquiring, Signals.afterStop], by simp_all [EventPc.drained]⟩

/-- Every step keeps the phases. -/
theorem step_phased {c c' : Control} {m : Move} (phased : c.Phased) (h : c.step m = some c') :
    c'.Phased := by
  cases m with
  | start =>
    simp only [step] at h
    split at h <;> cases h
    exact ⟨phased.acquiring, phased.drained⟩
  | stop =>
    simp only [step] at h
    split at h <;> cases h
    rename_i acquire
    have inside := phased.acquiring.1 acquire
    refine ⟨phased.acquiring, fun drained => ?_⟩
    revert inside drained
    cases c.event <;> simp [EventPc.acquiring, EventPc.drained]
  | allocFails =>
    simp only [step] at h
    split at h <;> cases h
    rename_i idle
    have outside := mt phased.acquiring.2 idle
    exact ⟨by simpa [Signals.afterWrite] using outside, phased.drained⟩
  | quiet =>
    cases h
    exact phased
  | event result => exact stepEvent_phased phased h
  | frame alive =>
    obtain ⟨event, status, -, stop⟩ := stepFrame_keeps h
    exact ⟨by rw [event, status]; exact phased.acquiring, by rw [event, stop]; exact phased.drained⟩

theorem phased_init (u : Uninit) : (Sys.init u).control.Phased :=
  ⟨by simp [Sys.init, Sys.control, Driver.construct, EventTask.init, EventPc.acquiring],
    by simp [Sys.init, Sys.control, EventTask.init, EventPc.drained]⟩

/-- A Stop of the present acquisition is on its way. -/
def StopPending (c : Control) : Prop :=
  c.sig.adStatus = .acquire ∧
    (c.sig.stopEvent = true ∨ c.event = .stopLock ∨ c.event = .stopSection)

/-- Only an accepted Stop puts one on its way. -/
theorem step_stopPending {c c' : Control} {m : Move} (phased : c.Phased) (h : c.step m = some c')
    (pending : c'.StopPending) : m = .stop ∨ c.StopPending := by
  obtain ⟨status, stop⟩ := pending
  cases m with
  | start =>
    simp only [step] at h
    split at h <;> cases h
    exact .inr ⟨status, stop⟩
  | stop => exact .inl rfl
  | allocFails =>
    simp only [step] at h
    split at h <;> cases h
    simp [Signals.afterWrite] at status
  | quiet =>
    cases h
    exact .inr ⟨status, stop⟩
  | event result =>
    right
    obtain ⟨acquiring, drained⟩ := phased
    simp only [step, stepEvent] at h
    split at h <;> rename_i hpc <;> simp only [hpc, EventPc.acquiring, EventPc.drained] at acquiring drained
    case h_4 => split at h <;> cases h; simp_all
    case h_6 => cases h; cases result <;> simp_all [Signals.afterStart]
    case h_7 => split at h <;> cases h <;> simp_all [StopPending]
    all_goals
      cases h
      simp_all [StopPending, Signals.afterStop]
  | frame alive =>
    right
    obtain ⟨event, sameStatus, -, sameStop⟩ := stepFrame_keeps h
    rw [event, sameStop] at stop
    exact ⟨sameStatus ▸ status, stop⟩

/-- An acquisition ends in the critical section of its stop. -/
theorem step_ends {c c' : Control} {m : Move} (phased : c.Phased) (h : c.step m = some c')
    (acquiring : c.sig.adStatus = .acquire) (ended : c'.sig.adStatus ≠ .acquire) :
    c.event = .stopSection ∧ c' = { c with sig := c.sig.afterStop, event := .tail } := by
  have inside := phased.acquiring.1 acquiring
  cases m with
  | start => simp [step, acquiring, Driver.startable] at h
  | stop =>
    simp only [step, acquiring, if_true] at h
    cases h
    exact absurd acquiring ended
  | allocFails => simp [step, acquiring] at h
  | quiet =>
    cases h
    exact absurd acquiring ended
  | event result =>
    simp only [step, stepEvent] at h
    split at h <;> rename_i hpc <;> simp only [hpc, EventPc.acquiring] at inside
    case h_7 => split at h <;> cases h <;> exact absurd acquiring ended
    case h_8 =>
      cases h
      exact absurd acquiring ended
    case h_9 =>
      cases h
      exact ⟨hpc, rfl⟩
    all_goals cases inside
  | frame alive =>
    obtain ⟨-, status, -, -⟩ := stepFrame_keeps h
    exact absurd (status ▸ acquiring) ended

/-- The Start that began the present acquisition has emptied `m_startEvent`. -/
def StartConsumed (c : Control) : Prop :=
  c.event.acquiring = true ∨ c.event = .startLock ∨ c.event = .startSection → c.sig.startEvent = false

/-- The event stays empty if no Start gets in behind the wait. -/
theorem step_startConsumed {c c' : Control} {m : Move} (phased : c.Phased) (consumed : c.StartConsumed)
    (prompt : m = .start → c.event ≠ .startLock) (h : c.step m = some c') : c'.StartConsumed := by
  cases m with
  | start =>
    simp only [step] at h
    split at h <;> cases h
    rename_i enabled
    have outside : c.event.acquiring = false := by
      cases ha : c.event.acquiring with
      | false => rfl
      | true => simp [phased.acquiring.2 ha, Driver.startable] at enabled
    rintro (inside | early | late)
    · simp [outside] at inside
    · exact absurd early (prompt rfl)
    · simp [show c.event = .startSection from late, EventPc.locked] at enabled
  | stop =>
    simp only [step] at h
    split at h <;> cases h
    exact consumed
  | allocFails =>
    simp only [step] at h
    split at h <;> cases h
    exact consumed
  | quiet =>
    cases h
    exact consumed
  | event result =>
    unfold StartConsumed at consumed ⊢
    simp only [step, stepEvent] at h
    split at h <;> rename_i hpc <;> simp only [hpc, EventPc.acquiring] at consumed
    case h_4 => split at h <;> cases h; simp
    case h_6 => cases h; cases result <;> simp_all [Signals.afterStart, EventPc.acquiring]
    case h_7 => split at h <;> cases h <;> simp_all [EventPc.acquiring]
    all_goals
      cases h
      simp_all [EventPc.acquiring]
  | frame alive =>
    obtain ⟨event, -, start, -⟩ := stepFrame_keeps h
    unfold StartConsumed
    rw [event, start]
    exact consumed

/-- No acquisition is running and none is about to begin. -/
structure AtRest (c : Control) : Prop where
  idle : c.sig.adStatus ≠ .acquire
  empty : c.sig.startEvent = false
  outside : c.event.acquiring = false ∧ c.event ≠ .startLock ∧ c.event ≠ .startSection

/-- Only a Start ends the rest. -/
theorem step_atRest {c c' : Control} {m : Move} (rest : c.AtRest) (other : m ≠ .start)
    (h : c.step m = some c') : c'.AtRest := by
  obtain ⟨idle, empty, outside⟩ := rest
  cases m with
  | start => exact absurd rfl other
  | stop => simp [step, idle] at h
  | allocFails =>
    rw [step, if_pos idle] at h
    cases h
    exact ⟨by simp [Signals.afterWrite], empty, outside⟩
  | quiet =>
    cases h
    exact ⟨idle, empty, outside⟩
  | event result =>
    simp only [step, stepEvent] at h
    split at h <;> rename_i hpc <;> simp only [hpc, EventPc.acquiring] at outside
    case h_4 => simp [empty] at h
    case h_5 => exact absurd rfl outside.2.1
    case h_6 => exact absurd rfl outside.2.2
    case h_7 | h_8 | h_9 => cases outside.1
    all_goals
      cases h
      exact ⟨idle, empty, by simp [EventPc.acquiring]⟩
  | frame alive =>
    obtain ⟨event, status, start, -⟩ := stepFrame_keeps h
    exact ⟨by rw [status]; exact idle, by rw [start]; exact empty, by rw [event]; exact outside⟩

end Control

namespace Sys

/-- The step is a record write that the driver accepts as the step `m` of its skeleton. -/
def Accepts (m : Move) (s : Sys) : Label → Prop
  | .write addr p value _ => s.drv.Accepts addr p value m
  | _ => False

/-- The step is a Stop that the driver accepts. -/
abbrev AcceptsStop : Sys → Label → Prop := Accepts .stop

/-- The step is a Start that the driver accepts. -/
abbrev AcceptsStart : Sys → Label → Prop := Accepts .start

theorem accepts_of_move {s : Sys} {l : Label} {m : Move} (h : s.move l = m) (accepted : m = .start ∨ m = .stop) :
    s.Accepts m l := by
  cases l with
  | write addr p value callocOk =>
    rw [← h]
    exact Driver.writeMove_accepts callocOk s.drv addr p value
  | packet p => rcases accepted with rfl | rfl <;> cases h
  | event env => rcases accepted with rfl | rfl <;> cases h
  | frame env => rcases accepted with rfl | rfl <;> cases h

/-- The phases hold in every reachable state. -/
theorem run_phased {u : Uninit} {ls : List Label} {s : Sys} (reached : (init u).run ls = some s) :
    s.control.Phased := by
  have any : Runs.Meets step (fun _ _ => True) (init u) ls := Runs.meets_true
  exact run_control Control.Phased (fun _ _ _ inv _ h => Control.step_phased inv h) reached any
    (Control.phased_init u)

/-- `ADStatus` is Acquire. -/
def Acquiring (s : Sys) : Prop := s.drv.adStatus = .acquire

/-- Wherever a Stop is on its way, it was accepted during the present acquisition. -/
theorem run_stopPending (u : Uninit) : ∀ ls s, (init u).run ls = some s →
    s.control.StopPending → Runs.Since step AcceptsStop Acquiring (init u) ls := by
  apply Runs.run_induction
  · intro pending
    simp [Control.StopPending, control, init, Driver.construct] at pending
  · intro ls s l s' reached h past pending
    have control := step_control (run_holds reached) h
    have acquiring : s'.Acquiring := pending.1
    rcases Control.step_stopPending (run_phased reached) control pending with stop | before
    · exact .now reached (accepts_of_move stop (.inr rfl)) h acquiring
    · exact (past before).snoc reached h acquiring

/-- **No stale Stop.** A step that ends an acquisition comes after a Stop that was accepted in
that same acquisition: ever since that Stop, `ADStatus` has been Acquire. -/
theorem stop_is_not_stale {u : Uninit} {ls : List Label} {s s' : Sys} {l : Label}
    (reached : (init u).run ls = some s) (h : s.step l = some s')
    (acquiring : s.Acquiring) (ended : ¬s'.Acquiring) :
    Runs.Since step AcceptsStop Acquiring (init u) ls := by
  have control := step_control (run_holds reached) h
  have stopping := (Control.step_ends (run_phased reached) control acquiring ended).1
  exact run_stopPending u ls s reached ⟨acquiring, .inr (.inr stopping)⟩

/-- A step of `eventTask` in which nothing fails. -/
def eventStep : Label := .event ⟨true, fun _ => true⟩

/-- A Start. -/
def startWrite : Label := .write 0 .start 1 true

/-- A Stop. -/
def stopWrite : Label := .write 0 .stop 1 true

/-- The configuration of one detector of two pixels, with `eventTask` on its way to its wait
for a Start. -/
def configured : List Label :=
  [.write 0 .numDet 1 true, .write 1 .pixelNumSize 2 true, eventStep, eventStep, eventStep]

/-- One acquisition, up to the critical section that ends it. -/
def oneAcquisition : List Label :=
  configured ++ [startWrite, eventStep, eventStep, eventStep, stopWrite, eventStep, eventStep]

/-- The Stop that ends this acquisition was accepted in it. -/
theorem stop_is_not_stale_oneAcquisition :
    ∃ s s', (init .blank).run oneAcquisition = some s ∧ s.step eventStep = some s' ∧
      s'.drv.adStatus = .idle ∧ Runs.Since step AcceptsStop Acquiring (init .blank) oneAcquisition := by
  obtain ⟨s, reached⟩ : ∃ s, (init .blank).run oneAcquisition = some s := ⟨_, rfl⟩
  obtain ⟨s', h⟩ : ∃ s', s.step eventStep = some s' := by
    cases reached
    exact ⟨_, rfl⟩
  have acquiring : s.Acquiring := by
    cases reached
    rfl
  have idle : s'.drv.adStatus = .idle := by
    cases reached
    cases h
    rfl
  have ended : ¬s'.Acquiring := by
    rw [Acquiring, idle]
    decide
  exact ⟨s, s', reached, h, idle, stop_is_not_stale reached h acquiring ended⟩

/-- The Start does not get in between the wait on `m_startEvent` and the `lock()` behind it. -/
def PromptStart (s : Sys) (l : Label) : Prop := s.AcceptsStart l → s.event.pc ≠ .startLock

theorem run_startConsumed {u : Uninit} {ls : List Label} {s : Sys} (reached : (init u).run ls = some s)
    (meets : Runs.Meets step PromptStart (init u) ls) : s.control.StartConsumed := by
  have both : s.control.Phased ∧ s.control.StartConsumed := by
    refine run_control (fun c => c.Phased ∧ c.StartConsumed) ?_ reached meets
      ⟨Control.phased_init u, fun _ => rfl⟩
    intro s l c' ⟨phased, consumed⟩ prompt h
    exact ⟨Control.step_phased phased h,
      Control.step_startConsumed phased consumed (fun start => prompt (accepts_of_move start (.inl rfl))) h⟩
  exact both.2

theorem isStart_of_move {s : Sys} {l : Label} (h : s.move l = .start) : l.IsStart := by
  have accepted := accepts_of_move h (.inl rfl)
  cases l with
  | write addr p value callocOk => exact ⟨accepted.2.1, accepted.2.2.1⟩
  | packet p => exact accepted
  | event env => exact accepted
  | frame env => exact accepted

/-- Without a Start, the driver stays at rest. -/
theorem run_atRest {ks : List Label} : ∀ {b c : Sys}, b.event.Holds → b.control.AtRest →
    b.run ks = some c → (∀ l ∈ ks, ¬l.IsStart) → c.control.AtRest := by
  induction ks with
  | nil =>
    intro b c _ rest h _
    cases h
    exact rest
  | cons l ks ih =>
    intro b c holds rest h none
    obtain ⟨t, ht, after⟩ := Runs.run_cons_some h
    have other : b.move l ≠ .start := fun start => none l (by simp) (isStart_of_move start)
    exact ih (step_holds holds ht) (Control.step_atRest rest other (step_control holds ht)) after
      fun k hk => none k (by simp [hk])

/-- **No spontaneous restart.** If no Start has got in behind the wait on `m_startEvent`, then
after a Stop has ended an acquisition `ADStatus` does not become Acquire again without a Start. -/
theorem no_spontaneous_restart {u : Uninit} {ls ks : List Label} {s b c : Sys} {l : Label}
    (reached : (init u).run ls = some s) (meets : Runs.Meets step PromptStart (init u) ls)
    (h : s.step l = some b) (acquiring : s.drv.adStatus = .acquire) (ended : b.drv.adStatus = .idle)
    (after : b.run ks = some c) (none : ∀ k ∈ ks, ¬k.IsStart) : c.drv.adStatus ≠ .acquire := by
  have holds := run_holds reached
  have left : b.control.sig.adStatus ≠ .acquire := by
    intro acquire
    have : b.drv.adStatus = .acquire := acquire
    rw [ended] at this
    cases this
  obtain ⟨stopping, tail⟩ := Control.step_ends (run_phased reached) (step_control holds h) acquiring left
  have empty : s.control.sig.startEvent = false := by
    apply run_startConsumed reached meets
    rw [stopping]
    exact .inl rfl
  have rest : b.control.AtRest := by
    rw [tail]
    exact ⟨by simp [Signals.afterStop], empty, by simp [EventPc.acquiring]⟩
  exact (run_atRest (step_holds holds h) rest after none).idle

/-- No write at all gets in behind the wait. -/
def promptCheck (s : Sys) : Label → Bool
  | .write _ _ _ _ => s.event.pc != .startLock
  | _ => true

theorem promptStart_of_check (s : Sys) (l : Label) (h : s.promptCheck l = true) : s.PromptStart l := by
  intro start
  cases l with
  | write addr p value callocOk => simpa [promptCheck] using h
  | packet p => exact start.elim
  | event env => exact start.elim
  | frame env => exact start.elim

/-- After one acquisition, `eventTask` is back at its wait for a Start and `ADStatus` idle. -/
theorem no_spontaneous_restart_oneAcquisition :
    ∃ s b c, (init .blank).run oneAcquisition = some s ∧ s.step eventStep = some b ∧
      b.run (List.replicate 4 eventStep) = some c ∧ c.event.pc = .startWait ∧
      c.drv.adStatus ≠ .acquire := by
  obtain ⟨s, reached⟩ : ∃ s, (init .blank).run oneAcquisition = some s := ⟨_, rfl⟩
  obtain ⟨b, h⟩ : ∃ b, s.step eventStep = some b := by
    cases reached
    exact ⟨_, rfl⟩
  obtain ⟨c, after⟩ : ∃ c, b.run (List.replicate 4 eventStep) = some c := by
    cases reached
    cases h
    exact ⟨_, rfl⟩
  have waits : c.event.pc = .startWait := by
    cases reached
    cases h
    cases after
    rfl
  have states : s.drv.adStatus = .acquire ∧ b.drv.adStatus = .idle := by
    cases reached
    cases h
    exact ⟨rfl, rfl⟩
  have meets : Runs.Meets step PromptStart (init .blank) oneAcquisition :=
    Runs.meets_of_checks promptStart_of_check rfl
  have none : ∀ k ∈ List.replicate 4 eventStep, ¬k.IsStart := by
    intro k hk
    rw [List.eq_of_mem_replicate hk]
    exact id
  exact ⟨s, b, c, reached, h, after, waits,
    no_spontaneous_restart reached meets h states.1 states.2 after none⟩

/-- One acquisition, with a second Start between the wait on `m_startEvent` and the `lock()`. -/
def doubleStart : List Label :=
  configured ++
    [startWrite, eventStep, startWrite, eventStep, eventStep, stopWrite, eventStep, eventStep]

/-- Seven steps of `eventTask` after this acquisition has been stopped, the next one is
running, and nobody has asked for it. -/
theorem spontaneous_restart :
    ∃ s b c, (init .blank).run doubleStart = some s ∧ s.drv.adStatus = .acquire ∧
      s.step eventStep = some b ∧ b.drv.adStatus = .idle ∧
      b.run (List.replicate 7 eventStep) = some c ∧ c.drv.adStatus = .acquire :=
  ⟨_, _, _, rfl, rfl, rfl, rfl, rfl, rfl⟩

end Sys

end ADnED
