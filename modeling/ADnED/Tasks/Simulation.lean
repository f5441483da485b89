import ADnED.Tasks.System
import ADnED.Tasks.Control
import ADnED.Tasks.EventLocks
import ADnED.Driver.HandlerFrame
import Mathlib.Tactic.SplitIfs

/-!
# The driver implements its control skeleton

Every step of the system is a step of the skeleton (`step_control`), so that an
invariant of the skeleton is one of the system. Each function of the driver gets one
lemma here that says what it does to the signals.
-/

namespace ADnED

/-- The part of the driver that the skeleton keeps. -/
def Driver.signals (d : Driver) : Signals :=
  ⟨d.adStatus, d.startEvent, d.stopEvent, d.startFrame, d.stopFrame⟩

section

variable (d : Driver)

@[simp] theorem Driver.signals_adStatus : d.signals.adStatus = d.adStatus := rfl

@[simp] theorem Driver.signals_startEvent : d.signals.startEvent = d.startEvent := rfl

@[simp] theorem Driver.signals_stopEvent : d.signals.stopEvent = d.stopEvent := rfl

@[simp] theorem Driver.signals_startFrame : d.signals.startFrame = d.startFrame := rfl

@[simp] theorem Driver.signals_stopFrame : d.signals.stopFrame = d.stopFrame := rfl

end

theorem Relaid.signals {d d' : Driver} (h : Relaid d d') : d'.signals = d.signals := by
  rw [h.eq]
  rfl

theorem Handled.signals {d d' : Driver} (h : Handled d d') : d'.signals = d.signals := by
  rw [h.eq]
  rfl

namespace Driver

/-! ## Record writes -/

/-- The step of the skeleton that a record write is. -/
def writeMove (callocOk : Bool) (d : Driver) (addr : Nat) (p : IntParam) (value : Int32) : Move :=
  if maxDets < addr then .quiet
  else
    match p with
    | .start => if value ≠ 0 ∧ startable d.adStatus = true then .start else .quiet
    | .stop => if value ≠ 0 ∧ d.adStatus = .acquire then .stop else .quiet
    | .allocSpace =>
      if d.adStatus ≠ .acquire ∧ (d.allocArray callocOk).2 = .error then .allocFails else .quiet
    | _ => .quiet

/-- A write that moves the skeleton is one of these. -/
def Accepts (d : Driver) (addr : Nat) (p : IntParam) (value : Int32) : Move → Prop
  | .start => addr ≤ maxDets ∧ p = .start ∧ value ≠ 0 ∧ startable d.adStatus = true
  | .stop => addr ≤ maxDets ∧ p = .stop ∧ value ≠ 0 ∧ d.adStatus = .acquire
  | .allocFails => addr ≤ maxDets ∧ p = .allocSpace ∧ d.adStatus ≠ .acquire
  | .quiet => True
  | _ => False

theorem writeMove_accepts (callocOk : Bool) (d : Driver) (addr : Nat) (p : IntParam) (value : Int32) :
    d.Accepts addr p value (d.writeMove callocOk addr p value) := by
  unfold writeMove
  split
  · trivial
  · rename_i inRange
    have inRange : addr ≤ maxDets := by omega
    split
    · split_ifs with accepted
      · exact ⟨inRange, rfl, accepted⟩
      · trivial
    · split_ifs with accepted
      · exact ⟨inRange, rfl, accepted⟩
      · trivial
    · split_ifs with failed
      · exact ⟨inRange, rfl, failed.1⟩
      · trivial
    · trivial

@[simp] theorem setInt_signals (d : Driver) (addr : Nat) (p : IntParam) (v : Int32) :
    (d.setInt addr p v).signals = d.signals := rfl

@[simp] theorem storeInt_signals (d : Driver) (addr : Nat) (p : IntParam) (v : Int32) :
    (d.storeInt addr p v).signals = d.signals := by
  unfold storeInt
  split <;> rfl

@[simp] theorem clearParams_signals (d : Driver) : d.clearParams.signals = d.signals := rfl

@[simp] theorem resetTOFArray_signals (d : Driver) (det : Nat) :
    (d.resetTOFArray det).signals = d.signals := by
  unfold resetTOFArray
  split <;> rfl

theorem writeLayout_signals (d : Driver) (addr : Nat) (p : IntParam) (v : Int32) :
    (d.writeLayout addr p v).1.signals = d.signals := by
  unfold writeLayout
  split
  · exact storeInt_signals { d with dataAlloc := true } addr p v
  · rfl

theorem writeBounded_signals (d : Driver) (addr : Nat) (p : IntParam) (v : Int32) (max : Nat) :
    (d.writeBounded addr p v max).1.signals = d.signals := by
  unfold writeBounded
  split
  · split
    · rfl
    · exact storeInt_signals d addr p v
  · rfl

/-- What a record write does to the signals. -/
theorem applyInt32_signals (callocOk : Bool) (d : Driver) (addr : Nat) (p : IntParam) (value : Int32) :
    (d.applyInt32 callocOk addr p value).1.signals =
      d.signals.afterWrite (d.writeMove callocOk addr p value) := by
  have alloc := (allocArray_relaid callocOk d).signals
  simp only [applyInt32, writeMove]
  split
  · rfl
  · cases p
    case start | stop =>
      simp only
      split
      · rename_i nonzero
        split
        · rename_i accepted
          simp only [nonzero, accepted, ne_eq, not_false_eq_true, and_self, if_true, storeInt_signals]
          rfl
        · rename_i refused
          simp [refused]
      · rename_i zero
        simp [zero]
    case allocSpace =>
      simp only
      split
      · rename_i idle
        split
        · rename_i d' allocated
          rw [allocated] at alloc
          simpa [allocated] using alloc
        · rename_i d' failed
          rw [failed] at alloc
          simp only [idle, failed, ne_eq, not_false_eq_true, and_self, if_true, ← alloc]
          rfl
      · rename_i acquiring
        simp [acquiring]
    case tofROIEnable | pixelROIEnable =>
      simp only [storeInt_signals]
      split <;> rfl
    case tofTransDebug | tofTransInt => exact storeInt_signals _ _ _ _
    all_goals simp [writeLayout_signals, writeBounded_signals]

end Driver

namespace EventTask

/-! ## The critical sections of `eventTask` -/

/-- How a start ends. -/
def startResult (env : StartEnv) (d : Driver) : StartResult :=
  match (d.allocArray env.callocOk).2 with
  | .error => .noLayout
  | .success => if connectThrows env d (readNumChannels d) then .noConnect else .started

theorem idleSection_signals (t : Thread) (error : Bool) :
    (idleSection t error).drv.signals = t.drv.signals := by
  simp only [idleSection]
  split <;> rfl

theorem tailSection_signals (t : Thread) : (tailSection t).drv.signals = t.drv.signals := by
  have rates : ∀ (ds : List Nat) (t : Thread),
      (ds.foldl (fun t det => (t.setInt det .detEventRate 0).callParamCallbacks) t).drv.signals =
        t.drv.signals := by
    intro ds
    induction ds with
    | nil => intro t; rfl
    | cons det ds ih => intro t; exact ih _
  exact rates _ _

theorem completeStart_signals (t : Thread) (error : Bool) :
    (completeStart t error).drv.signals =
      if error then { t.drv.signals with adStatus := .error } else t.drv.signals := by
  cases error <;> rfl

theorem connect_signals (env : StartEnv) (t : Thread) (numChannels : Int32) :
    (connect env t numChannels).1.drv.signals =
      if connectThrows env t.drv numChannels then { t.drv.signals with adStatus := .error, stopFrame := true }
      else t.drv.signals := by
  simp only [connect, foldl_access_drv]
  split
  · simp only [Thread.modify_drv, Thread.setStatus_drv, Thread.setMessage_drv, foldl_access_drv]
    rfl
  · rw [foldl_access_drv]

theorem startOk_iff {env : StartEnv} {d : Driver} : StartOk env d ↔ startResult env d = .started := by
  unfold StartOk startResult
  cases (d.allocArray env.callocOk).2 <;> cases connectThrows env d (readNumChannels d) <;> simp

/-- What a start does to the signals. -/
theorem startSection_signals (env : StartEnv) (t : Thread) :
    (startSection env t).1.drv.signals = t.drv.signals.afterStart (startResult env t.drv) := by
  have relaid := Driver.allocArray_relaid env.callocOk t.drv
  simp only [startSection, Thread.access_drv]
  split
  · rename_i d failed
    rw [failed] at relaid
    simp only [startResult, failed, completeStart_signals, if_true]
    rw [← relaid.signals]
    rfl
  · rename_i d allocated
    rw [allocated] at relaid
    have begun : (beginAcquire (t.access.call fun _ => d)).drv.signals =
        t.drv.signals.afterStart .started := by
      rw [← relaid.signals]
      rfl
    simp only [completeStart_signals, connect_error, connect_signals, startResult, allocated,
      beginAcquire_connectThrows env relaid, begun]
    split <;> rfl

end EventTask

namespace Sys

/-! ## The simulation -/

/-- The part of the system that the skeleton keeps. -/
def control (s : Sys) : Control := ⟨s.drv.signals, s.event.pc, s.frame.pc⟩

/-- The step of the skeleton that a step of the system is. -/
def move (s : Sys) : Label → Move
  | .write addr p value callocOk => s.drv.writeMove callocOk addr p value
  | .packet _ => .quiet
  | .event env => .event (EventTask.startResult env s.drv)
  | .frame env => .frame (s.drv.int 0 .ndArrayCallbacks == 0 || env.allocOk || env.survives)

/-- A step of `eventTask` is one of the skeleton. -/
theorem stepEvent_control {env : StartEnv} {s : Sys} {r : Driver × EventTask}
    (h : s.event.step env s.drv = some r) :
    s.control.stepEvent (EventTask.startResult env s.drv) =
      some ⟨r.1.signals, r.2.pc, s.frame.pc⟩ := by
  simp only [EventTask.step] at h
  simp only [Control.stepEvent, control]
  cases hpc : s.event.pc <;> simp only [hpc] at h ⊢
  case idleSection =>
    cases h
    simp only [EventTask.goto, EventTask.idleSection_signals]
    rfl
  case startWait =>
    split at h
    · rename_i full
      cases h
      simp only [Driver.signals_startEvent, full, if_true]
      rfl
    · cases h
  case startSection =>
    cases h
    have error := EventTask.startSection_error env (s.event.thread s.drv)
    have same : (s.event.thread s.drv).drv = s.drv := rfl
    rw [EventTask.startOk_iff, same] at error
    simp only [EventTask.goto, EventTask.startSection_signals, same]
    by_cases ok : EventTask.startResult env s.drv = .started
    · simp [ok, error.2 ok]
    · have failed := eq_true_of_ne_false (mt error.1 ok)
      simp [ok, failed]
  case stopWait =>
    split at h
    · rename_i full
      cases h
      simp only [Driver.signals_stopEvent, full, if_true]
      rfl
    · rename_i empty
      cases h
      simp only [Driver.signals_stopEvent, empty]
      rfl
  case tail =>
    cases h
    simp only [EventTask.goto, EventTask.tailSection_signals]
    rfl
  all_goals
    cases h
    rfl

theorem frame_signals (env : FrameEnv) (f : FrameTask) (t : Thread) :
    (f.frame env t).1.signals = t.drv.signals := by
  simp only [FrameTask.frame]
  split_ifs <;> rfl

theorem frame_pc (env : FrameEnv) (f : FrameTask) (t : Thread) :
    (f.frame env t).2.pc =
      if t.drv.int 0 .ndArrayCallbacks == 0 || env.allocOk || env.survives then .acquireTop
      else .crashed := by
  simp only [FrameTask.frame, Thread.access_drv]
  split_ifs <;> simp_all [FrameTask.goto]

/-- A step of `frameTask` is one of the skeleton. -/
theorem stepFrame_control {env : FrameEnv} {s : Sys} {r : Driver × FrameTask}
    (h : s.frame.step env s.drv = some r) :
    s.control.stepFrame (s.drv.int 0 .ndArrayCallbacks == 0 || env.allocOk || env.survives) =
      some ⟨r.1.signals, s.event.pc, r.2.pc⟩ := by
  simp only [FrameTask.step] at h
  simp only [Control.stepFrame, control]
  cases hpc : s.frame.pc <;> simp only [hpc] at h ⊢
  case startWait =>
    split at h
    · rename_i full
      cases h
      simp only [Driver.signals_startFrame, full, if_true]
      rfl
    · cases h
  case frameSection got =>
    cases got
    · cases h
      rw [frame_signals, frame_pc]
      rfl
    · cases h
      rfl
  case crashed => cases h
  all_goals
    cases h
    rfl

/-- **Simulation.** Every step of the system is the step `move` of its skeleton. -/
theorem step_control {s s' : Sys} {l : Label} (holds : s.event.Holds) (h : s.step l = some s') :
    s.control.step (s.move l) = some s'.control := by
  cases l with
  | write addr p value callocOk =>
    obtain ⟨-, lockFree, rfl⟩ := step_write h
    have free : s.event.pc.locked = false := by
      have released : s.event.locks.hold = 0 := by simp_all [Sys.lockFree]
      rcases holds with hold | ⟨hpc, -⟩
      · rw [released] at hold
        revert hold
        cases s.event.pc <;> simp [EventTask.holdAt, EventPc.locked]
      · rw [hpc]
        rfl
    have accepted := Driver.writeMove_accepts callocOk s.drv addr p value
    have signals := Driver.applyInt32_signals callocOk s.drv addr p value
    simp only [move, control, signals]
    cases hm : s.drv.writeMove callocOk addr p value with
    | start =>
      rw [hm] at accepted
      obtain ⟨-, -, -, startable⟩ := accepted
      simp [Control.step, free, startable]
    | stop =>
      rw [hm] at accepted
      obtain ⟨-, -, -, acquire⟩ := accepted
      exact if_pos acquire
    | allocFails =>
      rw [hm] at accepted
      obtain ⟨-, -, idle⟩ := accepted
      exact if_pos idle
    | quiet => rfl
    | event _ => simp [hm, Driver.Accepts] at accepted
    | frame _ => simp [hm, Driver.Accepts] at accepted
  | packet p =>
    obtain ⟨-, r, hr, rfl⟩ := step_packet h
    have same := (Driver.eventHandler_handled hr).signals
    simp only [move, Control.step, control, same]
  | event env =>
    obtain ⟨r, hr, rfl⟩ := step_eventTask h
    exact stepEvent_control hr
  | frame env =>
    obtain ⟨r, hr, rfl⟩ := step_frameTask h
    exact stepFrame_control hr

/-- Only a step of `eventTask` itself changes its locals. -/
theorem step_event {s s' : Sys} {l : Label} (h : s.step l = some s') :
    s'.event = s.event ∨ ∃ env, s.event.step env s.drv = some (s'.drv, s'.event) := by
  cases l with
  | write addr p value callocOk =>
    obtain ⟨-, -, rfl⟩ := step_write h
    exact .inl rfl
  | packet p =>
    obtain ⟨-, r, -, rfl⟩ := step_packet h
    exact .inl rfl
  | event env =>
    obtain ⟨r, hr, rfl⟩ := step_eventTask h
    exact .inr ⟨env, hr⟩
  | frame env =>
    obtain ⟨r, -, rfl⟩ := step_frameTask h
    exact .inl rfl

theorem step_holds {s s' : Sys} {l : Label} (holds : s.event.Holds) (h : s.step l = some s') :
    s'.event.Holds := by
  rcases step_event h with same | ⟨env, hs⟩
  · rw [same]
    exact holds
  · exact EventTask.step_holds holds hs

theorem run_holds {u : Uninit} {ls : List Label} {s : Sys} (reached : (init u).run ls = some s) :
    s.event.Holds :=
  Runs.run_invariant (fun s => s.event.Holds) (fun _ _ _ => step_holds) reached (.inl rfl)

/-- An invariant of the skeleton holds in every state the system reaches by steps that meet
the condition it needs. -/
theorem run_control (Inv : Control → Prop) {ok : Sys → Label → Prop}
    (keep : ∀ s l c', Inv s.control → ok s l → s.control.step (s.move l) = some c' → Inv c')
    {u : Uninit} {ls : List Label} {s : Sys} (reached : (init u).run ls = some s)
    (meets : Runs.Meets step ok (init u) ls) (start : Inv (init u).control) : Inv s.control := by
  have both : s.event.Holds ∧ Inv s.control := by
    refine Runs.run_invariant_of_meets (fun s => s.event.Holds ∧ Inv s.control) ?_ reached meets
      ⟨.inl rfl, start⟩
    intro s l s' ⟨holds, inv⟩ hok h
    exact ⟨step_holds holds h, keep s l _ inv hok (step_control holds h)⟩
  exact both.2

end Sys

end ADnED
