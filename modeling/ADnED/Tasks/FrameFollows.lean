import ADnED.Tasks.StartStop

/-!
# `frameTask` follows the acquisition

`eventTask` tells `frameTask` about the start and the end of an acquisition through two
binary events. Which of the two was signalled last is lost, and `frameTask` empties the
stop event once more before it waits for a start. `frame_follows` shows that this works
as long as no signal is lost: a start is signalled only into an empty `m_startFrame`, and
a stop only into an empty `m_stopFrame` that `frameTask` is not about to drain.
-/

namespace ADnED

/-- The stretches of `frameTask`. -/
inductive FrameSide where
  /-- On the way to the wait that drains `m_stopFrame`. -/
  | beforeDrain
  /-- Past the drain, on the way to the wait for a start. -/
  | beforeStart
  | inLoop
  | crashed
  deriving DecidableEq, Repr

/-- Where `frameTask` is. It leaves the acquire loop when the wait returns with the event. -/
def FramePc.side : FramePc → FrameSide
  | .entry | .top | .drainWait | .frameLock true | .frameSection true => .beforeDrain
  | .drainLock | .idleSection | .startWait => .beforeStart
  | .startLock | .startSection | .acquireTop | .frameWait | .frameLock false | .frameSection false =>
    .inLoop
  | .crashed => .crashed

/-- What the two events say about `frameTask`, in and outside an acquisition. -/
def FrameSide.Follows (side : FrameSide) (acquiring startFrame stopFrame : Bool) : Prop :=
  match acquiring, startFrame, stopFrame with
  | true, true, false => side = .beforeDrain ∨ side = .beforeStart
  | true, false, false => side = .inLoop
  | true, true, true => side = .inLoop
  | true, false, true => False
  | false, false, false => side = .beforeDrain ∨ side = .beforeStart
  | false, true, true => side = .beforeStart
  | false, false, true => side = .inLoop
  | false, true, false => False

/-- A start that is signalled into an empty event. -/
theorem FrameSide.Follows.start {side : FrameSide} {stopFrame : Bool}
    (h : side.Follows false false stopFrame) : side.Follows true true stopFrame := by
  cases stopFrame <;> exact h

/-- A stop that is signalled into an empty event which is not about to be drained. -/
theorem FrameSide.Follows.stop {side : FrameSide} {startFrame : Bool}
    (h : side.Follows true startFrame false) (kept : side ≠ .beforeDrain) :
    side.Follows false startFrame true := by
  cases startFrame with
  | true => exact h.resolve_left kept
  | false => exact h

namespace Control

/-- `frameTask` follows the acquisition, or is gone. -/
def FrameFollows (c : Control) : Prop :=
  c.frame.side = .crashed ∨
    c.frame.side.Follows (c.sig.adStatus == .acquire) c.sig.startFrame c.sig.stopFrame

/-- The step loses no signal to `frameTask`. -/
def SignalsArrive (c : Control) (m : Move) : Prop :=
  ∀ result, m = .event result →
    (c.event = .startSection → result ≠ .noLayout → c.sig.startFrame = false) ∧
    (c.event = .stopSection ∨ c.event = .startSection ∧ result = .noConnect →
      c.sig.stopFrame = false ∧ c.frame.side ≠ .beforeDrain)

/-- `frameTask` itself follows. -/
theorem stepFrame_follows {c c' : Control} {alive : Bool} (follows : c.FrameFollows)
    (h : c.stepFrame alive = some c') : c'.FrameFollows := by
  unfold FrameFollows at follows ⊢
  simp only [stepFrame] at h
  split at h <;> rename_i hpc
  case h_3 | h_10 =>
    -- an empty stop event: the wait has only timed out
    cases h
    cases hT : c.sig.stopFrame <;> cases hS : c.sig.startFrame <;>
      cases hA : (c.sig.adStatus == .acquire) <;> simp_all [FramePc.side, FrameSide.Follows]
  case h_6 =>
    split at h <;> cases h
    rename_i full
    cases hT : c.sig.stopFrame <;> cases hA : (c.sig.adStatus == .acquire) <;>
      simp_all [FramePc.side, FrameSide.Follows]
  case h_11 got => cases h; cases got <;> simp_all [FramePc.side]
  case h_13 =>
    cases h
    cases alive <;> simp_all [FramePc.side]
  case h_14 => cases h
  all_goals
    cases h
    simp_all [FramePc.side]

/-- `eventTask` keeps `frameTask` informed. -/
theorem stepEvent_follows {c c' : Control} {result : StartResult} (phased : c.Phased)
    (follows : c.FrameFollows) (arrive : c.SignalsArrive (.event result))
    (h : c.stepEvent result = some c') : c'.FrameFollows := by
  obtain ⟨startArrives, stopArrives⟩ := arrive result rfl
  have acquiring := phased.acquiring
  unfold FrameFollows at follows ⊢
  simp only [stepEvent] at h
  split at h <;> rename_i hpc <;> simp only [hpc, EventPc.acquiring] at acquiring startArrives stopArrives
  case h_4 => split at h <;> cases h; exact follows
  case h_6 =>
    cases h
    have idle : (c.sig.adStatus == .acquire) = false := by simpa using acquiring
    rw [idle] at follows
    refine follows.imp_right fun follows => ?_
    cases result with
    | started =>
      rw [startArrives trivial (by simp)] at follows
      exact follows.start
    | noLayout => exact follows
    | noConnect =>
      obtain ⟨empty, kept⟩ := stopArrives (.inr ⟨trivial, rfl⟩)
      rw [startArrives trivial (by simp), empty] at follows
      exact follows.start.stop kept
  case h_7 => split at h <;> cases h <;> exact follows
  case h_9 =>
    cases h
    have acquire : (c.sig.adStatus == .acquire) = true := by simpa using acquiring
    obtain ⟨empty, kept⟩ := stopArrives (.inl trivial)
    rw [acquire, empty] at follows
    exact follows.imp_right fun follows => follows.stop kept
  all_goals
    cases h
    exact follows

/-- Every step that loses no signal keeps `frameTask` on the acquisition. -/
theorem step_follows {c c' : Control} {m : Move} (phased : c.Phased) (follows : c.FrameFollows)
    (arrive : c.SignalsArrive m) (h : c.step m = some c') : c'.FrameFollows := by
  cases m with
  | start =>
    simp only [step] at h
    split at h <;> cases h
    exact follows
  | stop =>
    simp only [step] at h
    split at h <;> cases h
    exact follows
  | allocFails =>
    simp only [step] at h
    split at h <;> cases h
    rename_i idle
    have before : (c.sig.adStatus == .acquire) = false := by simpa using idle
    unfold FrameFollows at follows ⊢
    rw [before] at follows
    exact follows
  | quiet =>
    cases h
    exact follows
  | event result => exact stepEvent_follows phased follows arrive h
  | frame alive => exact stepFrame_follows follows h

end Control

namespace Sys

/-- If the step signals `m_startFrame`, that is empty; if it signals `m_stopFrame`, that is
empty and `frameTask` is not about to drain it. -/
def SignalsArrive (s : Sys) (l : Label) : Prop := s.control.SignalsArrive (s.move l)

theorem run_follows {u : Uninit} {ls : List Label} {s : Sys} (reached : (init u).run ls = some s)
    (meets : Runs.Meets step SignalsArrive (init u) ls) : s.control.FrameFollows := by
  have both : s.control.Phased ∧ s.control.FrameFollows := by
    refine run_control (fun c => c.Phased ∧ c.FrameFollows) ?_ reached meets
      ⟨Control.phased_init u, .inr (.inl rfl)⟩
    intro s l c' ⟨phased, follows⟩ arrive h
    exact ⟨Control.step_phased phased h, Control.step_follows phased follows arrive h⟩
  exact both.2

/-- **The frame thread follows the acquisition.** If no signal has been lost, then whenever
both events are empty and `frameTask` waits, it waits in its acquire loop exactly if
`ADStatus` is Acquire. -/
theorem frame_follows {u : Uninit} {ls : List Label} {s : Sys} (reached : (init u).run ls = some s)
    (meets : Runs.Meets step SignalsArrive (init u) ls)
    (settled : s.drv.startFrame = false ∧ s.drv.stopFrame = false)
    (waits : s.frame.pc = .startWait ∨ s.frame.pc = .frameWait) :
    s.frame.pc = .frameWait ↔ s.drv.adStatus = .acquire := by
  have follows := run_follows reached meets
  simp only [Control.FrameFollows, control, Driver.signals_adStatus, Driver.signals_startFrame,
    Driver.signals_stopFrame, settled] at follows
  cases acquire : (s.drv.adStatus == .acquire) with
  | true =>
    have acquire : s.drv.adStatus = .acquire := by simpa using acquire
    rcases waits with hpc | hpc
    · simp [hpc, acquire, FramePc.side, FrameSide.Follows] at follows
    · simp [hpc, acquire]
  | false =>
    rw [acquire] at follows
    have idle : s.drv.adStatus ≠ .acquire := by simpa using acquire
    rcases waits with hpc | hpc
    · simp [hpc, idle]
    · simp [hpc, FramePc.side, FrameSide.Follows] at follows

/-- Both events are empty, and `frameTask` is not about to drain, whenever `eventTask` may
signal. -/
def arriveCheck (s : Sys) (_ : Label) : Bool :=
  s.event.pc != .startSection && s.event.pc != .stopSection ||
    !s.drv.startFrame && !s.drv.stopFrame && s.frame.pc.side != .beforeDrain

theorem signalsArrive_of_check (s : Sys) (l : Label) (h : s.arriveCheck l = true) : s.SignalsArrive l := by
  intro result _
  rcases Bool.or_eq_true_iff.1 h with other | empty
  · have other : s.event.pc ≠ .startSection ∧ s.event.pc ≠ .stopSection := by simpa using other
    exact ⟨fun hpc => absurd hpc other.1,
      fun hpc => hpc.elim (absurd · other.2) fun hpc => absurd hpc.1 other.1⟩
  · have empty : (s.drv.startFrame = false ∧ s.drv.stopFrame = false) ∧
        s.frame.pc.side ≠ .beforeDrain := by simpa using empty
    exact ⟨fun _ _ => empty.1.1, fun _ => ⟨empty.1.2, empty.2⟩⟩

/-- A step of `frameTask` in which nothing fails. -/
def frameStep : Label := .frame ⟨true, true⟩

/-- An acquisition that is seen by a `frameTask` which waits for it. -/
def seenStart : List Label :=
  configured ++ List.replicate 5 frameStep ++ [startWrite, eventStep, eventStep, eventStep] ++
    List.replicate 4 frameStep

/-- `frameTask` is in its acquire loop then. -/
theorem frame_follows_seenStart :
    ∃ s, (init .blank).run seenStart = some s ∧ s.event.pc = .stopWait ∧
      s.drv.adStatus = .acquire ∧ s.frame.pc = .frameWait := by
  obtain ⟨s, reached⟩ : ∃ s, (init .blank).run seenStart = some s := ⟨_, rfl⟩
  have there : s.event.pc = .stopWait ∧ s.drv.adStatus = .acquire := by
    cases reached
    exact ⟨rfl, rfl⟩
  have settled : s.drv.startFrame = false ∧ s.drv.stopFrame = false := by
    cases reached
    exact ⟨rfl, rfl⟩
  have waits : s.frame.pc = .startWait ∨ s.frame.pc = .frameWait := by
    cases reached
    exact .inr rfl
  have meets : Runs.Meets step SignalsArrive (init .blank) seenStart :=
    Runs.meets_of_checks signalsArrive_of_check rfl
  exact ⟨s, reached, there.1, there.2, (frame_follows reached meets settled waits).2 there.2⟩

/-- A start that fails to connect while `frameTask` stands before its drain, and then
everything that either task can do. -/
def drainedStop : List Label :=
  configured ++ [.write 0 .numChannels 1 true, frameStep, frameStep, startWrite, eventStep, eventStep,
      .event ⟨true, fun _ => false⟩] ++
    List.replicate 4 eventStep ++ List.replicate 7 frameStep

/-- Everybody waits, and `frameTask` does so in an acquisition that failed to start. -/
theorem frame_follows_nothing :
    ∃ s, (init .blank).run drainedStop = some s ∧ s.event.pc = .startWait ∧
      s.drv.startFrame = false ∧ s.drv.stopFrame = false ∧ s.frame.pc = .frameWait ∧
      s.drv.adStatus = .error :=
  ⟨_, rfl, rfl, rfl, rfl, rfl, rfl⟩

end Sys

end ADnED
