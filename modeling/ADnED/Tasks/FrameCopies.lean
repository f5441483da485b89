import ADnED.Driver.Buffer
import ADnED.Tasks.TaskFrame
import ADnED.Tasks.FrameFollows

/-!
# What `frameTask` copies

A frame is a `memcpy` of `m_bufferMaxSize` cells from `p_Data`. `allocArray` may take the
block away while `frameTask` is still in its acquire loop, since the loop ends some time
after the acquisition. `frame_copies_whole` shows that a copy always finds its block if
`allocArray` only ever loses it when `frameTask` has no frame left to copy (`settled`);
`frame_copies_null` is a run in which it does.
-/

namespace ADnED

namespace Control

/-- `frameTask` copies no frame before the next start: it is outside its loop and no start is
signalled to it, or a stop is waiting that it finds before it copies. -/
def settled (c : Control) : Bool :=
  match c.frame.side with
  | .beforeDrain => !c.sig.startFrame
  | .beforeStart => !c.sig.startFrame || c.sig.stopFrame
  | .inLoop => c.frame != .frameLock false && c.frame != .frameSection false && !c.sig.startFrame && c.sig.stopFrame
  | .crashed => true

theorem stepFrame_settled {c c' : Control} {alive : Bool} (settled : c.settled = true)
    (h : c.stepFrame alive = some c') : c'.settled = true := by
  unfold Control.settled at settled ⊢
  simp only [stepFrame] at h
  split at h <;> rename_i hpc
  case h_6 =>
    split at h <;> cases h
    simp_all [FramePc.side]
  case h_11 got => cases h; cases got <;> simp_all [FramePc.side]
  case h_14 => cases h
  all_goals
    cases h
    simp_all [FramePc.side]

/-- The stop event only gets fuller, unless `frameTask` itself empties it. -/
theorem settled_congr {c c' : Control} (settled : c.settled = true) (frame : c'.frame = c.frame)
    (start : c'.sig.startFrame = c.sig.startFrame) (stop : c.sig.stopFrame = true → c'.sig.stopFrame = true) :
    c'.settled = true := by
  unfold Control.settled at settled ⊢
  rw [frame, start]
  split at settled <;> simp_all
  exact settled.imp_right stop

/-- Only a start with a layout ends it. -/
theorem step_settled {c c' : Control} {m : Move} (settled : c.settled = true)
    (noStart : ∀ result, m = .event result → c.event = .startSection → result = .noLayout)
    (h : c.step m = some c') : c'.settled = true := by
  cases m with
  | start =>
    simp only [step] at h
    split at h <;> cases h
    exact settled_congr settled rfl rfl id
  | stop =>
    simp only [step] at h
    split at h <;> cases h
    exact settled_congr settled rfl rfl id
  | allocFails =>
    simp only [step] at h
    split at h <;> cases h
    exact settled_congr settled rfl rfl id
  | quiet =>
    cases h
    exact settled
  | event result =>
    simp only [step, stepEvent] at h
    cases hpc : c.event <;> simp only [hpc] at h
    case startSection =>
      cases noStart result rfl hpc
      cases h
      exact settled_congr settled rfl rfl id
    case startWait | stopWait =>
      split at h <;> cases h <;> exact settled_congr settled rfl rfl id
    case stopSection =>
      cases h
      exact settled_congr settled rfl rfl fun _ => rfl
    all_goals
      cases h
      exact settled_congr settled rfl rfl id
  | frame alive => exact stepFrame_settled settled h

end Control

namespace Sys

variable {s s' : Sys} {l : Label}

/-! ## The block over a step -/

/-- The step runs `allocArray`, with this outcome of `calloc`. -/
def allocates (s : Sys) : Label → Option Bool
  | .write addr .allocSpace _ callocOk =>
    if addr ≤ maxDets ∧ s.drv.adStatus ≠ .acquire then some callocOk else none
  | .event env => if s.event.pc = .startSection then some env.callocOk else none
  | _ => none

theorem step_allocates {callocOk : Bool} (allocates : s.allocates l = some callocOk) (h : s.step l = some s') :
    SameLayout (s.drv.allocArray callocOk).1 s'.drv := by
  unfold Sys.allocates at allocates
  split at allocates
  · obtain ⟨-, -, rfl⟩ := step_write h
    split at allocates <;> cases allocates
    rename_i accepted
    exact Driver.allocSpace_layout callocOk _ accepted.1 accepted.2
  · rename_i env
    split at allocates <;> cases allocates
    rename_i hpc
    obtain ⟨r, hr, rfl⟩ := step_eventTask h
    rcases EventTask.step_tasked hr with ⟨elsewhere, -⟩ | ⟨-, start⟩
    · exact absurd hpc elsewhere
    · show SameLayout _ r.1
      rw [start]
      exact (EventTask.startSection_tasked env (s.event.thread s.drv)).1.sameLayout
  · cases allocates

theorem step_reconfigures (other : s.allocates l = none) (h : s.step l = some s') :
    Reconfigured s.drv s'.drv := by
  cases l with
  | write addr p value callocOk =>
    obtain ⟨writable, -, rfl⟩ := step_write h
    refine Driver.applyInt32_reconfigured callocOk s.drv value writable ?_
    rintro ⟨rfl, accepted⟩
    simp [allocates, accepted] at other
  | packet p =>
    obtain ⟨-, r, hr, rfl⟩ := step_packet h
    exact (SameLayout.of_handled (Driver.eventHandler_handled hr)).reconfigured
  | event env =>
    obtain ⟨r, hr, rfl⟩ := step_eventTask h
    rcases EventTask.step_tasked hr with ⟨-, tasked, -⟩ | ⟨hpc, -⟩
    · exact tasked.sameLayout.reconfigured
    · simp [allocates, hpc] at other
  | frame env =>
    obtain ⟨r, hr, rfl⟩ := step_frameTask h
    exact (FrameTask.step_tasked hr).1.sameLayout.reconfigured

theorem step_buffered (buffered : s.drv.Buffered) (h : s.step l = some s') : s'.drv.Buffered := by
  cases allocates : s.allocates l with
  | none => exact buffered.of_reconfigured (step_reconfigures allocates h)
  | some callocOk =>
    have same := step_allocates allocates h
    exact (Driver.allocArray_buffered callocOk buffered).of_reconfigured same.reconfigured

/-! ## The block and `frameTask` -/

theorem move_event {result : StartResult} (h : s.move l = .event result) :
    ∃ env, l = .event env ∧ result = EventTask.startResult env s.drv := by
  cases l with
  | write addr p value callocOk =>
    have accepted := Driver.writeMove_accepts callocOk s.drv addr p value
    rw [show s.drv.writeMove callocOk addr p value = .event result from h] at accepted
    exact accepted.elim
  | packet p => cases h
  | event env =>
    cases h
    exact ⟨env, rfl, rfl⟩
  | frame env => cases h

/-- Whenever the step loses the block, `frameTask` has no frame left to copy. -/
def LosesSettled (s : Sys) (l : Label) : Prop :=
  ∀ callocOk, s.allocates l = some callocOk → s.drv.LosesBuffer callocOk → s.control.settled = true

/-- Without a block there is no frame left to copy. -/
theorem step_settles (holds : s.event.Holds) (buffered : s.drv.Buffered) (loses : s.LosesSettled l)
    (settled : s.drv.pData = none → s.control.settled = true) (h : s.step l = some s')
    (gone : s'.drv.pData = none) : s'.control.settled = true := by
  have control := step_control holds h
  cases allocates : s.allocates l with
  | none =>
    have size := (step_reconfigures allocates h).size
    rw [gone] at size
    refine Control.step_settled (settled (Option.map_eq_none_iff.1 size.symm)) ?_ control
    intro result move start
    obtain ⟨env, rfl, -⟩ := move_event move
    simp [Sys.allocates, show s.event.pc = .startSection from start] at allocates
  | some callocOk =>
    have size := (step_allocates allocates h).size
    rw [gone] at size
    have gone : (s.drv.allocArray callocOk).1.pData = none := Option.map_eq_none_iff.1 size.symm
    -- no block is left, so `allocArray` has failed and a start ends with an error
    obtain ⟨before, failed⟩ : s.control.settled = true ∧ (s.drv.allocArray callocOk).2 = .error := by
      have outcome := Driver.allocArray_reallocated callocOk s.drv
      generalize s.drv.allocArray callocOk = r at outcome gone ⊢
      cases outcome with
      | down flag => exact absurd gone (buffered.held flag)
      | replaced due layable calloc => simp [Driver.layOut, Driver.published] at gone
      | refused due flag data size range => exact ⟨settled (data.symm.trans gone), rfl⟩
      | lost lost flag data => exact ⟨loses callocOk allocates lost, rfl⟩
    refine Control.step_settled before ?_ control
    intro result move start
    obtain ⟨env, rfl, rfl⟩ := move_event move
    have start : s.event.pc = .startSection := start
    simp only [Sys.allocates, start, if_true, Option.some.injEq] at allocates
    simp [EventTask.startResult, allocates, failed]

end Sys

namespace FrameTask

/-- A block that is there is copied as a whole. -/
theorem copyOk_of_buffered {d : Driver} (buffered : d.Buffered) (held : d.pData ≠ none) : copyOk d = true := by
  obtain ⟨b, data⟩ := Option.ne_none_iff_exists'.1 held
  simp [copyOk, data, buffered.size b data]

/-- The only step that copies. -/
theorem step_copied {env : FrameEnv} {d : Driver} {f : FrameTask} {r : Driver × FrameTask}
    (hs : f.step env d = some r) :
    (r.2.copies = f.copies ∧ r.2.badCopy = f.badCopy) ∨
      (f.pc = .frameSection false ∧ d.int 0 .ndArrayCallbacks ≠ 0 ∧ env.allocOk = true) ∧
        r.2.copies = f.copies + 1 ∧ r.2.badCopy = (f.badCopy || !copyOk d) := by
  simp only [step] at hs
  cases hpc : f.pc <;> simp only [hpc] at hs
  case startWait =>
    split at hs <;> cases hs
    exact .inl ⟨rfl, rfl⟩
  case frameSection got =>
    cases got
    · cases hs
      simp only [frame]
      split_ifs with callbacks allocated
      · exact .inr ⟨⟨trivial, callbacks, allocated⟩, rfl, rfl⟩
      all_goals exact .inl ⟨rfl, rfl⟩
    · cases hs
      exact .inl ⟨rfl, rfl⟩
  case crashed => cases hs
  all_goals
    cases hs
    exact .inl ⟨rfl, rfl⟩

end FrameTask

namespace Sys

variable {s s' : Sys} {l : Label}

/-- What the run keeps: the members describe the block, `frameTask` copies nothing while there
is none, and it has not copied anything but the whole block so far. -/
structure Whole (s : Sys) : Prop where
  holds : s.event.Holds
  buffered : s.drv.Buffered
  settled : s.drv.pData = none → s.control.settled = true
  good : s.frame.badCopy = false

/-- `frameTask` finds a block when it is about to copy. -/
theorem Whole.held (h : s.Whole) (copies : s.frame.pc = .frameSection false) : s.drv.pData ≠ none := by
  intro gone
  have settled := h.settled gone
  simp [Control.settled, control, copies, FramePc.side] at settled

theorem step_whole (h : s.Whole) (loses : s.LosesSettled l) (hs : s.step l = some s') : s'.Whole where
  holds := step_holds h.holds hs
  buffered := step_buffered h.buffered hs
  settled := step_settles h.holds h.buffered loses h.settled hs
  good := by
    cases l with
    | write addr p value callocOk =>
      obtain ⟨-, -, rfl⟩ := step_write hs
      exact h.good
    | packet p =>
      obtain ⟨-, r, -, rfl⟩ := step_packet hs
      exact h.good
    | event env =>
      obtain ⟨r, -, rfl⟩ := step_eventTask hs
      exact h.good
    | frame env =>
      obtain ⟨r, hr, rfl⟩ := step_frameTask hs
      rcases FrameTask.step_copied hr with ⟨-, same⟩ | ⟨⟨copies, -⟩, -, copied⟩
      · exact same.trans h.good
      · have whole := FrameTask.copyOk_of_buffered h.buffered (h.held copies)
        simpa [whole, h.good] using copied

theorem buffered_init (u : Uninit) : (init u).drv.Buffered where
  size := fun b data => by cases data
  held := fun down => by cases down
  cells := fun down => by cases down
  tofMax := fun down => by cases down

/-- **A frame is a copy of the whole block.** If `allocArray` loses the block only when
`frameTask` has no frame left to copy, then every frame `frameTask` has copied was the whole
block, and whenever it is about to copy there is a block of exactly `m_bufferMaxSize` cells. -/
theorem frame_copies_whole {u : Uninit} {ls : List Label} {s : Sys} (reached : (init u).run ls = some s)
    (meets : Runs.Meets step LosesSettled (init u) ls) :
    s.frame.badCopy = false ∧ (s.frame.pc = .frameSection false →
      ∃ b, s.drv.pData = some b ∧ b.length = s.drv.bufferMaxSize.toNat) := by
  have whole : s.Whole := Runs.run_invariant_of_meets Whole (fun _ _ _ => step_whole) reached meets
    ⟨.inl rfl, buffered_init u, fun _ => rfl, rfl⟩
  refine ⟨whole.good, fun copies => ?_⟩
  obtain ⟨b, data⟩ := Option.ne_none_iff_exists'.1 (whole.held copies)
  exact ⟨b, data, whole.buffered.size b data⟩

/-- The condition, evaluated. -/
def settledCheck (s : Sys) (l : Label) : Bool :=
  (s.allocates l).all fun callocOk => !decide (s.drv.LosesBuffer callocOk) || s.control.settled

theorem losesSettled_of_check (s : Sys) (l : Label) (h : s.settledCheck l = true) : s.LosesSettled l := by
  intro callocOk allocates loses
  simpa [settledCheck, allocates, loses] using h

/-- An acquisition with one frame. -/
def oneFrame : List Label := seenStart ++ List.replicate 3 frameStep

/-- The frame is the whole block. -/
theorem frame_copies_whole_oneFrame :
    ∃ s, (init .blank).run oneFrame = some s ∧ s.frame.copies = 1 ∧ s.frame.badCopy = false := by
  obtain ⟨s, reached⟩ : ∃ s, (init .blank).run oneFrame = some s := ⟨_, rfl⟩
  have one : s.frame.copies = 1 := by
    cases reached
    rfl
  have meets : Runs.Meets step LosesSettled (init .blank) oneFrame :=
    Runs.meets_of_checks losesSettled_of_check rfl
  exact ⟨s, reached, one, (frame_copies_whole reached meets).1⟩

/-- The wait of `frameTask` times out just before a Stop; a new size is written and its
`AllocSpace` fails; then `frameTask` gets the mutex. -/
def lostBlock : List Label :=
  seenStart ++ [frameStep, stopWrite] ++ List.replicate 4 eventStep ++
    [.write 1 .pixelNumSize 3 true, .write 0 .allocSpace 1 false, frameStep]

/-- The next frame is copied from NULL. -/
theorem frame_copies_null :
    ∃ s s', (init .blank).run lostBlock = some s ∧ s.step frameStep = some s' ∧
      s.frame.pc = .frameSection false ∧ s.drv.pData = none ∧ s.drv.bufferMaxSize ≠ 0 ∧
      s'.frame.copies = 1 ∧ s'.frame.badCopy = true :=
  ⟨_, _, rfl, rfl, rfl, rfl, by decide, rfl, rfl⟩

end Sys

end ADnED
