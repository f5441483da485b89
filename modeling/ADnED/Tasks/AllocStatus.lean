import ADnED.Tasks.LayoutRuns

/-!
# What `AllocSpaceStatus` says

The record tells the operator whether the layout has to be allocated again. The driver sets
it beside `m_dataAlloc`, in several branches of `writeInt32` and `allocArray`
(`ADnED.cpp:520`, `592-595`, `1363`, `1402-1421`). The constructor shows OK although nothing
is allocated yet, and an allocation without detectors fails without a word. Over whole runs
the two agree all the same from the first stored write on, and OK means a block of the right
size and a fresh layout (`allocSpaceStatus_tells`).
-/

namespace ADnED

namespace Driver

variable {d d' : Driver}

/-- The status is OK if no layout is due. -/
def StatusUp (d : Driver) : Prop := d.dataAlloc = false → d.allocSpaceStatus = .ok

/-- No layout is due if the status is OK. -/
def StatusTrue (d : Driver) : Prop := d.allocSpaceStatus = .ok → d.dataAlloc = false

theorem StatusUp.congr (h : d.StatusUp) (due : d'.dataAlloc = d.dataAlloc)
    (status : d'.allocSpaceStatus = d.allocSpaceStatus) : d'.StatusUp := by
  intro down
  rw [status]
  exact h (due.symm.trans down)

theorem StatusTrue.congr (h : d.StatusTrue) (due : d'.dataAlloc = d.dataAlloc)
    (status : d'.allocSpaceStatus = d.allocSpaceStatus) : d'.StatusTrue := by
  intro ok
  rw [due]
  exact h (status.symm.trans ok)

/-! ## The allocation -/

/-- An allocation that goes through leaves nothing due. -/
theorem allocArray_down {callocOk : Bool} (up : d.StatusUp) (success : (d.allocArray callocOk).2 = .success) :
    (d.allocArray callocOk).1.dataAlloc = false ∧ (d.allocArray callocOk).1.allocSpaceStatus = .ok := by
  cases due : d.dataAlloc with
  | false =>
    rw [allocArray, if_pos due]
    exact ⟨due, up due⟩
  | true =>
    rcases allocArray_cases callocOk due with ⟨-, computed⟩ | ⟨failed, -⟩
    · rw [computed]
      exact ⟨rfl, rfl⟩
    · rw [failed] at success
      cases success

theorem allocPixels_failed {ds : List Nat} (failed : (allocPixels ds d).2 = .error) :
    (allocPixels ds d).1.allocSpaceStatus = .fail := by
  induction ds generalizing d with
  | nil => cases failed
  | cons det ds ih =>
    simp only [allocPixels] at failed ⊢
    split at failed
    · rename_i ordered
      rw [if_pos ordered]
      exact ih failed
    · rename_i reversed
      rw [if_neg reversed]

/-- An allocation that fails says so, unless there are no detectors. -/
theorem allocArray_failed {callocOk : Bool} (failed : (d.allocArray callocOk).2 = .error) :
    (d.allocArray callocOk).1.allocSpaceStatus = .fail ∨
      (d.allocArray callocOk).1.allocSpaceStatus = d.allocSpaceStatus := by
  simp only [allocArray] at failed ⊢
  by_cases down : d.dataAlloc = false
  · rw [if_pos down] at failed
    cases failed
  rw [if_neg down] at failed ⊢
  by_cases none : d.int 0 .numDet = 0
  · rw [if_pos none]
    exact .inr rfl
  rw [if_neg none] at failed ⊢
  left
  cases pixels : allocPixels (dets (d.int 0 .numDet))
      { d with tofMax := (d.int 0 .tofMax).toUInt32, dataMaxSize := 0 } with
  | mk e outcome =>
    simp only [pixels] at failed ⊢
    cases outcome with
    | error =>
      have said := allocPixels_failed (by rw [pixels])
      rw [pixels] at said
      exact said
    | success =>
      simp only [allocFinish] at failed ⊢
      split at failed
      · cases failed
      · rename_i lost
        rw [lost]

/-! ## Record writes -/

/-- The end of every write that is stored. -/
theorem storeInt_status (up : d.StatusUp) (addr : Nat) (p : IntParam) (v : Int32) :
    (d.storeInt addr p v).StatusUp ∧ (d.storeInt addr p v).StatusTrue := by
  rw [storeInt_eq]
  unfold StatusUp StatusTrue
  cases due : d.dataAlloc with
  | true => simp
  | false => simp [up due]

/-- How a write ends: it is stored after something that leaves the flag and the status alone,
or raises the flag, or allocates; or it is refused, or the allocation fails. -/
inductive Settled (callocOk : Bool) (d : Driver) (addr : Nat) : Driver × AsynStatus → Prop where
  | stored {e : Driver} (p : IntParam) (v : Int32) (due : e.dataAlloc = d.dataAlloc)
      (status : e.allocSpaceStatus = d.allocSpaceStatus) : Settled callocOk d addr (e.storeInt addr p v, .success)
  | due (p : IntParam) (v : Int32) :
      Settled callocOk d addr (storeInt { d with dataAlloc := true } addr p v, .success)
  | allocated {e : Driver} (p : IntParam) (v : Int32) (success : d.allocArray callocOk = (e, .success)) :
      Settled callocOk d addr (e.storeInt addr p v, .success)
  | refused {e : Driver} (due : e.dataAlloc = d.dataAlloc) (status : e.allocSpaceStatus = d.allocSpaceStatus) :
      Settled callocOk d addr (e, .error)
  | failed {e : Driver} (error : d.allocArray callocOk = (e, .error)) :
      Settled callocOk d addr (e.allocSpaceFailed, .error)

theorem writeLayout_settled (callocOk : Bool) (d : Driver) (addr : Nat) (p : IntParam) (value : Int32) :
    Settled callocOk d addr (d.writeLayout addr p value) := by
  unfold writeLayout
  split
  · exact .due p value
  · exact .refused rfl rfl

theorem writeBounded_settled (callocOk : Bool) (d : Driver) (addr : Nat) (p : IntParam) (value : Int32) (max : Nat) :
    Settled callocOk d addr (d.writeBounded addr p value max) := by
  unfold writeBounded
  split
  · split
    · exact .refused rfl rfl
    · exact .stored p value rfl rfl
  · exact .refused rfl rfl

theorem resetTOFArray_settled (callocOk : Bool) (d : Driver) (addr : Nat) (p : IntParam) (value : Int32) :
    Settled callocOk d addr ((d.resetTOFArray addr).storeInt addr p value, .success) := by
  unfold resetTOFArray
  split <;> exact .stored p value rfl rfl

/-- **Record writes.** Every write ends in one of these ways. -/
theorem applyInt32_settled (callocOk : Bool) (d : Driver) (addr : Nat) (p : IntParam) (value : Int32) :
    Settled callocOk d addr (d.applyInt32 callocOk addr p value) := by
  unfold applyInt32
  by_cases outside : maxDets < addr
  · rw [if_pos outside]
    exact .refused rfl rfl
  rw [if_neg outside]
  cases p <;> simp only
  case allocSpace =>
    split
    · split
      · rename_i e success
        exact .allocated _ value success
      · rename_i e error
        exact .failed error
    · exact .refused rfl rfl
  case pixelNumStart | pixelNumEnd | pixelNumSize | tofMax => exact writeLayout_settled callocOk d addr _ value
  case numDet | numChannels => exact writeBounded_settled callocOk d addr _ value _
  case start | stop =>
    split
    · split
      · exact .stored _ value rfl rfl
      · exact .refused rfl rfl
    · exact .stored _ value rfl rfl
  case tofArrayReset => exact resetTOFArray_settled callocOk d addr _ value
  case pixelROIEnable | tofROIEnable => split <;> exact .stored _ value rfl rfl
  all_goals exact .stored _ _ rfl rfl

namespace Settled

variable {callocOk : Bool} {addr : Nat} {r : Driver × AsynStatus}

theorem up (h : Settled callocOk d addr r) (up : d.StatusUp) : r.1.StatusUp := by
  cases h with
  | stored p v due status => exact (storeInt_status (up.congr due status) addr p v).1
  | due p v => exact (storeInt_status (by intro down; cases down) addr p v).1
  | allocated p v success =>
    have down := allocArray_down up (by rw [success])
    rw [success] at down
    exact (storeInt_status (fun _ => down.2) addr p v).1
  | refused due status => exact up.congr due status
  | failed error =>
    have due := allocArray_due callocOk (by rw [error])
    rw [error] at due
    intro down
    cases due.symm.trans down

/-- A write that is stored corrects the status. -/
theorem corrects (h : Settled callocOk d addr r) (up : d.StatusUp) (through : r.2 = .success) : r.1.StatusTrue := by
  cases h with
  | stored p v due status => exact (storeInt_status (up.congr due status) addr p v).2
  | due p v => exact (storeInt_status (by intro down; cases down) addr p v).2
  | allocated p v success =>
    have down := allocArray_down up (by rw [success])
    rw [success] at down
    exact (storeInt_status (fun _ => down.2) addr p v).2
  | refused due status => cases through
  | failed error => cases through

/-- A write that is not stored leaves it correct. -/
theorem keeps (h : Settled callocOk d addr r) (right : d.StatusTrue) (returned : r.2 = .error) : r.1.StatusTrue := by
  cases h with
  | stored p v due status => cases returned
  | due p v => cases returned
  | allocated p v success => cases returned
  | refused due status => exact right.congr due status
  | failed error =>
    intro ok
    cases ok

end Settled

end Driver

namespace Sys

open Driver

/-- The integer write that a request stores. -/
def stored (s : Sys) : Request → List (Nat × IntParam × Int32)
  | .sys (.write addr p value callocOk) =>
    if (s.drv.applyInt32 callocOk addr p value).2 = .success then [(addr, p, value)] else []
  | _ => []

/-- The status is right, once a write has been stored. -/
structure Tells (past : List (Nat × IntParam × Int32)) (s : Sys) : Prop where
  up : s.drv.StatusUp
  right : past ≠ [] → s.drv.StatusTrue
  allocated : s.drv.adStatus = .acquire → s.drv.dataAlloc = false

variable {past : List (Nat × IntParam × Int32)} {s s' : Sys}

/-- A step that leaves the flag and the status alone, and starts no acquisition. -/
theorem Tells.congr (h : s.Tells past) (due : s'.drv.dataAlloc = s.drv.dataAlloc)
    (status : s'.drv.allocSpaceStatus = s.drv.allocSpaceStatus)
    (acquire : s'.drv.adStatus = .acquire → s.drv.adStatus = .acquire) : s'.Tells past where
  up := h.up.congr due status
  right := fun written => (h.right written).congr due status
  allocated := fun acquires => due.trans (h.allocated (acquire acquires))

/-- A write does not take the layout away from an acquisition. -/
theorem write_allocated (callocOk : Bool) {d : Driver} (addr : Nat) {p : IntParam} (value : Int32)
    (up : d.StatusUp) (h : d.adStatus = .acquire → d.dataAlloc = false) (writable : p.writable = true) :
    (d.applyInt32 callocOk addr p value).1.adStatus = .acquire →
      (d.applyInt32 callocOk addr p value).1.dataAlloc = false := by
  have wrote := applyInt32_wrote callocOk d addr value writable
  generalize (d.applyInt32 callocOk addr p value).1 = d' at wrote ⊢
  intro acquire
  cases wrote with
  | same layout status => exact layout.dataAlloc.trans (h (status.symm.trans acquire))
  | due idle => exact absurd ((storeInt_adStatus _ _ _ _).symm.trans acquire) idle
  | numDet param idle few => exact absurd ((storeInt_adStatus _ _ _ _).symm.trans acquire) idle
  | allocated param inRange idle success =>
    have down := allocArray_down up (by rw [success])
    rw [success] at down
    exact (storeInt_dataAlloc _ _ _ _).trans down.1
  | failed param inRange idle error => cases acquire

/-- The start of an acquisition. -/
theorem start_tells {env : StartEnv} (h : s.Tells past)
    (start : s'.drv = (EventTask.startSection env (s.event.thread s.drv)).1.drv) : s'.Tells past := by
  obtain ⟨tasked, status⟩ : Tasked (s.drv.allocArray env.callocOk).1 s'.drv ∧
      ((s.drv.allocArray env.callocOk).2 = .error → s'.drv.adStatus = .error) := by
    rw [start]
    exact EventTask.startSection_tasked env (s.event.thread s.drv)
  have due : s'.drv.dataAlloc = (s.drv.allocArray env.callocOk).1.dataAlloc := by rw [tasked.eq]
  have said : s'.drv.allocSpaceStatus = (s.drv.allocArray env.callocOk).1.allocSpaceStatus := by rw [tasked.eq]
  cases outcome : (s.drv.allocArray env.callocOk).2 with
  | success =>
    obtain ⟨down, ok⟩ := allocArray_down h.up outcome
    exact ⟨fun _ => said.trans ok, fun _ _ => due.trans down, fun _ => due.trans down⟩
  | error =>
    have still := allocArray_due env.callocOk outcome
    refine ⟨fun down => ?_, fun written ok => ?_, fun acquire => ?_⟩
    · cases (due.trans still).symm.trans down
    · rcases allocArray_failed outcome with fail | unchanged
      · cases fail.symm.trans (said.symm.trans ok)
      · -- without detectors the status is that of before, which was right
        have down := h.right written (unchanged.symm.trans (said.symm.trans ok))
        rw [allocArray, if_pos down] at outcome
        cases outcome
    · cases (status outcome).symm.trans acquire

/-- **One step.** -/
theorem step_tells {l : Label} (h : s.Tells past) (hs : s.step l = some s') :
    s'.Tells (past ++ s.stored (.sys l)) := by
  cases l with
  | write addr p value callocOk =>
    obtain ⟨writable, -, rfl⟩ := step_write hs
    have settled := applyInt32_settled callocOk s.drv addr p value
    refine ⟨settled.up h.up, ?_, write_allocated callocOk addr value h.up h.allocated writable⟩
    intro written
    cases outcome : (s.drv.applyInt32 callocOk addr p value).2 with
    | success => exact settled.corrects h.up outcome
    | error =>
      have before : past ≠ [] := by simpa [stored, outcome] using written
      exact settled.keeps (h.right before) outcome
  | packet p =>
    obtain ⟨-, r, hr, rfl⟩ := step_packet hs
    have handled := eventHandler_handled hr
    have status : r.1.adStatus = s.drv.adStatus := congrArg Signals.adStatus handled.signals
    simp only [stored, List.append_nil]
    exact h.congr (by rw [handled.eq]) (by rw [handled.eq]) fun acquire => status.symm.trans acquire
  | event env =>
    obtain ⟨r, hr, rfl⟩ := step_eventTask hs
    simp only [stored, List.append_nil]
    rcases EventTask.step_tasked hr with ⟨-, tasked, status⟩ | ⟨-, start⟩
    · exact h.congr (by rw [tasked.eq]) (by rw [tasked.eq]) status
    · exact start_tells h start
  | frame env =>
    obtain ⟨r, hr, rfl⟩ := step_frameTask hs
    obtain ⟨tasked, status⟩ := FrameTask.step_tasked hr
    simp only [stored, List.append_nil]
    exact h.congr (by rw [tasked.eq]) (by rw [tasked.eq]) fun acquire => status.symm.trans acquire

theorem tells_init (u : Uninit) : (init u).Tells [] where
  up := by
    intro down
    cases down
  right := fun none => absurd rfl none
  allocated := by
    intro acquire
    cases acquire

/-- **One request.** -/
theorem serve_tells {r : Request} (h : s.Tells past) (hs : s.serve r = some s') : s'.Tells (past ++ s.stored r) := by
  have loads : Loaded s.drv s'.drv → s'.Tells (past ++ []) := by
    intro loaded
    rw [List.append_nil]
    refine h.congr (by rw [loaded.eq]) (by rw [loaded.eq]) fun acquire => ?_
    rw [loaded.eq] at acquire
    exact acquire
  cases r with
  | sys l => exact step_tells h hs
  | float addr p value =>
    obtain ⟨r, wrote, rfl⟩ := serve_float hs
    exact loads (writeFloat64_loaded wrote).1
  | octet addr p value erange env =>
    obtain ⟨r, wrote, rfl⟩ := serve_octet hs
    exact loads (writeOctet_loaded wrote).1

theorem run_tells {u : Uninit} {rs : List Request} (reached : Runs.run serve (init u) rs = some s) :
    s.Tells (Runs.log serve stored (init u) rs) := by
  have any : Runs.Meets serve (fun _ _ => True) (init u) rs := Runs.meets_true
  exact Runs.run_log_invariant stored Tells (fun _ _ _ _ inv _ hs => serve_tells inv hs) reached any (tells_init u)

/-- **`AllocSpaceStatus` tells the truth.** In every state that is reached after at least one stored integer write, the status
is OK exactly if no layout is due; so it is during every acquisition. If it is OK, then `p_Data` is a block of
`m_bufferMaxSize` cells, and if no write has changed `NumDet` behind an allocated layout, the layout is the one that
`allocArray` computes from the current parameters. -/
theorem allocSpaceStatus_tells {u : Uninit} {rs : List Request} (reached : Runs.run serve (init u) rs = some s)
    (written : Runs.log serve stored (init u) rs ≠ []) :
    (s.drv.allocSpaceStatus = .ok ↔ s.drv.dataAlloc = false) ∧
      (s.drv.adStatus = .acquire → s.drv.allocSpaceStatus = .ok) ∧
      (s.drv.allocSpaceStatus = .ok → (∃ b, s.drv.pData = some b ∧ b.length = s.drv.bufferMaxSize.toNat) ∧
        (Runs.Meets serve (onStep KeepsNumDet) (init u) rs → s.drv.Fresh)) := by
  have tells := run_tells reached
  have buffered := run_buffered reached
  have right : s.drv.allocSpaceStatus = .ok → s.drv.dataAlloc = false := tells.right written
  refine ⟨⟨right, tells.up⟩, fun acquire => tells.up (tells.allocated acquire), fun ok => ⟨?_, fun meets => ?_⟩⟩
  · obtain ⟨b, held⟩ := Option.ne_none_iff_exists'.1 (buffered.held (right ok))
    exact ⟨b, held, buffered.size b held⟩
  · have current : s.drv.Current :=
      Runs.run_invariant_of_meets (fun s => s.drv.Current) (fun _ _ _ => serve_current) reached meets
        (.of_due rfl (by simp [init, Driver.construct]))
    exact (current.laidOut (right ok)).fresh

/-- An allocation that fails, and one for another size that does not. -/
def secondTry : List Request :=
  [.sys (.write 0 .numDet 1 true), .sys (.write 1 .pixelNumSize 2 true), .sys (.write 0 .allocSpace 1 false),
    .float 1 (.tofTransFloat 0) 2, .sys (.write 1 .pixelNumSize 3 true), .sys (.write 0 .allocSpace 1 true)]

theorem allocSpaceStatus_tells_secondTry : ∃ s, Runs.run serve (init .blank) secondTry = some s ∧
    s.drv.allocSpaceStatus = .ok ∧ s.drv.dataAlloc = false ∧ s.drv.Fresh := by
  obtain ⟨s, reached⟩ : ∃ s, Runs.run serve (init .blank) secondTry = some s := ⟨_, rfl⟩
  have ok : s.drv.allocSpaceStatus = .ok := by
    cases reached
    rfl
  have written : Runs.log serve stored (init .blank) secondTry ≠ [] := by decide +kernel
  have meets : Runs.Meets serve (onStep KeepsNumDet) (init .blank) secondTry :=
    Runs.meets_of_checks (onStep_of_check keepsNumDet_of_check) rfl
  obtain ⟨agrees, -, means⟩ := allocSpaceStatus_tells reached written
  exact ⟨s, reached, ok, agrees.1 ok, (means ok).2 meets⟩

end Sys

end ADnED
