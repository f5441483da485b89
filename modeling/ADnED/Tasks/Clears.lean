import ADnED.Driver.Alike
import ADnED.Driver.Counts
import ADnED.Tasks.Requests
import ADnED.Tasks.Rates

/-!
# A clear forgets the past

A Reset and an accepted Start both run `clearParams`, and the tasks add nothing to what it
leaves (`Clears.cleared`): zeros in `p_Data`, no totals, and the accounts of a channel that
has had no packet. What later packets do to these depends on the setup alone. So two drivers
with the same setup count alike after a clear, whatever they counted before it
(`clear_forgets`).
-/

namespace ADnED

open Driver

theorem IntParam.tasked_of_isSetup {p : IntParam} (h : p.isSetup = true) : p.tasked = false := by
  cases p <;> first | rfl | cases h

theorem SameSetup.of_tasked {d d' : Driver} (h : Tasked d d') : SameSetup d d' where
  int := fun addr p _ setup => h.int addr p (IntParam.tasked_of_isSetup setup)
  dbl := fun addr p _ _ => by rw [h.eq]
  pixelMap := fun det _ => by rw [h.eq]
  pixelMapSize := fun det _ => by rw [h.eq]
  transform := fun det _ => by rw [h.eq]

/-- `e` is `d` after a clear. -/
structure Cleared (d e : Driver) : Prop where
  setup : SameSetup d e
  layout : SameLayout d e
  data : e.pData = d.pData.map fun b => zeroCells b 0 d.bufferMaxSize.toNat
  totals : ∀ det, det ≤ maxDets → e.detTotalEvents det = 0
  ledger : ∀ c, c < maxChannels → e.ledger c = .cleared
  pulseCounter : e.pulseCounter = 0
  pChargeInt : e.pChargeInt = 0

namespace Cleared

variable {d e e' : Driver}

theorem clearParams (d : Driver) : Cleared d d.clearParams where
  setup := .of_handled (clearParams_handled d)
  layout := clearParams_same d
  data := rfl
  totals := fun _ le => if_pos le
  ledger := fun _ channel => clearParams_ledger d channel
  pulseCounter := rfl
  pChargeInt := rfl

/-- What is neither setup nor an account may be written. -/
theorem storeInt (h : Cleared d e) (addr : Nat) {p : IntParam} (value : Int32) (other : p.isSetup = false)
    (account : clearedByChannel p = false) : Cleared d (e.storeInt addr p value) where
  setup := h.setup.trans (.storeInt e addr value other)
  layout := by
    refine h.layout.trans (storeInt_same e fun layout => ?_)
    rw [IntParam.isSetup_of_layoutAt layout] at other
    cases other
  data := by rw [storeInt_eq]; exact h.data
  totals := by rw [storeInt_eq]; exact h.totals
  ledger := fun c channel => (storeInt_ledger e addr value account c).trans (h.ledger c channel)
  pulseCounter := by rw [storeInt_eq]; exact h.pulseCounter
  pChargeInt := by rw [storeInt_eq]; exact h.pChargeInt

/-- The tasks keep it. They can only zero `p_Data` again. -/
theorem tasked (h : Cleared d e) (work : Tasked e e') : Cleared d e' where
  setup := h.setup.trans (.of_tasked work)
  layout := h.layout.trans work.sameLayout
  data := by
    rcases work.data with same | zeroed
    · rw [same, h.data]
    · rw [zeroed, h.data, h.layout.bufferMaxSize, Option.map_map]
      congr 1
      exact funext fun b => Tasked.zeroCells_zeroCells b _
  totals := by rw [work.eq]; exact h.totals
  ledger := by
    intro c channel
    rw [← h.ledger c channel, Driver.ledger, Driver.ledger, work.int c _ rfl, work.int c _ rfl, work.int c _ rfl,
      work.eq]
  pulseCounter := by rw [work.eq]; exact h.pulseCounter
  pChargeInt := by rw [work.eq]; exact h.pChargeInt

theorem sendStart (down : d.dataAlloc = false) : Cleared d d.sendStart := by
  have stored : d.clearParams.storeInt 0 .pause 0 = d.clearParams.setInt 0 .pause 0 := by
    simp [Driver.storeInt, Driver.clearParams, down]
  have unpaused := (clearParams d).storeInt 0 (p := .pause) 0 rfl rfl
  rw [stored] at unpaused
  exact unpaused.tasked (.of_members rfl)

/-- Two drivers with the same setup are alike after a clear. -/
theorem alike {d' : Driver} (h : Cleared d e) (h' : Cleared d' e') (setup : SameSetup d d')
    (size : d'.pData.map List.length = d.pData.map List.length) (buffered : d.Buffered) (buffered' : d'.Buffered)
    (down : d.dataAlloc = false) (down' : d'.dataAlloc = false) : Alike e e' where
  setup := h.setup.symm.trans (setup.trans h'.setup)
  range := by
    rw [h.layout.tofMax, h'.layout.tofMax, buffered.tofMax down, buffered'.tofMax down',
      setup.int 0 .tofMax (by decide) rfl]
  allocated := by
    rw [h.layout.dataMaxSize, h'.layout.dataMaxSize]
    exact ⟨buffered.cells down, buffered'.cells down'⟩
  data := by
    obtain ⟨b, block⟩ := Option.ne_none_iff_exists'.1 (buffered.held down)
    obtain ⟨b', block'⟩ := Option.ne_none_iff_exists'.1 (buffered'.held down')
    have lengths : b'.length = b.length := by simpa [block, block'] using size
    rw [h.data, h'.data, block, block', Option.map_some, Option.map_some, ← buffered.size b block,
      ← buffered'.size b' block', zeroCells_all, zeroCells_all, lengths]
  totals := fun det le => (h'.totals det le).trans (h.totals det le).symm
  ledger := fun c channel => (h'.ledger c channel).trans (h.ledger c channel).symm
  pulseCounter := h'.pulseCounter.trans h.pulseCounter.symm
  pChargeInt := h'.pChargeInt.trans h.pChargeInt.symm

end Cleared

/-- The step is one of the tasks. -/
def Label.isTask : Label → Bool
  | .event _ | .frame _ => true
  | _ => false

/-- What an acquisition counts is the same in both. -/
structure SameCounts (d d' : Driver) : Prop where
  pData : d'.pData = d.pData
  pulseCounter : d'.pulseCounter = d.pulseCounter
  pChargeInt : d'.pChargeInt = d.pChargeInt
  detTotalEvents : ∀ det, det ≤ maxDets → d'.detTotalEvents det = d.detTotalEvents det
  seqCounter : ∀ c, c < maxChannels → d'.seqCounter c = d.seqCounter c
  seqID : ∀ c, c < maxChannels → d'.seqID c = d.seqID c
  seqIDMissing : ∀ c, c < maxChannels → d'.int c .seqIDMissing = d.int c .seqIDMissing
  seqIDNumMissing : ∀ c, c < maxChannels → d'.int c .seqIDNumMissing = d.int c .seqIDNumMissing
  badTimeStamp : ∀ c, c < maxChannels → d'.int c .badTimeStamp = d.int c .badTimeStamp

theorem Alike.sameCounts {d d' : Driver} (h : Alike d d') : SameCounts d d' where
  pData := h.data
  pulseCounter := h.pulseCounter
  pChargeInt := h.pChargeInt
  detTotalEvents := h.totals
  seqCounter := fun c channel => congrArg Ledger.seqCounter (h.ledger c channel)
  seqID := fun c channel => congrArg Ledger.seqID (h.ledger c channel)
  seqIDMissing := fun c channel => congrArg Ledger.missing (h.ledger c channel)
  seqIDNumMissing := fun c channel => congrArg Ledger.numMissing (h.ledger c channel)
  badTimeStamp := fun c channel => congrArg Ledger.badTimeStamp (h.ledger c channel)

namespace Sys

/-- A clear: a Reset or an accepted Start, and what the tasks do next. A Start is complete once
`eventTask` has left its start section. -/
inductive Clears (s : Sys) : Sys → Prop where
  | reset {addr : Nat} {value : Int32} {callocOk : Bool} {t : Sys} (valid : addr ≤ maxDets)
      (wrote : s.step (.write addr .reset value callocOk) = some t) : Clears s t
  | start {l : Label} {t : Sys} (accepted : s.AcceptsStart l) (wrote : s.step l = some t) : Clears s t
  | task {l : Label} {t t' : Sys} (before : Clears s t) (task : l.isTask = true) (worked : t.step l = some t') :
      Clears s t'

/-- With a layout, a task does no more than `Tasked`. -/
theorem step_tasked {s s' : Sys} {l : Label} (task : l.isTask = true) (down : s.drv.dataAlloc = false)
    (h : s.step l = some s') : Tasked s.drv s'.drv := by
  cases l with
  | write addr p value callocOk => cases task
  | packet p => cases task
  | event env =>
    obtain ⟨r, hr, rfl⟩ := step_eventTask h
    rcases EventTask.step_tasked hr with ⟨-, tasked, -⟩ | ⟨-, start⟩
    · exact tasked
    · have tasked := (EventTask.startSection_tasked env (s.event.thread s.drv)).1
      have same : (s.drv.allocArray env.callocOk).1 = s.drv := by simp [allocArray, down]
      rw [← start] at tasked
      change Tasked (s.drv.allocArray env.callocOk).1 r.1 at tasked
      rwa [same] at tasked
  | frame env =>
    obtain ⟨r, hr, rfl⟩ := step_frameTask h
    exact (FrameTask.step_tasked hr).1

/-- What a clear leaves. -/
theorem Clears.cleared {s t : Sys} (h : s.Clears t) (down : s.drv.dataAlloc = false) : Cleared s.drv t.drv := by
  induction h with
  | @reset addr value callocOk t valid wrote =>
    obtain ⟨-, -, rfl⟩ := step_write wrote
    have reset : (s.drv.applyInt32 callocOk addr .reset value).1 = s.drv.clearParams.storeInt addr .reset value := by
      simp only [applyInt32, if_neg (Nat.not_lt.2 valid)]
    rw [reset]
    exact (Cleared.clearParams s.drv).storeInt addr value rfl rfl
  | @start l t accepted wrote =>
    cases l with
    | write addr p value callocOk =>
      obtain ⟨valid, rfl, on, idle⟩ := accepted
      obtain ⟨-, -, rfl⟩ := step_write wrote
      have start : (s.drv.applyInt32 callocOk addr .start value).1 = s.drv.sendStart.storeInt addr .start value := by
        simp only [applyInt32, if_neg (Nat.not_lt.2 valid), if_pos on, if_pos idle]
      rw [start]
      exact (Cleared.sendStart down).storeInt addr value rfl rfl
    | packet p => cases accepted
    | event env => cases accepted
    | frame env => cases accepted
  | task before task worked cleared =>
    exact cleared.tasked (step_tasked task (cleared.layout.dataAlloc.trans down) worked)

/-- **History independence of a clear.** Take two reachable states with the same setup and
buffer length and with a layout. After a Reset or a Start in each, the same packets with the
same pause settings leave the same counts. -/
theorem clear_forgets {u u' : Uninit} {rs rs' : List Request} {s s' t t' : Sys}
    (reached : Runs.run serve (init u) rs = some s) (reached' : Runs.run serve (init u') rs' = some s')
    (down : s.drv.dataAlloc = false) (down' : s'.drv.dataAlloc = false) (setup : SameSetup s.drv s'.drv)
    (size : s'.drv.pData.map List.length = s.drv.pData.map List.length) (clears : s.Clears t) (clears' : s'.Clears t')
    {xs ys : List Input} (same : paced (t'.drv.int 0 .pause) ys = paced (t.drv.int 0 .pause) xs) :
    Option.Rel SameCounts (Runs.run feed t.drv xs) (Runs.run feed t'.drv ys) := by
  have alike := (clears.cleared down).alike (clears'.cleared down') setup size (run_buffered reached)
    (run_buffered reached') down down'
  exact Runs.rel_mono (run_alike alike same) fun _ _ ends => ends.sameCounts

/-- A detector of one pixel with a layout, and `eventTask` at its wait for a Start. -/
def oneDetectorLaidOut : List Label := oneDetector ++ [.write 0 .allocSpace 1 true]

/-- A packet with one event, after a pause. -/
def pausedPacket : List Input := [.pause 1, .pause 0, .packet (packetAt 2 1 0)]

/-- A Reset before the first packet and a Start after it. The same packet comes next in both,
after a pause in the one and at another time in the other. -/
theorem clear_forgets_firstPacket :
    ∃ s s' t t', Runs.run serve (init .blank) (oneDetectorLaidOut.map .sys) = some s ∧
      Runs.run serve (init .blank) (oneDetectorLaidOut.map .sys ++ [.sys (.packet (packetAt 0 1 0))]) =
        some s' ∧
      s'.drv.pulseCounter = 1 ∧ s.Clears t ∧ s'.Clears t' ∧ t'.drv.adStatus = .acquire ∧
      (Runs.run feed t.drv pausedPacket).isSome = true ∧
      Option.Rel SameCounts (Runs.run feed t.drv pausedPacket)
        (Runs.run feed t'.drv [.packet (packetAt 5 1 0)]) := by
  have first : (Runs.run serve (init .blank) (oneDetectorLaidOut.map .sys)).bind (fun s =>
      (s.step (.write 0 .reset 1 true)).map fun t =>
        (s.drv.dataAlloc, (Runs.run feed t.drv pausedPacket).isSome)) = some (false, true) := by
    decide +kernel
  have second : (Runs.run serve (init .blank) (oneDetectorLaidOut.map .sys)).bind (fun s =>
      (s.step (.packet (packetAt 0 1 0))).bind fun s' => (s'.step startWrite).bind fun t =>
        (t.step eventStep).bind fun t => (t.step eventStep).bind fun t => (t.step eventStep).map fun t =>
          (s'.drv.dataAlloc, s'.drv.pulseCounter, startable s'.drv.adStatus, t.drv.adStatus, t.drv.int 0 .pause)) =
      some (false, 1, true, .acquire, 0) := by
    decide +kernel
  obtain ⟨s, reached, first⟩ := Option.bind_eq_some_iff.1 first
  obtain ⟨t, reset, first⟩ := Option.map_eq_some_iff.1 first
  simp only [Prod.mk.injEq] at first
  obtain ⟨down, ends⟩ := first
  rw [reached, Option.bind_some] at second
  obtain ⟨s', packet, second⟩ := Option.bind_eq_some_iff.1 second
  obtain ⟨t₁, start, second⟩ := Option.bind_eq_some_iff.1 second
  obtain ⟨t₂, waited, second⟩ := Option.bind_eq_some_iff.1 second
  obtain ⟨t₃, locked, second⟩ := Option.bind_eq_some_iff.1 second
  obtain ⟨t', completed, second⟩ := Option.map_eq_some_iff.1 second
  simp only [Prod.mk.injEq] at second
  obtain ⟨down', counted, idle, acquiring, resumed⟩ := second
  have reached' : Runs.run serve (init .blank)
      (oneDetectorLaidOut.map .sys ++ [.sys (.packet (packetAt 0 1 0))]) = some s' := by
    have served : s.serve (.sys (.packet (packetAt 0 1 0))) = some s' := packet
    rw [Runs.run_append, reached, Option.bind_some, Runs.run_cons, served]
    rfl
  have handled : Handled s.drv s'.drv := by
    obtain ⟨-, r, handled, rfl⟩ := step_packet packet
    exact eventHandler_handled handled
  have clears : s.Clears t := .reset (by decide) reset
  have accepted : s'.AcceptsStart startWrite := ⟨by decide, rfl, by decide, idle⟩
  have clears' : s'.Clears t' := .task (.task (.task (.start accepted start) rfl waited) rfl locked) rfl completed
  refine ⟨s, s', t, t', reached, reached', counted, clears, clears', acquiring, ends, ?_⟩
  refine clear_forgets reached reached' down down' (.of_handled handled) handled.size clears clears' ?_
  rw [resumed]
  rfl

end Sys

end ADnED
