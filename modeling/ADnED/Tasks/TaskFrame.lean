import ADnED.Tasks.System
import ADnED.Tasks.Simulation
import ADnED.Driver.Freshness

/-!
# What the tasks can change

`Tasked d d'` is the frame of the two tasks: they signal, set the status and the few
readbacks of their own, and `eventTask` zeroes `p_Data` at a start. Everything else they
leave alone, apart from the layout that a start computes first. Record writes leave other
things alone; what neither they nor the tasks touch is `Carried`, and only packets do.
-/

namespace ADnED

/-- The readbacks that the tasks set. -/
def IntParam.tasked : IntParam → Bool
  | .adAcquire | .start | .stop | .eventRate | .detEventRate | .ndArrayCounter => true
  | _ => false

/-- `d'` is `d` after some work of the tasks. -/
structure Tasked (d d' : Driver) : Prop where
  eq : d' = { d with
    int := d'.int, str := d'.str, adStatus := d'.adStatus, pData := d'.pData
    startEvent := d'.startEvent, stopEvent := d'.stopEvent
    startFrame := d'.startFrame, stopFrame := d'.stopFrame }
  int : ∀ addr p, p.tasked = false → d'.int addr p = d.int addr p
  data : d'.pData = d.pData ∨ d'.pData = d.pData.map fun b => zeroCells b 0 d.bufferMaxSize.toNat

namespace Tasked

variable {d d' d'' : Driver}

/-- The strings, the status and the signals. -/
theorem of_members (h : d' = { d with
    str := d'.str, adStatus := d'.adStatus
    startEvent := d'.startEvent, stopEvent := d'.stopEvent
    startFrame := d'.startFrame, stopFrame := d'.stopFrame }) : Tasked d d' := by
  rw [h]
  exact ⟨rfl, fun _ _ _ => rfl, .inl rfl⟩

theorem refl (d : Driver) : Tasked d d := of_members rfl

theorem zeroCells_zeroCells (b : List UInt32) (n : Nat) : zeroCells (zeroCells b 0 n) 0 n = zeroCells b 0 n := by
  apply List.ext_getElem
  · simp [zeroCells]
  · intro i _ _
    simp only [zeroCells, List.getElem_mapIdx]
    split <;> rfl

theorem trans (h : Tasked d d') (h' : Tasked d' d'') : Tasked d d'' where
  eq := by rw [h'.eq, h.eq]
  int := fun addr p hp => (h'.int addr p hp).trans (h.int addr p hp)
  data := by
    have size : d'.bufferMaxSize = d.bufferMaxSize := by rw [h.eq]
    have later := h'.data
    rw [size] at later
    rcases h.data with same | zeroed
    · rwa [same] at later
    · right
      rw [zeroed, Option.map_map] at later
      have twice : ((fun b => zeroCells b 0 d.bufferMaxSize.toNat) ∘ fun b => zeroCells b 0 d.bufferMaxSize.toNat) =
          fun b => zeroCells b 0 d.bufferMaxSize.toNat := funext fun b => zeroCells_zeroCells b _
      rw [twice] at later
      exact later.elim id id

theorem setInt (d : Driver) (addr : Nat) {p : IntParam} (v : Int32) (hp : p.tasked = true) :
    Tasked d (d.setInt addr p v) := by
  refine ⟨rfl, ?_, .inl rfl⟩
  intro a q hq
  have other : q ≠ p := ne_of_apply_ne IntParam.tasked (by simp [hp, hq])
  simp [Driver.setInt, other]

/-- The tasks do not touch the layout. -/
theorem sameLayout (h : Tasked d d') : SameLayout d d' := by
  refine ⟨fun addr p layout => h.int addr p (by cases p <;> first | rfl | cases layout), ?_, ?_, ?_, ?_, ?_⟩
  case refine_5 =>
    rcases h.data with same | zeroed
    · rw [same]
    · rw [zeroed]
      simp [Function.comp_def, Driver.length_zeroCells]
  all_goals rw [h.eq]

end Tasked

namespace EventTask

theorem idleSection_tasked (t : Thread) (error : Bool) : Tasked t.drv (idleSection t error).drv := by
  have stored := Tasked.setInt (p := .adAcquire) t.drv 0 0 rfl
  simp only [idleSection]
  split
  · exact stored
  · exact stored.trans (.of_members rfl)

theorem beginAcquire_tasked (t : Thread) : Tasked t.drv (beginAcquire t).drv :=
  ⟨rfl, fun _ _ _ => rfl, .inr rfl⟩

theorem connect_tasked (env : StartEnv) (t : Thread) (numChannels : Int32) :
    Tasked t.drv (connect env t numChannels).1.drv := by
  simp only [connect, foldl_access_drv]
  split
  · simp only [Thread.modify_drv, Thread.setStatus_drv, Thread.setMessage_drv, foldl_access_drv]
    exact .of_members rfl
  · rw [foldl_access_drv]
    exact .refl t.drv

theorem completeStart_tasked (t : Thread) (error : Bool) : Tasked t.drv (completeStart t error).drv := by
  have stored := Tasked.setInt (p := .start) t.drv 0 0 rfl
  cases error with
  | false => exact stored
  | true => exact stored.trans (.of_members rfl)

theorem tailSection_tasked (t : Thread) : Tasked t.drv (tailSection t).drv := by
  have rates : ∀ (ds : List Nat) (t : Thread), Tasked t.drv
      (ds.foldl (fun t det => (t.setInt det .detEventRate 0).callParamCallbacks) t).drv := by
    intro ds
    induction ds with
    | nil => intro t; exact .refl t.drv
    | cons det ds ih =>
      intro t
      exact (Tasked.setInt (p := .detEventRate) t.drv det 0 rfl).trans
        (ih (t.setInt det .detEventRate 0).callParamCallbacks)
  have zeroed := (Tasked.setInt (p := .eventRate) t.drv 0 0 rfl).trans
    (rates (dets (t.drv.int 0 .numDet)) (t.access.setInt 0 .eventRate 0))
  exact zeroed.trans (Tasked.setInt (p := .stop) _ 0 0 rfl)

/-- A start runs `allocArray` first. With a layout it zeroes `p_Data`, without one it ends in
an error. -/
theorem startSection_tasked (env : StartEnv) (t : Thread) :
    Tasked (t.drv.allocArray env.callocOk).1 (startSection env t).1.drv ∧
      ((t.drv.allocArray env.callocOk).2 = .error → (startSection env t).1.drv.adStatus = .error) := by
  simp only [startSection, Thread.access_drv]
  split
  · rename_i d failed
    rw [failed]
    refine ⟨Tasked.trans ?_ (completeStart_tasked _ true), fun _ => rfl⟩
    exact .of_members rfl
  · rename_i d success
    rw [success]
    refine ⟨((beginAcquire_tasked (t.access.call fun _ => d)).trans (connect_tasked env _ _)).trans
      (completeStart_tasked _ _), fun failed => by cases failed⟩

/-- A step of `eventTask` is such work, or a start. -/
theorem step_tasked {env : StartEnv} {d : Driver} {e : EventTask} {r : Driver × EventTask}
    (hs : e.step env d = some r) :
    e.pc ≠ .startSection ∧ Tasked d r.1 ∧ (r.1.adStatus = .acquire → d.adStatus = .acquire) ∨
      e.pc = .startSection ∧ r.1 = (startSection env (e.thread d)).1.drv := by
  simp only [step] at hs
  cases hpc : e.pc <;> simp only [hpc] at hs
  case startSection =>
    cases hs
    exact .inr ⟨rfl, rfl⟩
  all_goals refine .inl ⟨by simp, ?_⟩
  case idleSection =>
    cases hs
    have signals := congrArg Signals.adStatus (idleSection_signals (e.thread d) e.error)
    exact ⟨idleSection_tasked (e.thread d) e.error, fun acquire => signals.symm.trans acquire⟩
  case startWait =>
    split at hs <;> cases hs
    exact ⟨.of_members rfl, id⟩
  case stopWait =>
    split at hs <;> cases hs
    · exact ⟨.of_members rfl, id⟩
    · exact ⟨.refl d, id⟩
  case stopSection =>
    cases hs
    exact ⟨.of_members rfl, fun acquire => by cases acquire⟩
  case tail =>
    cases hs
    have signals := congrArg Signals.adStatus (tailSection_signals (e.thread d))
    exact ⟨tailSection_tasked (e.thread d), fun acquire => signals.symm.trans acquire⟩
  all_goals
    cases hs
    exact ⟨.of_members rfl, id⟩

end EventTask

namespace FrameTask

theorem frame_tasked (env : FrameEnv) (f : FrameTask) (t : Thread) :
    Tasked t.drv (f.frame env t).1 ∧ (f.frame env t).1.adStatus = t.drv.adStatus := by
  have counted := fun n => Tasked.setInt (p := .ndArrayCounter) t.drv 0 n rfl
  simp only [frame]
  split_ifs
  · exact ⟨counted _, rfl⟩
  · exact ⟨counted _, rfl⟩
  · exact ⟨.refl t.drv, rfl⟩
  · exact ⟨.refl t.drv, rfl⟩

/-- A step of `frameTask` leaves `ADStatus` alone as well. -/
theorem step_tasked {env : FrameEnv} {d : Driver} {f : FrameTask} {r : Driver × FrameTask}
    (hs : f.step env d = some r) : Tasked d r.1 ∧ r.1.adStatus = d.adStatus := by
  simp only [step] at hs
  cases hpc : f.pc <;> simp only [hpc] at hs
  case startWait =>
    split at hs <;> cases hs
    exact ⟨.of_members rfl, rfl⟩
  case startSection =>
    cases hs
    exact ⟨Tasked.setInt (p := .ndArrayCounter) d 0 0 rfl, rfl⟩
  case frameSection got =>
    cases got
    · cases hs
      exact frame_tasked env f (f.thread d)
    · cases hs
      exact ⟨.refl d, rfl⟩
  case crashed => cases hs
  all_goals
    cases hs
    exact ⟨.of_members rfl, rfl⟩

end FrameTask

/-! ## What only packets touch -/

/-- The update timer, the snapshots and the counts of the next update. -/
structure Carried where
  lastTimeSecs : ℚ
  det : Nat → DetValues
  eventsSinceLastUpdate : UInt32
  detEventsSinceLastUpdate : Nat → UInt32
  pixelMap : Nat → Option (List UInt32)
  pixelMapSize : Nat → UInt32

namespace Driver

def carried (d : Driver) : Carried where
  lastTimeSecs := d.lastTimeSecs
  det := d.det
  eventsSinceLastUpdate := d.eventsSinceLastUpdate
  detEventsSinceLastUpdate := d.detEventsSinceLastUpdate
  pixelMap := d.pixelMap
  pixelMapSize := d.pixelMapSize

theorem carried_of_relaid {d d' : Driver} (h : Relaid d d') : d'.carried = d.carried := by
  rw [h.eq]
  rfl

theorem carried_of_tasked {d d' : Driver} (h : Tasked d d') : d'.carried = d.carried := by
  rw [h.eq]
  rfl

@[simp] theorem storeInt_carried (d : Driver) (addr : Nat) (p : IntParam) (v : Int32) :
    (d.storeInt addr p v).carried = d.carried := by
  rw [storeInt_eq]
  rfl

/-- Record writes leave it alone. -/
theorem applyInt32_carried (callocOk : Bool) (d : Driver) (addr : Nat) (p : IntParam) (value : Int32) :
    (d.applyInt32 callocOk addr p value).1.carried = d.carried := by
  have alloc := carried_of_relaid (allocArray_relaid callocOk d)
  simp only [applyInt32]
  split
  · rfl
  · cases p <;> simp only [writeLayout, writeBounded]
    case allocSpace =>
      split
      · split
        · rename_i e success
          rw [success] at alloc
          exact (storeInt_carried e _ _ _).trans alloc
        · rename_i e error
          rw [error] at alloc
          exact alloc
      · rfl
    case start | stop =>
      split
      · split
        · exact storeInt_carried _ _ _ _
        · rfl
      · exact storeInt_carried _ _ _ _
    case numDet | numChannels =>
      split
      · split
        · rfl
        · exact storeInt_carried _ _ _ _
      · rfl
    case pixelNumStart | pixelNumEnd | pixelNumSize | tofMax =>
      split
      · exact storeInt_carried _ _ _ _
      · rfl
    case tofArrayReset =>
      refine (storeInt_carried _ _ _ _).trans ?_
      unfold resetTOFArray
      split <;> rfl
    case pixelROIEnable | tofROIEnable =>
      refine (storeInt_carried _ _ _ _).trans ?_
      split <;> rfl
    all_goals exact storeInt_carried _ _ _ _

end Driver

namespace Sys

/-- Only a packet touches what is carried. -/
theorem step_carried {s s' : Sys} {l : Label} (other : ∀ p, l ≠ .packet p) (h : s.step l = some s') :
    s'.drv.carried = s.drv.carried := by
  cases l with
  | write addr p value callocOk =>
    obtain ⟨-, -, rfl⟩ := step_write h
    exact Driver.applyInt32_carried callocOk s.drv addr p value
  | packet p => exact absurd rfl (other p)
  | event env =>
    obtain ⟨r, hr, rfl⟩ := step_eventTask h
    rcases EventTask.step_tasked hr with ⟨-, tasked, -⟩ | ⟨-, start⟩
    · exact Driver.carried_of_tasked tasked
    · have tasked := (EventTask.startSection_tasked env (s.event.thread s.drv)).1
      rw [← start] at tasked
      exact (Driver.carried_of_tasked tasked).trans
        (Driver.carried_of_relaid (Driver.allocArray_relaid env.callocOk s.drv))
  | frame env =>
    obtain ⟨r, hr, rfl⟩ := step_frameTask h
    exact Driver.carried_of_tasked (FrameTask.step_tasked hr).1

end Sys

end ADnED
