import ADnED.Tasks.Requests
import ADnED.Driver.Packets

/-!
# Who touches the data

`p_Data` and the totals are changed by packets, by the writes that clear or allocate
(`IntParam.touchesData`) and by the start section of `eventTask`. Every other request
leaves both alone.
-/

namespace ADnED

/-- The writes that can change `p_Data`. -/
def IntParam.touchesData : IntParam → Bool
  | .reset | .start | .allocSpace | .tofArrayReset => true
  | _ => false

theorem SameData.refl (d : Driver) : SameData d d := ⟨rfl, rfl⟩

theorem SameData.of_loaded {d d' : Driver} (h : Loaded d d') : SameData d d' := by
  rw [h.eq]
  exact ⟨rfl, rfl⟩

namespace Driver

theorem storeInt_sameData (d : Driver) (addr : Nat) (p : IntParam) (v : Int32) : SameData d (d.storeInt addr p v) := by
  rw [storeInt_eq]
  exact ⟨rfl, rfl⟩

/-- A write of any other parameter. -/
theorem applyInt32_sameData (callocOk : Bool) (d : Driver) (addr : Nat) {p : IntParam} (value : Int32)
    (plain : p.touchesData = false) : SameData d (d.applyInt32 callocOk addr p value).1 := by
  have stored : ∀ {e : Driver} (a : Nat) (q : IntParam) (v : Int32), SameData d e → SameData d (e.storeInt a q v) :=
    fun a q v same => same.trans (storeInt_sameData _ a q v)
  unfold applyInt32
  split
  · exact .refl d
  · cases p <;> simp only [writeLayout, writeBounded]
    case reset | start | allocSpace | tofArrayReset => cases plain
    case stop =>
      split
      · split
        · exact stored _ _ _ ⟨rfl, rfl⟩
        · exact ⟨rfl, rfl⟩
      · exact stored _ _ _ (.refl d)
    case pixelNumStart | pixelNumEnd | pixelNumSize | tofMax =>
      split
      · exact stored _ _ _ ⟨rfl, rfl⟩
      · exact .refl d
    case numDet | numChannels =>
      split
      · split
        · exact .refl d
        · exact stored _ _ _ (.refl d)
      · exact .refl d
    case pixelROIEnable | tofROIEnable =>
      split
      · exact stored _ _ _ ⟨rfl, rfl⟩
      · exact stored _ _ _ (.refl d)
    all_goals exact stored _ _ _ ⟨rfl, rfl⟩

end Driver

namespace EventTask

theorem tailSection_sameData (t : Thread) : SameData t.drv (tailSection t).drv := by
  have rates : ∀ (ds : List Nat) (t : Thread), SameData t.drv
      (ds.foldl (fun t det => (t.setInt det .detEventRate 0).callParamCallbacks) t).drv := by
    intro ds
    induction ds with
    | nil => exact fun t => .refl t.drv
    | cons det ds ih =>
      intro t
      have later := ih (t.setInt det .detEventRate 0).callParamCallbacks
      exact ⟨later.pData, later.detTotalEvents⟩
  have zeroed := rates (dets (t.drv.int 0 .numDet)) (t.access.setInt 0 .eventRate 0)
  exact ⟨zeroed.pData, zeroed.detTotalEvents⟩

/-- `eventTask` outside its start section. -/
theorem step_sameData {env : StartEnv} {d : Driver} {e : EventTask} {r : Driver × EventTask}
    (hs : e.step env d = some r) (other : e.pc ≠ .startSection) : SameData d r.1 := by
  simp only [step] at hs
  cases hpc : e.pc <;> simp only [hpc] at hs
  case startSection => exact absurd hpc other
  case idleSection =>
    cases hs
    simp only [goto, idleSection]
    split <;> exact ⟨rfl, rfl⟩
  case startWait | stopWait =>
    split at hs <;> cases hs <;> exact ⟨rfl, rfl⟩
  case tail =>
    cases hs
    exact tailSection_sameData (e.thread d)
  all_goals
    cases hs
    exact ⟨rfl, rfl⟩

/-- A start zeroes `p_Data` once there is a layout, and leaves the totals alone. -/
theorem startSection_data (env : StartEnv) (t : Thread) :
    (startSection env t).1.drv.detTotalEvents = t.drv.detTotalEvents ∧
      ((t.drv.allocArray env.callocOk).2 = .success →
        (startSection env t).1.drv.pData = (t.drv.allocArray env.callocOk).1.clearParams.pData) := by
  have totals : (t.drv.allocArray env.callocOk).1.detTotalEvents = t.drv.detTotalEvents := by
    rw [(Driver.allocArray_relaid env.callocOk t.drv).eq]
  have connected : ∀ (t : Thread) (n : Int32), SameData t.drv (connect env t n).1.drv := by
    intro t n
    simp only [connect, foldl_access_drv]
    split
    · simp only [Thread.modify_drv, Thread.setStatus_drv, Thread.setMessage_drv, foldl_access_drv]
      exact ⟨rfl, rfl⟩
    · rw [foldl_access_drv]
      exact .refl t.drv
  have completed : ∀ (t : Thread) (error : Bool), SameData t.drv (completeStart t error).drv := by
    intro t error
    cases error <;> exact ⟨rfl, rfl⟩
  simp only [startSection, Thread.access_drv]
  split
  · rename_i d failed
    rw [failed] at totals ⊢
    exact ⟨totals, fun success => by cases success⟩
  · rename_i d success
    rw [success] at totals ⊢
    have begun := connected (beginAcquire (t.access.call fun _ => d)) (readNumChannels t.drv)
    have same := begun.trans (completed _ (connect env (beginAcquire (t.access.call fun _ => d)) (readNumChannels t.drv)).2)
    exact ⟨same.detTotalEvents.trans totals, fun _ => same.pData⟩

end EventTask

/-- `frameTask` only reads the data. -/
theorem FrameTask.step_sameData {env : FrameEnv} {d : Driver} {f : FrameTask} {r : Driver × FrameTask}
    (hs : f.step env d = some r) : SameData d r.1 := by
  simp only [step] at hs
  cases hpc : f.pc <;> simp only [hpc] at hs
  case startWait =>
    split at hs <;> cases hs
    exact ⟨rfl, rfl⟩
  case frameSection got =>
    cases got
    · cases hs
      simp only [frame]
      split_ifs <;> exact ⟨rfl, rfl⟩
    · cases hs
      exact ⟨rfl, rfl⟩
  case crashed => cases hs
  all_goals
    cases hs
    exact ⟨rfl, rfl⟩

end ADnED
