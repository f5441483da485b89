import ADnED.Driver.FileFrame
import ADnED.Tasks.FrameCopies

/-!
# All requests to the driver

The system with the record writes that do not go through `writeInt32`: strings, among them
the names of pixel maps and transformation tables, and floating-point values. These leave
the layout and everything that is measured alone (`Loaded`), and to the skeleton of the tasks
they are quiet (`serve_control`).
-/

namespace ADnED

/-- The floating-point parameters that an output record writes. -/
def DblParam.writable : DblParam → Bool
  | .pCharge | .pChargeInt | .detEventTotal => false
  | _ => true

/-- The strings that a record writes. -/
def StrParam.writable : StrParam → Bool
  | .adStatusMessage => false
  | _ => true

/-- The steps of the system and the other record writes. `erange` says whether the `errno` that
a `writeOctet` finds is `ERANGE`. -/
inductive Request where
  | sys (l : Label)
  | float (addr : Nat) (p : DblParam) (value : ℚ)
  | octet (addr : Nat) (p : StrParam) (value : String) (erange : Bool) (env : FileEnv)

/-- The request is a step of `eventTask`. -/
def Request.isEvent : Request → Bool
  | .sys (.event _) => true
  | _ => false

theorem Request.isEvent_iff {r : Request} : r.isEvent = true ↔ ∃ env, r = .sys (.event env) := by
  cases r with
  | sys l => cases l <;> simp [isEvent]
  | float addr p value => simp [isEvent]
  | octet addr p value erange env => simp [isEvent]

namespace Sys

/-- A request to the driver. -/
def serve (s : Sys) : Request → Option Sys
  | .sys l => s.step l
  | .float addr p value =>
    if p.writable && s.lockFree then (s.drv.writeFloat64 addr p value).map fun r => { s with drv := r.1 }
    else none
  | .octet addr p value erange env =>
    if p.writable && s.lockFree then
      (s.drv.writeOctet env erange addr p value).map fun r => { s with drv := r.2.1 }
    else none

/-- A condition on the steps of the system, for all requests. -/
def onStep (ok : Sys → Label → Prop) (s : Sys) : Request → Prop
  | .sys l => ok s l
  | .float _ _ _ => True
  | .octet _ _ _ _ _ => True

/-- `onStep`, evaluated. -/
def checkStep (ok : Sys → Label → Bool) (s : Sys) : Request → Bool
  | .sys l => ok s l
  | .float _ _ _ => true
  | .octet _ _ _ _ _ => true

theorem onStep_of_check {P : Sys → Label → Prop} {ok : Sys → Label → Bool} (sound : ∀ s l, ok s l = true → P s l)
    (s : Sys) (r : Request) (h : s.checkStep ok r = true) : s.onStep P r := by
  cases r with
  | sys l => exact sound s l h
  | float addr p value => trivial
  | octet addr p value erange env => trivial

variable {s s' : Sys}

theorem serve_float {addr : Nat} {p : DblParam} {value : ℚ} (h : s.serve (.float addr p value) = some s') :
    ∃ r, s.drv.writeFloat64 addr p value = some r ∧ s' = { s with drv := r.1 } := by
  simp only [serve] at h
  split at h
  · obtain ⟨r, wrote, same⟩ := Option.map_eq_some_iff.1 h
    exact ⟨r, wrote, same.symm⟩
  · cases h

theorem serve_octet {addr : Nat} {p : StrParam} {value : String} {erange : Bool} {env : FileEnv}
    (h : s.serve (.octet addr p value erange env) = some s') :
    ∃ r, s.drv.writeOctet env erange addr p value = some r ∧ s' = { s with drv := r.2.1 } := by
  simp only [serve] at h
  split at h
  · obtain ⟨r, wrote, same⟩ := Option.map_eq_some_iff.1 h
    exact ⟨r, wrote, same.symm⟩
  · cases h

/-- A request is a step of the system, or it loads something. -/
theorem serve_cases {r : Request} (h : s.serve r = some s') :
    (∃ l, r = .sys l ∧ s.step l = some s') ∨ Loaded s.drv s'.drv := by
  cases r with
  | sys l => exact .inl ⟨l, rfl, h⟩
  | float addr p value =>
    obtain ⟨r, wrote, rfl⟩ := serve_float h
    exact .inr (Driver.writeFloat64_loaded wrote).1
  | octet addr p value erange env =>
    obtain ⟨r, wrote, rfl⟩ := serve_octet h
    exact .inr (Driver.writeOctet_loaded wrote).1

theorem serve_buffered {r : Request} (buffered : s.drv.Buffered) (h : s.serve r = some s') : s'.drv.Buffered := by
  rcases serve_cases h with ⟨l, -, step⟩ | loaded
  · exact step_buffered buffered step
  · exact buffered.of_reconfigured loaded.sameLayout.reconfigured

theorem run_buffered {u : Uninit} {rs : List Request} (reached : Runs.run serve (init u) rs = some s) :
    s.drv.Buffered :=
  Runs.run_invariant (fun s => s.drv.Buffered) (fun _ _ _ => serve_buffered) reached (buffered_init u)

/-- No other request moves `eventTask`. -/
theorem serve_event {r : Request} (h : s.serve r = some s') (other : r.isEvent = false) : s'.event = s.event := by
  cases r with
  | float addr p value =>
    obtain ⟨r, -, rfl⟩ := serve_float h
    rfl
  | octet addr p value erange env =>
    obtain ⟨r, -, rfl⟩ := serve_octet h
    rfl
  | sys l =>
    cases l with
    | write addr p value callocOk =>
      obtain ⟨-, -, rfl⟩ := step_write h
      rfl
    | packet p =>
      obtain ⟨-, r, -, rfl⟩ := step_packet h
      rfl
    | event env => cases other
    | frame env =>
      obtain ⟨r, -, rfl⟩ := step_frameTask h
      rfl

/-! ## The skeleton -/

/-- What a request is to the skeleton of the tasks. -/
def asks (s : Sys) : Request → Move
  | .sys l => s.move l
  | .float _ _ _ => .quiet
  | .octet _ _ _ _ _ => .quiet

/-- **Simulation**, for all requests. -/
theorem serve_control {r : Request} (holds : s.event.Holds) (h : s.serve r = some s') :
    s'.event.Holds ∧ s.control.step (s.asks r) = some s'.control := by
  have loaded : Loaded s.drv s'.drv → s'.event = s.event → s'.frame = s.frame →
      s'.event.Holds ∧ some s.control = some s'.control := by
    intro loaded event frame
    have same : s'.control = s.control := by
      rw [control, event, frame, loaded.eq]
      rfl
    rw [event, same]
    exact ⟨holds, rfl⟩
  cases r with
  | sys l => exact ⟨step_holds holds h, step_control holds h⟩
  | float addr p value =>
    obtain ⟨r, wrote, rfl⟩ := serve_float h
    exact loaded (Driver.writeFloat64_loaded wrote).1 rfl rfl
  | octet addr p value erange env =>
    obtain ⟨r, wrote, rfl⟩ := serve_octet h
    exact loaded (Driver.writeOctet_loaded wrote).1 rfl rfl

/-- The phases hold through all requests. -/
theorem serve_phased {r : Request} (holds : s.event.Holds) (phased : s.control.Phased) (h : s.serve r = some s') :
    s'.event.Holds ∧ s'.control.Phased :=
  (serve_control holds h).imp_right (Control.step_phased phased)

theorem served_phased {u : Uninit} {rs : List Request} (reached : Runs.run serve (init u) rs = some s) :
    s.event.Holds ∧ s.control.Phased :=
  Runs.run_invariant (fun s => s.event.Holds ∧ s.control.Phased) (fun _ _ _ inv => serve_phased inv.1 inv.2) reached
    ⟨.inl rfl, Control.phased_init u⟩

end Sys

end ADnED
