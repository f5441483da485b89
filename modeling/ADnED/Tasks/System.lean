import ADnED.Driver.Handler
import ADnED.Tasks.EventTask
import ADnED.Tasks.FrameTask
import ADnED.Lib.Runs

/-!
# The driver as a system

The driver object with its two tasks. A step is a record write, a packet, or a step
of one of the tasks; record writes and packets are atomic under the driver mutex, and
a step that takes the mutex waits until no other thread holds it.
-/

namespace ADnED

/-- The driver and its threads. -/
structure Sys where
  drv : Driver
  event : EventTask
  frame : FrameTask

/-- The steps of the system, with the choices of the environment. -/
inductive Label where
  | write (addr : Nat) (p : IntParam) (value : Int32) (callocOk : Bool)
  | packet (p : Packet)
  | event (env : StartEnv)
  | frame (env : FrameEnv)

namespace Sys

/-- The system after the constructor. -/
def init (u : Uninit) : Sys := ⟨.construct u, .init, .init⟩

/-- Neither task holds the mutex. -/
def lockFree (s : Sys) : Bool := s.event.locks.hold == 0 && s.frame.locks.hold == 0

/-- The step function of the system. -/
def step (s : Sys) : Label → Option Sys
  | .write addr p value callocOk =>
    if p.writable && s.lockFree then
      (s.drv.writeInt32 callocOk addr p value).map fun r => { s with drv := r.1 }
    else none
  | .packet p =>
    if s.lockFree then (s.drv.eventHandler p).map fun r => { s with drv := r.1 }
    else none
  | .event env =>
    if s.event.pc.takesLock && s.frame.locks.hold != 0 then none
    else (s.event.step env s.drv).map fun r => { s with drv := r.1, event := r.2 }
  | .frame env =>
    if s.frame.pc.takesLock && s.event.locks.hold != 0 then none
    else (s.frame.step env s.drv).map fun r => { s with drv := r.1, frame := r.2 }

section

variable {s s' : Sys}

theorem step_write {addr : Nat} {p : IntParam} {value : Int32} {callocOk : Bool}
    (h : s.step (.write addr p value callocOk) = some s') :
    p.writable = true ∧ s.lockFree = true ∧ s' = { s with drv := (s.drv.applyInt32 callocOk addr p value).1 } := by
  simp only [step] at h
  split at h
  · rename_i enabled
    obtain ⟨writable, free⟩ := Bool.and_eq_true_iff.1 enabled
    obtain ⟨r, wrote, same⟩ := Option.map_eq_some_iff.1 h
    rw [Driver.writeInt32_eq_some wrote] at same
    exact ⟨writable, free, same.symm⟩
  · cases h

theorem step_packet {p : Packet} (h : s.step (.packet p) = some s') :
    s.lockFree = true ∧ ∃ r, s.drv.eventHandler p = some r ∧ s' = { s with drv := r.1 } := by
  simp only [step] at h
  split at h
  · rename_i free
    obtain ⟨r, handled, same⟩ := Option.map_eq_some_iff.1 h
    exact ⟨free, r, handled, same.symm⟩
  · cases h

theorem step_eventTask {env : StartEnv} (h : s.step (.event env) = some s') :
    ∃ r, s.event.step env s.drv = some r ∧ s' = { s with drv := r.1, event := r.2 } := by
  simp only [step] at h
  split at h
  · cases h
  · obtain ⟨r, taken, same⟩ := Option.map_eq_some_iff.1 h
    exact ⟨r, taken, same.symm⟩

theorem step_frameTask {env : FrameEnv} (h : s.step (.frame env) = some s') :
    ∃ r, s.frame.step env s.drv = some r ∧ s' = { s with drv := r.1, frame := r.2 } := by
  simp only [step] at h
  split at h
  · cases h
  · obtain ⟨r, taken, same⟩ := Option.map_eq_some_iff.1 h
    exact ⟨r, taken, same.symm⟩

end

/-- A run of the system. -/
abbrev run (s : Sys) (ls : List Label) : Option Sys := Runs.run step s ls

end Sys

end ADnED
