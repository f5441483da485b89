import ADnED.Tasks.EventTask
import ADnED.Tasks.FrameTask

/-!
# The control skeleton of the driver

What the threads tell each other is a small part of the driver: `ADStatus` and the
four binary events. `Control` keeps these and the program points of the two tasks and
forgets everything else; its step function is the handshake the driver implements.
-/

namespace ADnED

/-- What the threads tell each other. -/
structure Signals where
  adStatus : ADStatus
  startEvent : Bool
  stopEvent : Bool
  startFrame : Bool
  stopFrame : Bool
  deriving DecidableEq, Repr

/-- How a start ends. -/
inductive StartResult where
  | started
  /-- `allocArray` fails. -/
  | noLayout
  /-- `setupChannelMonitor` throws. -/
  | noConnect
  deriving DecidableEq, Repr

/-- The steps of the skeleton. `start` and `stop` are accepted writes, `allocFails` an
`AllocSpace` that fails, and `quiet` everything that leaves the skeleton alone. -/
inductive Move where
  | start
  | stop
  | allocFails
  | quiet
  | event (result : StartResult)
  | frame (alive : Bool)
  deriving DecidableEq, Repr

/-- The signals and the program points. -/
structure Control where
  sig : Signals
  event : EventPc
  frame : FramePc
  deriving DecidableEq, Repr

/-- `eventTask` holds the mutex here in any case. -/
def EventPc.locked : EventPc → Bool
  | .idleSection | .startSection | .stopSection => true
  | _ => false

namespace Signals

/-- The signals after an accepted write. -/
def afterWrite (s : Signals) : Move → Signals
  | .start => { s with startEvent := true }
  | .stop => { s with stopEvent := true }
  | .allocFails => { s with adStatus := .error }
  | _ => s

@[simp] theorem afterWrite_quiet (s : Signals) : s.afterWrite .quiet = s := rfl

/-- The signals a start sends. -/
def afterStart (s : Signals) : StartResult → Signals
  | .started => { s with adStatus := .acquire, startFrame := true }
  | .noLayout => { s with adStatus := .error }
  | .noConnect => { s with adStatus := .error, startFrame := true, stopFrame := true }

/-- The signals a stop sends. -/
def afterStop (s : Signals) : Signals := { s with adStatus := .idle, stopFrame := true }

end Signals

namespace Control

/-- `eventTask`. -/
def stepEvent (c : Control) (result : StartResult) : Option Control :=
  match c.event with
  | .drainWait => some { c with sig := { c.sig with stopEvent := false }, event := .idleLock }
  | .idleLock => some { c with event := .idleSection }
  | .idleSection => some { c with event := .startWait }
  | .startWait =>
    if c.sig.startEvent then
      some { c with sig := { c.sig with startEvent := false }, event := .startLock }
    else none
  | .startLock => some { c with event := .startSection }
  | .startSection =>
    some { c with
      sig := c.sig.afterStart result
      event := if result = .started then .stopWait else .tail }
  | .stopWait =>
    if c.sig.stopEvent then
      some { c with sig := { c.sig with stopEvent := false }, event := .stopLock }
    else some c
  | .stopLock => some { c with event := .stopSection }
  | .stopSection => some { c with sig := c.sig.afterStop, event := .tail }
  | .tail => some { c with event := .drainWait }

/-- `frameTask`. `alive` is whether the process survives a frame without an array. -/
def stepFrame (c : Control) (alive : Bool) : Option Control :=
  match c.frame with
  | .entry => some { c with frame := .top }
  | .top => some { c with frame := .drainWait }
  | .drainWait => some { c with sig := { c.sig with stopFrame := false }, frame := .drainLock }
  | .drainLock => some { c with frame := .idleSection }
  | .idleSection => some { c with frame := .startWait }
  | .startWait =>
    if c.sig.startFrame then
      some { c with sig := { c.sig with startFrame := false }, frame := .startLock }
    else none
  | .startLock => some { c with frame := .startSection }
  | .startSection => some { c with frame := .acquireTop }
  | .acquireTop => some { c with frame := .frameWait }
  | .frameWait =>
    some { c with sig := { c.sig with stopFrame := false }, frame := .frameLock c.sig.stopFrame }
  | .frameLock got => some { c with frame := .frameSection got }
  | .frameSection true => some { c with frame := .top }
  | .frameSection false => some { c with frame := if alive then .acquireTop else .crashed }
  | .crashed => none

/-- The step function of the skeleton. No Start gets in while `eventTask` holds the mutex. -/
def step (c : Control) : Move → Option Control
  | .start =>
    if Driver.startable c.sig.adStatus && !c.event.locked then
      some { c with sig := c.sig.afterWrite .start }
    else none
  | .stop => if c.sig.adStatus = .acquire then some { c with sig := c.sig.afterWrite .stop } else none
  | .allocFails =>
    if c.sig.adStatus ≠ .acquire then some { c with sig := c.sig.afterWrite .allocFails } else none
  | .quiet => some c
  | .event result => c.stepEvent result
  | .frame alive => c.stepFrame alive

end Control

end ADnED
