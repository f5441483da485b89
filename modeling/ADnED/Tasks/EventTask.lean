import ADnED.Tasks.Thread

/-!
# `eventTask`

The thread that starts and stops acquisitions (`ADnED.cpp:1477-1638`), as a step
function on its program points. A program point is a place where another thread can
get in between: the three event waits, each `lock()` that may have to wait, and the
code between them. An event wait that returns has emptied its event; the two waits
with a timeout also return when the event is empty.

The environment of a step decides whether `calloc` returns a block and for which
channels `setupChannelMonitor` succeeds; in every other case it throws. The monitors
that `eventTask` starts and stops belong to PVAccess and carry no state here.
-/

namespace ADnED

/-- The program points of `eventTask`. -/
inductive EventPc where
  /-- The wait on `m_stopEvent` at the top of the `while(1)` loop. -/
  | drainWait
  | idleLock
  | idleSection
  /-- The wait on `m_startEvent`. -/
  | startWait
  /-- The start event is consumed, the `lock()` behind it not yet taken. -/
  | startLock
  | startSection
  /-- The wait on `m_stopEvent` of the `while (acquire)` loop. -/
  | stopWait
  /-- The stop event is consumed, the `lock()` behind it not yet taken. -/
  | stopLock
  | stopSection
  /-- From "Stop monitor here" to the end of the `while(1)` loop. -/
  | tail
  deriving DecidableEq, Repr

/-- `eventTask` waits for an event. -/
def EventPc.isWait : EventPc → Bool
  | .drainWait | .startWait | .stopWait => true
  | _ => false

/-- `eventTask` is about to take the mutex. -/
def EventPc.takesLock : EventPc → Bool
  | .idleLock | .startLock | .stopLock => true
  | _ => false

/-- The locals of `eventTask` that live from one program point to the next. -/
structure EventTask where
  pc : EventPc
  error : Bool
  numChannels : Int32
  locks : Locks

/-- `eventTask` when it enters its `while(1)` loop. -/
def EventTask.init : EventTask := ⟨.drainWait, true, 0, Locks.init⟩

/-- What the environment decides about a start: the outcome of `calloc`, and the
channels whose `setupChannelMonitor` returns `asynSuccess`. -/
structure StartEnv where
  callocOk : Bool
  connects : Nat → Bool

namespace EventTask

/-- The channels the connect loop runs over. -/
def channels (numChannels : Int32) : List Nat := List.range numChannels.toInt.toNat

/-- The connect loop skips a channel whose PV name starts with the digit 0. -/
def skipsChannel (d : Driver) (c : Nat) : Bool := (d.str c .pvName).toList.head? == some '0'

/-- The connect loop ends with an exception. -/
def connectThrows (env : StartEnv) (d : Driver) (numChannels : Int32) : Bool :=
  (channels numChannels).any fun c => !skipsChannel d c && !env.connects c

/-- `lock(); setIntegerParam(ADAcquire, 0); ... unlock()` at the top of the loop,
without the `lock()`. -/
def idleSection (t : Thread) (error : Bool) : Thread :=
  let t := t.setInt 0 .adAcquire 0
  let t := if error then t else t.setMessage "Idle"
  t.callParamCallbacks.unlock

/-- The number of channels to connect to. -/
def readNumChannels (d : Driver) : Int32 :=
  if (maxChannels : Int) < (d.int 0 .numChannels).toInt then 4 else d.int 0 .numChannels

/-- The start once `allocArray` has succeeded, up to and without the connect loop. -/
def beginAcquire (t : Thread) : Thread :=
  let t := t.modify fun d => { d with pData := d.pData.map fun b => zeroCells b 0 d.bufferMaxSize.toNat }
  let t := (t.setStatus .acquire).setMessage "Acquiring Events"
  (t.modify ({ · with startFrame := true })).callParamCallbacks

/-- The connect loop and what follows it: the thread and `error`. -/
def connect (env : StartEnv) (t : Thread) (numChannels : Int32) : Thread × Bool :=
  -- reading the PV names accesses the parameter library once per channel
  let t := (channels numChannels).foldl (fun t _ => t.access) t
  if connectThrows env t.drv numChannels then
    let t := (t.setMessage "Failed To Connect To PV.").setStatus .error
    (t.modify ({ · with stopFrame := true }), true)
  else (t, false)

/-- "Complete Start callback": the end of the start, with the `unlock()`. -/
def completeStart (t : Thread) (error : Bool) : Thread :=
  let t := if error then t.setStatus .error else t
  ((t.callParamCallbacks.setInt 0 .start 0).callParamCallbacks).unlock

/-- The critical section of a start. -/
def startSection (env : StartEnv) (t : Thread) : Thread × Bool × Int32 :=
  let t := t.access
  let numChannels := readNumChannels t.drv
  match t.drv.allocArray env.callocOk with
  | (d, .error) =>
    let t := (t.call fun _ => d).setMessage "allocArray Error"
    (completeStart t true, true, numChannels)
  | (d, .success) =>
    match connect env (beginAcquire (t.call fun _ => d)) numChannels with
    | (t, error) => (completeStart t error, error, numChannels)

/-- The stop of a running acquisition, up to "Stop monitor here". -/
def stopSection (t : Thread) : Thread :=
  (t.setStatus .idle).modify ({ · with stopFrame := true })

/-- The rest of the `while(1)` loop: zero the event rates, complete the Stop callback. -/
def tailSection (t : Thread) : Thread :=
  let t := t.access
  let numDet := t.drv.int 0 .numDet
  let t := t.setInt 0 .eventRate 0
  let t := (dets numDet).foldl (fun t det => (t.setInt det .detEventRate 0).callParamCallbacks) t
  (((t.callParamCallbacks).setInt 0 .stop 0).callParamCallbacks).unlock

/-- The thread that runs `eventTask`. -/
def thread (e : EventTask) (d : Driver) : Thread := ⟨d, e.locks⟩

/-- `eventTask` arrives at `pc` with the state `t` leaves. -/
def goto (e : EventTask) (t : Thread) (pc : EventPc) : Driver × EventTask :=
  (t.drv, { e with pc := pc, locks := t.locks })

/-- One step of `eventTask`. -/
def step (env : StartEnv) (d : Driver) (e : EventTask) : Option (Driver × EventTask) :=
  let t := e.thread d
  match e.pc with
  | .drainWait => some (e.goto (t.modify ({ · with stopEvent := false })) .idleLock)
  | .idleLock => some (e.goto t.lock .idleSection)
  | .idleSection => some (e.goto (idleSection t e.error) .startWait)
  | .startWait =>
    if d.startEvent then
      some ({ e with error := false }.goto (t.modify ({ · with startEvent := false })) .startLock)
    else none
  | .startLock => some (e.goto t.lock .startSection)
  | .startSection =>
    match startSection env t with
    | (t, error, numChannels) =>
      some ({ e with error := error, numChannels := numChannels }.goto t
        (if error then .tail else .stopWait))
  | .stopWait =>
    if d.stopEvent then some (e.goto (t.modify ({ · with stopEvent := false })) .stopLock)
    else some (e.goto t .stopWait)
  | .stopLock => some (e.goto t.lock .stopSection)
  | .stopSection => some (e.goto (stopSection t) .tail)
  | .tail => some (e.goto (tailSection t) .drainWait)

end EventTask

end ADnED
