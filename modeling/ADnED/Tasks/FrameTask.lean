import ADnED.Tasks.Thread

/-!
# `frameTask`

The thread that copies `p_Data` into an NDArray for the plugins
(`ADnED.cpp:1716-1807`), as a step function on its program points. The environment
of a step decides whether `NDArrayPool::alloc` returns an array. When it does not,
the source still calls `pNDArray->release()` on the null pointer; the environment
then also decides whether the process survives that.
-/

namespace ADnED

/-- The program points of `frameTask`. -/
inductive FramePc where
  /-- Before the first `lock()`. -/
  | entry
  /-- The top of the `while(1)` loop. -/
  | top
  /-- The wait on `m_stopFrame` at the top of the `while(1)` loop. -/
  | drainWait
  | drainLock
  | idleSection
  /-- The wait on `m_startFrame`. -/
  | startWait
  | startLock
  | startSection
  /-- The top of the `while (acquire)` loop. -/
  | acquireTop
  /-- The wait on `m_stopFrame` of the `while (acquire)` loop. -/
  | frameWait
  /-- That wait has returned, and `got` whether with the event. -/
  | frameLock (got : Bool)
  | frameSection (got : Bool)
  /-- The process has died on the null array. -/
  | crashed
  deriving DecidableEq, Repr

/-- `frameTask` waits for an event. -/
def FramePc.isWait : FramePc → Bool
  | .drainWait | .startWait | .frameWait => true
  | _ => false

/-- `frameTask` is about to take the mutex. -/
def FramePc.takesLock : FramePc → Bool
  | .entry | .drainLock | .startLock | .frameLock _ => true
  | _ => false

/-- The locals of `frameTask`, and two history variables: the number of frames
copied so far, and whether one was copied from a block of another size than
`m_bufferMaxSize`. -/
structure FrameTask where
  pc : FramePc
  arrayCounter : Int32
  copies : Nat
  badCopy : Bool
  locks : Locks

/-- `frameTask` when it is started. -/
def FrameTask.init : FrameTask := ⟨.entry, 0, 0, false, Locks.init⟩

/-- What the environment decides about a frame. -/
structure FrameEnv where
  allocOk : Bool
  survives : Bool

namespace FrameTask

/-- The `memcpy` of a frame reads exactly the block behind `p_Data`. -/
def copyOk (d : Driver) : Bool :=
  match d.pData with
  | some b => b.length == d.bufferMaxSize.toNat
  | none => false

/-- The thread that runs `frameTask`. -/
def thread (f : FrameTask) (d : Driver) : Thread := ⟨d, f.locks⟩

/-- `frameTask` arrives at `pc` with the state `t` leaves. -/
def goto (f : FrameTask) (t : Thread) (pc : FramePc) : Driver × FrameTask :=
  (t.drv, { f with pc := pc, locks := t.locks })

/-- The end of a frame, after the array is allocated and filled or not. -/
def finishFrame (t : Thread) (arrayCounter : Int32) : Thread :=
  (t.setInt 0 .ndArrayCounter arrayCounter).callParamCallbacks

/-- A frame: the wait has timed out and `acquire` is still true. The mutex is taken
once more before the copy. -/
def frame (env : FrameEnv) (f : FrameTask) (t : Thread) : Driver × FrameTask :=
  let t := t.access
  if t.drv.int 0 .ndArrayCallbacks ≠ 0 then
    let f := { f with arrayCounter := f.arrayCounter + 1 }
    if env.allocOk then
      let f := { f with copies := f.copies + 1, badCopy := f.badCopy || !copyOk t.drv }
      f.goto (finishFrame t.lock f.arrayCounter) .acquireTop
    else if env.survives then f.goto (finishFrame t f.arrayCounter) .acquireTop
    else f.goto t .crashed
  else f.goto t .acquireTop

/-- One step of `frameTask`. -/
def step (env : FrameEnv) (d : Driver) (f : FrameTask) : Option (Driver × FrameTask) :=
  let t := f.thread d
  match f.pc with
  | .entry => some (f.goto t.lock .top)
  | .top => some (f.goto t.unlock .drainWait)
  | .drainWait => some (f.goto (t.modify ({ · with stopFrame := false })) .drainLock)
  | .drainLock => some (f.goto t.lock .idleSection)
  | .idleSection => some (f.goto t.callParamCallbacks.unlock .startWait)
  | .startWait =>
    if d.startFrame then some (f.goto (t.modify ({ · with startFrame := false })) .startLock)
    else none
  | .startLock => some (f.goto t.lock .startSection)
  | .startSection =>
    some ({ f with arrayCounter := 0 }.goto (t.setInt 0 .ndArrayCounter 0).callParamCallbacks .acquireTop)
  | .acquireTop => some (f.goto t.access.unlock .frameWait)
  | .frameWait =>
    some (f.goto (t.modify ({ · with stopFrame := false })) (.frameLock d.stopFrame))
  | .frameLock got => some (f.goto t.lock (.frameSection got))
  | .frameSection true => some (f.goto t .top)
  | .frameSection false => some (f.frame env t)
  | .crashed => none

end FrameTask

end ADnED
