import ADnED.Driver.Write

/-!
# A thread at work on the driver

The driver mutex (`lock()`/`unlock()` of `asynPortDriver`) is recursive. A thread
that runs a piece of `eventTask` or `frameTask` is the driver together with the
thread's own account of the mutex: how often it holds it, whether it has ever
released it without holding it, and whether it has ever touched the parameter
library without holding it. The operations below are the statements the two tasks
are made of.
-/

namespace ADnED

/-- A thread's account of the driver mutex. -/
structure Locks where
  hold : Nat
  strayUnlock : Bool
  bareAccess : Bool
  deriving DecidableEq, Repr

/-- The account of a thread that has done nothing yet. -/
def Locks.init : Locks := ⟨0, false, false⟩

namespace Locks

/-- The mutex is taken once more. -/
def take (l : Locks) : Locks := { l with hold := l.hold + 1 }

/-- The mutex is released once. Without it held that has no effect, but is remembered. -/
def release (l : Locks) : Locks :=
  if l.hold = 0 then { l with strayUnlock := true } else { l with hold := l.hold - 1 }

/-- The parameter library is used. -/
def touch (l : Locks) : Locks := { l with bareAccess := l.bareAccess || l.hold == 0 }

@[simp] theorem take_mk (n : Nat) (u a : Bool) : take ⟨n, u, a⟩ = ⟨n + 1, u, a⟩ := rfl

@[simp] theorem release_mk_succ (n : Nat) (u a : Bool) : release ⟨n + 1, u, a⟩ = ⟨n, u, a⟩ := rfl

@[simp] theorem touch_mk_succ (n : Nat) (u a : Bool) : touch ⟨n + 1, u, a⟩ = ⟨n + 1, u, a⟩ := by
  simp [touch]

@[simp] theorem touch_touch (l : Locks) : l.touch.touch = l.touch := by
  simp [touch]

@[simp] theorem take_strayUnlock (l : Locks) : l.take.strayUnlock = l.strayUnlock := rfl

@[simp] theorem touch_strayUnlock (l : Locks) : l.touch.strayUnlock = l.strayUnlock := rfl

@[simp] theorem touch_hold (l : Locks) : l.touch.hold = l.hold := rfl

@[simp] theorem take_hold (l : Locks) : l.take.hold = l.hold + 1 := rfl

@[simp] theorem release_hold (l : Locks) : l.release.hold = l.hold - 1 := by
  unfold release
  split
  · simp [*]
  · rfl

/-- A stray release is never forgotten, and one without the mutex held is stray. -/
theorem release_strayUnlock {l : Locks} (h : l.strayUnlock = true ∨ l.hold = 0) :
    l.release.strayUnlock = true := by
  unfold release
  split
  · rfl
  · rename_i held
    exact h.resolve_right held

end Locks

/-- The driver as one thread works on it. -/
structure Thread where
  drv : Driver
  locks : Locks

namespace Thread

/-- `lock()`. -/
def lock (t : Thread) : Thread := { t with locks := t.locks.take }

/-- `unlock()`. -/
def unlock (t : Thread) : Thread := { t with locks := t.locks.release }

/-- Any access to the parameter library. -/
def access (t : Thread) : Thread := { t with locks := t.locks.touch }

/-- A call that works on the driver through the parameter library. -/
def call (t : Thread) (f : Driver → Driver) : Thread :=
  { t.access with drv := f t.drv }

/-- `setIntegerParam(addr, function, value)`. -/
def setInt (t : Thread) (addr : Nat) (p : IntParam) (v : Int32) : Thread :=
  t.call (·.setInt addr p v)

/-- `setIntegerParam(ADStatus, value)`. -/
def setStatus (t : Thread) (status : ADStatus) : Thread :=
  t.call ({ · with adStatus := status })

/-- `setStringParam(ADStatusMessage, message)`. -/
def setMessage (t : Thread) (message : String) : Thread :=
  t.call (·.setStr 0 .adStatusMessage message)

/-- `callParamCallbacks()`, which reads the parameter lists. -/
def callParamCallbacks (t : Thread) : Thread := t.access

/-- A statement that does not go through the parameter library. -/
def modify (t : Thread) (f : Driver → Driver) : Thread := { t with drv := f t.drv }

section drv

variable (t : Thread) (f : Driver → Driver)

@[simp] theorem lock_drv : t.lock.drv = t.drv := rfl

@[simp] theorem unlock_drv : t.unlock.drv = t.drv := rfl

@[simp] theorem access_drv : t.access.drv = t.drv := rfl

@[simp] theorem callParamCallbacks_drv : t.callParamCallbacks.drv = t.drv := rfl

@[simp] theorem call_drv : (t.call f).drv = f t.drv := rfl

@[simp] theorem modify_drv : (t.modify f).drv = f t.drv := rfl

@[simp] theorem setInt_drv (addr : Nat) (p : IntParam) (v : Int32) :
    (t.setInt addr p v).drv = t.drv.setInt addr p v := rfl

@[simp] theorem setStatus_drv (status : ADStatus) :
    (t.setStatus status).drv = { t.drv with adStatus := status } := rfl

@[simp] theorem setMessage_drv (message : String) :
    (t.setMessage message).drv = t.drv.setStr 0 .adStatusMessage message := rfl

end drv

section locks

variable (t : Thread) (f : Driver → Driver)

@[simp] theorem lock_locks : t.lock.locks = t.locks.take := rfl

@[simp] theorem unlock_locks : t.unlock.locks = t.locks.release := rfl

@[simp] theorem access_locks : t.access.locks = t.locks.touch := rfl

@[simp] theorem callParamCallbacks_locks : t.callParamCallbacks.locks = t.locks.touch := rfl

@[simp] theorem call_locks : (t.call f).locks = t.locks.touch := rfl

@[simp] theorem modify_locks : (t.modify f).locks = t.locks := rfl

@[simp] theorem setInt_locks (addr : Nat) (p : IntParam) (v : Int32) :
    (t.setInt addr p v).locks = t.locks.touch := rfl

@[simp] theorem setStatus_locks (status : ADStatus) : (t.setStatus status).locks = t.locks.touch := rfl

@[simp] theorem setMessage_locks (message : String) : (t.setMessage message).locks = t.locks.touch := rfl

/-- Once the parameter library has been used, using it again in a loop changes nothing. -/
theorem foldl_locks {α : Type} {f : Thread → α → Thread} (uses : ∀ t a, (f t a).locks = t.locks.touch)
    (as : List α) {t : Thread} {l : Locks} (h : t.locks = l.touch) : (as.foldl f t).locks = l.touch := by
  induction as generalizing t with
  | nil => exact h
  | cons a as ih =>
    apply ih
    rw [uses, h, Locks.touch_touch]

end locks

end Thread

end ADnED
