import Mathlib.Data.Rat.Defs
import Mathlib.Algebra.Order.Ring.Rat

/-!
# The parameter library of the driver

The names the driver registers with `createParam` (`ADnED.cpp:109-182`), split by
type, together with the base-class parameters it reads or writes. A parameter is
addressed by an asyn address and a name: address 0 holds the global parameters and
the channel-0 ones, address `det` those of detector `det` (1-based), address `chan`
those of channel `chan` (0-based). The names carry the words of the `ADnED.h`
members without the `ADnED`/`ADnEDDet` prefix and the `Param` suffix.
-/

namespace ADnED

/-- `ADNED_MAX_DETS`. -/
def maxDets : Nat := 4

/-- `ADNED_MAX_CHANNELS`. -/
def maxChannels : Nat := 4

/-- `asynStatus`, as far as the driver distinguishes it. -/
inductive AsynStatus where
  | success
  | error
  deriving DecidableEq, Repr

/-- The values of `ADStatus` (`ADDriver.h`). The driver itself only sets `idle`,
`acquire` and `error`, but `writeInt32` also tests for `aborted`. -/
inductive ADStatus where
  | idle
  | acquire
  | readout
  | correct
  | saving
  | aborting
  | error
  | waiting
  | initializing
  | disconnected
  | aborted
  deriving DecidableEq, Repr

/-- `s_ADNED_ALLOC_STATUS_OK`, `_REQ` and `_FAIL`. -/
inductive AllocStatus where
  | ok
  | req
  | fail
  deriving DecidableEq, Repr

/-- The `asynParamInt32` parameters. -/
inductive IntParam where
  -- commands and global configuration
  | reset | start | stop | pause | eventDebug | numChannels | numDet | tofMax | allocSpace
  -- channel readbacks
  | seqCounter | seqID | seqIDMissing | seqIDNumMissing | badTimeStamp
  -- global readbacks
  | pulseCounter | eventRate
  -- detector configuration
  | pixelNumStart | pixelNumEnd | pixelNumSize | tofNumBins | twoDType
  | tofROIStart | tofROISize | tofROIEnable | tofArrayReset
  | tofTransInt (index : Fin 6) | tofTransPrint | tofTransDebug | tofTransType
  | pixelMapPrint | pixelMapEnable
  | pixelROIStartX | pixelROISizeX | pixelROIStartY | pixelROISizeY | pixelSizeX | pixelROIEnable
  -- detector readbacks
  | ndArrayStart | ndArrayEnd | ndArraySize | ndArrayTOFStart | ndArrayTOFEnd | detEventRate
  -- base class
  | adAcquire | ndArrayCallbacks | ndArrayCounter
  deriving DecidableEq, Repr

/-- The `asynParamFloat64` parameters. -/
inductive DblParam where
  | pCharge | pChargeInt | eventUpdatePeriod | frameUpdatePeriod | detEventTotal
  | tofTransFloat (index : Fin 6) | tofTransOffset | tofTransScale
  deriving DecidableEq, Repr

/-- The `asynParamOctet` parameters. -/
inductive StrParam where
  | adStatusMessage | pvName | tofTransFile (index : Fin 6) | pixelMapFile
  deriving DecidableEq, Repr

/-- The parameters that an output record of `ADnEDApp/Db` writes (`bo`, `busy`,
`longout` and `mbbo`). The remaining integer parameters are readbacks: only the
driver sets them. -/
def IntParam.writable : IntParam → Bool
  | .seqCounter | .seqID | .seqIDMissing | .seqIDNumMissing | .badTimeStamp
  | .pulseCounter | .eventRate
  | .ndArrayStart | .ndArrayEnd | .ndArraySize | .ndArrayTOFStart | .ndArrayTOFEnd | .detEventRate
  | .ndArrayCounter => false
  | _ => true

/-- One asyn parameter list per address and type. -/
abbrev Store (P α : Type) := Nat → P → α

/-- `setIntegerParam(addr, function, value)` and its siblings. -/
def Store.set {P α : Type} [DecidableEq P] (s : Store P α) (addr : Nat) (p : P) (v : α) : Store P α :=
  fun a q => if a = addr ∧ q = p then v else s a q

section Store

variable {P α : Type} [DecidableEq P] (s : Store P α) (addr : Nat) (p : P) (v : α)

@[simp] theorem Store.set_same : s.set addr p v addr p = v := by
  simp [Store.set]

theorem Store.set_apply (a : Nat) (q : P) :
    s.set addr p v a q = if a = addr ∧ q = p then v else s a q := rfl

@[simp] theorem Store.set_other_param {q : P} (a : Nat) (h : q ≠ p) : s.set addr p v a q = s a q := by
  simp [Store.set, h]

@[simp] theorem Store.set_other_addr {a : Nat} (q : P) (h : a ≠ addr) : s.set addr p v a q = s a q := by
  simp [Store.set, h]

end Store

end ADnED
