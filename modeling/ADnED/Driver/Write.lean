import ADnED.Driver.Alloc

/-!
# `clearParams`, `resetTOFArray` and `writeInt32`

The commands a record write reaches (`ADnED.cpp:423-614`, `960-976`, `1429-1471`).
`writeInt32` runs under the port lock, so each call is one step of the system.
-/

namespace ADnED

/-- `memset(p, 0, n*sizeof(epicsUInt32))` on the cells `[from, from+n)` of a block.
Only the cells the block has can be represented. -/
def zeroCells (b : List UInt32) (first n : Nat) : List UInt32 :=
  b.mapIdx fun i v => if first ≤ i ∧ i < first + n then 0 else v

namespace Driver

/-- The channel parameters `clearParams` sets to 0. -/
def clearedByChannel : IntParam → Bool
  | .seqCounter | .seqID | .seqIDMissing | .seqIDNumMissing | .badTimeStamp => true
  | _ => false

/-- `ADnED::clearParams`. Every `setIntegerParam` in it names an existing parameter,
so it always returns `asynSuccess`. -/
def clearParams (d : Driver) : Driver :=
  { d with
    int := fun addr p =>
      if addr = 0 ∧ p = .pulseCounter then 0
      else if addr < maxChannels ∧ clearedByChannel p then 0
      else d.int addr p
    dbl := fun addr p =>
      if addr = 0 ∧ (p = .pCharge ∨ p = .pChargeInt) then 0
      else if addr ≤ maxDets ∧ p = .detEventTotal then 0
      else d.dbl addr p
    pChargeInt := 0
    pulseCounter := 0
    pData := d.pData.map fun b => zeroCells b 0 d.bufferMaxSize.toNat
    seqCounter := fun c => if c < maxChannels then 0 else d.seqCounter c
    seqID := fun c => if c < maxChannels then 0 else d.seqID c
    lastSeqID := fun c => if c < maxChannels then -1 else d.lastSeqID c
    timeStamp := fun c => if c < maxChannels then (d.timeStamp c).put 0 0 else d.timeStamp c
    timeStampLast := fun c => if c < maxChannels then (d.timeStampLast c).put 0 0 else d.timeStampLast c
    detTotalEvents := fun det => if det ≤ maxDets then 0 else d.detTotalEvents det }

/-- The cells `resetTOFArray(det)` zeroes: first index and number, or none. -/
def resetTOFRange (d : Driver) (det : Nat) : Option (Nat × Nat) :=
  let tofStart := d.int det .ndArrayTOFStart
  if 0 < d.tofMax ∧ d.pData.isSome ∧ 0 < tofStart then
    some (tofStart.toInt.toNat, (d.tofMax + 1).toNat)
  else none

/-- `ADnED::resetTOFArray`. -/
def resetTOFArray (d : Driver) (det : Nat) : Driver :=
  match d.resetTOFRange det with
  | some (first, n) => { d with pData := d.pData.map fun b => zeroCells b first n }
  | none => d

/-- `p_Transform[addr]->setIntParam(transIndex, value)`, which cannot fail for the
six indices the driver has. Only the detectors have a `p_Transform[addr]`; `writeInt32` is not
defined at the address 0. -/
def setTransInt (d : Driver) (addr index : Nat) (value : Int32) : Driver :=
  let t := d.transform addr
  let t := { t with intParam := Function.update t.intParam index value.toUInt32 }
  { d with transform := Function.update d.transform addr t }

/-- `p_Transform[addr]->setDebug(value != 0)`, for a detector as well. -/
def setTransDebug (d : Driver) (addr : Nat) (value : Int32) : Driver :=
  let t := { d.transform addr with debug := value != 0 }
  { d with transform := Function.update d.transform addr t }

/-- The states a Start is accepted in. -/
def startable : ADStatus → Bool
  | .idle | .error | .aborted => true
  | _ => false

/-- The accepted Start: clear, unpause, signal `m_startEvent`. -/
def sendStart (d : Driver) : Driver :=
  { (d.clearParams.setInt 0 .pause 0) with startEvent := true }

/-- The accepted Stop: unpause, signal `m_stopEvent`. -/
def sendStop (d : Driver) : Driver :=
  { (d.setInt 0 .pause 0) with stopEvent := true }

/-- The failed `AllocSpace` command. -/
def allocSpaceFailed (d : Driver) : Driver :=
  { (d.setStr 0 .adStatusMessage "allocArray Error") with
    allocSpaceStatus := .fail, adStatus := .error }

/-- The common end of `writeInt32`: ask for an allocation if one is due, then store
the value. -/
def storeInt (d : Driver) (addr : Nat) (p : IntParam) (value : Int32) : Driver :=
  (if d.dataAlloc then { d with allocSpaceStatus := .req } else d).setInt addr p value

/-- A layout parameter: refused during an acquisition, else it makes a new layout due. -/
def writeLayout (d : Driver) (addr : Nat) (p : IntParam) (value : Int32) : Driver × AsynStatus :=
  if d.adStatus ≠ .acquire then (storeInt { d with dataAlloc := true } addr p value, .success)
  else (d, .error)

/-- `NumDet` and `NumChannels`: refused during an acquisition and above their maximum. -/
def writeBounded (d : Driver) (addr : Nat) (p : IntParam) (value : Int32) (max : Nat) :
    Driver × AsynStatus :=
  if d.adStatus ≠ .acquire then
    if (max : Int) < value.toInt then (d, .error)
    else (d.storeInt addr p value, .success)
  else (d, .error)

/-- What `ADnED::writeInt32` does, where it is defined, for an asyn address, a parameter and
a value. `callocOk` is the outcome of the allocation an `AllocSpace` makes. -/
def applyInt32 (callocOk : Bool) (d : Driver) (addr : Nat) (p : IntParam) (value : Int32) :
    Driver × AsynStatus :=
  if maxDets < addr then (d, .error)
  else
    match p with
    | .reset => (d.clearParams.storeInt addr p value, .success)
    | .start =>
      if value ≠ 0 then
        if startable d.adStatus then (d.sendStart.storeInt addr p value, .success)
        else (d.setInt 0 .start 0, .error)
      else (d.storeInt addr p value, .success)
    | .stop =>
      if value ≠ 0 then
        if d.adStatus = .acquire then (d.sendStop.storeInt addr p value, .success)
        else (d.setInt 0 .stop 0, .error)
      else (d.storeInt addr p value, .success)
    | .pixelNumStart => d.writeLayout addr p value
    | .pixelNumEnd => d.writeLayout addr p value
    | .pixelNumSize => d.writeLayout addr p value
    | .tofMax => d.writeLayout addr p value
    | .allocSpace =>
      if d.adStatus ≠ .acquire then
        match d.allocArray callocOk with
        | (d, .success) => (d.storeInt addr p value, .success)
        | (d, .error) => (d.allocSpaceFailed, .error)
      else (d, .error)
    | .numDet => d.writeBounded addr p value maxDets
    | .numChannels => d.writeBounded addr p value maxChannels
    | .tofTransDebug => ((d.setTransDebug addr value).storeInt addr p value, .success)
    | .pixelROISizeX => (d.storeInt addr p (if value ≤ 0 then 1 else value), .success)
    | .pixelROIEnable =>
      -- the two filters exclude each other
      ((if value = 1 then d.setInt addr .tofROIEnable 0 else d).storeInt addr p value, .success)
    | .tofROIEnable =>
      ((if value = 1 then d.setInt addr .pixelROIEnable 0 else d).storeInt addr p value, .success)
    | .tofArrayReset => ((d.resetTOFArray addr).storeInt addr p value, .success)
    | .tofTransInt index => ((d.setTransInt addr index value).storeInt addr p value, .success)
    | _ => (d.storeInt addr p value, .success)

/-- The parameters whose branch of `writeInt32` follows the pointer `p_Transform[addr]`. -/
def usesTransform : IntParam → Bool
  | .tofTransPrint | .tofTransDebug | .tofTransInt _ => true
  | _ => false

/-- `ADnED::writeInt32`. There is no `p_Transform[0]`. -/
def writeInt32 (callocOk : Bool) (d : Driver) (addr : Nat) (p : IntParam) (value : Int32) :
    Option (Driver × AsynStatus) :=
  if addr = 0 ∧ usesTransform p then none else some (d.applyInt32 callocOk addr p value)

theorem writeInt32_eq_some {callocOk : Bool} {d : Driver} {addr : Nat} {p : IntParam} {value : Int32}
    {r : Driver × AsynStatus} (h : d.writeInt32 callocOk addr p value = some r) :
    r = d.applyInt32 callocOk addr p value := by
  unfold writeInt32 at h
  split at h
  · cases h
  · exact (Option.some.inj h).symm

end Driver

end ADnED
