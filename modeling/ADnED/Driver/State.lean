import ADnED.Driver.Transform

/-!
# The state of the driver

The data members of class `ADnED` (`ADnED.h:180-246`) and its parameter library.
Fields keep the words of the members without the `m_`/`p_` prefix. `p_Data` is the
block of `epicsUInt32` cells behind the pointer, `none` for NULL; the four
`epicsEventId` members are binary events, read as "full".
-/

namespace ADnED

/-- `epics::pvData::TimeStamp`. Two time stamps compare by their time alone. -/
structure TimeStamp where
  secondsPastEpoch : Int
  nanoseconds : Int
  userTag : Int32
  deriving DecidableEq

/-- The time since the epoch in nanoseconds, which is what the comparisons of
`TimeStamp` look at. -/
def TimeStamp.nanos (t : TimeStamp) : Int := t.secondsPastEpoch * 1000000000 + t.nanoseconds

/-- `TimeStamp::put(secondsPastEpoch, nanoseconds)`: the user tag stays. -/
def TimeStamp.put (t : TimeStamp) (secs nanos : Int) : TimeStamp :=
  { t with secondsPastEpoch := secs, nanoseconds := nanos }

/-- The per-detector copies `eventHandler` takes of the parameters
(`m_detStartValues[det]` and the arrays that follow it in `ADnED.h`). -/
structure DetValues where
  start : Int32
  stop : Int32
  size : Int32
  ndArrayStart : Int32
  ndArrayTOFStart : Int32
  tofROIStart : Int32
  tofROISize : Int32
  tofROIEnabled : Int32
  pixelMappingEnabled : Int32
  tofTransType : Int32
  tofTransScale : ℚ
  tofTransOffset : ℚ
  pixelROIStartX : Int32
  pixelROIStartY : Int32
  pixelROISizeX : Int32
  pixelROISizeY : Int32
  pixelSizeX : Int32
  pixelROIEnable : Int32

/-- The driver object. `detTotalEvents` is the number a double holds that is only
cleared and incremented (see `dblSucc`). -/
structure Driver where
  int : Store IntParam Int32
  dbl : Store DblParam ℚ
  str : Store StrParam String
  adStatus : ADStatus
  allocSpaceStatus : AllocStatus
  seqCounter : Nat → UInt32
  seqID : Nat → UInt32
  lastSeqID : Nat → UInt32
  pulseCounter : UInt32
  pChargeInt : ℚ
  lastTimeSecs : ℚ
  pData : Option (List UInt32)
  pixelMap : Nat → Option (List UInt32)
  pixelMapSize : Nat → UInt32
  dataAlloc : Bool
  dataMaxSize : UInt32
  bufferMaxSize : UInt32
  tofMax : UInt32
  timeStamp : Nat → TimeStamp
  timeStampLast : Nat → TimeStamp
  det : Nat → DetValues
  eventsSinceLastUpdate : UInt32
  detEventsSinceLastUpdate : Nat → UInt32
  detTotalEvents : Nat → Nat
  transform : Nat → Transform
  startEvent : Bool
  stopEvent : Bool
  startFrame : Bool
  stopFrame : Bool

/-- `++` on a double that holds a count: exact up to `2^53`, where the increment is
lost to rounding. -/
def dblSucc (n : Nat) : Nat := if n < 2 ^ 53 then n + 1 else n

/-- The detector numbers a loop `for (det=1; det<=numDet; det++)` visits. -/
def dets (numDet : Int32) : List Nat := List.range' 1 numDet.toInt.toNat

theorem mem_dets {n : Int32} {det : Nat} : det ∈ dets n ↔ 1 ≤ det ∧ det ≤ n.toInt.toNat := by
  rw [dets, List.mem_range'_1]
  omega

namespace Driver

/-- `setIntegerParam(addr, function, value)`. -/
def setInt (d : Driver) (addr : Nat) (p : IntParam) (v : Int32) : Driver :=
  { d with int := d.int.set addr p v }

/-- `setDoubleParam(addr, function, value)`. -/
def setDbl (d : Driver) (addr : Nat) (p : DblParam) (v : ℚ) : Driver :=
  { d with dbl := d.dbl.set addr p v }

/-- `setStringParam(addr, function, value)`. -/
def setStr (d : Driver) (addr : Nat) (p : StrParam) (v : String) : Driver :=
  { d with str := d.str.set addr p v }

end Driver

/-- The contents of the members the constructor leaves uninitialised
(`m_eventsSinceLastUpdate` and `m_detEventsSinceLastUpdate`), the base-class settings
it does not touch, and the platform's `sqrt`. -/
structure Uninit where
  eventsSinceLastUpdate : UInt32
  detEventsSinceLastUpdate : Nat → UInt32
  eventUpdatePeriod : ℚ
  frameUpdatePeriod : ℚ
  ndArrayCallbacks : Int32
  sqrt : ℚ → ℚ

/-- A heap of zeros, with the array callbacks enabled. -/
def Uninit.blank : Uninit := ⟨0, fun _ => 0, 0, 0, 1, fun _ => 1⟩

/-- The integer parameters after the constructor: all zero, except `PixelSizeX`, and
whatever the base class has put into `NDArrayCallbacks`. -/
def initInt (u : Uninit) : Store IntParam Int32 := fun addr p =>
  match p with
  | .pixelSizeX => 1
  | .ndArrayCallbacks => if addr = 0 then u.ndArrayCallbacks else 0
  | _ => 0

/-- The state after `ADnED::ADnED`. `ADDriver` initialises `ADStatus` to idle. -/
def Driver.construct (u : Uninit) : Driver where
  int := initInt u
  dbl := fun _ p =>
    match p with
    | .tofTransScale => 1
    | .eventUpdatePeriod => u.eventUpdatePeriod
    | .frameUpdatePeriod => u.frameUpdatePeriod
    | _ => 0
  str := fun _ _ => " "
  adStatus := .idle
  allocSpaceStatus := .ok
  seqCounter := fun _ => 0
  seqID := fun _ => 0
  lastSeqID := fun _ => -1
  pulseCounter := 0
  pChargeInt := 0
  lastTimeSecs := 0
  pData := none
  pixelMap := fun _ => none
  pixelMapSize := fun _ => 0
  dataAlloc := true
  dataMaxSize := 0
  bufferMaxSize := 0
  tofMax := 0
  timeStamp := fun _ => ⟨0, 0, 0⟩
  timeStampLast := fun _ => ⟨0, 0, 0⟩
  det := fun _ => ⟨0, 0, 0, 0, 0, 0, 0, 0, 0, 0, 0, 0, 0, 0, 0, 0, 0, 0⟩
  eventsSinceLastUpdate := u.eventsSinceLastUpdate
  detEventsSinceLastUpdate := u.detEventsSinceLastUpdate
  detTotalEvents := fun _ => 0
  transform := fun _ => ⟨fun _ => 0, fun _ => 0, fun _ => none, fun _ => 0, false, u.sqrt⟩
  startEvent := false
  stopEvent := false
  startFrame := false
  stopFrame := false

/-- A driver that has got some integer parameters since it was constructed. -/
def Driver.withInts (ws : List (Nat × IntParam × Int32)) : Driver :=
  ws.foldl (fun d w => d.setInt w.1 w.2.1 w.2.2) (construct .blank)

end ADnED
