import ADnED.Driver.Write
import ADnED.Lib.Tally

/-!
# `eventHandler`

The monitor callback of `ADnED.cpp:981-1311`, which integrates the events of one
packet into `p_Data`. The function is cut where the source releases and takes the
lock: the snapshot of the parameters, the time stamp and sequence checks, the
integration loop and the parameter update.

`none` stands for undefined behaviour: a division by zero, a conversion of a double
that has no `int` value, a read outside a pixel map or a transformation array, or an
increment outside `p_Data`. Signed overflow wraps.
-/

namespace ADnED

/-- An `uint[]` field of a packet. PVAccess transmits array lengths in 32 bits. -/
structure PVUIntArray where
  data : List UInt32
  length_lt : data.length < 2 ^ 32

/-- The parts of the monitored structure that `eventHandler` looks at, with the
channel it arrives on and the time of the call. A field the structure lacks is
`none`. -/
structure Packet where
  channelID : Nat
  now : ℚ
  timeStamp : Option TimeStamp
  pCharge : Option ℚ
  pixels : Option PVUIntArray
  tof : Option PVUIntArray

/-- Where `eventHandler` returns. `paused` and `integrated` are the two ways through
the function, every other outcome is a rejection. -/
inductive Outcome where
  | badChannel
  | badROISize
  | noTimeStamp
  | backwards
  | noPCharge
  | notAllocated
  | noArrays
  | lengthMismatch
  | paused
  | integrated
  deriving DecidableEq, Repr

/-- The local variables of the integration loop, which are declared outside it and
keep their values from one turn to the next. -/
structure LoopVars where
  mappedPixelIndex : Int32
  tof : Dbl
  tofInt : UInt32
  plotType : Int32
  tofBins : Int32
  xPos : UInt32
  yPos : UInt32
  tofIndex : Int32
  deriving DecidableEq

/-- Their values when the loop is entered. -/
def LoopVars.zero : LoopVars := ⟨0, .fin 0, 0, 0, 0, 0, 0, 0⟩

/-- The locals of `eventHandler` that are read before the lock is taken and used
after it: `due` is `timeDiffSecs` when an update is due. -/
structure HandlerVars where
  paused : Bool
  due : Option ℚ
  numChan : Int32
  numDet : Int32

/-- The two plots of a detector in `p_Data`. -/
inductive Plot where
  | pixels
  | spectrum
  deriving DecidableEq, Repr

/-- One `p_Data[index]++` made on behalf of a detector. -/
structure Bump where
  det : Nat
  plot : Plot
  index : Int
  deriving DecidableEq, Repr

/-- `static_cast<epicsUInt32>(floor(x))`. The result is only used for a value that the
TOF range test has let through. -/
def Dbl.floorUInt32 : Dbl → UInt32
  | .fin q => UInt32.ofNat (q.floor % 2 ^ 32).toNat
  | .nonfin => 0

/-- `int(z)` for an integral double. -/
def toInt32? (z : Int) : Option Int32 :=
  if -2 ^ 31 ≤ z ∧ z < 2 ^ 31 then some (Int32.ofInt z) else none

/-- `a / b` and `a % b` are defined. -/
def divDefined (a b : Int32) : Bool := b ≠ 0 && !(a = Int32.minValue && b = -1)

/-- The TOF bin count after clamping. -/
def clampBins (tofBins : Int32) (tofMax : UInt32) : Int32 :=
  if tofBins < 1 then 1
  else if tofMax < tofBins.toUInt32 then tofMax.toInt32
  else tofBins

/-- `int(floor(tof / (m_tofMax / tofBins)))`: an integer division inside a
floating-point one. -/
def tofBin (tof : Dbl) (tofMax : UInt32) (tofBins : Int32) : Option Int32 :=
  if tofBins = 0 then none
  else
    let width := tofMax / tofBins.toUInt32
    match tof with
    | .fin q => if width = 0 then none else toInt32? (q / width.toNat).floor
    | .nonfin => none

namespace Driver

/-- The parameters of `det` as the snapshot loop reads them. -/
def readDet (d : Driver) (det : Nat) : DetValues where
  start := d.int det .pixelNumStart
  stop := d.int det .pixelNumEnd
  size := d.int det .pixelNumSize
  ndArrayStart := d.int det .ndArrayStart
  ndArrayTOFStart := d.int det .ndArrayTOFStart
  tofROIStart := d.int det .tofROIStart
  tofROISize := d.int det .tofROISize
  tofROIEnabled := d.int det .tofROIEnable
  pixelMappingEnabled := d.int det .pixelMapEnable
  tofTransType := d.int det .tofTransType
  tofTransScale := d.dbl det .tofTransScale
  tofTransOffset := d.dbl det .tofTransOffset
  pixelROIStartX := d.int det .pixelROIStartX
  pixelROIStartY := d.int det .pixelROIStartY
  pixelROISizeX := d.int det .pixelROISizeX
  pixelROISizeY := d.int det .pixelROISizeY
  pixelSizeX := d.int det .pixelSizeX
  pixelROIEnable := d.int det .pixelROIEnable

/-- The snapshot loop. It gives up at the first detector whose pixel ROI has no width. -/
def snapshot : List Nat → Driver → Driver × Bool
  | [], d => (d, true)
  | det :: rest, d =>
    let d := { d with det := Function.update d.det det (d.readDet det) }
    if (d.det det).pixelROISizeX ≤ 0 then (d, false) else snapshot rest d

/-- `numDet` as `eventHandler` uses it. -/
def numDetClamped (d : Driver) : Int32 :=
  if (maxDets : Int) < (d.int 0 .numDet).toInt then 4 else d.int 0 .numDet

/-- `numChan` as `eventHandler` uses it. -/
def numChanClamped (d : Driver) : Int32 :=
  if (maxChannels : Int) < (d.int 0 .numChannels).toInt then 4 else d.int 0 .numChannels

/-- The update timer: `some` of the elapsed seconds when an update is due. -/
def timer (d : Driver) (now : ℚ) : Driver × Option ℚ :=
  let elapsed := now - d.lastTimeSecs
  if elapsed < d.dbl 0 .eventUpdatePeriod / 1000 then (d, none)
  else ({ d with lastTimeSecs := now }, some elapsed)

/-- The packet of channel `c` has a sequence ID `seqID`: note the packets missed since
the last one. -/
def noteSeqID (d : Driver) (c : Nat) (seqID : UInt32) : Driver :=
  let last := d.lastSeqID c
  let d := { d with seqID := Function.update d.seqID c seqID }
  let d :=
    if last.toInt32 ≠ -1 ∧ seqID ≠ last + 1 then
      let missing := (d.int c .seqIDNumMissing).toUInt32 + (seqID - last + 1)
      (d.setInt c .seqIDMissing (last + 1).toInt32).setInt c .seqIDNumMissing missing.toInt32
    else d
  { d with lastSeqID := Function.update d.lastSeqID c seqID }

/-- The time stamp section: `false` for a time stamp that runs backwards. -/
def noteTimeStamp (d : Driver) (c : Nat) (ts : TimeStamp) : Driver × Bool :=
  let d := { d with timeStamp := Function.update d.timeStamp c ts }
  if ts.nanos < (d.timeStampLast c).nanos then (d.setInt c .badTimeStamp 1, false)
  else
    let last := (d.timeStampLast c).put ts.secondsPastEpoch ts.nanoseconds
    let d := { d with timeStampLast := Function.update d.timeStampLast c last }
    (d.noteSeqID c ts.userTag.toUInt32, true)

/-- Only channel 0 detects pulses. -/
def newPulse (d : Driver) (c : Nat) (ts : TimeStamp) : Bool :=
  c = 0 && (d.timeStampLast 0).nanos ≠ ts.nanos

/-- The pixel ID is in the range of the detector. -/
def inDet (d : Driver) (det : Nat) (pixel : UInt32) : Bool :=
  decide ((d.det det).start.toUInt32 ≤ pixel) && decide (pixel ≤ (d.det det).stop.toUInt32)

/-- The pixel ID relative to the start of the detector's range. -/
def pixelOffset (d : Driver) (det : Nat) (pixel : UInt32) : UInt32 :=
  pixel - (d.det det).start.toUInt32

/-- `tof` after the transformation, if one is enabled. -/
def eventTOF (d : Driver) (det : Nat) (pixel tof : UInt32) : Option Dbl :=
  let v := d.det det
  if v.tofTransType ≠ 0 then
    ((d.transform det).calculate v.tofTransType.toUInt32 (d.pixelOffset det pixel) tof).map fun x =>
      if 0 ≤ v.tofTransScale then x.affine v.tofTransScale v.tofTransOffset else x
  else some (.fin tof.toNat)

/-- `mappedPixelIndex` after the pixel mapping, if it is enabled and a map is loaded. -/
def mapPixel (d : Driver) (det : Nat) (pixel : UInt32) : Option Int32 :=
  let offset := d.pixelOffset det pixel
  if (d.det det).pixelMappingEnabled ≠ 0 ∧ 0 < d.pixelMapSize det then
    match d.pixelMap det with
    | some m => m[offset.toNat]?.map UInt32.toInt32
    | none => some offset.toInt32
  else some offset.toInt32

/-- The cell of a binned 2-D plot. A plot type that is none of the four leaves
`tofIndex` at what an earlier turn has put there. -/
def binnedIndex (d : Driver) (det : Nat) (v : LoopVars) : Option LoopVars :=
  let sizeX := (d.det det).pixelSizeX
  if v.plotType.toUInt32 = 1 then
    if divDefined v.mappedPixelIndex sizeX then
      (tofBin v.tof d.tofMax v.tofBins).map fun bin =>
        let x := (v.mappedPixelIndex % sizeX).toUInt32
        { v with xPos := x, tofIndex := (x * v.tofBins.toUInt32 + bin.toUInt32).toInt32 }
    else none
  else if v.plotType.toUInt32 = 2 then
    if divDefined v.mappedPixelIndex sizeX then
      (tofBin v.tof d.tofMax v.tofBins).map fun bin =>
        let y := (v.mappedPixelIndex / sizeX).toUInt32
        { v with yPos := y, tofIndex := (y * v.tofBins.toUInt32 + bin.toUInt32).toInt32 }
    else none
  else if v.plotType.toUInt32 = 3 then
    (tofBin v.tof d.tofMax v.tofBins).map fun bin =>
      { v with tofIndex := v.mappedPixelIndex * v.tofBins + bin }
  else some v

/-- The increment of the 2-D plot: TOF ROI filter, X/Y plot or binned plot. -/
def bumpPixels (d : Driver) (det : Nat) (v : LoopVars) : Option (LoopVars × List Bump) :=
  let dv := d.det det
  if dv.tofROIEnabled ≠ 0 then
    if v.tof.inWindow dv.tofROIStart.toInt (dv.tofROIStart + dv.tofROISize).toInt then
      some (v, [⟨det, .pixels, (dv.ndArrayStart + v.mappedPixelIndex).toInt⟩])
    else some (v, [])
  else if v.plotType.toUInt32 = 0 then
    some (v, [⟨det, .pixels, (dv.ndArrayStart + v.mappedPixelIndex).toInt⟩])
  else if v.tof.within 0 d.tofMax.toNat then
    (d.binnedIndex det v).map fun v =>
      if v.tofIndex < dv.size - 1 then
        (v, [⟨det, .pixels, (dv.ndArrayStart + v.tofIndex).toInt⟩])
      else (v, [])
  else some (v, [])

/-- The event passes the pixel X/Y ROI filter of the spectrum. Without pixel mapping
the filter is meaningless and lets everything through. -/
def passesPixelROI (d : Driver) (det : Nat) (mapped : Int32) : Bool :=
  let dv := d.det det
  if dv.pixelROIEnable ≠ 0 then
    if dv.pixelMappingEnabled = 0 then true
    else if 0 < dv.pixelSizeX then
      decide (dv.pixelROIStartX ≤ mapped % dv.pixelSizeX) &&
      decide (mapped % dv.pixelSizeX < dv.pixelROIStartX + dv.pixelROISizeX) &&
      decide (dv.pixelROIStartY * dv.pixelSizeX ≤ mapped) &&
      decide (mapped < (dv.pixelROIStartY + dv.pixelROISizeY) * dv.pixelSizeX)
    else false
  else true

/-- The increment of the TOF spectrum. The index is unsigned here. -/
def bumpSpectrum (d : Driver) (det : Nat) (v : LoopVars) : List Bump :=
  if v.tof.within 0 d.tofMax.toNat && d.passesPixelROI det v.mappedPixelIndex then
    [⟨det, .spectrum, ((d.det det).ndArrayTOFStart.toUInt32 + v.tofInt).toNat⟩]
  else []

/-- The body of the integration loop for one event and one detector: the loop
variables after it and the increments it makes. -/
def integrateDet (d : Driver) (det : Nat) (pixel tof : UInt32) (v : LoopVars) :
    Option (LoopVars × List Bump) :=
  if d.inDet det pixel then do
    let x ← d.eventTOF det pixel tof
    let mapped ← d.mapPixel det pixel
    let v := { v with
      mappedPixelIndex := mapped
      tof := x
      tofInt := x.floorUInt32
      plotType := d.int det .twoDType
      tofBins := clampBins (d.int det .tofNumBins) d.tofMax }
    let (v, bumps) ← d.bumpPixels det v
    some (v, bumps ++ d.bumpSpectrum det v)
  else some (v, [])

/-- What the integration loop changes. -/
structure Integration where
  vars : LoopVars
  pData : List UInt32
  detEvents : Nat → UInt32
  detTotals : Nat → Nat

/-- The counters of `det` after one more event. -/
def Integration.count (s : Integration) (det : Nat) : Integration :=
  { s with
    detEvents := Function.update s.detEvents det (s.detEvents det + 1)
    detTotals := Function.update s.detTotals det (dblSucc (s.detTotals det)) }

/-- One turn of the inner loop. -/
def integrateTurn (d : Driver) (event : UInt32 × UInt32) (s : Integration) (det : Nat) :
    Option Integration := do
  let (vars, bumps) ← d.integrateDet det event.1 event.2 s.vars
  let pData ← Tally.bumpAll (bumps.map Bump.index) s.pData
  let s := { s with vars := vars, pData := pData }
  some (if d.inDet det event.1 then s.count det else s)

/-- One turn of the outer loop: every detector sees the event. -/
def integrateEvent (d : Driver) (dets : List Nat) (s : Integration) (event : UInt32 × UInt32) :
    Option Integration :=
  dets.foldlM (d.integrateTurn event) s

/-- The integration loop. -/
def integrateEvents (d : Driver) (dets : List Nat) (events : List (UInt32 × UInt32)) (s : Integration) :
    Option Integration :=
  events.foldlM (d.integrateEvent dets) s

/-- The loop run on the members of the driver. -/
def integrate (d : Driver) (numDet : Int32) (b : List UInt32) (events : List (UInt32 × UInt32)) :
    Option Driver :=
  (d.integrateEvents (dets numDet) events
      ⟨LoopVars.zero, b, d.detEventsSinceLastUpdate, d.detTotalEvents⟩).map fun s =>
    { d with
      pData := some s.pData
      detEventsSinceLastUpdate := s.detEvents
      detTotalEvents := s.detTotals }

/-- The proton charge of a new pulse. -/
def addPulse (d : Driver) (isNew : Bool) (pCharge : ℚ) : Driver :=
  if isNew then { d with pChargeInt := d.pChargeInt + pCharge, pulseCounter := d.pulseCounter + 1 }
  else d

/-- `static_cast<epicsUInt32>(floor(events/timeDiffSecs))`. Two updates at the same
time divide by zero; the rate is read as 0 then. -/
def rate (events : UInt32) (elapsed : ℚ) : Int32 :=
  (Dbl.fin (events.toNat / elapsed)).floorUInt32.toInt32

/-- The update of the channel parameters. -/
def updateChannels (d : Driver) : List Nat → Driver
  | [] => d
  | c :: rest =>
    ((d.setInt c .seqCounter (d.seqCounter c).toInt32).setInt c .seqID (d.seqID c).toInt32).updateChannels rest

/-- The update of the detector parameters. -/
def updateDets (d : Driver) (elapsed : ℚ) : List Nat → Driver
  | [] => d
  | det :: rest =>
    let d := d.setInt det .detEventRate (rate (d.detEventsSinceLastUpdate det) elapsed)
    let d := { d with detEventsSinceLastUpdate := Function.update d.detEventsSinceLastUpdate det 0 }
    (d.setDbl det .detEventTotal (d.detTotalEvents det)).updateDets elapsed rest

/-- The parameter update at the end of `eventHandler`. -/
def updateParams (d : Driver) (numChan numDet : Int32) (elapsed pCharge : ℚ) : Driver :=
  let d := d.updateChannels (List.range numChan.toInt.toNat)
  let d := d.setInt 0 .pulseCounter d.pulseCounter.toInt32
  let d := d.setInt 0 .eventRate (rate d.eventsSinceLastUpdate elapsed)
  let d := { d with eventsSinceLastUpdate := 0 }
  let d := d.updateDets elapsed (dets numDet)
  (d.setDbl 0 .pCharge pCharge).setDbl 0 .pChargeInt d.pChargeInt

/-- The part of `eventHandler` after the length check. -/
def countPacket (d : Driver) (h : HandlerVars) (b : List UInt32) (events : List (UInt32 × UInt32))
    (isNew : Bool) (pCharge : ℚ) : Option (Driver × Outcome) := do
  let d := { d with eventsSinceLastUpdate := d.eventsSinceLastUpdate + UInt32.ofNat events.length }
  let d ← if h.paused then some d
    else (d.integrate h.numDet b events).map (·.addPulse isNew pCharge)
  let d := match h.due with
    | some elapsed => d.updateParams h.numChan h.numDet elapsed pCharge
    | none => d
  some (d, if h.paused then .paused else .integrated)

/-- The part of `eventHandler` after the time stamp section. -/
def handleArrays (d : Driver) (h : HandlerVars) (p : Packet) (isNew : Bool) :
    Option (Driver × Outcome) :=
  match p.pCharge with
  | none => some (d, .noPCharge)
  | some pCharge =>
    match d.pData with
    | none => some (d, .notAllocated)
    | some b =>
      if d.dataMaxSize = 0 then some (d, .notAllocated)
      else
        match p.pixels, p.tof with
        | some pixels, some tof =>
          if pixels.data.length ≠ tof.data.length then some (d, .lengthMismatch)
          else d.countPacket h b (pixels.data.zip tof.data) isNew pCharge
        | _, _ => some (d, .noArrays)

/-- The part of `eventHandler` after the snapshot. -/
def handleStamp (d : Driver) (h : HandlerVars) (p : Packet) : Option (Driver × Outcome) :=
  let c := p.channelID
  let d := { d with seqCounter := Function.update d.seqCounter c (d.seqCounter c + 1) }
  match p.timeStamp with
  | none => some (d, .noTimeStamp)
  | some ts =>
    match d.noteTimeStamp c ts with
    | (d', false) => some (d', .backwards)
    | (d', true) => d'.handleArrays h p (d.newPulse c ts)

/-- `ADnED::eventHandler`. -/
def eventHandler (d : Driver) (p : Packet) : Option (Driver × Outcome) :=
  let paused := d.int 0 .pause ≠ 0
  match d.timer p.now with
  | (d, due) =>
    if maxChannels ≤ p.channelID then some (d, .badChannel)
    else
      let h : HandlerVars := ⟨paused, due, d.numChanClamped, d.numDetClamped⟩
      match snapshot (dets h.numDet) d with
      | (d, false) => some (d, .badROISize)
      | (d, true) => d.handleStamp h p

end Driver

end ADnED
