import ADnED.Driver.State

/-!
# `allocArray`

The layout computation of `ADnED.cpp:1318-1424`. Detector regions come first, in
detector order, then one time-of-flight spectrum per detector; the start, end and
size of each are published as parameters while they are computed, before it is
known whether the function succeeds. `m_dataMaxSize` and the offsets are
`epicsUInt32`, the published parameters `int`.

`callocOk` is whether `calloc` returns a block.
-/

namespace ADnED

namespace Driver

/-- The size one turn of the first loop uses: the pixel ID range when the user has
left the size at 0. -/
def detSize (d : Driver) (det : Nat) : Int32 :=
  if d.int det .pixelNumSize = 0 then d.int det .pixelNumEnd - d.int det .pixelNumStart + 1
  else d.int det .pixelNumSize

/-- One turn of the first loop for a range in order: publish the pixel region of `det` behind the
`m_dataMaxSize` cells laid out so far. -/
def publishPixels (d : Driver) (det : Nat) : Driver :=
  let size := d.detSize det
  let first := d.dataMaxSize
  { d with
    int := (((d.int.set det .pixelNumSize size).set det .ndArrayStart first.toInt32).set
      det .ndArrayEnd (first + size.toUInt32 - 1).toInt32).set det .ndArraySize size
    dataMaxSize := first + size.toUInt32 }

/-- The first loop. A range that is not in order ends the function with the regions
of the earlier detectors already published. -/
def allocPixels : List Nat → Driver → Driver × AsynStatus
  | [], d => (d, .success)
  | det :: rest, d =>
    if d.int det .pixelNumStart ≤ d.int det .pixelNumEnd then
      allocPixels rest (d.publishPixels det)
    else ({ d with allocSpaceStatus := .fail }, .error)

/-- The second loop: `tofEnd = tofStart + tofMax` for each detector in turn. -/
def allocTOF (tofMax : Int32) : List Nat → UInt32 → Driver → Driver
  | [], _, d => d
  | det :: rest, tofStart, d =>
    let tofEnd := tofStart + tofMax.toUInt32
    allocTOF tofMax rest (tofEnd + 1)
      ((d.setInt det .ndArrayTOFStart tofStart.toInt32).setInt det .ndArrayTOFEnd tofEnd.toInt32)

/-- The buffer of the new layout: the old one is freed, and a layout of no pixels
gets none. -/
def allocBuffer (callocOk : Bool) (numDet tofMax : Int32) (d : Driver) : Driver :=
  if d.dataMaxSize ≠ 0 then
    let total := d.dataMaxSize + (numDet * (tofMax + 1)).toUInt32
    { d with
      bufferMaxSize := total
      pData := if callocOk then some (List.replicate total.toNat 0) else none }
  else { d with pData := none }

/-- The end of `allocArray`: only a buffer lowers `m_dataAlloc`. -/
def allocFinish (d : Driver) : Driver × AsynStatus :=
  match d.pData with
  | some _ => ({ d with dataAlloc := false, allocSpaceStatus := .ok }, .success)
  | none => ({ d with allocSpaceStatus := .fail }, .error)

/-- `ADnED::allocArray`. -/
def allocArray (callocOk : Bool) (d : Driver) : Driver × AsynStatus :=
  if d.dataAlloc = false then (d, .success)
  else
    let numDet := d.int 0 .numDet
    let tofMax := d.int 0 .tofMax
    let d := { d with tofMax := tofMax.toUInt32 }
    if numDet = 0 then (d, .error)
    else
      match allocPixels (dets numDet) { d with dataMaxSize := 0 } with
      | (d, .error) => (d, .error)
      | (d, .success) =>
        allocFinish (allocBuffer callocOk numDet tofMax (allocTOF tofMax (dets numDet) d.dataMaxSize d))

end Driver

end ADnED
