import ADnED.Driver.Write
import ADnED.Lib.CText

/-!
# Mapping files, `writeOctet` and `writeFloat64`

Class `ADnEDFile` (`ADnEDFile.cpp`) and the commands that load pixel maps and
transformation tables (`ADnED.cpp:620-771`, `927-954`). A file is the bytes that are found
under its name; whether it can be opened, and what `calloc` gives, is up to the
environment. `errno` is kept as far as the class looks at it: whether it is `ERANGE`. It is
a variable of the thread that no successful call resets, so its value is passed in and out.
-/

namespace ADnED

/-- What `access` and `fopen` make of a file name. -/
inductive FileAccess where
  | unreadable
  | unopened
  | opened (bytes : List UInt8)

/-- The exceptions of `ADnEDFile`. -/
inductive FileError where
  | notReadable
  | notOpened
  | noSize
  | noFile
  | noArray
  | badLine
  | whitespace
  deriving DecidableEq

/-- The outcome of an operation on a file, with whether `errno` is `ERANGE` after it. -/
abbrev FileResult (α : Type) := Bool × Except FileError α

/-- The members of `ADnEDFile`: `m_Size`, and what is left to be read from `p_FILE`. -/
structure ADnEDFile where
  size : UInt32
  file : Option (List (List UInt8))

/-- `static_cast<epicsUInt32>` of a `long`. -/
def castUInt32 (v : Int) : UInt32 := UInt32.ofNat (v % 2 ^ 32).toNat

namespace ADnEDFile

/-- `s_ADNEDFILE_MAX_STRING`, the size of a line buffer. -/
def maxString : Nat := 256

/-- The bytes `# \n\t`. -/
def whitespace (b : UInt8) : Bool := b == 35 || b == 32 || b == 10 || b == 9

/-- `ADnEDFile::ADnEDFile`. An empty name opens nothing. At the end of the file `fgets` leaves
the buffer as it is, all zeros. -/
def construct (erange : Bool) (fileName : String) (access : FileAccess) : FileResult ADnEDFile :=
  if fileName = "" then (erange, .ok ⟨0, none⟩)
  else
    match access with
    | .unreadable => (false, .error .notReadable)
    | .unopened => (false, .error .notOpened)
    | .opened bytes =>
      let lines := CText.reads (maxString - 1) [] bytes
      match CText.strtol (CText.cString (lines.headD [])) with
      | none => (erange, .error .noSize)
      | some (size, outOfRange) =>
        if erange || outOfRange then (true, .error .noSize)
        else (false, .ok ⟨castUInt32 size, some lines.tail⟩)

section Read

variable {α : Type} (parse : List UInt8 → Option (α × Bool)) (size : UInt32)

/-- The conversion of one line. A line that begins with a NUL byte has no last character to
remove: the store goes before the buffer. -/
def readLine (erange : Bool) (line : List UInt8) : Option (FileResult α) :=
  match CText.cString line with
  | [] => none
  | b :: s =>
    let text := (b :: s).dropLast
    if text.any whitespace then some (erange, .error .whitespace)
    else
      match parse text with
      | none => some (erange, .error .badLine)
      | some (value, outOfRange) =>
        if erange || outOfRange then some (true, .error .badLine) else some (false, .ok value)

/-- The loop over the lines, with `index` entries of the array filled. -/
def readLines : List (List UInt8) → Bool → Nat → List α → Option (FileResult (List α))
  | [], erange, _, array => some (erange, .ok array)
  | line :: lines, erange, index, array =>
    if size.toNat ≤ index then some (erange, .ok array)
    else
      (readLine parse erange line).bind fun r =>
        match r.2 with
        | .error e => some (r.1, .error e)
        | .ok value => readLines lines r.1 (index + 1) (array.set index value)

/-- The common part of `readDataIntoIntArray` and `readDataIntoDoubleArray`. -/
def readData (file : Option (List (List UInt8))) (erange : Bool) (array : Option (List α)) :
    Option (FileResult (List α)) :=
  match file, array with
  | none, _ => some (erange, .error .noFile)
  | some _, none => some (erange, .error .noArray)
  | some lines, some array => readLines parse size lines erange 0 array

end Read

/-- `ADnEDFile::readDataIntoIntArray`. -/
def readDataIntoIntArray (f : ADnEDFile) (erange : Bool) (array : Option (List UInt32)) :
    Option (FileResult (List UInt32)) :=
  readData (fun text => (CText.strtol text).map fun r => (castUInt32 r.1, r.2)) f.size f.file erange array

/-- `ADnEDFile::readDataIntoDoubleArray`. -/
def readDataIntoDoubleArray (strtod : List UInt8 → Option (ℚ × Bool)) (f : ADnEDFile) (erange : Bool)
    (array : Option (List ℚ)) : Option (FileResult (List ℚ)) :=
  readData strtod f.size f.file erange array

end ADnEDFile

namespace Transform

/-- `ADNED_MAX_TRANSFORM_PARAMS`. -/
def maxParams : Nat := 6

/-- `ADnEDTransformBase::setDoubleParam`, with whether it returns `ADNED_TRANSFORM_OK`. -/
def setDoubleParam (t : Transform) (paramIndex : Nat) (paramVal : ℚ) : Transform × Bool :=
  if maxParams ≤ paramIndex then (t, false)
  else ({ t with doubleParam := Function.update t.doubleParam paramIndex paramVal }, true)

/-- `ADnEDTransformBase::setDoubleArray`. The result of its `calloc` is not checked, and
neither is the length of the source. -/
def setDoubleArray (callocOk : Bool) (t : Transform) (paramIndex : Nat) (source : Option (List ℚ))
    (size : UInt32) : Option (Transform × Bool) :=
  if maxParams ≤ paramIndex ∨ size = 0 then some (t, false)
  else
    match source with
    | none => some (t, false)
    | some source =>
      if callocOk ∧ size.toNat ≤ source.length then
        some ({ t with
          array := Function.update t.array paramIndex (some (source.take size.toNat))
          arraySize := Function.update t.arraySize paramIndex size }, true)
      else none

end Transform

/-- What the environment contributes to a `writeOctet`: the file, the two allocations, and the
`strtod` of the C library (a value and whether it sets `ERANGE`, or no number). -/
structure FileEnv where
  access : FileAccess
  callocOk : Bool
  copyOk : Bool
  strtod : List UInt8 → Option (ℚ × Bool)

/-- `calloc(size, ...)`, with whether `errno` is `ERANGE` after it. -/
def callocArray {α : Type} (zero : α) (callocOk erange : Bool) (size : UInt32) : Bool × Option (List α) :=
  if callocOk then (erange, some (List.replicate size.toNat zero)) else (false, none)

namespace Driver

/-- `p_PixelMap[det]`. -/
def setMap (d : Driver) (det : Nat) (map : Option (List UInt32)) : Driver :=
  { d with pixelMap := Function.update d.pixelMap det map }

/-- `m_PixelMapSize[det]`. -/
def setMapSize (d : Driver) (det : Nat) (size : UInt32) : Driver :=
  { d with pixelMapSize := Function.update d.pixelMapSize det size }

/-- `ADnED::checkPixelMap`. The map it rejects is freed by its caller. -/
def checkPixelMap (d : Driver) (det : Nat) : Driver × AsynStatus :=
  match d.pixelMap det with
  | none => (d, .error)
  | some map =>
    if d.pixelMapSize det = 0 then (d, .error)
    else if map.any fun entry => decide ((d.int det .pixelNumSize).toUInt32 < entry) then
      (d.setMapSize det 0, .error)
    else (d, .success)

/-- What becomes of the array that has been read from a pixel map file. -/
def installMap (d : Driver) (addr : Nat) : Except FileError (List UInt32) → Driver × AsynStatus
  | .error _ => (d.setMap addr none, .success)
  | .ok array =>
    let checked := (d.setMap addr (some array)).checkPixelMap addr
    match checked.2 with
    | .error => (checked.1.setMap addr none, .error)
    | .success => (checked.1, .success)

/-- The branch of `writeOctet` for `PixelMapFile`. An exception leaves no map, but the size
that was read and the status `asynSuccess`. -/
def loadPixelMap (env : FileEnv) (erange : Bool) (d : Driver) (addr : Nat) (value : String) :
    Option (Bool × Driver × AsynStatus) :=
  let d := if (d.pixelMap addr).isSome then (d.setMap addr none).setMapSize addr 0 else d
  let opened := ADnEDFile.construct erange value env.access
  match opened.2 with
  | .error _ => some (opened.1, d.setMap addr none, .success)
  | .ok file =>
    if file.size = 0 then some (opened.1, d, .success)
    else
      let d := d.setMapSize addr file.size
      let array := callocArray 0 env.callocOk opened.1 file.size
      (file.readDataIntoIntArray array.1 array.2).map fun r => (r.1, d.installMap addr r.2)

/-- The branch of `writeOctet` for `TOFTransFile`. There is no `p_Transform[0]`. -/
def loadTransform (env : FileEnv) (erange : Bool) (d : Driver) (addr index : Nat) (value : String) :
    Option (Bool × Driver × AsynStatus) :=
  let opened := ADnEDFile.construct erange value env.access
  match opened.2 with
  | .error _ => some (opened.1, d, .error)
  | .ok file =>
    if file.size = 0 then some (opened.1, d, .success)
    else
      let array := callocArray 0 env.callocOk opened.1 file.size
      (file.readDataIntoDoubleArray env.strtod array.1 array.2).bind fun r =>
        match r.2 with
        | .error _ => some (r.1, d, .error)
        | .ok array =>
          if addr = 0 then none
          else
            ((d.transform addr).setDoubleArray env.copyOk index (some array) file.size).map fun t =>
              (r.1, { d with transform := Function.update d.transform addr t.1 },
                if t.2 then .success else .error)

/-- The common end of `writeOctet`: the value is stored unless there was an error. -/
def storeStr (addr : Nat) (p : StrParam) (value : String) (r : Bool × Driver × AsynStatus) :
    Bool × Driver × AsynStatus :=
  match r.2.2 with
  | .error => r
  | .success => (r.1, r.2.1.setStr addr p value, .success)

/-- `ADnED::writeOctet`, with whether `errno` is `ERANGE` before and after it. -/
def writeOctet (env : FileEnv) (erange : Bool) (d : Driver) (addr : Nat) (p : StrParam) (value : String) :
    Option (Bool × Driver × AsynStatus) :=
  if maxDets < addr then some (erange, d, .error)
  else
    let loaded :=
      match p with
      | .tofTransFile index => d.loadTransform env erange addr index value
      | .pixelMapFile => d.loadPixelMap env erange addr value
      | _ => some (erange, d, .success)
    loaded.map (storeStr addr p value)

/-- `ADnED::writeFloat64`. There is no `p_Transform[0]`. -/
def writeFloat64 (d : Driver) (addr : Nat) (p : DblParam) (value : ℚ) : Option (Driver × AsynStatus) :=
  if maxDets < addr then some (d, .error)
  else
    match p with
    | .tofTransFloat index =>
      if addr = 0 then none
      else
        let t := (d.transform addr).setDoubleParam index value
        let d := { d with transform := Function.update d.transform addr t.1 }
        if t.2 then some (d.setDbl addr p value, .success) else some (d, .error)
    | _ => some (d.setDbl addr p value, .success)

end Driver

end ADnED
