import ADnED.Driver.File

/-!
# The two parts of a load

What is read from a file (`ADnEDFile.data`) depends on the file, on the allocation and on `errno`,
but not on the driver. The driver then keeps it or not (`putMap`, `putTable`): a map that has been
read is put to the range check (`putMap_ok`), and in every other case there is no map (`putMap_none`).
-/

namespace ADnED

/-- What a load reads: whether `errno` is `ERANGE` afterwards, the size of the file (0 if there
is none), and the array or the exception. -/
structure FileData (α : Type) where
  erange : Bool
  size : UInt32
  read : Except FileError (List α)

/-- An array has been read, or none. -/
theorem FileData.cases {α : Type} (f : FileData α) :
    (f.size = 0 ∨ ∃ e, f.read = .error e) ∨ (f.size ≠ 0 ∧ ∃ array, f.read = .ok array) := by
  by_cases sized : f.size = 0
  · exact .inl (.inl sized)
  · cases read : f.read with
    | error e => exact .inl (.inr ⟨e, rfl⟩)
    | ok array => exact .inr ⟨sized, array, rfl⟩

namespace ADnEDFile

/-- The conversion of a line of a pixel map. -/
def parseUInt32 (text : List UInt8) : Option (UInt32 × Bool) :=
  (CText.strtol text).map fun r => (castUInt32 r.1, r.2)

variable {α : Type} (parse : List UInt8 → Option (α × Bool)) (zero : α)

/-- The part of a load that does not look at the driver. -/
def data (env : FileEnv) (erange : Bool) (value : String) : Option (FileData α) :=
  let opened := construct erange value env.access
  match opened.2 with
  | .error e => some ⟨opened.1, 0, .error e⟩
  | .ok file =>
    if file.size = 0 then some ⟨opened.1, 0, .ok []⟩
    else
      let array := callocArray zero env.callocOk opened.1 file.size
      (readData parse file.size file.file array.1 array.2).map fun r => ⟨r.1, file.size, r.2⟩

variable {parse zero} {env : FileEnv} {erange : Bool} {value : String} {f : FileData α}

theorem readLines_length {size : UInt32} {lines : List (List UInt8)} {erange : Bool} {index : Nat}
    {array array' : List α} {r : FileResult (List α)}
    (h : readLines parse size lines erange index array = some r) (ok : r.2 = .ok array') :
    array'.length = array.length := by
  induction lines generalizing erange index array with
  | nil =>
    cases h
    cases ok
    rfl
  | cons line lines ih =>
    rw [readLines] at h
    split at h
    · cases h
      cases ok
      rfl
    · obtain ⟨q, read, h⟩ := Option.bind_eq_some_iff.1 h
      cases value : q.2 with
      | error e =>
        simp only [value] at h
        cases h
        cases ok
      | ok x =>
        simp only [value] at h
        rw [ih h, List.length_set]

/-- The array that is read has the size of the file. -/
theorem data_length (h : data parse zero env erange value = some f) {array : List α} (ok : f.read = .ok array) :
    array.length = f.size.toNat := by
  simp only [data] at h
  split at h
  · cases h
    cases ok
  · rename_i file opened
    split at h
    · cases h
      cases ok
      rfl
    · obtain ⟨r, read, rfl⟩ := Option.map_eq_some_iff.1 h
      obtain ⟨size, lines⟩ := file
      cases lines with
      | none =>
        cases read
        cases ok
      | some lines =>
        cases memory : env.callocOk with
        | false =>
          rw [callocArray, memory] at read
          cases read
          cases ok
        | true =>
          simp only [callocArray, memory, if_true, readData] at read
          rw [readLines_length read ok, List.length_replicate]

/-- What is read from a pixel map file. -/
def mapData (env : FileEnv) (erange : Bool) (value : String) : Option (FileData UInt32) :=
  data parseUInt32 0 env erange value

/-- What is read from the file of a transformation table. -/
def tableData (env : FileEnv) (erange : Bool) (value : String) : Option (FileData ℚ) :=
  data env.strtod 0 env erange value

end ADnEDFile

namespace Driver

open ADnEDFile (mapData tableData)

/-- The map of `addr` is freed. -/
def freeMap (d : Driver) (addr : Nat) : Driver :=
  if (d.pixelMap addr).isSome then (d.setMap addr none).setMapSize addr 0 else d

/-- What the driver makes of a pixel map file. -/
def putMap (d : Driver) (addr : Nat) (f : FileData UInt32) : Driver × AsynStatus :=
  if f.size = 0 then
    match f.read with
    | .error _ => ((d.freeMap addr).setMap addr none, .success)
    | .ok _ => (d.freeMap addr, .success)
  else ((d.freeMap addr).setMapSize addr f.size).installMap addr f.read

/-- What the driver makes of the file of a transformation table. -/
def putTable (d : Driver) (addr index : Nat) (copyOk : Bool) (f : FileData ℚ) : Option (Driver × AsynStatus) :=
  match f.read with
  | .error _ => some (d, .error)
  | .ok array =>
    if f.size = 0 then some (d, .success)
    else if addr = 0 then none
    else
      ((d.transform addr).setDoubleArray copyOk index (some array) f.size).map fun t =>
        ({ d with transform := Function.update d.transform addr t.1 }, if t.2 then .success else .error)

section Parts

variable (env : FileEnv) (erange : Bool) (d : Driver) {addr : Nat} (value : String)

theorem loadPixelMap_eq :
    d.loadPixelMap env erange addr value =
      (mapData env erange value).map fun f => (f.erange, d.putMap addr f) := by
  simp only [loadPixelMap, mapData, ADnEDFile.data]
  cases (ADnEDFile.construct erange value env.access).2 with
  | error e => rfl
  | ok file =>
    simp only
    split
    · rfl
    · rename_i some_read
      rw [Option.map_map]
      simp only [Function.comp_def, putMap, if_neg some_read]
      rfl

theorem loadTransform_eq (index : Nat) :
    d.loadTransform env erange addr index value =
      (tableData env erange value).bind fun f => (d.putTable addr index env.copyOk f).map (f.erange, ·) := by
  simp only [loadTransform, tableData, ADnEDFile.data]
  cases (ADnEDFile.construct erange value env.access).2 with
  | error e => rfl
  | ok file =>
    simp only
    split
    · rfl
    · rename_i some_read
      rw [Option.bind_map]
      refine congrArg _ (funext fun r => ?_)
      cases array : r.2 with
      | error e => simp [putTable, array]
      | ok array =>
        by_cases zero : addr = 0
        · simp [putTable, array, some_read, zero]
        · simp only [putTable, array, if_neg some_read, if_neg zero, Option.map_map, Function.comp_def]

/-- A `writeOctet` of a pixel map file. -/
theorem writeOctet_pixelMapFile (le : addr ≤ maxDets) :
    d.writeOctet env erange addr .pixelMapFile value =
      (mapData env erange value).map fun f => storeStr addr .pixelMapFile value (f.erange, d.putMap addr f) := by
  simp only [writeOctet, if_neg (Nat.not_lt.2 le), loadPixelMap_eq, Option.map_map, Function.comp_def]

/-- A `writeOctet` of the file of a transformation table. -/
theorem writeOctet_tofTransFile (le : addr ≤ maxDets) (index : Fin 6) :
    d.writeOctet env erange addr (.tofTransFile index) value =
      (tableData env erange value).bind fun f =>
        (d.putTable addr index env.copyOk f).map fun r => storeStr addr (.tofTransFile index) value (f.erange, r) := by
  simp only [writeOctet, if_neg (Nat.not_lt.2 le), loadTransform_eq, Option.map_bind, Option.map_map,
    Function.comp_def]

end Parts

section Store

variable (addr : Nat) (p : StrParam) (value : String) (r : Bool × Driver × AsynStatus)

/-- Nothing is stored after an error. -/
theorem storeStr_error (erange : Bool) (d : Driver) :
    storeStr addr p value (erange, d, .error) = (erange, d, .error) := rfl

@[simp] theorem storeStr_erange : (storeStr addr p value r).1 = r.1 := by
  simp only [storeStr]
  split <;> rfl

@[simp] theorem storeStr_status : (storeStr addr p value r).2.2 = r.2.2 := by
  simp only [storeStr]
  split
  · rfl
  · rename_i success
    exact success.symm

@[simp] theorem storeStr_pixelMap : (storeStr addr p value r).2.1.pixelMap = r.2.1.pixelMap := by
  simp only [storeStr]
  split <;> rfl

@[simp] theorem storeStr_pixelMapSize : (storeStr addr p value r).2.1.pixelMapSize = r.2.1.pixelMapSize := by
  simp only [storeStr]
  split <;> rfl

@[simp] theorem storeStr_transform : (storeStr addr p value r).2.1.transform = r.2.1.transform := by
  simp only [storeStr]
  split <;> rfl

end Store

theorem freeMap_pixelMap (d : Driver) (addr : Nat) : (d.freeMap addr).pixelMap addr = none := by
  simp only [freeMap]
  split
  · simp [setMap, setMapSize]
  · rename_i absent
    simpa using absent

@[simp] theorem setMap_str (d : Driver) (addr : Nat) (m : Option (List UInt32)) : (d.setMap addr m).str = d.str := rfl

@[simp] theorem setMapSize_str (d : Driver) (addr : Nat) (size : UInt32) : (d.setMapSize addr size).str = d.str := rfl

theorem freeMap_str (d : Driver) (addr : Nat) : (d.freeMap addr).str = d.str := by
  simp only [freeMap]
  split <;> simp

theorem freeMap_int (d : Driver) (addr : Nat) : (d.freeMap addr).int = d.int := by
  simp only [freeMap]
  split <;> rfl

/-- **The range check.** A map that has been read is kept if no entry is above the size of the
detector; else there is no map afterwards and its size is 0. -/
theorem installMap_ok {d : Driver} {addr : Nat} (sized : d.pixelMapSize addr ≠ 0) (m : List UInt32) :
    d.installMap addr (.ok m) =
      if ∃ x ∈ m, (d.int addr .pixelNumSize).toUInt32 < x then ((d.setMap addr none).setMapSize addr 0, .error)
      else (d.setMap addr (some m), .success) := by
  have installed : (d.setMap addr (some m)).pixelMap addr = some m := by simp [setMap]
  have recorded : (d.setMap addr (some m)).pixelMapSize addr ≠ 0 := sized
  have above : (m.any fun entry => decide (((d.setMap addr (some m)).int addr .pixelNumSize).toUInt32 < entry)) = true ↔
      ∃ x ∈ m, (d.int addr .pixelNumSize).toUInt32 < x := by
    simp only [List.any_eq_true, decide_eq_true_eq]
    rfl
  simp only [installMap, checkPixelMap, installed, if_neg recorded]
  by_cases large : ∃ x ∈ m, (d.int addr .pixelNumSize).toUInt32 < x
  · rw [if_pos large, if_pos (above.2 large)]
    simp [setMap, setMapSize]
  · rw [if_neg large, if_neg fun h => large (above.1 h)]

/-- A map that has been read, put into the driver. -/
theorem putMap_ok {d : Driver} {addr : Nat} {f : FileData UInt32} {m : List UInt32} (sized : f.size ≠ 0)
    (ok : f.read = .ok m) :
    d.putMap addr f =
      if ∃ x ∈ m, (d.int addr .pixelNumSize).toUInt32 < x then
        ((((d.freeMap addr).setMapSize addr f.size).setMap addr none).setMapSize addr 0, .error)
      else (((d.freeMap addr).setMapSize addr f.size).setMap addr (some m), .success) := by
  have recorded : ((d.freeMap addr).setMapSize addr f.size).pixelMapSize addr ≠ 0 := by
    simpa [setMapSize] using sized
  have size : ((d.freeMap addr).setMapSize addr f.size).int = d.int := freeMap_int d addr
  rw [putMap, if_neg sized, ok, installMap_ok recorded, size]

/-- In every other case there is no map, and no error. -/
theorem putMap_none {d : Driver} {addr : Nat} {f : FileData UInt32} (missing : f.size = 0 ∨ ∃ e, f.read = .error e) :
    (d.putMap addr f).1.pixelMap addr = none ∧ (d.putMap addr f).2 = .success := by
  by_cases size : f.size = 0
  · rw [putMap, if_pos size]
    cases f.read with
    | error e => exact ⟨by simp [setMap], rfl⟩
    | ok m => exact ⟨freeMap_pixelMap d addr, rfl⟩
  · obtain ⟨e, error⟩ := missing.resolve_left size
    rw [putMap, if_neg size, error]
    exact ⟨by simp [installMap, setMap], rfl⟩

end Driver

end ADnED
