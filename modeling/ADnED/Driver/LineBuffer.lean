import ADnED.Driver.FileData
import ADnED.Lib.Logged
import ADnED.Lib.Stores

/-!
# The line buffer of the file reader

`readDataIntoIntArray` and `readDataIntoDoubleArray` once more (`ADnEDFile.cpp:120-214`), with the buffer `line`
of 256 bytes and a log of what is accessed. The loop does what `ADnEDFile.readLines` says and stays in the
buffer, unless it comes to a line that begins with a NUL: there is no last byte to remove then
(`Buffered.readLines_eq`).
-/

namespace ADnED

/-- An access to `line`, or a store into the array. -/
inductive Access where
  | line (index : Int)
  | array (index : Nat)
  deriving DecidableEq

namespace ADnEDFile

/-- `char line[s_ADNEDFILE_MAX_STRING]`. -/
abbrev Line := Vector UInt8 maxString

/-- The C string in the buffer. -/
def Line.text (line : Line) : List UInt8 := CText.cString line.toList

namespace Buffered

/-- The accesses to the first `n` bytes of the buffer. -/
def first (n : Nat) : List Access := (List.range n).map fun i : Nat => .line i

/-- `fgets(line, ...)`, when it delivers `piece`: the bytes are put into the buffer, and a NUL after them. -/
def fgets (line : Line) (piece : List UInt8) : Logged Access Line where
  events := first (piece.length + 1)
  result :=
    if h : piece.length < maxString then
      some ⟨(piece ++ 0 :: line.toList.drop (piece.length + 1)).toArray, by simp; omega⟩
    else none

/-- The string functions read a string up to its NUL. -/
def readString (line : Line) : Logged Access (List UInt8) where
  events := first (line.text.length + 1)
  result := if line.text.length < maxString then some line.text else none

/-- `line[index] = v`. -/
def storeLine (line : Line) (index : Int) (v : UInt8) : Logged Access Line :=
  ⟨[.line index], if 0 ≤ index then Stores.store line index.toNat v else none⟩

/-- `line[strlen(line)-1]='\0'`. -/
def removeNewline (line : Line) : Logged Access Line := do
  let s ← readString line
  storeLine line (s.length - 1) 0

/-- `memset(line, 0, sizeof(line))`. -/
def clear : Logged Access Line := ⟨first maxString, some (Vector.replicate maxString 0)⟩

section Read

variable {α : Type} (parse : List UInt8 → Option (α × Bool)) (size : UInt32)

/-- `(*pArray)[index] = value`. -/
def storeArray (array : List α) (index : Nat) (value : α) : Logged Access (List α) :=
  ⟨[.array index], if index < array.length then some (array.set index value) else none⟩

/-- The calls of `strpbrk` and of `strtol` or `strtod`, and the exceptions, whose messages have the line in them. -/
def convert (erange : Bool) (line : Line) : Logged Access (FileResult α) := do
  let s ← readString line
  if s.any whitespace then
    let _ ← readString line
    return (erange, .error .whitespace)
  else
    let s ← readString line
    match parse s with
    | none =>
      let _ ← readString line
      return (erange, .error .badLine)
    | some (value, outOfRange) =>
      if erange || outOfRange then
        let _ ← readString line
        return (true, .error .badLine)
      else return (false, .ok value)

/-- The processing of a line that has been read. -/
def readLine (erange : Bool) (line : Line) : Logged Access (FileResult α) := do
  let line ← removeNewline line
  convert parse erange line

/-- The loop over the lines. -/
def readLines : List (List UInt8) → Line → Bool → Nat → List α → Logged Access (FileResult (List α))
  | [], _, erange, _, array => return (erange, .ok array)
  | piece :: pieces, line, erange, index, array => do
    let line ← fgets line piece
    if size.toNat ≤ index then return (erange, .ok array)
    else
      let r ← readLine parse erange line
      match r.2 with
      | .error e => return (r.1, .error e)
      | .ok value =>
        let array ← storeArray array index value
        let line ← clear
        readLines pieces line r.1 (index + 1) array

/-- The common part of the two functions, with `line` all zeros at the start. -/
def readData (file : Option (List (List UInt8))) (erange : Bool) (array : Option (List α)) :
    Logged Access (FileResult (List α)) :=
  match file, array with
  | none, _ => return (erange, .error .noFile)
  | some _, none => return (erange, .error .noArray)
  | some pieces, some array => readLines parse size pieces (Vector.replicate maxString 0) erange 0 array

end Read

/-- `ADnEDFile::readDataIntoIntArray`. -/
def readDataIntoIntArray (f : ADnEDFile) (erange : Bool) (array : Option (List UInt32)) :
    Logged Access (FileResult (List UInt32)) :=
  readData parseUInt32 f.size f.file erange array

/-- `ADnEDFile::readDataIntoDoubleArray`. -/
def readDataIntoDoubleArray (strtod : List UInt8 → Option (ℚ × Bool)) (f : ADnEDFile) (erange : Bool)
    (array : Option (List ℚ)) : Logged Access (FileResult (List ℚ)) :=
  readData strtod f.size f.file erange array

end Buffered

/-- An index of `line`, or of an array of `size` elements. -/
def Inside (size : UInt32) : Access → Prop
  | .line index => 0 ≤ index ∧ index < maxString
  | .array index => index < size.toNat

section Lines

variable {α : Type} (parse : List UInt8 → Option (α × Bool))

/-- The lines that the loop removes a newline from, when there are `n` entries left to fill. The first one that
is not converted is the last of them. -/
def reached : Nat → Bool → List (List UInt8) → List (List UInt8)
  | 0, _, _ => []
  | _ + 1, _, [] => []
  | n + 1, erange, line :: lines =>
    line ::
      match readLine parse erange line with
      | some (erange, .ok _) => reached n erange lines
      | _ => []

@[simp] theorem reached_nil (n : Nat) (erange : Bool) : reached parse n erange [] = [] := by
  cases n <;> rfl

end Lines

namespace Buffered

open Logged (All)

variable {size : UInt32} {line : Line} {piece : List UInt8}

/-! ## Operations on the buffer -/

theorem first_inside {n : Nat} (le : n ≤ maxString) : ∀ e ∈ first n, Inside size e := by
  intro e mem
  obtain ⟨i, below, rfl⟩ := List.mem_map.1 mem
  rw [List.mem_range] at below
  exact ⟨Int.natCast_nonneg i, by omega⟩

/-- What `fgets` leaves is the string that it read, as far as the first NUL. -/
theorem fgets_text (short : piece.length < maxString) :
    ∃ line', (fgets line piece).result = some line' ∧ line'.text = CText.cString piece ∧
      All (Inside size) (fgets line piece) := by
  refine ⟨_, dif_pos short, ?_, first_inside short⟩
  exact CText.cString_append piece _

theorem readString_text (short : line.text.length < maxString) :
    (readString line).result = some line.text ∧ All (Inside size) (readString line) :=
  ⟨if_pos short, first_inside short⟩

/-- The store into the last byte of an empty string goes before the buffer. -/
theorem removeNewline_empty (empty : line.text = []) :
    (removeNewline line).result = none ∧ ¬ All (Inside size) (removeNewline line) := by
  have short : line.text.length < maxString := by simp [empty, maxString]
  obtain ⟨read, safe⟩ := @readString_text size line short
  obtain ⟨result, all⟩ := Logged.bind_of_result read safe fun s => storeLine line (s.length - 1) 0
  rw [empty] at result all
  refine ⟨result, fun inside => ?_⟩
  have before : Inside size (.line (-1)) := all.1 inside _ (List.mem_singleton_self _)
  exact absurd before.1 (by decide)

theorem removeNewline_text (short : line.text.length < maxString) (some_byte : line.text ≠ []) :
    ∃ line', (removeNewline line).result = some line' ∧ line'.text = line.text.dropLast ∧
      All (Inside size) (removeNewline line) := by
  obtain ⟨read, safe⟩ := @readString_text size line short
  obtain ⟨result, all⟩ := Logged.bind_of_result read safe fun s => storeLine line (s.length - 1) 0
  have positive := List.length_pos_iff.2 some_byte
  have last : (line.text.length - 1 : Int).toNat = line.text.length - 1 := by omega
  have inside : line.text.length - 1 < maxString := by omega
  refine ⟨line.set (line.text.length - 1) 0 inside, result.trans ?_, ?_, all.2 ?_⟩
  · rw [storeLine, if_pos (by omega), last, Stores.store_eq_some inside]
  · rw [Line.text, Vector.toList_set, CText.cString_set (by rw [← Line.text]; omega), List.dropLast_eq_take]
    rfl
  · intro e mem
    obtain rfl := List.mem_singleton.1 mem
    exact ⟨by omega, by omega⟩

/-! ## The loop over the lines -/

section Read

variable {α : Type} {parse : List UInt8 → Option (α × Bool)} {erange : Bool}

/-- After the newline has been removed nothing can go wrong. -/
theorem convert_eq (short : line.text.length < maxString) (some_byte : CText.cString piece ≠ [])
    (removed : line.text = (CText.cString piece).dropLast) :
    (convert parse erange line).result = ADnEDFile.readLine parse erange piece ∧
      All (Inside size) (convert parse erange line) := by
  obtain ⟨read, safe⟩ := @readString_text size line short
  obtain ⟨b, s, string⟩ := List.exists_cons_of_ne_nil some_byte
  rw [string] at removed
  simp only [convert, ADnEDFile.readLine, string, ← removed, Logged.result_bind, Logged.all_bind, read, safe,
    Option.bind_some, Option.some.injEq, forall_eq', true_and]
  by_cases blank : line.text.any whitespace = true
  · simp [blank, Logged.result_bind, Logged.all_bind, read, safe]
  · rw [if_neg blank, if_neg blank]
    cases parsed : parse line.text with
    | none => simp [parsed, Logged.result_bind, Logged.all_bind, read, safe]
    | some r =>
      obtain ⟨value, outOfRange⟩ := r
      cases erange <;> cases outOfRange <;> simp [parsed, Logged.result_bind, Logged.all_bind, read, safe]

theorem readLine_eq (short : piece.length < maxString) (read : line.text = CText.cString piece) :
    (readLine parse erange line).result = ADnEDFile.readLine parse erange piece ∧
      (All (Inside size) (readLine parse erange line) ↔ CText.cString piece ≠ []) := by
  have text_short : line.text.length < maxString := by
    rw [read]
    exact Nat.lt_of_le_of_lt (CText.cString_length_le piece) short
  unfold readLine
  by_cases empty : CText.cString piece = []
  · obtain ⟨undefined, outside⟩ := @removeNewline_empty size line (read.trans empty)
    rw [Logged.result_bind, undefined, Logged.all_bind]
    refine ⟨by simp [ADnEDFile.readLine, empty], ?_⟩
    exact iff_of_false (fun all => outside all.1) (fun some_byte => some_byte empty)
  · obtain ⟨line', removed, text, safe⟩ := @removeNewline_text size line text_short (by rwa [read])
    obtain ⟨result, all⟩ := Logged.bind_of_result removed safe (convert parse erange)
    have still_short : line'.text.length < maxString := by
      rw [text, List.length_dropLast]
      omega
    obtain ⟨converted, inside⟩ := @convert_eq size line' piece α parse erange still_short empty (read ▸ text)
    exact ⟨result.trans converted, iff_of_true (all.2 inside) empty⟩

theorem storeArray_eq {array : List α} {index : Nat} {value : α} (room : array.length = size.toNat)
    (lt : index < size.toNat) :
    (storeArray array index value).result = some (array.set index value) ∧
      All (Inside size) (storeArray array index value) := by
  refine ⟨if_pos (by omega), ?_⟩
  intro e mem
  obtain rfl := List.mem_singleton.1 mem
  exact lt

theorem clear_inside : All (Inside size) clear := first_inside (Nat.le_refl maxString)

/-- The loop does what `readLines` says, and it leaves the buffer or the array exactly if one of the lines that it
gets to begins with a NUL. -/
theorem readLines_eq {pieces : List (List UInt8)} (fits : ∀ piece ∈ pieces, piece ≠ [] ∧ piece.length < maxString)
    {index : Nat} {array : List α} (room : array.length = size.toNat) :
    (readLines parse size pieces line erange index array).result =
        ADnEDFile.readLines parse size pieces erange index array ∧
      (All (Inside size) (readLines parse size pieces line erange index array) ↔
        ∀ piece ∈ reached parse (size.toNat - index) erange pieces, piece.head? ≠ some 0) := by
  induction pieces generalizing line erange index array with
  | nil =>
    refine ⟨rfl, iff_of_true (Logged.all_pure _) ?_⟩
    simp
  | cons piece pieces ih =>
    obtain ⟨⟨some_byte, short⟩, fits⟩ := List.forall_mem_cons.1 fits
    obtain ⟨line', got, text, safe⟩ := @fgets_text size line piece short
    rw [readLines, ADnEDFile.readLines, Logged.result_bind, Logged.all_bind, got]
    simp only [safe, Option.bind_some, Option.some.injEq, forall_eq', true_and]
    by_cases full : size.toNat ≤ index
    · rw [if_pos full, if_pos full, Nat.sub_eq_zero_of_le full]
      exact ⟨rfl, iff_of_true (Logged.all_pure _) (by simp [reached])⟩
    · obtain ⟨result, inside⟩ := @readLine_eq size line' piece α parse erange short text
      have left : size.toNat - index = size.toNat - (index + 1) + 1 := by omega
      rw [if_neg full, if_neg full, Logged.result_bind, Logged.all_bind, result, inside, left, reached,
        List.forall_mem_cons, ne_eq, CText.cString_eq_nil_iff some_byte]
      cases read : ADnEDFile.readLine parse erange piece with
      | none => simp
      | some r =>
        obtain ⟨erange', e | value⟩ := r
        · simp
        · obtain ⟨stored, storedInside⟩ := @storeArray_eq size α array index value room (by omega)
          obtain ⟨rest, restInside⟩ := @ih (Vector.replicate maxString 0) erange' fits (index + 1)
            (array.set index value) (by rw [List.length_set, room])
          obtain ⟨next, nextInside⟩ := Logged.bind_of_result stored storedInside fun array =>
            clear >>= fun line => readLines parse size pieces line erange' (index + 1) array
          obtain ⟨loop, loopInside⟩ := Logged.bind_of_result (rfl : clear.result = some _) clear_inside fun line =>
            readLines parse size pieces line erange' (index + 1) (array.set index value)
          refine ⟨next.trans (loop.trans rest), and_congr_right fun _ => ?_⟩
          simp only [Option.some.injEq, forall_eq']
          exact nextInside.trans (loopInside.trans restInside)

end Read

/-- The parts of a file that are read into the buffer leave room for a NUL. -/
theorem reads_fit (bytes : List UInt8) :
    ∀ piece ∈ CText.reads (maxString - 1) [] bytes, piece ≠ [] ∧ piece.length < maxString := by
  intro piece mem
  obtain ⟨some_byte, room⟩ := CText.reads_bounds (by decide) piece mem
  exact ⟨some_byte, by omega⟩

end Buffered

open Logged (All)

/-- The reader stays in the buffer and in the array exactly if no line that it gets to begins with a NUL byte, and
then it does what has been said of it without a buffer. -/
theorem reader_safe_iff (size : UInt32) (bytes : List UInt8) (erange : Bool) (strtod : List UInt8 → Option (ℚ × Bool))
    {ints : List UInt32} (hints : ints.length = size.toNat) {doubles : List ℚ} (hdoubles : doubles.length = size.toNat) :
    let pieces := CText.reads (maxString - 1) [] bytes
    let f : ADnEDFile := ⟨size, some pieces⟩
    (All (Inside size) (Buffered.readDataIntoIntArray f erange (some ints)) ↔
        ∀ line ∈ reached parseUInt32 size.toNat erange pieces, line.head? ≠ some 0) ∧
      (All (Inside size) (Buffered.readDataIntoDoubleArray strtod f erange (some doubles)) ↔
        ∀ line ∈ reached strtod size.toNat erange pieces, line.head? ≠ some 0) ∧
      (Buffered.readDataIntoIntArray f erange (some ints)).result = f.readDataIntoIntArray erange (some ints) ∧
      (Buffered.readDataIntoDoubleArray strtod f erange (some doubles)).result =
        f.readDataIntoDoubleArray strtod erange (some doubles) := by
  intro pieces f
  have fits := Buffered.reads_fit bytes
  obtain ⟨intResult, intInside⟩ := @Buffered.readLines_eq size (Vector.replicate maxString 0) UInt32 parseUInt32 erange
    pieces fits 0 ints hints
  obtain ⟨doubleResult, doubleInside⟩ := @Buffered.readLines_eq size (Vector.replicate maxString 0) ℚ strtod erange
    pieces fits 0 doubles hdoubles
  exact ⟨intInside, doubleInside, intResult, doubleResult⟩

theorem reader_safe_twoLines :
    All (Inside 2) (Buffered.readDataIntoIntArray ⟨2, some (CText.reads (maxString - 1) [] [49, 10, 50, 10])⟩ false
        (some [0, 0])) ∧
      All (Inside 2) (Buffered.readDataIntoDoubleArray (fun _ => some (1, false))
        ⟨2, some (CText.reads (maxString - 1) [] [49, 10, 50, 10])⟩ false (some [0, 0])) := by
  obtain ⟨int, double, -⟩ := @reader_safe_iff 2 [49, 10, 50, 10] false (fun _ => some (1, false)) [0, 0] rfl [0, 0] rfl
  exact ⟨int.2 (by decide), double.2 (by decide)⟩

/-- A line that begins with a NUL byte: both functions store before the buffer. -/
theorem reader_stores_before :
    .line (-1) ∈ (Buffered.readDataIntoIntArray ⟨1, some (CText.reads (maxString - 1) [] [0, 10])⟩ false
        (some [0])).events ∧
      .line (-1) ∈ (Buffered.readDataIntoDoubleArray (fun _ => some (1, false))
        ⟨1, some (CText.reads (maxString - 1) [] [0, 10])⟩ false (some [0])).events := by
  decide

end ADnEDFile

end ADnED
