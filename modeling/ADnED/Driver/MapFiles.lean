import ADnED.Driver.FileLoads
import ADnED.Lib.Word32
import Mathlib.Data.List.Forall2

/-!
# Pixel map files

A pixel map file has the size in its first line and then one entry a line. The reader takes the
buffers that `fgets` fills, removes the last character of each, and fills the array as far as there are
buffers: `data_ok_iff` says when an array is read from a file, and which. A list of entries that is written
to a file comes back exactly if the last line ends with a newline (`map_file_round_trip_iff`).
-/

namespace ADnED

namespace ADnEDFile

open CText (newline text lines reads isDigit digitsValue decimal number)

section Read

variable {α : Type} {parse : List UInt8 → Option (α × Bool)} {zero : α}

/-- A line is only converted while `errno` is not `ERANGE`. -/
theorem readLine_ok {erange erange' : Bool} {line : List UInt8} {x : α}
    (h : readLine parse erange line = some (erange', .ok x)) : erange' = false := by
  simp only [readLine] at h
  split at h
  · cases h
  · split at h
    · cases h
    · split at h
      · cases h
      · split at h
        · cases h
        · cases h
          rfl

/-- The buffer is converted to `x`: the string in it without its last character. -/
def Converts (parse : List UInt8 → Option (α × Bool)) (line : List UInt8) (x : α) : Prop :=
  readLine parse false line = some (false, .ok x)

theorem converts_iff {line : List UInt8} {x : α} :
    Converts parse line x ↔ CText.cString line ≠ [] ∧ (CText.cString line).dropLast.any whitespace = false ∧
      parse (CText.cString line).dropLast = some (x, false) := by
  rw [Converts, readLine]
  cases CText.cString line with
  | nil => simp
  | cons b s =>
    simp only [Bool.false_or]
    by_cases blank : (b :: s).dropLast.any whitespace = true
    · simp [blank]
    · rw [if_neg blank]
      cases parse (b :: s).dropLast with
      | none => simp
      | some r =>
        obtain ⟨value, outOfRange⟩ := r
        cases outOfRange <;> simp [blank]

/-- A buffer without a NUL. -/
theorem converts_append_iff {line : List UInt8} {b : UInt8} (whole : 0 ∉ line ++ [b]) {x : α} :
    Converts parse (line ++ [b]) x ↔ line.any whitespace = false ∧ parse line = some (x, false) := by
  rw [converts_iff, CText.cString_of_not_mem whole, List.dropLast_concat]
  exact and_iff_right (by simp)

/-- The loop: every buffer for which there is an entry left is converted, and the entries behind them stay. -/
theorem readLines_ok_iff {size : UInt32} {bufs : List (List UInt8)} {done old r : List α}
    (room : done.length + old.length = size.toNat) {erange : Bool} :
    readLines parse size bufs false done.length (done ++ old) = some (erange, .ok r) ↔
      erange = false ∧ ∃ values, List.Forall₂ (Converts parse) (bufs.take old.length) values ∧
        r = done ++ (values ++ old.drop values.length) := by
  induction bufs generalizing done old with
  | nil => simp [readLines, eq_comm]
  | cons line bufs ih =>
    cases old with
    | nil =>
      rw [readLines, if_pos (by simpa using room.ge)]
      simp [eq_comm]
    | cons o old =>
      rw [List.length_cons] at room
      rw [readLines, if_neg (by omega), List.length_cons, List.take_succ_cons]
      cases read : readLine parse false line with
      | none => simp [List.forall₂_cons_left_iff, Converts, read]
      | some q =>
        obtain ⟨erange', result⟩ := q
        cases result with
        | error e => simp [List.forall₂_cons_left_iff, Converts, read]
        | ok x =>
          obtain rfl := readLine_ok read
          have stored : (done ++ o :: old).set done.length x = (done ++ [x]) ++ old := by simp
          have later := @ih (done ++ [x]) old (by simp; omega)
          rw [List.length_append, List.length_singleton] at later
          simp only [Option.bind_some]
          rw [stored, later]
          simp [List.forall₂_cons_left_iff, Converts, read]

end Read

/-! ## What is read from a file -/

section Data

variable {α : Type} {parse : List UInt8 → Option (α × Bool)} {zero : α}

/-- The array of `n` entries after the buffers have been read into it. -/
def Fills (parse : List UInt8 → Option (α × Bool)) (zero : α) (n : Nat) (bufs : List (List UInt8)) (array : List α) :
    Prop :=
  ∃ values, List.Forall₂ (Converts parse) (bufs.take n) values ∧
    array = values ++ List.replicate (n - values.length) zero

/-- As many entries as buffers. -/
theorem fills_append_iff {n : Nat} {bufs rest : List (List UInt8)} (count : bufs.length = n) {array : List α} :
    Fills parse zero n (bufs ++ rest) array ↔ List.Forall₂ (Converts parse) bufs array := by
  rw [Fills, List.take_left' count]
  constructor
  · rintro ⟨values, converted, rfl⟩
    rw [← converted.length_eq, count, Nat.sub_self]
    simpa using converted
  · intro converted
    refine ⟨array, converted, ?_⟩
    rw [← converted.length_eq, count, Nat.sub_self]
    simp

/-- **The reader.** An array is read from a file exactly if `errno` is clear, memory is allocated, the first
buffer begins with a size that is not zero, and every buffer for which there is an entry is converted. -/
theorem data_ok_iff {env : FileEnv} {bytes : List UInt8} (file : env.access = .opened bytes) {erange : Bool}
    {value : String} {f : FileData α} {array : List α} :
    (data parse zero env erange value = some f ∧ f.size ≠ 0 ∧ f.read = .ok array) ↔
      (value ≠ "" ∧ erange = false ∧ env.callocOk = true) ∧
        ∃ size, CText.strtol (CText.cString ((reads (maxString - 1) [] bytes).headD [])) = some (size, false) ∧
          castUInt32 size ≠ 0 ∧ f = ⟨false, castUInt32 size, .ok array⟩ ∧
          Fills parse zero (castUInt32 size).toNat (reads (maxString - 1) [] bytes).tail array := by
  have filled (size : UInt32) (erange' : Bool) :
      readLines parse size (reads (maxString - 1) [] bytes).tail false 0 (List.replicate size.toNat zero) =
        some (erange', .ok array) ↔
      erange' = false ∧ Fills parse zero size.toNat (reads (maxString - 1) [] bytes).tail array := by
    have read := @readLines_ok_iff _ parse size (reads (maxString - 1) [] bytes).tail [] (List.replicate size.toNat zero)
      array (by simp) erange'
    simpa only [Fills, List.nil_append, List.length_nil, List.length_replicate, List.drop_replicate] using read
  constructor
  · rintro ⟨read, sized, ok⟩
    by_cases name : value = ""
    · simp only [data, construct, if_pos name, if_true] at read
      cases read
      exact absurd rfl sized
    simp only [data, file, construct, if_neg name] at read
    cases first : CText.strtol (CText.cString ((reads (maxString - 1) [] bytes).headD [])) with
    | none =>
      simp only [first] at read
      cases read
      cases ok
    | some r =>
      obtain ⟨size, outOfRange⟩ := r
      simp only [first] at read
      cases clear : erange || outOfRange with
      | true =>
        simp only [clear, if_true] at read
        cases read
        cases ok
      | false =>
        obtain ⟨rfl, rfl⟩ := Bool.or_eq_false_iff.1 clear
        simp only [clear, Bool.false_eq_true, if_false] at read
        by_cases none_left : castUInt32 size = 0
        · rw [if_pos none_left] at read
          cases read
          exact absurd rfl sized
        rw [if_neg none_left] at read
        obtain ⟨⟨erange', result⟩, looped, rfl⟩ := Option.map_eq_some_iff.1 read
        cases ok
        cases memory : env.callocOk with
        | false =>
          rw [callocArray, memory] at looped
          cases looped
        | true =>
          simp only [callocArray, memory, if_true, readData] at looped
          obtain ⟨rfl, fills⟩ := (filled _ _).1 looped
          exact ⟨⟨name, rfl, rfl⟩, size, rfl, none_left, rfl, fills⟩
  · rintro ⟨⟨name, rfl, memory⟩, size, first, some_left, rfl, fills⟩
    refine ⟨?_, some_left, rfl⟩
    simp only [data, file, construct, if_neg name, first, Bool.or_self, Bool.false_eq_true, if_false, if_neg some_left,
      callocArray, memory, if_true, readData]
    rw [(filled _ _).2 ⟨rfl, fills⟩, Option.map_some]

end Data

/-! ## Numbers in a file -/

theorem toLong_natCast {n : Nat} (lt : n < 2 ^ 32) : CText.toLong (n : Int) = ((n : Int), false) := by
  rw [CText.toLong, if_neg (by omega), if_neg (by omega)]

theorem castUInt32_natCast {n : Nat} (lt : n < 2 ^ 32) : castUInt32 n = UInt32.ofNat n := by
  rw [castUInt32]
  congr 1
  omega

theorem toNat_castUInt32 {n : Nat} (lt : n < 2 ^ 32) : (castUInt32 n).toNat = n := by
  rw [castUInt32_natCast lt, UInt32.toNat_ofNat', Nat.mod_eq_of_lt lt]

/-- A number that is read from the beginning of its text only is zero, or something else is read. -/
theorem eq_zero_of_append {s more : List UInt8} {n : Nat} (h : number (s ++ more) = some (n : Int)) (lt : n < 2 ^ 32)
    (some_more : more ≠ []) {w : Int} (read : CText.strtol s = some (w, false)) (same : (castUInt32 w).toNat = n) :
    n = 0 := by
  have short : s.length < (s ++ more).length := by
    rw [List.length_append]
    exact Nat.lt_add_of_pos_right (List.length_pos_iff.2 some_more)
  have tenth := CText.strtol_take h short (w := w) (by rwa [List.take_left])
  obtain ⟨k, rfl⟩ : ∃ k : Nat, w = k := Int.eq_ofNat_of_zero_le (by omega)
  rw [toNat_castUInt32 (by omega)] at same
  omega

/-- A line that denotes a number of 32 bits and fits into the buffer with its newline. -/
structure NumberLine (line : List UInt8) (n : Nat) : Prop where
  number : number line = some (n : Int)
  lt : n < 2 ^ 32
  short : line.length + 2 ≤ maxString - 1

namespace NumberLine

variable {line : List UInt8} {n : Nat} (h : NumberLine line n)
include h

theorem parseUInt32_eq : parseUInt32 line = some (UInt32.ofNat n, false) := by
  have read := @CText.strtol_number line [] n h.number (by simp)
  rw [List.append_nil] at read
  rw [parseUInt32, read, toLong_natCast h.lt, Option.map_some, castUInt32_natCast h.lt]

theorem no_whitespace : line.any whitespace = false := by
  rw [List.any_eq_false]
  intro b mem white
  simp only [whitespace, Bool.or_eq_true, beq_iff_eq] at white
  rcases white with ((rfl | rfl) | rfl) | rfl <;> exact absurd (CText.mem_number h.number mem) (by decide)

theorem zero_not_mem : 0 ∉ line ++ [newline] := by
  simpa using ⟨(CText.number_not_mem h.number).2, by decide⟩

/-- It is read as a whole. -/
theorem reads_eq (bytes : List UInt8) :
    reads (maxString - 1) [] (line ++ newline :: bytes) = (line ++ [newline]) :: reads (maxString - 1) [] bytes :=
  CText.reads_line (CText.number_not_mem h.number).1 h.short bytes

/-- A data line: the entry is the number. -/
theorem converts_iff {x : UInt32} : Converts parseUInt32 (line ++ [newline]) x ↔ x = UInt32.ofNat n := by
  rw [converts_append_iff h.zero_not_mem, h.parseUInt32_eq]
  simp [h.no_whitespace, eq_comm]

/-- The first line: the size is the number. -/
theorem strtol_cString : CText.strtol (CText.cString (line ++ [newline])) = some ((n : Int), false) := by
  rw [CText.cString_of_not_mem h.zero_not_mem, CText.strtol_number h.number (by simp [newline]; decide),
    toLong_natCast h.lt]

end NumberLine

/-- The first line of a file is a number: an array that is read has that size. -/
theorem data_numberLine_iff {α : Type} {parse : List UInt8 → Option (α × Bool)} {zero : α} {env : FileEnv}
    {line bytes : List UInt8} {n : Nat} (first : NumberLine line n) (file : env.access = .opened (line ++ newline :: bytes))
    {erange : Bool} {value : String} {f : FileData α} {array : List α} :
    (data parse zero env erange value = some f ∧ f.size ≠ 0 ∧ f.read = .ok array) ↔
      (value ≠ "" ∧ erange = false ∧ env.callocOk = true) ∧ n ≠ 0 ∧ f = ⟨false, UInt32.ofNat n, .ok array⟩ ∧
        Fills parse zero n (reads (maxString - 1) [] bytes) array := by
  have some_left : castUInt32 n ≠ 0 ↔ n ≠ 0 := by
    rw [Ne, ← UInt32.toNat_inj, toNat_castUInt32 first.lt]
    rfl
  rw [data_ok_iff file, first.reads_eq, List.headD_cons, List.tail_cons, first.strtol_cString]
  constructor
  · rintro ⟨fine, size, same, rest⟩
    cases same
    rw [some_left, toNat_castUInt32 first.lt, castUInt32_natCast first.lt] at rest
    exact ⟨fine, rest⟩
  · rintro ⟨fine, rest⟩
    refine ⟨fine, n, rfl, ?_⟩
    rwa [some_left, toNat_castUInt32 first.lt, castUInt32_natCast first.lt]

/-! ## Maps as texts -/

/-- The file of a map: its length and its entries in decimal, one a line. `final` says whether the
last line ends with a newline. -/
def mapText (v : List Nat) (final : Bool) : List UInt8 :=
  let bytes := text (decimal v.length :: v.map decimal)
  if final then bytes else bytes.dropLast

theorem decimal_numberLine {n : Nat} (lt : n < 2 ^ 32) : NumberLine (decimal n) n where
  number := by rw [CText.number_digits (CText.decimal_digits n) (CText.decimal_ne_nil n), CText.digitsValue_decimal]
  lt := lt
  short := by
    have length : (decimal n).length ≤ 10 := CText.decimal_length (by decide) (by omega)
    have buffer : maxString = 256 := rfl
    omega

/-- A number that has been written without a newline behind it is not read back. -/
theorem converts_decimal_last {n : Nat} (lt : n < 2 ^ 32) {x : UInt32} (read : Converts parseUInt32 (decimal n) x) :
    x.toNat ≠ n := by
  obtain empty | ⟨s, b, split⟩ := List.eq_nil_or_concat' (decimal n)
  · exact absurd empty (CText.decimal_ne_nil n)
  have number := (decimal_numberLine lt).number
  rw [split] at number
  rw [split, converts_append_iff (CText.number_not_mem number).2] at read
  obtain ⟨⟨w, outOfRange⟩, strtol, same⟩ := Option.map_eq_some_iff.1 read.2
  cases same
  intro same
  -- only zero is a tenth of itself, and it has one digit
  obtain rfl := eq_zero_of_append number lt (by simp) strtol same
  have digit : (s ++ [b]).length = 1 := congrArg List.length split.symm
  have none : s = [] := by simpa using digit
  rw [none] at strtol
  cases strtol

/-- The lines of the file of a map. -/
theorem reads_decimals {v : List Nat} (small : ∀ x ∈ v, x < 2 ^ 32) (rest : List UInt8) :
    reads (maxString - 1) [] (text (v.map decimal) ++ rest) =
      v.map (fun x => decimal x ++ [newline]) ++ reads (maxString - 1) [] rest := by
  have whole : ∀ line ∈ v.map decimal, newline ∉ line :=
    List.forall_mem_map.2 fun x mem => (CText.number_not_mem (decimal_numberLine (small x mem)).number).1
  have short : ∀ line ∈ v.map decimal, line.length + 2 ≤ maxString - 1 :=
    List.forall_mem_map.2 fun x mem => (decimal_numberLine (small x mem)).short
  rw [CText.reads_text whole short, List.map_map]
  rfl

theorem mapText_final (v : List Nat) :
    mapText v true = decimal v.length ++ newline :: (text (v.map decimal) ++ []) := by
  simp [mapText, text]

theorem mapText_open (v : List Nat) (x : Nat) :
    mapText (v ++ [x]) false = decimal (v ++ [x]).length ++ newline :: (text (v.map decimal) ++ decimal x) := by
  have bytes : text (decimal (v ++ [x]).length :: (v ++ [x]).map decimal) =
      (decimal (v ++ [x]).length ++ newline :: (text (v.map decimal) ++ decimal x)) ++ [newline] := by
    simp [text]
  rw [mapText, bytes, List.dropLast_concat]
  rfl

section RoundTrip

variable {env : FileEnv} {value : String} {v : List Nat} (few : v.length < 2 ^ 32) (small : ∀ x ∈ v, x < 2 ^ 32)
include few small

/-- The file of a map is read back. -/
theorem mapData_final (name : value ≠ "") (file : env.access = .opened (mapText v true)) (alloc : env.callocOk = true)
    (some_entry : v ≠ []) :
    mapData env false value = some ⟨false, UInt32.ofNat v.length, .ok (v.map UInt32.ofNat)⟩ := by
  rw [mapText_final] at file
  have converted : List.Forall₂ (Converts parseUInt32) (v.map fun x => decimal x ++ [newline]) (v.map UInt32.ofNat) := by
    rw [List.forall₂_map_left_iff, List.forall₂_map_right_iff, List.forall₂_same]
    exact fun x mem => (decimal_numberLine (small x mem)).converts_iff.2 rfl
  have fills : Fills parseUInt32 0 v.length (reads (maxString - 1) [] (text (v.map decimal) ++ []))
      (v.map UInt32.ofNat) := by
    rw [reads_decimals small, fills_append_iff (by simp)]
    exact converted
  exact ((data_numberLine_iff (decimal_numberLine few) file).2
    ⟨⟨name, rfl, alloc⟩, by simpa using some_entry, rfl, fills⟩).1

/-- Without the last newline something else is read. -/
theorem mapData_open (file : env.access = .opened (mapText v false)) (some_entry : v ≠ []) {f : FileData UInt32}
    (read : mapData env false value = some f) (sized : f.size ≠ 0) {m : List UInt32} (ok : f.read = .ok m) :
    m.map UInt32.toNat ≠ v := by
  intro same
  obtain ⟨v, x, rfl⟩ := (List.eq_nil_or_concat' v).resolve_left some_entry
  rw [mapText_open] at file
  obtain ⟨smalls, small⟩ := List.forall_mem_append.1 small
  have lt := small x (by simp)
  have line := decimal_numberLine lt
  have last : reads (maxString - 1) [] (decimal x) = [decimal x] :=
    CText.reads_last (CText.number_not_mem line.number).1 line.short (CText.decimal_ne_nil x)
  obtain ⟨-, -, -, fills⟩ := (data_numberLine_iff (decimal_numberLine few) file).1 ⟨read, sized, ok⟩
  rw [reads_decimals smalls, last, ← List.append_nil (_ ++ [decimal x]), fills_append_iff (by simp)] at fills
  obtain ⟨m, m', rfl, before, now⟩ := List.map_eq_append_iff.1 same
  obtain ⟨y, rfl, value⟩ := List.map_eq_singleton_iff.1 now
  have length : (v.map fun x => decimal x ++ [newline]).length = m.length := by
    rw [List.length_map, ← before, List.length_map]
  have final := List.forall₂_drop_append _ _ _ fills
  rw [List.drop_left' length, List.forall₂_cons] at final
  exact converts_decimal_last lt final.1 value

end RoundTrip

end ADnEDFile

namespace Driver

open ADnEDFile (mapData mapText)

/-- A map that is there after a write has been read from the file. -/
theorem installed_map {env : FileEnv} {erange : Bool} {d : Driver} {addr : Nat} {value : String} (le : addr ≤ maxDets)
    {r : Bool × Driver × AsynStatus} (wrote : d.writeOctet env erange addr .pixelMapFile value = some r)
    {m : List UInt32} (installed : r.2.1.pixelMap addr = some m) :
    ∃ f, mapData env erange value = some f ∧ f.size ≠ 0 ∧ f.read = .ok m ∧ r.2.1.pixelMapSize addr = f.size := by
  rw [writeOctet_pixelMapFile _ _ _ _ le] at wrote
  obtain ⟨f, read, rfl⟩ := Option.map_eq_some_iff.1 wrote
  rw [storeStr_pixelMap] at installed
  rw [storeStr_pixelMapSize]
  exact ⟨f, read, putMap_installed installed⟩

/-- **Round trip.** A map whose entries are below the size of the detector, written to a file, is
installed from the file exactly if its last line ends with a newline. -/
theorem map_file_round_trip_iff {env : FileEnv} {d : Driver} {addr : Nat} {value : String} (le : addr ≤ maxDets)
    (name : value ≠ "") (alloc : env.callocOk = true) {v : List Nat} (some_entry : 1 ≤ v.length)
    (few : v.length ≤ 1000000) (range : ∀ x ∈ v, (x : Int) < (d.int addr .pixelNumSize).toInt) {final : Bool}
    (file : env.access = .opened (mapText v final)) :
    (∃ r, d.writeOctet env false addr .pixelMapFile value = some r ∧
        (r.2.1.pixelMapSize addr).toNat = v.length ∧
        ∃ m, r.2.1.pixelMap addr = some m ∧ m.map UInt32.toNat = v) ↔ final = true := by
  have detector := Word32.toInt_bounds (d.int addr .pixelNumSize)
  have small : ∀ x ∈ v, x < 2 ^ 32 := by
    intro x mem
    have below := range x mem
    omega
  have filled : v ≠ [] := List.ne_nil_of_length_pos some_entry
  cases final with
  | false =>
    simp only [Bool.false_eq_true, iff_false]
    rintro ⟨r, wrote, -, m, installed, same⟩
    obtain ⟨f, read, sized, ok, -⟩ := installed_map le wrote installed
    exact ADnEDFile.mapData_open (by omega) small file filled read sized ok same
  | true =>
    simp only [iff_true]
    have read := ADnEDFile.mapData_final (by omega) small name file alloc filled
    have count : (UInt32.ofNat v.length).toNat = v.length := by
      rw [UInt32.toNat_ofNat']
      omega
    have sized : UInt32.ofNat v.length ≠ 0 := by
      intro zero
      rw [zero] at count
      exact absurd count.symm (by simpa using filled)
    have in_range : ¬ ∃ x ∈ v.map UInt32.ofNat, (d.int addr .pixelNumSize).toUInt32 < x := by
      rintro ⟨y, listed, above⟩
      obtain ⟨x, mem, rfl⟩ := List.mem_map.1 listed
      have below := range x mem
      rw [UInt32.lt_iff_toNat_lt, UInt32.toNat_ofNat', Word32.toNat_toUInt32_of_nonneg (by omega)] at above
      omega
    rw [writeOctet_pixelMapFile _ _ _ _ le, read, Option.map_some, putMap_ok sized rfl, if_neg in_range]
    refine ⟨_, rfl, ?_, v.map UInt32.ofNat, ?_, ?_⟩
    · simpa only [storeStr_pixelMapSize, setMap, setMapSize, Function.update_self] using count
    · simp [setMap]
    · have same : ∀ x ∈ v, (UInt32.toNat ∘ UInt32.ofNat) x = id x := by
        intro x mem
        rw [Function.comp_apply, UInt32.toNat_ofNat', Nat.mod_eq_of_lt (small x mem)]
        rfl
      rw [List.map_map, List.map_congr_left same, List.map_id]

theorem map_file_round_trip_fourPixels :
    ∃ r, writeOctet (fileOf (mapText [3, 0, 2] true)) false fourPixels 1 .pixelMapFile "map" = some r ∧
      (r.2.1.pixelMapSize 1).toNat = 3 ∧ ∃ m, r.2.1.pixelMap 1 = some m ∧ m.map UInt32.toNat = [3, 0, 2] := by
  have range : ∀ x ∈ ([3, 0, 2] : List Nat), (x : Int) < (fourPixels.int 1 .pixelNumSize).toInt := by decide
  have name : "map" ≠ "" := by decide
  have opened : (fileOf (mapText [3, 0, 2] true)).access = .opened (mapText [3, 0, 2] true) := rfl
  exact (map_file_round_trip_iff (by decide) name rfl (by decide) (by decide) range opened).2 rfl

/-- Without the last newline the last digit is removed: a map is changed, and another one is not read. -/
theorem map_file_last_digit :
    (writeOctet (fileOf (mapText [3, 12] false)) false (withInts [(1, .pixelNumSize, 16)]) 1 .pixelMapFile "map").map
        (·.2.1.pixelMap 1) = some (some [3, 1]) ∧
      (writeOctet (fileOf (mapText [3, 2] false)) false (withInts [(1, .pixelNumSize, 16)]) 1 .pixelMapFile "map").map
        (·.2.1.pixelMap 1) = some none := by
  decide +kernel

end Driver

end ADnED
