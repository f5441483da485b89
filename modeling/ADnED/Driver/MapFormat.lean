import ADnED.Driver.MapFiles

/-!
# The files whose map is the one that is installed

A map is faithful to a file if the first line denotes its length and the lines behind it its entries. The reader
does not compare the lines with what it takes from them, so it also installs maps that are not: of a line with
something behind the number, of fewer lines than the size says, of a number that has more than 32 bits, of a line that
does not fit into the buffer. `map_file_faithful_iff` says which files are left: line after line a number of 32 bits
that is read as a whole, up to lines that all denote zero. Those are also right if the buffers are not the lines any
more, since then nothing but zeros is read.
-/

namespace ADnED

namespace ADnEDFile

open CText (newline lines reads isDigit number)

/-- The line denotes the number `n` and holds nothing else. -/
def Denotes (line : List UInt8) (n : Nat) : Prop := number line = some (n : Int)

/-- The map is the one in the file: the first line is its length, and the lines behind it are its
entries. -/
structure Faithful (bytes : List UInt8) (m : List UInt32) : Prop where
  size : ∃ line, (lines [] bytes).head? = some line ∧ Denotes line m.length
  entries : List.Forall₂ (fun line x => Denotes line x.toNat) ((lines [] bytes).tail.take m.length) m

/-- The text begins with `n` lines for the entries of a map. -/
inductive Entries : Nat → List UInt8 → Prop where
  | number {line : List UInt8} {x n : Nat} {rest : List UInt8} (first : NumberLine line x) (others : Entries n rest) :
      Entries (n + 1) (line ++ newline :: rest)
  | zeros {n : Nat} {bytes : List UInt8} (enough : n ≤ (lines [] bytes).length)
      (zero : ∀ line ∈ (lines [] bytes).take n, Denotes line 0) : Entries n bytes

/-- The text is a size in a line of its own and the lines for as many entries. -/
def Exact (bytes : List UInt8) : Prop :=
  ∃ first rest n, bytes = first ++ newline :: rest ∧ NumberLine first n ∧ Entries n rest

section Fills

variable {α : Type} {parse : List UInt8 → Option (α × Bool)} {zero : α} {n : Nat} {bufs : List (List UInt8)}
  {array : List α}

theorem fills_length (h : Fills parse zero n bufs array) : array.length = n := by
  obtain ⟨values, converted, rfl⟩ := h
  have few := converted.length_eq
  rw [List.length_take] at few
  rw [List.length_append, List.length_replicate]
  omega

theorem fills_cons_iff {line : List UInt8} :
    Fills parse zero (n + 1) (line :: bufs) array ↔
      ∃ x others, Converts parse line x ∧ Fills parse zero n bufs others ∧ array = x :: others := by
  simp only [Fills, List.take_succ_cons, List.forall₂_cons_left_iff]
  constructor
  · rintro ⟨_, ⟨x, values, first, converted, rfl⟩, rfl⟩
    exact ⟨x, _, first, ⟨values, converted, rfl⟩, by simp⟩
  · rintro ⟨x, _, first, ⟨values, converted, rfl⟩, rfl⟩
    exact ⟨x :: values, ⟨x, values, first, converted, rfl⟩, by simp⟩

/-- The entry of a buffer does not depend on those behind it. -/
theorem fills_take (h : Fills parse zero n bufs array) {k : Nat} (le : k ≤ n) :
    Fills parse zero k bufs (array.take k) := by
  obtain ⟨values, converted, rfl⟩ := h
  refine ⟨values.take k, ?_, ?_⟩
  · have taken := List.forall₂_take k converted
    rwa [List.take_take, Nat.min_eq_left le] at taken
  · rw [List.take_append, List.take_replicate, List.length_take]
    congr 2
    omega

/-- An entry is zero or that of a buffer. -/
theorem fills_mem (h : Fills parse zero n bufs array) {x : α} (mem : x ∈ array) :
    x = zero ∨ ∃ line ∈ bufs.take n, Converts parse line x := by
  obtain ⟨values, converted, rfl⟩ := h
  rcases List.mem_append.1 mem with listed | default
  · right
    generalize bufs.take n = read at converted ⊢
    clear mem
    induction converted with
    | nil => cases listed
    | @cons line y read values first _ ih =>
      rcases List.mem_cons.1 listed with rfl | later
      · exact ⟨line, List.mem_cons_self .., first⟩
      · obtain ⟨line, mem, converts⟩ := ih later
        exact ⟨line, List.mem_cons_of_mem _ mem, converts⟩
  · exact .inl (List.eq_of_mem_replicate default)

end Fills

/-! ## Lines of zeros -/

/-- If the lines hold no digits but zeros, zeros are read from the buffers, wherever these begin. -/
theorem fills_zeros {before bytes : List UInt8} {n : Nat} {m : List UInt32}
    (zero : ∀ line ∈ (lines before bytes).take n, Denotes line 0)
    (fills : Fills parseUInt32 0 n (reads (maxString - 1) [] bytes) m) : ∀ x ∈ m, x = 0 := by
  intro x mem
  rcases fills_mem fills mem with default | ⟨piece, listed, read⟩
  · exact default
  have digits : ∀ b ∈ (CText.cString piece).dropLast, isDigit b = true → b = 48 := by
    intro b hb digit
    have hb := (List.takeWhile_prefix _).subset (List.dropLast_subset _ hb)
    rcases CText.reads_mem_lines before [] bytes piece listed b hb with rfl | ⟨line, listed, hb⟩
    · cases digit
    · rw [List.append_nil] at listed
      exact CText.number_zero (zero line listed) b hb digit
  obtain ⟨-, -, parsed⟩ := converts_iff.1 read
  obtain ⟨⟨w, outOfRange⟩, strtol, same⟩ := Option.map_eq_some_iff.1 parsed
  cases same
  have none : w = 0 := CText.strtol_zeros digits strtol
  rw [none]
  rfl

/-- Lines whose entries are all zero. -/
theorem denotes_zero {ls : List (List UInt8)} {m : List UInt32}
    (h : List.Forall₂ (fun line x => Denotes line x.toNat) ls m) (zero : ∀ x ∈ m, x = 0) :
    ∀ line ∈ ls, Denotes line 0 := by
  induction h with
  | nil => simp
  | cons first _ ih =>
    rw [List.forall_mem_cons] at zero ⊢
    obtain ⟨rfl, zero⟩ := zero
    exact ⟨first, ih zero⟩

/-- The first call has stopped inside of a line that denotes zero: so do the others, since each entry is read
from the lines before it. -/
theorem zeros_behind {piece bytes : List UInt8} {n : Nat} {m : List UInt32}
    (fills : Fills parseUInt32 0 n (reads (maxString - 1) [] bytes) m)
    (faithful : List.Forall₂ (fun line x => Denotes line x.toNat) ((lines piece bytes).take (n + 1)) (0 :: m)) :
    ∀ line ∈ (lines piece bytes).take (n + 1), Denotes line 0 := by
  suffices each : ∀ k ≤ n, ∀ line ∈ (lines piece bytes).take (k + 1), Denotes line 0 from each n le_rfl
  intro k
  induction k with
  | zero =>
    intro _
    have first := List.forall₂_take 1 faithful
    rw [List.take_take, Nat.min_eq_left (by omega)] at first
    exact denotes_zero first (by simp)
  | succ k ih =>
    intro le
    have taken := List.forall₂_take (k + 2) faithful
    rw [List.take_take, Nat.min_eq_left (by omega), List.take_succ_cons] at taken
    apply denotes_zero taken
    rw [List.forall_mem_cons]
    exact ⟨rfl, fills_zeros (ih (by omega)) (fills_take fills le)⟩

/-- What is read from the beginning of a line is not the number in it, unless that is zero. -/
theorem converts_piece {piece more : List UInt8} {x : UInt32} (h : Denotes (piece ++ more) x.toNat)
    (some_byte : piece ≠ []) (read : Converts parseUInt32 piece x) : x = 0 := by
  obtain ⟨s, b, rfl⟩ := (List.eq_nil_or_concat' piece).resolve_left some_byte
  have whole : 0 ∉ s ++ [b] := fun mem => (CText.number_not_mem h).2 (List.mem_append_left _ mem)
  obtain ⟨-, parsed⟩ := (converts_append_iff whole).1 read
  obtain ⟨⟨w, outOfRange⟩, strtol, same⟩ := Option.map_eq_some_iff.1 parsed
  cases same
  rw [List.append_assoc] at h
  have zero := eq_zero_of_append h (UInt32.toNat_lt _) (by simp) strtol rfl
  exact UInt32.toNat_inj.1 zero

/-! ## Faithful files -/

/-- **Entries.** The entries that are read are those in the lines exactly if the lines are entries. -/
theorem entries_iff {bytes : List UInt8} {n : Nat} {m : List UInt32}
    (fills : Fills parseUInt32 0 n (reads (maxString - 1) [] bytes) m) :
    List.Forall₂ (fun line x => Denotes line x.toNat) ((lines [] bytes).take n) m ↔ Entries n bytes := by
  constructor
  · intro faithful
    induction n generalizing bytes m with
    | zero => exact .zeros (Nat.zero_le _) (by simp)
    | succ n ih =>
      have count : n + 1 ≤ (lines [] bytes).length := by
        have same := faithful.length_eq
        rw [List.length_take, fills_length fills] at same
        omega
      have some_byte : bytes ≠ [] := by
        rintro rfl
        exact absurd count (by simp [lines])
      rcases CText.reads_cases (n := maxString - 1) (by decide) some_byte with
        ⟨line, rest, whole, short, rfl⟩ | ⟨piece, rest, some_piece, whole, rfl, read, -⟩
      · rw [CText.reads_line whole short] at fills
        obtain ⟨x, others, -, later, rfl⟩ := fills_cons_iff.1 fills
        rw [CText.lines_newline whole, List.take_succ_cons, List.forall₂_cons] at faithful
        exact .number ⟨faithful.1, UInt32.toNat_lt x, short⟩ (ih later faithful.2)
      · rw [read] at fills
        obtain ⟨x, others, first, later, rfl⟩ := fills_cons_iff.1 fills
        have same : lines [] (piece ++ rest) = lines piece rest := by rw [CText.lines_append whole, List.nil_append]
        obtain ⟨more, ls, started⟩ := CText.lines_started some_piece rest
        have denotes : Denotes (piece ++ more) x.toNat := by
          rw [same, started, List.take_succ_cons, List.forall₂_cons] at faithful
          exact faithful.1
        obtain rfl := converts_piece denotes some_piece first
        rw [same] at faithful
        refine .zeros count ?_
        rw [same]
        exact zeros_behind later faithful
  · intro entries
    induction entries generalizing m with
    | number first others ih =>
      rw [first.reads_eq] at fills
      obtain ⟨x, array, read, later, rfl⟩ := fills_cons_iff.1 fills
      rw [first.converts_iff] at read
      rw [CText.lines_newline (CText.number_not_mem first.number).1, List.take_succ_cons, List.forall₂_cons]
      refine ⟨?_, ih later⟩
      rw [read, UInt32.toNat_ofNat', Nat.mod_eq_of_lt first.lt]
      exact first.number
    | @zeros n bytes enough zero =>
      have zeros := fills_zeros zero fills
      have count : ((lines [] bytes).take n).length = m.length := by
        rw [List.length_take, fills_length fills]
        omega
      rw [List.forall₂_iff_zip]
      refine ⟨count, fun {line x} mem => ?_⟩
      rw [zeros x (List.of_mem_zip mem).2]
      exact zero line (List.of_mem_zip mem).1

/-- A file from which a size that is not zero and the entries are read, and whose first line denotes the size:
the first call has read that line as a whole. -/
theorem first_whole {bytes : List UInt8} {w : Int} {m : List UInt32}
    (strtol : CText.strtol (CText.cString ((reads (maxString - 1) [] bytes).headD [])) = some (w, false))
    (some_left : castUInt32 w ≠ 0)
    (fills : Fills parseUInt32 0 (castUInt32 w).toNat (reads (maxString - 1) [] bytes).tail m) (h : Faithful bytes m) :
    ∃ first rest, bytes = first ++ newline :: rest ∧ NumberLine first (castUInt32 w).toNat := by
  obtain ⟨⟨first, head, denotes⟩, entries⟩ := h
  rw [fills_length fills] at denotes entries
  have some_entry : (castUInt32 w).toNat ≠ 0 := fun zero => some_left (UInt32.toNat_inj.1 zero)
  have some_byte : bytes ≠ [] := by
    rintro rfl
    cases head
  rcases CText.reads_cases (n := maxString - 1) (by decide) some_byte with
    ⟨line, rest, whole, short, rfl⟩ | ⟨piece, rest, some_piece, whole, rfl, read, stops⟩
  · rw [CText.lines_newline whole] at head
    cases head
    exact ⟨_, rest, rfl, denotes, UInt32.toNat_lt _, short⟩
  · exfalso
    rw [CText.lines_append whole, List.nil_append] at head entries
    cases rest with
    | nil =>
      -- there is no line for the first entry
      have count := entries.length_eq
      rw [fills_length fills, lines, if_neg some_piece] at count
      exact some_entry (by simpa using count.symm)
    | cons b rest =>
      rw [read] at strtol fills
      by_cases ends : b = newline
      · -- only the newline is left for the first entry
        subst ends
        rw [List.tail_cons, reads, if_pos (.inl rfl)] at fills
        obtain ⟨k, succ⟩ := Nat.exists_eq_succ_of_ne_zero some_entry
        rw [succ] at fills
        obtain ⟨x, -, converts, -⟩ := fills_cons_iff.1 fills
        have whole : (0 : UInt8) ∉ [] ++ [newline] := by decide
        have parsed := ((converts_append_iff whole).1 converts).2
        cases parsed
      · -- not all of the number is read
        rw [lines, if_neg ends] at head
        obtain ⟨more, ls, started⟩ := @CText.lines_started (piece ++ [b]) (by simp) rest
        rw [started] at head
        cases head
        rw [List.append_assoc] at denotes
        have string : CText.cString piece = piece := by
          apply CText.cString_of_not_mem
          intro mem
          exact (CText.number_not_mem denotes).2 (List.mem_append_left _ mem)
        rw [List.headD_cons, string] at strtol
        exact some_entry (eq_zero_of_append denotes (UInt32.toNat_lt _) (by simp) strtol rfl)

/-- **Faithful files.** A map that has been read from a file is the one in the file exactly if the file has the format. -/
theorem faithful_iff {env : FileEnv} {bytes : List UInt8} (file : env.access = .opened bytes) {erange : Bool}
    {value : String} {f : FileData UInt32} {m : List UInt32} (read : mapData env erange value = some f)
    (sized : f.size ≠ 0) (ok : f.read = .ok m) : Faithful bytes m ↔ Exact bytes := by
  constructor
  · intro faithful
    obtain ⟨-, w, strtol, some_left, -, fills⟩ := (data_ok_iff file).1 ⟨read, sized, ok⟩
    obtain ⟨first, rest, rfl, line⟩ := first_whole strtol some_left fills faithful
    rw [line.reads_eq, List.tail_cons] at fills
    have entries := faithful.entries
    rw [CText.lines_newline (CText.number_not_mem line.number).1, List.tail_cons, fills_length fills] at entries
    exact ⟨first, rest, _, rfl, line, (entries_iff fills).1 entries⟩
  · rintro ⟨first, rest, n, rfl, line, entries⟩
    obtain ⟨-, -, -, fills⟩ := (data_numberLine_iff line file).1 ⟨read, sized, ok⟩
    have lines_eq := CText.lines_newline (CText.number_not_mem line.number).1 rest
    constructor
    · rw [lines_eq, fills_length fills]
      exact ⟨first, rfl, line.number⟩
    · rw [lines_eq, List.tail_cons, fills_length fills]
      exact (entries_iff fills).2 entries

end ADnEDFile

namespace Driver

open ADnEDFile (mapText Faithful Exact)

/-- **Faithful maps.** A map that is installed is the one in the file, and has its size, exactly if the file has
the format, or no map is installed. -/
theorem map_file_faithful_iff {env : FileEnv} {bytes : List UInt8} (file : env.access = .opened bytes) {erange : Bool}
    {d : Driver} {addr : Nat} {value : String} (le : addr ≤ maxDets) {r : Bool × Driver × AsynStatus}
    (wrote : d.writeOctet env erange addr .pixelMapFile value = some r) :
    (∀ m, r.2.1.pixelMap addr = some m → (r.2.1.pixelMapSize addr).toNat = m.length ∧ Faithful bytes m) ↔
      (r.2.1.pixelMap addr ≠ none → Exact bytes) := by
  constructor
  · intro faithful some_map
    obtain ⟨m, installed⟩ := Option.ne_none_iff_exists'.1 some_map
    obtain ⟨f, read, sized, ok, -⟩ := installed_map le wrote installed
    exact (ADnEDFile.faithful_iff file read sized ok).1 (faithful m installed).2
  · intro format m installed
    obtain ⟨f, read, sized, ok, size⟩ := installed_map le wrote installed
    refine ⟨?_, (ADnEDFile.faithful_iff file read sized ok).2 (format (by simp [installed]))⟩
    rw [size, ADnEDFile.data_length read ok]

/-- The lines `2`, `1`, `0` and a comment behind them. -/
theorem map_file_faithful_fourPixels :
    ∃ r m, writeOctet (fileOf [50, 10, 49, 10, 48, 10, 35, 10]) false fourPixels 1 .pixelMapFile "map" = some r ∧
      r.2.1.pixelMap 1 = some m ∧ (r.2.1.pixelMapSize 1).toNat = m.length ∧
      Faithful [50, 10, 49, 10, 48, 10, 35, 10] m := by
  have written : (writeOctet (fileOf [50, 10, 49, 10, 48, 10, 35, 10]) false fourPixels 1 .pixelMapFile "map").map
      (·.2.1.pixelMap 1) = some (some [1, 0]) := by decide +kernel
  obtain ⟨r, wrote, installed⟩ := Option.map_eq_some_iff.1 written
  have two : ADnEDFile.NumberLine [50] 2 := ⟨by decide, by decide, by decide⟩
  have one : ADnEDFile.NumberLine [49] 1 := ⟨by decide, by decide, by decide⟩
  have zero : ADnEDFile.NumberLine [48] 0 := ⟨by decide, by decide, by decide⟩
  have exact_bytes : Exact [50, 10, 49, 10, 48, 10, 35, 10] :=
    ⟨[50], [49, 10, 48, 10, 35, 10], 2, rfl, two, .number one (.number zero (.zeros (Nat.zero_le _) (by simp)))⟩
  exact ⟨r, _, wrote, installed, (map_file_faithful_iff rfl (by decide) wrote).2 (fun _ => exact_bytes) _ installed⟩

/-- A line with a letter behind the number, a line too few, and a number that is one more than `2^32`. -/
theorem map_file_unfaithful :
    ((writeOctet (fileOf [49, 10, 51, 120, 10]) false fourPixels 1 .pixelMapFile "map").map (·.2.1.pixelMap 1) =
        some (some [3]) ∧ ¬ Faithful [49, 10, 51, 120, 10] [3]) ∧
      ((writeOctet (fileOf [50, 10, 49, 10]) false fourPixels 1 .pixelMapFile "map").map (·.2.1.pixelMap 1) =
        some (some [1, 0]) ∧ ¬ Faithful [50, 10, 49, 10] [1, 0]) ∧
      ((writeOctet (fileOf (mapText [4294967297] true)) false fourPixels 1 .pixelMapFile "map").map
        (·.2.1.pixelMap 1) = some (some [1]) ∧ ¬ Faithful (mapText [4294967297] true) [1]) := by
  refine ⟨⟨by decide +kernel, ?_⟩, ⟨by decide +kernel, ?_⟩, ⟨by decide +kernel, ?_⟩⟩
  · rintro ⟨-, entries⟩
    have line : ((CText.lines [] [49, 10, 51, 120, 10]).tail.take [(3 : UInt32)].length) = [[51, 120]] := by decide
    rw [line, List.forall₂_cons] at entries
    exact absurd (show CText.number [51, 120] = some 3 from entries.1) (by decide)
  · rintro ⟨-, entries⟩
    exact absurd entries.length_eq (by decide)
  · rintro ⟨-, entries⟩
    have line : ((CText.lines [] (mapText [4294967297] true)).tail.take [(1 : UInt32)].length) =
      [CText.decimal 4294967297] := by decide +kernel
    rw [line, List.forall₂_cons] at entries
    exact absurd (show CText.number (CText.decimal 4294967297) = some 1 from entries.1) (by decide +kernel)

end Driver

end ADnED
