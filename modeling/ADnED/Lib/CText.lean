import Mathlib.Algebra.Ring.Int.Defs
import Mathlib.Data.List.TakeWhile
import Mathlib.Data.Nat.Digits.Lemmas

/-!
# Text input in C

The parts of `stdio`, `string` and `stdlib` that read numbers from a text file, on bytes.
`reads n` gives the contents of the buffer after each successful `fgets(line, n, file)`;
`strtol` is the one for base 10 and a 64-bit `long`, with the `ERANGE` it reports in place
of `errno`.

`text` puts lines together and `lines` takes them apart; `fgets` gives them one by one as long as
they fit into its buffer (`reads_text`, `reads_cases`). `number` says what a text denotes, and `strtol` reads
it (`strtol_number`); `decimal` writes a number.
-/

namespace CText

/-- `'\n'`. -/
def newline : UInt8 := 10

/-- What successive calls of `fgets(line, n, file)` put into the buffer, when `line` is what
the current call has read so far: a call ends after a newline or after `n - 1` bytes. -/
def reads (n : Nat) (line : List UInt8) : List UInt8 → List (List UInt8)
  | [] => if line = [] then [] else [line]
  | b :: bytes =>
    if b = newline ∨ line.length + 2 = n then (line ++ [b]) :: reads n [] bytes
    else reads n (line ++ [b]) bytes

/-- The C string that begins at the start of a buffer. -/
def cString (line : List UInt8) : List UInt8 := line.takeWhile (· ≠ 0)

/-- `isspace` in the C locale. -/
def isSpace (b : UInt8) : Bool := b == 32 || (9 ≤ b && b ≤ 13)

/-- `isdigit`. -/
def isDigit (b : UInt8) : Bool := 48 ≤ b && b ≤ 57

/-- The number that a list of digits denotes. -/
def digitsValue (digits : List UInt8) : Nat := digits.foldl (fun n b => 10 * n + (b.toNat - 48)) 0

/-- The optional sign in front of a number: whether it is a minus, and what follows. -/
def sign : List UInt8 → Bool × List UInt8
  | b :: s => if b = 45 then (true, s) else if b = 43 then (false, s) else (false, b :: s)
  | [] => (false, [])

/-- A value as a `long`, with whether it had to be moved into its range. -/
def toLong (v : Int) : Int × Bool :=
  if v < -2 ^ 63 then (-2 ^ 63, true) else if 2 ^ 63 ≤ v then (2 ^ 63 - 1, true) else (v, false)

/-- `strtol(s, &end, 10)`: the value and whether it sets `ERANGE`, or `none` if there is no
number at the start of `s` (`end` is then `s`). -/
def strtol (s : List UInt8) : Option (Int × Bool) :=
  let signed := sign (s.dropWhile isSpace)
  let digits := signed.2.takeWhile isDigit
  if digits = [] then none
  else
    let v : Int := digitsValue digits
    some (toLong (if signed.1 then -v else v))

/-- A text of these lines. -/
def text (ls : List (List UInt8)) : List UInt8 := ls.flatMap (· ++ [newline])

/-- The lines of a text, when `line` is what has been read of the first one. A last line without
a newline counts, unless it is empty. -/
def lines (line : List UInt8) : List UInt8 → List (List UInt8)
  | [] => if line = [] then [] else [line]
  | b :: bytes => if b = newline then line :: lines [] bytes else lines (line ++ [b]) bytes

/-- A number in decimal, without leading zeros. -/
def decimal (n : Nat) : List UInt8 :=
  if n = 0 then [48] else (Nat.digits 10 n).reverse.map fun d => UInt8.ofNat (48 + d)

example : decimal 120 = [49, 50, 48] := by decide

/-- The integer that a text denotes: an optional sign and digits, and nothing else. -/
def number (s : List UInt8) : Option Int :=
  let signed := sign s
  if signed.2 ≠ [] ∧ signed.2.all isDigit then
    some (if signed.1 then -(digitsValue signed.2 : Int) else digitsValue signed.2)
  else none

/-! ## Lines -/

/-- Bytes of one line go on to fill the buffer. -/
theorem reads_append {n : Nat} {line : List UInt8} (whole : newline ∉ line) {before : List UInt8}
    (short : before.length + line.length + 2 ≤ n) (bytes : List UInt8) :
    reads n before (line ++ bytes) = reads n (before ++ line) bytes := by
  induction line generalizing before with
  | nil => simp
  | cons b line ih =>
    rw [List.mem_cons, not_or] at whole
    obtain ⟨other, whole⟩ := whole
    rw [List.length_cons] at short
    have goes_on : ¬ (b = newline ∨ before.length + 2 = n) := by
      rintro (rfl | full)
      · exact other rfl
      · omega
    rw [List.cons_append, reads, if_neg goes_on, ih whole]
    · simp
    · rw [List.length_append, List.length_singleton]
      omega

/-- A line that fits into the buffer is read as a whole. -/
theorem reads_line {n : Nat} {line : List UInt8} (whole : newline ∉ line) (short : line.length + 2 ≤ n)
    (bytes : List UInt8) : reads n [] (line ++ newline :: bytes) = (line ++ [newline]) :: reads n [] bytes := by
  rw [reads_append whole (by simpa using short), List.nil_append, reads, if_pos (.inl rfl)]

/-- The last line of a file that does not end with a newline. -/
theorem reads_last {n : Nat} {line : List UInt8} (whole : newline ∉ line) (short : line.length + 2 ≤ n)
    (some_byte : line ≠ []) : reads n [] line = [line] := by
  have read := @reads_append n line whole [] (by simpa using short) []
  rw [List.append_nil, List.nil_append] at read
  rw [read, reads, if_neg some_byte]

theorem reads_text {n : Nat} {ls : List (List UInt8)} (whole : ∀ line ∈ ls, newline ∉ line)
    (short : ∀ line ∈ ls, line.length + 2 ≤ n) (bytes : List UInt8) :
    reads n [] (text ls ++ bytes) = ls.map (· ++ [newline]) ++ reads n [] bytes := by
  induction ls with
  | nil => rfl
  | cons line ls ih =>
    obtain ⟨whole, others⟩ := List.forall_mem_cons.1 whole
    obtain ⟨short, shorts⟩ := List.forall_mem_cons.1 short
    have first : text (line :: ls) ++ bytes = line ++ newline :: (text ls ++ bytes) := by simp [text]
    rw [first, reads_line whole short, ih others shorts]
    rfl

/-- A call delivers something, and leaves room for the NUL. -/
theorem reads_bounds {n : Nat} {line bytes : List UInt8} (room : line.length + 2 ≤ n) :
    ∀ piece ∈ reads n line bytes, piece ≠ [] ∧ piece.length + 1 ≤ n := by
  induction bytes generalizing line with
  | nil =>
    rw [reads]
    split <;> rename_i empty
    · rintro piece ⟨⟩
    · intro piece mem
      obtain rfl := List.mem_singleton.1 mem
      exact ⟨empty, by omega⟩
  | cons b bytes ih =>
    have two : 2 ≤ n := by omega
    rw [reads]
    split <;> rename_i ends
    · rw [List.forall_mem_cons]
      exact ⟨⟨by simp, by rw [List.length_append, List.length_singleton]; omega⟩, ih (by simpa using two)⟩
    · apply ih
      rw [List.length_append, List.length_singleton]
      omega

theorem lines_append {line : List UInt8} (whole : newline ∉ line) (before bytes : List UInt8) :
    lines before (line ++ bytes) = lines (before ++ line) bytes := by
  induction line generalizing before with
  | nil => simp
  | cons b line ih =>
    rw [List.mem_cons, not_or] at whole
    obtain ⟨other, whole⟩ := whole
    rw [List.cons_append, lines, if_neg (Ne.symm other), ih whole]
    simp

theorem lines_newline {line : List UInt8} (whole : newline ∉ line) (bytes : List UInt8) :
    lines [] (line ++ newline :: bytes) = line :: lines [] bytes := by
  rw [lines_append whole, List.nil_append, lines, if_pos rfl]

/-- What has been read of a line is the beginning of it. -/
theorem lines_started {line : List UInt8} (some_byte : line ≠ []) (bytes : List UInt8) :
    ∃ more ls, lines line bytes = (line ++ more) :: ls := by
  induction bytes generalizing line with
  | nil => exact ⟨[], [], by rw [lines, if_neg some_byte, List.append_nil]⟩
  | cons b bytes ih =>
    rw [lines]
    split
    · exact ⟨[], lines [] bytes, by rw [List.append_nil]⟩
    · obtain ⟨more, ls, read⟩ := @ih (line ++ [b]) (by simp)
      exact ⟨b :: more, ls, by rw [read, List.append_assoc]; rfl⟩

/-- A line that is too long for the buffer: the first piece of it. -/
theorem reads_full {n : Nat} {piece : List UInt8} (whole : newline ∉ piece) (full : piece.length + 1 = n)
    (some_byte : piece ≠ []) (bytes : List UInt8) : reads n [] (piece ++ bytes) = piece :: reads n [] bytes := by
  obtain ⟨s, b, rfl⟩ := (List.eq_nil_or_concat' piece).resolve_left some_byte
  rw [List.length_append, List.length_singleton] at full
  rw [List.mem_append, not_or] at whole
  rw [List.append_assoc, reads_append whole.1 (by simp; omega), List.nil_append, List.singleton_append, reads,
    if_pos (.inr (by omega))]

/-- What the first call reads: a line with its newline, or else the beginning of the line, up to the end of the file
or as much as there is room for. -/
theorem reads_cases {n : Nat} (room : 2 ≤ n) {bytes : List UInt8} (some_byte : bytes ≠ []) :
    (∃ line rest, newline ∉ line ∧ line.length + 2 ≤ n ∧ bytes = line ++ newline :: rest) ∨
      ∃ piece rest, piece ≠ [] ∧ newline ∉ piece ∧ bytes = piece ++ rest ∧
        reads n [] bytes = piece :: reads n [] rest ∧ (rest = [] ∨ piece.length + 1 = n) := by
  have whole : newline ∉ bytes.takeWhile (· ≠ newline) := by
    intro mem
    simpa using List.mem_takeWhile_imp mem
  have split := List.takeWhile_append_dropWhile (p := (· ≠ newline)) (l := bytes)
  generalize bytes.takeWhile (· ≠ newline) = line at whole split
  by_cases short : line.length + 2 ≤ n
  · cases later : bytes.dropWhile (· ≠ newline) with
    | nil =>
      rw [later, List.append_nil] at split
      subst split
      right
      exact ⟨line, [], some_byte, whole, by simp, by rw [reads_last whole short some_byte]; rfl, .inl rfl⟩
    | cons b rest =>
      have ends : b = newline := by
        have first := List.head?_dropWhile_not (· ≠ newline) bytes
        rw [later] at first
        simpa using first
      subst ends
      exact .inl ⟨line, rest, whole, short, by rw [← split, later]⟩
  · right
    have full : (line.take (n - 1)).length = n - 1 := by
      rw [List.length_take]
      omega
    have piece : newline ∉ line.take (n - 1) := fun mem => whole ((List.take_prefix _ _).subset mem)
    have some_piece : line.take (n - 1) ≠ [] := List.ne_nil_of_length_pos (by omega)
    have parts : bytes = line.take (n - 1) ++ (line.drop (n - 1) ++ bytes.dropWhile (· ≠ newline)) := by
      rw [← List.append_assoc, List.take_append_drop, split]
    refine ⟨_, _, some_piece, piece, parts, ?_, .inr (by omega)⟩
    conv_lhs => rw [parts]
    exact reads_full piece (by omega) some_piece _

/-- The bytes of the first pieces are those of as many lines, if `before` is what precedes them in the first line. -/
theorem reads_mem_lines {n k : Nat} (before line bytes : List UInt8) :
    ∀ piece ∈ (reads n line bytes).take k, ∀ b ∈ piece,
      b = newline ∨ ∃ l ∈ (lines (before ++ line) bytes).take k, b ∈ l := by
  induction bytes generalizing before line k with
  | nil =>
    intro piece mem b hb
    rw [reads] at mem
    split at mem
    · simp at mem
    · rename_i some_byte
      cases k with
      | zero => simp at mem
      | succ k =>
        have same : piece = line := by simpa using mem
        have read : lines (before ++ line) [] = [before ++ line] := if_neg (by simp [some_byte])
        right
        exact ⟨before ++ line, by simp [read], by simp [← same, hb]⟩
  | cons c bytes ih =>
    intro piece mem b hb
    cases k with
    | zero => simp at mem
    | succ k =>
      rw [reads] at mem
      rw [lines]
      by_cases ends : c = newline
      · subst ends
        rw [if_pos (.inl rfl), List.take_succ_cons, List.mem_cons] at mem
        rw [if_pos rfl, List.take_succ_cons]
        rcases mem with rfl | later
        · rcases List.mem_append.1 hb with old | new
          · exact .inr ⟨before ++ line, by simp, by simp [old]⟩
          · exact .inl (List.mem_singleton.1 new)
        · refine (ih [] [] piece later b hb).imp id ?_
          rintro ⟨l, listed, hb⟩
          exact ⟨l, List.mem_cons_of_mem _ listed, hb⟩
      · rw [if_neg ends, List.append_assoc]
        by_cases full : line.length + 2 = n
        · rw [if_pos (.inr full), List.take_succ_cons, List.mem_cons] at mem
          rcases mem with rfl | later
          · obtain ⟨more, ls, read⟩ := @lines_started (before ++ (line ++ [c])) (by simp) bytes
            right
            refine ⟨before ++ (line ++ [c]) ++ more, by simp [read], ?_⟩
            rw [List.mem_append, List.mem_append]
            exact .inl (.inr hb)
          · refine (ih (before ++ (line ++ [c])) [] piece later b hb).imp id ?_
            rintro ⟨l, listed, hb⟩
            rw [List.append_nil] at listed
            exact ⟨l, (List.take_prefix_take_left (Nat.le_succ k)).subset listed, hb⟩
        · rw [if_neg (by tauto)] at mem
          exact ih before (line ++ [c]) piece mem b hb

theorem cString_of_not_mem {line : List UInt8} (h : 0 ∉ line) : cString line = line := by
  rw [cString, List.takeWhile_eq_self_iff]
  intro b mem
  simpa using ne_of_mem_of_not_mem mem h

theorem cString_length_le (line : List UInt8) : (cString line).length ≤ line.length :=
  (List.takeWhile_prefix _).length_le

/-- The string ends at the first NUL, whatever follows. -/
theorem cString_append (line rest : List UInt8) : cString (line ++ 0 :: rest) = cString line := by
  unfold cString
  induction line with
  | nil => rfl
  | cons b line ih =>
    rw [List.cons_append, List.takeWhile_cons, List.takeWhile_cons, ih]

/-- A NUL that is stored into the string ends it there. -/
theorem cString_set {line : List UInt8} {k : Nat} (inside : k < (cString line).length) :
    cString (line.set k 0) = (cString line).take k := by
  unfold cString at *
  induction line generalizing k with
  | nil => cases inside
  | cons b line ih =>
    rw [List.takeWhile_cons] at inside ⊢
    split at inside
    · rename_i byte
      cases k with
      | zero => simp [byte]
      | succ k =>
        rw [List.set_cons_succ, List.takeWhile_cons, if_pos byte, ih (by simpa using inside), if_pos byte]
        rfl
    · cases inside

theorem cString_eq_nil_iff {line : List UInt8} (some_byte : line ≠ []) : cString line = [] ↔ line.head? = some 0 := by
  cases line with
  | nil => exact absurd rfl some_byte
  | cons b line => simp [cString, List.takeWhile_cons]

/-! ## Digits -/

theorem isDigit_iff {b : UInt8} : isDigit b = true ↔ 48 ≤ b.toNat ∧ b.toNat ≤ 57 := by
  simp [isDigit, UInt8.le_iff_toNat_le]

theorem digit_ne {b c : UInt8} (digit : isDigit b = true) (other : isDigit c = false) : b ≠ c := by
  rintro rfl
  rw [digit] at other
  cases other

theorem isSpace_of_isDigit {b : UInt8} (digit : isDigit b = true) : isSpace b = false := by
  rw [isDigit_iff] at digit
  have notBlank : b ≠ 32 := by
    rintro rfl
    exact absurd digit.1 (by decide)
  simp [isSpace, notBlank, UInt8.le_iff_toNat_le]
  omega

theorem digitsValue_append (s : List UInt8) (b : UInt8) :
    digitsValue (s ++ [b]) = 10 * digitsValue s + (b.toNat - 48) := by
  simp [digitsValue]

theorem decimal_of_ne_zero {n : Nat} (h : n ≠ 0) :
    decimal n = (Nat.digits 10 n).reverse.map fun d => UInt8.ofNat (48 + d) := if_neg h

theorem toNat_digit {d : Nat} (h : d < 10) : (UInt8.ofNat (48 + d)).toNat = 48 + d := by
  rw [UInt8.toNat_ofNat']
  omega

/-- What is written is read back. -/
theorem digitsValue_decimal (n : Nat) : digitsValue (decimal n) = n := by
  by_cases zero : n = 0
  · subst zero
    rfl
  · have digit : ∀ (y : Nat), ∀ d ∈ Nat.digits 10 n, 10 * y + ((UInt8.ofNat (48 + d)).toNat - 48) = d + 10 * y := by
      intro y d mem
      rw [toNat_digit (Nat.digits_lt_base (by decide) mem)]
      omega
    rw [decimal_of_ne_zero zero, digitsValue, List.foldl_map, List.foldl_reverse]
    calc (Nat.digits 10 n).foldr (fun d y => 10 * y + ((UInt8.ofNat (48 + d)).toNat - 48)) 0
        = (Nat.digits 10 n).foldr (fun d y => d + 10 * y) 0 := List.foldr_ext _ _ _ fun d mem y => digit y d mem
      _ = Nat.ofDigits 10 (Nat.digits 10 n) := (Nat.ofDigits_eq_foldr 10 _).symm
      _ = n := Nat.ofDigits_digits 10 n

theorem decimal_digits (n : Nat) : ∀ b ∈ decimal n, isDigit b = true := by
  by_cases zero : n = 0
  · subst zero
    exact List.forall_mem_singleton.2 rfl
  · intro b mem
    rw [decimal_of_ne_zero zero, List.mem_map] at mem
    obtain ⟨d, mem, rfl⟩ := mem
    have lt := Nat.digits_lt_base (by decide) (List.mem_reverse.1 mem)
    rw [isDigit_iff, toNat_digit lt]
    omega

theorem decimal_ne_nil (n : Nat) : decimal n ≠ [] := by
  by_cases zero : n = 0
  · simp [decimal, zero]
  · simpa [decimal_of_ne_zero zero] using Nat.digits_ne_nil_iff_ne_zero.2 zero

theorem decimal_length {n k : Nat} (some_digit : 1 ≤ k) (lt : n < 10 ^ k) : (decimal n).length ≤ k := by
  by_cases zero : n = 0
  · simpa [decimal, zero] using some_digit
  · rw [decimal_of_ne_zero zero, List.length_map, List.length_reverse]
    exact (Nat.digits_length_le_iff (by decide) n).2 lt

/-! ## Numbers -/

theorem sign_append {s : List UInt8} (some_byte : s ≠ []) (rest : List UInt8) :
    sign (s ++ rest) = ((sign s).1, (sign s).2 ++ rest) := by
  obtain ⟨b, s, rfl⟩ := List.exists_cons_of_ne_nil some_byte
  simp only [List.cons_append, sign]
  split_ifs <;> rfl

theorem mem_of_mem_sign {s : List UInt8} {b : UInt8} (mem : b ∈ (sign s).2) : b ∈ s := by
  cases s with
  | nil => exact mem
  | cons c s =>
    simp only [sign] at mem
    split_ifs at mem
    · exact List.mem_cons_of_mem _ mem
    · exact List.mem_cons_of_mem _ mem
    · exact mem

theorem mem_sign_or {s : List UInt8} {b : UInt8} (mem : b ∈ s) : b ∈ (sign s).2 ∨ b = 45 ∨ b = 43 := by
  cases s with
  | nil => cases mem
  | cons c s =>
    simp only [sign]
    split_ifs with minus plus
    · exact (List.mem_cons.1 mem).symm.imp id fun first => .inl (first.trans minus)
    · exact (List.mem_cons.1 mem).symm.imp id fun first => .inr (first.trans plus)
    · exact .inl mem

/-- A text that denotes a number is a sign, if any, and its digits. -/
theorem number_eq_some {s : List UInt8} {v : Int} : number s = some v ↔
    ((sign s).2 ≠ [] ∧ ∀ b ∈ (sign s).2, isDigit b = true) ∧
      v = if (sign s).1 then -(digitsValue (sign s).2 : Int) else digitsValue (sign s).2 := by
  simp only [number, List.all_eq_true]
  split
  · rename_i fine
    rw [Option.some.injEq, eq_comm]
    exact ⟨fun value => ⟨fine, value⟩, And.right⟩
  · rename_i other
    constructor
    · rintro ⟨⟩
    · exact fun fine => absurd fine.1 other

theorem number_ne_nil {s : List UInt8} {v : Int} (h : number s = some v) : s ≠ [] := by
  rintro rfl
  cases h

/-- The bytes of a number. -/
theorem mem_number {s : List UInt8} {v : Int} (h : number s = some v) {b : UInt8} (mem : b ∈ s) :
    isDigit b = true ∨ b = 45 ∨ b = 43 :=
  (mem_sign_or mem).imp_left ((number_eq_some.1 h).1.2 b)

theorem isSpace_of_mem_number {s : List UInt8} {v : Int} (h : number s = some v) {b : UInt8} (mem : b ∈ s) :
    isSpace b = false := by
  rcases mem_number h mem with digit | rfl | rfl
  · exact isSpace_of_isDigit digit
  · decide
  · decide

theorem number_not_mem {s : List UInt8} {v : Int} (h : number s = some v) : newline ∉ s ∧ 0 ∉ s := by
  constructor
  all_goals
    intro mem
    rcases mem_number h mem with digit | minus | plus
    · revert digit
      decide
    · revert minus
      decide
    · revert plus
      decide

/-- `strtol` reads a number up to its end. -/
theorem strtol_number {s rest : List UInt8} {v : Int} (h : number s = some v)
    (stop : ∀ b ∈ rest.head?, isDigit b = false) : strtol (s ++ rest) = some (toLong v) := by
  obtain ⟨⟨some_digit, digits⟩, rfl⟩ := number_eq_some.1 h
  have start : (s ++ rest).dropWhile isSpace = s ++ rest := by
    obtain ⟨b, t, rfl⟩ := List.exists_cons_of_ne_nil (number_ne_nil h)
    rw [List.cons_append, List.dropWhile_cons_of_neg]
    simp [isSpace_of_mem_number h (List.mem_cons_self ..)]
  have last : rest.takeWhile isDigit = [] := by
    cases rest with
    | nil => rfl
    | cons c rest => simp [stop c (by simp)]
  have number : ((sign s).2 ++ rest).takeWhile isDigit = (sign s).2 := by
    rw [List.takeWhile_append_of_pos digits, last, List.append_nil]
  simp only [strtol, start, sign_append (number_ne_nil h), number, if_neg some_digit]

theorem number_digits {s : List UInt8} (digits : ∀ b ∈ s, isDigit b = true) (some_digit : s ≠ []) :
    number s = some (digitsValue s : Int) := by
  have unsigned : sign s = (false, s) := by
    obtain ⟨b, t, rfl⟩ := List.exists_cons_of_ne_nil some_digit
    have digit := digits b (by simp)
    have minus : b ≠ 45 := digit_ne digit (by decide)
    have plus : b ≠ 43 := digit_ne digit (by decide)
    simp [sign, minus, plus]
  rw [number_eq_some, unsigned]
  exact ⟨⟨some_digit, digits⟩, rfl⟩

/-- A digit more makes a number at least ten times as large. -/
theorem ten_mul_digitsValue_le (s : List UInt8) {t : List UInt8} (some_digit : t ≠ []) :
    10 * digitsValue s ≤ digitsValue (s ++ t) := by
  obtain ⟨t, b, rfl⟩ := (List.eq_nil_or_concat' t).resolve_left some_digit
  have grows : digitsValue s ≤ digitsValue (s ++ t) := by
    induction t using List.reverseRecOn with
    | nil => rw [List.append_nil]
    | append_singleton t c ih =>
      have ih := ih (by simp)
      rw [← List.append_assoc, digitsValue_append]
      omega
  rw [← List.append_assoc, digitsValue_append]
  omega

theorem digitsValue_eq_zero_iff {s : List UInt8} (digits : ∀ b ∈ s, isDigit b = true) :
    digitsValue s = 0 ↔ ∀ b ∈ s, b = 48 := by
  induction s using List.reverseRecOn with
  | nil => simp [digitsValue]
  | append_singleton s b ih =>
    have digit := isDigit_iff.1 (digits b (by simp))
    have zero : b.toNat - 48 = 0 ↔ b = 48 := by
      rw [← UInt8.toNat_inj]
      show b.toNat - 48 = 0 ↔ b.toNat = 48
      omega
    have ih := ih fun c mem => digits c (by simp [mem])
    rw [digitsValue_append, List.forall_mem_append, List.forall_mem_singleton, ← ih, ← zero]
    omega

/-- Only zeros are read from a text without other digits. -/
theorem strtol_zeros {s : List UInt8} (zeros : ∀ b ∈ s, isDigit b = true → b = 48) {r : Int × Bool}
    (h : strtol s = some r) : r.1 = 0 := by
  simp only [strtol] at h
  split at h
  · cases h
  · have none : digitsValue ((sign (s.dropWhile isSpace)).2.takeWhile isDigit) = 0 := by
      have digits : ∀ b ∈ (sign (s.dropWhile isSpace)).2.takeWhile isDigit, isDigit b = true :=
        fun b mem => List.mem_takeWhile_imp mem
      rw [digitsValue_eq_zero_iff digits]
      intro b mem
      have listed := mem_of_mem_sign ((List.takeWhile_prefix _).subset mem)
      exact zeros b ((List.dropWhile_suffix _).subset listed) (digits b mem)
    rw [none] at h
    cases h
    split <;> rfl

theorem number_zero {s : List UInt8} (h : number s = some 0) : ∀ b ∈ s, isDigit b = true → b = 48 := by
  obtain ⟨⟨-, digits⟩, value⟩ := number_eq_some.1 h
  have none : digitsValue (sign s).2 = 0 := by
    split at value <;> omega
  intro b mem digit
  rcases mem_sign_or mem with listed | rfl | rfl
  · exact (digitsValue_eq_zero_iff digits).1 none b listed
  · revert digit
    decide
  · revert digit
    decide

theorem toLong_eq {v w : Int} (h : toLong v = (w, false)) : v = w := by
  simp only [toLong] at h
  split_ifs at h
  · cases h
  · cases h
  · exact congrArg Prod.fst h

theorem sign_take (s : List UInt8) (j : Nat) :
    (sign (s.take j)).2 = [] ∨ (sign (s.take j)).1 = (sign s).1 ∧ ∃ k, (sign (s.take j)).2 = (sign s).2.take k ∧
      k + s.length = j + (sign s).2.length := by
  cases s with
  | nil => exact .inl (by simp [sign])
  | cons c s =>
    cases j with
    | zero => exact .inl (by simp [sign])
    | succ j =>
      right
      rw [List.take_succ_cons]
      simp only [sign]
      split_ifs
      · exact ⟨rfl, j, rfl, by simp; omega⟩
      · exact ⟨rfl, j, rfl, by simp; omega⟩
      · exact ⟨rfl, j + 1, rfl, by simp⟩

/-- What is read from the beginning of a number is at most a tenth of it. -/
theorem strtol_take {s : List UInt8} {v w : Int} {j : Nat} (h : number s = some v) (short : j < s.length)
    (read : strtol (s.take j) = some (w, false)) : (0 ≤ w ∧ 10 * w ≤ v) ∨ (w ≤ 0 ∧ v ≤ 10 * w) := by
  obtain ⟨⟨some_digit, digits⟩, rfl⟩ := number_eq_some.1 h
  have some_part : (sign (s.take j)).2 ≠ [] := by
    intro none
    have start : (s.take j).dropWhile isSpace = s.take j := by
      rw [List.dropWhile_eq_self_iff]
      intro some_byte
      rw [Bool.not_eq_true]
      exact isSpace_of_mem_number h ((List.take_prefix j s).subset (List.getElem_mem _))
    simp only [strtol, start, none, List.takeWhile_nil, if_true] at read
    cases read
  obtain ⟨same, k, taken, count⟩ := (sign_take s j).resolve_left some_part
  have part : number (s.take j) = some (if (sign s).1 then -(digitsValue ((sign s).2.take k) : Int)
      else digitsValue ((sign s).2.take k)) := by
    rw [number_eq_some, same, ← taken]
    refine ⟨⟨some_part, fun b mem => ?_⟩, rfl⟩
    rw [taken] at mem
    exact digits b ((List.take_prefix k _).subset mem)
  have value := @strtol_number _ [] _ part (by simp)
  rw [List.append_nil, read, Option.some.injEq] at value
  have value := toLong_eq value.symm
  have tenth := @ten_mul_digitsValue_le ((sign s).2.take k) ((sign s).2.drop k) (by simp; omega)
  rw [List.take_append_drop] at tenth
  rw [← value]
  split <;> omega

end CText
