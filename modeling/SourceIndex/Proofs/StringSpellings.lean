import SourceIndex.Json.Cursor
import SourceIndex.Proofs.DocumentLines
import SourceIndex.Proofs.Fallible

/-! Every spelling of a string is read as that string. A character may stand for itself, or as a short
or numbered escape, and beyond 16 bits as a pair of numbered escapes; the reader takes each of these
forms for the character (`CharSpelled.spelled`), so it takes any mixture for the text
(`string_spelled`). A string that nobody reads may hold halves of pairs as well (`Literal`). Where
a string can be read at all, it ends where it ends for a reader that skips it (`skipString_of_string`). -/
namespace SourceIndex.Json

namespace Quoted

/-- Bytes that stand for themselves inside a string. -/
def Plain (byte : UInt8) : Prop := byte ≠ 0x22 ∧ byte ≠ 0x5C ∧ ¬ byte < 0x20

/-- The bytes of a character that needs no escape. -/
theorem plain_of_mem {char : Char} {byte : UInt8} (member : byte ∈ Utf8.encodeChar char)
    (quote : char ≠ '"') (backslash : char ≠ '\\') (visible : ¬ char.toNat < 0x20) : Plain byte := by
  have quoteValue : char.toNat ≠ 0x22 := fun same => quote (Char.toNat_inj.mp same)
  have backslashValue : char.toNat ≠ 0x5C := fun same => backslash (Char.toNat_inj.mp same)
  simp only [Plain, ne_eq, ← UInt8.toNat_inj, UInt8.lt_iff_toNat_lt, UInt8.reduceToNat]
  rcases Utf8.mem_encodeChar member with ⟨_, same⟩ | ⟨_, high⟩ <;> omega

/-- How a character is spelled: as an escape that reads back as it, or by its own bytes. -/
inductive Spelled (char : Char) : Bytes → Prop where
  | escape (code : Bytes)
      (reads : ∀ offset rest, Cursor.escape offset (code ++ rest) =
        .ok (Utf8.encodeChar char, code.length)) : Spelled char (0x5C :: code)
  | plain (each : ∀ byte ∈ Utf8.encodeChar char, Plain byte) : Spelled char (Utf8.encodeChar char)

end Quoted

/-! ### Grammar -/

/-- Bytes without significance. -/
def Blanks (bytes : Bytes) : Prop :=
  ∀ byte ∈ bytes, byte = 0x20 ∨ byte = 0x0A ∨ byte = 0x09 ∨ byte = 0x0D

/-- A hexadecimal digit of either case and its value. -/
def HexDigit (byte : UInt8) (value : Nat) : Prop :=
  (Utf8.encode "0123456789abcdef".toList)[value]? = some byte ∨
    (Utf8.encode "0123456789ABCDEF".toList)[value]? = some byte

/-- A number of 16 bits as four digits. -/
inductive FourDigits : Nat → Bytes → Prop
  | digits {a b c d : UInt8} {first second third fourth : Nat} (one : HexDigit a first)
    (two : HexDigit b second) (three : HexDigit c third) (four : HexDigit d fourth) :
    FourDigits (((first * 16 + second) * 16 + third) * 16 + fourth) [a, b, c, d]

/-- The letters of the short escapes and what they stand for. -/
def shortEscapes : List (UInt8 × Char) :=
  [(0x22, '"'), (0x5C, '\\'), (0x2F, '/'), (0x62, '\x08'), (0x66, '\x0C'), (0x6E, '\n'),
    (0x72, '\r'), (0x74, '\t')]

/-- The ways to spell a character inside a string. -/
inductive CharSpelled (char : Char) : Bytes → Prop
  | verbatim (quote : char ≠ '"') (backslash : char ≠ '\\') (visible : ¬ char.toNat < 0x20) :
    CharSpelled char (Utf8.encodeChar char)
  | short {letter : UInt8} (stands : (letter, char) ∈ shortEscapes) : CharSpelled char [0x5C, letter]
  | numbered {code : Bytes} (number : FourDigits char.toNat code) : CharSpelled char (0x5C :: 0x75 :: code)
  | pair {high low : Bytes} (beyond : 0x10000 ≤ char.toNat)
    (first : FourDigits (0xD800 + (char.toNat - 0x10000) / 0x400) high)
    (second : FourDigits (0xDC00 + (char.toNat - 0x10000) % 0x400) low) :
    CharSpelled char (0x5C :: 0x75 :: (high ++ 0x5C :: 0x75 :: low))

/-- A text as it may stand between quotes. -/
inductive TextSpelled : Text → Bytes → Prop
  | nil : TextSpelled [] []
  | cons {char text spelling rest} (first : CharSpelled char spelling) (others : TextSpelled text rest) :
    TextSpelled (char :: text) (spelling ++ rest)

/-- What may stand between the quotes of any string. -/
inductive Literal : Bytes → Prop
  | nil : Literal []
  | plain {byte rest} (plain : Quoted.Plain byte) (others : Literal rest) : Literal (byte :: rest)
  | short {letter char rest} (stands : (letter, char) ∈ shortEscapes) (others : Literal rest) :
    Literal (0x5C :: letter :: rest)
  | numbered {number code rest} (digits : FourDigits number code) (others : Literal rest) :
    Literal (0x5C :: 0x75 :: (code ++ rest))

/-! ### Spelled texts as literals -/

theorem Literal.append {first second : Bytes} (front : Literal first) (behind : Literal second) :
    Literal (first ++ second) := by
  induction front with
  | nil => exact behind
  | plain plain _ ih => exact .plain plain ih
  | short stands _ ih => exact .short stands ih
  | numbered digits _ ih =>
    rw [List.cons_append, List.cons_append, List.append_assoc]
    exact .numbered digits ih

theorem literal_of_plain {run : Bytes} (plain : ∀ byte ∈ run, Quoted.Plain byte) : Literal run := by
  induction run with
  | nil => exact .nil
  | cons byte run ih =>
    obtain ⟨first, others⟩ := List.forall_mem_cons.mp plain
    exact .plain first (ih others)

theorem CharSpelled.literal {char : Char} {spelling : Bytes} (spelled : CharSpelled char spelling) :
    Literal spelling := by
  cases spelled with
  | verbatim quote backslash visible =>
    exact literal_of_plain fun byte member => Quoted.plain_of_mem member quote backslash visible
  | short stands => exact .short stands .nil
  | @numbered code digits =>
    rw [← List.append_nil code]
    exact .numbered digits .nil
  | @pair high low beyond first second =>
    rw [← List.append_nil low]
    exact .numbered first (.numbered second .nil)

/-- What can be read can be skipped. -/
theorem TextSpelled.literal {text : Text} {body : Bytes} (spelled : TextSpelled text body) : Literal body := by
  induction spelled with
  | nil => exact .nil
  | cons first _ ih => exact first.literal.append ih

/-! ### Escapes -/

private theorem hexDigit?_table : ∀ value : Fin 16,
    (Utf8.encode "0123456789abcdef".toList)[value.val]?.bind Cursor.hexDigit? = some value.val ∧
      (Utf8.encode "0123456789ABCDEF".toList)[value.val]?.bind Cursor.hexDigit? = some value.val := by
  decide +kernel

theorem hexDigit?_of_hexDigit {byte : UInt8} {value : Nat} (digit : HexDigit byte value) :
    Cursor.hexDigit? byte = some value := by
  rcases digit with lower | upper
  · have small : value < 16 := (List.getElem?_eq_some_iff.mp lower).1
    have row := (hexDigit?_table ⟨value, small⟩).1
    simp only [lower, Option.bind_some] at row
    exact row
  · have small : value < 16 := (List.getElem?_eq_some_iff.mp upper).1
    have row := (hexDigit?_table ⟨value, small⟩).2
    simp only [upper, Option.bind_some] at row
    exact row

theorem FourDigits.length {number : Nat} {code : Bytes} (digits : FourDigits number code) :
    code.length = 4 := by
  cases digits
  rfl

theorem FourDigits.hex4 {number : Nat} {code : Bytes} (digits : FourDigits number code) (offset : Nat)
    (rest : Bytes) : Cursor.hex4 offset (code ++ rest) = .ok number := by
  cases digits with
  | digits one two three four =>
    simp [Cursor.hex4, hexDigit?_of_hexDigit one, hexDigit?_of_hexDigit two, hexDigit?_of_hexDigit three,
      hexDigit?_of_hexDigit four]

theorem simpleEscape?_of_short {letter : UInt8} {char : Char} (stands : (letter, char) ∈ shortEscapes) :
    ∃ plain, Cursor.simpleEscape? letter = some plain ∧ Utf8.encodeChar char = [plain] := by
  simp only [shortEscapes, List.mem_cons, Prod.mk.injEq, List.not_mem_nil, or_false] at stands
  rcases stands with ⟨rfl, rfl⟩ | ⟨rfl, rfl⟩ | ⟨rfl, rfl⟩ | ⟨rfl, rfl⟩ | ⟨rfl, rfl⟩ | ⟨rfl, rfl⟩ |
    ⟨rfl, rfl⟩ | ⟨rfl, rfl⟩ <;> exact ⟨_, rfl, rfl⟩

/-- A character is no surrogate. -/
theorem surrogate_char (char : Char) : Cursor.isLowSurrogate char.toNat = false ∧
    Cursor.isHighSurrogate char.toNat = false := by
  have valid : char.toNat < 0xD800 ∨ 0xDFFF < char.toNat ∧ char.toNat < 0x110000 := char.valid
  simp only [Cursor.isLowSurrogate, Cursor.isHighSurrogate, Bool.and_eq_false_iff, decide_eq_false_iff_not]
  omega

theorem numberedEscape_char {char : Char} {code : Bytes} (digits : FourDigits char.toNat code)
    (offset : Nat) (rest : Bytes) :
    Cursor.numberedEscape offset (code ++ rest) = .ok (Utf8.encodeChar char, 4) := by
  obtain ⟨low, high⟩ := surrogate_char char
  simp [Cursor.numberedEscape, digits.hex4, low, high, bind, Except.bind, pure, Except.pure]

/-- The two halves of a character beyond 16 bits. -/
theorem surrogate_halves (char : Char) :
    Cursor.isHighSurrogate (0xD800 + (char.toNat - 0x10000) / 0x400) = true ∧
      Cursor.isLowSurrogate (0xD800 + (char.toNat - 0x10000) / 0x400) = false ∧
      Cursor.isLowSurrogate (0xDC00 + (char.toNat - 0x10000) % 0x400) = true := by
  have valid : char.toNat < 0xD800 ∨ 0xDFFF < char.toNat ∧ char.toNat < 0x110000 := char.valid
  simp only [Cursor.isLowSurrogate, Cursor.isHighSurrogate, Bool.and_eq_true, Bool.and_eq_false_iff,
    decide_eq_true_eq, decide_eq_false_iff_not]
  omega

theorem numberedEscape_pair {char : Char} {high low : Bytes} (beyond : 0x10000 ≤ char.toNat)
    (first : FourDigits (0xD800 + (char.toNat - 0x10000) / 0x400) high)
    (second : FourDigits (0xDC00 + (char.toNat - 0x10000) % 0x400) low) (offset : Nat) (rest : Bytes) :
    Cursor.numberedEscape offset (high ++ 0x5C :: 0x75 :: (low ++ rest)) =
      .ok (Utf8.encodeChar char, 10) := by
  obtain ⟨isHigh, notLow, isLow⟩ := surrogate_halves char
  have whole : 0x10000 + (char.toNat - 0x10000) / 0x400 * 0x400 + (char.toNat - 0x10000) % 0x400 =
      char.toNat := by omega
  have behind : (high ++ 0x5C :: 0x75 :: (low ++ rest)).drop 4 = 0x5C :: 0x75 :: (low ++ rest) :=
    List.drop_left' first.length
  simp [Cursor.numberedEscape, first.hex4, second.hex4, isHigh, notLow, isLow, behind, whole, bind,
    Except.bind, pure, Except.pure]

/-- Each way to spell a character reads back as that character. -/
theorem CharSpelled.spelled {char : Char} {spelling : Bytes} (spelled : CharSpelled char spelling) :
    Quoted.Spelled char spelling := by
  cases spelled with
  | verbatim quote backslash visible =>
    exact .plain fun byte member => Quoted.plain_of_mem member quote backslash visible
  | short stands =>
    obtain ⟨plain, known, encoded⟩ := simpleEscape?_of_short stands
    refine .escape _ fun offset rest => ?_
    simp [Cursor.escape, known, encoded]
  | numbered digits =>
    refine .escape _ fun offset rest => ?_
    have letter : Cursor.simpleEscape? 0x75 = none := rfl
    simp [Cursor.escape, letter, numberedEscape_char digits, digits.length, Except.map]
  | pair beyond first second =>
    refine .escape _ fun offset rest => ?_
    have letter : Cursor.simpleEscape? 0x75 = none := rfl
    simp [Cursor.escape, letter, numberedEscape_pair beyond first second, first.length, second.length,
      Except.map]

namespace Cursor

/-- Reading gives this value and leaves these bytes, wherever it started. -/
def Gives (answer : Except Fault (α × Cursor)) (value : α) (rest : Bytes) : Prop :=
  ∃ offset, answer = .ok (value, ⟨offset, rest⟩)

private theorem stringAfter_skip (code rest : Bytes) (offset : Nat) :
    stringAfter code.length offset (code ++ rest) = stringAfter 0 (offset + code.length) rest := by
  induction code generalizing offset with
  | nil => rfl
  | cons byte code ih =>
    rw [List.length_cons, List.cons_append, stringAfter, ih]
    congr 1
    omega

private theorem stringAfter_plain {run rest bytes left : Bytes}
    (plain : ∀ byte ∈ run, Quoted.Plain byte)
    (follows : ∀ offset, Gives (stringAfter 0 offset rest) bytes left) (offset : Nat) :
    Gives (stringAfter 0 offset (run ++ rest)) (run ++ bytes) left := by
  induction run generalizing offset with
  | nil => exact follows offset
  | cons byte run ih =>
    obtain ⟨⟨quote, backslash, visible⟩, plain⟩ := List.forall_mem_cons.mp plain
    obtain ⟨last, deeper⟩ := ih plain (offset + 1)
    refine ⟨last, ?_⟩
    rw [List.cons_append, stringAfter, if_neg quote, if_neg backslash, if_neg visible, deeper]
    rfl

/-- A spelled character is read as its bytes. -/
theorem stringAfter_spelled {char : Char} {spelling rest bytes left : Bytes}
    (spelled : Quoted.Spelled char spelling)
    (follows : ∀ offset, Gives (stringAfter 0 offset rest) bytes left) (offset : Nat) :
    Gives (stringAfter 0 offset (spelling ++ rest)) (Utf8.encodeChar char ++ bytes) left := by
  cases spelled with
  | escape code reads =>
    obtain ⟨last, deeper⟩ := follows (offset + 1 + code.length)
    refine ⟨last, ?_⟩
    rw [List.cons_append, stringAfter, if_neg (by decide), if_pos rfl, reads]
    simp only [bind, Except.bind, stringAfter_skip, deeper]
    rfl
  | plain each => exact stringAfter_plain each follows offset

variable {text : Text} {body rest input bytes : Bytes} {after : Cursor}

/-- A spelled text is read up to its closing quote, whatever follows it. -/
theorem string_spelled (spelled : TextSpelled text body) (rest : Bytes) (offset : Nat) :
    Gives (string ⟨offset, body ++ 0x22 :: rest⟩) text rest := by
  have whole : ∀ offset, Gives (stringAfter 0 offset (body ++ 0x22 :: rest)) (Utf8.encode text) rest := by
    induction spelled with
    | nil => exact fun offset => ⟨offset + 1, rfl⟩
    | cons first others ih =>
      intro offset
      rw [List.append_assoc, Utf8.encode_cons]
      exact stringAfter_spelled first.spelled ih offset
  obtain ⟨last, read⟩ := whole offset
  have decoded : Utf8.text? (Utf8.encode text) = some text := Utf8.text?_eq_some_iff.mpr rfl
  refine ⟨last, ?_⟩
  simp only [string, read, bind, Except.bind, decoded, pure, Except.pure]

/-! ### Strings nobody reads -/

/-- Skipping leaves these bytes, wherever it started. -/
def Leaves (answer : Except Fault Cursor) (rest : Bytes) : Prop :=
  ∃ offset, answer = .ok ⟨offset, rest⟩

theorem skipStringAfter_drop {skip : Nat} (enough : skip ≤ input.length) (offset : Nat) :
    skipStringAfter skip offset input = skipStringAfter 0 (offset + skip) (input.drop skip) := by
  induction skip generalizing input offset with
  | zero => rfl
  | succ skip ih =>
    cases input with
    | nil => exact absurd enough (Nat.not_succ_le_zero skip)
    | cons byte input =>
      rw [skipStringAfter, ih (Nat.le_of_succ_le_succ enough), List.drop_succ_cons, Nat.add_assoc,
        Nat.add_comm 1 skip]

theorem hex4_length {offset number : Nat} (read : hex4 offset input = .ok number) : 4 ≤ input.length := by
  match input with
  | _ :: _ :: _ :: _ :: _ => simp
  | [_, _, _] | [_, _] | [_] | [] => cases read

theorem skipEscape_numbered {offset number : Nat} (read : hex4 (offset + 1) input = .ok number) :
    skipEscape offset (0x75 :: input) = .ok 5 := by
  rw [skipEscape, read]
  rfl

theorem skipStringAfter_numbered {offset number : Nat} (read : hex4 (offset + 2) input = .ok number) :
    skipStringAfter 0 offset (0x5C :: 0x75 :: input) = skipStringAfter 0 (offset + 6) (input.drop 4) := by
  have long : 5 ≤ (0x75 :: input).length := Nat.succ_le_succ (hex4_length read)
  rw [skipStringAfter, if_neg (by decide), if_pos rfl, skipEscape_numbered read, ok_bind,
    skipStringAfter_drop long, List.drop_succ_cons]

/-- A string is skipped up to its closing quote, whatever follows it. -/
theorem skipString_literal (literal : Literal body) (rest : Bytes) (offset : Nat) :
    Leaves (skipString ⟨offset, body ++ 0x22 :: rest⟩) rest := by
  rw [skipString]
  induction literal generalizing offset with
  | nil => exact ⟨offset + 1, rfl⟩
  | plain plain others ih =>
    obtain ⟨quote, backslash, visible⟩ := plain
    rw [List.cons_append, skipStringAfter, if_neg quote, if_neg backslash, if_neg visible]
    exact ih (offset + 1)
  | @short letter char tail stands others ih =>
    obtain ⟨plain, known, _⟩ := simpleEscape?_of_short stands
    have one : skipEscape (offset + 1) (letter :: (tail ++ 0x22 :: rest)) = .ok 1 := by
      rw [skipEscape, known]
      rfl
    rw [List.cons_append, skipStringAfter, if_neg (by decide), if_pos rfl, List.cons_append, one]
    exact ih (offset + 2)
  | @numbered number code tail digits others ih =>
    have behind : (code ++ (tail ++ 0x22 :: rest)).drop 4 = tail ++ 0x22 :: rest :=
      List.drop_left' digits.length
    simp only [List.cons_append, List.append_assoc]
    rw [skipStringAfter_numbered (digits.hex4 ..), behind]
    exact ih (offset + 6)

/-! ### Where a string ends -/

/-- What a numbered escape can have been: one number, or one whose other half follows at once. -/
theorem numberedEscape_cases {offset n : Nat} (read : numberedEscape offset input = .ok (bytes, n)) :
    ∃ unit, hex4 offset input = .ok unit ∧
      (n = 4 ∨ n = 10 ∧ ∃ tail second, input.drop 4 = 0x5C :: 0x75 :: tail ∧
        hex4 (offset + 6) tail = .ok second) := by
  rw [numberedEscape] at read
  obtain ⟨unit, first, read⟩ := bind_eq_ok_iff.mp read
  refine ⟨unit, first, ?_⟩
  dsimp only at read
  split at read
  · cases read
  split at read
  · right
    split at read
    · cases read
    rename_i byte behind dropped
    split at read
    · cases read
    rename_i backslash
    split at read
    · cases read
    rename_i letterByte tail
    split at read
    · cases read
    rename_i letter
    obtain ⟨second, other, read⟩ := bind_eq_ok_iff.mp read
    split at read
    · have took : 10 = n := congrArg Prod.snd (Except.ok.inj read)
      obtain rfl := Decidable.not_not.mp backslash
      obtain rfl := Decidable.not_not.mp letter
      exact ⟨took.symm, tail, second, dropped, other⟩
    · cases read
  · have took : 4 = n := congrArg Prod.snd (Except.ok.inj read)
    exact .inl took.symm

/-- A pair is two escapes in a row for a reader that skips it. -/
theorem skipStringAfter_pair {offset unit second : Nat} {tail : Bytes}
    (first : hex4 (offset + 1) input = .ok unit) (dropped : input.drop 4 = 0x5C :: 0x75 :: tail)
    (other : hex4 (offset + 7) tail = .ok second) :
    skipStringAfter 5 offset (0x75 :: input) = skipStringAfter 11 offset (0x75 :: input) := by
  have sizes : input.length = tail.length + 6 := by
    have lengths := congrArg List.length dropped
    simp only [List.length_drop, List.length_cons] at lengths
    omega
  have whole : 11 ≤ (0x75 :: input).length := by
    have tailLong := hex4_length other
    rw [List.length_cons]
    omega
  have behind : input.drop 10 = tail.drop 4 := by
    have twice : (input.drop 4).drop 6 = input.drop 10 := List.drop_drop
    rw [← twice, dropped]
    rfl
  calc skipStringAfter 5 offset (0x75 :: input)
    _ = skipStringAfter 0 (offset + 5) (input.drop 4) :=
      skipStringAfter_drop (Nat.succ_le_succ (hex4_length first)) offset
    _ = skipStringAfter 0 (offset + 11) (tail.drop 4) := by
      rw [dropped, skipStringAfter_numbered other]
    _ = skipStringAfter 11 offset (0x75 :: input) := by
      rw [skipStringAfter_drop whole, List.drop_succ_cons, behind]

/-- Skipping over an escape ends where reading it ends. -/
theorem skipEscape_of_escape {offset n : Nat} (read : escape offset input = .ok (bytes, n)) :
    ∃ skipped, skipEscape offset input = .ok skipped ∧
      skipStringAfter skipped offset input = skipStringAfter n offset input := by
  cases input with
  | nil => cases read
  | cons byte input =>
    rw [escape] at read
    cases simple : simpleEscape? byte with
    | some plain =>
      simp only [simple] at read
      cases read
      exact ⟨1, by rw [skipEscape, simple]; rfl, rfl⟩
    | none =>
      simp only [simple] at read
      split at read
      · rename_i letter
        subst letter
        obtain ⟨⟨plain, taken⟩, numbered, same⟩ := map_eq_ok_iff.mp read
        obtain rfl : taken + 1 = n := congrArg Prod.snd same
        obtain ⟨unit, first, shape⟩ := numberedEscape_cases numbered
        refine ⟨5, skipEscape_numbered first, ?_⟩
        rcases shape with rfl | ⟨rfl, tail, second, dropped, other⟩
        · rfl
        · exact skipStringAfter_pair first dropped other
      · cases read

/-- A string that can be read ends where it ends for a reader that skips it. -/
theorem skipStringAfter_of_stringAfter {skip offset : Nat}
    (read : stringAfter skip offset input = .ok (bytes, after)) :
    skipStringAfter skip offset input = .ok after := by
  induction input generalizing skip offset bytes with
  | nil => cases skip <;> cases read
  | cons byte input ih =>
    cases skip with
    | succ skip => exact ih read
    | zero =>
      rw [stringAfter] at read
      rw [skipStringAfter]
      split at read
      · rename_i quote
        cases read
        rw [if_pos quote]
      rename_i quote
      rw [if_neg quote]
      split at read
      · rename_i backslash
        obtain ⟨⟨plain, n⟩, escaped, read⟩ := bind_eq_ok_iff.mp read
        obtain ⟨⟨more, last⟩, behind, same⟩ := bind_eq_ok_iff.mp read
        obtain rfl : last = after := congrArg Prod.snd (Except.ok.inj same)
        obtain ⟨skipped, skips, agree⟩ := skipEscape_of_escape escaped
        rw [if_pos backslash, skips, ok_bind, agree]
        exact ih behind
      rename_i backslash
      rw [if_neg backslash]
      split at read
      · cases read
      rename_i visible
      obtain ⟨⟨more, last⟩, behind, same⟩ := map_eq_ok_iff.mp read
      obtain rfl : last = after := congrArg Prod.snd same
      rw [if_neg visible]
      exact ih behind

theorem skipString_of_string {cursor : Cursor} (read : string cursor = .ok (text, after)) :
    skipString cursor = .ok after := by
  obtain ⟨⟨bytes, last⟩, taken, decoded⟩ := bind_eq_ok_iff.mp read
  dsimp only at decoded
  split at decoded
  · obtain rfl : last = after := congrArg Prod.snd (Except.ok.inj decoded)
    exact skipStringAfter_of_stringAfter taken
  · cases decoded

end Cursor

end SourceIndex.Json
