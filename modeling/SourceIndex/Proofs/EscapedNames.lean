import SourceIndex.Proofs.Utf8RoundTrip
import SourceIndex.Text.Escaped

/-! When two names have one written form. A written form shows the text of a name and
the escapes of its stray bytes in one row, so a name that holds the four characters of
an escape can pass for a name that holds the byte. `encode_eq_iff` says that there is no
other way for two names to collide. -/
namespace SourceIndex.Text

/-- Texts without the separator can be read back from their row. -/
theorem join_injective {separator : Char} {first second : List Text}
    (firstFree : ∀ text ∈ first, separator ∉ text) (secondFree : ∀ text ∈ second, separator ∉ text)
    (firstSome : first ≠ []) (secondSome : second ≠ [])
    (same : join [separator] first = join [separator] second) : first = second := by
  have split := congrArg (List.splitOn separator) same
  rwa [join, join, List.splitOn_intercalate separator firstFree firstSome,
    List.splitOn_intercalate separator secondFree secondSome] at split

namespace Escaped

/-- A name as its written form shows it: the ill-formed runs are taken byte by byte. -/
def parts (name : Bytes) : List Utf8.Piece :=
  (Utf8.decode name).flatMap fun piece =>
    match piece with
    | .scalar char => [.scalar char]
    | .broken bytes => bytes.map fun byte => .broken [byte]

/-- The escape of a byte, spelled out as ordinary characters. -/
def spelled (byte : UInt8) : List Utf8.Piece := (encodeByte byte).map .scalar

/-- Two rows of parts that differ only in that one spells out what the other holds as a
stray byte. -/
inductive Alike : List Utf8.Piece → List Utf8.Piece → Prop where
  | nil : Alike [] []
  | same (piece : Utf8.Piece) : Alike first second → Alike (piece :: first) (piece :: second)
  | stray (byte : UInt8) : Alike first second →
      Alike (.broken [byte] :: first) (spelled byte ++ second)
  | literal (byte : UInt8) : Alike first second →
      Alike (spelled byte ++ first) (.broken [byte] :: second)

/-- What `parts` yields: a stray byte stands alone and is no ASCII. -/
def Single : Utf8.Piece → Prop
  | .scalar _ => True
  | .broken bytes => ∃ byte : UInt8, 0x80 ≤ byte ∧ bytes = [byte]

theorem parts_single (name : Bytes) : ∀ piece ∈ parts name, Single piece := by
  intro piece member
  obtain ⟨run, decoded, inside⟩ := List.mem_flatMap.mp member
  cases run with
  | scalar char =>
    cases List.mem_singleton.mp inside
    trivial
  | broken bytes =>
    obtain ⟨byte, held, rfl⟩ := List.mem_map.mp inside
    exact ⟨byte, Utf8.broken_high decoded byte held, rfl⟩

/-- The written form is the written forms of the parts. -/
theorem encode_parts (name : Bytes) : (parts name).flatMap encodePiece = encode name := by
  rw [parts, encode, List.flatMap_assoc]
  congr 1
  funext piece
  cases piece with
  | scalar char => rfl
  | broken bytes => simp [encodePiece, List.flatMap_map]

/-- The parts still hold all bytes of the name. -/
theorem parts_bytes (name : Bytes) : (parts name).flatMap Utf8.Piece.bytes = name := by
  rw [parts, List.flatMap_assoc]
  refine Eq.trans (congrArg (List.flatMap · _) (funext fun piece => ?_)) (Utf8.decode_bytes name)
  cases piece with
  | scalar char => simp
  | broken bytes => simp [Utf8.Piece.bytes, List.flatMap_map]

theorem digit?_digit : ∀ value < 16, digit? (digit value) = some value := by decide

/-- The characters that escapes are made of. -/
def alphabet : Text := ['\\', 'x', '0', '1', '2', '3', '4', '5', '6', '7', '8', '9',
  'A', 'B', 'C', 'D', 'E', 'F']

private theorem digit_mem : ∀ value < 16, digit value ∈ alphabet ∧ digit value ≠ '\\' := by decide

private theorem byte_halves (byte : UInt8) : byte.toNat / 16 < 16 ∧ byte.toNat % 16 < 16 := by
  have := byte.toNat_lt
  omega

theorem encodeByte_subset (byte : UInt8) : ∀ char ∈ encodeByte byte, char ∈ alphabet := by
  obtain ⟨high, low⟩ := byte_halves byte
  simp only [encodeByte, List.mem_cons, List.not_mem_nil, or_false]
  rintro char (rfl | rfl | rfl | rfl)
  · decide
  · decide
  · exact (digit_mem _ high).1
  · exact (digit_mem _ low).1

theorem encodeByte_injective {first second : UInt8}
    (same : encodeByte first = encodeByte second) : first = second := by
  obtain ⟨firstHigh, firstLow⟩ := byte_halves first
  obtain ⟨secondHigh, secondLow⟩ := byte_halves second
  simp only [encodeByte, List.cons.injEq, true_and, and_true] at same
  have high := digit?_digit _ firstHigh
  have low := digit?_digit _ firstLow
  rw [same.1, digit?_digit _ secondHigh, Option.some.injEq] at high
  rw [same.2, digit?_digit _ secondLow, Option.some.injEq] at low
  exact UInt8.toNat_inj.mp (by omega)

/-- The text of a row of parts. -/
def shown (row : List Utf8.Piece) : Text := row.flatMap encodePiece

private theorem shown_spelled (byte : UInt8) (row : List Utf8.Piece) :
    shown (spelled byte ++ row) = encodeByte byte ++ shown row := by
  simp [shown, spelled, encodePiece, List.flatMap_map]

private theorem shown_stray (byte : UInt8) (row : List Utf8.Piece) :
    shown (.broken [byte] :: row) = encodeByte byte ++ shown row := by
  simp [shown, encodePiece]

private theorem shown_scalar (char : Char) (row : List Utf8.Piece) :
    shown (.scalar char :: row) = char :: shown row := rfl

theorem shown_of_alike (alike : Alike first second) : shown first = shown second := by
  induction alike with
  | nil => rfl
  | same piece _ ih => exact congrArg (encodePiece piece ++ ·) ih
  | stray byte _ ih => rw [shown_stray, shown_spelled, ih]
  | literal byte _ ih => rw [shown_stray, shown_spelled, ih]

/-- A character that starts no escape stands for itself. -/
private theorem uncons {row : List Utf8.Piece} (single : ∀ piece ∈ row, Single piece)
    {char : Char} {text : Text} (plain : char ≠ '\\') (starts : shown row = char :: text) :
    ∃ rest, row = .scalar char :: rest ∧ shown rest = text := by
  cases row with
  | nil => cases starts
  | cons piece rest =>
    cases piece with
    | scalar head =>
      cases starts
      exact ⟨rest, rfl, rfl⟩
    | broken bytes =>
      obtain ⟨byte, -, rfl⟩ := single _ List.mem_cons_self
      rw [shown_stray] at starts
      cases starts
      exact absurd rfl plain

/-- Behind a backslash that is no escape, an escape can only be spelled out. -/
private theorem unspell {row : List Utf8.Piece} (single : ∀ piece ∈ row, Single piece)
    {byte : UInt8} {text : Text} (starts : '\\' :: shown row = encodeByte byte ++ text) :
    ∃ rest, .scalar '\\' :: row = spelled byte ++ rest ∧ shown rest = text ∧
      rest.length < row.length ∧ ∀ piece ∈ rest, Single piece := by
  obtain ⟨high, low⟩ := byte_halves byte
  simp only [encodeByte, List.cons_append, List.nil_append, List.cons.injEq, true_and] at starts
  obtain ⟨afterX, rfl, digits⟩ := uncons single (by decide) starts
  have single₁ := (List.forall_mem_cons.mp single).2
  obtain ⟨afterHigh, rfl, last⟩ := uncons single₁ (digit_mem _ high).2 digits
  have single₂ := (List.forall_mem_cons.mp single₁).2
  obtain ⟨rest, rfl, ends⟩ := uncons single₂ (digit_mem _ low).2 last
  refine ⟨rest, rfl, ends, ?_, (List.forall_mem_cons.mp single₂).2⟩
  simp only [List.length_cons]
  omega

theorem alike_of_shown {first second : List Utf8.Piece} (firstSingle : ∀ piece ∈ first, Single piece)
    (secondSingle : ∀ piece ∈ second, Single piece) (same : shown first = shown second) :
    Alike first second := by
  -- An escape on one side takes four parts from the other, so the two rows shrink unevenly.
  induction size : first.length + second.length using Nat.strongRecOn generalizing first second with
  | ind size ih =>
    subst size
    match first, second with
    | [], [] => exact .nil
    | [], .scalar char :: second => cases same
    | [], .broken bytes :: second =>
      obtain ⟨byte, -, rfl⟩ := (List.forall_mem_cons.mp secondSingle).1
      cases same
    | .scalar char :: first, [] => cases same
    | .broken bytes :: first, [] =>
      obtain ⟨byte, -, rfl⟩ := (List.forall_mem_cons.mp firstSingle).1
      cases same
    | .scalar char :: first, .scalar other :: second =>
      rw [shown_scalar, shown_scalar, List.cons.injEq] at same
      obtain ⟨rfl, rest⟩ := same
      exact .same _ (ih _ (by simp only [List.length_cons]; omega)
        (List.forall_mem_cons.mp firstSingle).2 (List.forall_mem_cons.mp secondSingle).2 rest rfl)
    | .broken bytes :: first, .broken others :: second =>
      obtain ⟨byte, -, rfl⟩ := (List.forall_mem_cons.mp firstSingle).1
      obtain ⟨other, -, rfl⟩ := (List.forall_mem_cons.mp secondSingle).1
      rw [shown_stray, shown_stray] at same
      obtain ⟨escape, rest⟩ := List.append_inj same rfl
      cases encodeByte_injective escape
      exact .same _ (ih _ (by simp only [List.length_cons]; omega)
        (List.forall_mem_cons.mp firstSingle).2 (List.forall_mem_cons.mp secondSingle).2 rest rfl)
    | .broken bytes :: first, .scalar char :: second =>
      obtain ⟨byte, -, rfl⟩ := (List.forall_mem_cons.mp firstSingle).1
      rw [shown_stray, shown_scalar] at same
      obtain rfl : '\\' = char := (List.cons.inj same).1
      obtain ⟨rest, row, restSame, shorter, restSingle⟩ :=
        unspell (List.forall_mem_cons.mp secondSingle).2 same.symm
      rw [row]
      exact .stray byte (ih _ (by simp only [List.length_cons]; omega)
        (List.forall_mem_cons.mp firstSingle).2 restSingle restSame.symm rfl)
    | .scalar char :: first, .broken bytes :: second =>
      obtain ⟨byte, -, rfl⟩ := (List.forall_mem_cons.mp secondSingle).1
      rw [shown_stray, shown_scalar] at same
      obtain rfl : char = '\\' := (List.cons.inj same).1
      obtain ⟨rest, row, restSame, shorter, restSingle⟩ :=
        unspell (List.forall_mem_cons.mp firstSingle).2 same
      rw [row]
      exact .literal byte (ih _ (by simp only [List.length_cons]; omega)
        restSingle (List.forall_mem_cons.mp secondSingle).2 restSame rfl)

/-- The exact collisions: two names have one written form when they agree but for stray
bytes that one of them holds and the other spells out. -/
theorem encode_eq_iff {first second : Bytes} :
    encode first = encode second ↔ Alike (parts first) (parts second) := by
  rw [← encode_parts first, ← encode_parts second]
  exact ⟨alike_of_shown (parts_single first) (parts_single second), shown_of_alike⟩

/-- A name that holds the four characters of the escape of some stray byte. -/
def LooksEscaped (name : Bytes) : Prop :=
  ∃ byte : UInt8, 0x80 ≤ byte ∧ Utf8.encode (encodeByte byte) <:+: name

private theorem spelled_bytes (byte : UInt8) :
    (spelled byte).flatMap Utf8.Piece.bytes = Utf8.encode (encodeByte byte) := by
  rw [spelled, List.flatMap_map]
  rfl

/-- A row with a spelled escape somewhere in it. -/
private def Spells (row : List Utf8.Piece) : Prop :=
  ∃ byte : UInt8, 0x80 ≤ byte ∧ spelled byte <:+: row

private theorem looksEscaped_of_spells {name : Bytes} (spells : Spells (parts name)) :
    LooksEscaped name := by
  obtain ⟨byte, high, before, after, row⟩ := spells
  refine ⟨byte, high, before.flatMap Utf8.Piece.bytes, after.flatMap Utf8.Piece.bytes, ?_⟩
  rw [← spelled_bytes, ← List.flatMap_append, ← List.flatMap_append, row, parts_bytes]

private theorem Spells.cons {row : List Utf8.Piece} (piece : Utf8.Piece) (spells : Spells row) :
    Spells (piece :: row) := by
  obtain ⟨byte, high, inside⟩ := spells
  exact ⟨byte, high, inside.trans (List.suffix_cons piece row).isInfix⟩

/-- Rows that are alike are equal unless one of them spells out an escape. -/
private theorem Alike.eq_or_spells {first second : List Utf8.Piece} (alike : Alike first second)
    (firstSingle : ∀ piece ∈ first, Single piece) (secondSingle : ∀ piece ∈ second, Single piece) :
    first = second ∨ Spells first ∨ Spells second := by
  induction alike with
  | nil => exact .inl rfl
  | same piece _ ih =>
    rcases ih (List.forall_mem_cons.mp firstSingle).2 (List.forall_mem_cons.mp secondSingle).2 with
      rfl | spells | spells
    · exact .inl rfl
    · exact .inr (.inl (spells.cons piece))
    · exact .inr (.inr (spells.cons piece))
  | stray byte _ _ =>
    obtain ⟨held, high, same⟩ := (List.forall_mem_cons.mp firstSingle).1
    cases same
    exact .inr (.inr ⟨byte, high, (List.prefix_append ..).isInfix⟩)
  | literal byte _ _ =>
    obtain ⟨held, high, same⟩ := (List.forall_mem_cons.mp secondSingle).1
    cases same
    exact .inr (.inl ⟨byte, high, (List.prefix_append ..).isInfix⟩)

/-- Only a name that looks escaped can share its written form with another name. -/
theorem eq_or_looksEscaped {first second : Bytes} (same : encode first = encode second) :
    first = second ∨ LooksEscaped first ∨ LooksEscaped second := by
  have alike := encode_eq_iff.mp same
  rcases alike.eq_or_spells (parts_single first) (parts_single second) with rows | spells | spells
  · left
    rw [← parts_bytes first, rows, parts_bytes]
  · exact .inr (.inl (looksEscaped_of_spells spells))
  · exact .inr (.inr (looksEscaped_of_spells spells))

def backslash : UInt8 := 0x5C

theorem backslash_mem_of_looksEscaped {name : Bytes} (looks : LooksEscaped name) :
    backslash ∈ name := by
  obtain ⟨byte, _, inside⟩ := looks
  exact inside.subset (by simp [encodeByte, Utf8.encode, Utf8.encodeChar, backslash])

/-- A name without a backslash is known by its written form. -/
theorem encode_inj {first second : Bytes} (firstPlain : backslash ∉ first)
    (secondPlain : backslash ∉ second) (same : encode first = encode second) : first = second := by
  rcases eq_or_looksEscaped same with equal | looks | looks
  · exact equal
  · exact absurd (backslash_mem_of_looksEscaped looks) firstPlain
  · exact absurd (backslash_mem_of_looksEscaped looks) secondPlain

/-- A character of a written form stands in the name itself or belongs to an escape. -/
theorem mem_encode {name : Bytes} {char : Char} (member : char ∈ encode name) :
    Utf8.encodeChar char <:+: name ∨ char ∈ alphabet := by
  obtain ⟨piece, decoded, inside⟩ := List.mem_flatMap.mp member
  cases piece with
  | scalar held =>
    cases List.mem_singleton.mp inside
    exact .inl (Utf8.infix_of_scalar_mem decoded)
  | broken bytes =>
    obtain ⟨byte, _, escape⟩ := List.mem_flatMap.mp inside
    exact .inr (encodeByte_subset byte char escape)

end Escaped
end SourceIndex.Text
