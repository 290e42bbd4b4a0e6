import SourceIndex.Proofs.DecodedLines
import SourceIndex.Proofs.EscapedNames

/-! What a written form shows of a name, byte by byte. The encoding of a character is shown as that
character wherever it stands in the name (`encode_scalar`), and a byte that belongs to no such
encoding is shown as its escape (`encode_stray`); so nothing else is escaped, and nothing is lost.
A name without a backslash is got back by reading the escapes (`decode_encode`). -/
namespace SourceIndex

namespace Utf8

/-- The encoding of a character begins with a byte that goes on with no sequence. -/
theorem encodeChar_lead (char : Char) :
    ∃ lead tails, encodeChar char = lead :: tails ∧ isTail lead = false := by
  have valid : char.toNat < 0xD800 ∨ 0xDFFF < char.toNat ∧ char.toNat < 0x110000 := char.valid
  have lead : ∀ n : Nat, n < 256 → (n < 0x80 ∨ 0xBF < n) → isTail (UInt8.ofNat n) = false := by
    intro n small outside
    have value : (UInt8.ofNat n).toNat = n := UInt8.toNat_ofNat_of_lt' small
    rw [Bool.eq_false_iff, Ne, tail_range, value]
    omega
  unfold encodeChar
  dsimp only
  split
  · exact ⟨_, _, rfl, lead _ (by omega) (by omega)⟩
  split
  · exact ⟨_, _, rfl, lead _ (by omega) (by omega)⟩
  split
  · exact ⟨_, _, rfl, lead _ (by omega) (by omega)⟩
  · exact ⟨_, _, rfl, lead _ (by omega) (by omega)⟩

/-- Wherever the encoding of a character stands, it is read as that character. -/
theorem decode_scalar (before : Bytes) (char : Char) (after : Bytes) :
    decode (before ++ encodeChar char ++ after) = decode before ++ .scalar char :: decode after := by
  obtain ⟨lead, tails, shape, noTail⟩ := encodeChar_lead char
  have whole := decode_encodeChar char after
  rw [shape, List.cons_append] at whole
  rw [shape, List.append_assoc, List.cons_append, decode_append noTail, whole]

/-- A tail byte that no sequence leads to is ill-formed by itself. -/
theorem decode_tail {byte : UInt8} (tail : isTail byte = true) (rest : Bytes) :
    decode (byte :: rest) = .broken [byte] :: decode rest := by
  obtain ⟨low, high⟩ := tail_range.mp tail
  have large : ¬ byte < 0x80 := by
    simp only [UInt8.lt_iff_toNat_lt, UInt8.reduceToNat]
    omega
  have unled : lead? byte = none := by
    rw [lead?, if_pos]
    simp only [UInt8.lt_iff_toNat_lt, UInt8.reduceToNat]
    omega
  have alone : first byte rest = (.broken [byte], 0) := by
    rw [first, if_neg large, unled]
  rw [decode_cons, alone]
  rfl

end Utf8

namespace Text.Escaped

variable {name before after rest run : Bytes} {byte : UInt8} {char : Char}

/-- A byte that no encoding of a character in these bytes covers. -/
def Stray (before : Bytes) (byte : UInt8) (after : Bytes) : Prop :=
  ∀ front char back, before ++ byte :: after = front ++ Utf8.encodeChar char ++ back →
    before.length < front.length ∨ front.length + (Utf8.encodeChar char).length ≤ before.length

theorem encode_scalar (before : Bytes) (char : Char) (after : Bytes) :
    encode (before ++ Utf8.encodeChar char ++ after) = encode before ++ char :: encode after := by
  rw [encode, Utf8.decode_scalar, List.flatMap_append, List.flatMap_cons]
  rfl

theorem encode_tails (tails : ∀ byte ∈ run, Utf8.isTail byte = true) (rest : Bytes) :
    encode (run ++ rest) = run.flatMap encodeByte ++ encode rest := by
  induction run with
  | nil => rfl
  | cons byte run ih =>
    obtain ⟨here, later⟩ := List.forall_mem_cons.mp tails
    have more := ih later
    rw [encode] at more
    rw [List.cons_append, encode, Utf8.decode_tail here, List.flatMap_cons, more, List.flatMap_cons]
    simp [encodePiece]

/-- Where no encoding of a character begins, one byte is escaped. -/
theorem encode_front (none : ∀ char, ¬ Utf8.encodeChar char <+: byte :: rest) :
    encode (byte :: rest) = encodeByte byte ++ encode rest := by
  have taken := Utf8.first_bytes byte rest
  rw [encode, Utf8.decode_cons, List.flatMap_cons]
  cases found : (Utf8.first byte rest).1 with
  | scalar char =>
    rw [found, Utf8.Piece.bytes] at taken
    refine absurd ?_ (none char)
    rw [taken]
    exact List.cons_prefix_cons.mpr ⟨rfl, List.take_prefix ..⟩
  | broken run =>
    obtain ⟨tails, rfl, -, continued⟩ := Utf8.first_broken found
    rw [found, Utf8.Piece.bytes] at taken
    obtain ⟨-, rfl⟩ := List.cons.inj taken
    have split := encode_tails continued (rest.drop (Utf8.first byte rest).2)
    rw [List.take_append_drop] at split
    rw [split, encodePiece, List.flatMap_cons, List.append_assoc]
    rfl

/-- An encoding in front of a stray byte ends in front of it. -/
theorem Stray.front (stray : Stray before byte after)
    (begins : Utf8.encodeChar char <+: before ++ byte :: after) : Utf8.encodeChar char <+: before := by
  obtain ⟨back, whole⟩ := begins
  have within : (Utf8.encodeChar char).length ≤ before.length := by
    have covered := stray [] char back whole.symm
    simpa using covered
  exact List.prefix_of_prefix_length_le ⟨back, whole⟩ (List.prefix_append ..) within

/-- What stands far in front of a byte does not cover it. -/
theorem Stray.behind (front : Bytes) (stray : Stray (front ++ before) byte after) :
    Stray before byte after := by
  intro further other back whole
  have apart := stray (front ++ further) other back (by simp [whole])
  simp only [List.length_append] at apart
  omega

/-- A stray byte is escaped, whatever stands around it. -/
theorem encode_stray (stray : Stray before byte after) :
    encode (before ++ byte :: after) = encode before ++ encodeByte byte ++ encode after := by
  -- Reading goes on behind a character or behind one escaped byte.
  induction size : before.length using Nat.strongRecOn generalizing before with
  | ind size ih =>
    subst size
    by_cases begins : ∃ char, Utf8.encodeChar char <+: before
    · obtain ⟨char, rest, rfl⟩ := begins
      obtain ⟨lead, tails, shape, -⟩ := Utf8.encodeChar_lead char
      have shorter : rest.length < (Utf8.encodeChar char ++ rest).length := by
        simp only [shape, List.length_append, List.length_cons]
        omega
      have shown : ∀ rest, encode (Utf8.encodeChar char ++ rest) = char :: encode rest :=
        encode_scalar [] char
      rw [List.append_assoc, shown, shown, ih _ shorter (stray.behind _) rfl]
      rfl
    · have nowhere : ∀ char, ¬ Utf8.encodeChar char <+: before ++ byte :: after :=
        fun char front => begins ⟨char, stray.front front⟩
      cases before with
      | nil => exact encode_front nowhere
      | cons first before =>
        have later : Stray before byte after := Stray.behind [first] stray
        have alone : ∀ char, ¬ Utf8.encodeChar char <+: first :: before :=
          fun char front => begins ⟨char, front⟩
        rw [List.cons_append] at nowhere ⊢
        rw [encode_front nowhere, ih _ (Nat.lt_succ_self _) later rfl, encode_front alone]
        simp only [List.append_assoc]

/-! ### Reading the escapes -/

theorem decode_encodeByte (byte : UInt8) (text : Text) :
    decode (encodeByte byte ++ text) = byte :: decode text := by
  have bound := byte.toNat_lt
  have high := digit?_digit (byte.toNat / 16) (by omega)
  have low := digit?_digit (byte.toNat % 16) (by omega)
  have value : 16 * (byte.toNat / 16) + byte.toNat % 16 = byte.toNat := Nat.div_add_mod ..
  change decode ('\\' :: 'x' :: digit (byte.toNat / 16) :: digit (byte.toNat % 16) :: text) = _
  rw [decode, high, low]
  dsimp only
  rw [value, UInt8.ofNat_toNat]

theorem decode_escapes (run : Bytes) (text : Text) :
    decode (run.flatMap encodeByte ++ text) = run ++ decode text := by
  induction run with
  | nil => rfl
  | cons byte run ih =>
    rw [List.flatMap_cons, List.append_assoc, decode_encodeByte, ih]
    rfl

theorem decode_plain (plain : char ≠ '\\') (text : Text) :
    decode (char :: text) = Utf8.encodeChar char ++ decode text := by
  rw [decode]
  rintro _ _ _ rfl
  exact absurd rfl plain

theorem decode_pieces {pieces : List Utf8.Piece} (plain : .scalar '\\' ∉ pieces) :
    decode (pieces.flatMap encodePiece) = pieces.flatMap Utf8.Piece.bytes := by
  induction pieces with
  | nil => rfl
  | cons piece pieces ih =>
    obtain ⟨here, later⟩ := List.ne_and_not_mem_of_not_mem_cons plain
    rw [List.flatMap_cons, List.flatMap_cons, ← ih later]
    cases piece with
    | scalar char =>
      refine decode_plain ?_ _
      rintro rfl
      exact here rfl
    | broken run => exact decode_escapes run _

theorem decode_encode (plain : backslash ∉ name) : decode (encode name) = name := by
  have absent : .scalar '\\' ∉ Utf8.decode name := fun member =>
    plain ((Utf8.infix_of_scalar_mem member).subset (by decide))
  rw [encode, decode_pieces absent, Utf8.decode_bytes]

/-- Text is its own written form. -/
theorem encode_text (text : Text) : encode (Utf8.encode text) = text := by
  simp [encode, Utf8.decode_encode, List.flatMap_map, encodePiece]

/-- Pieces that are shown without a backslash hold the bytes of what is shown. -/
theorem bytes_pieces {pieces : List Utf8.Piece} (plain : '\\' ∉ pieces.flatMap encodePiece) :
    pieces.flatMap Utf8.Piece.bytes = Utf8.encode (pieces.flatMap encodePiece) := by
  induction pieces with
  | nil => rfl
  | cons piece pieces ih =>
    rw [List.flatMap_cons, List.mem_append, not_or] at plain
    rw [List.flatMap_cons, List.flatMap_cons, Utf8.encode_append, ih plain.2]
    cases piece with
    | scalar char => simp [Utf8.Piece.bytes, encodePiece, Utf8.encode]
    | broken run =>
      cases run with
      | nil => rfl
      | cons byte run => exact absurd List.mem_cons_self plain.1

/-- Only text has a written form without a backslash. -/
theorem eq_encode_of_plain (plain : '\\' ∉ encode name) : name = Utf8.encode (encode name) := by
  have whole := bytes_pieces plain
  rwa [Utf8.decode_bytes] at whole

end Text.Escaped
end SourceIndex
