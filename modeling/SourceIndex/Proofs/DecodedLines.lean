import SourceIndex.Proofs.LineEnds
import SourceIndex.Proofs.SnippetLines

/-! Decoding commutes with cutting into lines. No sequence of bytes goes on across a byte that is no
tail byte, so decoding starts afresh at each of them, however the bytes in front break off
(`decode_append`), and at ASCII bytes in particular (`lossy_append`). A line end is made of such
bytes, and no other byte decodes to one; so the lines of the decoded text are the decoded lines
(`map_linesOf`), although a reader decodes every line by itself. -/
namespace SourceIndex

namespace Utf8

variable {byte : UInt8}

private theorem toNat_ascii (ascii : byte < 0x80) : byte.toNat < 0x80 := UInt8.lt_iff_toNat_lt.mp ascii

theorem isTail_ascii (ascii : byte < 0x80) : isTail byte = false := by
  rw [Bool.eq_false_iff, Ne, tail_range]
  have small := toNat_ascii ascii
  omega

/-- Only a tail byte goes on with a sequence. -/
theorem admits_of_noTail {a : UInt8} {lead : Lead} (found : lead? a = some lead) (noTail : isTail byte = false) :
    lead.admits byte = false := by
  rw [Bool.eq_false_iff]
  intro fits
  rw [isTail_of_opens (opens_of_lead found fits)] at noTail
  cases noTail

/-- Any other byte ends what is in front of it: the piece before it is found as if nothing followed. -/
theorem first_append (noTail : isTail byte = false) (a : UInt8) (before after : Bytes) :
    first a (before ++ byte :: after) = first a before := by
  by_cases single : a < 0x80
  · rw [first, if_pos single, first, if_pos single]
  rw [first, if_neg single, first, if_neg single]
  cases found : lead? a with
  | none => rfl
  | some lead =>
    have noSecond := admits_of_noTail found noTail
    obtain ⟨low, high, further⟩ := lead
    rcases before with _ | ⟨b, _ | ⟨c, _ | ⟨d, rest⟩⟩⟩
    · simp [noSecond]
    · cases further <;> simp [noTail]
    · rcases further with _ | _ | further <;> simp [noTail]
    · rcases further with _ | _ | further <;> rfl

theorem taken_le (a : UInt8) (rest : Bytes) : (first a rest).2 ≤ rest.length := by
  fun_cases first a rest <;> simp

theorem first_ascii (ascii : byte < 0x80) (rest : Bytes) :
    first byte rest = (.scalar (Char.ofNat byte.toNat), 0) := by
  rw [first, if_pos ascii]

private theorem decodeAfter_append (noTail : isTail byte = false) {skip : Nat} {before : Bytes}
    (inside : skip ≤ before.length) (after : Bytes) :
    decodeAfter skip (before ++ byte :: after) = decodeAfter skip before ++ decode (byte :: after) := by
  induction before generalizing skip with
  | nil =>
    obtain rfl := Nat.le_zero.mp inside
    rfl
  | cons a before ih =>
    cases skip with
    | zero =>
      rw [List.cons_append, decodeAfter, decodeAfter, first_append noTail, ih (taken_le a before)]
      rfl
    | succ skip => exact ih (Nat.le_of_succ_le_succ inside)

/-- Decoding goes on afresh at every byte that is no tail byte, whatever breaks off in front of it. -/
theorem decode_append (noTail : isTail byte = false) (before after : Bytes) :
    decode (before ++ byte :: after) = decode before ++ decode (byte :: after) :=
  decodeAfter_append noTail (Nat.zero_le _) after

theorem lossy_append (ascii : byte < 0x80) (before after : Bytes) : lossy (before ++ byte :: after) =
    lossy before ++ Char.ofNat byte.toNat :: lossy after := by
  rw [lossy, decode_append (isTail_ascii ascii), decode_cons, first_ascii ascii]
  simp [lossy, Piece.replaced]

theorem lossy_eq_nil_iff {bytes : Bytes} : lossy bytes = [] ↔ bytes = [] := by
  cases bytes with
  | nil => simp [lossy, decode_nil]
  | cons a rest => simp [lossy, decode_cons]

/-- Replaced text starts with an ASCII character only where the bytes do. -/
theorem head?_of_lossy {bytes : Bytes} {char : Char} (front : (lossy bytes).head? = some char)
    (real : char ≠ '\uFFFD') : encodeChar char <+: bytes := by
  cases bytes with
  | nil => cases front
  | cons a rest =>
    have taken := first_bytes a rest
    rw [lossy, decode_cons, List.map_cons, List.head?_cons, Option.some_inj] at front
    cases found : (first a rest).1 with
    | broken run =>
      rw [found] at front
      exact absurd front.symm real
    | scalar held =>
      rw [found] at front taken
      obtain rfl : held = char := front
      rw [Piece.bytes] at taken
      rw [taken]
      exact List.cons_prefix_cons.mpr ⟨rfl, List.take_prefix ..⟩

end Utf8

namespace Text

/-- Every line end written as `\n`. -/
def unified : Text → Text
  | [] => []
  | '\r' :: '\n' :: rest => '\n' :: unified rest
  | '\r' :: rest => '\n' :: unified rest
  | char :: rest => char :: unified rest

/-- What stands between the line ends of a text. -/
def pieces (text : Text) : List Text := (unified text).splitOn '\n'

/-- The lines of a text; what stands behind the last line end is one if it is not empty. -/
def lines (text : Text) : List Text :=
  if (pieces text).getLast? = some [] then (pieces text).dropLast else pieces text

variable {line rest : Text}

theorem unified_append (unbroken : '\r' ∉ line) (rest : Text) : unified (line ++ rest) = line ++ unified rest := by
  induction line with
  | nil => rfl
  | cons char line ih =>
    have other : '\r' ≠ char := List.ne_of_not_mem_cons unbroken
    have further := ih (List.not_mem_of_not_mem_cons unbroken)
    rw [List.cons_append, unified, further]
    · rfl
    · rintro _ rfl
      exact absurd rfl other
    · rintro rfl
      exact absurd rfl other

/-! ### The first line of a text -/

theorem pieces_alone (single : line.OneLine) : pieces line = [line] := by
  have whole := unified_append single.2 []
  rw [List.append_nil] at whole
  rw [pieces, whole, unified, List.append_nil, List.splitOn_eq_singleton single.1]

/-- Whatever ends it, the first line is cut off and the rest is cut on its own. -/
theorem pieces_of_unified {text : Text} (single : line.OneLine)
    (ended : unified text = line ++ '\n' :: unified rest) : pieces text = line :: pieces rest := by
  rw [pieces, ended, List.splitOn_append_cons_self, List.splitOn_eq_singleton single.1]
  rfl

theorem pieces_newline (single : line.OneLine) (rest : Text) :
    pieces (line ++ '\n' :: rest) = line :: pieces rest := by
  refine pieces_of_unified single ?_
  rw [unified_append single.2, unified]
  · nofun
  · nofun

theorem pieces_pair (single : line.OneLine) (rest : Text) :
    pieces (line ++ '\r' :: '\n' :: rest) = line :: pieces rest := by
  refine pieces_of_unified single ?_
  rw [unified_append single.2, unified]

theorem pieces_return (single : line.OneLine) (alone : rest.head? ≠ some '\n') :
    pieces (line ++ '\r' :: rest) = line :: pieces rest := by
  refine pieces_of_unified single ?_
  rw [unified_append single.2, unified]
  rintro more rfl
  exact alone rfl

end Text

namespace Head

theorem unbroken_nil : Unbroken [] := ⟨List.not_mem_nil, List.not_mem_nil⟩

theorem Unbroken.concat {line : Bytes} (unbroken : Unbroken line) {byte : UInt8}
    (plain : ¬ (byte = newline ∨ byte = carriageReturn)) : Unbroken (line ++ [byte]) := by
  obtain ⟨noNewline, noReturn⟩ := not_or.mp plain
  simp [Unbroken, unbroken.1, unbroken.2, Ne.symm noNewline, Ne.symm noReturn]

theorem lossy_newline (before after : Bytes) : Utf8.lossy (before ++ newline :: after) =
    Utf8.lossy before ++ '\n' :: Utf8.lossy after :=
  Utf8.lossy_append (by decide) before after

theorem lossy_return (before after : Bytes) : Utf8.lossy (before ++ carriageReturn :: after) =
    Utf8.lossy before ++ '\r' :: Utf8.lossy after :=
  Utf8.lossy_append (by decide) before after

/-- A return is the end of a line by itself if the next byte is not a newline, and so it is in the text. -/
theorem head?_lossy_ne {next : UInt8} (other : next ≠ newline) (rest : Bytes) :
    (Utf8.lossy (next :: rest)).head? ≠ some '\n' := by
  intro front
  have taken := Utf8.head?_of_lossy front (by decide)
  exact other (List.cons_prefix_cons.mp taken).1.symm

/-- Cutting first and decoding the pieces is decoding first and cutting the text. The bytes of
the piece in progress are told apart, as they cannot be decoded one by one. -/
theorem map_pieces_append {line : Bytes} (unbroken : Unbroken line) (bytes : Bytes) :
    ((pieces bytes).modifyHead (line ++ ·)).map Utf8.lossy = Text.pieces (Utf8.lossy (line ++ bytes)) := by
  induction bytes using pieces.induct generalizing line with
  | case1 => simp [pieces, Text.pieces_alone (lossy_oneLine unbroken)]
  | case2 byte ends =>
    have cut : pieces [byte] = [[], []] := if_pos ends
    rw [cut]
    rcases ends with rfl | rfl
    · rw [lossy_newline, Text.pieces_newline (lossy_oneLine unbroken)]
      simp [Text.pieces_alone (lossy_oneLine unbroken_nil)]
    · rw [lossy_return, Text.pieces_return (lossy_oneLine unbroken) (by decide)]
      simp [Text.pieces_alone (lossy_oneLine unbroken_nil)]
  | case3 byte plain =>
    rw [Text.pieces_alone (lossy_oneLine (unbroken.concat plain))]
    simp [pieces, plain]
  | case4 byte next rest pair ih =>
    have further := ih unbroken_nil
    obtain ⟨rfl, rfl⟩ := pair
    have pair : Utf8.lossy (newline :: rest) = '\n' :: Utf8.lossy rest := lossy_newline [] rest
    rw [lossy_return, pair, Text.pieces_pair (lossy_oneLine unbroken), pieces, if_pos ⟨rfl, rfl⟩]
    simpa [Progress.modifyHead_self] using further
  | case5 byte next rest single ends ih =>
    have further := ih unbroken_nil
    rw [pieces, if_neg single, if_pos ends]
    rcases ends with rfl | rfl
    · rw [lossy_newline, Text.pieces_newline (lossy_oneLine unbroken)]
      simpa [Progress.modifyHead_self] using further
    · have alone := head?_lossy_ne (fun same => single ⟨rfl, same⟩) rest
      rw [lossy_return, Text.pieces_return (lossy_oneLine unbroken) alone]
      simpa [Progress.modifyHead_self] using further
  | case6 byte next rest single plain ih =>
    have further := ih (unbroken.concat plain)
    rw [pieces, if_neg single, if_neg plain, List.modifyHead_modifyHead]
    simpa [Function.comp_def] using further

theorem map_pieces (bytes : Bytes) : (pieces bytes).map Utf8.lossy = Text.pieces (Utf8.lossy bytes) := by
  have whole := map_pieces_append unbroken_nil bytes
  simpa [Progress.modifyHead_self] using whole

/-- The lines of the decoded text are the decoded lines. -/
theorem map_linesOf (bytes : Bytes) : (linesOf bytes).map Utf8.lossy = (Utf8.lossy bytes).lines := by
  have last : (Text.pieces (Utf8.lossy bytes)).getLast? = some [] ↔ (pieces bytes).getLast? = some [] := by
    rw [← map_pieces, List.getLast?_map, Option.map_eq_some_iff]
    simp [Utf8.lossy_eq_nil_iff]
  by_cases empty : (pieces bytes).getLast? = some []
  · rw [linesOf, if_pos empty, Text.lines, if_pos (last.mpr empty), ← map_pieces, List.map_dropLast]
  · rw [linesOf, if_neg empty, Text.lines, if_neg (mt last.mp empty), map_pieces]

theorem firstLines_eq (limit : Nat) (bytes : Bytes) :
    firstLines limit bytes = ((Utf8.lossy bytes).lines.take limit).map Text.trimEnd := by
  rw [firstLines, ← map_linesOf, ← List.map_take, List.map_map]
  rfl

/-- What is read, by the content and the failure of the input. -/
theorem read_fst (limit : Nat) (input : Input ε) :
    (read limit input).1 = outcome limit input.content input.fault? := by
  obtain ⟨answer, ran, result⟩ := readFrom_after input.failure (within_start limit) input.chunks
  rw [List.nil_append] at ran result
  change readFrom limit input.failure .start 0 input.chunks = _ at ran
  rw [read, ran]
  exact result

end Head
end SourceIndex
