import SourceIndex.Document
import SourceIndex.Head
import SourceIndex.Proofs.Utf8RoundTrip

/-! The lines of a document. A document is split at its line ends as bytes; in UTF-8 that is
the same as splitting its text, because no other character has a line end among its bytes
(`newline_mem_encode`). Text of one line therefore stays one line. -/
namespace SourceIndex

namespace Utf8

/-- The bytes of a character are itself, if it is ASCII, or lie outside ASCII. -/
theorem mem_encodeChar {char : Char} {byte : UInt8} (member : byte ∈ encodeChar char) :
    char.toNat < 0x80 ∧ byte.toNat = char.toNat ∨ 0x80 ≤ char.toNat ∧ 0x80 ≤ byte.toNat := by
  have valid : char.toNat < 0xD800 ∨ 0xDFFF < char.toNat ∧ char.toNat < 0x110000 := char.valid
  rw [encodeChar] at member
  split at member
  · rename_i ascii
    cases List.mem_singleton.mp member
    exact .inl ⟨ascii, UInt8.toNat_ofNat_of_lt' (Nat.lt_trans ascii (by decide))⟩
  · right
    refine ⟨by omega, ?_⟩
    split at member
    · simp only [List.mem_cons, List.not_mem_nil, or_false] at member
      rcases member with rfl | rfl <;> simp only [UInt8.toNat_ofNat'] <;> omega
    split at member
    · simp only [List.mem_cons, List.not_mem_nil, or_false] at member
      rcases member with rfl | rfl | rfl <;> simp only [UInt8.toNat_ofNat'] <;> omega
    · simp only [List.mem_cons, List.not_mem_nil, or_false] at member
      rcases member with rfl | rfl | rfl | rfl <;> simp only [UInt8.toNat_ofNat'] <;> omega

/-- An ASCII byte is found in encoded text exactly where the text has that character. -/
theorem ascii_mem_encode {text : Text} {char : Char} (ascii : char.toNat < 0x80) :
    UInt8.ofNat char.toNat ∈ encode text ↔ char ∈ text := by
  have value : (UInt8.ofNat char.toNat).toNat = char.toNat :=
    UInt8.toNat_ofNat_of_lt' (Nat.lt_trans ascii (by decide))
  rw [encode, List.mem_flatMap]
  constructor
  · rintro ⟨held, inside, member⟩
    rcases mem_encodeChar member with ⟨_, same⟩ | ⟨_, high⟩
    · have equal : char = held := Char.toNat_inj.mp (value.symm.trans same)
      exact equal ▸ inside
    · omega
  · intro inside
    refine ⟨char, inside, ?_⟩
    simp [encodeChar, ascii]

end Utf8

namespace Document

/-- A document split at its line ends; no line end stands behind the last piece. -/
def lines (document : Bytes) : List Bytes := document.splitOn Head.newline

theorem newline_mem_encode {text : Text} : Head.newline ∈ Utf8.encode text ↔ '\n' ∈ text := by
  have ascii : '\n'.toNat < 0x80 := by decide
  exact Utf8.ascii_mem_encode ascii

/-- Splitting at one line end first changes nothing. -/
theorem lines_append_newline (before after : Bytes) :
    lines (before ++ Head.newline :: after) = lines before ++ lines after :=
  List.splitOn_append_cons_self before after

theorem lines_encode {text : Text} (single : '\n' ∉ text) :
    lines (Utf8.encode text) = [Utf8.encode text] :=
  List.splitOn_eq_singleton fun inside => single (newline_mem_encode.mp inside)

end Document
end SourceIndex
