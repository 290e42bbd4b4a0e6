import SourceIndex.Proofs.StringSpellings

/-! Strings are written as they may be spelled. Each character of a written string stands for
itself or is one escape, a short one where there is one (`charSpelled_encodeChar`), so a written
string reads back as its text (`textSpelled_encode`). A line end is always escaped. -/
namespace SourceIndex.Json

namespace Quoted

private theorem digit_hexDigit : ∀ value : Fin 16,
    (digit value).toNat < 0x80 ∧ HexDigit (UInt8.ofNat (digit value).toNat) value ∧ digit value ≠ '\n' := by
  unfold HexDigit
  decide

private theorem charSpelled_control {char : Char} (control : char.toNat < 0x20) :
    CharSpelled char (Utf8.encode
      ['\\', 'u', '0', '0', digit (char.toNat / 16), digit (char.toNat % 16)]) := by
  obtain ⟨highAscii, high, _⟩ := digit_hexDigit ⟨char.toNat / 16, by omega⟩
  obtain ⟨lowAscii, low, _⟩ := digit_hexDigit ⟨char.toNat % 16, by omega⟩
  dsimp only at highAscii high lowAscii low
  have spelling : Utf8.encode
      ['\\', 'u', '0', '0', digit (char.toNat / 16), digit (char.toNat % 16)] =
        0x5C :: 0x75 :: [0x30, 0x30, UInt8.ofNat (digit (char.toNat / 16)).toNat,
          UInt8.ofNat (digit (char.toNat % 16)).toNat] := by
    simp [Utf8.encode, Utf8.encodeChar, highAscii, lowAscii]
  have zero : HexDigit 0x30 0 := .inl rfl
  have value : ((0 * 16 + 0) * 16 + char.toNat / 16) * 16 + char.toNat % 16 = char.toNat := by omega
  have number := FourDigits.digits zero zero high low
  rw [value] at number
  rw [spelling]
  exact .numbered number

theorem charSpelled_encodeChar (char : Char) : CharSpelled char (Utf8.encode (encodeChar char)) := by
  have short : ∀ letter char, (letter, char) ∈ shortEscapes → CharSpelled char [0x5C, letter] :=
    fun _ _ => .short
  unfold encodeChar
  by_cases quote : char = '"'
  · rw [if_pos quote, quote]
    exact short 0x22 '"' (by decide)
  rw [if_neg quote]
  by_cases backslash : char = '\\'
  · rw [if_pos backslash, backslash]
    exact short 0x5C '\\' (by decide)
  rw [if_neg backslash]
  by_cases backspace : char = '\x08'
  · rw [if_pos backspace, backspace]
    exact short 0x62 '\x08' (by decide)
  rw [if_neg backspace]
  by_cases formFeed : char = '\x0C'
  · rw [if_pos formFeed, formFeed]
    exact short 0x66 '\x0C' (by decide)
  rw [if_neg formFeed]
  by_cases newline : char = '\n'
  · rw [if_pos newline, newline]
    exact short 0x6E '\n' (by decide)
  rw [if_neg newline]
  by_cases carriageReturn : char = '\r'
  · rw [if_pos carriageReturn, carriageReturn]
    exact short 0x72 '\r' (by decide)
  rw [if_neg carriageReturn]
  by_cases tab : char = '\t'
  · rw [if_pos tab, tab]
    exact short 0x74 '\t' (by decide)
  rw [if_neg tab]
  by_cases control : char.toNat < 0x20
  · rw [if_pos control]
    exact charSpelled_control control
  · rw [if_neg control]
    have spelling : Utf8.encode [char] = Utf8.encodeChar char := by simp [Utf8.encode]
    rw [spelling]
    exact .verbatim quote backslash control

theorem newline_not_mem_encode (text : Text) : '\n' ∉ encode text := by
  have charFree : ∀ char, '\n' ∉ encodeChar char := by
    intro char member
    have digits : char.toNat < 0x20 →
        '\n' ≠ digit (char.toNat / 16) ∧ '\n' ≠ digit (char.toNat % 16) := by
      intro control
      obtain ⟨_, _, high⟩ := digit_hexDigit ⟨char.toNat / 16, by omega⟩
      obtain ⟨_, _, low⟩ := digit_hexDigit ⟨char.toNat % 16, by omega⟩
      exact ⟨high.symm, low.symm⟩
    by_cases newline : char = '\n'
    · subst newline
      simp [encodeChar] at member
    · have other : '\n' ≠ char := Ne.symm newline
      unfold encodeChar at member
      repeat' split at member
      all_goals simp_all
  simp [encode, charFree]

end Quoted

/-- What is written for a text spells it. -/
theorem textSpelled_encode (text : Text) :
    TextSpelled text (Utf8.encode (text.flatMap Quoted.encodeChar)) := by
  induction text with
  | nil => exact .nil
  | cons char text ih =>
    rw [List.flatMap_cons, Utf8.encode_append]
    exact .cons (Quoted.charSpelled_encodeChar char) ih

end SourceIndex.Json
