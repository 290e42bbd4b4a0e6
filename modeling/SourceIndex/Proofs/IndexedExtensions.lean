import Mathlib.Data.List.TakeDrop
import Mathlib.Data.List.TakeWhile
import SourceIndex.Proofs.PathsBelow
import SourceIndex.Proofs.Utf8RoundTrip
import SourceIndex.SourceFile

/-! Which names have an indexed extension. The extension is compared as text and described
in bytes, which is one thing because a text that lowers to ASCII was ASCII before
(`lower_iff`). -/
namespace SourceIndex

/-- The lowercase of an ASCII letter, and any other byte as it is. -/
def lower (byte : UInt8) : UInt8 := if 0x41 ≤ byte ∧ byte ≤ 0x5A then byte + 0x20 else byte

private theorem lower_ascii : ∀ value : Fin 0x80,
    lower (UInt8.ofNat value) = UInt8.ofNat (Char.ofNat value).toLower.toNat ∧
      (Char.ofNat value).toLower.toNat < 0x80 := by decide

private theorem encodeChar_ascii {char : Char} (ascii : char.toNat < 0x80) :
    Utf8.encodeChar char = [UInt8.ofNat char.toNat] := by
  simp [Utf8.encodeChar, ascii]

private theorem toLower_ascii {char : Char} (ascii : char.toNat < 0x80) :
    char.toLower.toNat < 0x80 ∧
      (Utf8.encodeChar char).map lower = Utf8.encodeChar char.toLower := by
  obtain ⟨same, bound⟩ := lower_ascii ⟨char.toNat, ascii⟩
  rw [Char.ofNat_toNat] at same bound
  refine ⟨bound, ?_⟩
  rw [encodeChar_ascii ascii, encodeChar_ascii bound, List.map_singleton, same]

private theorem ascii_of_toLower {char : Char} (ascii : char.toLower.toNat < 0x80) :
    char.toNat < 0x80 := by
  by_cases small : char.toNat < 0x80
  · exact small
  · have noLetter : ¬ (char.val ≥ 'A'.val ∧ char.val ≤ 'Z'.val) := by
      rintro ⟨_, upper⟩
      exact small (Nat.lt_of_le_of_lt upper (by decide))
    have other : char.toLower = char := dif_neg noLetter
    rwa [other] at ascii

private theorem ascii_of_lower {byte : UInt8} (ascii : lower byte < 0x80) : byte < 0x80 := by
  rw [lower] at ascii
  split at ascii
  · rename_i letter
    exact UInt8.lt_of_le_of_lt letter.2 (by decide)
  · exact ascii

/-- Lowering commutes with encoding on ASCII. -/
private theorem encode_map_toLower {text : Text} (ascii : ∀ char ∈ text, char.toNat < 0x80) :
    (Utf8.encode text).map lower = Utf8.encode (text.map Char.toLower) := by
  induction text with
  | nil => rfl
  | cons char rest ih =>
    obtain ⟨head, tail⟩ := List.forall_mem_cons.mp ascii
    have deeper := ih tail
    rw [Utf8.encode] at deeper
    rw [Utf8.encode, List.flatMap_cons, List.map_append, deeper, (toLower_ascii head).2]
    rfl

private theorem encode_ascii (bytes : Bytes) (ascii : ∀ byte ∈ bytes, byte < 0x80) :
    ∃ text : Text, bytes = Utf8.encode text ∧ ∀ char ∈ text, char.toNat < 0x80 := by
  induction bytes with
  | nil => exact ⟨[], rfl, by simp⟩
  | cons byte rest ih =>
    obtain ⟨head, tail⟩ := List.forall_mem_cons.mp ascii
    obtain ⟨text, same, deeper⟩ := ih tail
    have small : byte.toNat < 0x80 := head
    have value : (Char.ofNat byte.toNat).toNat = byte.toNat :=
      Utf8.toNat_ofNat (.inl (Nat.lt_trans small (by decide)))
    refine ⟨Char.ofNat byte.toNat :: text, ?_, List.forall_mem_cons.mpr ⟨value.symm ▸ small, deeper⟩⟩
    rw [Utf8.encode, List.flatMap_cons, encodeChar_ascii (value.symm ▸ small), value,
      UInt8.ofNat_toNat, same]
    rfl

private theorem ascii_encode {text : Text} (ascii : ∀ char ∈ text, char.toNat < 0x80) :
    ∀ byte ∈ Utf8.encode text, byte < 0x80 := by
  intro byte member
  obtain ⟨char, inside, held⟩ := List.mem_flatMap.mp member
  rw [encodeChar_ascii (ascii char inside)] at held
  cases List.mem_singleton.mp held
  have small := ascii char inside
  rw [UInt8.lt_iff_toNat_lt, UInt8.toNat_ofNat_of_lt' (Nat.lt_trans small (by decide))]
  exact small

/-- Comparing lowered texts is comparing lowered bytes, for an ASCII word. -/
theorem lower_iff {bytes : Bytes} {word : Text} (ascii : ∀ char ∈ word, char.toNat < 0x80) :
    (Utf8.text? bytes).map (·.map Char.toLower) = some word ↔ bytes.map lower = Utf8.encode word := by
  simp only [Option.map_eq_some_iff, Utf8.text?_eq_some_iff]
  constructor
  · rintro ⟨text, rfl, rfl⟩
    refine encode_map_toLower fun char member => ascii_of_toLower ?_
    exact ascii _ (List.mem_map_of_mem member)
  · intro same
    have small : ∀ byte ∈ bytes, byte < 0x80 := by
      intro byte member
      have held : lower byte ∈ Utf8.encode word := same ▸ List.mem_map_of_mem member
      exact ascii_of_lower (ascii_encode ascii _ held)
    obtain ⟨text, rfl, textAscii⟩ := encode_ascii bytes small
    rw [encode_map_toLower textAscii] at same
    exact ⟨text, rfl, Utf8.encode_injective same⟩

/-- The extension of a name stands behind its last dot, if anything stands before that. -/
theorem Path.extensionOf?_eq_some_iff {name extension : Bytes} :
    extensionOf? name = some extension ↔
      ∃ stem, name = stem ++ dot :: extension ∧ stem ≠ [] ∧ dot ∉ extension := by
  rw [extensionOf?, List.span_eq_takeWhile_dropWhile]
  constructor
  · intro found
    have whole : name.reverse.takeWhile (· != dot) ++ name.reverse.dropWhile (· != dot) = name.reverse :=
      List.takeWhile_append_dropWhile
    have first := List.head?_dropWhile_not (· != dot) name.reverse
    split at found
    · cases found
    · cases found
    · rename_i before rest noDot lone split
      obtain ⟨rfl, rfl⟩ := Prod.mk.inj split
      cases found
      cases dropped : name.reverse.dropWhile (· != dot) with
      | nil => exact absurd dropped noDot
      | cons byte stem =>
        rw [dropped] at first whole
        obtain rfl : byte = dot := by simpa using first
        refine ⟨stem.reverse, ?_, ?_, ?_⟩
        · have turned := congrArg List.reverse whole
          simpa using turned.symm
        · intro empty
          exact lone dot (by rw [dropped, List.reverse_eq_nil_iff.mp empty])
        · intro inside
          have kept := List.mem_takeWhile_imp (List.mem_reverse.mp inside)
          simp at kept
  · rintro ⟨stem, rfl, some, clean⟩
    have before : ∀ byte ∈ extension.reverse, (byte != dot) = true := by
      intro byte member
      simp only [bne_iff_ne]
      rintro rfl
      exact clean (List.mem_reverse.mp member)
    obtain ⟨start, last, rfl⟩ := (List.eq_nil_or_concat stem).resolve_left some
    rw [List.reverse_append, List.reverse_cons, List.append_assoc,
      List.takeWhile_append_of_pos before, List.dropWhile_append_of_pos before]
    simp

/-- A name with an indexed extension behind something else. -/
def HasIndexedExtension (name : Name) : Prop :=
  ∃ stem extension, name = stem ++ Path.dot :: extension ∧ stem ≠ [] ∧ extension ≠ [] ∧
    ∃ listed ∈ SourceFile.indexedExtensions, extension.map lower = Utf8.encode listed.toList

private theorem listed_plain : ∀ listed ∈ SourceFile.indexedExtensions,
    (∀ char ∈ listed.toList, char.toNat < 0x80) ∧ Utf8.encode listed.toList ≠ [] ∧
      Path.dot ∉ Utf8.encode listed.toList := by
  simp [SourceFile.indexedExtensions, Utf8.encode, Utf8.encodeChar, Path.dot]

/-- Whether a file is indexed is decided by the last name on the way to it. -/
theorem isIndexed_iff {root : Path} {names : List Name} {name : Name} (spelled : root.bytes ≠ [])
    (named : ∀ entry ∈ names ++ [name], IsName entry) :
    (SourceFile.ofLocation root (root.under (names ++ [name]))).isIndexed = true ↔
      HasIndexedExtension name := by
  have extension : (SourceFile.ofLocation root (root.under (names ++ [name]))).extension? =
      ((Path.extensionOf? name).bind Utf8.text?).map (·.map Char.toLower) := by
    rw [SourceFile.extension?, SourceFile.ofLocation, Path.extension?, Path.fileName?_under spelled named]
    rfl
  rw [SourceFile.isIndexed, extension]
  constructor
  · intro indexed
    split at indexed
    · rename_i word found
      obtain ⟨listed, member, rfl⟩ := List.mem_map.mp (List.contains_iff_mem.mp indexed)
      obtain ⟨ascii, some, _⟩ := listed_plain listed member
      cases split : Path.extensionOf? name with
      | none => simp [split] at found
      | some bytes =>
        obtain ⟨stem, rfl, further, _⟩ := Path.extensionOf?_eq_some_iff.mp split
        rw [split] at found
        have lowered := (lower_iff ascii).mp found
        refine ⟨stem, bytes, rfl, further, ?_, listed, member, lowered⟩
        rintro rfl
        exact some lowered.symm
    · cases indexed
  · rintro ⟨stem, bytes, rfl, further, _, listed, member, lowered⟩
    obtain ⟨ascii, _, noDot⟩ := listed_plain listed member
    have clean : Path.dot ∉ bytes := by
      intro inside
      exact noDot (lowered ▸ List.mem_map_of_mem inside)
    have split := Path.extensionOf?_eq_some_iff.mpr ⟨stem, rfl, further, clean⟩
    have found := (lower_iff ascii).mpr lowered
    rw [split, Option.bind_some, found]
    exact List.contains_iff_mem.mpr (List.mem_map_of_mem member)

end SourceIndex
