import Mathlib.Algebra.Group.Nat.Defs
import SourceIndex.Index
import SourceIndex.Proofs.Headings

/-! Sorting by bytes is sorting by code points. The encodings of two characters differ at a byte
that stands in both of them, and there the smaller character has the smaller byte
(`precedes_encodeChar`); what follows such a byte has no say. So the first character in which
two texts differ decides both orders, and records are sorted in the same way by either. -/
namespace SourceIndex

namespace Utf8

/-- Behind a common front, `first` goes on with a smaller byte than `second`. -/
def Precedes (first second : Bytes) : Prop :=
  ∃ front low high rest others,
    first = front ++ low :: rest ∧ second = front ++ high :: others ∧ low < high

namespace Precedes

variable {first second : Bytes}

theorem head {low high : UInt8} (less : low < high) (rest others : Bytes) :
    Precedes (low :: rest) (high :: others) :=
  ⟨[], low, high, rest, others, rfl, rfl, less⟩

theorem cons (precedes : Precedes first second) (byte : UInt8) :
    Precedes (byte :: first) (byte :: second) := by
  obtain ⟨front, low, high, rest, others, rfl, rfl, less⟩ := precedes
  exact ⟨byte :: front, low, high, rest, others, rfl, rfl, less⟩

/-- Nothing behind the two makes a difference any more. -/
theorem compare_append (precedes : Precedes first second) (rest others : Bytes) :
    compare (first ++ rest) (second ++ others) = .lt := by
  obtain ⟨front, low, high, behind, beyond, rfl, rfl, less⟩ := precedes
  have decides : compare low high = .lt := Std.compare_eq_lt.mpr less
  induction front with
  | nil => simp [List.compare_cons_cons, decides]
  | cons byte front ih => simpa [List.compare_cons_cons] using ih

end Precedes

/-! ### Encodings -/

/-- The last `count` bytes of a sequence, each with six bits of the number. -/
def tails (number : Nat) : (count : Nat) → Bytes
  | 0 => []
  | count + 1 => .ofNat (0x80 + number / 64 ^ count % 64) :: tails number count

/-- A number by its range: the mark of the first byte of its sequence, and how many tails follow. -/
inductive Sized (number : Nat) : (mark count : Nat) → Prop
  | one (below : number < 0x80) : Sized number 0 0
  | two (least : 0x80 ≤ number) (below : number < 0x800) : Sized number 0xC0 1
  | three (least : 0x800 ≤ number) (below : number < 0x10000) : Sized number 0xE0 2
  | four (least : 0x10000 ≤ number) (below : number < 0x110000) : Sized number 0xF0 3

theorem exists_sized (char : Char) : ∃ mark count, Sized char.toNat mark count ∧
    encodeChar char = .ofNat (mark + char.toNat / 64 ^ count) :: tails char.toNat count := by
  have valid : char.toNat < 0xD800 ∨ 0xDFFF < char.toNat ∧ char.toNat < 0x110000 := char.valid
  unfold encodeChar
  dsimp only
  split
  · exact ⟨_, _, .one ‹_›, by simp [tails]⟩
  split
  · exact ⟨_, _, .two (by omega) ‹_›, by simp [tails]⟩
  split
  · exact ⟨_, _, .three (by omega) ‹_›, by simp [tails]⟩
  · exact ⟨_, _, .four (by omega) (by omega), by simp [tails]⟩

private theorem ofNat_lt {low high : Nat} (less : low < high) (small : high < 256) :
    UInt8.ofNat low < UInt8.ofNat high := by
  rwa [UInt8.lt_iff_toNat_lt, UInt8.toNat_ofNat_of_lt' (Nat.lt_trans less small),
    UInt8.toNat_ofNat_of_lt' small]

/-- Of two numbers with the same first bits, the smaller one has the tails that come first. -/
theorem precedes_tails {number other : Nat} (less : number < other) (count : Nat)
    (same : number / 64 ^ count = other / 64 ^ count) :
    Precedes (tails number count) (tails other count) := by
  induction count with
  | zero =>
    simp only [Nat.pow_zero, Nat.div_one] at same
    omega
  | succ count ih =>
    rw [Nat.pow_succ, ← Nat.div_div_eq_div_mul, ← Nat.div_div_eq_div_mul] at same
    have ordered : number / 64 ^ count ≤ other / 64 ^ count := Nat.div_le_div_right (Nat.le_of_lt less)
    rcases Nat.lt_or_eq_of_le ordered with differ | agree
    · exact .head (ofNat_lt (by omega) (by omega)) _ _
    · simp only [tails, agree]
      exact (ih agree).cons _

/-- The first bytes of two sequences are in the order of the numbers, or say nothing about it. -/
theorem sized_lead {number other mark otherMark count otherCount : Nat} (less : number < other)
    (sized : Sized number mark count) (otherSized : Sized other otherMark otherCount) :
    mark + number / 64 ^ count < otherMark + other / 64 ^ otherCount ∨
      mark = otherMark ∧ count = otherCount ∧ number / 64 ^ count = other / 64 ^ count := by
  cases sized <;> cases otherSized <;> omega

/-- The encoding of a smaller character comes first, and is no front of the other one. -/
theorem precedes_encodeChar {char other : Char} (less : char.toNat < other.toNat) :
    Precedes (encodeChar char) (encodeChar other) := by
  obtain ⟨mark, count, sized, spelling⟩ := exists_sized char
  obtain ⟨otherMark, otherCount, otherSized, otherSpelling⟩ := exists_sized other
  have small : otherMark + other.toNat / 64 ^ otherCount < 256 := by
    cases otherSized <;> omega
  rw [spelling, otherSpelling]
  rcases sized_lead less sized otherSized with differ | ⟨rfl, rfl, agree⟩
  · exact .head (ofNat_lt differ small) _ _
  · rw [agree]
    exact (precedes_tails less _ agree).cons _

/-! ### Texts -/

theorem encodeChar_ne_nil (char : Char) : encodeChar char ≠ [] := by
  obtain ⟨mark, count, -, spelling⟩ := exists_sized char
  simp [spelling]

/-- A common front of two byte strings has no influence on their order. -/
theorem compare_append_left (front first second : Bytes) :
    compare (front ++ first) (front ++ second) = compare first second := by
  induction front with
  | nil => rfl
  | cons byte front ih => simpa [List.compare_cons_cons] using ih

/-- The order of texts by their bytes is the order by their code points. -/
theorem compareText_eq (first second : Text) :
    compareText first second = compare (first.map Char.toNat) (second.map Char.toNat) := by
  rw [compareText]
  induction first generalizing second with
  | nil =>
    cases second with
    | nil => rfl
    | cons other second =>
      obtain ⟨byte, rest, shape⟩ := List.exists_cons_of_ne_nil (encodeChar_ne_nil other)
      simp [encode_cons, encode_nil, shape, List.compare_nil_cons]
  | cons char first ih =>
    cases second with
    | nil =>
      obtain ⟨byte, rest, shape⟩ := List.exists_cons_of_ne_nil (encodeChar_ne_nil char)
      simp [encode_cons, encode_nil, shape, List.compare_cons_nil]
    | cons other second =>
      simp only [encode_cons, List.map_cons, List.compare_cons_cons]
      rcases Nat.lt_trichotomy char.toNat other.toNat with less | same | greater
      · rw [(precedes_encodeChar less).compare_append, Std.compare_eq_lt.mpr less, Ordering.lt_then]
      · obtain rfl : char = other := Char.toNat_inj.mp same
        rw [compare_append_left, Std.ReflOrd.compare_self, Ordering.eq_then, ih]
      · have after := (precedes_encodeChar greater).compare_append (encode second) (encode first)
        rw [Std.OrientedCmp.gt_of_lt after, Std.OrientedCmp.gt_of_lt (Std.compare_eq_lt.mpr greater),
          Ordering.gt_then]

end Utf8

namespace Record

/-- The order of paths by their bytes, in which records are sorted, is their order by code points;
so sorting by code points puts every list of records into the same order. -/
theorem sort_by_codePoints :
    (∀ first second : Text,
      Utf8.compareText first second = compare (first.map Char.toNat) (second.map Char.toNat)) ∧
    ∀ records : List Record, sort records = records.mergeSort fun first second =>
      (compare (first.path.map Char.toNat) (second.path.map Char.toNat)).isLE := by
  refine ⟨Utf8.compareText_eq, fun records => ?_⟩
  simp only [sort, Utf8.compareText_eq]

end Record
end SourceIndex
