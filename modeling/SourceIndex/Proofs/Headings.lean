import SourceIndex.Proofs.EscapedNames
import SourceIndex.Proofs.PathsBelow

/-! Headings, the names they are made of and the order they stand in. A written form holds no
slash that its name does not hold, so the written forms of the names can be read back from a
heading; the order by bytes is linear because encoding is injective. -/
namespace SourceIndex

/-- Escaping makes no slashes. -/
theorem slash_not_mem_encode {name : Name} (clean : Path.slash ∉ name) :
    '/' ∉ Text.Escaped.encode name := by
  intro member
  rcases Text.Escaped.mem_encode member with inside | escape
  · exact clean (inside.subset (by decide))
  · revert escape
    decide

/-- Two headings are equal when their names have the same written forms, one by one. -/
theorem heading_eq_iff {names others : List Name} (named : ∀ name ∈ names, IsName name)
    (othersNamed : ∀ name ∈ others, IsName name) (further : names ≠ []) (othersFurther : others ≠ []) :
    Text.join ['/'] (names.map Text.Escaped.encode) = Text.join ['/'] (others.map Text.Escaped.encode) ↔
      names.map Text.Escaped.encode = others.map Text.Escaped.encode := by
  have free : ∀ {row : List Name}, (∀ name ∈ row, IsName name) →
      ∀ text ∈ row.map Text.Escaped.encode, '/' ∉ text := by
    intro row rowNamed text member
    obtain ⟨name, inside, rfl⟩ := List.mem_map.mp member
    exact slash_not_mem_encode (rowNamed name inside).noSlash
  constructor
  · exact Text.join_injective (free named) (free othersNamed) (by simpa using further)
      (by simpa using othersFurther)
  · exact congrArg _

instance : Std.TransCmp Utf8.compareText where
  eq_swap := Std.OrientedOrd.eq_swap (α := Bytes)
  isLE_trans := Std.TransOrd.isLE_trans (α := Bytes)

instance : Std.LawfulEqCmp Utf8.compareText where
  compare_self := Std.ReflOrd.compare_self (α := Bytes)
  eq_of_compare same := Utf8.encode_injective (Std.LawfulEqOrd.eq_of_compare (α := Bytes) same)

/-- The order of texts is transitive and total, as sorting asks for it. -/
theorem Utf8.compareText_trans {first second third : Text}
    (before : (compareText first second).isLE = true) (behind : (compareText second third).isLE = true) :
    (compareText first third).isLE = true :=
  Std.TransCmp.isLE_trans before behind

theorem Utf8.compareText_total (first second : Text) :
    ((compareText first second).isLE || (compareText second first).isLE) = true := by
  rw [Bool.or_eq_true]
  by_cases before : (compareText first second).isLE = true
  · exact .inl before
  · exact .inr (Ordering.isLE_of_eq_lt (Std.OrientedCmp.lt_of_not_isLE before))

end SourceIndex
