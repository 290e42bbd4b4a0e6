import Mathlib.Data.List.Forall2
import SourceIndex.Proofs.Headings
import SourceIndex.SourceFile

/-! The order of files is an order of what their paths mean. Of a file it looks at the heading and at
the components of the location (`SourceFile.Meaning`), and it compares these linearly. The heading
is itself a function of the components, so two files of one root compare equal exactly when
their locations have the same components; and a sorted list, read for its meanings, does not
depend on how the files were given. -/
namespace SourceIndex

/-- Paths with the same components have the same relative name. -/
theorem Path.relativeName_congr {first second : Path} (same : first.Same second) (root : Path) :
    root.relativeName first = root.relativeName second := by
  simp only [Same] at same
  simp only [relativeName, below, same]

theorem Component.key_injective : Function.Injective Component.key := by
  intro first second same
  cases first <;> cases second <;> simp [key] at same
  · rfl
  · rfl
  · rfl
  · exact congrArg name ((List.map_inj_right fun _ _ => UInt8.toNat_inj.mp).mp same)

namespace SourceFile

/-- What the order of files looks at. -/
structure Meaning where
  heading : Text
  components : List Component

def meaning (file : SourceFile) : Meaning := ⟨file.heading, file.location.components⟩

theorem same_iff_meaning {first second : SourceFile} : first.Same second ↔ first.meaning = second.meaning := by
  simp only [Same, Path.Same, meaning, Meaning.mk.injEq]

theorem meaning_ofLocation_iff {root first second : Path} :
    (ofLocation root first).meaning = (ofLocation root second).meaning ↔
      first.components = second.components := by
  simp only [meaning, ofLocation, Meaning.mk.injEq, and_iff_right_iff_imp]
  intro same
  exact Path.relativeName_congr same root

namespace Meaning

/-- By heading, then by components. -/
def compare : Meaning → Meaning → Ordering :=
  compareLex (fun first second => Utf8.compareText first.heading second.heading)
    (compareOn fun meaning => meaning.components.map Component.key)

instance : Std.TransCmp fun first second : Meaning => Utf8.compareText first.heading second.heading where
  eq_swap := Std.OrientedCmp.eq_swap
  isLE_trans := Utf8.compareText_trans

instance : Std.TransCmp compare := inferInstanceAs (Std.TransCmp (compareLex _ _))

instance : Std.LawfulEqCmp compare where
  compare_self := Std.ReflCmp.compare_self
  eq_of_compare := by
    rintro ⟨heading, components⟩ ⟨otherHeading, otherComponents⟩ equal
    obtain ⟨headings, keys⟩ := Ordering.then_eq_eq.mp equal
    obtain rfl : heading = otherHeading := Std.LawfulEqCmp.eq_of_compare headings
    have same := (List.map_inj_right Component.key_injective).mp (Std.LawfulEqOrd.eq_of_compare keys)
    exact congrArg _ same

end Meaning

theorem compare_meaning (first second : SourceFile) :
    compare first second = first.meaning.compare second.meaning := rfl

theorem compare_eq_iff {first second : SourceFile} :
    compare first second = .eq ↔ first.Same second := by
  rw [compare_meaning, same_iff_meaning]
  exact Std.LawfulEqCmp.compare_eq_iff_eq

theorem compare_swap (first second : SourceFile) : compare second first = (compare first second).swap := by
  simp only [compare_meaning]
  exact Std.OrientedCmp.eq_swap

theorem compare_total (first second : SourceFile) :
    (compare first second).isLE = true ∨ (compare second first).isLE = true := by
  rw [compare_swap first second]
  cases compare first second <;> decide

theorem compare_trans {first second third : SourceFile} (before : (compare first second).isLE = true)
    (behind : (compare second third).isLE = true) : (compare first third).isLE = true := by
  simp only [compare_meaning] at before behind ⊢
  exact Std.TransCmp.isLE_trans before behind

/-- Sorting puts the meanings in order. -/
theorem sort_ascending (files : List SourceFile) :
    ((sort files).map meaning).Pairwise fun first second => (first.compare second).isLE = true := by
  apply List.pairwise_map.mpr
  apply List.pairwise_mergeSort
  · exact fun _ _ _ before behind => compare_trans before behind
  · intro first second
    rw [Bool.or_eq_true]
    exact compare_total first second

/-- The same files in any order are sorted into the same row of meanings. -/
theorem meanings_of_perm {files others : List SourceFile} (perm : files.Perm others) :
    (sort files).map meaning = (sort others).map meaning := by
  have sorted : (sort files).Perm (sort others) :=
    (List.mergeSort_perm ..).trans (perm.trans (List.mergeSort_perm ..).symm)
  refine (sorted.map meaning).eq_of_pairwise ?_ (sort_ascending files) (sort_ascending others)
  intro first second _ _ before after
  exact Std.LawfulEqCmp.eq_of_compare (Std.OrientedCmp.isLE_antisymm before after)

/-- Files of one root are equal, and compare as equal, exactly when their locations have the same
components. The order of files is linear up to that, so the same files are sorted into rows that
are equal entry by entry, however they were given. -/
theorem compare_by_components :
    (∀ root first second : Path,
      ((ofLocation root first).Same (ofLocation root second) ↔ first.components = second.components) ∧
      (compare (ofLocation root first) (ofLocation root second) = .eq ↔
        first.components = second.components)) ∧
    (∀ first second : SourceFile, compare second first = (compare first second).swap ∧
      ((compare first second).isLE = true ∨ (compare second first).isLE = true)) ∧
    (∀ first second third : SourceFile, (compare first second).isLE = true →
      (compare second third).isLE = true → (compare first third).isLE = true) ∧
    ∀ files others : List SourceFile, files.Perm others → List.Forall₂ Same (sort files) (sort others) := by
  refine ⟨fun root first second => ?_, fun first second => ?_, fun _ _ _ => compare_trans, ?_⟩
  · rw [compare_eq_iff, and_self, same_iff_meaning]
    exact meaning_ofLocation_iff
  · exact ⟨compare_swap first second, compare_total first second⟩
  · intro files others perm
    have rows := meanings_of_perm perm
    rw [← List.forall₂_eq_eq_eq, List.forall₂_map_left_iff, List.forall₂_map_right_iff] at rows
    exact rows.imp fun _ _ => same_iff_meaning.mpr

/-- Two spellings of one file, in either order in front of another file: the rows are sorted and
differ, and entry by entry their files are equal. -/
theorem compare_by_components_spelled :
    let file := fun text => ofLocation (Path.ofString "r") (Path.ofString text)
    let files := [file "r//a/./c.py/", file "r/a/c.py", file "r/b.py"]
    let others := [file "r/a/c.py", file "r//a/./c.py/", file "r/b.py"]
    files.Perm others ∧ sort files ≠ sort others ∧ List.Forall₂ Same (sort files) (sort others) := by
  intro file files others
  have perm : files.Perm others := List.Perm.swap ..
  have settled : sort files = files := List.mergeSort_of_pairwise (by decide +kernel)
  have otherSettled : sort others = others := List.mergeSort_of_pairwise (by decide +kernel)
  have differ : sort files ≠ sort others := by
    rw [settled, otherSettled]
    decide +kernel
  exact ⟨perm, differ, compare_by_components.2.2.2 files others perm⟩

end SourceFile
end SourceIndex
