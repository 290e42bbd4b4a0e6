import Mathlib.Data.List.Forall2
import SourceIndex.Proofs.DiscoveryExactness
import SourceIndex.Proofs.Headings

/-! When two files share a heading. Every name is escaped for itself, so two headings are
equal when the names below the root agree one by one up to escapes that are spelled out;
without a name that looks escaped, different files have different headings. -/
namespace SourceIndex.Discovery

open Text.Escaped

variable {store : Store} {root : Path} {place : Place}

private theorem map_encode_eq_iff {names others : List Name} :
    names.map encode = others.map encode ↔
      List.Forall₂ (fun name other => Alike (parts name) (parts other)) names others := by
  rw [← List.forall₂_eq_eq_eq, List.forall₂_map_left_iff, List.forall₂_map_right_iff]
  constructor
  · exact List.Forall₂.imp fun _ _ => encode_eq_iff.mp
  · exact List.Forall₂.imp fun _ _ => encode_eq_iff.mpr

/-- Rows of names that collide without being equal hold a name that looks escaped. -/
private theorem exists_looksEscaped {names others : List Name}
    (same : names.map encode = others.map encode) (different : names ≠ others) :
    ∃ name ∈ names ++ others, LooksEscaped name := by
  induction names generalizing others with
  | nil => exact absurd (List.map_eq_nil_iff.mp same.symm).symm different
  | cons name names ih =>
    cases others with
    | nil => cases same
    | cons other others =>
      obtain ⟨first, rest⟩ := List.cons.inj same
      rcases eq_or_looksEscaped first with rfl | looks | looks
      · obtain ⟨held, inside, looks⟩ := ih rest fun equal => different (equal ▸ rfl)
        refine ⟨held, ?_, looks⟩
        rcases List.mem_append.mp inside with left | right
        · exact List.mem_append_left _ (List.mem_cons_of_mem _ left)
        · exact List.mem_append_right _ (List.mem_cons_of_mem _ right)
      · exact ⟨name, by simp, looks⟩
      · exact ⟨other, by simp, looks⟩

/-- Exactly when two files share a heading: their names agree one by one but for stray bytes
that one name holds and the other spells out. Files that lie in different places need a name
that looks escaped for that. -/
theorem headings_agree_iff (sound : store.Sound) (found : store.locate .follow root = .ok place)
    (directory : store.isDirectoryAt place = true) {first second : SourceFile}
    (member : first ∈ files store root) (otherMember : second ∈ files store root) :
    (first.heading = second.heading ↔
      List.Forall₂ (fun name other => Alike (parts name) (parts other))
        (root.namesBelow first.location) (root.namesBelow second.location)) ∧
    (¬ first.location.Same second.location → first.heading = second.heading →
      ∃ name ∈ root.namesBelow first.location ++ root.namesBelow second.location,
        LooksEscaped name) := by
  have spelled := (Store.locate_follow_iff.mp found).2.1
  obtain ⟨names, stands, rfl, read⟩ := names_of_file sound found directory member
  obtain ⟨others, otherStands, rfl, otherRead⟩ := names_of_file sound found directory otherMember
  have written : (fileOf root names).heading = (fileOf root others).heading ↔
      names.map encode = others.map encode :=
    heading_eq_iff (stands.named sound) (otherStands.named sound) stands.further otherStands.further
  rw [read, otherRead, written]
  refine ⟨map_encode_eq_iff, fun apart same => exists_looksEscaped same ?_⟩
  rintro rfl
  exact apart rfl

/-- Two files in one directory: a name that spells out an escape and the name it passes for. -/
def lookalikes : Store where
  working := []
  nodes := [([Utf8.encode "a\\xE9.py".toList], .file [0x23]),
    ([[0x61, 0xE9, 0x2E, 0x70, 0x79]], .file [0x23])]

def spelledOut : SourceFile := ⟨"a\\xE9.py".toList, .ofString "./a\\xE9.py"⟩

def stray : SourceFile := ⟨"a\\xE9.py".toList, ⟨[0x2E, 0x2F, 0x61, 0xE9, 0x2E, 0x70, 0x79]⟩⟩

theorem headings_agree_lookalikes : spelledOut ∈ files lookalikes (.ofString ".") ∧
    stray ∈ files lookalikes (.ofString ".") ∧
    ∃ name ∈ Path.namesBelow (.ofString ".") spelledOut.location ++
      Path.namesBelow (.ofString ".") stray.location, LooksEscaped name := by
  have sound : lookalikes.Sound := by decide
  have directory : lookalikes.isDirectoryAt [] = true := by decide
  have member : spelledOut ∈ files lookalikes (.ofString ".") := by decide
  have strayMember : stray ∈ files lookalikes (.ofString ".") := by decide
  refine ⟨member, strayMember, ?_⟩
  exact (headings_agree_iff sound rfl directory member strayMember).2 (by decide) rfl

/-- Different files can share a heading. -/
theorem lookalikes_collide : lookalikes.Sound ∧ ¬ ∀ first ∈ files lookalikes (.ofString "."),
    ∀ second ∈ files lookalikes (.ofString "."),
      ¬ first.location.Same second.location → first.heading ≠ second.heading := by
  refine ⟨by decide, fun distinct => ?_⟩
  exact distinct spelledOut (by decide) stray (by decide) (by decide) rfl

end SourceIndex.Discovery
