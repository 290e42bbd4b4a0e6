import Mathlib.Data.List.Nodup
import SourceIndex.Index
import SourceIndex.Proofs.DiscoveryExactness
import SourceIndex.Proofs.Headings

/-! The order in which directories give their entries does not reach the index. Stores that
differ in that order only give the same answer to every question about a path
(`Relisted.locate`); discovery finds the same files in some order, and sorting by heading
brings them into one, since headings differ. -/
namespace SourceIndex

/-- Two stores that differ in the order of their entries only. -/
structure Store.Relisted (first second : Store) : Prop where
  nodes : first.nodes.Perm second.nodes
  working : first.working = second.working

namespace Store.Relisted

variable {first second : Store}

theorem node? (same : first.Relisted second) (sound : first.Sound) : first.node? = second.node? := by
  funext place
  by_cases top : place = []
  · rw [top, node?_root, node?_root]
  have distinct : (second.nodes.map Prod.fst).Nodup :=
    (same.nodes.map Prod.fst).nodup_iff.mp sound.distinct
  rw [Store.node?, Store.node?, if_neg top, if_neg top]
  ext node
  rw [lookup_eq_some_iff sound.distinct, lookup_eq_some_iff distinct, same.nodes.mem_iff]

theorem isDirectoryAt (same : first.Relisted second) (sound : first.Sound) :
    first.isDirectoryAt = second.isDirectoryAt := by
  funext place
  rw [Store.isDirectoryAt, Store.isDirectoryAt, same.node? sound]

theorem sound (same : first.Relisted second) (sound : first.Sound) : second.Sound where
  distinct := (same.nodes.map Prod.fst).nodup_iff.mp sound.distinct
  placed entry member := sound.placed entry (same.nodes.mem_iff.mpr member)
  nested entry member := same.isDirectoryAt sound ▸ sound.nested entry (same.nodes.mem_iff.mpr member)
  named entry member := sound.named entry (same.nodes.mem_iff.mpr member)
  linkable entry member := sound.linkable entry (same.nodes.mem_iff.mpr member)
  working := same.working ▸ same.isDirectoryAt sound ▸ sound.working

private theorem followSteps (same : first.Relisted second) (sound : first.Sound) (purpose : Purpose)
    (onLink : Place → List Step → Except Refusal Target) (place : Place) (steps : List Step) :
    first.followSteps purpose onLink place steps = second.followSteps purpose onLink place steps := by
  induction steps generalizing place with
  | nil => rfl
  | cons step rest ih =>
    cases step <;>
      simp only [Store.followSteps, same.isDirectoryAt sound, same.node? sound, ih]

private theorem followWithin (same : first.Relisted second) (sound : first.Sound) (purpose : Purpose)
    (links : Nat) : first.followWithin purpose links = second.followWithin purpose links := by
  induction links with
  | zero =>
    funext place steps
    exact same.followSteps sound purpose _ place steps
  | succ links ih =>
    funext place steps
    rw [Store.followWithin, Store.followWithin, ih]
    exact same.followSteps sound purpose _ place steps

theorem locate (same : first.Relisted second) (sound : first.Sound) :
    first.locate = second.locate := by
  funext purpose path
  rw [Store.locate, Store.locate, Store.resolve, Store.resolve, same.followWithin sound, same.working]

theorem inspect (same : first.Relisted second) (sound : first.Sound) :
    first.inspect = second.inspect := by
  funext purpose path
  rw [Store.inspect, Store.inspect, same.locate sound, same.node? sound]

theorem isFile (same : first.Relisted second) (sound : first.Sound) : first.isFile = second.isFile := by
  funext path
  rw [Store.isFile, Store.isFile, same.inspect sound]

theorem read (same : first.Relisted second) (sound : first.Sound) : first.read = second.read := by
  funext path
  rw [Store.read, Store.read, same.inspect sound]

end Store.Relisted

namespace Discovery

variable {first second : Store} {root : Path} {place : Place}

private theorem open_of_relisted (same : first.Relisted second) (sound : first.Sound)
    {names : List Name} (stands : Open first root place names) : Open second root place names where
  further := stands.further
  exists_node := same.node? sound ▸ stands.exists_node
  nested := same.node? sound ▸ stands.nested
  listed := stands.listed
  kept := stands.kept

theorem sources_perm (same : first.Relisted second) (sound : first.Sound) :
    (sources first root place).Perm (sources second root place) := by
  have back : second.Relisted first := ⟨same.nodes.symm, same.working.symm⟩
  have backSound := same.sound sound
  rw [List.perm_ext_iff_of_nodup (sources_nodup sound) (sources_nodup backSound)]
  intro names
  rw [sources, sources, List.mem_filter, List.mem_filter, mem_reached_depth sound,
    mem_reached_depth backSound, same.isFile sound]
  exact and_congr_left fun _ => ⟨open_of_relisted same sound, open_of_relisted back backSound⟩

/-- Discovery finds the same files in any order of the entries. -/
theorem files_perm (same : first.Relisted second) (sound : first.Sound) (root : Path) :
    (files first root).Perm (files second root) := by
  cases found : first.locate .follow root with
  | error refusal =>
    have foundSecond : second.locate .follow root = .error refusal := same.locate sound ▸ found
    rw [files, files, visits, visits, found, foundSecond]
    rfl
  | ok place =>
    have foundSecond : second.locate .follow root = .ok place := same.locate sound ▸ found
    by_cases directory : first.isDirectoryAt place = true
    · rw [files_eq_map sound found directory, files_eq_map (same.sound sound) foundSecond
        (same.isDirectoryAt sound ▸ directory)]
      exact (sources_perm same sound).map _
    · have directorySecond : ¬ second.isDirectoryAt place = true := same.isDirectoryAt sound ▸ directory
      rw [files, files, visits, visits, found, foundSecond]
      simp only [directory, directorySecond, Bool.false_eq_true, ↓reduceIte, List.filterMap_cons, file?,
        same.isFile sound]
      rfl

/-- No name that the walk could meet below a root holds this byte. -/
def FreeBelow (byte : UInt8) (store : Store) (root : Path) : Prop :=
  ∀ place, store.locate .follow root = .ok place →
    ∀ entry ∈ store.below place, ∀ name ∈ entry.1, byte ∉ name

theorem free_of_open {store : Store} {byte : UInt8} (sound : store.Sound)
    (free : FreeBelow byte store root) (found : store.locate .follow root = .ok place)
    {names : List Name} (stands : Open store root place names) : ∀ name ∈ names, byte ∉ name := by
  obtain ⟨node, held⟩ := stands.exists_node
  have member := (Store.mem_nodes_iff sound).mpr ⟨by simp [stands.further], held⟩
  exact free place found _ (Store.mem_below.mpr ⟨stands.further, member⟩)

private theorem encode_inj_on {names others : List Name}
    (plain : ∀ name ∈ names, Text.Escaped.backslash ∉ name)
    (othersPlain : ∀ name ∈ others, Text.Escaped.backslash ∉ name)
    (same : names.map Text.Escaped.encode = others.map Text.Escaped.encode) : names = others := by
  induction names generalizing others with
  | nil => exact (List.map_eq_nil_iff.mp same.symm).symm
  | cons name names ih =>
    cases others with
    | nil => cases same
    | cons other others =>
      obtain ⟨head, tail⟩ := List.forall_mem_cons.mp plain
      obtain ⟨otherHead, otherTail⟩ := List.forall_mem_cons.mp othersPlain
      obtain ⟨first, rest⟩ := List.cons.inj same
      rw [Text.Escaped.encode_inj head otherHead first, ih tail otherTail rest]

theorem headings_nodup {store : Store} (sound : store.Sound)
    (plain : FreeBelow Text.Escaped.backslash store root) :
    ((files store root).map SourceFile.heading).Nodup := by
  cases found : store.locate .follow root with
  | error refusal =>
    rw [files, visits, found]
    exact List.nodup_nil
  | ok place =>
    by_cases directory : store.isDirectoryAt place = true
    · rw [files_eq_map sound found directory, List.map_map]
      refine (List.nodup_map_iff_inj_on (sources_nodup sound)).mpr ?_
      intro names member others otherMember same
      have stands := open_of_source sound member
      have otherStands := open_of_source sound otherMember
      have written := (heading_eq_iff (stands.named sound) (otherStands.named sound) stands.further
        otherStands.further).mp same
      exact encode_inj_on (free_of_open sound plain found stands)
        (free_of_open sound plain found otherStands) written
    · rw [files, visits, found]
      simp only [directory, Bool.false_eq_true, ↓reduceIte, List.filterMap_cons]
      cases file? store root (.found root) <;> simp

end Discovery

namespace Index

theorem records_perm (store : Store) (files : List SourceFile) :
    (records store files).Perm
      (files.map fun file => ⟨file.heading, headerSnippet store file.location⟩) :=
  List.mergeSort_perm ..

/-- Sorted records with different paths ascend strictly. -/
theorem records_ascending {store : Store} {files : List SourceFile}
    (distinct : (files.map SourceFile.heading).Nodup) :
    (records store files).Pairwise fun first second =>
      Utf8.compareText first.path second.path = .lt := by
  have sorted : (records store files).Pairwise fun first second =>
      (Utf8.compareText first.path second.path).isLE = true := by
    refine List.pairwise_mergeSort ?_ ?_ _
    · exact fun _ _ _ => Utf8.compareText_trans
    · exact fun first second => Utf8.compareText_total first.path second.path
  have apart : ((records store files).map Record.path).Nodup := by
    refine ((records_perm store files).map Record.path).nodup_iff.mpr ?_
    rwa [List.map_map]
  refine (sorted.and (List.pairwise_map.mp apart)).imp ?_
  rintro first second ⟨least, different⟩
  rcases Ordering.isLE_iff_eq_lt_or_eq_eq.mp least with before | same
  · exact before
  · exact absurd (Std.LawfulEqCmp.eq_of_compare same) different

/-- What is said of a file does not depend on the order of the entries. -/
theorem headerSnippet_relisted {first second : Store} (same : first.Relisted second)
    (sound : first.Sound) (path : Path) : headerSnippet first path = headerSnippet second path := by
  rw [headerSnippet, headerSnippet, snippetOf, snippetOf, same.read sound]

/-- Records that ascend strictly are known by what they are, not by how they were found. -/
private theorem eq_of_ascending {first second : List Record} (perm : first.Perm second)
    (ascends : first.Pairwise fun record next => Utf8.compareText record.path next.path = .lt)
    (ascendsToo : second.Pairwise fun record next => Utf8.compareText record.path next.path = .lt) :
    first = second := by
  refine perm.eq_of_pairwise ?_ ascends ascendsToo
  intro record next _ _ before after
  exact absurd after (Std.OrientedCmp.not_lt_of_lt before)

/-- The index is one list of records whatever order the directories give their entries in:
one record for each discovered file, in strictly ascending order of paths. -/
theorem ofRoot_relisted {first second : Store} {root : Path} (sound : first.Sound)
    (same : first.Relisted second) (plain : Discovery.FreeBelow Text.Escaped.backslash first root) :
    ofRoot first root = ofRoot second root ∧
      (ofRoot first root).Perm ((Discovery.files first root).map fun file =>
        ⟨file.heading, headerSnippet first file.location⟩) ∧
      (ofRoot first root).Pairwise fun record next => Utf8.compareText record.path next.path = .lt := by
  have files := Discovery.files_perm same sound root
  have distinct := Discovery.headings_nodup sound plain
  have distinctToo := (files.map SourceFile.heading).nodup_iff.mp distinct
  have snippets := funext (headerSnippet_relisted same sound)
  have ascends : (ofRoot first root).Pairwise _ := records_ascending distinct
  have ascendsToo : (ofRoot second root).Pairwise _ := records_ascending distinctToo
  have perm : (ofRoot first root).Perm (ofRoot second root) := by
    refine (records_perm first _).trans ((files.map _).trans ?_)
    rw [snippets]
    exact (records_perm second _).symm
  exact ⟨eq_of_ascending perm ascends ascendsToo, records_perm first _, ascends⟩

/-- The sample with its entries given backwards. -/
def backwards : Store := { Discovery.sample with nodes := Discovery.sample.nodes.reverse }

private theorem sample_plain :
    Discovery.FreeBelow Text.Escaped.backslash Discovery.sample (.ofString ".") := by
  intro place found
  obtain rfl : [] = place := Except.ok.inj found
  decide

theorem ofRoot_relisted_sample :
    Discovery.sample.Sound ∧ Discovery.sample.Relisted backwards ∧
      Discovery.FreeBelow Text.Escaped.backslash Discovery.sample (.ofString ".") ∧
      ofRoot Discovery.sample (.ofString ".") = ofRoot backwards (.ofString ".") := by
  have sound : Discovery.sample.Sound := by decide
  have same : Discovery.sample.Relisted backwards := ⟨(List.reverse_perm _).symm, rfl⟩
  exact ⟨sound, same, sample_plain, (ofRoot_relisted sound same sample_plain).1⟩

end Index
end SourceIndex
