import SourceIndex.Proofs.ListingOrder

/-! The index depends on the directory and not on how it is spelled. Two roots that lead to one
directory have no location in common, but below them a path leads where its names lead on from
that directory (`locate_withinLimits`), and headings, ignored names and extensions are read off
the names. What a spelling can use up is length and links, so the limits of the system are the
only way in which it could show (`ofRoot_respelled`). -/
namespace SourceIndex

namespace Store

/-- A walk below a root that leads to `place` meets no limit of the system: nothing that it
visits is too long to be spelled, and the links on the way from the root to anything it visits
are not more than the root leaves of those that may be taken. -/
structure WithinLimits (store : Store) (root : Path) (place : Place) : Prop where
  short : ∀ entry ∈ store.below place, (∀ name ∈ entry.1, Discovery.isIgnored name = false) →
    (root.under entry.1).bytes.length ≤ maxPath
  links : ∀ left, Follows store maxLinks (store.origin root) root.steps left place →
    ∀ entry ∈ store.below place, (∀ name ∈ entry.1, Discovery.isIgnored name = false) →
      ∀ given rest goal, Follows store given place (entry.1.map .name) rest goal →
        given - rest ≤ left

variable {store : Store} {root first second : Path} {place : Place}

/-- Within the limits a path below the root leads where its names lead on from the root, with
any number of links. -/
theorem locate_withinLimits (sound : store.Sound) (found : store.locate .follow root = .ok place)
    (limits : store.WithinLimits root place) {names : List Name} {node : Node} (further : names ≠ [])
    (held : store.node? (place ++ names) = some node)
    (kept : ∀ name ∈ names, Discovery.isIgnored name = false) {goal : Place} :
    store.locate .follow (root.under names) = .ok goal ↔
      ∃ given rest, Follows store given place (names.map .name) rest goal := by
  obtain ⟨clean, spelled, _, left, way⟩ := locate_follow_iff.mp found
  have named : ∀ name ∈ names, IsName name := fun name member =>
    isName_of_node sound held name (List.mem_append_right place member)
  have entry : (names, node) ∈ store.below place :=
    mem_below.mpr ⟨further, (mem_nodes_iff sound).mpr ⟨by simp [further], held⟩⟩
  rw [locate_under_iff clean spelled way named further]
  constructor
  · rintro ⟨_, rest, onward⟩
    exact ⟨left, rest, onward⟩
  · rintro ⟨given, rest, onward⟩
    have enough := limits.links left way _ entry kept given rest goal onward
    have spared := onward.spared (left - (given - rest))
    rw [Nat.add_sub_cancel' enough] at spared
    exact ⟨limits.short _ entry kept, _, spared⟩

/-- Paths that lead to the same places pass for the same files. -/
theorem isFile_of_locate (same : ∀ goal, store.locate .follow first = .ok goal ↔
    store.locate .follow second = .ok goal) : store.isFile first = store.isFile second := by
  rw [isFile, isFile, inspect, inspect]
  cases leads : store.locate .follow first with
  | ok goal => rw [(same goal).mp leads]
  | error refusal =>
    cases other : store.locate .follow second with
    | ok goal => rw [(same goal).mpr other] at leads; cases leads
    | error refusal => rfl

end Store

/-- Paths that lead to the same places have the same snippet; why one cannot be read is no
matter. -/
theorem Index.headerSnippet_of_locate {store : Store} {first second : Path}
    (same : ∀ goal, store.locate .follow first = .ok goal ↔
      store.locate .follow second = .ok goal) :
    headerSnippet store first = headerSnippet store second := by
  rw [headerSnippet, headerSnippet, snippetOf, snippetOf, Store.read, Store.read, Store.inspect,
    Store.inspect]
  cases leads : store.locate .follow first with
  | ok goal => rw [(same goal).mp leads]
  | error refusal =>
    cases other : store.locate .follow second with
    | ok goal => rw [(same goal).mpr other] at leads; cases leads
    | error refusal => rfl

namespace Discovery

variable {store : Store} {first second : Path} {place : Place} {levels : Nat}

/-- Every directory that a walk enters can be listed. -/
def Listable (store : Store) (path : Path) (place : Place) : Prop :=
  ∀ names, (∀ name ∈ names, isIgnored name = false) →
    store.node? (place ++ names) = some .directory →
      (path.under names).bytes.length ≤ Store.maxPath

theorem Listable.child {path : Path} {name : Name} (listable : Listable store path place)
    (kept : isIgnored name = false) : Listable store (path.child name) (place ++ [name]) := by
  intro names keptBelow stands
  refine listable (name :: names) (List.forall_mem_cons.mpr ⟨kept, keptBelow⟩) ?_
  simpa using stands

theorem listable_of_withinLimits (sound : store.Sound) {root : Path}
    (found : store.locate .follow root = .ok place) (limits : store.WithinLimits root place) :
    Listable store root place := by
  intro names kept stands
  by_cases top : names = []
  · rw [top]
    exact (Store.locate_follow_iff.mp found).2.2.1
  · have member := (Store.mem_nodes_iff sound).mpr ⟨by simp [top], stands⟩
    exact limits.short _ (Store.mem_below.mpr ⟨top, member⟩) kept

/-- Where every directory can be listed, the walk goes by names alone. -/
theorem reached_respelled (sound : store.Sound) (stands : store.node? place = some .directory)
    (listable : Listable store first place) (listableToo : Listable store second place) :
    reached store levels first place = reached store levels second place := by
  induction levels generalizing first second place with
  | zero => rfl
  | succ levels ih =>
    have short : first.bytes.length ≤ Store.maxPath :=
      listable [] (by simp) (by simpa using stands)
    have shortToo : second.bytes.length ≤ Store.maxPath :=
      listableToo [] (by simp) (by simpa using stands)
    rw [reached, reached, if_neg (Nat.not_lt.mpr short), if_neg (Nat.not_lt.mpr shortToo)]
    apply List.flatMap_congr
    rintro ⟨name, node⟩ member
    have held := ((Store.mem_nodes_iff sound).mp (Store.mem_entries.mp member)).2
    dsimp only
    by_cases ignored : isIgnored name = true
    · rw [if_pos ignored, if_pos ignored]
    rw [if_neg ignored, if_neg ignored]
    by_cases directory : node = .directory
    · have kept := eq_false_of_ne_true ignored
      rw [if_pos directory, if_pos directory,
        ih (directory ▸ held) (listable.child kept) (listableToo.child kept)]
    · rw [if_neg directory, if_neg directory]

section
variable (sound : store.Sound) (found : store.locate .follow first = .ok place)
  (foundToo : store.locate .follow second = .ok place)
  (limits : store.WithinLimits first place) (limitsToo : store.WithinLimits second place)
include sound found foundToo limits limitsToo

/-- What the walk meets leads to the same places from both roots. -/
theorem locate_respelled {names : List Name} (stands : Open store first place names) (goal : Place) :
    store.locate .follow (first.under names) = .ok goal ↔
      store.locate .follow (second.under names) = .ok goal := by
  obtain ⟨node, held⟩ := stands.exists_node
  rw [Store.locate_withinLimits sound found limits stands.further held stands.kept,
    Store.locate_withinLimits sound foundToo limitsToo stands.further held stands.kept]

/-- Both roots have the same sources, in the same order. -/
theorem sources_respelled (directory : store.isDirectoryAt place = true) :
    sources store first place = sources store second place := by
  have stands := Store.isDirectoryAt_iff.mp directory
  have spelled := (Store.locate_follow_iff.mp found).2.1
  have spelledToo := (Store.locate_follow_iff.mp foundToo).2.1
  rw [sources, sources, reached_respelled sound stands (listable_of_withinLimits sound found limits)
    (listable_of_withinLimits sound foundToo limitsToo)]
  apply List.filter_congr
  intro names member
  rw [← reached_respelled sound stands (listable_of_withinLimits sound found limits)
    (listable_of_withinLimits sound foundToo limitsToo)] at member
  have opens := (mem_reached_depth sound).mp member
  have named := opens.named sound
  have files := Store.isFile_of_locate (locate_respelled sound found foundToo limits limitsToo opens)
  obtain ⟨before, last, rfl⟩ := (List.eq_nil_or_concat names).resolve_left opens.further
  rw [List.concat_eq_append] at named files ⊢
  rw [files, Bool.eq_iff_iff.mpr ((isIndexed_iff spelled named).trans (isIndexed_iff spelledToo named).symm)]

end

end Discovery

namespace Index

open Discovery (sources fileOf)

/-- The index is one and the same for all spellings of a directory: relative or absolute, with
repeated or trailing slashes, over `.` and `..` or through links, as long as no limit of the
system is exceeded below any of them. -/
theorem ofRoot_respelled {store : Store} {first second : Path} {place : Place} (sound : store.Sound)
    (directory : store.isDirectoryAt place = true) (found : store.locate .follow first = .ok place)
    (foundToo : store.locate .follow second = .ok place) (limits : store.WithinLimits first place)
    (limitsToo : store.WithinLimits second place) : ofRoot store first = ofRoot store second := by
  have same := Discovery.sources_respelled sound found foundToo limits limitsToo directory
  have snippets : ∀ names ∈ sources store first place,
      headerSnippet store (first.under names) = headerSnippet store (second.under names) := by
    intro names member
    exact headerSnippet_of_locate (Discovery.locate_respelled sound found foundToo limits limitsToo
      (Discovery.open_of_source sound member))
  rw [ofRoot, ofRoot, Discovery.files_eq_map sound found directory,
    Discovery.files_eq_map sound foundToo directory, ← same, records, records, List.map_map,
    List.map_map]
  congr 1
  apply List.map_congr_left
  intro names member
  simp only [Function.comp_apply, fileOf, Record.ofFile, snippets names member]

/-- A directory with a file and a link to it, and a link to the directory. -/
def linked : Store where
  working := [Utf8.encode "work".toList]
  nodes := [([Utf8.encode "work".toList], .directory), ([Utf8.encode "lib".toList], .directory),
    ([Utf8.encode "lib".toList, Utf8.encode "b.js".toList], .link (.ofString "a.py")),
    ([Utf8.encode "lib".toList, Utf8.encode "a.py".toList], .file (Utf8.encode "# one".toList)),
    ([Utf8.encode "alias".toList], .link (.ofString "/lib"))]

private theorem linked_withinLimits {root : Path} {left : Nat}
    (way : Store.Follows linked Store.maxLinks (linked.origin root) root.steps left
      [Utf8.encode "lib".toList]) (enough : 1 ≤ left)
    (short : ∀ entry ∈ linked.below [Utf8.encode "lib".toList],
      (root.under entry.1).bytes.length ≤ Store.maxPath) :
    linked.WithinLimits root [Utf8.encode "lib".toList] := by
  have file : Store.Follows linked 1 [Utf8.encode "lib".toList]
      [.name (Utf8.encode "a.py".toList)] 1 [Utf8.encode "lib".toList, Utf8.encode "a.py".toList] :=
    .enter rfl (by decide) rfl (by simp) .done
  have link : Store.Follows linked 1 [Utf8.encode "lib".toList]
      [.name (Utf8.encode "b.js".toList)] 0 [Utf8.encode "lib".toList, Utf8.encode "a.py".toList] :=
    .link rfl (by decide) rfl (.enter rfl (by decide) rfl (by simp) .done)
  refine ⟨fun entry member _ => short entry member, ?_⟩
  intro other otherWay entry member _ given rest goal onward
  obtain ⟨rfl, _⟩ := way.unique otherWay
  have entries : linked.below [Utf8.encode "lib".toList] =
      [([Utf8.encode "b.js".toList], .link (.ofString "a.py")),
        ([Utf8.encode "a.py".toList], .file (Utf8.encode "# one".toList))] := by decide
  rw [entries] at member
  rcases List.mem_cons.mp member with rfl | last
  · rw [(onward.taken_eq link).1]
    exact enough
  · cases List.mem_singleton.mp last
    rw [(onward.taken_eq file).1]
    exact Nat.zero_le left

theorem ofRoot_respelled_linked :
    ofRoot linked (.ofString "../alias/") = ofRoot linked (.ofString "/work/..//lib/.") ∧
      (ofRoot linked (.ofString "../alias/")).Perm
        [⟨"b.js".toList, "# one".toList⟩, ⟨"a.py".toList, "# one".toList⟩] := by
  have relative : Store.Follows linked Store.maxLinks (linked.origin (.ofString "../alias/"))
      (Path.ofString "../alias/").steps 39 [Utf8.encode "lib".toList] :=
    .up rfl (.link rfl (by decide) rfl (.enter rfl (by decide) rfl (by simp) (.slash rfl .done)))
  have absolute : Store.Follows linked Store.maxLinks (linked.origin (.ofString "/work/..//lib/."))
      (Path.ofString "/work/..//lib/.").steps 40 [Utf8.encode "lib".toList] :=
    .enter rfl (by decide) rfl (by simp) (.up rfl (.enter rfl (by decide) rfl (by simp) (.here rfl .done)))
  have limits := linked_withinLimits relative (by decide) (by decide)
  have limitsToo := linked_withinLimits absolute (by decide) (by decide)
  have same := ofRoot_respelled (by decide) (by decide) rfl rfl limits limitsToo
  have listed : ((Discovery.files linked (.ofString "../alias/")).map fun file =>
      (⟨file.heading, headerSnippet linked file.location⟩ : Record)) =
        [⟨"b.js".toList, "# one".toList⟩, ⟨"a.py".toList, "# one".toList⟩] := by decide +kernel
  exact ⟨same, listed ▸ records_perm linked _⟩

end Index
end SourceIndex
