import SourceIndex.Proofs.DiscoveryWalk
import SourceIndex.Proofs.IndexedExtensions

/-! What discovery finds, said without the walk. `Source` describes a source file by the
names that lead to it from the root; the files are those, each once, whatever the order of
the entries and whatever else lies about (`files_exact`). -/
namespace SourceIndex.Discovery

variable {store : Store} {root : Path} {place : Place}

/-- The names of a source file below a root that leads to `place`: all but the last are real
directories, none is left out, and with links followed they end at a regular file. -/
structure Source (store : Store) (root : Path) (place : Place) (names : List Name) : Prop where
  further : names ≠ []
  named : ∀ name ∈ names, IsName name
  nested : ∀ above, above <+: names → above ≠ names → store.node? (place ++ above) = some .directory
  kept : ∀ name ∈ names, name ≠ Utf8.encode "node_modules".toList ∧ name ≠ Utf8.encode ".git".toList
  regular : store.isFile (root.under names) = true
  indexed : ∀ name, names.getLast? = some name → HasIndexedExtension name

/-- The file that some names below the root stand for. -/
def fileOf (root : Path) (names : List Name) : SourceFile :=
  ⟨Text.join ['/'] (names.map Text.Escaped.encode), root.under names⟩

/-- The names of the files, in the order of the walk. -/
def sources (store : Store) (root : Path) (place : Place) : List (List Name) :=
  (reached store (store.depth + 1) root place).filter fun names =>
    (SourceFile.ofLocation root (root.under names)).isIndexed && store.isFile (root.under names)

private theorem kept_iff {name : Name} : isIgnored name = false ↔
    name ≠ Utf8.encode "node_modules".toList ∧ name ≠ Utf8.encode ".git".toList := by
  simp [isIgnored, ignoredNames]

/-- Everything on an open way has a name. -/
theorem Open.named (sound : store.Sound) {names : List Name} (stands : Open store root place names) :
    ∀ name ∈ names, IsName name := by
  obtain ⟨node, held⟩ := stands.exists_node
  intro name member
  exact Store.isName_of_node sound held name (List.mem_append_right place member)

/-- A regular file has a node at its place, be it a link to the file. -/
private theorem exists_of_isFile {names : List Name} (found : store.locate .follow root = .ok place)
    (further : names ≠ []) (named : ∀ name ∈ names, IsName name)
    (nested : ∀ above, above <+: names → above ≠ names → store.node? (place ++ above) = some .directory)
    (regular : store.isFile (root.under names) = true) :
    ∃ node, store.node? (place ++ names) = some node := by
  rw [Store.isFile, Store.inspect] at regular
  cases reached : store.locate .follow (root.under names) with
  | error refusal => simp [reached] at regular
  | ok goal =>
    have spelled := (Store.locate_follow_iff.mp found).2.1
    obtain ⟨_, _, follows⟩ := Store.follows_below (Path.components_under spelled named) found reached
    exact Store.exists_of_follows follows further nested

theorem mem_sources (sound : store.Sound) (found : store.locate .follow root = .ok place)
    (short : ∀ entry ∈ store.below place, (root.under entry.1).bytes.length ≤ Store.maxPath)
    {names : List Name} : names ∈ sources store root place ↔ Source store root place names := by
  obtain ⟨_, spelled, rootShort, _⟩ := Store.locate_follow_iff.mp found
  rw [sources, List.mem_filter, mem_reached_depth sound, Bool.and_eq_true]
  constructor
  · rintro ⟨stands, indexed, regular⟩
    have named := stands.named sound
    refine ⟨stands.further, named, stands.nested, ?_, regular, ?_⟩
    · exact fun name member => kept_iff.mp (stands.kept name member)
    · intro name last
      obtain ⟨before, rfl⟩ := List.getLast?_eq_some_iff.mp last
      exact (isIndexed_iff spelled named).mp indexed
  · intro source
    refine ⟨⟨source.further, ?_, source.nested, ?_, ?_⟩, ?_, source.regular⟩
    · exact exists_of_isFile found source.further source.named source.nested source.regular
    · intro above inside strict
      by_cases top : above = []
      · subst top
        exact rootShort
      · have held := source.nested above inside strict
        have member := (Store.mem_nodes_iff sound).mpr ⟨by simp [top], held⟩
        exact short _ (Store.mem_below.mpr ⟨top, member⟩)
    · exact fun name member => kept_iff.mpr (source.kept name member)
    · obtain ⟨before, last, rfl⟩ := (List.eq_nil_or_concat names).resolve_left source.further
      rw [List.concat_eq_append] at source ⊢
      exact (isIndexed_iff spelled source.named).mpr (source.indexed last (by simp))

theorem open_of_source (sound : store.Sound) {names : List Name}
    (member : names ∈ sources store root place) : Open store root place names :=
  (mem_reached_depth sound).mp (List.mem_filter.mp member).1

theorem sources_nodup (sound : store.Sound) : (sources store root place).Nodup :=
  (reached_nodup sound).filter _

/-- The files are made of their names. -/
theorem files_eq_map (sound : store.Sound) (found : store.locate .follow root = .ok place)
    (directory : store.isDirectoryAt place = true) :
    files store root = (sources store root place).map (fileOf root) := by
  have spelled := (Store.locate_follow_iff.mp found).2.1
  rw [files_eq found directory, sources, ← List.filterMap_eq_map', List.filterMap_filter]
  refine List.filterMap_congr fun names member => ?_
  have named := Open.named sound ((mem_reached_depth sound).mp member)
  rw [file?, fileOf, ← Path.relativeName_under spelled named]
  rfl

/-- Every file lies where its names lead, and they can be read off its location. -/
theorem names_of_file (sound : store.Sound) (found : store.locate .follow root = .ok place)
    (directory : store.isDirectoryAt place = true) {file : SourceFile}
    (member : file ∈ files store root) :
    ∃ names, Open store root place names ∧ file = fileOf root names ∧
      root.namesBelow file.location = names := by
  have spelled := (Store.locate_follow_iff.mp found).2.1
  rw [files_eq_map sound found directory] at member
  obtain ⟨names, source, rfl⟩ := List.mem_map.mp member
  have stands := open_of_source sound source
  exact ⟨names, stands, rfl, Path.namesBelow_under spelled (stands.named sound)⟩

/-- Discovery is exact: the files are the source files, each found once and called by the
written forms of its names. -/
theorem files_exact (sound : store.Sound) (found : store.locate .follow root = .ok place)
    (directory : store.isDirectoryAt place = true)
    (short : ∀ entry ∈ store.below place, (root.under entry.1).bytes.length ≤ Store.maxPath) :
    ∃ found : List (List Name), found.Nodup ∧
      (∀ names, names ∈ found ↔ Source store root place names) ∧
      files store root = found.map fun names =>
        ⟨Text.join ['/'] (names.map Text.Escaped.encode), root.under names⟩ :=
  ⟨sources store root place, sources_nodup sound, fun _ => mem_sources sound found short,
    files_eq_map sound found directory⟩

/-- A directory with a file, a link to it from below, and a directory that is left out. -/
def sample : Store where
  working := []
  nodes := [([Utf8.encode "lib".toList, Utf8.encode "copy.JS".toList], .link (.ofString "../a.py")),
    ([Utf8.encode "lib".toList], .directory),
    ([Utf8.encode ".git".toList, Utf8.encode "hook.py".toList], .file []),
    ([Utf8.encode ".git".toList], .directory),
    ([Utf8.encode "a.py".toList], .file [0x23])]

theorem files_exact_sample : sample.Sound ∧ sample.locate .follow (.ofString ".") = .ok [] ∧
    ∃ found : List (List Name), found.Nodup ∧
      (∀ names, names ∈ found ↔ Source sample (.ofString ".") [] names) ∧
      files sample (.ofString ".") = found.map fun names =>
        ⟨Text.join ['/'] (names.map Text.Escaped.encode), Path.under (.ofString ".") names⟩ :=
  ⟨by decide, rfl, files_exact (by decide) rfl (by decide) (by decide)⟩

example : (files sample (.ofString ".")).map SourceFile.heading =
    ["lib/copy.JS".toList, "a.py".toList] := by decide

end SourceIndex.Discovery
