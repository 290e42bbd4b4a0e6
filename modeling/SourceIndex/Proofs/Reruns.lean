import SourceIndex.Proofs.IndexWriting
import SourceIndex.Proofs.SoundChanges
import SourceIndex.Proofs.WalkExtension

/-! A run that is repeated changes nothing. The first run leaves directories and one file that
were not there before (`Aftermath`); the second one walks over them, but directories are no
sources and the file is its output, so it finds the sources of the first run, in the same
order and with the same contents (`filesFor_again`, `headerSnippet_again`). It therefore
writes the same document over itself, and so does every run after it. -/
namespace SourceIndex

/-- Joining a path that consists of names adds these names. -/
theorem Path.components_join_names {base path : Path} {names : List Name} (spelled : base.bytes ≠ [])
    (named : path.components = names.map .name) :
    (base.join path).components = base.components ++ names.map .name := by
  have relative : path.isAbsolute = false := by
    apply eq_false_of_ne_true
    intro absolute
    rw [isAbsolute_iff, named] at absolute
    cases names <;> cases absolute
  have kept : (names.map Component.name).filter (· ≠ .here) = names.map .name := by
    apply List.filter_eq_self.mpr
    intro component member
    obtain ⟨name, _, rfl⟩ := List.mem_map.mp member
    rfl
  rw [components_join spelled relative, named, kept]

namespace Index

/-- What a run can leave that was not there: directories, and something at its target. -/
structure Aftermath (store : Store) (target : Place) (after : Store) : Prop where
  extended : Store.Extends store after
  others : ∀ place, place ≠ target → after.node? place = store.node? place ∨
    store.node? place = none ∧ after.node? place = some .directory
  noLink : ∀ link, after.node? target ≠ some (.link link)

theorem aftermath_of_write {store after : Store} {format : Format} {records : List Record}
    {path : Path} (done : write store format records path = (after, .ok ())) :
    ∃ target, after.locate .follow path = .ok target ∧ Aftermath store target after := by
  obtain ⟨opened, target, opens, _, _, filled⟩ := filled_of_write done
  have grown := makeParent_grown store path
  refine ⟨target, locate_of_filled opens filled, ?_, ?_, ?_⟩
  · exact (makeParent_extended store path).trans filled.extended
  · intro place other
    rw [filled.node_other other]
    cases there : store.node? place with
    | some node => exact .inl (grown.kept _ _ there)
    | none => exact (grown.fresh _ there).imp_right fun made => ⟨rfl, made⟩
  · intro link held
    rcases filled.node with file | ⟨device, other⟩
    · rw [file] at held
      cases held
    · rw [other] at held
      cases held

section
variable {store after : Store} {root output : Path} {place target : Place} {inner : List Name}

theorem Aftermath.plain (aftermath : Aftermath store target after) (plain : store.PlainAt place) :
    after.PlainAt place := by
  intro above link
  by_cases here : place ++ above = target
  · rw [here]
    exact aftermath.noLink link
  · rcases aftermath.others _ here with same | ⟨_, made⟩
    · rw [same]
      exact plain above link
    · simp [made]

/-- What a path below the root leads to in a sound tree without links, or why it leads nowhere,
is still so after a run. -/
theorem locate_again (sound : store.Sound) (found : store.locate .follow root = .ok place)
    (plain : store.PlainAt place) (extended : Store.Extends store after) {names : List Name}
    (stands : Discovery.Open store root place names) :
    after.locate .follow (root.under names) = store.locate .follow (root.under names) := by
  by_cases short : (root.under names).bytes.length ≤ Store.maxPath
  · have here : store.locate .follow (root.under names) = .ok (place ++ names) :=
      Store.locate_under found (stands.named sound) stands.nested stands.exists_node (plain names) short
    rw [here, Store.locate_kept extended.toKeeps here]
  · rw [Store.locate, Store.locate, Store.resolve, Store.resolve]
    simp [Nat.not_le.mp short]

theorem inspect_again (sound : store.Sound) (found : store.locate .follow root = .ok place)
    (plain : store.PlainAt place) (aftermath : Aftermath store target after) {names : List Name}
    (stands : Discovery.Open store root place names) (other : place ++ names ≠ target) :
    after.inspect .follow (root.under names) = store.inspect .follow (root.under names) := by
  rw [Store.inspect, Store.inspect, locate_again sound found plain aftermath.extended stands]
  cases leads : store.locate .follow (root.under names) with
  | error refusal => rfl
  | ok goal =>
    have spelled := place_of_names found plain (stands.named sound) leads
    obtain ⟨node, held⟩ := stands.exists_node
    have same : after.node? goal = store.node? goal := by
      rw [spelled]
      apply (aftermath.others _ other).resolve_right
      intro fresh
      rw [held] at fresh
      cases fresh.1
    dsimp only
    rw [same]

/-- The file of some names below the root, unless the index goes there. -/
def kept? (store : Store) (root output : Path) (names : List Name) : Option SourceFile :=
  (Discovery.file? store root (.found (root.under names))).filter
    fun file => ¬ file.location.Same output

theorem filesFor_eq (found : store.locate .follow root = .ok place)
    (directory : store.isDirectoryAt place = true) : filesFor store root output =
      (Discovery.reached store (store.depth + 1) root place).filterMap (kept? store root output) := by
  rw [filesFor, Discovery.files_eq found directory, List.filter_filterMap]
  rfl

theorem kept?_output {names : List Name} (same : (root.under names).Same output) :
    kept? store root output names = none := by
  rw [kept?, Discovery.file?, Option.filter_eq_none_iff]
  intro file found
  split at found
  · cases found
    rw [Bool.not_eq_true, decide_eq_false_iff_not, not_not]
    exact same
  · cases found

theorem kept?_directory {names : List Name} (found : store.locate .follow root = .ok place)
    (plain : store.PlainAt place) (named : ∀ name ∈ names, IsName name) (made : store.node? (place ++ names) = some .directory) :
    kept? store root output names = none := by
  have noFile : store.isFile (root.under names) = false := by
    rw [Store.isFile, Store.inspect]
    cases leads : store.locate .follow (root.under names) with
    | error refusal => rfl
    | ok goal =>
      rw [place_of_names found plain named leads]
      simp [made]
  simp [kept?, Discovery.file?, noFile]

/-- Names lead to a source after a run just if they were there before it and led to one. -/
theorem kept?_again (sound : store.Sound) (soundAfter : after.Sound)
    (found : store.locate .follow root = .ok place) (plain : store.PlainAt place)
    (aftermath : Aftermath store (place ++ inner) after)
    (below : output.components = root.components ++ inner.map .name) {names : List Name}
    (opens : Discovery.Open after root place names)
    (stood : (store.node? (place ++ names)).isSome = true → Discovery.Open store root place names) :
    kept? after root output names =
      if (store.node? (place ++ names)).isSome then kept? store root output names else none := by
  have spelled := (Store.locate_follow_iff.mp found).2.1
  have foundAfter := Store.locate_kept aftermath.extended.toKeeps found
  have named := opens.named soundAfter
  by_cases last : names = inner
  · have isOutput : (root.under names).Same output := by
      rw [Path.Same, Path.components_under spelled named, below, last]
    rw [kept?_output isOutput, kept?_output isOutput, ite_self]
  have other : place ++ names ≠ place ++ inner := by simpa using last
  cases there : store.node? (place ++ names) with
  | none =>
    have made : after.node? (place ++ names) = some .directory := by
      rcases aftermath.others _ other with same | ⟨_, made⟩
      · obtain ⟨node, held⟩ := opens.exists_node
        rw [same, there] at held
        cases held
      · exact made
    exact kept?_directory foundAfter (aftermath.plain plain) named made
  | some node =>
    have stands := stood (by rw [there]; rfl)
    have same := inspect_again sound found plain aftermath stands other
    simp [kept?, Discovery.file?, Store.isFile, same]

/-- After a run the sources are what they were, in the same order. -/
theorem filesFor_again (sound : store.Sound) (soundAfter : after.Sound)
    (found : store.locate .follow root = .ok place) (directory : store.isDirectoryAt place = true)
    (plain : store.PlainAt place) (aftermath : Aftermath store (place ++ inner) after)
    (below : output.components = root.components ++ inner.map .name) :
    filesFor after root output = filesFor store root output := by
  have foundAfter := Store.locate_kept aftermath.extended.toKeeps found
  have stands := Store.isDirectoryAt_iff.mp directory
  have directoryAfter := Store.isDirectoryAt_iff.mpr (aftermath.extended.directory stands)
  -- Both walks are taken so deep that they meet everything.
  have deep := Nat.lt_succ_of_le (Nat.le_max_left store.depth after.depth)
  have deepAfter := Nat.lt_succ_of_le (Nat.le_max_right store.depth after.depth)
  generalize (max store.depth after.depth).succ = levels at deep deepAfter
  have walk : (Discovery.reached after levels root place).filter (fun names =>
      decide (names.length ≤ levels) && (store.node? (place ++ names)).isSome) =
        Discovery.reached store levels root place :=
    Discovery.reached_extended sound aftermath.extended (Nat.le_refl _)
  rw [filesFor_eq found directory, filesFor_eq foundAfter directoryAfter,
    ← Discovery.reached_deep sound deep, ← Discovery.reached_deep soundAfter deepAfter, ← walk,
    List.filterMap_filter]
  apply List.filterMap_congr
  intro names member
  obtain ⟨opens, short⟩ := (Discovery.mem_reached soundAfter).mp member
  have stood : (store.node? (place ++ names)).isSome = true →
      Discovery.Open store root place names := by
    intro there
    have before : names ∈ Discovery.reached store levels root place := by
      rw [← walk]
      exact List.mem_filter.mpr ⟨member, by simp [there, short]⟩
    exact ((Discovery.mem_reached sound).mp before).1
  rw [kept?_again sound soundAfter found plain aftermath below opens stood]
  simp [short]

theorem headerSnippet_again (sound : store.Sound) (found : store.locate .follow root = .ok place)
    (directory : store.isDirectoryAt place = true) (plain : store.PlainAt place)
    (aftermath : Aftermath store (place ++ inner) after)
    (below : output.components = root.components ++ inner.map .name) {file : SourceFile}
    (member : file ∈ filesFor store root output) :
    headerSnippet after file.location = headerSnippet store file.location := by
  obtain ⟨source, different⟩ := mem_filesFor.mp member
  rw [same_iff sound found directory source] at different
  obtain ⟨names, stands, rfl, read⟩ := Discovery.names_of_file sound found directory source
  rw [read] at different
  have other : place ++ names ≠ place ++ inner := by
    intro same
    rw [List.append_cancel_left same] at different
    exact different below
  have same := inspect_again sound found plain aftermath stands other
  rw [headerSnippet, headerSnippet, snippetOf, snippetOf, Store.read, Store.read, Discovery.fileOf, same]

end

/-- The second run does again what the first one did. -/
theorem scanAndWrite_again {store after : Store} {root output : Path} {names : List Name}
    {format : Format} {count : Nat} (sound : store.Sound) (linkFree : store.LinkFree root)
    (directory : store.isDirectory root = true)
    (below : output.components = root.components ++ names.map .name)
    (ran : scanAndWrite store root output format = (after, .ok count)) :
    scanAndWrite after root output format = (after, .ok count) := by
  obtain ⟨place, found, stands⟩ := Store.isDirectory_iff.mp directory
  have plain := plain_of_linkFree sound found stands linkFree
  obtain ⟨wrote, counted⟩ := scanAndWrite_ok ran
  have soundAfter := write_sound sound format (records store (filesFor store root output)) output
  rw [wrote] at soundAfter
  obtain ⟨target, leads, aftermath⟩ := aftermath_of_write wrote
  have foundAfter := Store.locate_kept aftermath.extended.toKeeps found
  obtain ⟨_, _, follows⟩ := Store.follows_below below foundAfter leads
  obtain rfl : target = place ++ names :=
    Store.goal_of_plain follows fun above _ => aftermath.plain plain above
  have files := filesFor_again sound soundAfter found stands plain aftermath below
  have same : records after (filesFor after root output) =
      records store (filesFor store root output) := by
    rw [files, records, records]
    congr 1
    apply List.map_congr_left
    intro file member
    rw [headerSnippet_again sound found stands plain aftermath below member]
  rw [scanAndWrite, same, write_again wrote, counted]

/-- The store after some more runs with the same arguments. -/
def rerun (root output : Path) (format : Format) : (runs : Nat) → Store → Store
  | 0, store => store
  | runs + 1, store => rerun root output format runs (scanAndWrite store root output format).1

/-- Runs are repeatable to the byte: in a tree without links, once an output that is spelled by
names below the root was written, every further run counts the same records and leaves the
same bytes in it, and in fact the same store. -/
theorem rerun_identical {store after : Store} {root rel : Path} {names : List Name} {format : Format}
    {count : Nat} {content : Bytes} (sound : store.Sound) (linkFree : store.LinkFree root)
    (directory : store.isDirectory root = true) (named : rel.components = names.map .name)
    (ran : scanAndWrite store root (root.join rel) format = (after, .ok count))
    (left : after.read (root.join rel) = .ok content) (runs : Nat) :
    ∃ last, scanAndWrite (rerun root (root.join rel) format runs after) root (root.join rel) format =
      (last, .ok count) ∧ last.read (root.join rel) = .ok content ∧ last = after := by
  obtain ⟨place, found, _⟩ := Store.isDirectory_iff.mp directory
  have spelled := (Store.locate_follow_iff.mp found).2.1
  have below := Path.components_join_names spelled named
  have again := scanAndWrite_again sound linkFree directory below ran
  have settled : rerun root (root.join rel) format runs after = after := by
    induction runs with
    | zero => rfl
    | succ runs ih => rw [rerun, again, ih]
  exact ⟨after, by rw [settled, again], left, rfl⟩

/-- A directory with one source file and no place yet for an index. -/
def bare : Store where
  working := []
  nodes := [([Utf8.encode "a.py".toList], .file (Utf8.encode "# one".toList))]

private theorem bare_linkFree : bare.LinkFree (.ofString ".") := by
  intro place found
  obtain rfl : [] = place := Except.ok.inj found
  intro entry member target
  revert entry
  simp [bare, Store.below, Store.onward?]

theorem rerun_identical_bare : ∃ after last,
    scanAndWrite bare (.ofString ".") (.join (.ofString ".") (.ofString "sub/index.html")) .markdown =
      (after, .ok 1) ∧
    scanAndWrite (rerun (.ofString ".") (.join (.ofString ".") (.ofString "sub/index.html")) .markdown
        3 after) (.ofString ".") (.join (.ofString ".") (.ofString "sub/index.html")) .markdown =
      (last, .ok 1) ∧
    last.read (.join (.ofString ".") (.ofString "sub/index.html")) =
      .ok (Document.bytes .markdown [⟨"a.py".toList, "# one".toList⟩]) := by
  have sound : bare.Sound := by decide
  have directory : bare.isDirectory (.ofString ".") = true := by decide
  have named : (Path.ofString "sub/index.html").components =
      [Utf8.encode "sub".toList, Utf8.encode "index.html".toList].map .name := by decide
  rcases wrote : scanAndWrite bare (.ofString ".")
    (.join (.ofString ".") (.ofString "sub/index.html")) .markdown with ⟨after, answer⟩
  have counted : (scanAndWrite bare (.ofString ".")
      (.join (.ofString ".") (.ofString "sub/index.html")) .markdown).2 = .ok 1 := by decide +kernel
  have left : (scanAndWrite bare (.ofString ".")
      (.join (.ofString ".") (.ofString "sub/index.html")) .markdown).1.read
        (.join (.ofString ".") (.ofString "sub/index.html")) =
      .ok (Document.bytes .markdown [⟨"a.py".toList, "# one".toList⟩]) := by decide +kernel
  rw [wrote] at counted left
  cases counted
  obtain ⟨last, again, reads, _⟩ :=
    rerun_identical sound bare_linkFree directory named wrote left 3
  exact ⟨after, last, rfl, again, reads⟩

end Index
end SourceIndex
