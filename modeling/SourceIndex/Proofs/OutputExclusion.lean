import SourceIndex.Proofs.DiscoveryExactness
import SourceIndex.Proofs.StoreGrowth
import SourceIndex.Run

/-! Which runs index their own output. The output is kept out by comparing components, so it
is kept out when it is spelled as discovery spells it, by names below the root. A relative
output without `..` always is; other spellings of the same file are not recognised, and
`output_indexed_iff` says that in a tree without links there is nothing else to it. -/
namespace SourceIndex

/-- A spelling that leads on from a root by names only. -/
def Path.SpelledBelow (root output : Path) : Prop :=
  ∃ names : List Name, output.components = root.components ++ names.map .name

/-- No link lies anywhere below a root. -/
def Store.LinkFree (store : Store) (root : Path) : Prop :=
  ∀ place, store.locate .follow root = .ok place →
    ∀ entry ∈ store.below place, ∀ target, entry.2 ≠ .link target

/-- No link lies at a place or below it. -/
def Store.PlainAt (store : Store) (place : Place) : Prop :=
  ∀ names link, store.node? (place ++ names) ≠ some (.link link)

private theorem exists_names {components : List Component}
    (named : ∀ component ∈ components, ∃ name, component = .name name) :
    ∃ names : List Name, components = names.map .name := by
  induction components with
  | nil => exact ⟨[], rfl⟩
  | cons component components ih =>
    obtain ⟨⟨name, rfl⟩, tail⟩ := List.forall_mem_cons.mp named
    obtain ⟨names, rfl⟩ := ih tail
    exact ⟨name :: names, rfl⟩

/-- A relative output without `..` lies below the root by names only. -/
theorem Path.spelledBelow_of_relative {root output : Path} (spelled : root.bytes ≠ [])
    (relative : output.isAbsolute = false) (noUp : .up ∉ output.components) :
    SpelledBelow root (root.join output) := by
  obtain ⟨names, row⟩ : ∃ names : List Name,
      output.components.filter (· ≠ .here) = names.map .name := by
    refine exists_names fun component member => ?_
    have inside := (List.mem_filter.mp member).1
    rw [← filterMap_component? relative] at member
    obtain ⟨segment, _, found⟩ := List.mem_filterMap.mp member
    rcases component?_eq_some found with rfl | named
    · exact absurd inside noUp
    · exact named
  exact ⟨names, by rw [components_join spelled relative, row]⟩

namespace Index

/-- The file that an index goes to, with the store as it is when the file is open. -/
def Opens (store : Store) (output : Path) (opened : Store) (target : Place) : Prop :=
  (makeParent store output).2 = .ok () ∧
    (makeParent store output).1.openForWriting output = (opened, .ok target)

/-- The store after these records were written to an open file. -/
def stored (opened : Store) (target : Place) (format : Format) (records : List Record) : Store :=
  let (writer, _) :=
    Document.render format records (Writer.over (.block bufferSize) (opened.sinkAt target))
  opened.keep target writer.sink.written

theorem write_ok {store : Store} {format : Format} {records : List Record} {path : Path}
    (done : (write store format records path).2 = .ok ()) :
    ∃ opened target, Opens store path opened target ∧
      (write store format records path).1 = stored opened target format records := by
  rw [write] at done ⊢
  split at done
  · cases done
  rename_i made above
  dsimp only
  split at done
  · cases done
  rename_i opened target openedAt
  refine ⟨opened, target, ⟨by rw [above], by rw [above]; exact openedAt⟩, ?_⟩
  simp only [stored]
  split <;> rfl

/-- A file that was there before a run is what the output leads to when it is opened. -/
theorem locate_of_opens {store : Store} {output : Path} {opened : Store} {target : Place} {node : Node}
    (opens : Opens store output opened target) (there : store.node? target = some node) :
    (makeParent store output).1.locate .follow output = .ok target := by
  have grown := makeParent_grown store output
  have openedAt := opens.2
  rw [Store.openForWriting] at openedAt
  split at openedAt
  · rename_i place vacant
    cases openedAt
    have free := Store.free_of_resolve vacant
    rw [grown.kept _ _ there] at free
    cases free
  · rename_i place present
    have found := Store.locate_of_resolve (by decide) present
    split at openedAt <;> cases openedAt <;> exact found
  · cases openedAt

section
variable {store : Store} {root output : Path} {place : Place}

theorem mem_filesFor {file : SourceFile} : file ∈ filesFor store root output ↔
    file ∈ Discovery.files store root ∧ ¬ file.location.Same output := by
  simp [filesFor]

/-- The output is taken for a file exactly when it is spelled by the names of the file. -/
theorem same_iff (sound : store.Sound) (found : store.locate .follow root = .ok place)
    (directory : store.isDirectoryAt place = true) {file : SourceFile}
    (member : file ∈ Discovery.files store root) : file.location.Same output ↔
      output.components = root.components ++ (root.namesBelow file.location).map .name := by
  have spelled := (Store.locate_follow_iff.mp found).2.1
  obtain ⟨names, stands, rfl, read⟩ := Discovery.names_of_file sound found directory member
  rw [read, Path.Same, Discovery.fileOf, Path.components_under spelled (stands.named sound)]
  exact eq_comm

theorem plain_of_linkFree (sound : store.Sound) (found : store.locate .follow root = .ok place)
    (directory : store.isDirectoryAt place = true) (linkFree : store.LinkFree root) :
    store.PlainAt place := by
  intro names target held
  by_cases top : names = []
  · rw [top, List.append_nil, Store.isDirectoryAt_iff.mp directory] at held
    cases held
  · have member := (Store.mem_nodes_iff sound).mpr ⟨by simp [top], held⟩
    exact linkFree place found _ (Store.mem_below.mpr ⟨top, member⟩) target rfl

/-- Where no link is in the way, names below the root lead where they spell. -/
theorem place_of_names (found : store.locate .follow root = .ok place)
    (plain : store.PlainAt place) {names : List Name} (named : ∀ name ∈ names, IsName name) {goal : Place}
    (leads : store.locate .follow (root.under names) = .ok goal) : goal = place ++ names := by
  have spelled := (Store.locate_follow_iff.mp found).2.1
  have below := Path.components_under spelled named
  obtain ⟨_, _, follows⟩ := Store.follows_below below found leads
  exact Store.goal_of_plain follows fun above _ => plain above

/-- In a tree without links a file lies at its names. -/
theorem place_of_file (sound : store.Sound) (found : store.locate .follow root = .ok place)
    (directory : store.isDirectoryAt place = true) (linkFree : store.LinkFree root)
    {file : SourceFile} (member : file ∈ Discovery.files store root) {goal : Place}
    (leads : store.locate .follow file.location = .ok goal) :
    goal = place ++ root.namesBelow file.location := by
  obtain ⟨names, stands, rfl, read⟩ := Discovery.names_of_file sound found directory member
  rw [read]
  have plain := plain_of_linkFree sound found directory linkFree
  exact place_of_names found plain (stands.named sound) leads

/-- In a tree without links an output that is spelled below the root lies at its names, and
making the directories above it does not change that. -/
theorem target_of_spelledBelow (sound : store.Sound) (found : store.locate .follow root = .ok place)
    (directory : store.isDirectoryAt place = true) (linkFree : store.LinkFree root)
    {names : List Name} (below : output.components = root.components ++ names.map .name)
    {opened : Store} {target : Place} {node : Node} (opens : Opens store output opened target)
    (there : store.node? target = some node) : target = place ++ names := by
  have grown := makeParent_grown store output
  have reached := locate_of_opens opens there
  obtain ⟨_, _, follows⟩ := Store.follows_below below (Store.locate_kept grown.keeps found) reached
  refine Store.goal_of_plain follows fun above _ link held => ?_
  cases before : store.node? (place ++ above) with
  | none =>
    rcases grown.fresh _ before with free | made
    · rw [free] at held
      cases held
    · rw [made] at held
      cases held
  | some node =>
    rw [grown.kept _ _ before] at held
    exact plain_of_linkFree sound found directory linkFree above link (before.trans held)

end

end Index

/-- What a successful run in file mode has done. -/
theorem Run.file_ok {store : Store} {settings : CommandLine.Settings} {stdout : Sink Refusal}
    (fileMode : settings.stdout = false) (ended : (run store settings stdout).ending = .ok ()) :
    store.isDirectory settings.root = true ∧
      ∃ opened target, Index.Opens store (outputPath settings) opened target ∧
        (run store settings stdout).store = Index.stored opened target settings.format
          (Index.records store (Index.filesFor store settings.root (outputPath settings))) := by
  rw [run] at ended ⊢
  split at ended
  · cases ended
  rename_i directory
  rw [if_neg directory]
  simp only [fileMode, Bool.false_eq_true, ↓reduceIte] at ended ⊢
  refine ⟨by simpa using directory, ?_⟩
  rw [toFile] at ended ⊢
  split at ended
  · cases ended
  rename_i after count done
  rw [Index.scanAndWrite] at done
  split at done
  · rename_i written wrote
    cases done
    obtain ⟨opened, target, opens, same⟩ := Index.write_ok (by rw [wrote])
    refine ⟨opened, target, opens, ?_⟩
    rw [← same, wrote]
    dsimp only
    split
    · rfl
    · split <;> rfl
  · cases done

/-- Exactly when a run indexes the file that it writes to. A discovered file that the output
leads to is kept out when the output is spelled by the names of that file and in no other case;
in a tree without links that only asks whether the output is spelled below the root. -/
theorem Run.output_indexed_iff {store : Store} {settings : CommandLine.Settings} {stdout : Sink Refusal}
    (sound : store.Sound) (fileMode : settings.stdout = false)
    (ended : (run store settings stdout).ending = .ok ()) :
    ∃ opened target, Index.Opens store (outputPath settings) opened target ∧
      (run store settings stdout).store = Index.stored opened target settings.format
        (Index.records store (Index.filesFor store settings.root (outputPath settings))) ∧
      (∀ file ∈ Discovery.files store settings.root, store.locate .follow file.location = .ok target →
        (file ∈ Index.filesFor store settings.root (outputPath settings) ↔
          (outputPath settings).components ≠ settings.root.components ++
            (settings.root.namesBelow file.location).map .name)) ∧
      (store.LinkFree settings.root →
        ((∃ file ∈ Index.filesFor store settings.root (outputPath settings),
            store.locate .follow file.location = .ok target) ↔
          (∃ file ∈ Discovery.files store settings.root,
            store.locate .follow file.location = .ok target) ∧
          ¬ settings.root.SpelledBelow (outputPath settings))) ∧
      (settings.output.isAbsolute = false → .up ∉ settings.output.components →
        settings.root.SpelledBelow (outputPath settings)) := by
  obtain ⟨directory, opened, target, opens, stored⟩ := Run.file_ok fileMode ended
  obtain ⟨place, found, stands⟩ := Store.isDirectory_iff.mp directory
  have spelled := (Store.locate_follow_iff.mp found).2.1
  refine ⟨opened, target, opens, stored, ?_, ?_, ?_⟩
  · intro file member _
    rw [Index.mem_filesFor, Index.same_iff sound found stands member]
    exact and_iff_right member
  · intro linkFree
    constructor
    · rintro ⟨file, kept, leads⟩
      obtain ⟨member, different⟩ := Index.mem_filesFor.mp kept
      refine ⟨⟨file, member, leads⟩, ?_⟩
      rintro ⟨names, below⟩
      rw [Index.same_iff sound found stands member] at different
      obtain ⟨node, there⟩ := Store.node_of_isFile (Discovery.taken_of_mem member).2 leads
      have atFile := Index.place_of_file sound found stands linkFree member leads
      have atNames := Index.target_of_spelledBelow sound found stands linkFree below opens there
      have same := List.append_cancel_left (atFile.symm.trans atNames)
      exact different (same ▸ below)
    · rintro ⟨⟨file, member, leads⟩, elsewhere⟩
      refine ⟨file, Index.mem_filesFor.mpr ⟨member, ?_⟩, leads⟩
      rw [Index.same_iff sound found stands member]
      exact fun below => elsewhere ⟨_, below⟩
  · intro relative noUp
    rw [outputPath, relative]
    exact Path.spelledBelow_of_relative spelled relative noUp

namespace Run

/-- A directory that holds an earlier index and a directory to go around by. -/
def detour : Store where
  working := []
  nodes := [([Utf8.encode "sub".toList], .directory), ([Utf8.encode "index.html".toList], .file [])]

/-- Index the working directory into this output. -/
def into (output : String) : CommandLine.Settings where
  root := .ofString "."
  output := .ofString output
  format := .markdown
  stdout := false
  verbose := 0

private theorem detour_linkFree : detour.LinkFree (.ofString ".") := by
  intro place found
  obtain rfl : [] = place := Except.ok.inj found
  intro entry member target
  revert entry
  simp [detour, Store.below, Store.onward?]

theorem output_indexed_iff_plain :
    (run detour (into "index.html") (Sink.unlimited .noSpace)).ending = .ok () ∧
      ∃ opened target, Index.Opens detour (outputPath (into "index.html")) opened target ∧
        ¬ ∃ file ∈ Index.filesFor detour (into "index.html").root (outputPath (into "index.html")),
          detour.locate .follow file.location = .ok target := by
  have sound : detour.Sound := by decide
  have ended : (run detour (into "index.html") (Sink.unlimited .noSpace)).ending = .ok () := by
    decide +kernel
  obtain ⟨opened, target, opens, _, _, kept, spelled⟩ := output_indexed_iff sound rfl ended
  refine ⟨ended, opened, target, opens, fun indexed => ?_⟩
  exact ((kept detour_linkFree).mp indexed).2 (spelled (by decide) (by decide))

/-- A run can index the file that it writes to. -/
theorem detour_indexed : detour.Sound ∧
    (run detour (into "sub/../index.html") (Sink.unlimited .noSpace)).ending = .ok () ∧
      ∃ opened target, Index.Opens detour (outputPath (into "sub/../index.html")) opened target ∧
        ∃ file ∈ Index.filesFor detour (into "sub/../index.html").root
            (outputPath (into "sub/../index.html")),
          detour.locate .follow file.location = .ok target := by
  refine ⟨by decide, by decide +kernel, detour, [Utf8.encode "index.html".toList], ⟨rfl, rfl⟩, ?_⟩
  exact ⟨⟨"index.html".toList, .ofString "./index.html"⟩, by decide, rfl⟩

end Run
end SourceIndex
