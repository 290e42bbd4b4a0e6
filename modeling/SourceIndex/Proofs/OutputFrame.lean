import SourceIndex.Proofs.IndexWriting

/-! What a run may touch. Up to the open output only directories come into being, and each is
named by a front part of the output's own directory part (`Raised`); from then on one file gets
a content. So whatever becomes of a run, every other file keeps its bytes, and nothing
is removed or turned into something else (`Confined`). -/
namespace SourceIndex

namespace Store

variable {paths : List Path} {store grown : Store}

/-- A store with some more directories, each of them named by one of these paths. -/
structure Raised (paths : List Path) (store grown : Store) : Prop extends Grown store grown where
  named : ∀ place, store.node? place = none → grown.node? place = some .directory →
    ∃ above ∈ paths, grown.locate .follow above = .ok place

theorem Raised.refl (store : Store) : Raised paths store store where
  toGrown := .refl store
  named place free made := by
    rw [free] at made
    cases made

theorem Raised.trans {first second third : Store} (raised : Raised paths first second)
    (further : Raised paths second third) : Raised paths first third where
  toGrown := raised.toGrown.trans further.toGrown
  named place free made := by
    rcases raised.fresh place free with none | there
    · exact further.named place none made
    · obtain ⟨above, member, found⟩ := raised.named place free there
      exact ⟨above, member, locate_kept further.toGrown.keeps found⟩

theorem Raised.put {path : Path} {place : Place} (member : path ∈ paths)
    (vacant : store.resolve .inspect path = .ok (.vacant place)) :
    Raised paths store (store.put place .directory) where
  toGrown := grown_put (free_of_resolve vacant)
  named probe free made := by
    rw [node?_put store (ne_nil_of_free (free_of_resolve vacant))] at made
    split at made
    · rename_i here
      exact ⟨path, member, here ▸ locate_of_vacant vacant⟩
    · rw [free] at made
      cases made

/-- A file that cannot be opened leaves everything as it is. -/
theorem openForWriting_refused {path : Path} {opened : Store} {refusal : Refusal}
    (refused : store.openForWriting path = (opened, .error refusal)) : opened = store := by
  unfold openForWriting at refused
  split at refused
  · cases refused
  · split at refused <;> cases refused <;> rfl
  · cases refused
    rfl

/-- What comes to lie where nothing was is the file. -/
theorem Filled.node_new {target : Place} {written : Bytes} {after : Store}
    (filled : store.Filled target written after) (free : store.node? target = none) :
    after.node? target = some (.file written) := by
  cases filled with
  | file below extended => rw [node?_put store below, if_pos rfl]
  | device held =>
    rw [free] at held
    cases held

end Store

namespace Index

/-- A store in which a run that writes to `output` has done no more than it may. -/
structure Confined (store : Store) (output : Path) (after : Store) : Prop
    extends Store.Keeps store after where
  /-- Whatever the output does not lead to is as it was. -/
  untouched : ∀ place node, store.node? place = some node →
    after.locate .follow output ≠ .ok place → after.node? place = some node
  /-- What is new is a directory for the output, or the output itself. -/
  added : ∀ place node, store.node? place = none → after.node? place = some node →
    (node = .directory ∧ ∃ above : Path, above.components <+: output.components.dropLast ∧
      after.locate .follow above = .ok place) ∨
    ((∃ content, node = .file content) ∧ after.locate .follow output = .ok place)

section
variable {store opened after : Store} {output : Path} {target : Place} {written : Bytes}

theorem makeParent_raised (store : Store) (path : Path) :
    store.Raised path.enclosing (makeParent store path).1 :=
  makeParent_rel (Store.Raised path.enclosing) Store.Raised.refl Store.Raised.trans
    Store.Raised.put store

/-- The directories above the output are all that comes before it is opened. -/
theorem confined_of_raised (raised : store.Raised output.enclosing after) :
    Confined store output after where
  toKeeps := raised.toGrown.keeps
  untouched place node held _ := raised.kept place node held
  added place node free held := by
    rcases raised.fresh place free with none | made
    · rw [none] at held
      cases held
    · rw [made] at held
      cases held
      obtain ⟨above, member, found⟩ := raised.named place free made
      exact .inl ⟨rfl, above, Path.prefix_of_enclosing member, found⟩

/-- An open output that is filled is one more file, or another content of one. -/
theorem confined_of_filled (opens : Opens store output opened target)
    (filled : (makeParent store output).1.Filled target written after) :
    Confined store output after := by
  have raised := makeParent_raised store output
  have above := confined_of_raised raised
  have reached := locate_of_filled opens filled
  have further := filled.extended.toKeeps
  refine ⟨⟨fun place node held => ?_, further.working.trans above.working⟩, ?_, ?_⟩
  · exact further.alike place node (raised.kept place node held)
  · intro place node held elsewhere
    have other : place ≠ target := fun same => elsewhere (same ▸ reached)
    rw [filled.node_other other, raised.kept place node held]
  · intro place node free held
    by_cases here : place = target
    · subst here
      rcases raised.fresh place free with none | made
      · rw [filled.node_new none] at held
        exact .inr ⟨⟨written, (Option.some.inj held).symm⟩, reached⟩
      · have directory := further.directory made
        rcases filled.node with file | ⟨device, other⟩
        · rw [directory] at file
          cases file
        · rw [directory] at other
          cases other
    · rw [filled.node_other here] at held
      rcases above.added place node free held with ⟨directory, path, inside, found⟩ | ⟨⟨content, file⟩, _⟩
      · exact .inl ⟨directory, path, inside, Store.locate_kept further found⟩
      · rcases raised.fresh place free with none | made
        · rw [none] at held
          cases held
        · rw [made, file] at held
          cases held

end

section
variable {store : Store} {format : Format} {records : List Record} {path : Path}

/-- A write that does not come to open its output has made directories and nothing else. -/
theorem opens_or_refused (store : Store) (format : Format) (records : List Record) (path : Path) :
    (∃ opened target, Opens store path opened target) ∨
      (write store format records path).1 = (makeParent store path).1 := by
  rw [write]
  rcases above : makeParent store path with ⟨made, answer⟩
  cases answer with
  | error error => exact .inr rfl
  | ok =>
    rcases openedAt : made.openForWriting path with ⟨opened, target⟩
    cases target with
    | ok target => exact .inl ⟨opened, target, by rw [above], by rw [above, openedAt]⟩
    | error refusal =>
      refine .inr ?_
      dsimp only
      rw [openedAt]
      exact Store.openForWriting_refused openedAt

theorem write_confined (store : Store) (format : Format) (records : List Record) (path : Path) :
    Confined store path (write store format records path).1 := by
  rcases opens_or_refused store format records path with ⟨opened, target, opens⟩ | made
  · obtain ⟨_, emptied⟩ := Store.emptied_of_openForWriting opens.2
    rw [write_of_opens opens, stored_eq]
    exact confined_of_filled opens (emptied.keep _)
  · rw [made]
    exact confined_of_raised (makeParent_raised store path)

/-- A file that was written without an error holds the document. -/
theorem write_read {after : Store} (done : write store format records path = (after, .ok ())) :
    (∃ device, after.inspect .follow path = .ok (.device device)) ∨
      after.read path = .ok (Document.bytes format records) := by
  obtain ⟨opened, target, opens, rfl, whole, filled⟩ := filled_of_write done
  have reached := locate_of_filled opens filled
  rcases filled.node with file | ⟨device, held⟩
  · exact .inr (read_of_filled opens filled file)
  · exact .inl ⟨device, by simp only [Store.inspect, reached, held]⟩

/-- A write that fails before it has its output open leaves every node as it was. -/
theorem write_unopened {after : Store} {error : WriteError}
    (failed : write store format records path = (after, .error error))
    (early : ∀ path failure, error ≠ .document path failure) {place : Place} {node : Node}
    (held : store.node? place = some node) : after.node? place = some node := by
  rcases opens_or_refused store format records path with ⟨opened, target, opens⟩ | made
  · rw [write_of_opens opens] at failed
    obtain ⟨_, answer⟩ := Prod.mk.inj failed
    split at answer
    · cases answer
    · cases answer
      exact absurd rfl (early _ _)
  · obtain rfl : after = (makeParent store path).1 := (congrArg Prod.fst failed).symm.trans made
    exact (makeParent_grown store path).kept place node held

end

/-- A run in file mode touches its output and nothing else, however it ends. Every node stays
what it is, with its bytes if it is a file that the output does not lead to; what is new is
the output or a directory named by a front part of its directory part. If the run succeeds,
an output that is no device reads as the document, whatever it held before; if a directory
could not be made or the output not opened, every file has its bytes. The output is
looked up after the run: the directories made for it can open a way to a file that there
was before. -/
theorem scanAndWrite_confined (store : Store) (root output : Path) (format : Format) :
    ∃ after answer, scanAndWrite store root output format = (after, answer) ∧
      Confined store output after ∧
      (∀ place, store.locate .follow output = .ok place → after.locate .follow output = .ok place) ∧
      (∀ count, answer = .ok count →
        (∃ device, after.inspect .follow output = .ok (.device device)) ∨
        after.read output = .ok (Document.bytes format (records store (filesFor store root output)))) ∧
      (∀ path refusal, answer = .error (.directory path refusal) ∨ answer = .error (.file path refusal) →
        ∀ place node, store.node? place = some node → after.node? place = some node) := by
  have confined := write_confined store format (records store (filesFor store root output)) output
  rcases ran : write store format (records store (filesFor store root output)) output with ⟨after, answer⟩
  rw [ran] at confined
  refine ⟨after, answer.map fun _ => (records store (filesFor store root output)).length, ?_, confined,
    fun place => Store.locate_kept confined.toKeeps, fun count done => ?_, ?_⟩
  · rw [scanAndWrite, ran]
    cases answer <;> rfl
  · cases answer with
    | ok => exact write_read ran
    | error error => cases done
  · intro path refusal failed place node held
    cases answer with
    | ok => rcases failed with none | none <;> cases none
    | error error =>
      refine write_unopened ran (fun document failure late => ?_) held
      cases late
      rcases failed with other | other <;> cases other

example : let held : Store := ⟨[([Utf8.encode "a.md".toList], .file (Utf8.encode "old".toList))], []⟩
    held.read (.ofString "new/../a.md") = .error .notFound ∧
      (scanAndWrite held (.ofString ".") (.ofString "new/../a.md") .jsonl).1.read (.ofString "a.md") =
        .ok [] := by
  decide +kernel

end Index
end SourceIndex
