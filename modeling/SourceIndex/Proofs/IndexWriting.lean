import SourceIndex.Proofs.OutputExclusion
import SourceIndex.Proofs.StoreExtension
import SourceIndex.Proofs.WriterContents

/-! Writing an index, and writing it again. A successful write leaves the whole document in the
file that the output leads to (`filled_of_write`). Everything it had to make is there afterwards,
so writing the same records again finds the directories made, opens the same file and leaves
the very same store (`write_again`). -/
namespace SourceIndex

namespace Store

variable {store made : Store} {path : Path} {place : Place}

theorem put_put (store : Store) (place : Place) (first second : Node) :
    (store.put place first).put place second = store.put place second := by
  have nodes : ∀ nodes, insert place second (insert place first nodes) = insert place second nodes := by
    intro nodes
    induction nodes with
    | nil => simp [insert]
    | cons entry rest ih =>
      obtain ⟨key, held⟩ := entry
      by_cases here : key = place <;> simp [insert, here, ih]
  simp only [put, nodes]

private theorem isDirectory_of_made (done : store.makeDirectory path = (made, .ok ())) :
    made.isDirectory path = true := by
  unfold makeDirectory at done
  split at done
  · rename_i place vacant
    cases done
    have below := ne_nil_of_free (free_of_resolve vacant)
    refine isDirectory_iff.mpr ⟨place, locate_of_vacant vacant, isDirectoryAt_iff.mpr ?_⟩
    rw [node?_put store below, if_pos rfl]
  · cases done
  · cases done

/-- Where making directories succeeds, there is a directory. -/
theorem isDirectory_of_makeAll {above : List Path}
    (done : store.makeAll (path :: above) = (made, .ok ())) : made.isDirectory path = true := by
  have settled : ∀ {between : Store}, (if between.isDirectory path then (between, Except.ok ())
      else (between, Except.error Refusal.alreadyExists)) = (made, .ok ()) →
        made.isDirectory path = true := by
    intro between ends
    split at ends
    · cases ends
      assumption
    · cases ends
  unfold makeAll at done
  dsimp only at done
  split at done
  · rename_i ran
    cases done
    exact isDirectory_of_made ran
  · exact settled done
  · split at done
    · cases done
    split at done
    · cases done
    split at done
    · exact settled done
    · exact isDirectory_of_made done
  · cases done

/-- What is a directory already is left alone. -/
theorem makeAll_again {above : List Path} (directory : store.isDirectory path = true) :
    store.makeAll (path :: above) = (store, .ok ()) := by
  obtain ⟨place, found, _⟩ := isDirectory_iff.mp directory
  obtain ⟨last, looked⟩ := resolve_inspect found
  have there : store.makeDirectory path = (store, .error .alreadyExists) := by
    rw [makeDirectory, looked]
  simp [makeAll, there, directory]

/-- What opening a file for writing does to a store. -/
inductive Emptied (store : Store) (target : Place) : Store → Prop where
  | made (free : store.node? target = none) : Emptied store target (store.put target (.file []))
  | cleared (held : store.node? target = some (.file content)) :
      Emptied store target (store.put target (.file []))
  | untouched (held : store.node? target = some (.device device)) : Emptied store target store

/-- A file that was opened is where the path leads, and it is empty. -/
theorem emptied_of_openForWriting {opened : Store} {target : Place}
    (open_ok : store.openForWriting path = (opened, .ok target)) :
    (∃ goal, store.resolve .create path = .ok goal ∧ goal.place = target) ∧
      store.Emptied target opened := by
  unfold openForWriting at open_ok
  split at open_ok
  · rename_i place vacant
    cases open_ok
    exact ⟨⟨_, vacant, rfl⟩, .made (free_of_resolve vacant)⟩
  · rename_i place present
    split at open_ok
    · cases open_ok
    · rename_i held
      cases open_ok
      exact ⟨⟨_, present, rfl⟩, .cleared held⟩
    · rename_i held
      cases open_ok
      exact ⟨⟨_, present, rfl⟩, .untouched held⟩
    · cases open_ok
    · cases open_ok
  · cases open_ok

/-- What putting bytes into an open file makes of the store before it was opened. -/
inductive Filled (store : Store) (target : Place) (written : Bytes) : Store → Prop where
  | file (below : target ≠ []) (extended : Extends store (store.put target (.file written))) :
      Filled store target written (store.put target (.file written))
  | device (held : store.node? target = some (.device device)) : Filled store target written store

section
variable {target : Place} {written : Bytes} {after : Store}

theorem Emptied.keep {opened : Store} (emptied : store.Emptied target opened) (written : Bytes) :
    store.Filled target written (opened.keep target written) := by
  have kept : target ≠ [] → (store.put target (.file [])).keep target written =
      store.put target (.file written) := by
    intro below
    rw [Store.keep, node?_put store below, if_pos rfl]
    exact put_put store target _ _
  cases emptied with
  | made free =>
    rw [kept (ne_nil_of_free free)]
    exact .file (ne_nil_of_free free) (.put_free free _)
  | cleared held =>
    rw [kept (ne_nil_of_file held)]
    exact .file (ne_nil_of_file held) (.put_over held written)
  | untouched held =>
    rw [Store.keep, held]
    exact .device held

theorem Filled.extended (filled : store.Filled target written after) : Extends store after := by
  cases filled with
  | file below extended => exact extended
  | device held => exact .refl store

theorem Filled.node (filled : store.Filled target written after) :
    after.node? target = some (.file written) ∨ ∃ device, after.node? target = some (.device device) := by
  cases filled with
  | file below extended =>
    rw [node?_put store below, if_pos rfl]
    exact .inl rfl
  | device held => exact .inr ⟨_, held⟩

theorem Filled.node_other (filled : store.Filled target written after) {probe : Place}
    (other : probe ≠ target) : after.node? probe = store.node? probe := by
  cases filled with
  | file below extended => rw [node?_put store below, if_neg other.symm]
  | device held => rfl

/-- Where a file was filled it can be opened again, and filling it again changes nothing. -/
theorem Filled.reopened (filled : store.Filled target written after)
    (found : after.resolve .create path = .ok (.present target)) : ∃ opened,
      after.openForWriting path = (opened, .ok target) ∧ opened.keep target written = after ∧
        opened.sinkAt target = after.sinkAt target := by
  rw [openForWriting, found]
  cases filled with
  | file below extended =>
    have there : (store.put target (.file written)).node? target = some (.file written) := by
      rw [node?_put store below, if_pos rfl]
    have empty : ((store.put target (.file written)).put target (.file [])).node? target =
        some (.file []) := by
      rw [node?_put _ below, if_pos rfl]
    refine ⟨(store.put target (.file written)).put target (.file []), by simp [there], ?_, ?_⟩
    · rw [Store.keep, empty]
      simp only [put_put]
    · rw [sinkAt, sinkAt, there, empty]
  | device held => exact ⟨store, by simp [held], by rw [Store.keep, held], rfl⟩

theorem sinkAt_keep (store : Store) (place : Place) (written : Bytes) :
    (store.keep place written).sinkAt place = store.sinkAt place := by
  unfold Store.keep
  split
  · rename_i held
    rw [sinkAt, sinkAt, node?_put store (ne_nil_of_file held), if_pos rfl, held]
  · rfl

theorem sinkAt_written (store : Store) (place : Place) : (store.sinkAt place).written = [] := by
  unfold sinkAt
  split
  · split <;> rfl
  · rfl

end

end Store

namespace Index

open Store (Keeps)

section
variable {store after opened : Store} {path : Path} {target : Place} {format : Format}
  {records : List Record}

/-- The directory of an index file is there once it was made. -/
theorem makeParent_again (keeps : Keeps (makeParent store path).1 after)
    (done : (makeParent store path).2 = .ok ()) : makeParent after path = (after, .ok ()) := by
  rw [makeParent] at keeps done ⊢
  cases above : path.parent? with
  | none => rfl
  | some parent =>
    simp only [above] at keeps done ⊢
    by_cases unspelled : parent.bytes = []
    · rw [if_pos unspelled]
    rw [if_neg unspelled] at keeps done ⊢
    rw [Store.makeDirectories] at keeps done ⊢
    cases row : parent.ancestors with
    | nil => rfl
    | cons first rest =>
      rw [row] at keeps done
      rcases ran : store.makeAll (first :: rest) with ⟨made, answer⟩
      rw [ran] at keeps done
      cases answer with
      | error refusal => cases done
      | ok =>
        have directory := Store.isDirectory_kept keeps (Store.isDirectory_of_makeAll ran)
        rw [Store.makeAll_again directory]

/-- Writing a document to an open file. -/
def rendered (opened : Store) (target : Place) (format : Format) (records : List Record) :
    Writer Refusal × Option (Document.Failure Refusal) :=
  Document.render format records (Writer.over (.block bufferSize) (opened.sinkAt target))

theorem stored_eq : stored opened target format records =
    opened.keep target (rendered opened target format records).1.sink.written := rfl

/-- Without a refusal the file takes the whole document. -/
theorem rendered_whole (whole : (rendered opened target format records).2 = none) :
    (rendered opened target format records).1.sink.written = Document.bytes format records := by
  have written := Document.render_ok (Prod.ext rfl whole)
  rwa [Store.sinkAt_written, List.nil_append] at written

/-- What a write does once the file is open. -/
theorem write_of_opens (opens : Opens store path opened target) : write store format records path =
    (stored opened target format records, match (rendered opened target format records).2 with
      | none => .ok ()
      | some failure => .error (.document path failure)) := by
  obtain ⟨above, openedAt⟩ := opens
  rcases parent : makeParent store path with ⟨made, answer⟩
  rw [parent] at above openedAt
  dsimp only at above openedAt
  rw [write, parent, above]
  dsimp only
  rw [openedAt]
  dsimp only [stored, rendered]
  cases (Document.render format records
    (Writer.over (.block bufferSize) (opened.sinkAt target))).2 <;> rfl

/-- A write that succeeds has opened the file, met no refusal, and put the whole document into
the file unless that is a device. -/
theorem filled_of_write (done : write store format records path = (after, .ok ())) :
    ∃ opened target, Opens store path opened target ∧ after = stored opened target format records ∧
      (rendered opened target format records).2 = none ∧
      (makeParent store path).1.Filled target (Document.bytes format records) after := by
  obtain ⟨opened, target, opens, _⟩ := write_ok (congrArg Prod.snd done)
  rw [write_of_opens opens] at done
  obtain ⟨left, answer⟩ := Prod.mk.inj done
  have whole : (rendered opened target format records).2 = none := by
    split at answer
    · assumption
    · cases answer
  obtain ⟨_, emptied⟩ := Store.emptied_of_openForWriting opens.2
  have filled := emptied.keep (rendered opened target format records).1.sink.written
  rw [← stored_eq, rendered_whole whole, left] at filled
  exact ⟨opened, target, opens, left.symm, whole, filled⟩

/-- An output that was opened leads to its file as long as nothing but contents is lost. -/
theorem resolve_of_opens {purpose : Purpose} (opens : Opens store path opened target)
    (filled : (makeParent store path).1.Filled target written after)
    (same : purpose = .create ∨ purpose = .follow) :
    after.resolve purpose path = .ok (.present target) := by
  obtain ⟨⟨goal, ran, rfl⟩, _⟩ := Store.emptied_of_openForWriting opens.2
  rcases filled.node with held | ⟨device, held⟩
  · exact Store.resolve_again filled.extended.toKeeps ran held (by simp) same
  · exact Store.resolve_again filled.extended.toKeeps ran held (by simp) same

theorem locate_of_filled (opens : Opens store path opened target)
    (filled : (makeParent store path).1.Filled target written after) :
    after.locate .follow path = .ok target := by
  rw [Store.locate, resolve_of_opens opens filled (.inr rfl)]

theorem makeParent_extended (store : Store) (path : Path) :
    Store.Extends store (makeParent store path).1 :=
  makeParent_rel Store.Extends Store.Extends.refl Store.Extends.trans
    (fun _ vacant => .put_free (Store.free_of_resolve vacant) _) store

/-- A file that an index was written to holds the whole document. -/
theorem read_of_filled {content : Bytes} (opens : Opens store path opened target)
    (filled : (makeParent store path).1.Filled target written after)
    (held : after.node? target = some (.file content)) : after.read path = .ok written := by
  rw [Store.read, Store.inspect, locate_of_filled opens filled]
  dsimp only
  rcases filled.node with file | ⟨device, other⟩
  · rw [file]
  · rw [held] at other
    cases other

/-- Writing the same records again changes nothing. -/
theorem write_again (done : write store format records path = (after, .ok ())) :
    write after format records path = (after, .ok ()) := by
  obtain ⟨opened, target, opens, rfl, whole, filled⟩ := filled_of_write done
  have above := makeParent_again filled.extended.toKeeps opens.1
  obtain ⟨reopened, openedAt, kept, sink⟩ :=
    filled.reopened (resolve_of_opens opens filled (.inl rfl))
  have opensAgain : Opens (stored opened target format records) path reopened target := by
    rw [Opens, above]
    exact ⟨rfl, openedAt⟩
  have same : rendered reopened target format records = rendered opened target format records := by
    rw [rendered, sink, stored_eq, Store.sinkAt_keep]
    rfl
  rw [write_of_opens opensAgain, same, whole, stored_eq, same, rendered_whole whole, kept]

end

theorem scanAndWrite_ok {store after : Store} {root output : Path} {format : Format} {count : Nat}
    (ran : scanAndWrite store root output format = (after, .ok count)) :
    write store format (records store (filesFor store root output)) output = (after, .ok ()) ∧
      count = (records store (filesFor store root output)).length := by
  rw [scanAndWrite] at ran
  split at ran
  · rename_i wrote
    cases ran
    exact ⟨wrote, rfl⟩
  · cases ran

end Index
end SourceIndex
