import SourceIndex.Proofs.BufferedRoom

/-! An index that is written to a device without room. Nothing has to be made for a path that leads
somewhere, since it leads through directories only (`isDirectory_of_enclosing`), so the device is
opened in the store as it is. The buffer in front of it holds the document back until it overflows,
and what then shows is the record at that place (`write_device`). -/
namespace SourceIndex

/-- A path goes on behind every directory that it lies in. -/
theorem Path.components_of_enclosing {path above : Path} (member : above ∈ path.enclosing) :
    ∃ next others, path.components = above.components ++ next :: others := by
  obtain ⟨row, same⟩ := prefix_of_enclosing member
  have nonempty : path.components ≠ [] := by
    intro none
    rw [none] at same
    exact components_ne_nil (bytes_of_enclosing member).2 (List.append_eq_nil_iff.mp same).1
  obtain ⟨next, others, split⟩ := List.exists_cons_of_ne_nil
    (List.append_ne_nil_of_right_ne_nil row (List.cons_ne_nil (path.components.getLast nonempty) []))
  refine ⟨next, others, ?_⟩
  rw [← split, ← List.append_assoc, same, List.dropLast_append_getLast]

namespace Store

variable {store : Store} {path above : Path} {place : Place} {device : Device} {refusal : Refusal}

/-- What a path that leads somewhere lies in are directories. -/
theorem isDirectory_of_enclosing (found : store.locate .follow path = .ok place)
    (member : above ∈ path.enclosing) : store.isDirectory above = true := by
  obtain ⟨clean, _, short, _⟩ := locate_follow_iff.mp found
  obtain ⟨front, spelled⟩ := Path.bytes_of_enclosing member
  obtain ⟨next, others, later⟩ := Path.components_of_enclosing member
  obtain ⟨step, steps⟩ := Path.step?_of_later later (Path.components_ne_nil spelled)
  -- The way to the path is one to the directory, and a step that is taken from there.
  obtain ⟨left, way⟩ := follows_moves found
  rw [Path.moves_eq, later, List.filterMap_append, List.filterMap_cons_some steps, ← Path.moves_eq,
    origin, Path.isAbsolute_of_prefix spelled ⟨_, later.symm⟩] at way
  obtain ⟨links, between, reached, onward⟩ := follows_append.mp way
  have stands := onward.stands
  have located : store.locate .follow above = .ok between :=
    locate_follow_iff.mpr ⟨fun nul => clean (front.subset nul), spelled,
      front.length_le.trans short, links, follows_of_moves reached stands⟩
  exact isDirectory_iff.mpr ⟨between, located, isDirectoryAt_iff.mpr stands⟩

theorem sinkAt_device (held : store.node? place = some (.device device))
    (refuses : device.writeFailure = some refusal) : store.sinkAt place = Sink.full refusal := by
  rw [sinkAt, held]
  dsimp only
  rw [refuses]
  rfl

/-- A device is opened as it is. -/
theorem openForWriting_device (found : store.locate .follow path = .ok place)
    (held : store.node? place = some (.device device)) :
    store.openForWriting path = (store, .ok place) := by
  have plain : store.node? place ≠ some .directory := by simp [held]
  rw [openForWriting, resolve_create found plain]
  dsimp only
  rw [held]

end Store

namespace Index

variable {store : Store} {path : Path} {place : Place} {device : Device} {refusal : Refusal}

/-- For a path that leads somewhere no directory is made. -/
theorem makeParent_located (found : store.locate .follow path = .ok place) :
    makeParent store path = (store, .ok ()) := by
  rw [makeParent]
  cases lies : path.parent? with
  | none => rfl
  | some parent =>
    dsimp only
    by_cases unspelled : parent.bytes = []
    · rw [if_pos unspelled]
    rw [if_neg unspelled, Store.makeDirectories]
    cases row : parent.ancestors with
    | nil => rfl
    | cons nearest rest =>
      have member : nearest ∈ path.enclosing := by
        rw [Path.enclosing, lies]
        dsimp only
        rw [row]
        exact List.mem_cons_self
      rw [Store.makeAll_again (Store.isDirectory_of_enclosing found member)]

/-- A write to a device without room leaves the store as it was. It succeeds for the empty document
only, and what it reports of any other is the record whose object overflows the buffer. -/
theorem write_device (found : store.inspect .follow path = .ok (.device device))
    (refuses : device.writeFailure = some refusal) (format : Format) (records : List Record) :
    write store format records path = (store,
      if Document.bytes format records = [] then .ok ()
      else .error (.document path
        ⟨Document.recordAt? (Document.pieces format records) bufferSize, refusal⟩)) := by
  obtain ⟨place, located, held⟩ := Store.inspect_eq_ok_iff.mp found
  have opens : Opens store path store place := by
    rw [Opens, makeParent_located located]
    exact ⟨rfl, Store.openForWriting_device located held⟩
  have kept : stored store place format records = store := by
    rw [stored_eq, Store.keep, held]
  rw [write_of_opens opens, kept, rendered, Store.sinkAt_device held refuses]
  by_cases empty : Document.bytes format records = []
  · obtain ⟨next, failure, ran, _, whole, _⟩ :=
      Document.render_full refusal (.block bufferSize) format records
    rw [ran, whole.mpr empty, if_pos empty]
  · obtain ⟨first, rest, row, starts, short⟩ := Document.pieces_start empty
    rw [Document.render_held bufferSize refusal row starts short, if_neg empty]

/-- A failed write of an index is never hidden by the buffer in front of its file. Into a sink with
room for so many bytes the rendering succeeds exactly if the whole document fits, and the sink then
holds the front that fits. A device without any room takes the empty document only; of any other
the error names the record whose object holds the first byte behind a full buffer, and nothing
if that byte stands outside of the objects or the document ends before it. -/
theorem write_buffered (format : Format) (records : List Record) :
    let document := Document.delivered Refusal.noSpace .direct format records
    (∀ (room : Nat) (refusal : Refusal), ∃ writer failure?,
      Document.render format records (Writer.over (.block bufferSize) ⟨some room, refusal, none, []⟩) =
        (writer, failure?) ∧
      (failure? = none ↔ document.length ≤ room) ∧ writer.sink.written = document.take room) ∧
    ∀ store path, store.inspect .follow path = .ok (.device .full) →
      ∃ answer, write store format records path = (store, answer) ∧
        (answer = .ok () ↔ document = []) ∧
        ∀ error, answer = .error error →
          (∀ record, format = .jsonl → bufferSize < document.length →
            Document.InObject records record bufferSize → error.chain =
              ["writing index file ".toList ++ path.display, "serializing record ".toList ++ record.path,
                refusalText .noSpace]) ∧
          ((¬ ∃ record, format = .jsonl ∧ bufferSize < document.length ∧
              Document.InObject records record bufferSize) → error.chain =
            ["writing index file ".toList ++ path.display, refusalText .noSpace]) := by
  dsimp only
  rw [Document.delivered_eq]
  refine ⟨fun room refusal => ?_, fun store path device => ?_⟩
  · obtain ⟨writer, failure?, ran, written, whole⟩ :=
      Document.render_buffered bufferSize format records room refusal
    exact ⟨writer, failure?, ran, whole, written⟩
  refine ⟨_, write_device device rfl format records, ?_, ?_⟩
  · split <;> simp [*]
  intro error failed
  split at failed
  · cases failed
  cases failed
  refine ⟨?_, fun outside => ?_⟩
  · rintro record rfl _ inside
    rw [WriteError.chain, failureChain, Document.pieces, Document.recordAt?_inObject inside]
  · have unnamed : Document.recordAt? (Document.pieces format records) bufferSize = none := by
      cases format with
      | markdown => exact Document.recordAt?_markdown records bufferSize
      | jsonl =>
        exact Document.recordAt?_outside fun record inside =>
          outside ⟨record, rfl, inside.lt, inside⟩
    rw [WriteError.chain, failureChain, unnamed]

/-- A record with a snippet of one letter, so often. -/
def bulky (count : Nat) : Record := ⟨"bulk.py".toList, List.replicate count 'x'⟩

private theorem bulky_length (count : Nat) : count ≤ (Utf8.encode (bulky count).toText).length := by
  have plain : Json.Quoted.encodeChar 'x' = ['x'] := by decide
  have byte : Utf8.encodeChar 'x' = [0x78] := by decide
  have letters : Utf8.encode ((List.replicate count 'x').flatMap Json.Quoted.encodeChar) =
      List.replicate count 0x78 := by
    simp [Utf8.encode, List.flatMap_replicate, plain, byte]
  have snippet : (bulky count).snippet = List.replicate count 'x' := rfl
  rw [Record.encode_toText, snippet]
  simp only [Record.quoted, letters, List.length_cons, List.length_append, List.length_replicate]
  omega

private theorem bulky_inObject :
    Document.InObject [⟨"a.py".toList, []⟩, bulky 9000] (bulky 9000) bufferSize := by
  have before : (Document.bytes .jsonl [⟨"a.py".toList, []⟩]).length ≤ bufferSize := by decide
  have long := bulky_length 9000
  refine ⟨[⟨"a.py".toList, []⟩], [], rfl, before, ?_⟩
  rw [bufferSize]
  omega

theorem write_buffered_full :
    (Store.fresh []).inspect .follow (.ofString "/dev/full") = .ok (.device .full) ∧
      ∃ error, write (Store.fresh []) .jsonl [⟨"a.py".toList, []⟩, bulky 9000]
          (.ofString "/dev/full") = (Store.fresh [], .error error) ∧
        error.chain = ["writing index file /dev/full".toList, "serializing record bulk.py".toList,
          "No space left on device (os error 28)".toList] := by
  have device : (Store.fresh []).inspect .follow (.ofString "/dev/full") = .ok (.device .full) := by
    decide +kernel
  have inside := bulky_inObject
  obtain ⟨answer, ran, whole, named⟩ :=
    (write_buffered .jsonl [⟨"a.py".toList, []⟩, bulky 9000]).2 _ _ device
  rw [Document.delivered_eq] at whole named
  have long := inside.lt
  cases answer with
  | ok =>
    rw [whole.mp rfl] at long
    exact absurd long (Nat.not_lt_zero bufferSize)
  | error error =>
    refine ⟨device, error, ran, ?_⟩
    rw [(named error rfl).1 (bulky 9000) rfl long inside]
    decide +kernel

end Index
end SourceIndex
