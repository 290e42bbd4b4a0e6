import SourceIndex.Proofs.IndexWriting
import SourceIndex.Proofs.ListingOrder

/-! The two modes of a run show one index. Discovery, snippets and the order of the records are
those of a run that only prints; a run that writes leaves the output out of them, before it
sorts (`filter_mergeSort`), and reads every source before it opens the output. An output
without an indexed extension is never among the sources, so then nothing is left out and the
file holds what the other mode prints (`modes_agree`). -/
namespace SourceIndex

/-- What satisfies a test in front of what does not is known from the whole. -/
private theorem append_inj_of_test {before behind front back : List α} {test : α → Bool}
    (same : before ++ behind = front ++ back) (beforeIn : ∀ entry ∈ before, test entry = true)
    (behindOut : ∀ entry ∈ behind, test entry = false) (frontIn : ∀ entry ∈ front, test entry = true)
    (backOut : ∀ entry ∈ back, test entry = false) : before = front ∧ behind = back := by
  have taken : ∀ {first last : List α}, (∀ entry ∈ first, test entry = true) →
      (∀ entry ∈ last, test entry = false) → (first ++ last).filter test = first := by
    intro first last firstIn lastOut
    rw [List.filter_append, List.filter_eq_self.mpr firstIn,
      List.filter_eq_nil_iff.mpr fun entry member => by simp [lastOut entry member], List.append_nil]
  obtain rfl : before = front := by
    rw [← taken beforeIn behindOut, same, taken frontIn backOut]
  exact ⟨rfl, List.append_cancel_left same⟩

/-- Leaving elements out before a stable sort or after it is the same. -/
theorem filter_mergeSort {le : α → α → Bool} (trans : ∀ a b c, le a b = true → le b c = true → le a c = true)
    (total : ∀ a b, (le a b || le b a) = true) (keep : α → Bool) (row : List α) :
    (row.mergeSort le).filter keep = (row.filter keep).mergeSort le := by
  induction row with
  | nil => simp
  | cons first rest ih =>
    obtain ⟨before, behind, sorted, others, smaller⟩ := List.mergeSort_cons trans total first rest
    rw [sorted, List.filter_append]
    rw [others, List.filter_append] at ih
    by_cases kept : keep first = true
    · rw [List.filter_cons_of_pos kept, List.filter_cons_of_pos kept]
      obtain ⟨front, back, sortedKept, othersKept, smallerKept⟩ :=
        List.mergeSort_cons trans total first (rest.filter keep)
      -- `first` stands where the elements stop being smaller than it, with or without the others.
      have larger : ∀ {front back : List α} {row : List α}, (first :: row).mergeSort le =
          front ++ first :: back → ∀ entry ∈ back, (!le first entry) = false := by
        intro front back row whole entry member
        have ascends := List.pairwise_mergeSort trans total (first :: row)
        rw [whole] at ascends
        have behind := (List.pairwise_cons.mp (List.pairwise_append.mp ascends).2.1).1
        rw [behind entry member]
        rfl
      obtain ⟨sameFront, sameBack⟩ := append_inj_of_test (ih.trans othersKept)
        (fun entry member => smaller entry (List.mem_filter.mp member).1)
        (fun entry member => larger sorted entry (List.mem_filter.mp member).1)
        smallerKept (larger sortedKept)
      rw [sortedKept, sameFront, sameBack]
    · rw [List.filter_cons_of_neg kept, List.filter_cons_of_neg kept, ih]

/-- Whether a file is indexed is a matter of the components of its location. -/
theorem SourceFile.isIndexed_of_same {first second : SourceFile}
    (same : first.location.Same second.location) : first.isIndexed = second.isIndexed := by
  rw [Path.Same] at same
  simp only [isIndexed, extension?, Path.extension?, Path.fileName?, same]

namespace Index

variable {store after : Store} {root output : Path} {files : List SourceFile}

/-- The record of a file. -/
def recordOf (store : Store) (file : SourceFile) : Record :=
  Record.ofFile file (headerSnippet store file.location)

/-- Files in the order of their records. -/
def inOrder (files : List SourceFile) : List SourceFile :=
  files.mergeSort fun first second => (Utf8.compareText first.heading second.heading).isLE

theorem records_eq_map : records store files = (inOrder files).map (recordOf store) := by
  exact (List.map_mergeSort (f := recordOf store)
    (s := fun first second => (Utf8.compareText first.path second.path).isLE) fun _ _ _ _ => rfl).symm

theorem inOrder_filter (keep : SourceFile → Bool) :
    inOrder (files.filter keep) = (inOrder files).filter keep := by
  refine (filter_mergeSort ?_ ?_ keep files).symm
  · exact fun _ _ _ => Utf8.compareText_trans
  · exact fun first second => Utf8.compareText_total first.heading second.heading

/-- The records of a run are those of the whole index without the one of the output. -/
theorem records_filesFor : records store (filesFor store root output) =
    ((inOrder (Discovery.files store root)).filter fun file => ¬ file.location.Same output).map
      (recordOf store) := by
  rw [records_eq_map, filesFor, inOrder_filter]

/-- An output whose extension is not indexed is no source, whatever lies there. -/
theorem filesFor_unindexed (unindexed : (SourceFile.ofLocation root output).isIndexed = false) :
    filesFor store root output = Discovery.files store root := by
  apply List.filter_eq_self.mpr
  intro file member
  rw [decide_eq_true_eq]
  intro same
  have indexed := (Discovery.taken_of_mem member).1
  have alike : file.isIndexed = (SourceFile.ofLocation root output).isIndexed :=
    SourceFile.isIndexed_of_same same
  rw [alike, unindexed] at indexed
  cases indexed

end Index

namespace Run

open CommandLine (Settings)

variable {store after : Store} {settings : Settings} {count : Nat}

/-- The line that a run in file mode prints at its end. -/
def summary (settings : Settings) (count : Nat) : Text :=
  countText count ++ (shownOutput settings).display ++ ['\n']

/-- A run in file mode that cannot write its index prints nothing. -/
theorem toFile_failed {error : Index.WriteError} (stdout : Sink Refusal)
    (failed : Index.scanAndWrite store settings.root (outputPath settings) settings.format =
      (after, .error error)) :
    toFile store settings stdout =
      ⟨after, Index.scanEvents store settings.root (outputPath settings), [], [],
        .error (.indexing settings.root error)⟩ := by
  rw [toFile]
  dsimp only
  rw [failed]

/-- A run in file mode whose summary is refused breaks off. -/
theorem toFile_unprinted {stdout : Sink Refusal} {next : Writer Refusal} {refusal : Refusal}
    (done : Index.scanAndWrite store settings.root (outputPath settings) settings.format =
      (after, .ok count))
    (refused : (stdoutWriter stdout).put (Utf8.encode (summary settings count)) =
      (next, some refusal)) :
    toFile store settings stdout =
      ⟨after, Index.scanEvents store settings.root (outputPath settings), next.sink.written, [],
        .error (.summary refusal)⟩ := by
  rw [summary] at refused
  rw [toFile]
  dsimp only
  rw [done]
  dsimp only
  rw [refused]

/-- A run in file mode that has printed its summary ends as the flush behind it does. -/
theorem toFile_printed {stdout : Sink Refusal} {filled next : Writer Refusal}
    {failure : Option Refusal}
    (done : Index.scanAndWrite store settings.root (outputPath settings) settings.format =
      (after, .ok count))
    (printed : (stdoutWriter stdout).put (Utf8.encode (summary settings count)) = (filled, none))
    (flushed : filled.flush = (next, failure)) :
    toFile store settings stdout =
      ⟨after, Index.scanEvents store settings.root (outputPath settings), next.sink.written, [],
        failure.elim (.ok ()) fun refusal => .error (.flush refusal)⟩ := by
  rw [summary] at printed
  rw [toFile]
  dsimp only
  rw [done]
  dsimp only
  rw [printed]
  dsimp only
  rw [flushed]
  cases failure with
  | none => rfl
  | some refusal => rfl

/-- The summary of a run in file mode, where the standard output takes everything. -/
theorem toFile_endless {stdout : Sink Refusal} (endless : stdout.Endless)
    (empty : stdout.written = [])
    (done : Index.scanAndWrite store settings.root (outputPath settings) settings.format =
      (after, .ok count)) :
    toFile store settings stdout =
      ⟨after, Index.scanEvents store settings.root (outputPath settings),
        Utf8.encode (summary settings count), [],
        stdout.flushFailure.elim (.ok ()) fun refusal => .error (.flush refusal)⟩ := by
  obtain ⟨filled, next, printed, flushed, written⟩ := Writer.flush_endless endless
    (.line lineBuffer) (Utf8.encode (summary settings count))
  rw [toFile_printed done printed flushed, written, empty, List.nil_append]

theorem toFile_unlimited (refusal : Refusal)
    (done : Index.scanAndWrite store settings.root (outputPath settings) settings.format =
      (after, .ok count)) :
    toFile store settings (Sink.unlimited refusal) =
      ⟨after, Index.scanEvents store settings.root (outputPath settings),
        Utf8.encode (summary settings count), [], .ok ()⟩ :=
  toFile_endless rfl rfl done

/-- A run in stdout mode prints the index of its root, where the standard output takes
everything. -/
theorem toStdout_unlimited (store : Store) (settings : Settings) (refusal : Refusal) :
    toStdout store settings (Sink.unlimited refusal) =
      ⟨store, Index.rootEvents store settings.root,
        Document.bytes settings.format (Index.ofRoot store settings.root),
        countText (Index.ofRoot store settings.root).length ++ "stdout\n".toList, .ok ()⟩ := by
  have endless : (Sink.unlimited refusal).Endless := rfl
  obtain ⟨next, rendered⟩ := Document.render_endless endless rfl (.line lineBuffer)
    settings.format (Index.ofRoot store settings.root)
  rw [toStdout, stdoutWriter, rendered]
  dsimp only
  rw [Document.render_ok rendered]
  rfl

theorem run_toStdout (directory : store.isDirectory settings.root = true)
    (mode : settings.stdout = true) (stdout : Sink Refusal) :
    run store settings stdout = toStdout store settings stdout := by
  simp [run, directory, mode]

theorem run_toFile (directory : store.isDirectory settings.root = true)
    (mode : settings.stdout = false) (stdout : Sink Refusal) :
    run store settings stdout = toFile store settings stdout := by
  simp [run, directory, mode]

/-- The two modes agree. What a successful run writes to its output is the document of the
index that the root had before the run, without the files that are spelled like the output,
in the same order, and it counts just these records. If the extension of the output is not an
indexed one, that is to the byte what a run in stdout mode prints from the same store, and
both runs report the same number. -/
theorem modes_agree {root output : Path} {format : Format}
    (ran : Index.scanAndWrite store root output format = (after, .ok count)) :
    ∃ (files : List SourceFile) (opened : Store) (target : Place) (document : Bytes),
      files.Perm (Discovery.files store root) ∧
      Index.ofRoot store root = files.map (Index.recordOf store) ∧
      Index.Opens store output opened target ∧
      document = (Index.rendered opened target format
        (Index.records store (Index.filesFor store root output))).1.sink.written ∧
      after = opened.keep target document ∧
      (∀ content, after.node? target = some (.file content) → after.read output = .ok document) ∧
      (∀ (refusal : Refusal) (buffering : Buffering), document =
        Document.delivered refusal buffering format
          ((files.filter fun file => ¬ file.location.Same output).map (Index.recordOf store))) ∧
      count = (files.filter fun file => ¬ file.location.Same output).length ∧
      ((SourceFile.ofLocation root output).isIndexed = false → store.isDirectory root = true →
        ∀ (inFile shown : Settings) (refusal : Refusal), inFile.root = root →
          outputPath inFile = output → inFile.format = format → inFile.stdout = false →
          shown.root = root → shown.format = format → shown.stdout = true →
          run store inFile (Sink.unlimited refusal) =
            ⟨after, Index.scanEvents store root output, Utf8.encode (summary inFile count), [],
              .ok ()⟩ ∧
          run store shown (Sink.unlimited refusal) =
            ⟨store, Index.rootEvents store root, document, countText count ++ "stdout\n".toList,
              .ok ()⟩) := by
  obtain ⟨wrote, counted⟩ := Index.scanAndWrite_ok ran
  obtain ⟨opened, target, opens, left, whole, filled⟩ := Index.filled_of_write wrote
  have written := Index.rendered_whole whole
  refine ⟨Index.inOrder (Discovery.files store root), opened, target, _, List.mergeSort_perm ..,
    Index.records_eq_map, opens, rfl, left, ?_, ?_, ?_, ?_⟩
  · intro content held
    rw [written]
    exact Index.read_of_filled opens filled held
  · intro refusal buffering
    rw [written, Document.delivered_eq, Index.records_filesFor]
  · rw [counted, Index.records_filesFor, List.length_map]
  · rintro unindexed directory inFile shown refusal rfl rfl rfl mode sameRoot sameFormat shownMode
    have all : Index.records store (Index.filesFor store inFile.root (outputPath inFile)) =
        Index.ofRoot store shown.root := by
      rw [Index.filesFor_unindexed unindexed, sameRoot, Index.ofRoot]
    have shownDirectory : store.isDirectory shown.root = true := by rwa [sameRoot]
    rw [run_toFile directory mode, run_toStdout shownDirectory shownMode,
      toFile_unlimited refusal ran, toStdout_unlimited, written, all, counted, all, sameRoot,
      sameFormat]
    exact ⟨rfl, rfl⟩

/-- A directory with one source file and an index of earlier times. -/
def stale : Store where
  working := []
  nodes := [([Utf8.encode "CODE_INDEX.md".toList], .file (Utf8.encode "## old.py".toList)),
    ([Utf8.encode "a.py".toList], .file (Utf8.encode "# one".toList))]

theorem modes_agree_stale : ∃ after,
    Index.scanAndWrite stale (.ofString ".") (.ofString "./CODE_INDEX.md") .markdown =
      (after, .ok 1) ∧
    (run stale (into "CODE_INDEX.md") (Sink.unlimited .noSpace)).stdout =
      Utf8.encode "Wrote 1 entries to CODE_INDEX.md\n".toList ∧
    (run stale { into "CODE_INDEX.md" with stdout := true } (Sink.unlimited .noSpace)).stderr =
      "Wrote 1 entries to stdout\n".toList ∧
    after.read (.ofString "./CODE_INDEX.md") =
      .ok (run stale { into "CODE_INDEX.md" with stdout := true } (Sink.unlimited .noSpace)).stdout := by
  rcases ran : Index.scanAndWrite stale (.ofString ".") (.ofString "./CODE_INDEX.md") .markdown
    with ⟨after, answer⟩
  obtain ⟨counted, held⟩ :
      (Index.scanAndWrite stale (.ofString ".") (.ofString "./CODE_INDEX.md") .markdown).2 = .ok 1 ∧
        (Index.scanAndWrite stale (.ofString ".") (.ofString "./CODE_INDEX.md") .markdown).1.node?
          [Utf8.encode "CODE_INDEX.md".toList] =
            some (.file (Document.bytes .markdown [⟨"a.py".toList, "# one".toList⟩])) := by
    decide +kernel
  rw [ran] at counted held
  cases counted
  obtain ⟨_, opened, target, document, _, _, opens, _, _, read, _, _, modes⟩ := modes_agree ran
  obtain ⟨inFile, shown⟩ := modes (by decide) (by decide) (into "CODE_INDEX.md")
    { into "CODE_INDEX.md" with stdout := true } .noSpace rfl (by decide) rfl rfl rfl rfl rfl
  obtain rfl : [Utf8.encode "CODE_INDEX.md".toList] = target :=
    Except.ok.inj (congrArg Prod.snd opens.2)
  have summaries : Utf8.encode (summary (into "CODE_INDEX.md") 1) =
      Utf8.encode "Wrote 1 entries to CODE_INDEX.md\n".toList := by decide
  rw [inFile, shown]
  exact ⟨after, rfl, summaries, rfl, read _ held⟩

end Run
end SourceIndex
