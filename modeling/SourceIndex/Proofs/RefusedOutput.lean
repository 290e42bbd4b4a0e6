import SourceIndex.Proofs.DocumentLines
import SourceIndex.Proofs.OutputModes

/-! A run whose standard output takes nothing. A printed line meets the refusal before it is
flushed (`put_full_line`), and a document does so at some point unless it is empty
(`render_full`). What the run makes of the refusal depends on its mode: a refused document
is an error that is reported with its cause, a refused summary ends the program in
another way (`full_stdout`). A summary that is printed but not flushed would be reported
(`toFile_unflushed`). -/
namespace SourceIndex

/-- A sink that takes nothing. -/
def Sink.full (refusal : ε) : Sink ε := ⟨some 0, refusal, none, []⟩

theorem Sink.accept_full (refusal : ε) (bytes : Bytes) :
    (Sink.full refusal).accept bytes =
      (Sink.full refusal, if bytes = [] then none else some refusal) := by
  simp [Sink.full, accept]

namespace Writer

variable {writer : Writer ε} {refusal : ε}

/-- What an operation in front of a full sink comes to: the sink is as it was, and if anything
is refused then for the sink's own reason. -/
structure Blocked (refusal : ε) (answer : Writer ε × Option ε) : Prop where
  sink : answer.1.sink = Sink.full refusal
  cause : ∀ cause, answer.2 = some cause → cause = refusal

theorem Blocked.quiet (full : writer.sink = Sink.full refusal) : Blocked refusal (writer, none) :=
  ⟨full, fun _ none => by cases none⟩

/-- Bytes that go to the sink, whatever the writer then holds. -/
theorem Blocked.passed (full : writer.sink = Sink.full refusal) (buffering : Buffering)
    (held bytes : Bytes) : Blocked refusal
      (⟨buffering, held, (writer.sink.accept bytes).1⟩, (writer.sink.accept bytes).2) := by
  rw [full, Sink.accept_full]
  refine ⟨rfl, fun cause refused => ?_⟩
  dsimp only at refused
  split at refused
  · cases refused
  · exact (Option.some.inj refused).symm

/-- An operation that goes on where another one was not refused. -/
theorem Blocked.andThen {first : Writer ε × Option ε} {next : Writer ε → Writer ε × Option ε} :
    Blocked refusal first →
    (∀ writer : Writer ε, writer.sink = Sink.full refusal → Blocked refusal (next writer)) →
    Blocked refusal (match first with
      | (writer, some cause) => (writer, some cause)
      | (writer, none) => next writer) := by
  intro before further
  split
  · exact before
  · exact further _ before.sink

theorem drain_blocked (full : writer.sink = Sink.full refusal) : Blocked refusal writer.drain :=
  .passed full writer.buffering [] writer.held

theorem putBlock_blocked (full : writer.sink = Sink.full refusal) (size : Nat) (bytes : Bytes) :
    Blocked refusal (writer.putBlock size bytes) := by
  refine Blocked.andThen ?_ fun ready full => ?_
  · split
    · exact .quiet full
    · exact drain_blocked full
  · split
    · exact .quiet full
    · exact .passed full _ _ bytes

theorem putLine_blocked (full : writer.sink = Sink.full refusal) (size : Nat) (bytes : Bytes) :
    Blocked refusal (writer.putLine size bytes) := by
  unfold putLine
  split
  · refine Blocked.andThen ?_ fun ready full => putBlock_blocked full size bytes
    split
    · exact drain_blocked full
    · exact .quiet full
  · rename_i lines tail _
    refine Blocked.andThen ?_ fun ready full => putBlock_blocked full size tail
    split
    · exact .passed full _ _ lines
    · exact (putBlock_blocked full size lines).andThen fun ready full => drain_blocked full

theorem put_blocked (full : writer.sink = Sink.full refusal) (bytes : Bytes) :
    Blocked refusal (writer.put bytes) := by
  unfold put
  split
  · exact .passed full _ _ bytes
  · exact putBlock_blocked full _ bytes
  · exact putLine_blocked full _ bytes

theorem flush_blocked (full : writer.sink = Sink.full refusal) : Blocked refusal writer.flush := by
  refine (drain_blocked full).andThen fun drained full => ⟨full, fun cause refused => ?_⟩
  dsimp only at refused
  rw [full] at refused
  cases refused

theorem exists_cutLines {bytes : Bytes} (ended : 0x0A ∈ bytes) :
    ∃ lines tail, cutLines bytes = some (lines, tail) ∧ lines ≠ [] := by
  rw [cutLines, List.span_eq_takeWhile_dropWhile]
  cases split : bytes.reverse.dropWhile (· != 0x0A) with
  | nil =>
    have other := List.dropWhile_eq_nil_iff.mp split 0x0A (List.mem_reverse.mpr ended)
    cases other
  | cons byte rest => exact ⟨_, _, rfl, by simp⟩

/-- A full sink refuses a finished line as soon as it is put. -/
theorem put_full_line (refusal : ε) (size : Nat) {bytes : Bytes} (ended : 0x0A ∈ bytes) :
    (Writer.over (.line size) (Sink.full refusal)).put bytes =
      (Writer.over (.line size) (Sink.full refusal), some refusal) := by
  obtain ⟨lines, tail, cut, nonempty⟩ := exists_cutLines ended
  have refused : (Sink.full refusal).accept lines = (Sink.full refusal, some refusal) := by
    rw [Sink.accept_full, if_neg nonempty]
  rw [Writer.over, put]
  dsimp only
  rw [putLine, cut]
  dsimp only
  rw [if_pos rfl, refused]

end Writer

namespace Document

variable {refusal : ε}

/-- A document that is not empty is refused by a full sink. -/
private theorem write_blocked {writer : Writer ε} (full : writer.sink = Sink.full refusal)
    (pieces : List Piece) :
    (write writer pieces).1.sink = Sink.full refusal ∧
      ∀ failure, (write writer pieces).2 = some failure → failure.cause = refusal := by
  induction pieces generalizing writer with
  | nil => exact ⟨full, fun _ none => by cases none⟩
  | cons piece rest ih =>
    have first := Writer.put_blocked full (Utf8.encode piece.text)
    rw [write]
    split
    · rename_i put
      rw [put] at first
      exact ih first.sink
    · rename_i cause put
      rw [put] at first
      refine ⟨first.sink, fun failure refused => ?_⟩
      cases refused
      exact first.cause cause rfl

theorem bytes_eq_nil_iff {format : Format} {records : List Record} :
    bytes format records = [] ↔ format = .jsonl ∧ records = [] := by
  constructor
  · intro empty
    rw [bytes, List.flatMap_eq_nil_iff] at empty
    cases format with
    | markdown =>
      have headed := empty (.plain title) (by simp [pieces, markdown, paragraph])
      exact absurd headed (by decide)
    | jsonl =>
      refine ⟨rfl, List.eq_nil_iff_forall_not_mem.mpr fun record member => ?_⟩
      have ended := empty (.plain ['\n'])
        (List.mem_flatMap.mpr ⟨record, member, by simp [jsonlRecord]⟩)
      exact absurd ended (by decide)
  · rintro ⟨rfl, rfl⟩
    rfl

private theorem render_blocked {writer : Writer ε} (full : writer.sink = Sink.full refusal)
    (format : Format) (records : List Record) :
    (render format records writer).1.sink = Sink.full refusal ∧
      ∀ failure, (render format records writer).2 = some failure → failure.cause = refusal := by
  have first := write_blocked full (pieces format records)
  rw [render]
  split
  · rename_i wrote
    rwa [wrote] at first
  · rename_i filled wrote
    rw [wrote] at first
    have flushed := Writer.flush_blocked first.1
    refine ⟨flushed.sink, fun failure refused => ?_⟩
    obtain ⟨cause, met, rfl⟩ := Option.map_eq_some_iff.mp refused
    exact flushed.cause cause met

/-- A full sink takes the empty document and refuses any other. -/
theorem render_full (refusal : ε) (buffering : Buffering) (format : Format) (records : List Record) :
    ∃ next failure, render format records (Writer.over buffering (Sink.full refusal)) = (next, failure) ∧
      next.sink.written = [] ∧ (failure = none ↔ bytes format records = []) ∧
      ∀ refused, failure = some refused → refused.cause = refusal := by
  have full : (Writer.over buffering (Sink.full refusal)).sink = Sink.full refusal := rfl
  have blocked := render_blocked full format records
  rcases rendered : render format records (Writer.over buffering (Sink.full refusal)) with ⟨next, failure⟩
  rw [rendered] at blocked
  have nothing : next.sink.written = [] := by
    rw [blocked.1]
    rfl
  refine ⟨next, failure, rfl, nothing, ⟨?_, fun empty => ?_⟩, blocked.2⟩
  · rintro rfl
    have written := render_ok rendered
    rw [nothing] at written
    exact (List.append_eq_nil_iff.mp written.symm).2
  · obtain ⟨rfl, rfl⟩ := bytes_eq_nil_iff.mp empty
    exact (congrArg Prod.snd rendered).symm

end Document

namespace RunError

variable {text cause : Text}

theorem indented_single (columns : Nat) (single : '\n' ∉ text) : indented columns text = text := by
  induction text with
  | nil => rfl
  | cons char rest ih =>
    obtain ⟨other, plain⟩ := not_or.mp (mt List.mem_cons.mpr single)
    rw [indented, List.flatMap_cons, if_neg (Ne.symm other), ← indented, ih plain]
    rfl

/-- A report names itself in front and has the last cause at its end. -/
theorem report_ends {chain : List Text} (last : chain.getLast? = some cause) (single : '\n' ∉ cause) :
    ∃ context, report chain = "Error: ".toList ++ context ++ cause ++ ['\n'] := by
  unfold report
  split
  · cases last
  · rename_i message
    obtain rfl : message = cause := Option.some.inj last
    exact ⟨[], by rw [List.append_nil]⟩
  · rename_i message other
    obtain rfl : other = cause := Option.some.inj last
    refine ⟨message ++ "\n\nCaused by:\n    ".toList, ?_⟩
    rw [indented_single 4 single, ← List.append_assoc]
  · rename_i message causes further _
    cases causes with
    | nil => exact absurd rfl further
    | cons first rest =>
      rw [List.getLast?_cons_cons] at last
      obtain ⟨before, split⟩ := List.getLast?_eq_some_iff.mp last
      rw [split, List.zipIdx_append, List.flatMap_append]
      let digits := (toString before.length).toList
      refine ⟨message ++ "\n\nCaused by:".toList ++
        (before.zipIdx.flatMap fun entry => '\n' :: numbered entry.2 entry.1) ++
          '\n' :: (List.replicate (5 - digits.length) ' ' ++ digits ++ ": ".toList), ?_⟩
      simp [numbered, indented_single 7 single, digits]

theorem newline_not_mem_refusalText (refusal : Refusal) : '\n' ∉ Index.refusalText refusal := by
  cases refusal <;> decide

end RunError

/-- A run that ends in an error instead, with nothing on either stream. -/
def Outcome.failed (outcome : Outcome) (error : RunError) : Outcome :=
  { outcome with stdout := [], stderr := [], ending := .error error }

/-- What the program shows of a run, and how it exits. -/
def Outcome.exit (outcome : Outcome) (filter : Log.Filter) (site : PanicSite) : Exit :=
  let log := (outcome.events.filter filter.passes).flatMap Event.line
  match outcome.ending with
  | .ok () => ⟨0, outcome.stdout, Utf8.encode (log ++ outcome.stderr), outcome.store⟩
  | .error error => ⟨error.exitCode, outcome.stdout,
      Utf8.encode (log ++ outcome.stderr ++ error.text site), outcome.store⟩

section Exit

variable (outcome : Outcome) (filter : Log.Filter) (site : PanicSite)

@[simp] theorem Outcome.exit_stdout : (outcome.exit filter site).stdout = outcome.stdout := by
  rw [exit]
  split <;> rfl

@[simp] theorem Outcome.exit_store : (outcome.exit filter site).store = outcome.store := by
  rw [exit]
  split <;> rfl

end Exit

theorem program_run {arguments : List Bytes} {settings : CommandLine.Settings}
    (parsed : CommandLine.parse arguments = .ok settings) (store : Store) (filter : Option Bytes)
    (stdout : Sink Refusal) (site : PanicSite) : program store arguments filter stdout site =
      (Run.run store settings stdout).exit (Log.choose filter settings.verbose) site := by
  rw [program, parsed]
  dsimp only [Outcome.exit]
  cases (Run.run store settings stdout).ending with
  | ok => simp
  | error error => rfl

namespace Run

open CommandLine (Settings)

variable {store : Store} {settings : Settings}

/-- What a full standard output makes of a run: nothing if the run does not print, else the run
is cut off by an error of this kind. -/
inductive CutOff (kind : RunError → Prop) (shown : Outcome) : Outcome → Prop where
  | silent (nothing : shown.stdout = []) : CutOff kind shown shown
  | refused (printed : shown.stdout ≠ []) (error : RunError) (fits : kind error) :
      CutOff kind shown (shown.failed error)

/-- The error of a document that was refused for this reason. -/
def IsDocumentError (refusal : Refusal) (error : RunError) : Prop :=
  ∃ failure, error = .document failure ∧ failure.cause = refusal

theorem toStdout_full (store : Store) (settings : Settings) (refusal : Refusal) :
    CutOff (IsDocumentError refusal) (toStdout store settings (Sink.unlimited refusal))
      (toStdout store settings (Sink.full refusal)) := by
  obtain ⟨next, failure, rendered, nothing, taken, cause⟩ := Document.render_full refusal
    (.line lineBuffer) settings.format (Index.ofRoot store settings.root)
  rw [toStdout_unlimited, toStdout, stdoutWriter, rendered]
  dsimp only
  rw [nothing]
  cases failure with
  | none =>
    rw [taken.mp rfl]
    exact .silent rfl
  | some failure =>
    refine .refused (fun empty => ?_) _ ⟨failure, rfl, cause failure rfl⟩
    exact Option.some_ne_none failure (taken.mpr empty)

theorem toFile_full (store : Store) (settings : Settings) (refusal : Refusal) :
    CutOff (· = .summary refusal) (toFile store settings (Sink.unlimited refusal))
      (toFile store settings (Sink.full refusal)) := by
  rcases ran : Index.scanAndWrite store settings.root (outputPath settings) settings.format
    with ⟨after, answer⟩
  cases answer with
  | error error =>
    rw [toFile_failed _ ran, toFile_failed _ ran]
    exact .silent rfl
  | ok count =>
    have ended : 0x0A ∈ Utf8.encode (summary settings count) :=
      Document.newline_mem_encode.mpr (by simp [summary])
    have shown : Utf8.encode (summary settings count) ≠ [] := List.ne_nil_of_mem ended
    have refused := Writer.put_full_line refusal lineBuffer ended
    have nothing : (Writer.over (.line lineBuffer) (Sink.full refusal)).sink.written = [] := rfl
    rw [toFile_unlimited refusal ran, toFile_unprinted ran refused, nothing]
    refine .refused ?_ _ rfl
    exact shown

/-- The error of a run whose standard output refused a part of it. -/
def IsRefusal (settings : Settings) (refusal : Refusal) (error : RunError) : Prop :=
  if settings.stdout then IsDocumentError refusal error else error = .summary refusal

theorem run_full (store : Store) (settings : Settings) (refusal : Refusal) :
    CutOff (IsRefusal settings refusal) (run store settings (Sink.unlimited refusal))
      (run store settings (Sink.full refusal)) := by
  by_cases directory : store.isDirectory settings.root = false
  · have same : ∀ sink, run store settings sink =
        ⟨store, [], [], [], .error (.root settings.root)⟩ := by
      intro sink
      rw [run, if_pos directory]
    rw [same, same]
    exact .silent rfl
  have stands := eq_true_of_ne_false directory
  unfold IsRefusal
  cases mode : settings.stdout with
  | true =>
    rw [run_toStdout stands mode, run_toStdout stands mode]
    exact toStdout_full store settings refusal
  | false =>
    rw [run_toFile stands mode, run_toFile stands mode]
    exact toFile_full store settings refusal

/-- In stdout mode nothing is printed for an empty document only. -/
theorem shown_eq_nil_iff (directory : store.isDirectory settings.root = true)
    (mode : settings.stdout = true) (refusal : Refusal) :
    (run store settings (Sink.unlimited refusal)).stdout = [] ↔
      settings.format = .jsonl ∧ Index.ofRoot store settings.root = [] := by
  rw [run_toStdout directory mode, toStdout_unlimited]
  exact Document.bytes_eq_nil_iff

/-- The exit that a refusal of the standard output is to lead to: code 1, after the report of an
error whose last cause is the refusal. -/
def Reported (refusal : Refusal) (exit : Exit) : Prop :=
  exit.code = 1 ∧ ∃ log chain context, exit.stderr = Utf8.encode (log ++ RunError.report chain) ∧
    chain.getLast? = some (Index.refusalText refusal) ∧
    RunError.report chain = "Error: ".toList ++ context ++ Index.refusalText refusal ++ ['\n']

/-- The exit of a program that breaks off when it cannot print: code 101, after a message with the
refusal and the place in the code. -/
def BrokenOff (refusal : Refusal) (site : PanicSite) (exit : Exit) : Prop :=
  exit.code = 101 ∧
    ∃ log, exit.stderr = Utf8.encode (log ++
      site.report ("failed printing to stdout: ".toList ++ Index.refusalText refusal))

theorem reported_of_chain {refusal : Refusal} {exit : Exit} {log : Text} (chain : List Text)
    (code : exit.code = 1) (shown : exit.stderr = Utf8.encode (log ++ RunError.report chain))
    (last : chain.getLast? = some (Index.refusalText refusal)) : Reported refusal exit := by
  obtain ⟨context, ends⟩ :=
    RunError.report_ends last (RunError.newline_not_mem_refusalText refusal)
  exact ⟨code, log, chain, context, shown, last, ends⟩

theorem not_reported_of_brokenOff {refusal : Refusal} {site : PanicSite} {exit : Exit}
    (broken : BrokenOff refusal site exit) : ¬ Reported refusal exit := by
  intro reported
  have code : 101 = 1 := broken.1.symm.trans reported.1
  cases code

/-- A refused document is reported with its cause. -/
theorem reported_document (outcome : Outcome) (filter : Log.Filter) (site : PanicSite)
    (failure : Document.Failure Refusal) :
    Reported failure.cause ((outcome.failed (.document failure)).exit filter site) := by
  refine reported_of_chain (RunError.document failure).chain rfl rfl ?_
  rw [RunError.chain, Index.failureChain]
  split <;> rfl

theorem reported_flush {outcome : Outcome} {cause : Refusal}
    (ended : outcome.ending = .error (.flush cause)) (filter : Log.Filter) (site : PanicSite) :
    Reported cause (outcome.exit filter site) := by
  rw [Outcome.exit, ended]
  exact reported_of_chain (RunError.flush cause).chain rfl rfl rfl

/-- A standard output that takes everything but cannot be flushed: the summary is there, and the
failure is reported. -/
theorem toFile_unflushed {after : Store} {count : Nat} {stdout : Sink Refusal} {cause : Refusal}
    (endless : stdout.Endless) (empty : stdout.written = [])
    (fails : stdout.flushFailure = some cause)
    (done : Index.scanAndWrite store settings.root (outputPath settings) settings.format =
      (after, .ok count)) (filter : Log.Filter) (site : PanicSite) :
    (toFile store settings stdout).stdout = Utf8.encode (summary settings count) ∧
      Reported cause ((toFile store settings stdout).exit filter site) := by
  have ran := toFile_endless endless empty done
  rw [fails] at ran
  refine ⟨by rw [ran], reported_flush ?_ filter site⟩
  rw [ran]
  rfl

/-- What a full standard output makes of a run. A run that has nothing to print does not notice
it. Of the others those in stdout mode exit with code 1 and report the refusal as the last cause
of an error, and those in file mode, whose index is written by then, break off with code 101
and a message that is no report of an error. In stdout mode there is nothing to print exactly
for the line format of an empty index, and then the exit code is 0. -/
theorem full_stdout {arguments : List Bytes} {settings : Settings}
    (parsed : CommandLine.parse arguments = .ok settings) (store : Store) (filter : Option Bytes)
    (refusal : Refusal) (site : PanicSite) :
    ∃ shown refused, program store arguments filter (Sink.unlimited refusal) site = shown ∧
      program store arguments filter (Sink.full refusal) site = refused ∧
      refused.stdout = [] ∧ refused.store = shown.store ∧
      (shown.stdout = [] → refused = shown) ∧
      (shown.stdout ≠ [] → (Reported refusal refused ↔ settings.stdout = true) ∧
        (BrokenOff refusal site refused ↔ settings.stdout = false)) ∧
      (settings.stdout = true → store.isDirectory settings.root = true →
        (shown.stdout = [] ↔ settings.format = .jsonl ∧ Index.ofRoot store settings.root = []) ∧
        (shown.stdout = [] → refused.code = 0)) := by
  refine ⟨_, _, rfl, rfl, ?_⟩
  simp only [program_run parsed, Outcome.exit_stdout, Outcome.exit_store]
  have ended : settings.stdout = true → store.isDirectory settings.root = true →
      (run store settings (Sink.unlimited refusal)).ending = .ok () := by
    intro mode directory
    rw [run_toStdout directory mode, toStdout_unlimited]
  have empty : settings.stdout = true → store.isDirectory settings.root = true →
      ((run store settings (Sink.unlimited refusal)).stdout = [] ↔
        settings.format = .jsonl ∧ Index.ofRoot store settings.root = []) :=
    fun mode directory => shown_eq_nil_iff directory mode refusal
  have cutOff := run_full store settings refusal
  generalize run store settings (Sink.unlimited refusal) = shown at *
  generalize run store settings (Sink.full refusal) = refused at *
  cases cutOff with
  | silent nothing =>
    refine ⟨nothing, rfl, fun _ => rfl, fun printed => absurd nothing printed,
      fun mode directory => ⟨empty mode directory, fun _ => ?_⟩⟩
    rw [Outcome.exit, ended mode directory]
  | refused printed error fits =>
    refine ⟨rfl, rfl, fun none => absurd none printed, fun _ => ?_,
      fun mode directory => ⟨empty mode directory, fun none => absurd none printed⟩⟩
    unfold IsRefusal at fits
    cases mode : settings.stdout with
    | true =>
      rw [mode] at fits
      obtain ⟨failure, rfl, rfl⟩ := fits
      have reported := reported_document shown (Log.choose filter settings.verbose) site failure
      refine ⟨iff_of_true reported rfl, iff_of_false (fun broken => ?_) (by decide)⟩
      exact not_reported_of_brokenOff broken reported
    | false =>
      rw [mode] at fits
      cases fits
      have broken : BrokenOff refusal site
          ((shown.failed (.summary refusal)).exit (Log.choose filter settings.verbose) site) :=
        ⟨rfl, _, rfl⟩
      exact ⟨iff_of_false (not_reported_of_brokenOff broken) (by decide), iff_of_true broken rfl⟩

theorem full_stdout_document :
    CommandLine.parse [Utf8.encode "--stdout".toList] = .ok { into "CODE_INDEX.md" with stdout := true } ∧
      Reported .noSpace
        (program stale [Utf8.encode "--stdout".toList] none (Sink.full .noSpace)) := by
  have parsed : CommandLine.parse [Utf8.encode "--stdout".toList] =
      .ok { into "CODE_INDEX.md" with stdout := true } := by decide +kernel
  obtain ⟨shown, refused, _, rfl, _, _, _, printed, document⟩ :=
    full_stdout parsed stale none .noSpace {}
  have nonempty : shown.stdout ≠ [] := fun empty =>
    absurd ((document rfl (by decide)).1.mp empty).1 (by decide)
  exact ⟨parsed, (printed nonempty).1.mpr rfl⟩

/-- A run in file mode writes its index and breaks off without an error report. -/
theorem full_stdout_summary :
    CommandLine.parse [] = .ok (into "CODE_INDEX.md") ∧
      (program ⟨[], []⟩ [] none (Sink.unlimited .noSpace)).stdout =
        Utf8.encode "Wrote 0 entries to CODE_INDEX.md\n".toList ∧
      (program ⟨[], []⟩ [] none (Sink.full .noSpace)).code = 101 ∧
      (program ⟨[], []⟩ [] none (Sink.full .noSpace)).stderr =
        Utf8.encode ("\nthread 'main' (4) panicked at ".toList ++
          "/rustc/b940084d7eb6a299eb4bfeb8e34901bc051e7ac4/".toList ++
          "library/std/src/io/stdio.rs:1168:9:\n".toList ++
          "failed printing to stdout: No space left on device (os error 28)\n".toList ++
          "note: run with `RUST_BACKTRACE=1` environment variable to display a backtrace\n".toList) ∧
      ¬ Reported .noSpace (program ⟨[], []⟩ [] none (Sink.full .noSpace)) := by
  have shown : (program ⟨[], []⟩ [] none (Sink.unlimited .noSpace)).stdout =
      Utf8.encode "Wrote 0 entries to CODE_INDEX.md\n".toList := by decide +kernel
  have code : (program ⟨[], []⟩ [] none (Sink.full .noSpace)).code = 101 := by decide +kernel
  refine ⟨by decide +kernel, shown, code, by decide +kernel, fun reported => ?_⟩
  cases code.symm.trans reported.1

end Run
end SourceIndex
