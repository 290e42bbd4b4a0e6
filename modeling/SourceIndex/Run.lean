import SourceIndex.CommandLine.Parse
import SourceIndex.Index

/-! A run of the program: settings and a file system go in; a file system, the two
output streams and an ending come out. In file mode the index goes to a file and a
summary to the standard output; in stdout mode the document takes the standard output
and the summary moves to the error stream. -/
namespace SourceIndex

/-- Why a run fails. -/
inductive RunError where
  | root (root : Path)
  | indexing (root : Path) (error : Index.WriteError)
  | document (failure : Document.Failure Refusal)
  /-- The summary cannot be printed. -/
  | summary (refusal : Refusal)
  /-- The summary is printed, but the standard output cannot be flushed. -/
  | flush (refusal : Refusal)
  deriving DecidableEq, Repr

/-- Where a program stands that breaks off while it prints: the number that the system gave to its
thread, and the place in the code. The number given here is that of a program which is started
by itself. -/
structure PanicSite where
  thread : Nat := 4
  place : Text := "/rustc/b940084d7eb6a299eb4bfeb8e34901bc051e7ac4/".toList ++
    "library/std/src/io/stdio.rs:1168:9".toList

/-- What the error stream shows of a program that breaks off with this message. -/
def PanicSite.report (site : PanicSite) (message : Text) : Text :=
  "\nthread 'main' (".toList ++ (toString site.thread).toList ++ ") panicked at ".toList ++
    site.place ++ ":\n".toList ++ message ++ "\nnote: run with `RUST_BACKTRACE=1` ".toList ++
    "environment variable to display a backtrace\n".toList

namespace RunError

def unprinted (refusal : Refusal) : Text :=
  "failed printing to stdout: ".toList ++ Index.refusalText refusal

/-- The messages from what was being done down to the cause. -/
def chain : RunError → List Text
  | .root path => ["root ".toList ++ path.display ++ " is not a directory".toList]
  | .indexing path error => ("indexing ".toList ++ path.display) :: error.chain
  | .document failure => "writing index to stdout".toList ::
      Index.failureChain Index.refusalText failure
  | .summary refusal => [unprinted refusal]
  | .flush refusal => [Index.refusalText refusal]

/-- Later lines of a message are indented like its first one. -/
def indented (columns : Nat) (text : Text) : Text :=
  text.flatMap fun char =>
    if char = '\n' then '\n' :: List.replicate columns ' ' else [char]

/-- One of several causes, by its number. -/
def numbered (number : Nat) (text : Text) : Text :=
  let digits := (toString number).toList
  List.replicate (5 - digits.length) ' ' ++ digits ++ ": ".toList ++ indented 7 text

/-- A chain of messages as the error stream shows it. -/
def report : List Text → Text
  | [] => []
  | [message] => "Error: ".toList ++ message ++ ['\n']
  | [message, cause] =>
    "Error: ".toList ++ message ++ "\n\nCaused by:\n    ".toList ++ indented 4 cause ++ ['\n']
  | message :: causes =>
    "Error: ".toList ++ message ++ "\n\nCaused by:".toList ++
      (causes.zipIdx.flatMap fun (cause, number) => '\n' :: numbered number cause) ++ ['\n']

/-- What the error stream gets. A summary that cannot be printed is not expected: the program
breaks off at once, without the report of an error. -/
def text (site : PanicSite) : RunError → Text
  | .summary refusal => site.report (unprinted refusal)
  | error => report error.chain

def exitCode : RunError → Nat
  | .summary _ => 101
  | _ => 1

end RunError

/-- What a run leaves and shows. -/
structure Outcome where
  store : Store
  events : List Event
  stdout : Bytes
  stderr : Text
  ending : Except RunError Unit

namespace Run

open CommandLine (Settings)

/-- The bytes that the standard output holds back within a line. -/
def lineBuffer : Nat := 1024

def stdoutWriter (stdout : Sink Refusal) : Writer Refusal := Writer.over (.line lineBuffer) stdout

/-- Where the index goes: a relative output lies in the root. -/
def outputPath (settings : Settings) : Path :=
  if settings.output.isAbsolute then settings.output else settings.root.join settings.output

/-- How the summary names the index file; the working directory is not spelled out. -/
def shownOutput (settings : Settings) : Path :=
  if settings.root.Same CommandLine.defaultRoot ∧ settings.output.isAbsolute = false
  then settings.output else outputPath settings

def countText (count : Nat) : Text := s!"Wrote {count} entries to ".toList

def toStdout (store : Store) (settings : Settings) (stdout : Sink Refusal) : Outcome :=
  let records := Index.ofRoot store settings.root
  let (writer, failure) := Document.render settings.format records (stdoutWriter stdout)
  let events := Index.rootEvents store settings.root
  match failure with
  | none =>
    ⟨store, events, writer.sink.written, countText records.length ++ "stdout\n".toList, .ok ()⟩
  | some failure => ⟨store, events, writer.sink.written, [], .error (.document failure)⟩

def toFile (store : Store) (settings : Settings) (stdout : Sink Refusal) : Outcome :=
  let output := outputPath settings
  let events := Index.scanEvents store settings.root output
  match Index.scanAndWrite store settings.root output settings.format with
  | (store, .error error) => ⟨store, events, [], [], .error (.indexing settings.root error)⟩
  | (store, .ok count) =>
    let summary := countText count ++ (shownOutput settings).display ++ ['\n']
    match (stdoutWriter stdout).put (Utf8.encode summary) with
    | (writer, some refusal) =>
      ⟨store, events, writer.sink.written, [], .error (.summary refusal)⟩
    | (writer, none) =>
      match writer.flush with
      | (writer, some refusal) =>
        ⟨store, events, writer.sink.written, [], .error (.flush refusal)⟩
      | (writer, none) => ⟨store, events, writer.sink.written, [], .ok ()⟩

/-- Run with these settings. -/
def run (store : Store) (settings : Settings) (stdout : Sink Refusal) : Outcome :=
  if store.isDirectory settings.root = false then
    ⟨store, [], [], [], .error (.root settings.root)⟩
  else if settings.stdout then toStdout store settings stdout
  else toFile store settings stdout

end Run

/-- How a call of the program ends: its exit code, the bytes on both streams, and the
file system after it. -/
structure Exit where
  code : Nat
  stdout : Bytes
  stderr : Bytes
  store : Store

/-- A whole call of the program, from its arguments to its exit code. `filter` is the log
setting of the environment, and `site` is where the program stands if it breaks off. -/
def program (store : Store) (arguments : List Bytes) (filter : Option Bytes)
    (stdout : Sink Refusal) (site : PanicSite := {}) : Exit :=
  match CommandLine.parse arguments with
  | .error error =>
    let text := Utf8.encode error.streamMessage.toList
    if error.isAnswer then
      let (writer, _) := (Run.stdoutWriter stdout).put text
      ⟨error.exitCode, writer.flush.1.sink.written, [], store⟩
    else ⟨error.exitCode, [], text, store⟩
  | .ok settings =>
    let outcome := Run.run store settings stdout
    let filter := Log.choose filter settings.verbose
    let log := (outcome.events.filter filter.passes).flatMap Event.line
    let (code, report) : Nat × Text := match outcome.ending with
      | .ok () => (0, [])
      | .error error => (error.exitCode, error.text site)
    ⟨code, outcome.stdout, Utf8.encode (log ++ outcome.stderr ++ report), outcome.store⟩

end SourceIndex
