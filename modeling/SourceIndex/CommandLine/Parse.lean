import SourceIndex.CommandLine.Error

/-! Reading a command line. Arguments are taken from left to right; a value that has
been given is only looked at when the next argument takes effect, so an unknown
argument is reported before a bad value in front of it. What was used is kept in the
order in which it took effect. -/
namespace SourceIndex.CommandLine

/-- An argument whose value is still to come or still to be looked at. -/
structure Pending where
  argument : Argument
  value : Option Bytes
  deriving DecidableEq, Repr

/-- What has been read so far. -/
structure Progress where
  used : List Argument
  pending : Option Pending
  /-- Whether the one positional argument has been met. -/
  rootMet : Bool
  root : Path
  output : Path
  format : Format
  verbose : Nat
  deriving DecidableEq, Repr

namespace Progress

def start : Progress := ⟨[], none, false, defaultRoot, defaultOutput, .markdown, 0⟩

/-- A step that may fail still leaves what it had done. -/
abbrev Outcome := Progress × Option ParseError

def setValue (progress : Progress) : Argument → Bytes → Outcome
  | .root, value => ({ progress with root := ⟨value⟩ }, none)
  | .output, value => ({ progress with output := ⟨value⟩ }, none)
  | .format, value =>
    match (Utf8.text? value).bind (Format.ofName? false) with
    | some format => ({ progress with format }, none)
    | none => (progress, some (.invalidFormat (Utf8.lossy value)))
  | _, _ => (progress, none)

/-- Give an argument its value. Only once, and never the empty one. -/
def assign (progress : Progress) (argument : Argument) (value : Bytes) : Outcome :=
  if argument ∈ progress.used then
    ({ progress with used := progress.used.erase argument }, some (.repeated argument))
  else
    let progress := { progress with used := progress.used ++ [argument] }
    if value = [] then (progress, some (.missingValue argument))
    else progress.setValue argument value

/-- Settle what is pending. -/
def settle (progress : Progress) : Outcome :=
  match progress.pending with
  | none => (progress, none)
  | some ⟨argument, value⟩ =>
    let progress := { progress with pending := none }
    match value with
    | none => (progress, some (.missingValue argument))
    | some value => progress.assign argument value

/-- Settle, and go on if that goes well. -/
def settled (progress : Progress) : Except ParseError Progress :=
  match progress.settle with
  | (progress, none) => .ok progress
  | (_, some error) => .error error

/-- Settle whatever comes of it, before another error is reported. -/
def abandoned (progress : Progress) : Progress := progress.settle.1

/-- A flag takes effect. -/
def flag (progress : Progress) (argument : Argument) (long : Bool) :
    Except ParseError Progress := do
  let progress ← progress.settled
  match argument with
  | .stdout =>
    if argument ∈ progress.used then throw (.repeated argument)
    return { progress with used := progress.used ++ [argument] }
  | .verbose =>
    return { progress with
      used := progress.used.erase argument ++ [argument]
      verbose := min maxVerbose (progress.verbose + 1) }
  | .help => throw (.help long)
  | .version => throw .version
  | _ => return progress

/-- An option takes effect, with the value attached to it if there is one. -/
def option (progress : Progress) (argument : Argument) (attached : Option Bytes) :
    Except ParseError Progress := do
  let progress ← progress.settled
  match attached with
  | none => return { progress with pending := some ⟨argument, none⟩ }
  | some value =>
    match progress.assign argument value with
    | (progress, none) => return progress
    | (_, some error) => throw error

/-- A long argument nobody knows. -/
def unknownLong (progress : Progress) (name : Text) : ParseError :=
  let used := progress.abandoned.used
  let shown := '-' :: '-' :: name
  match Text.Similarity.best? name Argument.longNames with
  | some argument =>
    .unknown shown (.similar argument) (if argument ∈ used then used else used ++ [argument])
  | none => .unknown shown .asValue used

/-- A long argument, from behind its dashes. -/
def long (progress : Progress) (body : Bytes) : Except ParseError Progress :=
  let (name, attached) : Bytes × Option Bytes := match body.span (· != 0x3D) with
    | (name, []) => (name, none)
    | (name, _ :: value) => (name, some value)
  match (Utf8.text? name).bind Argument.ofLong? with
  | none => .error (progress.unknownLong (Utf8.lossy name))
  | some argument =>
    if argument.takesValue then progress.option argument attached
    else match attached with
      | none => progress.flag argument true
      | some value =>
        .error (.unneededValue (Utf8.lossy value) argument (progress.used ≠ []))

/-- The member of a cluster that nobody knows. -/
def unknownShort (rest : Bytes) : ParseError :=
  let shown : Text := match Utf8.decode rest with
    | .scalar char :: _ => ['-', char]
    | _ => '-' :: Utf8.lossy rest
  .unknown shown .asValue []

/-- A cluster of short arguments, from behind its dash. An option takes the rest of the
cluster as its value, without one equals sign in front. -/
def cluster (progress : Progress) : Bytes → Except ParseError Progress
  | [] => .ok progress
  | byte :: rest =>
    match Argument.ofShort? byte with
    | none => .error (unknownShort (byte :: rest))
    | some argument =>
      if argument.takesValue then
        match rest with
        | [] => progress.option argument none
        | 0x3D :: value => progress.option argument (some value)
        | value => progress.option argument (some value)
      else do cluster (← progress.flag argument false) rest

/-- A word that is neither an option nor a value of one. -/
def positional (progress : Progress) (word : Bytes) : Except ParseError Progress :=
  if progress.rootMet then .error (.unknown (Utf8.lossy word) .none [])
  else do
    let progress ← progress.settled
    return { progress with rootMet := true, pending := some ⟨.root, some word⟩ }

/-- The option that waits for a value, if there is one. -/
def waiting? (progress : Progress) : Option Argument :=
  match progress.pending with
  | some ⟨argument, none⟩ => some argument
  | _ => none

/-- One argument before any `--`. -/
def word (progress : Progress) : Bytes → Except ParseError Progress
  | 0x2D :: 0x2D :: body => progress.long body
  | 0x2D :: byte :: rest => progress.cluster (byte :: rest)
  | value =>
    match progress.waiting? with
    | some argument => .ok { progress with pending := some ⟨argument, some value⟩ }
    | none => progress.positional value

/-- Read arguments; behind the first `--` all of them are positional. -/
def read (progress : Progress) : List Bytes → Except ParseError Progress
  | [] => .ok progress
  | [0x2D, 0x2D] :: rest => rest.foldlM positional progress
  | argument :: rest => do read (← progress.word argument) rest

/-- The order in which two arguments that exclude each other were used. -/
def conflict? (progress : Progress) : Option (Argument × Argument) :=
  match progress.used.filter fun argument => argument = .stdout ∨ argument = .output with
  | [first, second] => some (first, second)
  | _ => none

/-- What the arguments ask for, once all of them are read. -/
def finish (progress : Progress) : Except ParseError Settings := do
  let progress ← progress.settled
  match progress.conflict? with
  | some (first, second) =>
    throw (.conflict first second (progress.used.filter (· ≠ second)))
  | none =>
    return ⟨progress.root, progress.output, progress.format, .stdout ∈ progress.used,
      progress.verbose⟩

end Progress

/-- The settings that a list of arguments stands for. -/
def parse (arguments : List Bytes) : Except ParseError Settings := do
  (← Progress.start.read arguments).finish

end SourceIndex.CommandLine
