import SourceIndex.Text.Utf8

/-! Where documents go. A sink takes bytes until its room is used up and refuses the
rest with a cause; a write that does not fit still puts down the part that does. In
front of a sink there may be a buffer, which holds bytes back until it has to pass
them on, so a refusal can show up at a later write or only when the buffer is flushed. -/
namespace SourceIndex

/-- A receiver of bytes. -/
structure Sink (ε : Type) where
  /-- How many more bytes it takes; `none` is no limit. -/
  room : Option Nat
  /-- Why it refuses what does not fit. -/
  refusal : ε
  /-- Why a flush fails, if it does. -/
  flushFailure : Option ε
  written : Bytes
  deriving DecidableEq, Repr

namespace Sink

/-- A sink that takes everything. -/
def unlimited (refusal : ε) : Sink ε := ⟨none, refusal, none, []⟩

def accept (sink : Sink ε) (bytes : Bytes) : Sink ε × Option ε :=
  match sink.room with
  | none => ({ sink with written := sink.written ++ bytes }, none)
  | some room =>
    ({ sink with room := some (room - bytes.length), written := sink.written ++ bytes.take room },
      if bytes.length ≤ room then none else some sink.refusal)

end Sink

/-- How a writer holds bytes back: not at all, up to a number of bytes, or up to a
number of bytes but never a finished line. -/
inductive Buffering where
  | direct
  | block (size : Nat)
  | line (size : Nat)
  deriving DecidableEq, Repr

/-- A sink behind its buffer. -/
structure Writer (ε : Type) where
  buffering : Buffering
  held : Bytes
  sink : Sink ε
  deriving DecidableEq, Repr

namespace Writer

def «over» (buffering : Buffering) (sink : Sink ε) : Writer ε := ⟨buffering, [], sink⟩

/-- Pass on what is held; what the sink refuses is lost. -/
def drain (writer : Writer ε) : Writer ε × Option ε :=
  let (sink, failure) := writer.sink.accept writer.held
  ({ writer with held := [], sink }, failure)

/-- Bytes that do not fit the free part of the buffer empty it first, and bytes that
could fill a whole buffer go past it. -/
def putBlock (size : Nat) (writer : Writer ε) (bytes : Bytes) : Writer ε × Option ε :=
  match if writer.held.length + bytes.length ≤ size then (writer, none) else writer.drain with
  | (writer, some cause) => (writer, some cause)
  | (writer, none) =>
    if bytes.length < size then ({ writer with held := writer.held ++ bytes }, none)
    else
      let (sink, failure) := writer.sink.accept bytes
      ({ writer with sink }, failure)

/-- Bytes cut behind their last line end, if they hold one. -/
def cutLines (bytes : Bytes) : Option (Bytes × Bytes) :=
  match bytes.reverse.span (· != 0x0A) with
  | (_, []) => none
  | (tail, lines) => some (lines.reverse, tail.reverse)

/-- Finished lines are passed on at once, together with what was held before them. -/
def putLine (size : Nat) (writer : Writer ε) (bytes : Bytes) : Writer ε × Option ε :=
  match cutLines bytes with
  | none =>
    match if writer.held.getLast? = some 0x0A then writer.drain else (writer, none) with
    | (writer, some cause) => (writer, some cause)
    | (writer, none) => writer.putBlock size bytes
  | some (lines, tail) =>
    let passed : Writer ε × Option ε :=
      if writer.held = [] then
        let (sink, failure) := writer.sink.accept lines
        ({ writer with sink }, failure)
      else match writer.putBlock size lines with
        | (writer, some cause) => (writer, some cause)
        | (writer, none) => writer.drain
    match passed with
    | (writer, some cause) => (writer, some cause)
    | (writer, none) => writer.putBlock size tail

/-- Write all bytes, or report why not. -/
def put (writer : Writer ε) (bytes : Bytes) : Writer ε × Option ε :=
  match writer.buffering with
  | .direct =>
    let (sink, failure) := writer.sink.accept bytes
    ({ writer with sink }, failure)
  | .block size => writer.putBlock size bytes
  | .line size => writer.putLine size bytes

/-- Pass on what is held and flush the sink. -/
def flush (writer : Writer ε) : Writer ε × Option ε :=
  match writer.drain with
  | (writer, some cause) => (writer, some cause)
  | (writer, none) => (writer, writer.sink.flushFailure)

end Writer
end SourceIndex
