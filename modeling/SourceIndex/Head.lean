import SourceIndex.Text.Blank

/-! The head of a file: its first lines, read without looking further than needed.
Input arrives in chunks of any size, and a line may end in `\n`, in `\r\n` or in a
lone `\r`; a pair that is split between two chunks still counts once. Reading stops
with the first byte of the last wanted line end, so nothing behind it is consumed. -/
namespace SourceIndex

/-- An input: chunks, and what comes after the last of them. An empty chunk is the
end of input, whatever follows it. -/
structure Input (ε : Type) where
  chunks : List Bytes
  failure : Option ε

/-- An input that holds `content` and ends well. -/
def Input.ofBytes (content : Bytes) : Input ε := ⟨[content], none⟩

namespace Head

def newline : UInt8 := 0x0A
def carriageReturn : UInt8 := 0x0D

/-- What is known after some bytes: the finished lines and the bytes of the line
in progress, both latest first, and whether the last byte was a carriage return. -/
structure Progress where
  lines : List Bytes
  pending : Bytes
  afterReturn : Bool
  deriving DecidableEq, Repr

namespace Progress

def start : Progress := ⟨[], [], false⟩

def endLine (progress : Progress) (afterReturn : Bool) : Progress :=
  ⟨progress.pending.reverse :: progress.lines, [], afterReturn⟩

def step (progress : Progress) (byte : UInt8) : Progress :=
  if byte = newline then
    if progress.afterReturn then { progress with afterReturn := false }
    else progress.endLine false
  else if byte = carriageReturn then progress.endLine true
  else { progress with pending := byte :: progress.pending, afterReturn := false }

/-- Take bytes until `limit` lines are finished; the number counts the bytes taken. -/
def feed (limit : Nat) (progress : Progress) : Bytes → Progress × Nat
  | [] => (progress, 0)
  | byte :: rest =>
    let next := progress.step byte
    if limit ≤ next.lines.length then (next, 1)
    else
      let (last, taken) := next.feed limit rest
      (last, taken + 1)

/-- The lines in order; an unfinished last line counts when it holds a byte and
there is room for it. -/
def finish (limit : Nat) (progress : Progress) : List Bytes :=
  if progress.lines.length < limit ∧ progress.pending ≠ [] then
    (progress.endLine false).lines.reverse
  else progress.lines.reverse

end Progress

/-- How a line is kept: replaced where it is not UTF-8, without blanks at its end. -/
def lineText (line : Bytes) : Text := Text.trimEnd (Utf8.lossy line)

/-- Read on from `progress`; the number is the total consumed. -/
def readFrom (limit : Nat) (failure : Option ε) (progress : Progress) (consumed : Nat) :
    List Bytes → Except ε (List Bytes) × Nat
  | [] =>
    if limit ≤ progress.lines.length then (.ok (progress.finish limit), consumed)
    else match failure with
      | some cause => (.error cause, consumed)
      | none => (.ok (progress.finish limit), consumed)
  | chunk :: chunks =>
    if limit ≤ progress.lines.length ∨ chunk = [] then (.ok (progress.finish limit), consumed)
    else
      let (next, taken) := progress.feed limit chunk
      readFrom limit failure next (consumed + taken) chunks

/-- The first `limit` lines of an input, and how many bytes were consumed for them. Memory is left
out: room for all `limit` lines would be set aside before the first of them is read, and a limit
beyond any memory would end the program there. -/
def read (limit : Nat) (input : Input ε) : Except ε (List Text) × Nat :=
  let (lines, consumed) := readFrom limit input.failure .start 0 input.chunks
  (lines.map (·.map lineText), consumed)

end Head
end SourceIndex
