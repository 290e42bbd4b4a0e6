import SourceIndex.Json.Number

/-! JSON values nobody reads. They may nest to any depth: what is still open is kept
as a list, innermost first, so no depth is special. -/
namespace SourceIndex.Json.Cursor

/-- A bracket that is still open. -/
inductive Frame where
  | list
  | map
  deriving DecidableEq, Repr

/-- Where a skip stands inside what is open: before a value, right after an opening
bracket, or after a complete element. -/
inductive Phase where
  | value
  | opened
  | element
  deriving DecidableEq, Repr

def Frame.closing : Frame → UInt8
  | .list => 0x5D
  | .map => 0x7D

def Frame.unfinished : Frame → Cause
  | .list => .endInList
  | .map => .endInObject

def Frame.expected : Frame → Cause
  | .list => .expectedCommaOrBracket
  | .map => .expectedCommaOrBrace

/-- A value that holds no others; its first byte decides what it has to be. -/
def skipScalar (byte : UInt8) (cursor : Cursor) : Except Fault Cursor :=
  let after : Cursor := ⟨cursor.offset + 1, cursor.rest.drop 1⟩
  if byte = 0x6E then word [0x75, 0x6C, 0x6C] after
  else if byte = 0x74 then word [0x72, 0x75, 0x65] after
  else if byte = 0x66 then word [0x61, 0x6C, 0x73, 0x65] after
  else if byte = 0x2D then skipNumber after
  else if isDigit byte then skipNumber cursor
  else if byte = 0x22 then skipString after
  else .error (cursor.next .expectedValue)

/-- The key and colon of a member nobody reads; a list element has none. -/
def skipKey (frame : Frame) (cursor : Cursor) : Except Fault Cursor :=
  match frame with
  | .list => .ok cursor
  | .map => do
    let cursor := cursor.skipBlanks
    match cursor.rest with
    | [] => throw (cursor.taken .endInObject)
    | byte :: rest =>
      if byte ≠ 0x22 then throw (cursor.next .keyNotString)
      let after := (← skipString ⟨cursor.offset + 1, rest⟩).skipBlanks
      match after.rest with
      | [] => throw (after.taken .endInObject)
      | byte :: rest =>
        if byte ≠ 0x3A then throw (after.next .expectedColon)
        return ⟨after.offset + 1, rest⟩

/-- Skip on until nothing is open; every step takes a byte or moves past a bracket that
an earlier step took, so twice the rest of the input bounds the steps. -/
def skipOpen : (steps : Nat) → Phase → List Frame → Cursor → Except Fault Cursor
  | 0, _, _, cursor => .error (cursor.taken .endInValue)
  | steps + 1, .value, frames, cursor =>
    let cursor := cursor.skipBlanks
    match cursor.rest with
    | [] => .error (cursor.taken .endInValue)
    | byte :: rest =>
      if byte = 0x5B then skipOpen steps .opened (.list :: frames) ⟨cursor.offset + 1, rest⟩
      else if byte = 0x7B then skipOpen steps .opened (.map :: frames) ⟨cursor.offset + 1, rest⟩
      else do
        let after ← skipScalar byte cursor
        skipOpen steps .element frames after
  | _ + 1, _, [], cursor => .ok cursor
  | steps + 1, phase, frame :: frames, cursor =>
    let cursor := cursor.skipBlanks
    match cursor.rest with
    | [] => .error (cursor.taken frame.unfinished)
    | byte :: rest =>
      let after : Cursor := ⟨cursor.offset + 1, rest⟩
      if byte = frame.closing then skipOpen steps .element frames after
      else match phase with
        | .opened => do skipOpen steps .value (frame :: frames) (← skipKey frame cursor)
        | _ =>
          if byte = 0x2C then do
            skipOpen steps .value (frame :: frames) (← skipKey frame after)
          else .error (cursor.next frame.expected)

/-- The end of a value nobody reads. -/
def skipValue (cursor : Cursor) : Except Fault Cursor :=
  skipOpen (2 * cursor.rest.length + 2) .value [] cursor

end SourceIndex.Json.Cursor
