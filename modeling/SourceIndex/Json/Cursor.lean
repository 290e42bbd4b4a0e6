import SourceIndex.Json.Fault

/-! A place in a JSON text, and the tokens that can be read at it: blanks, fixed
words, string literals and the digits of numbers. A fault is reported either for the
bytes taken so far or, where the next byte is to blame, for one byte more. -/
namespace SourceIndex.Json

/-- The bytes not yet read, and how many were. -/
structure Cursor where
  offset : Nat
  rest : Bytes
  deriving DecidableEq, Repr

namespace Cursor

def start (input : Bytes) : Cursor := ⟨0, input⟩

/-- A fault of what was taken so far. -/
def taken (cursor : Cursor) (cause : Cause) : Fault := ⟨cause, cursor.offset⟩

/-- A fault of the next byte; at the end of input there is none to count. -/
def next (cursor : Cursor) (cause : Cause) : Fault :=
  ⟨cause, if cursor.rest = [] then cursor.offset else cursor.offset + 1⟩

def isBlank (byte : UInt8) : Bool :=
  byte == 0x20 || byte == 0x0A || byte == 0x09 || byte == 0x0D

def isDigit (byte : UInt8) : Bool := 0x30 ≤ byte && byte ≤ 0x39

/-- The value of a hexadecimal digit in either case. -/
def hexDigit? (byte : UInt8) : Option Nat :=
  if 0x30 ≤ byte && byte ≤ 0x39 then some (byte.toNat - 0x30)
  else if 0x41 ≤ byte && byte ≤ 0x46 then some (byte.toNat - 0x41 + 10)
  else if 0x61 ≤ byte && byte ≤ 0x66 then some (byte.toNat - 0x61 + 10)
  else none

def skipBlanks (cursor : Cursor) : Cursor :=
  let rest := cursor.rest.dropWhile isBlank
  ⟨cursor.offset + (cursor.rest.length - rest.length), rest⟩

/-- Digits from here on, as their values. -/
def digits (cursor : Cursor) : List Nat × Cursor :=
  let run := cursor.rest.takeWhile isDigit
  (run.map fun byte => byte.toNat - 0x30, ⟨cursor.offset + run.length, cursor.rest.drop run.length⟩)

/-- The remaining letters of a fixed word whose first letter was read. -/
def word (letters : Bytes) (cursor : Cursor) : Except Fault Cursor :=
  match letters, cursor.rest with
  | [], _ => .ok cursor
  | _ :: _, [] => .error (cursor.taken .endInValue)
  | letter :: others, byte :: rest =>
    let after : Cursor := ⟨cursor.offset + 1, rest⟩
    if byte = letter then word others after else .error (after.taken .expectedLiteral)

/-- Four hexadecimal digits. -/
def hex4 (offset : Nat) : Bytes → Except Fault Nat
  | a :: b :: c :: d :: _ =>
    match hexDigit? a, hexDigit? b, hexDigit? c, hexDigit? d with
    | some a, some b, some c, some d => .ok (((a * 16 + b) * 16 + c) * 16 + d)
    | _, _, _, _ => .error ⟨.invalidEscape, offset + 4⟩
  | short => .error ⟨.endInString, offset + short.length⟩

def isHighSurrogate (unit : Nat) : Bool := 0xD800 ≤ unit && unit ≤ 0xDBFF
def isLowSurrogate (unit : Nat) : Bool := 0xDC00 ≤ unit && unit ≤ 0xDFFF

def simpleEscape? (byte : UInt8) : Option UInt8 :=
  if byte = 0x22 ∨ byte = 0x5C ∨ byte = 0x2F then some byte
  else if byte = 0x62 then some 0x08
  else if byte = 0x66 then some 0x0C
  else if byte = 0x6E then some 0x0A
  else if byte = 0x72 then some 0x0D
  else if byte = 0x74 then some 0x09
  else none

/-- A numbered escape after its `u`: the character as bytes, and the bytes it took.
A surrogate has to be the first half of a pair whose second half follows at once. -/
def numberedEscape (offset : Nat) (rest : Bytes) : Except Fault (Bytes × Nat) := do
  let unit ← hex4 offset rest
  if isLowSurrogate unit then throw ⟨.loneSurrogate, offset + 4⟩
  else if isHighSurrogate unit then
    match rest.drop 4 with
    | [] => throw ⟨.endInString, offset + 4⟩
    | byte :: after =>
      if byte ≠ 0x5C then throw ⟨.unfinishedPair, offset + 5⟩
      else match after with
        | [] => throw ⟨.endInString, offset + 5⟩
        | byte :: after =>
          if byte ≠ 0x75 then throw ⟨.unfinishedPair, offset + 6⟩
          else
            let second ← hex4 (offset + 6) after
            if isLowSurrogate second then
              let code := 0x10000 + (unit - 0xD800) * 0x400 + (second - 0xDC00)
              return (Utf8.encodeChar (Char.ofNat code), 10)
            else throw ⟨.loneSurrogate, offset + 10⟩
  else return (Utf8.encodeChar (Char.ofNat unit), 4)

/-- An escape after its backslash: what it stands for, and the bytes it took. -/
def escape (offset : Nat) : Bytes → Except Fault (Bytes × Nat)
  | [] => .error ⟨.endInString, offset⟩
  | byte :: rest =>
    match simpleEscape? byte with
    | some plain => .ok ([plain], 1)
    | none =>
      if byte = 0x75 then (numberedEscape (offset + 1) rest).map fun (bytes, n) => (bytes, n + 1)
      else .error ⟨.invalidEscape, offset + 1⟩

/-- The bytes of a string literal from behind its opening quote, after `skip` bytes. -/
def stringAfter : (skip offset : Nat) → Bytes → Except Fault (Bytes × Cursor)
  | _, offset, [] => .error ⟨.endInString, offset⟩
  | skip + 1, offset, _ :: rest => stringAfter skip (offset + 1) rest
  | 0, offset, byte :: rest =>
    if byte = 0x22 then .ok ([], ⟨offset + 1, rest⟩)
    else if byte = 0x5C then do
      let (bytes, n) ← escape (offset + 1) rest
      let (more, after) ← stringAfter n (offset + 1) rest
      return (bytes ++ more, after)
    else if byte < 0x20 then .error ⟨.controlCharacter, offset + 1⟩
    else (stringAfter 0 (offset + 1) rest).map fun (more, after) => (byte :: more, after)

/-- A string literal from behind its opening quote, as text. Bytes that are no text are
noticed once all of it has been read; the place is counted back from the closing quote by
the bytes that the literal stands for, from the first that does not belong to any text. -/
def string (cursor : Cursor) : Except Fault (Text × Cursor) := do
  let (bytes, after) ← stringAfter 0 cursor.offset cursor.rest
  match Utf8.text? bytes with
  | some text => return (text, after)
  | none => throw ⟨.invalidUtf8, after.offset - (bytes.length - Utf8.soundSize bytes)⟩

/-- The bytes an escape takes in a string nobody reads: halves of pairs may stand alone. -/
def skipEscape (offset : Nat) : Bytes → Except Fault Nat
  | [] => .error ⟨.endInString, offset⟩
  | byte :: rest =>
    if (simpleEscape? byte).isSome then .ok 1
    else if byte = 0x75 then (hex4 (offset + 1) rest).map fun _ => 5
    else .error ⟨.invalidEscape, offset + 1⟩

/-- The end of a string literal nobody reads. -/
def skipStringAfter : (skip offset : Nat) → Bytes → Except Fault Cursor
  | _, offset, [] => .error ⟨.endInString, offset⟩
  | skip + 1, offset, _ :: rest => skipStringAfter skip (offset + 1) rest
  | 0, offset, byte :: rest =>
    if byte = 0x22 then .ok ⟨offset + 1, rest⟩
    else if byte = 0x5C then do
      let n ← skipEscape (offset + 1) rest
      skipStringAfter n (offset + 1) rest
    else if byte < 0x20 then .error ⟨.controlCharacter, offset⟩
    else skipStringAfter 0 (offset + 1) rest

def skipString (cursor : Cursor) : Except Fault Cursor :=
  skipStringAfter 0 cursor.offset cursor.rest

end Cursor
end SourceIndex.Json
