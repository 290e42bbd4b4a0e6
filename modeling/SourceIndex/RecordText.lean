import SourceIndex.Json.Quoted
import SourceIndex.Json.Skip
import SourceIndex.SourceFile

/-! Records as JSON texts. A record is written as one object, path first. A reader
takes the members in any order, skips those it does not know, and fills in what is
missing with the empty text; it also takes a list of up to two strings. -/
namespace SourceIndex.Record

/-- The pieces of a record's object, in the order they are written. -/
def textPieces (record : Record) : List Text :=
  [['\x7b'], Json.Quoted.encode "path".toList, [':'], Json.Quoted.encode record.path,
    [','], Json.Quoted.encode "snippet".toList, [':'], Json.Quoted.encode record.snippet,
    ['\x7d']]

/-- A record as one JSON object without blanks. -/
def toText (record : Record) : Text := record.textPieces.flatten

open Json

/-- The fault of a value that is not the expected one. A scalar is read to its end, so
that a broken one is reported as broken. -/
def mismatch (expected : String) (cursor : Cursor) : Fault :=
  let after : Cursor := ⟨cursor.offset + 1, cursor.rest.drop 1⟩
  let wrong (found : Found) (place : Cursor) : Fault := place.taken (.wrongType found expected)
  let constant (letters : Bytes) (found : Found) : Fault :=
    match Cursor.word letters after with
    | .ok place => wrong found place
    | .error fault => fault
  let number (negative : Bool) (place : Cursor) : Fault :=
    match (do
      let (numeral, last) ← Cursor.numeral negative place
      let value ← numeral.value last
      return (value, last)) with
    | .ok (value, last) => wrong (.number value) last
    | .error fault => fault
  match cursor.rest.head? with
  | none => cursor.next .expectedValue
  | some byte =>
    if byte = 0x6E then constant [0x75, 0x6C, 0x6C] .null
    else if byte = 0x74 then constant [0x72, 0x75, 0x65] (.boolean true)
    else if byte = 0x66 then constant [0x61, 0x6C, 0x73, 0x65] (.boolean false)
    else if byte = 0x2D then number true after
    else if Cursor.isDigit byte then number false cursor
    else if byte = 0x22 then
      match Cursor.string after with
      | .ok (text, place) => wrong (.string text) place
      | .error fault => fault
    else if byte = 0x5B then wrong .sequence cursor
    else if byte = 0x7B then wrong .map cursor
    else cursor.next .expectedValue

/-- A value that has to be a string. -/
def field (cursor : Cursor) : Except Fault (Text × Cursor) :=
  let cursor := cursor.skipBlanks
  match cursor.rest with
  | [] => .error (cursor.taken .endInValue)
  | byte :: rest =>
    if byte = 0x22 then Cursor.string ⟨cursor.offset + 1, rest⟩
    else .error (mismatch "a string" cursor)

/-- Past the colon of a member. -/
def colon (cursor : Cursor) : Except Fault Cursor :=
  let cursor := cursor.skipBlanks
  match cursor.rest with
  | [] => .error (cursor.taken .endInObject)
  | byte :: rest =>
    if byte = 0x3A then .ok ⟨cursor.offset + 1, rest⟩ else .error (cursor.next .expectedColon)

/-- The fields met so far. -/
structure Fields where
  path : Option Text
  snippet : Option Text
  deriving DecidableEq, Repr

def Fields.record (fields : Fields) : Record := ⟨fields.path.getD [], fields.snippet.getD []⟩

/-- A second member of the same name. The fault is reported for the place where a closing
brace that follows at once would end. -/
def duplicate (name : String) (cursor : Cursor) : Fault :=
  let place := cursor.skipBlanks
  ⟨.duplicateField name,
    if place.rest.head? = some 0x7D then place.offset + 1 else place.offset⟩

/-- The value of the member `key`. -/
def member (key : Text) (fields : Fields) (cursor : Cursor) : Except Fault (Fields × Cursor) :=
  if key = "path".toList then
    if fields.path.isSome then .error (duplicate "path" cursor)
    else do
      let (text, after) ← field (← colon cursor)
      return ({ fields with path := some text }, after)
  else if key = "snippet".toList then
    if fields.snippet.isSome then .error (duplicate "snippet" cursor)
    else do
      let (text, after) ← field (← colon cursor)
      return ({ fields with snippet := some text }, after)
  else do
    let after ← Cursor.skipValue (← colon cursor)
    return (fields, after)

/-- The members of an object and its closing brace. -/
def members : (steps : Nat) → (first : Bool) → Fields → Cursor → Except Fault (Fields × Cursor)
  | 0, _, _, cursor => .error (cursor.taken .endInObject)
  | steps + 1, first, fields, cursor =>
    let cursor := cursor.skipBlanks
    let key (place : Cursor) : Except Fault (Fields × Cursor) := do
      let (name, after) ← Cursor.string place
      let (fields, after) ← member name fields after
      members steps false fields after
    match cursor.rest with
    | [] => .error (cursor.taken .endInObject)
    | byte :: rest =>
      let after : Cursor := ⟨cursor.offset + 1, rest⟩
      if byte = 0x7D then .ok (fields, after)
      else if first then
        if byte = 0x22 then key after else .error (cursor.next .keyNotString)
      else if byte = 0x2C then
        let place := after.skipBlanks
        match place.rest with
        | [] => .error (place.taken .endInValue)
        | byte :: rest =>
          if byte = 0x22 then key ⟨place.offset + 1, rest⟩
          else if byte = 0x7D then .error (place.next .trailingComma)
          else .error (place.next .keyNotString)
      else .error (cursor.next .expectedCommaOrBrace)

/-- The next string of a list, if the list does not end here. -/
def element? (first : Bool) (cursor : Cursor) : Except Fault (Option Text × Cursor) :=
  let cursor := cursor.skipBlanks
  match cursor.rest with
  | [] => .error (cursor.taken .endInList)
  | byte :: rest =>
    if byte = 0x5D then .ok (none, cursor)
    else if first then (field cursor).map fun (text, after) => (some text, after)
    else if byte = 0x2C then
      let place : Cursor := (⟨cursor.offset + 1, rest⟩ : Cursor).skipBlanks
      match place.rest with
      | [] => .error (place.taken .endInValue)
      | byte :: _ =>
        if byte = 0x5D then .error (place.next .trailingComma)
        else (field place).map fun (text, after) => (some text, after)
    else .error (cursor.next .expectedCommaOrBracket)

/-- The closing bracket of a list that has given all it may hold. -/
def closeList (cursor : Cursor) : Except Fault Cursor :=
  let cursor := cursor.skipBlanks
  match cursor.rest with
  | [] => .error (cursor.taken .endInList)
  | byte :: rest =>
    let after : Cursor := ⟨cursor.offset + 1, rest⟩
    if byte = 0x5D then .ok after
    else if byte = 0x2C then
      let place := after.skipBlanks
      if place.rest.head? = some 0x5D then .error (place.next .trailingComma)
      else .error (place.next .trailingCharacters)
    else .error (cursor.next .trailingCharacters)

/-- A record as an object or a list. -/
def value (cursor : Cursor) : Except Fault (Record × Cursor) :=
  let cursor := cursor.skipBlanks
  match cursor.rest with
  | [] => .error (cursor.taken .endInValue)
  | byte :: rest =>
    let after : Cursor := ⟨cursor.offset + 1, rest⟩
    if byte = 0x5B then do
      let (path, after) ← element? true after
      let (snippet, after) ← element? path.isNone after
      return (⟨path.getD [], snippet.getD []⟩, ← closeList after)
    else if byte = 0x7B then do
      let (fields, after) ← members (rest.length + 1) true ⟨none, none⟩ after
      return (fields.record, after)
    else .error (mismatch "struct IndexRecord" cursor)

/-- The record a JSON text stands for; nothing but blanks may follow it. -/
def ofText (input : Bytes) : Except Fault Record := do
  let (record, after) ← value (Cursor.start input)
  let after := after.skipBlanks
  if after.rest = [] then return record else throw (after.next .trailingCharacters)

end SourceIndex.Record
