import SourceIndex.Text.Blank
import SourceIndex.Text.Pattern

/-! Levels, and the directives that a log filter is made of. A directive is written as
`source[span{field=value}]=level`, where all parts but one may be missing: it gives a
level to the events of some sources, and it may be narrowed down to a span or to events
that have a field. -/
namespace SourceIndex

/-- Levels from the most to the least urgent. -/
inductive Level where
  | error
  | warn
  | info
  | debug
  | trace
  deriving DecidableEq, Repr

namespace Level

def rank : Level → Nat
  | .error => 1
  | .warn => 2
  | .info => 3
  | .debug => 4
  | .trace => 5

def name : Level → String
  | .error => "ERROR"
  | .warn => "WARN"
  | .info => "INFO"
  | .debug => "DEBUG"
  | .trace => "TRACE"

def all : List Level := [.error, .warn, .info, .debug, .trace]

end Level

namespace Log

/-- A field that an event must have, with or without a condition on its value. -/
structure Field where
  name : Text
  hasValue : Bool
  deriving DecidableEq, Repr

/-- What is let through from the sources whose name starts with `source`; a directive
without a source is for all of them, one without a level lets nothing through. -/
structure Directive where
  source : Option Text
  /-- Whether it is for one span only. -/
  inSpan : Bool
  field : Option Field
  level : Option Level
  deriving DecidableEq, Repr

/-- A level by its name in any case or by its number, `off` and `0` for none. -/
def level? (text : Text) : Option (Option Level) :=
  let unsigned := match text with
    | '+' :: digits => digits
    | digits => digits
  if unsigned ≠ [] ∧ unsigned.all Char.isDigit then
    let value : Nat := unsigned.foldl (fun value char => value * 10 + (char.toNat - 48)) 0
    if value = 0 then some none
    else (Level.all.find? fun level => level.rank == value).map some
  else
    let lower := text.map Char.toLower
    if lower = "off".toList then some none
    else if lower = [] then some (some .error)
    else (Level.all.find? fun level => level.name.toList.map Char.toLower == lower).map some

/-- A number without a sign: decimal, with or without an exponent, or none that is finite. -/
def isNumber (text : Text) : Bool :=
  let whole := text.takeWhile Char.isDigit
  let (fraction, rest) : Text × Text := match text.dropWhile Char.isDigit with
    | '.' :: rest => (rest.takeWhile Char.isDigit, rest.dropWhile Char.isDigit)
    | rest => ([], rest)
  let exponent := match rest with
    | [] => ['0']
    | _ :: '+' :: digits | _ :: '-' :: digits => digits
    | _ :: digits => digits
  text.map Char.toLower ∈ ["inf".toList, "infinity".toList, "nan".toList] ||
    (whole ++ fraction ≠ [] && (rest.head?.all fun char => char.toLower == 'e') &&
      exponent ≠ [] && exponent.all Char.isDigit)

/-- The value of a field is a number or a pattern. A number that is no pattern has a plus
sign in front. -/
def isValue (text : Text) : Bool :=
  Text.Pattern.isPattern text || match text with
    | '+' :: number => isNumber number
    | _ => false

/-- A field, `name` or `name=value`; what follows a second equals sign is not looked at. -/
def field? (text : Text) : Option Field :=
  if text = [] then none
  else
    let name := text.takeWhile (· ≠ '=')
    match text.dropWhile (· ≠ '=') with
    | [] => some ⟨name, false⟩
    | _ :: rest => if isValue (rest.takeWhile (· ≠ '=')) then some ⟨name, true⟩ else none

/-- What a source name may start with. -/
def mayStart (char : Char) : Bool :=
  Text.isAlphanumeric char || char == '-' || char == ':' || char == '_'

/-- A directive as it is written. Its marks are looked for with the blanks around it taken
off; its parts are cut from all that is written, at the places found. Places count bytes. -/
structure Writing where
  seen : Bytes
  written : Bytes
  deriving DecidableEq, Repr

namespace Writing

def ofText (text : Text) : Writing := ⟨Utf8.encode (Text.trim text), Utf8.encode text⟩

/-! The marks `=`, `[`, `]` and the two braces. -/

def equals : UInt8 := 0x3D
def openBracket : UInt8 := 0x5B
def closeBracket : UInt8 := 0x5D
def openBrace : UInt8 := 0x7B
def closeBrace : UInt8 := 0x7D

/-- The byte at a place, where marks are looked for. -/
def at? (writing : Writing) (place : Nat) : Option UInt8 := writing.seen[place]?

/-- The next place from `start` on where one of the marks stands, or the end. -/
def next (writing : Writing) (start : Nat) (marks : Bytes) : Nat :=
  start + ((writing.seen.drop start).takeWhile (· ∉ marks)).length

/-- The part between two places, which may not fall inside a character. -/
def cut? (writing : Writing) (start stop : Nat) : Option Text :=
  Utf8.text? ((writing.written.take stop).drop start)

/-- The level from `start` to the end; everything, if there is none. -/
def level? (writing : Writing) (start : Nat) : Option (Option Level) := do
  match ← writing.cut? start writing.written.length with
  | [] => some (some .trace)
  | text => Log.level? text

/-- The end of a directive behind its square bracket. -/
def ending? (writing : Writing) (start : Nat) : Option (Option Level) :=
  match writing.at? start with
  | none => some (some .trace)
  | some mark => if mark = equals then writing.level? (start + 1) else none

/-- A directive from behind the opening square bracket. A span may stand in front of the
field without a name, but without a field it is one in any case. -/
def narrowed? (writing : Writing) (source : Option Text) (start : Nat) : Option Directive := do
  let stop := writing.next start [closeBracket, openBrace]
  let span ← writing.cut? start stop
  if writing.at? stop = some closeBracket then
    return ⟨source, true, none, ← writing.ending? (stop + 1)⟩
  else
    let close := writing.next (stop + 1) [closeBrace]
    let field ← field? (← writing.cut? (stop + 1) close)
    if writing.at? close = some closeBrace ∧ writing.at? (close + 1) = some closeBracket then
      return ⟨source, span ≠ [], some field, ← writing.ending? (close + 2)⟩
    else none

/-- One directive: a level, a source from which everything passes, or a source and what
is said of it. -/
def directive? (writing : Writing) : Option Directive :=
  match Utf8.decode writing.seen with
  | .scalar '[' :: _ => writing.narrowed? none 1
  | .scalar char :: _ =>
    if mayStart char = false then none
    else do
      let stop := writing.next 0 [equals, openBracket]
      match writing.at? stop with
      | some mark =>
        let source ← writing.cut? 0 stop
        if mark = equals then return ⟨some source, false, none, ← writing.level? (stop + 1)⟩
        else writing.narrowed? (some source) (stop + 1)
      | none =>
        let text ← Utf8.text? writing.written
        match Log.level? text with
        | some level => return ⟨none, false, none, level⟩
        | none => return ⟨some text, false, none, some .trace⟩
  | _ => none

end Writing

end Log
end SourceIndex
