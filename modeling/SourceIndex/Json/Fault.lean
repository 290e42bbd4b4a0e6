import SourceIndex.Decimal.Shortest
import SourceIndex.Text.Shown

/-! What can be wrong with a JSON text, where, and how a message says it. -/
namespace SourceIndex.Json

/-- A number as a value: whole numbers that fit a machine word, all others as doubles. -/
inductive Number where
  | whole (value : Int)
  | real (negative : Bool) (bits : UInt64)
  deriving DecidableEq, Repr

/-- A value of another kind than the one that was asked for. -/
inductive Found where
  | null
  | boolean (value : Bool)
  | number (value : Number)
  | string (text : Text)
  | sequence
  | map
  deriving DecidableEq, Repr

inductive Cause where
  | endInList
  | endInObject
  | endInString
  | endInValue
  | expectedColon
  | expectedCommaOrBracket
  | expectedCommaOrBrace
  | expectedLiteral
  | expectedValue
  | invalidEscape
  | invalidNumber
  | numberOutOfRange
  | invalidUtf8
  | controlCharacter
  | keyNotString
  | loneSurrogate
  | unfinishedPair
  | trailingComma
  | trailingCharacters
  | duplicateField (name : String)
  | wrongType (found : Found) (expected : String)
  deriving DecidableEq, Repr

/-- The text ended too early, breaks the grammar, or holds other data than expected. -/
inductive Category where
  | ended
  | grammar
  | data
  deriving DecidableEq, Repr

/-- A cause and the number of bytes before the place it is reported for. -/
structure Fault where
  cause : Cause
  offset : Nat
  deriving DecidableEq, Repr

/-- Doubles in messages: positional from `1e-5` below `1e16`, with at least one decimal. -/
def realText (negative : Bool) (bits : UInt64) : String :=
  let sign := if negative then "-" else ""
  if bits <<< 1 = 0 then sign ++ "0.0"
  else
    let value := (Binary.ofBits bits).shortest
    let all := Nat.toDigits 10 value.digits
    let digits := (all.reverse.dropWhile (· == '0')).reverse
    let point : Int := value.exponent + all.length
    let text : Text :=
      if -5 < point ∧ point ≤ 0 then
        ['0', '.'] ++ List.replicate (-point).toNat '0' ++ digits
      else if 0 < point ∧ point ≤ 16 then
        let whole := point.toNat
        if digits.length ≤ whole then
          digits ++ List.replicate (whole - digits.length) '0' ++ ['.', '0']
        else digits.take whole ++ '.' :: digits.drop whole
      else
        let fraction := if digits.length ≤ 1 then [] else '.' :: digits.drop 1
        let power := point - 1
        digits.take 1 ++ fraction ++ ['e', if power < 0 then '-' else '+'] ++
          Nat.toDigits 10 power.natAbs
    sign ++ String.ofList text

def Number.describe : Number → String
  | .whole value => s!"integer `{value}`"
  | .real negative bits => s!"floating point `{realText negative bits}`"

def Found.describe : Found → String
  | .null => "null"
  | .boolean true => "boolean `true`"
  | .boolean false => "boolean `false`"
  | .number value => value.describe
  | .string text => "string " ++ String.ofList (Text.Shown.quote text)
  | .sequence => "sequence"
  | .map => "map"

namespace Cause

def message : Cause → String
  | .endInList => "EOF while parsing a list"
  | .endInObject => "EOF while parsing an object"
  | .endInString => "EOF while parsing a string"
  | .endInValue => "EOF while parsing a value"
  | .expectedColon => "expected `:`"
  | .expectedCommaOrBracket => "expected `,` or `]`"
  | .expectedCommaOrBrace => "expected `,` or `\x7d`"
  | .expectedLiteral => "expected ident"
  | .expectedValue => "expected value"
  | .invalidEscape => "invalid escape"
  | .invalidNumber => "invalid number"
  | .numberOutOfRange => "number out of range"
  | .invalidUtf8 => "invalid unicode code point"
  | .controlCharacter =>
    "control character (\\u0000-\\u001F) found while parsing a string"
  | .keyNotString => "key must be a string"
  | .loneSurrogate => "lone leading surrogate in hex escape"
  | .unfinishedPair => "unexpected end of hex escape"
  | .trailingComma => "trailing comma"
  | .trailingCharacters => "trailing characters"
  | .duplicateField name => s!"duplicate field `{name}`"
  | .wrongType found expected => s!"invalid type: {found.describe}, expected {expected}"

def category : Cause → Category
  | .endInList | .endInObject | .endInString | .endInValue => .ended
  | .duplicateField _ | .wrongType _ _ => .data
  | _ => .grammar

end Cause

/-- The line of a place and the bytes before it in that line; lines count from one. -/
def position (input : Bytes) (offset : Nat) : Nat × Nat :=
  let before := input.take offset
  (before.count 0x0A + 1, (before.reverse.takeWhile (· != 0x0A)).length)

/-- The full message for a fault of this input. -/
def Fault.message (input : Bytes) (fault : Fault) : String :=
  let (line, column) := position input fault.offset
  s!"{fault.cause.message} at line {line} column {column}"

end SourceIndex.Json
