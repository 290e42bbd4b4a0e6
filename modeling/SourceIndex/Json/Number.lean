import SourceIndex.Json.Cursor

/-! Numbers in a JSON text. A number nobody reads is only held to the grammar. A
number that is read is whole where its digits fit a machine word, and a double
otherwise: as many leading digits as fit 64 bits make the significand, which is then
scaled by one power of ten, so the last bit may differ from the closest double. -/
namespace SourceIndex.Json

namespace Cursor

/-- The exponent part, for a reader that blames a missing digit on `missing`. -/
def skipExponent (cursor : Cursor) : Except Fault Cursor :=
  let signed : Cursor := match cursor.rest with
    | byte :: rest => if byte = 0x2B ∨ byte = 0x2D then ⟨cursor.offset + 1, rest⟩ else cursor
    | [] => cursor
  match signed.rest with
  | [] => .error (signed.taken .invalidNumber)
  | byte :: _ =>
    if isDigit byte then .ok signed.digits.2 else .error (signed.next .invalidNumber)

/-- The fraction and exponent of a number nobody reads. -/
def skipFraction (cursor : Cursor) : Except Fault Cursor :=
  match cursor.rest with
  | 0x2E :: rest =>
    let (run, after) := digits ⟨cursor.offset + 1, rest⟩
    if run = [] then .error (after.next .invalidNumber)
    else match after.rest with
      | byte :: rest =>
        if byte = 0x65 ∨ byte = 0x45 then skipExponent ⟨after.offset + 1, rest⟩ else .ok after
      | [] => .ok after
  | byte :: rest =>
    if byte = 0x65 ∨ byte = 0x45 then skipExponent ⟨cursor.offset + 1, rest⟩ else .ok cursor
  | [] => .ok cursor

/-- A number nobody reads, from behind its sign. -/
def skipNumber (cursor : Cursor) : Except Fault Cursor :=
  match cursor.rest with
  | [] => .error (cursor.taken .invalidNumber)
  | byte :: rest =>
    let after : Cursor := ⟨cursor.offset + 1, rest⟩
    if byte = 0x30 then
      match rest with
      | [] => .ok after
      | second :: _ =>
        if isDigit second then .error (after.next .invalidNumber) else skipFraction after
    else if isDigit byte then skipFraction cursor.digits.2
    else .error (after.taken .invalidNumber)

end Cursor

/-- The parts of a number as it is written. -/
structure Numeral where
  negative : Bool
  whole : List Nat
  fraction : Option (List Nat)
  /-- Whether the exponent is negative, and its digits. -/
  exponent : Option (Bool × List Nat)
  deriving DecidableEq, Repr

namespace Cursor

/-- An exponent, from behind its letter. -/
def exponent (cursor : Cursor) : Except Fault ((Bool × List Nat) × Cursor) :=
  let (negative, signed) : Bool × Cursor := match cursor.rest with
    | byte :: rest =>
      if byte = 0x2B then (false, ⟨cursor.offset + 1, rest⟩)
      else if byte = 0x2D then (true, ⟨cursor.offset + 1, rest⟩)
      else (false, cursor)
    | [] => (false, cursor)
  match signed.rest with
  | [] => .error (signed.taken .endInValue)
  | byte :: _ =>
    if isDigit byte then
      let (run, after) := signed.digits
      .ok ((negative, run), after)
    else .error (signed.next .invalidNumber)

/-- The exponent part, if there is one. -/
def exponent? (cursor : Cursor) : Except Fault (Option (Bool × List Nat) × Cursor) :=
  match cursor.rest with
  | byte :: rest =>
    if byte = 0x65 ∨ byte = 0x45 then
      (exponent ⟨cursor.offset + 1, rest⟩).map fun (parts, after) => (some parts, after)
    else .ok (none, cursor)
  | [] => .ok (none, cursor)

/-- A number that is read, from behind its sign. -/
def numeral (negative : Bool) (cursor : Cursor) : Except Fault (Numeral × Cursor) := do
  let (whole, cursor) ← match cursor.rest with
    | [] => throw (cursor.taken .endInValue)
    | byte :: rest =>
      let after : Cursor := ⟨cursor.offset + 1, rest⟩
      if byte = 0x30 then
        if (rest.head?.map isDigit).getD false then throw (after.next .invalidNumber)
        else pure ([0], after)
      else if isDigit byte then pure cursor.digits
      else throw (after.taken .invalidNumber)
  match cursor.rest with
  | 0x2E :: rest =>
    let (run, after) := digits ⟨cursor.offset + 1, rest⟩
    if run = [] then
      throw (if after.rest = [] then after.taken .endInValue else after.next .invalidNumber)
    let (power, last) ← after.exponent?
    return (⟨negative, whole, some run, power⟩, last)
  | _ =>
    let (power, last) ← cursor.exponent?
    return (⟨negative, whole, none, power⟩, last)

end Cursor

namespace Numeral

def wordLimit : Nat := Nat.pow 2 64

/-- Append digits to a significand while the result fits a machine word; what is left. -/
def absorb (significand : Nat) : List Nat → Nat × List Nat
  | [] => (significand, [])
  | digit :: rest =>
    let next := significand * 10 + digit
    if next < wordLimit then absorb next rest else (significand, digit :: rest)

/-- The significand and its power of ten before the written exponent: digits in front
of the point that no longer fit still count as places, those behind it do not. -/
def scaled (numeral : Numeral) : Nat × Int :=
  let (significand, left) := absorb 0 numeral.whole
  match numeral.fraction with
  | none => (significand, left.length)
  | some digits =>
    let (significand, dropped) := absorb significand digits
    (significand, left.length - (digits.length - dropped.length : Nat))

/-- The power of ten of one step of scaling. -/
def maxPower : Nat := 308

/-- A significand times a power of ten in double arithmetic; `none` past the largest. -/
def scale : (steps : Nat) → Float → Int → Option Float
  | 0, value, _ => some value
  | steps + 1, value, power =>
    if power.natAbs ≤ maxPower then
      let factor := Float.ofScientific 1 false power.natAbs
      if 0 ≤ power then
        let product := value * factor
        if product.isInf then none else some product
      else some (value / factor)
    else if value == 0.0 then some value
    else if 0 ≤ power then none
    else scale steps (value / Float.ofScientific 1 false maxPower) (power + maxPower)

def wordMax32 : Nat := Nat.pow 2 31 - 1

/-- The digits of an exponent up to the first one that leaves 32 bits. -/
def exponentValue (value : Nat) : List Nat → Nat ⊕ List Nat
  | [] => .inl value
  | digit :: rest =>
    let next := value * 10 + digit
    if next ≤ wordMax32 then exponentValue next rest else .inr rest

/-- A double with its sign kept apart. -/
def real (numeral : Numeral) (value : Float) : Number := .real numeral.negative value.toBits

/-- The value of a numeral that ends at `cursor`. An exponent too large for 32 bits is
decided by its sign alone, at the digit where that is seen. -/
def value (numeral : Numeral) (cursor : Cursor) : Except Fault Number :=
  let (significand, power) := numeral.scaled
  let float (power : Int) : Except Fault Number :=
    match scale 8 (Float.ofNat significand) power with
    | some value => .ok (numeral.real value)
    | none => .error (cursor.taken .numberOutOfRange)
  match numeral.exponent with
  | some (negative, digits) =>
    match exponentValue 0 digits with
    | .inl written => float (if negative then power - written else power + written)
    | .inr unread =>
      if significand ≠ 0 ∧ negative = false then
        .error ⟨.numberOutOfRange, cursor.offset - unread.length⟩
      else .ok (numeral.real 0.0)
  | none =>
    if numeral.fraction.isSome ∨ power ≠ 0 then float power
    else if numeral.negative = false then .ok (.whole significand)
    else if significand = 0 ∨ Nat.pow 2 63 < significand then
      .ok (numeral.real (Float.ofNat significand))
    else .ok (.whole (-significand))

end Numeral
end SourceIndex.Json
