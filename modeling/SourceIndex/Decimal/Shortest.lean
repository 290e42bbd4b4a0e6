/-! The shortest decimal that reads back as a given binary number. A double denotes
`mantissa · 2 ^ exponent`, and every real number in an interval around it rounds to
it. On the grid of decimals with `n` digits only the two neighbours of the value can
be the closest ones inside the interval; the first grid that has a neighbour inside
gives the answer, the nearer one if both are. All arithmetic is exact. -/
namespace SourceIndex

/-- The decimal `digits · 10 ^ exponent`. -/
structure Decimal where
  digits : Nat
  exponent : Int
  deriving DecidableEq, Repr

/-- A positive binary number `mantissa · 2 ^ exponent`. At a power of two the next
smaller number is only half as far away as the next larger one. -/
structure Binary where
  mantissa : Nat
  exponent : Int
  atPower : Bool
  deriving DecidableEq, Repr

namespace Binary

/-- `d · 10 ^ t` and `quarters · 2 ^ (exponent - 2)` over a common denominator. -/
def decimalSide (number : Binary) (d : Nat) (t : Int) : Nat :=
  d * Nat.pow 10 t.toNat * Nat.pow 2 (2 - number.exponent).toNat

def binarySide (number : Binary) (quarters : Nat) (t : Int) : Nat :=
  quarters * Nat.pow 10 (-t).toNat * Nat.pow 2 (number.exponent - 2).toNat

/-- Whether `d · 10 ^ t` rounds to the number; the ends belong to an even mantissa. -/
def admits (number : Binary) (d : Nat) (t : Int) : Bool :=
  let quarters := 4 * number.mantissa
  let low := binarySide number (if number.atPower then quarters - 1 else quarters - 2) t
  let high := binarySide number (quarters + 2) t
  let point := decimalSide number d t
  if number.mantissa % 2 = 0 then low ≤ point && point ≤ high
  else low < point && point < high

/-- The largest `e` with `10 ^ e` at most the number. -/
def magnitude (number : Binary) : Int :=
  let quarters := 4 * number.mantissa
  let fits (step : Nat) : Bool :=
    let e : Int := 308 - step
    decimalSide number 1 e ≤ binarySide number quarters e
  match (List.range 640).find? fits with
  | some step => 308 - step
  | none => -332

/-- The neighbour on the grid `10 ^ t` that reads back, the nearer of two; a tie goes
to the even one. -/
def onGrid? (number : Binary) (t : Int) : Option Nat :=
  let value := binarySide number (4 * number.mantissa) t
  let unit := decimalSide number 1 t
  let below := value / unit
  let rest := value % unit
  match admits number below t && below ≠ 0, admits number (below + 1) t with
  | true, true =>
    if 2 * rest < unit ∨ (2 * rest = unit ∧ below % 2 = 0) then some below else some (below + 1)
  | true, false => some below
  | false, true => some (below + 1)
  | false, false => none

/-- Seventeen digits always suffice. -/
def shortest (number : Binary) : Decimal :=
  let e := magnitude number
  let found := (List.range 17).findSome? fun (more : Nat) =>
    let t := e - (more : Int)
    (onGrid? number t).map fun digits => (⟨digits, t⟩ : Decimal)
  found.getD ⟨0, 0⟩

/-- The positive number with these bits, the sign bit apart. -/
def ofBits (bits : UInt64) : Binary :=
  let fraction := (bits &&& 0xFFFFFFFFFFFFF).toNat
  let power := (bits >>> 52).toNat % 2048
  if power = 0 then ⟨fraction, -1074, false⟩
  else ⟨Nat.pow 2 52 + fraction, (power : Int) - 1075, fraction == 0 && power != 1⟩

end Binary
end SourceIndex
