/-! Bytes and text. Names, paths and file contents are bytes; headings, snippets
and messages are text. Decoding never fails: it cuts any byte string into scalar
values and the longest possible ill-formed runs, and every reader of bytes in this
library (replacement, escaping, refusal) is one choice of what to do with a run. -/
namespace SourceIndex

/-- Raw bytes, as the file system and the output devices know them. -/
abbrev Bytes := List UInt8

/-- Text, one element for each Unicode scalar value. -/
abbrev Text := List Char

namespace Utf8

/-- What one step of decoding finds. -/
inductive Piece where
  | scalar (char : Char)
  | broken (bytes : Bytes)
  deriving DecidableEq, Repr

/-- A byte that may continue a sequence. -/
def isTail (byte : UInt8) : Bool := 0x80 ≤ byte && byte ≤ 0xBF

/-- What the first byte of a longer sequence promises: the range of the second
byte, which keeps out overlong forms, surrogates and numbers past the last scalar
value, and the number of further tail bytes. -/
structure Lead where
  low : UInt8
  high : UInt8
  further : Nat
  deriving DecidableEq, Repr

def Lead.admits (lead : Lead) (byte : UInt8) : Bool := lead.low ≤ byte && byte ≤ lead.high

/-- The table of well-formed sequences, by first byte. -/
def lead? (byte : UInt8) : Option Lead :=
  if byte < 0xC2 then none
  else if byte ≤ 0xDF then some ⟨0x80, 0xBF, 0⟩
  else if byte = 0xE0 then some ⟨0xA0, 0xBF, 1⟩
  else if byte = 0xED then some ⟨0x80, 0x9F, 1⟩
  else if byte ≤ 0xEF then some ⟨0x80, 0xBF, 1⟩
  else if byte = 0xF0 then some ⟨0x90, 0xBF, 2⟩
  else if byte ≤ 0xF3 then some ⟨0x80, 0xBF, 2⟩
  else if byte = 0xF4 then some ⟨0x80, 0x8F, 2⟩
  else none

/-- The scalar value of a two-byte sequence; the longer ones follow. -/
def scalar₂ (a b : UInt8) : Char := Char.ofNat (a.toNat % 32 * 64 + b.toNat % 64)

def scalar₃ (a b c : UInt8) : Char :=
  Char.ofNat (a.toNat % 16 * 4096 + b.toNat % 64 * 64 + c.toNat % 64)

def scalar₄ (a b c d : UInt8) : Char :=
  Char.ofNat (a.toNat % 8 * 262144 + b.toNat % 64 * 4096 + c.toNat % 64 * 64 + d.toNat % 64)

/-- The piece that starts with `a`, and how many of the following bytes belong to
it. A sequence that breaks off gives the bytes that still fitted as one run. -/
def first (a : UInt8) (rest : Bytes) : Piece × Nat :=
  if a < 0x80 then (.scalar (Char.ofNat a.toNat), 0)
  else match lead? a with
    | none => (.broken [a], 0)
    | some lead =>
      match rest with
      | [] => (.broken [a], 0)
      | b :: rest =>
        if lead.admits b then
          match lead.further, rest with
          | 0, _ => (.scalar (scalar₂ a b), 1)
          | _ + 1, [] => (.broken [a, b], 1)
          | further + 1, c :: rest =>
            if isTail c then
              match further, rest with
              | 0, _ => (.scalar (scalar₃ a b c), 2)
              | _ + 1, [] => (.broken [a, b, c], 2)
              | _ + 1, d :: _ =>
                if isTail d then (.scalar (scalar₄ a b c d), 3) else (.broken [a, b, c], 2)
            else (.broken [a, b], 1)
        else (.broken [a], 0)

/-- The pieces after the first `skip` bytes. -/
def decodeAfter : (skip : Nat) → Bytes → List Piece
  | _, [] => []
  | skip + 1, _ :: rest => decodeAfter skip rest
  | 0, a :: rest => (first a rest).1 :: decodeAfter (first a rest).2 rest

/-- The pieces of a byte string; they concatenate to it. -/
def decode (bytes : Bytes) : List Piece := decodeAfter 0 bytes

theorem decodeAfter_eq_drop (skip : Nat) (bytes : Bytes) :
    decodeAfter skip bytes = decode (bytes.drop skip) := by
  induction bytes generalizing skip with
  | nil => simp [decodeAfter, decode]
  | cons a rest ih =>
    cases skip with
    | zero => rfl
    | succ skip => rw [decodeAfter, List.drop_succ_cons, ih]

theorem decode_nil : decode [] = [] := rfl

theorem decode_cons (a : UInt8) (rest : Bytes) :
    decode (a :: rest) = (first a rest).1 :: decode (rest.drop (first a rest).2) := by
  rw [decode, decodeAfter, decodeAfter_eq_drop]

/-- What a reader sees of a piece when ill-formed runs are replaced. -/
def Piece.replaced : Piece → Char
  | .scalar char => char
  | .broken _ => '\uFFFD'

def Piece.scalar? : Piece → Option Char
  | .scalar char => some char
  | .broken _ => none

/-- Decoding with one replacement character for each ill-formed run. -/
def lossy (bytes : Bytes) : Text := (decode bytes).map Piece.replaced

/-- Decoding that refuses ill-formed input. -/
def text? (bytes : Bytes) : Option Text := (decode bytes).mapM Piece.scalar?

def encodeChar (char : Char) : Bytes :=
  let n := char.toNat
  if n < 0x80 then [UInt8.ofNat n]
  else if n < 0x800 then [UInt8.ofNat (0xC0 + n / 64), UInt8.ofNat (0x80 + n % 64)]
  else if n < 0x10000 then
    [UInt8.ofNat (0xE0 + n / 4096), UInt8.ofNat (0x80 + n / 64 % 64), UInt8.ofNat (0x80 + n % 64)]
  else
    [UInt8.ofNat (0xF0 + n / 262144), UInt8.ofNat (0x80 + n / 4096 % 64),
      UInt8.ofNat (0x80 + n / 64 % 64), UInt8.ofNat (0x80 + n % 64)]

def encode (text : Text) : Bytes := text.flatMap encodeChar

def Piece.size : Piece → Nat
  | .scalar char => (encodeChar char).length
  | .broken bytes => bytes.length

/-- How many bytes stand before the first ill-formed run. -/
def soundSize (bytes : Bytes) : Nat :=
  let sound := (decode bytes).takeWhile fun piece => piece.scalar?.isSome
  sound.foldl (fun size piece => size + piece.size) 0

/-- The order of texts by the bytes they are written in. -/
def compareText (first second : Text) : Ordering := compare (encode first) (encode second)

theorem encode_nil : encode [] = [] := rfl

theorem encode_cons (char : Char) (text : Text) :
    encode (char :: text) = encodeChar char ++ encode text := List.flatMap_cons

theorem encode_append (first second : Text) :
    encode (first ++ second) = encode first ++ encode second := by
  simp [encode]

end Utf8
end SourceIndex
