import SourceIndex.Text.Blank

/-! The written form of a name. File names are bytes, headings are text: well-formed
parts of a name stand as they are, and every byte outside them is written `\xNN` with
two uppercase hexadecimal digits. A name that is text already is its own written form,
so a backslash in a name is not doubled and a name may look like an escape. -/
namespace SourceIndex.Text.Escaped

/-- One uppercase hexadecimal digit. -/
def digit (value : Nat) : Char :=
  if value < 10 then Char.ofNat (0x30 + value) else Char.ofNat (0x41 + (value - 10))

def digit? (char : Char) : Option Nat :=
  let n := char.toNat
  if 0x30 ≤ n && n ≤ 0x39 then some (n - 0x30)
  else if 0x41 ≤ n && n ≤ 0x46 then some (n - 0x41 + 10)
  else none

def encodeByte (byte : UInt8) : Text :=
  ['\\', 'x', digit (byte.toNat / 16), digit (byte.toNat % 16)]

def encodePiece : Utf8.Piece → Text
  | .scalar char => [char]
  | .broken bytes => bytes.flatMap encodeByte

/-- The written form of a name. -/
def encode (name : Bytes) : Text := (Utf8.decode name).flatMap encodePiece

/-- Every `\xNN` stands for its byte, everything else for itself. -/
def decode : Text → Bytes
  | [] => []
  | '\\' :: 'x' :: high :: low :: rest =>
    match digit? high, digit? low with
    | some h, some l => UInt8.ofNat (16 * h + l) :: decode rest
    | _, _ => Utf8.encodeChar '\\' ++ decode ('x' :: high :: low :: rest)
  | char :: rest => Utf8.encodeChar char ++ decode rest

end SourceIndex.Text.Escaped
