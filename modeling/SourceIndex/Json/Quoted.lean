import SourceIndex.Text.Utf8

/-! The written form of a JSON string: the short escape where there is one, a numbered
escape for the other control characters, and every other character as it stands. -/
namespace SourceIndex.Json.Quoted

/-- One lowercase hexadecimal digit. -/
def digit (value : Nat) : Char :=
  if value < 10 then Char.ofNat (0x30 + value) else Char.ofNat (0x61 + (value - 10))

/-- One character between the quotes. -/
def encodeChar (char : Char) : Text :=
  if char = '"' then ['\\', '"']
  else if char = '\\' then ['\\', '\\']
  else if char = '\x08' then ['\\', 'b']
  else if char = '\x0C' then ['\\', 'f']
  else if char = '\n' then ['\\', 'n']
  else if char = '\r' then ['\\', 'r']
  else if char = '\t' then ['\\', 't']
  else if char.toNat < 0x20 then
    ['\\', 'u', '0', '0', digit (char.toNat / 16), digit (char.toNat % 16)]
  else [char]

def encode (text : Text) : Text := '"' :: text.flatMap encodeChar ++ ['"']

end SourceIndex.Json.Quoted
