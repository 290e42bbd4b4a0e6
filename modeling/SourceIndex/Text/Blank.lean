import SourceIndex.Text.Utf8

/-! White space in the sense of the Unicode property `White_Space`, and the
operations on text that depend on it. The property is a closed table; it differs
from ASCII blanks in both directions (U+0085 and U+3000 are in it, U+001C to U+001F,
U+200B and U+FEFF are not). -/
namespace SourceIndex.Text

/-- The Unicode property `White_Space`. -/
def isBlank (char : Char) : Bool :=
  let n := char.toNat
  (0x09 ≤ n && n ≤ 0x0D) || n == 0x20 || n == 0x85 || n == 0xA0 || n == 0x1680 ||
    (0x2000 ≤ n && n ≤ 0x200A) || n == 0x2028 || n == 0x2029 || n == 0x202F ||
    n == 0x205F || n == 0x3000

/-- Drop the blanks in front. -/
def trimStart (text : Text) : Text := text.dropWhile isBlank

/-- Drop the blanks at the end. -/
def trimEnd (text : Text) : Text := (text.reverse.dropWhile isBlank).reverse

def trim (text : Text) : Text := trimEnd (trimStart text)

/-- Texts put in a row with a separator between neighbours. -/
def join (separator : Text) (texts : List Text) : Text := separator.intercalate texts

/-- At most the first `limit` scalar values: a cut never falls inside one. -/
def truncate (limit : Nat) (text : Text) : Text := text.take limit

end SourceIndex.Text
