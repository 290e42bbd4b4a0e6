import SourceIndex.Comment
import SourceIndex.Head

/-! The header snippet of a file: its first comment in one line, or, where there is
none, its first visible lines. Only the head of the file is looked at, and a snippet
is cut to a fixed number of scalar values. -/
namespace SourceIndex.Snippet

/-- The lines that are searched for a comment. -/
def windowLines : Nat := 30

/-- The longest snippet, in scalar values. -/
def maxLength : Nat := 400

/-- The lines shown when there is no comment. -/
def fallbackLines : Nat := 3

def separator : Text := " | ".toList

def flatten (text : Text) : Text := text.map fun char => if char = '\n' then ' ' else char

/-- The first visible lines in a row. -/
def fallback (lines : List Text) : Text :=
  Text.join separator (((lines.map Text.trim).filter (· ≠ [])).take fallbackLines)

/-- The snippet of a file with this head. -/
def ofLines (lines : List Text) : Text :=
  match Comment.first? (Text.join ['\n'] lines) with
  | some comment => Text.truncate maxLength (flatten (Text.trim comment))
  | none => Text.truncate maxLength (fallback lines)

/-- The snippet of an input; a failing one has none. -/
def ofInput (input : Input ε) : Except ε Text :=
  (Head.read windowLines input).1.map ofLines

end SourceIndex.Snippet
