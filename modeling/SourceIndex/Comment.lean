import SourceIndex.Text.Blank

/-! Comments in a text of unknown language. Three shapes count: a block from `/*`
through the first `*/` after it, which may start anywhere and span lines; and a line
whose first visible characters are `#` or `//`. A line comment is looked for at line
starts only and may be preceded by blank lines, which then belong to the match. -/
namespace SourceIndex.Comment

/-- The text up to and including the first `*/`. -/
def blockRest? : Text → Option Text
  | '*' :: '/' :: _ => some ['*', '/']
  | [] => none
  | char :: rest => (blockRest? rest).map (char :: ·)

/-- The block comment that starts right here. -/
def blockAt? : Text → Option Text
  | '/' :: '*' :: rest => (blockRest? rest).map (['/', '*'] ++ ·)
  | _ => none

/-- The marks of a comment that runs to the end of its line. -/
def isLineMark : Text → Bool
  | '#' :: _ => true
  | '/' :: '/' :: _ => true
  | _ => false

/-- The line comment of a text that starts a line, with the blanks before it. -/
def lineAt? (text : Text) : Option Text :=
  let visible := Text.trimStart text
  if isLineMark visible then
    some (text.takeWhile Text.isBlank ++ visible.takeWhile (· != '\n'))
  else none

/-- The comment that starts right here. -/
def at? (lineStart : Bool) (text : Text) : Option Text :=
  match blockAt? text with
  | some comment => some comment
  | none => if lineStart then lineAt? text else none

/-- The comment with the earliest start. -/
def search (lineStart : Bool) : Text → Option Text
  | [] => none
  | char :: rest =>
    match at? lineStart (char :: rest) with
    | some comment => some comment
    | none => search (char == '\n') rest

def first? (text : Text) : Option Text := search true text

end SourceIndex.Comment
