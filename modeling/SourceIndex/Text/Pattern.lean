import SourceIndex.Text.Alphanumeric
import SourceIndex.Text.Blank

/-! The form of a regular expression: which texts are one at all. Reading an expression
yields how deep its tree is, since a tree may only be so deep.

Two flags matter to the form. In a verbose expression blanks and comments do not count.
Without the Unicode flag an expression is about bytes, and whatever could match a part of
a character is refused. The automaton that such an expression is meant for knows neither
look-around, references to groups nor the word boundaries of Unicode. An expression stands
in a place that its first closing brace would end, so nothing that needs one can be read:
an opening brace is either escaped, in a bracket, or a mistake. -/
namespace SourceIndex.Text.Pattern

/-- The flags that matter to the form. -/
structure Mode where
  verbose : Bool
  unicode : Bool
  deriving DecidableEq, Repr

/-- The text without the blanks and comments in front; a comment runs from `#` to the end
of its line. -/
def skipFrom : (comment : Bool) → Text → Text
  | _, [] => []
  | true, char :: rest => skipFrom (char != '\n') rest
  | false, char :: rest =>
    if isBlank char then skipFrom false rest
    else if char = '#' then skipFrom true rest
    else char :: rest

def Mode.skip (mode : Mode) (text : Text) : Text :=
  if mode.verbose then skipFrom false text else text

/-- The character that is seen ahead when a dash has to be understood: the next one, in a
verbose expression the next behind blanks and the mark of a comment. -/
def Mode.ahead? (mode : Mode) (text : Text) : Option Char :=
  if mode.verbose then
    let seen := match text.dropWhile isBlank with
      | '#' :: rest => rest.dropWhile isBlank
      | seen => seen
    seen.head?.or text.head?
  else text.head?

/-- The deepest tree that is allowed. -/
def maxDepth : Nat := 250

/-- The depth over some parts that stand side by side: one of them alone adds nothing. -/
def depthOver : List Nat → Nat
  | [] => 0
  | [depth] => depth
  | depths => 1 + depths.foldl max 0

/-! Escapes -/

/-- What a single character or an escape stands for. -/
inductive Atom where
  | literal (char : Char)
  /-- A class of characters. -/
  | kind
  /-- A place between characters. -/
  | place
  deriving DecidableEq, Repr

def hexDigit? (char : Char) : Option Nat :=
  if char.isDigit then some (char.toNat - 48)
  else if 'a' ≤ char ∧ char ≤ 'f' then some (char.toNat - 87)
  else if 'A' ≤ char ∧ char ≤ 'F' then some (char.toNat - 55)
  else none

/-- So many hexadecimal digits, as a number. -/
def number? (mode : Mode) : (digits value : Nat) → Text → Option (Nat × Text)
  | 0, value, text => some (value, text)
  | digits + 1, value, text =>
    match mode.skip text with
    | [] => none
    | char :: rest => do number? mode digits (value * 16 + (← hexDigit? char)) rest

/-- A character by its number. A surrogate is none; two digits name a byte, and a byte that
is no character of ASCII is refused where bytes are meant. -/
def numbered? (mode : Mode) (digits : Nat) (text : Text) : Option (Atom × Text) := do
  let (value, rest) ← number? mode digits 0 text
  if value.isValidChar && (mode.unicode || digits != 2 || value < 0x80) then
    return (.literal (Char.ofNat value), rest)
  else none

/-- A general category of Unicode by its letter. -/
def property? (mode : Mode) (text : Text) : Option (Atom × Text) :=
  match mode.skip text with
  | char :: rest =>
    if mode.unicode && "clmnpsz".toList.contains char.toLower then some (.kind, rest) else none
  | [] => none

/-- An escape, from behind its backslash. The complement of a class of bytes could match a
part of a character. -/
def escape? (mode : Mode) : Text → Option (Atom × Text)
  | [] => none
  | char :: rest =>
    match char with
    | 'x' => numbered? mode 2 rest
    | 'u' => numbered? mode 4 rest
    | 'U' => numbered? mode 8 rest
    | 'p' | 'P' => property? mode rest
    | 'd' | 's' | 'w' => some (.kind, rest)
    | 'D' | 'S' | 'W' => if mode.unicode then some (.kind, rest) else none
    | 'A' | 'z' => some (.place, rest)
    | 'b' | 'B' | '<' | '>' => if mode.unicode then none else some (.place, rest)
    | 'a' => some (.literal '\x07', rest)
    | 'f' => some (.literal '\x0C', rest)
    | 't' => some (.literal '\t', rest)
    | 'n' => some (.literal '\n', rest)
    | 'r' => some (.literal '\r', rest)
    | 'v' => some (.literal '\x0B', rest)
    | _ => if char.isAlphanum || 0x80 ≤ char.toNat then none else some (.literal char, rest)

/-! Brackets -/

/-- The names of the classes that are written in brackets of their own. -/
def bracketNames : List String :=
  ["alnum", "alpha", "ascii", "blank", "cntrl", "digit", "graph", "lower", "print", "punct",
    "space", "upper", "word", "xdigit"]

/-- A named class such as `[:alpha:]`, from behind its bracket, and whether the complement
is meant. -/
def named? : Text → Option (Bool × Text)
  | ':' :: rest =>
    let (complement, rest) : Bool × Text := match rest with
      | '^' :: rest => (true, rest)
      | rest => (false, rest)
    match rest.dropWhile (· != ':') with
    | ':' :: ']' :: after =>
      if (bracketNames.map String.toList).contains (rest.takeWhile (· != ':'))
      then some (complement, after) else none
    | _ => none
  | _ => none

/-- One character of a bracket or an escape there. -/
def single? (mode : Mode) : Text → Option (Atom × Text)
  | [] => none
  | '\\' :: rest => escape? mode rest
  | char :: rest => some (.literal char, rest)

/-- What may be a member of a bracket; where bytes are meant only ASCII. -/
def Atom.isMember (mode : Mode) : Atom → Bool
  | .literal char => mode.unicode || char.toNat < 0x80
  | .kind => true
  | .place => false

/-- A member of a bracket or a range of members. A dash in front of a closing bracket or of
another dash makes no range. -/
def member? (mode : Mode) (text : Text) : Option Text := do
  let (first, rest) ← single? mode text
  if first.isMember mode = false then none
  let rest := mode.skip rest
  match rest with
  | [] => none
  | '-' :: tail =>
    if mode.ahead? tail = some ']' ∨ mode.ahead? tail = some '-' then return rest
    let (last, after) ← single? mode (mode.skip tail)
    match first, last with
    | .literal low, .literal high =>
      if last.isMember mode ∧ low ≤ high then return after else none
    | _, _ => none
  | _ => return rest

/-- Dashes at the start of a bracket stand for themselves. -/
def dashes (mode : Mode) : (fuel : Nat) → Text → Nat × Text
  | fuel + 1, '-' :: rest =>
    let (count, after) := dashes mode fuel (mode.skip rest)
    (count + 1, after)
  | _, text => (0, text)

/-- The start of a bracket: whether the complement is meant, and how many characters stand
there for themselves although they have a meaning elsewhere. -/
def bracketStart (mode : Mode) (text : Text) : Bool × Nat × Text :=
  let (complement, text) : Bool × Text := match mode.skip text with
    | '^' :: rest => (true, mode.skip rest)
    | text => (false, text)
  match dashes mode text.length text with
  | (0, ']' :: rest) => (complement, 1, mode.skip rest)
  | (count, text) => (complement, count, text)

/-- What a part of a bracket comes to: the depth of its tree, and whether the bytes that are
no ASCII are in it. Only a complement holds any of them, and it holds all. -/
structure Extent where
  depth : Nat
  beyond : Bool
  deriving DecidableEq, Repr

/-- How the operand in front and the one behind make one class. -/
inductive Operator where
  | intersection
  | difference
  | symmetricDifference
  deriving DecidableEq, Repr

/-- Whether something is in a class if it is, or is not, in the two operands. -/
def Operator.holds : Operator → Bool → Bool → Bool
  | .intersection, left, right => left && right
  | .difference, left, right => left && !right
  | .symmetricDifference, left, right => left != right

/-- A row of members behind the operand in front, if there is one. -/
def operand (left : Option (Extent × Operator)) (members : List Extent) : Extent :=
  let row : Extent := ⟨depthOver (members.map Extent.depth), members.any Extent.beyond⟩
  match left with
  | none => row
  | some (left, operator) =>
    ⟨1 + max left.depth row.depth, operator.holds left.beyond row.beyond⟩

/-- The depth of a bracket that is closed; where bytes are meant only ASCII may be left. -/
def closed? (mode : Mode) (complement : Bool) (extent : Extent) : Option Nat :=
  if mode.unicode || complement == extent.beyond then some (extent.depth + 1) else none

/-- The members of a bracket to its end, and what they make. -/
def members? (mode : Mode) : (fuel : Nat) → (left : Option (Extent × Operator)) →
    (members : List Extent) → Text → Option (Extent × Text)
  | 0, _, _, _ => none
  | fuel + 1, left, members, text =>
    let behind (operator : Operator) (rest : Text) : Option (Extent × Text) :=
      members? mode fuel (some (operand left members, operator)) [] rest
    match mode.skip text with
    | [] => none
    | '[' :: rest =>
      match named? rest with
      | some (complement, after) => members? mode fuel left (⟨0, complement⟩ :: members) after
      | none => do
        let (complement, count, rest) := bracketStart mode rest
        let (inner, after) ← members? mode fuel none (List.replicate count ⟨0, false⟩) rest
        members? mode fuel left (⟨← closed? mode complement inner, false⟩ :: members) after
    | ']' :: rest => some (operand left members, rest)
    | '&' :: '&' :: rest => behind .intersection rest
    | '-' :: '-' :: rest => behind .difference rest
    | '~' :: '~' :: rest => behind .symmetricDifference rest
    | text => do members? mode fuel left (⟨0, false⟩ :: members) (← member? mode text)

/-- A bracket, from behind its opening mark. -/
def bracket? (mode : Mode) (text : Text) : Option (Nat × Text) := do
  let (complement, count, rest) := bracketStart mode text
  let (inner, after) ←
    members? mode (text.length + 1) none (List.replicate count ⟨0, false⟩) rest
  return (← closed? mode complement inner, after)

/-! Groups -/

/-- What an opening round bracket turns out to be. -/
inductive Opening where
  | group (mode : Mode) (name : Option Text)
  /-- Flags for the rest of the group around. -/
  | setting (mode : Mode)
  deriving DecidableEq, Repr

def flagLetters : Text := "imsUuRx".toList

/-- How a row of flags sets one of them: letters behind the dash are switched off. -/
def flag (word : Text) (letter : Char) (before : Bool) : Bool :=
  if word.contains letter then !(word.takeWhile (· != letter)).contains '-' else before

def Mode.set (mode : Mode) (word : Text) : Mode :=
  ⟨flag word 'x' mode.verbose, flag word 'u' mode.unicode⟩

/-- Letters, each at most once, and a dash that is not the last. -/
def isFlagWord (word : Text) : Bool :=
  word.all ('-' :: flagLetters).contains && word.Nodup && word.getLast? != some '-'

/-- The name of a group, from behind its opening mark. -/
def name? (names : List Text) (text : Text) : Option (Text × Text) :=
  let name := text.takeWhile (· != '>')
  let good := match name with
    | [] => false
    | first :: more => (first == '_' || isAlphabetic first) &&
        more.all fun char => isAlphanumeric char || "_.[]".toList.contains char
  match text.dropWhile (· != '>') with
  | _ :: rest => if good && !names.contains name then some (name, rest) else none
  | [] => none

/-- The start of a group, from behind its bracket. -/
def opening? (mode : Mode) (names : List Text) (text : Text) : Option (Opening × Text) :=
  match mode.skip text with
  | '?' :: 'P' :: '<' :: rest => (name? names rest).map fun (name, rest) => (.group mode name, rest)
  | '?' :: '<' :: rest => (name? names rest).map fun (name, rest) => (.group mode name, rest)
  | '?' :: rest =>
    let word := rest.takeWhile fun char => char != ':' && char != ')'
    match isFlagWord word, rest.drop word.length with
    | true, ':' :: rest => some (.group (mode.set word) none, rest)
    | true, ')' :: rest => if word = [] then none else some (.setting (mode.set word), rest)
    | _, _ => none
  | rest => some (.group mode none, rest)

/-! Expressions -/

/-- An item of an expression: its depth, and whether it may be repeated. -/
structure Item where
  depth : Nat
  repeatable : Bool
  deriving DecidableEq, Repr

/-- What has been read of a group: the alternatives so far and the items of the last one,
latest first. -/
structure Branches where
  finished : List Nat
  items : List Item
  deriving DecidableEq, Repr

namespace Branches

def start : Branches := ⟨[], []⟩

def add (branches : Branches) (depth : Nat) : Branches :=
  { branches with items := ⟨depth, true⟩ :: branches.items }

def addSetting (branches : Branches) : Branches :=
  { branches with items := ⟨0, false⟩ :: branches.items }

/-- The last item repeated, if there is one to repeat. -/
def repeated? (branches : Branches) : Option Branches :=
  match branches.items with
  | ⟨depth, true⟩ :: items => some { branches with items := ⟨depth + 1, true⟩ :: items }
  | _ => none

/-- A bar: the next alternative starts. -/
def split (branches : Branches) : Branches :=
  ⟨depthOver (branches.items.map Item.depth) :: branches.finished, []⟩

def depth (branches : Branches) : Nat := depthOver branches.split.finished

end Branches

/-- What is left of an expression, and the names of groups so far. -/
structure Rest where
  text : Text
  names : List Text
  deriving DecidableEq, Repr

/-- The items of a group up to its closing bracket or the end: its depth, and what is left
from there on. -/
def group? : (fuel : Nat) → Mode → Branches → Rest → Option (Nat × Rest)
  | 0, _, _, _ => none
  | fuel + 1, mode, branches, ⟨text, names⟩ =>
    match mode.skip text with
    | [] => some (branches.depth, ⟨[], names⟩)
    | ')' :: rest => some (branches.depth, ⟨')' :: rest, names⟩)
    | '|' :: rest => group? fuel mode branches.split ⟨rest, names⟩
    | '(' :: rest => do
      match ← opening? mode names rest with
      | (.setting mode, rest) => group? fuel mode branches.addSetting ⟨rest, names⟩
      | (.group inner name, rest) =>
        let (depth, after) ← group? fuel inner .start ⟨rest, name.toList ++ names⟩
        match after.text with
        | ')' :: rest => group? fuel mode (branches.add (depth + 1)) ⟨rest, after.names⟩
        | _ => none
    | '[' :: rest => do
      let (depth, rest) ← bracket? mode rest
      group? fuel mode (branches.add depth) ⟨rest, names⟩
    | '*' :: rest | '+' :: rest | '?' :: rest => do
      let behind := match rest with
        | '?' :: rest => rest
        | rest => rest
      group? fuel mode (← branches.repeated?) ⟨behind, names⟩
    | '\x7b' :: _ => none
    | '.' :: rest => if mode.unicode then group? fuel mode (branches.add 0) ⟨rest, names⟩ else none
    | '\\' :: rest => do
      let (_, rest) ← escape? mode rest
      group? fuel mode (branches.add 0) ⟨rest, names⟩
    | _ :: rest => group? fuel mode (branches.add 0) ⟨rest, names⟩

/-- Whether a text is a regular expression. -/
def isPattern (text : Text) : Bool :=
  match group? (text.length + 1) ⟨false, true⟩ .start ⟨text, []⟩ with
  | some (depth, rest) => rest.text = [] && depth ≤ maxDepth
  | none => false

end SourceIndex.Text.Pattern
