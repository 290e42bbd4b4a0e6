import SourceIndex.Log.Directive
import SourceIndex.Store.Basic

/-! What a run reports about itself, and who gets to see it. Events are facts; their
level, source and wording are functions of the fact. A filter is a list of directives,
and of those that apply to an event the most specific one decides. -/
namespace SourceIndex

/-- What happened on the way. -/
inductive Event where
  /-- A directory or the root itself could not be looked at. -/
  | walkFailed (root place : Path) (refusal : Refusal)
  | discovered (count : Nat)
  | noSnippet (file : Path) (refusal : Refusal)
  | indexed (count : Nat) (root : Path)
  deriving DecidableEq, Repr

namespace Event

def level : Event → Level
  | .indexed _ _ => .info
  | _ => .debug

/-- The part of the program an event comes from. -/
def source : Event → String
  | .noSnippet _ _ => "code_index::snippet"
  | _ => "code_index::scan"

def message : Event → Text
  | .walkFailed root place refusal =>
    "walk error under ".toList ++ root.display ++ ": IO error for operation on ".toList ++
      place.display ++ ": ".toList ++ refusal.message.toList
  | .discovered count => s!"discovered {count} candidate files".toList
  | .noSnippet file refusal =>
    "no snippet for ".toList ++ file.display ++ ": ".toList ++ refusal.message.toList
  | .indexed count root => s!"indexed {count} files under ".toList ++ root.display

/-- A message on a terminal: characters that could steer it are spelled out. -/
def terminalChar (char : Char) : Text :=
  if char = '\x1B' then "\\x1b".toList
  else if char = '\x07' then "\\x07".toList
  else if char = '\x08' then "\\x08".toList
  else if char = '\x0C' then "\\x0c".toList
  else if char = '\x7F' then "\\x7f".toList
  else if 0x80 ≤ char.toNat ∧ char.toNat ≤ 0x9F then
    ['\\', 'u', '\x7b'] ++ Nat.toDigits 16 char.toNat ++ ['\x7d']
  else [char]

/-- The line of an event in a log, without the time. -/
def line (event : Event) : Text :=
  let name := event.level.name.toList
  List.replicate (5 - name.length) ' ' ++ name ++ ' ' :: event.message.flatMap terminalChar ++ ['\n']

end Event

namespace Log

abbrev Filter := List Directive

/-- Parts between commas. -/
def parts : Text → List Text
  | [] => [[]]
  | char :: rest =>
    if char = ',' then [] :: parts rest
    else match parts rest with
      | [] => [[char]]
      | part :: others => (char :: part) :: others

/-- A filter as it is written; nothing at all lets errors through. -/
def filter? (text : Text) : Option Filter :=
  match (parts text).filter (· ≠ []) with
  | [] => some [⟨none, false, none, some .error⟩]
  | written => written.mapM fun part => (Writing.ofText part).directive?

/-- The one field that every event has. -/
def messageField : Field := ⟨"message".toList, false⟩

/-- Whether a directive says anything about an event. No event happens in a span, and no
value of a field is known before the event. -/
def Directive.applies (directive : Directive) (event : Event) : Bool :=
  (directive.source.getD []).isPrefixOf event.source.toList && directive.inSpan == false &&
    directive.field.all (· == messageField)

/-- How specific a directive is: the length of its source counts first, then a field. -/
def Directive.precision (directive : Directive) : Nat :=
  2 * (directive.source.map (·.length + 1)).getD 0 + directive.field.toList.length

/-- The more specific of two directives, the later one if they are equal. -/
def Directive.prevail (held : Option Directive) (later : Directive) : Option Directive :=
  match held with
  | some held => if held.precision ≤ later.precision then some later else some held
  | none => some later

/-- The directive that decides about an event. -/
def Filter.deciding? (filter : Filter) (event : Event) : Option Directive :=
  (filter.filter (·.applies event)).foldl Directive.prevail none

def Filter.passes (filter : Filter) (event : Event) : Bool :=
  match (filter.deciding? event).bind Directive.level with
  | some level => event.level.rank ≤ level.rank
  | none => false

/-- The filter of a verbosity count. -/
def ofVerbosity (count : Nat) : Filter :=
  [⟨none, false, none, some (match count with
    | 0 => .warn
    | 1 => .info
    | 2 => .debug
    | _ => .trace)⟩]

/-- The filter of a run: a readable setting wins over the verbosity. -/
def choose (setting : Option Bytes) (verbosity : Nat) : Filter :=
  match (setting.bind Utf8.text?).bind filter? with
  | some filter => filter
  | none => ofVerbosity verbosity

end Log
end SourceIndex
