import SourceIndex.CommandLine.Basic
import SourceIndex.Text.Similarity
import SourceIndex.Text.Terminal

/-! Why a command line is not a run, and the text shown instead: a message, a tip
where there is one, a usage line, and the way to the help. Asking for the help or the
version ends the reading of a command line in the same way. -/
namespace SourceIndex.CommandLine

/-- What else an unknown argument may have been meant as. -/
inductive Tip where
  | none
  | asValue
  | similar (argument : Argument)
  deriving DecidableEq, Repr

/-- Why the arguments are not accepted. The usage line of some of these depends on the
arguments used so far, or on whether there were any. -/
inductive ParseError where
  | unknown (argument : Text) (tip : Tip) (used : List Argument)
  | missingValue (argument : Argument)
  | invalidFormat (value : Text)
  | conflict (first second : Argument) (used : List Argument)
  | repeated (argument : Argument)
  | unneededValue (value : Text) (flag : Argument) (started : Bool)
  | help (long : Bool)
  | version
  deriving DecidableEq, Repr

/-- The part of the usage line after the program's name. -/
def usageArguments (used : List Argument) : String :=
  if used = [] then "[OPTIONS] [ROOT]"
  else
    let options := (used.eraseDups.filter (· ≠ .root)).map Argument.display
    " ".intercalate (options ++ [if .root ∈ used then "<ROOT>" else "[ROOT]"])

def usage (used : List Argument) : String := s!"Usage: {programName} {usageArguments used}"

/-- Any of the arguments that set something. -/
def anySetting : String :=
  "<" ++ "|".intercalate
    ("ROOT" :: [Argument.output, .format, .stdout, .verbose].map Argument.display) ++ ">"

/-- The usage line for a flag that was given a value. Once something has been set, the
line offers every setting, and names the flag only if it is none of them. -/
def flagUsage (flag : Argument) (started : Bool) : String :=
  if started then
    let own := if flag = .help ∨ flag = .version then flag.display ++ " " else ""
    s!"Usage: {programName} {own}{anySetting}"
  else usage [flag]

def formatNames : String := ", ".intercalate (Format.all.map Format.name)

/-- The values an argument may have, if they are a closed list. -/
def possibleValues : Argument → String
  | .format => s!"\n  [possible values: {formatNames}]"
  | _ => ""

def Tip.text (typed : String) : Tip → String
  | .none => ""
  | .asValue => s!"\n\n  tip: to pass '{typed}' as a value, use '-- {typed}'"
  | .similar argument => s!"\n\n  tip: a similar argument exists: '{argument.suggested}'"

/-- The format that may have been meant. -/
def formatTip (value : Text) : String :=
  match Text.Similarity.best? value (Format.all.map fun format => (format.name.toList, format)) with
  | some format => s!"\n\n  tip: a similar value exists: '{format.name}'"
  | none => ""

def helpHint : String := "\n\nFor more information, try '--help'.\n"

/-- The short help. -/
def shortHelp : String :=
  "Build a flat CODE_INDEX of source files and their header snippets\n" ++
  "\n" ++
  "Usage: code-index [OPTIONS] [ROOT]\n" ++
  "\n" ++
  "Arguments:\n" ++
  "  [ROOT]  Directory to index [default: .]\n" ++
  "\n" ++
  "Options:\n" ++
  "  -o, --output <OUTPUT>  Index file to write; relative paths resolve against ROOT " ++
  "[default: CODE_INDEX.md]\n" ++
  "      --format <FORMAT>  Output format [default: markdown] [possible values: markdown, jsonl]\n" ++
  "      --stdout           Write the index to stdout instead of a file\n" ++
  "  -v, --verbose...       More logging on stderr (-v info, -vv debug, -vvv trace); " ++
  "RUST_LOG wins when set\n" ++
  "  -h, --help             Print help (see more with '--help')\n" ++
  "  -V, --version          Print version\n"

/-- An empty line inside the entry of an argument keeps its indentation. -/
def indentedBlank : String := "          \n"

/-- The long help. -/
def longHelp : String :=
  "Build a flat CODE_INDEX of source files and their header snippets.\n" ++
  "\n" ++
  "Walks ROOT, keeps script/markup/stylesheet sources, and writes one section per file " ++
  "with its leading comment (or first lines) as a quick reference.\n" ++
  "\n" ++
  "Usage: code-index [OPTIONS] [ROOT]\n" ++
  "\n" ++
  "Arguments:\n" ++
  "  [ROOT]\n" ++
  "          Directory to index\n" ++
  indentedBlank ++
  "          [default: .]\n" ++
  "\n" ++
  "Options:\n" ++
  "  -o, --output <OUTPUT>\n" ++
  "          Index file to write; relative paths resolve against ROOT\n" ++
  indentedBlank ++
  "          [default: CODE_INDEX.md]\n" ++
  "\n" ++
  "      --format <FORMAT>\n" ++
  "          Output format\n" ++
  "\n" ++
  "          Possible values:\n" ++
  "          - markdown: Title, description, then one `## path` section per file\n" ++
  "          - jsonl:    One JSON object (`path`, `snippet`) per line\n" ++
  indentedBlank ++
  "          [default: markdown]\n" ++
  "\n" ++
  "      --stdout\n" ++
  "          Write the index to stdout instead of a file\n" ++
  "\n" ++
  "  -v, --verbose...\n" ++
  "          More logging on stderr (-v info, -vv debug, -vvv trace); RUST_LOG wins when set\n" ++
  "\n" ++
  "  -h, --help\n" ++
  "          Print help (see a summary with '-h')\n" ++
  "\n" ++
  "  -V, --version\n" ++
  "          Print version\n"

namespace ParseError

/-- The whole text. Each piece that the user typed is put in by `quote`; what surrounds it
is the program's own and has no influence on it. -/
def wording (quote : Text → Text) : ParseError → String
  | .unknown argument tip used =>
    let typed := String.ofList (quote argument)
    s!"error: unexpected argument '{typed}' found" ++ tip.text typed ++
      "\n\n" ++ usage used ++ helpHint
  | .missingValue argument =>
    s!"error: a value is required for '{argument.display}' but none was supplied" ++
      possibleValues argument ++ helpHint
  | .invalidFormat value =>
    s!"error: invalid value '{String.ofList (quote value)}' for '{Argument.format.display}'" ++
      possibleValues .format ++ formatTip value ++ helpHint
  | .conflict first second used =>
    s!"error: the argument '{first.display}' cannot be used with '{second.display}'" ++
      "\n\n" ++ usage used ++ helpHint
  | .repeated argument =>
    s!"error: the argument '{argument.display}' cannot be used multiple times" ++
      "\n\n" ++ usage [] ++ helpHint
  | .unneededValue value flag started =>
    s!"error: unexpected value '{String.ofList (quote value)}' for '{flag.display}' found; " ++
      "no more were expected" ++ "\n\n" ++ flagUsage flag started ++ helpHint
  | .help true => longHelp
  | .help false => shortHelp
  | .version => s!"{programName} {programVersion}\n"

/-- The message as a text. -/
def message : ParseError → String := wording Text.Terminal.plain

/-- The message as it is written to a stream. -/
def streamMessage : ParseError → String := wording Text.Terminal.streamed

/-- Answers end a run well and go to the standard output. -/
def isAnswer : ParseError → Bool
  | .help _ | .version => true
  | _ => false

def exitCode (error : ParseError) : Nat := if error.isAnswer then 0 else 2

end ParseError
end SourceIndex.CommandLine
