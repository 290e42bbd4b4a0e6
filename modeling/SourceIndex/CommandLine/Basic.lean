import SourceIndex.Document
import SourceIndex.Path

/-! The arguments of the program: what there is to be set, how each is spelled, and
what holds when it is not given. -/
namespace SourceIndex.CommandLine

def programName : String := "code-index"
def programVersion : String := "0.1.0"

/-- Everything that can be said on the command line. -/
inductive Argument where
  | root
  | output
  | format
  | stdout
  | verbose
  | help
  | version
  deriving DecidableEq, Repr

namespace Argument

/-- The long names, in the order of the table. -/
def longNames : List (Text × Argument) :=
  [("output".toList, .output), ("format".toList, .format), ("stdout".toList, .stdout),
    ("verbose".toList, .verbose), ("help".toList, .help), ("version".toList, .version)]

def ofLong? (name : Text) : Option Argument := longNames.lookup name

/-- The short names are ASCII letters. -/
def ofShort? (byte : UInt8) : Option Argument :=
  if byte = 0x6F then some .output
  else if byte = 0x76 then some .verbose
  else if byte = 0x68 then some .help
  else if byte = 0x56 then some .version
  else none

def takesValue : Argument → Bool
  | .root | .output | .format => true
  | _ => false

/-- How messages name an argument. -/
def display : Argument → String
  | .root => "[ROOT]"
  | .output => "--output <OUTPUT>"
  | .format => "--format <FORMAT>"
  | .stdout => "--stdout"
  | .verbose => "--verbose..."
  | .help => "--help"
  | .version => "--version"

/-- How a similar argument is suggested. -/
def suggested : Argument → String
  | .root => "[ROOT]"
  | .output => "--output"
  | .format => "--format"
  | .stdout => "--stdout"
  | .verbose => "--verbose"
  | .help => "--help"
  | .version => "--version"

end Argument

/-- What a run is asked to do. -/
structure Settings where
  root : Path
  output : Path
  format : Format
  stdout : Bool
  verbose : Nat
  deriving DecidableEq, Repr

def defaultRoot : Path := Path.ofString "."
def defaultOutput : Path := Path.ofString Document.defaultName

/-- The largest verbosity that is counted. -/
def maxVerbose : Nat := 255

end SourceIndex.CommandLine
