import SourceIndex.Text.Escaped

/-! Paths as they are spelled, and what a spelling means. A path is a byte string;
its components forget repeated slashes, trailing slashes and every `.` but a leading
one, and two paths name the same thing lexically when their components agree. No
operation here looks at the file system: `..` is a component, not a step up. -/
namespace SourceIndex

/-- A path in the spelling it was given in. -/
structure Path where
  bytes : Bytes
  deriving DecidableEq, Repr

/-- One step of a path; the order of the constructors is the order of components. -/
inductive Component where
  | root
  | here
  | up
  | name (bytes : Bytes)
  deriving DecidableEq, Repr

namespace Component

/-- Components are ordered by kind, names among themselves by their bytes. -/
def key : Component → List Nat
  | .root => [0]
  | .here => [1]
  | .up => [2]
  | .name bytes => 3 :: bytes.map UInt8.toNat

def name? : Component → Option Bytes
  | .name bytes => some bytes
  | _ => none

end Component

namespace Path

def slash : UInt8 := 0x2F
def dot : UInt8 := 0x2E

def ofString (text : String) : Path := ⟨Utf8.encode text.toList⟩

/-- The parts between slashes, empty ones included; never the empty list. -/
def segments : Bytes → List Bytes
  | [] => [[]]
  | byte :: rest =>
    if byte = slash then [] :: segments rest
    else match segments rest with
      | [] => [[byte]]
      | segment :: others => (byte :: segment) :: others

/-- What a segment that is not the first one contributes. -/
def component? (segment : Bytes) : Option Component :=
  if segment = [] ∨ segment = [dot] then none
  else if segment = [dot, dot] then some .up
  else some (.name segment)

/-- The components together with the part of the spelling that each one ends. -/
def marksAfter (before : Bytes) : List Bytes → List (Component × Path)
  | [] => []
  | segment :: rest =>
    let spelled := before ++ segment
    let others := marksAfter (spelled ++ [slash]) rest
    match component? segment with
    | some component => (component, ⟨spelled⟩) :: others
    | none => others

def marks (path : Path) : List (Component × Path) :=
  match segments path.bytes with
  | [] => []
  | [] :: [] => []
  | [] :: rest => (.root, ⟨[slash]⟩) :: marksAfter [slash] rest
  | segment :: rest =>
    if segment = [dot] then (.here, ⟨[dot]⟩) :: marksAfter [dot, slash] rest
    else marksAfter [] (segment :: rest)

/-- The meaning of a spelling. -/
def components (path : Path) : List Component := path.marks.map Prod.fst

/-- Two spellings of one path. -/
def Same (first second : Path) : Prop := first.components = second.components

instance (first second : Path) : Decidable (first.Same second) :=
  inferInstanceAs (Decidable (_ = _))

def isAbsolute (path : Path) : Bool := path.bytes.head? == some slash

/-- The path and the directories it lies in, nearest first, without the root
directory and without the empty path that a relative path starts from. -/
def ancestors (path : Path) : List Path :=
  (path.marks.reverse.filter fun mark => mark.1 != .root).map Prod.snd

/-- The directory part of a path; the root directory and the empty path have none. -/
def parent? (path : Path) : Option Path :=
  match path.marks.reverse with
  | [] => none
  | (.root, _) :: _ => none
  | [_] => some ⟨[]⟩
  | _ :: (_, directory) :: _ => some directory

def fileName? (path : Path) : Option Bytes :=
  path.components.getLast?.bind Component.name?

/-- What follows the last dot of a name, if something stands before that dot. -/
def extensionOf? (name : Bytes) : Option Bytes :=
  match name.reverse.span (· != dot) with
  | (_, []) => none
  | (_, [_]) => none
  | (after, _) => some after.reverse

def extension? (path : Path) : Option Bytes := path.fileName?.bind extensionOf?

/-- `path` seen from `base`: an absolute path stays, a relative one is appended. -/
def join (base path : Path) : Path :=
  if path.isAbsolute then path
  else match base.bytes.getLast? with
    | none => path
    | some last =>
      if last = slash then ⟨base.bytes ++ path.bytes⟩
      else ⟨base.bytes ++ slash :: path.bytes⟩

/-- The path of a directory entry. -/
def child (directory : Path) (name : Bytes) : Path := directory.join ⟨name⟩

/-- How messages show a path. -/
def display (path : Path) : Text := Utf8.lossy path.bytes

/-- The components below `base`, or all of them for a path that does not lie below it. -/
def below (base path : Path) : List Component :=
  if base.components.isPrefixOf path.components
  then path.components.drop base.components.length
  else path.components

/-- The canonical relative name: the written forms of the names below `base`, joined
by slashes. Other components leave no trace. -/
def relativeName (base path : Path) : Text :=
  Text.join ['/'] (((below base path).filterMap Component.name?).map Text.Escaped.encode)

end Path
end SourceIndex
