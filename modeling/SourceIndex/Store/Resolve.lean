import SourceIndex.Store.Basic

/-! From paths to places. A path is followed name by name from the root or the working
directory: every step needs a directory to stand in, `..` is the directory above the
place reached, and a link is replaced by the path it holds. The length of a path, the
length of a name and the number of links on the way are limited. -/
namespace SourceIndex

/-- One step of following a path. A trailing slash asks for a directory. -/
inductive Step where
  | here
  | up
  | name (name : Name)
  | slash
  deriving DecidableEq, Repr

def Step.ofSegment? (segment : Bytes) : Option Step :=
  if segment = [] then none
  else if segment = [Path.dot] then some .here
  else if segment = [Path.dot, Path.dot] then some .up
  else some (.name segment)

/-- The steps of a path, wherever it starts. -/
def Path.steps (path : Path) : List Step :=
  let segments := Path.segments path.bytes
  segments.filterMap Step.ofSegment? ++ if segments.getLast? = some [] then [.slash] else []

/-- What the last name of a path is wanted for. -/
inductive Purpose where
  /-- The node itself, also when it is a link. -/
  | inspect
  /-- What the node stands for. -/
  | follow
  /-- A file to be opened for writing, made if there is none. -/
  | create
  deriving DecidableEq, Repr

/-- Where a path leads: to a node, or to a free name in a directory. -/
inductive Target where
  | present (place : Place)
  | vacant (place : Place)
  deriving DecidableEq, Repr

namespace Store

def maxPath : Nat := 4095
def maxName : Nat := 255
def maxLinks : Nat := 40

/-- Follow steps; `onLink` goes on from the place where a link's path starts. -/
def followSteps (store : Store) (purpose : Purpose)
    (onLink : Place → List Step → Except Refusal Target) :
    Place → List Step → Except Refusal Target
  | place, [] => .ok (.present place)
  | place, step :: rest =>
    if store.isDirectoryAt place = false then .error .notDirectory
    else match step with
      | .here | .slash => followSteps store purpose onLink place rest
      | .up => followSteps store purpose onLink place.dropLast rest
      | .name name =>
        let inner := place ++ [name]
        if purpose = .create ∧ rest = [.slash] then .error .isDirectory
        else if maxName < name.length then .error .nameTooLong
        else match store.node? inner with
          | none => if rest = [] then .ok (.vacant inner) else .error .notFound
          | some (.link target) =>
            if purpose = .inspect ∧ rest = [] then .ok (.present inner)
            else onLink (if target.isAbsolute then [] else place) (target.steps ++ rest)
          | some _ => followSteps store purpose onLink inner rest

/-- Follow steps through at most `links` links. -/
def followWithin (store : Store) (purpose : Purpose) :
    (links : Nat) → Place → List Step → Except Refusal Target
  | 0 => followSteps store purpose fun _ _ => .error .tooManyLinks
  | links + 1 => followSteps store purpose (followWithin store purpose links)

/-- Where a path leads. -/
def resolve (store : Store) (purpose : Purpose) (path : Path) : Except Refusal Target :=
  if path.bytes.contains 0 then .error .nulInPath
  else if path.bytes = [] then .error .notFound
  else if maxPath < path.bytes.length then .error .nameTooLong
  else followWithin store purpose maxLinks
    (if path.isAbsolute then [] else store.working) path.steps

/-- The place of an existing node. -/
def locate (store : Store) (purpose : Purpose) (path : Path) : Except Refusal Place :=
  match store.resolve purpose path with
  | .ok (.present place) => .ok place
  | .ok (.vacant _) => .error .notFound
  | .error refusal => .error refusal

/-- The node a path leads to. -/
def inspect (store : Store) (purpose : Purpose) (path : Path) : Except Refusal Node :=
  match store.locate purpose path with
  | .ok place =>
    match store.node? place with
    | some node => .ok node
    | none => .error .notFound
  | .error refusal => .error refusal

def isDirectory (store : Store) (path : Path) : Bool :=
  match store.inspect .follow path with
  | .ok .directory => true
  | _ => false

/-- Whether a path leads to a regular file, links followed. -/
def isFile (store : Store) (path : Path) : Bool :=
  match store.inspect .follow path with
  | .ok (.file _) => true
  | .ok (.device device) => device.regular
  | _ => false

/-- The bytes of the file a path leads to. -/
def read (store : Store) (path : Path) : Except Refusal Bytes :=
  match store.inspect .follow path with
  | .ok (.file content) => .ok content
  | .ok .directory => .error .isDirectory
  | .ok (.device device) =>
    match device.readFailure with
    | some refusal => .error refusal
    | none => .ok []
  | .ok (.link _) => .error .tooManyLinks
  | .error refusal => .error refusal

end Store
end SourceIndex
