import SourceIndex.Log
import SourceIndex.SourceFile
import SourceIndex.Store.Resolve

/-! Which files belong into an index. The walk starts at the root, which may be spelled
in any way and may be a link, and goes down real directories only. Two names are left
out wherever they appear below the root, with everything under them. A visited name
counts when it leads to a regular file, through links too, and its extension is one of
the indexed ones. What cannot be looked at is reported and skipped. -/
namespace SourceIndex.Discovery

/-- Names that are never visited below the root. -/
def ignoredNames : List String := ["node_modules", ".git"]

def isIgnored (name : Name) : Bool :=
  (ignoredNames.map fun ignored => Utf8.encode ignored.toList).contains name

/-- What the walk meets, by the path it got there on. -/
inductive Visit where
  | found (path : Path)
  | failed (path : Path) (refusal : Refusal)
  deriving DecidableEq, Repr

/-- The visits below a directory, as deep as `levels`. -/
def visitsBelow (store : Store) : (levels : Nat) → Path → Place → List Visit
  | 0, _, _ => []
  | levels + 1, path, place =>
    if Store.maxPath < path.bytes.length then [.failed path .nameTooLong]
    else (store.entries place).flatMap fun (name, node) =>
      if isIgnored name then []
      else
        let inner := path.child name
        match node with
        | .directory => .found inner :: visitsBelow store levels inner (place ++ [name])
        | _ => [.found inner]

/-- All visits of a walk. A root that is a link stands for what it leads to. -/
def visits (store : Store) (root : Path) : List Visit :=
  match store.locate .follow root with
  | .error refusal => [.failed root refusal]
  | .ok place =>
    if store.isDirectoryAt place then
      .found root :: visitsBelow store (store.depth + 1) root place
    else [.found root]

/-- The file at a visited path, if it is one for the index. -/
def file? (store : Store) (root : Path) : Visit → Option SourceFile
  | .failed _ _ => none
  | .found path =>
    let file := SourceFile.ofLocation root path
    if file.isIndexed && store.isFile path then some file else none

def failure? (root : Path) : Visit → Option Event
  | .failed path refusal => some (.walkFailed root path refusal)
  | .found _ => none

/-- The files below a root, in no particular order. -/
def files (store : Store) (root : Path) : List SourceFile :=
  (visits store root).filterMap (file? store root)

/-- What the walk reports. -/
def events (store : Store) (root : Path) : List Event :=
  (visits store root).filterMap (failure? root) ++ [.discovered (files store root).length]

end SourceIndex.Discovery
