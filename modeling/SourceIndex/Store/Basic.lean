import SourceIndex.Path

/-! A file system as a value: what lies at which place, and the working directory. A
place is the list of names that leads to it from the root directory, so places have no
`..`, no links and no spelling. The list of nodes carries the order in which a
directory gives its entries, and nothing else depends on that order. Ownership, modes,
times and hard links are not represented. -/
namespace SourceIndex

/-- A name inside a directory. -/
abbrev Name := Bytes

/-- The names from the root directory to a node. -/
abbrev Place := List Name

/-- Why an operation on files is refused. -/
inductive Refusal where
  | notFound
  | inputOutput
  | alreadyExists
  | notDirectory
  | isDirectory
  | noSpace
  | nameTooLong
  | tooManyLinks
  | nulInPath
  deriving DecidableEq, Repr

def Refusal.message : Refusal → String
  | .notFound => "No such file or directory (os error 2)"
  | .inputOutput => "Input/output error (os error 5)"
  | .alreadyExists => "File exists (os error 17)"
  | .notDirectory => "Not a directory (os error 20)"
  | .isDirectory => "Is a directory (os error 21)"
  | .noSpace => "No space left on device (os error 28)"
  | .nameTooLong => "File name too long (os error 36)"
  | .tooManyLinks => "Too many levels of symbolic links (os error 40)"
  | .nulInPath => "file name contained an unexpected NUL byte"

/-- A file that is not stored bytes: whether it passes for a regular file, why reading
it fails (it reads as empty otherwise), and why it refuses every byte, if it does. -/
structure Device where
  regular : Bool
  readFailure : Option Refusal
  writeFailure : Option Refusal
  deriving DecidableEq, Repr

namespace Device

/-- Takes everything and gives nothing. -/
def null : Device := ⟨false, none, none⟩

/-- Takes nothing. -/
def full : Device := ⟨false, none, some .noSpace⟩

/-- Passes for a regular file that can be neither read nor written. -/
def unreadable : Device := ⟨true, some .inputOutput, some .inputOutput⟩

end Device

inductive Node where
  | file (content : Bytes)
  | directory
  | link (target : Path)
  | device (device : Device)
  deriving DecidableEq, Repr

/-- All nodes but the root directory, each at its place, and the working directory. -/
structure Store where
  nodes : List (Place × Node)
  working : Place
  deriving DecidableEq, Repr

namespace Store

/-- What a list of nodes has at a place. -/
def lookup (place : Place) : List (Place × Node) → Option Node
  | [] => none
  | (key, node) :: rest => if key = place then some node else lookup place rest

/-- What lies at a place. -/
def node? (store : Store) (place : Place) : Option Node :=
  if place = [] then some .directory else lookup place store.nodes

def isDirectoryAt (store : Store) (place : Place) : Bool := store.node? place == some .directory

/-- The names that lead on from a place to a place below it or the place itself. -/
def onward? : (place key : Place) → Option (List Name)
  | [], key => some key
  | _ :: _, [] => none
  | name :: place, first :: key => if name = first then onward? place key else none

/-- The entries of a directory in the order it gives them. -/
def entries (store : Store) (place : Place) : List (Name × Node) :=
  store.nodes.filterMap fun (key, node) =>
    match onward? place key with
    | some [name] => some (name, node)
    | _ => none

/-- Everything strictly below a place, by the names that lead on from it. -/
def below (store : Store) (place : Place) : List (List Name × Node) :=
  store.nodes.filterMap fun (key, node) =>
    match onward? place key with
    | none | some [] => none
    | some names => some (names, node)

/-- A list of nodes with one more, in the stead of what it had there. -/
def insert (place : Place) (node : Node) : List (Place × Node) → List (Place × Node)
  | [] => [(place, node)]
  | (key, held) :: rest =>
    if key = place then (place, node) :: rest else (key, held) :: insert place node rest

/-- Put a node at a place, over whatever lies there. -/
def put (store : Store) (place : Place) (node : Node) : Store :=
  { store with nodes := insert place node store.nodes }

def erase (store : Store) (place : Place) : Store :=
  { store with nodes := store.nodes.filter fun entry => entry.1 ≠ place }

/-- No place lies deeper than this. -/
def depth (store : Store) : Nat :=
  store.nodes.foldl (fun deepest entry => max deepest entry.1.length) 0

theorem onward?_eq_some_iff {place key : Place} {names : List Name} :
    onward? place key = some names ↔ key = place ++ names := by
  induction place generalizing key with
  | nil => simp [onward?]
  | cons name place ih =>
    cases key with
    | nil => simp [onward?]
    | cons first key =>
      by_cases same : name = first
      · simp [onward?, same, ih]
      · simp [onward?, same, Ne.symm same]

/-- The entries of a directory are the nodes one name below it. -/
theorem mem_entries {store : Store} {place : Place} {name : Name} {node : Node} :
    (name, node) ∈ store.entries place ↔ (place ++ [name], node) ∈ store.nodes := by
  simp only [entries, List.mem_filterMap, Prod.exists]
  constructor
  · rintro ⟨key, held, member, shown⟩
    split at shown
    · rename_i onward
      simp only [Option.some.injEq, Prod.mk.injEq] at shown
      obtain ⟨rfl, rfl⟩ := shown
      exact onward?_eq_some_iff.mp onward ▸ member
    · simp at shown
  · intro member
    exact ⟨_, _, member, by simp [onward?_eq_some_iff.mpr rfl]⟩

theorem node?_root (store : Store) : store.node? [] = some .directory := rfl

theorem lookup_insert (place probe : Place) (node : Node) (nodes : List (Place × Node)) :
    lookup probe (insert place node nodes) =
      if place = probe then some node else lookup probe nodes := by
  induction nodes with
  | nil => rfl
  | cons entry rest ih =>
    obtain ⟨key, held⟩ := entry
    by_cases here : key = place
    · subst here
      by_cases same : key = probe <;> simp [insert, lookup, same]
    · by_cases hit : key = probe
      · subst hit
        simp [insert, lookup, here, Ne.symm here]
      · simp [insert, lookup, here, hit, ih]

/-- Putting a node changes what lies at its place and nothing else. -/
theorem node?_put (store : Store) {place : Place} (below : place ≠ []) (node : Node)
    (probe : Place) :
    (store.put place node).node? probe = if place = probe then some node else store.node? probe := by
  by_cases top : probe = []
  · subst top
    simp [node?, below]
  · simp only [node?, top, ↓reduceIte, put]
    exact lookup_insert place probe node store.nodes

end Store
end SourceIndex
