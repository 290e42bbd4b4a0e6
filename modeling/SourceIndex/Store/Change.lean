import SourceIndex.Sink
import SourceIndex.Store.Resolve

/-! Changes to a file system: making directories, opening a file for writing, putting
bytes into it, removing it. A change that fails part of the way leaves what it had
done, so every operation answers with the store it leaves. -/
namespace SourceIndex.Store

/-- Make one directory. -/
def makeDirectory (store : Store) (path : Path) : Store × Except Refusal Unit :=
  match store.resolve .inspect path with
  | .ok (.vacant place) => (store.put place .directory, .ok ())
  | .ok (.present _) => (store, .error .alreadyExists)
  | .error refusal => (store, .error refusal)

/-- Make the first of these directories, where each lies in the next one; those that
are missing above it are made before it. A directory that is there is left alone. -/
def makeAll (store : Store) : List Path → Store × Except Refusal Unit
  | [] => (store, .ok ())
  | path :: above =>
    let settled (store : Store) : Store × Except Refusal Unit :=
      if store.isDirectory path then (store, .ok ()) else (store, .error .alreadyExists)
    match store.makeDirectory path with
    | (store, .ok ()) => (store, .ok ())
    | (store, .error .alreadyExists) => settled store
    | (store, .error .notFound) =>
      match above with
      | [] => (store, .error .notFound)
      | _ =>
        match makeAll store above with
        | (store, .error refusal) => (store, .error refusal)
        | (store, .ok ()) =>
          match store.makeDirectory path with
          | (store, .error .alreadyExists) => settled store
          | answer => answer
    | (store, .error refusal) => (store, .error refusal)

/-- Make a directory with all directories it lies in. -/
def makeDirectories (store : Store) (path : Path) : Store × Except Refusal Unit :=
  store.makeAll path.ancestors

/-- Open a file for writing: make it if it is missing, empty it if it is there. -/
def openForWriting (store : Store) (path : Path) : Store × Except Refusal Place :=
  match store.resolve .create path with
  | .ok (.vacant place) => (store.put place (.file []), .ok place)
  | .ok (.present place) =>
    match store.node? place with
    | some .directory => (store, .error .isDirectory)
    | some (.file _) => (store.put place (.file []), .ok place)
    | some (.device _) => (store, .ok place)
    | some (.link _) => (store, .error .tooManyLinks)
    | none => (store, .error .notFound)
  | .error refusal => (store, .error refusal)

/-- The sink of an open file: only a device can refuse bytes. -/
def sinkAt (store : Store) (place : Place) : Sink Refusal :=
  match store.node? place with
  | some (.device device) =>
    match device.writeFailure with
    | some refusal => ⟨some 0, refusal, none, []⟩
    | none => Sink.unlimited .noSpace
  | _ => Sink.unlimited .noSpace

/-- Keep what was written to an open file. -/
def keep (store : Store) (place : Place) (written : Bytes) : Store :=
  match store.node? place with
  | some (.file _) => store.put place (.file written)
  | _ => store

/-- Remove what a path names; a link is removed itself. -/
def remove (store : Store) (path : Path) : Store × Except Refusal Unit :=
  match store.locate .inspect path with
  | .ok place => (store.erase place, .ok ())
  | .error refusal => (store, .error refusal)

/-- The directory that these names lead to from `place`, made as far as it is missing.
Links are followed; the length of the whole way is not limited. -/
def grow (store : Store) (place : Place) : List Name → Store × Place
  | [] => (store, place)
  | name :: names =>
    match store.followWithin .follow maxLinks place [.name name] with
    | .ok (.present inner) => grow store inner names
    | .ok (.vacant inner) => grow (store.put inner .directory) inner names
    | .error _ => grow store (place ++ [name]) names

/-- Plant a node below the working directory, with the directories on the way. -/
def plant (store : Store) (path : Path) (node : Node) : Store :=
  let names := path.components.filterMap Component.name?
  match names.getLast? with
  | none => store
  | some name =>
    let (store, place) := store.grow store.working names.dropLast
    match node with
    | .directory => (store.grow place [name]).1
    | .file content =>
      match store.followWithin .create maxLinks place [.name name] with
      | .ok (.present inner) | .ok (.vacant inner) => store.put inner (.file content)
      | .error _ => store
    | other => store.put (place ++ [name]) other

/-- A machine with the usual devices and an empty working directory. -/
def fresh (working : Place) : Store :=
  let name (text : String) : Name := Utf8.encode text.toList
  let above := (List.range working.length).map fun n => (working.take (n + 1), Node.directory)
  ⟨above ++ [([name "dev"], .directory), ([name "dev", name "null"], .device .null),
      ([name "dev", name "full"], .device .full), ([name "proc"], .directory),
      ([name "proc", name "self"], .directory),
      ([name "proc", name "self", name "mem"], .device .unreadable)],
    working⟩

end SourceIndex.Store
