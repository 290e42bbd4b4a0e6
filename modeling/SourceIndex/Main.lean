import SourceIndex.Run

/-! The program on a real machine. A run is a function of the file system, so this layer
only carries bytes: the names of the files to be considered come in on the standard
input, each ended by a NUL (a name that ends in a slash is an empty directory), their
contents are read from disk, and what the run changed is written back. -/
namespace SourceIndex.Command

/-- Everything a stream still gives. -/
partial def readAll (stream : IO.FS.Stream) (sofar : ByteArray) : IO ByteArray := do
  let block ← stream.read 65536
  if block.isEmpty then return sofar else readAll stream (sofar ++ block)

/-- Names that are each ended by a NUL. -/
def namesOf : Bytes → List Bytes
  | [] => []
  | byte :: rest =>
    if byte = 0 then [] :: namesOf rest
    else match namesOf rest with
      | [] => [[byte]]
      | name :: names => (byte :: name) :: names

def toArray (bytes : Bytes) : ByteArray := ⟨bytes.toArray⟩

def ofPlace (place : Place) : Bytes := place.flatMap (Path.slash :: ·)

/-- The node a name stands for on disk. -/
def load (name : Bytes) : IO Node := do
  if name.getLast? = some Path.slash then return .directory
  match String.fromUTF8? (toArray name) with
  | none => return .device .unreadable
  | some text =>
    try return .file (← IO.FS.readBinFile text).toList
    catch _ => return .device .unreadable

/-- A name from the list, as a path below the root directory. -/
def loadInto (store : Store) (name : Bytes) : IO Store := do
  let node ← load name
  let path : Path := ⟨name⟩
  if path.isAbsolute then
    return { ({ store with working := [] } : Store).plant path node with working := store.working }
  else return store.plant path node

/-- Write back what differs. -/
def save (before after : Store) : IO Unit := do
  for (place, node) in after.nodes do
    if before.node? place ≠ some node then
      match node, String.fromUTF8? (toArray (ofPlace place)) with
      | .directory, some text => IO.FS.createDirAll text
      | .file content, some text => IO.FS.writeBinFile text (toArray content)
      | _, _ => pure ()

/-- The file system a run works on; a command line that is no run needs none. -/
def machine (arguments : List Bytes) : IO Store := do
  let working := ((← IO.getEnv "PWD").getD "/").toUTF8.toList
  let place := (Path.mk working).components.filterMap Component.name?
  let store := Store.fresh place
  match CommandLine.parse arguments with
  | .error _ => return store
  | .ok _ =>
    let input ← readAll (← IO.getStdin) .empty
    (namesOf input.toList).foldlM loadInto store

end SourceIndex.Command

open SourceIndex Command in
/-- A standard output that takes nothing makes the run that of a sink without room. -/
def main (words : List String) : IO UInt32 := do
  let arguments := words.map fun word => word.toUTF8.toList
  let filter := (← IO.getEnv "RUST_LOG").map fun text => text.toUTF8.toList
  let before ← machine arguments
  let wanted := program before arguments filter (Sink.unlimited .noSpace)
  save before wanted.store
  let exit ← try
      let stdout ← IO.getStdout
      stdout.write (toArray wanted.stdout)
      stdout.flush
      pure wanted
    catch _ => pure (program before arguments filter ⟨some 0, .noSpace, none, []⟩)
  (← IO.getStderr).write (toArray exit.stderr)
  return UInt32.ofNat exit.code
