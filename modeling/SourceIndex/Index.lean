import SourceIndex.Discovery
import SourceIndex.Document
import SourceIndex.Snippet
import SourceIndex.Store.Change

/-! The index of a directory: one record for each discovered file, in ascending order
of paths, and its way into a file. Nothing about a source file can make indexing fail,
it only costs that file its snippet; writing the index fails with a cause. -/
namespace SourceIndex.Index

/-- The snippet of a file, or why there is none. -/
def snippetOf (store : Store) (path : Path) : Except Refusal Text :=
  match store.read path with
  | .ok content => Snippet.ofInput (Input.ofBytes content)
  | .error refusal => .error refusal

/-- The snippet a record gets. -/
def headerSnippet (store : Store) (path : Path) : Text :=
  match snippetOf store path with
  | .ok snippet => snippet
  | .error _ => []

/-- What reading a snippet reports. -/
def snippetEvents (store : Store) (path : Path) : List Event :=
  match snippetOf store path with
  | .ok _ => []
  | .error refusal => [.noSnippet path refusal]

/-- The records of some files, sorted. -/
def records (store : Store) (files : List SourceFile) : List Record :=
  Record.sort (files.map fun file => Record.ofFile file (headerSnippet store file.location))

/-- What indexing some files reports. -/
def recordEvents (store : Store) (root : Path) (files : List SourceFile) : List Event :=
  files.flatMap (fun file => snippetEvents store file.location) ++ [.indexed files.length root]

/-- The index of everything below a root. -/
def ofRoot (store : Store) (root : Path) : List Record :=
  records store (Discovery.files store root)

def rootEvents (store : Store) (root : Path) : List Event :=
  Discovery.events store root ++ recordEvents store root (Discovery.files store root)

/-- Why an index could not be written to a file. -/
inductive WriteError where
  | directory (path : Path) (refusal : Refusal)
  | file (path : Path) (refusal : Refusal)
  | document (path : Path) (failure : Document.Failure Refusal)
  deriving DecidableEq, Repr

/-- The messages for a refused document, outermost first. -/
def failureChain (cause : ε → Text) (failure : Document.Failure ε) : List Text :=
  match failure.record with
  | some path => ["serializing record ".toList ++ path, cause failure.cause]
  | none => [cause failure.cause]

def refusalText (refusal : Refusal) : Text := refusal.message.toList

/-- The messages from what was being done down to the cause. -/
def WriteError.chain : WriteError → List Text
  | .directory path refusal => ["creating ".toList ++ path.display, refusalText refusal]
  | .file path refusal => ["creating index file ".toList ++ path.display, refusalText refusal]
  | .document path failure =>
    ("writing index file ".toList ++ path.display) :: failureChain refusalText failure

/-- The bytes that are held back in front of an index file. -/
def bufferSize : Nat := 8192

/-- Make the directory a file will lie in. -/
def makeParent (store : Store) (path : Path) : Store × Except WriteError Unit :=
  match path.parent? with
  | none => (store, .ok ())
  | some parent =>
    if parent.bytes = [] then (store, .ok ())
    else match store.makeDirectories parent with
      | (store, .ok ()) => (store, .ok ())
      | (store, .error refusal) => (store, .error (.directory parent refusal))

/-- Write an index to a file, over whatever it held. -/
def write (store : Store) (format : Format) (records : List Record) (path : Path) :
    Store × Except WriteError Unit :=
  match makeParent store path with
  | (store, .error error) => (store, .error error)
  | (store, .ok ()) =>
    match store.openForWriting path with
    | (store, .error refusal) => (store, .error (.file path refusal))
    | (store, .ok place) =>
      let (writer, failure) :=
        Document.render format records (Writer.over (.block bufferSize) (store.sinkAt place))
      let store := store.keep place writer.sink.written
      match failure with
      | none => (store, .ok ())
      | some failure => (store, .error (.document path failure))

/-- The files of an index that is written to `output`: an earlier index there is no source. -/
def filesFor (store : Store) (root output : Path) : List SourceFile :=
  (Discovery.files store root).filter fun file => ¬ file.location.Same output

/-- Index a root into a file; the number of records on success. -/
def scanAndWrite (store : Store) (root output : Path) (format : Format) :
    Store × Except WriteError Nat :=
  let records := records store (filesFor store root output)
  match write store format records output with
  | (store, .ok ()) => (store, .ok records.length)
  | (store, .error error) => (store, .error error)

def scanEvents (store : Store) (root output : Path) : List Event :=
  Discovery.events store root ++ recordEvents store root (filesFor store root output)

end SourceIndex.Index
