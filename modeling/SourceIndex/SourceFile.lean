import SourceIndex.Path

/-! Source files as discovery reports them: where a file is, and the heading it gets
in the index. Reads go through the location, sorting through the heading. -/
namespace SourceIndex

/-- A file that belongs into the index. -/
structure SourceFile where
  /-- The canonical name relative to the indexed directory. -/
  heading : Text
  location : Path
  deriving DecidableEq, Repr

namespace SourceFile

/-- The extensions of indexed files, in lowercase. -/
def indexedExtensions : List String :=
  ["js", "ts", "py", "java", "jsp", "jsx", "tsx", "go", "rb", "php", "html", "css", "scss"]

/-- The file at `location`, seen from the indexed directory `root`. -/
def ofLocation (root location : Path) : SourceFile := ⟨root.relativeName location, location⟩

/-- The extension of the file's name in lowercase; only ASCII letters have a case here. -/
def extension? (file : SourceFile) : Option Text :=
  (file.location.extension?.bind Utf8.text?).map (·.map Char.toLower)

def isIndexed (file : SourceFile) : Bool :=
  match file.extension? with
  | some extension => (indexedExtensions.map String.toList).contains extension
  | none => false

/-- By heading, then by location; spellings of one location are equal. -/
def compare (first second : SourceFile) : Ordering :=
  (Utf8.compareText first.heading second.heading).then
    (Ord.compare (first.location.components.map Component.key)
      (second.location.components.map Component.key))

/-- Equality of files: the same heading and the same location, however spelled. -/
def Same (first second : SourceFile) : Prop :=
  first.heading = second.heading ∧ first.location.Same second.location

instance (first second : SourceFile) : Decidable (first.Same second) :=
  inferInstanceAs (Decidable (_ ∧ _))

/-- Files in ascending order; the sort is stable. -/
def sort (files : List SourceFile) : List SourceFile :=
  files.mergeSort fun first second => (compare first second).isLE

end SourceFile

/-- One section of an index. -/
structure Record where
  path : Text
  /-- One line; empty when the file offers nothing usable. -/
  snippet : Text
  deriving DecidableEq, Repr, Inhabited

namespace Record

def ofFile (file : SourceFile) (snippet : Text) : Record := ⟨file.heading, snippet⟩

/-- Records in ascending order of their paths; the sort is stable. -/
def sort (records : List Record) : List Record :=
  records.mergeSort fun first second => (Utf8.compareText first.path second.path).isLE

end Record
end SourceIndex
