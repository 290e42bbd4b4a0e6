import SourceIndex.RecordText
import SourceIndex.Sink

/-! The index as a document. Markdown has a title, a description and a section for
each record; the line format has one JSON object for each record. A document is a
list of pieces, and writing it stops at the first piece that is refused; a refusal
inside an object names the record whose object it was. -/
namespace SourceIndex

/-- The shape of a written index. -/
inductive Format where
  | markdown
  | jsonl
  deriving DecidableEq, Repr, Inhabited

namespace Format

def name : Format → String
  | .markdown => "markdown"
  | .jsonl => "jsonl"

def all : List Format := [.markdown, .jsonl]

/-- The format of that name; the case of ASCII letters may be ignored. -/
def ofName? (ignoreCase : Bool) (name : Text) : Option Format :=
  let fold (text : Text) : Text := if ignoreCase then text.map Char.toLower else text
  all.find? fun format => fold format.name.toList == fold name

end Format

namespace Document

def title : Text := "# CODE_INDEX".toList

def description : Text :=
  ("Generated index of code files with header snippets. " ++
    "Use this to give AI quick context.").toList

/-- The name of the index file where no other is given. -/
def defaultName : String := "CODE_INDEX.md"

/-- A part of a document; parts of an object carry the path of its record. -/
structure Piece where
  text : Text
  record : Option Text
  deriving DecidableEq, Repr

def Piece.plain (text : Text) : Piece := ⟨text, none⟩

/-- A line and the empty line after it. -/
def paragraph (text : Text) : List Piece := [.plain text, .plain ['\n', '\n']]

def markdownRecord (record : Record) : List Piece :=
  .plain "## ".toList :: paragraph record.path ++ paragraph record.snippet

def markdown (records : List Record) : List Piece :=
  paragraph title ++ paragraph description ++ records.flatMap markdownRecord

def jsonlRecord (record : Record) : List Piece :=
  record.textPieces.map (⟨·, some record.path⟩) ++ [.plain ['\n']]

def jsonl (records : List Record) : List Piece := records.flatMap jsonlRecord

def pieces : Format → List Record → List Piece
  | .markdown => markdown
  | .jsonl => jsonl

/-- The whole document. -/
def bytes (format : Format) (records : List Record) : Bytes :=
  (pieces format records).flatMap fun piece => Utf8.encode piece.text

/-- Why a document could not be written, and inside which record's object. -/
structure Failure (ε : Type) where
  record : Option Text
  cause : ε
  deriving DecidableEq, Repr

/-- Write pieces in order until one is refused. -/
def write (writer : Writer ε) : List Piece → Writer ε × Option (Failure ε)
  | [] => (writer, none)
  | piece :: rest =>
    match writer.put (Utf8.encode piece.text) with
    | (writer, none) => write writer rest
    | (writer, some cause) => (writer, some ⟨piece.record, cause⟩)

/-- Write a whole document and flush it. -/
def render (format : Format) (records : List Record) (writer : Writer ε) :
    Writer ε × Option (Failure ε) :=
  match write writer (pieces format records) with
  | (writer, some failure) => (writer, some failure)
  | (writer, none) =>
    let (writer, failure) := writer.flush
    (writer, failure.map (⟨none, ·⟩))

end Document
end SourceIndex
