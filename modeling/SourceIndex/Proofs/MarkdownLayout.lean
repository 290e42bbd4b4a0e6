import SourceIndex.Proofs.DocumentLines
import SourceIndex.Proofs.IndexWriting
import SourceIndex.Proofs.ListingOrder
import SourceIndex.Proofs.SnippetLines

/-! The layout of a markdown index. Nothing in it is escaped, so its structure is told by
position only: four lines at its head and then a section for each record (`lines_markdown`).
As long as no name holds a line end each section has four lines, because a snippet never
has more than one, and reading by position gives back every record (`markdown_read_back`). -/
namespace SourceIndex

namespace Document

/-- The line that opens the section of a record. -/
def headingText (record : Record) : Text := "## ".toList ++ record.path

/-- The lines before the first section. -/
def headerLines : List Bytes := [Utf8.encode title, [], Utf8.encode description, []]

/-- The lines of a section. -/
def sectionLines (record : Record) : List Bytes :=
  lines (Utf8.encode (headingText record)) ++ [] :: lines (Utf8.encode record.snippet) ++ [[]]

private theorem spell_append (first second : List Piece) :
    spell (first ++ second) = spell first ++ spell second :=
  List.flatMap_append ..

private theorem lines_paragraph (text : Text) (rest : Bytes) :
    lines (spell (paragraph text) ++ rest) = lines (Utf8.encode text) ++ [] :: lines rest := by
  have row : spell (paragraph text) ++ rest =
      Utf8.encode text ++ Head.newline :: ([] ++ Head.newline :: rest) := by
    have ends : Utf8.encode ['\n', '\n'] = [Head.newline, Head.newline] := by decide
    simp [spell, paragraph, Piece.plain, ends]
  rw [row, lines_append_newline, lines_append_newline]
  rfl

private theorem lines_sections (records : List Record) :
    lines (spell (records.flatMap markdownRecord)) = records.flatMap sectionLines ++ [[]] := by
  induction records with
  | nil => rfl
  | cons record records ih =>
    have opening : spell (.plain "## ".toList :: paragraph record.path) =
        spell (paragraph (headingText record)) := by
      have heading : Utf8.encode (headingText record) =
          Utf8.encode "## ".toList ++ Utf8.encode record.path := Utf8.encode_append ..
      simp only [spell, paragraph, Piece.plain, List.flatMap_cons, List.flatMap_nil, heading,
        List.append_assoc]
    rw [List.flatMap_cons, spell_append, markdownRecord, spell_append, opening, List.append_assoc,
      lines_paragraph, lines_paragraph, ih]
    simp [sectionLines]

/-- Where the lines of a markdown document come from. -/
theorem lines_markdown (records : List Record) :
    lines (bytes .markdown records) = headerLines ++ records.flatMap sectionLines ++ [[]] := by
  have titled : lines (Utf8.encode title) = [Utf8.encode title] := lines_encode (by decide)
  have described : lines (Utf8.encode description) = [Utf8.encode description] :=
    lines_encode (by decide)
  have whole : bytes .markdown records = spell (paragraph title) ++
      (spell (paragraph description) ++ spell (records.flatMap markdownRecord)) := by
    rw [← spell_append, ← spell_append, ← List.append_assoc]
    rfl
  rw [whole, lines_paragraph, lines_paragraph, lines_sections, titled, described]
  simp [headerLines]

/-- The four lines of a section in which nothing holds a line end. -/
def plainSection (record : Record) : List Bytes :=
  [Utf8.encode (headingText record), [], Utf8.encode record.snippet, []]

theorem sectionLines_plain {record : Record} (path : '\n' ∉ record.path)
    (snippet : '\n' ∉ record.snippet) : sectionLines record = plainSection record := by
  have heading : '\n' ∉ headingText record := by
    simp [headingText, path]
  rw [sectionLines, lines_encode heading, lines_encode snippet]
  rfl

/-- The records of some sections, read by position only. -/
def readSections : List Bytes → Option (List Record)
  | heading :: _ :: snippet :: _ :: rest => do
    let path ← Utf8.text? (heading.drop 3)
    let snippet ← Utf8.text? snippet
    let others ← readSections rest
    return ⟨path, snippet⟩ :: others
  | _ => some []

/-- The records of a markdown document, read by position only. -/
def readMarkdown (document : Bytes) : Option (List Record) := readSections ((lines document).drop 4)

theorem readSections_plain (records : List Record) :
    readSections (records.flatMap plainSection ++ [[]]) = some records := by
  induction records with
  | nil => rfl
  | cons record records ih =>
    have heading : (Utf8.encode (headingText record)).drop 3 = Utf8.encode record.path := by
      rw [headingText, Utf8.encode_append]
      rfl
    have path := Utf8.text?_eq_some_iff.mpr (Eq.refl (Utf8.encode record.path))
    have snippet := Utf8.text?_eq_some_iff.mpr (Eq.refl (Utf8.encode record.snippet))
    simp [plainSection, readSections, heading, path, snippet, ih]

end Document

/-- A path has no names below itself. -/
theorem Path.relativeName_self (path : Path) : path.relativeName path = [] := by
  have inside : path.components.isPrefixOf path.components = true :=
    List.isPrefixOf_iff_prefix.mpr (List.prefix_refl _)
  rw [relativeName, below, if_pos inside, List.drop_length]
  rfl

namespace Discovery

variable {store : Store} {root : Path}

/-- A heading holds a line end only if one of the names does. -/
theorem newline_not_mem_heading (sound : store.Sound) (free : FreeBelow Head.newline store root)
    {file : SourceFile} (member : file ∈ files store root) : '\n' ∉ file.heading := by
  cases found : store.locate .follow root with
  | error refusal =>
    rw [files, visits, found] at member
    cases member
  | ok place =>
    by_cases directory : store.isDirectoryAt place = true
    · obtain ⟨names, stands, rfl, _⟩ := names_of_file sound found directory member
      intro inside
      rcases Text.mem_join inside with slash | ⟨text, row, held⟩
      · revert slash
        decide
      · obtain ⟨name, there, rfl⟩ := List.mem_map.mp row
        rcases Text.Escaped.mem_encode held with part | escape
        · exact free_of_open sound free found stands name there (part.subset (by decide))
        · revert escape
          decide
    · rw [files, visits, found] at member
      simp only [directory, Bool.false_eq_true, ↓reduceIte] at member
      obtain ⟨visit, only, kept⟩ := List.mem_filterMap.mp member
      cases List.mem_singleton.mp only
      rw [file?] at kept
      split at kept
      · cases kept
        simp [SourceFile.ofLocation, Path.relativeName_self]
      · cases kept

end Discovery

namespace Index

theorem mem_records {store : Store} {files : List SourceFile} {record : Record} :
    record ∈ records store files ↔
      ∃ file ∈ files, ⟨file.heading, headerSnippet store file.location⟩ = record := by
  rw [(records_perm store files).mem_iff, List.mem_map]

/-- The markdown layout is positional and loses nothing. Where no name holds a line end, the
document that a successful run has written is its four header lines and four lines for each
record, whatever the files hold, and reading it by these positions gives the records back. -/
theorem markdown_read_back {store after : Store} {root output : Path} {count : Nat}
    (sound : store.Sound) (free : Discovery.FreeBelow Head.newline store root)
    (ran : scanAndWrite store root output .markdown = (after, .ok count)) :
    ∃ opened target document, Opens store output opened target ∧
      document = (rendered opened target .markdown
        (records store (filesFor store root output))).1.sink.written ∧
      after = opened.keep target document ∧
      (∀ content, after.node? target = some (.file content) → after.read output = .ok document) ∧
      Document.lines document = Document.headerLines ++
        (records store (filesFor store root output)).flatMap Document.plainSection ++ [[]] ∧
      Document.readMarkdown document = some (records store (filesFor store root output)) ∧
      (records store (filesFor store root output)).length = count := by
  obtain ⟨wrote, rfl⟩ := scanAndWrite_ok ran
  obtain ⟨opened, target, opens, left, whole, filled⟩ := filled_of_write wrote
  have written := rendered_whole whole
  have plain : ∀ record ∈ records store (filesFor store root output),
      Document.sectionLines record = Document.plainSection record := by
    intro record member
    obtain ⟨file, kept, rfl⟩ := mem_records.mp member
    refine Document.sectionLines_plain ?_ (headerSnippet_oneLine store file.location).1
    exact Discovery.newline_not_mem_heading sound free (mem_filesFor.mp kept).1
  have layout : Document.lines (Document.bytes .markdown (records store (filesFor store root output))) =
      Document.headerLines ++
        (records store (filesFor store root output)).flatMap Document.plainSection ++ [[]] := by
    rw [Document.lines_markdown, List.flatMap_congr plain]
  refine ⟨opened, target, _, opens, rfl, left, ?_, ?_, ?_, rfl⟩
  · intro content held
    rw [written]
    exact read_of_filled opens filled held
  · rw [written, layout]
  · rw [written, Document.readMarkdown, layout, Document.headerLines, List.append_assoc]
    exact Document.readSections_plain _

/-- A file with every kind of line end, two of them inside a comment, and a stray byte. -/
def mixed : Store where
  working := []
  nodes := [([Utf8.encode "old.php".toList],
    .file [0x3C, 0x3F, 0x0D, 0x0A, 0x2F, 0x2A, 0x0D, 0xFF, 0x0A, 0x2A, 0x2F])]

private theorem mixed_free : Discovery.FreeBelow Head.newline mixed (.ofString ".") := by
  intro place found
  obtain rfl : [] = place := Except.ok.inj found
  decide

theorem markdown_read_back_mixed : ∃ after opened target document,
    scanAndWrite mixed (.ofString ".") (.ofString "index.md") .markdown = (after, .ok 1) ∧
      Opens mixed (.ofString "index.md") opened target ∧ after = opened.keep target document ∧
      Document.readMarkdown document = some [⟨"old.php".toList, "/* \uFFFD */".toList⟩] := by
  have sound : mixed.Sound := by decide
  have counted : (scanAndWrite mixed (.ofString ".") (.ofString "index.md") .markdown).2 = .ok 1 := by
    decide +kernel
  have known : records mixed (filesFor mixed (.ofString ".") (.ofString "index.md")) =
      [⟨"old.php".toList, "/* \uFFFD */".toList⟩] := by decide +kernel
  rcases wrote : scanAndWrite mixed (.ofString ".") (.ofString "index.md") .markdown
    with ⟨after, answer⟩
  rw [wrote] at counted
  cases counted
  obtain ⟨opened, target, document, opens, _, left, _, _, back, _⟩ :=
    markdown_read_back sound mixed_free wrote
  exact ⟨after, opened, target, document, rfl, opens, left, back.trans (congrArg some known)⟩

end Index
end SourceIndex
