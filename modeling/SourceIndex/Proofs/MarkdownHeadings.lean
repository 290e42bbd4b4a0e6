import SourceIndex.Proofs.MarkdownLayout

/-! Which lines of a markdown index look like headings. Every section opens with one, but paths
and snippets stand in the document as they are, so a path that holds a line end breaks its
heading, and a snippet may begin just like a heading. `headings_exact_iff` says that these
are the only ways in which a reader who goes by the marks gets other headings than paths. -/
namespace SourceIndex

/-- Encoded text begins with encoded text just when the text does. -/
theorem Utf8.encode_prefix_iff {first text : Text} : encode first <+: encode text ↔ first <+: text := by
  constructor
  · rintro ⟨rest, whole⟩
    have pieces := congrArg decode whole
    rw [decode_encode_append, decode_encode] at pieces
    obtain ⟨same, others, rfl, front, _⟩ := List.map_eq_append_iff.mp pieces.symm
    rw [(List.map_inj_right fun _ _ => Piece.scalar.inj).mp front]
    exact List.prefix_append _ _
  · rintro ⟨rest, rfl⟩
    exact ⟨encode rest, (encode_append first rest).symm⟩

namespace Document

/-- Whether a line looks like a heading. -/
def isHeading (line : Bytes) : Bool := (Utf8.encode "## ".toList).isPrefixOf line

/-- The lines of a document that look like headings. -/
def headings (document : Bytes) : List Bytes := (lines document).filter isHeading

theorem isHeading_encode {text : Text} :
    isHeading (Utf8.encode text) = true ↔ "## ".toList <+: text := by
  rw [isHeading, List.isPrefixOf_iff_prefix, Utf8.encode_prefix_iff]

/-- What looks like a heading in the section of a record. -/
def sectionHeadings (record : Record) : List Bytes :=
  headings (Utf8.encode (headingText record)) ++ headings (Utf8.encode record.snippet)

theorem headings_markdown (records : List Record) :
    headings (bytes .markdown records) = records.flatMap sectionHeadings := by
  have blank : isHeading [] = false := by decide
  have sections : records.flatMap (fun record => (sectionLines record).filter isHeading) =
      records.flatMap sectionHeadings := by
    apply List.flatMap_congr
    intro record _
    simp [sectionLines, sectionHeadings, headings, blank]
  have header : headerLines.filter isHeading = [] := by decide
  rw [headings, lines_markdown, List.filter_append, List.filter_append, List.filter_flatMap, header,
    sections]
  simp [blank]

/-- A document with a line end is its first line and the rest. -/
private theorem lines_cut {document : Bytes} (broken : Head.newline ∈ document) :
    ∃ first rest, document = first ++ Head.newline :: rest ∧ Head.newline ∉ first ∧
      lines document = first :: lines rest := by
  obtain ⟨first, rest, whole, fresh⟩ := List.eq_append_cons_of_mem broken
  refine ⟨first, rest, whole, fresh, ?_⟩
  have single : lines first = [first] := List.splitOn_eq_singleton fresh
  rw [whole, lines_append_newline, single]
  rfl

/-- Text that begins like a heading has a heading for its first line; that is the whole text and
the only heading just when the text is one line. -/
theorem headings_marked {text : Text} (marked : "## ".toList <+: text) :
    headings (Utf8.encode text) ≠ [] ∧
      (headings (Utf8.encode text) = [Utf8.encode text] ↔ '\n' ∉ text) := by
  by_cases broken : '\n' ∈ text
  · obtain ⟨first, rest, whole, fresh, cut⟩ := lines_cut (newline_mem_encode.mpr broken)
    have front : Utf8.encode "## ".toList <+: first := by
      have unbroken : Head.newline ∉ Utf8.encode "## ".toList := by decide
      have end_mem : Head.newline ∈ first ++ [Head.newline] := by simp
      have begins := Utf8.encode_prefix_iff.mpr marked
      rw [whole, List.append_cons] at begins
      have line := List.prefix_append (first ++ [Head.newline]) rest
      -- The mark has no line end in it, so it is shorter than the first line with its end.
      rcases List.prefix_or_prefix_of_prefix begins line with inside | beyond
      · rcases List.prefix_concat_iff.mp inside with same | inside
        · rw [← same] at end_mem
          exact absurd end_mem unbroken
        · exact inside
      · exact absurd (beyond.subset end_mem) unbroken
    have kept : isHeading first = true := List.isPrefixOf_iff_prefix.mpr front
    have found : headings (Utf8.encode text) = first :: (lines rest).filter isHeading := by
      rw [headings, cut, List.filter_cons_of_pos kept]
    rw [found]
    refine ⟨List.cons_ne_nil _ _, fun same => ?_, fun single => absurd broken single⟩
    have equal := (List.cons.inj same).1
    rw [equal] at fresh
    exact absurd (newline_mem_encode.mpr broken) fresh
  · have alone : headings (Utf8.encode text) = [Utf8.encode text] := by
      rw [headings, lines_encode broken, List.filter_singleton, isHeading_encode.mpr marked]
      rfl
    rw [alone]
    simp [broken]

theorem headings_unmarked {text : Text} (single : '\n' ∉ text) (unmarked : ¬ "## ".toList <+: text) :
    headings (Utf8.encode text) = [] := by
  have plain := eq_false_of_ne_true (mt isHeading_encode.mp unmarked)
  rw [headings, lines_encode single, List.filter_singleton, plain]
  rfl

/-- A section has its heading for its only heading just when nothing in it breaks that. -/
theorem sectionHeadings_iff {record : Record} (single : '\n' ∉ record.snippet) :
    sectionHeadings record = [Utf8.encode (headingText record)] ↔
      '\n' ∉ record.path ∧ ¬ "## ".toList <+: record.snippet := by
  have path : '\n' ∉ headingText record ↔ '\n' ∉ record.path := by
    simp [headingText]
  obtain ⟨some, alone⟩ := headings_marked (List.prefix_append "## ".toList record.path)
  rw [← headingText] at some alone
  rw [sectionHeadings, ← path, ← alone]
  by_cases marked : "## ".toList <+: record.snippet
  · have more := (headings_marked marked).1
    simp only [marked, not_true_eq_false, and_false, iff_false]
    intro same
    rcases List.append_eq_singleton_iff.mp same with ⟨none, _⟩ | ⟨_, none⟩
    · exact some none
    · exact more none
  · rw [headings_unmarked single marked, List.append_nil]
    exact (and_iff_left marked).symm

end Document

private theorem length_le_flatMap {parts : α → List β} {row : List α}
    (some : ∀ entry ∈ row, parts entry ≠ []) : row.length ≤ (row.flatMap parts).length := by
  induction row with
  | nil => simp
  | cons entry row ih =>
    obtain ⟨first, others⟩ := List.forall_mem_cons.mp some
    have one := List.length_pos_iff.mpr first
    have rest := ih others
    rw [List.flatMap_cons, List.length_append, List.length_cons]
    omega

/-- When nothing is left out, parts in a row are a row of singletons only part by part. -/
private theorem flatMap_eq_map_iff {parts : α → List β} {single : α → β} {row : List α}
    (some : ∀ entry ∈ row, parts entry ≠ []) :
    row.flatMap parts = row.map single ↔ ∀ entry ∈ row, parts entry = [single entry] := by
  induction row with
  | nil => simp
  | cons entry row ih =>
    obtain ⟨first, others⟩ := List.forall_mem_cons.mp some
    rw [List.forall_mem_cons, ← ih others, List.flatMap_cons, List.map_cons]
    constructor
    · intro same
      have total := congrArg List.length same
      have rest := length_le_flatMap others
      rw [List.length_append, List.length_cons, List.length_map] at total
      have one := List.length_pos_iff.mpr first
      obtain ⟨only, alone⟩ := List.length_eq_one_iff.mp (show (parts entry).length = 1 by omega)
      rw [alone] at same ⊢
      obtain ⟨rfl, tail⟩ := List.cons.inj same
      exact ⟨rfl, tail⟩
    · rintro ⟨alone, tail⟩
      rw [alone, tail]
      rfl

namespace Index

/-- The headings of an index are the paths of its records, in order, exactly when no path holds
a line end and no snippet begins like a heading. -/
theorem headings_exact_iff (refusal : ε) (buffering : Buffering) (store : Store) (root : Path) :
    Document.headings (Document.delivered refusal buffering .markdown (ofRoot store root)) =
        (ofRoot store root).map (fun record => Utf8.encode ("## ".toList ++ record.path)) ↔
      ∀ file ∈ Discovery.files store root,
        '\n' ∉ file.heading ∧ ¬ "## ".toList <+: headerSnippet store file.location := by
  have someHeadings : ∀ record ∈ ofRoot store root, Document.sectionHeadings record ≠ [] := by
    intro record _ none
    have marked := List.prefix_append "## ".toList record.path
    exact (Document.headings_marked marked).1 (List.append_eq_nil_iff.mp none).1
  have each : (ofRoot store root).flatMap Document.sectionHeadings =
      (ofRoot store root).map (fun record => Utf8.encode (Document.headingText record)) ↔
        ∀ record ∈ ofRoot store root,
          Document.sectionHeadings record = [Utf8.encode (Document.headingText record)] :=
    flatMap_eq_map_iff someHeadings
  rw [Document.delivered_eq, Document.headings_markdown]
  refine each.trans ⟨fun all file member => ?_, fun all record member => ?_⟩
  · have held : ⟨file.heading, headerSnippet store file.location⟩ ∈ ofRoot store root :=
      mem_records.mpr ⟨file, member, rfl⟩
    exact (Document.sectionHeadings_iff (headerSnippet_oneLine store _).1).mp (all _ held)
  · obtain ⟨file, there, rfl⟩ := mem_records.mp member
    exact (Document.sectionHeadings_iff (headerSnippet_oneLine store _).1).mpr (all file there)

/-- A file whose comment begins like a heading. -/
def misleading : Store where
  working := []
  nodes := [([Utf8.encode "a.py".toList], .file (Utf8.encode "## b.py".toList))]

/-- A snippet can pass for the heading of another section. -/
theorem misleading_headings : misleading.Sound ∧
    (ofRoot misleading (.ofString ".")).map Record.path = ["a.py".toList] ∧
    Document.headings (Document.delivered Refusal.noSpace .direct .markdown
      (ofRoot misleading (.ofString "."))) =
        [Utf8.encode "## a.py".toList, Utf8.encode "## b.py".toList] ∧
    ¬ ∀ (store : Store) (root : Path), store.Sound →
      Document.headings (Document.delivered Refusal.noSpace .direct .markdown (ofRoot store root)) =
        (ofRoot store root).map (fun record => Utf8.encode ("## ".toList ++ record.path)) := by
  have sound : misleading.Sound := by decide
  have doubled : Document.headings (Document.delivered Refusal.noSpace .direct .markdown
      (ofRoot misleading (.ofString "."))) =
        [Utf8.encode "## a.py".toList, Utf8.encode "## b.py".toList] := by decide +kernel
  refine ⟨sound, by decide +kernel, doubled, fun exact => ?_⟩
  have single := exact misleading (.ofString ".") sound
  rw [doubled] at single
  revert single
  decide +kernel

end Index
end SourceIndex
