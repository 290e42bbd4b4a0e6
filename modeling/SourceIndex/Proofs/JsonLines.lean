import SourceIndex.Proofs.QuotedStrings
import SourceIndex.Proofs.RecordMembers
import SourceIndex.Proofs.WriterContents

/-! Records survive being written as JSON lines. What is written for a record is an object that
spells its two fields (`objectSpelled_toText`), so it reads back as the record (`ofText_toText`).
Since no line end stands inside an object, the lines of a document are the objects of its
records. -/
namespace SourceIndex

open Json

namespace Record

/-- A string as it is written, in front of what follows it. -/
def quoted (text : Text) (rest : Bytes) : Bytes :=
  0x22 :: (Utf8.encode (text.flatMap Json.Quoted.encodeChar) ++ 0x22 :: rest)

theorem encode_toText (record : Record) : Utf8.encode record.toText =
    0x7B :: quoted "path".toList (0x3A :: quoted record.path
      (0x2C :: quoted "snippet".toList (0x3A :: quoted record.snippet [0x7D]))) := by
  have text : ∀ (value : Text) (rest : Text), Utf8.encode (Json.Quoted.encode value ++ rest) =
      quoted value (Utf8.encode rest) := by
    intro value rest
    simp [Json.Quoted.encode, quoted, Utf8.encode, Utf8.encodeChar]
  have sign : ∀ (char : Char) (rest : Text), Utf8.encode (char :: rest) =
      Utf8.encodeChar char ++ Utf8.encode rest := by
    intro char rest
    simp [Utf8.encode]
  simp only [toText, textPieces, List.flatten_cons, List.flatten_nil, List.append_nil,
    List.cons_append, List.nil_append, sign, text]
  rfl

theorem stringSpelled_quoted (text : Text) : StringSpelled text (quoted text []) :=
  .quoted (textSpelled_encode text)

/-- The members that are written for a record. -/
def written (record : Record) : List Member :=
  [⟨"path".toList, quoted record.path []⟩, ⟨"snippet".toList, quoted record.snippet []⟩]

theorem objectSpelled_toText (record : Record) : ObjectSpelled record.written (Utf8.encode record.toText) := by
  have bare : Blanks [] := List.forall_mem_nil _
  have value : ∀ text : Text, Written .value (quoted text []) :=
    fun text => .scalar (.string (textSpelled_encode text).literal)
  have object := ObjectSpelled.full bare bare
    (.more (memberSpelled_encode "path".toList (value record.path)) bare bare
      (.last (memberSpelled_encode "snippet".toList (value record.snippet)) bare)) bare
  rw [encode_toText]
  simpa only [written, quoted, List.nil_append, List.append_nil, List.append_assoc, List.cons_append]
    using object

/-- What is written for a record reads back as that record. -/
theorem ofText_toText (record : Record) : ofText (Utf8.encode record.toText) = .ok record := by
  have holds : ∀ name : Field, Holds none (name.values record.written)
      (name.get ⟨some record.path, some record.snippet⟩) := by
    rintro ⟨⟩
    · exact .filled (stringSpelled_quoted record.path)
    · exact .filled (stringSpelled_quoted record.snippet)
  exact ofText_filled (objectSpelled_toText record) holds

end Record

namespace Document

theorem spell_object (record : Record) :
    spell (record.textPieces.map (⟨·, some record.path⟩)) = Utf8.encode record.toText := by
  rw [spell, List.flatMap_map, Record.toText, Utf8.encode, ← List.flatMap_id, List.flatMap_assoc]
  rfl

theorem spell_jsonl_cons (record : Record) (records : List Record) : spell (jsonl (record :: records)) =
    Utf8.encode record.toText ++ Head.newline :: spell (jsonl records) := by
  rw [← spell_object, jsonl, List.flatMap_cons, jsonlRecord, ← jsonl]
  simp [spell, Piece.plain, Utf8.encode, Utf8.encodeChar, Head.newline]

/-- The records, one line each. -/
theorem lines_jsonl (records : List Record) : lines (spell (jsonl records)) =
    records.map (fun record => Utf8.encode record.toText) ++ [[]] := by
  induction records with
  | nil => rfl
  | cons record records ih =>
    have single : '\n' ∉ record.toText := by
      simp [Record.toText, Record.textPieces, Json.Quoted.newline_not_mem_encode]
    rw [spell_jsonl_cons, lines_append_newline, lines_encode single, ih]
    rfl

/-- What a sink without a limit holds when records were written to it as JSON lines. -/
def jsonlBytes (refusal : ε) (records : List Record) : Bytes :=
  (write (Writer.over .direct (Sink.unlimited refusal)) (jsonl records)).1.sink.written

theorem jsonlBytes_eq (refusal : ε) (records : List Record) :
    jsonlBytes refusal records = spell (jsonl records) := by
  obtain ⟨writer, wrote, written⟩ := write_direct refusal (jsonl records)
  rw [jsonlBytes, wrote, written]

private theorem ofText_lines (records : List Record) :
    (records.map fun record => Utf8.encode record.toText).map Record.ofText = records.map .ok := by
  rw [List.map_map]
  exact List.map_congr_left fun record _ => record.ofText_toText

/-- JSON lines lose nothing: every record has a line of its own that reads back as the record,
nothing stands behind the last line end, and different records give different documents. -/
theorem jsonl_read_back (refusal : ε) (records others : List Record) :
    (write (Writer.over .direct (Sink.unlimited refusal)) (jsonl records)).2 = none ∧
      (∃ rows, lines (jsonlBytes refusal records) = rows ++ [[]] ∧ rows.length = records.length ∧
        rows.map Record.ofText = records.map .ok) ∧
      (jsonlBytes refusal records = jsonlBytes refusal others ↔ records = others) := by
  obtain ⟨writer, wrote, _⟩ := write_direct refusal (jsonl records)
  refine ⟨by rw [wrote], ?_, ?_, congrArg _⟩
  · rw [jsonlBytes_eq]
    exact ⟨_, lines_jsonl records, List.length_map .., ofText_lines records⟩
  · intro same
    rw [jsonlBytes_eq, jsonlBytes_eq] at same
    have rows := congrArg lines same
    rw [lines_jsonl, lines_jsonl] at rows
    have read := congrArg (List.map Record.ofText) (List.append_cancel_right rows)
    rw [ofText_lines, ofText_lines] at read
    exact (List.map_inj_right fun _ _ => Except.ok.inj).mp read

end Document
end SourceIndex
