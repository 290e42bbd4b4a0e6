import SourceIndex.Proofs.JsonLines
import SourceIndex.Index

/-! A sink with room for so many bytes and no more. Whatever the pieces a document comes in, the sink
ends up with the front of it that fits, and what is refused is the piece that holds the first byte
without room (`write_offered`). In the line format that piece tells the record: it is a part of the
object of the record that has this byte, or the line end behind an object. -/
namespace SourceIndex

/-- A sink with this much room in all, after these bytes were offered to it. -/
def Sink.offered (room : Nat) (refusal : ε) (flushFailure : Option ε) (bytes : Bytes) : Sink ε :=
  ⟨some (room - bytes.length), refusal, flushFailure, bytes.take room⟩

section
variable {room : Nat} {refusal : ε} {flushFailure : Option ε} {before : Bytes}

namespace Sink

theorem accept_offered (before bytes : Bytes) : (offered room refusal flushFailure before).accept bytes =
    (offered room refusal flushFailure (before ++ bytes),
      if bytes.length ≤ room - before.length then none else some refusal) := by
  simp [offered, accept, List.take_append, Nat.sub_sub]

theorem offered_nil : offered room refusal flushFailure [] = ⟨some room, refusal, flushFailure, []⟩ := by
  simp [offered]

/-- What is offered when there is no room left changes nothing. -/
theorem offered_append (full : room ≤ before.length) (more : Bytes) :
    offered room refusal flushFailure (before ++ more) = offered room refusal flushFailure before := by
  have whole : room - (before ++ more).length = room - before.length := by
    rw [List.length_append]
    omega
  rw [offered, offered, whole, List.take_append_of_le_length full]

end Sink

theorem Writer.drain_offered (buffering : Buffering) (held passed : Bytes) :
    drain ⟨buffering, held, .offered room refusal flushFailure passed⟩ =
      (⟨buffering, [], .offered room refusal flushFailure (passed ++ held)⟩,
        if held.length ≤ room - passed.length then none else some refusal) := by
  rw [drain, Sink.accept_offered]

namespace Document

/-- The piece that holds the byte at this offset. -/
def pieceAt? : List Piece → (offset : Nat) → Option Piece
  | [], _ => none
  | piece :: rest, offset =>
    let size := (Utf8.encode piece.text).length
    if offset < size then some piece else pieceAt? rest (offset - size)

theorem spell_cons (piece : Piece) (rest : List Piece) :
    spell (piece :: rest) = Utf8.encode piece.text ++ spell rest := rfl

theorem write_offered (fits : before.length ≤ room) (pieces : List Piece) :
    write ⟨.direct, [], .offered room refusal flushFailure before⟩ pieces =
      (⟨.direct, [], .offered room refusal flushFailure (before ++ spell pieces)⟩,
        (pieceAt? pieces (room - before.length)).map fun piece => ⟨piece.record, refusal⟩) := by
  induction pieces generalizing before with
  | nil => simp [write, spell, pieceAt?]
  | cons piece rest ih =>
    rw [write, Writer.put]
    dsimp only
    rw [Sink.accept_offered, spell_cons, ← List.append_assoc, pieceAt?]
    dsimp only
    by_cases taken : (Utf8.encode piece.text).length ≤ room - before.length
    · have within : (before ++ Utf8.encode piece.text).length ≤ room := by
        rw [List.length_append]
        omega
      rw [if_pos taken, if_neg (Nat.not_lt.mpr taken)]
      dsimp only
      rw [ih within, List.length_append, Nat.sub_sub]
    · have full : room ≤ (before ++ Utf8.encode piece.text).length := by
        rw [List.length_append]
        omega
      rw [if_neg taken, if_pos (Nat.lt_of_not_le taken), Sink.offered_append full]
      rfl

/-- Without a buffer a document is refused at the piece that holds the first byte without room,
and if there is none, as the flush is. -/
theorem render_offered (format : Format) (records : List Record) (room : Nat) (refusal : ε)
    (flushFailure : Option ε) :
    render format records (Writer.over .direct ⟨some room, refusal, flushFailure, []⟩) =
      (⟨.direct, [], .offered room refusal flushFailure (bytes format records)⟩,
        match pieceAt? (pieces format records) room with
        | some piece => some ⟨piece.record, refusal⟩
        | none => flushFailure.map (⟨none, ·⟩)) := by
  rw [← Sink.offered_nil, Writer.over, render, write_offered (Nat.zero_le room), List.nil_append,
    List.length_nil, Nat.sub_zero]
  cases pieceAt? (pieces format records) room with
  | some piece => rfl
  | none =>
    dsimp only [Option.map_none]
    rw [Writer.flush, Writer.drain_offered, List.append_nil]
    rfl

/-! ### The record of a byte -/

theorem pieceAt?_eq_none_iff {row : List Piece} {offset : Nat} :
    pieceAt? row offset = none ↔ (spell row).length ≤ offset := by
  induction row generalizing offset with
  | nil => simp [pieceAt?, spell]
  | cons piece rest ih =>
    rw [pieceAt?, spell_cons, List.length_append]
    split
    · simp
      omega
    · rw [ih]
      omega

theorem lt_of_pieceAt? {row : List Piece} {offset : Nat} {piece : Piece}
    (found : pieceAt? row offset = some piece) : offset < (spell row).length := by
  refine Nat.lt_of_not_le fun short => ?_
  rw [pieceAt?_eq_none_iff.mpr short] at found
  cases found

theorem pieceAt?_append (first second : List Piece) (offset : Nat) : pieceAt? (first ++ second) offset =
    if offset < (spell first).length then pieceAt? first offset
    else pieceAt? second (offset - (spell first).length) := by
  induction first generalizing offset with
  | nil => rfl
  | cons piece rest ih =>
    rw [List.cons_append, pieceAt?, pieceAt?, spell_cons, List.length_append]
    by_cases here : offset < (Utf8.encode piece.text).length
    · rw [if_pos here, if_pos here, if_pos (Nat.lt_add_right _ here)]
    · rw [if_neg here, if_neg here, ih, Nat.sub_sub]
      by_cases inside : offset - (Utf8.encode piece.text).length < (spell rest).length
      · rw [if_pos inside, if_pos (by omega)]
      · rw [if_neg inside, if_neg (by omega)]

theorem mem_of_pieceAt? {row : List Piece} {offset : Nat} {piece : Piece}
    (found : pieceAt? row offset = some piece) : piece ∈ row := by
  induction row generalizing offset with
  | nil => cases found
  | cons first rest ih =>
    rw [pieceAt?] at found
    split at found
    · cases found
      exact List.mem_cons_self
    · exact List.mem_cons_of_mem first (ih found)

/-- The record whose object holds the byte at this offset. -/
def recordAt? (row : List Piece) (offset : Nat) : Option Text := (pieceAt? row offset).bind Piece.record

/-- The byte at this offset of the line format stands inside the object of `record`. -/
def InObject (records : List Record) (record : Record) (offset : Nat) : Prop :=
  ∃ before after, records = before ++ record :: after ∧ (bytes .jsonl before).length ≤ offset ∧
    offset < (bytes .jsonl before).length + (Utf8.encode record.toText).length

/-- The byte at this offset of the line format is the line end behind the object of `record`. -/
def BehindObject (records : List Record) (record : Record) (offset : Nat) : Prop :=
  ∃ before after, records = before ++ record :: after ∧
    offset = (bytes .jsonl before).length + (Utf8.encode record.toText).length

theorem bytes_jsonl_cons (record : Record) (records : List Record) : bytes .jsonl (record :: records) =
    Utf8.encode record.toText ++ Head.newline :: bytes .jsonl records :=
  spell_jsonl_cons record records

variable {records : List Record} {record : Record} {offset : Nat}

/-- Every byte of the line format belongs to an object or ends its line. -/
theorem exists_object (inside : offset < (bytes .jsonl records).length) :
    ∃ record, InObject records record offset ∨ BehindObject records record offset := by
  induction records generalizing offset with
  | nil => cases inside
  | cons first rest ih =>
    rw [bytes_jsonl_cons, List.length_append, List.length_cons] at inside
    rcases Nat.lt_trichotomy offset (Utf8.encode first.toText).length with within | ends | further
    · exact ⟨first, .inl ⟨[], rest, rfl, Nat.zero_le _, by simpa [bytes, pieces, jsonl] using within⟩⟩
    · exact ⟨first, .inr ⟨[], rest, rfl, by simpa [bytes, pieces, jsonl] using ends⟩⟩
    have onward : offset - (Utf8.encode first.toText).length - 1 < (bytes .jsonl rest).length := by omega
    have longer : ∀ before, (bytes .jsonl (first :: before)).length =
        (Utf8.encode first.toText).length + 1 + (bytes .jsonl before).length := by
      intro before
      rw [bytes_jsonl_cons, List.length_append, List.length_cons]
      omega
    obtain ⟨record, ⟨before, after, rfl, starts, stops⟩ | ⟨before, after, rfl, ends⟩⟩ := ih onward
    · exact ⟨record, .inl ⟨first :: before, after, rfl, by rw [longer]; omega, by rw [longer]; omega⟩⟩
    · exact ⟨record, .inr ⟨first :: before, after, rfl, by rw [longer]; omega⟩⟩

/-- The pieces of the line of a record are looked up behind those of the lines before it. -/
theorem pieceAt?_line (before after : List Record) (record : Record) (offset : Nat) :
    pieceAt? (jsonl (before ++ record :: after)) ((bytes .jsonl before).length + offset) =
      if offset < (Utf8.encode record.toText).length then
        pieceAt? (record.textPieces.map (⟨·, some record.path⟩)) offset
      else pieceAt? (.plain ['\n'] :: jsonl after) (offset - (Utf8.encode record.toText).length) := by
  have split : jsonl (before ++ record :: after) = jsonl before ++
      (record.textPieces.map (⟨·, some record.path⟩) ++ .plain ['\n'] :: jsonl after) := by
    simp [jsonl, jsonlRecord]
  have front : (bytes .jsonl before).length = (spell (jsonl before)).length := rfl
  rw [split, pieceAt?_append, front, if_neg (by omega), Nat.add_sub_cancel_left, pieceAt?_append,
    spell_object]

theorem recordAt?_inObject (inside : InObject records record offset) :
    recordAt? (jsonl records) offset = some record.path := by
  obtain ⟨before, after, rfl, starts, stops⟩ := inside
  obtain ⟨place, rfl⟩ := Nat.exists_eq_add_of_le starts
  have within : place < (Utf8.encode record.toText).length := Nat.lt_of_add_lt_add_left stops
  rw [recordAt?, pieceAt?_line, if_pos within]
  cases found : pieceAt? (record.textPieces.map (⟨·, some record.path⟩)) place with
  | none =>
    have short := pieceAt?_eq_none_iff.mp found
    rw [spell_object] at short
    exact absurd short (Nat.not_le.mpr within)
  | some piece =>
    obtain ⟨text, _, rfl⟩ := List.mem_map.mp (mem_of_pieceAt? found)
    rfl

theorem InObject.lt (inside : InObject records record offset) :
    offset < (bytes .jsonl records).length := by
  obtain ⟨piece, found, _⟩ := Option.bind_eq_some_iff.mp (recordAt?_inObject inside)
  exact lt_of_pieceAt? found

theorem recordAt?_behindObject (behind : BehindObject records record offset) :
    recordAt? (jsonl records) offset = none := by
  obtain ⟨before, after, rfl, rfl⟩ := behind
  rw [recordAt?, pieceAt?_line, if_neg (Nat.lt_irrefl _), Nat.sub_self]
  rfl

/-- Outside of the objects no record is named. -/
theorem recordAt?_outside (outside : ∀ record, ¬ InObject records record offset) :
    recordAt? (jsonl records) offset = none := by
  cases found : pieceAt? (jsonl records) offset with
  | none => rw [recordAt?, found]; rfl
  | some piece =>
    obtain ⟨record, inside | behind⟩ := exists_object (lt_of_pieceAt? found)
    · exact absurd inside (outside record)
    · exact recordAt?_behindObject behind

theorem recordAt?_markdown (records : List Record) (offset : Nat) :
    recordAt? (markdown records) offset = none := by
  have plain : ∀ text, ∀ piece ∈ paragraph text, piece.record = none := by
    simp [paragraph, Piece.plain]
  have unnamed : ∀ piece ∈ markdown records, piece.record = none := by
    intro piece member
    rcases List.mem_append.mp member with headed | later
    · rcases List.mem_append.mp headed with first | second
      · exact plain _ piece first
      · exact plain _ piece second
    · obtain ⟨record, _, inside⟩ := List.mem_flatMap.mp later
      rcases List.mem_append.mp inside with heading | snippet
      · rcases List.mem_cons.mp heading with rfl | path
        · rfl
        · exact plain _ piece path
      · exact plain _ piece snippet
  rw [recordAt?]
  cases found : pieceAt? (markdown records) offset with
  | none => rfl
  | some piece => exact unnamed piece (mem_of_pieceAt? found)

/-- What a sink with room for so many bytes makes of a document that is written to it without a
buffer, told by what a sink without a limit holds. It ends up with the front of the document that
fits, and there is no failure exactly if the whole fits and the flush does not fail. Of the failures
only a refusal inside the object of a record names something, and that is this record. -/
theorem render_limited (cause : ε → Text) (format : Format) (records : List Record) (room : Nat)
    (refusal : ε) (flushFailure : Option ε) :
    let document := delivered refusal .direct format records
    ∃ writer failure?,
      render format records (Writer.over .direct ⟨some room, refusal, flushFailure, []⟩) =
        (writer, failure?) ∧
      writer.sink.written = document.take room ∧
      (failure? = none ↔ document.length ≤ room ∧ flushFailure = none) ∧
      ∀ failure, failure? = some failure →
        (document.length ≤ room → ∃ other, flushFailure = some other ∧
          Index.failureChain cause failure = [cause other]) ∧
        (room < document.length →
          (format = .markdown → Index.failureChain cause failure = [cause refusal]) ∧
          (format = .jsonl →
            (∃ record, InObject records record room ∨ BehindObject records record room) ∧
            (∀ record, InObject records record room → Index.failureChain cause failure =
              ["serializing record ".toList ++ record.path, cause refusal]) ∧
            ∀ record, BehindObject records record room →
              Index.failureChain cause failure = [cause refusal])) := by
  dsimp only
  rw [delivered_eq]
  refine ⟨_, _, render_offered .., rfl, ?_⟩
  cases found : pieceAt? (pieces format records) room with
  | none =>
    have fits : (bytes format records).length ≤ room := pieceAt?_eq_none_iff.mp found
    dsimp only
    refine ⟨by simp [fits], fun failure failed => ⟨fun _ => ?_, fun long => absurd fits (Nat.not_le.mpr long)⟩⟩
    obtain ⟨other, same, rfl⟩ := Option.map_eq_some_iff.mp failed
    exact ⟨other, same, rfl⟩
  | some piece =>
    have long : room < (bytes format records).length := lt_of_pieceAt? found
    have named : piece.record = recordAt? (pieces format records) room := by
      rw [recordAt?, found]
      rfl
    dsimp only
    refine ⟨iff_of_false nofun fun both => absurd both.1 (Nat.not_le.mpr long), fun failure failed => ?_⟩
    cases failed
    refine ⟨fun fits => absurd fits (Nat.not_le.mpr long), fun _ => ⟨?_, ?_⟩⟩
    · rintro rfl
      rw [Index.failureChain, named, pieces, recordAt?_markdown]
    · rintro rfl
      refine ⟨exists_object long, fun record inside => ?_, fun record behind => ?_⟩
      · rw [Index.failureChain, named, pieces, recordAt?_inObject inside]
      · rw [Index.failureChain, named, pieces, recordAt?_behindObject behind]

end Document
end
end SourceIndex
