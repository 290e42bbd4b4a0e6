import SourceIndex.Proofs.LimitedRoom
import SourceIndex.Proofs.RefusedOutput

/-! A limited sink behind a buffer. The buffer shows a refusal later than the sink meets it, but it
loses none: as long as nothing is refused, what was written is what the sink took and what is still
held back (`Limited`), and the flush at the end passes that on. In front of a full sink it is the
first piece that does not fit the buffer that is refused (`write_held`). -/
namespace SourceIndex

namespace Writer

/-- Bytes that fit the free part of the buffer, and do not fill it alone, are held back. -/
theorem putBlock_free {size : Nat} {writer : Writer ε} {bytes : Bytes}
    (free : writer.held.length + bytes.length ≤ size) (short : bytes.length < size) :
    putBlock size writer bytes = (⟨writer.buffering, writer.held ++ bytes, writer.sink⟩, none) := by
  rw [putBlock, if_pos free]
  exact if_pos short

theorem drain_full {held : Bytes} (nonempty : held ≠ []) (buffering : Buffering) (refusal : ε) :
    drain ⟨buffering, held, .full refusal⟩ = (⟨buffering, [], .full refusal⟩, some refusal) := by
  rw [drain, Sink.accept_full, if_neg nonempty]

/-- What writing a document to a limited sink behind a buffer can have come to. Either the sink has
taken the front of it, with room for all it was offered, and the rest is held back, or it was offered
a front that is too long for it. -/
inductive Limited (room size : Nat) (refusal : ε) (document : Bytes) : Writer ε × Option ε → Prop where
  | kept {passed held : Bytes} (whole : passed ++ held = document) (fits : passed.length ≤ room) :
      Limited room size refusal document
        (⟨.block size, held, .offered room refusal none passed⟩, none)
  | refused {passed : Bytes} (front : passed <+: document) (long : room < passed.length) :
      Limited room size refusal document
        (⟨.block size, [], .offered room refusal none passed⟩, some refusal)

variable {room : Nat} {passed : Bytes} (size : Nat) (refusal : ε)

/-- Bytes that the sink is offered when nothing is held back. -/
theorem Limited.offered (fits : passed.length ≤ room) (bytes : Bytes) :
    Limited room size refusal (passed ++ bytes)
      (⟨.block size, [], .offered room refusal none (passed ++ bytes)⟩,
        if bytes.length ≤ room - passed.length then none else some refusal) := by
  by_cases taken : bytes.length ≤ room - passed.length
  · rw [if_pos taken]
    refine .kept (List.append_nil _) ?_
    rw [List.length_append]
    omega
  · rw [if_neg taken]
    refine .refused List.prefix_rfl ?_
    rw [List.length_append]
    omega

theorem putBlock_limited (fits : passed.length ≤ room) (held bytes : Bytes) :
    Limited room size refusal (passed ++ held ++ bytes)
      (putBlock size ⟨.block size, held, .offered room refusal none passed⟩ bytes) := by
  by_cases free : held.length + bytes.length ≤ size
  · by_cases short : bytes.length < size
    · rw [putBlock_free free short]
      exact .kept (List.append_assoc ..).symm fits
    · obtain rfl : held = [] := List.eq_nil_of_length_eq_zero (by omega)
      rw [putBlock, if_pos free]
      dsimp only
      rw [if_neg short, Sink.accept_offered, List.append_nil]
      exact .offered size refusal fits bytes
  rw [putBlock]
  dsimp only
  rw [if_neg free, drain_offered]
  by_cases taken : held.length ≤ room - passed.length
  · have within : (passed ++ held).length ≤ room := by
      rw [List.length_append]
      omega
    rw [if_pos taken]
    dsimp only
    by_cases short : bytes.length < size
    · rw [if_pos short]
      exact .kept rfl within
    · rw [if_neg short, Sink.accept_offered]
      exact .offered size refusal within bytes
  · rw [if_neg taken]
    refine .refused (List.prefix_append ..) ?_
    rw [List.length_append]
    omega

/-- What is held back meets the sink when it is flushed. -/
theorem Limited.flush {size : Nat} {refusal : ε} {document : Bytes} {writer : Writer ε}
    (limited : Limited room size refusal document (writer, none)) : writer.flush =
      (⟨.block size, [], .offered room refusal none document⟩,
        if document.length ≤ room then none else some refusal) := by
  cases limited with
  | @kept passed held whole fits =>
    have same : held.length ≤ room - passed.length ↔ document.length ≤ room := by
      rw [← whole, List.length_append]
      omega
    rw [Writer.flush, drain_offered, whole]
    simp only [same]
    by_cases taken : document.length ≤ room
    · rw [if_pos taken]
      rfl
    · rw [if_neg taken]

end Writer

namespace Document

open Writer (Limited)

variable {room : Nat} {passed : Bytes} (size : Nat) (refusal : ε)

theorem write_limited (fits : passed.length ≤ room) (held : Bytes) (pieces : List Piece) :
    ∃ writer failure?, write ⟨.block size, held, .offered room refusal none passed⟩ pieces =
        (writer, failure?) ∧
      Limited room size refusal (passed ++ held ++ spell pieces)
        (writer, failure?.map Failure.cause) := by
  induction pieces generalizing passed held with
  | nil => exact ⟨_, _, rfl, .kept (List.append_nil _).symm fits⟩
  | cons piece rest ih =>
    have step := Writer.putBlock_limited size refusal fits held (Utf8.encode piece.text)
    rw [write, Writer.put, spell_cons, ← List.append_assoc]
    dsimp only
    generalize Writer.putBlock size ⟨.block size, held, .offered room refusal none passed⟩
      (Utf8.encode piece.text) = answer at step ⊢
    cases step with
    | kept whole within =>
      rw [← whole]
      exact ih within _
    | refused front long =>
      exact ⟨_, _, rfl, .refused (front.trans (List.prefix_append ..)) long⟩

/-- Behind a buffer a limited sink ends up with the front of the document that fits, and the
rendering fails exactly if it does not fit as a whole. -/
theorem render_buffered (size : Nat) (format : Format) (records : List Record) (room : Nat)
    (refusal : ε) :
    ∃ writer failure?,
      render format records (Writer.over (.block size) ⟨some room, refusal, none, []⟩) =
        (writer, failure?) ∧
      writer.sink.written = (bytes format records).take room ∧
      (failure? = none ↔ (bytes format records).length ≤ room) := by
  have empty : ([] : Bytes).length ≤ room := Nat.zero_le room
  obtain ⟨writer, failure?, wrote, limited⟩ :=
    write_limited size refusal empty [] (pieces format records)
  change Limited room size refusal (bytes format records) _ at limited
  rw [← Sink.offered_nil, Writer.over, render, wrote]
  cases failure? with
  | none =>
    dsimp only
    rw [limited.flush]
    refine ⟨_, _, rfl, rfl, ?_⟩
    by_cases taken : (bytes format records).length ≤ room <;> simp [taken]
  | some failure =>
    cases limited with
    | refused front long =>
      obtain ⟨more, whole⟩ := front
      refine ⟨_, _, rfl, ?_, iff_of_false (Option.some_ne_none failure) ?_⟩
      · rw [← whole, List.take_append_of_le_length (Nat.le_of_lt long)]
        rfl
      · rw [← whole, List.length_append]
        omega

/-! ### A full sink -/

/-- Behind a buffer that holds something, a full sink refuses the first piece that does not fit
the buffer, and until then every piece is held back. -/
theorem write_held {held : Bytes} (nonempty : held ≠ []) (within : held.length ≤ size)
    (pieces : List Piece) : write ⟨.block size, held, .full refusal⟩ pieces =
      match pieceAt? pieces (size - held.length) with
      | none => (⟨.block size, held ++ spell pieces, .full refusal⟩, none)
      | some piece => (⟨.block size, [], .full refusal⟩, some ⟨piece.record, refusal⟩) := by
  induction pieces generalizing held with
  | nil => simp [write, spell, pieceAt?]
  | cons piece rest ih =>
    have holds := List.length_pos_iff.mpr nonempty
    have longer : (held ++ Utf8.encode piece.text).length =
        held.length + (Utf8.encode piece.text).length := List.length_append
    rw [write, Writer.put, pieceAt?, spell_cons, ← List.append_assoc]
    dsimp only
    by_cases free : held.length + (Utf8.encode piece.text).length ≤ size
    · rw [Writer.putBlock_free free (by omega), if_neg (by omega)]
      dsimp only
      rw [ih (List.append_ne_nil_of_left_ne_nil nonempty _) (longer ▸ free), longer, Nat.sub_sub]
    · rw [Writer.putBlock, if_neg free, if_pos (by omega), Writer.drain_full nonempty]

/-- A full sink refuses a document whose first piece stays in the buffer, and what shows is the
record whose object holds the first byte behind a full buffer. -/
theorem render_held {format : Format} {records : List Record} {first : Piece} {rest : List Piece}
    (row : pieces format records = first :: rest) (starts : Utf8.encode first.text ≠ [])
    (short : (Utf8.encode first.text).length < size) :
    (render format records (Writer.over (.block size) (.full refusal))).2 =
      some ⟨recordAt? (pieces format records) size, refusal⟩ := by
  have free : ([] : Bytes).length + (Utf8.encode first.text).length ≤ size := by
    rw [List.length_nil, Nat.zero_add]
    exact Nat.le_of_lt short
  have begun : write (Writer.over (.block size) (.full refusal)) (first :: rest) =
      write ⟨.block size, Utf8.encode first.text, .full refusal⟩ rest := by
    rw [write, Writer.over, Writer.put]
    dsimp only
    rw [Writer.putBlock_free free short]
    rfl
  rw [render, row, begun, write_held size refusal starts (Nat.le_of_lt short), recordAt?, pieceAt?,
    if_neg (Nat.not_lt_of_lt short)]
  dsimp only
  cases pieceAt? rest (size - (Utf8.encode first.text).length) with
  | some piece => rfl
  | none =>
    dsimp only
    rw [Writer.flush, Writer.drain_full (List.append_ne_nil_of_left_ne_nil starts _)]
    rfl

/-- Every document starts with a few bytes that the buffer of an index file holds back. -/
theorem pieces_start {format : Format} {records : List Record} (nonempty : bytes format records ≠ []) :
    ∃ first rest, pieces format records = first :: rest ∧ Utf8.encode first.text ≠ [] ∧
      (Utf8.encode first.text).length < Index.bufferSize := by
  cases format with
  | markdown => exact ⟨_, _, rfl, by decide, by decide⟩
  | jsonl =>
    cases records with
    | nil => exact absurd rfl nonempty
    | cons record rest =>
      have brace : Utf8.encode ['\x7b'] ≠ [] ∧ (Utf8.encode ['\x7b']).length < Index.bufferSize := by
        decide
      exact ⟨_, _, rfl, brace⟩

end Document
end SourceIndex
