import Mathlib.Data.List.TakeDrop
import SourceIndex.Document

/-! What a writer was given. Bytes are on the sink or still held back, in this order, and as
long as nothing is refused no buffering drops, repeats or reorders any of them (`put_ok`). So
a document that was written and flushed is there as a whole, whatever the sink and however it
was buffered (`render_ok`). A sink without a limit refuses nothing (`render_endless`). -/
namespace SourceIndex

namespace Sink

variable {sink next : Sink ε} {bytes : Bytes}

/-- A sink that takes everything. -/
def Endless (sink : Sink ε) : Prop := sink.room = none

/-- What was not refused is there. -/
theorem accept_ok (took : sink.accept bytes = (next, none)) :
    next.written = sink.written ++ bytes ∧ next.flushFailure = sink.flushFailure ∧
      (sink.Endless → next.Endless) := by
  unfold accept at took
  split at took
  · rename_i endless
    cases took
    exact ⟨rfl, rfl, fun _ => endless⟩
  · rename_i room limited
    obtain ⟨rfl, answer⟩ := Prod.mk.inj took
    split at answer
    · rename_i fits
      refine ⟨?_, rfl, fun endless => ?_⟩
      · simp [List.take_of_length_le fits]
      · rw [Endless, limited] at endless
        cases endless
    · cases answer

theorem accept_endless (endless : sink.Endless) (bytes : Bytes) :
    ∃ next, sink.accept bytes = (next, none) := by
  unfold Endless at endless
  simp [accept, endless]

end Sink

namespace Writer

variable {writer next : Writer ε} {bytes more : Bytes} {size : Nat}

/-- Everything that was put into a writer, passed on or held back. -/
def contents (writer : Writer ε) : Bytes := writer.sink.written ++ writer.held

/-- `next` is what a writer becomes by taking some bytes. -/
structure Takes (writer : Writer ε) (bytes : Bytes) (next : Writer ε) : Prop where
  contents : next.contents = writer.contents ++ bytes
  buffering : next.buffering = writer.buffering
  flushFailure : next.sink.flushFailure = writer.sink.flushFailure
  endless : writer.sink.Endless → next.sink.Endless

theorem Takes.trans {last : Writer ε} (first : writer.Takes bytes next) (second : next.Takes more last) :
    writer.Takes (bytes ++ more) last where
  contents := by rw [second.contents, first.contents, List.append_assoc]
  buffering := second.buffering.trans first.buffering
  flushFailure := second.flushFailure.trans first.flushFailure
  endless unlimited := second.endless (first.endless unlimited)

theorem Takes.nothing (writer : Writer ε) : writer.Takes [] writer where
  contents := (List.append_nil _).symm
  buffering := rfl
  flushFailure := rfl
  endless unlimited := unlimited

/-- Bytes may be held back behind the others. -/
theorem Takes.hold (writer : Writer ε) (bytes : Bytes) :
    writer.Takes bytes { writer with held := writer.held ++ bytes } where
  contents := (List.append_assoc ..).symm
  buffering := rfl
  flushFailure := rfl
  endless unlimited := unlimited

/-- Bytes may go past the buffer when nothing is held back in front of them. -/
theorem Takes.past {sink : Sink ε} (empty : writer.held = [])
    (took : writer.sink.accept bytes = (sink, none)) : writer.Takes bytes { writer with sink } := by
  obtain ⟨written, flushFailure, endless⟩ := Sink.accept_ok took
  refine ⟨?_, rfl, flushFailure, endless⟩
  simp [Writer.contents, empty, written]

theorem drain_ok (drained : writer.drain = (next, none)) : next.held = [] ∧ writer.Takes [] next := by
  unfold drain at drained
  rcases took : writer.sink.accept writer.held with ⟨sink, failure⟩
  rw [took] at drained
  cases drained
  obtain ⟨written, flushFailure, endless⟩ := Sink.accept_ok took
  refine ⟨rfl, ?_, rfl, flushFailure, endless⟩
  simp [Writer.contents, written]

theorem drain_endless (endless : writer.sink.Endless) : ∃ next, writer.drain = (next, none) := by
  obtain ⟨sink, took⟩ := Sink.accept_endless endless writer.held
  exact ⟨_, by rw [drain, took]⟩

theorem putBlock_ok (put : writer.putBlock size bytes = (next, none)) : writer.Takes bytes next := by
  unfold putBlock at put
  split at put
  · cases put
  rename_i ready made
  -- What stands in front of the bytes stays held, or it was passed on to make room.
  have before : writer.Takes [] ready ∧ (¬ bytes.length < size → ready.held = []) := by
    split at made
    · rename_i fits
      cases made
      refine ⟨.nothing writer, fun large => List.eq_nil_of_length_eq_zero ?_⟩
      omega
    · exact ⟨(drain_ok made).2, fun _ => (drain_ok made).1⟩
  obtain ⟨takes, past⟩ := before
  split at put
  · cases put
    exact takes.trans (.hold ready bytes)
  · rename_i large
    rcases took : ready.sink.accept bytes with ⟨sink, failure⟩
    rw [took] at put
    cases put
    exact takes.trans (.past (past large) took)

theorem putBlock_endless (endless : writer.sink.Endless) (size : Nat) (bytes : Bytes) :
    ∃ next, writer.putBlock size bytes = (next, none) := by
  obtain ⟨ready, made, unlimited⟩ : ∃ ready, (if writer.held.length + bytes.length ≤ size
      then (writer, none) else writer.drain) = (ready, none) ∧ ready.sink.Endless := by
    split
    · exact ⟨writer, rfl, endless⟩
    · obtain ⟨drained, done⟩ := drain_endless endless
      exact ⟨drained, done, (drain_ok done).2.endless endless⟩
  rw [putBlock, made]
  dsimp only
  split
  · exact ⟨_, rfl⟩
  · obtain ⟨sink, took⟩ := Sink.accept_endless unlimited bytes
    exact ⟨_, by rw [took]⟩

theorem cutLines_append {lines tail : Bytes} (cut : cutLines bytes = some (lines, tail)) :
    lines ++ tail = bytes := by
  rw [cutLines, List.span_eq_takeWhile_dropWhile] at cut
  split at cut
  · cases cut
  · rename_i split
    cases cut
    obtain ⟨rfl, rfl⟩ := Prod.mk.inj split
    rw [← List.reverse_append, List.takeWhile_append_dropWhile, List.reverse_reverse]

theorem putLine_ok (put : writer.putLine size bytes = (next, none)) : writer.Takes bytes next := by
  unfold putLine at put
  split at put
  · split at put
    · cases put
    rename_i ready made
    have before : writer.Takes [] ready := by
      split at made
      · exact (drain_ok made).2
      · cases made
        exact .nothing writer
    exact before.trans (putBlock_ok put)
  · rename_i lines tail cut
    dsimp only at put
    split at put
    · cases put
    rename_i passed made
    have finished : writer.Takes lines passed := by
      split at made
      · rename_i empty
        rcases took : writer.sink.accept lines with ⟨sink, failure⟩
        rw [took] at made
        cases made
        exact .past empty took
      split at made
      · cases made
      · rename_i filled wrote
        have takes := (putBlock_ok wrote).trans (drain_ok made).2
        rwa [List.append_nil] at takes
    rw [← cutLines_append cut]
    exact finished.trans (putBlock_ok put)

theorem putLine_endless (endless : writer.sink.Endless) (size : Nat) (bytes : Bytes) :
    ∃ next, writer.putLine size bytes = (next, none) := by
  unfold putLine
  split
  · obtain ⟨ready, made, unlimited⟩ : ∃ ready, (if writer.held.getLast? = some 0x0A
        then writer.drain else (writer, none)) = (ready, none) ∧ ready.sink.Endless := by
      split
      · obtain ⟨drained, done⟩ := drain_endless endless
        exact ⟨drained, done, (drain_ok done).2.endless endless⟩
      · exact ⟨writer, rfl, endless⟩
    rw [made]
    exact putBlock_endless unlimited size bytes
  · rename_i lines tail cut
    dsimp only
    by_cases empty : writer.held = []
    · obtain ⟨sink, took⟩ := Sink.accept_endless endless lines
      have takes := Takes.past empty took
      rw [if_pos empty, took]
      exact putBlock_endless (takes.endless endless) size tail
    · obtain ⟨filled, put⟩ := putBlock_endless endless size lines
      obtain ⟨passed, drained⟩ := drain_endless ((putBlock_ok put).endless endless)
      have takes := (putBlock_ok put).trans (drain_ok drained).2
      rw [if_neg empty, put]
      dsimp only
      rw [drained]
      exact putBlock_endless (takes.endless endless) size tail

/-- Without a buffer nothing is held back. -/
def Settled (writer : Writer ε) : Prop := writer.buffering = .direct → writer.held = []

theorem Takes.settled (takes : writer.Takes bytes next) (buffered : writer.buffering ≠ .direct) :
    next.Settled := by
  intro direct
  rw [takes.buffering] at direct
  exact absurd direct buffered

/-- Every way of buffering takes the bytes that are not refused, and keeps them in order. -/
theorem put_ok (settled : writer.Settled) (put : writer.put bytes = (next, none)) :
    writer.Takes bytes next ∧ next.Settled := by
  unfold Writer.put at put
  split at put
  · rename_i direct
    rcases took : writer.sink.accept bytes with ⟨sink, failure⟩
    rw [took] at put
    cases put
    exact ⟨.past (settled direct) took, fun _ => settled direct⟩
  · rename_i block
    have takes := putBlock_ok put
    exact ⟨takes, takes.settled (by simp [block])⟩
  · rename_i line
    have takes := putLine_ok put
    exact ⟨takes, takes.settled (by simp [line])⟩

theorem put_endless (endless : writer.sink.Endless) (bytes : Bytes) :
    ∃ next, writer.put bytes = (next, none) := by
  unfold put
  split
  · obtain ⟨sink, took⟩ := Sink.accept_endless endless bytes
    exact ⟨_, by rw [took]⟩
  · exact putBlock_endless endless _ bytes
  · exact putLine_endless endless _ bytes

theorem flush_ok (flushed : writer.flush = (next, none)) : next.sink.written = writer.contents := by
  unfold flush at flushed
  split at flushed
  · cases flushed
  · rename_i drained done
    obtain ⟨rfl, _⟩ := Prod.mk.inj flushed
    obtain ⟨empty, takes⟩ := drain_ok done
    simpa [contents, empty] using takes.contents

/-- A sink without a limit gets all bytes that are put and flushed, and the flush ends as the
sink has it. -/
theorem flush_endless {sink : Sink ε} (endless : sink.Endless) (buffering : Buffering)
    (bytes : Bytes) : ∃ filled next, (Writer.over buffering sink).put bytes = (filled, none) ∧
      filled.flush = (next, sink.flushFailure) ∧ next.sink.written = sink.written ++ bytes := by
  have settled : (Writer.over buffering sink).Settled := fun _ => rfl
  have unlimited : (Writer.over buffering sink).sink.Endless := endless
  obtain ⟨filled, wrote⟩ := put_endless unlimited bytes
  obtain ⟨takes, _⟩ := put_ok settled wrote
  obtain ⟨next, done⟩ := drain_endless (takes.endless endless)
  obtain ⟨empty, passed⟩ := drain_ok done
  have whole := takes.trans passed
  refine ⟨filled, next, wrote, ?_, ?_⟩
  · rw [flush, done]
    exact congrArg (Prod.mk next) whole.flushFailure
  · simpa [contents, empty, Writer.over] using whole.contents

end Writer

namespace Document

variable {writer next : Writer ε} {pieces : List Piece}

/-- The bytes of some pieces in a row. -/
def spell (pieces : List Piece) : Bytes := pieces.flatMap fun piece => Utf8.encode piece.text

theorem write_ok (settled : writer.Settled) (wrote : write writer pieces = (next, none)) :
    writer.Takes (spell pieces) next ∧ next.Settled := by
  induction pieces generalizing writer with
  | nil =>
    cases wrote
    exact ⟨.nothing _, settled⟩
  | cons piece rest ih =>
    unfold write at wrote
    split at wrote
    · rename_i between put
      obtain ⟨takes, still⟩ := Writer.put_ok settled put
      obtain ⟨further, stays⟩ := ih still wrote
      exact ⟨takes.trans further, stays⟩
    · cases wrote

theorem write_endless (endless : writer.sink.Endless) (settled : writer.Settled) (pieces : List Piece) :
    ∃ next, write writer pieces = (next, none) := by
  induction pieces generalizing writer with
  | nil => exact ⟨writer, rfl⟩
  | cons piece rest ih =>
    obtain ⟨between, put⟩ := Writer.put_endless endless (Utf8.encode piece.text)
    obtain ⟨takes, still⟩ := Writer.put_ok settled put
    rw [write, put]
    exact ih (takes.endless endless) still

/-- A document that was written without a refusal is on its sink as a whole. -/
theorem render_ok {sink : Sink ε} {buffering : Buffering} {format : Format} {records : List Record}
    (rendered : render format records (Writer.over buffering sink) = (next, none)) :
    next.sink.written = sink.written ++ bytes format records := by
  unfold render at rendered
  split at rendered
  · cases rendered
  · rename_i filled wrote
    have settled : (Writer.over buffering sink).Settled := fun _ => rfl
    obtain ⟨takes, _⟩ := write_ok settled wrote
    rcases flushed : filled.flush with ⟨writer, failure⟩
    rw [flushed] at rendered
    obtain ⟨rfl, quiet⟩ := Prod.mk.inj rendered
    rw [Option.map_eq_none_iff] at quiet
    rw [quiet] at flushed
    rw [Writer.flush_ok flushed, takes.contents]
    simp [Writer.contents, Writer.over, spell, bytes]

/-- A sink without a limit refuses no document. -/
theorem render_endless {sink : Sink ε} (endless : sink.Endless) (flushes : sink.flushFailure = none)
    (buffering : Buffering) (format : Format) (records : List Record) :
    ∃ next, render format records (Writer.over buffering sink) = (next, none) := by
  have settled : (Writer.over buffering sink).Settled := fun _ => rfl
  obtain ⟨filled, wrote⟩ := write_endless endless settled (pieces format records)
  obtain ⟨takes, _⟩ := write_ok settled wrote
  obtain ⟨drained, done⟩ := Writer.drain_endless (takes.endless endless)
  have whole := takes.trans (Writer.drain_ok done).2
  have quiet : drained.sink.flushFailure = none := whole.flushFailure.trans flushes
  refine ⟨drained, ?_⟩
  simp only [render, wrote, Writer.flush, done, quiet, Option.map_none]

/-- What a sink without a limit holds after a document went to it through some buffer. -/
def delivered (refusal : ε) (buffering : Buffering) (format : Format) (records : List Record) : Bytes :=
  (render format records (Writer.over buffering (Sink.unlimited refusal))).1.sink.written

theorem delivered_eq (refusal : ε) (buffering : Buffering) (format : Format) (records : List Record) :
    delivered refusal buffering format records = bytes format records := by
  have endless : (Sink.unlimited refusal).Endless := rfl
  obtain ⟨writer, rendered⟩ := render_endless endless rfl buffering format records
  rw [delivered, rendered, render_ok rendered]
  rfl

/-- Without a buffer the bytes are on the sink already before it is flushed. -/
theorem write_direct (refusal : ε) (pieces : List Piece) :
    ∃ next, write (Writer.over .direct (Sink.unlimited refusal)) pieces = (next, none) ∧
      next.sink.written = spell pieces := by
  have endless : (Writer.over .direct (Sink.unlimited refusal)).sink.Endless := rfl
  have direct : (Writer.over .direct (Sink.unlimited refusal)).Settled := fun _ => rfl
  obtain ⟨next, wrote⟩ := write_endless endless direct pieces
  obtain ⟨takes, settled⟩ := write_ok direct wrote
  have empty : next.held = [] := settled takes.buffering
  have reached := takes.contents
  refine ⟨next, wrote, ?_⟩
  simpa [Writer.contents, empty, Writer.over, Sink.unlimited] using reached

end Document
end SourceIndex
