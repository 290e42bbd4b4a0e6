import Mathlib.Data.List.Infix
import Mathlib.Data.List.Nodup
import SourceIndex.Head

/-! Reading the head of a file is splitting its content at the line ends. The content is all
that arrives before an empty chunk; `pieces` cuts it at `\n`, `\r\n` and lone `\r`, and
`lineEnds` lists the places where these ends begin. A reader in the middle of the content holds
the pieces of what it has consumed (`Progress.pieces_eq`), each byte keeps that so, and it stops with
the first byte of the last wanted line end or at the end of the content. So what is read depends
on the content only, and on no byte of it that was not consumed (`read_eq_split`). -/
namespace SourceIndex

/-- What an input delivers: the chunks before the first empty one, in a row. -/
def Input.content (input : Input ε) : Bytes := (input.chunks.takeWhile (· ≠ [])).flatten

/-- The failure at the end of an input. An empty chunk is an end without one. -/
def Input.fault? (input : Input ε) : Option ε := if [] ∈ input.chunks then none else input.failure

theorem Input.content_cons {chunk : Bytes} (some : chunk ≠ []) (chunks : List Bytes) (failure : Option ε) :
    (Input.mk (chunk :: chunks) failure).content = chunk ++ (Input.mk chunks failure).content := by
  simp [Input.content, some]

theorem Input.fault?_cons {chunk : Bytes} (some : chunk ≠ []) (chunks : List Bytes) (failure : Option ε) :
    (Input.mk (chunk :: chunks) failure).fault? = (Input.mk chunks failure).fault? := by
  simp [Input.fault?, Ne.symm some]

namespace Head

/-- A line end begins here: a return, or a newline that is not the second half of a pair. -/
def EndsAt (bytes : Bytes) (place : Nat) : Prop :=
  bytes[place]? = some carriageReturn ∨
    bytes[place]? = some newline ∧ (place = 0 ∨ bytes[place - 1]? ≠ some carriageReturn)

instance (bytes : Bytes) (place : Nat) : Decidable (EndsAt bytes place) :=
  inferInstanceAs (Decidable (_ ∨ _))

/-- The places where line ends begin. -/
def lineEnds (bytes : Bytes) : List Nat := (List.range bytes.length).filter (EndsAt bytes ·)

/-- What stands between the line ends; the last piece is empty if the bytes end with one. -/
def pieces : Bytes → List Bytes
  | [] => [[]]
  | [byte] => if byte = newline ∨ byte = carriageReturn then [[], []] else [[byte]]
  | byte :: next :: rest =>
    if byte = carriageReturn ∧ next = newline then [] :: pieces rest
    else if byte = newline ∨ byte = carriageReturn then [] :: pieces (next :: rest)
    else (pieces (next :: rest)).modifyHead (byte :: ·)

/-- The pieces that are lines: all but an empty last one. -/
def linesOf (bytes : Bytes) : List Bytes :=
  if (pieces bytes).getLast? = some [] then (pieces bytes).dropLast else pieces bytes

/-- The first `limit` lines, decoded and without the blanks at their ends. -/
def firstLines (limit : Nat) (bytes : Bytes) : List Text :=
  ((linesOf bytes).take limit).map fun line => Text.trimEnd (Utf8.lossy line)

/-- How far reading `limit` lines looks: through the first byte of the last wanted line end, or
through everything if there are fewer. -/
def reach : (limit : Nat) → Bytes → Nat
  | 0, _ => 0
  | limit + 1, bytes => match (lineEnds bytes)[limit]? with
    | some place => place + 1
    | none => bytes.length

/-! ### One more byte -/

theorem endsAt_append {bytes : Bytes} {place : Nat} (inside : place < bytes.length) (more : Bytes) :
    EndsAt (bytes ++ more) place ↔ EndsAt bytes place := by
  unfold EndsAt
  rw [List.getElem?_append_left inside, List.getElem?_append_left (Nat.lt_of_le_of_lt (Nat.sub_le ..) inside)]

theorem endsAt_concat (bytes : Bytes) (byte : UInt8) :
    EndsAt (bytes ++ [byte]) bytes.length ↔
      byte = carriageReturn ∨ byte = newline ∧ bytes.getLast? ≠ some carriageReturn := by
  unfold EndsAt
  rw [List.getElem?_concat_length, Option.some.injEq, Option.some.injEq]
  cases bytes with
  | nil => simp
  | cons first rest =>
    have last : (first :: rest ++ [byte])[(first :: rest).length - 1]? = (first :: rest).getLast? := by
      rw [List.getElem?_append_left (by simp), List.getLast?_eq_getElem?]
    rw [last]
    simp

theorem lineEnds_concat (bytes : Bytes) (byte : UInt8) :
    lineEnds (bytes ++ [byte]) =
      lineEnds bytes ++ if EndsAt (bytes ++ [byte]) bytes.length then [bytes.length] else [] := by
  rw [lineEnds, List.length_append, List.length_singleton, List.range_succ, List.filter_append]
  congr 1
  · apply List.filter_congr
    intro place member
    simp only [endsAt_append (List.mem_range.mp member)]
  · simp [List.filter_singleton]

namespace Progress

variable {progress : Progress} {byte : UInt8}

/-! ### The four steps of a reader -/

theorem step_newline (fresh : progress.afterReturn = false) :
    progress.step newline = progress.endLine false := by
  simp [step, fresh]

/-- The second half of a pair ends nothing. -/
theorem step_paired (second : progress.afterReturn = true) :
    progress.step newline = { progress with afterReturn := false } := by
  simp [step, second]

theorem step_return : progress.step carriageReturn = progress.endLine true := rfl

theorem step_plain (plain : ¬ (byte = newline ∨ byte = carriageReturn)) :
    progress.step byte = ⟨progress.lines, byte :: progress.pending, false⟩ := by
  obtain ⟨noNewline, noReturn⟩ := not_or.mp plain
  simp [step, noNewline, noReturn]

/-- Only a newline asks what stood in front of it. -/
theorem step_forgets (other : byte ≠ newline) (flag : Bool) :
    { progress with afterReturn := flag }.step byte = progress.step byte := by
  simp [step, other, endLine]

/-! ### What is known after some bytes -/

/-- What a reader without a limit knows. -/
def after (bytes : Bytes) : Progress := bytes.foldl step start

theorem after_concat (bytes : Bytes) (byte : UInt8) :
    after (bytes ++ [byte]) = (after bytes).step byte :=
  List.foldl_concat ..

theorem afterReturn_after (bytes : Bytes) :
    (after bytes).afterReturn = decide (bytes.getLast? = some carriageReturn) := by
  induction bytes using List.reverseRecOn with
  | nil => rfl
  | append_singleton bytes byte =>
    simp only [after_concat, List.getLast?_concat, Option.some_inj]
    by_cases plain : byte = newline ∨ byte = carriageReturn
    · rcases plain with rfl | rfl
      · cases second : (after bytes).afterReturn
        · rw [step_newline second]
          rfl
        · rw [step_paired second]
          rfl
      · rfl
    · rw [step_plain plain, eq_comm, decide_eq_false_iff_not]
      exact (not_or.mp plain).2

/-- As many lines are finished as line ends have begun. -/
theorem lines_after (bytes : Bytes) : (after bytes).lines.length = (lineEnds bytes).length := by
  induction bytes using List.reverseRecOn with
  | nil => rfl
  | append_singleton bytes byte ih =>
    rw [after_concat, lineEnds_concat, List.length_append, ← ih]
    by_cases plain : byte = newline ∨ byte = carriageReturn
    · rcases plain with rfl | rfl
      · cases second : (after bytes).afterReturn
        · have alone := (afterReturn_after bytes).symm.trans second
          rw [step_newline second, if_pos ((endsAt_concat ..).mpr (.inr ⟨rfl, of_decide_eq_false alone⟩))]
          rfl
        · have paired := of_decide_eq_true ((afterReturn_after bytes).symm.trans second)
          rw [step_paired second, if_neg (by simp [endsAt_concat, paired, newline, carriageReturn])]
          rfl
      · rw [step_return, if_pos ((endsAt_concat ..).mpr (.inl rfl))]
        rfl
    · obtain ⟨noNewline, noReturn⟩ := not_or.mp plain
      rw [step_plain plain, if_neg (by simp [endsAt_concat, noNewline, noReturn])]
      rfl

theorem modifyHead_self (row : List Bytes) : row.modifyHead (fun piece => piece) = row := by
  cases row <;> rfl

theorem pieces_steps (bytes : Bytes) (fresh : progress.afterReturn = false) :
    (bytes.foldl step progress).lines.reverse ++ [(bytes.foldl step progress).pending.reverse] =
      progress.lines.reverse ++ (pieces bytes).modifyHead (progress.pending.reverse ++ ·) := by
  induction bytes using pieces.induct generalizing progress with
  | case1 => simp [pieces]
  | case2 byte ends =>
    rcases ends with rfl | rfl
    · simp [pieces, step_newline fresh, endLine]
    · simp [pieces, step_return, endLine]
  | case3 byte plain => simp [pieces, plain, step_plain plain]
  | case4 byte next rest pair ih =>
    obtain ⟨rfl, rfl⟩ := pair
    rw [List.foldl_cons, List.foldl_cons, step_return, step_paired rfl, ih rfl, pieces, if_pos ⟨rfl, rfl⟩]
    simp [endLine, modifyHead_self]
  | case5 byte next rest single ends ih =>
    rw [pieces, if_neg single, if_pos ends]
    rcases ends with rfl | rfl
    · rw [List.foldl_cons, step_newline fresh, ih rfl]
      simp [endLine, modifyHead_self]
    · have other : next ≠ newline := fun same => single ⟨rfl, same⟩
      -- The return is forgotten with the next byte, so it is as if the line had just begun.
      rw [List.foldl_cons, step_return, List.foldl_cons, endLine, ← step_forgets other false,
        ← List.foldl_cons, ih rfl]
      simp [modifyHead_self]
  | case6 byte next rest single plain ih =>
    rw [pieces, if_neg single, if_neg plain, List.foldl_cons, step_plain plain, ih rfl,
      List.modifyHead_modifyHead]
    simp [Function.comp_def]

/-- The finished lines and the one in progress are the pieces of what was read. -/
theorem pieces_eq (bytes : Bytes) :
    pieces bytes = (after bytes).lines.reverse ++ [(after bytes).pending.reverse] := by
  have whole := pieces_steps bytes (rfl : start.afterReturn = false)
  exact (whole.trans (modifyHead_self _)).symm

end Progress

/-! ### Where reading stops -/

variable {limit : Nat} {bytes before : Bytes}

theorem lineEnds_extended (bytes more : Bytes) : lineEnds bytes <+: lineEnds (bytes ++ more) := by
  induction more using List.reverseRecOn with
  | nil => simp
  | append_singleton more byte ih =>
    rw [← List.append_assoc, lineEnds_concat]
    exact ih.trans (List.prefix_append ..)

theorem Progress.lines_suffix (bytes more : Bytes) : (after bytes).lines <:+ (after (bytes ++ more)).lines := by
  induction more using List.reverseRecOn with
  | nil => simp
  | append_singleton more byte ih =>
    rw [← List.append_assoc, after_concat]
    refine ih.trans ?_
    unfold step
    split
    · split
      · exact List.suffix_refl _
      · exact List.suffix_cons ..
    · split
      · exact List.suffix_cons ..
      · exact List.suffix_refl _

theorem linesOf_eq (bytes : Bytes) : linesOf bytes = (Progress.after bytes).lines.reverse ++
    if (Progress.after bytes).pending = [] then [] else [(Progress.after bytes).pending.reverse] := by
  rw [linesOf, Progress.pieces_eq, List.getLast?_concat, List.dropLast_concat]
  simp only [Option.some_inj, List.reverse_eq_nil_iff]
  split <;> simp

/-- Lines that are finished stay what they are. -/
theorem take_linesOf (enough : limit ≤ (lineEnds bytes).length) (more : Bytes) :
    (linesOf (bytes ++ more)).take limit = (Progress.after bytes).lines.reverse.take limit := by
  obtain ⟨later, whole⟩ := Progress.lines_suffix bytes more
  have inside : limit ≤ (Progress.after bytes).lines.reverse.length := by
    rwa [List.length_reverse, Progress.lines_after]
  rw [linesOf_eq, ← whole, List.reverse_append, List.append_assoc, List.take_append_of_le_length inside]

/-- Bytes that a reader with this limit consumes to the end. -/
structure Within (limit : Nat) (bytes : Bytes) : Prop where
  ends : (lineEnds bytes).length ≤ limit
  reach : reach limit bytes = bytes.length

theorem within_of_lt (few : (lineEnds bytes).length < limit) : Within limit bytes where
  ends := Nat.le_of_lt few
  reach := by
    cases limit with
    | zero => cases few
    | succ limit => rw [Head.reach, List.getElem?_eq_none (Nat.le_of_lt_succ few)]

theorem within_start (limit : Nat) : Within limit [] := by
  cases limit with
  | zero => exact ⟨Nat.le_refl 0, rfl⟩
  | succ limit => exact within_of_lt (Nat.succ_pos limit)

/-- The byte that a reader waits for is the last one it consumes. -/
theorem within_concat (few : (lineEnds bytes).length < limit) (byte : UInt8) :
    Within limit (bytes ++ [byte]) := by
  by_cases more : (lineEnds (bytes ++ [byte])).length < limit
  · exact within_of_lt more
  rw [lineEnds_concat] at more
  split at more
  · rename_i ends
    have full : (lineEnds bytes).length + 1 = limit := by
      rw [List.length_append, List.length_singleton] at more
      omega
    constructor
    · rw [lineEnds_concat, if_pos ends, List.length_append, List.length_singleton]
      exact Nat.le_of_eq full
    · rw [← full, reach, lineEnds_concat, if_pos ends, List.getElem?_concat_length, List.length_append,
        List.length_singleton]
  · rw [List.append_nil] at more
    exact absurd few more

theorem reach_append (enough : limit ≤ (lineEnds bytes).length) (more : Bytes) :
    reach limit (bytes ++ more) = reach limit bytes := by
  cases limit with
  | zero => rfl
  | succ limit =>
    obtain ⟨later, whole⟩ := lineEnds_extended bytes more
    have inside : limit < (lineEnds bytes).length := enough
    rw [reach, reach, ← whole, List.getElem?_append_left inside, List.getElem?_eq_getElem inside]

theorem firstLines_append (enough : limit ≤ (lineEnds bytes).length) (more : Bytes) :
    firstLines limit (bytes ++ more) = firstLines limit bytes := by
  have same := take_linesOf enough []
  rw [List.append_nil] at same
  rw [firstLines, firstLines, take_linesOf enough, same]

/-- A reader that has not gone further than its limit gives the first lines. -/
theorem Progress.finish_after (fits : (lineEnds bytes).length ≤ limit) :
    ((after bytes).finish limit).map lineText = firstLines limit bytes := by
  rw [firstLines]
  congr 1
  have few := fits
  rw [← lines_after, ← List.length_reverse] at few
  rw [finish, linesOf_eq]
  by_cases empty : (after bytes).pending = []
  · rw [if_neg fun both => both.2 empty, if_pos empty, List.append_nil, List.take_of_length_le few]
  · rw [if_neg empty]
    by_cases room : (after bytes).lines.length < limit
    · rw [if_pos ⟨room, empty⟩, List.take_of_length_le (by simpa using Nat.succ_le_of_lt room)]
      simp [endLine]
    · rw [if_neg fun both => room both.1, List.take_append_of_le_length (by simpa using room),
        List.take_of_length_le few]

theorem Progress.feed_after (few : (lineEnds before).length < limit) (bytes : Bytes) :
    ∃ taken, (after before).feed limit bytes = (after (before ++ bytes.take taken), taken) ∧
      taken ≤ bytes.length ∧ Within limit (before ++ bytes.take taken) ∧
      (limit ≤ (lineEnds (before ++ bytes.take taken)).length ∨ taken = bytes.length) := by
  induction bytes generalizing before with
  | nil => exact ⟨0, by simp [feed], Nat.le_refl 0, by simpa using within_of_lt few, .inr rfl⟩
  | cons byte rest ih =>
    rw [feed, ← after_concat, lines_after]
    by_cases full : limit ≤ (lineEnds (before ++ [byte])).length
    · rw [if_pos full]
      exact ⟨1, by simp, by simp, by simpa using within_concat few byte, .inl (by simpa using full)⟩
    · rw [if_neg full]
      obtain ⟨taken, ran, inside, within, stops⟩ := ih (Nat.lt_of_not_le full)
      rw [List.append_assoc, List.singleton_append, ← List.take_succ_cons] at ran within stops
      exact ⟨taken + 1, by rw [ran], Nat.succ_le_succ inside, within, stops.imp_right (congrArg (· + 1))⟩

/-- What reading gives: the first lines, or the failure if it comes before they are complete. -/
def outcome (limit : Nat) (content : Bytes) (fault? : Option ε) : Except ε (List Text) :=
  match fault? with
  | none => .ok (firstLines limit content)
  | some cause =>
    if (lineEnds content).length < limit then .error cause else .ok (firstLines limit content)

theorem outcome_full (enough : limit ≤ (lineEnds bytes).length) (more : Bytes) (fault? : Option ε) :
    outcome limit (bytes ++ more) fault? = .ok (firstLines limit bytes) := by
  have still := Nat.not_lt_of_le (enough.trans (lineEnds_extended bytes more).length_le)
  cases fault? with
  | none => rw [outcome, firstLines_append enough]
  | some cause => rw [outcome, if_neg still, firstLines_append enough]

/-- A reader that has consumed `before` goes on as if it had met everything at once. -/
theorem readFrom_after (failure : Option ε) (within : Within limit before) (chunks : List Bytes) :
    ∃ answer, readFrom limit failure (.after before) before.length chunks =
        (answer, reach limit (before ++ (Input.mk chunks failure).content)) ∧
      answer.map (·.map lineText) =
        outcome limit (before ++ (Input.mk chunks failure).content) (Input.mk chunks failure).fault? := by
  induction chunks generalizing before with
  | nil =>
    have reached := within.reach
    have whole : before ++ (Input.mk [] failure).content = before := List.append_nil before
    have fault : (Input.mk [] failure).fault? = failure := rfl
    rw [whole, fault, readFrom.eq_def, Progress.lines_after]
    by_cases full : limit ≤ (lineEnds before).length
    · rw [if_pos full, reached]
      refine ⟨_, rfl, ?_⟩
      rw [Except.map, Progress.finish_after within.ends, ← outcome_full full [], List.append_nil]
    · rw [if_neg full, reached]
      cases failure with
      | none => exact ⟨_, rfl, congrArg _ (Progress.finish_after within.ends)⟩
      | some cause => exact ⟨_, rfl, (if_pos (Nat.lt_of_not_le full)).symm⟩
  | cons chunk chunks ih =>
    rw [readFrom.eq_def]
    dsimp only
    rw [Progress.lines_after]
    by_cases full : limit ≤ (lineEnds before).length
    · rw [if_pos (.inl full), reach_append full, within.reach, outcome_full full]
      exact ⟨_, rfl, congrArg _ (Progress.finish_after within.ends)⟩
    by_cases empty : chunk = []
    · have whole : before ++ (Input.mk (chunk :: chunks) failure).content = before := by
        simp [Input.content, empty]
      have fault : (Input.mk (chunk :: chunks) failure).fault? = none := by simp [Input.fault?, empty]
      rw [if_pos (.inr empty), whole, fault, within.reach]
      exact ⟨_, rfl, congrArg _ (Progress.finish_after within.ends)⟩
    · obtain ⟨taken, ran, inside, further, stops⟩ := Progress.feed_after (Nat.lt_of_not_le full) chunk
      have consumed : before.length + taken = (before ++ chunk.take taken).length := by
        rw [List.length_append, List.length_take_of_le inside]
      have split : ∀ content, before ++ (chunk ++ content) =
          before ++ chunk.take taken ++ (chunk.drop taken ++ content) := by
        intro content
        rw [List.append_assoc, ← List.append_assoc (chunk.take taken), List.take_append_drop]
      rw [if_neg (not_or.mpr ⟨full, empty⟩), ran]
      dsimp only
      rw [consumed, Input.content_cons empty, Input.fault?_cons empty, split]
      obtain ⟨answer, rest, result⟩ := ih further
      rw [rest]
      rcases stops with enough | all
      -- The lines are complete: nothing that follows is looked at.
      · rw [reach_append enough, reach_append enough, outcome_full enough]
        exact ⟨answer, rfl, result.trans (outcome_full enough ..)⟩
      · rw [all, List.drop_length, List.nil_append]
        rw [all] at result
        exact ⟨answer, rfl, result⟩

example : read 2 (⟨[[0x61, 0x0D], [0x0A, 0x62], [0x0D], [0x0A, 0x63]], some ()⟩ : Input Unit) =
    (.ok [['a'], ['b']], 5) := by
  decide

end Head
end SourceIndex
