import SourceIndex.Proofs.LineScan
import SourceIndex.Proofs.SnippetShape

/-! A snippet has itself as its snippet. A comment in one line is found again as a whole; of a
block that was cut the opening mark is left without a closing one, so it is plain text; and first
visible lines hold no comment once they stand in a row, because the separator has no part in a
mark: an opening mark and a closing one behind it would stand in the lines themselves, in the same
order (`holdsBlock_join_iff`). -/
namespace SourceIndex

namespace Text

variable {text before after rest separator mark : Text} {texts : List Text} {x y : Char}

/-- What ends a text behind its last visible character. -/
theorem exists_blanks (text : Text) : ∃ blanks, Blank blanks ∧ trimEnd text ++ blanks = text := by
  refine ⟨(text.reverse.takeWhile isBlank).reverse, ?_, ?_⟩
  · intro char member
    exact List.mem_takeWhile_imp (List.mem_reverse.mp member)
  · rw [trimEnd, ← List.reverse_append, List.takeWhile_append_dropWhile, List.reverse_reverse]

/-- Trimming the end leaves a visible mark in front alone. -/
theorem prefix_trimEnd (visible : ∀ char ∈ mark, isBlank char = false) (front : mark <+: text) :
    mark <+: trimEnd text := by
  obtain ⟨blanks, blank, whole⟩ := exists_blanks text
  rcases List.prefix_or_prefix_of_prefix front (trimEnd_prefix_self text) with within | ⟨extra, rfl⟩
  · exact within
  · have within : extra <+: blanks :=
      (List.prefix_append_right_inj _).mp (front.trans ⟨[], by rw [whole, List.append_nil]⟩)
    cases extra with
    | nil => simp
    | cons char extra =>
      have shown := visible char (by simp)
      rw [blank char (within.subset List.mem_cons_self)] at shown
      cases shown

theorem trimStart_eq_self (front : ∀ char, text.head? = some char → isBlank char = false) :
    trimStart text = text := by
  cases text with
  | nil => rfl
  | cons char rest => exact List.dropWhile_cons_of_neg (by simp [front char rfl])

/-- Two characters in a row, neither of which the separator holds, stand in front of it or behind it. -/
theorem split_mark (apart : x ∉ separator ∧ y ∉ separator) (some : separator ≠ [])
    (whole : text ++ separator ++ rest = before ++ x :: y :: after) :
    (∃ more, text = before ++ x :: y :: more ∧ more ++ separator ++ rest = after) ∨
      ∃ more, before = text ++ separator ++ more ∧ rest = more ++ x :: y :: after := by
  obtain ⟨char, others, rfl⟩ := List.exists_cons_of_ne_nil some
  rw [List.append_assoc] at whole
  rcases List.append_eq_append_iff.mp whole with ⟨more, rfl, tail⟩ | ⟨more, rfl, tail⟩
  · rcases List.append_eq_append_iff.mp tail with ⟨further, rfl, behind⟩ | ⟨further, split, behind⟩
    · exact .inr ⟨further, (List.append_assoc ..).symm, behind⟩
    · cases further with
      | nil =>
        rw [List.append_nil] at split
        exact .inr ⟨[], by rw [split, List.append_nil], behind.symm⟩
      | cons first further =>
        obtain ⟨rfl, -⟩ := List.cons.inj behind
        exact absurd (by simp [split]) apart.1
  · match more with
    | [] =>
      obtain ⟨rfl, -⟩ := List.cons.inj tail
      exact absurd List.mem_cons_self apart.1
    | [first] =>
      obtain ⟨rfl, behind⟩ := List.cons.inj tail
      obtain ⟨rfl, -⟩ := List.cons.inj behind
      exact absurd List.mem_cons_self apart.2
    | first :: second :: more =>
      obtain ⟨rfl, behind⟩ := List.cons.inj tail
      obtain ⟨rfl, rfl⟩ := List.cons.inj behind
      exact .inl ⟨more, rfl, List.append_assoc ..⟩

theorem infix_join_of_mem (separator : Text) (member : text ∈ texts) : text <:+: join separator texts := by
  induction texts with
  | nil => cases member
  | cons first others ih =>
    by_cases alone : others = []
    · subst alone
      cases List.mem_singleton.mp member
      simp [join]
    · rw [join_cons alone]
      rcases List.mem_cons.mp member with rfl | later
      · exact ((List.prefix_append ..).trans (List.prefix_append ..)).isInfix
      · exact (ih later).trans (List.suffix_append ..).isInfix

/-- Such characters in a row of texts stand in one of them. -/
theorem infix_of_join (apart : x ∉ separator ∧ y ∉ separator) (some : separator ≠ [])
    (inside : [x, y] <:+: join separator texts) : ∃ text ∈ texts, [x, y] <:+: text := by
  induction texts with
  | nil => simp [join] at inside
  | cons text others ih =>
    by_cases alone : others = []
    · subst alone
      exact ⟨text, List.mem_cons_self, by simpa [join] using inside⟩
    rw [join_cons alone] at inside
    obtain ⟨before, after, whole⟩ := inside
    rw [List.append_assoc] at whole
    rcases split_mark apart some whole.symm with ⟨more, rfl, -⟩ | ⟨more, -, behind⟩
    · exact ⟨_, List.mem_cons_self, before, more, by simp⟩
    · obtain ⟨text, member, held⟩ := ih ⟨more, after, by simp [behind]⟩
      exact ⟨text, List.mem_cons_of_mem _ member, held⟩

end Text

namespace Comment

/-- An opening mark and a closing one behind it. -/
def HoldsBlock (text : Text) : Prop :=
  ∃ before inside after, text = before ++ '/' :: '*' :: (inside ++ '*' :: '/' :: after)

/-- An opening mark in one of some texts, and behind it a closing one, there or in a later text. -/
inductive Across : List Text → Prop where
  | inside : HoldsBlock text → Across (text :: rest)
  | between : ['/', '*'] <:+: text → other ∈ rest → ['*', '/'] <:+: other → Across (text :: rest)
  | later : Across rest → Across (text :: rest)

variable {text part mark separator : Text} {lines texts others : List Text} {start stop place : Nat}

theorem HoldsBlock.mono (holds : HoldsBlock part) (inside : part <:+: text) : HoldsBlock text := by
  obtain ⟨before, middle, after, rfl⟩ := holds
  obtain ⟨front, back, rfl⟩ := inside
  exact ⟨front ++ before, middle, after ++ back, by simp⟩

/-- There is a block comment exactly where an opening mark has a closing one behind it. -/
theorem exists_blockAt_iff : (∃ start stop, BlockAt text start stop) ↔ HoldsBlock text := by
  constructor
  · rintro ⟨start, stop, ⟨more, opens⟩, close, behind, ⟨after, closes⟩, -⟩
    obtain ⟨offset, rfl⟩ := Nat.exists_eq_add_of_le behind
    have tail : more.drop offset = ['*', '/'] ++ after := by
      rw [closes, ← List.drop_drop, ← List.drop_drop, ← opens]
      rfl
    refine ⟨text.take start, more.take offset, after, ?_⟩
    have whole := List.take_append_drop offset more
    rw [tail] at whole
    calc text = text.take start ++ text.drop start := (List.take_append_drop ..).symm
      _ = text.take start ++ (['/', '*'] ++ more) := by rw [opens]
      _ = text.take start ++ (['/', '*'] ++ (more.take offset ++ (['*', '/'] ++ after))) := by rw [whole]
  · rintro ⟨before, inside, after, rfl⟩
    have opens : Stands ['/', '*'] (before ++ '/' :: '*' :: (inside ++ '*' :: '/' :: after)) before.length := by
      rw [Stands, List.drop_left]
      exact ⟨_, rfl⟩
    have closes : Stands ['*', '/'] (before ++ '/' :: '*' :: (inside ++ '*' :: '/' :: after))
        (before.length + 2 + inside.length) := by
      rw [Stands, ← List.drop_drop, ← List.drop_drop, List.drop_left]
      exact ⟨after, by simp⟩
    obtain ⟨close, -, found⟩ := exists_placeOf? (by decide) (Nat.le_add_right ..) closes
    obtain ⟨behind, here, first⟩ := (placeOf?_eq_some_iff (by decide)).mp found
    exact ⟨before.length, close + 2, opens, close, behind, here, first, rfl⟩

theorem Across.sublist (across : Across texts) (inside : texts.Sublist others) : Across others := by
  induction inside with
  | slnil => exact across
  | cons text _ ih => exact .later (ih across)
  | cons_cons text inside ih =>
    cases across with
    | inside holds => exact .inside holds
    | between opens member closes => exact .between opens (inside.subset member) closes
    | later across => exact .later (ih across)

theorem Across.of_trim (across : Across (lines.map Text.trim)) : Across lines := by
  have part : ∀ line, Text.trim line <:+: line := fun line =>
    (Text.trimEnd_prefix_self _).isInfix.trans (List.dropWhile_suffix Text.isBlank).isInfix
  induction lines with
  | nil => cases across
  | cons line lines ih =>
    cases across with
    | inside holds => exact .inside (holds.mono (part line))
    | between opens member closes =>
      obtain ⟨other, held, rfl⟩ := List.mem_map.mp member
      exact .between (opens.trans (part line)) held (closes.trans (part other))
    | later across => exact .later (ih across)

/-- Putting texts in a row neither makes nor breaks a block, whatever is put between them, if this has
no part in the marks. -/
theorem holdsBlock_join_iff (apart : '/' ∉ separator ∧ '*' ∉ separator) (some : separator ≠ []) :
    HoldsBlock (Text.join separator texts) ↔ Across texts := by
  constructor
  · intro holds
    induction texts with
    | nil =>
      obtain ⟨before, inside, after, whole⟩ := holds
      simp [Text.join] at whole
    | cons text rest ih =>
      by_cases alone : rest = []
      · subst alone
        exact .inside (by simpa [Text.join] using holds)
      obtain ⟨before, inside, after, whole⟩ := holds
      rw [Text.join_cons alone] at whole
      rcases Text.split_mark apart some whole with ⟨more, rfl, tail⟩ | ⟨more, -, tail⟩
      · rcases Text.split_mark apart.symm some tail with ⟨further, rfl, -⟩ | ⟨further, -, tail⟩
        · exact .inside ⟨before, inside, further, rfl⟩
        · obtain ⟨other, member, closes⟩ : ∃ other ∈ rest, ['*', '/'] <:+: other :=
            Text.infix_of_join apart.symm some ⟨further, after, by simp [tail]⟩
          exact .between ⟨before, more, by simp⟩ member closes
      · exact .later (ih ⟨more, inside, after, tail⟩)
  · intro across
    induction across with
    | inside holds => exact holds.mono (Text.infix_join_of_mem separator List.mem_cons_self)
    | between opens member closes =>
      obtain ⟨before, more, rfl⟩ := opens
      obtain ⟨front, after, whole⟩ := closes.trans (Text.infix_join_of_mem separator member)
      rw [Text.join_cons (List.ne_nil_of_mem member), ← whole]
      exact ⟨before, more ++ separator ++ front, after, by simp⟩
    | later across ih =>
      rw [Text.join_cons (by rintro rfl; cases across)]
      exact ih.mono (List.suffix_append ..).isInfix

/-! ### Comments of a single line -/

/-- A line comment in one line that begins with its mark is all of the line. -/
theorem first?_of_mark (single : '\n' ∉ text) (known : LineMark mark) (front : mark <+: text) :
    first? text = some text := by
  have visible : visibleFrom text 0 = 0 := by
    obtain ⟨more, rfl⟩ := front
    rcases known with rfl | rfl
    · exact visibleFrom_visible rfl (by decide)
    · exact visibleFrom_visible rfl (by decide)
  have unbroken : ∀ char ∈ text.drop mark.length, (char != '\n') = true := by
    intro char member
    rw [bne_iff_ne]
    rintro rfl
    exact single (List.mem_of_mem_drop member)
  have ends : text.length = lineStop text (0 + mark.length) := by
    rw [Nat.zero_add, lineStop, List.takeWhile_eq_self_iff.mpr unbroken, List.length_drop,
      Nat.add_sub_cancel' front.length_le]
  have comment : LineCommentAt mark text 0 text.length := by
    refine ⟨.inl rfl, ?_, by rw [visible, ← ends]⟩
    rwa [visible]
  refine first?_eq_some_iff.mpr ⟨0, text.length, ⟨Nat.le_refl 0, ?_, fun _ _ _ _ => Nat.zero_le _⟩, ?_⟩
  · exact commentAt_iff.mpr (.inr ⟨mark, known, comment⟩)
  · simp [List.extract_eq_take_drop]

/-- A single line that begins visibly, and neither with the mark of a line comment nor around a block,
has no comment. -/
theorem first?_eq_none_of_line (single : '\n' ∉ text)
    (begins : ∀ char, text.head? = some char → Text.isBlank char = false)
    (unmarked : ∀ mark, LineMark mark → ¬ mark <+: text) (unblocked : ∀ start stop, ¬ BlockAt text start stop) :
    first? text = none := by
  refine first?_eq_none_iff.mpr fun start stop comment => ?_
  rcases commentAt_iff.mp comment with block | ⟨mark, known, lineStart, stands, -⟩
  · exact unblocked start stop block
  obtain rfl : start = 0 := by
    rcases lineStart with top | ended
    · exact top
    · exact absurd (List.mem_of_getElem? ended) single
  refine unmarked mark known ?_
  cases text with
  | nil =>
    rcases known with rfl | rfl <;> simp [Stands] at stands
  | cons char rest =>
    have front : visibleFrom (char :: rest) 0 = 0 := visibleFrom_visible rfl (begins char rfl)
    rwa [front] at stands

end Comment

namespace Snippet
open Comment

variable {lines : List Text} {text mark : Text} {start stop place : Nat}

theorem newline_not_mem_flatten (text : Text) : '\n' ∉ flatten text := by
  intro member
  obtain ⟨char, -, shown⟩ := List.mem_map.mp member
  split at shown
  · cases shown
  · rename_i other
    exact other shown

theorem newline_not_mem_fallback (single : ∀ line ∈ lines, '\n' ∉ line) : '\n' ∉ fallback lines := by
  intro member
  rcases Text.mem_join member with mark | ⟨text, held, inside⟩
  · revert mark
    decide
  · obtain ⟨line, there, rfl⟩ := List.mem_map.mp (List.mem_filter.mp (List.mem_of_mem_take held)).1
    exact single line there (Text.trim_subset line inside)

theorem newline_not_mem_ofLines (single : ∀ line ∈ lines, '\n' ∉ line) : '\n' ∉ ofLines lines := by
  intro member
  rw [ofLines] at member
  split at member
  · exact newline_not_mem_flatten _ (List.mem_of_mem_take member)
  · exact newline_not_mem_fallback single (List.mem_of_mem_take member)

/-- Flattening neither makes nor breaks a mark without blanks. -/
theorem prefix_flatten_iff (plain : ∀ char ∈ mark, char ≠ ' ' ∧ char ≠ '\n') :
    mark <+: flatten text ↔ mark <+: text := by
  induction mark generalizing text with
  | nil => simp
  | cons char mark ih =>
    obtain ⟨⟨noSpace, noNewline⟩, rest⟩ := List.forall_mem_cons.mp plain
    cases text with
    | nil => simp [flatten]
    | cons first text =>
      have same : char = (if first = '\n' then ' ' else first) ↔ char = first := by
        by_cases broken : first = '\n'
        · simp [broken, noSpace, noNewline]
        · rw [if_neg broken]
      rw [flatten, List.map_cons, List.cons_prefix_cons, List.cons_prefix_cons, same]
      exact and_congr_right fun _ => ih rest

/-- The marks of a block in the snippet that is cut from a part of a text. -/
theorem stands_cut (spelled : mark ≠ []) (plain : ∀ char ∈ mark, char ≠ ' ' ∧ char ≠ '\n') :
    Stands mark ((flatten (text.extract start stop)).take maxLength) place ↔
      Stands mark text (start + place) ∧ place + mark.length ≤ stop - start ∧
        place + mark.length ≤ maxLength := by
  have size := List.length_pos_iff.mpr spelled
  rw [Stands, List.drop_take, List.prefix_take_iff, flatten, ← List.map_drop, ← flatten,
    prefix_flatten_iff plain, List.extract_eq_take_drop, List.drop_take, List.prefix_take_iff, Stands,
    List.drop_drop, and_assoc]
  refine and_congr_right fun _ => and_congr ?_ ?_ <;> omega

section Block
variable (block : BlockAt text start stop)
include block

theorem opens_cut : ['/', '*'] <+: (flatten (text.extract start stop)).take maxLength := by
  obtain ⟨opens, close, behind, -, -, rfl⟩ := block
  have limit : maxLength = 400 := rfl
  change Stands ['/', '*'] _ 0
  refine (stands_cut (by simp) (by simp)).mpr ⟨opens, ?_, ?_⟩
  · simp only [List.length_cons, List.length_nil]
    omega
  · simp [limit]

/-- A block that was cut is not closed any more. -/
theorem first?_long (long : maxLength < stop - start) :
    first? ((flatten (text.extract start stop)).take maxLength) = none := by
  obtain ⟨more, begun⟩ := opens_cut block
  obtain ⟨-, close, behind, closes, first, rfl⟩ := block
  refine first?_eq_none_of_line (fun member => newline_not_mem_flatten _ (List.mem_of_mem_take member)) ?_ ?_ ?_
  · rw [← begun]
    rintro char ⟨⟩
    decide
  · rw [← begun]
    rintro mark (rfl | rfl) front <;> simp at front
  · rintro other last ⟨-, place, after, ends, -⟩
    obtain ⟨there, -, within⟩ := (stands_cut (by simp) (by simp)).mp ends
    -- The snippet ends in front of the first closing mark, so none stands in it.
    have before : ¬ start + place < close := fun less => first _ (by omega) less there
    simp only [List.length_cons, List.length_nil] at within
    omega

/-- A block that fits is found again. -/
theorem first?_short (short : stop - start ≤ maxLength) :
    first? ((flatten (text.extract start stop)).take maxLength) =
      some ((flatten (text.extract start stop)).take maxLength) := by
  have opens := opens_cut block
  obtain ⟨-, close, behind, closes, first, rfl⟩ := block
  have inside := lt_of_stands (stands_cons.mp closes).2
  have size : ((flatten (text.extract start (close + 2))).take maxLength).length = close + 2 - start := by
    rw [List.length_take, flatten, List.length_map, List.extract_eq_take_drop, List.length_take,
      List.length_drop]
    omega
  have plain : ∀ char ∈ ['*', '/'], char ≠ ' ' ∧ char ≠ '\n' := by simp
  have ends : Stands ['*', '/'] ((flatten (text.extract start (close + 2))).take maxLength) (close - start) := by
    refine (stands_cut (by simp) plain).mpr ⟨?_, ?_, ?_⟩
    · rwa [Nat.add_sub_cancel' (by omega)]
    · simp only [List.length_cons, List.length_nil]
      omega
    · simp only [List.length_cons, List.length_nil]
      omega
  have again : BlockAt ((flatten (text.extract start (close + 2))).take maxLength) 0 (close + 2 - start) := by
    refine ⟨opens, close - start, by omega, ends, fun place after before here => ?_, by omega⟩
    exact first (start + place) (by omega) (by omega) ((stands_cut (by simp) plain).mp here).1
  refine first?_eq_some_iff.mpr ⟨0, _, ⟨Nat.le_refl 0, ⟨.block, again⟩, fun _ _ _ _ => Nat.zero_le _⟩, ?_⟩
  exact (List.take_of_length_le (Nat.le_of_eq size)).symm

end Block

/-- A line comment is found again, however it was cut. -/
theorem first?_line (single : ∀ line ∈ lines, '\n' ∉ line) (known : LineMark mark)
    (comment : LineCommentAt mark (rowOf lines) start stop) :
    first? ((flatten (Text.trim ((rowOf lines).extract start stop))).take maxLength) =
      some ((flatten (Text.trim ((rowOf lines).extract start stop))).take maxLength) := by
  obtain ⟨index, before, line, behind, row, front, -, same⟩ := comment.row single known
  have unbroken := row.unbroken single
  have plain : '\n' ∉ Text.trim line := fun member => unbroken (Text.trim_subset line member)
  have visible : ∀ char ∈ mark, Text.isBlank char = false := by
    have hash : Text.isBlank '#' = false := by decide
    have slash : Text.isBlank '/' = false := by decide
    rcases known with rfl | rfl
    · simp [hash]
    · simp [slash]
  have short : mark.length ≤ maxLength := by
    rcases known with rfl | rfl <;> decide
  rw [row.trim_extract unbroken (visible_of_mark known front) known comment same, flatten_eq_self plain]
  refine first?_of_mark (fun member => plain (List.mem_of_mem_take member)) known ?_
  exact List.prefix_take_iff.mpr ⟨Text.prefix_trimEnd visible front, short⟩

/-- A mark in front of the visible lines is in front of one of them. -/
theorem exists_marked (known : LineMark mark) (front : mark <+: fallback lines) :
    ∃ line ∈ lines, mark <+: Text.trimStart line := by
  rw [fallback] at front
  have kept : ∀ text ∈ ((lines.map Text.trim).filter (· ≠ [])).take fallbackLines,
      ∃ line ∈ lines, Text.trim line = text := fun text member =>
    List.mem_map.mp (List.mem_filter.mp (List.mem_of_mem_take member)).1
  generalize ((lines.map Text.trim).filter (· ≠ [])).take fallbackLines = texts at front kept
  cases texts with
  | nil =>
    rcases known with rfl | rfl <;> simp [Text.join] at front
  | cons text rest =>
    have within : mark <+: text := by
      by_cases alone : rest = []
      · simpa [alone, Text.join] using front
      · rw [Text.join_cons alone, List.append_assoc] at front
        have unspaced : ' ' ∉ mark := by
          rcases known with rfl | rfl <;> decide
        exact prefix_line unspaced (.inr rfl) front
    obtain ⟨line, member, rfl⟩ := kept text List.mem_cons_self
    exact ⟨line, member, within.trans (Text.trimEnd_prefix_self _)⟩

/-- Lines without a comment have none when the first visible ones are put in a row. -/
theorem first?_fallback (single : ∀ line ∈ lines, '\n' ∉ line) (none : first? (rowOf lines) = none) :
    first? ((fallback lines).take maxLength) = Option.none := by
  have nowhere := first?_eq_none_iff.mp none
  have plain := newline_not_mem_fallback single
  refine first?_eq_none_of_line (fun member => plain (List.mem_of_mem_take member)) ?_ ?_ ?_
  · intro char first
    rw [List.head?_take, if_neg (by decide)] at first
    exact (fallback_trimmed lines).front char first
  · intro mark known front
    obtain ⟨line, member, marked⟩ := exists_marked known (front.trans (List.take_prefix ..))
    obtain ⟨index, held⟩ := List.getElem?_of_mem member
    obtain ⟨before, behind, row⟩ := exists_row single held
    obtain ⟨stop, comment⟩ := row.lineCommentAt known marked
    exact nowhere _ _ (commentAt_iff.mpr (.inr ⟨mark, known, comment⟩))
  · intro start stop block
    have shown : HoldsBlock (fallback lines) :=
      (exists_blockAt_iff.mp ⟨start, stop, block⟩).mono (List.take_prefix ..).isInfix
    have across := (holdsBlock_join_iff (by decide) (by decide)).mp shown
    have inLines := (across.sublist ((List.take_sublist ..).trans List.filter_sublist)).of_trim
    have held : HoldsBlock (rowOf lines) := (holdsBlock_join_iff (by decide) (by decide)).mpr inLines
    obtain ⟨first, last, there⟩ := exists_blockAt_iff.mpr held
    exact nowhere first last ⟨.block, there⟩

/-- A line that is one comment or none at all is its own snippet, but for blanks at its end. -/
theorem ofLines_single (single : '\n' ∉ text) (short : text.length ≤ maxLength)
    (begins : ∀ char, text.head? = some char → Text.isBlank char = false)
    (found : first? text = none ∨ first? text = some text) : ofLines [text] = Text.trimEnd text := by
  have trimmed : Text.trim text = Text.trimEnd text := by
    rw [Text.trim, Text.trimStart_eq_self begins]
  have fits : Text.truncate maxLength (Text.trimEnd text) = Text.trimEnd text :=
    List.take_of_length_le ((Text.trimEnd_prefix_self text).length_le.trans short)
  have plain : '\n' ∉ Text.trimEnd text := fun member => single (Text.trimEnd_subset text member)
  have alone : Text.join ['\n'] [text] = text := by simp [Text.join]
  rw [ofLines, alone]
  rcases found with none | whole
  · have row : fallback [text] = Text.trimEnd text := by
      by_cases empty : Text.trimEnd text = []
      · simp [fallback, trimmed, empty, Text.join]
      · simp [fallback, trimmed, empty, fallbackLines, Text.join]
    rw [none]
    exact (congrArg (Text.truncate maxLength) row).trans fits
  · rw [whole]
    dsimp only
    rw [trimmed, flatten_eq_self plain, fits]

/-- A snippet has itself as its snippet, but for blanks at its end. A comment is found again as a
whole; only a block that was cut is none any more, and the first visible lines do not become one. -/
theorem ofLines_again (lines : List Text) (single : ∀ line ∈ lines, '\n' ∉ line) :
    ofLines [ofLines lines] = Text.trimEnd (ofLines lines) ∧
      (first? (rowOf lines) = none → first? (ofLines lines) = none) ∧
      ∀ kind start stop, Leftmost (rowOf lines) start stop → MatchesAt kind (rowOf lines) start stop →
        first? (ofLines lines) =
          if kind = .block ∧ 400 < stop - start then none else some (ofLines lines) := by
  have plain : first? (rowOf lines) = none → first? (ofLines lines) = none := by
    intro none
    rw [ofLines, none]
    exact first?_fallback single none
  have comments : ∀ kind start stop, Leftmost (rowOf lines) start stop →
      MatchesAt kind (rowOf lines) start stop → first? (ofLines lines) =
        if kind = .block ∧ 400 < stop - start then none else some (ofLines lines) := by
    intro kind start stop leftmost comment
    rw [ofLines_of_leftmost leftmost]
    cases kind with
    | block =>
      rw [trim_block comment]
      split
      · rename_i long
        exact first?_long comment long.2
      · rename_i fits
        exact first?_short comment (Nat.le_of_not_lt fun long => fits ⟨rfl, long⟩)
    | hash => exact first?_line single (.inl rfl) comment
    | slashes => exact first?_line single (.inr rfl) comment
  refine ⟨?_, plain, comments⟩
  obtain ⟨whole, cut, trimmed, -⟩ := ofLines_cut lines
  have short : (ofLines lines).length ≤ maxLength := by
    rw [cut]
    exact List.length_take_le ..
  have begins : ∀ char, (ofLines lines).head? = some char → Text.isBlank char = false := by
    intro char first
    rw [cut, Text.truncate, List.head?_take, if_neg (by decide)] at first
    exact trimmed.front char first
  refine ofLines_single (newline_not_mem_ofLines single) short begins ?_
  cases found : first? (rowOf lines) with
  | none => exact .inl (plain found)
  | some comment =>
    obtain ⟨start, stop, leftmost, -⟩ := first?_eq_some_iff.mp found
    obtain ⟨kind, here⟩ := leftmost.comment
    rw [comments kind start stop leftmost here]
    split
    · exact .inl rfl
    · exact .inr rfl

/-- Of a block that is cut inside a wide gap only the opening mark stays visible. -/
theorem ofLines_again_gap :
    let lines := [['/', '*'], List.replicate 398 ' ', ['x', '*', '/']]
    (∀ line ∈ lines, '\n' ∉ line) ∧ ofLines lines = '/' :: '*' :: List.replicate 398 ' ' ∧
      ofLines [ofLines lines] = ['/', '*'] := by
  intro lines
  have single : ∀ line ∈ lines, '\n' ∉ line := by decide +kernel
  exact ⟨single, by decide +kernel, (ofLines_again lines single).1.trans (by decide +kernel)⟩

end Snippet
end SourceIndex
