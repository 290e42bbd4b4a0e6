import Mathlib.Data.List.DropRight
import Mathlib.Data.List.Infix
import Mathlib.Data.List.TakeWhile
import SourceIndex.Proofs.CommentMatches
import SourceIndex.Proofs.SnippetLines
import SourceIndex.Snippet

/-! The search for a comment line by line. The search looks at places of one text, the lines put
in a row; what it finds can be told from the first line that is a comment and the line of the
first `/*`, if that is closed (`ofLines_by_line`). A match may start on blank lines above its
mark, so a line comment and its line are compared by the place where they become visible. -/
namespace SourceIndex
namespace Comment

/-- The lines in a row, with a line end between neighbours. -/
abbrev rowOf (lines : List Text) : Text := Text.join ['\n'] lines

/-- The line that holds this place: there are as many line ends before it. -/
def lineOf (text : Text) (place : Nat) : Nat := (text.take place).count '\n'

/-- The first place from `start` on where `mark` stands. -/
def placeOf? (mark text : Text) (start : Nat) : Option Nat :=
  (List.range' start (text.length - start)).find? fun place => mark.isPrefixOf (text.drop place)

/-- The first `/*` of a text if there is a `*/` behind it: its line, and the text from there
through the first such `*/`. -/
def opened? (text : Text) : Option (Nat × Text) :=
  match placeOf? ['/', '*'] text 0 with
  | none => none
  | some start =>
    (placeOf? ['*', '/'] text (start + 2)).map fun close =>
      (lineOf text start, text.extract start (close + 2))

/-- The first visible characters of the line are `#` or `//`. -/
def marked (line : Text) : Bool :=
  ['#'].isPrefixOf (Text.trimStart line) || ['/', '/'].isPrefixOf (Text.trimStart line)

/-- A line in a row of lines: its number, and what stands before and behind it. -/
structure Row (lines : List Text) (index : Nat) (before line behind : Text) : Prop where
  whole : rowOf lines = before ++ line ++ behind
  held : lines[index]? = some line
  number : before.count '\n' = index
  begins : before = [] ∨ before.getLast? = some '\n'
  ends : behind = [] ∨ behind.head? = some '\n'

variable {text line before behind mark : Text} {lines : List Text} {index start stop place : Nat}

/-! ### The first place of a mark -/

theorem placeOf?_eq_some_iff (spelled : mark ≠ []) : placeOf? mark text start = some place ↔
    start ≤ place ∧ Stands mark text place ∧
      ∀ earlier, start ≤ earlier → earlier < place → ¬ Stands mark text earlier := by
  have within : Stands mark text place → place < text.length := by
    cases mark with
    | nil => exact absurd rfl spelled
    | cons char mark => exact lt_of_stands
  simp only [placeOf?, List.find?_range'_eq_some, List.isPrefixOf_iff_prefix, List.mem_range'_1,
    Bool.not_eq_true', Bool.eq_false_iff, ne_eq, ← Stands.eq_def]
  constructor
  · rintro ⟨here, ⟨after, -⟩, first⟩
    exact ⟨after, here, first⟩
  · rintro ⟨after, here, first⟩
    have := within here
    exact ⟨here, ⟨after, by omega⟩, first⟩

theorem exists_placeOf? (spelled : mark ≠ []) (after : start ≤ place) (here : Stands mark text place) :
    ∃ first ≤ place, placeOf? mark text start = some first := by
  obtain ⟨first, within, least⟩ :=
    exists_minimal_le_of_wellFoundedLT (fun place => start ≤ place ∧ Stands mark text place) place ⟨after, here⟩
  refine ⟨first, within, (placeOf?_eq_some_iff spelled).mpr ⟨least.prop.1, least.prop.2, ?_⟩⟩
  exact fun earlier later before there => least.not_prop_of_lt before ⟨later, there⟩

theorem opened?_eq_some {number : Nat} {block : Text} (found : opened? text = some (number, block)) :
    ∃ start stop, BlockAt text start stop ∧ (∀ earlier < start, ¬ Stands ['/', '*'] text earlier) ∧
      number = lineOf text start ∧ block = text.extract start stop := by
  unfold opened? at found
  cases first : placeOf? ['/', '*'] text 0 with
  | none =>
    rw [first] at found
    cases found
  | some start =>
    rw [first] at found
    obtain ⟨close, closed, same⟩ := Option.map_eq_some_iff.mp found
    cases same
    obtain ⟨-, opens, none⟩ := (placeOf?_eq_some_iff (by decide)).mp first
    obtain ⟨after, closes, earliest⟩ := (placeOf?_eq_some_iff (by decide)).mp closed
    exact ⟨start, close + 2, ⟨opens, close, after, closes, earliest, rfl⟩,
      fun earlier => none earlier (Nat.zero_le _), rfl, rfl⟩

theorem lineOf_mono {first second : Nat} (ordered : first ≤ second) : lineOf text first ≤ lineOf text second :=
  (List.take_prefix_take_left ordered).sublist.count_le _

/-- Any block comment closes the first `/*` too. -/
theorem opened?_of_blockAt (block : BlockAt text start stop) :
    ∃ number found, opened? text = some (number, found) ∧ number ≤ lineOf text start := by
  obtain ⟨opens, close, after, closes, -, -⟩ := block
  obtain ⟨first, within, begun⟩ := exists_placeOf? (by decide) (Nat.zero_le start) opens
  have behind : first + 2 ≤ close := by omega
  obtain ⟨last, -, closed⟩ := exists_placeOf? (by decide) behind closes
  refine ⟨lineOf text first, text.extract first (last + 2), ?_, lineOf_mono within⟩
  rw [opened?, begun]
  exact congrArg (Option.map _) closed

theorem marked_iff : marked line = true ↔ ∃ mark, LineMark mark ∧ mark <+: Text.trimStart line := by
  simp [marked]

theorem visible_of_mark (known : LineMark mark) (front : mark <+: Text.trimStart line) :
    Text.trimStart line ≠ [] := by
  rintro hidden
  rw [hidden, List.prefix_nil] at front
  rcases known with rfl | rfl <;> cases front

/-! ### Lines in a row -/

theorem rowOf_cons_cons (first second : Text) (rest : List Text) :
    rowOf (first :: second :: rest) = first ++ '\n' :: rowOf (second :: rest) := by
  simp [rowOf, Text.join, List.intercalate_cons_cons]

/-- A line of one row is a line of the longer one. -/
theorem Row.cons {first : Text} (single : '\n' ∉ first) (row : Row lines index before line behind) :
    Row (first :: lines) (index + 1) (first ++ '\n' :: before) line behind where
  whole := by
    cases lines with
    | nil => cases row.held
    | cons second rest =>
      rw [rowOf_cons_cons, row.whole]
      simp
  held := row.held
  number := by
    rw [List.count_append, List.count_eq_zero_of_not_mem single, List.count_cons_self, row.number,
      Nat.zero_add]
  begins := by
    refine .inr ?_
    rw [List.getLast?_append_cons]
    rcases row.begins with rfl | ended
    · rfl
    · rw [List.getLast?_cons, ended]
      rfl
  ends := row.ends

theorem Row.head (first : Text) (rest : List Text) : ∃ behind, Row (first :: rest) 0 [] first behind := by
  cases rest with
  | nil => exact ⟨[], by simp [Text.join], rfl, rfl, .inl rfl, .inl rfl⟩
  | cons second rest =>
    exact ⟨'\n' :: rowOf (second :: rest), rowOf_cons_cons .., rfl, rfl, .inl rfl, .inr rfl⟩

theorem exists_row (single : ∀ line ∈ lines, '\n' ∉ line) (held : lines[index]? = some line) :
    ∃ before behind, Row lines index before line behind := by
  induction lines generalizing index with
  | nil => cases held
  | cons first rest ih =>
    cases index with
    | zero =>
      cases held
      obtain ⟨behind, row⟩ := Row.head line rest
      exact ⟨[], behind, row⟩
    | succ index =>
      obtain ⟨before, behind, row⟩ := ih (fun line member => single line (List.mem_cons_of_mem _ member)) held
      exact ⟨_, behind, row.cons (single first List.mem_cons_self)⟩

/-- Every place is in a line, the line end behind it included. -/
theorem exists_row_at (single : ∀ line ∈ lines, '\n' ∉ line) (inside : place < (rowOf lines).length) :
    ∃ index before line behind, Row lines index before line behind ∧
      before.length ≤ place ∧ place ≤ before.length + line.length := by
  induction lines generalizing place with
  | nil => cases inside
  | cons first rest ih =>
    obtain ⟨behind, row⟩ := Row.head first rest
    by_cases here : place ≤ first.length
    · exact ⟨0, [], first, behind, row, Nat.zero_le _, by simpa using here⟩
    · cases rest with
      | nil => simp [Text.join] at inside; omega
      | cons second rest =>
        rw [rowOf_cons_cons, List.length_append, List.length_cons] at inside
        obtain ⟨offset, rfl⟩ := Nat.exists_eq_add_of_lt (Nat.lt_of_not_le here)
        have later : offset < (rowOf (second :: rest)).length := by omega
        obtain ⟨index, before, line, behind, row, after, within⟩ :=
          ih (fun line member => single line (List.mem_cons_of_mem _ member)) later
        refine ⟨index + 1, _, line, behind, row.cons (single first List.mem_cons_self), ?_, ?_⟩ <;>
          simp <;> omega

/-- What is behind a line begins with its end, so the line is what stands before the first one. -/
theorem takeWhile_line (single : '\n' ∉ line) (ends : behind = [] ∨ behind.head? = some '\n') :
    (line ++ behind).takeWhile (· != '\n') = line := by
  have unbroken : ∀ char ∈ line, (char != '\n') = true := by
    intro char member
    simp only [bne_iff_ne, ne_eq]
    rintro rfl
    exact single member
  have ended : behind.takeWhile (· != '\n') = [] := by
    rcases ends with rfl | ends
    · rfl
    · cases behind with
      | nil => rfl
      | cons char behind =>
        cases ends
        rfl
  rw [List.takeWhile_append_of_pos unbroken, ended, List.append_nil]

/-- A mark in front of a line and what is behind it is in front of the line, if it does not hold the
character that is next behind the line. -/
theorem prefix_line {next : Char} (apart : next ∉ mark) (ends : behind = [] ∨ behind.head? = some next)
    (front : mark <+: line ++ behind) : mark <+: line := by
  rcases List.prefix_or_prefix_of_prefix front (List.prefix_append line behind) with within | ⟨extra, rfl⟩
  · exact within
  · rw [List.prefix_append_right_inj] at front
    cases extra with
    | nil => simp
    | cons char extra =>
      obtain ⟨more, rfl⟩ := front
      rcases ends with none | ended
      · cases none
      · cases ended
        exact absurd (by simp) apart

namespace Row
variable (row : Row lines index before line behind)
include row

theorem unbroken (single : ∀ line ∈ lines, '\n' ∉ line) : '\n' ∉ line :=
  single line (List.mem_of_getElem? row.held)

theorem drop_before : (rowOf lines).drop before.length = line ++ behind := by
  rw [row.whole, List.append_assoc, List.drop_left]

theorem getElem? (offset : Nat) : (rowOf lines)[before.length + offset]? = (line ++ behind)[offset]? := by
  rw [← List.getElem?_drop, row.drop_before]

theorem lineStart : LineStart (rowOf lines) before.length := by
  rcases row.begins with rfl | ended
  · exact .inl rfl
  · refine .inr ?_
    have spelled : before.length ≠ 0 := by
      rintro empty
      rw [List.length_eq_zero_iff.mp empty] at ended
      cases ended
    rw [row.whole, List.append_assoc, List.getElem?_append_left (by omega), ← List.getLast?_eq_getElem?]
    exact ended

theorem lineOf_before : lineOf (rowOf lines) before.length = index := by
  rw [lineOf, row.whole, List.append_assoc, List.take_left, row.number]

theorem lineOf_lt (earlier : place < before.length) : lineOf (rowOf lines) place < index := by
  rcases row.begins with rfl | ended
  · cases earlier
  · obtain ⟨init, rfl⟩ : ∃ init, before = init ++ ['\n'] := by
      rw [List.getLast?_eq_some_iff] at ended
      exact ended
    have front : place ≤ init.length := by simp at earlier; omega
    have whole : (rowOf lines).take place = init.take place := by
      rw [row.whole, List.append_assoc, List.append_assoc, List.take_append_of_le_length front]
    have fewer : (init.take place).count '\n' ≤ init.count '\n' := (List.take_sublist _ _).count_le _
    have number := row.number
    rw [List.count_append, List.count_singleton_self] at number
    rw [lineOf, whole]
    omega

/-- Where the line becomes visible. -/
theorem visible (shown : Text.trimStart line ≠ []) :
    (rowOf lines).drop (visibleFrom (rowOf lines) before.length) = Text.trimStart line ++ behind := by
  have some : (line.dropWhile Text.isBlank).isEmpty ≠ true := by
    rwa [ne_eq, List.isEmpty_iff]
  rw [← trimStart_drop, row.drop_before, Text.trimStart, List.dropWhile_append, if_neg some]
  rfl

theorem blank (hidden : Text.trimStart line = []) :
    before.length + line.length ≤ visibleFrom (rowOf lines) before.length := by
  have all : line.takeWhile Text.isBlank = line := by
    have whole := List.takeWhile_append_dropWhile (p := Text.isBlank) (l := line)
    rwa [← Text.trimStart, hidden, List.append_nil] at whole
  rw [visibleFrom, row.drop_before, List.takeWhile_append, if_pos (congrArg List.length all),
    List.length_append]
  omega

/-- A marked line is a line comment. -/
theorem lineCommentAt (known : LineMark mark) (front : mark <+: Text.trimStart line) :
    ∃ stop, LineCommentAt mark (rowOf lines) before.length stop := by
  refine ⟨_, row.lineStart, ?_, rfl⟩
  rw [Stands, row.visible (visible_of_mark known front)]
  exact front.trans (List.prefix_append ..)

/-- A comment that becomes visible with the line is the line when it is trimmed. -/
theorem trim_extract (single : '\n' ∉ line) (shown : Text.trimStart line ≠ []) (known : LineMark mark)
    (comment : LineCommentAt mark (rowOf lines) start stop)
    (same : visibleFrom (rowOf lines) start = visibleFrom (rowOf lines) before.length) :
    Text.trim ((rowOf lines).extract start stop) = Text.trim line := by
  have plain : '\n' ∉ Text.trimStart line := fun member =>
    single ((List.dropWhile_suffix Text.isBlank).subset member)
  rw [extract_line known comment, same, row.visible shown, takeWhile_line plain row.ends, Text.trim, Text.trim,
    Text.trimStart, List.dropWhile_append_of_pos fun _ => List.mem_takeWhile_imp]
  exact congrArg Text.trimEnd (List.dropWhile_idempotent ..)

end Row

theorem takeWhile_drop {kind : Char → Bool} {offset : Nat} (inside : offset ≤ (text.takeWhile kind).length) :
    (text.drop offset).takeWhile kind = (text.takeWhile kind).drop offset := by
  induction text generalizing offset with
  | nil => simp
  | cons char rest ih =>
    cases offset with
    | zero => rfl
    | succ offset =>
      cases held : kind char with
      | false => simp [held] at inside
      | true =>
        rw [List.takeWhile_cons_of_pos held] at inside ⊢
        exact ih (Nat.le_of_succ_le_succ inside)

theorem visibleFrom_between (after : start ≤ place) (within : place ≤ visibleFrom text start) :
    visibleFrom text place = visibleFrom text start := by
  obtain ⟨offset, rfl⟩ := Nat.exists_eq_add_of_le after
  rw [visibleFrom] at within
  have inside : offset ≤ ((text.drop start).takeWhile Text.isBlank).length := by omega
  rw [visibleFrom, visibleFrom, ← List.drop_drop, takeWhile_drop inside, List.length_drop]
  omega

/-- The mark of a line comment is in front of a line that becomes visible with it. -/
theorem LineCommentAt.row (single : ∀ line ∈ lines, '\n' ∉ line) (known : LineMark mark)
    (comment : LineCommentAt mark (rowOf lines) start stop) :
    ∃ index before line behind, Row lines index before line behind ∧ mark <+: Text.trimStart line ∧
      start ≤ before.length ∧
      visibleFrom (rowOf lines) start = visibleFrom (rowOf lines) before.length := by
  obtain ⟨begins, stands, -⟩ := comment
  obtain ⟨char, here, other⟩ :
      ∃ char, (rowOf lines)[visibleFrom (rowOf lines) start]? = some char ∧ char ≠ '\n' := by
    rcases known with rfl | rfl <;> exact ⟨_, (stands_cons.mp stands).1, by decide⟩
  have inside := (List.getElem?_eq_some_iff.mp here).1
  obtain ⟨index, before, line, behind, row, after, within⟩ := exists_row_at single inside
  have unbroken := row.unbroken single
  -- A start behind the start of this line would have a line end in front of it, inside the line.
  have first : start ≤ before.length := by
    rcases begins with rfl | ended
    · exact Nat.zero_le _
    · refine Nat.le_of_not_lt fun late => unbroken ?_
      obtain ⟨offset, rfl⟩ := Nat.exists_eq_add_of_lt late
      have short : offset < line.length := by
        have before := Nat.le_trans (Nat.le_add_right ..) within
        omega
      rw [Nat.add_sub_cancel, row.getElem?, List.getElem?_append_left short] at ended
      exact List.mem_of_getElem? ended
  have same := visibleFrom_between first after
  refine ⟨index, before, line, behind, row, ?_, first, same.symm⟩
  by_cases hidden : Text.trimStart line = []
  · -- All of the line is blank, so the mark would stand where the line ends.
    have past := row.blank hidden
    rw [same] at past
    rw [Nat.le_antisymm within past, row.getElem?, List.getElem?_append_right (Nat.le_refl _), Nat.sub_self,
      ← List.head?_eq_getElem?] at here
    rcases row.ends with rfl | ends
    · cases here
    · rw [ends] at here
      cases here
      exact absurd rfl other
  · have plain : '\n' ∉ mark := by
      rcases known with rfl | rfl <;> decide
    refine prefix_line plain row.ends ?_
    rw [← row.visible hidden, same]
    exact stands

/-! ### The comment with the earliest start -/

/-- Lines without a comment of either form have none. -/
theorem no_comment (single : ∀ line ∈ lines, '\n' ∉ line) (unopened : opened? (rowOf lines) = none)
    (unmarked : ∀ line ∈ lines, marked line ≠ true) : first? (rowOf lines) = none := by
  refine first?_eq_none_iff.mpr fun start stop comment => ?_
  rcases commentAt_iff.mp comment with block | ⟨mark, known, here⟩
  · obtain ⟨number, found, begun, -⟩ := opened?_of_blockAt block
    rw [unopened] at begun
    cases begun
  · obtain ⟨index, before, line, behind, row, front, -⟩ := here.row single known
    exact unmarked line (List.mem_of_getElem? row.held) (marked_iff.mpr ⟨mark, known, front⟩)

/-- The first `/*`, if it is closed and the lines down to its own are not marked. -/
theorem leftmost_block (single : ∀ line ∈ lines, '\n' ∉ line) (block : BlockAt (rowOf lines) start stop)
    (first : ∀ earlier < start, ¬ Stands ['/', '*'] (rowOf lines) earlier)
    (unmarked : ∀ index line, lines[index]? = some line → marked line = true →
      lineOf (rowOf lines) start < index) : Leftmost (rowOf lines) start stop := by
  refine ⟨Nat.zero_le _, ⟨.block, block⟩, fun other last _ there => ?_⟩
  rcases commentAt_iff.mp there with second | ⟨mark, known, there⟩
  · exact Nat.le_of_not_lt fun before => first other before second.1
  · obtain ⟨index, before, line, behind, row, front, -, same⟩ := there.row single known
    have later := unmarked index line row.held (marked_iff.mpr ⟨mark, known, front⟩)
    refine Nat.le_of_not_lt fun early => ?_
    -- The slash would stand on the blanks between the start of that comment and its mark.
    have above : start < before.length := by
      refine Nat.lt_of_not_le fun below => ?_
      have more : lineOf (rowOf lines) before.length ≤ lineOf (rowOf lines) start := lineOf_mono below
      rw [row.lineOf_before] at more
      omega
    have hidden : start < visibleFrom (rowOf lines) other := by
      rw [same]
      exact Nat.lt_of_lt_of_le above (Nat.le_add_right ..)
    obtain ⟨char, held, blank⟩ := getElem?_run (Nat.le_of_lt early) hidden
    rw [(stands_cons.mp block.1).1] at held
    cases held
    exact absurd blank (by decide)

/-- The first marked line, if no block is opened above it. -/
theorem leftmost_line (single : ∀ line ∈ lines, '\n' ∉ line) (row : Row lines index before line behind)
    (held : marked line = true)
    (first : ∀ other line, lines[other]? = some line → marked line = true → index ≤ other)
    (unopened : ∀ start stop, BlockAt (rowOf lines) start stop → index ≤ lineOf (rowOf lines) start) :
    ∃ start stop, Leftmost (rowOf lines) start stop ∧
      Text.trim ((rowOf lines).extract start stop) = Text.trim line := by
  obtain ⟨mark, known, front⟩ := marked_iff.mp held
  obtain ⟨last, own⟩ := row.lineCommentAt known front
  have comment := commentAt_iff.mpr (.inr ⟨mark, known, own⟩)
  obtain ⟨start, stop, leftmost⟩ := exists_leftmost comment
  have early := leftmost.earliest _ _ (Nat.zero_le _) comment
  refine ⟨start, stop, leftmost, ?_⟩
  rcases commentAt_iff.mp leftmost.comment with block | ⟨other, also, here⟩
  · -- Neither above this line nor behind its start, the block would start at one place with the line comment.
    have within : before.length ≤ start := by
      refine Nat.le_of_not_lt fun above => ?_
      exact absurd (unopened start stop block) (Nat.not_le_of_lt (row.lineOf_lt above))
    obtain rfl := Nat.le_antisymm within early
    exact absurd own (not_block_and_line known block)
  · obtain ⟨number, above, second, below, there, shown, -, same⟩ := here.row single also
    have later := first number second there.held (marked_iff.mpr ⟨other, also, shown⟩)
    have within : before.length ≤ above.length := by
      refine Nat.le_of_not_lt fun less => ?_
      have fewer := row.lineOf_lt less
      rw [there.lineOf_before] at fewer
      omega
    have visible : before.length ≤ visibleFrom (rowOf lines) start := by
      rw [same]
      exact Nat.le_trans within (Nat.le_add_right ..)
    exact row.trim_extract (row.unbroken single) (visible_of_mark known front) also here
      (visibleFrom_between early visible).symm

end Comment

namespace Snippet
open Comment

/-- The snippet of some lines, told line by line: the first `/*` through the `*/` behind it with
spaces for line ends, if there is one and no line down to its own is marked; else the first
marked line; else the first three visible lines. -/
def byLine (lines : List Text) : Text :=
  let spaced (block : Text) : Text := block.map fun char => if char = '\n' then ' ' else char
  match opened? (rowOf lines), lines.findFinIdx? marked with
  | some (_, block), none => spaced block
  | some (opening, block), some index =>
    if opening < index then spaced block else Text.trim lines[index]
  | none, some index => Text.trim lines[index]
  | none, none => Text.join " | ".toList (((lines.map Text.trim).filter (· ≠ [])).take 3)

variable {text : Text} {lines : List Text} {start stop : Nat}

theorem trim_of_visible {first last : Char} (begins : text.head? = some first) (shown : Text.isBlank first = false)
    (ends : text.getLast? = some last) (also : Text.isBlank last = false) : Text.trim text = text := by
  have front : Text.trimStart text = text := by
    cases text with
    | nil => rfl
    | cons char rest =>
      cases begins
      exact List.dropWhile_cons_of_neg (by simp [shown])
  have back : Text.trimEnd text = text := by
    rw [List.getLast?_eq_some_iff] at ends
    obtain ⟨init, rfl⟩ := ends
    simp [Text.trimEnd, also]
  rw [Text.trim, front, back]

/-- There is nothing to trim around a block. -/
theorem trim_block (block : BlockAt text start stop) :
    Text.trim (text.extract start stop) = text.extract start stop := by
  obtain ⟨opens, close, after, closes, -, rfl⟩ := block
  have slash := (stands_cons.mp opens).1
  have last := (stands_cons.mp (stands_cons.mp closes).2).1
  have begins : (text.extract start (close + 2)).head? = some '/' := by
    rw [List.extract_eq_take_drop, List.head?_take, if_neg (by omega), List.head?_drop, slash]
  have ends : (text.extract start (close + 2)).getLast? = some '/' := by
    rw [List.extract_eq_take_drop, List.getLast?_take, if_neg (by omega), List.getElem?_drop,
      show start + (close + 2 - start - 1) = close + 1 by omega, last]
    rfl
  exact trim_of_visible begins (by decide) ends (by decide)

theorem flatten_eq_self (single : '\n' ∉ text) : flatten text = text := by
  have same : ∀ char ∈ text, (if char = '\n' then ' ' else char) = char := by
    intro char member
    refine if_neg ?_
    rintro rfl
    exact single member
  rw [flatten, List.map_congr_left same, List.map_id']

theorem ofLines_of_leftmost (leftmost : Leftmost (rowOf lines) start stop) : ofLines lines =
    (flatten (Text.trim ((rowOf lines).extract start stop))).take 400 := by
  rw [ofLines, first?_eq_some_iff.mpr ⟨start, stop, leftmost, rfl⟩]
  rfl

theorem ofLines_block {opening : Nat} {block : Text} (single : ∀ line ∈ lines, '\n' ∉ line)
    (begun : opened? (rowOf lines) = some (opening, block))
    (unmarked : ∀ index line, lines[index]? = some line → marked line = true → opening < index) :
    ofLines lines = (flatten block).take 400 := by
  obtain ⟨start, stop, here, first, rfl, rfl⟩ := opened?_eq_some begun
  rw [ofLines_of_leftmost (leftmost_block single here first unmarked), trim_block here]

theorem ofLines_marked {index : Fin lines.length} (single : ∀ line ∈ lines, '\n' ∉ line)
    (found : lines.findFinIdx? marked = some index)
    (unopened : ∀ opening block, opened? (rowOf lines) = some (opening, block) → index ≤ opening) :
    ofLines lines = (Text.trim lines[index]).take 400 := by
  obtain ⟨held, first⟩ := List.findFinIdx?_eq_some_iff.mp found
  have here : lines[index.val]? = some lines[index] := List.getElem?_eq_getElem index.isLt
  obtain ⟨before, behind, row⟩ := exists_row single here
  have above : ∀ (other : Nat) line, lines[other]? = some line → marked line = true → index ≤ other := by
    intro other line there also
    obtain ⟨inside, rfl⟩ := List.getElem?_eq_some_iff.mp there
    exact Nat.le_of_not_lt fun less => first ⟨other, inside⟩ less also
  have below : ∀ start stop, BlockAt (rowOf lines) start stop → index ≤ lineOf (rowOf lines) start := by
    intro start stop block
    obtain ⟨opening, text, begun, within⟩ := opened?_of_blockAt block
    exact Nat.le_trans (unopened opening text begun) within
  obtain ⟨start, stop, leftmost, trimmed⟩ := leftmost_line single row held above below
  have unbroken : '\n' ∉ Text.trim lines[index] := fun member =>
    single _ (List.mem_of_getElem? here) (Text.trim_subset _ member)
  rw [ofLines_of_leftmost leftmost, trimmed, flatten_eq_self unbroken]

/-- The search over all places and the search line by line make one snippet. A match that starts
on blank lines is the line of its mark; a `/*` that is not closed, or is in a marked line or
below one, does not count. -/
theorem ofLines_by_line (lines : List Text) (single : ∀ line ∈ lines, '\n' ∉ line) :
    ofLines lines = (byLine lines).take 400 := by
  rw [byLine]
  cases begun : opened? (rowOf lines) with
  | none =>
    have unopened : ∀ {below : Nat} opening block, opened? (rowOf lines) = some (opening, block) →
        below ≤ opening := by
      rw [begun]
      nofun
    cases found : lines.findFinIdx? marked with
    | none =>
      rw [ofLines, no_comment single begun (List.findFinIdx?_eq_none_iff.mp found)]
      rfl
    | some index => exact ofLines_marked single found unopened
  | some opened =>
    obtain ⟨opening, block⟩ := opened
    cases found : lines.findFinIdx? marked with
    | none =>
      refine ofLines_block single begun fun index line there also => ?_
      exact absurd also (List.findFinIdx?_eq_none_iff.mp found line (List.mem_of_getElem? there))
    | some index =>
      dsimp only
      split
      · rename_i above
        refine ofLines_block single begun fun other line there also => ?_
        obtain ⟨inside, rfl⟩ := List.getElem?_eq_some_iff.mp there
        have first := (List.findFinIdx?_eq_some_iff.mp found).2 ⟨other, inside⟩
        exact Nat.lt_of_lt_of_le above (Nat.le_of_not_lt fun less => first less also)
      · rename_i within
        refine ofLines_marked single found fun other text also => ?_
        rw [begun] at also
        cases also
        exact Nat.le_of_not_lt within

theorem ofLines_by_line_nested :
    (∀ line ∈ [[], "  //* x".toList, "*/ /* y */".toList], '\n' ∉ line) ∧
      opened? "\n  //* x\n*/ /* y */".toList = some (1, "/* x\n*/".toList) ∧
      ofLines [[], "  //* x".toList, "*/ /* y */".toList] = "//* x".toList :=
  ⟨by decide +kernel, by decide +kernel,
    (ofLines_by_line [[], "  //* x".toList, "*/ /* y */".toList] (by decide +kernel)).trans (by decide +kernel)⟩

end Snippet
end SourceIndex
