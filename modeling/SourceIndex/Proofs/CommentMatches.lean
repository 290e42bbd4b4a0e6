import Mathlib.Data.List.Infix
import Mathlib.Data.List.TakeWhile
import Mathlib.Order.Minimal
import SourceIndex.Comment

/-! The comments of a text by their places. A match of one of the three kinds is given by where it
starts and where it stops (`MatchesAt`); no two kinds ever match at one place, and a kind
matches there in one way (`matchesAt_unique`). The search gives the text of the match with the
earliest start (`first?_eq_some_iff`). -/
namespace SourceIndex.Comment

/-- `mark` stands in `text` at `place`. -/
def Stands (mark text : Text) (place : Nat) : Prop := mark <+: text.drop place

/-- The start of the text, or just behind a line end. -/
def LineStart (text : Text) (place : Nat) : Prop := place = 0 ∨ text[place - 1]? = some '\n'

/-- Where the blanks from `place` on end. -/
def visibleFrom (text : Text) (place : Nat) : Nat :=
  place + ((text.drop place).takeWhile Text.isBlank).length

/-- The first line end from `place` on, or the end of the text. -/
def lineStop (text : Text) (place : Nat) : Nat :=
  place + ((text.drop place).takeWhile (· != '\n')).length

/-- A block comment: it stops behind the first `*/` that does not overlap its opening. -/
def BlockAt (text : Text) (start stop : Nat) : Prop :=
  Stands ['/', '*'] text start ∧ ∃ close, start + 2 ≤ close ∧ Stands ['*', '/'] text close ∧
    (∀ place, start + 2 ≤ place → place < close → ¬ Stands ['*', '/'] text place) ∧ stop = close + 2

/-- The marks of comments that run to the end of their line. -/
abbrev LineMark (mark : Text) : Prop := mark = ['#'] ∨ mark = ['/', '/']

/-- A line comment with this mark, and the blanks before it from some line start on. -/
def LineCommentAt (mark text : Text) (start stop : Nat) : Prop :=
  LineStart text start ∧ Stands mark text (visibleFrom text start) ∧
    stop = lineStop text (visibleFrom text start + mark.length)

/-- The three kinds of comments. -/
inductive Kind where
  | block
  | hash
  | slashes
  deriving DecidableEq, Repr

/-- A comment of this kind starts at `start` and stops in front of `stop`. -/
def MatchesAt : Kind → (text : Text) → (start stop : Nat) → Prop
  | .block => BlockAt
  | .hash => LineCommentAt ['#']
  | .slashes => LineCommentAt ['/', '/']

def CommentAt (text : Text) (start stop : Nat) : Prop := ∃ kind, MatchesAt kind text start stop

/-- The comment with the earliest start among those from `place` on. -/
structure FirstFrom (place : Nat) (text : Text) (start stop : Nat) : Prop where
  behind : place ≤ start
  comment : CommentAt text start stop
  earliest : ∀ other stop, place ≤ other → CommentAt text other stop → start ≤ other

/-- The comment with the earliest start. -/
abbrev Leftmost (text : Text) (start stop : Nat) : Prop := FirstFrom 0 text start stop

/-! ### One kind at one place -/

variable {text rest comment : Text} {start stop place : Nat}

theorem stands_cons {char : Char} {mark : Text} :
    Stands (char :: mark) text place ↔ text[place]? = some char ∧ Stands mark text (place + 1) := by
  unfold Stands
  rw [← List.drop_drop]
  cases held : text.drop place with
  | nil =>
    rw [List.drop_eq_nil_iff] at held
    simp [List.getElem?_eq_none held]
  | cons first rest =>
    have here : text[place]? = some first := by
      rw [← List.head?_drop, held]
      rfl
    simp [here, List.cons_prefix_cons, eq_comm]

theorem blockAt_unique {other : Nat} (first : BlockAt text start stop) (second : BlockAt text start other) :
    stop = other := by
  obtain ⟨_, close, behind, closes, none, rfl⟩ := first
  obtain ⟨_, close', behind', closes', none', rfl⟩ := second
  rcases Nat.lt_trichotomy close close' with less | same | more
  · exact absurd closes (none' close behind less)
  · rw [same]
  · exact absurd closes' (none close' behind' more)

theorem drop_of_getElem? {char : Char} (here : text[place]? = some char) :
    text.drop place = char :: text.drop (place + 1) := by
  obtain ⟨inside, rfl⟩ := List.getElem?_eq_some_iff.mp here
  exact List.drop_eq_getElem_cons inside

theorem visibleFrom_visible {char : Char} (here : text[place]? = some char)
    (visible : Text.isBlank char = false) : visibleFrom text place = place := by
  rw [visibleFrom, drop_of_getElem? here, List.takeWhile_cons_of_neg (by simp [visible])]
  rfl

/-- What stands in a run of one kind is of that kind. -/
theorem getElem?_run {kind : Char → Bool} (behind : start ≤ place)
    (before : place < start + ((text.drop start).takeWhile kind).length) :
    ∃ char, text[place]? = some char ∧ kind char = true := by
  obtain ⟨offset, rfl⟩ := Nat.exists_eq_add_of_le behind
  have inside : offset < ((text.drop start).takeWhile kind).length := Nat.lt_of_add_lt_add_left before
  have front := List.takeWhile_prefix (l := text.drop start) kind
  refine ⟨_, ?_, List.mem_takeWhile_imp (List.getElem_mem inside)⟩
  rw [front.getElem inside, ← List.getElem?_drop,
    List.getElem?_eq_getElem (Nat.lt_of_lt_of_le inside front.length_le)]

theorem lineStop_le (inside : place ≤ text.length) : lineStop text place ≤ text.length := by
  have front := (List.takeWhile_prefix (l := text.drop place) (· != '\n')).length_le
  rw [List.length_drop] at front
  rw [lineStop]
  omega

theorem lineStop_stops (text : Text) (place : Nat) :
    text.length ≤ lineStop text place ∨ text[lineStop text place]? = some '\n' := by
  have whole := List.takeWhile_append_dropWhile (p := (· != '\n')) (l := text.drop place)
  have next : text[lineStop text place]? = ((text.drop place).dropWhile (· != '\n')).head? := by
    rw [lineStop, ← List.getElem?_drop]
    generalize (text.drop place).takeWhile (· != '\n') = front at whole ⊢
    rw [← whole, List.getElem?_append_right (Nat.le_refl _), Nat.sub_self, List.head?_eq_getElem?, whole]
  have stops := List.head?_dropWhile_not (· != '\n') (text.drop place)
  rw [← next] at stops
  cases held : text[lineStop text place]? with
  | none => exact .inl (List.getElem?_eq_none_iff.mp held)
  | some char =>
    rw [held] at stops
    exact .inr (congrArg some (by simpa using stops))

/-- A block and a line comment with a mark of this kind do not start at one place. -/
theorem not_block_and_line {mark : Text} {other : Nat} (known : LineMark mark)
    (block : BlockAt text start stop) : ¬ LineCommentAt mark text start other := by
  rintro ⟨_, marked, _⟩
  obtain ⟨slash, rest⟩ := stands_cons.mp block.1
  have star := (stands_cons.mp rest).1
  rw [visibleFrom_visible slash (by decide)] at marked
  rcases known with rfl | rfl
  · have hash := (stands_cons.mp marked).1
    rw [slash] at hash
    cases hash
  · have second := (stands_cons.mp (stands_cons.mp marked).2).1
    rw [star] at second
    cases second

/-- No two kinds match at one place, and each in at most one way. -/
theorem matchesAt_unique {first second : Kind} {other : Nat} (one : MatchesAt first text start stop)
    (two : MatchesAt second text start other) : first = second ∧ stop = other := by
  have marks : ∀ {stop other}, LineCommentAt ['#'] text start stop →
      ¬ LineCommentAt ['/', '/'] text start other := by
    rintro _ _ ⟨_, hash, _⟩ ⟨_, slashes, _⟩
    have same := (stands_cons.mp hash).1.symm.trans (stands_cons.mp slashes).1
    cases same
  cases first <;> cases second
  case block.block => exact ⟨rfl, blockAt_unique one two⟩
  case hash.hash | slashes.slashes => exact ⟨rfl, one.2.2.trans two.2.2.symm⟩
  case block.hash => exact absurd two (not_block_and_line (.inl rfl) one)
  case block.slashes => exact absurd two (not_block_and_line (.inr rfl) one)
  case hash.block => exact absurd one (not_block_and_line (.inl rfl) two)
  case slashes.block => exact absurd one (not_block_and_line (.inr rfl) two)
  case hash.slashes => exact absurd two (marks one)
  case slashes.hash => exact absurd one (marks two)

/-! ### What the search finds at one place -/

theorem blockRest?_eq_some_iff : blockRest? text = some comment ↔
    ∃ close, Stands ['*', '/'] text close ∧ (∀ place < close, ¬ Stands ['*', '/'] text place) ∧
      comment = text.take (close + 2) := by
  induction text generalizing comment with
  | nil => simp [blockRest?, Stands]
  | cons char rest ih =>
    by_cases here : Stands ['*', '/'] (char :: rest) 0
    · obtain ⟨more, whole⟩ := here
      rw [List.drop_zero] at whole
      rw [← whole]
      change some ['*', '/'] = some comment ↔ _
      constructor
      · rintro ⟨⟩
        exact ⟨0, List.prefix_append .., fun place below => absurd below (Nat.not_lt_zero place), rfl⟩
      · rintro ⟨close, closes, first, rfl⟩
        cases close with
        | zero => rfl
        | succ close => exact absurd (List.prefix_append ..) (first 0 (Nat.succ_pos close))
    · have skip : blockRest? (char :: rest) = (blockRest? rest).map (char :: ·) := by
        rw [blockRest?.eq_def]
        split
        · rename_i same
          exact absurd (same ▸ List.prefix_append ..) here
        · rename_i none
          cases none
        · rename_i same
          cases same
          rfl
      simp only [skip, Option.map_eq_some_iff, ih]
      constructor
      · rintro ⟨_, ⟨close, closes, first, rfl⟩, rfl⟩
        refine ⟨close + 1, closes, fun place below => ?_, rfl⟩
        cases place with
        | zero => exact here
        | succ place => exact first place (Nat.lt_of_succ_lt_succ below)
      · rintro ⟨close, closes, first, rfl⟩
        cases close with
        | zero => exact absurd closes here
        | succ close =>
          exact ⟨_, ⟨close, closes, fun place below => first (place + 1) (Nat.succ_lt_succ below), rfl⟩, rfl⟩

theorem stands_drop {mark : Text} : Stands mark (text.drop start) place ↔ Stands mark text (start + place) := by
  rw [Stands, Stands, List.drop_drop]

theorem blockAt?_eq_some_iff : blockAt? (text.drop start) = some comment ↔
    ∃ stop, BlockAt text start stop ∧ comment = text.extract start stop := by
  by_cases opens : Stands ['/', '*'] text start
  · have slash := stands_cons.mp opens
    have star := stands_cons.mp slash.2
    have front : text.drop start = '/' :: '*' :: text.drop (start + 2) := by
      rw [drop_of_getElem? slash.1, drop_of_getElem? star.1]
    have cut : ∀ close, text.extract start (start + 2 + close + 2) =
        ['/', '*'] ++ (text.drop (start + 2)).take (close + 2) := by
      intro close
      rw [List.extract_eq_take_drop, front, show start + 2 + close + 2 - start = close + 2 + 2 by omega]
      rfl
    rw [front]
    change (blockRest? (text.drop (start + 2))).map (['/', '*'] ++ ·) = some comment ↔ _
    simp only [Option.map_eq_some_iff, blockRest?_eq_some_iff, stands_drop]
    constructor
    · rintro ⟨_, ⟨close, closes, first, rfl⟩, rfl⟩
      refine ⟨start + 2 + close + 2, ⟨opens, start + 2 + close, Nat.le_add_right .., closes, ?_, rfl⟩,
        (cut close).symm⟩
      intro place behind before
      obtain ⟨offset, rfl⟩ := Nat.exists_eq_add_of_le behind
      exact first offset (by omega)
    · rintro ⟨_, ⟨_, close, behind, closes, first, rfl⟩, rfl⟩
      obtain ⟨offset, rfl⟩ := Nat.exists_eq_add_of_le behind
      refine ⟨_, ⟨offset, closes, fun place below => ?_, rfl⟩, (cut offset).symm⟩
      exact first (start + 2 + place) (Nat.le_add_right ..) (by omega)
  · have none : blockAt? (text.drop start) = none := by
      rw [blockAt?.eq_def]
      split
      · rename_i same
        exact absurd ⟨_, same.symm⟩ opens
      · rfl
    rw [none]
    constructor
    · nofun
    · rintro ⟨_, block, _⟩
      exact absurd block.1 opens

theorem isLineMark_iff : isLineMark text = true ↔ ['#'] <+: text ∨ ['/', '/'] <+: text := by
  constructor
  · unfold isLineMark
    split
    · exact fun _ => .inl (List.prefix_append ..)
    · exact fun _ => .inr (List.prefix_append ..)
    · nofun
  · rintro (⟨more, rfl⟩ | ⟨more, rfl⟩) <;> rfl

theorem takeWhile_append_drop (text : Text) (start : Nat) :
    (text.drop start).takeWhile Text.isBlank ++ text.drop (visibleFrom text start) = text.drop start := by
  have whole := List.takeWhile_append_dropWhile (p := Text.isBlank) (l := text.drop start)
  have rest := congrArg (List.drop ((text.drop start).takeWhile Text.isBlank).length) whole
  rw [List.drop_left, List.drop_drop] at rest
  rw [visibleFrom, ← rest]
  exact whole

theorem trimStart_drop (text : Text) (start : Nat) :
    Text.trimStart (text.drop start) = text.drop (visibleFrom text start) := by
  have whole := List.takeWhile_append_dropWhile (p := Text.isBlank) (l := text.drop start)
  exact List.append_cancel_left (whole.trans (takeWhile_append_drop text start).symm)

/-- The text of a line comment is the blanks and the rest of the line of its mark. -/
theorem extract_line {mark : Text} (known : LineMark mark)
    (line : LineCommentAt mark text start stop) : text.extract start stop =
      (text.drop start).takeWhile Text.isBlank ++
        (text.drop (visibleFrom text start)).takeWhile (· != '\n') := by
  obtain ⟨-, ⟨behind, marked⟩, rfl⟩ := line
  have unbroken : ∀ char ∈ mark, (char != '\n') = true := by
    rcases known with rfl | rfl <;> simp
  have rest : text.drop (visibleFrom text start + mark.length) = behind := by
    rw [← List.drop_drop, ← marked, List.drop_left]
  have size : lineStop text (visibleFrom text start + mark.length) - start =
      ((text.drop start).takeWhile Text.isBlank).length +
        (mark.length + (behind.takeWhile (· != '\n')).length) := by
    rw [lineStop, rest, visibleFrom]
    omega
  have line : (behind.takeWhile (· != '\n')) = behind.take (behind.takeWhile (· != '\n')).length :=
    List.prefix_iff_eq_take.mp (List.takeWhile_prefix _)
  have whole := takeWhile_append_drop text start
  generalize (text.drop start).takeWhile Text.isBlank = blanks at size whole ⊢
  rw [List.extract_eq_take_drop, size, ← whole, List.take_length_add_append, ← marked,
    List.take_length_add_append, ← line, List.takeWhile_append_of_pos unbroken]

theorem lineAt?_eq_some_iff (lineStart : LineStart text start) : lineAt? (text.drop start) = some comment ↔
    ∃ mark stop, LineMark mark ∧ LineCommentAt mark text start stop ∧
      comment = text.extract start stop := by
  have marks : isLineMark (Text.trimStart (text.drop start)) = true ↔
      ∃ mark, LineMark mark ∧ Stands mark text (visibleFrom text start) := by
    rw [trimStart_drop, isLineMark_iff]
    simp [Stands]
  constructor
  · intro found
    rw [lineAt?] at found
    split at found
    · rename_i marked
      cases found
      obtain ⟨mark, known, stands⟩ := marks.mp marked
      have line : LineCommentAt mark text start _ := ⟨lineStart, stands, rfl⟩
      exact ⟨mark, _, known, line, by rw [extract_line known line, trimStart_drop]⟩
    · cases found
  · rintro ⟨mark, stop, known, line, rfl⟩
    rw [lineAt?, if_pos (marks.mpr ⟨mark, known, line.2.1⟩), extract_line known line, trimStart_drop]

theorem commentAt_iff : CommentAt text start stop ↔
    BlockAt text start stop ∨ ∃ mark, LineMark mark ∧ LineCommentAt mark text start stop := by
  constructor
  · rintro ⟨kind, here⟩
    cases kind with
    | block => exact .inl here
    | hash => exact .inr ⟨_, .inl rfl, here⟩
    | slashes => exact .inr ⟨_, .inr rfl, here⟩
  · rintro (block | ⟨_, rfl | rfl, line⟩)
    · exact ⟨.block, block⟩
    · exact ⟨.hash, line⟩
    · exact ⟨.slashes, line⟩

/-- What is found at a place is the comment that starts there. -/
theorem at?_eq_some_iff {lineStart : Bool} (known : lineStart = true ↔ LineStart text start) :
    at? lineStart (text.drop start) = some comment ↔
      ∃ stop, CommentAt text start stop ∧ comment = text.extract start stop := by
  unfold at?
  cases found : blockAt? (text.drop start) with
  | some block =>
    obtain ⟨stop, here, rfl⟩ := blockAt?_eq_some_iff.mp found
    dsimp only
    constructor
    · rintro ⟨⟩
      exact ⟨stop, ⟨.block, here⟩, rfl⟩
    · rintro ⟨other, ⟨kind, there⟩, rfl⟩
      have block : MatchesAt .block text start stop := here
      obtain ⟨-, rfl⟩ := matchesAt_unique block there
      rfl
  | none =>
    have noBlock : ∀ stop, ¬ BlockAt text start stop := by
      intro stop block
      have := blockAt?_eq_some_iff.mpr ⟨stop, block, rfl⟩
      rw [found] at this
      cases this
    dsimp only
    constructor
    · intro line
      split at line
      · rename_i begins
        obtain ⟨mark, stop, marks, here, same⟩ := (lineAt?_eq_some_iff (known.mp begins)).mp line
        exact ⟨stop, commentAt_iff.mpr (.inr ⟨mark, marks, here⟩), same⟩
      · cases line
    · rintro ⟨stop, comment, same⟩
      rcases commentAt_iff.mp comment with block | ⟨mark, marks, line⟩
      · exact absurd block (noBlock stop)
      · rw [if_pos (known.mpr line.1)]
        exact (lineAt?_eq_some_iff line.1).mpr ⟨mark, stop, marks, line, same⟩

/-! ### The earliest start -/

theorem FirstFrom.unique {other last : Nat} (one : FirstFrom place text start stop)
    (two : FirstFrom place text other last) : start = other ∧ stop = last := by
  obtain rfl : start = other :=
    Nat.le_antisymm (one.earliest _ _ two.behind two.comment) (two.earliest _ _ one.behind one.comment)
  obtain ⟨first, here⟩ := one.comment
  obtain ⟨second, there⟩ := two.comment
  exact ⟨rfl, (matchesAt_unique here there).2⟩

theorem firstFrom_succ (nowhere : ∀ stop, ¬ CommentAt text place stop) :
    FirstFrom place text start stop ↔ FirstFrom (place + 1) text start stop := by
  have past : ∀ {other last}, place ≤ other → CommentAt text other last → place + 1 ≤ other := by
    intro other last behind comment
    refine Nat.lt_of_le_of_ne behind ?_
    rintro rfl
    exact nowhere last comment
  constructor
  · intro first
    exact ⟨past first.behind first.comment, first.comment,
      fun other last behind => first.earliest other last (Nat.le_of_succ_le behind)⟩
  · intro first
    exact ⟨Nat.le_of_succ_le first.behind, first.comment,
      fun other last behind comment => first.earliest other last (past behind comment) comment⟩

theorem lt_of_stands {char : Char} {mark : Text} (stands : Stands (char :: mark) text place) :
    place < text.length :=
  (List.getElem?_eq_some_iff.mp (stands_cons.mp stands).1).1

/-- No comment starts behind the text. -/
theorem CommentAt.inside (comment : CommentAt text start stop) : start < text.length := by
  obtain ⟨kind, here⟩ := comment
  cases kind with
  | block => exact lt_of_stands here.1
  | hash | slashes => exact Nat.lt_of_le_of_lt (Nat.le_add_right ..) (lt_of_stands here.2.1)

theorem search_eq_some_iff {lineStart : Bool} (known : lineStart = true ↔ LineStart text place) :
    search lineStart (text.drop place) = some comment ↔
      ∃ start stop, FirstFrom place text start stop ∧ comment = text.extract start stop := by
  induction held : text.drop place generalizing place lineStart with
  | nil =>
    constructor
    · nofun
    · rintro ⟨start, stop, first, -⟩
      have behind := first.behind
      have inside := first.comment.inside
      have ended := List.drop_eq_nil_iff.mp held
      omega
  | cons char rest ih =>
    have here : text[place]? = some char := by
      rw [← List.head?_drop, held]
      rfl
    have next : text.drop (place + 1) = rest := by
      have whole := drop_of_getElem? here
      rw [held] at whole
      exact (List.cons.inj whole).2.symm
    have onward : (char == '\n') = true ↔ LineStart text (place + 1) := by
      simp [LineStart, here]
    unfold search
    rw [← held]
    cases found : at? lineStart (text.drop place) with
    | some first =>
      obtain ⟨stop, begins, rfl⟩ := (at?_eq_some_iff known).mp found
      have first : FirstFrom place text place stop :=
        ⟨Nat.le_refl _, begins, fun _ _ behind _ => behind⟩
      dsimp only
      constructor
      · rintro ⟨⟩
        exact ⟨place, stop, first, rfl⟩
      · rintro ⟨other, last, second, rfl⟩
        obtain ⟨rfl, rfl⟩ := first.unique second
        rfl
    | none =>
      have nowhere : ∀ stop, ¬ CommentAt text place stop := by
        intro stop comment
        have := (at?_eq_some_iff known).mpr ⟨stop, comment, rfl⟩
        rw [found] at this
        cases this
      simp only [ih onward next, firstFrom_succ nowhere]

/-- The search finds the comment with the earliest start. -/
theorem first?_eq_some_iff : first? text = some comment ↔
    ∃ start stop, Leftmost text start stop ∧ comment = text.extract start stop := by
  have whole : search true (text.drop 0) = some comment ↔ _ :=
    search_eq_some_iff (by simp [LineStart])
  exact whole

/-- Where there is a comment, one has the earliest start. -/
theorem exists_leftmost (comment : CommentAt text start stop) : ∃ start stop, Leftmost text start stop := by
  obtain ⟨first, least⟩ :=
    exists_minimal_of_wellFoundedLT (fun start => ∃ stop, CommentAt text start stop) ⟨start, stop, comment⟩
  obtain ⟨last, here⟩ := least.prop
  refine ⟨first, last, Nat.zero_le _, here, fun other stop _ there => ?_⟩
  exact Nat.le_of_not_lt fun before => least.not_prop_of_lt before ⟨stop, there⟩

/-- The search finds nothing exactly when there is no comment. -/
theorem first?_eq_none_iff : first? text = none ↔ ∀ start stop, ¬ CommentAt text start stop := by
  constructor
  · intro nothing start stop comment
    obtain ⟨first, last, leftmost⟩ := exists_leftmost comment
    have found := first?_eq_some_iff.mpr ⟨first, last, leftmost, rfl⟩
    rw [nothing] at found
    cases found
  · intro none
    cases found : first? text with
    | none => rfl
    | some comment =>
      obtain ⟨start, stop, leftmost, -⟩ := first?_eq_some_iff.mp found
      exact absurd leftmost.comment (none start stop)

end SourceIndex.Comment
