import Mathlib.Data.List.DropRight
import Mathlib.Data.List.TakeWhile
import SourceIndex.Proofs.CommentMatches
import SourceIndex.Snippet

/-! Comments as the matches of one search pattern. A pattern is a list of alternatives, each a
row of elements; an element can end at several places, and these are tried in an order of
preference: a greedy run prefers to end late, a lazy one early. The match of a pattern is the one
with the earliest start, there that of the first alternative that has one, and of this one the
preferred (`firstMatch?`). For the three kinds of comments this is the comment with the
earliest start in whatever order they are tried (`firstMatch?_eq_some_iff`), and a snippet is
made of it (`ofLines_leftmost`). -/
namespace SourceIndex
namespace Comment

/-- An element of a pattern. -/
inductive Element where
  | literal (mark : Text)
  | run (kind : Char → Bool) (greedy : Bool)
  | lineStart
  | lineEnd

instance (text : Text) (place : Nat) : Decidable (LineStart text place) :=
  inferInstanceAs (Decidable (_ ∨ _))

/-- Where an element that begins at `place` can end, the preferred end first. -/
def Element.ends (text : Text) (place : Nat) : Element → List Nat
  | .literal mark => if mark <+: text.drop place then [place + mark.length] else []
  | .run kind greedy =>
    let reached := (List.range (((text.drop place).takeWhile kind).length + 1)).map (place + ·)
    if greedy then reached.reverse else reached
  | .lineStart => if LineStart text place then [place] else []
  | .lineEnd => if text.length ≤ place ∨ text[place]? = some '\n' then [place] else []

/-- Where elements in a row can end; the preferences of an earlier element go first. -/
def ends (text : Text) : List Element → (place : Nat) → List Nat
  | [], place => [place]
  | element :: rest, place => (element.ends text place).flatMap (ends text rest)

/-- The match of a pattern: the earliest start, there the first alternative that matches, and of
this one the preferred end. -/
def firstMatch? (alternatives : List (List Element)) (text : Text) : Option (Nat × Nat) :=
  (List.range (text.length + 1)).findSome? fun start =>
    (alternatives.flatMap (ends text · start)).head?.map (start, ·)

def anyText (greedy : Bool) : Element := .run (fun _ => true) greedy

/-- A line whose first visible characters are `mark`. -/
def lineElements (mark : Text) : List Element :=
  [.lineStart, .run Text.isBlank true, .literal mark, anyText false, .lineEnd]

/-- What is searched for each kind of comment. -/
def Kind.elements : Kind → List Element
  | .block => [.literal ['/', '*'], anyText false, .literal ['*', '/']]
  | .hash => lineElements ['#']
  | .slashes => lineElements ['/', '/']

/-! ### Ends in order of preference -/

variable {text mark : Text} {place start stop : Nat}

theorem findSome?_range_eq_some_iff {α : Type} {size : Nat} {f : Nat → Option α} {found : α} :
    (List.range size).findSome? f = some found ↔
      ∃ place < size, f place = some found ∧ ∀ earlier < place, f earlier = none := by
  induction size with
  | zero => simp
  | succ size ih =>
    rw [List.range_succ, List.findSome?_append, Option.or_eq_some_iff, ih, List.findSome?_eq_none_iff]
    simp only [List.mem_range, List.findSome?_singleton]
    constructor
    · rintro (⟨place, inside, here, first⟩ | ⟨first, here⟩)
      · exact ⟨place, Nat.lt_succ_of_lt inside, here, first⟩
      · exact ⟨size, Nat.lt_succ_self size, here, first⟩
    · rintro ⟨place, inside, here, first⟩
      rcases Nat.lt_succ_iff_lt_or_eq.mp inside with less | rfl
      · exact .inl ⟨place, less, here, first⟩
      · exact .inr ⟨first, here⟩

theorem ends_literal (rest : List Element) :
    ends text (.literal mark :: rest) place =
      if mark <+: text.drop place then ends text rest (place + mark.length) else [] := by
  rw [ends, Element.ends]
  split <;> simp

theorem ends_lineStart (rest : List Element) :
    ends text (.lineStart :: rest) place = if LineStart text place then ends text rest place else [] := by
  rw [ends, Element.ends]
  split <;> simp

/-- A lazy run ends as early as what follows allows. -/
theorem head?_ends_anyText (rest : List Element) (inside : place ≤ text.length) :
    (ends text (anyText false :: rest) place).head? = some stop ↔
      ∃ middle, place ≤ middle ∧ middle ≤ text.length ∧ (ends text rest middle).head? = some stop ∧
        ∀ earlier, place ≤ earlier → earlier < middle → ends text rest earlier = [] := by
  have whole : ((text.drop place).takeWhile fun _ => true).length = text.length - place := by
    rw [List.takeWhile_eq_self_iff.mpr (fun _ _ => rfl), List.length_drop]
  rw [ends, anyText, Element.ends, whole, if_neg Bool.false_ne_true, List.head?_flatMap,
    List.findSome?_map, findSome?_range_eq_some_iff]
  simp only [Function.comp_apply, List.head?_eq_none_iff]
  constructor
  · rintro ⟨offset, within, here, first⟩
    refine ⟨place + offset, Nat.le_add_right .., by omega, here, fun earlier behind before => ?_⟩
    obtain ⟨sooner, rfl⟩ := Nat.exists_eq_add_of_le behind
    exact first sooner (by omega)
  · rintro ⟨middle, behind, within, here, first⟩
    obtain ⟨offset, rfl⟩ := Nat.exists_eq_add_of_le behind
    exact ⟨offset, by omega, here, fun earlier before => first _ (Nat.le_add_right ..) (by omega)⟩

/-- A greedy run goes on to its end if what follows cannot begin inside it. -/
theorem head?_ends_blanks (rest : List Element)
    (visible : ∀ middle, place ≤ middle → middle < visibleFrom text place → ends text rest middle = []) :
    (ends text (.run Text.isBlank true :: rest) place).head? =
      (ends text rest (visibleFrom text place)).head? := by
  rw [visibleFrom] at visible ⊢
  rw [ends, Element.ends]
  generalize ((text.drop place).takeWhile Text.isBlank).length = size at visible ⊢
  rw [if_pos rfl, List.range_succ, List.map_append, List.reverse_append, List.flatMap_append]
  have others : ((List.range size).map (place + ·)).reverse.flatMap (ends text rest) = [] := by
    rw [List.flatMap_eq_nil_iff]
    intro middle member
    obtain ⟨offset, within, rfl⟩ := List.mem_map.mp (List.mem_reverse.mp member)
    exact visible _ (Nat.le_add_right ..) (Nat.add_lt_add_left (List.mem_range.mp within) place)
  rw [others]
  simp

theorem head?_ends_lineEnd (inside : place ≤ text.length) :
    (ends text [anyText false, .lineEnd] place).head? = some (lineStop text place) := by
  have here : ∀ middle, ends text [.lineEnd] middle =
      if text.length ≤ middle ∨ text[middle]? = some '\n' then [middle] else [] := by
    intro middle
    rw [ends, Element.ends]
    split <;> simp [ends]
  rw [head?_ends_anyText _ inside]
  refine ⟨lineStop text place, Nat.le_add_right .., lineStop_le inside, ?_, fun earlier behind before => ?_⟩
  · rw [here, if_pos (lineStop_stops text place)]
    rfl
  · obtain ⟨char, held, unbroken⟩ := getElem?_run behind before
    have within := (List.getElem?_eq_some_iff.mp held).1
    rw [here, if_neg]
    rintro (past | stops)
    · omega
    · rw [held] at stops
      cases stops
      exact absurd unbroken (by decide)

theorem head?_block : (ends text Kind.block.elements start).head? = some stop ↔ BlockAt text start stop := by
  have closed : ∀ middle, (ends text [.literal ['*', '/']] middle).head? = some stop ↔
      Stands ['*', '/'] text middle ∧ stop = middle + 2 := by
    intro middle
    rw [ends_literal]
    split <;> simp_all [ends, Stands, eq_comm]
  have unclosed : ∀ middle, ends text [.literal ['*', '/']] middle = [] ↔ ¬ Stands ['*', '/'] text middle := by
    intro middle
    rw [ends_literal]
    split <;> simp_all [ends, Stands]
  rw [Kind.elements, ends_literal]
  split
  · rename_i opens
    have inside : start + 2 ≤ text.length := by
      have := opens.length_le
      simp at this
      omega
    change (ends text (anyText false :: _) (start + 2)).head? = some stop ↔ _
    rw [head?_ends_anyText _ inside]
    simp only [closed, unclosed]
    constructor
    · rintro ⟨middle, behind, -, ⟨closes, rfl⟩, first⟩
      exact ⟨opens, middle, behind, closes, first, rfl⟩
    · rintro ⟨-, close, behind, closes, first, rfl⟩
      exact ⟨close, behind, Nat.le_of_lt (lt_of_stands closes), ⟨closes, rfl⟩, first⟩
  · rename_i other
    constructor
    · intro found
      cases found
    · exact fun block => absurd block.1 other

theorem head?_line (known : LineMark mark) :
    (ends text (lineElements mark) start).head? = some stop ↔ LineCommentAt mark text start stop := by
  have visible : ∀ middle, start ≤ middle → middle < visibleFrom text start →
      ends text (.literal mark :: [anyText false, .lineEnd]) middle = [] := by
    intro middle behind before
    obtain ⟨char, held, blank⟩ := getElem?_run behind before
    rw [ends_literal, if_neg]
    intro stands
    have first : ∃ char, text[middle]? = some char ∧ Text.isBlank char = false := by
      rcases known with rfl | rfl
      · exact ⟨_, (stands_cons.mp stands).1, by decide⟩
      · exact ⟨_, (stands_cons.mp stands).1, by decide⟩
    obtain ⟨other, there, shown⟩ := first
    rw [held] at there
    cases there
    rw [blank] at shown
    cases shown
  rw [lineElements, ends_lineStart]
  split
  · rename_i begins
    rw [head?_ends_blanks _ visible, ends_literal]
    split
    · rename_i stands
      have inside : visibleFrom text start + mark.length ≤ text.length := by
        have size := stands.length_le
        rw [List.length_drop] at size
        rcases known with rfl | rfl <;> simp at size ⊢ <;> omega
      rw [head?_ends_lineEnd inside, Option.some_inj]
      constructor
      · rintro rfl
        exact ⟨begins, stands, rfl⟩
      · exact fun line => line.2.2.symm
    · rename_i other
      constructor
      · intro found
        cases found
      · exact fun line => absurd line.2.1 other
  · rename_i other
    constructor
    · intro found
      cases found
    · exact fun line => absurd line.1 other

theorem head?_elements (kind : Kind) :
    (ends text kind.elements start).head? = some stop ↔ MatchesAt kind text start stop := by
  cases kind with
  | block => exact head?_block
  | hash => exact head?_line (.inl rfl)
  | slashes => exact head?_line (.inr rfl)

/-- The match of the three kinds is the comment with the earliest start, in whatever order they
are tried. -/
theorem firstMatch?_eq_some_iff {order : List Kind} (all : ∀ kind, kind ∈ order) :
    firstMatch? (order.map Kind.elements) text = some (start, stop) ↔ Leftmost text start stop := by
  have here : ∀ start stop, ((order.map Kind.elements).flatMap (ends text · start)).head? = some stop ↔
      CommentAt text start stop := by
    intro start stop
    rw [List.head?_flatMap, List.findSome?_map]
    constructor
    · intro found
      obtain ⟨kind, -, matched⟩ := List.exists_of_findSome?_eq_some found
      exact ⟨kind, (head?_elements kind).mp matched⟩
    · rintro ⟨kind, matched⟩
      have some : (order.findSome? ((fun elements => (ends text elements start).head?) ∘ Kind.elements)).isSome := by
        rw [List.findSome?_isSome_iff]
        exact ⟨kind, all kind, by rw [Function.comp_apply, (head?_elements kind).mpr matched]; rfl⟩
      obtain ⟨other, found⟩ := Option.isSome_iff_exists.mp some
      obtain ⟨second, -, also⟩ := List.exists_of_findSome?_eq_some found
      rw [found, (matchesAt_unique matched ((head?_elements second).mp also)).2]
  have nowhere : ∀ start, (((order.map Kind.elements).flatMap (ends text · start)).head?.map (start, ·)) = none ↔
      ∀ stop, ¬ CommentAt text start stop := by
    intro start
    rw [Option.map_eq_none_iff, Option.eq_none_iff_forall_ne_some]
    exact forall_congr' fun stop => not_congr (here start stop)
  rw [firstMatch?, findSome?_range_eq_some_iff]
  simp only [nowhere, Option.map_eq_some_iff, here, Prod.mk.injEq]
  constructor
  · rintro ⟨_, -, ⟨_, comment, rfl, rfl⟩, first⟩
    refine ⟨Nat.zero_le _, comment, fun other stop _ there => ?_⟩
    exact Nat.le_of_not_lt fun before => first other before stop there
  · intro first
    refine ⟨start, Nat.lt_succ_of_lt first.comment.inside, ⟨stop, first.comment, rfl, rfl⟩, ?_⟩
    exact fun other before stop there => absurd (first.earliest other stop (Nat.zero_le _) there) (by omega)

example : firstMatch? ([Kind.block, .hash, .slashes].map Kind.elements) "a\n\n # /**/".toList =
    some (2, 10) := by
  decide +kernel

end Comment

namespace Snippet
open Comment

/-- The snippet of some lines is the comment with the earliest start in the lines put in a row:
without the blanks around it, a space for each line end, and cut; without a comment it is the
first visible lines. At most one kind of comment matches at a place, and the comment with the
earliest start is the match of the three kinds as one pattern, in whatever order they are
tried. -/
theorem ofLines_leftmost (lines : List Text) :
    let text : Text := ['\n'].intercalate lines
    let trimmed (part : Text) : Text := (part.dropWhile Text.isBlank).rdropWhile Text.isBlank
    ((∃ start stop, Leftmost text start stop ∧ ofLines lines =
        ((trimmed (text.extract start stop)).map fun char => if char = '\n' then ' ' else char).take 400) ∨
      (∀ start stop, ¬ CommentAt text start stop) ∧ ofLines lines =
        (" | ".toList.intercalate (((lines.map trimmed).filter (· ≠ [])).take 3)).take 400) ∧
    (∀ first second start stop other, MatchesAt first text start stop →
      MatchesAt second text start other → first = second ∧ stop = other) ∧
    ∀ order : List Kind, (∀ kind, kind ∈ order) → ∀ start stop,
      firstMatch? (order.map Kind.elements) text = some (start, stop) ↔ Leftmost text start stop := by
  intro text trimmed
  refine ⟨?_, fun _ _ _ _ _ => matchesAt_unique, fun order all start stop => firstMatch?_eq_some_iff all⟩
  cases found : first? (Text.join ['\n'] lines) with
  | some comment =>
    obtain ⟨start, stop, leftmost, rfl⟩ := first?_eq_some_iff.mp found
    refine .inl ⟨start, stop, leftmost, ?_⟩
    rw [ofLines, found]
    rfl
  | none =>
    refine .inr ⟨first?_eq_none_iff.mp found, ?_⟩
    rw [ofLines, found]
    rfl

end Snippet
end SourceIndex
