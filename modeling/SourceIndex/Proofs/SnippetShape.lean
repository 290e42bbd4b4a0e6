import SourceIndex.Proofs.CommentMatches
import SourceIndex.Proofs.DecodedLines

/-! The shape of a snippet. Both ways to make one first make a text that neither starts nor ends with a
blank, and that is empty only if nothing in the head of the file can be seen (`ofLines_cut`). The cut
to the limit keeps the front of it, so only a snippet of full length can end with a blank. -/
namespace SourceIndex

namespace Text

/-- Text that neither starts nor ends with a blank. -/
structure Trimmed (text : Text) : Prop where
  front : ∀ char, text.head? = some char → isBlank char = false
  back : ∀ char, text.getLast? = some char → isBlank char = false

/-- Text that shows nothing. -/
def Blank (text : Text) : Prop := ∀ char ∈ text, isBlank char = true

variable {text : Text}

theorem not_blank_of_mem {char : Char} (member : char ∈ text) (visible : isBlank char = false) :
    ¬ text.Blank := by
  intro blank
  rw [blank char member] at visible
  cases visible

theorem trimEnd_prefix_self (text : Text) : trimEnd text <+: text := by
  rw [trimEnd, ← List.reverse_suffix, List.reverse_reverse]
  exact List.dropWhile_suffix isBlank

theorem trimEnd_back (text : Text) : ∀ char, (trimEnd text).getLast? = some char → isBlank char = false := by
  intro char last
  have stops := List.head?_dropWhile_not isBlank text.reverse
  rw [trimEnd, List.getLast?_reverse] at last
  simpa [last] using stops

theorem trimStart_front (text : Text) :
    ∀ char, (trimStart text).head? = some char → isBlank char = false := by
  intro char first
  have stops := List.head?_dropWhile_not isBlank text
  rw [trimStart] at first
  simpa [first] using stops

theorem trim_trimmed (text : Text) : (trim text).Trimmed where
  front := by
    intro char first
    refine trimStart_front text char ?_
    obtain ⟨blanks, whole⟩ := trimEnd_prefix_self (trimStart text)
    rw [← whole, List.head?_append]
    exact Option.or_eq_some_iff.mpr (.inl first)
  back := trimEnd_back (trimStart text)

theorem trimEnd_eq_nil_iff : trimEnd text = [] ↔ text.Blank := by
  rw [trimEnd, List.reverse_eq_nil_iff, List.dropWhile_eq_nil_iff]
  simp [Blank]

/-- A text that is blank up to its end is blank. -/
theorem blank_trimEnd_iff : (trimEnd text).Blank ↔ text.Blank := by
  constructor
  · intro blank
    refine trimEnd_eq_nil_iff.mp (List.getLast?_eq_none_iff.mp ?_)
    cases last : (trimEnd text).getLast? with
    | none => rfl
    | some char =>
      have shown := trimEnd_back text char last
      rw [blank char (List.mem_of_getLast? last)] at shown
      cases shown
  · exact fun blank char member => blank char (trimEnd_subset text member)

theorem blank_trimStart_iff : (trimStart text).Blank ↔ text.Blank := by
  constructor
  · intro blank
    have none : trimStart text = [] := by
      refine List.head?_eq_none_iff.mp ?_
      cases first : (trimStart text).head? with
      | none => rfl
      | some char =>
        have shown := trimStart_front text char first
        rw [blank char (List.mem_of_head? first)] at shown
        cases shown
    exact List.dropWhile_eq_nil_iff.mp none
  · exact fun blank char member => blank char ((List.dropWhile_suffix isBlank).subset member)

theorem trim_eq_nil_iff : trim text = [] ↔ text.Blank := by
  rw [trim, trimEnd_eq_nil_iff, blank_trimStart_iff]

theorem trimmed_nil : Trimmed [] := ⟨nofun, nofun⟩

theorem join_cons {rest : List Text} (more : rest ≠ []) (separator text : Text) :
    join separator (text :: rest) = text ++ separator ++ join separator rest := by
  rw [join, List.intercalate_cons_of_ne_nil more]
  rfl

theorem join_eq_nil_iff {separator : Text} {texts : List Text} (shown : ∀ text ∈ texts, text ≠ []) :
    join separator texts = [] ↔ texts = [] := by
  cases texts with
  | nil => simp [join]
  | cons text rest =>
    have some := shown text List.mem_cons_self
    cases rest with
    | nil => simpa [join] using some
    | cons next rest =>
      rw [join_cons (List.cons_ne_nil next rest)]
      simp [some]

/-- A row of trimmed texts is trimmed. -/
theorem Trimmed.join {separator : Text} {texts : List Text} (shown : ∀ text ∈ texts, text ≠ [])
    (trimmed : ∀ text ∈ texts, text.Trimmed) : (Text.join separator texts).Trimmed := by
  induction texts with
  | nil => exact trimmed_nil
  | cons text rest ih =>
    obtain ⟨first, others⟩ := List.forall_mem_cons.mp trimmed
    obtain ⟨some, more⟩ := List.forall_mem_cons.mp shown
    by_cases alone : rest = []
    · subst alone
      simpa [Text.join] using first
    have further := ih more others
    have nonempty : Text.join separator rest ≠ [] := mt (join_eq_nil_iff more).mp alone
    rw [join_cons alone]
    refine ⟨fun char front => first.front char ?_, fun char back => further.back char ?_⟩
    · rwa [List.append_assoc, List.head?_append_of_ne_nil _ some] at front
    · rwa [List.getLast?_append_of_ne_nil _ nonempty] at back

end Text

namespace Comment

variable {text comment : Text} {lineStart : Bool}

theorem blockAt?_shown (found : blockAt? text = some comment) : ¬ comment.Blank := by
  rw [blockAt?.eq_def] at found
  split at found
  · obtain ⟨more, _, rfl⟩ := Option.map_eq_some_iff.mp found
    exact Text.not_blank_of_mem (List.mem_append_left more List.mem_cons_self) (by decide)
  · cases found

theorem lineAt?_shown (found : lineAt? text = some comment) : ¬ comment.Blank := by
  rw [lineAt?] at found
  split at found
  · rename_i marked
    cases found
    rcases isLineMark_iff.mp marked with ⟨rest, front⟩ | ⟨rest, front⟩
    · rw [← front]
      exact Text.not_blank_of_mem (List.mem_append_right _ List.mem_cons_self) (by decide)
    · rw [← front]
      exact Text.not_blank_of_mem (List.mem_append_right _ List.mem_cons_self) (by decide)
  · cases found

/-- A comment shows something, its mark at least. -/
theorem search_shown (found : search lineStart text = some comment) : ¬ comment.Blank := by
  induction text generalizing lineStart with
  | nil => cases found
  | cons char rest ih =>
    unfold search at found
    split at found
    · rename_i here
      cases found
      unfold at? at here
      split at here
      · rename_i block
        cases here
        exact blockAt?_shown block
      · split at here
        · exact lineAt?_shown here
        · cases here
    · exact ih found

end Comment

namespace Snippet

variable {text : Text} {lines : List Text}

/-- Only blanks are replaced, and by blanks, so nothing changes at the two ends. -/
theorem flatten_trimmed (trimmed : text.Trimmed) : (flatten text).Trimmed := by
  have kept : ∀ {char : Option Char}, (∀ held, char = some held → Text.isBlank held = false) →
      ∀ shown, char.map (fun char => if char = '\n' then ' ' else char) = some shown →
        Text.isBlank shown = false := by
    intro char visible shown front
    obtain ⟨held, here, rfl⟩ := Option.map_eq_some_iff.mp front
    have other : held ≠ '\n' := by
      rintro rfl
      cases visible _ here
    rw [if_neg other]
    exact visible held here
  constructor
  · rw [flatten, List.head?_map]
    exact kept trimmed.front
  · rw [flatten, List.getLast?_map]
    exact kept trimmed.back

/-- What the fallback puts in a row. -/
private theorem fallback_row (lines : List Text) :
    ∀ text ∈ ((lines.map Text.trim).filter (· ≠ [])).take fallbackLines, text ≠ [] ∧ Text.Trimmed text := by
  intro text member
  obtain ⟨inside, some⟩ := List.mem_filter.mp (List.mem_of_mem_take member)
  obtain ⟨line, _, rfl⟩ := List.mem_map.mp inside
  exact ⟨of_decide_eq_true some, Text.trim_trimmed line⟩

theorem fallback_trimmed (lines : List Text) : (fallback lines).Trimmed :=
  .join (fun text member => (fallback_row lines text member).1)
    fun text member => (fallback_row lines text member).2

theorem fallback_eq_nil_iff : fallback lines = [] ↔ ∀ line ∈ lines, line.Blank := by
  rw [fallback, Text.join_eq_nil_iff fun text member => (fallback_row lines text member).1,
    List.take_eq_nil_iff, or_iff_right (by decide), List.filter_eq_nil_iff]
  simp [Text.trim_eq_nil_iff]

/-- What a snippet is cut from. -/
theorem ofLines_cut (lines : List Text) : ∃ whole, ofLines lines = Text.truncate maxLength whole ∧
    whole.Trimmed ∧ (whole = [] ↔ ∀ line ∈ lines, line.Blank) := by
  rw [ofLines]
  split
  · rename_i comment found
    refine ⟨_, rfl, flatten_trimmed (Text.trim_trimmed comment), ?_⟩
    have shown := Comment.search_shown found
    refine iff_of_false ?_ fun blank => shown fun char member => ?_
    · rw [flatten, List.map_eq_nil_iff, Text.trim_eq_nil_iff]
      exact shown
    · rcases Text.mem_join ((Comment.search_infix found).subset member) with mark | ⟨line, there, inside⟩
      · cases List.mem_singleton.mp mark
        rfl
      · exact blank line there char inside
  · exact ⟨_, rfl, fallback_trimmed lines, fallback_eq_nil_iff⟩

/-- What holds of the snippet of this content. -/
structure WellFormed (content : Bytes) (snippet : Text) : Prop where
  short : snippet.length ≤ 400
  oneLine : '\n' ∉ snippet ∧ '\r' ∉ snippet
  front : ∀ char, snippet.head? = some char → Text.isBlank char = false
  back : snippet.length < 400 → ∀ char, snippet.getLast? = some char → Text.isBlank char = false
  /-- Nothing can be seen in the first lines of the content. -/
  empty_iff : snippet = [] ↔
    ∀ line ∈ (Utf8.lossy content).lines.take 30, ∀ char ∈ line, Text.isBlank char = true

theorem ofInput_ofBytes (content : Bytes) : ofInput (Input.ofBytes content : Input ε) =
    .ok (ofLines (Head.firstLines windowLines content)) := by
  have whole : (Input.ofBytes content : Input ε).content = content := by
    cases content <;> simp [Input.ofBytes, Input.content]
  have ends : (Input.ofBytes content : Input ε).fault? = none := by
    rw [Input.fault?]
    split <;> rfl
  rw [ofInput, Head.read_fst, whole, ends]
  rfl

theorem wellFormed_ofLines (content : Bytes) :
    WellFormed content (ofLines (Head.firstLines windowLines content)) := by
  obtain ⟨whole, cut, trimmed, empty_iff⟩ := ofLines_cut (Head.firstLines windowLines content)
  have oneLine := ofInput_oneLine (ofInput_ofBytes (ε := Empty) content)
  rw [cut, Text.truncate] at oneLine ⊢
  refine ⟨List.length_take_le .., oneLine, fun char first => trimmed.front char ?_,
    fun short char last => trimmed.back char ?_, ?_⟩
  · rwa [List.head?_take, if_neg (by decide)] at first
  · have limit : maxLength = 400 := rfl
    rw [List.length_take] at short
    have uncut : whole.length ≤ maxLength := by omega
    rwa [List.take_of_length_le uncut] at last
  · rw [List.take_eq_nil_iff, or_iff_right (by decide), empty_iff, Head.firstLines_eq, List.forall_mem_map]
    exact forall₂_congr fun line _ => Text.blank_trimEnd_iff

end Snippet

/-- Every snippet is well formed, whatever the file holds, and a file that cannot be read has
the empty one. -/
theorem Index.headerSnippet_wellFormed (store : Store) (path : Path) :
    match store.read path with
    | .ok content => Snippet.WellFormed content (headerSnippet store path)
    | .error _ => headerSnippet store path = [] := by
  rw [headerSnippet, snippetOf]
  cases store.read path with
  | error refusal => rfl
  | ok content =>
    dsimp only
    rw [Snippet.ofInput_ofBytes]
    exact Snippet.wellFormed_ofLines content

end SourceIndex
