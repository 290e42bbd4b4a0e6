import Mathlib.Data.List.Infix
import SourceIndex.Index
import SourceIndex.Proofs.Utf8RoundTrip

/-! A snippet is one line. The head of a file is cut into lines at every kind of line end, so
no line of it holds one, whatever the chunks it arrives in (`readFrom_unbroken`). A comment is
part of these lines put in a row, and where it spans several of them the breaks become spaces;
without a comment some of the lines are put in a row with no break between them. -/
namespace SourceIndex

/-- A character of replaced text that is no replacement stands in the bytes. -/
theorem Utf8.mem_lossy {bytes : Bytes} {char : Char} (member : char ∈ lossy bytes)
    (real : char ≠ '\uFFFD') : encodeChar char <:+: bytes := by
  obtain ⟨piece, decoded, shown⟩ := List.mem_map.mp member
  cases piece with
  | broken run => exact absurd shown.symm real
  | scalar held =>
    cases shown
    exact infix_of_scalar_mem decoded

namespace Head

/-- Bytes without a line end of any kind. -/
def Unbroken (line : Bytes) : Prop := newline ∉ line ∧ carriageReturn ∉ line

namespace Progress

/-- Neither the finished lines nor the one in progress hold a line end. -/
structure Cut (progress : Progress) : Prop where
  lines : ∀ line ∈ progress.lines, Unbroken line
  pending : Unbroken progress.pending

variable {progress : Progress}

theorem start_cut : start.Cut where
  lines := by simp [start]
  pending := by simp [start, Unbroken]

theorem Cut.endLine (cut : progress.Cut) (afterReturn : Bool) : (progress.endLine afterReturn).Cut where
  lines := by
    refine List.forall_mem_cons.mpr ⟨?_, cut.lines⟩
    simpa [Unbroken] using cut.pending
  pending := by simp [Progress.endLine, Unbroken]

theorem Cut.step (cut : progress.Cut) (byte : UInt8) : (progress.step byte).Cut := by
  unfold Progress.step
  by_cases ends : byte = newline
  · rw [if_pos ends]
    split
    · exact ⟨cut.lines, cut.pending⟩
    · exact cut.endLine false
  rw [if_neg ends]
  by_cases returns : byte = carriageReturn
  · rw [if_pos returns]
    exact cut.endLine true
  · rw [if_neg returns]
    refine ⟨cut.lines, ?_⟩
    obtain ⟨noNewline, noReturn⟩ := cut.pending
    simp [Unbroken, noNewline, noReturn, Ne.symm ends, Ne.symm returns]

theorem Cut.feed (cut : progress.Cut) (limit : Nat) (bytes : Bytes) :
    (progress.feed limit bytes).1.Cut := by
  induction bytes generalizing progress with
  | nil => exact cut
  | cons byte rest ih =>
    have next := cut.step byte
    unfold Progress.feed
    dsimp only
    split
    · exact next
    · exact ih next

theorem Cut.finish (cut : progress.Cut) (limit : Nat) :
    ∀ line ∈ progress.finish limit, Unbroken line := by
  intro line member
  unfold Progress.finish at member
  split at member
  · exact (cut.endLine false).lines line (List.mem_reverse.mp member)
  · exact cut.lines line (List.mem_reverse.mp member)

end Progress

/-- No line that is read holds a line end. -/
theorem readFrom_unbroken {limit consumed taken : Nat} {failure : Option ε} {progress : Progress}
    {chunks lines : List Bytes} (cut : progress.Cut)
    (ran : readFrom limit failure progress consumed chunks = (.ok lines, taken)) :
    ∀ line ∈ lines, Unbroken line := by
  induction chunks generalizing progress consumed with
  | nil =>
    rw [readFrom.eq_def] at ran
    dsimp only at ran
    split at ran
    · cases ran
      exact cut.finish limit
    · split at ran <;> cases ran
      exact cut.finish limit
  | cons chunk chunks ih =>
    rw [readFrom.eq_def] at ran
    dsimp only at ran
    split at ran
    · cases ran
      exact cut.finish limit
    · exact ih (cut.feed limit chunk) ran

end Head

namespace Text

/-- Text without a line end of any kind. -/
def OneLine (text : Text) : Prop := '\n' ∉ text ∧ '\r' ∉ text

instance (text : Text) : Decidable text.OneLine := inferInstanceAs (Decidable (_ ∧ _))

variable {text part : Text}

theorem OneLine.of_subset (single : text.OneLine) (inside : part ⊆ text) : part.OneLine :=
  ⟨fun member => single.1 (inside member), fun member => single.2 (inside member)⟩

theorem trimEnd_subset (text : Text) : trimEnd text ⊆ text := by
  intro char member
  have inside := (List.dropWhile_suffix isBlank).subset (List.mem_reverse.mp member)
  exact List.mem_reverse.mp inside

theorem trim_subset (text : Text) : trim text ⊆ text :=
  fun _ member => (List.dropWhile_suffix isBlank).subset (trimEnd_subset _ member)

theorem truncate_subset (limit : Nat) (text : Text) : truncate limit text ⊆ text :=
  List.take_subset limit text

/-- A row of texts shows nothing but them and the separator. -/
theorem mem_join {separator : Text} {texts : List Text} {char : Char}
    (member : char ∈ join separator texts) : char ∈ separator ∨ ∃ text ∈ texts, char ∈ text := by
  rw [join, List.intercalate, List.mem_flatten] at member
  obtain ⟨text, inside, held⟩ := member
  induction texts with
  | nil => cases inside
  | cons first rest ih =>
    cases rest with
    | nil => simp_all
    | cons second rest =>
      rw [List.intersperse_cons_cons] at inside
      rcases List.mem_cons.mp inside with rfl | inside
      · exact .inr ⟨_, List.mem_cons_self, held⟩
      rcases List.mem_cons.mp inside with rfl | inside
      · exact .inl held
      rcases ih inside with here | ⟨other, later, holds⟩
      · exact .inl here
      · exact .inr ⟨other, List.mem_cons_of_mem _ later, holds⟩

/-- A row of lines is one line when the separator is. -/
theorem OneLine.join {separator : Text} {texts : List Text} (apart : separator.OneLine)
    (single : ∀ text ∈ texts, text.OneLine) : (Text.join separator texts).OneLine := by
  constructor
  · intro member
    rcases mem_join member with inside | ⟨text, held, inside⟩
    · exact apart.1 inside
    · exact (single text held).1 inside
  · intro member
    rcases mem_join member with inside | ⟨text, held, inside⟩
    · exact apart.2 inside
    · exact (single text held).2 inside

end Text

/-- Decoding makes no line end that is not among the bytes. -/
theorem Head.lossy_oneLine {line : Bytes} (unbroken : Unbroken line) : (Utf8.lossy line).OneLine := by
  constructor
  · intro member
    exact unbroken.1 ((Utf8.mem_lossy member (by decide)).subset (by decide))
  · intro member
    exact unbroken.2 ((Utf8.mem_lossy member (by decide)).subset (by decide))

theorem Head.lineText_oneLine {line : Bytes} (unbroken : Unbroken line) :
    (lineText line).OneLine :=
  (lossy_oneLine unbroken).of_subset (Text.trimEnd_subset _)

theorem Head.read_oneLine {limit : Nat} {input : Input ε} {lines : List Text}
    (ran : (read limit input).1 = .ok lines) : ∀ line ∈ lines, line.OneLine := by
  unfold read at ran
  generalize whole : readFrom limit input.failure .start 0 input.chunks = result at ran
  obtain ⟨answer, taken⟩ := result
  cases answer with
  | error cause => cases ran
  | ok raw =>
    cases ran
    intro line member
    obtain ⟨bytes, held, rfl⟩ := List.mem_map.mp member
    exact lineText_oneLine (readFrom_unbroken Progress.start_cut whole bytes held)

namespace Comment

variable {text rest comment : Text}

theorem blockRest?_front (found : blockRest? text = some comment) : comment <+: text := by
  induction text generalizing comment with
  | nil => cases found
  | cons char text ih =>
    rw [blockRest?.eq_def] at found
    split at found
    · rename_i same
      cases same
      cases found
      exact ⟨_, rfl⟩
    · rename_i none
      cases none
    · rename_i same
      cases same
      obtain ⟨more, ran, rfl⟩ := Option.map_eq_some_iff.mp found
      exact List.cons_prefix_cons.mpr ⟨rfl, ih ran⟩

theorem blockAt?_front (found : blockAt? text = some comment) : comment <+: text := by
  rw [blockAt?.eq_def] at found
  split at found
  · obtain ⟨more, ran, rfl⟩ := Option.map_eq_some_iff.mp found
    simpa using blockRest?_front ran
  · cases found

theorem lineAt?_front (found : lineAt? text = some comment) : comment <+: text := by
  rw [lineAt?] at found
  split at found
  · cases found
    have whole := List.takeWhile_append_dropWhile (l := text) (p := Text.isBlank)
    conv => rhs; rw [← whole]
    exact List.prefix_append_right_inj _ |>.mpr (List.takeWhile_prefix _)
  · cases found

theorem at?_front {lineStart : Bool} (found : at? lineStart text = some comment) :
    comment <+: text := by
  unfold at? at found
  split at found
  · rename_i block
    cases found
    exact blockAt?_front block
  · split at found
    · exact lineAt?_front found
    · cases found

/-- A comment is part of the text that was searched. -/
theorem search_infix {lineStart : Bool} (found : search lineStart text = some comment) :
    comment <:+: text := by
  induction text generalizing lineStart with
  | nil => cases found
  | cons char rest ih =>
    unfold search at found
    split at found
    · rename_i here
      cases found
      exact (at?_front here).isInfix
    · exact List.infix_cons (ih found)

end Comment

namespace Snippet

/-- What is put in a row with line ends is one line when these are taken out again. -/
private theorem flatten_oneLine {text : Text} {lines : List Text}
    (single : ∀ line ∈ lines, line.OneLine) (inside : text ⊆ Text.join ['\n'] lines) :
    (flatten text).OneLine := by
  constructor
  · intro member
    obtain ⟨char, _, shown⟩ := List.mem_map.mp member
    split at shown
    · cases shown
    · rename_i other
      exact other shown
  · intro member
    obtain ⟨char, held, shown⟩ := List.mem_map.mp member
    split at shown
    · cases shown
    · cases shown
      rcases Text.mem_join (inside held) with mark | ⟨line, there, broken⟩
      · cases List.mem_singleton.mp mark
      · exact (single line there).2 broken

theorem ofLines_oneLine {lines : List Text} (single : ∀ line ∈ lines, line.OneLine) :
    (ofLines lines).OneLine := by
  unfold ofLines
  split
  · rename_i comment found
    have inside := List.Subset.trans (Text.trim_subset comment) (Comment.search_infix found).subset
    exact (flatten_oneLine single inside).of_subset (Text.truncate_subset _ _)
  · have visible : (fallback lines).OneLine := by
      apply Text.OneLine.join (by decide)
      intro text member
      have kept := List.mem_filter.mp (List.mem_of_mem_take member)
      obtain ⟨line, there, rfl⟩ := List.mem_map.mp kept.1
      exact (single line there).of_subset (Text.trim_subset line)
    exact visible.of_subset (Text.truncate_subset _ _)

theorem ofInput_oneLine {input : Input ε} {snippet : Text} (made : ofInput input = .ok snippet) :
    snippet.OneLine := by
  unfold ofInput at made
  cases ran : (Head.read windowLines input).1 with
  | error cause =>
    rw [ran] at made
    cases made
  | ok lines =>
    rw [ran] at made
    cases made
    exact ofLines_oneLine (Head.read_oneLine ran)

end Snippet

namespace Index

/-- Whatever a file holds, and if it cannot be read at all, its snippet is one line. -/
theorem headerSnippet_oneLine (store : Store) (path : Path) : (headerSnippet store path).OneLine := by
  unfold headerSnippet
  split
  · rename_i snippet made
    unfold snippetOf at made
    split at made
    · exact Snippet.ofInput_oneLine made
    · cases made
  · exact ⟨List.not_mem_nil, List.not_mem_nil⟩

end Index
end SourceIndex
