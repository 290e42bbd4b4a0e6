import SourceIndex.Proofs.SnippetShape

/-! A snippet does not depend on how a file ends its lines. Whatever convention the file keeps to,
cutting it gives its lines and an empty last piece (`pieces_written`), and blanks behind a line are
trimmed away again, also behind a sequence that breaks off (`lineText_padded`). So all writings of
some lines have one head, and files with a common front of thirty line ends have one head too. -/
namespace SourceIndex

namespace Text

variable {text blanks : Text}

theorem trimEnd_append (blank : blanks.Blank) (text : Text) : trimEnd (text ++ blanks) = trimEnd text := by
  have all : ∀ char ∈ blanks.reverse, isBlank char = true :=
    fun char member => blank char (List.mem_reverse.mp member)
  rw [trimEnd, List.reverse_append, List.dropWhile_append_of_pos all, trimEnd]

/-- Text that is cut into lines and an empty last piece consists of these lines. -/
theorem lines_of_pieces {row : List Text} (cut : pieces text = row ++ [[]]) : lines text = row := by
  rw [lines, cut, List.getLast?_concat, if_pos rfl, List.dropLast_concat]

end Text

namespace Head

/-- A convention for the ends of lines. -/
inductive Ending where
  | newline
  | pair
  | lone
  deriving DecidableEq, Repr

def Ending.bytes : Ending → Bytes
  | .newline => [Head.newline]
  | .pair => [carriageReturn, Head.newline]
  | .lone => [carriageReturn]

/-- A line and the spaces and tabs that a file has behind it. -/
structure PaddedLine where
  line : Bytes
  padding : Bytes
  unbroken : Unbroken line
  blank : ∀ byte ∈ padding, byte = 0x20 ∨ byte = 0x09

/-- A file that ends every line in the same way. -/
def written (ending : Ending) (rows : List PaddedLine) : Bytes :=
  rows.flatMap fun row => row.line ++ row.padding ++ ending.bytes

variable {ending : Ending} {rows : List PaddedLine}

theorem PaddedLine.unbroken_padded (row : PaddedLine) : Unbroken (row.line ++ row.padding) := by
  have plain : Unbroken row.padding := by
    constructor
    · intro member
      rcases row.blank _ member with same | same <;> cases same
    · intro member
      rcases row.blank _ member with same | same <;> cases same
  simp [Unbroken, row.unbroken.1, row.unbroken.2, plain.1, plain.2]

/-- Spaces and tabs are no part of a line, even where they end a sequence that breaks off. -/
theorem lineText_padded {padding : Bytes} (blank : ∀ byte ∈ padding, byte = 0x20 ∨ byte = 0x09)
    (line : Bytes) : lineText (line ++ padding) = lineText line := by
  induction padding using List.reverseRecOn with
  | nil => rw [List.append_nil]
  | append_singleton padding byte ih =>
    obtain ⟨before, last⟩ := List.forall_mem_append.mp blank
    have kind := last byte (List.mem_singleton.mpr rfl)
    have ascii : byte < 0x80 := by
      rcases kind with rfl | rfl <;> decide
    have shown : Text.Blank [Char.ofNat byte.toNat] := by
      rcases kind with rfl | rfl <;> simp [Text.Blank] <;> decide
    have decoded := Utf8.lossy_append ascii (line ++ padding) []
    rw [← List.append_assoc, lineText, decoded]
    exact (Text.trimEnd_append shown _).trans (ih before)

/-- No line begins with a newline, so a lone return in front of it stands alone. -/
theorem head?_written (rows : List PaddedLine) : (Utf8.lossy (written .lone rows)).head? ≠ some '\n' := by
  cases rows with
  | nil => nofun
  | cons row rows =>
    have shape : written .lone (row :: rows) =
        row.line ++ row.padding ++ carriageReturn :: written .lone rows := by
      simp [written, Ending.bytes]
    rw [shape]
    cases front : row.line ++ row.padding with
    | nil => exact head?_lossy_ne (by decide) _
    | cons byte rest =>
      refine head?_lossy_ne ?_ _
      rintro rfl
      exact row.unbroken_padded.1 (front ▸ List.mem_cons_self)

/-- Under every convention a file is cut into its lines, with nothing behind the last of them. -/
theorem pieces_written (ending : Ending) (rows : List PaddedLine) :
    Text.pieces (Utf8.lossy (written ending rows)) =
      rows.map (fun row => Utf8.lossy (row.line ++ row.padding)) ++ [[]] := by
  induction rows with
  | nil => exact Text.pieces_alone (lossy_oneLine unbroken_nil)
  | cons row rows ih =>
    have single := lossy_oneLine row.unbroken_padded
    have shape : written ending (row :: rows) =
        row.line ++ row.padding ++ (ending.bytes ++ written ending rows) := by
      simp [written]
    rw [shape, List.map_cons, List.cons_append, ← ih]
    cases ending with
    | newline => exact (congrArg Text.pieces (lossy_newline _ _)).trans (Text.pieces_newline single _)
    | pair =>
      have second : Utf8.lossy (newline :: written .pair rows) =
          '\n' :: Utf8.lossy (written .pair rows) := lossy_newline [] _
      have decoded := lossy_return (row.line ++ row.padding) (newline :: written .pair rows)
      rw [second] at decoded
      exact (congrArg Text.pieces decoded).trans (Text.pieces_pair single _)
    | lone =>
      exact (congrArg Text.pieces (lossy_return _ _)).trans (Text.pieces_return single (head?_written rows))

/-- What is read of a file are its lines; neither their ends nor the blanks behind them show. -/
theorem firstLines_written (limit : Nat) (ending : Ending) (rows : List PaddedLine) :
    firstLines limit (written ending rows) = ((rows.map PaddedLine.line).map lineText).take limit := by
  have kept : ∀ row ∈ rows, lineText (row.line ++ row.padding) = lineText row.line :=
    fun row _ => lineText_padded row.blank row.line
  rw [firstLines_eq, Text.lines_of_pieces (pieces_written ending rows), List.map_take, List.map_map,
    List.map_map]
  exact congrArg (List.take limit) (List.map_congr_left kept)

/-- Line ends that are complete within a common front end the same lines. -/
theorem firstLines_of_prefix {limit : Nat} {front content : Bytes} (complete : limit ≤ (lineEnds front).length)
    (begins : front <+: content) : firstLines limit content = firstLines limit front := by
  obtain ⟨more, rfl⟩ := begins
  exact firstLines_append complete more

end Head

namespace Index
open Head

variable {store other : Store} {path second : Path} {content changed : Bytes}

theorem headerSnippet_of_read (read : store.read path = .ok content) :
    headerSnippet store path = Snippet.ofLines (firstLines Snippet.windowLines content) := by
  rw [headerSnippet, snippetOf, read]
  dsimp only
  rw [Snippet.ofInput_ofBytes]

/-- The snippet of a file does not show how the file ends its lines. Two files that hold the same lines,
each ended by its own convention and with any spaces and tabs behind them, have one snippet; so have
two files with a common front that holds thirty line ends. A line end counts where it begins, so
the thirtieth may be a lone return in one file and a pair in the other. -/
theorem headerSnippet_rewritten (read : store.read path = .ok content)
    (readToo : other.read second = .ok changed) :
    (∀ (ending another : Ending) (rows others : List PaddedLine),
      rows.map PaddedLine.line = others.map PaddedLine.line → content = written ending rows →
        changed = written another others → headerSnippet store path = headerSnippet other second) ∧
    ∀ front, 30 ≤ (lineEnds front).length → front <+: content → front <+: changed →
      headerSnippet store path = headerSnippet other second := by
  rw [headerSnippet_of_read read, headerSnippet_of_read readToo]
  constructor
  · rintro ending another rows others same rfl rfl
    rw [firstLines_written, firstLines_written, same]
  · intro front complete begins beginsToo
    have head : firstLines Snippet.windowLines content = firstLines Snippet.windowLines front :=
      firstLines_of_prefix complete begins
    have headToo : firstLines Snippet.windowLines changed = firstLines Snippet.windowLines front :=
      firstLines_of_prefix complete beginsToo
    rw [head, headToo]

/-- A line that breaks off inside a character and an empty line. -/
def bareRows : List PaddedLine :=
  [⟨[0x23, 0xE2, 0x82], [], ⟨by decide, by decide⟩, by simp⟩, ⟨[], [], unbroken_nil, by simp⟩]

def paddedRows : List PaddedLine :=
  [⟨[0x23, 0xE2, 0x82], [0x20, 0x09], ⟨by decide, by decide⟩, by simp⟩,
    ⟨[], [0x20], unbroken_nil, by simp⟩]

/-- The same lines written in two ways, and two files that go on differently behind thirty returns. -/
def conventions : Store where
  working := []
  nodes := [([Utf8.encode "bare.py".toList], .file (written .lone bareRows)),
    ([Utf8.encode "padded.py".toList], .file (written .pair paddedRows)),
    ([Utf8.encode "long.py".toList], .file (List.replicate 30 carriageReturn ++ [newline, 0x23])),
    ([Utf8.encode "longer.py".toList], .file (List.replicate 30 carriageReturn ++ [0x23, 0x61]))]

theorem headerSnippet_rewritten_padded :
    headerSnippet conventions (.ofString "bare.py") = headerSnippet conventions (.ofString "padded.py") ∧
      headerSnippet conventions (.ofString "bare.py") = ['#', '\uFFFD'] ∧
      headerSnippet conventions (.ofString "long.py") = headerSnippet conventions (.ofString "longer.py") :=
  ⟨(headerSnippet_rewritten rfl rfl).1 .lone .pair bareRows paddedRows rfl rfl rfl, by decide +kernel,
    (headerSnippet_rewritten rfl rfl).2 (List.replicate 30 carriageReturn) (by decide +kernel)
      (List.prefix_append ..) (List.prefix_append ..)⟩

end Index
end SourceIndex
