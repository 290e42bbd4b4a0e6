import Mathlib.Data.List.Nodup
import Mathlib.Data.List.TakeDrop
import SourceIndex.CommandLine.Parse
import SourceIndex.Proofs.Utf8RoundTrip

/-! Arguments may come in any order and in any of their spellings. `SpelledLine` is the grammar
of command lines: groups of words in a row, each of which says one thing, and at the end
perhaps a root behind `--`. A reader in the middle of such a line may still hold a value that
has not been looked at; settled, it holds what the groups so far have said (`Ready`). Every group
keeps that so, and a line is read as what it asks for (`parse_spelled`). -/
namespace SourceIndex.CommandLine

/-- What a command line asks for; what it leaves open has no value. -/
structure Request where
  root : Option Bytes := none
  output : Option Bytes := none
  format : Option Format := none
  stdout : Bool := false
  verbose : Nat := 0
  deriving DecidableEq, Repr

/-- The settings of a request. -/
def Request.settings (request : Request) : Settings where
  root := (request.root.map Path.mk).getD (.ofString ".")
  output := (request.output.map Path.mk).getD (.ofString "CODE_INDEX.md")
  format := request.format.getD .markdown
  stdout := request.stdout
  verbose := min 255 request.verbose

/-- Whether an argument is part of a request. -/
def Request.gives (request : Request) : Argument → Bool
  | .root => request.root.isSome
  | .output => request.output.isSome
  | .format => request.format.isSome
  | .stdout => request.stdout
  | .verbose => 0 < request.verbose
  | .help | .version => false

/-! ### Spellings -/

def dash : UInt8 := 0x2D
def equals : UInt8 := 0x3D
def letterO : UInt8 := 0x6F
def letterV : UInt8 := 0x76

def ascii (word : String) : Bytes := Utf8.encode word.toList

/-- A value that can be a word of its own: it is not taken for an option. -/
def StandsAlone (value : Bytes) : Prop := value.head? ≠ some dash ∨ value = [dash]

/-- A cluster of `count` times `v`, and what stands behind it. -/
def shortCluster (count : Nat) (rest : Bytes) : Bytes := dash :: (List.replicate count letterV ++ rest)

/-- Words that raise the verbosity, and by how much. -/
inductive VerboseSpelled : (count : Nat) → (words : List Bytes) → Prop
  | long : VerboseSpelled 1 [ascii "--verbose"]
  | short (count : Nat) : VerboseSpelled (count + 1) [shortCluster (count + 1) []]

/-- Words that name the output, and how often `v` stands in front of the letter. -/
inductive OutputSpelled (value : Bytes) : (count : Nat) → (words : List Bytes) → Prop
  | short (count : Nat) (alone : StandsAlone value) :
    OutputSpelled value count [shortCluster count [letterO], value]
  | attached (count : Nat) (bare : value.head? ≠ some equals) :
    OutputSpelled value count [shortCluster count (letterO :: value)]
  | equated (count : Nat) : OutputSpelled value count [shortCluster count (letterO :: equals :: value)]
  | long (alone : StandsAlone value) : OutputSpelled value 0 [ascii "--output", value]
  | longEquated : OutputSpelled value 0 [ascii "--output" ++ equals :: value]

/-- Words that name the format. -/
inductive FormatSpelled (format : Format) : (words : List Bytes) → Prop
  | apart : FormatSpelled format [ascii "--format", ascii format.name]
  | equated : FormatSpelled format [ascii "--format" ++ equals :: ascii format.name]

/-- Groups of words in any order, and what they ask for together. -/
inductive Spelled : Request → List Bytes → Prop
  | nothing : Spelled {} []
  | verbose {request said words count} (before : Spelled request said)
    (group : VerboseSpelled count words) :
    Spelled { request with verbose := request.verbose + count } (said ++ words)
  | output {request said words count value} (before : Spelled request said)
    (first : request.output = none) (alone : request.stdout = false) (real : value ≠ [])
    (group : OutputSpelled value count words) :
    Spelled { request with output := some value, verbose := request.verbose + count } (said ++ words)
  | format {request said words format} (before : Spelled request said) (first : request.format = none)
    (group : FormatSpelled format words) :
    Spelled { request with format := some format } (said ++ words)
  | stdout {request said} (before : Spelled request said) (first : request.stdout = false)
    (alone : request.output = none) :
    Spelled { request with stdout := true } (said ++ [ascii "--stdout"])
  | root {request said value} (before : Spelled request said) (first : request.root = none)
    (real : value ≠ []) (alone : StandsAlone value) :
    Spelled { request with root := some value } (said ++ [value])

/-- A whole command line: groups, and perhaps the root behind `--`. -/
inductive SpelledLine : Request → List Bytes → Prop
  | plain {request words} (groups : Spelled request words) : SpelledLine request words
  | closed {request words value} (groups : Spelled request words) (first : request.root = none)
    (real : value ≠ []) :
    SpelledLine { request with root := some value } (words ++ [[dash, dash], value])

namespace Progress

/-- A reader that waits for nothing holds what is asked for. -/
structure Holds (progress : Progress) (request : Request) : Prop where
  idle : progress.pending = none
  rootMet : progress.rootMet = request.root.isSome
  root : progress.root = (request.root.map Path.mk).getD defaultRoot
  output : progress.output = (request.output.map Path.mk).getD defaultOutput
  format : progress.format = request.format.getD .markdown
  verbose : progress.verbose = min maxVerbose request.verbose
  used : ∀ argument, argument ∈ progress.used ↔ request.gives argument = true
  distinct : progress.used.Nodup
  apart : request.stdout = false ∨ request.output = none

/-- A reader between two groups: settled, it holds what is asked for. -/
structure Ready (progress : Progress) (request : Request) : Prop where
  rootMet : progress.rootMet = request.root.isSome
  waiting : progress.waiting? = none
  settles : ∃ settled, progress.settled = .ok settled ∧ settled.Holds request

variable {progress : Progress} {request : Request} {value : Bytes}

theorem Holds.ready (holds : progress.Holds request) : progress.Ready request where
  rootMet := holds.rootMet
  waiting := by rw [waiting?, holds.idle]
  settles := ⟨progress, by rw [settled, settle, holds.idle], holds⟩

theorem start_holds : start.Holds {} where
  idle := rfl
  rootMet := rfl
  root := rfl
  output := rfl
  format := rfl
  verbose := rfl
  used := by intro argument; cases argument <;> simp [start, Request.gives]
  distinct := List.nodup_nil
  apart := .inl rfl

/-! ### What takes effect -/

theorem nodup_concat {used : List Argument} {argument : Argument} (distinct : used.Nodup)
    (unused : argument ∉ used) : (used ++ [argument]).Nodup := by
  rw [← List.concat_eq_append]
  exact distinct.concat unused

theorem Ready.flag_verbose (ready : progress.Ready request) (long : Bool) :
    ∃ next, progress.flag .verbose long = .ok next ∧
      next.Ready { request with verbose := request.verbose + 1 } := by
  obtain ⟨settled, settles, holds⟩ := ready.settles
  refine ⟨{ settled with
      used := settled.used.erase .verbose ++ [.verbose]
      verbose := min maxVerbose (settled.verbose + 1) }, ?_, Holds.ready { holds with
      verbose := ?_, used := fun argument => ?_, distinct := ?_ }⟩
  · rw [flag, settles]
    rfl
  · have before := holds.verbose
    dsimp only
    omega
  · have same := holds.used argument
    by_cases verbose : argument = .verbose
    · simp [verbose, Request.gives]
    · cases argument <;> simp_all [List.mem_erase_of_ne, Request.gives]
  · exact nodup_concat (holds.distinct.erase _) holds.distinct.not_mem_erase

theorem Ready.flag_stdout (ready : progress.Ready request) (first : request.stdout = false)
    (alone : request.output = none) :
    ∃ next, progress.flag .stdout true = .ok next ∧ next.Ready { request with stdout := true } := by
  obtain ⟨settled, settles, holds⟩ := ready.settles
  have unused : ¬ .stdout ∈ settled.used := by simp [holds.used, Request.gives, first]
  refine ⟨{ settled with used := settled.used ++ [.stdout] }, ?_, Holds.ready { holds with
    used := fun argument => ?_, distinct := nodup_concat holds.distinct unused, apart := .inr alone }⟩
  · rw [flag, settles]
    exact if_neg unused
  · cases argument <;> simp [holds.used, Request.gives]

theorem Holds.assign_output (holds : progress.Holds request) (first : request.output = none)
    (alone : request.stdout = false) (real : value ≠ []) :
    ∃ next, progress.assign .output value = (next, none) ∧
      next.Holds { request with output := some value } := by
  have unused : ¬ .output ∈ progress.used := by simp [holds.used, Request.gives, first]
  refine ⟨{ progress with used := progress.used ++ [.output], output := ⟨value⟩ }, ?_, { holds with
    output := rfl, used := fun argument => ?_, distinct := nodup_concat holds.distinct unused
    apart := .inl alone }⟩
  · rw [assign, if_neg unused, if_neg real, setValue]
  · cases argument <;> simp [holds.used, Request.gives]

theorem format_named (format : Format) :
    (Utf8.text? (ascii format.name)).bind (Format.ofName? false) = some format := by
  rw [ascii, Utf8.text?_eq_some_iff.mpr rfl]
  cases format <;> decide

theorem Holds.assign_format (holds : progress.Holds request) (first : request.format = none)
    (format : Format) : ∃ next, progress.assign .format (ascii format.name) = (next, none) ∧
      next.Holds { request with format := some format } := by
  have unused : ¬ .format ∈ progress.used := by simp [holds.used, Request.gives, first]
  have real : ascii format.name ≠ [] := by cases format <;> decide
  refine ⟨{ progress with used := progress.used ++ [.format], format }, ?_, { holds with
    format := rfl, used := fun argument => ?_, distinct := nodup_concat holds.distinct unused }⟩
  · rw [assign, if_neg unused, if_neg real, setValue, format_named]
  · cases argument <;> simp [holds.used, Request.gives]

/-- The root is met before it is looked at. -/
theorem Holds.assign_root (holds : progress.Holds request) (first : request.root = none)
    (real : value ≠ []) :
    ∃ next, { progress with rootMet := true }.assign .root value = (next, none) ∧
      next.Holds { request with root := some value } := by
  have unused : ¬ .root ∈ progress.used := by simp [holds.used, Request.gives, first]
  refine ⟨{ progress with used := progress.used ++ [.root], root := ⟨value⟩, rootMet := true }, ?_,
    { holds with rootMet := rfl, root := rfl, used := fun argument => ?_
                 distinct := nodup_concat holds.distinct unused }⟩
  · rw [assign, if_neg unused, if_neg real, setValue]
  · cases argument <;> simp [holds.used, Request.gives]

/-- A value that is held back takes effect when it is settled. -/
theorem ready_of_pending {next : Progress} {later : Request} {argument : Argument}
    (idle : progress.pending = none) (assigned : progress.assign argument value = (next, none))
    (holds : next.Holds later) (rootMet : progress.rootMet = later.root.isSome) :
    { progress with pending := some ⟨argument, some value⟩ }.Ready later where
  rootMet := rootMet
  waiting := rfl
  settles := by
    have same : { progress with pending := none } = progress := by rw [← idle]
    exact ⟨next, by simp only [settled, settle, same, assigned], holds⟩

/-! ### Words -/

theorem word_alone (alone : StandsAlone value) : progress.word value =
    match progress.waiting? with
    | some argument => .ok { progress with pending := some ⟨argument, some value⟩ }
    | none => progress.positional value := by
  unfold word
  split
  · simp [StandsAlone, dash] at alone
  · simp [StandsAlone, dash] at alone
  · rfl

theorem word_long (body : Bytes) : progress.word (dash :: dash :: body) = progress.long body := rfl

theorem word_cluster {byte : UInt8} (short : byte ≠ dash) (rest : Bytes) :
    progress.word (dash :: byte :: rest) = progress.cluster (byte :: rest) := by
  unfold word
  split
  · rename_i same
    exact absurd (List.cons.inj (List.cons.inj same).2).1 short
  · rename_i same
    rw [(List.cons.inj same).2]
  · rename_i other
    exact absurd rfl (other byte rest)

/-- A name ends where no equals sign stands, or in front of the first one. -/
theorem span_name {name rest : Bytes} (plain : equals ∉ name)
    (stops : rest = [] ∨ rest.head? = some equals) :
    (name ++ rest).span (· != 0x3D) = (name, rest) := by
  have inside : ∀ byte ∈ name, (byte != 0x3D) = true := by
    intro byte member
    rw [bne_iff_ne]
    rintro rfl
    exact plain member
  rw [List.span_eq_takeWhile_dropWhile, List.takeWhile_append_of_pos inside,
    List.dropWhile_append_of_pos inside]
  cases rest with
  | nil => simp
  | cons byte rest =>
    obtain rfl : byte = equals := by simpa using stops
    simp [equals]

theorem long_bare {name : Text} {argument : Argument} (known : Argument.ofLong? name = some argument)
    (plain : equals ∉ Utf8.encode name) : progress.long (Utf8.encode name) =
      if argument.takesValue then progress.option argument none else progress.flag argument true := by
  have whole := span_name plain (.inl rfl)
  rw [List.append_nil] at whole
  have read : Utf8.text? (Utf8.encode name) = some name := Utf8.text?_eq_some_iff.mpr rfl
  rw [long, whole]
  simp only [read, Option.bind_some, known]

theorem long_equated {name : Text} {argument : Argument} (known : Argument.ofLong? name = some argument)
    (plain : equals ∉ Utf8.encode name) (takes : argument.takesValue = true) :
    progress.long (Utf8.encode name ++ equals :: value) = progress.option argument (some value) := by
  have whole : (Utf8.encode name ++ equals :: value).span _ = _ := span_name plain (.inr rfl)
  have read : Utf8.text? (Utf8.encode name) = some name := Utf8.text?_eq_some_iff.mpr rfl
  rw [long, whole]
  simp only [read, Option.bind_some, known, takes, if_true]

theorem cluster_v (progress : Progress) (rest : Bytes) : progress.cluster (letterV :: rest) =
    progress.flag .verbose false >>= (·.cluster rest) := rfl

theorem cluster_o (progress : Progress) : progress.cluster [letterO] = progress.option .output none := rfl

theorem cluster_o_equated (progress : Progress) (value : Bytes) :
    progress.cluster (letterO :: equals :: value) = progress.option .output (some value) := rfl

theorem cluster_o_attached (progress : Progress) (real : value ≠ []) (bare : value.head? ≠ some equals) :
    progress.cluster (letterO :: value) = progress.option .output (some value) := by
  have known : Argument.ofShort? letterO = some .output := rfl
  have takes : Argument.output.takesValue = true := rfl
  rw [cluster.eq_def]
  simp only [known, takes, if_true]
  split
  · exact absurd rfl real
  · exact absurd rfl bare
  · rfl

/-! ### Groups -/

/-- Reading these words takes a reader from one request to another, whatever follows. -/
def Leads (words : List Bytes) (request later : Request) : Prop :=
  ∀ progress : Progress, progress.Ready request →
    ∃ next : Progress, next.Ready later ∧ ∀ more, progress.read (words ++ more) = next.read more

theorem Leads.append {first second : List Bytes} {start middle later : Request}
    (front : Leads first start middle) (back : Leads second middle later) :
    Leads (first ++ second) start later := by
  intro progress ready
  obtain ⟨between, halfway, read⟩ := front progress ready
  obtain ⟨next, done, rest⟩ := back between halfway
  exact ⟨next, done, fun more => by rw [List.append_assoc, read, rest]⟩

theorem read_word {word : Bytes} (other : word ≠ [dash, dash]) (more : List Bytes) :
    progress.read (word :: more) = progress.word word >>= (·.read more) := by
  rw [read.eq_def]
  split
  · rename_i none
    cases none
  · rename_i same
    exact absurd (List.cons.inj same).1 other
  · rename_i same
    cases same
    rfl

/-- A word that is read on its own. -/
theorem leads_word {word : Bytes} {later : Request} (other : word ≠ [dash, dash])
    (step : ∀ progress : Progress, progress.Ready request →
      ∃ next, progress.word word = .ok next ∧ next.Ready later) : Leads [word] request later := by
  intro progress ready
  obtain ⟨next, read, done⟩ := step progress ready
  refine ⟨next, done, fun more => ?_⟩
  rw [List.singleton_append, read_word other, read]
  rfl

theorem Ready.option_none (ready : progress.Ready request) (argument : Argument) :
    ∃ settled : Progress, settled.Holds request ∧
      progress.option argument none = .ok { settled with pending := some ⟨argument, none⟩ } := by
  obtain ⟨settled, settles, holds⟩ := ready.settles
  exact ⟨settled, holds, by rw [option, settles]; rfl⟩

theorem Ready.option_some (ready : progress.Ready request) {argument : Argument} {later : Request}
    (assigns : ∀ settled : Progress, settled.Holds request →
      ∃ next, settled.assign argument value = (next, none) ∧ next.Holds later) :
    ∃ next, progress.option argument (some value) = .ok next ∧ next.Ready later := by
  obtain ⟨settled, settles, holds⟩ := ready.settles
  obtain ⟨next, assigned, done⟩ := assigns settled holds
  refine ⟨next, ?_, done.ready⟩
  rw [option, settles]
  simp only [bind, Except.bind, assigned]
  rfl

/-- Each `v` of a cluster counts, and the rest is read after it. -/
theorem Ready.cluster_count (ready : progress.Ready request) (count : Nat) (rest : Bytes) :
    ∃ next : Progress, next.Ready { request with verbose := request.verbose + count } ∧
      progress.cluster (List.replicate count letterV ++ rest) = next.cluster rest := by
  induction count generalizing progress request with
  | zero => exact ⟨progress, ready, rfl⟩
  | succ count ih =>
    obtain ⟨raised, read, once⟩ := ready.flag_verbose false
    obtain ⟨next, done, others⟩ := ih once
    refine ⟨next, ?_, ?_⟩
    · rwa [Nat.add_assoc, Nat.add_comm 1] at done
    · rw [List.replicate_succ, List.cons_append, cluster_v, read]
      exact others

theorem word_shortCluster {count : Nat} {rest : Bytes} (held : 0 < count ∨ rest ≠ [])
    (plain : rest.head? ≠ some dash) :
    progress.word (shortCluster count rest) = progress.cluster (List.replicate count letterV ++ rest) := by
  cases count with
  | succ count => exact word_cluster (by decide) _
  | zero =>
    cases rest with
    | nil => simp at held
    | cons byte more => exact word_cluster (by simpa using plain) more

/-! ### What each group does -/

/-- The name of an option is not empty, so the word is not the `--` alone. -/
theorem long_ne_dashes {name : String} {argument : Argument}
    (known : Argument.ofLong? name.toList = some argument) (rest : Bytes) :
    dash :: dash :: (ascii name ++ rest) ≠ [dash, dash] := by
  intro same
  have empty : ascii name ++ rest = [] := (List.cons.inj (List.cons.inj same).2).2
  have unnamed : name.toList = [] := Utf8.encode_injective (List.append_eq_nil_iff.mp empty).1
  rw [unnamed] at known
  cases known

variable {later : Request} {argument : Argument}

/-- A long flag. -/
theorem leads_flag (name : String) (known : Argument.ofLong? name.toList = some argument)
    (plain : equals ∉ ascii name) (flag : argument.takesValue = false)
    (step : ∀ progress : Progress, progress.Ready request →
      ∃ next, progress.flag argument true = .ok next ∧ next.Ready later) :
    Leads [dash :: dash :: ascii name] request later := by
  have other := long_ne_dashes known []
  rw [List.append_nil] at other
  refine leads_word other fun progress ready => ?_
  rw [word_long, ascii, long_bare known plain, flag]
  exact step progress ready

/-- A long option with its value behind an equals sign. -/
theorem leads_equated (name : String) (known : Argument.ofLong? name.toList = some argument)
    (plain : equals ∉ ascii name) (takes : argument.takesValue = true)
    (assigns : ∀ settled : Progress, settled.Holds request →
      ∃ next, settled.assign argument value = (next, none) ∧ next.Holds later) :
    Leads [dash :: dash :: (ascii name ++ equals :: value)] request later := by
  refine leads_word (long_ne_dashes known _) fun progress ready => ?_
  rw [word_long, ascii, long_equated known plain takes]
  exact ready.option_some assigns

/-- An option that waits, with its value in the next word. -/
theorem leads_awaited (argument : Argument) {word : Bytes} (other : word ≠ [dash, dash]) (alone : StandsAlone value)
    (step : ∀ progress : Progress, progress.Ready request → ∃ before : Progress, ∃ middle : Request,
      before.Ready middle ∧ middle.root = later.root ∧
        progress.word word = before.option argument none ∧
        ∀ settled : Progress, settled.Holds middle →
          ∃ next, settled.assign argument value = (next, none) ∧ next.Holds later) :
    Leads [word, value] request later := by
  intro progress ready
  obtain ⟨before, middle, between, keeps, read, assigns⟩ := step progress ready
  obtain ⟨settled, holds, waits⟩ := between.option_none argument
  obtain ⟨next, assigned, done⟩ := assigns settled holds
  have plain : value ≠ [dash, dash] := by
    rintro rfl
    simp [StandsAlone] at alone
  refine ⟨_, ready_of_pending holds.idle assigned done (keeps ▸ holds.rootMet), fun more => ?_⟩
  rw [List.cons_append, List.singleton_append, read_word other, read, waits]
  change Progress.read _ (value :: more) = _
  rw [read_word plain, word_alone alone]
  rfl

/-- A long option with its value in the next word. -/
theorem leads_apart (name : String) (known : Argument.ofLong? name.toList = some argument)
    (plain : equals ∉ ascii name) (takes : argument.takesValue = true) (alone : StandsAlone value)
    (keeps : request.root = later.root) (assigns : ∀ settled : Progress, settled.Holds request →
      ∃ next, settled.assign argument value = (next, none) ∧ next.Holds later) :
    Leads [dash :: dash :: ascii name, value] request later := by
  have other := long_ne_dashes known []
  rw [List.append_nil] at other
  refine leads_awaited argument other alone fun progress ready => ⟨progress, request, ready, keeps, ?_, assigns⟩
  rw [word_long, ascii, long_bare known plain, if_pos takes]

theorem leads_verbose {count : Nat} {words : List Bytes} (group : VerboseSpelled count words) :
    Leads words request { request with verbose := request.verbose + count } := by
  cases group with
  | long =>
    exact leads_flag "verbose" rfl (by decide) rfl fun progress ready => ready.flag_verbose true
  | short count =>
    refine leads_word (by simp [shortCluster, List.replicate_succ, letterV, dash]) fun progress ready => ?_
    obtain ⟨next, done, read⟩ := ready.cluster_count (count + 1) []
    exact ⟨next, by rw [word_shortCluster (.inl (Nat.succ_pos count)) (by simp), read]; rfl, done⟩

theorem leads_stdout (first : request.stdout = false) (alone : request.output = none) :
    Leads [ascii "--stdout"] request { request with stdout := true } :=
  leads_flag "stdout" rfl (by decide) rfl fun _ ready => ready.flag_stdout first alone

theorem leads_format {format : Format} {words : List Bytes} (first : request.format = none)
    (group : FormatSpelled format words) :
    Leads words request { request with format := some format } := by
  cases group with
  | apart =>
    exact leads_apart "format" rfl (by decide) rfl (.inl (by cases format <;> decide)) rfl
      fun settled holds => holds.assign_format first format
  | equated =>
    exact leads_equated "format" rfl (by decide) rfl fun settled holds => holds.assign_format first format

theorem shortCluster_ne_dashes (count : Nat) (rest : Bytes) :
    shortCluster count (letterO :: rest) ≠ [dash, dash] := by
  cases count <;> simp [shortCluster, List.replicate_succ, letterO, letterV, dash]

/-- A cluster counts before its option takes a value. -/
theorem leads_output {count : Nat} {words : List Bytes} (first : request.output = none)
    (alone : request.stdout = false) (real : value ≠ []) (group : OutputSpelled value count words) :
    Leads words request
      { request with output := some value, verbose := request.verbose + count } := by
  have assigns : ∀ settled : Progress, settled.Holds { request with verbose := request.verbose + count } →
      ∃ next, settled.assign .output value = (next, none) ∧
        next.Holds { request with output := some value, verbose := request.verbose + count } :=
    fun settled holds => holds.assign_output first alone real
  have counted : ∀ rest, ∀ progress : Progress, progress.Ready request → ∃ next : Progress,
      next.Ready { request with verbose := request.verbose + count } ∧
        progress.word (shortCluster count (letterO :: rest)) = next.cluster (letterO :: rest) := by
    intro rest progress ready
    obtain ⟨next, done, read⟩ := ready.cluster_count count (letterO :: rest)
    exact ⟨next, done, (word_shortCluster (.inr (by simp)) (by simp [letterO, dash])).trans read⟩
  cases group with
  | short _ alone =>
    refine leads_awaited .output (shortCluster_ne_dashes _ _) alone fun progress ready => ?_
    obtain ⟨next, done, read⟩ := counted [] progress ready
    exact ⟨next, _, done, rfl, read.trans (cluster_o next), assigns⟩
  | attached _ bare =>
    refine leads_word (shortCluster_ne_dashes _ _) fun progress ready => ?_
    obtain ⟨next, done, read⟩ := counted value progress ready
    rw [read, cluster_o_attached next real bare]
    exact done.option_some assigns
  | equated =>
    refine leads_word (shortCluster_ne_dashes _ _) fun progress ready => ?_
    obtain ⟨next, done, read⟩ := counted (equals :: value) progress ready
    rw [read, cluster_o_equated]
    exact done.option_some assigns
  | long alone => exact leads_apart "output" rfl (by decide) rfl alone rfl assigns
  | longEquated => exact leads_equated "output" rfl (by decide) rfl assigns

/-- A word that is nothing else is the root, once. -/
theorem Ready.positional (ready : progress.Ready request) (first : request.root = none)
    (real : value ≠ []) : ∃ next, progress.positional value = .ok next ∧
      next.Ready { request with root := some value } := by
  obtain ⟨settled, settles, holds⟩ := ready.settles
  obtain ⟨next, assigned, done⟩ := holds.assign_root first real
  have unmet : progress.rootMet = false := by rw [ready.rootMet, first]; rfl
  have idle : { settled with rootMet := true }.pending = none := holds.idle
  refine ⟨_, ?_, ready_of_pending idle assigned done rfl⟩
  rw [Progress.positional, unmet, if_neg Bool.false_ne_true, settles]
  rfl

theorem leads_root (first : request.root = none) (real : value ≠ []) (alone : StandsAlone value) :
    Leads [value] request { request with root := some value } := by
  have other : value ≠ [dash, dash] := by
    rintro rfl
    simp [StandsAlone] at alone
  refine leads_word other fun progress ready => ?_
  rw [word_alone alone, ready.waiting]
  exact ready.positional first real

/-- Groups in a row are read as what they ask for together. -/
theorem leads_spelled {words : List Bytes} (groups : Spelled request words) : Leads words {} request := by
  induction groups with
  | nothing => exact fun progress ready => ⟨progress, ready, fun _ => rfl⟩
  | verbose before group ih => exact ih.append (leads_verbose group)
  | output before first alone real group ih => exact ih.append (leads_output first alone real group)
  | format before first group ih => exact ih.append (leads_format first group)
  | stdout before first alone ih => exact ih.append (leads_stdout first alone)
  | root before first real alone ih => exact ih.append (leads_root first real alone)

/-- Of two arguments that exclude each other, at most one has been used. -/
theorem Holds.conflict?_eq_none (holds : progress.Holds request) : progress.conflict? = none := by
  unfold conflict?
  split
  · rename_i first second both
    have distinct := holds.distinct.filter (fun argument => argument = .stdout ∨ argument = .output)
    rw [both] at distinct
    have used : ∀ argument ∈ [first, second],
        request.gives argument = true ∧ (argument = .stdout ∨ argument = .output) := by
      intro argument member
      rw [← both, List.mem_filter, holds.used, decide_eq_true_iff] at member
      exact member
    obtain ⟨firstSaid, firstKind⟩ := used first (by simp)
    obtain ⟨secondSaid, secondKind⟩ := used second (by simp)
    have different : first ≠ second := by simpa using distinct
    have apart := holds.apart
    rcases firstKind with rfl | rfl <;> rcases secondKind with rfl | rfl <;>
      simp_all [Request.gives]
  · rfl

theorem Ready.finish (ready : progress.Ready request) : progress.finish = .ok request.settings := by
  obtain ⟨settled, settles, holds⟩ := ready.settles
  have stdout : decide (.stdout ∈ settled.used) = request.stdout := by
    rw [Bool.eq_iff_iff, decide_eq_true_iff, holds.used]
    rfl
  rw [Progress.finish, settles]
  simp only [bind, Except.bind, holds.conflict?_eq_none]
  rw [stdout, holds.root, holds.output, holds.format, holds.verbose]
  rfl

end Progress

/-- Arguments in any order and in any of their spellings are read as what they ask for. -/
theorem parse_spelled {request : Request} {words : List Bytes} (line : SpelledLine request words) :
    parse words = .ok request.settings := by
  have start := Progress.start_holds.ready
  cases line with
  | plain groups =>
    obtain ⟨next, done, read⟩ := Progress.leads_spelled groups .start start
    rw [parse, ← List.append_nil words, read]
    exact done.finish
  | @closed _ words value groups first real =>
    obtain ⟨before, ready, read⟩ := Progress.leads_spelled groups .start start
    obtain ⟨next, taken, done⟩ := ready.positional first real
    have rest : before.read [[dash, dash], value] = .ok next := by
      change before.positional value >>= pure = _
      rw [taken]
      rfl
    rw [parse, read, rest]
    exact done.finish

/-- The output is attached to a cluster and no text, and the root looks like a flag. -/
theorem parse_spelled_mixed :
    let request : Request :=
      ⟨some (ascii "--stdout"), some [equals, 0xE9], some .jsonl, false, 3⟩
    let words := [ascii "--format", ascii "jsonl", ascii "-vvo==" ++ [0xE9], ascii "--verbose",
      ascii "--", ascii "--stdout"]
    SpelledLine request words ∧ parse words = .ok request.settings := by
  intro request words
  have format : Spelled ⟨none, none, some .jsonl, false, 0⟩ [ascii "--format", ascii "jsonl"] :=
    .format .nothing rfl .apart
  have output : Spelled ⟨none, some [equals, 0xE9], some .jsonl, false, 2⟩
      [ascii "--format", ascii "jsonl", ascii "-vvo==" ++ [0xE9]] :=
    .output format rfl rfl (by decide) (.equated 2)
  have line : SpelledLine request words := .closed (.verbose output .long) rfl (by decide)
  exact ⟨line, parse_spelled line⟩

end SourceIndex.CommandLine
