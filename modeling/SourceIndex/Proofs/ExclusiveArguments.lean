import Mathlib.Data.List.Count
import Mathlib.Data.List.Nodup
import SourceIndex.Proofs.ArgumentSpellings
import SourceIndex.Proofs.Fallible

/-! The index goes to the standard output or to a file that was named, never to both. Every step of
the reader keeps what is known of the paths it holds, and reads on in the same way when `--stdout`
has been used besides (`Steady`); steps in a row are steady again, so reading a whole command line
is (`steady_read`). The first half gives what holds of every line that is accepted. The second lets
a line with both arguments be read like the same line without the flag, up to the end, where the
two are found to exclude each other (`read_clashing`). -/
namespace SourceIndex.CommandLine

namespace Progress

/-- What holds of every reader: arguments are used once, the output is the default one until it is
used, and no path is empty. -/
structure Sound (progress : Progress) : Prop where
  distinct : progress.used.Nodup
  untouched : .output ∉ progress.used → progress.output = defaultOutput
  rootNamed : progress.root.bytes ≠ []
  outputNamed : progress.output.bytes ≠ []

theorem start_sound : start.Sound where
  distinct := List.nodup_nil
  untouched _ := rfl
  rootNamed := by decide
  outputNamed := by decide

/-- The second reader has used the flag besides, after the output if `first` is the output. -/
structure Beside (first : Argument) (progress other : Progress) : Prop where
  same : other = { progress with used := other.used }
  place : ∃ before after, other.used = before ++ .stdout :: after ∧ progress.used = before ++ after ∧
    (first = .output ↔ .output ∈ before)

/-- A step of a reader. -/
abbrev Step := Progress → Except ParseError Progress

/-- A step that keeps a reader sound, and that a reader which has used the flag besides takes in the
same way, unless the step uses the flag itself. -/
structure Steady (step : Step) : Prop where
  sound {progress next : Progress} (done : step progress = .ok next) : progress.Sound → next.Sound
  quiet {progress next : Progress} (done : step progress = .ok next) :
    .stdout ∉ next.used → .stdout ∉ progress.used
  beside {progress next other : Progress} {first : Argument} (done : step progress = .ok next)
    (unused : .stdout ∉ next.used) (beside : Beside first progress other) :
    ∃ after, step other = .ok after ∧ Beside first next after

namespace Steady

variable {step following : Step}

theorem bind (steady : Steady step) (further : Steady following) :
    Steady fun progress => step progress >>= following where
  sound done holds := by
    obtain ⟨middle, taken, rest⟩ := bind_eq_ok_iff.mp done
    exact further.sound rest (steady.sound taken holds)
  quiet done unused := by
    obtain ⟨middle, taken, rest⟩ := bind_eq_ok_iff.mp done
    exact steady.quiet taken (further.quiet rest unused)
  beside done unused beside := by
    obtain ⟨middle, taken, rest⟩ := bind_eq_ok_iff.mp done
    obtain ⟨between, otherTaken, halfway⟩ := steady.beside taken (further.quiet rest unused) beside
    obtain ⟨after, otherRest, behind⟩ := further.beside rest unused halfway
    exact ⟨after, bind_eq_ok_iff.mpr ⟨between, otherTaken, otherRest⟩, behind⟩

theorem fails (refuses : ∀ progress, ∃ error, step progress = .error error) : Steady step where
  sound {progress _} done := by
    obtain ⟨error, refused⟩ := refuses progress
    rw [refused] at done
    cases done
  quiet {progress _} done := by
    obtain ⟨error, refused⟩ := refuses progress
    rw [refused] at done
    cases done
  beside {progress _ _ _} done := by
    obtain ⟨error, refused⟩ := refuses progress
    rw [refused] at done
    cases done

/-- The next step may depend on what is held, as long as it does not depend on what was used. -/
theorem branch (view : Progress → α) (blind : ∀ progress used, view { progress with used } = view progress)
    (step : α → Step) (each : ∀ value, Steady (step value)) :
    Steady fun progress => step (view progress) progress where
  sound done := (each _).sound done
  quiet done := (each _).quiet done
  beside {progress next other first} done unused beside := by
    have seen : view other = view progress := by rw [beside.same, blind]
    simp only [seen]
    exact (each _).beside done unused beside

/-- Nothing is used, and no path is taken over. -/
theorem update (alter : Progress → Progress)
    (keeps : ∀ progress, (alter progress).used = progress.used ∧
      (alter progress).root = progress.root ∧ (alter progress).output = progress.output)
    (blind : ∀ progress used, alter { progress with used } = { alter progress with used }) :
    Steady fun progress => .ok (alter progress) where
  sound {progress _} done holds := by
    cases done
    obtain ⟨used, root, output⟩ := keeps progress
    exact ⟨used ▸ holds.distinct, used ▸ output ▸ holds.untouched, root ▸ holds.rootNamed,
      output ▸ holds.outputNamed⟩
  quiet {progress _} done := by
    cases done
    rw [(keeps progress).1]
    exact id
  beside {progress _ other first} done unused beside := by
    cases done
    have moved : alter other = { alter progress with used := other.used } := by
      rw [beside.same, blind]
    exact ⟨alter other, rfl, by rw [moved], by rw [moved, (keeps progress).1]; exact beside.place⟩

theorem stay : Steady .ok := update id (fun _ => ⟨rfl, rfl, rfl⟩) fun _ _ => rfl

end Steady

/-! ### The steps of a reader -/

variable {argument : Argument} {value : Bytes}

theorem setValue_used (progress : Progress) (argument : Argument) (value : Bytes) (used : List Argument) :
    { progress with used }.setValue argument value =
      ({ (progress.setValue argument value).1 with used }, (progress.setValue argument value).2) := by
  cases argument with
  | format =>
    simp only [setValue]
    split <;> rfl
  | _ => rfl

theorem setValue_paths (progress : Progress) (argument : Argument) (value : Bytes) :
    (progress.setValue argument value).1.root = (if argument = .root then ⟨value⟩ else progress.root) ∧
      (progress.setValue argument value).1.output =
        if argument = .output then ⟨value⟩ else progress.output := by
  cases argument with
  | format =>
    simp only [setValue]
    split <;> exact ⟨rfl, rfl⟩
  | _ => exact ⟨rfl, rfl⟩

/-- An argument takes effect with a value. -/
def take (argument : Argument) (value : Bytes) : Step := fun progress =>
  match progress.assign argument value with
  | (next, none) => .ok next
  | (_, some error) => .error error

theorem take_eq_ok_iff {progress next : Progress} : take argument value progress = .ok next ↔
    argument ∉ progress.used ∧ value ≠ [] ∧ (progress.setValue argument value).2 = none ∧
      next = { (progress.setValue argument value).1 with used := progress.used ++ [argument] } := by
  by_cases used : argument ∈ progress.used
  · simp [take, assign, used]
  by_cases empty : value = []
  · simp [take, assign, used, empty]
  simp only [take, assign, used, empty, setValue_used, ↓reduceIte, not_false_eq_true, ne_eq, true_and]
  cases (progress.setValue argument value).2 <;> simp [eq_comm]

/-- Behind the flag there is room for further arguments. -/
theorem Beside.append {first argument : Argument} {progress next other after : Progress}
    (beside : Beside first progress other) (same : after = { next with used := after.used })
    (used : next.used = progress.used ++ [argument]) (otherUsed : after.used = other.used ++ [argument]) :
    Beside first next after where
  same := same
  place := by
    obtain ⟨before, behind, flagged, plain, order⟩ := beside.place
    refine ⟨before, behind ++ [argument], ?_, ?_, order⟩
    · rw [otherUsed, flagged, List.append_assoc, List.cons_append]
    · rw [used, plain, List.append_assoc]

theorem Beside.mem_iff {first argument : Argument} {progress other : Progress}
    (beside : Beside first progress other) :
    argument ∈ other.used ↔ argument = .stdout ∨ argument ∈ progress.used := by
  obtain ⟨before, behind, flagged, plain, _⟩ := beside.place
  rw [flagged, plain, List.mem_append, List.mem_append, List.mem_cons]
  exact or_left_comm

theorem steady_take (argument : Argument) (value : Bytes) : Steady (take argument value) where
  sound {progress next} done holds := by
    obtain ⟨unused, real, -, rfl⟩ := take_eq_ok_iff.mp done
    obtain ⟨root, output⟩ := setValue_paths progress argument value
    constructor
    · exact nodup_concat holds.distinct unused
    · intro untouched
      simp only [List.mem_append, List.mem_singleton, not_or] at untouched
      rw [output, if_neg (Ne.symm untouched.2)]
      exact holds.untouched untouched.1
    · rw [root]
      split
      · exact real
      · exact holds.rootNamed
    · rw [output]
      split
      · exact real
      · exact holds.outputNamed
  quiet done unused := by
    obtain ⟨-, -, -, rfl⟩ := take_eq_ok_iff.mp done
    exact fun member => unused (List.mem_append_left _ member)
  beside {progress next other first} done unused beside := by
    obtain ⟨fresh, real, fits, rfl⟩ := take_eq_ok_iff.mp done
    have set := setValue_used progress argument value other.used
    rw [← beside.same] at set
    have different : argument ≠ .stdout := by
      rintro rfl
      simp at unused
    refine ⟨{ (other.setValue argument value).1 with used := other.used ++ [argument] }, ?_, ?_⟩
    · refine take_eq_ok_iff.mpr ⟨?_, real, by rw [set]; exact fits, rfl⟩
      simp [beside.mem_iff, different, fresh]
    · exact beside.append (by rw [set]) rfl rfl

/-- The flag is used, once. -/
def useStdout : Step := fun progress =>
  if .stdout ∈ progress.used then .error (.repeated .stdout)
  else .ok { progress with used := progress.used ++ [.stdout] }

theorem useStdout_eq_ok_iff {progress next : Progress} : useStdout progress = .ok next ↔
    .stdout ∉ progress.used ∧ next = { progress with used := progress.used ++ [.stdout] } := by
  by_cases used : .stdout ∈ progress.used <;> simp [useStdout, used, eq_comm]

theorem steady_useStdout : Steady useStdout where
  sound done holds := by
    obtain ⟨unused, rfl⟩ := useStdout_eq_ok_iff.mp done
    refine { holds with distinct := nodup_concat holds.distinct unused, untouched := fun untouched => ?_ }
    exact holds.untouched fun member => untouched (List.mem_append_left _ member)
  quiet done _ := (useStdout_eq_ok_iff.mp done).1
  beside done unused := by
    obtain ⟨-, rfl⟩ := useStdout_eq_ok_iff.mp done
    simp at unused

/-- The verbosity is raised by one. -/
def raiseVerbose (progress : Progress) : Progress :=
  { progress with
    used := progress.used.erase .verbose ++ [.verbose]
    verbose := min maxVerbose (progress.verbose + 1) }

theorem steady_raiseVerbose : Steady fun progress => .ok (raiseVerbose progress) where
  sound {progress _} done holds := by
    cases done
    refine { holds with distinct := ?_, untouched := fun untouched => holds.untouched fun member => ?_ }
    · exact nodup_concat (holds.distinct.erase _) holds.distinct.not_mem_erase
    · exact untouched (List.mem_append_left _ ((List.mem_erase_of_ne (by decide)).mpr member))
  quiet done unused member := by
    cases done
    exact unused (List.mem_append_left _ ((List.mem_erase_of_ne (by decide)).mpr member))
  beside {progress _ other first} done unused beside := by
    cases done
    obtain ⟨before, after, flagged, plain, order⟩ := beside.place
    refine ⟨raiseVerbose other, rfl, by rw [beside.same]; rfl, ?_⟩
    -- The mark of an earlier use is taken away on the side of the flag where it stands.
    by_cases early : .verbose ∈ before
    · refine ⟨before.erase .verbose, after ++ [.verbose], ?_, ?_, ?_⟩
      · simp [raiseVerbose, flagged, List.erase_append_left _ early]
      · simp [raiseVerbose, plain, List.erase_append_left _ early]
      · rw [List.mem_erase_of_ne (by decide)]
        exact order
    · refine ⟨before, after.erase .verbose ++ [.verbose], ?_, ?_, order⟩
      · simp [raiseVerbose, flagged, List.erase_append_right _ early]
      · simp [raiseVerbose, plain, List.erase_append_right _ early]

theorem settled_eq (progress : Progress) : progress.settled =
    match progress.pending with
    | none => .ok progress
    | some ⟨argument, none⟩ => .error (.missingValue argument)
    | some ⟨argument, some value⟩ => take argument value { progress with pending := none } := by
  simp only [settled, settle, take]
  split <;> split <;> simp_all

theorem steady_settled : Steady settled := by
  have step (pending : Option Pending) : Steady fun progress => match pending with
      | none => .ok progress
      | some ⟨argument, none⟩ => .error (.missingValue argument)
      | some ⟨argument, some value⟩ => take argument value { progress with pending := none } :=
    match pending with
    | none => .stay
    | some ⟨argument, none⟩ => .fails fun _ => ⟨_, rfl⟩
    | some ⟨argument, some value⟩ =>
      (Steady.update (fun progress => { progress with pending := none })
        (fun _ => ⟨rfl, rfl, rfl⟩) fun _ _ => rfl).bind (steady_take argument value)
  rw [funext settled_eq]
  exact .branch pending (fun _ _ => rfl) _ step

theorem steady_flag (argument : Argument) (long : Bool) : Steady (flag · argument long) := by
  cases argument with
  | stdout => exact steady_settled.bind steady_useStdout
  | verbose => exact steady_settled.bind steady_raiseVerbose
  | help | version => exact steady_settled.bind (.fails fun _ => ⟨_, rfl⟩)
  | root | output | format =>
    exact steady_settled.bind (.stay)

theorem steady_option (argument : Argument) (attached : Option Bytes) :
    Steady (option · argument attached) := by
  cases attached with
  | none =>
    exact steady_settled.bind (.update (fun progress => { progress with pending := some ⟨argument, none⟩ })
      (fun _ => ⟨rfl, rfl, rfl⟩) fun _ _ => rfl)
  | some value => exact steady_settled.bind (steady_take argument value)

theorem steady_cluster (members : Bytes) : Steady (cluster · members) := by
  induction members with
  | nil => exact .stay
  | cons byte rest ih =>
    simp only [cluster]
    cases Argument.ofShort? byte with
    | none => exact .fails fun _ => ⟨_, rfl⟩
    | some argument =>
      cases takes : argument.takesValue with
      | false =>
        simp only [takes, Bool.false_eq_true, ↓reduceIte]
        exact (steady_flag argument false).bind ih
      | true =>
        simp only [takes, ↓reduceIte]
        split
        · exact steady_option argument none
        · exact steady_option argument _
        · exact steady_option argument _

theorem steady_long (body : Bytes) : Steady (long · body) := by
  unfold long
  split
  rename_i name attached _
  cases (Utf8.text? name).bind Argument.ofLong? with
  | none => exact .fails fun _ => ⟨_, rfl⟩
  | some argument =>
    cases takes : argument.takesValue with
    | true =>
      simp only [takes, ↓reduceIte]
      exact steady_option argument attached
    | false =>
      simp only [takes, Bool.false_eq_true, ↓reduceIte]
      cases attached with
      | none => exact steady_flag argument true
      | some value => exact .fails fun _ => ⟨_, rfl⟩

theorem steady_positional (word : Bytes) : Steady (positional · word) := by
  refine .branch rootMet (fun _ _ => rfl) (fun met progress =>
    if met then .error (.unknown (Utf8.lossy word) .none [])
    else progress.settled >>= fun settled =>
      .ok { settled with rootMet := true, pending := some ⟨.root, some word⟩ }) fun met => ?_
  cases met with
  | true => exact .fails fun _ => ⟨_, rfl⟩
  | false =>
    exact steady_settled.bind (.update (fun settled => { settled with
      rootMet := true, pending := some ⟨.root, some word⟩ }) (fun _ => ⟨rfl, rfl, rfl⟩) fun _ _ => rfl)

/-- A word on its own, which is a value if an option waits for one. -/
def hold (argument : Bytes) (waiting : Option Argument) : Step := fun progress =>
  match waiting with
  | some option => .ok { progress with pending := some ⟨option, some argument⟩ }
  | none => progress.positional argument

theorem steady_hold (argument : Bytes) (waiting : Option Argument) : Steady (hold argument waiting) := by
  cases waiting with
  | none => exact steady_positional argument
  | some option =>
    exact .update (fun progress => { progress with pending := some ⟨option, some argument⟩ })
      (fun _ => ⟨rfl, rfl, rfl⟩) fun _ _ => rfl

theorem steady_word (argument : Bytes) : Steady (word · argument) := by
  unfold word
  split
  · exact steady_long _
  · exact steady_cluster _
  · exact .branch waiting? (fun _ _ => rfl) (hold argument) (steady_hold argument)

theorem steady_foldlM (step : Bytes → Step) (steady : ∀ word, Steady (step word)) (words : List Bytes) :
    Steady fun progress => words.foldlM (fun progress word => step word progress) progress := by
  induction words with
  | nil => exact .stay
  | cons word rest ih => exact (steady word).bind ih

/-- Reading is steady: it keeps a reader sound, and does not look at whether the flag was used. -/
theorem steady_read (words : List Bytes) : Steady (read · words) := by
  induction words with
  | nil => exact .stay
  | cons word rest ih =>
    by_cases closing : word = [dash, dash]
    · subst closing
      exact steady_foldlM (fun word progress => progress.positional word) steady_positional rest
    · simp only [read_word closing]
      exact (steady_word word).bind ih

/-! ### Both arguments -/

/-- Of the arguments that exclude each other, a reader that has not used the flag can only have
used the output. -/
theorem exclusive_unflagged {used : List Argument} (distinct : used.Nodup) (unflagged : .stdout ∉ used) :
    used.filter (fun argument => argument = .stdout ∨ argument = .output) =
      if .output ∈ used then [.output] else [] := by
  have only : used.filter (fun argument => argument = .stdout ∨ argument = .output) =
      used.filter (· = .output) := by
    apply List.filter_congr
    intro argument member
    have other : argument ≠ .stdout := fun same => unflagged (same ▸ member)
    simp [other]
  rw [only, List.filter_eq, distinct.count]
  split <;> rfl

/-- The two are found in the order in which they were met. -/
theorem Beside.conflict? {first : Argument} {progress other : Progress} (beside : Beside first progress other)
    (distinct : progress.used.Nodup) (unflagged : .stdout ∉ progress.used)
    (given : .output ∈ progress.used) :
    other.conflict? = if first = .output then some (.output, .stdout) else some (.stdout, .output) := by
  obtain ⟨before, after, flagged, plain, order⟩ := beside.place
  rw [plain] at distinct unflagged given
  obtain ⟨distinctBefore, distinctAfter, apart⟩ := List.nodup_append.mp distinct
  rw [List.mem_append, not_or] at unflagged
  have both : other.used.filter (fun argument => argument = .stdout ∨ argument = .output) =
      (if .output ∈ before then [.output] else []) ++ .stdout ::
        if .output ∈ after then [.output] else [] := by
    rw [flagged, List.filter_append, List.filter_cons_of_pos (by decide),
      exclusive_unflagged distinctBefore unflagged.1, exclusive_unflagged distinctAfter unflagged.2]
  rw [Progress.conflict?, both]
  by_cases early : .output ∈ before
  · have once : .output ∉ after := fun late => apart _ early _ late rfl
    simp [early, once, order.mpr early]
  · have late : .output ∈ after := (List.mem_append.mp given).resolve_left early
    simp [early, late, mt order.mp early]

theorem conflict?_ne_none {progress : Progress} (distinct : progress.used.Nodup)
    (flagged : .stdout ∈ progress.used) (given : .output ∈ progress.used) : progress.conflict? ≠ none := by
  have pair : (progress.used.filter fun argument => argument = .stdout ∨ argument = .output).Perm
      [.stdout, .output] := by
    refine (List.perm_ext_iff_of_nodup (distinct.filter _) (by decide)).mpr fun argument => ?_
    simp only [List.mem_filter, decide_eq_true_eq, List.mem_cons, List.not_mem_nil, or_false,
      and_iff_right_iff_imp]
    rintro (rfl | rfl) <;> assumption
  obtain ⟨one, two, both⟩ := List.length_eq_two.mp pair.length_eq
  rw [conflict?, both]
  exact Option.some_ne_none _

/-- Settings that are accepted come from a sound reader that met no conflict. -/
theorem finish_ok {progress : Progress} {settings : Settings} (sound : progress.Sound)
    (done : progress.finish = .ok settings) :
    (settings.stdout = true → settings.output = defaultOutput) ∧
      settings.root.bytes ≠ [] ∧ settings.output.bytes ≠ [] := by
  obtain ⟨settled, settles, rest⟩ := bind_eq_ok_iff.mp done
  have holds := steady_settled.sound settles sound
  cases clash : settled.conflict? with
  | some pair =>
    rw [clash] at rest
    cases rest
  | none =>
    rw [clash] at rest
    cases rest
    refine ⟨fun flagged => holds.untouched fun given => ?_, holds.rootNamed, holds.outputNamed⟩
    exact conflict?_ne_none holds.distinct (of_decide_eq_true flagged) given clash

end Progress

/-- Groups of words behind others, none of them the flag, and what all of them ask for together. -/
inductive Further (request : Request) : Request → List Bytes → Prop
  | nothing : Further request request []
  | verbose {later said words count} (before : Further request later said)
    (group : VerboseSpelled count words) :
    Further request { later with verbose := later.verbose + count } (said ++ words)
  | output {later said words count value} (before : Further request later said)
    (first : later.output = none) (real : value ≠ []) (group : OutputSpelled value count words) :
    Further request { later with output := some value, verbose := later.verbose + count } (said ++ words)
  | format {later said words format} (before : Further request later said) (first : later.format = none)
    (group : FormatSpelled format words) :
    Further request { later with format := some format } (said ++ words)
  | root {later said value} (before : Further request later said) (first : later.root = none)
    (real : value ≠ []) (alone : StandsAlone value) :
    Further request { later with root := some value } (said ++ [value])

/-- The rest of a command line: groups, and perhaps `--` with or without the root behind it. -/
inductive FurtherLine (request : Request) : Request → List Bytes → Prop
  | plain {later words} (groups : Further request later words) : FurtherLine request later words
  | closed {later words} (groups : Further request later words) :
    FurtherLine request later (words ++ [[dash, dash]])
  | closedRoot {later words value} (groups : Further request later words) (first : later.root = none)
    (real : value ≠ []) :
    FurtherLine request { later with root := some value } (words ++ [[dash, dash], value])

/-- Command lines that are in order, apart from that they hold both `--stdout` and an output. The
one that is met first comes first. -/
inductive Clashing : (first second : Argument) → List Bytes → Prop
  | outputFirst {request later said more} (front : Spelled request said) (given : request.output ≠ none)
    (first : request.stdout = false) (rest : FurtherLine request later more) :
    Clashing .output .stdout (said ++ ascii "--stdout" :: more)
  | stdoutFirst {request later said more} (front : Spelled request said) (first : request.stdout = false)
    (free : request.output = none) (rest : FurtherLine request later more) (given : later.output ≠ none) :
    Clashing .stdout .output (said ++ ascii "--stdout" :: more)

namespace Progress

variable {request later : Request} {words said more : List Bytes}

theorem stdout_further (groups : Further request later words) : later.stdout = request.stdout := by
  induction groups with
  | nothing => rfl
  | verbose _ _ ih | output _ _ _ _ ih | format _ _ _ ih | root _ _ _ _ ih => exact ih

theorem leads_further (unflagged : request.stdout = false) (groups : Further request later words) :
    Leads words request later := by
  induction groups with
  | nothing => exact fun progress ready => ⟨progress, ready, fun _ => rfl⟩
  | verbose before group ih => exact ih.append (leads_verbose group)
  | output before first real group ih =>
    exact ih.append (leads_output first ((stdout_further before).trans unflagged) real group)
  | format before first group ih => exact ih.append (leads_format first group)
  | root before first real alone ih => exact ih.append (leads_root first real alone)

theorem leads_furtherLine {progress : Progress} (ready : progress.Ready request)
    (unflagged : request.stdout = false) (line : FurtherLine request later words) :
    ∃ next : Progress, next.Ready later ∧ progress.read words = .ok next := by
  cases line with
  | plain groups =>
    obtain ⟨next, done, read⟩ := leads_further unflagged groups progress ready
    have whole := read []
    rw [List.append_nil] at whole
    exact ⟨next, done, whole⟩
  | closed groups =>
    obtain ⟨next, done, read⟩ := leads_further unflagged groups progress ready
    exact ⟨next, done, read _⟩
  | @closedRoot _ _ value groups first real =>
    obtain ⟨before, halfway, read⟩ := leads_further unflagged groups progress ready
    obtain ⟨next, taken, done⟩ := halfway.positional first real
    refine ⟨next, done, (read _).trans ?_⟩
    change before.positional value >>= pure = _
    rw [taken]
    rfl

/-- Where the flag is met, the reader that goes on stands beside the one that had not met it. -/
theorem Ready.word_stdout {progress : Progress} (ready : progress.Ready request)
    (first : request.stdout = false) :
    ∃ settled flagged : Progress, settled.Holds request ∧
      progress.word (ascii "--stdout") = .ok flagged ∧
      ∀ argument, (argument = .output ↔ request.output ≠ none) → Beside argument settled flagged := by
  obtain ⟨settled, settles, holds⟩ := ready.settles
  have unused : .stdout ∉ settled.used := by simp [holds.used, Request.gives, first]
  refine ⟨settled, { settled with used := settled.used ++ [.stdout] }, holds, ?_, ?_⟩
  · have known : Argument.ofLong? "stdout".toList = some .stdout := rfl
    have read : progress.word (ascii "--stdout") = progress.flag .stdout true :=
      long_bare known (by decide)
    rw [read, flag, settles]
    exact if_neg unused
  · intro argument order
    refine ⟨rfl, settled.used, [], rfl, (List.append_nil _).symm, order.trans ?_⟩
    rw [holds.used, Request.gives, Option.isSome_iff_ne_none]

theorem stdout_furtherLine (line : FurtherLine request later words) : later.stdout = request.stdout := by
  cases line with
  | plain groups => exact stdout_further groups
  | closed groups => exact stdout_further groups
  | closedRoot groups =>
    have keeps := stdout_further groups
    exact keeps

/-- A line with both arguments is read to its end, and what it has used excludes each other. -/
theorem read_clashing (front : Spelled request said) (first : request.stdout = false)
    (rest : FurtherLine request later more) (given : request.output ≠ none ∨ later.output ≠ none)
    (argument : Argument) (order : argument = .output ↔ request.output ≠ none) :
    ∃ progress settled : Progress, start.read (said ++ ascii "--stdout" :: more) = .ok progress ∧
      progress.settled = .ok settled ∧ .stdout ∈ settled.used ∧ .output ∈ settled.used ∧
      settled.conflict? = if argument = .output then some (.output, .stdout) else some (.stdout, .output) := by
  obtain ⟨before, halfway, read⟩ := leads_spelled front .start start_holds.ready
  obtain ⟨plain, flagged, holds, met, beside⟩ := halfway.word_stdout first
  obtain ⟨next, ready, plainRead⟩ := leads_furtherLine holds.ready first rest
  obtain ⟨plainSettled, plainSettles, settledHolds⟩ := ready.settles
  have unflagged : .stdout ∉ plainSettled.used := by
    simp [settledHolds.used, Request.gives, stdout_furtherLine rest, first]
  -- From the flag on, the line without it is read beside.
  obtain ⟨progress, otherRead, besideRead⟩ := (steady_read more).beside plainRead
    (steady_settled.quiet plainSettles unflagged) (beside argument order)
  obtain ⟨settled, settles, besideSettled⟩ := steady_settled.beside plainSettles unflagged besideRead
  have used : .output ∈ plainSettled.used := by
    rcases given with early | late
    · obtain ⟨earlier, _, -, shape, place⟩ := besideSettled.place
      rw [shape]
      exact List.mem_append_left _ (place.mp (order.mpr early))
    · rwa [settledHolds.used, Request.gives, Option.isSome_iff_ne_none]
  refine ⟨progress, settled, ?_, settles, besideSettled.mem_iff.mpr (.inl rfl),
    besideSettled.mem_iff.mpr (.inr used), besideSettled.conflict? settledHolds.distinct unflagged used⟩
  rw [read, read_word (by decide), met]
  exact otherRead

end Progress

/-- A run that is to print its index has the default output, and no path is empty in what is
accepted. A line with both `--stdout` and an output, of whatever value, is refused for the conflict
between the two, and the one met first is named first and alone in the usage. -/
theorem stdout_excludes_output :
    (∀ (arguments : List Bytes) (settings : Settings), parse arguments = .ok settings →
      (settings.stdout = true → settings.output = .ofString "CODE_INDEX.md") ∧
        settings.root.bytes ≠ [] ∧ settings.output.bytes ≠ []) ∧
    ∀ (first second : Argument) (words : List Bytes), Clashing first second words →
      ∃ used, parse words = .error (.conflict first second used) ∧ first ∈ used ∧ second ∉ used := by
  constructor
  · intro arguments settings done
    obtain ⟨progress, read, finished⟩ := bind_eq_ok_iff.mp done
    exact Progress.finish_ok ((Progress.steady_read arguments).sound read Progress.start_sound) finished
  · intro first second words clashing
    have reported : ∀ progress settled : Progress, Progress.start.read words = .ok progress →
        progress.settled = .ok settled → settled.conflict? = some (first, second) →
        parse words = .error (.conflict first second (settled.used.filter (· ≠ second))) := by
      intro progress settled read settles clash
      rw [parse, read]
      change progress.finish = _
      rw [Progress.finish, settles]
      simp only [bind, Except.bind, clash]
      rfl
    cases clashing with
    | outputFirst front given free rest =>
      obtain ⟨progress, settled, read, settles, flagged, used, clash⟩ :=
        Progress.read_clashing front free rest (.inl given) .output (by simpa using given)
      exact ⟨_, reported progress settled read settles clash, by simp [used], by simp⟩
    | stdoutFirst front free none rest given =>
      obtain ⟨progress, settled, read, settles, flagged, used, clash⟩ :=
        Progress.read_clashing front free rest (.inr given) .stdout (by simpa using none)
      exact ⟨_, reported progress settled read settles clash, by simp [flagged], by simp⟩

/-- The output is the default one and is met last, in a cluster; a root may look like the flag. -/
theorem stdout_excludes_output_default :
    let words := [ascii "--stdout", ascii "src", ascii "-vvo=CODE_INDEX.md", ascii "--"]
    let accepted := [ascii "--stdout", ascii "--", ascii "--stdout"]
    let settings : Settings := ⟨.ofString "--stdout", .ofString "CODE_INDEX.md", .markdown, true, 0⟩
    (Clashing .stdout .output words ∧
      ∃ used, parse words = .error (.conflict .stdout .output used) ∧ .stdout ∈ used ∧ .output ∉ used) ∧
    parse accepted = .ok settings ∧ settings.output = .ofString "CODE_INDEX.md" := by
  intro words accepted settings
  have root : Further {} ⟨some (ascii "src"), none, none, false, 0⟩ [ascii "src"] :=
    .root .nothing rfl (by decide) (.inl (by decide))
  have output : Further {} ⟨some (ascii "src"), some (ascii "CODE_INDEX.md"), none, false, 2⟩
      [ascii "src", ascii "-vvo=CODE_INDEX.md"] :=
    .output root rfl (by decide) (.equated 2)
  have clashing : Clashing .stdout .output words :=
    .stdoutFirst .nothing rfl rfl (.closed output) (Option.some_ne_none _)
  have read : parse accepted = .ok settings := by decide +kernel
  exact ⟨⟨clashing, stdout_excludes_output.2 _ _ _ clashing⟩, read,
    (stdout_excludes_output.1 _ _ read).1 rfl⟩

end SourceIndex.CommandLine
