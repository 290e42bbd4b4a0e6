import SourceIndex.Proofs.StoreSoundness

/-! What it means that a path leads to a place. `Follows` is the way itself, one rule for
each kind of step, with the number of links that may still be taken; `follows_iff` ties it
to the resolver that runs. Ways can be cut and joined (`follows_append`), which is how a
path below a directory is told apart into the directory and the names below it. -/
namespace SourceIndex

/-- Whether a step leads away from where it is taken. -/
def Step.isMove : Step → Bool
  | .up | .name _ => true
  | .here | .slash => false

/-- The step that a component of a path asks for. -/
def Component.step? : Component → Option Step
  | .root | .here => none
  | .up => some .up
  | .name bytes => some (.name bytes)

namespace Path

/-- The steps of a path that lead on. -/
def moves (path : Path) : List Step := path.steps.filter Step.isMove

private theorem filter_isMove (row : List Bytes) :
    (row.filterMap Step.ofSegment?).filter Step.isMove =
      (row.filterMap component?).filterMap Component.step? := by
  rw [← List.filterMap_eq_filter, List.filterMap_filterMap, List.filterMap_filterMap]
  congr 1
  funext segment
  rw [Step.ofSegment?, component?]
  by_cases empty : segment = []
  · simp [empty]
  by_cases here : segment = [dot]
  · simp [here, Option.guard, Step.isMove]
  by_cases up : segment = [dot, dot]
  · simp [up, Option.guard, Step.isMove, Component.step?]
  · simp [empty, here, up, Option.guard, Step.isMove, Component.step?]

/-- The components of a path tell where it goes; what a spelling has beyond them only asks
for directories. -/
theorem moves_eq (path : Path) : path.moves = path.components.filterMap Component.step? := by
  by_cases unspelled : path.bytes = []
  · obtain ⟨bytes⟩ := path
    cases unspelled
    rfl
  obtain ⟨first, rest, row⟩ := List.exists_cons_of_ne_nil (segments_ne_nil path.bytes)
  have same : (leading first).filterMap Component.step? =
      (([first].filterMap component?).filterMap Component.step?) := by
    rw [leading]
    by_cases empty : first = []
    · simp [empty, component?, Component.step?]
    by_cases here : first = [dot]
    · simp [here, component?, Component.step?]
    · rw [if_neg empty, if_neg here, List.filterMap_cons]
      cases component? first <;> rfl
  have trailing : (if (segments path.bytes).getLast? = some [] then [Step.slash] else []).filter
      Step.isMove = [] := by
    split <;> rfl
  rw [moves, steps, List.filter_append, trailing, List.append_nil, filter_isMove, row,
    components_of_segments unspelled row, List.filterMap_append, same, ← List.filterMap_append,
    ← List.filterMap_append]
  rfl

private theorem leading_eq (first : Bytes) :
    ∃ component, leading first = [component] ∧ (component = .root ↔ first = []) := by
  rw [leading, component?]
  by_cases empty : first = []
  · exact ⟨.root, by simp [empty]⟩
  by_cases here : first = [dot]
  · exact ⟨.here, by simp [here]⟩
  by_cases up : first = [dot, dot]
  · exact ⟨.up, by simp [up]⟩
  · exact ⟨.name first, by simp [empty, here, up]⟩

theorem isAbsolute_iff {path : Path} :
    path.isAbsolute = true ↔ path.components.head? = some .root := by
  by_cases unspelled : path.bytes = []
  · obtain ⟨bytes⟩ := path
    cases unspelled
    simp [isAbsolute, components_nil]
  obtain ⟨first, rest, row⟩ := List.exists_cons_of_ne_nil (segments_ne_nil path.bytes)
  obtain ⟨component, lead, root⟩ := leading_eq first
  rw [components_of_segments unspelled row, lead]
  simp only [List.cons_append, List.head?_cons, Option.some.injEq, root]
  cases spelling : path.bytes with
  | nil => exact absurd spelling unspelled
  | cons byte more =>
    rw [spelling, segments] at row
    rw [isAbsolute, spelling]
    by_cases slashed : byte = slash
    · rw [if_pos slashed] at row
      cases row
      simp [slashed]
    · rw [if_neg slashed] at row
      have some : first ≠ [] := by
        rintro rfl
        split at row <;> cases row
      simp [slashed, some]

theorem components_ne_nil {path : Path} (spelled : path.bytes ≠ []) : path.components ≠ [] := by
  obtain ⟨first, rest, row⟩ := List.exists_cons_of_ne_nil (segments_ne_nil path.bytes)
  obtain ⟨component, lead, _⟩ := leading_eq first
  simp [components_of_segments spelled row, lead]

/-- Every component of a path but the first one is a step. -/
theorem step?_of_later {path : Path} {front back : List Component} {component : Component}
    (split : path.components = front ++ component :: back) (later : front ≠ []) :
    ∃ step, component.step? = some step := by
  have spelled : path.bytes ≠ [] := by
    obtain ⟨bytes⟩ := path
    rintro ⟨⟩
    simp [components_nil] at split
  obtain ⟨first, rest, row⟩ := List.exists_cons_of_ne_nil (segments_ne_nil path.bytes)
  obtain ⟨lead, same, _⟩ := leading_eq first
  obtain ⟨head, others, rfl⟩ := List.exists_cons_of_ne_nil later
  rw [components_of_segments spelled row, same] at split
  have tail : rest.filterMap component? = others ++ component :: back := (List.cons.inj split).2
  have member : component ∈ rest.filterMap component? := by
    rw [tail]
    simp
  obtain ⟨segment, _, found⟩ := List.mem_filterMap.mp member
  rcases component?_eq_some found with rfl | ⟨name, rfl⟩
  · exact ⟨.up, rfl⟩
  · exact ⟨.name name, rfl⟩

/-- Where a path starts is told by its first component. -/
theorem isAbsolute_of_prefix {base path : Path} (spelled : base.bytes ≠ [])
    (front : base.components <+: path.components) : path.isAbsolute = base.isAbsolute := by
  obtain ⟨first, rest, row⟩ := List.exists_cons_of_ne_nil (components_ne_nil spelled)
  obtain ⟨more, whole⟩ := front
  rw [Bool.eq_iff_iff, isAbsolute_iff, isAbsolute_iff, ← whole, row]
  rfl

theorem moves_below {base path : Path} {names : List Name}
    (below : path.components = base.components ++ names.map .name) :
    path.moves = base.moves ++ names.map .name := by
  rw [moves_eq, moves_eq, below, List.filterMap_append, List.filterMap_map]
  simp [Component.step?, Function.comp_def]

end Path

namespace Store

/-- Where a path starts. -/
def origin (store : Store) (path : Path) : Place :=
  if path.isAbsolute then [] else store.working

/-- Following these steps from a place with some links to spare ends at a goal, with the
links that are left. -/
inductive Follows (store : Store) : Nat → Place → List Step → Nat → Place → Prop where
  | done : Follows store links place [] links place
  | here (stands : store.node? place = some .directory) :
      Follows store links place rest left goal → Follows store links place (.here :: rest) left goal
  | slash (stands : store.node? place = some .directory) :
      Follows store links place rest left goal → Follows store links place (.slash :: rest) left goal
  | up (stands : store.node? place = some .directory) :
      Follows store links place.dropLast rest left goal →
      Follows store links place (.up :: rest) left goal
  | enter (stands : store.node? place = some .directory) (fits : name.length ≤ maxName)
      (found : store.node? (place ++ [name]) = some node) (real : ∀ target, node ≠ .link target) :
      Follows store links (place ++ [name]) rest left goal →
      Follows store links place (.name name :: rest) left goal
  | link (stands : store.node? place = some .directory) (fits : name.length ≤ maxName)
      (found : store.node? (place ++ [name]) = some (.link target)) :
      Follows store links (if target.isAbsolute then [] else place) (target.steps ++ rest) left goal →
      Follows store (links + 1) place (.name name :: rest) left goal

/-- What happens at a link, with as many links still allowed. -/
private def atLink (store : Store) (purpose : Purpose) :
    Nat → Place → List Step → Except Refusal Target
  | 0 => fun _ _ => .error .tooManyLinks
  | links + 1 => store.followWithin purpose links

private theorem followWithin_eq (store : Store) (purpose : Purpose) (links : Nat) :
    store.followWithin purpose links = store.followSteps purpose (store.atLink purpose links) := by
  cases links <;> rfl

theorem followWithin_of_follows {store : Store}
    (follows : Follows store links place steps left goal) :
    store.followWithin .follow links place steps = .ok (.present goal) := by
  induction follows with
  | done => rw [followWithin_eq, followSteps]
  | here stands _ ih | slash stands _ ih | up stands _ ih =>
    rw [followWithin_eq] at ih ⊢
    simpa [followSteps, isDirectoryAt, stands] using ih
  | @enter _ _ node _ _ _ _ stands fits found real _ ih =>
    rw [followWithin_eq] at ih ⊢
    cases node with
    | link target => exact absurd rfl (real target)
    | _ => simpa [followSteps, isDirectoryAt, stands, found, Nat.not_lt.mpr fits] using ih
  | link stands fits found _ ih =>
    rw [followWithin_eq]
    simpa [followSteps, isDirectoryAt, stands, found, Nat.not_lt.mpr fits, atLink] using ih

/-- Where a way ends there is something to look at, be it a last link itself. -/
theorem inspect_of_follows {store : Store}
    (follows : Follows store links place steps left goal) :
    ∃ last, store.followWithin .inspect links place steps = .ok (.present last) := by
  induction follows with
  | done => exact ⟨_, by rw [followWithin_eq, followSteps]⟩
  | here stands _ ih | slash stands _ ih | up stands _ ih =>
    obtain ⟨last, ran⟩ := ih
    refine ⟨last, ?_⟩
    rw [followWithin_eq] at ran ⊢
    simpa [followSteps, isDirectoryAt, stands] using ran
  | @enter _ _ node _ _ _ _ stands fits found real _ ih =>
    obtain ⟨last, ran⟩ := ih
    refine ⟨last, ?_⟩
    rw [followWithin_eq] at ran ⊢
    cases node with
    | link target => exact absurd rfl (real target)
    | _ => simpa [followSteps, isDirectoryAt, stands, found, Nat.not_lt.mpr fits] using ran
  | @link place name _ _ rest _ _ stands fits found _ ih =>
    obtain ⟨last, ran⟩ := ih
    rw [followWithin_eq]
    by_cases final : rest = []
    · refine ⟨place ++ [name], ?_⟩
      simp [followSteps, isDirectoryAt, stands, found, Nat.not_lt.mpr fits, final]
    · refine ⟨last, ?_⟩
      simpa [followSteps, isDirectoryAt, stands, found, Nat.not_lt.mpr fits, final, atLink] using ran

private theorem follows_of_followSteps {store : Store} {purpose : Purpose} {links : Nat}
    {place goal : Place} {steps : List Step} (through : purpose ≠ .inspect)
    (atLinks : ∀ {place steps}, store.atLink purpose links place steps = .ok (.present goal) →
      ∃ fewer left, links = fewer + 1 ∧ Follows store fewer place steps left goal)
    (ran : store.followSteps purpose (store.atLink purpose links) place steps = .ok (.present goal)) :
    ∃ left, Follows store links place steps left goal := by
  induction steps generalizing place with
  | nil =>
    cases ran
    exact ⟨links, .done⟩
  | cons step rest ih =>
    rw [followSteps.eq_def] at ran
    dsimp only at ran
    by_cases stands : store.isDirectoryAt place = false
    · simp [stands] at ran
    rw [if_neg stands] at ran
    have directory := isDirectoryAt_iff.mp (eq_true_of_ne_false stands)
    cases step with
    | here =>
      obtain ⟨left, follows⟩ := ih ran
      exact ⟨left, .here directory follows⟩
    | slash =>
      obtain ⟨left, follows⟩ := ih ran
      exact ⟨left, .slash directory follows⟩
    | up =>
      obtain ⟨left, follows⟩ := ih ran
      exact ⟨left, .up directory follows⟩
    | name name =>
      dsimp only at ran
      by_cases closed : purpose = .create ∧ rest = [.slash]
      · simp [closed] at ran
      by_cases long : maxName < name.length
      · simp [closed, long] at ran
      have fits := Nat.not_lt.mp long
      rw [if_neg closed, if_neg long] at ran
      cases found : store.node? (place ++ [name]) with
      | none =>
        simp only [found] at ran
        split at ran <;> cases ran
      | some node =>
        simp only [found] at ran
        cases node with
        | link target =>
          simp only [through, false_and, ↓reduceIte] at ran
          obtain ⟨fewer, left, rfl, follows⟩ := atLinks ran
          exact ⟨left, .link directory fits found follows⟩
        | _ =>
          obtain ⟨left, follows⟩ := ih ran
          exact ⟨left, .enter directory fits found (by simp) follows⟩

/-- Whatever a path is followed for, a node that is found is found on a way to it. -/
theorem follows_of_followWithin {store : Store} {purpose : Purpose} {links : Nat}
    {place goal : Place} {steps : List Step} (through : purpose ≠ .inspect)
    (ran : store.followWithin purpose links place steps = .ok (.present goal)) :
    ∃ left, Follows store links place steps left goal := by
  induction links generalizing place steps with
  | zero =>
    rw [followWithin_eq] at ran
    exact follows_of_followSteps through (fun reached => by cases reached) ran
  | succ links ih =>
    rw [followWithin_eq] at ran
    refine follows_of_followSteps through (fun reached => ?_) ran
    obtain ⟨left, follows⟩ := ih reached
    exact ⟨links, left, rfl, follows⟩

/-- The resolver finds a node exactly when there is a way to it. -/
theorem follows_iff {store : Store} {links : Nat} {place goal : Place} {steps : List Step} :
    store.followWithin .follow links place steps = .ok (.present goal) ↔
      ∃ left, Follows store links place steps left goal := by
  constructor
  · exact follows_of_followWithin (by decide)
  · rintro ⟨left, follows⟩
    exact followWithin_of_follows follows

/-- There is one way at most. -/
theorem Follows.unique {store : Store} (first : Follows store links place steps left goal)
    (second : Follows store links place steps left' goal') : left = left' ∧ goal = goal' := by
  induction first with
  | done =>
    cases second
    exact ⟨rfl, rfl⟩
  | here _ _ ih | slash _ _ ih | up _ _ ih =>
    cases second
    exact ih ‹_›
  | enter _ _ found real _ ih =>
    cases second with
    | enter _ _ _ _ rest => exact ih rest
    | link _ _ linked rest =>
      rw [found] at linked
      exact absurd (Option.some.inj linked) (real _)
  | link _ _ found _ ih =>
    cases second with
    | enter _ _ linked real rest =>
      rw [found] at linked
      exact absurd (Option.some.inj linked).symm (real _)
    | link _ _ linked rest =>
      rw [found] at linked
      cases linked
      exact ih rest

/-- A way takes its links off those that may be taken. -/
theorem Follows.left_le {store : Store} (follows : Follows store links place steps left goal) :
    left ≤ links := by
  induction follows with
  | done => exact Nat.le_refl _
  | here _ _ ih | slash _ _ ih | up _ _ ih | enter _ _ _ _ _ ih => exact ih
  | link _ _ _ _ ih => exact Nat.le_succ_of_le ih

/-- A way can be taken with any number of links to spare. -/
theorem Follows.spared {store : Store} (follows : Follows store links place steps left goal)
    (spare : Nat) : Follows store (links - left + spare) place steps spare goal := by
  induction follows with
  | done =>
    rw [Nat.sub_self, Nat.zero_add]
    exact .done
  | here stands _ ih => exact .here stands ih
  | slash stands _ ih => exact .slash stands ih
  | up stands _ ih => exact .up stands ih
  | enter stands fits found real _ ih => exact .enter stands fits found real ih
  | link stands fits found further ih =>
    rw [Nat.succ_sub further.left_le, Nat.succ_add]
    exact .link stands fits found ih

/-- However many links may be taken, the way is the same and takes as many. -/
theorem Follows.taken_eq {store : Store} (first : Follows store links place steps left goal)
    (second : Follows store links' place steps left' goal') :
    links - left = links' - left' ∧ goal = goal' := by
  have spared := first.spared (links' - left')
  rw [Nat.add_comm] at spared
  obtain ⟨same, goals⟩ := spared.unique (second.spared (links - left))
  exact ⟨same.symm, goals⟩

theorem Follows.append {store : Store} (first : Follows store links place before middle between)
    (second : Follows store middle between after left goal) :
    Follows store links place (before ++ after) left goal := by
  induction first with
  | done => exact second
  | here stands _ ih => exact .here stands (ih second)
  | slash stands _ ih => exact .slash stands (ih second)
  | up stands _ ih => exact .up stands (ih second)
  | enter stands fits found real _ ih => exact .enter stands fits found real (ih second)
  | link stands fits found _ ih =>
    exact .link stands fits found (List.append_assoc .. ▸ ih second)

private theorem Follows.cut {store : Store} (whole : Follows store links place steps left goal) :
    ∀ before after, steps = before ++ after → ∃ middle between,
      Follows store links place before middle between ∧
        Follows store middle between after left goal := by
  induction whole with
  | done =>
    intro before after split
    obtain ⟨rfl, rfl⟩ := List.append_eq_nil_iff.mp split.symm
    exact ⟨_, _, .done, .done⟩
  | here stands follows ih =>
    rintro (_ | ⟨step, before⟩) after split
    · exact ⟨_, _, .done, (show _ = after from split) ▸ .here stands follows⟩
    · cases split
      obtain ⟨_, _, first, second⟩ := ih before after rfl
      exact ⟨_, _, .here stands first, second⟩
  | slash stands follows ih =>
    rintro (_ | ⟨step, before⟩) after split
    · exact ⟨_, _, .done, (show _ = after from split) ▸ .slash stands follows⟩
    · cases split
      obtain ⟨_, _, first, second⟩ := ih before after rfl
      exact ⟨_, _, .slash stands first, second⟩
  | up stands follows ih =>
    rintro (_ | ⟨step, before⟩) after split
    · exact ⟨_, _, .done, (show _ = after from split) ▸ .up stands follows⟩
    · cases split
      obtain ⟨_, _, first, second⟩ := ih before after rfl
      exact ⟨_, _, .up stands first, second⟩
  | enter stands fits found real follows ih =>
    rintro (_ | ⟨step, before⟩) after split
    · exact ⟨_, _, .done, (show _ = after from split) ▸ .enter stands fits found real follows⟩
    · cases split
      obtain ⟨_, _, first, second⟩ := ih before after rfl
      exact ⟨_, _, .enter stands fits found real first, second⟩
  | link stands fits found follows ih =>
    rintro (_ | ⟨step, before⟩) after split
    · exact ⟨_, _, .done, (show _ = after from split) ▸ .link stands fits found follows⟩
    · cases split
      obtain ⟨_, _, first, second⟩ := ih (_ ++ before) after (List.append_assoc ..).symm
      exact ⟨_, _, .link stands fits found first, second⟩

/-- Ways can be cut and joined anywhere between two steps. -/
theorem follows_append {store : Store} {before after : List Step} :
    Follows store links place (before ++ after) left goal ↔ ∃ middle between,
      Follows store links place before middle between ∧
      Follows store middle between after left goal := by
  constructor
  · intro whole
    exact whole.cut before after rfl
  · rintro ⟨middle, between, first, second⟩
    exact first.append second

/-- A step is taken from a directory. -/
theorem Follows.stands {store : Store}
    (follows : Follows store links place (step :: rest) left goal) :
    store.node? place = some .directory := by
  cases follows <;> assumption

/-- Behind a slash there is a directory. -/
theorem directory_of_slash {store : Store} (steps : List Step)
    (follows : Follows store links place (steps ++ [.slash]) left goal) :
    store.node? goal = some .directory := by
  obtain ⟨_, _, _, last⟩ := follows_append.mp follows
  cases last with
  | slash stands stays =>
    cases stays
    exact stands

/-- A way to something that is no directory is also the way to open it for writing. -/
theorem create_of_follows {store : Store} (follows : Follows store links place steps left goal)
    (plain : store.node? goal ≠ some .directory) :
    store.followWithin .create links place steps = .ok (.present goal) := by
  induction follows with
  | done => rw [followWithin_eq, followSteps]
  | here stands _ ih | slash stands _ ih | up stands _ ih =>
    have ran := ih plain
    rw [followWithin_eq] at ran ⊢
    simpa [followSteps, isDirectoryAt, stands] using ran
  | @enter _ _ node _ rest _ _ stands fits found real further ih =>
    have closed : rest ≠ [.slash] := by
      rintro rfl
      exact plain (directory_of_slash [] further)
    have ran := ih plain
    rw [followWithin_eq] at ran ⊢
    cases node with
    | link target => exact absurd rfl (real target)
    | _ => simpa [followSteps, isDirectoryAt, stands, found, Nat.not_lt.mpr fits, closed] using ran
  | @link _ _ _ _ rest _ _ stands fits found further ih =>
    have closed : rest ≠ [.slash] := by
      rintro rfl
      exact plain (directory_of_slash _ further)
    have ran := ih plain
    rw [followWithin_eq]
    simpa [followSteps, isDirectoryAt, stands, found, Nat.not_lt.mpr fits, closed, atLink] using ran

/-- What the resolver asks of a path, and the way it then takes. -/
theorem locate_follow_iff {store : Store} {path : Path} {place : Place} :
    store.locate .follow path = .ok place ↔
      0 ∉ path.bytes ∧ path.bytes ≠ [] ∧ path.bytes.length ≤ maxPath ∧
        ∃ left, Follows store maxLinks (store.origin path) path.steps left place := by
  rw [← follows_iff, locate, resolve, origin]
  by_cases nul : path.bytes.contains 0
  · simp [show 0 ∈ path.bytes by simpa using nul]
  have clean : 0 ∉ path.bytes := by simpa using nul
  rw [if_neg nul]
  by_cases empty : path.bytes = []
  · simp [empty]
  rw [if_neg empty]
  by_cases long : maxPath < path.bytes.length
  · simp [long, Nat.not_le.mpr long]
  rw [if_neg long]
  simp only [clean, empty, Nat.not_lt.mp long, not_false_eq_true, ne_eq, true_and]
  constructor
  · intro found
    split at found
    · rename_i reached
      cases found
      exact reached
    · cases found
    · cases found
  · intro reached
    rw [reached]

/-- What a path leads to can be looked at without following the last link. -/
theorem resolve_inspect {store : Store} {path : Path} {place : Place}
    (found : store.locate .follow path = .ok place) :
    ∃ last, store.resolve .inspect path = .ok (.present last) := by
  obtain ⟨clean, spelled, short, left, follows⟩ := locate_follow_iff.mp found
  obtain ⟨last, ran⟩ := inspect_of_follows follows
  refine ⟨last, ?_⟩
  rw [resolve, if_neg (by simpa using clean), if_neg spelled, if_neg (Nat.not_lt.mpr short)]
  exact ran

/-- A path that leads to something other than a directory can be opened for writing. -/
theorem resolve_create {store : Store} {path : Path} {place : Place}
    (found : store.locate .follow path = .ok place) (plain : store.node? place ≠ some .directory) :
    store.resolve .create path = .ok (.present place) := by
  obtain ⟨clean, spelled, short, left, follows⟩ := locate_follow_iff.mp found
  rw [resolve, if_neg (by simpa using clean), if_neg spelled, if_neg (Nat.not_lt.mpr short)]
  exact create_of_follows follows plain

private theorem Follows.filter_isMove {store : Store} {steps : List Step}
    (follows : Follows store links place steps left goal) :
    Follows store links place (steps.filter Step.isMove) left goal := by
  induction steps generalizing links place with
  | nil => exact follows
  | cons step rest ih =>
    obtain ⟨middle, between, first, second⟩ := follows.cut [step] rest rfl
    cases step with
    | here =>
      cases first with
      | here _ stays =>
        cases stays
        exact ih second
    | slash =>
      cases first with
      | slash _ stays =>
        cases stays
        exact ih second
    | up => exact first.append (ih second)
    | name name => exact first.append (ih second)

/-- Where a path leads, its moves lead. -/
theorem follows_moves {store : Store} {path : Path} {place : Place}
    (found : store.locate .follow path = .ok place) :
    ∃ left, Follows store maxLinks (store.origin path) path.moves left place := by
  obtain ⟨_, _, _, left, follows⟩ := locate_follow_iff.mp found
  exact ⟨left, follows.filter_isMove⟩

/-- To a directory its moves alone show the way. -/
theorem follows_of_moves {store : Store} {steps : List Step}
    (moves : Follows store links place (steps.filter Step.isMove) left goal)
    (directory : store.node? goal = some .directory) : Follows store links place steps left goal := by
  have stands : ∀ {links place row}, Follows store links place row left goal →
      store.node? place = some .directory := by
    intro links place row way
    cases row with
    | nil =>
      cases way
      exact directory
    | cons => exact way.stands
  induction steps generalizing links place with
  | nil => exact moves
  | cons step rest ih =>
    cases step with
    | here => exact .here (stands moves) (ih moves)
    | slash => exact .slash (stands moves) (ih moves)
    | up =>
      cases moves with
      | up here further => exact .up here (ih further)
    | name name =>
      cases moves with
      | enter here fits found real further => exact .enter here fits found real (ih further)
      | link here fits found further =>
        obtain ⟨_, _, through, onward⟩ := follows_append.mp further
        exact .link here fits found (through.append (ih onward))

/-- A path with more names than another leads on from where that one leads. -/
theorem follows_below {store : Store} {base path : Path} {names : List Name} {place goal : Place}
    (below : path.components = base.components ++ names.map .name)
    (found : store.locate .follow base = .ok place) (reached : store.locate .follow path = .ok goal) :
    ∃ links left, Follows store links place (names.map .name) left goal := by
  have spelled := (locate_follow_iff.mp found).2.1
  obtain ⟨_, above⟩ := follows_moves found
  obtain ⟨_, whole⟩ := follows_moves reached
  rw [origin, Path.isAbsolute_of_prefix spelled ⟨_, below.symm⟩, Path.moves_below below] at whole
  obtain ⟨links, between, first, second⟩ := follows_append.mp whole
  obtain ⟨rfl, rfl⟩ := above.unique first
  exact ⟨_, _, second⟩

/-- Below a directory a path leads where the names lead on from it, with the links that are
left there, as long as the path is not too long to be spelled. -/
theorem locate_under_iff {store : Store} {base : Path} {names : List Name} {place goal : Place}
    {left : Nat} (clean : 0 ∉ base.bytes) (spelled : base.bytes ≠ [])
    (way : Follows store maxLinks (store.origin base) base.steps left place)
    (named : ∀ name ∈ names, IsName name) (further : names ≠ []) :
    store.locate .follow (base.under names) = .ok goal ↔
      (base.under names).bytes.length ≤ maxPath ∧
        ∃ rest, Follows store left place (names.map .name) rest goal := by
  have below := Path.components_under spelled named
  have origin : store.origin (base.under names) = store.origin base := by
    rw [Store.origin, Store.origin, Path.isAbsolute_of_prefix spelled ⟨_, below.symm⟩]
  obtain ⟨row, tail, steps, slashed, inner⟩ := Path.steps_under spelled named further
  rw [steps] at way
  obtain ⟨middle, between, above, ends⟩ := follows_append.mp way
  -- A trailing slash of the directory stays where it is.
  obtain ⟨rfl, rfl⟩ : left = middle ∧ place = between := by
    rcases slashed with rfl | rfl
    · cases ends
      exact ⟨rfl, rfl⟩
    · cases ends with
      | slash _ stays =>
        cases stays
        exact ⟨rfl, rfl⟩
  rw [locate_follow_iff, origin, inner]
  constructor
  · rintro ⟨_, _, short, rest, whole⟩
    obtain ⟨_, _, first, second⟩ := follows_append.mp whole
    obtain ⟨rfl, rfl⟩ := above.unique first
    exact ⟨short, rest, second⟩
  · rintro ⟨short, rest, onward⟩
    exact ⟨Path.clean_under spelled named clean, Path.under_spelled spelled named,
      short, rest, above.append onward⟩

/-- Names that lead on through real directories lead where they spell, over no link. -/
theorem follows_names {store : Store} {names : List Name} {links : Nat} {place : Place}
    (named : ∀ name ∈ names, IsName name)
    (nested : ∀ above, above <+: names → above ≠ names → store.node? (place ++ above) = some .directory)
    (there : ∃ node, store.node? (place ++ names) = some node)
    (plain : ∀ target, store.node? (place ++ names) ≠ some (.link target)) :
    Follows store links place (names.map .name) links (place ++ names) := by
  induction names generalizing place with
  | nil =>
    rw [List.append_nil]
    exact .done
  | cons name names ih =>
    obtain ⟨first, others⟩ := List.forall_mem_cons.mp named
    have stands : store.node? place = some .directory := by
      simpa using nested [] List.nil_prefix (by simp)
    have next : ∃ node, store.node? (place ++ [name]) = some node ∧ ∀ target, node ≠ .link target := by
      by_cases last : names = []
      · subst last
        obtain ⟨node, held⟩ := there
        exact ⟨node, held, fun target same => plain target (same ▸ held)⟩
      · exact ⟨.directory, nested [name] (by simp) (by simpa using Ne.symm last), by simp⟩
    obtain ⟨node, held, real⟩ := next
    have deeper : Follows store links (place ++ [name]) (names.map .name) links
        (place ++ [name] ++ names) := ih others
      (fun above inside strict => by
        simpa using nested (name :: above) (by simpa using inside) (by simpa using strict))
      (by simpa using there) (by simpa using plain)
    rw [List.append_assoc] at deeper
    exact .enter stands first.fits held real deeper

/-- Names that lead on through real directories lead where they spell. -/
theorem locate_under {store : Store} {base : Path} {names : List Name} {place : Place}
    (found : store.locate .follow base = .ok place) (named : ∀ name ∈ names, IsName name)
    (nested : ∀ above, above <+: names → above ≠ names → store.node? (place ++ above) = some .directory)
    (there : ∃ node, store.node? (place ++ names) = some node)
    (plain : ∀ target, store.node? (place ++ names) ≠ some (.link target))
    (short : (base.under names).bytes.length ≤ maxPath) :
    store.locate .follow (base.under names) = .ok (place ++ names) := by
  by_cases further : names = []
  · simpa [further] using found
  obtain ⟨clean, spelled, _, left, way⟩ := locate_follow_iff.mp found
  exact (locate_under_iff clean spelled way named further).mpr
    ⟨short, left, follows_names named nested there plain⟩

/-- What is found on the way to an opened file is what the path leads to. -/
theorem locate_of_resolve {store : Store} {purpose : Purpose} {path : Path} {place : Place}
    (through : purpose ≠ .inspect) (found : store.resolve purpose path = .ok (.present place)) :
    store.locate .follow path = .ok place := by
  rw [resolve] at found
  split at found
  · cases found
  rename_i clean
  split at found
  · cases found
  rename_i spelled
  split at found
  · cases found
  rename_i short
  obtain ⟨left, follows⟩ := follows_of_followWithin through found
  exact locate_follow_iff.mpr ⟨by simpa using clean, spelled, Nat.not_lt.mp short, left, follows⟩

theorem inspect_eq_ok_iff {store : Store} {path : Path} {purpose : Purpose} {node : Node} :
    store.inspect purpose path = .ok node ↔
      ∃ place, store.locate purpose path = .ok place ∧ store.node? place = some node := by
  rw [inspect]
  cases store.locate purpose path with
  | error refusal => simp
  | ok place =>
    simp only [Except.ok.injEq, exists_eq_left']
    cases store.node? place <;> simp

theorem isDirectory_iff {store : Store} {path : Path} : store.isDirectory path = true ↔
    ∃ place, store.locate .follow path = .ok place ∧ store.isDirectoryAt place = true := by
  rw [isDirectory, inspect]
  cases store.locate .follow path with
  | error refusal => simp
  | ok place =>
    simp only [Except.ok.injEq, exists_eq_left', isDirectoryAt_iff]
    cases store.node? place with
    | none => simp
    | some node => cases node <;> simp

theorem node_of_isFile {store : Store} {path : Path} {place : Place} (file : store.isFile path = true)
    (found : store.locate .follow path = .ok place) : ∃ node, store.node? place = some node := by
  rw [isFile, inspect, found] at file
  cases held : store.node? place with
  | none => simp [held] at file
  | some node => exact ⟨node, rfl⟩

/-- Names that lead on from a place through real directories only lead to the node that
lies there by these names. -/
theorem exists_of_follows {store : Store} {names : List Name}
    (follows : Follows store links place (names.map .name) left goal) (further : names ≠ [])
    (nested : ∀ above, above <+: names → above ≠ names →
      store.node? (place ++ above) = some .directory) :
    ∃ node, store.node? (place ++ names) = some node := by
  induction names generalizing place with
  | nil => exact absurd rfl further
  | cons name names ih =>
    cases names with
    | nil =>
      cases follows with
      | enter _ _ found => exact ⟨_, found⟩
      | link _ _ found => exact ⟨_, found⟩
    | cons next names =>
      cases follows with
      | link _ _ found =>
        have directory := nested [name] (by simp) (by simp)
        rw [found] at directory
        cases directory
      | enter _ _ _ _ rest =>
        have deeper := ih rest (by simp) fun above inside short => by
          simpa using nested (name :: above) (by simpa using inside) (by simpa using short)
        simpa using deeper

/-- Without a link on the way, names lead where they spell. -/
theorem goal_of_plain {store : Store} {names : List Name}
    (follows : Follows store links place (names.map .name) left goal)
    (plain : ∀ above, above <+: names → ∀ target,
      store.node? (place ++ above) ≠ some (.link target)) : goal = place ++ names := by
  induction names generalizing place with
  | nil =>
    cases follows
    simp
  | cons name names ih =>
    cases follows with
    | link _ _ found => exact absurd found (plain [name] (by simp) _)
    | enter _ _ _ _ rest =>
      have deeper := ih rest fun above inside target => by
        simpa using plain (name :: above) (by simpa using inside) target
      simpa using deeper

end Store
end SourceIndex
