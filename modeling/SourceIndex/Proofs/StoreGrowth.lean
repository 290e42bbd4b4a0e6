import SourceIndex.Index
import SourceIndex.Proofs.PathAncestors
import SourceIndex.Proofs.PathResolution

/-! Making directories takes nothing away. What a store has it still has when directories were
made in it, at places that were free (`Grown`). A way in a store stays a way as long as no
node is lost and no link is touched (`Follows.kept`), so it survives all that happens before
an index file is opened (`makeParent_grown`). -/
namespace SourceIndex

namespace Node

/-- Nodes that differ in the content of a file at most. -/
inductive Alike : Node → Node → Prop where
  | same (node : Node) : Alike node node
  | content (before after : Bytes) : Alike (.file before) (.file after)

variable {first second third : Node}

theorem Alike.trans (start : Alike first second) (further : Alike second third) : Alike first third := by
  cases start with
  | same => exact further
  | content before => cases further <;> exact .content before _

theorem Alike.directory_iff (alike : Alike first second) : first = .directory ↔ second = .directory := by
  cases alike <;> simp

theorem Alike.link_iff (alike : Alike first second) {target : Path} :
    first = .link target ↔ second = .link target := by
  cases alike <;> simp

end Node

/-- The place that a path leads to, free or not. -/
def Target.place : Target → Place
  | .present place | .vacant place => place

namespace Store

theorem ne_nil_of_free {store : Store} {place : Place} (free : store.node? place = none) :
    place ≠ [] := by
  rintro rfl
  rw [node?_root] at free
  cases free

theorem ne_nil_of_file {store : Store} {place : Place} {content : Bytes}
    (held : store.node? place = some (.file content)) : place ≠ [] := by
  rintro rfl
  rw [node?_root] at held
  cases held

/-- A store in which nothing is lost but the contents of files. -/
structure Keeps (before after : Store) : Prop where
  alike : ∀ place node, before.node? place = some node →
    ∃ other, after.node? place = some other ∧ node.Alike other
  working : after.working = before.working

section
variable {before after : Store}

theorem Keeps.directory (keeps : Keeps before after) {place : Place}
    (stands : before.node? place = some .directory) : after.node? place = some .directory := by
  obtain ⟨other, held, alike⟩ := keeps.alike place _ stands
  rw [held, alike.directory_iff.mp rfl]

/-- A way stays a way. -/
theorem Follows.kept (keeps : Keeps before after)
    (follows : Follows before links place steps left goal) :
    Follows after links place steps left goal := by
  induction follows with
  | done => exact .done
  | here stands _ ih => exact .here (keeps.directory stands) ih
  | slash stands _ ih => exact .slash (keeps.directory stands) ih
  | up stands _ ih => exact .up (keeps.directory stands) ih
  | enter stands fits found real _ ih =>
    obtain ⟨other, held, alike⟩ := keeps.alike _ _ found
    exact .enter (keeps.directory stands) fits held
      (fun target linked => real target (alike.link_iff.mpr linked)) ih
  | link stands fits found _ ih =>
    obtain ⟨other, held, alike⟩ := keeps.alike _ _ found
    rw [alike.link_iff.mp rfl] at held
    exact .link (keeps.directory stands) fits held ih

theorem locate_kept (keeps : Keeps before after) {path : Path} {place : Place}
    (found : before.locate .follow path = .ok place) : after.locate .follow path = .ok place := by
  obtain ⟨clean, spelled, short, left, follows⟩ := locate_follow_iff.mp found
  have origin : after.origin path = before.origin path := by
    rw [Store.origin, Store.origin, keeps.working]
  exact locate_follow_iff.mpr ⟨clean, spelled, short, left, origin ▸ follows.kept keeps⟩

theorem isDirectory_kept (keeps : Keeps before after) {path : Path}
    (directory : before.isDirectory path = true) : after.isDirectory path = true := by
  obtain ⟨place, found, stands⟩ := isDirectory_iff.mp directory
  refine isDirectory_iff.mpr ⟨place, locate_kept keeps found, ?_⟩
  exact isDirectoryAt_iff.mpr (keeps.directory (isDirectoryAt_iff.mp stands))

/-- A path that led somewhere, be it to a free name, leads there again once something other
than a link lies there. -/
private theorem followSteps_again {purpose again : Purpose} {target : Target} {node : Node}
    {onLink onLinkAgain : Place → List Step → Except Refusal Target} {place : Place} {steps : List Step}
    (keeps : Keeps before after) (there : after.node? target.place = some node)
    (real : ∀ path, node ≠ .link path) (same : again = purpose ∨ again = .follow)
    (onLinks : ∀ {place steps}, onLink place steps = .ok target →
      onLinkAgain place steps = .ok (.present target.place))
    (ran : before.followSteps purpose onLink place steps = .ok target) :
    after.followSteps again onLinkAgain place steps = .ok (.present target.place) := by
  induction steps generalizing place with
  | nil =>
    cases ran
    rfl
  | cons step rest ih =>
    rw [followSteps.eq_def] at ran ⊢
    dsimp only at ran ⊢
    by_cases stands : before.isDirectoryAt place = false
    · simp [stands] at ran
    have directory := keeps.directory (isDirectoryAt_iff.mp (eq_true_of_ne_false stands))
    rw [if_neg stands] at ran
    rw [if_neg (by simp [isDirectoryAt, directory])]
    cases step with
    | here => exact ih ran
    | slash => exact ih ran
    | up => exact ih ran
    | name name =>
      dsimp only at ran ⊢
      by_cases closed : purpose = .create ∧ rest = [.slash]
      · simp [closed] at ran
      by_cases long : maxName < name.length
      · simp [closed, long] at ran
      have opened : ¬ (again = .create ∧ rest = [.slash]) := by
        rcases same with rfl | rfl
        · exact closed
        · simp
      rw [if_neg closed, if_neg long] at ran
      rw [if_neg opened, if_neg long]
      cases found : before.node? (place ++ [name]) with
      | none =>
        simp only [found] at ran
        split at ran
        · rename_i last
          cases ran
          rw [Target.place] at there ⊢
          rw [there, last]
          cases node with
          | link path => exact absurd rfl (real path)
          | _ => rfl
        · cases ran
      | some held =>
        obtain ⟨other, still, alike⟩ := keeps.alike _ _ found
        simp only [found] at ran
        rw [still]
        cases alike with
        | content => exact ih ran
        | same =>
          cases held with
          | link path =>
            dsimp only at ran ⊢
            split at ran
            · cases ran
              rw [Target.place, still] at there
              exact absurd (Option.some.inj there).symm (real path)
            · rename_i through
              have further : ¬ (again = .inspect ∧ rest = []) := by
                rcases same with rfl | rfl
                · exact through
                · simp
              rw [if_neg further]
              exact onLinks ran
          | _ => exact ih ran

theorem resolve_again {purpose again : Purpose} {path : Path} {target : Target} {node : Node}
    (keeps : Keeps before after) (ran : before.resolve purpose path = .ok target)
    (there : after.node? target.place = some node) (real : ∀ path, node ≠ .link path)
    (same : again = purpose ∨ again = .follow) :
    after.resolve again path = .ok (.present target.place) := by
  have within : ∀ links place steps, before.followWithin purpose links place steps = .ok target →
      after.followWithin again links place steps = .ok (.present target.place) := by
    intro links
    induction links with
    | zero =>
      intro place steps
      exact followSteps_again keeps there real same fun ends => by cases ends
    | succ links ih =>
      intro place steps
      exact followSteps_again keeps there real same fun ends => ih _ _ ends
  rw [resolve] at ran ⊢
  split at ran
  · cases ran
  rename_i clean
  split at ran
  · cases ran
  rename_i spelled
  split at ran
  · cases ran
  rename_i short
  rw [if_neg clean, if_neg spelled, if_neg short, keeps.working]
  exact within _ _ _ ran

end

/-- A store with some more directories. -/
structure Grown (store grown : Store) : Prop where
  kept : ∀ place node, store.node? place = some node → grown.node? place = some node
  fresh : ∀ place, store.node? place = none →
    grown.node? place = none ∨ grown.node? place = some .directory
  working : grown.working = store.working

theorem Grown.refl (store : Store) : Grown store store where
  kept _ _ found := found
  fresh _ free := .inl free
  working := rfl

theorem Grown.trans {first second third : Store} (grown : Grown first second)
    (further : Grown second third) : Grown first third where
  kept place node found := further.kept place node (grown.kept place node found)
  fresh place free := by
    rcases grown.fresh place free with none | made
    · exact further.fresh place none
    · exact .inr (further.kept place .directory made)
  working := further.working.trans grown.working

theorem Grown.keeps {store grown : Store} (more : Grown store grown) : Keeps store grown where
  alike place node found := ⟨node, more.kept place node found, .same node⟩
  working := more.working

/-- A vacant place is free. -/
theorem free_of_followSteps {store : Store} {purpose : Purpose} {place goal : Place} {steps : List Step}
    {onLink : Place → List Step → Except Refusal Target}
    (onLinks : ∀ {place steps}, onLink place steps = .ok (.vacant goal) → store.node? goal = none)
    (ran : store.followSteps purpose onLink place steps = .ok (.vacant goal)) :
    store.node? goal = none := by
  induction steps generalizing place with
  | nil => cases ran
  | cons step rest ih =>
    rw [followSteps.eq_def] at ran
    dsimp only at ran
    split at ran
    · cases ran
    cases step with
    | here => exact ih ran
    | slash => exact ih ran
    | up => exact ih ran
    | name name =>
      dsimp only at ran
      split at ran
      · cases ran
      split at ran
      · cases ran
      split at ran
      · rename_i free
        split at ran
        · cases ran
          exact free
        · cases ran
      · split at ran
        · cases ran
        · exact onLinks ran
      · exact ih ran

theorem free_of_resolve {store : Store} {purpose : Purpose} {path : Path} {goal : Place}
    (vacant : store.resolve purpose path = .ok (.vacant goal)) : store.node? goal = none := by
  have within : ∀ links place steps, store.followWithin purpose links place steps = .ok (.vacant goal) →
      store.node? goal = none := by
    intro links
    induction links with
    | zero => exact fun place steps ran => free_of_followSteps (fun ends => by cases ends) ran
    | succ links ih => exact fun place steps ran => free_of_followSteps (fun ends => ih _ _ ends) ran
  unfold resolve at vacant
  split at vacant
  · cases vacant
  split at vacant
  · cases vacant
  split at vacant
  · cases vacant
  · exact within _ _ _ vacant

theorem grown_put {store : Store} {place : Place} (free : store.node? place = none) :
    Grown store (store.put place .directory) := by
  have below := ne_nil_of_free free
  refine ⟨?_, ?_, rfl⟩
  · intro probe node found
    rw [node?_put store below, if_neg, found]
    rintro rfl
    rw [free] at found
    cases found
  · intro probe none
    rw [node?_put store below]
    split
    · exact .inr rfl
    · exact .inl none

/-- A path that led to a free place leads to the directory that was put there. -/
theorem locate_of_vacant {store : Store} {path : Path} {place : Place}
    (vacant : store.resolve .inspect path = .ok (.vacant place)) :
    (store.put place .directory).locate .follow path = .ok place := by
  have free := free_of_resolve vacant
  have there : (store.put place .directory).node? place = some .directory := by
    rw [node?_put store (ne_nil_of_free free), if_pos rfl]
  have found : (store.put place .directory).resolve .follow path = .ok (.present place) :=
    resolve_again (grown_put free).keeps vacant there (by simp) (.inr rfl)
  rw [locate, found]

/-- What is kept by putting a directory at a vacant place is kept by making directories. -/
theorem makeAll_rel (rel : Store → Store → Prop) (refl : ∀ store, rel store store)
    (trans : ∀ {first second third}, rel first second → rel second third → rel first third)
    {paths : List Path} (made : ∀ {store : Store} {path : Path} {place : Place}, path ∈ paths →
      store.resolve .inspect path = .ok (.vacant place) → rel store (store.put place .directory))
    (store : Store) : rel store (store.makeAll paths).1 := by
  induction paths generalizing store with
  | nil => exact refl store
  | cons path above ih =>
    have further : ∀ store, rel store (store.makeAll above).1 :=
      fun store => ih (fun member => made (List.mem_cons_of_mem path member)) store
    have one : ∀ (store : Store), rel store (store.makeDirectory path).1 := by
      intro store
      unfold makeDirectory
      split
      · rename_i vacant
        exact made List.mem_cons_self vacant
      · exact refl store
      · exact refl store
    have first := one store
    have settled : ∀ {made : Store}, rel store made → rel store
        (if made.isDirectory path then (made, Except.ok ())
          else (made, Except.error Refusal.alreadyExists)).1 := by
      intro made grown
      split
      · exact grown
      · exact grown
    unfold makeAll
    dsimp only
    split
    · rename_i made
      rwa [made] at first
    · rename_i made
      rw [made] at first
      exact settled first
    · rename_i missing made
      rw [made] at first
      split
      · exact first
      · have deeper := trans first (further missing)
        split
        · rename_i failed
          rwa [failed] at deeper
        · rename_i between done
          rw [done] at deeper
          have again := trans deeper (one between)
          split
          · rename_i there
            rw [there] at again
            exact settled again
          · exact again
    · rename_i made
      rwa [made] at first

end Store

namespace Index

/-- What is kept by putting a directory at a vacant place is kept when the directory for an
index file is made. -/
theorem makeParent_rel (rel : Store → Store → Prop) (refl : ∀ store, rel store store)
    (trans : ∀ {first second third}, rel first second → rel second third → rel first third)
    {path : Path} (made : ∀ {store : Store} {above : Path} {place : Place}, above ∈ path.enclosing →
      store.resolve .inspect above = .ok (.vacant place) → rel store (store.put place .directory))
    (store : Store) : rel store (makeParent store path).1 := by
  unfold makeParent
  split
  · exact refl store
  · rename_i parent lies
    rw [Path.enclosing, lies] at made
    split
    · exact refl store
    · have all := Store.makeAll_rel rel refl trans made store
      rw [← Store.makeDirectories] at all
      split
      · rename_i done
        rwa [done] at all
      · rename_i failed
        rwa [failed] at all

theorem makeParent_grown (store : Store) (path : Path) : store.Grown (makeParent store path).1 :=
  makeParent_rel Store.Grown Store.Grown.refl Store.Grown.trans
    (fun _ vacant => Store.grown_put (Store.free_of_resolve vacant)) store

end Index
end SourceIndex
