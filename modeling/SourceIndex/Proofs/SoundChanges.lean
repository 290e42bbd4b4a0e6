import SourceIndex.Proofs.StoreGrowth

/-! A run leaves a sound store, also when it fails part of the way. New nodes come into being at
vacant places only, and a vacant place is a free name in a directory (`vacancy_of_resolve`):
the steps of a path are names that a directory can hold, and so are those of a link's path. -/
namespace SourceIndex

/-- A name among the steps of a path is one that a directory can hold, if it is not too long. -/
def Step.Proper (step : Step) : Prop :=
  ∀ name, step = .name name → name.length ≤ Store.maxName → IsName name

theorem Path.steps_proper {path : Path} (clean : 0 ∉ path.bytes) :
    ∀ step ∈ path.steps, step.Proper := by
  rintro step member name rfl fits
  unfold steps at member
  rcases List.mem_append.mp member with inside | last
  · obtain ⟨segment, row, found⟩ := List.mem_filterMap.mp inside
    unfold Step.ofSegment? at found
    split at found
    · cases found
    split at found
    · cases found
    split at found
    · cases found
    rename_i nonempty notHere notUp
    cases found
    have made := mem_segments row
    exact ⟨nonempty, fun inside => (made _ inside).2 rfl, fun nul => clean (made _ nul).1,
      notHere, notUp, fits⟩
  · split at last
    · cases List.mem_singleton.mp last
    · cases last

namespace Store

variable {store : Store}

/-- A free name in a directory. -/
structure Vacancy (store : Store) (goal : Place) : Prop where
  free : store.node? goal = none
  above : store.node? goal.dropLast = some .directory
  named : ∀ name, goal.getLast? = some name → IsName name

theorem vacancy_of_followSteps {purpose : Purpose} {place goal : Place} {steps : List Step}
    {onLink : Place → List Step → Except Refusal Target} (sound : store.Sound)
    (onLinks : ∀ {place steps}, (∀ step ∈ steps, step.Proper) →
      onLink place steps = .ok (.vacant goal) → store.Vacancy goal)
    (proper : ∀ step ∈ steps, step.Proper)
    (ran : store.followSteps purpose onLink place steps = .ok (.vacant goal)) :
    store.Vacancy goal := by
  induction steps generalizing place with
  | nil => cases ran
  | cons step rest ih =>
    obtain ⟨first, others⟩ := List.forall_mem_cons.mp proper
    rw [followSteps.eq_def] at ran
    dsimp only at ran
    split at ran
    · cases ran
    rename_i stands
    have directory := isDirectoryAt_iff.mp (eq_true_of_ne_false stands)
    cases step with
    | here => exact ih others ran
    | slash => exact ih others ran
    | up => exact ih others ran
    | name name =>
      dsimp only at ran
      split at ran
      · cases ran
      split at ran
      · cases ran
      rename_i short
      split at ran
      · rename_i free
        split at ran
        · cases ran
          refine ⟨free, by simpa using directory, fun last ends => ?_⟩
          rw [List.getLast?_concat] at ends
          cases ends
          exact first name rfl (Nat.not_lt.mp short)
        · cases ran
      · rename_i target held
        split at ran
        · cases ran
        · refine onLinks (List.forall_mem_append.mpr ⟨?_, others⟩) ran
          have member := (mem_nodes_iff sound).mpr ⟨by simp, held⟩
          exact Path.steps_proper (sound.linkable _ member).2
      · exact ih others ran

theorem vacancy_of_resolve {purpose : Purpose} {path : Path} {goal : Place} (sound : store.Sound)
    (vacant : store.resolve purpose path = .ok (.vacant goal)) : store.Vacancy goal := by
  have within : ∀ links place steps, (∀ step ∈ steps, step.Proper) →
      store.followWithin purpose links place steps = .ok (.vacant goal) → store.Vacancy goal := by
    intro links
    induction links with
    | zero =>
      intro place steps proper
      exact vacancy_of_followSteps sound (fun _ ends => by cases ends) proper
    | succ links ih =>
      intro place steps proper
      exact vacancy_of_followSteps sound (fun proper ends => ih _ _ proper ends) proper
  unfold resolve at vacant
  split at vacant
  · cases vacant
  rename_i clean
  split at vacant
  · cases vacant
  split at vacant
  · cases vacant
  · exact within _ _ _ (Path.steps_proper (by simpa using clean)) vacant

private theorem mem_insert {place : Place} {node : Node} {entry : Place × Node}
    {nodes : List (Place × Node)} (member : entry ∈ insert place node nodes) :
    entry = (place, node) ∨ entry ∈ nodes := by
  induction nodes with
  | nil => exact .inl (List.mem_singleton.mp member)
  | cons first rest ih =>
    obtain ⟨key, held⟩ := first
    unfold insert at member
    split at member
    · rcases List.mem_cons.mp member with here | later
      · exact .inl here
      · exact .inr (List.mem_cons_of_mem _ later)
    · rcases List.mem_cons.mp member with here | later
      · exact .inr (here ▸ List.mem_cons_self)
      · exact (ih later).imp_right (List.mem_cons_of_mem _)

private theorem insert_distinct {place : Place} {node : Node} {nodes : List (Place × Node)}
    (distinct : (nodes.map Prod.fst).Nodup) : ((insert place node nodes).map Prod.fst).Nodup := by
  induction nodes with
  | nil => simp [insert]
  | cons first rest ih =>
    obtain ⟨key, held⟩ := first
    obtain ⟨fresh, distinct⟩ := List.nodup_cons.mp distinct
    unfold insert
    split
    · rename_i here
      exact List.nodup_cons.mpr ⟨here ▸ fresh, distinct⟩
    · rename_i other
      refine List.nodup_cons.mpr ⟨fun inside => ?_, ih distinct⟩
      obtain ⟨entry, member, same⟩ := List.mem_map.mp inside
      rcases mem_insert member with rfl | later
      · exact other same.symm
      · exact fresh (List.mem_map.mpr ⟨entry, later, same⟩)

/-- A node may be put below a directory wherever no directory is lost by it. -/
theorem Sound.put (sound : store.Sound) {place : Place} {node : Node} (below : place ≠ [])
    (above : store.node? place.dropLast = some .directory) (named : ∀ name ∈ place, IsName name)
    (linkable : node.Linkable) (other : store.node? place ≠ some .directory) :
    (store.put place node).Sound := by
  have stays : ∀ probe, store.isDirectoryAt probe = true →
      (store.put place node).isDirectoryAt probe = true := by
    intro probe stands
    rw [isDirectoryAt_iff] at stands ⊢
    rw [node?_put store below, if_neg, stands]
    rintro rfl
    exact other stands
  refine ⟨insert_distinct sound.distinct, ?_, ?_, ?_, ?_, stays _ sound.working⟩
  · intro entry member
    rcases mem_insert member with rfl | old
    · exact below
    · exact sound.placed entry old
  · intro entry member
    rcases mem_insert member with rfl | old
    · exact stays _ (isDirectoryAt_iff.mpr above)
    · exact stays _ (sound.nested entry old)
  · intro entry member
    rcases mem_insert member with rfl | old
    · exact named
    · exact sound.named entry old
  · intro entry member
    rcases mem_insert member with rfl | old
    · exact linkable
    · exact sound.linkable entry old

theorem Sound.put_vacant (sound : store.Sound) {goal : Place} {node : Node}
    (vacancy : store.Vacancy goal) (linkable : node.Linkable) : (store.put goal node).Sound := by
  have below := ne_nil_of_free vacancy.free
  refine sound.put below vacancy.above ?_ linkable (by simp [vacancy.free])
  obtain ⟨before, last, rfl⟩ := (List.eq_nil_or_concat goal).resolve_left below
  rw [List.concat_eq_append] at vacancy ⊢
  have above := vacancy.above
  rw [List.dropLast_concat] at above
  intro name member
  rcases List.mem_append.mp member with inside | here
  · exact isName_of_node sound above name inside
  · exact vacancy.named name (by simp [List.mem_singleton.mp here])

theorem Sound.put_file (sound : store.Sound) {place : Place} {content : Bytes}
    (held : store.node? place = some (.file content)) (written : Bytes) :
    (store.put place (.file written)).Sound := by
  have below := ne_nil_of_file held
  have member := (mem_nodes_iff sound).mpr ⟨below, held⟩
  have above := isDirectoryAt_iff.mp (sound.nested _ member)
  exact sound.put below above (sound.named _ member) trivial (by simp [held])

theorem Sound.openForWriting (sound : store.Sound) (path : Path) :
    (store.openForWriting path).1.Sound := by
  unfold Store.openForWriting
  split
  · rename_i vacant
    exact sound.put_vacant (vacancy_of_resolve sound vacant) trivial
  · split
    · exact sound
    · rename_i held
      exact sound.put_file held []
    · exact sound
    · exact sound
    · exact sound
  · exact sound

theorem Sound.keep (sound : store.Sound) (place : Place) (written : Bytes) :
    (store.keep place written).Sound := by
  unfold Store.keep
  split
  · rename_i held
    exact sound.put_file held written
  · exact sound

end Store

namespace Index

theorem makeParent_sound {store : Store} (sound : store.Sound) (path : Path) :
    (makeParent store path).1.Sound := by
  refine makeParent_rel (fun before after => before.Sound → after.Sound) ?_ ?_ ?_ store sound
  · exact fun _ sound => sound
  · exact fun first second sound => second (first sound)
  · intro store above place _ vacant sound
    exact sound.put_vacant (Store.vacancy_of_resolve sound vacant) trivial

/-- Whether it succeeds or not, writing an index leaves a sound store. -/
theorem write_sound {store : Store} (sound : store.Sound) (format : Format) (records : List Record)
    (path : Path) : (write store format records path).1.Sound := by
  have above := makeParent_sound sound path
  unfold write
  split
  · rename_i made
    rwa [made] at above
  · rename_i between made
    rw [made] at above
    have opened := above.openForWriting path
    split
    · rename_i refused
      rwa [refused] at opened
    · rename_i target ran
      rw [ran] at opened
      dsimp only
      split
      · exact opened.keep target _
      · exact opened.keep target _

end Index
end SourceIndex
