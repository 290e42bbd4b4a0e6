import SourceIndex.Proofs.StoreGrowth

/-! What a run leaves standing. Between the start and the end of a run a store gets new entries
behind the old ones and files get new contents, and that is all (`Extends`). So a directory
lists what it listed before, in the same order, and what is new behind it. -/
namespace SourceIndex

namespace Store

/-- What a walk sees of the entries of a directory: their names, and which are directories. -/
def listing (store : Store) (place : Place) : List (Name × Bool) :=
  (store.entries place).map fun entry => (entry.1, entry.2 == .directory)

/-- A store with new contents in some files and with new entries, listed behind the others. -/
structure Extends (before after : Store) : Prop extends Keeps before after where
  listed : ∀ place, (after.listing place).filter (fun entry =>
    (before.node? (place ++ [entry.1])).isSome) = before.listing place

variable {before after between : Store}

theorem Extends.isSome (extended : Extends before after) {place : Place}
    (there : (before.node? place).isSome = true) : (after.node? place).isSome = true := by
  obtain ⟨node, found⟩ := Option.isSome_iff_exists.mp there
  obtain ⟨other, held, _⟩ := extended.alike place node found
  rw [held]
  rfl

private theorem isSome_lookup {nodes : List (Place × Node)} {place : Place} {node : Node}
    (member : (place, node) ∈ nodes) : (lookup place nodes).isSome = true := by
  induction nodes with
  | nil => cases member
  | cons entry rest ih =>
    obtain ⟨key, held⟩ := entry
    unfold lookup
    by_cases here : key = place
    · simp [here]
    · rw [if_neg here]
      refine ih ((List.mem_cons.mp member).resolve_left fun same => here ?_)
      exact (Prod.mk.inj same).1.symm

theorem isSome_of_listed {store : Store} {place : Place} {entry : Name × Bool}
    (member : entry ∈ store.listing place) : (store.node? (place ++ [entry.1])).isSome = true := by
  obtain ⟨⟨name, node⟩, inside, rfl⟩ := List.mem_map.mp member
  have further : place ++ [name] ≠ [] := by simp
  rw [node?, if_neg further]
  exact isSome_lookup (mem_entries.mp inside)

theorem Extends.refl (store : Store) : Extends store store where
  alike _ node found := ⟨node, found, .same node⟩
  listed _ := List.filter_eq_self.mpr fun _ member => isSome_of_listed member
  working := rfl

theorem Extends.trans (first : Extends before between) (second : Extends between after) :
    Extends before after where
  alike place node found := by
    obtain ⟨middle, held, alike⟩ := first.alike place node found
    obtain ⟨last, reached, further⟩ := second.alike place middle held
    exact ⟨last, reached, alike.trans further⟩
  listed place := by
    rw [← first.listed, ← second.listed, List.filter_filter]
    apply List.filter_congr
    intro entry _
    rw [Bool.eq_iff_iff, Bool.and_eq_true]
    exact ⟨fun there => ⟨there, first.isSome there⟩, And.left⟩
  working := second.working.trans first.working

private theorem insert_free {nodes : List (Place × Node)} {place : Place} (node : Node)
    (free : lookup place nodes = none) : insert place node nodes = nodes ++ [(place, node)] := by
  induction nodes with
  | nil => rfl
  | cons entry rest ih =>
    obtain ⟨key, held⟩ := entry
    unfold lookup at free
    split at free
    · cases free
    · rename_i other
      rw [insert, if_neg other, ih free]
      rfl

/-- Over a file, another file changes what is seen of no entry. -/
private theorem filterMap_insert_over {nodes : List (Place × Node)} {place : Place} {held node : Node}
    {seen : Place × Node → Option β} (found : lookup place nodes = some held)
    (same : seen (place, held) = seen (place, node)) :
    (insert place node nodes).filterMap seen = nodes.filterMap seen := by
  induction nodes with
  | nil => cases found
  | cons entry rest ih =>
    obtain ⟨key, there⟩ := entry
    unfold lookup at found
    unfold insert
    split at found
    · rename_i here
      cases found
      rw [if_pos here, List.filterMap_cons, List.filterMap_cons, here, same]
    · rename_i other
      rw [if_neg other, List.filterMap_cons, List.filterMap_cons, ih found]

theorem Extends.put_free {store : Store} {place : Place} (free : store.node? place = none)
    (node : Node) : Extends store (store.put place node) where
  alike probe other found := by
    have different : place ≠ probe := by
      rintro rfl
      rw [free] at found
      cases found
    refine ⟨other, ?_, .same other⟩
    rw [node?_put store (ne_nil_of_free free), if_neg different, found]
  listed probe := by
    have unheld : lookup place store.nodes = none := by
      rwa [node?, if_neg (ne_nil_of_free free)] at free
    have more : (store.put place node).entries probe = store.entries probe ++
        (Store.mk [(place, node)] store.working).entries probe := by
      simp only [entries, put, insert_free node unheld, List.filterMap_append]
    rw [listing, more, List.map_append, List.filter_append, ← listing]
    have fresh : (((Store.mk [(place, node)] store.working).entries probe).map fun entry =>
        (entry.1, entry.2 == .directory)).filter (fun entry =>
          (store.node? (probe ++ [entry.1])).isSome) = [] := by
      apply List.filter_eq_nil_iff.mpr
      intro entry member
      obtain ⟨⟨name, there⟩, inside, rfl⟩ := List.mem_map.mp member
      have here := List.mem_singleton.mp (mem_entries.mp inside)
      simp [(Prod.mk.inj here).1, free]
    rw [fresh, List.append_nil]
    exact List.filter_eq_self.mpr fun _ member => isSome_of_listed member
  working := rfl

theorem Extends.put_over {store : Store} {place : Place} {content : Bytes}
    (held : store.node? place = some (.file content)) (written : Bytes) :
    Extends store (store.put place (.file written)) := by
  have below := ne_nil_of_file held
  refine ⟨⟨fun probe node found => ?_, rfl⟩, fun probe => ?_⟩
  · rw [node?_put store below]
    by_cases here : place = probe
    · subst here
      rw [held] at found
      cases found
      exact ⟨_, if_pos rfl, .content content written⟩
    · exact ⟨node, by rw [if_neg here, found], .same node⟩
  · have there : lookup place store.nodes = some (.file content) := by
      rwa [node?, if_neg below] at held
    have same : (store.put place (.file written)).listing probe = store.listing probe := by
      simp only [listing, entries, put, List.map_filterMap]
      apply filterMap_insert_over there
      dsimp only
      cases onward? probe place with
      | none => rfl
      | some names =>
        cases names with
        | nil => rfl
        | cons name further => cases further <;> rfl
    rw [same]
    exact List.filter_eq_self.mpr fun _ member => isSome_of_listed member

end Store
end SourceIndex
