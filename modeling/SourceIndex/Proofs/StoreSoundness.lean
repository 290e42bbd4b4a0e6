import SourceIndex.Proofs.PathsBelow

/-! File systems that can exist. Every node lies in a directory, no place is taken twice,
and entries have names; nothing is asked of contents, of the order of the entries or of
where links lead. From this follows that a list of nodes and the view of it by place
tell the same (`mem_nodes_iff`), whatever its order. -/
namespace SourceIndex

/-- What a link can hold: some path, which may lead nowhere. -/
def Node.Linkable : Node → Prop
  | .link target => target.bytes ≠ [] ∧ 0 ∉ target.bytes
  | _ => True

instance (node : Node) : Decidable node.Linkable := by
  unfold Node.Linkable
  split <;> infer_instance

instance (name : Bytes) : Decidable (IsName name) :=
  decidable_of_iff (name ≠ [] ∧ Path.slash ∉ name ∧ 0 ∉ name ∧ name ≠ [Path.dot] ∧
      name ≠ [Path.dot, Path.dot] ∧ name.length ≤ Store.maxName)
    ⟨fun ⟨a, b, c, d, e, f⟩ => ⟨a, b, c, d, e, f⟩, fun ⟨a, b, c, d, e, f⟩ => ⟨a, b, c, d, e, f⟩⟩

namespace Store

/-- The nodes form a tree of directories with everything else at its leaves. -/
structure Sound (store : Store) : Prop where
  distinct : (store.nodes.map Prod.fst).Nodup
  placed : ∀ entry ∈ store.nodes, entry.1 ≠ []
  nested : ∀ entry ∈ store.nodes, store.isDirectoryAt entry.1.dropLast = true
  named : ∀ entry ∈ store.nodes, ∀ name ∈ entry.1, IsName name
  linkable : ∀ entry ∈ store.nodes, entry.2.Linkable
  working : store.isDirectoryAt store.working = true

instance (store : Store) : Decidable store.Sound :=
  decidable_of_iff ((store.nodes.map Prod.fst).Nodup ∧ (∀ entry ∈ store.nodes, entry.1 ≠ []) ∧
      (∀ entry ∈ store.nodes, store.isDirectoryAt entry.1.dropLast = true) ∧
      (∀ entry ∈ store.nodes, ∀ name ∈ entry.1, IsName name) ∧
      (∀ entry ∈ store.nodes, entry.2.Linkable) ∧ store.isDirectoryAt store.working = true)
    ⟨fun ⟨a, b, c, d, e, f⟩ => ⟨a, b, c, d, e, f⟩, fun ⟨a, b, c, d, e, f⟩ => ⟨a, b, c, d, e, f⟩⟩

theorem isDirectoryAt_iff {store : Store} {place : Place} :
    store.isDirectoryAt place = true ↔ store.node? place = some .directory := by
  simp [isDirectoryAt]

private theorem mem_of_lookup {place : Place} {node : Node} {nodes : List (Place × Node)}
    (found : lookup place nodes = some node) : (place, node) ∈ nodes := by
  induction nodes with
  | nil => cases found
  | cons entry rest ih =>
    obtain ⟨key, held⟩ := entry
    rw [lookup] at found
    split at found
    · rename_i here
      cases found
      exact here ▸ List.mem_cons_self
    · exact List.mem_cons_of_mem _ (ih found)

private theorem lookup_of_mem {place : Place} {node : Node} {nodes : List (Place × Node)}
    (distinct : (nodes.map Prod.fst).Nodup) (member : (place, node) ∈ nodes) :
    lookup place nodes = some node := by
  induction nodes with
  | nil => cases member
  | cons entry rest ih =>
    obtain ⟨key, held⟩ := entry
    obtain ⟨fresh, distinct⟩ := List.nodup_cons.mp distinct
    rw [lookup]
    rcases List.mem_cons.mp member with here | later
    · cases here
      rw [if_pos rfl]
    · rw [if_neg, ih distinct later]
      rintro rfl
      exact fresh (List.mem_map.mpr ⟨_, later, rfl⟩)

/-- Looking up a place finds what the list holds for it, wherever it stands. -/
theorem lookup_eq_some_iff {place : Place} {node : Node} {nodes : List (Place × Node)}
    (distinct : (nodes.map Prod.fst).Nodup) :
    lookup place nodes = some node ↔ (place, node) ∈ nodes :=
  ⟨mem_of_lookup, lookup_of_mem distinct⟩

/-- The view of a store by place and its list of nodes tell the same. -/
theorem mem_nodes_iff {store : Store} (sound : store.Sound) {place : Place} {node : Node} :
    (place, node) ∈ store.nodes ↔ place ≠ [] ∧ store.node? place = some node := by
  rw [← lookup_eq_some_iff sound.distinct]
  constructor
  · intro found
    have below := sound.placed _ ((lookup_eq_some_iff sound.distinct).mp found)
    exact ⟨below, by rwa [node?, if_neg below]⟩
  · rintro ⟨below, found⟩
    rwa [node?, if_neg below] at found

/-- Whatever exists lies in a directory. -/
theorem directory_of_node {store : Store} (sound : store.Sound) {place : Place} {name : Name}
    {node : Node} (found : store.node? (place ++ [name]) = some node) :
    store.node? place = some .directory := by
  have member := (mem_nodes_iff sound).mpr ⟨by simp, found⟩
  have above := sound.nested _ member
  rw [List.dropLast_concat] at above
  exact isDirectoryAt_iff.mp above

theorem isName_of_node {store : Store} (sound : store.Sound) {place : Place} {node : Node}
    (found : store.node? place = some node) : ∀ name ∈ place, IsName name := by
  by_cases top : place = []
  · simp [top]
  · exact sound.named _ ((mem_nodes_iff sound).mpr ⟨top, found⟩)

theorem length_le_depth {store : Store} {entry : Place × Node} (member : entry ∈ store.nodes) :
    entry.1.length ≤ store.depth := by
  have bound : ∀ (nodes : List (Place × Node)) (start : Nat),
      start ≤ nodes.foldl (fun deepest entry => max deepest entry.1.length) start ∧
      ∀ entry ∈ nodes, entry.1.length ≤
        nodes.foldl (fun deepest entry => max deepest entry.1.length) start := by
    intro nodes
    induction nodes with
    | nil => simp
    | cons head rest ih =>
      intro start
      obtain ⟨grows, holds⟩ := ih (max start head.1.length)
      refine ⟨Nat.le_trans (Nat.le_max_left ..) grows, List.forall_mem_cons.mpr ⟨?_, holds⟩⟩
      exact Nat.le_trans (Nat.le_max_right ..) grows
  exact (bound store.nodes 0).2 entry member

/-- Everything below a place, by the names that lead there. -/
theorem mem_below {store : Store} {place : Place} {names : List Name} {node : Node} :
    (names, node) ∈ store.below place ↔ names ≠ [] ∧ (place ++ names, node) ∈ store.nodes := by
  simp only [below, List.mem_filterMap, Prod.exists]
  constructor
  · rintro ⟨key, held, member, shown⟩
    cases onward : onward? place key with
    | none => simp [onward] at shown
    | some found =>
      cases found with
      | nil => simp [onward] at shown
      | cons name rest =>
        rw [onward] at shown
        cases shown
        exact ⟨List.cons_ne_nil _ _, onward?_eq_some_iff.mp onward ▸ member⟩
  · rintro ⟨further, member⟩
    refine ⟨_, _, member, ?_⟩
    rw [onward?_eq_some_iff.mpr rfl]
    cases names with
    | nil => exact absurd rfl further
    | cons name names => rfl

/-- The entries of a directory have different names. -/
theorem entries_distinct {store : Store} {place : Place} (sound : store.Sound) :
    (store.entries place).Pairwise fun first second => first.1 ≠ second.1 := by
  have distinct := List.pairwise_map.mp sound.distinct
  refine List.pairwise_filterMap.mpr (distinct.imp ?_)
  intro node other apart entry found otherEntry otherFound same
  dsimp only at found otherFound
  split at found
  · rename_i onward
    split at otherFound
    · rename_i otherOnward
      cases found
      cases otherFound
      dsimp only at same
      apply apart
      rw [onward?_eq_some_iff.mp onward, onward?_eq_some_iff.mp otherOnward, same]
    · cases otherFound
  · cases found

end Store
end SourceIndex
