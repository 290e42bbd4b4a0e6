import Mathlib.Data.List.Nodup
import SourceIndex.Discovery
import SourceIndex.Proofs.PathResolution

/-! The walk by the names it goes down. Visits are paths, and a path says nothing about the
nodes on it; `reached` keeps the names, and `mem_reached` says exactly which of them lead
somewhere. From here on no proof opens the walk again: the files are what is left of the
names that are reached (`files_eq`). -/
namespace SourceIndex.Discovery

variable {store : Store} {root path : Path} {place : Place} {levels : Nat}

/-- The names that the walk meets below a directory, as deep as `levels`. -/
def reached (store : Store) : (levels : Nat) → Path → Place → List (List Name)
  | 0, _, _ => []
  | levels + 1, path, place =>
    if Store.maxPath < path.bytes.length then []
    else (store.entries place).flatMap fun (name, node) =>
      if isIgnored name then []
      else
        let deeper :=
          if node = .directory then reached store levels (path.child name) (place ++ [name]) else []
        ([] :: deeper).map (name :: ·)

/-- What is made of the visits is made of the names, unless it looks at failures. -/
theorem filterMap_visitsBelow {f : Visit → Option α}
    (quiet : ∀ path refusal, f (.failed path refusal) = none) :
    (visitsBelow store levels path place).filterMap f =
      (reached store levels path place).filterMap fun names => f (.found (path.under names)) := by
  induction levels generalizing path place with
  | zero => rfl
  | succ levels ih =>
    rw [visitsBelow, reached]
    by_cases long : Store.maxPath < path.bytes.length
    · simp [long, quiet]
    rw [if_neg long, if_neg long, List.filterMap_flatMap, List.filterMap_flatMap]
    congr 1
    funext ⟨name, node⟩
    by_cases ignored : isIgnored name = true
    · simp [ignored]
    · cases node with
      | directory => simp [ignored, List.filterMap_cons, List.filterMap_map, ih, Function.comp_def]
      | _ => simp [ignored, List.filterMap_cons]

/-- The files below a root that leads to a directory. -/
theorem files_eq (found : store.locate .follow root = .ok place)
    (directory : store.isDirectoryAt place = true) :
    files store root = (reached store (store.depth + 1) root place).filterMap fun names =>
      file? store root (.found (root.under names)) := by
  have top : file? store root (.found root) = none := by
    have node := Store.isDirectoryAt_iff.mp directory
    simp [file?, Store.isFile, Store.inspect, found, node]
  rw [files, visits, found]
  simp only [directory, ↓reduceIte, List.filterMap_cons, top]
  exact filterMap_visitsBelow fun _ _ => rfl

/-- What is taken for a source file has an indexed extension and is a regular file. -/
theorem taken_of_mem {file : SourceFile} (member : file ∈ files store root) :
    file.isIndexed = true ∧ store.isFile file.location = true := by
  obtain ⟨visit, _, kept⟩ := List.mem_filterMap.mp member
  cases visit with
  | failed path refusal => cases kept
  | found path =>
    rw [file?] at kept
    split at kept
    · rename_i taken
      cases kept
      exact Bool.and_eq_true_iff.mp taken
    · cases kept

private theorem mem_reached_cons (sound : store.Sound) {name : Name} {names : List Name} :
    name :: names ∈ reached store (levels + 1) path place ↔
      path.bytes.length ≤ Store.maxPath ∧ isIgnored name = false ∧
        ∃ node, store.node? (place ++ [name]) = some node ∧ (names = [] ∨ node = .directory ∧
          names ∈ reached store levels (path.child name) (place ++ [name])) := by
  rw [reached]
  by_cases long : Store.maxPath < path.bytes.length
  · simp [long, Nat.not_le.mpr long]
  simp only [long, ↓reduceIte, List.mem_flatMap, Prod.exists, Store.mem_entries,
    Store.mem_nodes_iff sound, Nat.not_lt.mp long, true_and]
  constructor
  · rintro ⟨entry, node, ⟨_, held⟩, member⟩
    by_cases ignored : isIgnored entry = true
    · simp [ignored] at member
    rw [if_neg ignored] at member
    obtain ⟨inner, deeper, same⟩ := List.mem_map.mp member
    cases same
    refine ⟨eq_false_of_ne_true ignored, node, held, ?_⟩
    rcases List.mem_cons.mp deeper with last | below
    · exact .inl last
    · split at below
      · rename_i directory
        exact .inr ⟨directory, below⟩
      · cases below
  · rintro ⟨kept, node, held, last | ⟨directory, below⟩⟩
    · exact ⟨name, node, ⟨by simp, held⟩, by simp [kept, last]⟩
    · exact ⟨name, node, ⟨by simp, held⟩, by simp [kept, directory, below]⟩

private theorem forall_prefix_cons {first : α} {rest : List α} {P : List α → Prop} :
    (∀ above, above <+: first :: rest → above ≠ first :: rest → P above) ↔
      P [] ∧ ∀ above, above <+: rest → above ≠ rest → P (first :: above) := by
  constructor
  · intro all
    refine ⟨all [] (List.nil_prefix) (by simp), ?_⟩
    intro above inside short
    exact all _ (by simpa using inside) (by simpa using short)
  · rintro ⟨top, deeper⟩ above inside short
    cases above with
    | nil => exact top
    | cons head above =>
      obtain ⟨rfl, deep⟩ := List.cons_prefix_cons.mp inside
      exact deeper above deep (by simpa using short)

/-- What the walk asks of names before it meets what lies there: real directories, none of
them too far down to be listed, and no name that is left out. -/
structure Open (store : Store) (path : Path) (place : Place) (names : List Name) : Prop where
  further : names ≠ []
  exists_node : ∃ node, store.node? (place ++ names) = some node
  nested : ∀ above, above <+: names → above ≠ names → store.node? (place ++ above) = some .directory
  listed : ∀ above, above <+: names → above ≠ names →
    (path.under above).bytes.length ≤ Store.maxPath
  kept : ∀ name ∈ names, isIgnored name = false

private theorem open_singleton (sound : store.Sound) {name : Name} :
    Open store path place [name] ↔ path.bytes.length ≤ Store.maxPath ∧ isIgnored name = false ∧
      ∃ node, store.node? (place ++ [name]) = some node := by
  constructor
  · intro stands
    exact ⟨stands.listed [] List.nil_prefix (by simp), stands.kept name (by simp), stands.exists_node⟩
  · rintro ⟨short, kept, node, held⟩
    refine ⟨by simp, ⟨node, held⟩, ?_, ?_, by simpa using kept⟩
    · refine forall_prefix_cons.mpr ⟨?_, by simp⟩
      simpa using Store.directory_of_node sound held
    · exact forall_prefix_cons.mpr ⟨short, by simp⟩

private theorem open_cons (sound : store.Sound) {name : Name} {names : List Name}
    (further : names ≠ []) :
    Open store path place (name :: names) ↔ path.bytes.length ≤ Store.maxPath ∧
      isIgnored name = false ∧ store.node? (place ++ [name]) = some .directory ∧
      Open store (path.child name) (place ++ [name]) names := by
  constructor
  · rintro ⟨_, ⟨node, held⟩, nested, listed, kept⟩
    obtain ⟨_, nested⟩ := forall_prefix_cons.mp nested
    obtain ⟨short, listed⟩ := forall_prefix_cons.mp listed
    obtain ⟨keptFirst, kept⟩ := List.forall_mem_cons.mp kept
    refine ⟨short, keptFirst, nested [] List.nil_prefix further.symm, further, ⟨node, ?_⟩, ?_, ?_, kept⟩
    · simpa using held
    · simpa using nested
    · simpa using listed
  · rintro ⟨short, keptFirst, directory, _, ⟨node, held⟩, nested, listed, kept⟩
    refine ⟨by simp, ⟨node, by simpa using held⟩, forall_prefix_cons.mpr ⟨?_, ?_⟩,
      forall_prefix_cons.mpr ⟨short, ?_⟩, List.forall_mem_cons.mpr ⟨keptFirst, kept⟩⟩
    · simpa using Store.directory_of_node sound directory
    · simpa using nested
    · simpa using listed

/-- The walk meets what its way is open to, as deep as it goes. -/
theorem mem_reached (sound : store.Sound) {names : List Name} :
    names ∈ reached store levels path place ↔
      Open store path place names ∧ names.length ≤ levels := by
  induction levels generalizing path place names with
  | zero =>
    constructor
    · intro member
      cases member
    · rintro ⟨stands, short⟩
      exact absurd (List.length_eq_zero_iff.mp (Nat.le_zero.mp short)) stands.further
  | succ levels ih =>
    cases names with
    | nil =>
      constructor
      · intro member
        rw [reached] at member
        split at member
        · cases member
        · obtain ⟨⟨name, node⟩, _, inside⟩ := List.mem_flatMap.mp member
          dsimp only at inside
          split at inside
          · cases inside
          · split at inside <;> simp at inside
      · rintro ⟨stands, _⟩
        exact absurd rfl stands.further
    | cons name names =>
      rw [mem_reached_cons sound]
      by_cases last : names = []
      · subst last
        simp [open_singleton sound]
      · rw [open_cons sound last]
        simp [last, ih, and_assoc]

/-- No names lead deeper than there are nodes. -/
theorem Open.length_le_depth (sound : store.Sound) {names : List Name}
    (stands : Open store path place names) : names.length ≤ store.depth := by
  obtain ⟨node, held⟩ := stands.exists_node
  have member := (Store.mem_nodes_iff sound).mpr ⟨by simp [stands.further], held⟩
  have deep := Store.length_le_depth member
  rw [List.length_append] at deep
  omega

/-- The number of levels is no limit. -/
theorem mem_reached_depth (sound : store.Sound) {names : List Name} :
    names ∈ reached store (store.depth + 1) path place ↔ Open store path place names := by
  rw [mem_reached sound, and_iff_left_iff_imp]
  exact fun stands => Nat.le_succ_of_le (stands.length_le_depth sound)

private theorem nil_not_mem_reached (sound : store.Sound) : [] ∉ reached store levels path place :=
  fun member => ((mem_reached sound).mp member).1.further rfl

/-- The walk meets nothing twice. -/
theorem reached_nodup (sound : store.Sound) : (reached store levels path place).Nodup := by
  induction levels generalizing path place with
  | zero => exact List.nodup_nil
  | succ levels ih =>
    rw [reached]
    split
    · exact List.nodup_nil
    refine List.nodup_flatMap.mpr ⟨?_, (Store.entries_distinct sound).imp ?_⟩
    · rintro ⟨name, node⟩ _
      dsimp only
      split
      · exact List.nodup_nil
      refine List.Nodup.map (fun _ _ same => (List.cons.inj same).2) ?_
      split
      · exact List.nodup_cons.mpr ⟨nil_not_mem_reached sound, ih⟩
      · exact List.nodup_singleton []
    · -- What is met through two entries begins with their names.
      rintro ⟨name, node⟩ ⟨other, otherNode⟩ apart names inside otherInside
      dsimp only at inside otherInside
      split at inside
      · cases inside
      split at otherInside
      · cases otherInside
      obtain ⟨_, _, rfl⟩ := List.mem_map.mp inside
      obtain ⟨_, _, same⟩ := List.mem_map.mp otherInside
      exact apart (List.cons.inj same).1.symm

end SourceIndex.Discovery
