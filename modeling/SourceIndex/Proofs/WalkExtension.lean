import Mathlib.Data.List.Induction
import SourceIndex.Proofs.DiscoveryWalk
import SourceIndex.Proofs.StoreExtension

/-! Walking again after a run. A walk sees the entries of each directory in their order, and
what a run adds stands behind them, so the second walk meets what the first one met, in the
same order, with only new names in between (`reached_extended`). How deep a walk may go is no
matter as long as nothing lies deeper (`reached_deep`). -/
namespace SourceIndex

/-- What lies below a free place is free. -/
theorem Store.isSome_above {store : Store} (sound : store.Sound) {place : Place} {names : List Name}
    (there : (store.node? (place ++ names)).isSome = true) : (store.node? place).isSome = true := by
  induction names using List.reverseRecOn with
  | nil => simpa using there
  | append_singleton names name ih =>
    obtain ⟨node, held⟩ := Option.isSome_iff_exists.mp there
    rw [← List.append_assoc] at held
    exact ih (by rw [directory_of_node sound held]; rfl)

namespace Discovery

open Store (Extends)

variable {store before after : Store} {path : Path} {place : Place} {levels : Nat}

/-- What the walk meets through one entry of a directory. -/
private def through (store : Store) (levels : Nat) (path : Path) (place : Place)
    (entry : Name × Bool) : List (List Name) :=
  if isIgnored entry.1 then []
  else ([] :: if entry.2 then reached store levels (path.child entry.1) (place ++ [entry.1])
    else []).map (entry.1 :: ·)

private theorem reached_succ : reached store (levels + 1) path place =
    if Store.maxPath < path.bytes.length then []
    else (store.listing place).flatMap (through store levels path place) := by
  rw [reached, Store.listing, List.flatMap_map]
  simp [through]

private theorem exists_of_through {entry : Name × Bool} {names : List Name}
    (member : names ∈ through store levels path place entry) : ∃ inner, names = entry.1 :: inner := by
  unfold through at member
  split at member
  · cases member
  · obtain ⟨inner, _, rfl⟩ := List.mem_map.mp member
    exact ⟨inner, rfl⟩

private theorem ne_nil_of_reached {names : List Name}
    (member : names ∈ reached store levels path place) : names ≠ [] := by
  cases levels with
  | zero => cases member
  | succ levels =>
    rw [reached_succ] at member
    split at member
    · cases member
    · obtain ⟨entry, _, inside⟩ := List.mem_flatMap.mp member
      obtain ⟨inner, rfl⟩ := exists_of_through inside
      simp

private theorem filter_through {entry : Name × Bool} {keep : List Name → Bool}
    (first : keep [entry.1] = true) : (through store levels path place entry).filter keep =
      if isIgnored entry.1 then []
      else ([] :: if entry.2 then
        (reached store levels (path.child entry.1) (place ++ [entry.1])).filter
          fun names => keep (entry.1 :: names)
        else []).map (entry.1 :: ·) := by
  unfold through
  split
  · rfl
  · rw [List.filter_map]
    congr 1
    rw [List.filter_cons_of_pos (by simpa using first)]
    split <;> rfl

private theorem flatMap_filter {row : List α} {keep : α → Bool} {f : α → List β} :
    (row.filter keep).flatMap f = row.flatMap fun entry => if keep entry then f entry else [] := by
  induction row with
  | nil => rfl
  | cons entry row ih => cases kept : keep entry <;> simp [kept, ih]

/-- Among what the walk meets in a store that was extended, what was there before and is not
too deep is what the walk met before. -/
theorem reached_extended (sound : before.Sound) (extended : Extends before after) {more : Nat}
    (fewer : levels ≤ more) : (reached after more path place).filter (fun names =>
      decide (names.length ≤ levels) && (before.node? (place ++ names)).isSome) =
        reached before levels path place := by
  induction levels generalizing more path place with
  | zero =>
    apply List.filter_eq_nil_iff.mpr
    intro names member
    simp [ne_nil_of_reached member]
  | succ levels ih =>
    obtain ⟨more, rfl⟩ := Nat.exists_eq_add_of_le' (Nat.lt_of_lt_of_le (Nat.succ_pos levels) fewer)
    rw [reached_succ, reached_succ]
    split
    · rfl
    rw [← extended.listed place, List.filter_flatMap, flatMap_filter]
    apply List.flatMap_congr
    intro entry _
    by_cases there : (before.node? (place ++ [entry.1])).isSome = true
    · rw [if_pos there, filter_through (by simpa using there), through]
      split
      · rfl
      congr 2
      split
      · rw [← ih (Nat.le_of_succ_le_succ fewer)]
        simp
      · rfl
    · rw [if_neg there]
      apply List.filter_eq_nil_iff.mpr
      intro names member
      obtain ⟨inner, rfl⟩ := exists_of_through member
      have gone : ¬ (before.node? (place ++ entry.1 :: inner)).isSome = true := by
        intro deeper
        apply there
        rw [List.append_cons] at deeper
        exact Store.isSome_above sound deeper
      simp [gone]

/-- Below a certain depth there is nothing more to meet. -/
theorem reached_deep (sound : store.Sound) (deep : store.depth < levels) :
    reached store levels path place = reached store (store.depth + 1) path place := by
  rw [← reached_extended sound (.refl store) deep]
  refine (List.filter_eq_self.mpr fun names member => ?_).symm
  obtain ⟨stands, _⟩ := (mem_reached sound).mp member
  obtain ⟨node, held⟩ := stands.exists_node
  have short := stands.length_le_depth sound
  simp [held, Nat.le_succ_of_le short]

end Discovery
end SourceIndex
