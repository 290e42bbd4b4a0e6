import SourceIndex.Proofs.PathsBelow

/-! The directories above a path. Each of them is spelled by a front part of the path, and its
components are the first ones of the path (`marks_split`). So everything that is made for a
path is named by a prefix of its directory part (`prefix_of_enclosing`). -/
namespace SourceIndex.Path

/-- A row of parts is read back from its spelling. -/
theorem segments_intercalate {row : List Bytes} (parted : ∀ segment ∈ row, slash ∉ segment)
    (nonempty : row ≠ []) : segments ([slash].intercalate row) = row := by
  rw [segments_eq_splitOn, List.splitOn_intercalate slash parted nonempty]

/-- Every mark ends a front part of the row, and the marks up to it are those of this part. -/
private theorem marksAfter_split {before : Bytes} {row : List Bytes} {front back : List (Component × Path)}
    {component : Component} {spelled : Path}
    (split : marksAfter before row = front ++ (component, spelled) :: back) :
    ∃ above behind, row = above ++ behind ∧ above ≠ [] ∧
      spelled.bytes = before ++ [slash].intercalate above ∧
      above.filterMap component? = front.map Prod.fst ++ [component] := by
  induction row generalizing before front with
  | nil => simp [marksAfter] at split
  | cons segment rest ih =>
    have further : ∀ {front}, marksAfter (before ++ segment ++ [slash]) rest =
        front ++ (component, spelled) :: back → ∃ above behind, rest = above ++ behind ∧
          spelled.bytes = before ++ [slash].intercalate (segment :: above) ∧
          above.filterMap component? = front.map Prod.fst ++ [component] := by
      intro front split
      obtain ⟨above, behind, rfl, nonempty, bytes, marks⟩ := ih split
      refine ⟨above, behind, rfl, ?_, marks⟩
      rw [bytes, List.intercalate_cons_of_ne_nil nonempty]
      simp
    rw [marksAfter] at split
    cases found : component? segment with
    | none =>
      simp only [found] at split
      obtain ⟨above, behind, rfl, bytes, marks⟩ := further split
      exact ⟨segment :: above, behind, rfl, by simp, bytes, by simp [found, marks]⟩
    | some first =>
      simp only [found] at split
      cases front with
      | nil =>
        obtain ⟨here, _⟩ := List.cons.inj split
        cases here
        exact ⟨[segment], rest, rfl, by simp, by simp [List.intercalate], by simp [found]⟩
      | cons mark front =>
        obtain ⟨here, others⟩ := List.cons.inj split
        cases here
        obtain ⟨above, behind, rfl, bytes, marks⟩ := further others
        exact ⟨segment :: above, behind, rfl, by simp, bytes, by simp [found, marks]⟩

/-- The front of a row is spelled by a front of its spelling. -/
private theorem intercalate_front (above behind : List Bytes) :
    [slash].intercalate above <+: [slash].intercalate (above ++ behind) := by
  induction above with
  | nil => exact List.nil_prefix
  | cons segment rest ih =>
    by_cases last : rest = []
    · subst last
      cases behind with
      | nil => exact List.prefix_rfl
      | cons next behind =>
        rw [List.singleton_append, List.intercalate_cons_of_ne_nil (List.cons_ne_nil next behind)]
        simp [List.intercalate]
    · rw [List.cons_append, List.intercalate_cons_of_ne_nil last,
        List.intercalate_cons_of_ne_nil (by simp [last])]
      exact (List.prefix_append_right_inj _).mpr ih

private theorem bytes_of_mem_marksAfter {before : Bytes} {row : List Bytes} {mark : Component × Path}
    (member : mark ∈ marksAfter before row) : mark.2.bytes <+: before ++ [slash].intercalate row := by
  obtain ⟨front, back, split⟩ := List.append_of_mem member
  obtain ⟨above, behind, rfl, _, bytes, _⟩ := marksAfter_split split
  rw [bytes]
  exact (List.prefix_append_right_inj before).mpr (intercalate_front above behind)

/-- Behind a leading `/` or `./` the parts follow in a row. -/
private theorem led_split (lead : Bytes) {shown : Bytes} {head component : Component} {rest : List Bytes}
    {front back : List (Component × Path)} {spelled : Path} (noSlash : slash ∉ lead)
    (leads : leading lead = [head]) (alone : components ⟨shown⟩ = [head])
    (parted : ∀ segment ∈ rest, slash ∉ segment)
    (split : (head, ⟨shown⟩) :: marksAfter (lead ++ [slash]) rest =
      front ++ (component, spelled) :: back) :
    spelled.components = front.map Prod.fst ++ [component] := by
  cases front with
  | nil =>
    obtain ⟨here, _⟩ := List.cons.inj split
    cases here
    exact alone
  | cons mark front =>
    obtain ⟨here, further⟩ := List.cons.inj split
    cases here
    obtain ⟨above, behind, rfl, nonempty, bytes, marks⟩ := marksAfter_split further
    have inner : ∀ segment ∈ above, slash ∉ segment :=
      fun segment member => parted segment (List.mem_append_left _ member)
    have row : segments spelled.bytes = lead :: above := by
      rw [bytes, List.append_assoc, List.singleton_append, segments_append_slash,
        segments_name noSlash, segments_intercalate inner nonempty]
      rfl
    rw [components_of_segments (by simp [bytes]) row, marks, leads]
    rfl

/-- The front part of a path that a mark spells has the components up to this mark. -/
theorem marks_split {path spelled : Path} {front back : List (Component × Path)} {component : Component}
    (split : path.marks = front ++ (component, spelled) :: back) :
    spelled.components = front.map Prod.fst ++ [component] := by
  have parted : ∀ segment ∈ segments path.bytes, slash ∉ segment :=
    fun segment member inside => (mem_segments member _ inside).2 rfl
  rw [marks] at split
  split at split
  · simp at split
  · simp at split
  · rename_i row
    rw [row] at parted
    exact led_split [] (by simp) rfl rfl (List.forall_mem_cons.mp parted).2 split
  · rename_i segment _ _ relative row
    rw [row] at parted
    split at split
    · exact led_split [dot] (by decide) rfl rfl (List.forall_mem_cons.mp parted).2 split
    · rename_i named
      obtain ⟨above, behind, whole, nonempty, bytes, marks⟩ := marksAfter_split split
      cases above with
      | nil => exact absurd rfl nonempty
      | cons first above =>
        obtain ⟨rfl, rfl⟩ := List.cons.inj whole
        have inner : ∀ part ∈ segment :: above, slash ∉ part :=
          fun part member => parted part (List.mem_append_left behind member)
        have row : segments spelled.bytes = segment :: above := by
          rw [bytes, List.nil_append, segments_intercalate inner nonempty]
        have unempty : spelled.bytes ≠ [] := by
          intro empty
          rw [empty] at row
          exact relative (List.cons.inj row).1.symm
        rw [components_of_segments unempty row, ← marks, leading, if_neg relative, if_neg named,
          List.filterMap_cons]
        cases component? segment <;> rfl

/-- A mark spells a front part of the path. -/
theorem bytes_of_mem_marks {path : Path} {mark : Component × Path} (member : mark ∈ path.marks) :
    mark.2.bytes <+: path.bytes := by
  have led : ∀ {lead shown : Bytes} {component : Component} {rest : List Bytes}, rest ≠ [] →
      shown <+: lead ++ [slash] → mark ∈ (component, ⟨shown⟩) :: marksAfter (lead ++ [slash]) rest →
      mark.2.bytes <+: [slash].intercalate (lead :: rest) := by
    intro lead shown component rest further shows member
    rw [List.intercalate_cons_of_ne_nil further]
    rcases List.mem_cons.mp member with rfl | later
    · exact shows.trans (List.prefix_append ..)
    · exact bytes_of_mem_marksAfter later
  rw [marks] at member
  rw [← intercalate_segments path.bytes]
  split at member
  · cases member
  · cases member
  · rename_i rest alone row
    rw [row]
    exact led alone (by simp) member
  · rename_i segment rest _ _ row
    rw [row]
    split at member
    · rename_i here
      subst here
      by_cases last : rest = []
      · subst last
        cases List.mem_singleton.mp member
        exact List.prefix_rfl
      · exact led last (List.prefix_append ..) member
    · exact bytes_of_mem_marksAfter member

/-- A directory that a path lies in has the first components of the path. -/
theorem prefix_of_mem_ancestors {path above : Path} (member : above ∈ path.ancestors) :
    above.components <+: path.components := by
  obtain ⟨⟨component, spelled⟩, inside, rfl⟩ := List.mem_map.mp member
  obtain ⟨front, back, split⟩ := List.append_of_mem (List.mem_reverse.mp (List.mem_filter.mp inside).1)
  rw [marks_split split, components, split]
  exact ⟨back.map Prod.fst, by simp⟩

theorem components_parent {path parent : Path} (lies : path.parent? = some parent) :
    parent.components = path.components.dropLast := by
  rw [parent?] at lies
  split at lies
  · cases lies
  · cases lies
  · rename_i mark _ alone
    cases lies
    rw [components_nil, components, List.reverse_eq_cons_iff.mp alone]
    rfl
  · rename_i last component directory rest _ row
    cases lies
    have split : path.marks = rest.reverse ++ (component, parent) :: [last] := by
      rw [List.reverse_eq_iff.mp row]
      simp
    rw [marks_split split, components, split]
    simp

theorem bytes_parent {path parent : Path} (lies : path.parent? = some parent) :
    parent.bytes <+: path.bytes := by
  rw [parent?] at lies
  split at lies
  · cases lies
  · cases lies
  · cases lies
    exact List.nil_prefix
  · rename_i last component directory rest _ row
    cases lies
    have member : (component, parent) ∈ path.marks.reverse := by
      rw [row]
      simp
    exact bytes_of_mem_marks (List.mem_reverse.mp member)

/-- The directory part of a path and the directories this lies in, nearest first. -/
def enclosing (path : Path) : List Path :=
  match path.parent? with
  | none => []
  | some parent => parent.ancestors

/-- What a path lies in is named by a front part of its directory part. -/
theorem prefix_of_enclosing {path above : Path} (member : above ∈ path.enclosing) :
    above.components <+: path.components.dropLast := by
  rw [enclosing] at member
  split at member
  · cases member
  · rename_i parent lies
    exact components_parent lies ▸ prefix_of_mem_ancestors member

/-- What a path lies in is spelled by a front part of it, and never by nothing. -/
theorem bytes_of_enclosing {path above : Path} (member : above ∈ path.enclosing) :
    above.bytes <+: path.bytes ∧ above.bytes ≠ [] := by
  rw [enclosing] at member
  split at member
  · cases member
  rename_i parent lies
  obtain ⟨⟨component, spelled⟩, inside, rfl⟩ := List.mem_map.mp member
  have mark := List.mem_reverse.mp (List.mem_filter.mp inside).1
  refine ⟨(bytes_of_mem_marks mark).trans (bytes_parent lies), fun empty => ?_⟩
  obtain ⟨front, back, split⟩ := List.append_of_mem mark
  have parts := marks_split split
  obtain ⟨bytes⟩ := spelled
  cases empty
  simp [components_nil] at parts

end SourceIndex.Path
