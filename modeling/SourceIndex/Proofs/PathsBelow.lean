import SourceIndex.Proofs.EscapedNames
import SourceIndex.Store.Resolve

/-! Paths below a directory. Joining names to a directory adds exactly these names to its
components, however the directory is spelled, so the canonical relative name of the
result shows these names and nothing of the directory (`relativeName_under`). -/
namespace SourceIndex

/-- What a directory can call one of its entries. -/
structure IsName (name : Bytes) : Prop where
  nonempty : name ≠ []
  noSlash : Path.slash ∉ name
  noNul : 0 ∉ name
  notHere : name ≠ [Path.dot]
  notUp : name ≠ [Path.dot, Path.dot]
  fits : name.length ≤ Store.maxName

namespace Path

theorem segments_eq_splitOn (bytes : Bytes) : segments bytes = bytes.splitOn slash := by
  induction bytes with
  | nil => rfl
  | cons byte rest ih =>
    rw [segments, ih, List.splitOn_cons_eq_if_modifyHead]
    by_cases here : byte = slash
    · simp [here]
    · rw [if_neg here, if_neg (by simpa using here)]
      cases split : rest.splitOn slash with
      | nil => exact absurd split (List.splitOn_ne_nil slash rest)
      | cons segment others => rfl

theorem segments_append_slash (before after : Bytes) :
    segments (before ++ slash :: after) = segments before ++ segments after := by
  simp only [segments_eq_splitOn, List.splitOn_append_cons_self]

theorem segments_name {name : Bytes} (noSlash : slash ∉ name) : segments name = [name] := by
  rw [segments_eq_splitOn, List.splitOn_eq_singleton noSlash]

theorem segments_ne_nil (bytes : Bytes) : segments bytes ≠ [] := by
  rw [segments_eq_splitOn]
  exact List.splitOn_ne_nil slash bytes

/-- The spelling is the row of its segments. -/
theorem intercalate_segments (bytes : Bytes) : [slash].intercalate (segments bytes) = bytes := by
  rw [segments_eq_splitOn, List.intercalate_splitOn]

/-- A part of a path is made of its bytes, slashes apart. -/
theorem mem_segments {bytes segment : Bytes} (member : segment ∈ segments bytes) :
    ∀ byte ∈ segment, byte ∈ bytes ∧ byte ≠ slash := by
  induction bytes generalizing segment with
  | nil =>
    cases List.mem_singleton.mp member
    simp
  | cons first rest ih =>
    have later : ∀ segment ∈ segments rest, ∀ byte ∈ segment, byte ∈ first :: rest ∧ byte ≠ slash := by
      intro segment member byte held
      obtain ⟨inside, other⟩ := ih member byte held
      exact ⟨List.mem_cons_of_mem _ inside, other⟩
    unfold segments at member
    split at member
    · rcases List.mem_cons.mp member with rfl | behind
      · simp
      · exact later _ behind
    · rename_i other
      split at member
      · cases List.mem_singleton.mp member
        simpa using other
      · rename_i next others row
        rw [row] at later
        rcases List.mem_cons.mp member with rfl | behind
        · exact List.forall_mem_cons.mpr ⟨⟨List.mem_cons_self, other⟩, later next List.mem_cons_self⟩
        · exact later _ (List.mem_cons_of_mem _ behind)

/-- What the first segment of a path contributes. -/
def leading (segment : Bytes) : List Component :=
  if segment = [] then [.root]
  else if segment = [dot] then [.here]
  else (component? segment).toList

private theorem marksAfter_fst (before : Bytes) (row : List Bytes) :
    (marksAfter before row).map Prod.fst = row.filterMap component? := by
  induction row generalizing before with
  | nil => rfl
  | cons segment rest ih =>
    rw [marksAfter, List.filterMap_cons]
    cases component? segment <;> simp [ih]

theorem components_nil : components ⟨[]⟩ = [] := rfl

/-- The components of a path by its segments. -/
theorem components_of_segments {path : Path} {first : Bytes} {rest : List Bytes}
    (spelled : path.bytes ≠ []) (row : segments path.bytes = first :: rest) :
    path.components = leading first ++ rest.filterMap component? := by
  have lone : first = [] → rest ≠ [] := by
    rintro rfl rfl
    have whole := intercalate_segments path.bytes
    rw [row] at whole
    exact spelled whole.symm
  rw [components, marks, row, leading]
  split
  · rename_i none
    cases none
  · rename_i alone
    cases alone
    exact absurd rfl (lone rfl)
  · rename_i empty
    cases empty
    simp [marksAfter_fst]
  · rename_i some same
    cases same
    rw [if_neg some]
    split
    · simp [marksAfter_fst]
    · rw [marksAfter_fst, List.filterMap_cons]
      cases component? first <;> rfl

/-- One step down in a path, whatever else its bytes are. -/
structure IsPart (name : Bytes) : Prop where
  nonempty : name ≠ []
  noSlash : slash ∉ name
  notHere : name ≠ [dot]
  notUp : name ≠ [dot, dot]

theorem isPart_of_isName {name : Bytes} (named : IsName name) : IsPart name :=
  ⟨named.nonempty, named.noSlash, named.notHere, named.notUp⟩

theorem component?_part {name : Bytes} (part : IsPart name) : component? name = some (.name name) := by
  rw [component?, if_neg (not_or.mpr ⟨part.nonempty, part.notHere⟩), if_neg part.notUp]

/-- A segment that is not the first one is a step up or a name, if it is anything. -/
theorem component?_eq_some {segment : Bytes} {component : Component}
    (found : component? segment = some component) :
    component = .up ∨ ∃ name, component = .name name := by
  rw [component?] at found
  split at found
  · cases found
  split at found
  · cases found
    exact .inl rfl
  · cases found
    exact .inr ⟨segment, rfl⟩

theorem component?_ne_here (segment : Bytes) : component? segment ≠ some .here := by
  intro found
  rcases component?_eq_some found with same | ⟨name, same⟩ <;> cases same

/-- A relative path keeps its components behind another path, but for a leading `.`. -/
theorem filterMap_component? {path : Path} (relative : path.isAbsolute = false) :
    (segments path.bytes).filterMap component? = path.components.filter (· ≠ .here) := by
  by_cases unspelled : path.bytes = []
  · obtain ⟨bytes⟩ := path
    cases unspelled
    rfl
  obtain ⟨first, rest, row⟩ := List.exists_cons_of_ne_nil (segments_ne_nil path.bytes)
  have some : first ≠ [] := by
    rintro rfl
    have whole := intercalate_segments path.bytes
    rw [row] at whole
    rw [isAbsolute, ← whole] at relative
    cases rest with
    | nil => exact unspelled whole.symm
    | cons segment rest => simp [List.intercalate] at relative
  have others : (rest.filterMap component?).filter (· ≠ .here) = rest.filterMap component? := by
    refine List.filter_eq_self.mpr fun component member => ?_
    obtain ⟨segment, _, found⟩ := List.mem_filterMap.mp member
    have kept : component ≠ .here := fun same => component?_ne_here segment (same ▸ found)
    simpa using kept
  rw [components_of_segments unspelled row, row, List.filter_append, others, leading, if_neg some]
  by_cases here : first = [dot]
  · simp [here, component?]
  · rw [if_neg here, List.filterMap_cons]
    cases found : component? first with
    | none => rfl
    | some component =>
      have kept : component ≠ .here := fun same => component?_ne_here first (same ▸ found)
      simp [kept]

/-- A joined path has the segments of both; a trailing slash of the first only makes room. -/
private theorem segments_join {base path : Path} (spelled : base.bytes ≠ [])
    (relative : path.isAbsolute = false) :
    ∃ first rest, segments (base.join path).bytes = first :: (rest ++ segments path.bytes) ∧
      (segments base.bytes = first :: rest ∨ segments base.bytes = first :: (rest ++ [[]])) := by
  obtain ⟨before, last, ends⟩ := (List.eq_nil_or_concat base.bytes).resolve_left spelled
  rw [join, relative, ends, List.concat_eq_append, List.getLast?_concat]
  by_cases trailing : last = slash
  · subst trailing
    obtain ⟨first, rest, row⟩ := List.exists_cons_of_ne_nil (segments_ne_nil before)
    refine ⟨first, rest, ?_, .inr ?_⟩
    · simp [segments_append_slash, row]
    · rw [segments_append_slash, row]
      rfl
  · obtain ⟨first, rest, row⟩ := List.exists_cons_of_ne_nil (segments_ne_nil (before ++ [last]))
    refine ⟨first, rest, ?_, .inl row⟩
    simp only [Bool.false_eq_true, ↓reduceIte, trailing]
    rw [segments_append_slash, row]
    rfl

theorem join_spelled {base path : Path} (spelled : base.bytes ≠ [])
    (relative : path.isAbsolute = false) : (base.join path).bytes ≠ [] := by
  obtain ⟨first, rest, joined, _⟩ := segments_join spelled relative
  obtain ⟨segment, others, row⟩ := List.exists_cons_of_ne_nil (segments_ne_nil path.bytes)
  intro empty
  rw [empty, row] at joined
  cases rest <;> cases joined

/-- Joining a relative path adds its components. -/
theorem components_join {base path : Path} (spelled : base.bytes ≠ [])
    (relative : path.isAbsolute = false) :
    (base.join path).components = base.components ++ path.components.filter (· ≠ .here) := by
  obtain ⟨first, rest, joined, whole⟩ := segments_join spelled relative
  rw [components_of_segments (join_spelled spelled relative) joined, List.filterMap_append,
    ← List.append_assoc, filterMap_component? relative]
  rcases whole with same | same
  · rw [components_of_segments spelled same]
  · rw [components_of_segments spelled same, List.filterMap_append]
    simp [component?]

theorem part_relative {name : Bytes} (part : IsPart name) (after : Bytes) :
    isAbsolute ⟨name ++ after⟩ = false := by
  obtain ⟨byte, rest, rfl⟩ := List.exists_cons_of_ne_nil part.nonempty
  have other : byte ≠ slash := fun same => part.noSlash (same ▸ List.mem_cons_self)
  simpa [isAbsolute] using other

private theorem name_relative {name : Bytes} (named : IsName name) : isAbsolute ⟨name⟩ = false := by
  simpa using part_relative (isPart_of_isName named) []

theorem components_name {name : Bytes} (named : IsName name) : components ⟨name⟩ = [.name name] := by
  rw [components_of_segments named.nonempty (segments_name named.noSlash), leading,
    if_neg named.nonempty, if_neg named.notHere, component?_part (isPart_of_isName named)]
  rfl

theorem child_spelled {base : Path} {name : Bytes} (spelled : base.bytes ≠ [])
    (named : IsName name) : (base.child name).bytes ≠ [] :=
  join_spelled spelled (name_relative named)

theorem components_child {base : Path} {name : Bytes} (spelled : base.bytes ≠ [])
    (named : IsName name) : (base.child name).components = base.components ++ [.name name] := by
  rw [child, components_join spelled (name_relative named), components_name named]
  rfl

/-- Below a directory one follows its own steps and then the name; only a trailing slash of
the directory is not asked for again. -/
theorem steps_child {base : Path} {name : Bytes} (spelled : base.bytes ≠ []) (named : IsName name) :
    ∃ row tail, base.steps = row ++ tail ∧ (tail = [] ∨ tail = [.slash]) ∧
      (base.child name).steps = row ++ [.name name] := by
  obtain ⟨first, rest, joined, whole⟩ := segments_join spelled (name_relative named)
  rw [segments_name named.noSlash] at joined
  have step : Step.ofSegment? name = some (.name name) := by
    simp [Step.ofSegment?, named.nonempty, named.notHere, named.notUp]
  have inner : (base.child name).steps =
      (first :: rest).filterMap Step.ofSegment? ++ [.name name] := by
    rw [steps, child, joined, ← List.cons_append, List.getLast?_concat, List.filterMap_append]
    simp [step, named.nonempty]
  refine ⟨_, if (segments base.bytes).getLast? = some [] then [.slash] else [], ?_, ?_, inner⟩
  · rw [steps]
    congr 1
    rcases whole with same | same
    · rw [same]
    · rw [same, ← List.cons_append, List.filterMap_append]
      simp [Step.ofSegment?]
  · split
    · exact .inr rfl
    · exact .inl rfl

theorem bytes_child {base : Path} {name : Bytes} (spelled : base.bytes ≠ []) (named : IsName name) :
    (base.child name).bytes = base.bytes ++ name ∨
      (base.child name).bytes = base.bytes ++ slash :: name := by
  obtain ⟨before, last, ends⟩ := (List.eq_nil_or_concat base.bytes).resolve_left spelled
  rw [child, join, name_relative named, ends, List.concat_eq_append, List.getLast?_concat]
  by_cases trailing : last = slash <;> simp [trailing]

/-- The path that leads on from `base` by these names. -/
def under (base : Path) (names : List Name) : Path := names.foldl child base

@[simp] theorem under_nil (base : Path) : base.under [] = base := rfl

@[simp] theorem under_cons (base : Path) (name : Name) (names : List Name) :
    base.under (name :: names) = (base.child name).under names := rfl

theorem under_spelled {base : Path} {names : List Name} (spelled : base.bytes ≠ [])
    (named : ∀ name ∈ names, IsName name) : (base.under names).bytes ≠ [] := by
  induction names generalizing base with
  | nil => exact spelled
  | cons name names ih =>
    obtain ⟨head, tail⟩ := List.forall_mem_cons.mp named
    exact ih (child_spelled spelled head) tail

theorem components_under {base : Path} {names : List Name} (spelled : base.bytes ≠ [])
    (named : ∀ name ∈ names, IsName name) :
    (base.under names).components = base.components ++ names.map .name := by
  induction names generalizing base with
  | nil => simp
  | cons name names ih =>
    obtain ⟨head, tail⟩ := List.forall_mem_cons.mp named
    rw [under_cons, ih (child_spelled spelled head) tail, components_child spelled head]
    simp

/-- The names that lead on from `base` to a path. -/
def namesBelow (base path : Path) : List Name := (below base path).filterMap Component.name?

theorem below_eq {base path : Path} {rest : List Component}
    (split : path.components = base.components ++ rest) : base.below path = rest := by
  rw [below, split, if_pos (List.isPrefixOf_iff_prefix.mpr (List.prefix_append ..)), List.drop_left]

theorem below_under {base : Path} {names : List Name} (spelled : base.bytes ≠ [])
    (named : ∀ name ∈ names, IsName name) : base.below (base.under names) = names.map .name :=
  below_eq (components_under spelled named)

theorem namesBelow_under {base : Path} {names : List Name} (spelled : base.bytes ≠ [])
    (named : ∀ name ∈ names, IsName name) : base.namesBelow (base.under names) = names := by
  rw [namesBelow, below_under spelled named, List.filterMap_map]
  exact List.filterMap_some

/-- No NUL comes in with names. -/
theorem clean_under {base : Path} {names : List Name} (spelled : base.bytes ≠ [])
    (named : ∀ name ∈ names, IsName name) (clean : 0 ∉ base.bytes) : 0 ∉ (base.under names).bytes := by
  induction names generalizing base with
  | nil => exact clean
  | cons name names ih =>
    obtain ⟨head, tail⟩ := List.forall_mem_cons.mp named
    have noNul : (0 : UInt8) ≠ slash := by decide
    refine ih (child_spelled spelled head) tail ?_
    rcases bytes_child spelled head with same | same <;> simp [same, clean, head.noNul, noNul]

/-- Below a directory one follows its own steps and then the names, as it is for one name. -/
theorem steps_under {base : Path} {names : List Name} (spelled : base.bytes ≠ [])
    (named : ∀ name ∈ names, IsName name) (further : names ≠ []) :
    ∃ row tail, base.steps = row ++ tail ∧ (tail = [] ∨ tail = [.slash]) ∧
      (base.under names).steps = row ++ names.map .name := by
  induction names generalizing base with
  | nil => exact absurd rfl further
  | cons name names ih =>
    obtain ⟨head, tail⟩ := List.forall_mem_cons.mp named
    obtain ⟨row, rest, whole, trailing, child⟩ := steps_child spelled head
    refine ⟨row, rest, whole, trailing, ?_⟩
    by_cases last : names = []
    · rw [last]
      exact child
    obtain ⟨inner, more, split, ends, under⟩ := ih (child_spelled spelled head) tail last
    -- The path of an entry has no trailing slash.
    obtain rfl : more = [] := by
      refine ends.resolve_right ?_
      rintro rfl
      have final := congrArg List.getLast? (child.symm.trans split)
      simp at final
    rw [List.append_nil] at split
    rw [under_cons, under, ← split, child]
    simp

/-- The canonical relative name shows the names below `base`, each in its written form. -/
theorem relativeName_under {base : Path} {names : List Name} (spelled : base.bytes ≠ [])
    (named : ∀ name ∈ names, IsName name) :
    base.relativeName (base.under names) = Text.join ['/'] (names.map Text.Escaped.encode) := by
  have below := namesBelow_under spelled named
  rw [namesBelow] at below
  rw [relativeName, below]

theorem fileName?_under {base : Path} {names : List Name} {name : Name} (spelled : base.bytes ≠ [])
    (named : ∀ entry ∈ names ++ [name], IsName entry) :
    (base.under (names ++ [name])).fileName? = some name := by
  rw [fileName?, components_under spelled named]
  simp [Component.name?]

end Path
end SourceIndex
