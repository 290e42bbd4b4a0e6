import SourceIndex.Proofs.Headings
import SourceIndex.Proofs.DocumentLines
import SourceIndex.Proofs.PathAncestors
import SourceIndex.Proofs.StrayBytes

/-! Canonical relative names. The names of a path are parts (`IsPart`), and so are their written
forms, because escapes make no slash and no dot (`isPiece_encode`). A relative name therefore
spells a path, of exactly the written names (`components_relativeName`): the names can be read
back from it, and it is its own relative name. -/
namespace SourceIndex.Path
open Text

/-- A run of slashes, where a `.` may stand between any two of them. -/
inductive Gap : Bytes → Prop where
  | single : Gap [slash]
  | more : Gap gap → Gap (slash :: gap)
  | here : Gap gap → Gap (slash :: dot :: gap)

/-- A row of names with a gap between any two of them, and perhaps one behind the last. -/
inductive Spelled : List Bytes → Bytes → Prop where
  | nil : Spelled [] []
  | last (name : Bytes) : Spelled [name] name
  | cons (name : Bytes) : Gap gap → Spelled names rest → Spelled (name :: names) (name ++ gap ++ rest)

variable {root first second : Path} {name spelling gap : Bytes} {names : List Bytes}

/-! ### Parts -/

theorem filterMap_parts (parts : ∀ name ∈ names, IsPart name) :
    names.filterMap component? = names.map .name := by
  induction names with
  | nil => rfl
  | cons name names ih =>
    obtain ⟨here, later⟩ := List.forall_mem_cons.mp parts
    rw [List.filterMap_cons_some (component?_part here), ih later, List.map_cons]

/-- The names of a path are found in its segments. -/
theorem segment_of_mem {path : Path} (member : .name name ∈ path.components) :
    ∃ segment ∈ segments path.bytes, component? segment = some (.name name) := by
  by_cases unspelled : path.bytes = []
  · obtain ⟨bytes⟩ := path
    cases unspelled
    simp [components_nil] at member
  obtain ⟨first, rest, row⟩ := List.exists_cons_of_ne_nil (segments_ne_nil path.bytes)
  rw [components_of_segments unspelled row, List.mem_append, List.mem_filterMap] at member
  rw [row]
  rcases member with leads | ⟨segment, behind, found⟩
  · rw [leading] at leads
    split at leads
    · cases List.mem_singleton.mp leads
    split at leads
    · cases List.mem_singleton.mp leads
    · exact ⟨first, List.mem_cons_self, Option.mem_toList.mp leads⟩
  · exact ⟨segment, List.mem_cons_of_mem _ behind, found⟩

theorem isPart_of_mem {path : Path} (member : .name name ∈ path.components) : IsPart name := by
  obtain ⟨segment, inside, found⟩ := segment_of_mem member
  have noSlash : slash ∉ segment := fun held => (mem_segments inside _ held).2 rfl
  rw [component?] at found
  split at found
  · cases found
  split at found
  · cases found
  · rename_i named notUp
    cases found
    exact ⟨fun empty => named (.inl empty), noSlash, fun here => named (.inr here), notUp⟩

/-- Parts with slashes between them spell the path of these parts. -/
theorem components_intercalate (parts : ∀ name ∈ names, IsPart name) :
    components ⟨[slash].intercalate names⟩ = names.map .name := by
  cases names with
  | nil => rfl
  | cons name names =>
    have noSlash : ∀ part ∈ name :: names, slash ∉ part :=
      fun part member => (parts part member).noSlash
    have row := segments_intercalate noSlash (List.cons_ne_nil name names)
    obtain ⟨here, later⟩ := List.forall_mem_cons.mp parts
    have spelled : [slash].intercalate (name :: names) ≠ [] := by
      intro empty
      rw [empty] at row
      exact here.nonempty (List.cons.inj row).1.symm
    have whole : components ⟨[slash].intercalate (name :: names)⟩ =
        leading name ++ names.filterMap component? := components_of_segments spelled row
    rw [whole, leading, if_neg here.nonempty, if_neg here.notHere,
      component?_part here, filterMap_parts later]
    rfl

/-! ### Written parts -/

/-- A part as it is shown. -/
structure IsPiece (text : Text) : Prop where
  nonempty : text ≠ []
  noSlash : '/' ∉ text
  notHere : text ≠ ['.']
  notUp : text ≠ ['.', '.']

theorem IsPiece.isPart {text : Text} (piece : IsPiece text) : IsPart (Utf8.encode text) := by
  have ascii : '/'.toNat < 0x80 := by decide
  exact {
    nonempty := fun empty => piece.nonempty (Utf8.encode_injective empty)
    noSlash := fun member => piece.noSlash ((Utf8.ascii_mem_encode ascii).mp member)
    notHere := fun here => piece.notHere (Utf8.encode_injective here)
    notUp := fun up => piece.notUp (Utf8.encode_injective up)
  }

/-- A part is shown as a part: only the empty name is shown as nothing, and only dots as dots. -/
theorem isPiece_encode (part : IsPart name) : IsPiece (Escaped.encode name) := by
  have plain : ∀ {text : Text}, '\\' ∉ text → Escaped.encode name = text →
      name = Utf8.encode text := by
    rintro _ plain rfl
    exact Escaped.eq_encode_of_plain plain
  exact {
    nonempty := fun empty => part.nonempty (plain (by simp) empty)
    noSlash := slash_not_mem_encode part.noSlash
    notHere := fun here => part.notHere (plain (by simp) here)
    notUp := fun up => part.notUp (plain (by simp) up)
  }

theorem encode_join (pieces : List Text) :
    Utf8.encode (Text.join ['/'] pieces) = [slash].intercalate (pieces.map Utf8.encode) := by
  induction pieces with
  | nil => rfl
  | cons piece pieces ih =>
    by_cases last : pieces = []
    · simp [last, Text.join, List.intercalate]
    · rw [Text.join, List.intercalate_cons_of_ne_nil last, Utf8.encode_append, Utf8.encode_append,
        ← Text.join, ih, List.map_cons, List.intercalate_cons_of_ne_nil (by simpa using last)]
      rfl

theorem isPart_namesBelow {path : Path} (member : name ∈ root.namesBelow path) : IsPart name := by
  obtain ⟨component, below, named⟩ := List.mem_filterMap.mp member
  cases component with
  | name bytes =>
    cases named
    have member : Component.name name ∈ path.components := by
      rw [Path.below] at below
      split at below
      · exact List.mem_of_mem_drop below
      · exact below
    exact isPart_of_mem member
  | _ => cases named

/-- As a path, a relative name has the written names for its components. -/
theorem components_relativeName (root path : Path) :
    components ⟨Utf8.encode (root.relativeName path)⟩ =
      ((root.namesBelow path).map Escaped.encode).map fun text => .name (Utf8.encode text) := by
  have parts : ∀ part ∈ ((root.namesBelow path).map Escaped.encode).map Utf8.encode, IsPart part := by
    intro part member
    obtain ⟨text, shown, rfl⟩ := List.mem_map.mp member
    obtain ⟨name, inside, rfl⟩ := List.mem_map.mp shown
    exact (isPiece_encode (isPart_namesBelow inside)).isPart
  rw [relativeName, ← namesBelow, encode_join, components_intercalate parts]
  exact List.map_map

/-! ### Reading a relative name back -/

/-- The written names can be told from the relative name, and names without a backslash from these. -/
theorem namesBelow_eq
    (plain : ∀ name ∈ root.namesBelow first ++ root.namesBelow second, Escaped.backslash ∉ name)
    (same : root.relativeName first = root.relativeName second) :
    root.namesBelow first = root.namesBelow second := by
  have read : ∀ {names : List Bytes}, (∀ name ∈ names, Escaped.backslash ∉ name) →
      (names.map Escaped.encode).map Escaped.decode = names := by
    intro names plain
    have same : ∀ name ∈ names, (Escaped.decode ∘ Escaped.encode) name = id name :=
      fun name member => Escaped.decode_encode (plain name member)
    rw [List.map_map, List.map_congr_left same, List.map_id]
  have written :
      (root.namesBelow first).map Escaped.encode = (root.namesBelow second).map Escaped.encode := by
    have shown := components_relativeName root first
    rw [same, components_relativeName] at shown
    refine (List.map_inj_right fun text other equal => ?_).mp shown.symm
    exact Utf8.encode_injective (Component.name.inj equal)
  obtain ⟨firstPlain, secondPlain⟩ := List.forall_mem_append.mp plain
  rw [← read firstPlain, written, read secondPlain]

theorem append_below {path : Path} (lies : root.components <+: path.components) :
    root.components ++ root.below path = path.components := by
  obtain ⟨rest, split⟩ := lies
  rw [below_eq split.symm, split]

theorem map_name_filterMap {row : List Component}
    (named : ∀ component ∈ row, ∃ name, component = .name name) :
    (row.filterMap Component.name?).map .name = row := by
  induction row with
  | nil => rfl
  | cons component row ih =>
    obtain ⟨⟨name, rfl⟩, later⟩ := List.forall_mem_cons.mp named
    rw [List.filterMap_cons, Component.name?, List.map_cons, ih later]

/-- Where there are only names below the root, they make up the path. -/
theorem components_eq_names {path : Path} (lies : root.components <+: path.components)
    (named : ∀ component ∈ root.below path, ∃ name, component = .name name) :
    path.components = root.components ++ (root.namesBelow path).map .name := by
  rw [namesBelow, map_name_filterMap named, append_below lies]

/-- Written forms are reversible. Reading the escapes gives back the bytes of every name without a
backslash; text is shown as it is, and exactly the bytes outside it are shown as escapes. So two
paths below one root that have the same relative name have the same components. -/
theorem written_names_reversible :
    (∀ name : Bytes, Escaped.backslash ∉ name → Escaped.decode (Escaped.encode name) = name) ∧
    (∀ text : Text, Escaped.encode (Utf8.encode text) = text) ∧
    (∀ (before : Bytes) (char : Char) (after : Bytes),
      Escaped.encode (before ++ Utf8.encodeChar char ++ after) =
        Escaped.encode before ++ char :: Escaped.encode after) ∧
    (∀ (before : Bytes) (byte : UInt8) (after : Bytes), Escaped.Stray before byte after →
      Escaped.encode (before ++ byte :: after) =
        Escaped.encode before ++ Escaped.encodeByte byte ++ Escaped.encode after) ∧
    ∀ root first second : Path,
      root.components <+: first.components → root.components <+: second.components →
      (∀ component ∈ root.below first ++ root.below second,
        ∃ name, component = .name name ∧ Escaped.backslash ∉ name) →
      root.relativeName first = root.relativeName second → first.components = second.components := by
  refine ⟨fun _ => Escaped.decode_encode, Escaped.encode_text, Escaped.encode_scalar,
    fun _ _ _ => Escaped.encode_stray, ?_⟩
  intro root first second firstLies secondLies named same
  obtain ⟨firstNamed, secondNamed⟩ := List.forall_mem_append.mp named
  have plain : ∀ {path : Path}, (∀ component ∈ root.below path,
      ∃ name, component = .name name ∧ Escaped.backslash ∉ name) →
      ∀ name ∈ root.namesBelow path, Escaped.backslash ∉ name := by
    intro path named name member
    obtain ⟨component, inside, found⟩ := List.mem_filterMap.mp member
    obtain ⟨bytes, rfl, plain⟩ := named component inside
    cases found
    exact plain
  have names := namesBelow_eq (List.forall_mem_append.mpr ⟨plain firstNamed, plain secondNamed⟩) same
  have firstWhole := components_eq_names firstLies fun component inside =>
    (firstNamed component inside).imp fun _ => And.left
  have secondWhole := components_eq_names secondLies fun component inside =>
    (secondNamed component inside).imp fun _ => And.left
  rw [firstWhole, secondWhole, names]

theorem written_names_reversible_mixed :
    Escaped.decode (Escaped.encode [0x61, 0xFF]) = [0x61, 0xFF] ∧
    Escaped.encode [0xFF, 0x61] = Escaped.encodeByte 0xFF ++ Escaped.encode [0x61] ∧
    (⟨[0x72, 0x2F, 0x61, 0x2F, 0xFF]⟩ : Path).components =
      (⟨[0x72, 0x2F, 0x2F, 0x61, 0x2F, 0x2E, 0x2F, 0xFF, 0x2F]⟩ : Path).components := by
  obtain ⟨read, -, -, stray, paths⟩ := written_names_reversible
  refine ⟨read _ (by decide), stray [] 0xFF [0x61] ?_, ?_⟩
  · rintro (_ | ⟨byte, front⟩) char back whole
    · have pieces := congrArg Utf8.decode whole
      rw [Utf8.decode_scalar] at pieces
      cases pieces
    · exact .inl (Nat.zero_lt_succ _)
  · refine paths ⟨[0x72]⟩ _ _ (by decide) (by decide) ?_ (by decide)
    intro component member
    have rows : component ∈ [Component.name [0x61], .name [0xFF], .name [0x61], .name [0xFF]] := member
    simp only [List.mem_cons, List.not_mem_nil, or_false] at rows
    rcases rows with rfl | rfl | rfl | rfl <;> exact ⟨_, rfl, by decide⟩

/-! ### Spellings below a root -/

/-- A gap only separates. -/
theorem Gap.components? (gaps : Gap gap) (before after : Bytes) :
    (segments (before ++ gap ++ after)).filterMap component? =
      (segments before).filterMap component? ++ (segments after).filterMap component? := by
  induction gaps generalizing before with
  | single => simp [segments_append_slash]
  | more _ ih =>
    have behind := ih []
    rw [List.nil_append] at behind
    rw [List.append_assoc, List.cons_append, segments_append_slash, List.filterMap_append, behind]
    rfl
  | here _ ih =>
    have behind := ih [dot]
    rw [List.append_assoc, List.cons_append, List.nil_append] at behind
    rw [List.append_assoc, List.cons_append, segments_append_slash, List.filterMap_append,
      List.cons_append, behind]
    rfl

theorem Spelled.components? (spelled : Spelled names spelling) (parts : ∀ name ∈ names, IsPart name) :
    (segments spelling).filterMap component? = names.map .name := by
  induction spelled with
  | nil => rfl
  | last name =>
    have part := parts name List.mem_cons_self
    rw [segments_name part.noSlash, filterMap_parts parts]
  | cons name gaps _ ih =>
    obtain ⟨part, later⟩ := List.forall_mem_cons.mp parts
    rw [gaps.components?, ih later, segments_name part.noSlash,
      List.filterMap_cons_some (component?_part part)]
    rfl

theorem Spelled.relative (spelled : Spelled names spelling) (parts : ∀ name ∈ names, IsPart name) :
    isAbsolute ⟨spelling⟩ = false := by
  cases spelled with
  | nil => rfl
  | last => simpa using part_relative (parts spelling List.mem_cons_self) []
  | cons name =>
    rw [List.append_assoc]
    exact part_relative (parts name List.mem_cons_self) _

/-- Only the names of a joined path count below the root, which may be empty. -/
theorem namesBelow_join {path : Path} (relative : path.isAbsolute = false) :
    root.namesBelow (root.join path) =
      ((segments path.bytes).filterMap component?).filterMap Component.name? := by
  have leftOut : ∀ row : List Component,
      (row.filter (· ≠ .here)).filterMap Component.name? = row.filterMap Component.name? := by
    intro row
    rw [List.filterMap_filter]
    refine List.filterMap_congr fun component _ => ?_
    cases component <;> rfl
  rw [filterMap_component? relative, namesBelow]
  by_cases spelled : root.bytes = []
  · obtain ⟨bytes⟩ := root
    cases spelled
    have whole : join ⟨[]⟩ path = path := by
      rw [join, relative]
      rfl
    rw [whole, leftOut]
    rfl
  · rw [below_eq (components_join spelled relative)]

theorem relativeName_same {respelled : Path} (same : respelled.Same root) (path : Path) :
    respelled.relativeName path = root.relativeName path := by
  rw [Same] at same
  rw [relativeName, relativeName, below, below, same]

/-- The canonical relative name. However the root is spelled and whatever gaps stand between the names
below it, the relative name is the row of the written names. It is a row of parts for every path,
and its own relative name. -/
theorem relativeName_canonical :
    (∀ (root respelled : Path) (names : List Bytes) (spelling : Bytes), respelled.Same root →
      (∀ name ∈ names, IsPart name) → Spelled names spelling →
      respelled.relativeName (root.join ⟨spelling⟩) = Text.join ['/'] (names.map Escaped.encode)) ∧
    ∀ root path : Path,
      (∃ pieces : List Text, root.relativeName path = Text.join ['/'] pieces ∧
        ∀ piece ∈ pieces, IsPiece piece) ∧
      relativeName ⟨[]⟩ ⟨Utf8.encode (root.relativeName path)⟩ = root.relativeName path := by
  refine ⟨?_, fun root path => ⟨⟨(root.namesBelow path).map Escaped.encode, rfl, ?_⟩, ?_⟩⟩
  · intro root respelled names spelling same parts spelled
    have below : root.namesBelow (root.join ⟨spelling⟩) = names := by
      rw [namesBelow_join (spelled.relative parts), spelled.components? parts, List.filterMap_map]
      exact List.filterMap_some
    rw [relativeName_same same, relativeName, ← namesBelow, below]
  · intro piece member
    obtain ⟨name, inside, rfl⟩ := List.mem_map.mp member
    exact isPiece_encode (isPart_namesBelow inside)
  · have written : ∀ texts : List Text,
        ((texts.map fun text => Component.name (Utf8.encode text)).filterMap Component.name?).map
          Escaped.encode = texts := by
      intro texts
      simp [List.filterMap_map, Component.name?, Function.comp_def, Escaped.encode_text]
    have all : below ⟨[]⟩ ⟨Utf8.encode (root.relativeName path)⟩ =
        components ⟨Utf8.encode (root.relativeName path)⟩ := rfl
    rw [relativeName, all, components_relativeName, written]
    rfl

theorem relativeName_canonical_padded :
    relativeName (ofString ".//r/.") ⟨Utf8.encode "./r/a//./".toList ++ [0xFF, 0x2F]⟩ =
      "a/\\xFF".toList := by
  have spelled : Spelled [[0x61], [0xFF]] [0x61, 0x2F, 0x2F, 0x2E, 0x2F, 0xFF, 0x2F] :=
    .cons [0x61] (.more (.here .single)) (.cons [0xFF] .single .nil)
  have parts : ∀ name ∈ [[0x61], [0xFF]], IsPart name := by
    intro name member
    have either : name = [0x61] ∨ name = [0xFF] := by simpa using member
    rcases either with rfl | rfl <;> exact ⟨by decide, by decide, by decide, by decide⟩
  exact relativeName_canonical.1 (ofString "./r/") _ _ _ (by decide) parts spelled

end SourceIndex.Path
