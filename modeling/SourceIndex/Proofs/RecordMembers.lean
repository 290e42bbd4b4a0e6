import SourceIndex.Proofs.QuotedStrings
import SourceIndex.Proofs.SkippedValues
import SourceIndex.RecordText

/-! A record is read from any object that spells its fields. The members may stand in any order and
among others with any values; what is missing is empty. One member either fills the field it names,
which has to be free, or is skipped (`member_filled`), and behind it the reader stands where the value
ends, whatever the value was (`member_rest`). So a field holds as many values as there are members
for it (`entry_counted`), and two are too many. -/
namespace SourceIndex.Record

open Json
open Json.Cursor (Gives Leaves)

/-! ### Objects -/

/-- A member of an object: what its key says, and its value as it is written. -/
structure Member where
  key : Text
  value : Bytes

/-- A member from behind its opening quote. -/
inductive MemberSpelled (member : Member) : Bytes → Prop
  | spelled {name before after} (key : TextSpelled member.key name) (gapBefore : Blanks before)
    (gapAfter : Blanks after) (value : Written .value member.value) :
    MemberSpelled member (name ++ 0x22 :: (before ++ 0x3A :: (after ++ member.value)))

/-- A key as it would be written, and a value right behind it. -/
theorem memberSpelled_encode (key : Text) {value : Bytes} (written : Written .value value) :
    MemberSpelled ⟨key, value⟩ (Utf8.encode (key.flatMap Quoted.encodeChar) ++ 0x22 :: 0x3A :: value) :=
  .spelled (textSpelled_encode key) (List.forall_mem_nil _) (List.forall_mem_nil _) written

/-- Members from behind the first quote, with the closing brace. -/
inductive MembersSpelled : List Member → Bytes → Prop
  | last {member text gap} (spelled : MemberSpelled member text) (blank : Blanks gap) :
    MembersSpelled [member] (text ++ (gap ++ [0x7D]))
  | more {member text before after members others} (spelled : MemberSpelled member text)
    (gapBefore : Blanks before) (gapAfter : Blanks after) (behind : MembersSpelled members others) :
    MembersSpelled (member :: members) (text ++ (before ++ 0x2C :: (after ++ 0x22 :: others)))

/-- An object with these members, alone in a text. -/
inductive ObjectSpelled : List Member → Bytes → Prop
  | empty {front gap behind} (blank : Blanks front) (inner : Blanks gap) (trailing : Blanks behind) :
    ObjectSpelled [] (front ++ 0x7B :: (gap ++ 0x7D :: behind))
  | full {front gap members text behind} (blank : Blanks front) (inner : Blanks gap)
    (spelled : MembersSpelled members text) (trailing : Blanks behind) :
    ObjectSpelled members (front ++ 0x7B :: (gap ++ 0x22 :: (text ++ behind)))

/-! ### Fields -/

/-- The fields of a record. -/
inductive Field where
  | path
  | snippet
  deriving DecidableEq

namespace Field

def key : Field → Text
  | path => "path".toList
  | snippet => "snippet".toList

def get (fields : Fields) : Field → Option Text
  | path => fields.path
  | snippet => fields.snippet

def set (fields : Fields) (text : Text) : Field → Fields
  | path => { fields with path := some text }
  | snippet => { fields with snippet := some text }

theorem key_injective {field other : Field} (same : field.key = other.key) : field = other := by
  cases field <;> cases other <;> first | rfl | exact absurd same (by decide)

theorem get_set (field : Field) (fields : Fields) (text : Text) :
    field.get (field.set fields text) = some text := by
  cases field <;> rfl

theorem get_set_other {field other : Field} (apart : other ≠ field) (fields : Fields) (text : Text) :
    other.get (field.set fields text) = other.get fields := by
  cases field <;> cases other <;> first | rfl | exact absurd rfl apart

/-- The values of the members for a field. -/
def values (field : Field) (members : List Member) : List Bytes :=
  (members.filter fun member => member.key = field.key).map Member.value

variable {field : Field} {member : Member}

theorem values_named (named : member.key = field.key) (members : List Member) :
    field.values (member :: members) = member.value :: field.values members := by
  simp [values, named]

theorem unnamed {other : Field} (named : member.key = field.key) (apart : other ≠ field) :
    member.key ≠ other.key := fun again => apart (key_injective (again.symm.trans named))

theorem values_other (other : member.key ≠ field.key) (members : List Member) :
    field.values (member :: members) = field.values members := by
  simp [values, other]

end Field

/-- A string as a value. -/
inductive StringSpelled (text : Text) : Bytes → Prop
  | quoted {body} (spelled : TextSpelled text body) : StringSpelled text (0x22 :: (body ++ [0x22]))

/-- From what a field held to what it holds once these values have been met: without one it is left
as it is, and a string fills it if it was free. For anything else it has no place. -/
inductive Holds : Option Text → List Bytes → Option Text → Prop
  | kept (held : Option Text) : Holds held [] held
  | filled {text value} (spelled : StringSpelled text value) : Holds none [value] (some text)

theorem holds_cons {held reached : Option Text} {value : Bytes} {later : List Bytes}
    (holds : Holds held (value :: later) reached) :
    held = none ∧ later = [] ∧ ∃ text, reached = some text ∧ StringSpelled text value := by
  cases holds with
  | filled spelled => exact ⟨rfl, rfl, _, rfl, spelled⟩

/-! ### One member -/

section
variable {gap rest : Bytes} {offset : Nat} {fields next : Fields} {cursor after : Cursor} {text : Text}

theorem colon_gap (blanks : Blanks gap) (rest : Bytes) (offset : Nat) :
    colon ⟨offset, gap ++ 0x3A :: rest⟩ = .ok ⟨offset + gap.length + 1, rest⟩ := by
  have visible : Cursor.isBlank 0x3A = false := rfl
  simp only [colon, Cursor.skipBlanks_gap blanks visible, if_true]

theorem field_string {value : Bytes} (spelled : StringSpelled text value) (blanks : Blanks gap)
    (rest : Bytes) (offset : Nat) : Gives (field ⟨offset, gap ++ (value ++ rest)⟩) text rest := by
  obtain ⟨spelled⟩ := spelled
  have visible : Cursor.isBlank 0x22 = false := rfl
  obtain ⟨last, read⟩ := Cursor.string_spelled spelled rest (offset + gap.length + 1)
  refine ⟨last, ?_⟩
  simp only [List.cons_append, List.append_assoc, List.nil_append, field,
    Cursor.skipBlanks_gap blanks visible, if_true]
  exact read

/-- A field that can be read ends where a reader ends that skips it. -/
theorem skipValue_of_field (read : field cursor = .ok (text, after)) :
    Cursor.skipValue cursor = .ok after := by
  simp only [field] at read
  split at read
  · cases read
  rename_i byte rest behind
  split at read
  · rename_i quote
    subst quote
    have skipped := Cursor.skipString_of_string read
    have scalar : Cursor.skipScalar 0x22 cursor.skipBlanks = .ok after := by
      rw [← skipped]
      simp [Cursor.skipScalar, Cursor.isDigit, behind]
    simp only [Cursor.skipValue, Cursor.skipOpen, behind, scalar, ok_bind]
    rfl
  · cases read

theorem member_free (name : Field) (free : name.get fields = none) (cursor : Cursor) :
    member name.key fields cursor = colon cursor >>= fun between => field between >>= fun read =>
      .ok (name.set fields read.1, read.2) := by
  have vacant : ¬ (name.get fields).isSome = true := by simp [free]
  cases name
  · exact (if_pos rfl).trans (if_neg vacant)
  · exact (if_neg (by decide)).trans ((if_pos rfl).trans (if_neg vacant))

theorem member_held (name : Field) (held : name.get fields ≠ none) (cursor : Cursor) :
    ∃ fault, member name.key fields cursor = .error fault := by
  have some := Option.isSome_iff_ne_none.mpr held
  cases name
  · exact ⟨duplicate "path" cursor, if_pos some⟩
  · exact ⟨duplicate "snippet" cursor, if_pos some⟩

theorem member_unknown {key : Text} (unknown : ∀ name : Field, key ≠ name.key) (cursor : Cursor) :
    member key fields cursor = colon cursor >>= fun between => Cursor.skipValue between >>= fun after =>
      .ok (fields, after) := by
  have path : key ≠ "path".toList := unknown .path
  have snippet : key ≠ "snippet".toList := unknown .snippet
  rw [member, if_neg path, if_neg snippet]
  rfl

/-- A member fills the field it names, which then has all its values, or is skipped. -/
theorem member_filled {met : Member} {members : List Member} {before after : Bytes}
    (holds : ∀ name : Field, Holds (name.get fields) (name.values (met :: members)) (name.get next))
    (gapBefore : Blanks before) (gapAfter : Blanks after) (value : Written .value met.value)
    (ends : Ends rest) : ∃ middle : Fields, (∀ name : Field, Holds (name.get middle) (name.values members) (name.get next)) ∧
      ∀ offset, Gives (member met.key fields ⟨offset, before ++ 0x3A :: (after ++ (met.value ++ rest))⟩)
        middle rest := by
  by_cases known : ∃ name : Field, met.key = name.key
  · obtain ⟨name, named⟩ := known
    have whole := holds name
    rw [Field.values_named named] at whole
    obtain ⟨free, settled, text, reached, spelled⟩ := holds_cons whole
    refine ⟨name.set fields text, fun other => ?_, fun offset => ?_⟩
    · by_cases same : other = name
      · subst same
        rw [Field.get_set, settled, reached]
        exact .kept (some text)
      · have kept := holds other
        rw [Field.values_other (Field.unnamed named same)] at kept
        rwa [Field.get_set_other same]
    · obtain ⟨last, read⟩ := field_string spelled gapAfter rest (offset + before.length + 1)
      refine ⟨last, ?_⟩
      rw [named, member_free name free, colon_gap gapBefore, ok_bind, read, ok_bind]
  · have unknown : ∀ name : Field, met.key ≠ name.key := fun name same => known ⟨name, same⟩
    refine ⟨fields, fun name => ?_, fun offset => ?_⟩
    · have kept := holds name
      rwa [Field.values_other (unknown name)] at kept
    · obtain ⟨last, skipped⟩ := Cursor.skipValue_written value gapAfter ends (offset + before.length + 1)
      refine ⟨last, ?_⟩
      rw [member_unknown unknown, colon_gap gapBefore, ok_bind, skipped, ok_bind]

/-- Behind a member the reader stands where its value ends, whatever the value is, and what the
member names has one value more than before. -/
theorem member_rest {met : Member} {before behind : Bytes} (gapBefore : Blanks before)
    (gapBehind : Blanks behind) (value : Written .value met.value) (ends : Ends rest)
    (read : member met.key fields ⟨offset, before ++ 0x3A :: (behind ++ (met.value ++ rest))⟩ =
      .ok (next, after)) :
    after.rest = rest ∧ ∀ (name : Field) (members : List Member),
      (name.get next).toList.length + (name.values members).length =
        (name.get fields).toList.length + (name.values (met :: members)).length := by
  obtain ⟨last, skipped⟩ := Cursor.skipValue_written value gapBehind ends (offset + before.length + 1)
  by_cases known : ∃ name : Field, met.key = name.key
  · obtain ⟨name, named⟩ := known
    by_cases free : name.get fields = none
    · rw [named, member_free name free, colon_gap gapBefore, ok_bind] at read
      obtain ⟨⟨text, place⟩, taken, same⟩ := bind_eq_ok_iff.mp read
      have ended := (skipValue_of_field taken).symm.trans skipped
      cases same
      cases ended
      refine ⟨rfl, fun other members => ?_⟩
      by_cases same : other = name
      · subst same
        rw [Field.get_set, free, Field.values_named named]
        simp [Nat.add_comm]
      · rw [Field.get_set_other same, Field.values_other (Field.unnamed named same)]
    · have refused := member_held name free ⟨offset, before ++ 0x3A :: (behind ++ (met.value ++ rest))⟩
      obtain ⟨fault, failed⟩ := refused
      rw [named, failed] at read
      cases read
  · have unknown : ∀ name : Field, met.key ≠ name.key := fun name same => known ⟨name, same⟩
    rw [member_unknown unknown, colon_gap gapBefore, ok_bind, skipped, ok_bind] at read
    cases read
    exact ⟨rfl, fun name members => by rw [Field.values_other (unknown name)]⟩

/-! ### All members -/

/-- Read a member from behind its opening quote, and all that follow. -/
def entry (steps : Nat) (fields : Fields) (cursor : Cursor) : Except Fault (Fields × Cursor) :=
  Cursor.string cursor >>= fun named => member named.1 fields named.2 >>= fun taken =>
    members steps false taken.1 taken.2

variable {steps : Nat}

theorem members_opening (blanks : Blanks gap) (rest : Bytes) :
    members (steps + 1) true fields ⟨offset, gap ++ 0x22 :: rest⟩ =
      entry steps fields ⟨offset + gap.length + 1, rest⟩ := by
  have visible : Cursor.isBlank 0x22 = false := rfl
  rw [members]
  simp only [Cursor.skipBlanks_gap blanks visible]
  rfl

theorem members_comma {before after : Bytes} (gapBefore : Blanks before) (gapAfter : Blanks after)
    (rest : Bytes) :
    members (steps + 1) false fields ⟨offset, before ++ 0x2C :: (after ++ 0x22 :: rest)⟩ =
      entry steps fields ⟨offset + before.length + 1 + after.length + 1, rest⟩ := by
  have comma : Cursor.isBlank 0x2C = false := rfl
  have quote : Cursor.isBlank 0x22 = false := rfl
  rw [members]
  simp only [Cursor.skipBlanks_gap gapBefore comma, Cursor.skipBlanks_gap gapAfter quote]
  rfl

theorem members_brace (blanks : Blanks gap) (first : Bool) (rest : Bytes) :
    members (steps + 1) first fields ⟨offset, gap ++ 0x7D :: rest⟩ =
      .ok (fields, ⟨offset + gap.length + 1, rest⟩) := by
  have visible : Cursor.isBlank 0x7D = false := rfl
  rw [members]
  simp only [Cursor.skipBlanks_gap blanks visible, if_true]

/-- The key of a member is read, and its value is what comes next. -/
theorem entry_spelled {met : Member} {text : Bytes} (spelled : MemberSpelled met text) (steps : Nat)
    (fields : Fields) (offset : Nat) (rest : Bytes) : ∃ before after middle,
      Blanks before ∧ Blanks after ∧ Written .value met.value ∧
      entry steps fields ⟨offset, text ++ rest⟩ =
        member met.key fields ⟨middle, before ++ 0x3A :: (after ++ (met.value ++ rest))⟩ >>= fun taken =>
          members steps false taken.1 taken.2 := by
  cases spelled with
  | @spelled name before after key gapBefore gapAfter value =>
    have read := Cursor.string_spelled key (before ++ 0x3A :: (after ++ (met.value ++ rest))) offset
    obtain ⟨middle, named⟩ := read
    refine ⟨before, after, middle, gapBefore, gapAfter, value, ?_⟩
    simp only [List.append_assoc, List.cons_append, entry, named, ok_bind]

theorem fields_ext {fields other : Fields} (same : ∀ name : Field, name.get fields = name.get other) :
    fields = other := by
  obtain ⟨path, snippet⟩ := fields
  obtain rfl : path = other.path := same .path
  obtain rfl : snippet = other.snippet := same .snippet
  rfl

theorem holds_nil {held reached : Option Text} (holds : Holds held [] reached) : held = reached := by
  cases holds
  rfl

/-- Members fill the fields they name, in any order and among any others. -/
theorem entry_filled {members : List Member} {text : Bytes} (spelled : MembersSpelled members text)
    (holds : ∀ name : Field, Holds (name.get fields) (name.values members) (name.get next))
    (enough : text.length ≤ steps) (rest : Bytes) (offset : Nat) :
    Gives (entry steps fields ⟨offset, text ++ rest⟩) next rest := by
  induction spelled generalizing fields steps offset with
  | @last met text gap spelled blank =>
    obtain ⟨before, after, middle, gapBefore, gapAfter, value, read⟩ :=
      entry_spelled spelled steps fields offset (gap ++ 0x7D :: rest)
    have brace : Ends (0x7D :: rest) := Cursor.ends_closing .map rest
    obtain ⟨reached, settled, taken⟩ := member_filled holds gapBefore gapAfter value
      (Cursor.ends_gap blank brace)
    obtain ⟨place, took⟩ := taken middle
    obtain rfl : reached = next := fields_ext fun name => holds_nil (settled name)
    simp only [List.length_append, List.length_singleton] at enough
    obtain ⟨steps, rfl⟩ := Nat.exists_eq_add_of_le' (show 1 ≤ steps by omega)
    refine ⟨place + gap.length + 1, ?_⟩
    simp only [List.append_assoc, List.singleton_append]
    rw [read, took, ok_bind, members_brace blank]
  | @more met text before after others tail spelled gapBefore gapAfter behind ih =>
    obtain ⟨between, follows, middle, gapBetween, gapFollows, value, read⟩ :=
      entry_spelled spelled steps fields offset (before ++ 0x2C :: (after ++ 0x22 :: (tail ++ rest)))
    obtain ⟨reached, settled, taken⟩ := member_filled holds gapBetween gapFollows value
      (Cursor.ends_gap gapBefore (Cursor.ends_comma (after ++ 0x22 :: (tail ++ rest))))
    obtain ⟨place, took⟩ := taken middle
    simp only [List.length_append, List.length_cons] at enough
    obtain ⟨steps, rfl⟩ := Nat.exists_eq_add_of_le' (show 1 ≤ steps by omega)
    have fits : tail.length ≤ steps := by omega
    obtain ⟨last, others⟩ := ih settled fits (place + before.length + 1 + after.length + 1)
    refine ⟨last, ?_⟩
    simp only [List.append_assoc, List.cons_append]
    rw [read, took, ok_bind, members_comma gapBefore gapAfter, others]

/-- Behind the members, each field holds one value for each of them that names it. -/
theorem entry_counted {members : List Member} {text : Bytes} (spelled : MembersSpelled members text)
    (read : entry steps fields ⟨offset, text ++ rest⟩ = .ok (next, after)) (name : Field) :
    (name.get next).toList.length = (name.get fields).toList.length + (name.values members).length := by
  induction spelled generalizing fields steps offset with
  | @last met text gap spelled blank =>
    obtain ⟨before, behind, middle, gapBefore, gapBehind, value, opened⟩ :=
      entry_spelled spelled steps fields offset (gap ++ 0x7D :: rest)
    simp only [List.append_assoc, List.singleton_append] at read
    rw [opened] at read
    obtain ⟨⟨reached, place, left⟩, taken, read⟩ := bind_eq_ok_iff.mp read
    have brace : Ends (0x7D :: rest) := Cursor.ends_closing .map rest
    obtain ⟨rfl, counted⟩ := member_rest gapBefore gapBehind value (Cursor.ends_gap blank brace) taken
    cases steps with
    | zero => cases read
    | succ steps =>
      rw [members_brace blank] at read
      cases read
      exact counted name []
  | @more met text before behind others tail spelled gapBefore gapAfter later ih =>
    obtain ⟨between, follows, middle, gapBetween, gapFollows, value, opened⟩ :=
      entry_spelled spelled steps fields offset (before ++ 0x2C :: (behind ++ 0x22 :: (tail ++ rest)))
    simp only [List.append_assoc, List.cons_append] at read
    rw [opened] at read
    obtain ⟨⟨reached, place, left⟩, taken, read⟩ := bind_eq_ok_iff.mp read
    obtain ⟨rfl, counted⟩ := member_rest gapBetween gapFollows value
      (Cursor.ends_gap gapBefore (Cursor.ends_comma (behind ++ 0x22 :: (tail ++ rest)))) taken
    cases steps with
    | zero => cases read
    | succ steps =>
      rw [members_comma gapBefore gapAfter] at read
      rw [ih read]
      exact counted name others

end

/-! ### Whole texts -/

/-- A text with one object in it. -/
theorem ofText_brace {front : Bytes} (blank : Blanks front) (text : Bytes) :
    ofText (front ++ 0x7B :: text) =
      members (text.length + 1) true ⟨none, none⟩ ⟨front.length + 1, text⟩ >>= fun read =>
        if read.2.skipBlanks.rest = [] then .ok read.1.record
        else .error (read.2.skipBlanks.next .trailingCharacters) := by
  have visible : Cursor.isBlank 0x7B = false := rfl
  have object : value (Cursor.start (front ++ 0x7B :: text)) =
      members (text.length + 1) true ⟨none, none⟩ ⟨front.length + 1, text⟩ >>= fun read =>
        .ok (read.1.record, read.2) := by
    simp only [value, Cursor.start, Cursor.skipBlanks_gap blank visible, Nat.zero_add]
    rfl
  rw [ofText, object]
  cases members (text.length + 1) true ⟨none, none⟩ ⟨front.length + 1, text⟩ <;> rfl

/-- A spelled object is read as the record of its fields. -/
theorem ofText_filled {given : List Member} {text : Bytes} {fields : Fields}
    (spelled : ObjectSpelled given text)
    (holds : ∀ name : Field, Holds none (name.values given) (name.get fields)) :
    ofText text = .ok fields.record := by
  have start : ∀ name : Field, name.get ⟨none, none⟩ = none := by rintro ⟨⟩ <;> rfl
  cases spelled with
  | empty blank inner trailing =>
    obtain rfl : ⟨none, none⟩ = fields := fields_ext fun name => (start name).trans (holds_nil (holds name))
    rw [ofText_brace blank, members_brace inner, ok_bind, if_pos (Cursor.skipBlanks_all trailing _)]
  | @full front gap members text behind blank inner inside trailing =>
    have enough : text.length ≤ (gap ++ 0x22 :: (text ++ behind)).length := by
      simp only [List.length_append, List.length_cons]
      omega
    obtain ⟨last, read⟩ := entry_filled inside (fun name => (start name).symm ▸ holds name) enough behind
      (front.length + 1 + gap.length + 1)
    rw [ofText_brace blank, members_opening inner, read, ok_bind,
      if_pos (Cursor.skipBlanks_all trailing last)]

/-- A text that is read as a record has at most one member for each field. -/
theorem ofText_counted {given : List Member} {text : Bytes} {record : Record}
    (spelled : ObjectSpelled given text) (read : ofText text = .ok record) (name : Field) :
    (name.values given).length ≤ 1 := by
  cases spelled with
  | empty => exact Nat.zero_le 1
  | @full front gap members text behind blank inner inside trailing =>
    rw [ofText_brace blank, members_opening inner] at read
    obtain ⟨⟨fields, after⟩, taken, -⟩ := bind_eq_ok_iff.mp read
    have counted := entry_counted inside taken name
    have most : (name.get fields).toList.length ≤ 1 := by cases name.get fields <;> simp
    omega

/-- Records are read from all objects that spell them: members may be missing, stand in any order and
among any others, blanks may stand wherever they are allowed, and each character may be spelled in
each way there is. An object with two members for a field is refused. -/
theorem ofText_object {given : List Member} {text : Bytes} (spelled : ObjectSpelled given text) :
    (∀ path snippet : Option Text, Holds none (Field.path.values given) path →
      Holds none (Field.snippet.values given) snippet →
      ofText text = .ok ⟨path.getD [], snippet.getD []⟩) ∧
    ∀ name : Field, 2 ≤ (name.values given).length → ∃ fault, ofText text = .error fault := by
  refine ⟨fun path snippet holdsPath holdsSnippet => ?_, fun name twice => ?_⟩
  · have holds : ∀ name : Field, Holds none (name.values given) (name.get ⟨path, snippet⟩) := by
      rintro ⟨⟩
      · exact holdsPath
      · exact holdsSnippet
    exact ofText_filled spelled holds
  · cases read : ofText text with
    | error fault => exact ⟨fault, rfl⟩
    | ok record => exact absurd (ofText_counted spelled read name) (Nat.not_le.mpr twice)

/-- The snippet in front of the path, behind a member that is not known and nests, with escapes of
two kinds; and an object with two paths, of which one is no string. -/
theorem ofText_object_shuffled :
    let given : List Member := [⟨"n".toList, [0x5B, 0x30, 0x2C, 0x7B, 0x7D, 0x5D]⟩,
      ⟨"snippet".toList, [0x22, 0x5C, 0x6E, 0x22]⟩,
      ⟨"path".toList, [0x22, 0x5C, 0x75, 0x44, 0x38, 0x33, 0x64, 0x5C, 0x75, 0x64, 0x65, 0x30, 0x30, 0x22]⟩]
    let text := Utf8.encode
      "\x7b\"n\":[0,\x7b\x7d], \"snippet\":\"\\n\",\"path\":\"\\uD83d\\ude00\"\x7d".toList
    let twice : List Member := [⟨"path".toList, [0x30]⟩, ⟨"path".toList, [0x22, 0x22]⟩]
    let other := Utf8.encode "\x7b\"path\":0,\"path\":\"\"\x7d".toList
    (ObjectSpelled given text ∧ ofText text = .ok ⟨['😀'], ['\n']⟩) ∧
      ObjectSpelled twice other ∧ ∃ fault, ofText other = .error fault := by
  intro given text twice other
  have bare : Blanks [] := List.forall_mem_nil _
  have space : Blanks [0x20] := List.forall_mem_singleton.mpr (.inl rfl)
  have zero := Written.scalar (.positive (.parts .zero .none .none))
  have nested := @Written.full .list [] _ bare
    (.more .item zero bare bare (.last .item (.empty .map bare) bare))
  have high := FourDigits.digits (.inr rfl : HexDigit 0x44 13) (.inl rfl : HexDigit 0x38 8)
    (.inl rfl : HexDigit 0x33 3) (.inl rfl : HexDigit 0x64 13)
  have low := FourDigits.digits (.inl rfl : HexDigit 0x64 13) (.inl rfl : HexDigit 0x65 14)
    (.inl rfl : HexDigit 0x30 0) (.inl rfl : HexDigit 0x30 0)
  have smile : TextSpelled ['😀'] _ := .cons (.pair (by decide) high low) .nil
  have newline : TextSpelled ['\n'] [0x5C, 0x6E] := .cons (.short (by decide)) .nil
  have object := ObjectSpelled.full bare bare
    (.more (memberSpelled_encode "n".toList nested) bare space
      (.more (memberSpelled_encode "snippet".toList (.scalar (.string newline.literal))) bare bare
        (.last (memberSpelled_encode "path".toList (.scalar (.string smile.literal))) bare))) bare
  have both := ObjectSpelled.full bare bare
    (.more (memberSpelled_encode "path".toList zero) bare bare
      (.last (memberSpelled_encode "path".toList (.scalar (.string .nil))) bare)) bare
  have spelled : ObjectSpelled given text := object
  have spelledTwice : ObjectSpelled twice other := both
  have path : Holds none (Field.path.values given) (some ['😀']) := .filled (.quoted smile)
  have snippet : Holds none (Field.snippet.values given) (some ['\n']) := .filled (.quoted newline)
  exact ⟨⟨spelled, (ofText_object spelled).1 _ _ path snippet⟩, spelledTwice,
    (ofText_object spelledTwice).2 .path (by decide)⟩

end SourceIndex.Record
