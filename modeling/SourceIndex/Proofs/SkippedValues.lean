import SourceIndex.Json.Skip
import SourceIndex.Proofs.StringSpellings

/-! A value that nobody reads is skipped to its end, whatever it holds and however deep it nests. The
grammar of values has a case for each form (`Written`). What a skip takes over from in front of a
value is exactly what it has behind it: the brackets open before are open again and nothing of what
follows is touched (`Part.Skipped`). Every step has its equation, and by induction on the value the
steps join up; their number is within what `skipValue` allows. -/
namespace SourceIndex.Json

open Cursor (Frame isDigit isBlank Leaves)

/-! ### Grammar -/

def Digits (bytes : Bytes) : Prop := ∀ byte ∈ bytes, isDigit byte = true

theorem Digits.cons {first : UInt8} {others : Bytes} (run : Digits others) (digit : isDigit first = true) :
    Digits (first :: others) := List.forall_mem_cons.mpr ⟨digit, run⟩

/-- The digits in front of the point: a zero alone, or digits that do not begin with one. -/
inductive Whole : Bytes → Prop
  | zero : Whole [0x30]
  | digits {first others} (nonzero : first ≠ 0x30) (digit : isDigit first = true) (run : Digits others) :
    Whole (first :: others)

inductive Fraction : Bytes → Prop
  | none : Fraction []
  | digits {first others} (digit : isDigit first = true) (run : Digits others) :
    Fraction (0x2E :: first :: others)

inductive Exponent : Bytes → Prop
  | none : Exponent []
  | power {letter sign first others} (named : letter = 0x65 ∨ letter = 0x45)
    (signed : sign = [] ∨ sign = [0x2B] ∨ sign = [0x2D]) (digit : isDigit first = true)
    (run : Digits others) : Exponent (letter :: (sign ++ first :: others))

/-- A number from behind its sign. -/
inductive Magnitude : Bytes → Prop
  | parts {whole fraction exponent} (front : Whole whole) (point : Fraction fraction)
    (power : Exponent exponent) : Magnitude (whole ++ (fraction ++ exponent))

def words : List Bytes :=
  [[0x6E, 0x75, 0x6C, 0x6C], [0x74, 0x72, 0x75, 0x65], [0x66, 0x61, 0x6C, 0x73, 0x65]]

/-- A value that holds no others. -/
inductive Scalar : Bytes → Prop
  | word {letters} (known : letters ∈ words) : Scalar letters
  | positive {number} (magnitude : Magnitude number) : Scalar number
  | negative {number} (magnitude : Magnitude number) : Scalar (0x2D :: number)
  | string {body} (literal : Literal body) : Scalar (0x22 :: (body ++ [0x22]))

def Cursor.Frame.opening : Frame → UInt8
  | .list => 0x5B
  | .map => 0x7B

/-- What stands in front of the value of an entry: in a map, a key and a colon. -/
inductive Lead : Frame → Bytes → Prop
  | item : Lead .list []
  | member {key before after} (name : Literal key) (gapBefore : Blanks before) (gapAfter : Blanks after) :
    Lead .map (0x22 :: (key ++ 0x22 :: (before ++ 0x3A :: after)))

/-- A whole value, or the entries of one with the bracket that closes it. -/
inductive Part where
  | value
  | entries (frame : Frame)

/-- How values are written. -/
inductive Written : Part → Bytes → Prop
  | scalar {text} (scalar : Scalar text) : Written .value text
  | empty {gap} (frame : Frame) (blank : Blanks gap) :
    Written .value (frame.opening :: (gap ++ [frame.closing]))
  | full {frame gap text} (blank : Blanks gap) (entries : Written (.entries frame) text) :
    Written .value (frame.opening :: (gap ++ text))
  | last {frame lead text gap} (front : Lead frame lead) (value : Written .value text) (blank : Blanks gap) :
    Written (.entries frame) (lead ++ (text ++ (gap ++ [frame.closing])))
  | more {frame lead text before after others} (front : Lead frame lead) (value : Written .value text)
    (gapBefore : Blanks before) (gapAfter : Blanks after) (behind : Written (.entries frame) others) :
    Written (.entries frame) (lead ++ (text ++ (before ++ 0x2C :: (after ++ others))))

/-- No number goes on here. -/
def Ends (rest : Bytes) : Prop :=
  ∀ byte ∈ rest.head?, isDigit byte = false ∧ byte ≠ 0x2E ∧ byte ≠ 0x65 ∧ byte ≠ 0x45

namespace Cursor

variable {gap rest text : Bytes} {offset : Nat}

/-! ### Blanks -/

theorem isBlank_of_mem (blanks : Blanks gap) {byte : UInt8} (member : byte ∈ gap) : isBlank byte = true := by
  rcases blanks byte member with rfl | rfl | rfl | rfl <;> rfl

theorem dropWhile_gap (blanks : Blanks gap) (rest : Bytes) :
    (gap ++ rest).dropWhile isBlank = rest.dropWhile isBlank :=
  List.dropWhile_append_of_pos fun _ member => isBlank_of_mem blanks member

theorem skipBlanks_gap {byte : UInt8} (blanks : Blanks gap) (visible : isBlank byte = false)
    (offset : Nat) (rest : Bytes) :
    skipBlanks ⟨offset, gap ++ byte :: rest⟩ = ⟨offset + gap.length, byte :: rest⟩ := by
  have dropped : (byte :: rest).dropWhile isBlank = byte :: rest :=
    List.dropWhile_cons_of_neg (by simp [visible])
  simp [skipBlanks, dropWhile_gap blanks, dropped]

theorem skipBlanks_all (blanks : Blanks gap) (offset : Nat) : (skipBlanks ⟨offset, gap⟩).rest = [] := by
  have dropped := dropWhile_gap blanks []
  rwa [List.append_nil] at dropped

/-! ### Numbers -/

/-- A run of digits goes no further than this. -/
def Stops (rest : Bytes) : Prop := ∀ byte ∈ rest.head?, isDigit byte = false

theorem digits_run {run : Bytes} (all : Digits run) (stops : Stops rest) (offset : Nat) :
    digits ⟨offset, run ++ rest⟩ = (run.map fun byte => byte.toNat - 0x30, ⟨offset + run.length, rest⟩) := by
  have none : rest.takeWhile isDigit = [] := by
    cases rest with
    | nil => rfl
    | cons byte rest => exact List.takeWhile_cons_of_neg (by simp [stops byte rfl])
  have taken : (run ++ rest).takeWhile isDigit = run := by
    rw [List.takeWhile_append_of_pos all, none, List.append_nil]
  simp [digits, taken]

theorem ne_of_isDigit {byte : UInt8} (digit : isDigit byte = true) (letter : UInt8)
    (other : isDigit letter = false) : byte ≠ letter := by
  rintro rfl
  exact Bool.false_ne_true (other.symm.trans digit)

/-- The exponent, if there is one. -/
def skipPower (cursor : Cursor) : Except Fault Cursor :=
  match cursor.rest with
  | byte :: rest =>
    if byte = 0x65 ∨ byte = 0x45 then skipExponent ⟨cursor.offset + 1, rest⟩ else .ok cursor
  | [] => .ok cursor

theorem skipExponent_run {sign others : Bytes} {first : UInt8}
    (signed : sign = [] ∨ sign = [0x2B] ∨ sign = [0x2D]) (digit : isDigit first = true)
    (run : Digits others) (stops : Stops rest) (offset : Nat) :
    Leaves (skipExponent ⟨offset, sign ++ first :: (others ++ rest)⟩) rest := by
  have taken : ∀ offset, Leaves (.ok (digits ⟨offset, first :: (others ++ rest)⟩).2) rest := by
    intro offset
    have read := digits_run (run.cons digit) stops offset
    rw [List.cons_append] at read
    exact ⟨_, by rw [read]⟩
  have plus : first ≠ 0x2B := ne_of_isDigit digit _ rfl
  have minus : first ≠ 0x2D := ne_of_isDigit digit _ rfl
  rcases signed with rfl | rfl | rfl
  · simpa [skipExponent, plus, minus, digit] using taken offset
  · simpa [skipExponent, digit] using taken (offset + 1)
  · simpa [skipExponent, digit] using taken (offset + 1)

theorem skipPower_exponent {exponent : Bytes} (power : Exponent exponent) (ends : Ends rest) (offset : Nat) :
    Leaves (skipPower ⟨offset, exponent ++ rest⟩) rest := by
  cases power with
  | none =>
    refine ⟨offset, ?_⟩
    cases rest with
    | nil => rfl
    | cons byte rest => simp [skipPower, ends byte rfl]
  | power named signed digit run =>
    have stops : Stops rest := fun byte member => (ends byte member).1
    simpa [skipPower, named] using skipExponent_run signed digit run stops (offset + 1)

theorem skipFraction_fraction {fraction : Bytes} (point : Fraction fraction)
    (stops : ∀ byte ∈ rest.head?, isDigit byte = false ∧ byte ≠ 0x2E) (offset : Nat) :
    ∃ last, skipFraction ⟨offset, fraction ++ rest⟩ = skipPower ⟨last, rest⟩ := by
  cases point with
  | none =>
    refine ⟨offset, ?_⟩
    cases rest with
    | nil => rfl
    | cons byte rest =>
      -- Without a point in front, the branch of the fraction is not taken.
      have plain : byte ≠ 0x2E := (stops byte rfl).2
      simp [skipFraction, skipPower]
  | @digits first others digit run =>
    refine ⟨offset + 1 + (first :: others).length, ?_⟩
    have taken := digits_run (run.cons digit) (fun byte member => (stops byte member).1) (offset + 1)
    rw [List.cons_append] at taken
    cases rest with
    | nil =>
      rw [List.append_nil] at taken
      simp [skipFraction, skipPower, taken]
    | cons byte rest => simp [skipFraction, skipPower, taken]

theorem skipNumber_whole {whole : Bytes} (front : Whole whole) (stops : Stops rest) (offset : Nat) :
    ∃ last, skipNumber ⟨offset, whole ++ rest⟩ = skipFraction ⟨last, rest⟩ := by
  cases front with
  | zero =>
    refine ⟨offset + 1, ?_⟩
    cases rest with
    | nil => rfl
    | cons byte rest => simp [skipNumber, stops byte rfl]
  | @digits first others nonzero digit run =>
    have taken := digits_run (run.cons digit) stops offset
    rw [List.cons_append] at taken
    exact ⟨offset + (first :: others).length, by simp [skipNumber, nonzero, digit, taken]⟩

/-- Neither digits nor a point stand where an exponent may stand. -/
theorem exponent_boundary {exponent : Bytes} (power : Exponent exponent) (ends : Ends rest) :
    ∀ byte ∈ (exponent ++ rest).head?, isDigit byte = false ∧ byte ≠ 0x2E := by
  cases power with
  | none => exact fun byte member => ⟨(ends byte member).1, (ends byte member).2.1⟩
  | power named => rcases named with rfl | rfl <;> simp [isDigit]

theorem fraction_boundary {fraction : Bytes} (point : Fraction fraction) (stops : Stops rest) :
    Stops (fraction ++ rest) := by
  cases point with
  | none => exact stops
  | digits => simp [Stops, isDigit]

/-- A number is skipped if it does not go on behind its end. -/
theorem skipNumber_magnitude {number : Bytes} (magnitude : Magnitude number) (ends : Ends rest)
    (offset : Nat) : Leaves (skipNumber ⟨offset, number ++ rest⟩) rest := by
  obtain ⟨front, point, power⟩ := magnitude
  have behindPoint := exponent_boundary power ends
  have behindWhole := fraction_boundary point fun byte member => (behindPoint byte member).1
  obtain ⟨first, readWhole⟩ := skipNumber_whole front behindWhole offset
  obtain ⟨second, readPoint⟩ := skipFraction_fraction point behindPoint first
  rw [List.append_assoc, List.append_assoc, readWhole, readPoint]
  exact skipPower_exponent power ends second

/-! ### Scalars -/

theorem word_letters (letters rest : Bytes) (offset : Nat) :
    word letters ⟨offset, letters ++ rest⟩ = .ok ⟨offset + letters.length, rest⟩ := by
  induction letters generalizing offset with
  | nil => rfl
  | cons letter others ih =>
    simp [word, ih, Nat.add_assoc, Nat.add_comm 1]

/-- A byte that an entry may begin with. -/
structure Begins (byte : UInt8) : Prop where
  visible : isBlank byte = false
  noClosing (frame : Frame) : byte ≠ frame.closing

/-- A byte that a scalar may begin with. -/
structure Leads (byte : UInt8) : Prop extends Begins byte where
  noOpening (frame : Frame) : byte ≠ frame.opening

theorem leads_of_isDigit {byte : UInt8} (digit : isDigit byte = true) : Leads byte where
  visible := by
    simp [isBlank, ne_of_isDigit digit 0x20 rfl, ne_of_isDigit digit 0x0A rfl, ne_of_isDigit digit 0x09 rfl,
      ne_of_isDigit digit 0x0D rfl]
  noClosing frame := by cases frame <;> exact ne_of_isDigit digit _ rfl
  noOpening frame := by cases frame <;> exact ne_of_isDigit digit _ rfl

theorem leads_of_mem {byte : UInt8} (member : byte ∈ ([0x6E, 0x74, 0x66, 0x2D, 0x22] : Bytes)) :
    Leads byte := by
  simp only [List.mem_cons, List.not_mem_nil, or_false] at member
  rcases member with rfl | rfl | rfl | rfl | rfl
  all_goals exact ⟨⟨rfl, fun frame => by cases frame <;> decide⟩, fun frame => by cases frame <;> decide⟩

theorem magnitude_head {number : Bytes} (magnitude : Magnitude number) :
    ∃ byte tail, number = byte :: tail ∧ isDigit byte = true := by
  obtain ⟨front, point, power⟩ := magnitude
  cases front with
  | zero => exact ⟨_, _, rfl, rfl⟩
  | digits nonzero digit run => exact ⟨_, _, rfl, digit⟩

theorem skipScalar_digit {byte : UInt8} (digit : isDigit byte = true) (cursor : Cursor) :
    skipScalar byte cursor = skipNumber cursor := by
  simp [skipScalar, digit, ne_of_isDigit digit 0x6E rfl, ne_of_isDigit digit 0x74 rfl,
    ne_of_isDigit digit 0x66 rfl, ne_of_isDigit digit 0x2D rfl]

/-- A scalar is skipped as what its first byte says it is. -/
theorem skipScalar_scalar (scalar : Scalar text) (ends : Ends rest) : ∃ byte tail, text = byte :: tail ∧
    Leads byte ∧ ∀ offset, Leaves (skipScalar byte ⟨offset, byte :: (tail ++ rest)⟩) rest := by
  cases scalar with
  | word known =>
    simp only [words, List.mem_cons, List.not_mem_nil, or_false] at known
    rcases known with rfl | rfl | rfl
    all_goals exact ⟨_, _, rfl, leads_of_mem (by decide), fun offset => ⟨_, word_letters ..⟩⟩
  | positive magnitude =>
    obtain ⟨byte, tail, rfl, digit⟩ := magnitude_head magnitude
    refine ⟨byte, tail, rfl, leads_of_isDigit digit, fun offset => ?_⟩
    rw [skipScalar_digit digit]
    exact skipNumber_magnitude magnitude ends offset
  | negative magnitude =>
    exact ⟨_, _, rfl, leads_of_mem (by decide), fun offset =>
      skipNumber_magnitude magnitude ends (offset + 1)⟩
  | string literal =>
    refine ⟨_, _, rfl, leads_of_mem (by decide), fun offset => ?_⟩
    have skipped := skipString_literal literal rest (offset + 1)
    rw [List.append_assoc]
    exact skipped

/-! ### Steps -/

variable {steps : Nat} {frame : Frame} {frames : List Frame} {byte : UInt8}

/-- What is behind an opening bracket or a comma: in a map a key, and then a value. -/
def enter (steps : Nat) (frame : Frame) (frames : List Frame) (cursor : Cursor) : Except Fault Cursor := do
  skipOpen steps .value (frame :: frames) (← skipKey frame cursor)

theorem skipOpen_scalar (blanks : Blanks gap) (leads : Leads byte) (tail : Bytes) :
    skipOpen (steps + 1) .value frames ⟨offset, gap ++ byte :: tail⟩ =
      skipScalar byte ⟨offset + gap.length, byte :: tail⟩ >>= skipOpen steps .element frames := by
  have list : byte ≠ 0x5B := leads.noOpening .list
  have map : byte ≠ 0x7B := leads.noOpening .map
  simp only [skipOpen, skipBlanks_gap blanks leads.visible, list, map, if_false]

theorem skipOpen_opening (blanks : Blanks gap) (frame : Frame) :
    skipOpen (steps + 1) .value frames ⟨offset, gap ++ frame.opening :: rest⟩ =
      skipOpen steps .opened (frame :: frames) ⟨offset + gap.length + 1, rest⟩ := by
  have visible : isBlank frame.opening = false := by cases frame <;> rfl
  rw [skipOpen]
  simp only [skipBlanks_gap blanks visible]
  cases frame <;> rfl

theorem skipOpen_closing (blanks : Blanks gap) {phase : Phase} (later : phase ≠ .value) :
    skipOpen (steps + 1) phase (frame :: frames) ⟨offset, gap ++ frame.closing :: rest⟩ =
      skipOpen steps .element frames ⟨offset + gap.length + 1, rest⟩ := by
  have visible : isBlank frame.closing = false := by cases frame <;> rfl
  cases phase with
  | value => exact absurd rfl later
  | opened => simp only [skipOpen, skipBlanks_gap blanks visible, if_true]
  | element => simp only [skipOpen, skipBlanks_gap blanks visible, if_true]

theorem skipOpen_first (blanks : Blanks gap) (begins : Begins byte) (tail : Bytes) :
    skipOpen (steps + 1) .opened (frame :: frames) ⟨offset, gap ++ byte :: tail⟩ =
      enter steps frame frames ⟨offset + gap.length, byte :: tail⟩ := by
  simp only [skipOpen, skipBlanks_gap blanks begins.visible, begins.noClosing frame, if_false, enter]

theorem skipOpen_comma (blanks : Blanks gap) :
    skipOpen (steps + 1) .element (frame :: frames) ⟨offset, gap ++ 0x2C :: rest⟩ =
      enter steps frame frames ⟨offset + gap.length + 1, rest⟩ := by
  have inside : 0x2C ≠ frame.closing := by cases frame <;> decide
  have visible : isBlank 0x2C = false := rfl
  simp only [skipOpen, skipBlanks_gap blanks visible, inside, if_false, if_true, enter]

/-- In front of a value nothing but blanks is left. -/
theorem skipKey_lead {lead : Bytes} (front : Lead frame lead) (blanks : Blanks gap) (rest : Bytes)
    (offset : Nat) : ∃ behind, Blanks behind ∧
      Leaves (skipKey frame ⟨offset, gap ++ (lead ++ rest)⟩) (behind ++ rest) := by
  cases front with
  | item => exact ⟨gap, blanks, offset, rfl⟩
  | @member key before after name gapBefore gapAfter =>
    refine ⟨after, gapAfter, ?_⟩
    obtain ⟨last, skipped⟩ :=
      skipString_literal name (before ++ 0x3A :: (after ++ rest)) (offset + gap.length + 1)
    have quote : isBlank 0x22 = false := rfl
    have colon : isBlank 0x3A = false := rfl
    refine ⟨last + before.length + 1, ?_⟩
    simp only [List.cons_append, List.append_assoc]
    simp only [skipKey, skipBlanks_gap blanks quote, skipped, skipBlanks_gap gapBefore colon, ne_eq,
      not_true, if_false, bind, Except.bind, pure, Except.pure]

/-! ### Whole values -/

theorem ends_closing (frame : Frame) (rest : Bytes) : Ends (frame.closing :: rest) := by
  intro byte member
  obtain rfl : frame.closing = byte := Option.some.inj member
  cases frame <;> exact ⟨rfl, by decide⟩

theorem ends_comma (rest : Bytes) : Ends (0x2C :: rest) := by
  intro byte member
  obtain rfl : 0x2C = byte := Option.some.inj member
  exact ⟨rfl, by decide⟩

theorem ends_gap (blanks : Blanks gap) (ends : Ends rest) : Ends (gap ++ rest) := by
  cases gap with
  | nil => exact ends
  | cons blank gap =>
    intro byte member
    obtain rfl : blank = byte := Option.some.inj member
    rcases blanks blank List.mem_cons_self with rfl | rfl | rfl | rfl <;> exact ⟨rfl, by decide⟩

theorem written_begins {part : Part} (written : Written part text) :
    ∃ byte tail, text = byte :: tail ∧ Begins byte := by
  have quote : Leads 0x22 := leads_of_mem (by decide)
  induction written with
  | scalar scalar =>
    obtain ⟨byte, tail, same, leads, -⟩ := skipScalar_scalar scalar (ends_comma [])
    exact ⟨byte, tail, same, leads.toBegins⟩
  | empty frame | @full frame =>
    refine ⟨_, _, rfl, ?_, fun closing => ?_⟩
    · cases frame <;> rfl
    · cases frame <;> cases closing <;> decide
  | last front _ _ ih | more front _ _ _ _ ih =>
    obtain ⟨byte, tail, rfl, begins⟩ := ih
    cases front with
    | item => exact ⟨_, _, rfl, begins⟩
    | member => exact ⟨_, _, rfl, quote.toBegins⟩

/-- From `start`, a skip comes to stand behind a complete element, in front of `rest`. -/
def Reaches (cost : Nat) (start : Nat → Except Fault Cursor) (frames : List Frame) (rest : Bytes) : Prop :=
  ∃ used last, used ≤ cost ∧ ∀ steps, start (steps + used) = skipOpen steps .element frames ⟨last, rest⟩

namespace Reaches

variable {cost more : Nat} {start : Nat → Except Fault Cursor} {frame : Frame} {frames : List Frame}

theorem mono (reaches : Reaches cost start frames rest) (fewer : cost ≤ more) :
    Reaches more start frames rest := by
  obtain ⟨used, last, few, skipped⟩ := reaches
  exact ⟨used, last, Nat.le_trans few fewer, skipped⟩

theorem close (reaches : Reaches cost start (frame :: frames) (gap ++ frame.closing :: rest))
    (blanks : Blanks gap) : Reaches (cost + 1) start frames rest := by
  obtain ⟨used, last, few, skipped⟩ := reaches
  refine ⟨used + 1, last + gap.length + 1, Nat.succ_le_succ few, fun steps => ?_⟩
  calc start (steps + (used + 1))
    _ = start (steps + 1 + used) := congrArg start (by omega)
    _ = skipOpen (steps + 1) .element (frame :: frames) ⟨last, gap ++ frame.closing :: rest⟩ := skipped _
    _ = skipOpen steps .element frames ⟨last + gap.length + 1, rest⟩ := skipOpen_closing blanks (by decide)

theorem comma (reaches : Reaches cost start (frame :: frames) (gap ++ 0x2C :: text)) (blanks : Blanks gap)
    (behind : ∀ offset, Reaches more (fun steps => enter steps frame frames ⟨offset, text⟩) frames rest) :
    Reaches (cost + 1 + more) start frames rest := by
  obtain ⟨used, middle, few, skipped⟩ := reaches
  obtain ⟨further, last, least, entered⟩ := behind (middle + gap.length + 1)
  refine ⟨used + 1 + further, last, Nat.add_le_add (Nat.succ_le_succ few) least, fun steps => ?_⟩
  calc start (steps + (used + 1 + further))
    _ = start (steps + further + 1 + used) := congrArg start (by omega)
    _ = skipOpen (steps + further + 1) .element (frame :: frames) ⟨middle, gap ++ 0x2C :: text⟩ := skipped _
    _ = enter (steps + further) frame frames ⟨middle + gap.length + 1, text⟩ := skipOpen_comma blanks
    _ = skipOpen steps .element frames ⟨last, rest⟩ := entered steps

end Reaches

end Cursor

/-- What it is to skip a value, or the entries behind a bracket: all of it is taken and no more. -/
def Part.Skipped (text : Bytes) : Part → Prop
  | .value => ∀ gap rest frames offset, Blanks gap → Ends rest → Cursor.Reaches (2 * text.length)
      (fun steps => Cursor.skipOpen steps .value frames ⟨offset, gap ++ (text ++ rest)⟩) frames rest
  | .entries frame => ∀ gap rest frames offset, Blanks gap → Cursor.Reaches (2 * text.length)
      (fun steps => Cursor.enter steps frame frames ⟨offset, gap ++ (text ++ rest)⟩) frames rest

namespace Cursor

variable {gap rest text : Bytes}

/-- An entry is skipped up to what closes the value around it, or parts it from the next entry. -/
theorem reaches_entry {frame : Frame} {lead : Bytes} (front : Lead frame lead)
    (value : Part.value.Skipped text) (blanks : Blanks gap) (ends : Ends rest) (offset : Nat)
    (frames : List Frame) : Reaches (2 * text.length)
      (fun steps => enter steps frame frames ⟨offset, gap ++ (lead ++ (text ++ rest))⟩)
      (frame :: frames) rest := by
  obtain ⟨behind, blank, middle, key⟩ := skipKey_lead front blanks (text ++ rest) offset
  obtain ⟨used, last, few, skipped⟩ := value behind rest (frame :: frames) middle blank ends
  refine ⟨used, last, few, fun steps => ?_⟩
  simp only [enter, key, ok_bind]
  exact skipped steps

/-- Everything written is skipped. -/
theorem skipped_written {part : Part} (written : Written part text) : part.Skipped text := by
  induction written with
  | scalar scalar =>
    intro gap rest frames offset blanks ends
    obtain ⟨byte, tail, rfl, leads, skips⟩ := skipScalar_scalar scalar ends
    obtain ⟨last, skipped⟩ := skips (offset + gap.length)
    refine ⟨1, last, by rw [List.length_cons]; omega, fun steps => ?_⟩
    simp only [List.cons_append]
    rw [skipOpen_scalar blanks leads, skipped, ok_bind]
  | @empty inner frame blank =>
    intro gap rest frames offset blanks ends
    refine ⟨2, offset + gap.length + 1 + inner.length + 1, by rw [List.length_cons]; omega, fun steps => ?_⟩
    simp only [List.cons_append, List.append_assoc, List.nil_append]
    rw [skipOpen_opening blanks, skipOpen_closing blank (by decide)]
  | @full frame inner entries blank written ih =>
    intro gap rest frames offset blanks ends
    obtain ⟨byte, tail, rfl, begins⟩ := written_begins written
    obtain ⟨used, last, few, skipped⟩ := ih [] rest frames (offset + gap.length + 1 + inner.length)
      (List.forall_mem_nil _)
    refine ⟨used + 2, last, ?_, fun steps => ?_⟩
    · simp only [List.length_cons, List.length_append] at few ⊢
      omega
    · simp only [List.cons_append, List.append_assoc]
      rw [← Nat.add_assoc, skipOpen_opening blanks, skipOpen_first blank begins]
      exact skipped steps
  | @last frame lead text inner front value blank ih =>
    intro gap rest frames offset blanks
    have entry := reaches_entry front ih blanks (ends_gap blank (ends_closing frame rest)) offset frames
    simp only [List.append_assoc, List.singleton_append]
    refine (entry.close blank).mono ?_
    simp only [List.length_append, List.length_singleton]
    omega
  | @more frame lead text before after others front value gapBefore gapAfter behind ih ihBehind =>
    intro gap rest frames offset blanks
    have entry := reaches_entry front ih blanks
      (ends_gap gapBefore (ends_comma (after ++ (others ++ rest)))) offset frames
    have further := fun offset => ihBehind after rest frames offset gapAfter
    simp only [List.append_assoc, List.cons_append]
    refine (entry.comma gapBefore further).mono ?_
    simp only [List.length_append, List.length_cons]
    omega

/-- A value that nobody reads is taken to its end, and nothing else is. -/
theorem skipValue_written (written : Written .value text) (blanks : Blanks gap) (ends : Ends rest)
    (offset : Nat) : Leaves (skipValue ⟨offset, gap ++ (text ++ rest)⟩) rest := by
  obtain ⟨used, last, few, skipped⟩ := skipped_written written gap rest [] offset blanks ends
  have room : 1 + used ≤ 2 * (gap ++ (text ++ rest)).length + 2 := by
    simp only [List.length_append]
    omega
  obtain ⟨steps, enough⟩ := Nat.exists_eq_add_of_le' room
  refine ⟨last, ?_⟩
  rw [skipValue, enough, ← Nat.add_assoc]
  exact skipped (steps + 1)

end Cursor

end SourceIndex.Json
