import SourceIndex.Text.Utf8

/-! Decoding and encoding are inverse to each other. Decoding cuts bytes into pieces and
loses none of them, ill-formed runs included (`decode_bytes`); encoded text comes back
as its scalar values whatever stands behind it (`decode_encode_append`). So bytes are
text exactly when they are the encoding of that text (`text?_eq_some_iff`). -/
namespace SourceIndex.Utf8

/-- The bytes that a piece was cut out of. -/
def Piece.bytes : Piece → Bytes
  | .scalar char => encodeChar char
  | .broken bytes => bytes

theorem toNat_ofNat {n : Nat} (valid : n.isValidChar) : (Char.ofNat n).toNat = n := by
  rw [Char.ofNat, dif_pos valid]
  rfl

theorem tail_range {byte : UInt8} : isTail byte = true ↔ 0x80 ≤ byte.toNat ∧ byte.toNat ≤ 0xBF := by
  simp [isTail, UInt8.le_iff_toNat_le]

/-- The table of well-formed sequences read as ranges of the first two bytes, by the
number of bytes that follow them. -/
def Opens (a b : UInt8) : (further : Nat) → Prop
  | 0 => 0xC2 ≤ a.toNat ∧ a.toNat ≤ 0xDF ∧ 0x80 ≤ b.toNat ∧ b.toNat ≤ 0xBF
  | 1 => 0xE0 ≤ a.toNat ∧ a.toNat ≤ 0xEF ∧ 0x80 ≤ b.toNat ∧ b.toNat ≤ 0xBF ∧
    (a.toNat = 0xE0 → 0xA0 ≤ b.toNat) ∧ (a.toNat = 0xED → b.toNat ≤ 0x9F)
  | 2 => 0xF0 ≤ a.toNat ∧ a.toNat ≤ 0xF4 ∧ 0x80 ≤ b.toNat ∧ b.toNat ≤ 0xBF ∧
    (a.toNat = 0xF0 → 0x90 ≤ b.toNat) ∧ (a.toNat = 0xF4 → b.toNat ≤ 0x8F)
  | _ => False

theorem opens_of_lead {a b : UInt8} {lead : Lead} (found : lead? a = some lead)
    (fits : lead.admits b = true) : Opens a b lead.further := by
  simp only [Lead.admits, Bool.and_eq_true, decide_eq_true_eq, UInt8.le_iff_toNat_le] at fits
  simp only [lead?, UInt8.lt_iff_toNat_lt, UInt8.le_iff_toNat_le, ← UInt8.toNat_inj,
    UInt8.reduceToNat] at found
  repeat' split at found
  all_goals
    cases found <;> simp only [UInt8.reduceToNat] at fits <;> simp only [Opens] <;> omega

theorem lead_of_opens {a b : UInt8} {further : Nat} (opens : Opens a b further) :
    ∃ lead, lead? a = some lead ∧ lead.admits b = true ∧ lead.further = further := by
  simp only [lead?, Lead.admits, Bool.and_eq_true, decide_eq_true_eq, UInt8.lt_iff_toNat_lt,
    UInt8.le_iff_toNat_le, ← UInt8.toNat_inj, UInt8.reduceToNat]
  match further with
  | 0 | 1 | 2 =>
    simp only [Opens] at opens
    repeat' split
    all_goals first
      | omega
      | exact ⟨_, rfl, by simp only [UInt8.reduceToNat]; omega, rfl⟩

theorem encode_scalar₂ {a b : UInt8} (opens : Opens a b 0) :
    encodeChar (scalar₂ a b) = [a, b] := by
  simp only [Opens] at opens
  have value : (scalar₂ a b).toNat = a.toNat % 32 * 64 + b.toNat % 64 :=
    toNat_ofNat (Or.inl (by omega))
  rw [encodeChar]
  simp only [value]
  rw [if_neg (by omega), if_pos (by omega)]
  simp only [List.cons.injEq, ← UInt8.toNat_inj, UInt8.toNat_ofNat', and_true]
  omega

theorem encode_scalar₃ {a b c : UInt8} (opens : Opens a b 1)
    (third : 0x80 ≤ c.toNat ∧ c.toNat ≤ 0xBF) : encodeChar (scalar₃ a b c) = [a, b, c] := by
  simp only [Opens] at opens
  have value : (scalar₃ a b c).toNat =
      a.toNat % 16 * 4096 + b.toNat % 64 * 64 + c.toNat % 64 :=
    toNat_ofNat (by simp only [Nat.isValidChar]; omega)
  rw [encodeChar]
  simp only [value]
  rw [if_neg (by omega), if_neg (by omega), if_pos (by omega)]
  simp only [List.cons.injEq, ← UInt8.toNat_inj, UInt8.toNat_ofNat', and_true]
  omega

theorem encode_scalar₄ {a b c d : UInt8} (opens : Opens a b 2)
    (third : 0x80 ≤ c.toNat ∧ c.toNat ≤ 0xBF) (fourth : 0x80 ≤ d.toNat ∧ d.toNat ≤ 0xBF) :
    encodeChar (scalar₄ a b c d) = [a, b, c, d] := by
  simp only [Opens] at opens
  have value : (scalar₄ a b c d).toNat = a.toNat % 8 * 262144 + b.toNat % 64 * 4096 +
      c.toNat % 64 * 64 + d.toNat % 64 :=
    toNat_ofNat (by simp only [Nat.isValidChar]; omega)
  rw [encodeChar]
  simp only [value]
  rw [if_neg (by omega), if_neg (by omega), if_neg (by omega)]
  simp only [List.cons.injEq, ← UInt8.toNat_inj, UInt8.toNat_ofNat', and_true]
  omega

/-- A piece holds exactly the bytes that decoding takes for it. -/
theorem first_bytes (a : UInt8) (rest : Bytes) :
    (first a rest).1.bytes = a :: rest.take (first a rest).2 := by
  fun_cases first a rest with
  | case1 rest ascii =>
    have small : a.toNat < 0x80 := UInt8.lt_iff_toNat_lt.mp ascii
    have value : (Char.ofNat a.toNat).toNat = a.toNat := toNat_ofNat (Or.inl (by omega))
    simp [Piece.bytes, encodeChar, value, small]
  | case4 ascii lead found b rest fits last =>
    have opens := last ▸ opens_of_lead found fits
    simp [Piece.bytes, encode_scalar₂ opens]
  | case6 ascii lead found b fits c tail rest last =>
    have opens := last ▸ opens_of_lead found fits
    simp [Piece.bytes, encode_scalar₃ opens (tail_range.mp tail)]
  | case8 ascii lead found b fits c tail further d rest final last =>
    have opens := opens_of_lead found fits
    rw [last] at opens
    cases further with
    | zero => simp [Piece.bytes, encode_scalar₄ opens (tail_range.mp tail) (tail_range.mp final)]
    | succ => exact opens.elim
  | _ => simp [Piece.bytes]

theorem decodeAfter_bytes (skip : Nat) (bytes : Bytes) :
    (decodeAfter skip bytes).flatMap Piece.bytes = bytes.drop skip := by
  induction bytes generalizing skip with
  | nil => simp [decodeAfter]
  | cons a rest ih =>
    cases skip with
    | zero => simp [decodeAfter, ih, first_bytes]
    | succ skip => simp [decodeAfter, ih]

/-- Decoding loses nothing: the pieces concatenate to what was decoded. -/
theorem decode_bytes (bytes : Bytes) : (decode bytes).flatMap Piece.bytes = bytes :=
  decodeAfter_bytes 0 bytes

/-- A character that decoding finds stands in the bytes as it is written. -/
theorem infix_of_scalar_mem {bytes : Bytes} {char : Char} (decoded : .scalar char ∈ decode bytes) :
    encodeChar char <:+: bytes := by
  obtain ⟨before, after, row⟩ := List.append_of_mem decoded
  refine ⟨before.flatMap Piece.bytes, after.flatMap Piece.bytes, ?_⟩
  have whole := decode_bytes bytes
  rw [row] at whole
  simpa [Piece.bytes] using whole

/-- The second byte of a sequence is a tail byte. -/
theorem isTail_of_opens {a b : UInt8} {further : Nat} (opens : Opens a b further) : isTail b = true := by
  unfold Opens at opens
  split at opens
  · exact tail_range.mpr opens.2.2
  · exact tail_range.mpr ⟨opens.2.2.1, opens.2.2.2.1⟩
  · exact tail_range.mpr ⟨opens.2.2.1, opens.2.2.2.1⟩
  · exact opens.elim

/-- An ill-formed run is a byte outside ASCII with tail bytes behind it. -/
theorem first_broken {a : UInt8} {rest run : Bytes} (broken : (first a rest).1 = .broken run) :
    ∃ tails, run = a :: tails ∧ 0x80 ≤ a.toNat ∧ ∀ byte ∈ tails, isTail byte = true := by
  have high : ∀ {a : UInt8}, ¬ a < 0x80 → 0x80 ≤ a.toNat := by
    intro a large
    simpa [UInt8.lt_iff_toNat_lt] using large
  have second : ∀ {a b : UInt8} {lead}, lead? a = some lead → lead.admits b = true → isTail b = true :=
    fun found fits => isTail_of_opens (opens_of_lead found fits)
  revert broken
  fun_cases first a rest with
  | case1 | case4 | case6 | case8 => intro broken; cases broken
  | case2 rest large | case3 large | case11 large =>
    rintro ⟨⟩
    exact ⟨[], rfl, high large, nofun⟩
  | case5 large lead found b fits | case10 large lead found b fits =>
    rintro ⟨⟩
    exact ⟨[b], rfl, high large, by simpa using second found fits⟩
  | case7 large lead found b fits c tail | case9 large lead found b fits c tail =>
    rintro ⟨⟩
    exact ⟨[b, c], rfl, high large, by simpa using ⟨second found fits, tail⟩⟩

private theorem mem_decodeAfter {piece : Piece} {skip : Nat} {bytes : Bytes}
    (member : piece ∈ decodeAfter skip bytes) : ∃ a rest, (first a rest).1 = piece := by
  induction bytes generalizing skip with
  | nil => simp [decodeAfter] at member
  | cons a rest ih =>
    cases skip with
    | zero =>
      rcases List.mem_cons.mp member with here | later
      · exact ⟨a, rest, here.symm⟩
      · exact ih later
    | succ skip => exact ih member

/-- Only bytes outside ASCII can be ill-formed. -/
theorem broken_high {bytes run : Bytes} (member : .broken run ∈ decode bytes) :
    ∀ byte ∈ run, (0x80 : UInt8) ≤ byte := by
  obtain ⟨a, rest, broken⟩ := mem_decodeAfter member
  obtain ⟨tails, rfl, high, continued⟩ := first_broken broken
  intro byte held
  rw [UInt8.le_iff_toNat_le]
  rcases List.mem_cons.mp held with rfl | later
  · exact high
  · exact (tail_range.mp (continued byte later)).1

private theorem not_ascii {a b : UInt8} {further : Nat} (opens : Opens a b further) : ¬ a < 0x80 := by
  simp only [UInt8.lt_iff_toNat_lt, UInt8.reduceToNat]
  match further with
  | 0 | 1 | 2 => simp only [Opens] at opens; omega

theorem decode_two {a b : UInt8} (opens : Opens a b 0) (rest : Bytes) :
    decode (a :: b :: rest) = .scalar (scalar₂ a b) :: decode rest := by
  obtain ⟨lead, found, fits, last⟩ := lead_of_opens opens
  simp [decode_cons, first, not_ascii opens, found, fits, last]

theorem decode_three {a b c : UInt8} (opens : Opens a b 1) (third : isTail c = true) (rest : Bytes) :
    decode (a :: b :: c :: rest) = .scalar (scalar₃ a b c) :: decode rest := by
  obtain ⟨lead, found, fits, last⟩ := lead_of_opens opens
  simp [decode_cons, first, not_ascii opens, found, fits, last, third]

theorem decode_four {a b c d : UInt8} (opens : Opens a b 2) (third : isTail c = true)
    (fourth : isTail d = true) (rest : Bytes) :
    decode (a :: b :: c :: d :: rest) = .scalar (scalar₄ a b c d) :: decode rest := by
  obtain ⟨lead, found, fits, last⟩ := lead_of_opens opens
  simp [decode_cons, first, not_ascii opens, found, fits, last, third, fourth]

private theorem toNat_byte {n : Nat} (small : n < 256) : (UInt8.ofNat n).toNat = n :=
  UInt8.toNat_ofNat_of_lt' small

/-- The encoding of a scalar value is read back as one piece, whatever follows it. -/
theorem decode_encodeChar (char : Char) (rest : Bytes) :
    decode (encodeChar char ++ rest) = .scalar char :: decode rest := by
  have valid : char.toNat < 0xD800 ∨ 0xDFFF < char.toNat ∧ char.toNat < 0x110000 := char.valid
  have same : Char.ofNat char.toNat = char := Char.ofNat_toNat char
  unfold encodeChar
  generalize char.toNat = n at valid same
  subst same
  dsimp only
  split
  · have ascii : UInt8.ofNat n < 0x80 := by
      simp only [UInt8.lt_iff_toNat_lt, UInt8.reduceToNat, toNat_byte (n := n) (by omega)]
      assumption
    rw [List.singleton_append, decode_cons, first, if_pos ascii, toNat_byte (by omega)]
    rfl
  split
  · have a := toNat_byte (n := 0xC0 + n / 64) (by omega)
    have b := toNat_byte (n := 0x80 + n % 64) (by omega)
    have opens : Opens (.ofNat (0xC0 + n / 64)) (.ofNat (0x80 + n % 64)) 0 := by
      simp only [Opens, a, b]
      omega
    have value : (0xC0 + n / 64) % 32 * 64 + (0x80 + n % 64) % 64 = n := by omega
    rw [List.cons_append, List.singleton_append, decode_two opens, scalar₂, a, b, value]
  split
  · have a := toNat_byte (n := 0xE0 + n / 4096) (by omega)
    have b := toNat_byte (n := 0x80 + n / 64 % 64) (by omega)
    have c := toNat_byte (n := 0x80 + n % 64) (by omega)
    have opens : Opens (.ofNat (0xE0 + n / 4096)) (.ofNat (0x80 + n / 64 % 64)) 1 := by
      simp only [Opens, a, b]
      omega
    have third : isTail (.ofNat (0x80 + n % 64)) = true := tail_range.mpr (by omega)
    have value : (0xE0 + n / 4096) % 16 * 4096 + (0x80 + n / 64 % 64) % 64 * 64 +
        (0x80 + n % 64) % 64 = n := by omega
    rw [List.cons_append, List.cons_append, List.singleton_append, decode_three opens third, scalar₃,
      a, b, c, value]
  · have a := toNat_byte (n := 0xF0 + n / 262144) (by omega)
    have b := toNat_byte (n := 0x80 + n / 4096 % 64) (by omega)
    have c := toNat_byte (n := 0x80 + n / 64 % 64) (by omega)
    have d := toNat_byte (n := 0x80 + n % 64) (by omega)
    have opens : Opens (.ofNat (0xF0 + n / 262144)) (.ofNat (0x80 + n / 4096 % 64)) 2 := by
      simp only [Opens, a, b]
      omega
    have third : isTail (.ofNat (0x80 + n / 64 % 64)) = true := tail_range.mpr (by omega)
    have fourth : isTail (.ofNat (0x80 + n % 64)) = true := tail_range.mpr (by omega)
    have value : (0xF0 + n / 262144) % 8 * 262144 + (0x80 + n / 4096 % 64) % 64 * 4096 +
        (0x80 + n / 64 % 64) % 64 * 64 + (0x80 + n % 64) % 64 = n := by omega
    rw [List.cons_append, List.cons_append, List.cons_append, List.singleton_append,
      decode_four opens third fourth, scalar₄, a, b, c, d, value]

/-- Encoded text decodes to its scalar values, also in front of other bytes. -/
theorem decode_encode_append (text : Text) (rest : Bytes) :
    decode (encode text ++ rest) = text.map .scalar ++ decode rest := by
  induction text with
  | nil => rfl
  | cons char text ih =>
    rw [encode, List.flatMap_cons, List.append_assoc, decode_encodeChar, ← encode, ih]
    rfl

theorem decode_encode (text : Text) : decode (encode text) = text.map .scalar := by
  simpa [decode_nil] using decode_encode_append text []

theorem encode_injective {first second : Text} (same : encode first = encode second) :
    first = second := by
  have pieces := congrArg decode same
  rw [decode_encode, decode_encode] at pieces
  exact (List.map_inj_right fun _ _ => Piece.scalar.inj).mp pieces

private theorem mapM_scalar? {pieces : List Piece} {text : Text} :
    pieces.mapM Piece.scalar? = some text ↔ pieces = text.map .scalar := by
  induction pieces generalizing text with
  | nil => cases text <;> simp
  | cons piece pieces ih =>
    cases piece with
    | broken bytes => cases text <;> simp [List.mapM_cons, Piece.scalar?]
    | scalar char =>
      rw [List.mapM_cons]
      cases text with
      | nil => cases pieces.mapM Piece.scalar? <;> simp [Piece.scalar?]
      | cons head text =>
        rw [List.map_cons, List.cons.injEq, ← ih]
        cases pieces.mapM Piece.scalar? <;> simp [Piece.scalar?]

/-- Bytes are text exactly when they are the encoding of that text. -/
theorem text?_eq_some_iff {bytes : Bytes} {text : Text} :
    text? bytes = some text ↔ bytes = encode text := by
  rw [text?, mapM_scalar?]
  constructor
  · intro pieces
    rw [← decode_bytes bytes, pieces, List.flatMap_map]
    rfl
  · rintro rfl
    exact decode_encode text

end SourceIndex.Utf8
