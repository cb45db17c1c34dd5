import Blocxx.UTF8Utils.UTF8Utils

/-!
This file compares the code point codec with the standard encoding of Unicode characters.
-/

namespace Blocxx.UTF8Utils
open Library

section Bits

/-- Bits below a multiple of a power of two are added to it. -/
theorem or_toNat {high low : UInt32} {quotient remainder : Nat} (width : Nat)
    (isHigh : high.toNat = quotient * 2 ^ width) (isLow : low.toNat = remainder)
    (short : remainder < 2 ^ width) : (high ||| low).toNat = quotient * 2 ^ width + remainder := by
  rw [UInt32.toNat_or, isHigh, isLow, Nat.mul_comm, Nat.two_pow_add_eq_or_of_lt short]

theorem marked_toNat {marker payload : UInt32} {quotient remainder : Nat} (width : Nat)
    (isMarker : marker.toNat = quotient * 2 ^ width) (isPayload : payload.toNat = remainder)
    (short : remainder < 2 ^ width) (byte : quotient * 2 ^ width + remainder < 256) :
    (marked marker payload).toNat = remainder + quotient * 2 ^ width := by
  rw [marked, UInt32.toNat_toUInt8, or_toNat width isMarker isPayload short,
    Nat.mod_eq_of_lt byte, Nat.add_comm]

theorem shiftRight_toNat {value : UInt32} {count : UInt32} (inside : count.toNat < 32) :
    (value >>> count).toNat = value.toNat / 2 ^ count.toNat := by
  rw [UInt32.toNat_shiftRight, Nat.mod_eq_of_lt inside, Nat.shiftRight_eq_div_pow]

/-- A mask of low bits is a remainder. -/
theorem mask_toNat {value mask : UInt32} (width : Nat) (low : mask.toNat = 2 ^ width - 1) :
    (value &&& mask).toNat = value.toNat % 2 ^ width := by
  rw [UInt32.toNat_and, low, Nat.and_two_pow_sub_one_eq_mod]

theorem payload_toNat (byte : UInt8) {mask : UInt32} (width : Nat)
    (low : mask.toNat = 2 ^ width - 1) :
    (byte.toUInt32 &&& mask).toNat = byte.toNat % 2 ^ width := by
  rw [mask_toNat width low, UInt8.toNat_toUInt32]

/-- The payload of a byte that is shifted to its place. -/
theorem placed_toNat (byte : UInt8) {mask count : UInt32} (width : Nat)
    (low : mask.toNat = 2 ^ width - 1) (fits : width + count.toNat < 32) :
    ((byte.toUInt32 &&& mask) <<< count).toNat = byte.toNat % 2 ^ width * 2 ^ count.toNat := by
  have small : byte.toNat % 2 ^ width * 2 ^ count.toNat < 2 ^ 32 := by
    calc byte.toNat % 2 ^ width * 2 ^ count.toNat
        < 2 ^ width * 2 ^ count.toNat :=
          Nat.mul_lt_mul_of_pos_right (Nat.mod_lt _ (by positivity)) (by positivity)
      _ = 2 ^ (width + count.toNat) := (Nat.pow_add 2 width count.toNat).symm
      _ ≤ 2 ^ 32 := Nat.pow_le_pow_right (by decide) (by omega)
  have inside : count.toNat < 32 := by omega
  rw [UInt32.toNat_shiftLeft, payload_toNat byte width low, Nat.mod_eq_of_lt inside,
    Nat.shiftLeft_eq, Nat.mod_eq_of_lt small]

theorem tail_toNat (value : UInt32) :
    (marked 0x80 (value &&& 0x3f)).toNat = value.toNat % 64 + 0x80 := by
  have low : (value &&& 0x3f).toNat = value.toNat % 64 := mask_toNat 6 (by decide)
  have marker : (0x80 : UInt32).toNat = 2 * 2 ^ 6 := by decide
  exact marked_toNat 6 marker low (by omega) (by omega)

end Bits

/-- The bytes of the standard encoding, told by numbers. -/
inductive Encodes (value : Nat) : List UInt8 → Prop
  | one {b0 : UInt8} (first : b0.toNat = value) (range : value < 0x80) : Encodes value [b0]
  | two {b0 b1 : UInt8} (first : b0.toNat = value / 64 + 0xC0)
      (second : b1.toNat = value % 64 + 0x80) (range : 0x80 ≤ value ∧ value < 0x800) :
      Encodes value [b0, b1]
  | three {b0 b1 b2 : UInt8} (first : b0.toNat = value / 4096 + 0xE0)
      (second : b1.toNat = value / 64 % 64 + 0x80) (third : b2.toNat = value % 64 + 0x80)
      (range : 0x800 ≤ value ∧ value < 0x10000) : Encodes value [b0, b1, b2]
  | four {b0 b1 b2 b3 : UInt8} (first : b0.toNat = value / 262144 + 0xF0)
      (second : b1.toNat = value / 4096 % 64 + 0x80) (third : b2.toNat = value / 64 % 64 + 0x80)
      (fourth : b3.toNat = value % 64 + 0x80) (range : 0x10000 ≤ value ∧ value < 0x110000) :
      Encodes value [b0, b1, b2, b3]

/-- The code writes this encoding for every number of the Unicode range. -/
theorem ucs4ToUtf8_encodes {ucs4char : UInt32} (inRange : ucs4char.toNat < 0x110000) :
    Encodes ucs4char.toNat (ucs4ToUtf8 ucs4char) := by
  have six : (ucs4char >>> 6).toNat = ucs4char.toNat / 64 := shiftRight_toNat (by decide)
  have twelve : (ucs4char >>> 12).toNat = ucs4char.toNat / 4096 := shiftRight_toNat (by decide)
  have eighteen : (ucs4char >>> 18).toNat = ucs4char.toNat / 262144 := shiftRight_toNat (by decide)
  have lead2 : (0xc0 : UInt32).toNat = 3 * 2 ^ 6 := by decide
  have lead3 : (0xe0 : UInt32).toNat = 14 * 2 ^ 4 := by decide
  have lead4 : (0xf0 : UInt32).toNat = 30 * 2 ^ 3 := by decide
  have third := tail_toNat (ucs4char >>> 6)
  have second := tail_toNat (ucs4char >>> 12)
  rw [six] at third
  rw [twelve] at second
  simp only [ucs4ToUtf8, UInt32.lt_iff_toNat_lt, UInt32.reduceToNat]
  split
  · next range =>
      refine .one ?_ range
      rw [UInt32.toNat_toUInt8]
      omega
  · split
    · exact .two (marked_toNat 6 lead2 six (by omega) (by omega)) (tail_toNat ucs4char) (by omega)
    · split
      · exact .three (marked_toNat 4 lead3 twelve (by omega) (by omega)) third
          (tail_toNat ucs4char) (by omega)
      · exact .four (marked_toNat 3 lead4 eighteen (by omega) (by omega)) second third
          (tail_toNat ucs4char) (by omega)

theorem ofNat_toNat {value : Nat} (byte : value < 256) : (UInt8.ofNat value).toNat = value := by
  rw [UInt8.toNat_ofNat', Nat.mod_eq_of_lt byte]

/-- The value of a character is below the end of the last plane. -/
theorem val_lt (c : Char) : c.val.toNat < 0x110000 := by
  have valid := c.valid
  simp only [UInt32.isValidChar, Nat.isValidChar] at valid
  omega

theorem encodes (c : Char) : Encodes c.val.toNat (String.utf8EncodeChar c) := by
  have bound := val_lt c
  rw [String.utf8EncodeChar]
  split
  · exact .one (ofNat_toNat (by omega)) (by omega)
  · split
    · exact .two ((ofNat_toNat (by omega)).trans (by omega)) (ofNat_toNat (by omega)) (by omega)
    · split
      · exact .three ((ofNat_toNat (by omega)).trans (by omega)) (ofNat_toNat (by omega))
          (ofNat_toNat (by omega)) (by omega)
      · exact .four ((ofNat_toNat (by omega)).trans (by omega)) (ofNat_toNat (by omega))
          (ofNat_toNat (by omega)) (ofNat_toNat (by omega)) (by omega)

section Decode

variable {b0 b1 b2 b3 : UInt8} {rest : List UInt8}

@[simp] theorem readByte_zero : readByte (b0 :: rest) 0 = .ok b0 := by
  simp [readByte]

@[simp] theorem readByte_succ (index : Nat) :
    readByte (b0 :: rest) (index + 1) = readByte rest index := by
  simp [readByte]

/-- The table, told by ranges of the leading byte. -/
theorem sequenceLength_eq (c0 : UInt8) : sequenceLength c0 =
    if c0.toNat < 0x80 then 1 else if c0.toNat < 0xC2 then 0 else if c0.toNat < 0xE0 then 2
    else if c0.toNat < 0xF0 then 3 else if c0.toNat < 0xF5 then 4 else 0 := by
  have table : ∀ byte : Fin 256, sequenceLengthTable.getD byte.val 0 =
      if byte.val < 0x80 then 1 else if byte.val < 0xC2 then 0 else if byte.val < 0xE0 then 2
      else if byte.val < 0xF0 then 3 else if byte.val < 0xF5 then 4 else 0 := by
    decide +kernel
  exact table ⟨c0.toNat, c0.toNat_lt⟩

theorem lead_ne_zero {length : Nat} (lead : sequenceLength b0 = length) (long : 1 < length) :
    b0 ≠ 0 := by
  rintro rfl
  have one : sequenceLength 0 = 1 := by decide
  omega

theorem utf8ToUcs4_one (lead : sequenceLength b0 = 1) (notNul : b0 ≠ 0) :
    utf8ToUcs4 (b0 :: rest) = .ok b0.toUInt32 := by
  simp [utf8ToUcs4, lead, notNul, bind, Except.bind, pure, Except.pure]

theorem utf8ToUcs4_two (lead : sequenceLength b0 = 2) (some1 : b1 ≠ 0) :
    ∃ c, utf8ToUcs4 (b0 :: b1 :: rest) = .ok c ∧
      c.toNat = b0.toNat % 32 * 64 + b1.toNat % 64 := by
  have notNul := lead_ne_zero lead (by decide)
  refine ⟨((b0.toUInt32 &&& 0x1f) <<< 6) ||| (b1.toUInt32 &&& 0x3f), ?_, ?_⟩
  · simp [utf8ToUcs4, lead, notNul, some1, bind, Except.bind, pure, Except.pure]
  · have high : ((b0.toUInt32 &&& 0x1f) <<< 6).toNat = b0.toNat % 32 * 64 :=
      placed_toNat b0 5 (by decide) (by decide)
    have low : (b1.toUInt32 &&& 0x3f).toNat = b1.toNat % 64 := payload_toNat b1 6 (by decide)
    exact or_toNat 6 high low (by omega)

theorem utf8ToUcs4_three (lead : sequenceLength b0 = 3) (some1 : b1 ≠ 0) (some2 : b2 ≠ 0) :
    ∃ c, utf8ToUcs4 (b0 :: b1 :: b2 :: rest) = .ok c ∧
      c.toNat = (b0.toNat % 16 * 64 + b1.toNat % 64) * 64 + b2.toNat % 64 := by
  have notNul := lead_ne_zero lead (by decide)
  refine ⟨((b0.toUInt32 &&& 0x0f) <<< 12) ||| ((b1.toUInt32 &&& 0x3f) <<< 6) |||
    (b2.toUInt32 &&& 0x3f), ?_, ?_⟩
  · simp [utf8ToUcs4, lead, notNul, some1, some2, bind, Except.bind, pure, Except.pure]
  · have high : ((b0.toUInt32 &&& 0x0f) <<< 12).toNat = b0.toNat % 16 * 4096 :=
      placed_toNat b0 4 (by decide) (by decide)
    have middle : ((b1.toUInt32 &&& 0x3f) <<< 6).toNat = b1.toNat % 64 * 64 :=
      placed_toNat b1 6 (by decide) (by decide)
    have low : (b2.toUInt32 &&& 0x3f).toNat = b2.toNat % 64 := payload_toNat b2 6 (by decide)
    have upper : ((b0.toUInt32 &&& 0x0f) <<< 12 ||| (b1.toUInt32 &&& 0x3f) <<< 6).toNat =
        (b0.toNat % 16 * 64 + b1.toNat % 64) * 64 := by
      rw [or_toNat 12 high middle (by omega)]
      omega
    exact or_toNat 6 upper low (by omega)

/-- The mask of the leading byte of four drops its third payload bit. -/
theorem utf8ToUcs4_four (lead : sequenceLength b0 = 4) (some1 : b1 ≠ 0) (some2 : b2 ≠ 0)
    (some3 : b3 ≠ 0) :
    ∃ c, utf8ToUcs4 (b0 :: b1 :: b2 :: b3 :: rest) = .ok c ∧ c.toNat =
      ((b0.toNat % 4 * 64 + b1.toNat % 64) * 64 + b2.toNat % 64) * 64 + b3.toNat % 64 := by
  have notNul := lead_ne_zero lead (by decide)
  refine ⟨((b0.toUInt32 &&& 0x03) <<< 18) ||| ((b1.toUInt32 &&& 0x3f) <<< 12) |||
    ((b2.toUInt32 &&& 0x3f) <<< 6) ||| (b3.toUInt32 &&& 0x3f), ?_, ?_⟩
  · simp [utf8ToUcs4, lead, notNul, some1, some2, some3, bind, Except.bind, pure, Except.pure]
  · have high : ((b0.toUInt32 &&& 0x03) <<< 18).toNat = b0.toNat % 4 * 262144 :=
      placed_toNat b0 2 (by decide) (by decide)
    have upper : ((b1.toUInt32 &&& 0x3f) <<< 12).toNat = b1.toNat % 64 * 4096 :=
      placed_toNat b1 6 (by decide) (by decide)
    have middle : ((b2.toUInt32 &&& 0x3f) <<< 6).toNat = b2.toNat % 64 * 64 :=
      placed_toNat b2 6 (by decide) (by decide)
    have low : (b3.toUInt32 &&& 0x3f).toNat = b3.toNat % 64 := payload_toNat b3 6 (by decide)
    have two : ((b0.toUInt32 &&& 0x03) <<< 18 ||| (b1.toUInt32 &&& 0x3f) <<< 12).toNat =
        (b0.toNat % 4 * 64 + b1.toNat % 64) * 4096 := by
      rw [or_toNat 18 high upper (by omega)]
      omega
    have three : ((b0.toUInt32 &&& 0x03) <<< 18 ||| (b1.toUInt32 &&& 0x3f) <<< 12 |||
        (b2.toUInt32 &&& 0x3f) <<< 6).toNat =
          ((b0.toNat % 4 * 64 + b1.toNat % 64) * 64 + b2.toNat % 64) * 64 := by
      rw [or_toNat 12 two middle (by omega)]
      omega
    exact or_toNat 6 three low (by omega)

end Decode

section Encodes

variable {value : Nat} {bytes : List UInt8}

/-- A byte with its marker is not the terminator. -/
theorem tail_ne_zero {byte : UInt8} {low : Nat} (isTail : byte.toNat = low + 0x80) : byte ≠ 0 := by
  intro zero
  rw [zero, UInt8.toNat_zero] at isTail
  omega

/-- The table gives the length of every encoding. -/
theorem Encodes.length (encodes : Encodes value bytes) :
    ∃ lead, bytes.head? = some lead ∧ sequenceLength lead = bytes.length := by
  cases encodes with
  | @one b0 first range =>
      refine ⟨b0, rfl, ?_⟩
      rw [sequenceLength_eq, if_pos (by omega)]
      rfl
  | @two b0 b1 first second range =>
      refine ⟨b0, rfl, ?_⟩
      rw [sequenceLength_eq, if_neg (by omega), if_neg (by omega), if_pos (by omega)]
      rfl
  | @three b0 b1 b2 first second third range =>
      refine ⟨b0, rfl, ?_⟩
      rw [sequenceLength_eq, if_neg (by omega), if_neg (by omega), if_neg (by omega),
        if_pos (by omega)]
      rfl
  | @four b0 b1 b2 b3 first second third fourth range =>
      refine ⟨b0, rfl, ?_⟩
      rw [sequenceLength_eq, if_neg (by omega), if_neg (by omega), if_neg (by omega),
        if_neg (by omega), if_pos (by omega)]
      rfl

/-- The decoder reads an encoding back without the bit of the last plane. -/
theorem Encodes.decode (encodes : Encodes value bytes) (positive : 0 < value)
    (rest : List UInt8) :
    ∃ c, utf8ToUcs4 (bytes ++ rest) = .ok c ∧ c.toNat = value % 1048576 := by
  obtain ⟨lead, head, length⟩ := encodes.length
  cases encodes with
  | one first range =>
      obtain rfl := Option.some.inj head
      refine ⟨_, utf8ToUcs4_one length ?_, ?_⟩
      · intro zero
        rw [zero, UInt8.toNat_zero] at first
        omega
      · rw [UInt8.toNat_toUInt32]
        omega
  | two first second range =>
      obtain rfl := Option.some.inj head
      obtain ⟨c, decodes, same⟩ := utf8ToUcs4_two length (tail_ne_zero second)
      exact ⟨c, decodes, by omega⟩
  | three first second third range =>
      obtain rfl := Option.some.inj head
      obtain ⟨c, decodes, same⟩ :=
        utf8ToUcs4_three length (tail_ne_zero second) (tail_ne_zero third)
      exact ⟨c, decodes, by omega⟩
  | four first second third fourth range =>
      obtain rfl := Option.some.inj head
      obtain ⟨c, decodes, same⟩ := utf8ToUcs4_four length (tail_ne_zero second)
        (tail_ne_zero third) (tail_ne_zero fourth)
      exact ⟨c, decodes, by omega⟩

/-- The encoding of a positive number has no terminator. -/
theorem Encodes.free (encodes : Encodes value bytes) (positive : 0 < value) : 0 ∉ bytes := by
  have byte (b : UInt8) : 0 = b ↔ b.toNat = 0 := by
    rw [← UInt8.toNat_inj, UInt8.toNat_zero]
    exact eq_comm
  cases encodes with
  | one => simp only [List.mem_cons, List.not_mem_nil, or_false, byte]; omega
  | two => simp only [List.mem_cons, List.not_mem_nil, or_false, byte]; omega
  | three => simp only [List.mem_cons, List.not_mem_nil, or_false, byte]; omega
  | four => simp only [List.mem_cons, List.not_mem_nil, or_false, byte]; omega

/-- Only the characters of the last plane have the leading byte `0xF4`. -/
theorem Encodes.mem_lastLead (encodes : Encodes value bytes) :
    0xF4 ∈ bytes ↔ 0x100000 ≤ value := by
  have byte (b : UInt8) : 0xF4 = b ↔ b.toNat = 244 := by
    rw [← UInt8.toNat_inj]
    exact eq_comm
  cases encodes with
  | one => simp only [List.mem_cons, List.not_mem_nil, or_false, byte]; omega
  | two => simp only [List.mem_cons, List.not_mem_nil, or_false, byte]; omega
  | three => simp only [List.mem_cons, List.not_mem_nil, or_false, byte]; omega
  | four => simp only [List.mem_cons, List.not_mem_nil, or_false, byte]; omega

/-- A number has one encoding. -/
theorem Encodes.unique {other : List UInt8} (encodes : Encodes value bytes)
    (encodesToo : Encodes value other) : bytes = other := by
  have same {b c : UInt8} {number : Nat} (left : b.toNat = number) (right : c.toNat = number) :
      b = c := UInt8.toNat_inj.mp (left.trans right.symm)
  cases encodes with
  | one first range =>
      cases encodesToo with
      | one first' => rw [same first first']
      | two | three | four => omega
  | two first second range =>
      cases encodesToo with
      | two first' second' => rw [same first first', same second second']
      | one | three | four => omega
  | three first second third range =>
      cases encodesToo with
      | three first' second' third' =>
          rw [same first first', same second second', same third third']
      | one | two | four => omega
  | four first second third fourth range =>
      cases encodesToo with
      | four first' second' third' fourth' =>
          rw [same first first', same second second', same third third', same fourth fourth']
      | one | two | three => omega

end Encodes

/-- The code encodes every character like the standard. -/
theorem ucs4ToUtf8_eq (c : Char) : ucs4ToUtf8 c.val = String.utf8EncodeChar c :=
  (ucs4ToUtf8_encodes (val_lt c)).unique (encodes c)


/-- The code point that the decoder gives. It loses the bit of the last plane. -/
def decoded (c : Char) : UInt32 := c.val &&& 0xFFFFF

theorem decoded_toNat (c : Char) : (decoded c).toNat = c.val.toNat % 1048576 :=
  mask_toNat 20 (by decide)

theorem decoded_eq_iff (c : Char) : decoded c = c.val ↔ c.val < 0x100000 := by
  have bound := val_lt c
  rw [← UInt32.toNat_inj, decoded_toNat, UInt32.lt_iff_toNat_lt]
  change _ ↔ c.val.toNat < 1048576
  omega

/-- The decoder reads a standard encoding, whatever follows it. -/
theorem utf8ToUcs4_encode {c : Char} (notNul : c.val ≠ 0) (rest : List UInt8) :
    utf8ToUcs4 (String.utf8EncodeChar c ++ rest) = .ok (decoded c) := by
  have positive : 0 < c.val.toNat := by
    rw [Nat.pos_iff_ne_zero]
    intro zero
    exact notNul (UInt32.toNat_inj.mp zero)
  obtain ⟨point, decodes, same⟩ := (encodes c).decode positive rest
  rw [decodes, ← UInt32.toNat_inj.mp (same.trans (decoded_toNat c).symm)]

/-- The code decodes what it encoded, and the table gives the number of its bytes. -/
structure RoundTrips (c : Char) : Prop where
  decodes : utf8ToUcs4 (ucs4ToUtf8 c.val) = .ok c.val
  length : ∃ lead, (ucs4ToUtf8 c.val).head? = some lead ∧
    sequenceLength lead = (ucs4ToUtf8 c.val).length

theorem roundTrips_iff {c : Char} (notNul : c.val ≠ 0) : RoundTrips c ↔ c.val < 0x100000 := by
  have reads := utf8ToUcs4_encode notNul []
  rw [List.append_nil, ← ucs4ToUtf8_eq] at reads
  rw [← decoded_eq_iff]
  constructor
  · intro roundTrips
    exact Except.ok.inj (reads.symm.trans roundTrips.decodes)
  · intro same
    exact {
      decodes := by rw [reads, same]
      length := by
        rw [ucs4ToUtf8_eq]
        exact (encodes c).length }

/-- The code points that are read character by character encode to the same string. -/
def Recodes (s : List UInt8) : Prop :=
  ∃ points, Loop.Returns decodeBody ⟨s, []⟩ (.ok points) ∧ points.flatMap ucs4ToUtf8 = s

/-- One iteration reads one character. -/
theorem decodeBody_character {c : Char} (notNul : c.val ≠ 0) (rest : List UInt8)
    (points : List UInt32) :
    decodeBody ⟨String.utf8EncodeChar c ++ rest, points⟩ =
      .next ⟨rest, points ++ [decoded c]⟩ := by
  obtain ⟨lead, head, length⟩ := (encodes c).length
  obtain ⟨tail, bytes⟩ := List.head?_eq_some_iff.mp head
  have reads := utf8ToUcs4_encode notNul rest
  have leadNotNul : lead ≠ 0 := by
    intro zero
    rw [bytes, zero] at reads
    cases reads
  have skips : advance (String.utf8EncodeChar c ++ rest) (sequenceLength lead) = .ok rest := by
    rw [advance, length, if_pos (by simp), List.drop_left]
  rw [bytes] at reads skips ⊢
  rw [List.cons_append] at reads skips ⊢
  rw [decodeBody, List.headD_cons, if_neg leadNotNul, decodeCharacter, reads]
  simp [skips, bind, Except.bind, pure, Except.pure]

/-- The loop reads all characters of a string. -/
theorem returns_decoded {characters : List Char} (notNul : ∀ c ∈ characters, c.val ≠ 0) :
    ∀ points, Loop.Returns decodeBody ⟨characters.flatMap String.utf8EncodeChar, points⟩
      (.ok (points ++ characters.map decoded)) := by
  induction characters with
  | nil =>
      intro points
      rw [List.map_nil, List.append_nil]
      exact .stop rfl
  | cons c rest ih =>
      intro points
      have later := ih (fun other member => notNul other (List.mem_cons_of_mem c member))
        (points ++ [decoded c])
      rw [List.append_assoc] at later
      exact .next (decodeBody_character (notNul c List.mem_cons_self) _ points) later

/-- The decoded code points encode without the leading byte of the last plane. -/
theorem lastLead_not_mem (characters : List Char) :
    0xF4 ∉ (characters.map decoded).flatMap ucs4ToUtf8 := by
  intro member
  obtain ⟨point, inPoints, inBytes⟩ := List.mem_flatMap.mp member
  obtain ⟨c, _, rfl⟩ := List.mem_map.mp inPoints
  have small := decoded_toNat c
  have last := (ucs4ToUtf8_encodes (show (decoded c).toNat < 0x110000 by omega)).mem_lastLead.mp
    inBytes
  omega

theorem recodes_iff {s : List UInt8} (valid : s.toByteArray.IsValidUTF8) (notNul : 0 ∉ s) :
    Recodes s ↔ 0xF4 ∉ s := by
  obtain ⟨characters, same⟩ := valid
  obtain rfl : s = characters.flatMap String.utf8EncodeChar := List.toByteArray_inj.mp same
  have charactersNotNul : ∀ c ∈ characters, c.val ≠ 0 := by
    intro c member zero
    apply notNul
    apply List.mem_flatMap.mpr
    refine ⟨c, member, ?_⟩
    rw [← ucs4ToUtf8_eq, zero]
    decide
  have returns := returns_decoded charactersNotNul []
  rw [List.nil_append] at returns
  constructor
  · rintro ⟨points, returnsPoints, recoded⟩ member
    obtain rfl := Except.ok.inj (returns.unique returnsPoints)
    rw [← recoded] at member
    exact lastLead_not_mem characters member
  · intro noLast
    have same : ∀ c ∈ characters, decoded c = c.val := by
      intro c member
      rw [decoded_eq_iff, UInt32.lt_iff_toNat_lt]
      by_contra large
      apply noLast
      apply List.mem_flatMap.mpr
      exact ⟨c, member, (encodes c).mem_lastLead.mpr (Nat.le_of_not_lt large)⟩
    refine ⟨_, returns, ?_⟩
    rw [List.flatMap_map]
    apply List.flatMap_congr
    intro c member
    rw [same c member, ucs4ToUtf8_eq]

/-- The codec is inverse for a character exactly below the last plane, and for a string exactly
without its leading byte. -/
theorem codec_iff (c : Char) (s : List UInt8) (notNul : c.val ≠ 0)
    (valid : s.toByteArray.IsValidUTF8) (free : 0 ∉ s) :
    (RoundTrips c ↔ c.val < 0x100000) ∧ (Recodes s ↔ 0xF4 ∉ s) :=
  ⟨roundTrips_iff notNul, recodes_iff valid free⟩

theorem codec_iff_letter :
    (RoundTrips 'a' ↔ 'a'.val < 0x100000) ∧ (Recodes [0x61] ↔ 0xF4 ∉ [(0x61 : UInt8)]) :=
  codec_iff 'a' [0x61] (by decide) ⟨['a'], rfl⟩ (by decide)

/-- The first character of the last plane is read as the terminator. -/
theorem lastPlane_not_roundTrips : ¬ RoundTrips (Char.ofNat 0x100000) := by
  intro roundTrips
  exact absurd roundTrips.decodes (by decide)

end Blocxx.UTF8Utils
