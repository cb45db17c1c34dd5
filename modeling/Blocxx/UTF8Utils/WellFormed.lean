import Blocxx.UTF8Utils.InPlace

/-!
This file finds the strings for which `UTF8toUCS4` tells whether they begin with the standard
encoding of a character.
-/

namespace Blocxx.UTF8Utils

def StartsWellFormed (s : List UInt8) : Prop :=
  ∃ (c : Char) (rest : List UInt8), s = String.utf8EncodeChar c ++ rest

/-- The decoder reads no byte behind the terminator, and it calls bad exactly what does not begin
with a well-formed sequence. -/
def AcceptsExactly (s : List UInt8) : Prop :=
  ∃ c, utf8ToUcs4 s = .ok c ∧ (c = bad ↔ ¬ StartsWellFormed s)

def IsTail (byte : UInt8) : Prop := 0x80 ≤ byte.toNat ∧ byte.toNat ≤ 0xBF

/-- The second byte of a shortest form that is no surrogate and inside of the last plane. -/
def IsSecond (b0 b1 : UInt8) : Prop :=
  IsTail b1 ∧ (b0 = 0xE0 → 0xA0 ≤ b1.toNat) ∧ (b0 = 0xED → b1.toNat ≤ 0x9F) ∧
    (b0 = 0xF0 → 0x90 ≤ b1.toNat) ∧ (b0 = 0xF4 → b1.toNat ≤ 0x8F)

/-- Where the string has as many bytes as its first byte announces, those behind it continue a
well-formed sequence. -/
def Continues : List UInt8 → Prop
  | [] => True
  | b0 :: rest =>
      match sequenceLength b0, rest with
      | 2, b1 :: _ => IsTail b1
      | 3, b1 :: b2 :: _ => IsSecond b0 b1 ∧ IsTail b2
      | 4, b1 :: b2 :: b3 :: _ => IsSecond b0 b1 ∧ IsTail b2 ∧ IsTail b3
      | _, _ => True

section Sequences

variable {s : List UInt8} {b0 b1 b2 b3 : UInt8} {rest : List UInt8}

/-- A well-formed sequence is the encoding of a number that is a character. -/
theorem startsWellFormed_iff : StartsWellFormed s ↔
    ∃ value bytes rest, Nat.isValidChar value ∧ Encodes value bytes ∧ s = bytes ++ rest := by
  constructor
  · rintro ⟨c, rest, same⟩
    exact ⟨c.val.toNat, _, rest, c.valid, encodes c, same⟩
  · rintro ⟨value, bytes, rest, valid, encoded, same⟩
    refine ⟨Char.ofNat value, rest, ?_⟩
    have point : (Char.ofNat value).val.toNat = value := by
      rw [Char.ofNat, dif_pos valid]
      rfl
    have standard := encodes (Char.ofNat value)
    rw [point] at standard
    rw [same, encoded.unique standard]

theorem lead_one : sequenceLength b0 = 1 ↔ b0.toNat < 0x80 := by
  rw [sequenceLength_eq]
  constructor
  · intro same
    split_ifs at same <;> omega
  · intro small
    rw [if_pos small]

theorem lead_two : sequenceLength b0 = 2 ↔ 0xC2 ≤ b0.toNat ∧ b0.toNat < 0xE0 := by
  rw [sequenceLength_eq]
  constructor
  · intro same
    split_ifs at same <;> omega
  · rintro ⟨low, high⟩
    split_ifs <;> omega

theorem lead_three : sequenceLength b0 = 3 ↔ 0xE0 ≤ b0.toNat ∧ b0.toNat < 0xF0 := by
  rw [sequenceLength_eq]
  constructor
  · intro same
    split_ifs at same <;> omega
  · rintro ⟨low, high⟩
    split_ifs <;> omega

theorem lead_four : sequenceLength b0 = 4 ↔ 0xF0 ≤ b0.toNat ∧ b0.toNat < 0xF5 := by
  rw [sequenceLength_eq]
  constructor
  · intro same
    split_ifs at same <;> omega
  · rintro ⟨low, high⟩
    split_ifs <;> omega

/-- A well-formed sequence is as long as the first byte announces. -/
theorem StartsWellFormed.split (starts : StartsWellFormed (b0 :: rest)) :
    ∃ value bytes after, Nat.isValidChar value ∧ Encodes value bytes ∧ b0 :: rest = bytes ++ after ∧
      bytes.length = sequenceLength b0 := by
  obtain ⟨value, bytes, after, valid, encoded, same⟩ := startsWellFormed_iff.mp starts
  obtain ⟨lead, head, length⟩ := encoded.length
  obtain ⟨more, rfl⟩ := List.head?_eq_some_iff.mp head
  rw [List.cons_append] at same
  obtain ⟨rfl, _⟩ := List.cons.inj same
  exact ⟨value, _, after, valid, encoded, same, length.symm⟩

theorem starts_one (lead : sequenceLength b0 = 1) : StartsWellFormed (b0 :: rest) := by
  have small := lead_one.mp lead
  rw [startsWellFormed_iff]
  exact ⟨b0.toNat, [b0], rest, .inl (by omega), .one rfl small, rfl⟩

theorem starts_two (lead : sequenceLength b0 = 2) :
    StartsWellFormed (b0 :: b1 :: rest) ↔ IsTail b1 := by
  have range := lead_two.mp lead
  constructor
  · intro starts
    obtain ⟨value, bytes, after, valid, encoded, same, length⟩ := starts.split
    cases encoded with
    | two first second range =>
        obtain ⟨rfl, more⟩ := List.cons.inj same
        obtain ⟨rfl, -⟩ := List.cons.inj more
        unfold IsTail
        omega
    | one | three | four => simp only [List.length_cons, List.length_nil] at length; omega
  · rintro ⟨low, high⟩
    rw [startsWellFormed_iff]
    refine ⟨(b0.toNat - 0xC0) * 64 + (b1.toNat - 0x80), [b0, b1], rest, .inl (by omega), ?_, rfl⟩
    exact .two (by omega) (by omega) (by omega)

/-- The restrictions of the second byte, told by numbers. -/
theorem isSecond_iff : IsSecond b0 b1 ↔ IsTail b1 ∧ (b0.toNat = 0xE0 → 0xA0 ≤ b1.toNat) ∧
    (b0.toNat = 0xED → b1.toNat ≤ 0x9F) ∧ (b0.toNat = 0xF0 → 0x90 ≤ b1.toNat) ∧
      (b0.toNat = 0xF4 → b1.toNat ≤ 0x8F) := by
  unfold IsSecond
  simp only [← UInt8.toNat_inj, UInt8.reduceToNat]

theorem starts_three (lead : sequenceLength b0 = 3) :
    StartsWellFormed (b0 :: b1 :: b2 :: rest) ↔ IsSecond b0 b1 ∧ IsTail b2 := by
  have range := lead_three.mp lead
  rw [isSecond_iff]
  unfold IsTail
  constructor
  · intro starts
    obtain ⟨value, bytes, after, valid, encoded, same, length⟩ := starts.split
    cases encoded with
    | three first second third range =>
        obtain ⟨rfl, more⟩ := List.cons.inj same
        obtain ⟨rfl, more'⟩ := List.cons.inj more
        obtain ⟨rfl, -⟩ := List.cons.inj more'
        unfold Nat.isValidChar at valid
        omega
    | one | two | four => simp only [List.length_cons, List.length_nil] at length; omega
  · rintro ⟨⟨⟨low, high⟩, shortest, noSurrogate, _⟩, low2, high2⟩
    rw [startsWellFormed_iff]
    refine ⟨((b0.toNat - 0xE0) * 64 + (b1.toNat - 0x80)) * 64 + (b2.toNat - 0x80), [b0, b1, b2],
      rest, ?_, ?_, rfl⟩
    · unfold Nat.isValidChar
      omega
    · exact .three (by omega) (by omega) (by omega) (by omega)

theorem starts_four (lead : sequenceLength b0 = 4) :
    StartsWellFormed (b0 :: b1 :: b2 :: b3 :: rest) ↔ IsSecond b0 b1 ∧ IsTail b2 ∧ IsTail b3 := by
  have range := lead_four.mp lead
  rw [isSecond_iff]
  unfold IsTail
  constructor
  · intro starts
    obtain ⟨value, bytes, after, valid, encoded, same, length⟩ := starts.split
    cases encoded with
    | four first second third fourth range =>
        obtain ⟨rfl, more⟩ := List.cons.inj same
        obtain ⟨rfl, more'⟩ := List.cons.inj more
        obtain ⟨rfl, more''⟩ := List.cons.inj more'
        obtain ⟨rfl, -⟩ := List.cons.inj more''
        unfold Nat.isValidChar at valid
        omega
    | one | two | three => simp only [List.length_cons, List.length_nil] at length; omega
  · rintro ⟨⟨⟨low, high⟩, _, _, shortest, inside⟩, ⟨low2, high2⟩, low3, high3⟩
    rw [startsWellFormed_iff]
    refine ⟨(((b0.toNat - 0xF0) * 64 + (b1.toNat - 0x80)) * 64 + (b2.toNat - 0x80)) * 64 +
      (b3.toNat - 0x80), [b0, b1, b2, b3], rest, ?_, ?_, rfl⟩
    · unfold Nat.isValidChar
      omega
    · exact .four (by omega) (by omega) (by omega) (by omega) (by omega)

end Sequences

section Exact

variable {b0 b1 b2 b3 : UInt8} {rest : List UInt8}

/-- A string that is called bad must not begin with a well-formed sequence. -/
theorem accepts_bad (decodes : utf8ToUcs4 rest = .ok bad) :
    AcceptsExactly rest ↔ ¬ StartsWellFormed rest := by
  unfold AcceptsExactly
  rw [decodes]
  constructor
  · rintro ⟨c, same, exact_⟩
    obtain rfl := Except.ok.inj same
    exact exact_.mp rfl
  · intro not
    exact ⟨bad, rfl, iff_of_true rfl not⟩

theorem accepts_point {c : UInt32} (decodes : utf8ToUcs4 rest = .ok c)
    (small : c.toNat < 0x100000) : AcceptsExactly rest ↔ StartsWellFormed rest := by
  unfold AcceptsExactly
  rw [decodes]
  constructor
  · rintro ⟨c', same, exact_⟩
    obtain rfl := Except.ok.inj same
    exact not_not.mp (mt exact_.mpr (ne_bad small))
  · intro starts
    exact ⟨c, rfl, iff_of_false (ne_bad small) (not_not.mpr starts)⟩

/-- A string that is shorter than its first byte announces has no well-formed sequence. -/
theorem not_starts_short (short : rest.length + 1 < sequenceLength b0) :
    ¬ StartsWellFormed (b0 :: rest) := by
  intro starts
  obtain ⟨value, bytes, after, -, -, same, length⟩ := starts.split
  have lengths := congrArg List.length same
  rw [List.length_append, List.length_cons] at lengths
  omega

theorem not_starts_zero (lead : sequenceLength b0 = 0) : ¬ StartsWellFormed (b0 :: rest) := by
  intro starts
  obtain ⟨value, bytes, after, -, encoded, -, length⟩ := starts.split
  rw [lead, List.length_eq_zero_iff] at length
  subst length
  cases encoded

theorem accepts_short (nonzero : b0 ≠ 0) (short : rest.length + 1 < sequenceLength b0) :
    AcceptsExactly (b0 :: rest) :=
  (accepts_bad (decode_short nonzero short)).mpr (not_starts_short short)

theorem accepts_two (nonzero : 0 ∉ b0 :: rest) (lead : sequenceLength b0 = 2) :
    AcceptsExactly (b0 :: rest) ↔ Continues (b0 :: rest) := by
  rw [List.mem_cons, not_or] at nonzero
  unfold Continues
  dsimp only
  rw [lead]
  rcases rest with _ | ⟨b1, rest⟩
  · exact iff_of_true (accepts_short (Ne.symm nonzero.1) (by simp [lead])) trivial
  · rw [List.mem_cons, not_or] at nonzero
    obtain ⟨c, decodes, value⟩ := utf8ToUcs4_two lead (Ne.symm nonzero.2.1)
    rw [accepts_point decodes (by omega)]
    exact starts_two lead

theorem accepts_three (nonzero : 0 ∉ b0 :: rest) (lead : sequenceLength b0 = 3) :
    AcceptsExactly (b0 :: rest) ↔ Continues (b0 :: rest) := by
  rw [List.mem_cons, not_or] at nonzero
  unfold Continues
  dsimp only
  rw [lead]
  rcases rest with _ | ⟨b1, _ | ⟨b2, rest⟩⟩
  · exact iff_of_true (accepts_short (Ne.symm nonzero.1) (by simp [lead])) trivial
  · exact iff_of_true (accepts_short (Ne.symm nonzero.1) (by simp [lead])) trivial
  · rw [List.mem_cons, List.mem_cons, not_or, not_or] at nonzero
    obtain ⟨c, decodes, value⟩ :=
      utf8ToUcs4_three lead (Ne.symm nonzero.2.1) (Ne.symm nonzero.2.2.1)
    rw [accepts_point decodes (by omega)]
    exact starts_three lead

theorem accepts_four (nonzero : 0 ∉ b0 :: rest) (lead : sequenceLength b0 = 4) :
    AcceptsExactly (b0 :: rest) ↔ Continues (b0 :: rest) := by
  rw [List.mem_cons, not_or] at nonzero
  unfold Continues
  dsimp only
  rw [lead]
  rcases rest with _ | ⟨b1, _ | ⟨b2, _ | ⟨b3, rest⟩⟩⟩
  · exact iff_of_true (accepts_short (Ne.symm nonzero.1) (by simp [lead])) trivial
  · exact iff_of_true (accepts_short (Ne.symm nonzero.1) (by simp [lead])) trivial
  · exact iff_of_true (accepts_short (Ne.symm nonzero.1) (by simp [lead])) trivial
  · simp only [List.mem_cons, not_or] at nonzero
    obtain ⟨c, decodes, value⟩ := utf8ToUcs4_four lead (Ne.symm nonzero.2.1)
      (Ne.symm nonzero.2.2.1) (Ne.symm nonzero.2.2.2.1)
    rw [accepts_point decodes (by omega)]
    exact starts_four lead

theorem accepts_iff {s : List UInt8} (nonempty : s ≠ []) (free : 0 ∉ s) :
    AcceptsExactly s ↔ Continues s := by
  obtain ⟨b0, rest, rfl⟩ := List.exists_cons_of_ne_nil nonempty
  have nonzero : b0 ≠ 0 := fun zero => free (zero ▸ List.mem_cons_self)
  have most := sequenceLength_le b0
  obtain zero | one | two | three | four : sequenceLength b0 = 0 ∨ sequenceLength b0 = 1 ∨
      sequenceLength b0 = 2 ∨ sequenceLength b0 = 3 ∨ sequenceLength b0 = 4 := by
    omega
  · refine iff_of_true ?_ (by unfold Continues; dsimp only; rw [zero]; trivial)
    exact (accepts_bad (decode_zero nonzero zero)).mpr (not_starts_zero zero)
  · refine iff_of_true ?_ (by unfold Continues; dsimp only; rw [one]; trivial)
    have small := lead_one.mp one
    have bound : b0.toUInt32.toNat < 0x100000 := by
      rw [UInt8.toNat_toUInt32]
      omega
    exact (accepts_point (utf8ToUcs4_one one nonzero) bound).mpr (starts_one one)
  · exact accepts_two free two
  · exact accepts_three free three
  · exact accepts_four free four

end Exact

/-- The decoder recognizes the well-formed sequences exactly where the bytes that a leading byte
announces are missing or continue one. -/
theorem acceptsExactly_iff (s : List UInt8) (nonempty : s ≠ []) (free : 0 ∉ s) :
    AcceptsExactly s ↔ Continues s :=
  accepts_iff nonempty free

theorem acceptsExactly_letter : AcceptsExactly [0x61] ↔ Continues [0x61] :=
  acceptsExactly_iff [0x61] (by decide) (by decide)

/-- A parenthesis behind a leading byte is taken for a tail. -/
theorem parenthesis_not_accepted :
    ¬ ∀ s : List UInt8, s ≠ [] → 0 ∉ s → AcceptsExactly s := by
  intro all
  have tail : IsTail 0x28 :=
    (accepts_iff (by decide) (by decide)).mp (all [0xC3, 0x28] (by decide) (by decide))
  exact absurd tail.1 (by decide)

end Blocxx.UTF8Utils
