import Blocxx.UTF8Utils.InPlace

/-!
This file embeds the conversions between strings and arrays of `UInt16`. It proves the round trip of
an array, and it finds the strings whose invalid sequences are replaced.
-/

namespace Blocxx.UTF8Utils
open Library

inductive Thrown where
  | fault (fault : Fault)
  | InvalidUTF8Exception (message : List UInt8)
  deriving DecidableEq

def UCS2ReplacementChar : UInt16 := 0xFFFD

/-- The position of the pointer in the string and the array that is filled. -/
structure UCS2Scan where
  p : Nat
  rval : List UInt16

def ascii (text : String) : List UInt8 := text.toList.map fun c => UInt8.ofNat c.toNat

/-- The message with the length of the table, the string, and the string from the pointer on. -/
def invalidMessage (length : Nat) (input p : List UInt8) : List UInt8 :=
  ascii "Length: " ++ ascii (toString length) ++ ascii ", input = " ++ input ++ ascii ", p = " ++ p

def orThrown {State Answer : Type} :
    Except Thrown (Loop.Iteration State Answer) → Loop.Iteration State (Except Thrown Answer)
  | .ok (.next state) => .next state
  | .ok (.stop answer) => .stop (.ok answer)
  | .error thrown => .stop (.error thrown)

section Embedding

variable (input : List UInt8) (throwException : Bool)

def readAt (index : Nat) : Except Thrown UInt8 := (readByte input index).mapError .fault

/-- What all branches do with a sequence of this length that they cannot decode. -/
def replace (length skipped : Nat) (scan : UCS2Scan) : Except Thrown UCS2Scan :=
  if throwException then
    .error (.InvalidUTF8Exception (invalidMessage length input (input.drop scan.p)))
  else .ok ⟨scan.p + skipped, scan.rval ++ [UCS2ReplacementChar]⟩

def ucs2OfTwo (c0 c1 : UInt8) : UInt16 :=
  (((c0.toUInt32 &&& 0x1f) <<< 6) ||| (c1.toUInt32 &&& 0x3f)).toUInt16

def ucs2OfThree (c0 c1 c2 : UInt8) : UInt16 :=
  (((c0.toUInt32 &&& 0x0f) <<< 12) ||| ((c1.toUInt32 &&& 0x3f) <<< 6) |||
    (c2.toUInt32 &&& 0x3f)).toUInt16

/-- One iteration of the loop. Behind the replacement of a short sequence the branches of two and
three bytes go on with the decoding. -/
def ucs2Iteration (scan : UCS2Scan) : Except Thrown (Loop.Iteration UCS2Scan (List UInt16)) := do
  if scan.p < input.length then
    let c0 ← readAt input scan.p
    match sequenceLength c0 with
    | 1 => return .next ⟨scan.p + 1, scan.rval ++ [c0.toUInt32.toUInt16]⟩
    | 2 =>
        let short := (← readAt input (scan.p + 1)) = 0
        let scan ← if short then replace input throwException 2 2 scan else pure scan
        let c1 ← readAt input (scan.p + 1)
        return .next ⟨scan.p + 2, scan.rval ++ [ucs2OfTwo c0 c1]⟩
    | 3 =>
        let short ←
          if (← readAt input (scan.p + 1)) = 0 then pure true
          else pure ((← readAt input (scan.p + 2)) = 0)
        let scan ← if short then replace input throwException 3 3 scan else pure scan
        let c1 ← readAt input (scan.p + 1)
        let c2 ← readAt input (scan.p + 2)
        return .next ⟨scan.p + 3, scan.rval ++ [ucs2OfThree c0 c1 c2]⟩
    | 4 => return .next (← replace input throwException 4 4 scan)
    | length => return .next (← replace input throwException length 1 scan)
  else return .stop scan.rval

def ucs2Body (scan : UCS2Scan) : Loop.Iteration UCS2Scan (Except Thrown (List UInt16)) :=
  orThrown (ucs2Iteration input throwException scan)

variable (fuel : Nat)

def stringToUCS2Common : Option (Except Thrown (List UInt16)) :=
  if 0 ∈ input then some (.error (.fault .assertion))
  else Loop.run (ucs2Body input throwException) fuel ⟨0, []⟩

def stringToUCS2ReplaceInvalid : Option (Except Thrown (List UInt16)) :=
  stringToUCS2Common input false fuel

def stringToUCS2 : Option (Except Thrown (List UInt16)) := stringToUCS2Common input true fuel

end Embedding

def ucs2ToString (input : List UInt16) : List UInt8 :=
  input.flatMap fun ucs2char => ucs4ToUtf8 ucs2char.toUInt32

/-- How far the scan moves behind this byte. -/
def skip (c0 : UInt8) : Nat := max 1 (sequenceLength c0)

/-- The rests of the string at which the scan stands. -/
def stops : Nat → List UInt8 → List (List UInt8)
  | 0, _ => []
  | _ + 1, [] => []
  | count + 1, c0 :: rest =>
      (c0 :: rest) :: stops count ((c0 :: rest).drop (skip c0))

/-- The character of a complete sequence of one, two or three bytes, or else the replacement. -/
def unit : List UInt8 → UInt16
  | [] => UCS2ReplacementChar
  | c0 :: rest =>
      match sequenceLength c0, rest with
      | 1, _ => UInt16.ofNat c0.toNat
      | 2, c1 :: _ => UInt16.ofNat (c0.toNat % 32 * 64 + c1.toNat % 64)
      | 3, c1 :: c2 :: _ =>
          UInt16.ofNat ((c0.toNat % 16 * 64 + c1.toNat % 64) * 64 + c2.toNat % 64)
      | _, _ => UCS2ReplacementChar

/-- The string ends inside of the sequence of two or three bytes that its first byte announces. -/
def Truncated : List UInt8 → Prop
  | [] => False
  | c0 :: rest =>
      (sequenceLength c0 = 2 ∨ sequenceLength c0 = 3) ∧ rest.length + 1 < sequenceLength c0

/-- The conversion reads only the string, and each step of its scan appends one character. -/
def ReplacesSafely (input : List UInt8) : Prop :=
  ∃ fuel, stringToUCS2ReplaceInvalid input fuel =
    some (.ok ((stops input.length input).map unit))

section Reads

variable {input here : List UInt8} {p : Nat} {c0 c1 c2 : UInt8} {rest : List UInt8}

theorem length_drop_eq (stands : input.drop p = c0 :: rest) :
    input.length = p + (rest.length + 1) := by
  have lengths := congrArg List.length stands
  rw [List.length_drop, List.length_cons] at lengths
  omega

/-- A read in the string, told by the rest of it. -/
theorem readAt_drop (stands : input.drop p = c0 :: rest) (index : Nat) :
    readAt input (p + index) = (readByte (c0 :: rest) index).mapError .fault := by
  have length := length_drop_eq stands
  rw [readAt, ← stands, readByte, readByte, List.length_drop, List.getD_eq_getElem?_getD,
    List.getD_eq_getElem?_getD, List.getElem?_drop]
  have inside : p + index < input.length ↔ index < input.length - p := by omega
  have last : p + index = input.length ↔ index = input.length - p := by omega
  simp only [inside, last]

theorem drop_inside (stands : input.drop p = c0 :: rest) : p < input.length := by
  have length := length_drop_eq stands
  omega

theorem readAt_first (stands : input.drop p = c0 :: rest) : readAt input p = .ok c0 := by
  have read := readAt_drop stands 0
  rwa [Nat.add_zero, readByte_zero] at read

theorem drop_skip (stands : input.drop p = c0 :: rest) :
    (c0 :: rest).drop (skip c0) = input.drop (p + skip c0) := by
  rw [← stands, List.drop_drop]

theorem zero_notMem_rest (free : 0 ∉ input) (stands : input.drop p = c0 :: rest) : 0 ∉ rest := by
  intro member
  exact free (List.mem_of_mem_drop (stands ▸ List.mem_cons_of_mem c0 member))

theorem readAt_behind {index : Nat} (behind : input.length < index) :
    readAt input index = .error (.fault .outOfBounds) := by
  rw [readAt, readByte, if_neg (by omega), if_neg (by omega)]
  rfl

end Reads

section Steps

variable {input : List UInt8} {p : Nat} {rval : List UInt16} {c0 : UInt8} {rest : List UInt8}
  {throwException : Bool}

theorem ucs2OfTwo_eq (c0 c1 : UInt8) :
    ucs2OfTwo c0 c1 = UInt16.ofNat (c0.toNat % 32 * 64 + c1.toNat % 64) := by
  have high : ((c0.toUInt32 &&& 0x1f) <<< 6).toNat = c0.toNat % 32 * 64 :=
    placed_toNat c0 5 (by decide) (by decide)
  have low : (c1.toUInt32 &&& 0x3f).toNat = c1.toNat % 64 := payload_toNat c1 6 (by decide)
  have whole : ((c0.toUInt32 &&& 0x1f) <<< 6 ||| (c1.toUInt32 &&& 0x3f)).toNat =
      c0.toNat % 32 * 64 + c1.toNat % 64 := or_toNat 6 high low (by omega)
  apply UInt16.toNat_inj.mp
  rw [ucs2OfTwo, UInt32.toNat_toUInt16, whole, UInt16.toNat_ofNat']

theorem ucs2OfThree_eq (c0 c1 c2 : UInt8) : ucs2OfThree c0 c1 c2 =
    UInt16.ofNat ((c0.toNat % 16 * 64 + c1.toNat % 64) * 64 + c2.toNat % 64) := by
  have high : ((c0.toUInt32 &&& 0x0f) <<< 12).toNat = c0.toNat % 16 * 4096 :=
    placed_toNat c0 4 (by decide) (by decide)
  have middle : ((c1.toUInt32 &&& 0x3f) <<< 6).toNat = c1.toNat % 64 * 64 :=
    placed_toNat c1 6 (by decide) (by decide)
  have low : (c2.toUInt32 &&& 0x3f).toNat = c2.toNat % 64 := payload_toNat c2 6 (by decide)
  have upper : ((c0.toUInt32 &&& 0x0f) <<< 12 ||| (c1.toUInt32 &&& 0x3f) <<< 6).toNat =
      (c0.toNat % 16 * 64 + c1.toNat % 64) * 64 := by
    rw [or_toNat 12 high middle (by omega)]
    omega
  have whole : ((c0.toUInt32 &&& 0x0f) <<< 12 ||| (c1.toUInt32 &&& 0x3f) <<< 6 |||
      (c2.toUInt32 &&& 0x3f)).toNat =
        (c0.toNat % 16 * 64 + c1.toNat % 64) * 64 + c2.toNat % 64 :=
    or_toNat 6 upper low (by omega)
  apply UInt16.toNat_inj.mp
  rw [ucs2OfThree, UInt32.toNat_toUInt16, whole, UInt16.toNat_ofNat']

/-- A complete sequence appends its character. -/
theorem step_complete (stands : input.drop p = c0 :: rest) (free : 0 ∉ rest)
    (lead : sequenceLength c0 = 1 ∨ sequenceLength c0 = 2 ∨ sequenceLength c0 = 3)
    (complete : sequenceLength c0 ≤ rest.length + 1) :
    ucs2Body input throwException ⟨p, rval⟩ =
      .next ⟨p + skip c0, rval ++ [unit (c0 :: rest)]⟩ := by
  have inside := drop_inside stands
  have read0 := readAt_first stands
  rcases lead with one | two | three
  · have same : c0.toUInt32.toUInt16 = UInt16.ofNat c0.toNat := by
      apply UInt16.toNat_inj.mp
      rw [UInt32.toNat_toUInt16, UInt8.toNat_toUInt32, UInt16.toNat_ofNat']
    have value : unit (c0 :: rest) = UInt16.ofNat c0.toNat := by
      unfold unit
      simp only [one]
    rw [ucs2Body, ucs2Iteration, if_pos inside, read0, value, ← same, skip, one]
    simp only [one, bind, Except.bind]
    rfl
  · obtain ⟨c1, rest, rfl⟩ := List.exists_cons_of_length_pos (show 0 < rest.length by omega)
    rw [List.mem_cons, not_or] at free
    have read1 : readAt input (p + 1) = .ok c1 := by
      rw [readAt_drop stands 1, readByte_succ, readByte_zero]
      rfl
    have value : unit (c0 :: c1 :: rest) = ucs2OfTwo c0 c1 := by
      unfold unit
      simp only [two, ucs2OfTwo_eq]
    rw [ucs2Body, ucs2Iteration, if_pos inside, read0, value, skip, two]
    simp only [two, read1, bind, Except.bind, pure, Except.pure, if_neg (Ne.symm free.1)]
    rfl
  · obtain ⟨c1, rest, rfl⟩ := List.exists_cons_of_length_pos (show 0 < rest.length by omega)
    rw [List.length_cons] at complete
    obtain ⟨c2, rest, rfl⟩ := List.exists_cons_of_length_pos (show 0 < rest.length by omega)
    rw [List.mem_cons, List.mem_cons, not_or, not_or] at free
    have read1 : readAt input (p + 1) = .ok c1 := by
      rw [readAt_drop stands 1, readByte_succ, readByte_zero]
      rfl
    have read2 : readAt input (p + 2) = .ok c2 := by
      rw [readAt_drop stands 2, readByte_succ, readByte_succ, readByte_zero]
      rfl
    have value : unit (c0 :: c1 :: c2 :: rest) = ucs2OfThree c0 c1 c2 := by
      unfold unit
      simp only [three, ucs2OfThree_eq]
    rw [ucs2Body, ucs2Iteration, if_pos inside, read0, value, skip, three]
    simp only [three, read1, read2, bind, Except.bind, pure, Except.pure,
      if_neg (Ne.symm free.1)]
    rw [if_neg (by simpa using Ne.symm free.2.1)]
    rfl

/-- A sequence of four bytes and a byte that leads none are replaced. -/
theorem step_replaced (stands : input.drop p = c0 :: rest)
    (lead : sequenceLength c0 = 0 ∨ sequenceLength c0 = 4) :
    ucs2Body input false ⟨p, rval⟩ = .next ⟨p + skip c0, rval ++ [unit (c0 :: rest)]⟩ := by
  have inside := drop_inside stands
  have read0 := readAt_first stands
  rcases lead with zero | four
  · have value : unit (c0 :: rest) = UCS2ReplacementChar := by
      unfold unit
      simp only [zero]
    rw [ucs2Body, ucs2Iteration, if_pos inside, read0, value, skip, zero]
    simp only [zero, bind, Except.bind]
    rfl
  · have value : unit (c0 :: rest) = UCS2ReplacementChar := by
      unfold unit
      simp only [four]
    rw [ucs2Body, ucs2Iteration, if_pos inside, read0, value, skip, four]
    simp only [four, bind, Except.bind]
    rfl

/-- Behind the replacement of a sequence in which the string ends, the branch reads on behind the
terminator. -/
theorem step_truncated (stands : input.drop p = c0 :: rest) (free : 0 ∉ rest)
    (truncated : Truncated (c0 :: rest)) :
    ucs2Body input false ⟨p, rval⟩ = .stop (.error (.fault .outOfBounds)) := by
  obtain ⟨lead, short⟩ := truncated
  have length := length_drop_eq stands
  have inside : p < input.length := by omega
  have read0 := readAt_first stands
  rcases lead with two | three
  · obtain rfl : rest = [] := List.eq_nil_of_length_eq_zero (by omega)
    have read1 : readAt input (p + 1) = .ok 0 := by
      rw [readAt_drop stands 1]
      rfl
    have behind : readAt input (p + 2 + 1) = .error (.fault .outOfBounds) :=
      readAt_behind (by rw [length, List.length_nil]; omega)
    rw [ucs2Body, ucs2Iteration, if_pos inside, read0]
    simp only [two, read1, bind, Except.bind, replace, if_true, Bool.false_eq_true, if_false, behind]
    rfl
  · have behind : readAt input (p + 3 + 1) = .error (.fault .outOfBounds) :=
      readAt_behind (by rw [length]; omega)
    rw [ucs2Body, ucs2Iteration, if_pos inside, read0]
    rcases rest with _ | ⟨c1, rest⟩
    · have read1 : readAt input (p + 1) = .ok 0 := by
        rw [readAt_drop stands 1]
        rfl
      simp only [three, read1, bind, Except.bind, pure, Except.pure, replace, if_true,
        Bool.false_eq_true, if_false, behind]
      rfl
    · rw [List.length_cons] at short
      obtain rfl : rest = [] := List.eq_nil_of_length_eq_zero (by omega)
      have read1 : readAt input (p + 1) = .ok c1 := by
        rw [readAt_drop stands 1, readByte_succ, readByte_zero]
        rfl
      have read2 : readAt input (p + 2) = .ok 0 := by
        rw [readAt_drop stands 2, readByte_succ]
        rfl
      have nonzero : ¬ c1 = 0 := fun zero => free (zero ▸ List.mem_cons_self)
      simp only [three, read1, read2, bind, Except.bind, pure, Except.pure, if_neg nonzero, replace,
        decide_true, if_true, Bool.false_eq_true, if_false, behind]
      rfl

/-- The scan goes on behind every sequence in which the string does not end. -/
theorem step_untruncated (stands : input.drop p = c0 :: rest) (free : 0 ∉ rest)
    (whole : ¬ Truncated (c0 :: rest)) :
    ucs2Body input false ⟨p, rval⟩ = .next ⟨p + skip c0, rval ++ [unit (c0 :: rest)]⟩ := by
  have most := sequenceLength_le c0
  by_cases replaced : sequenceLength c0 = 0 ∨ sequenceLength c0 = 4
  · exact step_replaced stands replaced
  · have lead : sequenceLength c0 = 1 ∨ sequenceLength c0 = 2 ∨ sequenceLength c0 = 3 := by
      omega
    refine step_complete stands free lead ?_
    by_contra short
    exact whole ⟨by omega, by omega⟩

end Steps

section Loops

variable {input : List UInt8} {p : Nat} {rval : List UInt16} {throwException : Bool}

/-- The loop ends at the terminator or behind it. -/
theorem loop_ends (behind : input.length ≤ p) :
    Loop.Returns (ucs2Body input throwException) ⟨p, rval⟩ (.ok rval) := by
  apply Loop.Returns.stop
  rw [ucs2Body, ucs2Iteration, if_neg (Nat.not_lt.mpr behind)]
  rfl

theorem skip_pos (c0 : UInt8) : 1 ≤ skip c0 := le_max_left 1 _

/-- The scan appends one character at each of its stops. -/
theorem loop_replaces (free : 0 ∉ input) (count : Nat) : ∀ p rval, input.length - p ≤ count →
    (∀ stop ∈ stops count (input.drop p), ¬ Truncated stop) →
      Loop.Returns (ucs2Body input false) ⟨p, rval⟩
        (.ok (rval ++ (stops count (input.drop p)).map unit)) := by
  induction count with
  | zero =>
      intro p rval near _
      rw [stops, List.map_nil, List.append_nil]
      exact loop_ends (by omega)
  | succ count ih =>
      intro p rval near whole
      cases stands : input.drop p with
      | nil =>
          rw [stops, List.map_nil, List.append_nil]
          exact loop_ends (List.drop_eq_nil_iff.mp stands)
      | cons c0 rest =>
          have length := length_drop_eq stands
          have positive := skip_pos c0
          have later := drop_skip stands
          have restFree := zero_notMem_rest free stands
          rw [stands, stops, later, List.forall_mem_cons] at whole
          have returns := ih (p + skip c0) (rval ++ [unit (c0 :: rest)]) (by omega) whole.2
          rw [List.append_assoc] at returns
          rw [stops, later, List.map_cons]
          exact .next (step_untruncated stands restFree whole.1) returns

/-- The scan that comes to a truncated sequence reads behind the terminator. -/
theorem loop_faults (free : 0 ∉ input) (count : Nat) : ∀ p rval, input.length - p ≤ count →
    (∃ stop ∈ stops count (input.drop p), Truncated stop) →
      Loop.Returns (ucs2Body input false) ⟨p, rval⟩ (.error (.fault .outOfBounds)) := by
  induction count with
  | zero =>
      rintro p rval near ⟨stop, member, _⟩
      cases member
  | succ count ih =>
      rintro p rval near ⟨stop, member, truncated⟩
      cases stands : input.drop p with
      | nil =>
          rw [stands] at member
          cases member
      | cons c0 rest =>
          have length := length_drop_eq stands
          have positive := skip_pos c0
          have later := drop_skip stands
          have restFree := zero_notMem_rest free stands
          by_cases here : Truncated (c0 :: rest)
          · exact .stop (step_truncated stands restFree here)
          · rw [stands, stops, later, List.mem_cons] at member
            have there := member.resolve_left (fun same => here (same ▸ truncated))
            have returns := ih (p + skip c0) (rval ++ [unit (c0 :: rest)]) (by omega)
              ⟨stop, there, truncated⟩
            exact .next (step_untruncated stands restFree here) returns

end Loops

theorem replaces_iff {input : List UInt8} (free : 0 ∉ input) :
    ReplacesSafely input ↔ ∀ stop ∈ stops input.length input, ¬ Truncated stop := by
  unfold ReplacesSafely stringToUCS2ReplaceInvalid stringToUCS2Common
  simp only [if_neg free]
  constructor
  · intro returns stop member truncated
    have faults := loop_faults free input.length 0 [] (Nat.sub_le _ _) ⟨stop, member, truncated⟩
    cases Loop.Returns.unique returns faults
  · intro whole
    exact loop_replaces free input.length 0 [] (Nat.sub_le _ _) whole

/-- The conversion with replacements is safe exactly for the strings that do not end inside of a
sequence of two or three bytes. -/
theorem replaceInvalid_iff (input : List UInt8) (free : 0 ∉ input) :
    ReplacesSafely input ↔ ∀ stop ∈ stops input.length input, ¬ Truncated stop :=
  replaces_iff free

theorem replaceInvalid_letter :
    ReplacesSafely [0x61] ↔ ∀ stop ∈ stops [(0x61 : UInt8)].length [0x61], ¬ Truncated stop :=
  replaceInvalid_iff [0x61] (by decide)

/-- Behind the replacement of a lonely leading byte the terminator is skipped. -/
theorem lonelyLead_not_safe : ¬ ∀ input : List UInt8, 0 ∉ input → ReplacesSafely input := by
  intro all
  have whole := (replaces_iff (by decide)).mp (all [0xC3] (by decide)) [0xC3]
    List.mem_cons_self
  have lead : sequenceLength 0xC3 = 2 := by decide
  exact whole ⟨.inl lead, by rw [lead]; decide⟩

section RoundTrip

/-- The encoding of a number of 16 bits is complete, and its character is the number. -/
theorem Encodes.unit {value : Nat} {bytes : List UInt8} (encodes : Encodes value bytes)
    (small : value < 0x10000) : ∃ c0 more, bytes = c0 :: more ∧
      sequenceLength c0 = more.length + 1 ∧ more.length < 3 ∧
        ∀ rest, UTF8Utils.unit (c0 :: (more ++ rest)) = UInt16.ofNat value := by
  obtain ⟨lead, head, length⟩ := encodes.length
  cases encodes with
  | @one b0 first range =>
      obtain rfl := Option.some.inj head
      refine ⟨b0, [], rfl, length, by decide, fun rest => ?_⟩
      unfold UTF8Utils.unit
      simp only [length, List.length_singleton, first]
  | @two b0 b1 first second range =>
      obtain rfl := Option.some.inj head
      have lead : sequenceLength b0 = 2 := length
      refine ⟨b0, [b1], rfl, length, by simp, fun rest => ?_⟩
      unfold UTF8Utils.unit
      simp only [lead, List.cons_append]
      congr 1
      omega
  | @three b0 b1 b2 first second third range =>
      obtain rfl := Option.some.inj head
      have lead : sequenceLength b0 = 3 := length
      refine ⟨b0, [b1, b2], rfl, length, by simp, fun rest => ?_⟩
      unfold UTF8Utils.unit
      simp only [lead, List.cons_append]
      congr 1
      omega
  | four first second third fourth range => omega

/-- The scan reads the array back from the place where it begins. -/
theorem loop_reads (a : List UInt16) {input : List UInt8} (free : 0 ∉ input) :
    ∀ p rval, p ≤ input.length → input.drop p = ucs2ToString a →
      Loop.Returns (ucs2Body input true) ⟨p, rval⟩ (.ok (rval ++ a)) := by
  induction a with
  | nil =>
      intro p rval _ stands
      rw [List.append_nil]
      exact loop_ends (List.drop_eq_nil_iff.mp stands)
  | cons value a ih =>
      intro p rval inside stands
      have bound := value.toNat_lt
      have point : value.toUInt32.toNat = value.toNat := UInt16.toNat_toUInt32 value
      have encoded := ucs4ToUtf8_encodes (show value.toUInt32.toNat < 0x110000 by omega)
      obtain ⟨c0, more, bytes, length, short, character⟩ := encoded.unit (by omega)
      rw [ucs2ToString, List.flatMap_cons, bytes, ← ucs2ToString, List.cons_append] at stands
      have restFree : 0 ∉ more ++ ucs2ToString a := by
        intro member
        exact free (List.mem_of_mem_drop (stands ▸ List.mem_cons_of_mem c0 member))
      have step : ucs2Body input true ⟨p, rval⟩ = .next ⟨p + skip c0, rval ++ [value]⟩ := by
        have read : ucs2Body input true ⟨p, rval⟩ = _ := step_complete stands restFree
          (by omega) (by rw [List.length_append]; omega)
        rwa [character, point, UInt16.ofNat_toNat] at read
      have far : skip c0 = more.length + 1 := by
        rw [skip, length]
        omega
      have lengths := length_drop_eq stands
      rw [List.length_append] at lengths
      have later : input.drop (p + skip c0) = ucs2ToString a := by
        rw [← List.drop_drop, stands, far, List.drop_succ_cons, List.drop_left]
      have returns := ih (p + skip c0) (rval ++ [value]) (by omega) later
      rw [List.append_assoc] at returns
      exact .next step returns

theorem ucs2ToString_free {a : List UInt16} (nonzero : 0 ∉ a) : 0 ∉ ucs2ToString a := by
  intro zero
  obtain ⟨value, member, inside⟩ := List.mem_flatMap.mp zero
  have bound := value.toNat_lt
  have point : value.toUInt32.toNat = value.toNat := UInt16.toNat_toUInt32 value
  have positive : value.toNat ≠ 0 := by
    intro same
    have isZero : value = 0 := UInt16.toNat_inj.mp same
    exact nonzero (isZero ▸ member)
  have encoded := ucs4ToUtf8_encodes (show value.toUInt32.toNat < 0x110000 by omega)
  exact encoded.free (by omega) inside

end RoundTrip

/-- An array without zeros comes back from its string. -/
theorem ucs2_round_trip (a : List UInt16) (nonzero : 0 ∉ a) :
    ∃ fuel, stringToUCS2 (ucs2ToString a) fuel = some (.ok a) := by
  have free := ucs2ToString_free nonzero
  have returns := loop_reads a free 0 [] (Nat.zero_le _) rfl
  unfold stringToUCS2 stringToUCS2Common
  simp only [if_neg free]
  exact returns

theorem ucs2_round_trip_letter : ∃ fuel, stringToUCS2 (ucs2ToString [0x61]) fuel = some (.ok [0x61]) :=
  ucs2_round_trip [0x61] (by decide)

end Blocxx.UTF8Utils
