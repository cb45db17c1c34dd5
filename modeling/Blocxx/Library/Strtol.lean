import Mathlib.Data.List.TakeWhile
import Mathlib.Tactic

/-!
This file gives the integer types of C, the functions `strtol` and `strtoul` in the locale of C, and
the decimal numerals that they read.
-/

namespace Blocxx.Library

structure IntType where
  signed : Bool
  bits : Nat
  deriving DecidableEq

namespace IntType

def min (type : IntType) : Int := if type.signed then -2 ^ (type.bits - 1) else 0

def max (type : IntType) : Int :=
  if type.signed then 2 ^ (type.bits - 1) - 1 else 2 ^ type.bits - 1

def Represents (type : IntType) (value : Int) : Prop := type.min ≤ value ∧ value ≤ type.max

instance (type : IntType) (value : Int) : Decidable (type.Represents value) :=
  inferInstanceAs (Decidable (_ ∧ _))

/-- `static_cast` of an integer to the type. -/
def cast (type : IntType) (value : Int) : Int :=
  if type.signed then value.bmod (2 ^ type.bits) else value % 2 ^ type.bits

theorem two_mul_pow_pred {bits : Nat} (positive : 0 < bits) :
    2 * 2 ^ (bits - 1) = (2 ^ bits : Int) := by
  obtain ⟨less, rfl⟩ := Nat.exists_eq_succ_of_ne_zero positive.ne'
  rw [Nat.succ_sub_one, pow_succ']

/-- The cast of a signed type gives a value of the type that differs by a multiple of its size. -/
theorem bmod_bounds {bits : Nat} (positive : 0 < bits) (value : Int) :
    -2 ^ (bits - 1) ≤ value.bmod (2 ^ bits) ∧ value.bmod (2 ^ bits) ≤ 2 ^ (bits - 1) - 1 := by
  have double := two_mul_pow_pred positive
  have size : (0 : Nat) < 2 ^ bits := Nat.two_pow_pos bits
  have low := Int.le_bmod (x := value) size
  have high := Int.bmod_lt (x := value) size
  push_cast at low high
  omega

theorem represents_cast (type : IntType) (positive : 0 < type.bits) (value : Int) :
    type.Represents (type.cast value) := by
  unfold Represents min max cast
  cases type.signed with
  | true => exact bmod_bounds positive value
  | false =>
      have size : (0 : Int) < 2 ^ type.bits := by positivity
      have low := Int.emod_nonneg value size.ne'
      have high := Int.emod_lt_of_pos value size
      simp only [Bool.false_eq_true, if_false]
      omega

/-- The cast keeps the values of the type. -/
theorem cast_of_represents (type : IntType) (positive : 0 < type.bits) {value : Int}
    (represents : type.Represents value) : type.cast value = value := by
  unfold Represents min max at represents
  unfold cast
  cases signed : type.signed with
  | true =>
      rw [signed, if_pos rfl, if_pos rfl] at represents
      have double := two_mul_pow_pred positive
      rw [if_pos rfl]
      apply Int.bmod_eq_of_le_mul_two
      · push_cast
        omega
      · push_cast
        omega
  | false =>
      rw [signed, if_neg Bool.false_ne_true, if_neg Bool.false_ne_true] at represents
      rw [if_neg Bool.false_ne_true]
      exact Int.emod_eq_of_lt represents.1 (by omega)

theorem cast_eq_iff (type : IntType) (positive : 0 < type.bits) (value : Int) :
    type.cast value = value ↔ type.Represents value :=
  ⟨fun same => same ▸ type.represents_cast positive value, type.cast_of_represents positive⟩

/-- A wider type of the same kind has the values of the narrower one. -/
theorem Represents.widen (narrow wide : IntType) (same : narrow.signed = wide.signed)
    (fits : narrow.bits ≤ wide.bits) {value : Int} (represents : narrow.Represents value) :
    wide.Represents value := by
  unfold Represents min max at *
  rw [same] at represents
  have powers : (2 ^ narrow.bits : Int) ≤ 2 ^ wide.bits :=
    pow_le_pow_right₀ (by norm_num) fits
  have halves : (2 ^ (narrow.bits - 1) : Int) ≤ 2 ^ (wide.bits - 1) :=
    pow_le_pow_right₀ (by norm_num) (Nat.sub_le_sub_right fits 1)
  cases signed : wide.signed with
  | true =>
      simp only [signed, if_true] at represents ⊢
      omega
  | false =>
      simp only [signed, Bool.false_eq_true, if_false] at represents ⊢
      omega

end IntType

namespace Strtol

/-- The function `isspace` of the C locale. -/
def isspace (c : UInt8) : Bool := c = 32 ∨ 9 ≤ c ∧ c ≤ 13

def minus : UInt8 := 45

def plus : UInt8 := 43

/-- The value of a digit or letter. It is 36 for the characters that are neither. -/
def digitValue (c : UInt8) : Nat :=
  if 48 ≤ c ∧ c ≤ 57 then c.toNat - 48
  else if 65 ≤ c ∧ c ≤ 90 then c.toNat - 55
  else if 97 ≤ c ∧ c ≤ 122 then c.toNat - 87
  else 36

/-- The text starts with `0x` and a hexadecimal digit. -/
def hexPrefix (text : List UInt8) : Bool :=
  text.head? = some 48 ∧ (text[1]? = some 120 ∨ text[1]? = some 88) ∧
    (text[2]?.map digitValue).getD 36 < 16

/-- The base of the digits and the text from the first digit on. -/
def radix (base : Nat) (text : List UInt8) : Nat × List UInt8 :=
  if (base = 0 ∨ base = 16) ∧ hexPrefix text then (16, text.drop 2)
  else if base = 0 then (if text.head? = some 48 then 8 else 10, text)
  else (base, text)

/-- The number of these digits. -/
def magnitude (base : Nat) (digits : List UInt8) : Nat :=
  digits.foldl (fun number digit => number * base + digitValue digit) 0

/-- A number at the start of a text and the text behind it. -/
structure Subject where
  number : Int
  rest : List UInt8
  deriving DecidableEq

def signed (negative : Bool) (magnitude : Nat) : Int :=
  if negative then -magnitude else magnitude

/-- The subject sequence of the text. The base is 0 or lies between 2 and 36. -/
def subject (base : Nat) (text : List UInt8) : Option Subject :=
  let text := text.dropWhile isspace
  let negative := text.head? = some minus
  let unsigned := if negative ∨ text.head? = some plus then text.tail else text
  let (base, text) := radix base unsigned
  let digits := text.takeWhile (digitValue · < base)
  if digits = [] then none
  else some ⟨signed negative (magnitude base digits), text.dropWhile (digitValue · < base)⟩

/-- What a conversion returns, the text from `endptr` on, and whether it sets `errno` to `ERANGE`. -/
structure Conversion where
  value : Int
  endptr : List UInt8
  erange : Bool
  deriving DecidableEq

/-- `strtoul` for an unsigned type of this size. A minus sign negates in the type. -/
def strtoul (bits : Nat) (nptr : List UInt8) (base : Nat) : Conversion :=
  match subject base nptr with
  | none => ⟨0, nptr, false⟩
  | some ⟨number, rest⟩ =>
      if number.natAbs < 2 ^ bits then ⟨number % 2 ^ bits, rest, false⟩
      else ⟨2 ^ bits - 1, rest, true⟩

/-- `strtol` for a signed type of this size. -/
def strtol (bits : Nat) (nptr : List UInt8) (base : Nat) : Conversion :=
  match subject base nptr with
  | none => ⟨0, nptr, false⟩
  | some ⟨number, rest⟩ =>
      if number < -2 ^ (bits - 1) then ⟨-2 ^ (bits - 1), rest, true⟩
      else if number > 2 ^ (bits - 1) - 1 then ⟨2 ^ (bits - 1) - 1, rest, true⟩
      else ⟨number, rest, false⟩

/-- The text is white space and an optionally signed decimal numeral of this number. -/
def Denotes (text : List UInt8) (number : Int) : Prop :=
  ∃ white sign digits, text = white ++ (sign ++ digits) ∧ (∀ c ∈ white, isspace c) ∧
    (sign = [] ∨ sign = [plus] ∨ sign = [minus]) ∧ digits ≠ [] ∧
    (∀ c ∈ digits, digitValue c < 10) ∧
    number = signed (sign = [minus]) (magnitude 10 digits)

theorem dropWhile_append {p : UInt8 → Bool} {white rest : List UInt8} (all : ∀ c ∈ white, p c)
    (stop : ∀ c ∈ rest.head?, p c = false) : (white ++ rest).dropWhile p = rest := by
  rw [List.dropWhile_append_of_pos all]
  cases rest with
  | nil => rfl
  | cons c rest => rw [List.dropWhile_cons_of_neg (by rw [stop c rfl]; exact Bool.false_ne_true)]

/-- A decimal digit is neither white space nor a sign. -/
theorem digit_plain : ∀ c : UInt8, digitValue c < 10 →
    isspace c = false ∧ c ≠ minus ∧ c ≠ plus ∧ c ≠ 0 := by
  intro c digit
  rw [digitValue] at digit
  have range : 48 ≤ c ∧ c ≤ 57 := by
    by_contra other
    rw [if_neg other] at digit
    split at digit
    · next letter =>
        have low := UInt8.le_iff_toNat_le.mp letter.1
        simp at low
        omega
    · split at digit
      · next letter =>
          have low := UInt8.le_iff_toNat_le.mp letter.1
          simp at low
          omega
      · omega
  have low := UInt8.le_iff_toNat_le.mp range.1
  have high := UInt8.le_iff_toNat_le.mp range.2
  simp only [UInt8.reduceToNat] at low high
  refine ⟨?_, ?_, ?_, ?_⟩
  · rw [isspace, decide_eq_false_iff_not]
    rintro (rfl | ⟨-, small⟩)
    · simp at low
    · have small := UInt8.le_iff_toNat_le.mp small
      simp at small
      omega
  all_goals
    rintro rfl
    simp [minus, plus] at low

theorem radix_ten (text : List UInt8) : radix 10 text = (10, text) := by
  rw [radix, if_neg (by omega), if_neg (by omega)]

/-- The sign in front of a text and the text behind it. -/
theorem sign_cases (text : List UInt8) : ∃ sign unsigned, text = sign ++ unsigned ∧
    (sign = [] ∨ sign = [plus] ∨ sign = [minus]) ∧
    (if text.head? = some minus ∨ text.head? = some plus then text.tail else text) = unsigned ∧
    (text.head? = some minus ↔ sign = [minus]) := by
  by_cases negative : text.head? = some minus
  · obtain ⟨rest, rfl⟩ := List.head?_eq_some_iff.mp negative
    exact ⟨[minus], rest, rfl, .inr (.inr rfl), if_pos (.inl rfl), iff_of_true rfl rfl⟩
  · by_cases positive : text.head? = some plus
    · obtain ⟨rest, rfl⟩ := List.head?_eq_some_iff.mp positive
      exact ⟨[plus], rest, rfl, .inr (.inl rfl), if_pos (.inr rfl),
        iff_of_false negative (by decide)⟩
    · exact ⟨[], text, rfl, .inl rfl, if_neg (by tauto), iff_of_false negative (by decide)⟩

/-- The head of a text with this sign in front of a digit. -/
theorem head_signed {sign digits : List UInt8} (isSign : sign = [] ∨ sign = [plus] ∨ sign = [minus])
    (nonempty : digits ≠ []) (decimal : ∀ c ∈ digits, digitValue c < 10) :
    ((sign ++ digits).head? = some minus ↔ sign = [minus]) ∧
    (if (sign ++ digits).head? = some minus ∨ (sign ++ digits).head? = some plus then
      (sign ++ digits).tail else sign ++ digits) = digits ∧
    ∀ c ∈ (sign ++ digits).head?, isspace c = false := by
  obtain ⟨digit, digits, rfl⟩ := List.exists_cons_of_ne_nil nonempty
  obtain ⟨notSpace, notMinus, notPlus, -⟩ := digit_plain digit (decimal digit List.mem_cons_self)
  rcases isSign with rfl | rfl | rfl
  · simp [notMinus, notPlus, notSpace]
  · simp [minus, plus, isspace]
  · simp [minus, plus, isspace]

theorem subject_denotes {text : List UInt8} {number : Int} (denotes : Denotes text number) :
    subject 10 text = some ⟨number, []⟩ := by
  obtain ⟨white, sign, digits, rfl, blank, isSign, nonempty, decimal, rfl⟩ := denotes
  obtain ⟨negative, unsigned, stop⟩ := head_signed isSign nonempty decimal
  have all : ∀ c ∈ digits, decide (digitValue c < 10) = true := fun c mem =>
    decide_eq_true (decimal c mem)
  unfold subject
  dsimp only
  rw [dropWhile_append blank stop, decide_eq_decide.mpr negative, unsigned, radix_ten]
  dsimp only
  rw [List.takeWhile_eq_self_iff.mpr all, List.dropWhile_eq_nil_iff.mpr all, if_neg nonempty]

theorem denotes_subject {text : List UInt8} {number : Int}
    (whole : subject 10 text = some ⟨number, []⟩) : Denotes text number := by
  obtain ⟨sign, unsigned, same, isSign, behind, negative⟩ := sign_cases (text.dropWhile isspace)
  unfold subject at whole
  dsimp only at whole
  rw [decide_eq_decide.mpr negative, behind, radix_ten] at whole
  dsimp only at whole
  split at whole
  · exact absurd whole nofun
  · next nonempty =>
      obtain ⟨value, none⟩ := Subject.mk.inj (Option.some.inj whole)
      have all := List.takeWhile_append_dropWhile (p := (digitValue · < 10)) (l := unsigned)
      rw [none, List.append_nil] at all
      refine ⟨text.takeWhile isspace, sign, unsigned, ?_, ?_, isSign, ?_, ?_, ?_⟩
      · rw [← same, List.takeWhile_append_dropWhile]
      · exact fun c mem => List.mem_takeWhile_imp mem
      · rw [← all]
        exact nonempty
      · intro c mem
        rw [← all] at mem
        exact of_decide_eq_true (List.mem_takeWhile_imp (p := (digitValue · < 10)) mem)
      · rw [← value, all]

/-- The subject sequence is the whole text exactly when the text is a numeral. -/
theorem denotes_iff (text : List UInt8) (number : Int) :
    Denotes text number ↔ subject 10 text = some ⟨number, []⟩ :=
  ⟨subject_denotes, denotes_subject⟩

theorem Denotes.unique {text : List UInt8} {number other : Int} (denotes : Denotes text number)
    (also : Denotes text other) : number = other := by
  have same := (subject_denotes denotes).symm.trans (subject_denotes also)
  exact congrArg Subject.number (Option.some.inj same)

theorem Denotes.zero_notMem {text : List UInt8} {number : Int} (denotes : Denotes text number) :
    (0 : UInt8) ∉ text := by
  obtain ⟨white, sign, digits, rfl, blank, isSign, -, decimal, -⟩ := denotes
  intro mem
  rw [List.mem_append, List.mem_append] at mem
  rcases mem with inWhite | inSign | inDigits
  · exact absurd (blank 0 inWhite) (by decide)
  · rcases isSign with rfl | rfl | rfl
    · exact absurd inSign List.not_mem_nil
    · exact absurd inSign (by decide)
    · exact absurd inSign (by decide)
  · exact absurd (decimal 0 inDigits) (by decide)

theorem Denotes.nonempty {text : List UInt8} {number : Int} (denotes : Denotes text number) :
    text ≠ [] := by
  rintro rfl
  exact absurd ((denotes_iff [] number).mp denotes) nofun

instance (text : List UInt8) (number : Int) : Decidable (Denotes text number) :=
  decidable_of_iff' _ (denotes_iff text number)

/-- A conversion reads the whole text without an error. -/
def Conversion.Whole (conversion : Conversion) (value : Int) : Prop :=
  conversion.endptr = [] ∧ conversion.erange = false ∧ conversion.value = value

/-- The numeral of a text is its subject sequence. -/
theorem Denotes.subject_eq {text rest : List UInt8} {number other : Int}
    (denotes : Denotes text other) (reads : subject 10 text = some ⟨number, rest⟩) :
    number = other ∧ rest = [] :=
  Subject.mk.inj (Option.some.inj (reads.symm.trans (subject_denotes denotes)))

theorem subject_rest {text : List UInt8} {number : Int} {rest : List UInt8}
    (reads : subject 10 text = some ⟨number, rest⟩) : rest = [] ↔ Denotes text number := by
  rw [denotes_iff, reads]
  simp

theorem not_denotes {text : List UInt8} (none : subject 10 text = none) (number : Int) :
    ¬ Denotes text number := by
  rw [denotes_iff, none]
  exact nofun

/-- `strtol` takes the empty text for zero, and the numerals of its values for these. -/
theorem strtol_whole (bits : Nat) (text : List UInt8) (value : Int) :
    (strtol bits text 10).Whole value ↔
      text = [] ∧ value = 0 ∨ Denotes text value ∧ IntType.Represents ⟨true, bits⟩ value := by
  unfold strtol Conversion.Whole IntType.Represents IntType.min IntType.max
  rw [if_pos rfl, if_pos rfl]
  dsimp only
  split
  · next none =>
      rw [or_iff_left fun other => not_denotes none value other.1]
      exact ⟨fun whole => ⟨whole.1, whole.2.2.symm⟩, fun whole => ⟨whole.1, rfl, whole.2.symm⟩⟩
  · next number rest reads =>
      have whole := subject_rest reads
      have nonempty : text ≠ [] := by
        rintro rfl
        exact absurd reads nofun
      rw [or_iff_right fun other => nonempty other.1]
      split
      · next low =>
          refine iff_of_false (fun other => Bool.noConfusion other.2.1) ?_
          rintro ⟨denotes, range⟩
          obtain ⟨rfl, -⟩ := denotes.subject_eq reads
          omega
      · split
        · next high =>
            refine iff_of_false (fun other => Bool.noConfusion other.2.1) ?_
            rintro ⟨denotes, range⟩
            obtain ⟨rfl, -⟩ := denotes.subject_eq reads
            omega
        · constructor
          · rintro ⟨rest, -, rfl⟩
            dsimp only
            exact ⟨whole.mp rest, by omega, by omega⟩
          · rintro ⟨denotes, -⟩
            obtain ⟨rfl, rest⟩ := denotes.subject_eq reads
            exact ⟨rest, rfl, rfl⟩

/-- `strtoul` takes the empty text for zero, and numerals for their residues in the type. -/
theorem strtoul_whole (bits : Nat) (text : List UInt8) (value : Int) :
    (strtoul bits text 10).Whole value ↔ text = [] ∧ value = 0 ∨
      ∃ number, Denotes text number ∧ number.natAbs < 2 ^ bits ∧ value = number % 2 ^ bits := by
  unfold strtoul Conversion.Whole
  split
  · next none =>
      rw [or_iff_left fun ⟨number, denotes, _⟩ => not_denotes none number denotes]
      exact ⟨fun whole => ⟨whole.1, whole.2.2.symm⟩, fun whole => ⟨whole.1, rfl, whole.2.symm⟩⟩
  · next number rest reads =>
      have whole := subject_rest reads
      have nonempty : text ≠ [] := by
        rintro rfl
        exact absurd reads nofun
      rw [or_iff_right fun other => nonempty other.1]
      split
      · next small =>
          constructor
          · rintro ⟨rest, -, rfl⟩
            exact ⟨number, whole.mp rest, small, rfl⟩
          · rintro ⟨other, denotes, -, rfl⟩
            obtain ⟨rfl, rest⟩ := denotes.subject_eq reads
            exact ⟨rest, rfl, rfl⟩
      · next large =>
          refine iff_of_false (fun other => Bool.noConfusion other.2.1) ?_
          rintro ⟨other, denotes, small, -⟩
          obtain ⟨rfl, -⟩ := denotes.subject_eq reads
          exact large small

end Strtol

end Blocxx.Library
