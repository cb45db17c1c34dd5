import Blocxx.DateTime.DateTime
import Blocxx.Format.Format
import Blocxx.DateTime.Arithmetic
import Blocxx.DateTime.Calendar

/-!
This file embeds the components, the texts and the operators of `TimeDuration`, and proves for which
durations the product with an integer agrees with the unary minus and with repeated addition.
-/

namespace Blocxx.Time

open Format (Formats OStringStream)

/-- The text that `Format` makes of an integer without modifiers. -/
def decimal (value : Int) : Text :=
  if value < 0 then '-' :: (toString value.natAbs).toList else (toString value.natAbs).toList

/-- `padOnLeft` of `String.cpp`. -/
def padOnLeft (s : Text) (width : Nat) (fill : Char) : Text :=
  if s.length ≥ width then s else List.replicate (width - s.length) fill ++ s

/-- `padOnLeft` of `TimeDuration.cpp`. -/
def padNumber (val : Int) (width : Nat) : Text :=
  if val < 0 then '-' :: padOnLeft (decimal (-val)) (width - 1) '0'
  else padOnLeft (decimal val) width '0'

def getDescriptionForFlag : ESpecialTime → Text
  | .nadt => "NADT".toList
  | .posInfinity => "+infinity".toList
  | .negInfinity => "-infinity".toList
  | .notSpecial => "normal".toList

namespace TimeDuration

def isSpecial (td : TimeDuration) : Bool := td.m_special ≠ .notSpecial

def completeSeconds (td : TimeDuration) : Int := td.m_microseconds.tdiv 1000000

def completeMinutes (td : TimeDuration) : Int := td.completeSeconds.tdiv 60

def completeHours (td : TimeDuration) : Int := td.completeMinutes.tdiv 60

def completeDays (td : TimeDuration) : Int := td.completeHours.tdiv 24

def relativeDays (td : TimeDuration) : Int :=
  if td.m_microseconds < 0 then wrap32 (td.completeDays - 1) else wrap32 td.completeDays

/-- The shape of the components between the days and the microseconds. -/
def inNext (td : TimeDuration) (complete size : Int) : Int :=
  if td.m_microseconds < 0 then wrap32 (size - ((-complete).tmod size + 1))
  else wrap32 (complete.tmod size)

def hourInDay (td : TimeDuration) : Int := td.inNext td.completeHours 24

def minuteInHour (td : TimeDuration) : Int := td.inNext td.completeMinutes 60

def secondInMinute (td : TimeDuration) : Int := td.inNext td.completeSeconds 60

/-- The arguments of the format. -/
def formatArguments (td : TimeDuration) : List Text :=
  [decimal td.relativeDays, padNumber td.hourInDay 2, padNumber td.minuteInHour 2,
    padNumber td.secondInMinute 2,
    padNumber td.secondInMinute 2 ++ ('.' :: padNumber td.microsecondInSecond 6),
    decimal (td.completeHours + if td.m_microseconds < 0 then -1 else 0),
    decimal td.completeMinutes, decimal td.completeSeconds, decimal td.m_microseconds]

/-- `toString` with this format returns the text. -/
def Shows (td : TimeDuration) (formatStr text : Text) : Prop :=
  if td.m_special = .notSpecial then
    ∃ oss, Formats formatStr td.formatArguments (.ok oss) ∧
      text = oss.toString td.formatArguments
  else text = getDescriptionForFlag td.m_special

def defaultFormat : Text := "%6:%3:%5".toList

/-- `toString` without a format returns the text. -/
def ShowsDefault (td : TimeDuration) (text : Text) : Prop := td.Shows defaultFormat text

/-- The product with the factor on the right. -/
def mul (td : TimeDuration) (factor : Int) : TimeDuration :=
  if td.isSpecial then td else ofMicroseconds (wrap64 (td.m_microseconds * factor))

/-- The product with the factor on the left. -/
def mulLeft (factor : Int) (td : TimeDuration) : TimeDuration :=
  if td.isSpecial then td else ofMicroseconds (wrap64 (td.m_microseconds * factor))

def add (td1 td2 : TimeDuration) : TimeDuration :=
  let flag1 := td1.m_special
  let flag2 := td2.m_special
  if flag1 = .nadt ∨ flag2 = .nadt then ofSpecial .nadt
  else if (flag1 = .posInfinity ∧ flag2 = .negInfinity) ∨
      (flag1 = .negInfinity ∧ flag2 = .posInfinity) then ofMicroseconds 0
  else if flag1 ≠ .notSpecial then td1
  else if flag2 ≠ .notSpecial then td2
  else ofMicroseconds (wrap64 (td1.m_microseconds + td2.m_microseconds))

end TimeDuration

end Blocxx.Time

namespace Blocxx.Time.TimeDuration

/-- The value is one of an `Int64`. -/
def FitsInt64 (value : Int) : Prop := -2 ^ 63 ≤ value ∧ value < 2 ^ 63

instance (value : Int) : Decidable (FitsInt64 value) := inferInstanceAs (Decidable (_ ∧ _))

/-- What the constructors and operators make: a special duration has no microseconds. -/
structure IsMade (td : TimeDuration) : Prop where
  stored : td.Stored
  special : td.m_special ≠ .notSpecial → td.m_microseconds = 0

/-- The laws of the product. The factors are values of an `int`, and no `Int64` overflows. -/
structure Scales (td : TimeDuration) : Prop where
  opposite : FitsInt64 (td.m_microseconds * -1) → td.mul (-1) = td.neg
  sum : ∀ m n : Int, FitsInt m → FitsInt n → FitsInt (m + n) → 0 < m → 0 < n →
    FitsInt64 (td.m_microseconds * m) → FitsInt64 (td.m_microseconds * n) →
      FitsInt64 (td.m_microseconds * m + td.m_microseconds * n) →
        (td.mul m).add (td.mul n) = td.mul (m + n)
  product : ∀ m n : Int, FitsInt m → FitsInt n → FitsInt (m * n) → 0 < m → 0 < n →
    FitsInt64 (td.m_microseconds * m) → FitsInt64 (td.m_microseconds * m * n) →
      (td.mul m).mul n = td.mul (m * n)
  commutes : ∀ factor : Int, FitsInt factor → FitsInt64 (td.m_microseconds * factor) →
    mulLeft factor td = td.mul factor

def isInfinite (td : TimeDuration) : Bool :=
  td.m_special = .posInfinity ∨ td.m_special = .negInfinity

theorem wrap64_of_fits {value : Int} (fits : FitsInt64 value) : wrap64 value = value := by
  unfold FitsInt64 at fits
  simp only [wrap64, Int.bmod_def]
  omega

theorem mul_plain {us factor : Int} (fits : FitsInt64 (us * factor)) :
    (ofMicroseconds us).mul factor = ofMicroseconds (us * factor) := by
  have plain : (ofMicroseconds us).isSpecial = false := rfl
  rw [mul, plain, if_neg Bool.false_ne_true]
  exact congrArg ofMicroseconds (wrap64_of_fits fits)

theorem add_plain {us other : Int} (fits : FitsInt64 (us + other)) :
    (ofMicroseconds us).add (ofMicroseconds other) = ofMicroseconds (us + other) :=
  congrArg ofMicroseconds (wrap64_of_fits fits)

/-- The laws hold for all microseconds. -/
theorem scales_plain (us : Int) : (ofMicroseconds us).Scales where
  opposite fits := by
    change FitsInt64 (us * -1) at fits
    rw [mul_plain fits, mul_neg_one]
    rw [mul_neg_one] at fits
    exact (congrArg ofMicroseconds (wrap64_of_fits fits)).symm
  sum m n _ _ _ _ _ first second both := by
    change FitsInt64 (us * m) at first
    change FitsInt64 (us * n) at second
    change FitsInt64 (us * m + us * n) at both
    rw [mul_plain first, mul_plain second, add_plain both, ← mul_add]
    rw [← mul_add] at both
    exact (mul_plain both).symm
  product m n _ _ _ _ _ first both := by
    change FitsInt64 (us * m) at first
    change FitsInt64 (us * m * n) at both
    rw [mul_plain first, mul_plain both, mul_assoc]
    rw [mul_assoc] at both
    exact (mul_plain both).symm
  commutes _ _ _ := rfl

theorem scales_nadt : (ofSpecial .nadt).Scales where
  opposite _ := rfl
  sum _ _ _ _ _ _ _ _ _ _ := rfl
  product _ _ _ _ _ _ _ _ _ := rfl
  commutes _ _ _ := rfl

theorem infinite_not_scales {special : ESpecialTime} (infinite : (ofSpecial special).isInfinite) :
    ¬ (ofSpecial special).Scales := by
  intro scales
  have zero : FitsInt64 (0 * -1) := by decide
  have opposite := scales.opposite zero
  cases special with
  | posInfinity => exact absurd opposite (by decide)
  | negInfinity => exact absurd opposite (by decide)
  | notSpecial => exact absurd infinite (by decide)
  | nadt => exact absurd infinite (by decide)

/-- The laws hold exactly for the durations that are not infinite. -/
theorem scales_iff {td : TimeDuration} (made : td.IsMade) :
    td.Scales ↔ td.isInfinite = false := by
  by_cases plain : td.m_special = .notSpecial
  · obtain ⟨us, flag⟩ := td
    obtain rfl : flag = .notSpecial := plain
    exact iff_of_true (scales_plain us) rfl
  · have none := made.special plain
    obtain ⟨us, special⟩ := td
    obtain rfl : us = 0 := none
    cases infinite : (ofSpecial special).isInfinite with
    | true =>
        refine iff_of_false (infinite_not_scales infinite) ?_
        rw [ofSpecial] at infinite
        rw [infinite]
        exact Bool.noConfusion
    | false =>
        refine iff_of_true ?_ infinite
        cases special with
        | posInfinity => exact absurd infinite (by decide)
        | negInfinity => exact absurd infinite (by decide)
        | notSpecial => exact absurd rfl plain
        | nadt => exact scales_nadt

theorem scales_second : (ofMicroseconds 1000000).Scales :=
  (scales_iff ⟨⟨by decide, by decide⟩, fun special => absurd rfl special⟩).mpr rfl

/-- The product of an infinite duration with minus one keeps its sign. -/
theorem posInfinity_not_scales : ¬ (ofSpecial .posInfinity).Scales := infinite_not_scales rfl

end Blocxx.Time.TimeDuration
