import Mathlib.Data.List.GetD
import Blocxx.DateTime.WrittenFields

/-!
This file compares the dates of the CIM format with the instants that they denote.
-/

namespace Blocxx.Time

open Library

/-- The form `yyyymmddhhmmss.mmmmmmsutc`, where an asterisk may stand for a digit. -/
structure CIMString (str : Text) : Prop where
  length : str.length = 25
  point : str.getD 14 ' ' = '.'
  sign : str.getD 21 ' ' = '+' ∨ str.getD 21 ' ' = '-'
  digits : ∀ index < 25, index ≠ 14 ∧ index ≠ 21 →
    isDigit (str.getD index ' ') = true ∨ str.getD index ' ' = '*'

/-- Asterisks are read as zeros. -/
def cimDigit (c : Char) : Char := if c = '*' then '0' else c

/-- The number in a part of the string. -/
def cimNumber (str : Text) (beginIndex len : Nat) : Int :=
  digitsValue (substring (str.map cimDigit) beginIndex len)

def cimFields (str : Text) : Parsed where
  year := cimNumber str 0 4
  month := cimNumber str 4 2
  day := cimNumber str 6 2
  hour := cimNumber str 8 2
  minute := cimNumber str 10 2
  second := cimNumber str 12 2
  microseconds := cimNumber str 15 6

/-- The minutes by which the written time is ahead of UTC. -/
def cimOffset (str : Text) : Int :=
  if str.getD 21 ' ' = '+' then cimNumber str 22 3 else -cimNumber str 22 3

def cimInstant (str : Text) : Int := (cimFields str).instant - cimOffset str * 60

/-- The constructor gives the instant of the string, or throws when that is not in range. -/
structure CIMExact (library : CLibrary) (str : Text) : Prop where
  within : WithinLimits (cimInstant str) →
    DateTime.ofString library str = .ok ⟨cimInstant str, cimNumber str 15 6⟩
  outside : ¬ WithinLimits (cimInstant str) →
    ∃ exception, DateTime.ofString library str = .error exception

/-- The numbers of the string are converted without an exception. -/
theorem cimNumber_read {str : Text} (form : CIMString str) {beginIndex len : Nat}
    (some : 0 < len) (short : len ≤ 9) (inside : beginIndex + len ≤ 25)
    (other : beginIndex + len ≤ 14 ∨ 14 < beginIndex ∧ beginIndex + len ≤ 21 ∨ 21 < beginIndex) :
    toInt32 (substring (str.map cimDigit) beginIndex len) =
      Option.some (cimNumber str beginIndex len) ∧
      0 ≤ cimNumber str beginIndex len ∧ cimNumber str beginIndex len < 10 ^ len := by
  have long := form.length
  have length : (substring (str.map cimDigit) beginIndex len).length = len := by
    simp only [substring, List.length_take, List.length_drop, List.length_map]
    omega
  have all : ∀ c ∈ substring (str.map cimDigit) beginIndex len, isDigit c = true := by
    intro c member
    obtain ⟨index, bound, rfl⟩ := List.getElem_of_mem member
    rw [length] at bound
    have here : beginIndex + index < str.length := by omega
    have digit := form.digits (beginIndex + index) (by omega) (by omega)
    rw [List.getD_eq_getElem _ _ here] at digit
    simp only [substring, List.getElem_take, List.getElem_drop, List.getElem_map]
    rcases digit with digit | asterisk
    · have notAsterisk : str[beginIndex + index] ≠ '*' := by
        intro same
        rw [same] at digit
        exact absurd digit (by decide)
      rw [cimDigit, if_neg notAsterisk]
      exact digit
    · rw [asterisk]
      decide
  have bounds := digitsValue_bounds all
  rw [length] at bounds
  exact ⟨toInt32_digits all (List.ne_nil_of_length_pos (by omega)) (by omega), bounds⟩

/-- The branch of the CIM format, for a string of the form. -/
theorem readCIM_form {str : Text} (form : CIMString str) (inRanges : (cimFields str).InRanges) :
    readCIM str = .ok (some (({ cimFields str with
      minute := (cimFields str).minute - cimOffset str } : Parsed).fields .utcTime)) := by
  have year := (@cimNumber_read str form 0 4 (by omega) (by omega) (by omega) (by omega)).1
  have month := (@cimNumber_read str form 4 2 (by omega) (by omega) (by omega) (by omega)).1
  have day := (@cimNumber_read str form 6 2 (by omega) (by omega) (by omega) (by omega)).1
  have hour := (@cimNumber_read str form 8 2 (by omega) (by omega) (by omega) (by omega)).1
  have minute := (@cimNumber_read str form 10 2 (by omega) (by omega) (by omega) (by omega)).1
  have second := (@cimNumber_read str form 12 2 (by omega) (by omega) (by omega) (by omega)).1
  have micros := (@cimNumber_read str form 15 6 (by omega) (by omega) (by omega) (by omega)).1
  have utc := (@cimNumber_read str form 22 3 (by omega) (by omega) (by omega) (by omega)).1
  have numbers : cimNumbers (str.map cimDigit) = some (cimFields str) := by
    unfold cimNumbers
    rw [year, month, day, hour, minute, second, micros]
    rfl
  have offset : (cimFields str).minute +
      (if str.getD 21 ' ' = '+' then 0 - cimNumber str 22 3 else cimNumber str 22 3) =
        (cimFields str).minute - cimOffset str := by
    unfold cimOffset
    split <;> omega
  have asterisks : (fun c => if c = '*' then '0' else c) = cimDigit := rfl
  unfold readCIM
  rw [if_pos ⟨form.length, form.point, form.sign⟩, asterisks]
  dsimp only
  rw [numbers, utc]
  dsimp only
  rw [validateRanges_of inRanges, offset]
  rfl

/-- Minutes add to the instant, in whichever field they are. -/
theorem instant_minute (parsed : Parsed) (offset : Int) :
    ({ parsed with minute := parsed.minute - offset } : Parsed).instant =
      parsed.instant - offset * 60 := by
  unfold Parsed.instant Time.instant Parsed.tm
  dsimp only
  omega

/-- What the constructor makes of a string of the form. -/
theorem ofString_cim (library : CLibrary) {str : Text} (form : CIMString str)
    (inRanges : (cimFields str).InRanges) :
    (WithinLimits (cimInstant str) → DateTime.ofString library str =
        .ok ⟨cimInstant str + (if InYear 0 (cimInstant str) then 86400 else 0),
          cimNumber str 15 6⟩) ∧
      (¬ WithinLimits (cimInstant str) →
        ∃ exception, DateTime.ofString library str = .error exception) := by
  have utc := (@cimNumber_read str form 22 3 (by omega) (by omega) (by omega) (by omega)).2
  have small : -2000 ≤ (cimFields str).minute - cimOffset str ∧
      (cimFields str).minute - cimOffset str ≤ 2000 := by
    have minute := inRanges.minute
    unfold cimOffset
    split <;> omega
  have set := set_fields library inRanges small
  dsimp only at set
  rw [instant_minute, show (cimFields str).instant - cimOffset str * 60 = cimInstant str from rfl]
    at set
  have call : DateTime.ofString library str = DateTime.set library
      (({ cimFields str with minute := (cimFields str).minute - cimOffset str } : Parsed).fields
        .utcTime) := by
    unfold DateTime.ofString parse
    rw [readCIM_form form inRanges]
    rfl
  rw [call]
  exact set

/-- An instant of the year 0 comes out a day late. -/
theorem not_cimExact {library : CLibrary} {str : Text} (form : CIMString str)
    (inRanges : (cimFields str).InRanges) (inYear : InYear 0 (cimInstant str)) :
    ¬ CIMExact library str := by
  intro exactly
  have limits : WithinLimits (cimInstant str) := by
    obtain ⟨low, high⟩ := limits_years
    have next : Gregorian.yearStart 1 < Gregorian.yearStart 10000 :=
      Gregorian.yearStart_lt (by decide)
    unfold InYear at inYear
    rw [zero_add] at inYear
    unfold WithinLimits
    omega
  have late := (ofString_cim library form inRanges).1 limits
  rw [exactly.within limits, if_pos inYear] at late
  have same := congrArg DateTime.m_seconds (Except.ok.inj late)
  dsimp only at same
  omega

/-- A string of the CIM format denotes its instant exactly when that is not in the year 0. -/
theorem cimExact_iff (library : CLibrary) (str : Text) (form : CIMString str)
    (inRanges : (cimFields str).InRanges) : CIMExact library str ↔ ¬ InYear 0 (cimInstant str) := by
  constructor
  · intro exactly inYear
    exact not_cimExact form inRanges inYear exactly
  · intro later
    obtain ⟨within, outside⟩ := ofString_cim library form inRanges
    refine ⟨fun limits => ?_, outside⟩
    rw [within limits, if_neg later, add_zero]

/-- Half an hour into March, an hour ahead of UTC, where it is still the leap day. -/
def leapNight : Text := "20200301003000.******+060".toList

theorem cimExact_iff_leapNight :
    CIMExact utcLibrary leapNight ↔ ¬ InYear 0 (cimInstant leapNight) :=
  cimExact_iff utcLibrary leapNight ⟨by decide, by decide, by decide, by decide⟩
    ⟨by decide, by decide, by decide, by decide, by decide, by decide, by decide⟩

/-- The first midnight of the year 1, an hour ahead of UTC, is in the year 0. -/
def firstMidnight : Text := "00010101000000.000000+060".toList

theorem cim_firstMidnight : CIMString firstMidnight ∧ (cimFields firstMidnight).InRanges ∧
    1 ≤ (cimFields firstMidnight).year ∧ ¬ CIMExact utcLibrary firstMidnight := by
  have form : CIMString firstMidnight := ⟨by decide, by decide, by decide, by decide⟩
  have inRanges : (cimFields firstMidnight).InRanges :=
    ⟨by decide, by decide, by decide, by decide, by decide, by decide, by decide⟩
  have before : cimInstant firstMidnight = -62135600400 := by
    unfold cimInstant Parsed.instant Time.instant Gregorian.dayNumber
    rw [Gregorian.yearStart_eq]
    decide +kernel
  have inYear : InYear 0 (cimInstant firstMidnight) := by
    rw [before]
    unfold InYear
    rw [Gregorian.yearStart_eq, Gregorian.yearStart_eq]
    decide
  exact ⟨form, inRanges, by decide, not_cimExact form inRanges inYear⟩

end Blocxx.Time
