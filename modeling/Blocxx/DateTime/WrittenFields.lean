import Mathlib.Data.List.TakeWhile
import Blocxx.DateTime.SmallFields
import Blocxx.DateTime.Parse

/-!
This file relates the fields that are read from a string to the instant that is stored.
-/

namespace Blocxx.Time

open Library Library.Gregorian

/-- The ranges that `VALIDATE_RANGES` checks. -/
structure Parsed.InRanges (parsed : Parsed) : Prop where
  year : DATETIME_MINIMUM_YEAR ≤ parsed.year ∧ parsed.year ≤ DATETIME_MAXIMUM_YEAR
  month : 1 ≤ parsed.month ∧ parsed.month ≤ 12
  day : 1 ≤ parsed.day ∧ parsed.day ≤ 31
  hour : 0 ≤ parsed.hour ∧ parsed.hour ≤ 23
  minute : 0 ≤ parsed.minute ∧ parsed.minute ≤ 59
  second : 0 ≤ parsed.second ∧ parsed.second ≤ 60
  microseconds : 0 ≤ parsed.microseconds ∧ parsed.microseconds ≤ MICROSECONDS_PER_SECOND - 1

/-- The `struct tm` of the fields in UTC. -/
def Parsed.tm (parsed : Parsed) : Tm :=
  ⟨parsed.second, parsed.minute, parsed.hour, parsed.day, parsed.month - 1, parsed.year - 1900, 0⟩

/-- The seconds from the epoch to the instant that the fields denote in UTC. -/
def Parsed.instant (parsed : Parsed) : Int := Time.instant parsed.tm

section Digits

theorem digitsValue_bounds {digits : Text} (all : ∀ c ∈ digits, isDigit c = true) :
    0 ≤ digitsValue digits ∧ digitsValue digits < 10 ^ digits.length := by
  have digit {c : Char} (is : isDigit c = true) : c.toNat - '0'.toNat ≤ 9 := by
    have range : '0' ≤ c ∧ c ≤ '9' := of_decide_eq_true is
    have most : c.toNat ≤ '9'.toNat := range.2
    have nine : '9'.toNat = 57 := rfl
    have zero : '0'.toNat = 48 := rfl
    omega
  have fold (digits : Text) : ∀ value : Int, (∀ c ∈ digits, isDigit c = true) → 0 ≤ value →
      0 ≤ digits.foldl (fun (value : Int) digit => value * 10 + (digit.toNat - '0'.toNat : Nat)) value ∧
        digits.foldl (fun (value : Int) digit => value * 10 + (digit.toNat - '0'.toNat : Nat)) value <
          (value + 1) * 10 ^ digits.length := by
    induction digits with
    | nil =>
        intro value _ nonnegative
        simp only [List.foldl_nil, List.length_nil, pow_zero]
        omega
    | cons c rest ih =>
        intro value all nonnegative
        have small := digit (all c (by simp))
        rw [List.foldl_cons, List.length_cons, pow_succ']
        obtain ⟨low, high⟩ := ih (value * 10 + (c.toNat - '0'.toNat : Nat))
          (fun other member => all other (by simp [member])) (by omega)
        refine ⟨low, lt_of_lt_of_le high ?_⟩
        rw [← mul_assoc]
        exact mul_le_mul_of_nonneg_right (by omega) (by positivity)
  have whole := fold digits 0 all le_rfl
  rw [zero_add, one_mul] at whole
  exact whole

/-- The conversion of a few decimal digits is their value. -/
theorem toInt32_digits {digits : Text} (all : ∀ c ∈ digits, isDigit c = true)
    (some : digits ≠ []) (short : digits.length ≤ 9) :
    toInt32 digits = Option.some (digitsValue digits) := by
  have plain {c : Char} (is : isDigit c = true) :
      c ≠ '\x00' ∧ isSpace c = false ∧ c ≠ '-' ∧ c ≠ '+' := by
    refine ⟨?_, ?_, ?_, ?_⟩
    · rintro rfl
      exact absurd is (by decide)
    · rw [Bool.eq_false_iff]
      intro space
      have one : c ∈ [' ', '\t', '\n', '\x0b', '\x0c', '\r'] := of_decide_eq_true space
      simp only [List.mem_cons, List.not_mem_nil, or_false] at one
      rcases one with rfl | rfl | rfl | rfl | rfl | rfl <;> exact absurd is (by decide)
    · rintro rfl
      exact absurd is (by decide)
    · rintro rfl
      exact absurd is (by decide)
  have seen : cString digits = digits :=
    List.takeWhile_eq_self_iff.mpr fun c member => by simp [(plain (all c member)).1]
  have read : digits.takeWhile isDigit = digits := List.takeWhile_eq_self_iff.mpr all
  have rest : digits.dropWhile isDigit = [] := List.dropWhile_eq_nil_iff.mpr all
  obtain ⟨first, others, rfl⟩ := List.exists_cons_of_ne_nil some
  obtain ⟨-, noSpace, noMinus, noPlus⟩ := plain (all first (by simp))
  have unspaced : (first :: others).dropWhile isSpace = first :: others :=
    List.dropWhile_cons_of_neg (by simp [noSpace])
  have bounds := digitsValue_bounds all
  have power : (10 : Int) ^ (first :: others).length ≤ 10 ^ 9 := pow_le_pow_right₀ (by decide) short
  have inside : ¬ (digitsValue (first :: others) < -2 ^ 31 ∨
      digitsValue (first :: others) > 2 ^ 31 - 1) := by
    omega
  unfold toInt32
  rw [if_neg some, seen, if_neg some, unspaced]
  simp only [List.head?_cons, Option.some.injEq, noMinus, noPlus, decide_false,
    Bool.false_eq_true, or_self, if_false]
  rw [read, rest, if_neg (by simp), if_neg inside]

end Digits

section Ranges

theorem validateRange_of {value minValue maxValue : Int} (low : minValue ≤ value)
    (high : value ≤ maxValue) (str : String) :
    validateRange value minValue maxValue str = .ok () :=
  if_neg (by omega)

theorem validateRanges_of {parsed : Parsed} (inRanges : parsed.InRanges) (str : String) :
    validateRanges parsed str = .ok () := by
  obtain ⟨year, month, day, hour, minute, second, microseconds⟩ := inRanges
  unfold validateRanges
  rw [validateRange_of year.1 year.2, validateRange_of month.1 month.2,
    validateRange_of day.1 day.2, validateRange_of hour.1 hour.2,
    validateRange_of minute.1 minute.2, validateRange_of second.1 second.2,
    validateRange_of microseconds.1 microseconds.2]
  rfl

/-- A field out of its range is an exception. -/
theorem validateRanges_error {parsed : Parsed} (outside : ¬ parsed.InRanges) (str : String) :
    ∃ exception, validateRanges parsed str = .error exception := by
  cases checked : validateRanges parsed str with
  | error exception => exact ⟨exception, rfl⟩
  | ok answer =>
      obtain ⟨_, year, checked⟩ := bind_eq_ok.mp checked
      obtain ⟨_, month, checked⟩ := bind_eq_ok.mp checked
      obtain ⟨_, day, checked⟩ := bind_eq_ok.mp checked
      obtain ⟨_, hour, checked⟩ := bind_eq_ok.mp checked
      obtain ⟨_, minute, checked⟩ := bind_eq_ok.mp checked
      obtain ⟨_, second, microseconds⟩ := bind_eq_ok.mp checked
      exact absurd ⟨validateRange_ok year, validateRange_ok month, validateRange_ok day,
        validateRange_ok hour, validateRange_ok minute, validateRange_ok second,
        validateRange_ok microseconds⟩ outside

/-- The fields that `set` takes over without a change. The minute may have an offset. -/
theorem fields_tm {parsed : Parsed} (inRanges : parsed.InRanges) (minute : Int) :
    (({ parsed with minute := minute } : Parsed).fields .utcTime).tm =
      ({ parsed with minute := minute } : Parsed).tm := by
  obtain ⟨⟨least, most⟩, month, day, hour, -, second, low, high⟩ := inRanges
  simp only [DATETIME_MINIMUM_YEAR, DATETIME_MAXIMUM_YEAR] at least most
  simp only [MICROSECONDS_PER_SECOND] at high
  have stored : (UInt32.ofInt parsed.microseconds).toNat = parsed.microseconds.toNat := by
    simp only [UInt32.ofInt, UInt32.toNat_ofNat']
    omega
  have none : ((parsed.microseconds.toNat : Int)) / 1000000 = 0 := by omega
  unfold DateTime.Fields.tm Parsed.fields Parsed.tm
  dsimp only
  rw [stored, none, add_zero, wrap32_of_fits (by unfold FitsInt; omega),
    wrap32_of_fits (by unfold FitsInt; omega), wrap32_of_fits (by unfold FitsInt; omega), if_pos rfl]

/-- What `set` stores for the fields, with the minute moved by an offset. -/
theorem set_fields (library : CLibrary) {parsed : Parsed} (inRanges : parsed.InRanges)
    {minute : Int} (small : -2000 ≤ minute ∧ minute ≤ 2000) :
    let shifted : Parsed := { parsed with minute := minute }
    (WithinLimits shifted.instant → DateTime.set library (shifted.fields .utcTime) =
        .ok ⟨shifted.instant + (if InYear 0 shifted.instant then 86400 else 0),
          parsed.microseconds⟩) ∧
      (¬ WithinLimits shifted.instant → ∃ exception,
        DateTime.set library (shifted.fields .utcTime) = .error exception) := by
  have tm := fields_tm inRanges minute
  obtain ⟨⟨least, most⟩, month, day, hour, -, second, low, high⟩ := inRanges
  simp only [DATETIME_MINIMUM_YEAR, DATETIME_MAXIMUM_YEAR] at least most
  simp only [MICROSECONDS_PER_SECOND] at high
  have fields : SmallFields ({ parsed with minute := minute } : Parsed).tm := by
    constructor <;> dsimp only [Parsed.tm] <;> omega
  have stored : wrap32 (UInt32.ofInt parsed.microseconds).toNat = parsed.microseconds := by
    have same : (UInt32.ofInt parsed.microseconds).toNat = parsed.microseconds.toNat := by
      simp only [UInt32.ofInt, UInt32.toNat_ofNat']
      omega
    rw [same, wrap32_of_fits (by unfold FitsInt; omega)]
    omega
  have seconds : DateTime.secondsOf library .utcTime
      (({ parsed with minute := minute } : Parsed).fields .utcTime).tm =
        timeGm ({ parsed with minute := minute } : Parsed).tm := by
    rw [tm]
    rfl
  dsimp only
  constructor
  · intro within
    have read := fields.timeGm_within within
    unfold DateTime.set
    dsimp only [Parsed.fields] at seconds ⊢
    rw [seconds, read, stored]
    rfl
  · intro outside
    obtain ⟨exception, read⟩ := fields.timeGm_outside outside
    unfold DateTime.set
    dsimp only [Parsed.fields] at seconds ⊢
    rw [seconds, read]
    exact ⟨exception, rfl⟩

/-- The instant is not before the first second of the year. -/
theorem Parsed.instant_ge {parsed : Parsed} (month : 1 ≤ parsed.month ∧ parsed.month ≤ 12)
    (day : 1 ≤ parsed.day) (hour : 0 ≤ parsed.hour) (minute : 0 ≤ parsed.minute)
    (second : 0 ≤ parsed.second) : yearStart parsed.year * 86400 ≤ parsed.instant := by
  have here : (parsed.month - 1) / 12 = 0 ∧ (parsed.month - 1) % 12 = parsed.month - 1 := by omega
  have before := (monthStart_range parsed.year (by omega : (parsed.month - 1).toNat < 12)).1
  have base : parsed.year - 1900 + tmYearBase = parsed.year := by
    unfold tmYearBase
    omega
  unfold Parsed.instant Time.instant Parsed.tm dayNumber
  dsimp only
  rw [base, here.1, here.2, add_zero]
  omega

theorem not_inYear_zero {parsed : Parsed} (year : 1 ≤ parsed.year)
    (start : yearStart parsed.year * 86400 ≤ parsed.instant) : ¬ InYear 0 parsed.instant := by
  have order := yearStart_le year
  rintro ⟨-, before⟩
  rw [zero_add] at before
  omega

end Ranges

/-- A library for the dates that do not use local time. -/
def utcLibrary : CLibrary where
  gmtime_r _ := ⟨0, 0, 0, 1, 0, 70, 0⟩
  localtime_r _ := ⟨0, 0, 0, 1, 0, 70, 0⟩
  mktime _ := (0, 0)

end Blocxx.Time
