import Mathlib.Tactic

/-!
This file embeds `DivRem.hpp` and `TmUtils.cpp` for a `time_t` of 64 bits. Signed overflow wraps.
-/

namespace Blocxx.Time

/-- The value that an `int` or `Int32` holds. -/
def wrap32 (value : Int) : Int := value.bmod (2 ^ 32)

/-- The value that a `time_t`, `long`, or `Int64` holds. -/
def wrap64 (value : Int) : Int := value.bmod (2 ^ 64)

/-- The quotient rounded down, where `/` truncates. -/
def divFloor (x y : Int) : Int := if 0 ≤ x then x.tdiv y else (x + 1).tdiv y - 1

def remFloor (x y : Int) : Int := if 0 ≤ x then x.tmod y else (x + 1).tmod y + y - 1

/-- The two functions are the floor division of the integers. -/
theorem divFloor_remFloor {y : Int} (positive : 0 < y) (x : Int) :
    divFloor x y = x / y ∧ remFloor x y = x % y := by
  unfold divFloor remFloor
  by_cases nonnegative : 0 ≤ x
  · rw [if_pos nonnegative, if_pos nonnegative, Int.tdiv_eq_ediv_of_nonneg nonnegative,
      Int.tmod_eq_emod_of_nonneg nonnegative]
    exact ⟨rfl, rfl⟩
  · rw [if_neg nonnegative, if_neg nonnegative, eq_comm, eq_comm (b := x % y),
      Int.ediv_emod_unique positive]
    -- The distance below minus one is divided as a natural number.
    have quotient : (x + 1).tdiv y = -(-(x + 1) / y) := by
      rw [← Int.tdiv_eq_ediv_of_nonneg (by omega), Int.neg_tdiv, neg_neg]
    have remainder : (x + 1).tmod y = -(-(x + 1) % y) := by
      rw [← Int.tmod_eq_emod_of_nonneg (by omega), Int.neg_tmod, neg_neg]
    have whole := Int.emod_add_mul_ediv (-(x + 1)) y
    have low := Int.emod_nonneg (-(x + 1)) (by omega : y ≠ 0)
    have high := Int.emod_lt_of_pos (-(x + 1)) positive
    rw [quotient, remainder]
    refine ⟨?_, by omega, by omega⟩
    rw [Int.mul_sub, Int.mul_neg]
    omega

/-- The limits that the configure test finds for this `time_t`. -/
def DATETIME_MINIMUM_YEAR : Int := 0

def DATETIME_MAXIMUM_YEAR : Int := 9999

def DATETIME_MINIMUM_TIME : Int := -62167219200

def DATETIME_MAXIMUM_TIME : Int := 253402300799

structure DateTimeException where
  message : String
  deriving DecidableEq

/-- The fields of `struct tm` that the modelled functions read. -/
structure Tm where
  tm_sec : Int
  tm_min : Int
  tm_hour : Int
  tm_mday : Int
  tm_mon : Int
  tm_year : Int
  tm_isdst : Int

def epochYear : Int := 1970

def tmYearBase : Int := 1900

def daysInMonthArr : List Int := [31, 28, 31, 30, 31, 30, 31, 31, 30, 31, 30, 31]

/-- The days before each month without and with a leap day. -/
def daysToMonthStartArr : List (Int × Int) :=
  [(0, 0), (31, 31), (59, 60), (90, 91), (120, 121), (151, 152), (181, 182), (212, 213),
    (243, 244), (273, 274), (304, 305), (334, 335)]

def year (tm : Tm) : Int := wrap32 (tm.tm_year + tmYearBase)

def isLeapYear (tm : Tm) : Bool :=
  remFloor (year tm) 4 = 0 ∧ (remFloor (year tm) 100 ≠ 0 ∨ remFloor (year tm) 400 = 0)

def daysToMonthStart (tm : Tm) : Int :=
  let days := daysToMonthStartArr.getD tm.tm_mon.toNat (0, 0)
  if isLeapYear tm then days.2 else days.1

def leapDaysFromEpochToYear (year : Int) : Int :=
  let year1 := year - 1
  let ep1 := epochYear - 1
  let leapDaysBeforeEpoch := ep1.tdiv 4 - ep1.tdiv 100 + ep1.tdiv 400
  let leapDaysBeforeYear := year1.tdiv 4 - year1.tdiv 100 + year1.tdiv 400
  leapDaysBeforeYear - leapDaysBeforeEpoch

def daysInMonth (tm : Tm) : Int :=
  daysInMonthArr.getD tm.tm_mon.toNat 0 + (if tm.tm_mon = 1 ∧ isLeapYear tm then 1 else 0)

def normMonth (tm : Tm) : Tm :=
  { tm with
    tm_mon := remFloor tm.tm_mon 12
    tm_year := wrap32 (tm.tm_year + divFloor tm.tm_mon 12) }

/-- The first loop of `normTm`. Each iteration takes at least one day, so the day of the month is
enough fuel. -/
def dropMonths : Nat → Tm → Tm
  | 0, tm => tm
  | fuel + 1, tm =>
      if daysInMonth tm < tm.tm_mday then
        dropMonths fuel
          (normMonth { tm with tm_mday := tm.tm_mday - daysInMonth tm, tm_mon := tm.tm_mon + 1 })
      else tm

/-- The body of the second loop. -/
def borrowMonth (tm : Tm) : Tm :=
  let before := normMonth { tm with tm_mon := tm.tm_mon - 1 }
  { before with tm_mday := before.tm_mday + daysInMonth before }

/-- The second loop of `normTm`. -/
def borrowMonths : Nat → Tm → Tm
  | 0, tm => tm
  | fuel + 1, tm => if tm.tm_mday < 1 then borrowMonths fuel (borrowMonth tm) else tm

/-- The part of `normTm` before its loops. -/
def normFields (tm : Tm) : Tm :=
  let minute := wrap32 (tm.tm_min + divFloor tm.tm_sec 60)
  let hour := wrap32 (tm.tm_hour + divFloor minute 60)
  normMonth { tm with
    tm_sec := remFloor tm.tm_sec 60
    tm_min := remFloor minute 60
    tm_hour := remFloor hour 24
    tm_mday := wrap32 (tm.tm_mday + divFloor hour 24) }

def normTm (tm : Tm) : Tm :=
  let fields := normFields tm
  let dropped := dropMonths fields.tm_mday.toNat fields
  borrowMonths (1 - dropped.tm_mday).toNat dropped

/-- No arithmetic after the check of the year can overflow. -/
def timeGm (tm : Tm) : Except DateTimeException Int :=
  let normed := normTm tm
  let y := year normed
  if y < DATETIME_MINIMUM_YEAR ∨ y > DATETIME_MAXIMUM_YEAR then
    .error ⟨"invalid year: " ++ toString y⟩
  else
    let days := (y - epochYear) * 365 + leapDaysFromEpochToYear y +
      daysToMonthStart normed + (normed.tm_mday - 1)
    .ok (days * 86400 + normed.tm_hour * 3600 + normed.tm_min * 60 + normed.tm_sec)

section Range

/-- The month is one of the table. -/
def HasMonth (tm : Tm) : Prop := 0 ≤ tm.tm_mon ∧ tm.tm_mon < 12

theorem normMonth_hasMonth (tm : Tm) : HasMonth (normMonth tm) := by
  simp only [HasMonth, normMonth, (divFloor_remFloor (show (0 : Int) < 12 by decide) _).2]
  omega

/-- A month has between 28 and 31 days. -/
theorem daysInMonth_range {tm : Tm} (hasMonth : HasMonth tm) :
    28 ≤ daysInMonth tm ∧ daysInMonth tm ≤ 31 := by
  obtain ⟨low, high⟩ := hasMonth
  have table : ∀ month : Fin 12, 28 ≤ daysInMonthArr.getD month.val 0 ∧
      daysInMonthArr.getD month.val 0 + (if month.val = 1 then 1 else 0) ≤ 31 := by
    decide
  have entry := table ⟨tm.tm_mon.toNat, by omega⟩
  have february : tm.tm_mon.toNat = 1 ↔ tm.tm_mon = 1 := by omega
  simp only [february] at entry
  unfold daysInMonth
  by_cases leap : tm.tm_mon = 1 ∧ isLeapYear tm
  · rw [if_pos leap]
    rw [if_pos leap.1] at entry
    omega
  · rw [if_neg leap]
    split at entry <;> omega

/-- The two loops of `normTm` do not touch the time of the day. -/
structure SameTime (tm other : Tm) : Prop where
  sec : tm.tm_sec = other.tm_sec
  min : tm.tm_min = other.tm_min
  hour : tm.tm_hour = other.tm_hour

theorem SameTime.trans {first second third : Tm} (one : SameTime first second)
    (two : SameTime second third) : SameTime first third :=
  ⟨one.sec.trans two.sec, one.min.trans two.min, one.hour.trans two.hour⟩

/-- With enough fuel the first loop ends at a day that the month has, or below. -/
theorem dropMonths_ends {fuel : Nat} : ∀ {tm : Tm}, HasMonth tm → tm.tm_mday.toNat ≤ fuel →
    HasMonth (dropMonths fuel tm) ∧
      (dropMonths fuel tm).tm_mday ≤ daysInMonth (dropMonths fuel tm) ∧
      SameTime (dropMonths fuel tm) tm := by
  induction fuel with
  | zero =>
      intro tm hasMonth enough
      have days := daysInMonth_range hasMonth
      rw [dropMonths]
      exact ⟨hasMonth, by omega, ⟨rfl, rfl, rfl⟩⟩
  | succ fuel ih =>
      intro tm hasMonth enough
      have days := daysInMonth_range hasMonth
      rw [dropMonths]
      split
      · next late =>
          obtain ⟨month, mday, time⟩ := @ih
            (normMonth { tm with tm_mday := tm.tm_mday - daysInMonth tm, tm_mon := tm.tm_mon + 1 })
            (normMonth_hasMonth _) (by simp only [normMonth]; omega)
          exact ⟨month, mday, time.trans ⟨rfl, rfl, rfl⟩⟩
      · next inside => exact ⟨hasMonth, by omega, ⟨rfl, rfl, rfl⟩⟩

/-- With enough fuel the second loop ends at a day of the month. -/
theorem borrowMonths_ends {fuel : Nat} : ∀ {tm : Tm}, HasMonth tm →
    tm.tm_mday ≤ daysInMonth tm → (1 - tm.tm_mday).toNat ≤ fuel →
    HasMonth (borrowMonths fuel tm) ∧ 1 ≤ (borrowMonths fuel tm).tm_mday ∧
      (borrowMonths fuel tm).tm_mday ≤ daysInMonth (borrowMonths fuel tm) ∧
      SameTime (borrowMonths fuel tm) tm := by
  induction fuel with
  | zero =>
      intro tm hasMonth most enough
      rw [borrowMonths]
      exact ⟨hasMonth, by omega, most, ⟨rfl, rfl, rfl⟩⟩
  | succ fuel ih =>
      intro tm hasMonth most enough
      rw [borrowMonths]
      split
      · next early =>
          have before : HasMonth (borrowMonth tm) := normMonth_hasMonth _
          have days := daysInMonth_range before
          have day : (borrowMonth tm).tm_mday = tm.tm_mday + daysInMonth (borrowMonth tm) := rfl
          obtain ⟨month, least, later, time⟩ := ih before (by omega) (by omega)
          exact ⟨month, least, later, time.trans ⟨rfl, rfl, rfl⟩⟩
      · next inside => exact ⟨hasMonth, by omega, most, ⟨rfl, rfl, rfl⟩⟩

/-- The fields are in their calendar ranges. -/
structure Normal (tm : Tm) : Prop where
  sec : 0 ≤ tm.tm_sec ∧ tm.tm_sec < 60
  min : 0 ≤ tm.tm_min ∧ tm.tm_min < 60
  hour : 0 ≤ tm.tm_hour ∧ tm.tm_hour < 24
  month : HasMonth tm
  mday : 1 ≤ tm.tm_mday ∧ tm.tm_mday ≤ daysInMonth tm

theorem normTm_normal (tm : Tm) : Normal (normTm tm) := by
  have remainder {y : Int} (positive : 0 < y) (x : Int) : 0 ≤ remFloor x y ∧ remFloor x y < y := by
    rw [(divFloor_remFloor positive x).2]
    exact ⟨Int.emod_nonneg x (by omega), Int.emod_lt_of_pos x positive⟩
  obtain ⟨dropMonth, dropDay, dropTime⟩ :=
    dropMonths_ends (normMonth_hasMonth _ : HasMonth (normFields tm)) le_rfl
  obtain ⟨month, least, most, time⟩ := borrowMonths_ends dropMonth dropDay le_rfl
  have same : SameTime (normTm tm) (normFields tm) := time.trans dropTime
  exact {
    sec := by
      rw [same.sec]
      exact remainder (by decide) _
    min := by
      rw [same.min]
      exact remainder (by decide) _
    hour := by
      rw [same.hour]
      exact remainder (by decide) _
    month := month
    mday := ⟨least, most⟩ }

/-- A day of a month is one of the 365 or 366 days of its year. -/
theorem daysToMonthStart_range {tm : Tm} (hasMonth : HasMonth tm) :
    0 ≤ daysToMonthStart tm ∧
      daysToMonthStart tm + daysInMonth tm ≤ 365 + (if isLeapYear tm then 1 else 0) := by
  obtain ⟨low, high⟩ := hasMonth
  have table : ∀ (month : Fin 12) (leap : Bool),
      0 ≤ (if leap then (daysToMonthStartArr.getD month.val (0, 0)).2
          else (daysToMonthStartArr.getD month.val (0, 0)).1) ∧
        (if leap then (daysToMonthStartArr.getD month.val (0, 0)).2
          else (daysToMonthStartArr.getD month.val (0, 0)).1) +
            (daysInMonthArr.getD month.val 0 + (if month.val = 1 ∧ leap then 1 else 0)) ≤
              365 + (if leap then 1 else 0) := by
    decide
  have entry := table ⟨tm.tm_mon.toNat, by omega⟩ (isLeapYear tm)
  have february : tm.tm_mon.toNat = 1 ↔ tm.tm_mon = 1 := by omega
  simp only [february] at entry
  exact entry

/-- A year of the range starts within the limits and ends within them. -/
theorem daysFromEpoch_range {y : Int} (leap day : Int) (low : 0 ≤ y) (high : y ≤ 9999)
    (isLeap : 0 ≤ leap ∧ leap ≤ 1) (last : y = 9999 → leap = 0)
    (inYear : 0 ≤ day ∧ day < 365 + leap) :
    -719528 ≤ (y - epochYear) * 365 + leapDaysFromEpochToYear y + day ∧
      (y - epochYear) * 365 + leapDaysFromEpochToYear y + day ≤ 2932896 := by
  simp only [leapDaysFromEpochToYear, epochYear]
  by_cases first : y = 0
  · rw [first]
    have before :
        ((0 : Int) - 1).tdiv 4 - ((0 : Int) - 1).tdiv 100 + ((0 : Int) - 1).tdiv 400 = 0 ∧
          ((1970 : Int) - 1).tdiv 4 - ((1970 : Int) - 1).tdiv 100 +
            ((1970 : Int) - 1).tdiv 400 = 477 := by
      decide
    omega
  · have before : ((1970 : Int) - 1).tdiv 4 - ((1970 : Int) - 1).tdiv 100 +
        ((1970 : Int) - 1).tdiv 400 = 477 := by
      decide
    rw [before, Int.tdiv_eq_ediv_of_nonneg (by omega), Int.tdiv_eq_ediv_of_nonneg (by omega),
      Int.tdiv_eq_ediv_of_nonneg (by omega)]
    omega

/-- Whatever `timeGm` returns is within the limits. -/
theorem timeGm_range {tm : Tm} {seconds : Int} (ok : timeGm tm = .ok seconds) :
    DATETIME_MINIMUM_TIME ≤ seconds ∧ seconds ≤ DATETIME_MAXIMUM_TIME := by
  obtain ⟨sec, min, hour, month, mday⟩ := normTm_normal tm
  have start := daysToMonthStart_range month
  unfold timeGm at ok
  dsimp only at ok
  split at ok
  · cases ok
  · next inRange =>
      obtain rfl := Except.ok.inj ok
      simp only [DATETIME_MINIMUM_YEAR, DATETIME_MAXIMUM_YEAR, not_or, not_lt] at inRange
      have last : year (normTm tm) = 9999 →
          (if isLeapYear (normTm tm) then (1 : Int) else 0) = 0 := by
        intro is9999
        simp only [isLeapYear, is9999]
        decide
      have days := daysFromEpoch_range (if isLeapYear (normTm tm) then 1 else 0)
        (daysToMonthStart (normTm tm) + ((normTm tm).tm_mday - 1)) inRange.1 inRange.2
        (by split <;> omega) last (by omega)
      simp only [DATETIME_MINIMUM_TIME, DATETIME_MAXIMUM_TIME]
      omega

end Range

end Blocxx.Time
