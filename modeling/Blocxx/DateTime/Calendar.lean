import Blocxx.DateTime.TmUtils
import Blocxx.Library.Gregorian
import Blocxx.Library.Loop

/-!
This file compares `normTm` and `timeGm` with the proleptic Gregorian calendar.
-/

namespace Blocxx.Time

open Library Library.Gregorian Library.Loop

/-- The value is one of an `int`. -/
def FitsInt (value : Int) : Prop := -2 ^ 31 ≤ value ∧ value < 2 ^ 31

instance (value : Int) : Decidable (FitsInt value) := inferInstanceAs (Decidable (_ ∧ _))

theorem wrap32_of_fits {value : Int} (fits : FitsInt value) : wrap32 value = value := by
  unfold FitsInt at fits
  simp only [wrap32, Int.bmod_def]
  omega

/-- The seconds from 1970-01-01T00:00:00Z to the instant that the fields denote. -/
def instant (tm : Tm) : Int :=
  dayNumber (tm.tm_year + tmYearBase) tm.tm_mon tm.tm_mday * 86400 +
    tm.tm_hour * 3600 + tm.tm_min * 60 + tm.tm_sec

section Tables

theorem isLeapYear_iff {tm : Tm} (fits : FitsInt (tm.tm_year + tmYearBase)) :
    isLeapYear tm = true ↔ IsLeap (tm.tm_year + tmYearBase) := by
  have remainder {y : Int} (positive : 0 < y) := (divFloor_remFloor positive (year tm)).2
  unfold isLeapYear
  rw [remainder (by decide), remainder (by decide), remainder (by decide), year,
    wrap32_of_fits fits, decide_eq_true_iff]
  exact Iff.rfl

/-- The year counts in February only. -/
theorem daysInMonth_eq {tm : Tm} (hasMonth : HasMonth tm)
    (fits : tm.tm_mon = 1 → FitsInt (tm.tm_year + tmYearBase)) :
    daysInMonth tm = monthLength (tm.tm_year + tmYearBase) tm.tm_mon.toNat := by
  obtain ⟨low, high⟩ := hasMonth
  have tables : ∀ month : Fin 12, month.val ≠ 1 → ∀ february : Int,
      daysInMonthArr.getD month.val 0 =
        [31, february, 31, 30, 31, 30, 31, 31, 30, 31, 30, 31].getD month.val 0 := by
    intro month other february
    obtain ⟨month, bound⟩ := month
    interval_cases month <;> first | rfl | exact absurd rfl other
  unfold daysInMonth monthLength
  by_cases february : tm.tm_mon = 1
  · have leap := isLeapYear_iff (fits february)
    rw [february]
    by_cases isLeap : IsLeap (tm.tm_year + tmYearBase)
    · rw [if_pos isLeap, if_pos ⟨rfl, leap.mpr isLeap⟩]
      rfl
    · rw [if_neg isLeap, if_neg (fun both => isLeap (leap.mp both.2))]
      rfl
  · rw [if_neg (fun both => february both.1), add_zero]
    exact tables ⟨tm.tm_mon.toNat, by omega⟩ (by dsimp only; omega) _

theorem daysToMonthStart_eq {tm : Tm} (hasMonth : HasMonth tm)
    (fits : FitsInt (tm.tm_year + tmYearBase)) :
    daysToMonthStart tm = monthStart (tm.tm_year + tmYearBase) tm.tm_mon.toNat := by
  obtain ⟨low, high⟩ := hasMonth
  have leap := isLeapYear_iff fits
  have short : tm.tm_mon.toNat < 12 := by omega
  unfold daysToMonthStart monthStart
  by_cases isLeap : IsLeap (tm.tm_year + tmYearBase)
  · have lengths : monthLength (tm.tm_year + tmYearBase) =
        fun month => [31, 29, 31, 30, 31, 30, 31, 31, 30, 31, 30, 31].getD month 0 := by
      funext month
      rw [monthLength, if_pos isLeap]
    rw [lengths, leap.mpr isLeap]
    interval_cases tm.tm_mon.toNat <;> decide
  · have lengths : monthLength (tm.tm_year + tmYearBase) =
        fun month => [31, 28, 31, 30, 31, 30, 31, 31, 30, 31, 30, 31].getD month 0 := by
      funext month
      rw [monthLength, if_neg isLeap]
    rw [lengths, Bool.eq_false_iff.mpr (mt leap.mp isLeap)]
    interval_cases tm.tm_mon.toNat <;> decide

/-- The truncated divisions count one leap day too many in the year 0. -/
theorem leapDaysFromEpochToYear_eq {year : Int} (nonnegative : 0 ≤ year) :
    (year - epochYear) * 365 + leapDaysFromEpochToYear year =
      yearStart year + (if year = 0 then 1 else 0) := by
  have before : ((1970 : Int) - 1).tdiv 4 - ((1970 : Int) - 1).tdiv 100 +
      ((1970 : Int) - 1).tdiv 400 = 477 := by
    decide
  rw [yearStart_eq]
  simp only [leapDaysFromEpochToYear, epochYear]
  rw [before]
  by_cases first : year = 0
  · rw [first]
    decide
  · rw [if_neg first, Int.tdiv_eq_ediv_of_nonneg (by omega), Int.tdiv_eq_ediv_of_nonneg (by omega),
      Int.tdiv_eq_ediv_of_nonneg (by omega)]
    omega

end Tables

section Loops

/-- The first loop of `normTm`. -/
def dropIteration (tm : Tm) : Iteration Tm Tm :=
  if daysInMonth tm < tm.tm_mday then
    .next (normMonth { tm with tm_mday := tm.tm_mday - daysInMonth tm, tm_mon := tm.tm_mon + 1 })
  else .stop tm

/-- The second loop of `normTm`. -/
def borrowIteration (tm : Tm) : Iteration Tm Tm :=
  if tm.tm_mday < 1 then .next (borrowMonth tm) else .stop tm

/-- No sum overflows in the iteration of the first loop at these fields. -/
structure DropFits (tm : Tm) : Prop where
  leap : tm.tm_mon = 1 → FitsInt (tm.tm_year + tmYearBase)
  year : daysInMonth tm < tm.tm_mday → FitsInt (tm.tm_year + divFloor (tm.tm_mon + 1) 12)

/-- No sum overflows in the iteration of the second loop at these fields. -/
structure BorrowFits (tm : Tm) : Prop where
  leap : tm.tm_mon = 1 → FitsInt (tm.tm_year + tmYearBase)
  year : tm.tm_mday < 1 → FitsInt (tm.tm_year + divFloor (tm.tm_mon - 1) 12)

/-- The month that is carried into its year is the same month. -/
theorem normMonth_dayNumber {tm : Tm} (fits : FitsInt (tm.tm_year + divFloor tm.tm_mon 12))
    (later day : Int) :
    dayNumber ((normMonth tm).tm_year + tmYearBase) ((normMonth tm).tm_mon + later) day =
      dayNumber (tm.tm_year + tmYearBase) (tm.tm_mon + later) day := by
  have floor := divFloor_remFloor (by decide : (0 : Int) < 12) tm.tm_mon
  have month : tm.tm_mon % 12 + later + 12 * (tm.tm_mon / 12) = tm.tm_mon + later := by omega
  simp only [normMonth]
  rw [wrap32_of_fits fits, floor.1, floor.2, add_right_comm, dayNumber_carry, month]

theorem normMonth_instant {tm : Tm} (fits : FitsInt (tm.tm_year + divFloor tm.tm_mon 12)) :
    instant (normMonth tm) = instant tm := by
  have same := normMonth_dayNumber fits 0 tm.tm_mday
  rw [add_zero, add_zero] at same
  unfold instant
  rw [← same]
  rfl

theorem dropIteration_instant {tm next : Tm} (hasMonth : HasMonth tm) (fits : DropFits tm)
    (goes : dropIteration tm = .next next) : instant next = instant tm := by
  unfold dropIteration at goes
  split at goes
  · next late =>
      obtain rfl := Iteration.next.inj goes
      rw [normMonth_instant (fits.year late), daysInMonth_eq hasMonth fits.leap]
      simp only [instant]
      rw [dayNumber_nextMonth hasMonth, sub_eq_add_neg, dayNumber_day]
      omega
  · cases goes

/-- The day of the month before is counted from the start of that month. -/
theorem borrowMonth_instant {tm : Tm} (fits : FitsInt (tm.tm_year + divFloor (tm.tm_mon - 1) 12))
    (leap : (borrowMonth tm).tm_mon = 1 → FitsInt ((borrowMonth tm).tm_year + tmYearBase)) :
    instant (borrowMonth tm) = instant tm := by
  have isMonth : HasMonth (borrowMonth tm) := normMonth_hasMonth _
  have days : (borrowMonth tm).tm_mday = tm.tm_mday + daysInMonth (borrowMonth tm) := rfl
  have same : dayNumber ((borrowMonth tm).tm_year + tmYearBase) ((borrowMonth tm).tm_mon + 1)
      tm.tm_mday = dayNumber (tm.tm_year + tmYearBase) (tm.tm_mon - 1 + 1) tm.tm_mday :=
    @normMonth_dayNumber { tm with tm_mon := tm.tm_mon - 1 } fits 1 tm.tm_mday
  rw [sub_add_cancel, dayNumber_nextMonth isMonth] at same
  unfold instant
  rw [days, daysInMonth_eq isMonth leap, dayNumber_day, same]
  rfl

/-- With enough fuel the first loop returns. -/
theorem dropMonths_returns {fuel : Nat} : ∀ {tm : Tm}, HasMonth tm → tm.tm_mday.toNat ≤ fuel →
    Returns dropIteration tm (dropMonths fuel tm) := by
  induction fuel with
  | zero =>
      intro tm hasMonth enough
      have days := daysInMonth_range hasMonth
      have stops : dropIteration tm = .stop tm := if_neg (by omega)
      exact .stop stops
  | succ fuel ih =>
      intro tm hasMonth enough
      have days := daysInMonth_range hasMonth
      rw [dropMonths]
      split
      · next late =>
          exact .next (if_pos late)
            (ih (normMonth_hasMonth _) (by simp only [normMonth]; omega))
      · next inside => exact .stop (if_neg inside)

/-- With enough fuel the second loop returns. -/
theorem borrowMonths_returns {fuel : Nat} : ∀ {tm : Tm}, HasMonth tm →
    (1 - tm.tm_mday).toNat ≤ fuel → Returns borrowIteration tm (borrowMonths fuel tm) := by
  induction fuel with
  | zero =>
      intro tm hasMonth enough
      have stops : borrowIteration tm = .stop tm := if_neg (by omega)
      exact .stop stops
  | succ fuel ih =>
      intro tm hasMonth enough
      rw [borrowMonths]
      split
      · next early =>
          have before : HasMonth (borrowMonth tm) := normMonth_hasMonth _
          have days := daysInMonth_range before
          have day : (borrowMonth tm).tm_mday = tm.tm_mday + daysInMonth (borrowMonth tm) := rfl
          exact .next (if_pos early) (ih before (by omega))
      · next inside => exact .stop (if_neg inside)

/-- The first loop keeps the instant. -/
theorem dropMonths_instant {fuel : Nat} : ∀ {tm : Tm}, HasMonth tm →
    (∀ visited, Visits dropIteration tm visited → DropFits visited) →
      instant (dropMonths fuel tm) = instant tm := by
  induction fuel with
  | zero =>
      intro tm hasMonth fits
      rfl
  | succ fuel ih =>
      intro tm hasMonth fits
      rw [dropMonths]
      split
      · next late =>
          have goes : dropIteration tm = .next _ := if_pos late
          have later := ih (normMonth_hasMonth _)
            fun visited visits => fits visited (visits_iff.mpr (.inr ⟨_, goes, visits⟩))
          rw [later]
          exact dropIteration_instant hasMonth (fits tm .start) goes
      · next inside => rfl

/-- The second loop keeps the instant. -/
theorem borrowMonths_instant {fuel : Nat} : ∀ {tm : Tm},
    (∀ visited, Visits borrowIteration tm visited → BorrowFits visited) →
      instant (borrowMonths fuel tm) = instant tm := by
  induction fuel with
  | zero =>
      intro tm fits
      rfl
  | succ fuel ih =>
      intro tm fits
      rw [borrowMonths]
      split
      · next early =>
          have goes : borrowIteration tm = .next (borrowMonth tm) := if_pos early
          have later := ih
            fun visited visits => fits visited (visits_iff.mpr (.inr ⟨_, goes, visits⟩))
          rw [later]
          exact borrowMonth_instant ((fits tm .start).year early)
            (fits _ (.next .start goes)).leap
      · next inside => rfl

end Loops

section NormTm

/-- The fields after the first loop of `normTm`. -/
def droppedTm (tm : Tm) : Tm := dropMonths (normFields tm).tm_mday.toNat (normFields tm)

/-- The sums of `normTm` before they are stored. -/
def carriedMinute (tm : Tm) : Int := tm.tm_min + divFloor tm.tm_sec 60

def carriedHour (tm : Tm) : Int := tm.tm_hour + divFloor (carriedMinute tm) 60

def carriedDay (tm : Tm) : Int := tm.tm_mday + divFloor (carriedHour tm) 24

/-- No sum of `normTm` and `timeGm` overflows. -/
structure NoOverflow (tm : Tm) : Prop where
  minute : FitsInt (carriedMinute tm)
  hour : FitsInt (carriedHour tm)
  day : FitsInt (carriedDay tm)
  month : FitsInt (tm.tm_year + divFloor tm.tm_mon 12)
  drop : ∀ visited, Visits dropIteration (normFields tm) visited → DropFits visited
  borrow : ∀ visited, Visits borrowIteration (droppedTm tm) visited → BorrowFits visited
  year : FitsInt ((normTm tm).tm_year + tmYearBase)

theorem normFields_instant {tm : Tm} (fits : NoOverflow tm) :
    instant (normFields tm) = instant tm := by
  have second := divFloor_remFloor (by decide : (0 : Int) < 60) tm.tm_sec
  have minute := divFloor_remFloor (by decide : (0 : Int) < 60) (carriedMinute tm)
  have hour := divFloor_remFloor (by decide : (0 : Int) < 24) (carriedHour tm)
  have stored : normFields tm = normMonth { tm with
      tm_sec := remFloor tm.tm_sec 60
      tm_min := remFloor (carriedMinute tm) 60
      tm_hour := remFloor (carriedHour tm) 24
      tm_mday := carriedDay tm } := by
    unfold normFields
    dsimp only
    rw [← carriedMinute, wrap32_of_fits fits.minute, ← carriedHour, wrap32_of_fits fits.hour,
      ← carriedDay, wrap32_of_fits fits.day]
  rw [stored]
  refine (normMonth_instant ?_).trans ?_
  · exact fits.month
  · unfold instant
    dsimp only
    rw [second.2, minute.2, hour.2, carriedDay, dayNumber_day, hour.1]
    have carried : carriedHour tm = tm.tm_hour + carriedMinute tm / 60 := by
      rw [carriedHour, minute.1]
    have carriedFirst : carriedMinute tm = tm.tm_min + tm.tm_sec / 60 := by
      rw [carriedMinute, second.1]
    omega

/-- What the fields must be after `normTm`, and that its loops end there. -/
structure Normalizes (tm : Tm) : Prop where
  drops : Returns dropIteration (normFields tm) (droppedTm tm)
  borrows : Returns borrowIteration (droppedTm tm) (normTm tm)
  normal : Normal (normTm tm)
  lastDay : (normTm tm).tm_mday ≤
    monthLength ((normTm tm).tm_year + tmYearBase) (normTm tm).tm_mon.toNat
  sameInstant : instant (normTm tm) = instant tm

theorem normTm_normalizes {tm : Tm} (fits : NoOverflow tm) : Normalizes tm := by
  have isMonth : HasMonth (normFields tm) := normMonth_hasMonth _
  have dropped : HasMonth (droppedTm tm) := (dropMonths_ends isMonth le_rfl).1
  have normal := normTm_normal tm
  exact {
    drops := dropMonths_returns isMonth le_rfl
    borrows := borrowMonths_returns dropped le_rfl
    normal := normal
    lastDay := by
      rw [← daysInMonth_eq normal.month fun _ => fits.year]
      exact normal.mday.2
    sameInstant := by
      have borrowed : instant (normTm tm) = instant (droppedTm tm) :=
        borrowMonths_instant fits.borrow
      rw [borrowed, droppedTm, dropMonths_instant isMonth fits.drop, normFields_instant fits] }

/-- The answer of `timeGm` is the instant for a year in the limits, and it throws otherwise. -/
structure TimeGmExact (tm : Tm) : Prop where
  inRange : DATETIME_MINIMUM_YEAR ≤ year (normTm tm) → year (normTm tm) ≤ DATETIME_MAXIMUM_YEAR →
    timeGm tm = .ok (instant tm)
  outOfRange : ¬ (DATETIME_MINIMUM_YEAR ≤ year (normTm tm) ∧
    year (normTm tm) ≤ DATETIME_MAXIMUM_YEAR) → ∃ exception, timeGm tm = .error exception

/-- The instant lies in the year, in UTC. -/
def InYear (year seconds : Int) : Prop :=
  yearStart year * 86400 ≤ seconds ∧ seconds < yearStart (year + 1) * 86400

theorem inYear_iff {year seconds : Int} :
    InYear year seconds ↔
      yearStart year ≤ seconds / 86400 ∧ seconds / 86400 < yearStart (year + 1) := by
  unfold InYear
  omega

/-- The normalised year is the year of the instant. -/
theorem year_eq_iff {tm : Tm} (fits : NoOverflow tm) (other : Int) :
    year (normTm tm) = other ↔ InYear other (instant tm) := by
  obtain ⟨_, _, ⟨sec, min, hour, month, mday⟩, lastDay, same⟩ := normTm_normalizes fits
  have inYear := dayNumber_inYear month ⟨mday.1, lastDay⟩
  have within : InYear ((normTm tm).tm_year + tmYearBase) (instant (normTm tm)) := by
    unfold InYear instant
    omega
  rw [year, wrap32_of_fits fits.year, ← same]
  constructor
  · rintro rfl
    exact within
  · intro inOther
    exact year_unique (inYear_iff.mp within) (inYear_iff.mp inOther)

/-- In the limits `timeGm` returns the instant, a day late in the year 0. -/
theorem timeGm_eq {tm : Tm} (fits : NoOverflow tm)
    (low : DATETIME_MINIMUM_YEAR ≤ year (normTm tm))
    (high : year (normTm tm) ≤ DATETIME_MAXIMUM_YEAR) :
    timeGm tm = .ok (instant tm + (if year (normTm tm) = 0 then 86400 else 0)) := by
  have normalizes := normTm_normalizes fits
  have month := normalizes.normal.month
  have here : (normTm tm).tm_mon / 12 = 0 ∧ (normTm tm).tm_mon % 12 = (normTm tm).tm_mon := by
    unfold HasMonth at month
    omega
  have exactYear : year (normTm tm) = (normTm tm).tm_year + tmYearBase := wrap32_of_fits fits.year
  have leapDays := leapDaysFromEpochToYear_eq (by simpa [DATETIME_MINIMUM_YEAR] using low)
  unfold timeGm
  dsimp only
  rw [if_neg (by omega), leapDays, daysToMonthStart_eq month fits.year, ← normalizes.sameInstant,
    exactYear]
  unfold instant dayNumber
  rw [here.1, here.2, add_zero]
  congr 1
  split <;> omega

/-- `timeGm` is right exactly for the instants outside of the year 0. -/
theorem timeGm_correct_iff (tm : Tm) (fits : NoOverflow tm) :
    Normalizes tm ∧ TimeGmExact tm ↔ ¬ InYear 0 (instant tm) := by
  rw [← year_eq_iff fits]
  constructor
  · rintro ⟨-, correct⟩ isZero
    have low : DATETIME_MINIMUM_YEAR ≤ year (normTm tm) := by
      rw [isZero]
      decide
    have high : year (normTm tm) ≤ DATETIME_MAXIMUM_YEAR := by
      rw [isZero]
      decide
    have late := timeGm_eq fits low high
    rw [correct.inRange low high, if_pos isZero] at late
    have same := Except.ok.inj late
    omega
  · intro notZero
    refine ⟨normTm_normalizes fits, ?_, ?_⟩
    · intro low high
      rw [timeGm_eq fits low high, if_neg notZero, add_zero]
    · intro outside
      exact ⟨_, if_pos (by omega)⟩

end NormTm

/-- Normal fields pass through the loops of `normTm` at once. -/
theorem NoOverflow.of_stops {tm : Tm} (minute : FitsInt (carriedMinute tm))
    (hour : FitsInt (carriedHour tm)) (day : FitsInt (carriedDay tm))
    (month : FitsInt (tm.tm_year + divFloor tm.tm_mon 12))
    (drops : (normFields tm).tm_mday ≤ daysInMonth (normFields tm))
    (borrows : 1 ≤ (droppedTm tm).tm_mday)
    (leap : FitsInt ((normFields tm).tm_year + tmYearBase))
    (leapDropped : FitsInt ((droppedTm tm).tm_year + tmYearBase))
    (year : FitsInt ((normTm tm).tm_year + tmYearBase)) : NoOverflow tm where
  minute := minute
  hour := hour
  day := day
  month := month
  drop visited visits := by
    have stops : dropIteration (normFields tm) = .stop (normFields tm) := if_neg (by omega)
    rcases visits_iff.mp visits with rfl | ⟨later, goes, -⟩
    · exact ⟨fun _ => leap, fun late => absurd late (by omega)⟩
    · cases goes.symm.trans stops
  borrow visited visits := by
    have stops : borrowIteration (droppedTm tm) = .stop (droppedTm tm) := if_neg (by omega)
    rcases visits_iff.mp visits with rfl | ⟨later, goes, -⟩
    · exact ⟨fun _ => leapDropped, fun early => absurd early (by omega)⟩
    · cases goes.symm.trans stops
  year := year

/-- 1984-02-15 12:06:37, one of the times of the tests. -/
def valentineWeek : Tm := ⟨37, 6, 12, 15, 1, 84, 0⟩

theorem timeGm_correct_iff_valentineWeek :
    Normalizes valentineWeek ∧ TimeGmExact valentineWeek ↔ ¬ InYear 0 (instant valentineWeek) :=
  timeGm_correct_iff valentineWeek
    (.of_stops (by decide) (by decide) (by decide) (by decide) (by decide +kernel)
      (by decide +kernel) (by decide) (by decide +kernel) (by decide +kernel))

/-- The first second that `DateTime` accepts. -/
def firstSecond : Tm := ⟨0, 0, 0, 1, 0, -1900, 0⟩

theorem firstSecond_dayLate :
    NoOverflow firstSecond ∧ ¬ (Normalizes firstSecond ∧ TimeGmExact firstSecond) := by
  have fits : NoOverflow firstSecond :=
    .of_stops (by decide) (by decide) (by decide) (by decide) (by decide +kernel)
      (by decide +kernel) (by decide) (by decide +kernel) (by decide +kernel)
  refine ⟨fits, ?_⟩
  rintro ⟨-, correct⟩
  have answer := correct.inRange (by decide +kernel) (by decide +kernel)
  have inYearZero : year (normTm firstSecond) = 0 := by decide +kernel
  rw [timeGm_eq fits (by decide +kernel) (by decide +kernel), if_pos inYearZero] at answer
  have same := Except.ok.inj answer
  omega

end Blocxx.Time
