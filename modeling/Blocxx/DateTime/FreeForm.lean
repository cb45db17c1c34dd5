import Blocxx.DateTime.WrittenFields

/-!
This file compares the dates of the free form with the instants that they denote.
-/

namespace Blocxx.Time

open Library Library.Gregorian

/-- The string is not of the CIM format, and its tokens fill in all the fields. -/
structure FreeForm (str : Text) (found : Tokens) (parsed : Parsed) : Prop where
  general : readCIM str = .ok none
  someText : str ≠ []
  tokens : (tokenize str defaultDelims).foldlM (takeToken str) .unset = .ok found
  present : found.month_number ≥ 1 ∧ found.day ≠ [] ∧ found.time ≠ [] ∧ found.year ≠ []
  time : ¬ ((tokenize found.time [':']).length < 2 ∨ (tokenize found.time [':']).length > 3)
  numbers : freeFormNumbers found (tokenize found.time [':']) = some parsed

/-- The fields are a date of the calendar and a time of the day. -/
structure Parsed.Calendar (parsed : Parsed) : Prop where
  inRanges : parsed.InRanges
  day : parsed.day ≤ monthLength parsed.year (parsed.month - 1).toNat

/-- The constructor gives the written time less the offset, if that is in range. -/
def FreeFormExact (library : CLibrary) (str : Text) (found : Tokens) (parsed : Parsed) : Prop :=
  WithinLimits (parsed.instant - found.timezone_number * 3600) →
    DateTime.ofString library str =
      .ok ⟨parsed.instant - found.timezone_number * 3600, parsed.microseconds⟩

/-- The offset takes the time from the first of January to the year before. -/
def BeforeNewYear (timezone_offset : Int) (parsed : Parsed) : Prop :=
  parsed.month = 1 ∧ parsed.day = 1 ∧ parsed.hour < timezone_offset

theorem getDaysPerMonth_eq {year month : Int} (nonnegative : 0 ≤ year)
    (isMonth : 1 ≤ month ∧ month ≤ 12) :
    getDaysPerMonth year month = monthLength year (month - 1).toNat := by
  have leap : (year.tmod 4 = 0 ∧ (year.tmod 100 ≠ 0 ∨ year.tmod 400 = 0)) ↔ IsLeap year := by
    rw [Int.tmod_eq_emod_of_nonneg nonnegative, Int.tmod_eq_emod_of_nonneg nonnegative,
      Int.tmod_eq_emod_of_nonneg nonnegative]
    exact Iff.rfl
  unfold getDaysPerMonth monthLength
  rw [if_pos isMonth]
  simp only [leap]
  obtain ⟨low, high⟩ := isMonth
  by_cases isLeap : IsLeap year
  · simp only [isLeap, and_true, if_true]
    interval_cases month <;> decide
  · simp only [isLeap, and_false, if_false, add_zero]
    interval_cases month <;> decide

theorem Parsed.instant_eq (parsed : Parsed) :
    parsed.instant = dayNumber parsed.year (parsed.month - 1) parsed.day * 86400 +
      parsed.hour * 3600 + parsed.minute * 60 + parsed.second := by
  have base : parsed.year - 1900 + tmYearBase = parsed.year := by
    unfold tmYearBase
    omega
  unfold Parsed.instant Time.instant Parsed.tm
  dsimp only
  rw [base]

/-- The first day of the next month comes after the last day of a month. -/
theorem dayNumber_monthEnd {year month : Int} (isMonth : 1 ≤ month ∧ month ≤ 12) :
    dayNumber year month 1 = dayNumber year (month - 1) (monthLength year (month - 1).toNat) + 1 := by
  have next := @dayNumber_nextMonth year (month - 1) (by omega) 1
  have last := dayNumber_day year (month - 1) 1 (monthLength year (month - 1).toNat - 1)
  rw [sub_add_cancel] at next
  rw [add_sub_cancel] at last
  omega

/-- December is followed by January of the next year. -/
theorem dayNumber_newYear (year day : Int) : dayNumber (year + 1) 0 day = dayNumber year 12 day := by
  have carry := dayNumber_carry year 1 0 day
  rw [zero_add, mul_one] at carry
  exact carry

/-- What the adjustment gives: fields in their ranges, of the same instant in UTC. -/
structure Adjusted (timezone_offset : Int) (parsed adjusted : Parsed) : Prop where
  month : 1 ≤ adjusted.month ∧ adjusted.month ≤ 12
  day : 1 ≤ adjusted.day ∧ adjusted.day ≤ 31
  hour : 0 ≤ adjusted.hour ∧ adjusted.hour ≤ 23
  year : parsed.year ≤ adjusted.year
  minute : adjusted.minute = parsed.minute
  second : adjusted.second = parsed.second
  microseconds : adjusted.microseconds = parsed.microseconds
  instant : adjusted.instant = parsed.instant - timezone_offset * 3600

section Adjust

variable {timezone_offset : Int} {parsed : Parsed}

theorem adjust_later (calendar : parsed.Calendar) (offset : -12 ≤ timezone_offset)
    (west : timezone_offset < 0) :
    Adjusted timezone_offset parsed (adjustTimeForTimeZone timezone_offset parsed) := by
  obtain ⟨⟨⟨year, -⟩, isMonth, day, hour, -, -, -⟩, inMonth⟩ := calendar
  simp only [DATETIME_MINIMUM_YEAR] at year
  have days := getDaysPerMonth_eq year isMonth
  have length := @monthLength_range parsed.year (parsed.month - 1).toNat (by omega)
  have ends := @dayNumber_monthEnd parsed.year parsed.month isMonth
  unfold adjustTimeForTimeZone
  dsimp only
  rw [if_pos west]
  by_cases tomorrow : parsed.hour - timezone_offset > 23
  · rw [if_pos tomorrow]
    dsimp only
    by_cases monthEnd : parsed.day + 1 > getDaysPerMonth parsed.year parsed.month
    · rw [if_pos monthEnd]
      dsimp only
      have last : parsed.day = monthLength parsed.year (parsed.month - 1).toNat := by omega
      by_cases yearEnd : parsed.month + 1 > 12
      · rw [if_pos yearEnd]
        dsimp only
        have december : parsed.month = 12 := by omega
        have newYear := dayNumber_newYear parsed.year 1
        refine ⟨by dsimp only; omega, by dsimp only; omega, by dsimp only; omega, by dsimp only; omega,
          rfl, rfl, rfl, ?_⟩
        rw [Parsed.instant_eq, Parsed.instant_eq]
        dsimp only
        rw [december] at ends last ⊢
        rw [last, show (12 : Int) + 1 - 12 - 1 = 0 by decide]
        omega
      · rw [if_neg yearEnd]
        dsimp only
        refine ⟨by dsimp only; omega, by dsimp only; omega, by dsimp only; omega, le_rfl, rfl, rfl,
          rfl, ?_⟩
        rw [Parsed.instant_eq, Parsed.instant_eq]
        dsimp only
        rw [add_sub_cancel_right, last]
        omega
    · rw [if_neg monthEnd]
      dsimp only
      have nextDay := dayNumber_day parsed.year (parsed.month - 1) parsed.day 1
      rw [if_neg (by omega)]
      refine ⟨isMonth, by dsimp only; omega, by dsimp only; omega, le_rfl, rfl, rfl, rfl, ?_⟩
      rw [Parsed.instant_eq, Parsed.instant_eq]
      dsimp only
      omega
  · rw [if_neg tomorrow]
    have sameMonth : ¬ parsed.day > getDaysPerMonth parsed.year parsed.month := by omega
    have sameYear : ¬ parsed.month > 12 := by omega
    dsimp only
    rw [if_neg sameMonth]
    dsimp only
    rw [if_neg sameYear]
    refine ⟨isMonth, day, by dsimp only; omega, le_rfl, rfl, rfl, rfl, ?_⟩
    rw [Parsed.instant_eq, Parsed.instant_eq]
    dsimp only
    omega

theorem adjust_earlier (calendar : parsed.Calendar) (offset : timezone_offset ≤ 12)
    (east : 0 < timezone_offset) (inYear : ¬ BeforeNewYear timezone_offset parsed) :
    Adjusted timezone_offset parsed (adjustTimeForTimeZone timezone_offset parsed) := by
  obtain ⟨⟨⟨year, -⟩, isMonth, day, hour, -, -, -⟩, inMonth⟩ := calendar
  simp only [DATETIME_MINIMUM_YEAR] at year
  unfold BeforeNewYear at inYear
  unfold adjustTimeForTimeZone
  dsimp only
  rw [if_neg (by omega), if_pos east]
  by_cases yesterday : parsed.hour - timezone_offset < 0
  · rw [if_pos yesterday]
    dsimp only
    by_cases monthStart : parsed.day - 1 < 1
    · rw [if_pos monthStart]
      dsimp only
      have first : parsed.day = 1 := by omega
      have later : 1 < parsed.month := by omega
      have days := @getDaysPerMonth_eq parsed.year (parsed.month - 1) year (by omega)
      have length := @monthLength_range parsed.year (parsed.month - 1 - 1).toNat (by omega)
      have ends := @dayNumber_monthEnd parsed.year (parsed.month - 1) (by omega)
      rw [if_neg (by omega)]
      refine ⟨by dsimp only; omega, by dsimp only; omega, by dsimp only; omega, le_rfl, rfl, rfl,
        rfl, ?_⟩
      rw [Parsed.instant_eq, Parsed.instant_eq]
      dsimp only
      rw [days, first, sub_self, zero_add]
      omega
    · rw [if_neg monthStart]
      dsimp only
      have dayBefore := dayNumber_day parsed.year (parsed.month - 1) (parsed.day - 1) 1
      rw [sub_add_cancel] at dayBefore
      rw [if_neg (by omega)]
      refine ⟨isMonth, by dsimp only; omega, by dsimp only; omega, le_rfl, rfl, rfl, rfl, ?_⟩
      rw [Parsed.instant_eq, Parsed.instant_eq]
      dsimp only
      omega
  · rw [if_neg yesterday]
    have sameMonth : ¬ parsed.day < 1 := by omega
    have sameYear : ¬ parsed.month < 1 := by omega
    dsimp only
    rw [if_neg sameMonth]
    dsimp only
    rw [if_neg sameYear]
    refine ⟨isMonth, day, by dsimp only; omega, le_rfl, rfl, rfl, rfl, ?_⟩
    rw [Parsed.instant_eq, Parsed.instant_eq]
    dsimp only
    omega

theorem adjust_exact (calendar : parsed.Calendar)
    (offset : -12 ≤ timezone_offset ∧ timezone_offset ≤ 12)
    (inYear : ¬ BeforeNewYear timezone_offset parsed) :
    Adjusted timezone_offset parsed (adjustTimeForTimeZone timezone_offset parsed) := by
  rcases lt_trichotomy timezone_offset 0 with west | utc | east
  · exact adjust_later calendar offset.1 west
  · obtain ⟨⟨-, month, day, hour, -, -, -⟩, -⟩ := calendar
    have same : adjustTimeForTimeZone timezone_offset parsed = parsed := by
      unfold adjustTimeForTimeZone
      rw [if_neg (by omega), if_neg (by omega)]
    rw [same]
    refine ⟨month, day, hour, le_rfl, rfl, rfl, rfl, ?_⟩
    omega
  · exact adjust_earlier calendar offset.2 east inYear

/-- The day before the first of January is not found, since the month is not yet December. -/
theorem adjust_newYear (calendar : parsed.Calendar)
    (newYear : BeforeNewYear timezone_offset parsed) :
    (adjustTimeForTimeZone timezone_offset parsed).day = 0 := by
  obtain ⟨january, first, early⟩ := newYear
  have hour := calendar.inRanges.hour
  have none : getDaysPerMonth parsed.year (parsed.month - 1) = 0 := by
    unfold getDaysPerMonth
    rw [if_neg (by omega)]
  have yesterday : parsed.hour - timezone_offset < 0 := by omega
  have monthStart : parsed.day - 1 < 1 := by omega
  unfold adjustTimeForTimeZone
  dsimp only
  rw [if_neg (by omega), if_pos (by omega), if_pos yesterday]
  dsimp only
  rw [if_pos monthStart]
  dsimp only
  rw [none, first]
  rfl

end Adjust

/-- What is left of the constructor for a string in the free form with a time zone. -/
theorem ofString_freeForm (library : CLibrary) {str : Text} {found : Tokens} {parsed : Parsed}
    (form : FreeForm str found parsed) (inRanges : parsed.InRanges)
    (zone : ¬ found.timezone_number ≤ LOCAL_TIME_OFFSET) :
    DateTime.ofString library str = (do
      let adjusted := adjustTimeForTimeZone found.timezone_number parsed
      validateRanges adjusted (String.ofList str)
      DateTime.set library (adjusted.fields .utcTime)) := by
  have fields : readFields str found = (do
      let adjusted := adjustTimeForTimeZone found.timezone_number parsed
      validateRanges adjusted (String.ofList str)
      return adjusted.fields .utcTime) := by
    unfold readFields
    rw [if_pos form.present]
    dsimp only
    rw [if_neg form.time, form.numbers]
    dsimp only
    rw [validateRanges_of inRanges, if_neg zone]
    rfl
  unfold DateTime.ofString parse
  rw [form.general]
  unfold readFreeForm
  rw [if_neg form.someText, form.tokens]
  dsimp only [bind, Except.bind]
  rw [fields]
  dsimp only [bind, Except.bind]
  cases validateRanges (adjustTimeForTimeZone found.timezone_number parsed)
    (String.ofList str) with
  | error exception => rfl
  | ok _ => rfl

section Exact

variable {library : CLibrary} {str : Text} {found : Tokens} {parsed : Parsed}

/-- An adjusted date that does not leave the year is stored. -/
theorem freeForm_exact (form : FreeForm str found parsed)
    (zone : -12 ≤ found.timezone_number ∧ found.timezone_number ≤ 12)
    (calendar : parsed.Calendar) (year : 2 ≤ parsed.year)
    (inYear : ¬ BeforeNewYear found.timezone_number parsed) :
    FreeFormExact library str found parsed := by
  intro limits
  have adjusted := adjust_exact calendar zone inYear
  rw [ofString_freeForm library form calendar.inRanges (by unfold LOCAL_TIME_OFFSET; omega)]
  rw [← adjusted.instant] at limits ⊢
  generalize adjustTimeForTimeZone found.timezone_number parsed = result at adjusted limits
  obtain ⟨month, day, hour, later, minute, second, microseconds, -⟩ := adjusted
  obtain ⟨-, -, -, -, minutes, seconds, micros⟩ := calendar.inRanges
  rw [← minute] at minutes
  rw [← second] at seconds
  rw [← microseconds] at micros
  have start := Parsed.instant_ge month day.1 hour.1 minutes.1 seconds.1
  have most : result.year ≤ DATETIME_MAXIMUM_YEAR := by
    by_contra far
    unfold DATETIME_MAXIMUM_YEAR at far
    have order := @yearStart_le 10000 result.year (by omega)
    obtain ⟨-, high⟩ := limits_years
    generalize yearStart 10000 = last at order high
    unfold WithinLimits at limits
    omega
  have inRanges : result.InRanges :=
    ⟨⟨by unfold DATETIME_MINIMUM_YEAR; omega, most⟩, month, day, hour, minutes, seconds, micros⟩
  have set := (set_fields library inRanges (show -2000 ≤ result.minute ∧ result.minute ≤ 2000 by
    omega)).1 limits
  rw [if_neg (not_inYear_zero (by omega) start), add_zero] at set
  dsimp only
  rw [validateRanges_of inRanges, ← microseconds]
  exact set

/-- The day 0 does not pass the second check of the ranges. -/
theorem freeForm_newYear (form : FreeForm str found parsed)
    (zone : -12 ≤ found.timezone_number ∧ found.timezone_number ≤ 12)
    (calendar : parsed.Calendar) (year : 2 ≤ parsed.year)
    (newYear : BeforeNewYear found.timezone_number parsed) :
    ¬ FreeFormExact library str found parsed := by
  intro exactly
  obtain ⟨⟨-, most⟩, month, day, hour, minute, second, -⟩ := calendar.inRanges
  have limits : WithinLimits (parsed.instant - found.timezone_number * 3600) := by
    have start := Parsed.instant_ge month day.1 hour.1 minute.1 second.1
    have first : parsed.instant = yearStart parsed.year * 86400 + parsed.hour * 3600 +
        parsed.minute * 60 + parsed.second := by
      rw [Parsed.instant_eq, newYear.1, newYear.2.1]
      have january : dayNumber parsed.year (1 - 1) 1 = yearStart parsed.year := by
        simp [dayNumber, monthStart]
      rw [january]
    have low := @yearStart_le 2 parsed.year year
    have high := @yearStart_le parsed.year 9999 most
    rw [yearStart_eq 2] at low
    rw [yearStart_eq 9999] at high
    unfold WithinLimits DATETIME_MINIMUM_TIME DATETIME_MAXIMUM_TIME
    omega
  have stored := exactly limits
  rw [ofString_freeForm library form calendar.inRanges (by unfold LOCAL_TIME_OFFSET; omega)]
    at stored
  have none := adjust_newYear calendar newYear
  obtain ⟨exception, refused⟩ := @validateRanges_error
    (adjustTimeForTimeZone found.timezone_number parsed)
    (fun inRanges => by have day := inRanges.day; omega) (String.ofList str)
  dsimp only at stored
  rw [refused] at stored
  cases stored

end Exact

/-- A date in the free form denotes its instant exactly when its offset does not lead from the
first of January to the year before. -/
theorem freeFormExact_iff (library : CLibrary) (str : Text) (found : Tokens) (parsed : Parsed)
    (form : FreeForm str found parsed)
    (zone : -12 ≤ found.timezone_number ∧ found.timezone_number ≤ 12)
    (calendar : parsed.Calendar) (year : 2 ≤ parsed.year) :
    FreeFormExact library str found parsed ↔ ¬ BeforeNewYear found.timezone_number parsed := by
  constructor
  · intro exactly newYear
    exact freeForm_newYear form zone calendar year newYear exactly
  · exact freeForm_exact form zone calendar year

/-- Half an hour into March, an hour ahead of UTC, where it is still the leap day. -/
def marchText : Text := "Sun Mar 1 00:30:00 CET 2020".toList

def marchTokens : Tokens :=
  ⟨['S', 'u', 'n'], ['1'], ['0', '0', ':', '3', '0', ':', '0', '0'], 1, 3, ['2', '0', '2', '0']⟩

def marchFields : Parsed := ⟨2020, 3, 1, 0, 30, 0, 0⟩

theorem freeFormExact_iff_march : FreeFormExact utcLibrary marchText marchTokens marchFields ↔
    ¬ BeforeNewYear marchTokens.timezone_number marchFields :=
  freeFormExact_iff utcLibrary marchText marchTokens marchFields
    ⟨if_neg (by decide), by decide, rfl, by decide, by decide, rfl⟩ (by decide)
    ⟨⟨by decide, by decide, by decide, by decide, by decide, by decide, by decide⟩, by decide⟩
    (by decide)

/-- Half an hour into the year 2000, an hour ahead of UTC, where it is still 1999. -/
def newYearText : Text := "Jan 1 2000 00:30:00 CET".toList

def newYearTokens : Tokens :=
  ⟨[], ['1'], ['0', '0', ':', '3', '0', ':', '0', '0'], 1, 1, ['2', '0', '0', '0']⟩

def newYearFields : Parsed := ⟨2000, 1, 1, 0, 30, 0, 0⟩

theorem newYear_not_exact :
    FreeForm newYearText newYearTokens newYearFields ∧ newYearFields.Calendar ∧
      ¬ FreeFormExact utcLibrary newYearText newYearTokens newYearFields := by
  have form : FreeForm newYearText newYearTokens newYearFields :=
    ⟨if_neg (by decide), by decide, rfl, by decide, by decide, rfl⟩
  have calendar : newYearFields.Calendar :=
    ⟨⟨by decide, by decide, by decide, by decide, by decide, by decide, by decide⟩, by decide⟩
  exact ⟨form, calendar,
    freeForm_newYear form (by decide) calendar (by decide) ⟨rfl, rfl, by decide⟩⟩

end Blocxx.Time
