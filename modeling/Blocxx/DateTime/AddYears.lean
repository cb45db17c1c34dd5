import Blocxx.DateTime.Calendar
import Blocxx.DateTime.Invariant

/-!
This file proves for which steps `addYears` succeeds exactly on the dates in the range of
`DateTime`.
-/

namespace Blocxx.Time

open Library Library.Gregorian

namespace DateTime

/-- The UTC fields of the time with the years added to the year. -/
def withYears (library : CLibrary) (dt : DateTime) (years : Int) : Tm :=
  let theTime := library.gmtime_r dt.m_seconds
  { theTime with tm_year := theTime.tm_year + years }

/-- The UTC year of the time. -/
def utcYear (library : CLibrary) (dt : DateTime) : Int :=
  (library.gmtime_r dt.m_seconds).tm_year + tmYearBase

/-- `addYears` succeeds when the date with the other year is in the range, and only then. The answer
is the time of that date. -/
structure AddsYears (library : CLibrary) (dt : DateTime) (years : Int) : Prop where
  succeeds : (∃ changed, dt.addYears library years = .ok changed) ↔
    WithinLimits (instant (dt.withYears library years))
  answer : ∀ changed, dt.addYears library years = .ok changed →
    timeGm (dt.withYears library years) = .ok changed.m_seconds ∧
      changed.m_microseconds = dt.m_microseconds

end DateTime

/-- The limits of the seconds are those of the years. -/
theorem withinLimits_iff {year seconds : Int} (inYear : InYear year seconds) :
    WithinLimits seconds ↔ DATETIME_MINIMUM_YEAR ≤ year ∧ year ≤ DATETIME_MAXIMUM_YEAR := by
  have first : yearStart 0 = -719528 := by rw [yearStart_eq]; decide
  have last : yearStart 10000 = 2932897 := by rw [yearStart_eq]; decide
  have mono {earlier later : Int} (before : earlier ≤ later) :
      yearStart earlier ≤ yearStart later := by
    rcases before.lt_or_eq with less | rfl
    · exact (yearStart_lt less).le
    · exact le_rfl
  unfold InYear at inYear
  simp only [WithinLimits, DATETIME_MINIMUM_TIME, DATETIME_MAXIMUM_TIME, DATETIME_MINIMUM_YEAR,
    DATETIME_MAXIMUM_YEAR]
  constructor
  · rintro ⟨low, high⟩
    constructor
    · by_contra early
      have before := mono (by omega : year + 1 ≤ 0)
      omega
    · by_contra late
      have behind := mono (by omega : 10000 ≤ year)
      omega
  · rintro ⟨low, high⟩
    have before := mono low
    have behind := mono (by omega : year + 1 ≤ 10000)
    omega

theorem floor_small {x y : Int} (low : 0 ≤ x) (high : x < y) :
    divFloor x y = 0 ∧ remFloor x y = x := by
  have floor := divFloor_remFloor (by omega : 0 < y) x
  exact ⟨floor.1.trans (Int.ediv_eq_zero_of_lt low high),
    floor.2.trans (Int.emod_eq_of_lt low high)⟩

section Moved

variable {tm : Tm} (normal : Normal tm) (fits : FitsInt (tm.tm_year + tmYearBase)) (year : Int)

include normal fits

/-- Only the leap day is missing in another year. -/
theorem day_cases : tm.tm_mday ≤ monthLength year tm.tm_mon.toNat ∨
    tm.tm_mon = 1 ∧ tm.tm_mday = 29 ∧ ¬ IsLeap year := by
  have last := normal.mday.2
  rw [daysInMonth_eq normal.month fun _ => fits] at last
  obtain ⟨low, high⟩ := normal.month
  by_cases february : tm.tm_mon = 1
  · rw [february] at last ⊢
    have most : monthLength (tm.tm_year + tmYearBase) (1 : Int).toNat ≤ 29 := by
      unfold monthLength
      split <;> decide
    by_cases leap : IsLeap year
    · left
      unfold monthLength
      rw [if_pos leap]
      exact last.trans most
    · unfold monthLength
      rw [if_neg leap]
      show tm.tm_mday ≤ 28 ∨ _
      have mday : tm.tm_mday ≤ 29 := last.trans most
      rcases mday.lt_or_eq with less | same
      · exact .inl (by omega)
      · exact .inr ⟨rfl, same, leap⟩
  · left
    have same : monthLength year tm.tm_mon.toNat =
        monthLength (tm.tm_year + tmYearBase) tm.tm_mon.toNat := by
      unfold monthLength
      have other : tm.tm_mon.toNat ≠ 1 := by omega
      generalize tm.tm_mon.toNat = month at other
      rcases month with - | - | month
      · split <;> split <;> rfl
      · exact absurd rfl other
      · split <;> split <;> rfl
    rw [same]
    exact last

/-- The instant of the fields in another year lies in that year. -/
theorem instant_inYear : InYear (year + tmYearBase) (instant { tm with tm_year := year }) := by
  have sec := normal.sec
  have min := normal.min
  have hour := normal.hour
  have within : yearStart (year + tmYearBase) ≤ dayNumber (year + tmYearBase) tm.tm_mon tm.tm_mday ∧
      dayNumber (year + tmYearBase) tm.tm_mon tm.tm_mday < yearStart (year + tmYearBase + 1) := by
    rcases day_cases normal fits (year + tmYearBase) with inside | ⟨february, leapDay, common⟩
    · exact dayNumber_inYear normal.month ⟨normal.mday.1, inside⟩
    · -- the missing leap day is the first of March
      have short : monthLength (year + tmYearBase) (1 : Int).toNat = 28 := by
        unfold monthLength
        rw [if_neg common]
        rfl
      have march : dayNumber (year + tmYearBase) 1 29 = dayNumber (year + tmYearBase) 2 1 := by
        have next : dayNumber (year + tmYearBase) (1 + 1) 1 = _ :=
          dayNumber_nextMonth (by decide) 1
        rw [short, ← dayNumber_day] at next
        exact next.symm
      rw [february, leapDay, march]
      have long : 28 ≤ monthLength (year + tmYearBase) (2 : Int).toNat :=
        (monthLength_range _ (by decide : 2 < 12)).1
      exact dayNumber_inYear (by decide) ⟨le_rfl, by omega⟩
  unfold InYear instant
  dsimp only
  omega

omit fits in
/-- Nothing is carried between the fields. -/
theorem normFields_moved (moved : FitsInt year) :
    normFields { tm with tm_year := year } = { tm with tm_year := year } := by
  obtain ⟨sec, min, hour, month, mday⟩ := normal
  have days := daysInMonth_range month
  have second := floor_small sec.1 sec.2
  have minute := floor_small min.1 min.2
  have hours := floor_small hour.1 hour.2
  have months := floor_small month.1 month.2
  have same {value : Int} (low : 0 ≤ value) (high : value < 60) : wrap32 value = value :=
    wrap32_of_fits ⟨by omega, by omega⟩
  unfold normFields normMonth
  dsimp only
  rw [second.1, second.2, add_zero, same min.1 min.2, minute.1, minute.2, add_zero,
    same hour.1 (by omega), hours.1, hours.2, add_zero, same (by omega) (by omega), months.1,
    months.2, add_zero, wrap32_of_fits moved]

/-- `normTm` stays in the other year. -/
theorem normTm_year (moved : FitsInt year) (sum : FitsInt (year + tmYearBase)) :
    (normTm { tm with tm_year := year }).tm_year = year := by
  obtain ⟨days, enough⟩ : ∃ days, tm.tm_mday.toNat = days + 1 :=
    ⟨tm.tm_mday.toNat - 1, by have := normal.mday.1; omega⟩
  have stays {fuel : Nat} (other : Tm) (early : 1 ≤ other.tm_mday) :
      borrowMonths fuel other = other := by
    cases fuel with
    | zero => rfl
    | succ fuel => exact if_neg (by omega)
  unfold normTm
  rw [normFields_moved normal year moved]
  dsimp only
  rw [enough, dropMonths]
  have length : daysInMonth { tm with tm_year := year } =
      monthLength (year + tmYearBase) tm.tm_mon.toNat :=
    daysInMonth_eq normal.month fun _ => sum
  rcases day_cases normal fits (year + tmYearBase) with inside | ⟨february, leapDay, common⟩
  · rw [if_neg (by rw [length]; exact inside.not_gt), stays { tm with tm_year := year } normal.mday.1]
  · have short : daysInMonth { tm with tm_year := year } = 28 := by
      rw [length, february, monthLength, if_neg common]
      rfl
    have carried : normMonth { tm with tm_mday := 1, tm_mon := 2, tm_year := year } =
        { tm with tm_mday := 1, tm_mon := 2, tm_year := year } := by
      have month := floor_small (by decide : (0 : Int) ≤ 2) (by decide : (2 : Int) < 12)
      unfold normMonth
      dsimp only
      rw [month.1, month.2, add_zero, wrap32_of_fits moved]
    have drops : dropMonths days { tm with tm_mday := 1, tm_mon := 2, tm_year := year } =
        { tm with tm_mday := 1, tm_mon := 2, tm_year := year } := by
      have march := (daysInMonth_range
        (show HasMonth { tm with tm_mday := 1, tm_mon := 2, tm_year := year } from
          ⟨show (0 : Int) ≤ 2 by decide, show (2 : Int) < 12 by decide⟩)).1
      cases days with
      | zero => rfl
      | succ days => exact if_neg (by dsimp only; omega)
    rw [short, february, leapDay, if_pos (by decide)]
    show (borrowMonths _ (dropMonths days (normMonth
      { tm with tm_mday := 1, tm_mon := 2, tm_year := year }))).tm_year = year
    rw [carried, drops, stays _ le_rfl]

end Moved

/-- `timeGm` accepts the fields exactly when their normalised year is in the limits. -/
theorem timeGm_ok_iff (tm : Tm) : (∃ seconds, timeGm tm = .ok seconds) ↔
    DATETIME_MINIMUM_YEAR ≤ year (normTm tm) ∧ year (normTm tm) ≤ DATETIME_MAXIMUM_YEAR := by
  unfold timeGm
  dsimp only
  split
  · next outside =>
      refine iff_of_false ?_ (by omega)
      rintro ⟨seconds, ok⟩
      cases ok
  · next inside => exact iff_of_true ⟨_, rfl⟩ (by omega)

namespace DateTime

/-- A normal time checks the years since 1900 and asks `timeGm`. -/
theorem addYears_ok_iff {library : CLibrary} {dt : DateTime} (normal : dt.IsNormal) {years : Int}
    (fits : FitsInt ((library.gmtime_r dt.m_seconds).tm_year + years)) (changed : DateTime) :
    dt.addYears library years = .ok changed ↔
      (DATETIME_MINIMUM_YEAR ≤ (dt.withYears library years).tm_year ∧
        (dt.withYears library years).tm_year ≤ DATETIME_MAXIMUM_YEAR) ∧
      timeGm (dt.withYears library years) = .ok changed.m_seconds ∧
        changed.m_microseconds = dt.m_microseconds := by
  have plain := normal.not_special
  have read : getTm library dt .utcTime = .ok (library.gmtime_r dt.m_seconds) := by
    unfold getTm checkNormalTime
    rw [if_neg plain]
    rfl
  have moved : { library.gmtime_r dt.m_seconds with
      tm_year := (library.gmtime_r dt.m_seconds).tm_year + years } =
      dt.withYears library years := rfl
  unfold addYears
  rw [if_neg plain, changeTm, read]
  constructor
  · intro ok
    obtain ⟨theTime, isRead, ok⟩ := bind_eq_ok.mp ok
    obtain rfl := Except.ok.inj isRead
    obtain ⟨tmarg, checked, ok⟩ := bind_eq_ok.mp ok
    obtain ⟨_, range, made⟩ := bind_eq_ok.mp checked
    obtain rfl := Except.ok.inj made
    obtain ⟨seconds, time, stored⟩ := bind_eq_ok.mp ok
    obtain rfl := Except.ok.inj stored
    rw [wrap32_of_fits fits] at range time
    exact ⟨validateRange_ok range, time, rfl⟩
  · rintro ⟨range, time, same⟩
    refine bind_eq_ok.mpr ⟨_, rfl, bind_eq_ok.mpr ⟨dt.withYears library years, ?_,
      bind_eq_ok.mpr ⟨changed.m_seconds, time, ?_⟩⟩⟩
    · rw [wrap32_of_fits fits]
      refine bind_eq_ok.mpr ⟨(), ?_, rfl⟩
      exact if_neg (by rw [not_or, not_lt, not_lt]; exact range)
    · rw [← same]
      rfl

theorem year_withYears {library : CLibrary} {dt : DateTime} {years : Int}
    (fields : Normal (library.gmtime_r dt.m_seconds)) (inRange : FitsInt (dt.utcYear library))
    (fits : FitsInt ((library.gmtime_r dt.m_seconds).tm_year + years))
    (sum : FitsInt ((library.gmtime_r dt.m_seconds).tm_year + years + tmYearBase)) :
    Time.year (normTm (dt.withYears library years)) =
      (library.gmtime_r dt.m_seconds).tm_year + years + tmYearBase := by
  unfold Time.year withYears
  dsimp only
  rw [normTm_year fields inRange _ fits sum, wrap32_of_fits sum]

/-- The years that the check refuses though `timeGm` accepts them are those from 0 to 1899. -/
theorem addsYears_iff (library : CLibrary) {dt : DateTime} (normal : dt.IsNormal)
    (fields : Normal (library.gmtime_r dt.m_seconds))
    (low : DATETIME_MINIMUM_YEAR ≤ dt.utcYear library)
    (high : dt.utcYear library ≤ DATETIME_MAXIMUM_YEAR) {years : Int}
    (fits : FitsInt ((library.gmtime_r dt.m_seconds).tm_year + years)) :
    AddsYears library dt years ↔
      ¬ (0 ≤ dt.utcYear library + years ∧ dt.utcYear library + years < 1900) := by
  simp only [utcYear, DATETIME_MINIMUM_YEAR, DATETIME_MAXIMUM_YEAR, tmYearBase] at low high ⊢
  have inRange : FitsInt ((library.gmtime_r dt.m_seconds).tm_year + tmYearBase) := by
    simp only [FitsInt, tmYearBase]
    omega
  have inYear := instant_inYear fields inRange ((library.gmtime_r dt.m_seconds).tm_year + years)
  have limits : WithinLimits (instant (dt.withYears library years)) ↔ _ :=
    withinLimits_iff inYear
  simp only [DATETIME_MINIMUM_YEAR, DATETIME_MAXIMUM_YEAR, tmYearBase] at limits
  constructor
  · rintro exact ⟨early, late⟩
    obtain ⟨changed, ok⟩ := exact.succeeds.mpr (limits.mpr (by omega))
    obtain ⟨⟨least, -⟩, -⟩ := (addYears_ok_iff normal fits changed).mp ok
    simp only [withYears, DATETIME_MINIMUM_YEAR] at least
    omega
  · intro outside
    refine ⟨?_, fun changed ok => ((addYears_ok_iff normal fits changed).mp ok).2⟩
    rw [limits]
    constructor
    · rintro ⟨changed, ok⟩
      obtain ⟨⟨least, most⟩, time, -⟩ := (addYears_ok_iff normal fits changed).mp ok
      have accepted := (timeGm_ok_iff _).mp ⟨_, time⟩
      simp only [withYears, DATETIME_MINIMUM_YEAR, DATETIME_MAXIMUM_YEAR] at least most
      have sum : FitsInt ((library.gmtime_r dt.m_seconds).tm_year + years + tmYearBase) := by
        simp only [FitsInt, tmYearBase]
        omega
      rw [year_withYears fields inRange fits sum] at accepted
      exact accepted
    · rintro ⟨early, late⟩
      have sum : FitsInt ((library.gmtime_r dt.m_seconds).tm_year + years + tmYearBase) := by
        simp only [FitsInt, tmYearBase]
        omega
      have accepted : ∃ seconds, timeGm (dt.withYears library years) = .ok seconds := by
        rw [timeGm_ok_iff, year_withYears fields inRange fits sum]
        exact ⟨early, late⟩
      obtain ⟨seconds, time⟩ := accepted
      refine ⟨⟨seconds, dt.m_microseconds⟩, (addYears_ok_iff normal fits _).mpr ⟨?_, time, rfl⟩⟩
      simp only [withYears, DATETIME_MINIMUM_YEAR, DATETIME_MAXIMUM_YEAR]
      omega

/-- A C library that gives the UTC fields of the first second of 1970. -/
def epochLibrary : CLibrary where
  gmtime_r _ := ⟨0, 0, 0, 1, 0, 70, 0⟩
  localtime_r _ := ⟨0, 0, 0, 1, 0, 70, 0⟩
  mktime _ := (0, 0)

theorem epoch_addYears : AddsYears epochLibrary epoch 30 :=
  (addsYears_iff epochLibrary ⟨by decide, by decide⟩
    ⟨by decide, by decide, by decide, ⟨by decide, by decide⟩, by decide⟩ (by decide) (by decide)
    (by decide)).mpr (by decide)

/-- The year 1870 is refused. -/
theorem epoch_not_addYears : ¬ AddsYears epochLibrary epoch (-100) := by
  intro exact
  obtain ⟨changed, ok⟩ := exact.succeeds.mpr (by decide +kernel)
  have refused : epoch.addYears epochLibrary (-100) ≠ .ok changed := by
    intro same
    have answer : (epoch.addYears epochLibrary (-100)).toOption.isNone = true := by decide +kernel
    rw [same] at answer
    exact Bool.noConfusion answer
  exact refused ok

end DateTime

end Blocxx.Time
