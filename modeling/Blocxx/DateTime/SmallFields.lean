import Blocxx.DateTime.Calendar
import Blocxx.DateTime.Invariant

/-!
This file proves that fields of moderate size do not overflow in `timeGm`.
-/

namespace Blocxx.Time

open Library.Gregorian Library.Loop

/-- The fields are far from the limits of their types. -/
structure SmallFields (tm : Tm) : Prop where
  sec : -1000000 ≤ tm.tm_sec ∧ tm.tm_sec ≤ 1000000
  min : -1000000 ≤ tm.tm_min ∧ tm.tm_min ≤ 1000000
  hour : -1000000 ≤ tm.tm_hour ∧ tm.tm_hour ≤ 1000000
  mday : -1000000 ≤ tm.tm_mday ∧ tm.tm_mday ≤ 1000000
  mon : -1000000 ≤ tm.tm_mon ∧ tm.tm_mon ≤ 1000000
  year : -1000000 ≤ tm.tm_year ∧ tm.tm_year ≤ 1000000

section Loops

/-- The fields that the first loop comes to. A day is taken for each year that is added. -/
def DropBounds (tm : Tm) : Prop :=
  HasMonth tm ∧ -2000000 ≤ tm.tm_year ∧ tm.tm_mday ≤ 2000000 ∧ -2000000 ≤ tm.tm_mday ∧
    (tm.tm_year ≤ 2000000 ∨ 1 ≤ tm.tm_mday ∧ tm.tm_year + tm.tm_mday ≤ 4000000)

/-- The fields that the second loop comes to. Days are added for each year that is taken. -/
def BorrowBounds (tm : Tm) : Prop :=
  HasMonth tm ∧ tm.tm_year ≤ 4000000 ∧ -2000000 ≤ tm.tm_mday ∧
    -4000000 ≤ tm.tm_year + tm.tm_mday ∧ tm.tm_mday ≤ 31

theorem normMonth_year (tm : Tm) (bounds : -10000000 ≤ tm.tm_mon ∧ tm.tm_mon ≤ 10000000)
    (year : -10000000 ≤ tm.tm_year ∧ tm.tm_year ≤ 10000000) :
    (normMonth tm).tm_year = tm.tm_year + tm.tm_mon / 12 := by
  have floor := divFloor_remFloor (by decide : (0 : Int) < 12) tm.tm_mon
  unfold normMonth
  dsimp only
  rw [floor.1, wrap32_of_fits (by unfold FitsInt; omega)]

theorem dropIteration_bounds {tm next : Tm} (bounds : DropBounds tm)
    (goes : dropIteration tm = .next next) : DropBounds next := by
  obtain ⟨month, year, most, least, late⟩ := bounds
  have days := daysInMonth_range month
  unfold dropIteration at goes
  split at goes
  · obtain rfl := Iteration.next.inj goes
    obtain ⟨low, high⟩ := month
    have carried := normMonth_year
      { tm with tm_mday := tm.tm_mday - daysInMonth tm, tm_mon := tm.tm_mon + 1 }
      (by dsimp only; omega) (by dsimp only; omega)
    refine ⟨normMonth_hasMonth _, ?_⟩
    rw [carried]
    dsimp only [normMonth]
    omega
  · cases goes

theorem borrowIteration_bounds {tm next : Tm} (bounds : BorrowBounds tm)
    (goes : borrowIteration tm = .next next) : BorrowBounds next := by
  obtain ⟨month, year, least, early, most⟩ := bounds
  unfold borrowIteration at goes
  split at goes
  · obtain rfl := Iteration.next.inj goes
    obtain ⟨low, high⟩ := month
    have before : HasMonth (borrowMonth tm) := normMonth_hasMonth _
    have days := daysInMonth_range before
    have day : (borrowMonth tm).tm_mday = tm.tm_mday + daysInMonth (borrowMonth tm) := rfl
    have carried : (borrowMonth tm).tm_year = tm.tm_year + (tm.tm_mon - 1) / 12 :=
      normMonth_year { tm with tm_mon := tm.tm_mon - 1 } (by dsimp only; omega)
        (by dsimp only; omega)
    refine ⟨before, ?_⟩
    rw [carried, day]
    omega
  · cases goes

theorem DropBounds.fits {tm : Tm} (bounds : DropBounds tm) : DropFits tm := by
  obtain ⟨⟨low, high⟩, year, most, least, late⟩ := bounds
  have floor := divFloor_remFloor (by decide : (0 : Int) < 12) (tm.tm_mon + 1)
  refine ⟨fun _ => ?_, fun _ => ?_⟩
  · unfold FitsInt tmYearBase
    omega
  · rw [floor.1]
    unfold FitsInt
    omega

theorem BorrowBounds.fits {tm : Tm} (bounds : BorrowBounds tm) : BorrowFits tm := by
  obtain ⟨⟨low, high⟩, year, least, early, most⟩ := bounds
  have floor := divFloor_remFloor (by decide : (0 : Int) < 12) (tm.tm_mon - 1)
  refine ⟨fun _ => ?_, fun _ => ?_⟩
  · unfold FitsInt tmYearBase
    omega
  · rw [floor.1]
    unfold FitsInt
    omega

/-- A loop whose results are its last states ends in one that it comes to. -/
theorem visits_result {body : Tm → Iteration Tm Tm}
    (same : ∀ tm result, body tm = .stop result → result = tm) {start result : Tm}
    (returns : Returns body start result) : Visits body start result := by
  obtain ⟨fuel, runs⟩ := returns
  induction fuel generalizing start with
  | zero => cases runs
  | succ fuel ih =>
      rw [run] at runs
      cases goes : body start with
      | next later =>
          rw [goes] at runs
          exact visits_iff.mpr (.inr ⟨later, goes, ih runs⟩)
      | stop stopped =>
          rw [goes] at runs
          obtain rfl := Option.some.inj runs
          obtain rfl := same _ _ goes
          exact .start

theorem dropIteration_last (tm result : Tm) (stops : dropIteration tm = .stop result) :
    result = tm := by
  unfold dropIteration at stops
  split at stops
  · cases stops
  · exact (Iteration.stop.inj stops).symm

theorem borrowIteration_last (tm result : Tm) (stops : borrowIteration tm = .stop result) :
    result = tm := by
  unfold borrowIteration at stops
  split at stops
  · cases stops
  · exact (Iteration.stop.inj stops).symm

end Loops

/-- Fields of moderate size do not overflow. -/
theorem SmallFields.noOverflow {tm : Tm} (small : SmallFields tm) : NoOverflow tm := by
  obtain ⟨sec, min, hour, mday, mon, year⟩ := small
  have second := (divFloor_remFloor (by decide : (0 : Int) < 60) tm.tm_sec).1
  have minuteFits : FitsInt (carriedMinute tm) := by
    unfold carriedMinute FitsInt
    omega
  have minute := (divFloor_remFloor (by decide : (0 : Int) < 60) (carriedMinute tm)).1
  have hourBounds : -1100000 ≤ carriedHour tm ∧ carriedHour tm ≤ 1100000 := by
    unfold carriedHour
    rw [minute]
    unfold carriedMinute
    omega
  have hours := (divFloor_remFloor (by decide : (0 : Int) < 24) (carriedHour tm)).1
  have dayBounds : -1100000 ≤ carriedDay tm ∧ carriedDay tm ≤ 1100000 := by
    unfold carriedDay
    omega
  have months := (divFloor_remFloor (by decide : (0 : Int) < 12) tm.tm_mon).1
  have hourFits : FitsInt (carriedHour tm) := by
    unfold FitsInt
    omega
  have dayFits : FitsInt (carriedDay tm) := by
    unfold FitsInt
    omega
  have normDay : (normFields tm).tm_mday = carriedDay tm := by
    unfold normFields normMonth
    dsimp only
    rw [← carriedMinute, wrap32_of_fits minuteFits, ← carriedHour, wrap32_of_fits hourFits,
      ← carriedDay, wrap32_of_fits dayFits]
  have normYear : (normFields tm).tm_year = tm.tm_year + tm.tm_mon / 12 :=
    normMonth_year _ (by dsimp only; omega) (by dsimp only; omega)
  have isMonth : HasMonth (normFields tm) := normMonth_hasMonth _
  have first : DropBounds (normFields tm) := by
    refine ⟨isMonth, ?_⟩
    rw [normDay, normYear]
    omega
  have dropVisited (visited : Tm) (visits : Visits dropIteration (normFields tm) visited) :
      DropBounds visited := by
    induction visits with
    | start => exact first
    | next before goes ih => exact dropIteration_bounds ih goes
  have dropEnds := dropMonths_ends isMonth le_rfl
  have dropReturns : Returns dropIteration (normFields tm) (droppedTm tm) :=
    dropMonths_returns isMonth le_rfl
  have dropped : BorrowBounds (droppedTm tm) := by
    obtain ⟨month, low, most, least, late⟩ := dropVisited _ (visits_result dropIteration_last dropReturns)
    have days := daysInMonth_range dropEnds.1
    have inside : (droppedTm tm).tm_mday ≤ daysInMonth (droppedTm tm) := dropEnds.2.1
    unfold droppedTm at *
    refine ⟨month, ?_⟩
    omega
  have borrowVisited (visited : Tm) (visits : Visits borrowIteration (droppedTm tm) visited) :
      BorrowBounds visited := by
    induction visits with
    | start => exact dropped
    | next before goes ih => exact borrowIteration_bounds ih goes
  have borrowReturns : Returns borrowIteration (droppedTm tm) (normTm tm) :=
    borrowMonths_returns dropEnds.1 le_rfl
  exact {
    minute := minuteFits
    hour := hourFits
    day := dayFits
    month := by
      unfold FitsInt
      omega
    drop := fun visited visits => (dropVisited visited visits).fits
    borrow := fun visited visits => (borrowVisited visited visits).fits
    year := by
      obtain ⟨month, high, least, early, most⟩ :=
        borrowVisited _ (visits_result borrowIteration_last borrowReturns)
      unfold FitsInt tmYearBase
      omega }

/-- The first year starts at the least time. -/
theorem limits_years : yearStart 0 * 86400 = DATETIME_MINIMUM_TIME ∧
    yearStart 10000 * 86400 = DATETIME_MAXIMUM_TIME + 1 := by
  rw [yearStart_eq, yearStart_eq]
  decide

theorem yearStart_le {earlier later : Int} (order : earlier ≤ later) :
    yearStart earlier ≤ yearStart later := by
  rcases eq_or_lt_of_le order with rfl | less
  · exact le_rfl
  · exact (yearStart_lt less).le

/-- The normalised year is within the limits exactly when the instant is. -/
theorem year_within_iff {tm : Tm} (fits : NoOverflow tm) :
    DATETIME_MINIMUM_YEAR ≤ year (normTm tm) ∧ year (normTm tm) ≤ DATETIME_MAXIMUM_YEAR ↔
      WithinLimits (instant tm) := by
  have inYear := (year_eq_iff fits _).mp rfl
  unfold InYear at inYear
  generalize year (normTm tm) = y at inYear
  obtain ⟨low, high⟩ := limits_years
  unfold WithinLimits DATETIME_MINIMUM_YEAR DATETIME_MAXIMUM_YEAR
  constructor
  · rintro ⟨least, most⟩
    have first := yearStart_le least
    have last := @yearStart_le (y + 1) 10000 (by omega)
    omega
  · rintro ⟨least, most⟩
    constructor
    · by_contra before
      have last := @yearStart_le (y + 1) 0 (by omega)
      omega
    · by_contra after
      have first := @yearStart_le 10000 y (by omega)
      omega

instance (year seconds : Int) : Decidable (InYear year seconds) :=
  inferInstanceAs (Decidable (_ ∧ _))

/-- The answer of `timeGm` for fields of moderate size: the instant, a day late in the year 0. -/
theorem SmallFields.timeGm_within {tm : Tm} (small : SmallFields tm)
    (within : WithinLimits (instant tm)) :
    timeGm tm = .ok (instant tm + (if InYear 0 (instant tm) then 86400 else 0)) := by
  have fits := small.noOverflow
  obtain ⟨low, high⟩ := (year_within_iff fits).mpr within
  rw [timeGm_eq fits low high]
  simp only [year_eq_iff fits]

theorem SmallFields.timeGm_outside {tm : Tm} (small : SmallFields tm)
    (outside : ¬ WithinLimits (instant tm)) : ∃ exception, timeGm tm = .error exception := by
  have far := mt (year_within_iff small.noOverflow).mp outside
  unfold timeGm
  dsimp only
  rw [if_pos (by omega)]
  exact ⟨_, rfl⟩

end Blocxx.Time
