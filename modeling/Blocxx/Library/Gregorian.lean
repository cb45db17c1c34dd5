import Mathlib.Tactic

/-!
This file gives the proleptic Gregorian calendar over all integers. Months count from zero.
-/

namespace Blocxx.Library.Gregorian

/-- The rule of the leap years. -/
def IsLeap (year : Int) : Prop := year % 4 = 0 ∧ (year % 100 ≠ 0 ∨ year % 400 = 0)

instance (year : Int) : Decidable (IsLeap year) := inferInstanceAs (Decidable (_ ∧ _))

def monthLength (year : Int) (month : Nat) : Int :=
  [31, if IsLeap year then 29 else 28, 31, 30, 31, 30, 31, 31, 30, 31, 30, 31].getD month 0

def yearLength (year : Int) : Int := if IsLeap year then 366 else 365

/-- The days of the year before the month. -/
def monthStart (year : Int) (month : Nat) : Int :=
  (Finset.range month).sum (monthLength year)

/-- The days from 1970-01-01 to the first day of the year. One of the two sums is empty. -/
def yearStart (year : Int) : Int :=
  (Finset.range (year - 1970).toNat).sum (fun later => yearLength (1970 + later)) -
    (Finset.range (1970 - year).toNat).sum (fun earlier => yearLength (1969 - earlier))

/-- The days from 1970-01-01 to the day. The month and the day may be out of their ranges. -/
def dayNumber (year month day : Int) : Int :=
  yearStart (year + month / 12) + monthStart (year + month / 12) (month % 12).toNat + (day - 1)

theorem monthStart_succ (year : Int) (month : Nat) :
    monthStart year (month + 1) = monthStart year month + monthLength year month :=
  Finset.sum_range_succ _ _

/-- The months make up the year. -/
theorem monthStart_twelve (year : Int) : monthStart year 12 = yearLength year := by
  unfold monthStart yearLength
  simp only [Finset.sum_range_succ, Finset.sum_range_zero, monthLength]
  split <;> rfl

theorem monthLength_range (year : Int) {month : Nat} (isMonth : month < 12) :
    28 ≤ monthLength year month ∧ monthLength year month ≤ 31 := by
  unfold monthLength
  by_cases leap : IsLeap year
  · simp only [leap, if_true]
    interval_cases month <;> decide
  · simp only [leap, if_false]
    interval_cases month <;> decide

theorem yearLength_range (year : Int) : 365 ≤ yearLength year ∧ yearLength year ≤ 366 := by
  unfold yearLength
  split <;> omega

/-- The months before a month take the rest of the year from the months that follow. -/
theorem monthStart_range (year : Int) {month : Nat} (isMonth : month < 12) :
    0 ≤ monthStart year month ∧ monthStart year (month + 1) ≤ yearLength year := by
  have positive : ∀ later ∈ Finset.range 12, 0 ≤ monthLength year later := by
    intro later isLater
    have range := monthLength_range year (Finset.mem_range.mp isLater)
    omega
  have within (count : Nat) (few : count ≤ 12) : Finset.range count ⊆ Finset.range 12 :=
    Finset.range_subset_range.mpr few
  constructor
  · exact Finset.sum_nonneg fun later isLater => positive later (within month (by omega) isLater)
  · rw [← monthStart_twelve]
    exact Finset.sum_le_sum_of_subset_of_nonneg (within _ (by omega))
      fun later isLater _ => positive later isLater

@[simp] theorem yearStart_epoch : yearStart 1970 = 0 := by
  simp [yearStart]

theorem yearStart_succ (year : Int) : yearStart (year + 1) = yearStart year + yearLength year := by
  unfold yearStart
  by_cases past : year < 1970
  · have none : (year - 1970).toNat = 0 := by omega
    have noneNext : (year + 1 - 1970).toNat = 0 := by omega
    have before : (1970 - year).toNat = (1970 - (year + 1)).toNat + 1 := by omega
    have last : (1969 : Int) - (1970 - (year + 1)).toNat = year := by omega
    rw [none, noneNext, before, Finset.sum_range_succ, last]
    omega
  · have after : (year + 1 - 1970).toNat = (year - 1970).toNat + 1 := by omega
    have none : (1970 - year).toNat = 0 := by omega
    have noneNext : (1970 - (year + 1)).toNat = 0 := by omega
    have last : (1970 : Int) + (year - 1970).toNat = year := by omega
    rw [after, none, noneNext, Finset.sum_range_succ, last]
    omega

/-- Four centuries hold 97 leap years, which the floor divisions count. -/
theorem yearStart_eq (year : Int) :
    yearStart year =
      365 * (year - 1970) + ((year - 1) / 4 - (year - 1) / 100 + (year - 1) / 400 - 477) := by
  have leaps (year : Int) : yearLength year = 365 + (year / 4 - (year - 1) / 4) -
      (year / 100 - (year - 1) / 100) + (year / 400 - (year - 1) / 400) := by
    unfold yearLength
    by_cases leap : IsLeap year
    · rw [if_pos leap]
      unfold IsLeap at leap
      omega
    · rw [if_neg leap]
      unfold IsLeap at leap
      omega
  induction year using Int.inductionOn' (b := 1970) with
  | zero =>
      rw [yearStart_epoch]
      decide
  | succ year _ ih =>
      rw [yearStart_succ, ih, leaps]
      omega
  | pred year _ ih =>
      have step := yearStart_succ (year - 1)
      rw [sub_add_cancel, ih, leaps] at step
      omega

theorem yearStart_lt {earlier later : Int} (before : earlier < later) :
    yearStart earlier < yearStart later := by
  have increasing : StrictMono yearStart := strictMono_int_of_lt_succ fun year => by
    have length := yearLength_range year
    rw [yearStart_succ]
    omega
  exact increasing before

/-- A day lies in one year only. -/
theorem year_unique {year other number : Int}
    (inYear : yearStart year ≤ number ∧ number < yearStart (year + 1))
    (inOther : yearStart other ≤ number ∧ number < yearStart (other + 1)) : year = other := by
  have increasing {earlier later : Int} (before : earlier < later) :
      yearStart (earlier + 1) ≤ yearStart later := by
    rcases (by omega : earlier + 1 < later ∨ earlier + 1 = later) with less | rfl
    · exact (yearStart_lt less).le
    · exact le_rfl
  rcases lt_trichotomy year other with less | same | greater
  · have order := increasing less
    omega
  · exact same
  · have order := increasing greater
    omega

/-- Twelve months carry into the year. -/
theorem dayNumber_carry (year years month day : Int) :
    dayNumber (year + years) month day = dayNumber year (month + 12 * years) day := by
  have whole : (month + 12 * years) / 12 = years + month / 12 := by omega
  have rest : (month + 12 * years) % 12 = month % 12 := by omega
  unfold dayNumber
  rw [whole, rest, ← add_assoc year years]

theorem dayNumber_day (year month day more : Int) :
    dayNumber year month (day + more) = dayNumber year month day + more := by
  unfold dayNumber
  omega

/-- A day of the next month comes the length of this month later. -/
theorem dayNumber_nextMonth {year month : Int} (isMonth : 0 ≤ month ∧ month < 12) (day : Int) :
    dayNumber year (month + 1) day = dayNumber year month day + monthLength year month.toNat := by
  have here : month / 12 = 0 ∧ month % 12 = month := by omega
  have step := monthStart_succ year month.toNat
  unfold dayNumber
  rw [here.1, here.2, add_zero]
  rcases (by omega : month < 11 ∨ month = 11) with early | rfl
  · have next : (month + 1) / 12 = 0 ∧ (month + 1) % 12 = month + 1 := by omega
    have count : (month + 1).toNat = month.toNat + 1 := by omega
    rw [next.1, next.2, add_zero, count, step]
    omega
  · have december : monthStart year (11 : Int).toNat + monthLength year (11 : Int).toNat =
        yearLength year := step.symm.trans (monthStart_twelve year)
    have january : monthStart (year + 1) 0 = 0 := Finset.sum_range_zero _
    have first : ((11 + 1 : Int) % 12).toNat = 0 ∧ (11 + 1 : Int) / 12 = 1 := by decide
    rw [first.1, first.2, january, yearStart_succ]
    omega

/-- A day of the calendar lies in its year. -/
theorem dayNumber_inYear {year month day : Int} (isMonth : 0 ≤ month ∧ month < 12)
    (isDay : 1 ≤ day ∧ day ≤ monthLength year month.toNat) :
    yearStart year ≤ dayNumber year month day ∧
      dayNumber year month day < yearStart (year + 1) := by
  have here : month / 12 = 0 ∧ month % 12 = month := by omega
  have range := monthStart_range year (by omega : month.toNat < 12)
  rw [monthStart_succ] at range
  unfold dayNumber
  rw [here.1, here.2, add_zero, yearStart_succ]
  omega

/-- The number of the first day of a month. The months of all years are counted. -/
def monthFirst (month : Int) : Int := dayNumber 0 month 1

theorem monthFirst_succ (month : Int) : monthFirst (month + 1) =
    monthFirst month + monthLength (month / 12) (month % 12).toNat := by
  have split (later : Int) : dayNumber (month / 12) later 1 =
      dayNumber 0 (later + 12 * (month / 12)) 1 := by
    rw [← dayNumber_carry, zero_add]
  have step : dayNumber (month / 12) (month % 12 + 1) 1 = dayNumber (month / 12) (month % 12) 1 +
      monthLength (month / 12) (month % 12).toNat := dayNumber_nextMonth (by omega) 1
  rw [split, split] at step
  have here : month % 12 + 12 * (month / 12) = month := by omega
  have next : month % 12 + 1 + 12 * (month / 12) = month + 1 := by omega
  rwa [next, here] at step

theorem monthFirst_strictMono : StrictMono monthFirst := by
  apply strictMono_int_of_lt_succ
  intro month
  have range := monthLength_range (month / 12) (show (month % 12).toNat < 12 by omega)
  rw [monthFirst_succ]
  omega

theorem dayNumber_eq (year month day : Int) :
    dayNumber year month day = monthFirst (month + 12 * year) + (day - 1) := by
  rw [monthFirst, ← dayNumber_carry, zero_add, ← dayNumber_day]
  congr 1
  omega

/-- A day of the calendar. -/
def IsDate (year month day : Int) : Prop :=
  (0 ≤ month ∧ month < 12) ∧ 1 ≤ day ∧ day ≤ monthLength year month.toNat

theorem IsDate.mday_range {year month day : Int} (isDate : IsDate year month day) :
    1 ≤ day ∧ day ≤ 31 := by
  obtain ⟨isMonth, first, last⟩ := isDate
  have range := monthLength_range year (show month.toNat < 12 by omega)
  omega

/-- A day is one of the days of its month. -/
theorem IsDate.inMonth {year month day : Int} (isDate : IsDate year month day) :
    28 ≤ monthLength year month.toNat ∧
      day ≤ monthFirst (month + 12 * year + 1) - monthFirst (month + 12 * year) ∧
      monthFirst (month + 12 * year + 1) - monthFirst (month + 12 * year) =
        monthLength year month.toNat := by
  obtain ⟨isMonth, first, last⟩ := isDate
  have inYear : (month + 12 * year) / 12 = year ∧ (month + 12 * year) % 12 = month := by omega
  have length := monthFirst_succ (month + 12 * year)
  rw [inYear.1, inYear.2] at length
  have range := monthLength_range year (show month.toNat < 12 by omega)
  omega

/-- The day of the month of a day that is at most one day later is the same one, the next one or
the first one behind the end of a month. -/
theorem IsDate.next {year month day year' month' day' : Int} (isDate : IsDate year month day)
    (isDate' : IsDate year' month' day')
    (order : dayNumber year month day ≤ dayNumber year' month' day')
    (near : dayNumber year' month' day' ≤ dayNumber year month day + 1) :
    day' - day = dayNumber year' month' day' - dayNumber year month day ∨
      28 ≤ day ∧ day' = 1 ∧ dayNumber year' month' day' = dayNumber year month day + 1 := by
  obtain ⟨long, inside, length⟩ := isDate.inMonth
  obtain ⟨long', inside', length'⟩ := isDate'.inMonth
  have positive := isDate.2.1
  have positive' := isDate'.2.1
  rw [dayNumber_eq, dayNumber_eq] at *
  rcases lt_trichotomy (month + 12 * year) (month' + 12 * year') with less | same | greater
  · have behind := monthFirst_strictMono.monotone (Int.add_one_le_of_lt less)
    right
    omega
  · rw [same] at *
    left
    omega
  · have behind := monthFirst_strictMono.monotone (Int.add_one_le_of_lt greater)
    omega

end Blocxx.Library.Gregorian
