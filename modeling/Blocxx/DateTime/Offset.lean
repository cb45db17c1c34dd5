import Blocxx.DateTime.Calendar

/-!
This file embeds `DateTime::localTimeAndOffset` and proves that it finds the offset between the two
broken-down times.
-/

namespace Blocxx.Time

open Library.Gregorian

/-- The functions of the C library have no result when they return a null pointer. The result has
the local time that `t_loc` is set to. -/
def localTimeAndOffset (gmtime_r localtime_r : Int → Option Tm) (t : Int) :
    Except DateTimeException (Tm × Int16) :=
  match gmtime_r t, localtime_r t with
  | some t_utc, some t_loc =>
      let min_diff := wrap32 (wrap32 (t_loc.tm_min - t_utc.tm_min) +
        wrap32 (60 * wrap32 (t_loc.tm_hour - t_utc.tm_hour)))
      let day_diff := wrap32 (t_loc.tm_mday - t_utc.tm_mday)
      let one_day := 24 * 60
      if day_diff = 0 then .ok (t_loc, .ofInt min_diff)
      else if day_diff = 1 ∨ day_diff < -1 then .ok (t_loc, .ofInt (wrap32 (min_diff + one_day)))
      else .ok (t_loc, .ofInt (wrap32 (min_diff - one_day)))
  | _, _ => .error ⟨"Invalid time_t: " ++ toString t⟩

/-- The fields are those of a date of the calendar and a time of the day. A leap second is the last
one of its minute. -/
structure BrokenDown (tm : Tm) : Prop where
  date : IsDate (tm.tm_year + tmYearBase) tm.tm_mon tm.tm_mday
  hour : 0 ≤ tm.tm_hour ∧ tm.tm_hour < 24
  min : 0 ≤ tm.tm_min ∧ tm.tm_min < 60
  sec : 0 ≤ tm.tm_sec ∧ tm.tm_sec ≤ 60

/-- The minutes from the first one of 1970 to that of the fields. -/
def minutes (tm : Tm) : Int :=
  dayNumber (tm.tm_year + tmYearBase) tm.tm_mon tm.tm_mday * 1440 + tm.tm_hour * 60 + tm.tm_min

/-- The second time is this many minutes ahead of the first one. -/
structure Differ (t_utc t_loc : Tm) (offset : Int) : Prop where
  minutes : minutes t_loc - minutes t_utc = offset
  sec : t_loc.tm_sec = t_utc.tm_sec

variable {t_utc t_loc : Tm} {offset : Int}

/-- The side of midnight that the day of the month tells. -/
theorem mday_cases (utc : BrokenDown t_utc) (loc : BrokenDown t_loc)
    (differ : minutes t_loc - minutes t_utc = offset) (near : -1440 < offset ∧ offset < 1440) :
    let min_diff := t_loc.tm_min - t_utc.tm_min + 60 * (t_loc.tm_hour - t_utc.tm_hour)
    let day_diff := t_loc.tm_mday - t_utc.tm_mday
    (day_diff = 0 ∧ offset = min_diff) ∨
      ((day_diff = 1 ∨ day_diff ≤ -27) ∧ offset = min_diff + 1440) ∨
      ((day_diff = -1 ∨ 27 ≤ day_diff) ∧ offset = min_diff - 1440) := by
  have hour := utc.hour
  have hour' := loc.hour
  have min := utc.min
  have min' := loc.min
  unfold minutes at differ
  intro min_diff day_diff
  by_cases order : dayNumber (t_utc.tm_year + tmYearBase) t_utc.tm_mon t_utc.tm_mday ≤
      dayNumber (t_loc.tm_year + tmYearBase) t_loc.tm_mon t_loc.tm_mday
  · have next := utc.date.next loc.date order (by omega)
    omega
  · have next := loc.date.next utc.date (by omega) (by omega)
    omega

theorem int16_toInt {value : Int} (near : -1440 < value ∧ value < 1440) :
    (Int16.ofInt value).toInt = value :=
  Int16.toInt_ofInt_of_le (by omega) (by omega)

/-- The function finds the offset for every time whose broken-down UTC and local times are less than
a day apart. -/
theorem localTimeAndOffset_correct {gmtime_r localtime_r : Int → Option Tm} {t : Int}
    (isUtc : gmtime_r t = some t_utc) (isLoc : localtime_r t = some t_loc)
    (utc : BrokenDown t_utc) (loc : BrokenDown t_loc) (differ : Differ t_utc t_loc offset)
    (near : -1440 < offset ∧ offset < 1440) :
    ∃ result, localTimeAndOffset gmtime_r localtime_r t = .ok (t_loc, result) ∧
      result.toInt = offset := by
  have hour := utc.hour
  have hour' := loc.hour
  have min := utc.min
  have mday := utc.date.mday_range
  have mday' := loc.date.mday_range
  have cases := mday_cases utc loc differ.minutes near
  have hours : wrap32 (t_loc.tm_hour - t_utc.tm_hour) = t_loc.tm_hour - t_utc.tm_hour :=
    wrap32_of_fits (by unfold FitsInt; omega)
  have ofHours : wrap32 (60 * (t_loc.tm_hour - t_utc.tm_hour)) =
      60 * (t_loc.tm_hour - t_utc.tm_hour) := wrap32_of_fits (by unfold FitsInt; omega)
  have mins : wrap32 (t_loc.tm_min - t_utc.tm_min) = t_loc.tm_min - t_utc.tm_min :=
    wrap32_of_fits (by unfold FitsInt; omega)
  have min_diff : wrap32 (t_loc.tm_min - t_utc.tm_min + 60 * (t_loc.tm_hour - t_utc.tm_hour)) =
      t_loc.tm_min - t_utc.tm_min + 60 * (t_loc.tm_hour - t_utc.tm_hour) :=
    wrap32_of_fits (by unfold FitsInt; omega)
  have day_diff : wrap32 (t_loc.tm_mday - t_utc.tm_mday) = t_loc.tm_mday - t_utc.tm_mday :=
    wrap32_of_fits (by unfold FitsInt; omega)
  refine ⟨.ofInt offset, ?_, int16_toInt near⟩
  simp only [localTimeAndOffset, isUtc, isLoc]
  rw [hours, ofHours, mins, min_diff, day_diff, show (24 * 60 : Int) = 1440 from rfl]
  dsimp only at cases
  rcases cases with ⟨same, value⟩ | ⟨later, value⟩ | ⟨earlier, value⟩
  · rw [if_pos same, value]
  · rw [if_neg (by omega), if_pos (by omega), wrap32_of_fits (by unfold FitsInt; omega), value]
  · rw [if_neg (by omega), if_neg (by omega), wrap32_of_fits (by unfold FitsInt; omega), value]

/-- Half past eleven in the evening of the last day of February, and an hour later. -/
def februaryEvening : Tm := ⟨0, 30, 23, 28, 1, 123, 0⟩

def marchNight : Tm := ⟨0, 30, 0, 1, 2, 123, 0⟩

theorem localTimeAndOffset_february : ∃ result,
    localTimeAndOffset (fun _ => some februaryEvening) (fun _ => some marchNight) 1677627000 =
      .ok (marchNight, result) ∧ result.toInt = 60 := by
  apply localTimeAndOffset_correct rfl rfl
  · exact ⟨⟨by decide, by decide⟩, by decide, by decide, by decide⟩
  · exact ⟨⟨by decide, by decide⟩, by decide, by decide, by decide⟩
  · exact ⟨by decide, rfl⟩
  · decide

end Blocxx.Time
