import Blocxx.DateTime.Arithmetic
import Blocxx.Exec.TimeoutTimer
import Blocxx.Library.Strtol
import Blocxx.TimeDuration.TimeDuration
import Blocxx.TimeDuration.Components

/-!
This file embeds the conversions of `TimeoutTimer` with its clock readings, and proves what they show
of the remaining time, and of the time when the timeout expires. Seconds are exact rationals, and no
number of seconds stands for `INFINITY`.
-/

namespace Blocxx.Time

open Library

inductive Timeout where
  | absolute (dt : DateTime)
  | relative (seconds : Option ℚ)
  | relativeWithReset (seconds : Option ℚ)
  deriving DecidableEq

structure Timeval where
  tv_sec : Int
  tv_usec : Int
  deriving DecidableEq

structure Timespec where
  tv_sec : Int
  tv_nsec : Int
  deriving DecidableEq

/-- The types `time_t`, `suseconds_t` and `long`. -/
def longType : IntType := ⟨true, 64⟩

def intType : IntType := ⟨true, 32⟩

/-- Half a unit is added in front of a conversion that drops the fraction. -/
def safeAssign (T : IntType) (y : Option ℚ) : Int :=
  match y with
  | none => T.max
  | some y => if y < T.min then T.min else if y > T.max then T.max else Exec.truncate (y + 1 / 2)

/-- The fraction that `modf` returns. It has the sign of its argument. -/
def modf (y : Option ℚ) : ℚ :=
  match y with
  | none => 0
  | some y => y - Exec.truncate y

/-- The seconds of a duration. -/
def TimeDuration.realSeconds (td : TimeDuration) : ℚ := td.m_microseconds / 1000000

def timeBetween (dt1 dt2 : DateTime) : TimeDuration := dt2.difference dt1

/-- A comparison with infinitely many seconds fails. -/
def compareInterval (first timeToTest : DateTime) (seconds : Option ℚ) : Bool :=
  match seconds with
  | none => false
  | some seconds => (timeToTest.difference first).realSeconds ≥ seconds

structure TimeoutTimer where
  m_timeout : Timeout
  m_start : DateTime
  m_loopTime : DateTime

namespace TimeoutTimer

variable (timer : TimeoutTimer)

/-- The timeout that never expires is the relative one. -/
def infinite : Bool := timer.m_timeout = .relative none

def expired : Bool :=
  if timer.infinite then false
  else
    match timer.m_timeout with
    | .absolute dt => dt.le timer.m_loopTime
    | .relative seconds => compareInterval timer.m_start timer.m_loopTime seconds
    | .relativeWithReset seconds => compareInterval timer.m_start timer.m_loopTime seconds

def calcSeconds : Option ℚ :=
  match timer.m_timeout with
  | .absolute dt => some (timeBetween timer.m_loopTime dt).realSeconds
  | .relative seconds =>
      seconds.map ((timeBetween timer.m_loopTime timer.m_start).realSeconds + ·)
  | .relativeWithReset seconds =>
      seconds.map ((timeBetween timer.m_loopTime timer.m_start).realSeconds + ·)

def calcSecondsUpTo (maxSeconds : Option ℚ) : Option ℚ :=
  match timer.calcSeconds, maxSeconds with
  | none, some maxSeconds => some maxSeconds
  | seconds, none => seconds
  | some seconds, some maxSeconds => some (if seconds > maxSeconds then maxSeconds else seconds)

/-- The part of `asTimeval` for seconds. -/
def secondsTimeval (seconds : Option ℚ) : Timeval :=
  ⟨safeAssign longType seconds, safeAssign longType (some (modf seconds * 1000000))⟩

/-- The `timeval` of a timer that is not infinite. -/
def timeval : Timeval :=
  match timer.m_timeout with
  | .absolute timeoutTime =>
      if timer.m_loopTime.lt timeoutTime then
        let diff := timeoutTime.difference timer.m_loopTime
        ⟨diff.completeSeconds, diff.microsecondInSecond⟩
      else ⟨0, 0⟩
  | _ => secondsTimeval timer.calcSeconds

/-- An infinite timer gives the null pointer. -/
def asTimeval : Option Timeval := if timer.infinite then none else some timer.timeval

/-- The overload with a limit. An infinite timer leaves the argument to the limit. -/
def asTimevalUpTo (maxSeconds : Option ℚ) : Option Timeval :=
  if timer.infinite ∧ maxSeconds = none then none
  else
    let temp := secondsTimeval maxSeconds
    match timer.asTimeval with
    | none => some temp
    | some tv =>
        if temp.tv_sec < tv.tv_sec then some temp
        else if temp.tv_sec = tv.tv_sec ∧ temp.tv_usec < tv.tv_usec then
          some { tv with tv_usec := temp.tv_usec }
        else some tv

def asIntMs : Int :=
  if timer.infinite then -1 else safeAssign intType (timer.calcSeconds.map (· * 1000))

def asIntMsUpTo (maxSeconds : Option ℚ) : Int :=
  if timer.infinite ∧ maxSeconds = none then -1
  else safeAssign intType ((timer.calcSecondsUpTo maxSeconds).map (· * 1000))

/-- The part of `asTimespec` for a relative timeout. The nanoseconds are carried into the seconds. -/
def relativeTimespec (seconds : Option ℚ) : Timespec :=
  let tv_sec := safeAssign longType (seconds.map (timer.m_start.m_seconds + ·))
  let tv_nsec := safeAssign longType
    (some (timer.m_start.m_microseconds * 1000 + modf seconds * 1000000000))
  ⟨wrap64 (tv_sec + tv_nsec.tdiv 1000000000), tv_nsec.tmod 1000000000⟩

/-- The time when the timeout expires. -/
def asTimespec : Timespec :=
  match timer.m_timeout with
  | .absolute timeoutTime =>
      if timer.m_loopTime.lt timeoutTime then
        ⟨timeoutTime.m_seconds, timeoutTime.m_microseconds * 1000⟩
      else ⟨0, 0⟩
  | .relative seconds => timer.relativeTimespec seconds
  | .relativeWithReset seconds => timer.relativeTimespec seconds

end TimeoutTimer

/-- The seconds since the epoch. -/
def DateTime.seconds (dt : DateTime) : ℚ := dt.total / 1000000

def Timeval.total (tv : Timeval) : ℚ := tv.tv_sec + tv.tv_usec / 1000000

def Timespec.total (ts : Timespec) : ℚ := ts.tv_sec + ts.tv_nsec / 1000000000

/-- The microseconds are in their range, and the value is the time up to a microsecond. -/
structure Timeval.Shows (tv : Timeval) (seconds : ℚ) : Prop where
  range : 0 ≤ tv.tv_usec ∧ tv.tv_usec < 1000000
  close : |tv.total - seconds| < 1 / 1000000

structure Timespec.Shows (ts : Timespec) (seconds : ℚ) : Prop where
  range : 0 ≤ ts.tv_nsec ∧ ts.tv_nsec < 1000000000
  close : |ts.total - seconds| < 1 / 1000000

/-- The milliseconds are the time up to a millisecond, or they are clipped. -/
def MillisecondsShow (ms : Int) (seconds : ℚ) : Prop :=
  |(ms : ℚ) / 1000 - seconds| < 1 / 1000 ∨ intType.max < seconds * 1000 ∧ ms = intType.max

/-- The seconds are not rounded up to the next whole second, and not clipped. -/
structure KeepsWhole (seconds : ℚ) : Prop where
  nonnegative : 0 ≤ seconds
  below : Int.fract seconds < 1 / 2
  fits : seconds ≤ longType.max

namespace TimeoutTimer

variable (timer : TimeoutTimer)

/-- The seconds until the timeout expires. A negative number stands for a time in the past. -/
def remaining : Option ℚ :=
  match timer.m_timeout with
  | .absolute dt => some (dt.seconds - timer.m_loopTime.seconds)
  | .relative seconds | .relativeWithReset seconds =>
      seconds.map (timer.m_start.seconds - timer.m_loopTime.seconds + ·)

/-- The clock readings and an absolute timeout are normal times. -/
structure IsClocked : Prop where
  start : timer.m_start.IsNormal
  loopTime : timer.m_loopTime.IsNormal
  absolute : ∀ dt, timer.m_timeout = .absolute dt → dt.IsNormal

/-- All conversions show the remaining time, or zero once the timeout has expired. -/
structure ShowsRemaining : Prop where
  timeval : ∀ tv seconds, timer.asTimeval = some tv → timer.remaining = some seconds →
    tv.Shows (max 0 seconds)
  timespec : ∀ seconds, timer.remaining = some seconds → timer.asTimespec.Shows (max 0 seconds)
  milliseconds : ∀ seconds, timer.remaining = some seconds →
    MillisecondsShow timer.asIntMs (max 0 seconds)

end TimeoutTimer

namespace TimeoutTimer

variable (timer : TimeoutTimer)

/-- The seconds of a relative timeout. -/
def relativeSeconds : Option ℚ :=
  match timer.m_timeout with
  | .absolute _ => none
  | .relative seconds | .relativeWithReset seconds => seconds

/-- What the conversions show by design. An absolute time is shown exactly in both forms, a
`timespec` is the time when the timeout expires, and relative seconds are those that keep their
whole seconds. -/
structure ShowsTime : Prop where
  never : timer.infinite = true → timer.asTimeval = none ∧ timer.asIntMs = -1
  timeval : timer.infinite = false → timer.asTimeval = some timer.timeval
  absolute : ∀ dt, timer.m_timeout = .absolute dt →
    timer.timeval.Shows (max 0 (dt.seconds - timer.m_loopTime.seconds)) ∧
      timer.asTimespec.Shows (if timer.expired then 0 else dt.seconds)
  relative : ∀ seconds, timer.relativeSeconds.isSome = true → timer.remaining = some seconds →
    KeepsWhole seconds → timer.timeval.Shows seconds
  timespec : ∀ seconds, timer.relativeSeconds = some seconds → KeepsWhole seconds →
    0 ≤ timer.m_start.m_seconds → timer.m_start.m_seconds + seconds ≤ longType.max - 1 →
      timer.asTimespec.Shows (timer.m_start.seconds + seconds)
  milliseconds : ∀ seconds, timer.remaining = some seconds → 0 ≤ seconds →
    MillisecondsShow timer.asIntMs seconds
  limited : ∀ seconds limit, timer.infinite = false → timer.timeval.Shows seconds →
    KeepsWhole limit →
      ∃ tv, timer.asTimevalUpTo (some limit) = some tv ∧ tv.Shows (min seconds limit)
  limitedMilliseconds : ∀ seconds limit, timer.remaining = some seconds → 0 ≤ seconds →
    0 ≤ limit → MillisecondsShow (timer.asIntMsUpTo (some limit)) (min seconds limit)
  limitedNever : ∀ limit, timer.infinite = true → KeepsWhole limit →
    (∃ tv, timer.asTimevalUpTo (some limit) = some tv ∧ tv.Shows limit) ∧
      MillisecondsShow (timer.asIntMsUpTo (some limit)) limit

end TimeoutTimer

section Rounding

theorem truncate_nonnegative {y : ℚ} (nonnegative : 0 ≤ y) : Exec.truncate y = ⌊y⌋ :=
  if_pos nonnegative

/-- In the range of its type a nonnegative number is rounded. -/
theorem safeAssign_round {T : IntType} (least : T.min ≤ 0) {y : ℚ} (nonnegative : 0 ≤ y)
    (fits : y ≤ T.max) : safeAssign T (some y) = round y := by
  have low : ¬ y < T.min := not_lt.mpr (le_trans (by exact_mod_cast least) nonnegative)
  have high : ¬ y > T.max := not_lt.mpr fits
  unfold safeAssign
  dsimp only
  rw [if_neg low, if_neg high, truncate_nonnegative (by linarith), round_eq]

theorem longType_min : longType.min ≤ 0 := by decide

theorem intType_min : intType.min ≤ 0 := by decide

theorem longType_max : (longType.max : ℚ) = 9223372036854775807 := by
  have value : longType.max = 9223372036854775807 := by decide
  rw [value]
  norm_num

theorem modf_nonnegative {seconds : ℚ} (nonnegative : 0 ≤ seconds) :
    modf (some seconds) = Int.fract seconds := by
  rw [modf, truncate_nonnegative nonnegative, Int.self_sub_floor]

/-- A rounded number lies within half a unit. -/
theorem round_bounds (y : ℚ) : y - 1 / 2 ≤ round y ∧ (round y : ℚ) ≤ y + 1 / 2 := by
  have near := abs_le.mp (abs_sub_round y)
  exact ⟨by linarith [near.2], by linarith [near.1]⟩

theorem round_nonnegative {y : ℚ} (nonnegative : 0 ≤ y) : 0 ≤ round y := by
  have low := (round_bounds y).1
  have above : (-1 : ℚ) < round y := by linarith
  have above : (-1 : Int) < round y := by exact_mod_cast above
  omega

theorem round_le_of_lt {y : ℚ} {bound : Int} (below : y + 1 / 2 < bound + 1) :
    round y ≤ bound := by
  have high := (round_bounds y).2
  have less : (round y : ℚ) < (bound + 1 : Int) := by
    push_cast
    linarith
  exact Int.lt_add_one_iff.mp (by exact_mod_cast less)

theorem round_whole {seconds : ℚ} (below : Int.fract seconds < 1 / 2) :
    round seconds = ⌊seconds⌋ := by
  have least := Int.floor_le seconds
  rw [← Int.self_sub_floor] at below
  exact round_eq_iff.mpr ⟨by linarith, by linarith⟩

/-- The whole seconds and the fraction are converted separately. -/
theorem KeepsWhole.shows {seconds : ℚ} (keeps : KeepsWhole seconds) :
    (TimeoutTimer.secondsTimeval (some seconds)).Shows seconds := by
  obtain ⟨nonnegative, below, fits⟩ := keeps
  have least := Int.fract_nonneg seconds
  have scaled : 0 ≤ Int.fract seconds * 1000000 := by positivity
  have whole : safeAssign longType (some seconds) = ⌊seconds⌋ := by
    rw [safeAssign_round longType_min nonnegative fits, round_whole below]
  have fraction : safeAssign longType (some (modf (some seconds) * 1000000)) =
      round (Int.fract seconds * 1000000) := by
    rw [modf_nonnegative nonnegative, safeAssign_round longType_min scaled]
    rw [longType_max]
    linarith
  unfold TimeoutTimer.secondsTimeval
  rw [whole, fraction]
  constructor
  · have most : round (Int.fract seconds * 1000000) ≤ 999999 :=
      round_le_of_lt (by push_cast; linarith)
    exact ⟨round_nonnegative scaled, by dsimp only; omega⟩
  · have near := round_bounds (Int.fract seconds * 1000000)
    have split := Int.floor_add_fract seconds
    unfold Timeval.total
    dsimp only
    rw [abs_lt]
    constructor
    · linarith [near.1]
    · linarith [near.2]

/-- The milliseconds are rounded, or clipped. -/
theorem milliseconds_show {seconds : ℚ} (nonnegative : 0 ≤ seconds) :
    MillisecondsShow (safeAssign intType (some (seconds * 1000))) seconds := by
  by_cases large : intType.max < seconds * 1000
  · right
    have low : ¬ seconds * 1000 < intType.min := by
      have least : (intType.min : ℚ) ≤ 0 := by exact_mod_cast intType_min
      linarith
    refine ⟨large, ?_⟩
    unfold safeAssign
    dsimp only
    rw [if_neg low, if_pos large]
  · left
    rw [safeAssign_round intType_min (by linarith) (not_lt.mp large)]
    have near := round_bounds (seconds * 1000)
    rw [abs_lt]
    constructor
    · linarith [near.1]
    · linarith [near.2]

theorem Timeval.Shows.of_min {tv temp least : Timeval} {seconds limit : ℚ}
    (shows : tv.Shows seconds) (limits : temp.Shows limit)
    (range : 0 ≤ least.tv_usec ∧ least.tv_usec < 1000000)
    (total : least.total = Min.min tv.total temp.total) : least.Shows (min seconds limit) where
  range := range
  close := by
    rw [total]
    exact lt_of_le_of_lt (abs_min_sub_min_le_max _ _ _ _) (max_lt shows.close limits.close)

/-- The lesser of two values shows the lesser of their times. -/
theorem Timeval.Shows.min {tv temp : Timeval} {seconds limit : ℚ} (shows : tv.Shows seconds)
    (limits : temp.Shows limit) :
    (if temp.tv_sec < tv.tv_sec then temp
      else if temp.tv_sec = tv.tv_sec ∧ temp.tv_usec < tv.tv_usec then
        { tv with tv_usec := temp.tv_usec }
      else tv).Shows (min seconds limit) := by
  have range := shows.range
  have limitRange := limits.range
  have whole {value : Int} (low : 0 ≤ value) (high : value < 1000000) :
      0 ≤ (value : ℚ) / 1000000 ∧ (value : ℚ) / 1000000 < 1 := by
    have least : (0 : ℚ) ≤ value := by exact_mod_cast low
    have most : (value : ℚ) < 1000000 := by exact_mod_cast high
    exact ⟨by positivity, by linarith⟩
  have micro := whole range.1 range.2
  have limitMicro := whole limitRange.1 limitRange.2
  split
  · next earlier =>
      have seconds : (temp.tv_sec : ℚ) + 1 ≤ tv.tv_sec := by exact_mod_cast earlier
      refine shows.of_min limits limitRange (min_eq_right ?_).symm
      unfold Timeval.total
      linarith
  · next later =>
      split
      · next less =>
          have fewer : (temp.tv_usec : ℚ) < tv.tv_usec := by exact_mod_cast less.2
          refine shows.of_min limits limitRange ?_
          have same : Timeval.total { tv with tv_usec := temp.tv_usec } = temp.total := by
            unfold Timeval.total
            dsimp only
            rw [less.1]
          rw [same]
          refine (min_eq_right ?_).symm
          unfold Timeval.total
          rw [less.1]
          linarith
      · next other =>
          refine shows.of_min limits range (min_eq_left ?_).symm
          unfold Timeval.total
          rcases (not_lt.mp later).lt_or_eq with before | same
          · have seconds : (tv.tv_sec : ℚ) + 1 ≤ temp.tv_sec := by exact_mod_cast before
            linarith
          · have most : tv.tv_usec ≤ temp.tv_usec := by
              by_contra less
              exact other ⟨same.symm, not_le.mp less⟩
            have most : (tv.tv_usec : ℚ) ≤ temp.tv_usec := by exact_mod_cast most
            rw [same]
            linarith

end Rounding

section Clocks

/-- The order of normal times is that of their microseconds. -/
theorem normal_lt_iff {x y : DateTime} (normal : x.IsNormal) (otherNormal : y.IsNormal) :
    x.lt y = true ↔ x.total < y.total := by
  obtain ⟨-, least, most⟩ := normal
  obtain ⟨-, otherLeast, otherMost⟩ := otherNormal
  simp only [DateTime.total, MICROSECONDS_PER_SECOND] at *
  unfold DateTime.lt
  rw [if_neg (by simp only [NADT_USEC, MICROSECONDS_PER_SECOND]; omega)]
  split
  · next same =>
      rw [decide_eq_true_iff]
      omega
  · next other =>
      rw [decide_eq_true_iff]
      omega

theorem normal_le_iff {x y : DateTime} (normal : x.IsNormal) (otherNormal : y.IsNormal) :
    x.le y = true ↔ x.total ≤ y.total := by
  rw [DateTime.le, decide_eq_true_iff, normal_lt_iff normal otherNormal, le_iff_eq_or_lt]
  constructor
  · rintro (same | less)
    · exact .inl (congrArg DateTime.total same)
    · exact .inr less
  · rintro (same | less)
    · exact .inl (normal.eq_of_total otherNormal same)
    · exact .inr less

/-- The difference of normal times in seconds. -/
theorem realSeconds_difference {x y : DateTime} (normal : x.IsNormal)
    (otherNormal : y.IsNormal) :
    (x.difference y).realSeconds = x.seconds - y.seconds := by
  rw [DateTime.difference_normal normal otherNormal]
  show ((x.total - y.total : Int) : ℚ) / 1000000 = _
  unfold DateTime.seconds
  push_cast
  ring

/-- The comparison of the exact times asks whether no time is left. -/
theorem compareInterval_exact (first timeToTest : ℚ) (seconds : Option ℚ) :
    (∃ left, seconds.map (first - timeToTest + ·) = some left ∧ left ≤ 0) ↔
      Exec.TimeoutTimer.compareInterval first timeToTest seconds = true := by
  cases seconds with
  | none => simp [Exec.TimeoutTimer.compareInterval]
  | some seconds =>
      rw [Exec.TimeoutTimer.compareInterval, decide_eq_true_iff]
      simp only [Option.map_some, Option.some.injEq, exists_eq_left']
      constructor
      · intro past
        linarith
      · intro past
        linarith

theorem compareInterval_eq {first timeToTest : DateTime} (normal : first.IsNormal)
    (otherNormal : timeToTest.IsNormal) (seconds : Option ℚ) :
    compareInterval first timeToTest seconds =
      Exec.TimeoutTimer.compareInterval first.seconds timeToTest.seconds seconds := by
  cases seconds with
  | none => rfl
  | some seconds =>
      rw [compareInterval, realSeconds_difference otherNormal normal]
      rfl

end Clocks

namespace TimeoutTimer

variable {timer : TimeoutTimer} (clocked : timer.IsClocked)

include clocked

theorem calcSeconds_eq : timer.calcSeconds = timer.remaining := by
  obtain ⟨start, loopTime, absolute⟩ := clocked
  unfold calcSeconds remaining timeBetween
  cases timeout : timer.m_timeout with
  | absolute dt =>
      dsimp only
      rw [realSeconds_difference (absolute dt timeout) loopTime]
  | relative seconds =>
      dsimp only
      rw [realSeconds_difference start loopTime]
  | relativeWithReset seconds =>
      dsimp only
      rw [realSeconds_difference start loopTime]

/-- The timeout has expired when no time remains. -/
theorem expired_iff :
    timer.expired = true ↔ ∃ seconds, timer.remaining = some seconds ∧ seconds ≤ 0 := by
  obtain ⟨start, loopTime, absolute⟩ := clocked
  have relative (seconds : Option ℚ) :
      compareInterval timer.m_start timer.m_loopTime seconds = true ↔
        ∃ left, seconds.map (timer.m_start.seconds - timer.m_loopTime.seconds + ·) = some left ∧
          left ≤ 0 := by
    rw [compareInterval_eq start loopTime, compareInterval_exact]
  unfold expired remaining
  cases timeout : timer.m_timeout with
  | absolute dt =>
      have finite : timer.infinite = false := by
        rw [infinite, timeout]
        rfl
      rw [finite, if_neg Bool.false_ne_true]
      dsimp only
      rw [normal_le_iff (absolute dt timeout) loopTime]
      simp only [Option.some.injEq, exists_eq_left', DateTime.seconds]
      rw [← sub_div, div_le_iff₀ (by norm_num), zero_mul, sub_nonpos]
      exact Int.cast_le.symm
  | relative seconds =>
      dsimp only
      rw [← relative seconds]
      cases seconds with
      | none =>
          have infinite : timer.infinite = true := decide_eq_true timeout
          rw [infinite, if_pos rfl]
          rfl
      | some seconds =>
          have finite : timer.infinite = false := by
            rw [infinite, timeout]
            exact decide_eq_false (by simp)
          rw [finite, if_neg Bool.false_ne_true]
  | relativeWithReset seconds =>
      have finite : timer.infinite = false := by
        rw [infinite, timeout]
        rfl
      dsimp only
      rw [finite, if_neg Bool.false_ne_true, relative]

omit clocked in
/-- A duration that is not negative is shown exactly. -/
theorem duration_shows {micro : Int} (nonnegative : 0 ≤ micro) :
    Timeval.Shows ⟨(TimeDuration.ofMicroseconds micro).completeSeconds,
      (TimeDuration.ofMicroseconds micro).microsecondInSecond⟩ (micro / 1000000) := by
  have count := (@TimeDuration.counts_nonnegative (.ofMicroseconds micro) nonnegative).1
  have rest := @TimeDuration.microsecondInSecond_nonnegative (.ofMicroseconds micro) nonnegative
  rw [count, rest]
  show Timeval.Shows ⟨micro / 1000000, micro % 1000000⟩ (micro / 1000000)
  constructor
  · dsimp only
    omega
  · have parts : (micro : ℚ) = (micro / 1000000 : Int) * 1000000 + (micro % 1000000 : Int) := by
      have whole := Int.ediv_mul_add_emod micro 1000000
      exact_mod_cast whole.symm
    have exact : Timeval.total ⟨micro / 1000000, micro % 1000000⟩ = (micro : ℚ) / 1000000 := by
      unfold Timeval.total
      dsimp only
      linarith
    rw [exact, sub_self, abs_zero]
    norm_num

omit clocked in
theorem zero_shows : Timeval.Shows ⟨0, 0⟩ 0 := by
  refine ⟨by decide, ?_⟩
  unfold Timeval.total
  norm_num

/-- The distance to an absolute time is shown exactly, and an expired one is zero. -/
theorem timeval_absolute {dt : DateTime} (timeout : timer.m_timeout = .absolute dt) :
    timer.timeval.Shows (max 0 (dt.seconds - timer.m_loopTime.seconds)) := by
  obtain ⟨-, loopTime, absolute⟩ := clocked
  have normal := absolute dt timeout
  have distance : dt.seconds - timer.m_loopTime.seconds =
      ((dt.total - timer.m_loopTime.total : Int) : ℚ) / 1000000 := by
    unfold DateTime.seconds
    push_cast
    ring
  unfold timeval
  rw [timeout, distance]
  dsimp only
  by_cases later : timer.m_loopTime.lt dt = true
  · have positive := (normal_lt_iff loopTime normal).mp later
    have nonnegative : (0 : ℚ) ≤ ((dt.total - timer.m_loopTime.total : Int) : ℚ) / 1000000 := by
      have ordered : (0 : ℚ) ≤ (dt.total - timer.m_loopTime.total : Int) := by
        exact_mod_cast (by omega : 0 ≤ dt.total - timer.m_loopTime.total)
      positivity
    rw [if_pos later, DateTime.difference_normal normal loopTime, max_eq_right nonnegative]
    exact duration_shows (by omega)
  · have past : ((dt.total - timer.m_loopTime.total : Int) : ℚ) / 1000000 ≤ 0 := by
      have ordered : ((dt.total - timer.m_loopTime.total : Int) : ℚ) ≤ 0 := by
        have notLess := mt (normal_lt_iff loopTime normal).mpr later
        exact_mod_cast (by omega : dt.total - timer.m_loopTime.total ≤ 0)
      linarith
    rw [if_neg later, max_eq_left past]
    exact zero_shows

/-- An absolute time is shown as it is, and an expired one is zero. -/
theorem timespec_absolute {dt : DateTime} (timeout : timer.m_timeout = .absolute dt) :
    timer.asTimespec.Shows (if timer.expired then 0 else dt.seconds) := by
  obtain ⟨-, loopTime, absolute⟩ := clocked
  have normal := absolute dt timeout
  have finite : timer.infinite = false := by
    rw [infinite, timeout]
    rfl
  have expired : timer.expired = true ↔ ¬ timer.m_loopTime.lt dt = true := by
    unfold expired
    rw [finite, if_neg Bool.false_ne_true, timeout]
    dsimp only
    rw [normal_le_iff normal loopTime, normal_lt_iff loopTime normal, not_lt]
  unfold asTimespec
  rw [timeout]
  dsimp only
  by_cases later : timer.m_loopTime.lt dt = true
  · rw [if_pos later, if_neg (mt expired.mp (not_not.mpr later))]
    obtain ⟨-, low, high⟩ := normal
    simp only [MICROSECONDS_PER_SECOND] at high
    constructor
    · dsimp only
      omega
    · have exact : Timespec.total ⟨dt.m_seconds, dt.m_microseconds * 1000⟩ = dt.seconds := by
        unfold Timespec.total DateTime.seconds DateTime.total MICROSECONDS_PER_SECOND
        push_cast
        ring
      rw [exact, sub_self, abs_zero]
      norm_num
  · rw [if_neg later, if_pos (expired.mpr later)]
    refine ⟨by decide, ?_⟩
    unfold Timespec.total
    norm_num

omit clocked in
/-- The whole seconds of the nanoseconds are carried, and the value is the sum of both. -/
theorem carry_total {seconds rounded : Int}
    (fits : 0 ≤ seconds ∧ seconds ≤ longType.max - 1)
    (carries : 0 ≤ rounded ∧ rounded ≤ 1999999999) :
    (0 ≤ rounded.tmod 1000000000 ∧ rounded.tmod 1000000000 < 1000000000) ∧
      Timespec.total ⟨wrap64 (seconds + rounded.tdiv 1000000000), rounded.tmod 1000000000⟩ =
        seconds + rounded / 1000000000 := by
  have maximum : longType.max = 9223372036854775807 := by decide
  rw [Int.tdiv_eq_ediv_of_nonneg carries.1, Int.tmod_eq_emod_of_nonneg carries.1]
  have carried : wrap64 (seconds + rounded / 1000000000) = seconds + rounded / 1000000000 := by
    simp only [wrap64, Int.bmod_def]
    omega
  refine ⟨by omega, ?_⟩
  have parts : (rounded : ℚ) =
      (rounded / 1000000000 : Int) * 1000000000 + (rounded % 1000000000 : Int) := by
    have together := Int.ediv_mul_add_emod rounded 1000000000
    exact_mod_cast together.symm
  unfold Timespec.total
  dsimp only
  rw [carried]
  push_cast
  linarith

omit clocked in
/-- The time of the start and the relative seconds are added with a carry. -/
theorem relativeTimespec_shows (start : timer.m_start.IsNormal) {seconds : ℚ}
    (keeps : KeepsWhole seconds) (epoch : 0 ≤ timer.m_start.m_seconds)
    (fits : timer.m_start.m_seconds + seconds ≤ longType.max - 1) :
    (timer.relativeTimespec (some seconds)).Shows (timer.m_start.seconds + seconds) := by
  obtain ⟨nonnegative, below, -⟩ := keeps
  obtain ⟨-, low, high⟩ := start
  simp only [MICROSECONDS_PER_SECOND] at high
  have least := Int.fract_nonneg seconds
  have split := Int.floor_add_fract seconds
  have epochSeconds : (0 : ℚ) ≤ timer.m_start.m_seconds := by exact_mod_cast epoch
  have micro : (0 : ℚ) ≤ timer.m_start.m_microseconds ∧
      (timer.m_start.m_microseconds : ℚ) ≤ 999999 := by
    exact ⟨by exact_mod_cast low, by exact_mod_cast (by omega : timer.m_start.m_microseconds ≤ 999999)⟩
  have whole : safeAssign longType ((some seconds).map (timer.m_start.m_seconds + ·)) =
      timer.m_start.m_seconds + ⌊seconds⌋ := by
    rw [Option.map_some, safeAssign_round longType_min (by linarith) (by linarith),
      round_intCast_add, round_whole below]
  obtain ⟨nanoseconds, exact⟩ : ∃ nanoseconds : ℚ, nanoseconds =
      timer.m_start.m_microseconds * 1000 + Int.fract seconds * 1000000000 := ⟨_, rfl⟩
  have nonnegativeNano : 0 ≤ nanoseconds := by
    rw [exact]
    linarith
  have fraction : safeAssign longType
      (some (timer.m_start.m_microseconds * 1000 + modf (some seconds) * 1000000000)) =
        round nanoseconds := by
    rw [modf_nonnegative nonnegative, ← exact,
      safeAssign_round longType_min nonnegativeNano (by rw [longType_max]; linarith)]
  have near := round_bounds nanoseconds
  have positive := round_nonnegative nonnegativeNano
  have floor : timer.m_start.m_seconds + ⌊seconds⌋ ≤ longType.max - 1 := by
    have bound : (timer.m_start.m_seconds : ℚ) + ⌊seconds⌋ ≤ longType.max - 1 := by linarith
    exact_mod_cast bound
  have nonnegativeFloor : 0 ≤ ⌊seconds⌋ := Int.floor_nonneg.mpr nonnegative
  have most : round nanoseconds ≤ 1999999999 :=
    round_le_of_lt (by push_cast; linarith)
  obtain ⟨range, total⟩ := carry_total ⟨by omega, floor⟩ ⟨positive, most⟩
  unfold relativeTimespec
  rw [whole, fraction]
  refine ⟨range, ?_⟩
  rw [total]
  unfold DateTime.seconds DateTime.total MICROSECONDS_PER_SECOND
  push_cast
  rw [abs_lt]
  constructor
  · linarith [near.1]
  · linarith [near.2]

omit clocked in
theorem finite_of_remaining {seconds : ℚ} (left : timer.remaining = some seconds) :
    timer.infinite = false := by
  rw [← Bool.not_eq_true]
  intro never
  unfold remaining at left
  rw [of_decide_eq_true never] at left
  cases left

omit clocked in
theorem remaining_infinite (never : timer.infinite = true) : timer.remaining = none := by
  unfold remaining
  rw [of_decide_eq_true never]
  rfl

theorem asIntMs_shows {seconds : ℚ} (left : timer.remaining = some seconds)
    (nonnegative : 0 ≤ seconds) : MillisecondsShow timer.asIntMs seconds := by
  rw [asIntMs, finite_of_remaining left, if_neg Bool.false_ne_true, calcSeconds_eq clocked, left]
  exact milliseconds_show nonnegative

theorem asIntMsUpTo_shows {seconds limit : ℚ} (left : timer.remaining = some seconds)
    (nonnegative : 0 ≤ seconds) (positive : 0 ≤ limit) :
    MillisecondsShow (timer.asIntMsUpTo (some limit)) (min seconds limit) := by
  have least : timer.calcSecondsUpTo (some limit) = some (min seconds limit) := by
    unfold calcSecondsUpTo
    rw [calcSeconds_eq clocked, left]
    dsimp only
    by_cases beyond : seconds > limit
    · rw [if_pos beyond, min_eq_right beyond.le]
    · rw [if_neg beyond, min_eq_left (not_lt.mp beyond)]
  rw [asIntMsUpTo, if_neg (fun both => Option.some_ne_none limit both.2), least]
  exact milliseconds_show (le_min nonnegative positive)

omit clocked in
theorem asTimevalUpTo_shows {seconds limit : ℚ} (finite : timer.infinite = false)
    (shows : timer.timeval.Shows seconds) (keeps : KeepsWhole limit) :
    ∃ tv, timer.asTimevalUpTo (some limit) = some tv ∧ tv.Shows (min seconds limit) := by
  have given : timer.asTimeval = some timer.timeval := by
    rw [asTimeval, finite, if_neg Bool.false_ne_true]
  have least := shows.min keeps.shows
  refine ⟨_, ?_, least⟩
  rw [asTimevalUpTo, if_neg (fun both => Option.some_ne_none limit both.2), given]
  dsimp only
  split
  · rfl
  · split
    · rfl
    · rfl

theorem limit_of_infinite {limit : ℚ} (never : timer.infinite = true) (keeps : KeepsWhole limit) :
    (∃ tv, timer.asTimevalUpTo (some limit) = some tv ∧ tv.Shows limit) ∧
      MillisecondsShow (timer.asIntMsUpTo (some limit)) limit := by
  have given : timer.asTimeval = none := if_pos never
  have left : timer.calcSecondsUpTo (some limit) = some limit := by
    unfold calcSecondsUpTo
    rw [calcSeconds_eq clocked, remaining_infinite never]
  constructor
  · refine ⟨_, ?_, keeps.shows⟩
    rw [asTimevalUpTo, if_neg (fun both => Option.some_ne_none limit both.2), given]
  · rw [asIntMsUpTo, if_neg (fun both => Option.some_ne_none limit both.2), left]
    exact milliseconds_show keeps.nonnegative

/-- What the conversions show at all clock readings. -/
theorem showsTime : timer.ShowsTime where
  never infinite := ⟨if_pos infinite, if_pos infinite⟩
  timeval finite := by rw [asTimeval, finite, if_neg Bool.false_ne_true]
  absolute dt timeout := ⟨timeval_absolute clocked timeout, timespec_absolute clocked timeout⟩
  relative seconds isRelative left keeps := by
    have converted : timer.timeval = secondsTimeval timer.calcSeconds := by
      unfold timeval
      unfold relativeSeconds at isRelative
      cases timeout : timer.m_timeout with
      | absolute dt =>
          rw [timeout] at isRelative
          cases isRelative
      | relative seconds => rfl
      | relativeWithReset seconds => rfl
    rw [converted, calcSeconds_eq clocked, left]
    exact keeps.shows
  timespec seconds isRelative keeps epoch fits := by
    have converted : timer.asTimespec = timer.relativeTimespec (some seconds) := by
      unfold asTimespec
      unfold relativeSeconds at isRelative
      cases timeout : timer.m_timeout with
      | absolute dt =>
          rw [timeout] at isRelative
          cases isRelative
      | relative given =>
          rw [timeout] at isRelative
          exact congrArg timer.relativeTimespec isRelative
      | relativeWithReset given =>
          rw [timeout] at isRelative
          exact congrArg timer.relativeTimespec isRelative
    rw [converted]
    exact relativeTimespec_shows clocked.start keeps epoch fits
  milliseconds seconds left nonnegative := asIntMs_shows clocked left nonnegative
  limited seconds limit finite shows keeps := asTimevalUpTo_shows finite shows keeps
  limitedMilliseconds seconds limit left nonnegative positive :=
    asIntMsUpTo_shows clocked left nonnegative positive
  limitedNever limit never keeps := limit_of_infinite clocked never keeps

end TimeoutTimer

/-- Ten seconds are left until an absolute time. -/
def TimeoutTimer.tenSeconds : TimeoutTimer := ⟨.absolute ⟨1010, 0⟩, ⟨1000, 0⟩, ⟨1000, 0⟩⟩

theorem TimeoutTimer.tenSeconds_shows : TimeoutTimer.tenSeconds.ShowsTime :=
  showsTime {
    start := ⟨by decide, by decide⟩
    loopTime := ⟨by decide, by decide⟩
    absolute := by
      intro dt timeout
      obtain rfl := Timeout.absolute.inj timeout
      exact ⟨by decide, by decide⟩ }

/-- The `timespec` is the absolute time, and not the ten seconds. -/
theorem TimeoutTimer.tenSeconds_not_remaining : ¬ TimeoutTimer.tenSeconds.ShowsRemaining := by
  intro shows
  have left : TimeoutTimer.tenSeconds.remaining = some 10 := by
    norm_num [remaining, tenSeconds, DateTime.seconds, DateTime.total, MICROSECONDS_PER_SECOND]
  have close := (shows.timespec 10 left).close
  have deadline : TimeoutTimer.tenSeconds.asTimespec = ⟨1010, 0⟩ := by decide
  rw [deadline] at close
  norm_num [Timespec.total] at close

section Exact

/-- The timer of exact times that the clock readings stand for. -/
def Timeout.exact : Timeout → Exec.Timeout
  | .absolute dt => .absolute dt.seconds
  | .relative seconds => .relative seconds
  | .relativeWithReset seconds => .relativeWithReset seconds

def TimeoutTimer.exact (timer : TimeoutTimer) : Exec.TimeoutTimer :=
  ⟨timer.m_timeout.exact, timer.m_start.seconds, timer.m_loopTime.seconds⟩

theorem safeAssign_int (y : ℚ) : safeAssign intType (some y) = Exec.safeAssign y := by
  have least : intType.min = -2147483648 := by decide
  have most : intType.max = 2147483647 := by decide
  unfold safeAssign Exec.safeAssign Exec.INT_MIN Exec.INT_MAX
  dsimp only
  rw [least, most]
  push_cast
  rfl

variable {timer : TimeoutTimer} (clocked : timer.IsClocked)

include clocked

theorem TimeoutTimer.calcSeconds_exact : timer.calcSeconds = timer.exact.calcSeconds := by
  rw [calcSeconds_eq clocked]
  unfold remaining Exec.TimeoutTimer.calcSeconds exact Timeout.exact
  cases timer.m_timeout with
  | absolute dt => rfl
  | relative seconds => rfl
  | relativeWithReset seconds => rfl

theorem TimeoutTimer.asIntMsUpTo_exact (maxSeconds : ℚ) :
    timer.asIntMsUpTo (some maxSeconds) = timer.exact.asIntMs maxSeconds := by
  have least : timer.calcSecondsUpTo (some maxSeconds) =
      some (timer.exact.calcSecondsUpTo maxSeconds) := by
    unfold calcSecondsUpTo Exec.TimeoutTimer.calcSecondsUpTo
    rw [calcSeconds_exact clocked]
    cases timer.exact.calcSeconds with
    | none => rfl
    | some seconds => rfl
  rw [asIntMsUpTo, if_neg (fun both => Option.some_ne_none maxSeconds both.2), least,
    Exec.TimeoutTimer.asIntMs, Option.map_some, safeAssign_int]

theorem TimeoutTimer.expired_exact : timer.expired = timer.exact.expired := by
  rw [Bool.eq_iff_iff, expired_iff clocked]
  unfold remaining Exec.TimeoutTimer.expired exact Timeout.exact
  cases timer.m_timeout with
  | absolute dt => simp
  | relative seconds => exact compareInterval_exact _ _ seconds
  | relativeWithReset seconds => exact compareInterval_exact _ _ seconds

end Exact

end Blocxx.Time
