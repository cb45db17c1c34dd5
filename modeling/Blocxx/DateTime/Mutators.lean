import Blocxx.DateTime.Invariant
import Blocxx.Library.Operation

/-!
This file embeds the mutators of `DateTime` with the order of their writes, and proves which of them
leave the object as it was when they throw.
-/

namespace Blocxx.Time

open Library Library.Operation

/-- A member function that changes its object and may throw. -/
abbrev Mutator (Answer : Type) := Operation DateTimeException DateTime Answer

namespace Mutator

/-- The assignments to the members. -/
def storeSeconds (seconds : Int) : Mutator Unit :=
  modify fun dt => { dt with m_seconds := seconds }

def storeMicroseconds (microseconds : Int) : Mutator Unit :=
  modify fun dt => { dt with m_microseconds := microseconds }

/-- `normalizeTime` called with the members, which it writes after its check. -/
def normalizeMembers : Mutator Unit := do
  let dt ← get
  let normal ← lift (normalizeTime dt.m_seconds dt.m_microseconds)
  storeSeconds normal.1
  storeMicroseconds normal.2

section Embedding

variable (library : CLibrary) (timeOffset : ETimeOffset)

def getTm : Mutator Tm := do
  let dt ← get
  lift (dt.getTm library timeOffset)

def setTm (tmarg : Tm) : Mutator Unit := do
  let seconds ← lift (DateTime.secondsOf library timeOffset tmarg)
  storeSeconds seconds

/-- The shape of the setters. -/
def changeTm (change : Tm → Except DateTimeException Tm) : Mutator Unit := do
  let theTime ← getTm library timeOffset
  let changed ← lift (change theTime)
  setTm library timeOffset changed

def setHour (hour : Int) : Mutator Unit :=
  changeTm library timeOffset fun theTime => .ok { theTime with tm_hour := hour }

def setMinute (minute : Int) : Mutator Unit :=
  changeTm library timeOffset fun theTime => .ok { theTime with tm_min := minute }

def setSecond (second : Int) : Mutator Unit :=
  changeTm library timeOffset fun theTime => .ok { theTime with tm_sec := second }

def setTime (hour minute second : Int) : Mutator Unit :=
  changeTm library timeOffset fun theTime =>
    .ok { theTime with tm_hour := hour, tm_min := minute, tm_sec := second }

def setDay (day : Int) : Mutator Unit :=
  changeTm library timeOffset fun theTime => .ok { theTime with tm_mday := day }

def setMonth (month : Int) : Mutator Unit :=
  if month = 0 then throw ⟨"invalid month: 0"⟩
  else changeTm library timeOffset fun theTime =>
    .ok { theTime with tm_mon := wrap32 (month - 1) }

def setYear (year : Int) : Mutator Unit :=
  if year < DATETIME_MINIMUM_YEAR ∨ year > DATETIME_MAXIMUM_YEAR then
    throw ⟨"invalid year: " ++ toString year⟩
  else changeTm library timeOffset fun theTime => .ok { theTime with tm_year := year - 1900 }

def setMicrosecond (microseconds : Int) : Mutator Unit := do
  let dt ← get
  lift (checkNormalTime dt.m_microseconds)
  if microseconds < 0 ∨ microseconds ≥ MICROSECONDS_PER_SECOND then
    throw ⟨"invalid microseconds: " ++ toString microseconds⟩
  storeMicroseconds microseconds

/-- The broken-down time goes to `setTime`, and the microseconds are stored behind it. -/
def set (fields : DateTime.Fields) : Mutator Unit := do
  setTm library fields.timeOffset fields.tm
  storeMicroseconds (wrap32 fields.microseconds.toNat)

/-- The overload of `set` for a `time_t`. It normalizes copies of its arguments. -/
def setTimeT (t microseconds : Int) : Mutator Unit := do
  let normal ← lift (normalizeTime t microseconds)
  storeSeconds normal.1
  storeMicroseconds normal.2

/-- The shape of the functions that change nothing in a special time. -/
def unlessSpecial (change : Mutator Unit) : Mutator Unit := do
  let dt ← get
  if ¬ haveSpecialValue dt.m_microseconds then change

def addDays (days : Int) : Mutator Unit :=
  unlessSpecial (changeTm library .utcTime fun theTime =>
    .ok { theTime with tm_mday := wrap32 (theTime.tm_mday + days) })

def addMonths (months : Int) : Mutator Unit :=
  unlessSpecial (changeTm library .utcTime fun theTime =>
    .ok { theTime with tm_mon := wrap32 (theTime.tm_mon + months) })

def addYears (years : Int) : Mutator Unit :=
  unlessSpecial (changeTm library .utcTime fun theTime => do
    let tm_year := wrap32 (theTime.tm_year + years)
    validateRange tm_year DATETIME_MINIMUM_YEAR DATETIME_MAXIMUM_YEAR
      ("addyears(" ++ toString years ++ ")")
    return { theTime with tm_year := tm_year })

def addSeconds (seconds : Int) : Mutator Unit :=
  unlessSpecial (modify fun dt => { dt with m_seconds := wrap64 (dt.m_seconds + seconds) })

def addMinutes (minutes : Int) : Mutator Unit :=
  unlessSpecial (modify fun dt =>
    { dt with m_seconds := wrap64 (dt.m_seconds + wrap64 (minutes * 60)) })

def addHours (hours : Int) : Mutator Unit :=
  unlessSpecial (modify fun dt =>
    { dt with m_seconds := wrap64 (dt.m_seconds + wrap64 (wrap64 (hours * 60) * 60)) })

/-- The sum is stored before `normalizeTime` checks it. -/
def addMicroseconds (microseconds : Int) : Mutator Unit :=
  unlessSpecial do
    modify fun dt => { dt with m_microseconds := wrap32 (dt.m_microseconds + microseconds) }
    normalizeMembers

/-- `operator+=` and `operator-=` assign the sum or the difference. -/
def assign (computed : DateTime → Except DateTimeException DateTime) : Mutator Unit := do
  let dt ← get
  let sum ← lift (computed dt)
  modify fun _ => sum

end Embedding

end Mutator

/-- The member function of a call. -/
def Mutation.mutator : Mutation → Mutator Unit
  | .setTimeT t microseconds => Mutator.setTimeT t microseconds
  | .set library fields => Mutator.set library fields
  | .setHour library hour timeOffset => Mutator.setHour library timeOffset hour
  | .setMinute library minute timeOffset => Mutator.setMinute library timeOffset minute
  | .setSecond library second timeOffset => Mutator.setSecond library timeOffset second
  | .setTime library hour minute second timeOffset =>
      Mutator.setTime library timeOffset hour minute second
  | .setDay library day timeOffset => Mutator.setDay library timeOffset day
  | .setMonth library month timeOffset => Mutator.setMonth library timeOffset month
  | .setYear library year timeOffset => Mutator.setYear library timeOffset year
  | .setMicrosecond microseconds => Mutator.setMicrosecond microseconds
  | .addDays library days => Mutator.addDays library days
  | .addMonths library months => Mutator.addMonths library months
  | .addYears library years => Mutator.addYears library years
  | .addSeconds seconds => Mutator.addSeconds seconds.toInt
  | .addMinutes minutes => Mutator.addMinutes minutes.toInt
  | .addHours hours => Mutator.addHours hours.toInt
  | .addMicroseconds microseconds => Mutator.addMicroseconds microseconds.toInt
  | .addAssign td => Mutator.assign fun dt => dt.add td
  | .subAssign td => Mutator.assign fun dt => dt.sub td

/-- The call stores no sum that its check refuses. -/
def Mutation.Atomic (dt : DateTime) : Mutation → Prop
  | .addMicroseconds microseconds =>
      haveSpecialValue dt.m_microseconds ∨ 2 ^ 32 ∣ microseconds.toInt ∨
        WithinLimits (wrap64 (dt.m_seconds +
          wrap32 (dt.m_microseconds + microseconds.toInt) / MICROSECONDS_PER_SECOND))
  | _ => True

namespace Mutator

section Guarantee

variable {library : CLibrary} {timeOffset : ETimeOffset} {dt : DateTime}

theorem setTm_strongAt (tmarg : Tm) : (setTm library timeOffset tmarg).StrongAt dt :=
  (reads_lift _).bind_strongAt fun _ _ => (succeeds_modify _).strongAt dt

/-- A setter writes after the last call that may throw. -/
theorem changeTm_strongAt (change : Tm → Except DateTimeException Tm) :
    (changeTm library timeOffset change).StrongAt dt := by
  have read : (getTm library timeOffset).Reads := reads_get.bind fun dt => reads_lift _
  apply read.bind_strongAt
  intro theTime _
  apply (reads_lift _).bind_strongAt
  intro changed _
  exact setTm_strongAt changed

theorem setMonth_strongAt (month : Int) : (setMonth library timeOffset month).StrongAt dt := by
  unfold setMonth
  split
  · exact fun _ _ => rfl
  · exact changeTm_strongAt _

theorem setYear_strongAt (year : Int) : (setYear library timeOffset year).StrongAt dt := by
  unfold setYear
  split
  · exact fun _ _ => rfl
  · exact changeTm_strongAt _

theorem setMicrosecond_strongAt (microseconds : Int) :
    (setMicrosecond microseconds).StrongAt dt := by
  apply reads_get.bind_strongAt
  intro object _
  apply (reads_lift _).bind_strongAt
  intro _ _
  split
  · exact fun _ _ => rfl
  · exact (succeeds_modify _).strongAt dt

theorem set_strongAt (fields : DateTime.Fields) : (set library fields).StrongAt dt :=
  (setTm_strongAt fields.tm).bind_succeeds fun _ => succeeds_modify _

/-- Two assignments behind a computation that does not reach the object. -/
theorem normalized_strongAt (computed : Except DateTimeException (Int × Int)) :
    StrongAt (do
      let normal ← lift computed
      storeSeconds normal.1
      storeMicroseconds normal.2) dt :=
  (reads_lift _).bind_strongAt fun _ _ =>
    ((succeeds_modify _).bind fun _ => succeeds_modify _).strongAt dt

theorem unlessSpecial_strongAt {change : Mutator Unit} (strong : change.StrongAt dt) :
    (unlessSpecial change).StrongAt dt := by
  apply reads_get.bind_strongAt
  intro object same
  obtain rfl := Except.ok.inj same
  split
  · exact strong
  · exact fun _ _ => rfl

theorem assign_strongAt (computed : DateTime → Except DateTimeException DateTime) :
    (assign computed).StrongAt dt :=
  reads_get.bind_strongAt fun _ _ => (reads_lift _).bind_strongAt fun _ _ =>
    (succeeds_modify _).strongAt dt

end Guarantee

section Computed

variable {library : CLibrary} {timeOffset : ETimeOffset} {dt : DateTime}

/-- The mutator throws what the computation of the new object does, and else stores the object. -/
def Stores (mutator : Mutator Unit) (dt : DateTime)
    (computed : Except DateTimeException DateTime) : Prop :=
  mutator.outcome dt = computed.map (fun _ => ()) ∧ mutator.after dt = dt.unlessThrown computed

theorem setTm_stores (tmarg : Tm) :
    Stores (setTm library timeOffset tmarg) dt (DateTime.setTm library dt timeOffset tmarg) := by
  unfold Stores setTm DateTime.setTm
  rw [outcome_bind, after_bind, outcome_lift, after_lift]
  cases DateTime.secondsOf library timeOffset tmarg with
  | ok seconds => exact ⟨rfl, rfl⟩
  | error exception => exact ⟨rfl, rfl⟩

theorem changeTm_stores (change : Tm → Except DateTimeException Tm) :
    Stores (changeTm library timeOffset change) dt
      (DateTime.changeTm library dt timeOffset change) := by
  unfold Stores changeTm DateTime.changeTm
  have read : (getTm library timeOffset).outcome dt = DateTime.getTm library dt timeOffset ∧
      (getTm library timeOffset).after dt = dt := ⟨rfl, rfl⟩
  rw [outcome_bind, after_bind, read.1, read.2]
  cases DateTime.getTm library dt timeOffset with
  | error exception => exact ⟨rfl, rfl⟩
  | ok theTime =>
      dsimp only [Except.bind]
      rw [outcome_bind, after_bind, outcome_lift, after_lift]
      show _ = Except.map _ (change theTime >>= _) ∧ _ = dt.unlessThrown (change theTime >>= _)
      cases change theTime with
      | error exception => exact ⟨rfl, rfl⟩
      | ok changed => exact setTm_stores changed

theorem setMonth_stores (month : Int) :
    Stores (setMonth library timeOffset month) dt (DateTime.setMonth library dt timeOffset month) := by
  unfold setMonth DateTime.setMonth
  split
  · exact ⟨rfl, rfl⟩
  · exact changeTm_stores _

theorem setYear_stores (year : Int) :
    Stores (setYear library timeOffset year) dt (DateTime.setYear library dt timeOffset year) := by
  unfold setYear DateTime.setYear
  split
  · exact ⟨rfl, rfl⟩
  · exact changeTm_stores _

theorem setMicrosecond_stores (microseconds : Int) :
    Stores (setMicrosecond microseconds) dt (DateTime.setMicrosecond dt microseconds) := by
  unfold Stores setMicrosecond DateTime.setMicrosecond
  rw [outcome_bind, after_bind, outcome_get, after_get]
  dsimp only [Except.bind]
  rw [outcome_bind, after_bind, outcome_lift, after_lift]
  cases checkNormalTime dt.m_microseconds with
  | error exception => exact ⟨rfl, rfl⟩
  | ok answer =>
      dsimp only [Except.bind, bind]
      split
      · exact ⟨rfl, rfl⟩
      · exact ⟨rfl, rfl⟩

/-- An assignment behind a mutator changes the object that it stores. -/
theorem Stores.modify {mutator : Mutator Unit} {computed : Except DateTimeException DateTime}
    (stores : Stores mutator dt computed) (change : DateTime → DateTime) :
    Stores (mutator >>= fun _ => modify change) dt (computed.map change) := by
  unfold Stores
  rw [outcome_bind, after_bind, stores.1, stores.2]
  cases computed with
  | ok stored => exact ⟨rfl, rfl⟩
  | error exception => exact ⟨rfl, rfl⟩

theorem set_stores (fields : DateTime.Fields) :
    Stores (set library fields) dt (DateTime.set library fields) := by
  have assigned := (@setTm_stores library fields.timeOffset dt fields.tm).modify fun dt =>
    { dt with m_microseconds := wrap32 fields.microseconds.toNat }
  have same : (DateTime.setTm library dt fields.timeOffset fields.tm).map (fun dt =>
      { dt with m_microseconds := wrap32 fields.microseconds.toNat }) =
      DateTime.set library fields := by
    unfold DateTime.setTm DateTime.set
    cases DateTime.secondsOf library fields.timeOffset fields.tm with
    | ok seconds => rfl
    | error exception => rfl
  rw [same] at assigned
  exact assigned

theorem setTimeT_stores (t microseconds : Int) :
    Stores (setTimeT t microseconds) dt (DateTime.ofTimeT t microseconds) := by
  unfold Stores setTimeT DateTime.ofTimeT
  rw [outcome_bind, after_bind, outcome_lift, after_lift]
  cases normalizeTime t microseconds with
  | ok normal => exact ⟨rfl, rfl⟩
  | error exception => exact ⟨rfl, rfl⟩

theorem unlessSpecial_stores {change : Mutator Unit} {computed : Except DateTimeException DateTime}
    (stores : Stores change dt computed) :
    Stores (unlessSpecial change) dt
      (if haveSpecialValue dt.m_microseconds then .ok dt else computed) := by
  unfold Stores unlessSpecial
  rw [outcome_bind, after_bind, outcome_get, after_get]
  dsimp only [Except.bind]
  by_cases special : haveSpecialValue dt.m_microseconds
  · rw [if_neg (not_not.mpr special), if_pos special]
    exact ⟨rfl, rfl⟩
  · rw [if_pos special, if_neg special]
    exact stores

theorem assign_stores (computed : DateTime → Except DateTimeException DateTime) :
    Stores (assign computed) dt (computed dt) := by
  unfold Stores assign
  rw [outcome_bind, after_bind, outcome_get, after_get]
  dsimp only [Except.bind]
  rw [outcome_bind, after_bind, outcome_lift, after_lift]
  cases computed dt with
  | ok sum => exact ⟨rfl, rfl⟩
  | error exception => exact ⟨rfl, rfl⟩

theorem after_unlessSpecial_modify (change : DateTime → DateTime) (dt : DateTime) :
    (unlessSpecial (modify change)).after dt =
      if haveSpecialValue dt.m_microseconds then dt else change dt := by
  have stores : Stores (modify change) dt (.ok (change dt)) := ⟨rfl, rfl⟩
  rw [(unlessSpecial_stores stores).2]
  split
  · rfl
  · rfl

end Computed

/-- The sum of the microseconds is the old number for multiples of the size of `Int32` only. -/
theorem wrap32_add_eq_iff {old added : Int} (plain : ¬ haveSpecialValue old) :
    wrap32 (old + added) = old ↔ 2 ^ 32 ∣ added := by
  simp only [haveSpecialValue, MICROSECONDS_PER_SECOND] at plain
  simp only [wrap32, Int.bmod_def]
  omega

section Sum

variable {dt : DateTime} (plain : ¬ haveSpecialValue dt.m_microseconds)

include plain

theorem outcome_unlessSpecial (change : Mutator Unit) :
    (unlessSpecial change).outcome dt = change.outcome dt := by
  unfold unlessSpecial
  rw [outcome_bind, outcome_get, after_get]
  show outcome (if ¬ haveSpecialValue dt.m_microseconds then change else pure ()) dt = _
  rw [if_pos plain]

theorem after_unlessSpecial (change : Mutator Unit) :
    (unlessSpecial change).after dt = change.after dt := by
  unfold unlessSpecial
  rw [after_bind, outcome_get, after_get]
  show after (if ¬ haveSpecialValue dt.m_microseconds then change else pure ()) dt = _
  rw [if_pos plain]

end Sum

theorem outcome_normalizeMembers (dt : DateTime) : normalizeMembers.outcome dt =
    (normalizeTime dt.m_seconds dt.m_microseconds).map fun _ => () := by
  unfold normalizeMembers
  rw [outcome_bind, outcome_get, after_get]
  show outcome (lift (normalizeTime dt.m_seconds dt.m_microseconds) >>= _) dt = _
  rw [outcome_bind, outcome_lift, after_lift]
  cases normalizeTime dt.m_seconds dt.m_microseconds with
  | ok normal => rfl
  | error exception => rfl

theorem after_normalizeMembers (dt : DateTime) : normalizeMembers.after dt =
    dt.unlessThrown ((normalizeTime dt.m_seconds dt.m_microseconds).map fun normal =>
      ⟨normal.1, normal.2⟩) := by
  unfold normalizeMembers
  rw [after_bind, outcome_get, after_get]
  show after (lift (normalizeTime dt.m_seconds dt.m_microseconds) >>= _) dt = _
  rw [after_bind, outcome_lift, after_lift]
  cases normalizeTime dt.m_seconds dt.m_microseconds with
  | ok normal => rfl
  | error exception => rfl

theorem after_addMicroseconds (dt : DateTime) (microseconds : Int) :
    (addMicroseconds microseconds).after dt = (dt.addMicroseconds microseconds).1 := by
  by_cases special : haveSpecialValue dt.m_microseconds
  · unfold addMicroseconds DateTime.addMicroseconds unlessSpecial
    rw [after_bind, outcome_get, after_get, if_pos special]
    dsimp only
    rw [if_neg (not_not.mpr special), after_pure]
  · unfold addMicroseconds DateTime.addMicroseconds
    rw [after_unlessSpecial special, after_bind, outcome_modify, after_modify, if_neg special]
    dsimp only
    rw [after_normalizeMembers]
    dsimp only
    cases normalizeTime dt.m_seconds (wrap32 (dt.m_microseconds + microseconds)) with
    | ok normal => rfl
    | error exception => rfl

/-- The object behind a sum that is refused is the one with the sum in it. -/
theorem addMicroseconds_strongAt_iff (dt : DateTime) (microseconds : Int) :
    (addMicroseconds microseconds).StrongAt dt ↔
      haveSpecialValue dt.m_microseconds ∨ 2 ^ 32 ∣ microseconds ∨
        WithinLimits (wrap64 (dt.m_seconds +
          wrap32 (dt.m_microseconds + microseconds) / MICROSECONDS_PER_SECOND)) := by
  by_cases special : haveSpecialValue dt.m_microseconds
  · refine iff_of_true ?_ (.inl special)
    intro exception thrown
    unfold addMicroseconds unlessSpecial at thrown
    rw [outcome_bind, outcome_get, after_get] at thrown
    dsimp only [Except.bind] at thrown
    rw [if_neg (not_not.mpr special)] at thrown
    cases thrown
  · rw [or_iff_right special, ← wrap32_add_eq_iff special, ← DateTime.normalizeTime_ok_iff]
    unfold StrongAt addMicroseconds
    rw [outcome_unlessSpecial special, after_unlessSpecial special, outcome_bind, after_bind,
      outcome_modify, after_modify]
    dsimp only [Except.bind]
    rw [outcome_normalizeMembers, after_normalizeMembers]
    dsimp only
    cases normalizeTime dt.m_seconds (wrap32 (dt.m_microseconds + microseconds)) with
    | ok normal => exact iff_of_true (fun exception thrown => by cases thrown) (.inr ⟨_, rfl⟩)
    | error exception =>
        have refused : ¬ ∃ normal,
            (Except.error exception : Except DateTimeException (Int × Int)) = .ok normal := by
          rintro ⟨normal, ok⟩
          cases ok
        rw [or_iff_left refused]
        constructor
        · intro strong
          exact congrArg DateTime.m_microseconds (strong exception rfl)
        · intro same _ _
          rw [same]
          rfl

end Mutator

/-- The order of the writes leaves the object that the computed results do. -/
theorem Mutation.after_mutator (mutation : Mutation) (dt : DateTime) :
    mutation.mutator.after dt = mutation.after dt := by
  open Mutator in
  cases mutation with
  | setTimeT t microseconds => exact (setTimeT_stores t microseconds).2
  | set library fields => exact (set_stores fields).2
  | setHour library hour timeOffset => exact (changeTm_stores _).2
  | setMinute library minute timeOffset => exact (changeTm_stores _).2
  | setSecond library second timeOffset => exact (changeTm_stores _).2
  | setTime library hour minute second timeOffset => exact (changeTm_stores _).2
  | setDay library day timeOffset => exact (changeTm_stores _).2
  | setMonth library month timeOffset => exact (setMonth_stores month).2
  | setYear library year timeOffset => exact (setYear_stores year).2
  | setMicrosecond microseconds => exact (setMicrosecond_stores microseconds).2
  | addDays library days => exact (unlessSpecial_stores (changeTm_stores _)).2
  | addMonths library months => exact (unlessSpecial_stores (changeTm_stores _)).2
  | addYears library years => exact (unlessSpecial_stores (changeTm_stores _)).2
  | addSeconds seconds => exact after_unlessSpecial_modify _ dt
  | addMinutes minutes => exact after_unlessSpecial_modify _ dt
  | addHours hours => exact after_unlessSpecial_modify _ dt
  | addMicroseconds microseconds => exact after_addMicroseconds dt microseconds.toInt
  | addAssign td => exact (assign_stores _).2
  | subAssign td => exact (assign_stores _).2

/-- The mutators have the guarantee exactly when no refused sum is stored. -/
theorem Mutation.strongAt_iff (mutation : Mutation) (dt : DateTime) :
    mutation.mutator.StrongAt dt ↔ mutation.Atomic dt := by
  open Mutator in
  cases mutation with
  | setTimeT t microseconds => exact iff_of_true (normalized_strongAt _) trivial
  | set library fields => exact iff_of_true (set_strongAt fields) trivial
  | setHour library hour timeOffset => exact iff_of_true (changeTm_strongAt _) trivial
  | setMinute library minute timeOffset => exact iff_of_true (changeTm_strongAt _) trivial
  | setSecond library second timeOffset => exact iff_of_true (changeTm_strongAt _) trivial
  | setTime library hour minute second timeOffset =>
      exact iff_of_true (changeTm_strongAt _) trivial
  | setDay library day timeOffset => exact iff_of_true (changeTm_strongAt _) trivial
  | setMonth library month timeOffset => exact iff_of_true (setMonth_strongAt month) trivial
  | setYear library year timeOffset => exact iff_of_true (setYear_strongAt year) trivial
  | setMicrosecond microseconds =>
      exact iff_of_true (setMicrosecond_strongAt microseconds) trivial
  | addDays library days =>
      exact iff_of_true (unlessSpecial_strongAt (changeTm_strongAt _)) trivial
  | addMonths library months =>
      exact iff_of_true (unlessSpecial_strongAt (changeTm_strongAt _)) trivial
  | addYears library years =>
      exact iff_of_true (unlessSpecial_strongAt (changeTm_strongAt _)) trivial
  | addSeconds seconds =>
      exact iff_of_true (unlessSpecial_strongAt ((succeeds_modify _).strongAt dt)) trivial
  | addMinutes minutes =>
      exact iff_of_true (unlessSpecial_strongAt ((succeeds_modify _).strongAt dt)) trivial
  | addHours hours =>
      exact iff_of_true (unlessSpecial_strongAt ((succeeds_modify _).strongAt dt)) trivial
  | addMicroseconds microseconds => exact addMicroseconds_strongAt_iff dt microseconds.toInt
  | addAssign td => exact iff_of_true (assign_strongAt _) trivial
  | subAssign td => exact iff_of_true (assign_strongAt _) trivial

/-- The last microsecond of the range. -/
def lastMicrosecond : DateTime := ⟨DATETIME_MAXIMUM_TIME, 999999⟩

theorem lastMicrosecond_changed :
    (Mutator.addMicroseconds 1).outcome lastMicrosecond =
      .error ⟨"Supplied time values are out of range: \x7b253402300799,1000000\x7d"⟩ ∧
    (Mutator.addMicroseconds 1).after lastMicrosecond ≠ lastMicrosecond := by
  decide +kernel

/-- The arguments that `normalizeTime` takes by reference. -/
structure TimeArguments where
  seconds : Int
  microseconds : Int
  deriving DecidableEq

/-- `normalizeTime` with the writes of its arguments, which come behind its check. -/
def normalizeArguments : Operation DateTimeException TimeArguments Unit := do
  let arguments ← get
  let normal ← lift (normalizeTime arguments.seconds arguments.microseconds)
  modify fun arguments => { arguments with seconds := normal.1 }
  modify fun arguments => { arguments with microseconds := normal.2 }

namespace TimeArguments

/-- The time as one number of microseconds. -/
def total (arguments : TimeArguments) : Int :=
  arguments.seconds * MICROSECONDS_PER_SECOND + arguments.microseconds

/-- The second of the total is the sum that the source forms, without its wrap-around. -/
theorem second_eq (arguments : TimeArguments) :
    arguments.total / MICROSECONDS_PER_SECOND =
      arguments.seconds + arguments.microseconds / MICROSECONDS_PER_SECOND := by
  unfold total MICROSECONDS_PER_SECOND
  omega

end TimeArguments

/-- The carry is so small that a sum which wraps around is outside of the limits on the other
side. -/
theorem withinLimits_wrap64 {seconds carry : Int} (time_t : -2 ^ 63 ≤ seconds ∧ seconds < 2 ^ 63)
    (small : -2148 ≤ carry ∧ carry ≤ 2147) :
    WithinLimits (wrap64 (seconds + carry)) ↔ WithinLimits (seconds + carry) := by
  unfold WithinLimits wrap64 DATETIME_MINIMUM_TIME DATETIME_MAXIMUM_TIME
  rw [Int.bmod_def]
  omega

/-- Within the limits nothing wraps around. -/
theorem wrap64_eq_of_within {seconds : Int} (within : WithinLimits seconds) :
    wrap64 seconds = seconds := by
  unfold WithinLimits DATETIME_MINIMUM_TIME DATETIME_MAXIMUM_TIME at within
  rw [wrap64, Int.bmod_def]
  omega

/-- What `normalizeTime` returns are the quotient and the remainder. -/
theorem normalizeTime_eq {seconds microseconds : Int} {normal : Int × Int}
    (ok : normalizeTime seconds microseconds = .ok normal) :
    normal = (wrap64 (seconds + microseconds / MICROSECONDS_PER_SECOND),
      microseconds % MICROSECONDS_PER_SECOND) := by
  unfold normalizeTime at ok
  have parts := divFloor_remFloor (show 0 < MICROSECONDS_PER_SECOND by decide) microseconds
  rw [parts.1, parts.2] at ok
  dsimp only at ok
  split at ok
  · cases ok
  · exact (Except.ok.inj ok).symm

theorem normalizeArguments_ok {arguments : TimeArguments} {normal : Int × Int}
    (ok : normalizeTime arguments.seconds arguments.microseconds = .ok normal) :
    normalizeArguments.outcome arguments = .ok () ∧
      normalizeArguments.after arguments = ⟨normal.1, normal.2⟩ := by
  unfold normalizeArguments
  rw [outcome_bind, after_bind, outcome_get, after_get]
  dsimp only [Except.bind]
  rw [outcome_bind, after_bind, outcome_lift, after_lift, ok]
  exact ⟨rfl, rfl⟩

theorem normalizeArguments_error {arguments : TimeArguments} {exception : DateTimeException}
    (error : normalizeTime arguments.seconds arguments.microseconds = .error exception) :
    normalizeArguments.outcome arguments = .error exception ∧
      normalizeArguments.after arguments = arguments := by
  unfold normalizeArguments
  rw [outcome_bind, after_bind, outcome_get, after_get]
  dsimp only [Except.bind]
  rw [outcome_bind, after_bind, outcome_lift, after_lift, error]
  exact ⟨rfl, rfl⟩

/-- `normalizeTime` keeps the total of every time whose second is within the limits, and it throws
for all others and changes nothing. -/
theorem normalizeArguments_exact (seconds : Int64) (microseconds : Int32) :
    let arguments : TimeArguments := ⟨seconds.toInt, microseconds.toInt⟩
    let after := normalizeArguments.after arguments
    (WithinLimits (arguments.total / MICROSECONDS_PER_SECOND) →
      normalizeArguments.outcome arguments = .ok () ∧ after.total = arguments.total ∧
        0 ≤ after.microseconds ∧ after.microseconds < MICROSECONDS_PER_SECOND) ∧
    (¬ WithinLimits (arguments.total / MICROSECONDS_PER_SECOND) →
      (∃ exception, normalizeArguments.outcome arguments = .error exception) ∧
        after = arguments) := by
  intro arguments after
  have small : -2148 ≤ microseconds.toInt / MICROSECONDS_PER_SECOND ∧
      microseconds.toInt / MICROSECONDS_PER_SECOND ≤ 2147 := by
    have least := microseconds.le_toInt
    have greatest := microseconds.toInt_lt
    unfold MICROSECONDS_PER_SECOND
    omega
  have checked := DateTime.normalizeTime_ok_iff seconds.toInt microseconds.toInt
  rw [withinLimits_wrap64 ⟨seconds.le_toInt, seconds.toInt_lt⟩ small] at checked
  rw [arguments.second_eq]
  constructor
  · intro within
    obtain ⟨normal, ok⟩ := checked.mpr within
    have range := (DateTime.normalizeTime_normal ok).microseconds
    obtain ⟨returns, stored⟩ := @normalizeArguments_ok arguments normal ok
    refine ⟨returns, ?_, ?_⟩
    · rw [show after = _ from stored, normalizeTime_eq ok, wrap64_eq_of_within within]
      dsimp only [TimeArguments.total, MICROSECONDS_PER_SECOND, arguments]
      omega
    · rw [show after = _ from stored]
      exact range
  · intro outside
    cases result : normalizeTime seconds.toInt microseconds.toInt with
    | ok normal => exact absurd (checked.mp ⟨normal, result⟩) outside
    | error exception =>
        obtain ⟨throws, stays⟩ := @normalizeArguments_error arguments exception result
        exact ⟨⟨exception, throws⟩, stays⟩

end Blocxx.Time
