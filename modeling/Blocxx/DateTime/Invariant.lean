import Blocxx.DateTime.Parse
import Blocxx.Library.Operation
import Blocxx.Library.TransitionSystem

/-!
This file settles which calls keep the invariant that `DateTime.cpp` states for its objects.
-/

namespace Blocxx.Time

open Library

/-- The limits hold for the seconds of a normal time. -/
def WithinLimits (seconds : Int) : Prop :=
  DATETIME_MINIMUM_TIME ≤ seconds ∧ seconds ≤ DATETIME_MAXIMUM_TIME

instance (seconds : Int) : Decidable (WithinLimits seconds) :=
  inferInstanceAs (Decidable (_ ∧ _))

namespace DateTime

structure IsNormal (dt : DateTime) : Prop where
  seconds : WithinLimits dt.m_seconds
  microseconds : 0 ≤ dt.m_microseconds ∧ dt.m_microseconds < MICROSECONDS_PER_SECOND

/-- The invariant of the source. -/
def Invariant (dt : DateTime) : Prop :=
  dt = getPosInfinity ∨ dt = getNegInfinity ∨ dt = getNADT ∨ dt.IsNormal

theorem IsNormal.invariant {dt : DateTime} (normal : dt.IsNormal) : dt.Invariant :=
  .inr (.inr (.inr normal))

/-- A special value is outside of the microseconds of a normal time. -/
theorem Invariant.normal_of {dt : DateTime} (holds : dt.Invariant)
    (plain : ¬ haveSpecialValue dt.m_microseconds) : dt.IsNormal := by
  rcases holds with rfl | rfl | rfl | normal
  · exact absurd (by decide) plain
  · exact absurd (by decide) plain
  · exact absurd (by decide) plain
  · exact normal

theorem IsNormal.not_special {dt : DateTime} (normal : dt.IsNormal) :
    ¬ haveSpecialValue dt.m_microseconds := by
  have microseconds := normal.microseconds
  unfold haveSpecialValue
  omega

/-- Seconds within the limits are those of a special value for NADT only. -/
theorem invariant_iff {dt : DateTime} (seconds : WithinLimits dt.m_seconds) :
    dt.Invariant ↔ ¬ haveSpecialValue dt.m_microseconds ∨ dt = getNADT := by
  constructor
  · rintro (rfl | rfl | rfl | normal)
    · exact absurd seconds (by decide)
    · exact absurd seconds (by decide)
    · exact .inr rfl
    · exact .inl normal.not_special
  · rintro (plain | rfl)
    · unfold haveSpecialValue at plain
      exact IsNormal.invariant ⟨seconds, by omega⟩
    · exact .inr (.inr (.inl rfl))

theorem ofSpecial_invariant (special : ESpecialTime) : (ofSpecial special).Invariant := by
  cases special with
  | negInfinity => exact .inr (.inl rfl)
  | notSpecial =>
      have normal : (ofSpecial .notSpecial).IsNormal := ⟨by decide, by decide⟩
      exact normal.invariant
  | posInfinity => exact .inl rfl
  | nadt => exact .inr (.inr (.inl rfl))

/-- What `normalizeTime` returns is a normal time. -/
theorem normalizeTime_normal {seconds microseconds : Int} {normal : Int × Int}
    (ok : normalizeTime seconds microseconds = .ok normal) :
    IsNormal ⟨normal.1, normal.2⟩ := by
  unfold normalizeTime at ok
  dsimp only at ok
  split at ok
  · cases ok
  · next inside =>
      obtain rfl := Except.ok.inj ok
      rw [(divFloor_remFloor (by decide) _).2]
      refine ⟨?_, ?_⟩
      · simp only [WithinLimits]
        omega
      · simp only [MICROSECONDS_PER_SECOND]
        omega

/-- The check of `normalizeTime`. -/
theorem normalizeTime_ok_iff (seconds microseconds : Int) :
    (∃ normal, normalizeTime seconds microseconds = .ok normal) ↔
      WithinLimits (wrap64 (seconds + microseconds / MICROSECONDS_PER_SECOND)) := by
  unfold normalizeTime WithinLimits
  rw [(divFloor_remFloor (by decide) microseconds).1]
  dsimp only
  split
  · next outside =>
      refine iff_of_false ?_ (by omega)
      rintro ⟨normal, ok⟩
      cases ok
  · next inside => exact iff_of_true ⟨_, rfl⟩ (by omega)

theorem ofTimeT_normal {t microseconds : Int} {dt : DateTime}
    (ok : ofTimeT t microseconds = .ok dt) : dt.IsNormal := by
  obtain ⟨normal, normalized, stored⟩ := bind_eq_ok.mp ok
  obtain rfl := Except.ok.inj stored
  exact normalizeTime_normal normalized

/-- Both ways of reading a `struct tm` check the limits. -/
theorem secondsOf_within {library : CLibrary} {timeOffset : ETimeOffset} {tmarg : Tm}
    {seconds : Int} (ok : secondsOf library timeOffset tmarg = .ok seconds) :
    WithinLimits seconds := by
  cases timeOffset with
  | localTime =>
      unfold secondsOf at ok
      dsimp only at ok
      split at ok
      · cases ok
      · next inside =>
          obtain rfl := Except.ok.inj ok
          simp only [WithinLimits]
          omega
  | utcTime => exact timeGm_range ok

theorem checkNormalTime_ok {microsecond : Int} {answer : Unit}
    (ok : checkNormalTime microsecond = .ok answer) : ¬ haveSpecialValue microsecond := by
  unfold checkNormalTime at ok
  split at ok
  · cases ok
  · next plain => exact plain

/-- A setter reads a normal time, and it stores seconds within the limits. -/
theorem changeTm_normal {library : CLibrary} {dt changed : DateTime} {timeOffset : ETimeOffset}
    {change : Tm → Except DateTimeException Tm} (holds : dt.Invariant)
    (ok : changeTm library dt timeOffset change = .ok changed) : changed.IsNormal := by
  obtain ⟨theTime, read, ok⟩ := bind_eq_ok.mp ok
  obtain ⟨tmarg, -, ok⟩ := bind_eq_ok.mp ok
  obtain ⟨seconds, within, stored⟩ := bind_eq_ok.mp ok
  obtain rfl := Except.ok.inj stored
  obtain ⟨_, checked, -⟩ := bind_eq_ok.mp read
  exact ⟨secondsOf_within within, (holds.normal_of (checkNormalTime_ok checked)).microseconds⟩

theorem setMicrosecond_normal {dt changed : DateTime} {microseconds : Int} (holds : dt.Invariant)
    (ok : setMicrosecond dt microseconds = .ok changed) : changed.IsNormal := by
  obtain ⟨_, checked, ok⟩ := bind_eq_ok.mp ok
  have plain := checkNormalTime_ok checked
  split at ok
  · cases ok
  · next inside =>
      obtain rfl := Except.ok.inj ok
      exact ⟨(holds.normal_of plain).seconds, by dsimp only; omega⟩

/-- Days, months, and years change nothing or store a normal time. -/
theorem unlessSpecial_invariant {library : CLibrary} {dt changed : DateTime}
    {change : Tm → Except DateTimeException Tm} (holds : dt.Invariant)
    (ok : (if haveSpecialValue dt.m_microseconds then Except.ok dt
      else changeTm library dt .utcTime change) = .ok changed) : changed.Invariant := by
  split at ok
  · obtain rfl := Except.ok.inj ok
    exact holds
  · exact (changeTm_normal holds ok).invariant

theorem neg_invariant {x negated : DateTime} (holds : x.Invariant) (ok : neg x = .ok negated) :
    negated.Invariant := by
  unfold neg at ok
  split at ok
  · split at ok
    · exact (ofTimeT_normal ok).invariant
    · exact (ofTimeT_normal ok).invariant
  · obtain rfl := Except.ok.inj ok
    exact holds
  · obtain rfl := Except.ok.inj ok
    exact ofSpecial_invariant .negInfinity
  · obtain rfl := Except.ok.inj ok
    exact ofSpecial_invariant .posInfinity

theorem add_invariant {dt sum : DateTime} {td : TimeDuration} (holds : dt.Invariant)
    (ok : add dt td = .ok sum) : sum.Invariant := by
  unfold add at ok
  dsimp only at ok
  split at ok
  · obtain rfl := Except.ok.inj ok
    exact ofSpecial_invariant .nadt
  split at ok
  · obtain rfl := Except.ok.inj ok
    exact ofSpecial_invariant .nadt
  split at ok
  · obtain rfl := Except.ok.inj ok
    exact holds
  split at ok
  · exact (ofTimeT_normal ok).invariant
  · obtain rfl := Except.ok.inj ok
    exact ofSpecial_invariant .negInfinity
  · obtain rfl := Except.ok.inj ok
    exact ofSpecial_invariant .posInfinity
  · obtain rfl := Except.ok.inj ok
    exact ofSpecial_invariant .nadt

/-- The fields have no whole second in the microseconds, or they are refused, or they make NADT. -/
def Fields.Keep (library : CLibrary) (fields : Fields) : Prop :=
  fields.microseconds.toNat < 1000000 ∨
    (∀ seconds, secondsOf library fields.timeOffset fields.tm ≠ .ok seconds) ∨
    (fields.microseconds.toNat = 1000000 ∧
      secondsOf library fields.timeOffset fields.tm = .ok NADT_SEC)

/-- A stored number of microseconds is below a second exactly when the argument is. -/
theorem stored_special_iff (microseconds : UInt32) :
    haveSpecialValue (wrap32 microseconds.toNat) ↔ ¬ microseconds.toNat < 1000000 := by
  have bound := microseconds.toNat_lt
  simp only [haveSpecialValue, wrap32, MICROSECONDS_PER_SECOND, Int.bmod_def]
  omega

theorem stored_eq_iff (microseconds : UInt32) :
    wrap32 microseconds.toNat = NADT_USEC ↔ microseconds.toNat = 1000000 := by
  have bound := microseconds.toNat_lt
  simp only [wrap32, NADT_USEC, MICROSECONDS_PER_SECOND, Int.bmod_def]
  omega

/-- What `set` stores keeps the invariant exactly for the fields of the condition. -/
theorem set_invariant_iff (library : CLibrary) (fields : Fields) :
    (∀ dt, set library fields = .ok dt → dt.Invariant) ↔ fields.Keep library := by
  unfold Fields.Keep
  cases stored : secondsOf library fields.timeOffset fields.tm with
  | error exception => simp [set, stored, bind, Except.bind]
  | ok seconds =>
      have within := secondsOf_within stored
      have answer : set library fields = .ok ⟨seconds, wrap32 fields.microseconds.toNat⟩ := by
        simp [set, stored, bind, Except.bind, pure, Except.pure]
      rw [answer]
      constructor
      · intro holds
        rcases (invariant_iff within).mp (holds _ rfl) with plain | isNADT
        · dsimp only at plain
          rw [stored_special_iff, not_not] at plain
          exact .inl plain
        · obtain ⟨isZero, isSecond⟩ := DateTime.mk.inj isNADT
          exact .inr (.inr ⟨(stored_eq_iff _).mp isSecond, by rw [isZero]⟩)
      · intro keep dt isStored
        obtain rfl := Except.ok.inj isStored
        rcases keep with short | refused | ⟨isSecond, isZero⟩
        · have plain := mt (stored_special_iff fields.microseconds).mp (not_not.mpr short)
          rw [invariant_iff within]
          dsimp only
          exact .inl plain
        · exact absurd rfl (refused seconds)
        · rw [Except.ok.inj isZero, (stored_eq_iff _).mpr isSecond]
          exact ofSpecial_invariant .nadt

/-- Sums of seconds that leave the limits by less than the range of `time_t` do not wrap back. -/
theorem within_wrap64_iff {seconds added : Int} (within : WithinLimits seconds)
    (fits : -2 ^ 63 ≤ added ∧ added < 2 ^ 63) :
    WithinLimits (wrap64 (seconds + added)) ↔ WithinLimits (seconds + added) := by
  simp only [WithinLimits, DATETIME_MINIMUM_TIME, DATETIME_MAXIMUM_TIME, wrap64,
    Int.bmod_def] at *
  omega

theorem wrap64_fits (value : Int) : -2 ^ 63 ≤ wrap64 value ∧ wrap64 value < 2 ^ 63 := by
  simp only [wrap64, Int.bmod_def]
  omega

/-- A normal time with other seconds is an object of the invariant within the limits only. -/
theorem IsNormal.seconds_iff {dt : DateTime} (normal : dt.IsNormal) (seconds : Int) :
    Invariant { dt with m_seconds := seconds } ↔ WithinLimits seconds := by
  constructor
  · intro holds
    have same : ¬ haveSpecialValue ({ dt with m_seconds := seconds } : DateTime).m_microseconds :=
      normal.not_special
    exact (holds.normal_of same).seconds
  · intro within
    exact IsNormal.invariant ⟨within, normal.microseconds⟩

/-- The seconds are added to a normal time without a check. -/
theorem addSeconds_invariant_iff {dt : DateTime} (holds : dt.Invariant) {seconds : Int}
    (fits : -2 ^ 63 ≤ seconds ∧ seconds < 2 ^ 63) :
    (addSeconds dt seconds).Invariant ↔
      haveSpecialValue dt.m_microseconds ∨ WithinLimits (dt.m_seconds + seconds) := by
  unfold addSeconds
  by_cases special : haveSpecialValue dt.m_microseconds
  · rw [if_pos special]
    exact ⟨fun _ => .inl special, fun _ => holds⟩
  · have normal := holds.normal_of special
    rw [if_neg special, normal.seconds_iff, within_wrap64_iff normal.seconds fits]
    simp only [special, false_or]

/-- The sum of the microseconds is stored before the check of the limits. -/
theorem addMicroseconds_invariant_iff {dt : DateTime} (holds : dt.Invariant) (microseconds : Int) :
    (addMicroseconds dt microseconds).1.Invariant ↔
      haveSpecialValue dt.m_microseconds ∨
        WithinLimits (dt.m_seconds +
          wrap32 (dt.m_microseconds + microseconds) / MICROSECONDS_PER_SECOND) := by
  unfold addMicroseconds
  by_cases special : haveSpecialValue dt.m_microseconds
  · rw [if_pos special]
    exact ⟨fun _ => .inl special, fun _ => holds⟩
  · have normal := holds.normal_of special
    simp only [special, false_or, if_false]
    have small : -2 ^ 31 ≤ wrap32 (dt.m_microseconds + microseconds) ∧
        wrap32 (dt.m_microseconds + microseconds) < 2 ^ 31 := by
      simp only [wrap32, Int.bmod_def]
      omega
    generalize wrap32 (dt.m_microseconds + microseconds) = sum at small
    have unwrapped : WithinLimits (wrap64 (dt.m_seconds + sum / MICROSECONDS_PER_SECOND)) ↔
        WithinLimits (dt.m_seconds + sum / MICROSECONDS_PER_SECOND) :=
      within_wrap64_iff normal.seconds (by simp only [MICROSECONDS_PER_SECOND]; omega)
    have checked := normalizeTime_ok_iff dt.m_seconds sum
    rw [unwrapped] at checked
    cases normalized : normalizeTime dt.m_seconds sum with
    | ok result =>
        have stored := (normalizeTime_normal normalized).invariant
        exact iff_of_true stored (checked.mp ⟨result, normalized⟩)
    | error exception =>
        have outside : ¬ WithinLimits (dt.m_seconds + sum / MICROSECONDS_PER_SECOND) := by
          intro within
          obtain ⟨result, returned⟩ := checked.mpr within
          rw [normalized] at returned
          cases returned
        refine ⟨fun stored => ?_, fun within => absurd within outside⟩
        -- The stored microseconds stand for no second only in a normal time or in NADT.
        rcases (@invariant_iff ⟨dt.m_seconds, sum⟩ normal.seconds).mp stored with plain | isNADT
        · dsimp only at plain
          unfold haveSpecialValue at plain
          have none : sum / MICROSECONDS_PER_SECOND = 0 := by
            simp only [MICROSECONDS_PER_SECOND] at plain ⊢
            omega
          rw [none, add_zero] at outside
          exact absurd normal.seconds outside
        · obtain ⟨isZero, isSecond⟩ := DateTime.mk.inj isNADT
          rw [isZero, isSecond] at outside
          exact absurd (by decide) outside

end DateTime

theorem validateRange_ok {value minValue maxValue : Int} {str : String} {answer : Unit}
    (ok : validateRange value minValue maxValue str = .ok answer) :
    minValue ≤ value ∧ value ≤ maxValue := by
  unfold validateRange at ok
  split at ok
  · cases ok
  · omega

/-- The check of all ranges leaves no whole second in the microseconds. -/
theorem validateRanges_short {parsed : Parsed} {str : String} {answer : Unit}
    (ok : validateRanges parsed str = .ok answer) (timeOffset : ETimeOffset) :
    (parsed.fields timeOffset).microseconds.toNat < 1000000 := by
  obtain ⟨_, -, ok⟩ := bind_eq_ok.mp ok
  obtain ⟨_, -, ok⟩ := bind_eq_ok.mp ok
  obtain ⟨_, -, ok⟩ := bind_eq_ok.mp ok
  obtain ⟨_, -, ok⟩ := bind_eq_ok.mp ok
  obtain ⟨_, -, ok⟩ := bind_eq_ok.mp ok
  obtain ⟨_, -, ok⟩ := bind_eq_ok.mp ok
  have range := validateRange_ok ok
  simp only [MICROSECONDS_PER_SECOND] at range
  simp only [Parsed.fields, UInt32.ofInt, UInt32.toNat_ofNat']
  omega

/-- The string never gives a whole second in the microseconds. -/
theorem parse_short {str : Text} {fields : DateTime.Fields} (ok : parse str = .ok fields) :
    fields.microseconds.toNat < 1000000 := by
  obtain ⟨answer, cim, ok⟩ := bind_eq_ok.mp ok
  cases answer with
  | some inCIM =>
      obtain rfl := Except.ok.inj ok
      unfold readCIM at cim
      split at cim
      · dsimp only at cim
        split at cim
        · cases cim
        · obtain ⟨_, validated, cim⟩ := bind_eq_ok.mp cim
          split at cim
          · cases cim
          · obtain rfl := Option.some.inj (Except.ok.inj cim)
            exact validateRanges_short validated .utcTime
      · cases cim
  | none =>
      dsimp only at ok
      unfold readFreeForm at ok
      split at ok
      · cases ok
      · obtain ⟨found, -, ok⟩ := bind_eq_ok.mp ok
        unfold readFields at ok
        split at ok
        · dsimp only at ok
          split at ok
          · cases ok
          · split at ok
            · cases ok
            · obtain ⟨_, validated, ok⟩ := bind_eq_ok.mp ok
              split at ok
              · obtain rfl := Except.ok.inj ok
                exact validateRanges_short validated .localTime
              · obtain ⟨_, adjusted, ok⟩ := bind_eq_ok.mp ok
                obtain rfl := Except.ok.inj ok
                exact validateRanges_short adjusted .utcTime
        · cases ok

/-- The calls that make an object. Those that make it from another object hold that object. -/
inductive Construction where
  | default
  | special (timeValue : ESpecialTime)
  | timeT (t microseconds : Int)
  | fields (library : CLibrary) (arguments : DateTime.Fields)
  | string (library : CLibrary) (str : Text)
  | copy (x : DateTime)
  | neg (x : DateTime)
  | add (x : DateTime) (td : TimeDuration)
  | sub (x : DateTime) (td : TimeDuration)

def Construction.operand : Construction → Option DateTime
  | .copy x | .neg x | .add x _ | .sub x _ => some x
  | _ => none

def Construction.run : Construction → Except DateTimeException DateTime
  | .default => .ok .epoch
  | .special timeValue => .ok (.ofSpecial timeValue)
  | .timeT t microseconds => DateTime.ofTimeT t microseconds
  | .fields library arguments => DateTime.set library arguments
  | .string library str => DateTime.ofString library str
  | .copy x => .ok x
  | .neg x => x.neg
  | .add x td => x.add td
  | .sub x td => x.sub td

/-- The calls that change an object. The operators with `long` are `addSeconds`. -/
inductive Mutation where
  | setTimeT (t microseconds : Int)
  | set (library : CLibrary) (fields : DateTime.Fields)
  | setHour (library : CLibrary) (hour : Int) (timeOffset : ETimeOffset)
  | setMinute (library : CLibrary) (minute : Int) (timeOffset : ETimeOffset)
  | setSecond (library : CLibrary) (second : Int) (timeOffset : ETimeOffset)
  | setTime (library : CLibrary) (hour minute second : Int) (timeOffset : ETimeOffset)
  | setDay (library : CLibrary) (day : Int) (timeOffset : ETimeOffset)
  | setMonth (library : CLibrary) (month : Int) (timeOffset : ETimeOffset)
  | setYear (library : CLibrary) (year : Int) (timeOffset : ETimeOffset)
  | setMicrosecond (microseconds : Int)
  | addDays (library : CLibrary) (days : Int)
  | addMonths (library : CLibrary) (months : Int)
  | addYears (library : CLibrary) (years : Int)
  | addSeconds (seconds : Int64)
  | addMinutes (minutes : Int64)
  | addHours (hours : Int64)
  | addMicroseconds (microseconds : Int64)
  | addAssign (td : TimeDuration)
  | subAssign (td : TimeDuration)

/-- A call that throws leaves the object as it is. -/
def DateTime.unlessThrown (dt : DateTime) : Except DateTimeException DateTime → DateTime
  | .ok changed => changed
  | .error _ => dt

/-- The object after the call. -/
def Mutation.after (dt : DateTime) : Mutation → DateTime
  | .setTimeT t microseconds => dt.unlessThrown (DateTime.ofTimeT t microseconds)
  | .set library fields => dt.unlessThrown (DateTime.set library fields)
  | .setHour library hour timeOffset => dt.unlessThrown (dt.setHour library timeOffset hour)
  | .setMinute library minute timeOffset =>
      dt.unlessThrown (dt.setMinute library timeOffset minute)
  | .setSecond library second timeOffset =>
      dt.unlessThrown (dt.setSecond library timeOffset second)
  | .setTime library hour minute second timeOffset =>
      dt.unlessThrown (dt.setTime library timeOffset hour minute second)
  | .setDay library day timeOffset => dt.unlessThrown (dt.setDay library timeOffset day)
  | .setMonth library month timeOffset => dt.unlessThrown (dt.setMonth library timeOffset month)
  | .setYear library year timeOffset => dt.unlessThrown (dt.setYear library timeOffset year)
  | .setMicrosecond microseconds => dt.unlessThrown (dt.setMicrosecond microseconds)
  | .addDays library days => dt.unlessThrown (dt.addDays library days)
  | .addMonths library months => dt.unlessThrown (dt.addMonths library months)
  | .addYears library years => dt.unlessThrown (dt.addYears library years)
  | .addSeconds seconds => dt.addSeconds seconds.toInt
  | .addMinutes minutes => dt.addMinutes minutes.toInt
  | .addHours hours => dt.addHours hours.toInt
  | .addMicroseconds microseconds => (dt.addMicroseconds microseconds.toInt).1
  | .addAssign td => dt.unlessThrown (dt.add td)
  | .subAssign td => dt.unlessThrown (dt.sub td)

/-- The condition under which a construction keeps the invariant. -/
def Construction.Keeps : Construction → Prop
  | .fields library arguments => arguments.Keep library
  | _ => True

/-- The condition under which a call on the object keeps the invariant. -/
def Mutation.Keeps (dt : DateTime) : Mutation → Prop
  | .set library fields => fields.Keep library
  | .addSeconds seconds =>
      haveSpecialValue dt.m_microseconds ∨ WithinLimits (dt.m_seconds + seconds.toInt)
  | .addMinutes minutes =>
      haveSpecialValue dt.m_microseconds ∨
        WithinLimits (dt.m_seconds + wrap64 (minutes.toInt * 60))
  | .addHours hours =>
      haveSpecialValue dt.m_microseconds ∨
        WithinLimits (dt.m_seconds + wrap64 (wrap64 (hours.toInt * 60) * 60))
  | .addMicroseconds microseconds =>
      haveSpecialValue dt.m_microseconds ∨
        WithinLimits (dt.m_seconds +
          wrap32 (dt.m_microseconds + microseconds.toInt) / MICROSECONDS_PER_SECOND)
  | _ => True

/-- A constructed object has the invariant exactly under the condition. -/
theorem Construction.keeps_iff (construction : Construction)
    (holds : ∀ x ∈ construction.operand, x.Invariant) :
    (∀ dt, construction.run = .ok dt → dt.Invariant) ↔ construction.Keeps := by
  cases construction with
  | default =>
      refine ⟨fun _ => trivial, ?_⟩
      rintro - dt ok
      obtain rfl := Except.ok.inj ok
      exact DateTime.ofSpecial_invariant .notSpecial
  | special timeValue =>
      refine ⟨fun _ => trivial, ?_⟩
      rintro - dt ok
      obtain rfl := Except.ok.inj ok
      exact DateTime.ofSpecial_invariant timeValue
  | timeT t microseconds =>
      exact ⟨fun _ => trivial, fun _ dt ok => (DateTime.ofTimeT_normal ok).invariant⟩
  | fields library arguments => exact DateTime.set_invariant_iff library arguments
  | string library str =>
      refine ⟨fun _ => trivial, ?_⟩
      rintro - dt ok
      obtain ⟨fields, parsed, ok⟩ := bind_eq_ok.mp ok
      exact (DateTime.set_invariant_iff library fields).mpr (.inl (parse_short parsed)) dt ok
  | copy x =>
      refine ⟨fun _ => trivial, ?_⟩
      rintro - dt ok
      obtain rfl := Except.ok.inj ok
      exact holds x rfl
  | neg x => exact ⟨fun _ => trivial, fun _ dt ok => DateTime.neg_invariant (holds x rfl) ok⟩
  | add x td => exact ⟨fun _ => trivial, fun _ dt ok => DateTime.add_invariant (holds x rfl) ok⟩
  | sub x td => exact ⟨fun _ => trivial, fun _ dt ok => DateTime.add_invariant (holds x rfl) ok⟩

theorem DateTime.unlessThrown_iff {dt : DateTime} (holds : dt.Invariant)
    (result : Except DateTimeException DateTime) :
    (dt.unlessThrown result).Invariant ↔ ∀ changed, result = .ok changed → changed.Invariant := by
  cases result with
  | error exception =>
      refine ⟨?_, fun _ => holds⟩
      intro _ changed impossible
      cases impossible
  | ok stored =>
      refine ⟨?_, fun all => all stored rfl⟩
      intro kept changed same
      obtain rfl := Except.ok.inj same
      exact kept

/-- A changed object has the invariant exactly under the condition. -/
theorem Mutation.keeps_iff {dt : DateTime} (holds : dt.Invariant) (mutation : Mutation) :
    (mutation.after dt).Invariant ↔ mutation.Keeps dt := by
  -- The calls without a condition are those that store a checked time or leave the object.
  have checked {result : Except DateTimeException DateTime}
      (all : ∀ changed, result = .ok changed → changed.Invariant) :
      (dt.unlessThrown result).Invariant ↔ True :=
    iff_true_intro ((DateTime.unlessThrown_iff holds result).mpr all)
  have changed {library : CLibrary} {timeOffset : ETimeOffset}
      {change : Tm → Except DateTimeException Tm} :
      (dt.unlessThrown (dt.changeTm library timeOffset change)).Invariant ↔ True :=
    checked fun _ ok => (DateTime.changeTm_normal holds ok).invariant
  have added {library : CLibrary} {change : Tm → Except DateTimeException Tm} :
      (dt.unlessThrown (if haveSpecialValue dt.m_microseconds then Except.ok dt
        else dt.changeTm library .utcTime change)).Invariant ↔ True :=
    checked fun _ ok => DateTime.unlessSpecial_invariant holds ok
  cases mutation with
  | setTimeT t microseconds => exact checked fun _ ok => (DateTime.ofTimeT_normal ok).invariant
  | set library fields =>
      exact (DateTime.unlessThrown_iff holds _).trans (DateTime.set_invariant_iff library fields)
  | setHour library hour timeOffset => exact changed
  | setMinute library minute timeOffset => exact changed
  | setSecond library second timeOffset => exact changed
  | setTime library hour minute second timeOffset => exact changed
  | setDay library day timeOffset => exact changed
  | setMonth library month timeOffset =>
      refine checked ?_
      intro stored ok
      unfold DateTime.setMonth at ok
      split at ok
      · cases ok
      · exact (DateTime.changeTm_normal holds ok).invariant
  | setYear library year timeOffset =>
      refine checked ?_
      intro stored ok
      unfold DateTime.setYear at ok
      split at ok
      · cases ok
      · exact (DateTime.changeTm_normal holds ok).invariant
  | setMicrosecond microseconds =>
      exact checked fun _ ok => (DateTime.setMicrosecond_normal holds ok).invariant
  | addDays library days => exact added
  | addMonths library months => exact added
  | addYears library years => exact added
  | addSeconds seconds =>
      exact DateTime.addSeconds_invariant_iff holds ⟨seconds.le_toInt, seconds.toInt_lt⟩
  | addMinutes minutes => exact DateTime.addSeconds_invariant_iff holds (DateTime.wrap64_fits _)
  | addHours hours => exact DateTime.addSeconds_invariant_iff holds (DateTime.wrap64_fits _)
  | addMicroseconds microseconds => exact DateTime.addMicroseconds_invariant_iff holds _
  | addAssign td => exact checked fun _ ok => DateTime.add_invariant holds ok
  | subAssign td => exact checked fun _ ok => DateTime.add_invariant holds ok

/-- A call makes an object or changes one of the objects. -/
inductive Call where
  | construct (construction : Construction)
  | mutate (index : Nat) (mutation : Mutation)

/-- The objects start empty. A construction that throws makes no object. -/
inductive Step : List DateTime → Call → List DateTime → Prop
  | constructed {objects : List DateTime} {construction : Construction} {dt : DateTime}
      (operand : ∀ x ∈ construction.operand, x ∈ objects) (ok : construction.run = .ok dt) :
      Step objects (.construct construction) (objects ++ [dt])
  | threw {objects : List DateTime} {construction : Construction} {exception : DateTimeException}
      (operand : ∀ x ∈ construction.operand, x ∈ objects)
      (error : construction.run = .error exception) :
      Step objects (.construct construction) objects
  | mutated {objects : List DateTime} {index : Nat} {dt : DateTime} (mutation : Mutation)
      (object : objects[index]? = some dt) :
      Step objects (.mutate index mutation) (objects.set index (mutation.after dt))

def system : TransitionSystem (List DateTime) Call where
  initial objects := objects = []
  step := Step

/-- The condition of one call. -/
def Call.Keeps (objects : List DateTime) : Call → Prop
  | .construct construction => construction.Keeps
  | .mutate index mutation => ∀ dt ∈ objects[index]?, mutation.Keeps dt

/-- Every object satisfies the invariant of the source. -/
def AllInvariant (objects : List DateTime) : Prop := ∀ dt ∈ objects, dt.Invariant

/-- One call keeps the invariant of all objects exactly under its condition. -/
theorem Step.invariant_iff {objects next : List DateTime} {call : Call}
    (step : Step objects call next) (all : AllInvariant objects) :
    AllInvariant next ↔ call.Keeps objects := by
  cases step with
  | @constructed construction dt operand ok =>
      have holds : ∀ x ∈ construction.operand, x.Invariant :=
        fun x member => all x (operand x member)
      have kept := construction.keeps_iff holds
      simp only [Call.Keeps, ← kept, AllInvariant, List.forall_mem_append,
        List.forall_mem_singleton]
      constructor
      · rintro ⟨-, made⟩ other same
        obtain rfl := Except.ok.inj (ok.symm.trans same)
        exact made
      · intro made
        exact ⟨all, made dt ok⟩
  | @threw construction exception operand error =>
      have holds : ∀ x ∈ construction.operand, x.Invariant :=
        fun x member => all x (operand x member)
      have kept := construction.keeps_iff holds
      simp only [Call.Keeps, ← kept]
      refine ⟨?_, fun _ => all⟩
      rintro - dt ok
      cases error.symm.trans ok
  | @mutated index dt mutation object =>
      have kept := mutation.keeps_iff (all dt (List.mem_of_getElem? object))
      obtain ⟨bound, isObject⟩ := List.getElem?_eq_some_iff.mp object
      simp only [Call.Keeps, object, Option.mem_def, Option.some.injEq, forall_eq', ← kept]
      constructor
      · intro stored
        exact stored _ (List.mem_set bound _)
      · intro changed other member
        rcases List.mem_or_eq_of_mem_set member with old | rfl
        · exact all other old
        · exact changed

/-- Along any run of calls the objects keep the invariant exactly when each call meets its
condition. -/
theorem class_invariant_iff {steps : List (TransitionSystem.Transition (List DateTime) Call)}
    (run : system.Run [] steps) :
    (∀ step ∈ steps, AllInvariant step.target) ↔
      ∀ step ∈ steps, step.label.Keeps step.source :=
  run.property_iff_condition (fun _ all => all)
    (fun _ _ _ all taken met => (Step.invariant_iff taken all).mpr met)
    (fun _ _ _ all taken kept => (Step.invariant_iff taken all).mp kept)
    (by simp [AllInvariant])

/-- A default construction, and then one and a half seconds after the epoch in microseconds. -/
def wholeSecondRun (library : CLibrary) :
    List (TransitionSystem.Transition (List DateTime) Call) :=
  [⟨[], .construct .default, [.epoch]⟩,
    ⟨[.epoch], .mutate 0 (.set library ⟨1970, 1, 1, 0, 0, 0, 1500000, .utcTime⟩),
      [⟨1, 1500000⟩]⟩]

/-- A C library whose calls are not reached with the offset of UTC. -/
def idleLibrary : CLibrary := ⟨fun _ => ⟨0, 0, 0, 1, 0, 70, 0⟩, fun _ => ⟨0, 0, 0, 1, 0, 70, 0⟩,
  fun _ => (0, 0)⟩

theorem wholeSecondRun_isRun : system.Run [] (wholeSecondRun idleLibrary) := by
  refine .cons (.constructed (by decide) rfl) (.cons ?_ (.nil _))
  have stored : DateTime.set idleLibrary ⟨1970, 1, 1, 0, 0, 0, 1500000, .utcTime⟩ =
      .ok ⟨1, 1500000⟩ := by
    decide +kernel
  have step := @Step.mutated [.epoch] 0 _
    (.set idleLibrary ⟨1970, 1, 1, 0, 0, 0, 1500000, .utcTime⟩) rfl
  rw [Mutation.after, stored] at step
  exact step

theorem class_invariant_iff_wholeSecondRun :
    (∀ step ∈ wholeSecondRun idleLibrary, AllInvariant step.target) ↔
      ∀ step ∈ wholeSecondRun idleLibrary, step.label.Keeps step.source :=
  class_invariant_iff wholeSecondRun_isRun

/-- The object of the run stands for no time, since all the microseconds were stored. -/
theorem wholeSecond_not_invariant :
    system.Run [] (wholeSecondRun idleLibrary) ∧
      ¬ ∀ step ∈ wholeSecondRun idleLibrary, AllInvariant step.target := by
  refine ⟨wholeSecondRun_isRun, ?_⟩
  intro all
  have holds := all _ (List.mem_cons_of_mem _ List.mem_cons_self) ⟨1, 1500000⟩
    List.mem_cons_self
  rw [DateTime.invariant_iff (by decide)] at holds
  exact absurd holds (by decide)

end Blocxx.Time
