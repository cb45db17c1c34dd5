import Blocxx.DateTime.Invariant

/-!
This file proves that the sums and differences of times and durations are exact.
-/

namespace Blocxx.Time

/-- The duration is one that an `Int64` holds. -/
def TimeDuration.Stored (td : TimeDuration) : Prop :=
  -2 ^ 63 ≤ td.m_microseconds ∧ td.m_microseconds < 2 ^ 63

/-- The microseconds are those of a time within the limits. -/
def TotalWithinLimits (total : Int) : Prop :=
  DATETIME_MINIMUM_TIME * MICROSECONDS_PER_SECOND ≤ total ∧
    total < (DATETIME_MAXIMUM_TIME + 1) * MICROSECONDS_PER_SECOND

namespace DateTime

/-- The microseconds since the epoch. -/
def total (dt : DateTime) : Int := dt.m_seconds * MICROSECONDS_PER_SECOND + dt.m_microseconds

section Normal

/-- A call gives the time of the total, or throws when that is outside of the limits. -/
structure Gives (call : Except DateTimeException DateTime) (total : Int) : Prop where
  within : TotalWithinLimits total → ∃ dt, call = .ok dt ∧ dt.IsNormal ∧ dt.total = total
  outside : ¬ TotalWithinLimits total → ∃ exception, call = .error exception

theorem IsNormal.total_within {dt : DateTime} (normal : dt.IsNormal) :
    TotalWithinLimits dt.total := by
  obtain ⟨⟨low, high⟩, least, most⟩ := normal
  simp only [TotalWithinLimits, total, DATETIME_MINIMUM_TIME, DATETIME_MAXIMUM_TIME,
    MICROSECONDS_PER_SECOND] at *
  omega

theorem IsNormal.eq_of_total {dt other : DateTime} (normal : dt.IsNormal)
    (otherNormal : other.IsNormal) (same : dt.total = other.total) : dt = other := by
  obtain ⟨-, least, most⟩ := normal
  obtain ⟨-, otherLeast, otherMost⟩ := otherNormal
  simp only [total, MICROSECONDS_PER_SECOND] at *
  have seconds : dt.m_seconds = other.m_seconds := by omega
  have microseconds : dt.m_microseconds = other.m_microseconds := by omega
  cases dt
  cases other
  cases seconds
  cases microseconds
  rfl

theorem IsNormal.flag {dt : DateTime} (normal : dt.IsNormal) :
    dt.getSpecialTimeFlag = .notSpecial := by
  obtain ⟨-, least, most⟩ := normal
  rw [getSpecialTimeFlag, if_neg (by omega), if_pos most]

/-- The microseconds are carried into the seconds without a wrap. -/
theorem ofTimeT_gives {t microseconds : Int} (small : -2 ^ 62 ≤ t ∧ t < 2 ^ 62)
    (fits : -2 ^ 31 ≤ microseconds ∧ microseconds < 2 ^ 31) :
    Gives (ofTimeT t microseconds) (t * MICROSECONDS_PER_SECOND + microseconds) := by
  have floor := divFloor_remFloor (show 0 < MICROSECONDS_PER_SECOND by decide) microseconds
  have carried : wrap64 (t + microseconds / MICROSECONDS_PER_SECOND) =
      t + microseconds / MICROSECONDS_PER_SECOND := by
    simp only [wrap64, Int.bmod_def, MICROSECONDS_PER_SECOND]
    omega
  have limits : TotalWithinLimits (t * MICROSECONDS_PER_SECOND + microseconds) ↔
      WithinLimits (t + microseconds / MICROSECONDS_PER_SECOND) := by
    simp only [TotalWithinLimits, WithinLimits, DATETIME_MINIMUM_TIME, DATETIME_MAXIMUM_TIME,
      MICROSECONDS_PER_SECOND]
    omega
  rw [ofTimeT, normalizeTime, floor.1, floor.2, carried]
  constructor
  · intro within
    have inside := limits.mp within
    unfold WithinLimits at inside
    refine ⟨⟨t + microseconds / MICROSECONDS_PER_SECOND, microseconds % MICROSECONDS_PER_SECOND⟩,
      ?_, ⟨inside, ?_, ?_⟩, ?_⟩
    · rw [if_neg (by omega)]
      rfl
    · exact Int.emod_nonneg _ (by decide)
    · exact Int.emod_lt_of_pos _ (by decide)
    · simp only [total, MICROSECONDS_PER_SECOND]
      omega
  · intro without
    have outside := mt limits.mpr without
    unfold WithinLimits at outside
    rw [if_pos (by omega)]
    exact ⟨_, rfl⟩

/-- A duration that does not wrap is split into seconds and up to a million microseconds. -/
theorem duration_split {td : TimeDuration} (stored : td.Stored)
    (most : -2 ^ 63 + 1000000 ≤ td.m_microseconds) :
    0 ≤ td.microsecondInSecond ∧ td.microsecondInSecond ≤ 1000000 ∧
      (wrap64 (td.m_microseconds - td.microsecondInSecond)).tdiv MICROSECONDS_PER_SECOND *
        MICROSECONDS_PER_SECOND + td.microsecondInSecond = td.m_microseconds := by
  obtain ⟨low, high⟩ := stored
  have fits {seconds rest : Int} (split : td.m_microseconds = seconds * 1000000 + rest)
      (short : 0 ≤ rest ∧ rest ≤ 1000000) :
      (wrap64 (td.m_microseconds - rest)).tdiv 1000000 * 1000000 + rest = td.m_microseconds := by
    have whole : wrap64 (td.m_microseconds - rest) = seconds * 1000000 := by
      simp only [wrap64, Int.bmod_def]
      omega
    rw [whole, Int.mul_tdiv_cancel _ (by decide)]
    omega
  simp only [TimeDuration.microsecondInSecond, MICROSECONDS_PER_SECOND]
  by_cases negative : td.m_microseconds < 0
  · have opposite : wrap64 (-td.m_microseconds) = -td.m_microseconds := by
      simp only [wrap64, Int.bmod_def]
      omega
    have rest : wrap32 (1000000 - -td.m_microseconds % 1000000) =
        1000000 - -td.m_microseconds % 1000000 := by
      simp only [wrap32, Int.bmod_def]
      omega
    rw [if_pos negative, opposite, Int.tmod_eq_emod_of_nonneg (by omega), rest]
    refine ⟨by omega, by omega, ?_⟩
    exact @fits (-(-td.m_microseconds / 1000000 + 1)) _ (by omega) (by omega)
  · rw [if_neg negative, Int.tmod_eq_emod_of_nonneg (by omega)]
    refine ⟨by omega, by omega, ?_⟩
    exact @fits (td.m_microseconds / 1000000) _ (by omega) (by omega)

/-- A duration that wraps is so long that no time can be within the limits after it. -/
theorem duration_wraps {td : TimeDuration} (stored : td.Stored)
    (least : td.m_microseconds < -2 ^ 63 + 1000000) :
    0 ≤ td.microsecondInSecond ∧ td.microsecondInSecond ≤ 2000000 ∧
      (9000000000000 ≤ (wrap64 (td.m_microseconds - td.microsecondInSecond)).tdiv
          MICROSECONDS_PER_SECOND ∨
        (wrap64 (td.m_microseconds - td.microsecondInSecond)).tdiv MICROSECONDS_PER_SECOND ≤
          -9000000000000) ∧
      -10000000000000 ≤ (wrap64 (td.m_microseconds - td.microsecondInSecond)).tdiv
        MICROSECONDS_PER_SECOND ∧
      (wrap64 (td.m_microseconds - td.microsecondInSecond)).tdiv MICROSECONDS_PER_SECOND ≤
        10000000000000 := by
  obtain ⟨low, high⟩ := stored
  have rest : 0 ≤ td.microsecondInSecond ∧ td.microsecondInSecond ≤ 2000000 := by
    simp only [TimeDuration.microsecondInSecond, MICROSECONDS_PER_SECOND]
    rw [if_pos (by omega)]
    rcases (by omega : td.m_microseconds = -2 ^ 63 ∨ -2 ^ 63 < td.m_microseconds) with first | other
    · rw [first]
      decide
    · have opposite : wrap64 (-td.m_microseconds) = -td.m_microseconds := by
        simp only [wrap64, Int.bmod_def]
        omega
      rw [opposite, Int.tmod_eq_emod_of_nonneg (by omega)]
      simp only [wrap32, Int.bmod_def]
      omega
  refine ⟨rest.1, rest.2, ?_⟩
  generalize td.microsecondInSecond = short at rest
  have ends : wrap64 (td.m_microseconds - short) < -2 ^ 63 + 1000000 ∧
        -2 ^ 63 ≤ wrap64 (td.m_microseconds - short) ∨
      2 ^ 63 - 3000000 ≤ wrap64 (td.m_microseconds - short) ∧
        wrap64 (td.m_microseconds - short) < 2 ^ 63 := by
    simp only [wrap64, Int.bmod_def]
    omega
  generalize wrap64 (td.m_microseconds - short) = difference at ends
  simp only [MICROSECONDS_PER_SECOND]
  rcases ends with ⟨negative, bound⟩ | ⟨positive, bound⟩
  · rw [← neg_neg difference, Int.neg_tdiv, Int.tdiv_eq_ediv_of_nonneg (by omega)]
    omega
  · rw [Int.tdiv_eq_ediv_of_nonneg (by omega)]
    omega

/-- The sum of a normal time and a duration is the time of the sum of their microseconds. -/
theorem add_gives {dt : DateTime} {td : TimeDuration} (normal : dt.IsNormal)
    (plain : td.m_special = .notSpecial) (stored : td.Stored) :
    Gives (dt.add td) (dt.total + td.m_microseconds) := by
  have sum : dt.add td = ofTimeT (wrap64 (dt.m_seconds +
      (wrap64 (td.m_microseconds - td.microsecondInSecond)).tdiv MICROSECONDS_PER_SECOND))
        (wrap32 (dt.m_microseconds + td.microsecondInSecond)) := by
    simp [add, normal.flag, plain]
  have range : TotalWithinLimits dt.total := normal.total_within
  obtain ⟨⟨low, high⟩, least, most⟩ := normal
  simp only [DATETIME_MINIMUM_TIME, DATETIME_MAXIMUM_TIME] at low high
  simp only [MICROSECONDS_PER_SECOND] at most
  have unwrapped {seconds short : Int}
      (bounds : -10000000000000 ≤ seconds ∧ seconds ≤ 10000000000000)
      (rest : 0 ≤ short ∧ short ≤ 2000000) :
      Gives (ofTimeT (wrap64 (dt.m_seconds + seconds)) (wrap32 (dt.m_microseconds + short)))
        (dt.total + (seconds * MICROSECONDS_PER_SECOND + short)) := by
    have whole : wrap64 (dt.m_seconds + seconds) = dt.m_seconds + seconds := by
      simp only [wrap64, Int.bmod_def]
      omega
    have part : wrap32 (dt.m_microseconds + short) = dt.m_microseconds + short := by
      simp only [wrap32, Int.bmod_def]
      omega
    have total : dt.total + (seconds * MICROSECONDS_PER_SECOND + short) =
        (dt.m_seconds + seconds) * MICROSECONDS_PER_SECOND + (dt.m_microseconds + short) := by
      simp only [DateTime.total, MICROSECONDS_PER_SECOND]
      omega
    rw [whole, part, total]
    exact ofTimeT_gives (by omega) (by omega)
  rw [sum]
  by_cases most : -2 ^ 63 + 1000000 ≤ td.m_microseconds
  · obtain ⟨positive, short, split⟩ := duration_split stored most
    obtain ⟨bottom, top⟩ := stored
    generalize (wrap64 (td.m_microseconds - td.microsecondInSecond)).tdiv
      MICROSECONDS_PER_SECOND = seconds at split ⊢
    generalize td.microsecondInSecond = rest at positive short split ⊢
    rw [← split]
    simp only [MICROSECONDS_PER_SECOND] at split
    exact unwrapped ⟨by omega, by omega⟩ ⟨positive, by omega⟩
  · obtain ⟨positive, short, far, bottom, top⟩ := duration_wraps stored (by omega)
    have gives := unwrapped ⟨bottom, top⟩ ⟨positive, short⟩
    obtain ⟨least, -⟩ := stored
    simp only [TotalWithinLimits, DATETIME_MINIMUM_TIME, DATETIME_MAXIMUM_TIME,
      MICROSECONDS_PER_SECOND] at range gives far ⊢
    refine ⟨fun within => ?_, fun _ => gives.outside ?_⟩
    · simp only [TotalWithinLimits, DATETIME_MINIMUM_TIME, DATETIME_MAXIMUM_TIME,
        MICROSECONDS_PER_SECOND] at within
      omega
    · simp only [TotalWithinLimits, DATETIME_MINIMUM_TIME, DATETIME_MAXIMUM_TIME,
        MICROSECONDS_PER_SECOND]
      omega

/-- The difference of normal times is that of their microseconds. -/
theorem difference_normal {x y : DateTime} (normal : x.IsNormal) (otherNormal : y.IsNormal) :
    x.difference y = .ofMicroseconds (x.total - y.total) := by
  have plain : x.difference y = .ofMicroseconds (wrap64 (wrap64 (wrap64 (x.m_seconds -
      y.m_seconds) * MICROSECONDS_PER_SECOND) +
        wrap32 (x.m_microseconds - y.m_microseconds))) := by
    simp [difference, normal.flag, otherNormal.flag]
  obtain ⟨⟨low, high⟩, least, most⟩ := normal
  obtain ⟨⟨otherLow, otherHigh⟩, otherLeast, otherMost⟩ := otherNormal
  simp only [DATETIME_MINIMUM_TIME, DATETIME_MAXIMUM_TIME, MICROSECONDS_PER_SECOND] at *
  have seconds : wrap64 (x.m_seconds - y.m_seconds) = x.m_seconds - y.m_seconds := by
    simp only [wrap64, Int.bmod_def]
    omega
  have microseconds : wrap32 (x.m_microseconds - y.m_microseconds) =
      x.m_microseconds - y.m_microseconds := by
    simp only [wrap32, Int.bmod_def]
    omega
  rw [plain, seconds, microseconds]
  congr 1
  simp only [total, wrap64, Int.bmod_def, MICROSECONDS_PER_SECOND]
  omega

/-- The opposite of a duration that has one. -/
theorem neg_plain {td : TimeDuration} (plain : td.m_special = .notSpecial) :
    td.neg = .ofMicroseconds (wrap64 (-td.m_microseconds)) := by
  unfold TimeDuration.neg
  rw [plain]

/-- The subtraction is exact as well. -/
theorem sub_gives {dt : DateTime} {td : TimeDuration} (normal : dt.IsNormal)
    (plain : td.m_special = .notSpecial) (stored : td.Stored) :
    Gives (dt.sub td) (dt.total - td.m_microseconds) := by
  have range : TotalWithinLimits dt.total := normal.total_within
  have gives := @add_gives dt td.neg normal (by rw [neg_plain plain]; rfl)
    (by rw [neg_plain plain]; exact wrap64_fits _)
  rw [neg_plain plain] at gives
  obtain ⟨low, high⟩ := stored
  rcases (by omega : td.m_microseconds = -2 ^ 63 ∨ -2 ^ 63 < td.m_microseconds) with first | other
  · -- The opposite of the least duration is itself, and both totals are far outside.
    rw [first] at gives ⊢
    rw [sub, neg_plain plain, first]
    simp only [TotalWithinLimits, DATETIME_MINIMUM_TIME, DATETIME_MAXIMUM_TIME,
      MICROSECONDS_PER_SECOND] at range
    refine ⟨fun within => ?_, fun _ => gives.outside ?_⟩
    · simp only [TotalWithinLimits, DATETIME_MINIMUM_TIME, DATETIME_MAXIMUM_TIME,
        MICROSECONDS_PER_SECOND] at within
      omega
    · have same : (TimeDuration.ofMicroseconds (wrap64 (-(-2 ^ 63)))).m_microseconds = -2 ^ 63 := by
        decide
      rw [same]
      simp only [TotalWithinLimits, DATETIME_MINIMUM_TIME, DATETIME_MAXIMUM_TIME,
        MICROSECONDS_PER_SECOND]
      omega
  · have opposite : wrap64 (-td.m_microseconds) = -td.m_microseconds := by
      simp only [wrap64, Int.bmod_def]
      omega
    rw [opposite] at gives
    rw [sub, neg_plain plain, opposite]
    exact gives

end Normal

section Special

/-- What becomes of the special values in a sum. -/
def sumFlag : ESpecialTime → ESpecialTime → ESpecialTime
  | .nadt, _ => .nadt
  | _, .nadt => .nadt
  | .posInfinity, .negInfinity => .nadt
  | .negInfinity, .posInfinity => .nadt
  | .notSpecial, flag => flag
  | flag, _ => flag

def oppositeFlag : ESpecialTime → ESpecialTime
  | .negInfinity => .posInfinity
  | .posInfinity => .negInfinity
  | flag => flag

theorem flag_of_special {dt : DateTime} (holds : dt.Invariant)
    (special : dt.getSpecialTimeFlag ≠ .notSpecial) : dt = ofSpecial dt.getSpecialTimeFlag := by
  rcases holds with rfl | rfl | rfl | normal
  · rfl
  · rfl
  · rfl
  · exact absurd normal.flag special

theorem add_special {dt : DateTime} {td : TimeDuration} (holds : dt.Invariant)
    (special : dt.getSpecialTimeFlag ≠ .notSpecial ∨ td.m_special ≠ .notSpecial) :
    dt.add td = .ok (ofSpecial (sumFlag dt.getSpecialTimeFlag td.m_special)) := by
  have kept {flag : ESpecialTime} (is : dt.getSpecialTimeFlag = flag)
      (isSpecial : flag ≠ .notSpecial) : ofSpecial flag = dt := by
    subst is
    exact (flag_of_special holds isSpecial).symm
  unfold add
  dsimp only
  cases first : dt.getSpecialTimeFlag with
  | negInfinity =>
      cases td.m_special <;> simp [sumFlag, getNADT, kept first]
  | notSpecial =>
      cases second : td.m_special <;>
        simp_all [sumFlag, getNADT, getPosInfinity, getNegInfinity]
  | posInfinity =>
      cases td.m_special <;> simp [sumFlag, getNADT, kept first]
  | nadt => simp [sumFlag, getNADT]

theorem difference_special {x y : DateTime}
    (special : x.getSpecialTimeFlag ≠ .notSpecial ∨ y.getSpecialTimeFlag ≠ .notSpecial) :
    x.difference y =
      .ofSpecial (sumFlag x.getSpecialTimeFlag (oppositeFlag y.getSpecialTimeFlag)) := by
  unfold difference
  dsimp only
  cases first : x.getSpecialTimeFlag <;> cases second : y.getSpecialTimeFlag <;>
    simp_all [sumFlag, oppositeFlag]

theorem neg_special (td : TimeDuration) : td.neg.m_special = oppositeFlag td.m_special := by
  unfold TimeDuration.neg
  cases special : td.m_special with
  | negInfinity => rfl
  | notSpecial => rfl
  | posInfinity => rfl
  | nadt => exact special

theorem sub_special {dt : DateTime} {td : TimeDuration} (holds : dt.Invariant)
    (special : dt.getSpecialTimeFlag ≠ .notSpecial ∨ td.m_special ≠ .notSpecial) :
    dt.sub td = .ok (ofSpecial (sumFlag dt.getSpecialTimeFlag (oppositeFlag td.m_special))) := by
  have still : dt.getSpecialTimeFlag ≠ .notSpecial ∨ td.neg.m_special ≠ .notSpecial := by
    rw [neg_special]
    rcases special with time | duration
    · exact .inl time
    · refine .inr ?_
      cases flag : td.m_special <;> simp_all [oppositeFlag]
  rw [sub, add_special holds still, neg_special]

end Special

/-- The laws of the operators for a normal time and a plain duration. -/
structure ExactSum (dt : DateTime) (td : TimeDuration) : Prop where
  within : TotalWithinLimits (dt.total + td.m_microseconds) →
    ∃ sum, dt.add td = .ok sum ∧ sum.IsNormal ∧ sum.total = dt.total + td.m_microseconds ∧
      sum.sub td = .ok dt ∧ sum.difference dt = td
  outside : ¬ TotalWithinLimits (dt.total + td.m_microseconds) →
    ∃ exception, dt.add td = .error exception
  difference : Gives (dt.sub td) (dt.total - td.m_microseconds)

theorem exactSum {dt : DateTime} {td : TimeDuration} (normal : dt.IsNormal)
    (plain : td.m_special = .notSpecial) (stored : td.Stored) : ExactSum dt td where
  within limits := by
    obtain ⟨sum, added, sumNormal, total⟩ := (add_gives normal plain stored).within limits
    have back : sum.total - td.m_microseconds = dt.total := by omega
    obtain ⟨again, subtracted, againNormal, againTotal⟩ :=
      (sub_gives sumNormal plain stored).within (by rw [back]; exact normal.total_within)
    obtain rfl := againNormal.eq_of_total normal (againTotal.trans back)
    have between : sum.total - again.total = td.m_microseconds := by omega
    refine ⟨sum, added, sumNormal, total, subtracted, ?_⟩
    rw [difference_normal sumNormal normal, between]
    cases td
    cases plain
    rfl
  outside := (add_gives normal plain stored).outside
  difference := sub_gives normal plain stored

/-- The tables of the operators for special operands. -/
structure SpecialSum (dt : DateTime) (td : TimeDuration) : Prop where
  add : dt.add td = .ok (ofSpecial (sumFlag dt.getSpecialTimeFlag td.m_special))
  sub : dt.sub td = .ok (ofSpecial (sumFlag dt.getSpecialTimeFlag (oppositeFlag td.m_special)))

/-- All the operators on times and durations are exact, or follow their tables. -/
theorem arithmetic_exact {dt : DateTime} {td : TimeDuration} (holds : dt.Invariant)
    (stored : td.Stored) :
    (dt.IsNormal → td.m_special = .notSpecial → ExactSum dt td) ∧
      (dt.getSpecialTimeFlag ≠ .notSpecial ∨ td.m_special ≠ .notSpecial → SpecialSum dt td) ∧
      ∀ y : DateTime, dt.getSpecialTimeFlag ≠ .notSpecial ∨ y.getSpecialTimeFlag ≠ .notSpecial →
        dt.difference y =
          .ofSpecial (sumFlag dt.getSpecialTimeFlag (oppositeFlag y.getSpecialTimeFlag)) :=
  ⟨fun normal plain => exactSum normal plain stored,
    fun special => ⟨add_special holds special, sub_special holds special⟩,
    fun _ special => difference_special special⟩

/-- The last microsecond before the epoch, which borrows a second. -/
theorem arithmetic_exact_beforeEpoch : ExactSum epoch (.ofMicroseconds (-1)) ∧
    SpecialSum epoch (.ofSpecial .nadt) := by
  have normal : epoch.IsNormal := ⟨by decide, by decide⟩
  exact ⟨(@arithmetic_exact epoch (.ofMicroseconds (-1)) normal.invariant
      ⟨by decide, by decide⟩).1 normal rfl,
    (@arithmetic_exact epoch (.ofSpecial .nadt) normal.invariant
      ⟨by decide, by decide⟩).2.1 (.inr (by decide))⟩

end DateTime

end Blocxx.Time
