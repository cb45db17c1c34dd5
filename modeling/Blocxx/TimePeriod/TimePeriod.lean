import Blocxx.DateTime.DateTime
import Blocxx.DateTime.Invariant

/-!
This file embeds the `TimePeriod` class and the functions on two periods, and compares them with the
operations on half-open intervals of times.
-/

namespace Blocxx.Time

def isInvalid (dt : DateTime) : Bool := dt.m_microseconds = NADT_USEC

def isPosInfinity (dt : DateTime) : Bool := dt.m_microseconds = POS_INF_USEC

/-- `std::max` and `std::min` return the first of two equal times. -/
def maxTime (a b : DateTime) : DateTime := if a.lt b then b else a

def minTime (a b : DateTime) : DateTime := if b.lt a then b else a

structure TimePeriod where
  m_start : DateTime
  m_finish : DateTime
  deriving DecidableEq

namespace TimePeriod

def normalizeEndpoints (start finish : DateTime) : DateTime × DateTime :=
  if isInvalid start ∨ isInvalid finish then (.getNADT, .getNADT)
  else if finish.le start then (.getPosInfinity, .getNegInfinity)
  else (start, finish)

/-- The default constructor. -/
def default : TimePeriod := ⟨.epoch, .epoch⟩

/-- The constructor from two times. -/
def ofEndpoints (start finish : DateTime) : TimePeriod :=
  let normal := normalizeEndpoints start finish
  ⟨normal.1, normal.2⟩

/-- The constructor from a time and a duration. The sum may throw. -/
def ofLength (start : DateTime) (length : TimeDuration) :
    Except DateTimeException TimePeriod := do
  let finish ← start.add length
  return ofEndpoints start finish

/-- The empty and the invalid period. -/
def isInvalidPeriod (p : TimePeriod) : Bool :=
  isInvalid p.m_start || isInvalid p.m_finish || isPosInfinity p.m_start

def empty (tp : TimePeriod) : Bool := tp.m_finish.le tp.m_start

def contains (tp : TimePeriod) (dt : DateTime) : Bool := tp.m_start.le dt && dt.lt tp.m_finish

def containsPeriod (tp other : TimePeriod) : Bool :=
  if isInvalid tp.m_start ∧ ¬ isInvalid other.m_start then false
  else if other.empty then true
  else tp.m_start.le other.m_start && other.m_finish.le tp.m_finish

def eq (tp1 tp2 : TimePeriod) : Bool := tp1.m_start = tp2.m_start ∧ tp1.m_finish = tp2.m_finish

def intersect (tp1 tp2 : TimePeriod) : Bool :=
  if tp1.isInvalidPeriod ∨ tp2.isInvalidPeriod then false
  else tp2.m_start.lt tp1.m_finish && tp1.m_start.lt tp2.m_finish

def intersection (tp1 tp2 : TimePeriod) : TimePeriod :=
  if intersect tp1 tp2 then
    ofEndpoints (maxTime tp1.m_start tp2.m_start) (minTime tp1.m_finish tp2.m_finish)
  else ofEndpoints .getNADT .getNADT

def span (tp1 tp2 : TimePeriod) : TimePeriod :=
  if tp1.isInvalidPeriod ∨ tp2.isInvalidPeriod then ofEndpoints .getNADT .getNADT
  else ofEndpoints (minTime tp1.m_start tp2.m_start) (maxTime tp1.m_finish tp2.m_finish)

end TimePeriod

end Blocxx.Time

namespace Blocxx.Time

open Library

/-- A time of the ordering, which leaves out the invalid one. -/
abbrev ValidTime := { dt : DateTime // dt.Invariant ∧ isInvalid dt = false }

def DateTime.key (dt : DateTime) : ℤ ×ₗ ℤ := toLex (dt.m_seconds, dt.m_microseconds)

theorem DateTime.key_injective : Function.Injective DateTime.key := by
  intro x y same
  cases x
  cases y
  cases same
  rfl

instance : LinearOrder ValidTime :=
  LinearOrder.lift' (fun time => time.val.key) fun _ _ same =>
    Subtype.ext (DateTime.key_injective same)

namespace ValidTime

theorem lt_iff (x y : ValidTime) : x.val.lt y.val = true ↔ x < y := by
  have plain (time : ValidTime) : time.val.m_microseconds ≠ NADT_USEC := by
    have valid := time.property.2
    simpa [isInvalid] using valid
  have order : x < y ↔ x.val.m_seconds < y.val.m_seconds ∨
      x.val.m_seconds = y.val.m_seconds ∧ x.val.m_microseconds < y.val.m_microseconds :=
    Prod.Lex.toLex_lt_toLex
  rw [order, DateTime.lt, if_neg (by simp [plain x, plain y])]
  by_cases same : x.val.m_seconds = y.val.m_seconds
  · simp [same]
  · simp [same]

theorem le_iff (x y : ValidTime) : x.val.le y.val = true ↔ x ≤ y := by
  have equal : x.val = y.val ↔ x = y := Subtype.ext_iff.symm
  rw [DateTime.le, decide_eq_true_iff, lt_iff, equal, le_iff_eq_or_lt]

theorem max_val (x y : ValidTime) : maxTime x.val y.val = (max x y).val := by
  unfold maxTime
  by_cases less : x < y
  · rw [if_pos ((lt_iff x y).mpr less), max_eq_right less.le]
  · rw [if_neg (mt (lt_iff x y).mp less), max_eq_left (le_of_not_gt less)]

theorem min_val (x y : ValidTime) : minTime x.val y.val = (min x y).val := by
  unfold minTime
  by_cases less : y < x
  · rw [if_pos ((lt_iff y x).mpr less), min_eq_right less.le]
  · rw [if_neg (mt (lt_iff y x).mp less), min_eq_left (le_of_not_gt less)]

def posInfinity : ValidTime := ⟨.getPosInfinity, DateTime.ofSpecial_invariant .posInfinity, rfl⟩

def negInfinity : ValidTime := ⟨.getNegInfinity, DateTime.ofSpecial_invariant .negInfinity, rfl⟩

def epoch : ValidTime := ⟨.epoch, DateTime.ofSpecial_invariant .notSpecial, rfl⟩

/-- The seconds and microseconds of the infinities are the ends of their types. -/
theorem bounds (time : ValidTime) : negInfinity ≤ time ∧ time ≤ posInfinity := by
  have order (x y : ValidTime) : x ≤ y ↔ x.val.m_seconds < y.val.m_seconds ∨
      x.val.m_seconds = y.val.m_seconds ∧ x.val.m_microseconds ≤ y.val.m_microseconds :=
    Prod.Lex.toLex_le_toLex
  rw [order, order]
  obtain ⟨time, holds, valid⟩ := time
  dsimp only
  rcases holds with rfl | rfl | rfl | normal
  · decide
  · decide
  · exact absurd valid (by decide)
  · obtain ⟨⟨low, high⟩, -⟩ := normal
    simp only [DATETIME_MINIMUM_TIME, DATETIME_MAXIMUM_TIME] at low high
    have least : negInfinity.val.m_seconds = -2 ^ 63 := rfl
    have most : posInfinity.val.m_seconds = 2 ^ 63 - 1 := rfl
    rw [least, most]
    omega

theorem posInfinity_iff (time : ValidTime) :
    isPosInfinity time.val = true ↔ time = posInfinity := by
  constructor
  · obtain ⟨time, holds, valid⟩ := time
    dsimp only
    intro infinite
    rcases holds with rfl | rfl | rfl | ⟨-, least, most⟩
    · rfl
    · exact absurd infinite (by decide)
    · exact absurd infinite (by decide)
    · have last : time.m_microseconds = POS_INF_USEC := of_decide_eq_true infinite
      simp only [POS_INF_USEC] at last
      simp only [MICROSECONDS_PER_SECOND] at most
      omega
  · rintro rfl
    rfl

end ValidTime

namespace TimePeriod

/-- The periods that the constructors make. Copies and the results of the operations are of the
same kinds. -/
inductive Constructed : TimePeriod → Prop
  | default : Constructed .default
  | endpoints {start finish : DateTime} (startHolds : start.Invariant)
      (finishHolds : finish.Invariant) : Constructed (ofEndpoints start finish)
  | length {start : DateTime} {length : TimeDuration} {period : TimePeriod}
      (startHolds : start.Invariant) (ok : ofLength start length = .ok period) :
      Constructed period

/-- A constructed period whose endpoints are valid. -/
structure Valid where
  period : TimePeriod
  constructed : Constructed period
  startValid : isInvalid period.m_start = false
  finishValid : isInvalid period.m_finish = false

theorem Constructed.invariant {period : TimePeriod} (constructed : Constructed period) :
    period.m_start.Invariant ∧ period.m_finish.Invariant := by
  have endpoints {start finish : DateTime} (startHolds : start.Invariant)
      (finishHolds : finish.Invariant) :
      (ofEndpoints start finish).m_start.Invariant ∧
        (ofEndpoints start finish).m_finish.Invariant := by
    unfold ofEndpoints normalizeEndpoints
    split
    · exact ⟨DateTime.ofSpecial_invariant .nadt, DateTime.ofSpecial_invariant .nadt⟩
    · split
      · exact ⟨DateTime.ofSpecial_invariant .posInfinity,
          DateTime.ofSpecial_invariant .negInfinity⟩
      · exact ⟨startHolds, finishHolds⟩
  cases constructed with
  | default =>
      exact ⟨DateTime.ofSpecial_invariant .notSpecial, DateTime.ofSpecial_invariant .notSpecial⟩
  | endpoints startHolds finishHolds => exact endpoints startHolds finishHolds
  | length startHolds ok =>
      obtain ⟨finish, sum, made⟩ := bind_eq_ok.mp ok
      obtain rfl := Except.ok.inj made
      exact endpoints startHolds (DateTime.add_invariant startHolds sum)

namespace Valid

def start (tp : Valid) : ValidTime :=
  ⟨tp.period.m_start, tp.constructed.invariant.1, tp.startValid⟩

def finish (tp : Valid) : ValidTime :=
  ⟨tp.period.m_finish, tp.constructed.invariant.2, tp.finishValid⟩

/-- The set of times that the period represents. -/
def times (tp : Valid) : Set ValidTime := Set.Ico tp.start tp.finish

end Valid

theorem contains_iff (tp : Valid) (t : ValidTime) :
    tp.period.contains t.val = true ↔ t ∈ tp.times := by
  rw [contains, Bool.and_eq_true]
  exact and_congr (ValidTime.le_iff tp.start t) (ValidTime.lt_iff t tp.finish)

theorem empty_iff (tp : Valid) : tp.period.empty = true ↔ tp.times = ∅ := by
  rw [Valid.times, Set.Ico_eq_empty_iff, not_lt]
  exact ValidTime.le_iff tp.finish tp.start

/-- The constructor makes a period of the times between its arguments. -/
theorem ofEndpoints_contains (start finish t : ValidTime) :
    (ofEndpoints start.val finish.val).contains t.val = true ↔ t ∈ Set.Ico start finish := by
  unfold ofEndpoints normalizeEndpoints
  rw [if_neg (by simp [start.property.2, finish.property.2])]
  by_cases backward : finish ≤ start
  · rw [if_pos ((ValidTime.le_iff _ _).mpr backward), Set.Ico_eq_empty (not_lt.mpr backward)]
    have never : ¬ t.val.lt DateTime.getNegInfinity = true := by
      rw [show DateTime.getNegInfinity = ValidTime.negInfinity.val from rfl, ValidTime.lt_iff]
      exact not_lt.mpr t.bounds.1
    simp [contains, never]
  · rw [if_neg (mt (ValidTime.le_iff _ _).mp backward)]
    rw [contains, Bool.and_eq_true]
    exact and_congr (ValidTime.le_iff start t) (ValidTime.lt_iff t finish)

/-- The invalid period contains nothing. -/
theorem invalid_contains (t : ValidTime) :
    (ofEndpoints .getNADT .getNADT).contains t.val = false := by
  have invalid : (ofEndpoints .getNADT .getNADT).m_finish = .getNADT := rfl
  have never : t.val.lt .getNADT = false := if_pos (.inr rfl)
  rw [contains, invalid, never, Bool.and_false]

/-- The one empty value of the constructors with arguments. -/
def canonicalEmpty : TimePeriod := ⟨.getPosInfinity, .getNegInfinity⟩

theorem ofEndpoints_kinds {start finish : DateTime}
    (valid : isInvalid (ofEndpoints start finish).m_start = false) :
    ofEndpoints start finish = canonicalEmpty ∨
      (ofEndpoints start finish).empty = false := by
  unfold ofEndpoints normalizeEndpoints at valid ⊢
  split at valid
  · exact absurd valid (by decide)
  · next plain =>
      rw [if_neg plain]
      by_cases backward : finish.le start
      · rw [if_pos backward]
        exact .inl rfl
      · rw [if_neg backward]
        exact .inr (Bool.eq_false_iff.mpr backward)

/-- An empty period is one of two values. -/
theorem Valid.kinds (tp : Valid) :
    tp.period = .default ∨ tp.period = canonicalEmpty ∨ tp.times.Nonempty := by
  obtain ⟨period, constructed, startValid, finishValid⟩ := tp
  have nonempty (tp : Valid) (full : tp.period.empty = false) : tp.times.Nonempty := by
    rw [Set.nonempty_iff_ne_empty]
    intro none
    rw [(empty_iff tp).mpr none] at full
    cases full
  cases constructed with
  | default => exact .inl rfl
  | endpoints startHolds finishHolds =>
      rcases ofEndpoints_kinds startValid with canonical | full
      · exact .inr (.inl canonical)
      · exact .inr (.inr (nonempty _ full))
  | length startHolds ok =>
      obtain ⟨finish, sum, made⟩ := bind_eq_ok.mp ok
      obtain rfl := Except.ok.inj made
      rcases ofEndpoints_kinds startValid with canonical | full
      · exact .inr (.inl canonical)
      · exact .inr (.inr (nonempty _ full))

theorem Valid.times_default {tp : Valid} (isDefault : tp.period = .default) :
    tp.start = .epoch ∧ tp.finish = .epoch := by
  obtain ⟨period, constructed, startValid, finishValid⟩ := tp
  dsimp only at isDefault
  subst isDefault
  exact ⟨rfl, rfl⟩

theorem Valid.times_canonical {tp : Valid} (canonical : tp.period = canonicalEmpty) :
    tp.start = .posInfinity ∧ tp.finish = .negInfinity := by
  obtain ⟨period, constructed, startValid, finishValid⟩ := tp
  dsimp only at canonical
  subst canonical
  exact ⟨rfl, rfl⟩

/-- Of the valid periods only the canonical empty one counts as invalid. -/
theorem isInvalidPeriod_iff (tp : Valid) :
    tp.period.isInvalidPeriod = true ↔ tp.period = canonicalEmpty := by
  rw [isInvalidPeriod, tp.startValid, tp.finishValid, Bool.false_or, Bool.false_or]
  constructor
  · intro infinite
    have last : tp.start = .posInfinity := (ValidTime.posInfinity_iff tp.start).mp infinite
    rcases tp.kinds with isDefault | canonical | ⟨t, after, before⟩
    · rw [isDefault] at infinite
      exact absurd infinite (by decide)
    · exact canonical
    · rw [last] at after
      exact absurd (lt_of_le_of_lt after before) (not_lt.mpr (ValidTime.bounds _).2)
  · intro canonical
    rw [canonical]
    rfl

section Laws

variable (tp1 tp2 : Valid)

theorem containsPeriod_iff :
    tp1.period.containsPeriod tp2.period = true ↔ tp2.times ⊆ tp1.times := by
  rw [containsPeriod, if_neg (by simp [tp1.startValid])]
  by_cases none : tp2.period.empty = true
  · rw [if_pos none, (empty_iff tp2).mp none]
    simp
  · have forward : tp2.start < tp2.finish := by
      by_contra backward
      exact none ((empty_iff tp2).mpr (Set.Ico_eq_empty backward))
    rw [if_neg none, Bool.and_eq_true, Valid.times, Valid.times, Set.Ico_subset_Ico_iff forward]
    exact and_congr (ValidTime.le_iff tp1.start tp2.start)
      (ValidTime.le_iff tp2.finish tp1.finish)

theorem intersect_false (apart : intersect tp1.period tp2.period = false) :
    tp1.times ∩ tp2.times = ∅ := by
  have emptyOf {tp : Valid} (canonical : tp.period = canonicalEmpty) : tp.times = ∅ := by
    obtain ⟨start, finish⟩ := tp.times_canonical canonical
    rw [Valid.times, start, finish]
    exact Set.Ico_eq_empty (not_lt.mpr (ValidTime.bounds _).1)
  unfold intersect at apart
  split at apart
  · next invalid =>
      rcases invalid with first | second
      · rw [emptyOf ((isInvalidPeriod_iff tp1).mp first), Set.empty_inter]
      · rw [emptyOf ((isInvalidPeriod_iff tp2).mp second), Set.inter_empty]
  · have overlap : ¬ (tp2.start < tp1.finish ∧ tp1.start < tp2.finish) := by
      rw [← ValidTime.lt_iff, ← ValidTime.lt_iff, ← Bool.and_eq_true]
      exact Bool.eq_false_iff.mp apart
    rw [Valid.times, Valid.times, Set.Ico_inter_Ico, Set.Ico_eq_empty_iff]
    intro between
    obtain ⟨starts, finishes⟩ := max_lt_iff.mp between
    exact overlap ⟨(lt_min_iff.mp finishes).1, (lt_min_iff.mp starts).2⟩

theorem intersection_contains (t : ValidTime) :
    (intersection tp1.period tp2.period).contains t.val = true ↔
      t ∈ tp1.times ∧ t ∈ tp2.times := by
  unfold intersection
  rw [← Set.mem_inter_iff]
  by_cases overlap : intersect tp1.period tp2.period = true
  · rw [if_pos overlap]
    have starts : maxTime tp1.period.m_start tp2.period.m_start = (max tp1.start tp2.start).val :=
      ValidTime.max_val tp1.start tp2.start
    have finishes : minTime tp1.period.m_finish tp2.period.m_finish =
        (min tp1.finish tp2.finish).val :=
      ValidTime.min_val tp1.finish tp2.finish
    rw [starts, finishes, ofEndpoints_contains, Valid.times, Valid.times, Set.Ico_inter_Ico]
  · rw [if_neg overlap, invalid_contains, intersect_false tp1 tp2 (Bool.eq_false_iff.mpr overlap)]
    simp

theorem span_contains (first : tp1.period ≠ canonicalEmpty) (second : tp2.period ≠ canonicalEmpty)
    (t : ValidTime) :
    (span tp1.period tp2.period).contains t.val = true ↔
      min tp1.start tp2.start ≤ t ∧ t < max tp1.finish tp2.finish := by
  have valid : ¬ (tp1.period.isInvalidPeriod = true ∨ tp2.period.isInvalidPeriod = true) := by
    rw [isInvalidPeriod_iff, isInvalidPeriod_iff]
    exact not_or.mpr ⟨first, second⟩
  have starts : minTime tp1.period.m_start tp2.period.m_start = (min tp1.start tp2.start).val :=
    ValidTime.min_val tp1.start tp2.start
  have finishes : maxTime tp1.period.m_finish tp2.period.m_finish =
      (max tp1.finish tp2.finish).val :=
    ValidTime.max_val tp1.finish tp2.finish
  rw [span, if_neg valid, starts, finishes, ofEndpoints_contains, Set.mem_Ico]

/-- With a canonical empty period the span is invalid. -/
theorem span_canonical (either : tp1.period = canonicalEmpty ∨ tp2.period = canonicalEmpty)
    (t : ValidTime) : (span tp1.period tp2.period).contains t.val = false := by
  have invalid : tp1.period.isInvalidPeriod = true ∨ tp2.period.isInvalidPeriod = true := by
    rw [isInvalidPeriod_iff, isInvalidPeriod_iff]
    exact either
  rw [span, if_pos invalid, invalid_contains]

/-- The span reaches from the least start to the greatest finish of the periods with times. -/
def SpanLaw : Prop :=
  ∀ t : ValidTime, (span tp1.period tp2.period).contains t.val = true ↔
    (∃ tp ∈ [tp1, tp2], tp.period.empty = false ∧ tp.start ≤ t) ∧
      ∃ tp ∈ [tp1, tp2], tp.period.empty = false ∧ t < tp.finish

/-- The laws of the class comment. -/
structure SetLaws : Prop where
  contains (t : ValidTime) :
    tp1.period.contains t.val = true ↔ tp1.start ≤ t ∧ t < tp1.finish
  containsPeriod : tp1.period.containsPeriod tp2.period = true ↔
    ∀ t : ValidTime, tp2.period.contains t.val = true → tp1.period.contains t.val = true
  unique : (∀ t : ValidTime, tp1.period.contains t.val = false) →
    (∀ t : ValidTime, tp2.period.contains t.val = false) → tp1.period.eq tp2.period = true
  intersection (t : ValidTime) : (intersection tp1.period tp2.period).contains t.val = true ↔
    tp1.period.contains t.val = true ∧ tp2.period.contains t.val = true
  span : SpanLaw tp1 tp2

/-- The first period is the default one, and the epoch is in or at an end of the second. -/
structure AroundDefault : Prop where
  isDefault : tp1.period = .default
  full : tp2.period.empty = false
  start : tp2.start ≤ .epoch
  finish : .epoch ≤ tp2.finish

/-- The condition under which the laws hold of two periods. -/
def Agree : Prop :=
  tp1.period.empty = false ∧ tp2.period.empty = false ∨ tp1.period = tp2.period ∨
    AroundDefault tp1 tp2 ∨ AroundDefault tp2 tp1

theorem full_iff (tp : Valid) : tp.period.empty = false ↔ tp.start < tp.finish := by
  rw [← Bool.not_eq_true, empty_iff, Valid.times, Set.Ico_eq_empty_iff, not_not]

theorem full_not_canonical {tp : Valid} (full : tp.period.empty = false) :
    tp.period ≠ canonicalEmpty := by
  intro canonical
  rw [canonical] at full
  exact absurd full (by decide)

theorem none_contained_iff :
    (∀ t : ValidTime, tp1.period.contains t.val = false) ↔ tp1.period.empty = true := by
  rw [empty_iff, Set.eq_empty_iff_forall_notMem]
  exact forall_congr' fun t => by rw [← Bool.not_eq_true, contains_iff]

theorem SpanLaw.symm {tp1 tp2 : Valid} (law : SpanLaw tp1 tp2) : SpanLaw tp2 tp1 := by
  have commutes (t : ValidTime) :
      (TimePeriod.span tp2.period tp1.period).contains t.val = true ↔
        (TimePeriod.span tp1.period tp2.period).contains t.val = true := by
    by_cases either : tp1.period = canonicalEmpty ∨ tp2.period = canonicalEmpty
    · rw [span_canonical tp1 tp2 either, span_canonical tp2 tp1 either.symm]
    · obtain ⟨first, second⟩ := not_or.mp either
      rw [span_contains tp1 tp2 first second, span_contains tp2 tp1 second first, min_comm,
        max_comm]
  have same (tp : Valid) : tp ∈ [tp1, tp2] ↔ tp ∈ [tp2, tp1] := by simp [or_comm]
  intro t
  rw [commutes, law t]
  simp only [same]

/-- The span with an empty period is right around the default one only. -/
theorem spanLaw_full_empty (full : tp1.period.empty = false) (none : tp2.period.empty = true) :
    SpanLaw tp1 tp2 ↔ AroundDefault tp2 tp1 := by
  have between (t : ValidTime) : ((∃ tp ∈ [tp1, tp2], tp.period.empty = false ∧ tp.start ≤ t) ∧
      ∃ tp ∈ [tp1, tp2], tp.period.empty = false ∧ t < tp.finish) ↔
        tp1.start ≤ t ∧ t < tp1.finish := by
    simp [full, none]
  have forward := (full_iff tp1).mp full
  unfold SpanLaw
  simp only [between]
  rcases tp2.kinds with isDefault | canonical | nonempty
  · obtain ⟨start, finish⟩ := tp2.times_default isDefault
    have notCanonical : tp2.period ≠ canonicalEmpty := by
      rw [isDefault]
      decide
    simp only [span_contains tp1 tp2 (full_not_canonical full) notCanonical, start, finish]
    constructor
    · intro law
      refine ⟨isDefault, full, ?_, ?_⟩
      · by_contra late
        have epochIn := (law .epoch).mp
          ⟨min_le_right _ _, lt_max_of_lt_left ((not_le.mp late).trans forward)⟩
        exact late epochIn.1
      · by_contra early
        have finishIn := (law tp1.finish).mp
          ⟨(min_le_left _ _).trans forward.le, lt_max_of_lt_right (not_le.mp early)⟩
        exact lt_irrefl _ finishIn.2
    · intro around t
      rw [min_eq_left around.start, max_eq_left around.finish]
  · constructor
    · intro law
      have startIn := (law tp1.start).mpr ⟨le_rfl, forward⟩
      rw [span_canonical tp1 tp2 (.inr canonical)] at startIn
      cases startIn
    · intro around
      have isDefault := around.isDefault
      rw [canonical] at isDefault
      exact absurd isDefault (by decide)
  · rw [(empty_iff tp2).mp none] at nonempty
    exact absurd nonempty Set.not_nonempty_empty

theorem spanLaw_full_full (first : tp1.period.empty = false) (second : tp2.period.empty = false) :
    SpanLaw tp1 tp2 := by
  intro t
  rw [span_contains tp1 tp2 (full_not_canonical first) (full_not_canonical second)]
  simp [first, second]

theorem spanLaw_empty_empty (first : tp1.period.empty = true) (second : tp2.period.empty = true) :
    SpanLaw tp1 tp2 := by
  intro t
  have never : (TimePeriod.span tp1.period tp2.period).contains t.val = false := by
    by_cases either : tp1.period = canonicalEmpty ∨ tp2.period = canonicalEmpty
    · exact span_canonical tp1 tp2 either t
    · obtain ⟨notFirst, notSecond⟩ := not_or.mp either
      have default {tp : Valid} (none : tp.period.empty = true)
          (other : tp.period ≠ canonicalEmpty) : tp.start = .epoch ∧ tp.finish = .epoch := by
        rcases tp.kinds with isDefault | canonical | nonempty
        · exact tp.times_default isDefault
        · exact absurd canonical other
        · rw [(empty_iff tp).mp none] at nonempty
          exact absurd nonempty Set.not_nonempty_empty
      rw [← Bool.not_eq_true, span_contains tp1 tp2 notFirst notSecond]
      rw [(default first notFirst).1, (default first notFirst).2, (default second notSecond).1,
        (default second notSecond).2, min_self, max_self]
      rintro ⟨after, before⟩
      exact lt_irrefl _ (lt_of_le_of_lt after before)
  simp [first, second, never]

/-- The laws hold of two periods exactly when they agree about the empty value. -/
theorem setLaws_iff : SetLaws tp1 tp2 ↔ Agree tp1 tp2 := by
  constructor
  · intro laws
    cases first : tp1.period.empty with
    | false =>
        cases second : tp2.period.empty with
        | false => exact .inl ⟨first, second⟩
        | true => exact .inr (.inr (.inr ((spanLaw_full_empty tp1 tp2 first second).mp laws.span)))
    | true =>
        cases second : tp2.period.empty with
        | false =>
            exact .inr (.inr (.inl ((spanLaw_full_empty tp2 tp1 second first).mp laws.span.symm)))
        | true =>
            have same := laws.unique ((none_contained_iff tp1).mpr first)
              ((none_contained_iff tp2).mpr second)
            obtain ⟨start, finish⟩ := of_decide_eq_true same
            refine .inr (.inl ?_)
            cases period1 : tp1.period
            cases period2 : tp2.period
            rw [period1, period2] at start finish
            cases start
            cases finish
            rfl
  · intro agree
    exact {
      contains := contains_iff tp1
      containsPeriod := by
        rw [containsPeriod_iff]
        exact forall_congr' fun t => by rw [contains_iff, contains_iff]
      unique := by
        intro first second
        rw [none_contained_iff] at first second
        rcases agree with ⟨full, -⟩ | same | around | around
        · rw [first] at full
          cases full
        · rw [same]
          simp [TimePeriod.eq]
        · exact absurd (around.full.symm.trans second) Bool.false_ne_true
        · exact absurd (around.full.symm.trans first) Bool.false_ne_true
      intersection := fun t => by
        rw [intersection_contains, contains_iff, contains_iff]
      span := by
        rcases agree with ⟨first, second⟩ | same | around | around
        · exact spanLaw_full_full tp1 tp2 first second
        · cases first : tp1.period.empty with
          | false => exact spanLaw_full_full tp1 tp2 first (same ▸ first)
          | true => exact spanLaw_empty_empty tp1 tp2 first (same ▸ first)
        · have none : tp1.period.empty = true := by
            rw [around.isDefault]
            rfl
          exact ((spanLaw_full_empty tp2 tp1 around.full none).mpr around).symm
        · have none : tp2.period.empty = true := by
            rw [around.isDefault]
            rfl
          exact (spanLaw_full_empty tp1 tp2 around.full none).mpr around }

end Laws

/-- The period of the default constructor. -/
def Valid.ofDefault : Valid := ⟨.default, .default, rfl, rfl⟩

/-- The period between equal times, which is stored as the canonical empty one. -/
def Valid.ofEpochs : Valid :=
  ⟨ofEndpoints .epoch .epoch, .endpoints (DateTime.ofSpecial_invariant .notSpecial)
    (DateTime.ofSpecial_invariant .notSpecial), rfl, rfl⟩

/-- Both periods are empty, and they are not equal. -/
theorem setLaws_default_epochs : ¬ SetLaws .ofDefault .ofEpochs := by
  intro laws
  have same := laws.unique ((none_contained_iff .ofDefault).mpr rfl)
    ((none_contained_iff .ofEpochs).mpr rfl)
  exact absurd same (by decide)

end TimePeriod

end Blocxx.Time
