import Blocxx.TimePeriod.TimePeriod

/-!
This file embeds `merge`, and proves for which periods it is their symmetric union.
-/

namespace Blocxx.Time.TimePeriod

/-- The last comparison is of the two starts. -/
def merge (tp1 tp2 : TimePeriod) : TimePeriod :=
  if tp1.isInvalidPeriod ∨ tp2.isInvalidPeriod then ofEndpoints .getNADT .getNADT
  else if intersect tp1 tp2 ∨ tp1.m_finish = tp2.m_start ∨ tp1.m_start = tp2.m_start then
    ofEndpoints (minTime tp1.m_start tp2.m_start) (maxTime tp1.m_finish tp2.m_finish)
  else ofEndpoints .getNADT .getNADT

section Union

variable (tp1 tp2 : Valid)

def Overlap : Prop := (tp1.times ∩ tp2.times).Nonempty

/-- The end of one period is the begin of the other. -/
def Touch : Prop := tp1.finish = tp2.start ∨ tp2.finish = tp1.start

/-- What the documentation says of `merge`. -/
structure MergesExactly : Prop where
  symmetric : merge tp1.period tp2.period = merge tp2.period tp1.period
  union : Overlap tp1 tp2 ∨ Touch tp1 tp2 →
    (merge tp1.period tp2.period).isInvalidPeriod = false ∧
      ∀ t : DateTime, t.Invariant → ((merge tp1.period tp2.period).contains t = true ↔
        tp1.period.contains t = true ∨ tp2.period.contains t = true)
  apart : ¬ (Overlap tp1 tp2 ∨ Touch tp1 tp2) →
    merge tp1.period tp2.period = ofEndpoints .getNADT .getNADT

variable {tp1 tp2} (full1 : tp1.period.empty = false) (full2 : tp2.period.empty = false)

/-- No period contains the invalid time. -/
theorem not_contains_invalid (period : TimePeriod) {t : DateTime} (invalid : isInvalid t = true) :
    period.contains t = false := by
  have never : t.lt period.m_finish = false := if_pos (.inl (of_decide_eq_true invalid))
  rw [contains, never, Bool.and_false]

include full1 full2

theorem overlap_iff : Overlap tp1 tp2 ↔ tp2.start < tp1.finish ∧ tp1.start < tp2.finish := by
  have first := (full_iff tp1).mp full1
  have second := (full_iff tp2).mp full2
  rw [Overlap, Valid.times, Valid.times, Set.Ico_inter_Ico, Set.nonempty_Ico, max_lt_iff,
    lt_min_iff, lt_min_iff]
  constructor
  · rintro ⟨⟨-, one⟩, other, -⟩
    exact ⟨other, one⟩
  · rintro ⟨other, one⟩
    exact ⟨⟨first, one⟩, other, second⟩

theorem intersect_iff : intersect tp1.period tp2.period = true ↔ Overlap tp1 tp2 := by
  have valid : ¬ (tp1.period.isInvalidPeriod = true ∨ tp2.period.isInvalidPeriod = true) := by
    rw [isInvalidPeriod_iff, isInvalidPeriod_iff]
    exact not_or.mpr ⟨full_not_canonical full1, full_not_canonical full2⟩
  rw [overlap_iff full1 full2, intersect, if_neg valid, Bool.and_eq_true]
  exact and_congr (ValidTime.lt_iff tp2.start tp1.finish) (ValidTime.lt_iff tp1.start tp2.finish)

/-- The condition of the code. Of the two touches it has the one at the first period's end. -/
theorem joins_iff :
    (intersect tp1.period tp2.period = true ∨ tp1.period.m_finish = tp2.period.m_start ∨
      tp1.period.m_start = tp2.period.m_start) ↔
    Overlap tp1 tp2 ∨ tp1.finish = tp2.start := by
  have first := (full_iff tp1).mp full1
  have second := (full_iff tp2).mp full2
  have touch : tp1.period.m_finish = tp2.period.m_start ↔ tp1.finish = tp2.start :=
    ⟨fun same => Subtype.ext same, fun same => congrArg Subtype.val same⟩
  have starts : tp1.period.m_start = tp2.period.m_start ↔ tp1.start = tp2.start :=
    ⟨fun same => Subtype.ext same, fun same => congrArg Subtype.val same⟩
  rw [intersect_iff full1 full2, touch, starts]
  constructor
  · rintro (overlap | touches | same)
    · exact .inl overlap
    · exact .inr touches
    · exact .inl ((overlap_iff full1 full2).mpr ⟨same ▸ first, same ▸ second⟩)
  · rintro (overlap | touches)
    · exact .inl overlap
    · exact .inr (.inl touches)

theorem merge_joined (joins : Overlap tp1 tp2 ∨ tp1.finish = tp2.start) :
    merge tp1.period tp2.period =
      ofEndpoints (min tp1.start tp2.start).val (max tp1.finish tp2.finish).val := by
  have valid : ¬ (tp1.period.isInvalidPeriod = true ∨ tp2.period.isInvalidPeriod = true) := by
    rw [isInvalidPeriod_iff, isInvalidPeriod_iff]
    exact not_or.mpr ⟨full_not_canonical full1, full_not_canonical full2⟩
  rw [merge, if_neg valid, if_pos ((joins_iff full1 full2).mpr joins), ← ValidTime.min_val,
    ← ValidTime.max_val]
  rfl

theorem merge_apart (apart : ¬ (Overlap tp1 tp2 ∨ tp1.finish = tp2.start)) :
    merge tp1.period tp2.period = ofEndpoints .getNADT .getNADT := by
  rw [merge, if_neg (mt (joins_iff full1 full2).mp apart), ite_self]

omit full2 in
/-- The period of the merged endpoints is valid and holds the times of both. -/
theorem joined_union (meet : tp2.start ≤ tp1.finish ∧ tp1.start ≤ tp2.finish) :
    (ofEndpoints (min tp1.start tp2.start).val (max tp1.finish tp2.finish).val).isInvalidPeriod =
        false ∧
      ∀ t : DateTime, t.Invariant →
        ((ofEndpoints (min tp1.start tp2.start).val (max tp1.finish tp2.finish).val).contains t =
          true ↔ tp1.period.contains t = true ∨ tp2.period.contains t = true) := by
  have first := (full_iff tp1).mp full1
  have forward : min tp1.start tp2.start < max tp1.finish tp2.finish :=
    lt_of_le_of_lt (min_le_left _ _) (lt_of_lt_of_le first (le_max_left _ _))
  have made : ofEndpoints (min tp1.start tp2.start).val (max tp1.finish tp2.finish).val =
      ⟨(min tp1.start tp2.start).val, (max tp1.finish tp2.finish).val⟩ := by
    unfold ofEndpoints normalizeEndpoints
    rw [if_neg (by simp [(min tp1.start tp2.start).property.2,
      (max tp1.finish tp2.finish).property.2]),
      if_neg (mt (ValidTime.le_iff _ _).mp (not_le.mpr forward))]
  constructor
  · have finite : isPosInfinity (min tp1.start tp2.start).val = false := by
      rw [← Bool.not_eq_true, ValidTime.posInfinity_iff]
      intro infinite
      rw [infinite] at forward
      exact not_lt.mpr (ValidTime.bounds _).2 forward
    rw [made, isInvalidPeriod]
    dsimp only
    rw [(min tp1.start tp2.start).property.2, (max tp1.finish tp2.finish).property.2, finite]
    rfl
  · intro t holds
    cases invalid : isInvalid t with
    | true => simp only [not_contains_invalid _ invalid, Bool.false_eq_true, or_self]
    | false =>
        have valid := ofEndpoints_contains (min tp1.start tp2.start) (max tp1.finish tp2.finish)
          ⟨t, holds, invalid⟩
        rw [valid, ← Set.Ico_union_Ico' meet.1 meet.2]
        exact or_congr (contains_iff tp1 ⟨t, holds, invalid⟩).symm
          (contains_iff tp2 ⟨t, holds, invalid⟩).symm

omit full1 full2 in
theorem overlap_comm : Overlap tp1 tp2 ↔ Overlap tp2 tp1 := by
  rw [Overlap, Overlap, Set.inter_comm]

/-- A touch of one end is none of the other. -/
theorem touch_once (touches : tp1.finish = tp2.start) :
    ¬ (Overlap tp2 tp1 ∨ tp2.finish = tp1.start) := by
  have first := (full_iff tp1).mp full1
  have second := (full_iff tp2).mp full2
  rintro (overlap | same)
  · exact lt_irrefl _ (touches ▸ ((overlap_iff full2 full1).mp overlap).2)
  · exact lt_irrefl _ (((touches ▸ first).trans second).trans_eq same)

/-- The merge is the symmetric union exactly for the periods that do not touch. -/
theorem mergesExactly_iff : MergesExactly tp1 tp2 ↔ ¬ Touch tp1 tp2 := by
  have invalid : (ofEndpoints .getNADT .getNADT).isInvalidPeriod = true := rfl
  constructor
  · rintro merges (touches | touches)
    · have union := (merges.union (.inr (.inl touches))).1
      rw [merges.symmetric, merge_apart full2 full1 (touch_once full1 full2 touches)] at union
      exact Bool.noConfusion (invalid.symm.trans union)
    · have union := (merges.union (.inr (.inr touches))).1
      rw [merge_apart full1 full2 (touch_once full2 full1 touches)] at union
      exact Bool.noConfusion (invalid.symm.trans union)
  · intro apart
    obtain ⟨notFirst, notSecond⟩ := not_or.mp apart
    by_cases overlap : Overlap tp1 tp2
    · have one := merge_joined full1 full2 (.inl overlap)
      have other := merge_joined full2 full1 (.inl (overlap_comm.mp overlap))
      have meet := (overlap_iff full1 full2).mp overlap
      refine ⟨?_, fun _ => ?_, fun none => absurd (.inl overlap) none⟩
      · rw [one, other, min_comm, max_comm]
      · rw [one]
        exact joined_union full1 ⟨meet.1.le, meet.2.le⟩
    · have one := merge_apart full1 full2 (not_or.mpr ⟨overlap, notFirst⟩)
      have other := merge_apart full2 full1
        (not_or.mpr ⟨mt overlap_comm.mpr overlap, notSecond⟩)
      exact ⟨one.trans other.symm, fun joined => absurd joined (not_or.mpr ⟨overlap, apart⟩),
        fun _ => one⟩

end Union

theorem oneHour_invariant : DateTime.Invariant ⟨3600, 0⟩ :=
  DateTime.IsNormal.invariant ⟨by decide, by decide⟩

theorem twoHours_invariant : DateTime.Invariant ⟨7200, 0⟩ :=
  DateTime.IsNormal.invariant ⟨by decide, by decide⟩

/-- The first and the second hour of 1970. -/
def Valid.firstHour : Valid :=
  ⟨ofEndpoints .epoch ⟨3600, 0⟩, .endpoints (DateTime.ofSpecial_invariant .notSpecial)
    oneHour_invariant, rfl, rfl⟩

def Valid.secondHour : Valid :=
  ⟨ofEndpoints ⟨3600, 0⟩ ⟨7200, 0⟩, .endpoints oneHour_invariant twoHours_invariant, rfl, rfl⟩

theorem firstHour_merges : MergesExactly .firstHour .firstHour :=
  (mergesExactly_iff rfl rfl).mpr (by
    rintro (same | same)
    · exact absurd (congrArg Subtype.val same) (by decide)
    · exact absurd (congrArg Subtype.val same) (by decide))

/-- The hours touch, and their merge is valid in one order only. -/
theorem hours_not_merge : ¬ MergesExactly .secondHour .firstHour := by
  intro merges
  exact absurd merges.symmetric (by decide)

end Blocxx.Time.TimePeriod
