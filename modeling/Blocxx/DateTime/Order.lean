import Blocxx.TimePeriod.TimePeriod

/-!
This file proves that the comparisons of `DateTime` order the instants.
-/

namespace Blocxx.Time

namespace DateTime

/-- The operator `>`. -/
def gt (x tm : DateTime) : Bool := tm.lt x

/-- The operator `>=`. -/
def ge (x tm : DateTime) : Bool := x = tm ∨ tm.lt x

/-- The microseconds since the epoch. -/
def count (dt : DateTime) : Int := dt.m_seconds * MICROSECONDS_PER_SECOND + dt.m_microseconds

/-- The values of the invariant that are times, finite or not. -/
def IsInstant (dt : DateTime) : Prop := dt.Invariant ∧ dt ≠ getNADT

/-- The operator `<` is a strict total order of the instants. -/
structure LtOrders : Prop where
  irrefl : ∀ x, IsInstant x → x.lt x = false
  trans : ∀ x y z, IsInstant x → IsInstant y → IsInstant z →
    x.lt y = true → y.lt z = true → x.lt z = true
  total : ∀ x y, IsInstant x → IsInstant y → x.lt y = true ∨ x = y ∨ y.lt x = true
  normal : ∀ x y : DateTime, x.IsNormal → y.IsNormal → (x.lt y = true ↔ x.count < y.count)
  negInfinity : ∀ x, IsInstant x → x ≠ getNegInfinity → getNegInfinity.lt x = true
  posInfinity : ∀ x, IsInstant x → x ≠ getPosInfinity → x.lt getPosInfinity = true

/-- The other operators belong to this order. -/
structure Companions (x y : DateTime) : Prop where
  le : x.le y = true ↔ x.lt y = true ∨ x = y
  notLess : x.le y = true ↔ y.lt x = false
  gt : x.gt y = true ↔ y.lt x = true
  ge : x.ge y = true ↔ y.le x = true

/-- A comparison with the invalid time holds for `<=` and `>=` of this time with itself only. -/
structure Unordered (x : DateTime) : Prop where
  lt : x.lt getNADT = false ∧ getNADT.lt x = false
  gt : x.gt getNADT = false ∧ getNADT.gt x = false
  le : (x.le getNADT = true ↔ x = getNADT) ∧ (getNADT.le x = true ↔ x = getNADT)
  ge : (x.ge getNADT = true ↔ x = getNADT) ∧ (getNADT.ge x = true ↔ x = getNADT)

/-- The instants are the valid times. -/
theorem IsInstant.valid {x : DateTime} (instant : IsInstant x) : isInvalid x = false := by
  obtain ⟨rfl | rfl | rfl | normal, notNADT⟩ := instant
  · rfl
  · rfl
  · exact absurd rfl notNADT
  · have microseconds := normal.microseconds.2
    rw [isInvalid, decide_eq_false_iff_not]
    exact microseconds.ne

/-- The order of the two integers. -/
theorem lt_eq_true {x y : DateTime} (first : isInvalid x = false) (second : isInvalid y = false) :
    x.lt y = true ↔ x.m_seconds < y.m_seconds ∨
      x.m_seconds = y.m_seconds ∧ x.m_microseconds < y.m_microseconds := by
  rw [isInvalid, decide_eq_false_iff_not] at first second
  rw [lt, if_neg (not_or.mpr ⟨first, second⟩)]
  split
  · next same => simp [same]
  · next other => simp [other]

theorem IsNormal.instant {x : DateTime} (normal : x.IsNormal) : IsInstant x := by
  refine ⟨normal.invariant, ?_⟩
  rintro rfl
  exact normal.not_special (by decide)

theorem count_lt_iff {x y : DateTime} (normal : x.IsNormal) (other : y.IsNormal) :
    x.lt y = true ↔ x.count < y.count := by
  have low := normal.microseconds
  have high := other.microseconds
  rw [lt_eq_true normal.instant.valid other.instant.valid]
  simp only [count, MICROSECONDS_PER_SECOND] at *
  omega

/-- The instant as a value of the linear order of the valid times. -/
def IsInstant.toValid {x : DateTime} (instant : IsInstant x) : ValidTime :=
  ⟨x, instant.1, instant.valid⟩

theorem negInfinity_lt {x : DateTime} (instant : IsInstant x) (other : x ≠ getNegInfinity) :
    getNegInfinity.lt x = true := by
  apply (lt_eq_true rfl instant.valid).mpr
  obtain ⟨rfl | rfl | rfl | normal, notNADT⟩ := instant
  · left
    decide
  · exact absurd rfl other
  · exact absurd rfl notNADT
  · left
    exact lt_of_lt_of_le (by decide) normal.seconds.1

theorem lt_posInfinity {x : DateTime} (instant : IsInstant x) (other : x ≠ getPosInfinity) :
    x.lt getPosInfinity = true := by
  apply (lt_eq_true instant.valid rfl).mpr
  obtain ⟨rfl | rfl | rfl | normal, notNADT⟩ := instant
  · exact absurd rfl other
  · left
    decide
  · exact absurd rfl notNADT
  · left
    exact lt_of_le_of_lt normal.seconds.2 (by decide)

theorem lt_orders : LtOrders where
  irrefl x instant := by
    rw [Bool.eq_false_iff]
    intro less
    exact lt_irrefl _ ((ValidTime.lt_iff instant.toValid instant.toValid).mp less)
  trans x y z first second third less more := by
    apply (ValidTime.lt_iff first.toValid third.toValid).mpr
    exact ((ValidTime.lt_iff first.toValid second.toValid).mp less).trans
      ((ValidTime.lt_iff second.toValid third.toValid).mp more)
  total x y first second := by
    rcases lt_trichotomy first.toValid second.toValid with less | same | greater
    · exact .inl ((ValidTime.lt_iff first.toValid second.toValid).mpr less)
    · exact .inr (.inl (congrArg Subtype.val same))
    · exact .inr (.inr ((ValidTime.lt_iff second.toValid first.toValid).mpr greater))
  normal _ _ := count_lt_iff
  negInfinity _ := negInfinity_lt
  posInfinity _ := lt_posInfinity

theorem le_eq_true (x y : DateTime) : x.le y = true ↔ x = y ∨ x.lt y = true := by
  rw [le, decide_eq_true_iff]

theorem ge_eq_true (x y : DateTime) : x.ge y = true ↔ x = y ∨ y.lt x = true := by
  rw [ge, decide_eq_true_iff]

theorem companions {x y : DateTime} (first : IsInstant x) (second : IsInstant y) :
    Companions x y where
  le := by rw [le_eq_true, or_comm]
  notLess := by
    have less := ValidTime.lt_iff second.toValid first.toValid
    have notMore := ValidTime.le_iff first.toValid second.toValid
    rw [Bool.eq_false_iff, Ne]
    exact notMore.trans (not_lt.symm.trans (not_congr less.symm))
  gt := Iff.rfl
  ge := by rw [ge_eq_true, le_eq_true, eq_comm]

theorem unordered (x : DateTime) : Unordered x := by
  have left : getNADT.lt x = false := if_pos (.inl rfl)
  have right : x.lt getNADT = false := if_pos (.inr rfl)
  constructor
  · exact ⟨right, left⟩
  · exact ⟨left, right⟩
  · constructor
    · simp [le_eq_true, right]
    · rw [le_eq_true, left, eq_comm]
      simp
  · constructor
    · simp [ge_eq_true, left]
    · rw [ge_eq_true, right, eq_comm]
      simp

/-- The comparisons are the total order of the instants, and the invalid time is outside of it. -/
theorem comparisons_order : LtOrders ∧
    (∀ x y, IsInstant x → IsInstant y → Companions x y) ∧ ∀ x, Unordered x :=
  ⟨lt_orders, fun _ _ => companions, unordered⟩

end DateTime

end Blocxx.Time
