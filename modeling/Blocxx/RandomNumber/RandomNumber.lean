import Mathlib.Tactic

/-!
This file embeds `RandomNumber` and proves for which bounds its numbers stay in the range.
-/

namespace Blocxx.RandomNumber

/-- The arithmetic that the language leaves undefined. -/
inductive Undefined where
  | signedOverflow
  | divisionByZero

/-- A signed integer type. The operands of narrower types are promoted to `int`. -/
structure SignedType where
  bits : Nat
  promoted : 32 ≤ bits

def int : SignedType := ⟨32, le_rfl⟩

/-- The exact value, when the type has it. -/
def SignedType.checked (type : SignedType) (exact : Int) : Except Undefined Int :=
  if -2 ^ (type.bits - 1) ≤ exact ∧ exact < 2 ^ (type.bits - 1) then .ok exact
  else .error .signedOverflow

/-- The operator `%` is defined when the quotient is. -/
def SignedType.remainder (type : SignedType) (a b : Int) : Except Undefined Int :=
  if b = 0 then .error .divisionByZero
  else do
    let _ ← type.checked (a.tdiv b)
    return a.tmod b

/-- The members of the class. -/
structure Bounds where
  m_lowVal : Int32
  m_highVal : Int32

/-- The constructor. -/
def construct (lowVal highVal : Int32) : Bounds :=
  if highVal < lowVal then ⟨highVal, lowVal⟩ else ⟨lowVal, highVal⟩

/-- The value of the macro in the C library. -/
def RAND_MAX : Int32 := 2147483647

/-- The constructor with its default bounds. -/
def constructDefault : Bounds := construct 0 RAND_MAX

/-- A value of `random()`, whose type is `long`, or of `rand()`, whose type is `int`. -/
abbrev Random : Type := {random : Int // 0 ≤ random ∧ random < 2 ^ 31}

/-- `getNextNumber`. The type is that of the function that gives the random value. -/
def getNextNumber (type : SignedType) (bounds : Bounds) (random : Random) :
    Except Undefined Int32 := do
  let difference ← int.checked (bounds.m_highVal.toInt - bounds.m_lowVal.toInt)
  let width ← int.checked (difference + 1)
  let offset ← type.remainder random.val width
  let number ← type.checked (bounds.m_lowVal.toInt + offset)
  return Int32.ofInt number

/-- Every number is defined and lies in the range, and the numbers of a range that is not too wide
all come up. -/
structure StaysInRange (type : SignedType) (lowVal highVal : Int32) : Prop where
  within : ∀ random, ∃ number, getNextNumber type (construct lowVal highVal) random = .ok number ∧
    min lowVal.toInt highVal.toInt ≤ number.toInt ∧ number.toInt ≤ max lowVal.toInt highVal.toInt
  reaches : max lowVal.toInt highVal.toInt - min lowVal.toInt highVal.toInt + 1 ≤ 2 ^ 31 →
    ∀ number : Int32, min lowVal.toInt highVal.toInt ≤ number.toInt →
      number.toInt ≤ max lowVal.toInt highVal.toInt →
      ∃ random, getNextNumber type (construct lowVal highVal) random = .ok number

theorem construct_bounds (lowVal highVal : Int32) :
    (construct lowVal highVal).m_lowVal.toInt = min lowVal.toInt highVal.toInt ∧
      (construct lowVal highVal).m_highVal.toInt = max lowVal.toInt highVal.toInt := by
  rw [construct]
  split
  · next swapped =>
      have less := Int32.lt_iff_toInt_lt.mp swapped
      exact ⟨(min_eq_right less.le).symm, (max_eq_left less.le).symm⟩
  · next ordered =>
      have le := not_lt.mp (mt Int32.lt_iff_toInt_lt.mpr ordered)
      exact ⟨(min_eq_left le).symm, (max_eq_right le).symm⟩

variable {type : SignedType}

/-- Every type has the values of `int`. -/
theorem SignedType.checked_of_int {exact : Int} (low : -2 ^ 31 ≤ exact) (high : exact < 2 ^ 31) :
    type.checked exact = .ok exact := by
  have wide : (2 : Int) ^ 31 ≤ 2 ^ (type.bits - 1) := by
    apply pow_le_pow_right₀ one_le_two
    have promoted := type.promoted
    omega
  rw [checked, if_pos ⟨by omega, by omega⟩]

theorem int_checked_of_le {exact : Int} (high : 2 ^ 31 ≤ exact) :
    int.checked exact = .error .signedOverflow := by
  apply if_neg
  rintro ⟨-, less⟩
  exact absurd less (not_lt.mpr high)

theorem SignedType.remainder_eq {a b : Int} (low : 0 ≤ a) (high : a < 2 ^ 31) (positive : 0 < b) :
    type.remainder a b = .ok (a % b) := by
  have nonneg := Int.tdiv_nonneg low positive.le
  have small : a.tdiv b ≤ a := by
    rw [Int.tdiv_eq_ediv_of_nonneg low]
    exact Int.ediv_le_self b low
  rw [remainder, if_neg positive.ne', checked_of_int (by omega) (by omega),
    Int.tmod_eq_emod_of_nonneg low]
  rfl

variable {bounds : Bounds}

/-- A range with fewer values than `int` has positive ones is computed without an overflow. -/
theorem getNextNumber_of_narrow
    (order : bounds.m_lowVal.toInt ≤ bounds.m_highVal.toInt)
    (narrow : bounds.m_highVal.toInt - bounds.m_lowVal.toInt + 1 < 2 ^ 31)
    (random : Random) :
    getNextNumber type bounds random = .ok (Int32.ofInt (bounds.m_lowVal.toInt +
      random.val % (bounds.m_highVal.toInt - bounds.m_lowVal.toInt + 1))) := by
  have low := Int32.le_toInt bounds.m_lowVal
  have high := Int32.toInt_lt bounds.m_highVal
  have first := Int.emod_nonneg random.val
    (show bounds.m_highVal.toInt - bounds.m_lowVal.toInt + 1 ≠ 0 by omega)
  have last := Int.emod_lt_of_pos random.val
    (show 0 < bounds.m_highVal.toInt - bounds.m_lowVal.toInt + 1 by omega)
  have difference : int.checked (bounds.m_highVal.toInt - bounds.m_lowVal.toInt) = .ok _ :=
    SignedType.checked_of_int (by omega) (by omega)
  have width : int.checked (bounds.m_highVal.toInt - bounds.m_lowVal.toInt + 1) = .ok _ :=
    SignedType.checked_of_int (by omega) narrow
  have offset : type.remainder random.val
      (bounds.m_highVal.toInt - bounds.m_lowVal.toInt + 1) = .ok _ :=
    SignedType.remainder_eq random.property.1 random.property.2 (by omega)
  have number : type.checked (bounds.m_lowVal.toInt +
      random.val % (bounds.m_highVal.toInt - bounds.m_lowVal.toInt + 1)) = .ok _ :=
    SignedType.checked_of_int (by omega) (by omega)
  simp only [getNextNumber, difference, width, offset, number, bind, Except.bind, pure, Except.pure]

/-- The width of any other range overflows. -/
theorem getNextNumber_of_wide
    (wide : 2 ^ 31 ≤ bounds.m_highVal.toInt - bounds.m_lowVal.toInt + 1) (random : Random) :
    getNextNumber type bounds random = .error .signedOverflow := by
  have whole := int_checked_of_le wide
  by_cases fits : bounds.m_highVal.toInt - bounds.m_lowVal.toInt < 2 ^ 31
  · have difference : int.checked (bounds.m_highVal.toInt - bounds.m_lowVal.toInt) = .ok _ :=
      SignedType.checked_of_int (by omega) fits
    simp only [getNextNumber, difference, whole, bind, Except.bind]
  · have difference := int_checked_of_le (not_lt.mp fits)
    simp only [getNextNumber, difference, bind, Except.bind]

/-- The value of the number, which is not more than the upper bound. -/
theorem toInt_number {low high : Int32} (order : low.toInt ≤ high.toInt) (random : Int) :
    (Int32.ofInt (low.toInt + random % (high.toInt - low.toInt + 1))).toInt =
        low.toInt + random % (high.toInt - low.toInt + 1) ∧
      0 ≤ random % (high.toInt - low.toInt + 1) ∧
      low.toInt + random % (high.toInt - low.toInt + 1) ≤ high.toInt := by
  have least := Int32.le_toInt low
  have most := Int32.toInt_lt high
  have first := Int.emod_nonneg random (show high.toInt - low.toInt + 1 ≠ 0 by omega)
  have last := Int.emod_lt_of_pos random (show 0 < high.toInt - low.toInt + 1 by omega)
  exact ⟨Int32.toInt_ofInt_of_le (by omega) (by omega), first, by omega⟩

/-- The numbers stay in the range exactly when it has fewer values than `int` has positive ones. -/
theorem staysInRange_iff (type : SignedType) (lowVal highVal : Int32) :
    StaysInRange type lowVal highVal ↔
      max lowVal.toInt highVal.toInt - min lowVal.toInt highVal.toInt + 1 < 2 ^ 31 := by
  obtain ⟨lower, upper⟩ := construct_bounds lowVal highVal
  have order : (construct lowVal highVal).m_lowVal.toInt ≤
      (construct lowVal highVal).m_highVal.toInt := by
    rw [lower, upper]
    exact min_le_max
  rw [← lower, ← upper]
  constructor
  · intro stays
    by_contra wide
    obtain ⟨number, defined, -⟩ := stays.within ⟨0, le_rfl, by decide⟩
    rw [getNextNumber_of_wide (not_lt.mp wide)] at defined
    cases defined
  · intro narrow
    constructor
    · intro random
      obtain ⟨value, first, last⟩ := toInt_number order random.val
      refine ⟨_, getNextNumber_of_narrow order narrow random, ?_⟩
      rw [← lower, ← upper, value]
      omega
    · rw [← lower, ← upper]
      intro _ number low high
      -- the distance from the lower bound is its own remainder
      have distance : number.toInt - (construct lowVal highVal).m_lowVal.toInt <
          (construct lowVal highVal).m_highVal.toInt -
            (construct lowVal highVal).m_lowVal.toInt + 1 := by omega
      refine ⟨⟨number.toInt - (construct lowVal highVal).m_lowVal.toInt, by omega, by omega⟩, ?_⟩
      rw [getNextNumber_of_narrow order narrow, Int.emod_eq_of_lt (by omega) distance,
        add_sub_cancel, Int32.ofInt_toInt]

/-- The width of the default range is more than `int` can hold. -/
theorem default_overflows (random : Random) :
    getNextNumber type constructDefault random = .error .signedOverflow := by
  apply getNextNumber_of_wide
  decide

/-- The default range is one that the numbers do not stay in. -/
theorem default_not_staysInRange :
    ¬ ∀ (type : SignedType) (lowVal highVal : Int32), StaysInRange type lowVal highVal := by
  intro all
  obtain ⟨number, defined, -⟩ := (all ⟨64, by decide⟩ 0 RAND_MAX).within ⟨0, le_rfl, by decide⟩
  have overflows : getNextNumber ⟨64, by decide⟩ constructDefault ⟨0, le_rfl, by decide⟩ = _ :=
    default_overflows _
  rw [constructDefault, defined] at overflows
  cases overflows

end Blocxx.RandomNumber
