import Blocxx.Library.Rejection
import Mathlib.Data.BitVec

/-!
This file embeds `rand_uint_lt` and `rand_range` of `Secure` and proves that their results are
uniform. The values of an unsigned type are its bits, and those of a signed type are integers.
-/

namespace Blocxx.SecureRand

open Library Library.Rejection

/-- A type of fewer bits than `int` is promoted to it, and `int` has room for its sums. -/
structure UnsignedInt where
  width : Nat
  promoted : Bool
  positive : 0 < width
  fits : promoted = true → width + 1 < 32

/-- `RAND_bytes` may fail, and so may a `BLOCXX_ASSERT`. -/
inductive Failure where
  | secureRandException
  | assertionException

namespace UnsignedInt

variable (type : UnsignedInt)

abbrev Value : Type := BitVec type.width

/-- The sum or the difference of two values of the type, or of promoted ones. -/
def arithmetic (exact : Int) : Int :=
  if type.promoted then exact else exact % 2 ^ type.width

/-- `static_cast` to the type, also in the initialization of a variable. -/
def cast (value : Int) : type.Value := BitVec.ofInt type.width value

/-- The remainder of two values of the type. -/
def remainder (rn n : type.Value) : Nat := rn.toNat % n.toNat

/-- The test `(n & (n - 1)) == 0`. -/
def isPowerOfTwo (n : type.Value) : Bool :=
  n.toNat &&& (type.arithmetic (n.toNat - 1)).toNat == 0

def bound (n : type.Value) : type.Value :=
  let uint_max := type.cast (-1)
  type.cast (type.arithmetic (uint_max.toNat - type.remainder uint_max n))

/-- One iteration of the loop, after so many draws. -/
def iteration (n : type.Value) (raw : Nat → Except Failure type.Value) (used : Nat) :
    Loop.Iteration Nat (Except Failure (type.Value × Nat)) :=
  match raw used with
  | .error failure => .stop (.error failure)
  | .ok rn =>
      if (type.bound n).toNat ≤ rn.toNat then .next (used + 1)
      else .stop (.ok (type.cast (type.remainder rn n), used + 1))

/-- `rand_uint_lt`. A stream gives the values of `rand_uint`. -/
def randUintLt (n : type.Value) : Sampler Failure type.Value type.Value := fun raw fuel =>
  if n.toNat = 0 then throw .assertionException
  else if type.isPowerOfTwo n then do
    let (rn, draws) ← once raw fuel
    return (type.cast (type.remainder rn n), draws)
  else Loop.run (type.iteration n raw) fuel 0

end UnsignedInt

/-- An integer type with its `unsigned_equivalent`. -/
structure Integer where
  unsigned : UnsignedInt
  signed : Bool

namespace Integer

variable (type : Integer)

def lowest : Int := if type.signed then -2 ^ (type.unsigned.width - 1) else 0

def highest : Int :=
  if type.signed then 2 ^ (type.unsigned.width - 1) - 1 else 2 ^ type.unsigned.width - 1

abbrev Value : Type := {value : Int // type.lowest ≤ value ∧ value ≤ type.highest}

def toUnsigned (value : type.Value) : type.unsigned.Value := type.unsigned.cast value.val

theorem ofUnsigned_bounds (rv : type.unsigned.Value) :
    let value := if type.signed then rv.toInt else (rv.toNat : Int)
    type.lowest ≤ value ∧ value ≤ type.highest := by
  have positive := type.unsigned.positive
  have low := BitVec.le_toInt rv
  have high := BitVec.toInt_lt (x := rv)
  have unsigned := rv.isLt
  dsimp only
  rw [lowest, highest]
  cases type.signed with
  | true =>
      simp only [if_true]
      omega
  | false =>
      simp only [Bool.false_eq_true, if_false]
      have cast : (rv.toNat : Int) < 2 ^ type.unsigned.width := by exact_mod_cast unsigned
      omega

/-- `static_cast` from the unsigned type, which keeps the bits. -/
def ofUnsigned (rv : type.unsigned.Value) : type.Value :=
  ⟨if type.signed then rv.toInt else rv.toNat, type.ofUnsigned_bounds rv⟩

/-- The variable `range`, which is 0 when all values are in the range. -/
def range (min_value max_value : type.Value) : type.unsigned.Value :=
  let umax := type.toUnsigned max_value
  let umin := type.toUnsigned min_value
  let diff := type.unsigned.cast (type.unsigned.arithmetic (umax.toNat - umin.toNat))
  type.unsigned.cast (type.unsigned.arithmetic (diff.toNat + 1))

def randRange (min_value max_value : type.Value) :
    Sampler Failure type.unsigned.Value type.Value := fun raw fuel =>
  let umin := type.toUnsigned min_value
  let range := type.range min_value max_value
  if max_value.val < min_value.val then throw .assertionException
  else if range.toNat = 0 then do
    let (rv, draws) ← once raw fuel
    return (type.ofUnsigned rv, draws)
  else do
    let (below, draws) ← type.unsigned.randUintLt range raw fuel
    let rv := type.unsigned.cast (type.unsigned.arithmetic (umin.toNat + below.toNat))
    return (type.ofUnsigned rv, draws)

end Integer

namespace UnsignedInt

variable (type : UnsignedInt)

theorem cast_of_modEq {x y : Int} (same : x ≡ y [ZMOD 2 ^ type.width]) :
    type.cast x = type.cast y := by
  apply BitVec.eq_of_toNat_eq
  rw [cast, cast, BitVec.toNat_ofInt, BitVec.toNat_ofInt]
  push_cast
  rw [same]

/-- The promotion and the wrap give the same bits. -/
theorem cast_arithmetic (value : Int) : type.cast (type.arithmetic value) = type.cast value := by
  apply type.cast_of_modEq
  rw [arithmetic]
  split
  · rfl
  · exact Int.mod_modEq value _

theorem toNat_cast (value : Int) : ((type.cast value).toNat : Int) = value % 2 ^ type.width := by
  rw [cast, BitVec.toNat_ofInt]
  push_cast
  exact Int.toNat_of_nonneg (Int.emod_nonneg value (pow_ne_zero _ two_ne_zero))

theorem toNat_cast_modEq (value : Int) :
    ((type.cast value).toNat : Int) ≡ value [ZMOD 2 ^ type.width] := by
  rw [toNat_cast]
  exact Int.mod_modEq value _

theorem toNat_cast_of_lt {value : Nat} (fits : value < 2 ^ type.width) :
    (type.cast value).toNat = value := by
  have cast := type.toNat_cast value
  rw [Int.emod_eq_of_lt (Int.natCast_nonneg value) (by exact_mod_cast fits)] at cast
  exact_mod_cast cast

/-- A count of bits is one of the integers below. -/
theorem ncard_toNat {P : Nat → Prop} (below : ∀ x, P x → x < 2 ^ type.width) :
    {rn : type.Value | P rn.toNat}.ncard = {x | P x}.ncard := by
  have image : BitVec.toNat '' {rn : type.Value | P rn.toNat} = {x | P x} := by
    ext x
    constructor
    · rintro ⟨rn, holds, rfl⟩
      exact holds
    · intro holds
      have same : (type.cast x).toNat = x := type.toNat_cast_of_lt (below x holds)
      refine ⟨type.cast x, ?_, same⟩
      show P (type.cast x).toNat
      rw [same]
      exact holds
  rw [← image, Set.ncard_image_of_injective _ BitVec.toNat_injective]

theorem ncard_lt (m : Nat) : {x : Nat | x < m}.ncard = m := by
  have range : {x : Nat | x < m} = ↑(Finset.range m) := by
    ext x
    rw [Finset.coe_range]
    rfl
  rw [range, Set.ncard_coe_finset, Finset.card_range]

theorem card_value : Nat.card type.Value = 2 ^ type.width := by
  have all := type.ncard_toNat (P := fun x => x < 2 ^ type.width) fun _ less => less
  rw [ncard_lt] at all
  rw [← all, ← Set.ncard_univ]
  congr 1
  ext rn
  exact ⟨fun _ => rn.isLt, fun _ => trivial⟩

variable {type} {n : type.Value}

theorem bound_eq (n : type.Value) :
    (type.bound n).toNat = 2 ^ type.width - 1 - (2 ^ type.width - 1) % n.toNat := by
  have positive : 0 < 2 ^ type.width := Nat.two_pow_pos _
  have wraps : (-1 : Int) ≡ (2 ^ type.width - 1 : Nat) [ZMOD 2 ^ type.width] := by
    rw [Int.modEq_iff_dvd, Nat.cast_sub positive]
    push_cast
    rw [sub_neg_eq_add, sub_add_cancel]
  have most : (type.cast (-1)).toNat = 2 ^ type.width - 1 := by
    rw [type.cast_of_modEq wraps]
    exact type.toNat_cast_of_lt (by omega)
  rw [bound, remainder, most, cast_arithmetic, ← Nat.cast_sub (Nat.mod_le _ _)]
  exact type.toNat_cast_of_lt (by omega)

/-- What an accepted raw value gives. -/
def residue (n rn : type.Value) : Option type.Value :=
  if type.isPowerOfTwo n ∨ rn.toNat < (type.bound n).toNat then
    some (type.cast (type.remainder rn n))
  else none

theorem toNat_remainder (positive : 0 < n.toNat) (rn : type.Value) :
    (type.cast (type.remainder rn n)).toNat = rn.toNat % n.toNat :=
  type.toNat_cast_of_lt ((Nat.mod_lt _ positive).trans n.isLt)

theorem follows_iteration (loops : type.isPowerOfTwo n = false) :
    Draws (type.iteration n) (residue n) where
  fails := by
    intro raw used failure drawn
    rw [iteration, drawn]
  accepts := by
    intro raw used rn result drawn gives
    rw [residue] at gives
    rw [iteration, drawn]
    split at gives
    · next accepted =>
        rw [loops] at accepted
        have front := accepted.resolve_left Bool.false_ne_true
        dsimp only
        rw [if_neg (Nat.not_le.mpr front), Option.some.inj gives]
    · cases gives
  rejects := by
    intro raw used rn drawn none_
    rw [residue] at none_
    rw [iteration, drawn]
    split at none_
    · cases none_
    · next rejected =>
        dsimp only
        rw [if_pos (Nat.not_lt.mp fun front => rejected (.inr front))]

theorem follows_randUintLt (positive : 0 < n.toNat) :
    Follows (type.randUintLt n) (residue n) := by
  have nonzero : ¬ n.toNat = 0 := positive.ne'
  cases power : type.isPowerOfTwo n with
  | true =>
      have same : type.randUintLt n = fun raw fuel =>
          (fun answer => (type.cast (type.remainder answer.1 n), answer.2)) <$> once raw fuel := by
        funext raw fuel
        rw [randUintLt, if_neg nonzero, if_pos power, map_eq_pure_bind]
      have value : residue n = fun rn => (some rn).map fun rn => type.cast (type.remainder rn n) := by
        funext rn
        rw [residue, if_pos (.inl power)]
        rfl
      rw [same, value]
      exact follows_once.map fun rn => type.cast (type.remainder rn n)
  | false =>
      have same : type.randUintLt n = fun raw fuel => Loop.run (type.iteration n raw) fuel 0 := by
        funext raw fuel
        rw [randUintLt, if_neg nonzero, if_neg (Bool.eq_false_iff.mp power)]
      rw [same]
      exact (follows_iteration power).follows

theorem isPowerOfTwo_iff (positive : 0 < n.toNat) :
    type.isPowerOfTwo n = true ↔ n.toNat.isPowerOfTwo := by
  have fits : type.arithmetic (n.toNat - 1) = (n.toNat - 1 : Nat) := by
    rw [arithmetic, Nat.cast_sub positive, Nat.cast_one]
    split
    · rfl
    · have below : (n.toNat : Int) < 2 ^ type.width := by exact_mod_cast n.isLt
      exact Int.emod_eq_of_lt (by omega) (by omega)
  rw [isPowerOfTwo, fits, Int.toNat_natCast, beq_iff_eq,
    Nat.and_sub_one_eq_zero_iff_isPowerOfTwo positive.ne']

/-- The accepted raw values are those below a multiple of the bound of the results, which is at
least half of the number of all raw values. -/
theorem accepted_below (positive : 0 < n.toNat) :
    ∃ share, 0 < share ∧ n.toNat * share ≤ 2 ^ type.width ∧
      2 ^ type.width ≤ 2 * (n.toNat * share) ∧
      ∀ rn : type.Value, (type.isPowerOfTwo n ∨ rn.toNat < (type.bound n).toNat) ↔
        rn.toNat < n.toNat * share := by
  have below := n.isLt
  cases power : type.isPowerOfTwo n with
  | true =>
      obtain ⟨exponent, here⟩ := (isPowerOfTwo_iff positive).mp power
      rw [here] at below
      have smaller := (Nat.pow_lt_pow_iff_right one_lt_two).mp below
      have whole : n.toNat * 2 ^ (type.width - exponent) = 2 ^ type.width := by
        rw [here, ← pow_add, Nat.add_sub_cancel' smaller.le]
      refine ⟨2 ^ (type.width - exponent), Nat.two_pow_pos _, whole.le, ?_, ?_⟩
      · rw [whole]
        omega
      · intro rn
        rw [whole]
        exact iff_of_true (.inl rfl) rn.isLt
  | false =>
      -- all but the last, incomplete row of residues
      obtain ⟨umax, most⟩ : ∃ umax, umax = 2 ^ type.width - 1 := ⟨_, rfl⟩
      have complete : (type.bound n).toNat = n.toNat * (umax / n.toNat) := by
        have parts := Nat.div_add_mod umax n.toNat
        rw [bound_eq, ← most]
        omega
      have rows : 0 < umax / n.toNat := Nat.div_pos (by omega) positive
      have row := Nat.le_mul_of_pos_right n.toNat rows
      have next := Nat.lt_mul_div_succ umax positive
      rw [Nat.mul_succ] at next
      have fits := Nat.mul_div_le umax n.toNat
      refine ⟨umax / n.toNat, rows, by omega, by omega, ?_⟩
      intro rn
      rw [complete, or_iff_right Bool.false_ne_true]

theorem residue_lt (positive : 0 < n.toNat) {rn below : type.Value}
    (gives : residue n rn = some below) : below.toNat < n.toNat := by
  rw [residue] at gives
  split at gives
  · rw [← Option.some.inj gives, toNat_remainder positive]
    exact Nat.mod_lt _ positive
  · cases gives

/-- The raw values with any one result are as many as the rows of residues. -/
theorem residue_counts (positive : 0 < n.toNat) :
    2 ^ type.width ≤ 2 * {rn | (residue n rn).isSome}.ncard ∧
      ∃ share, 0 < share ∧ ∀ r < n.toNat,
        {rn | ∃ result, residue n rn = some result ∧ result.toNat = r}.ncard = share := by
  obtain ⟨share, some_, fits, half, accepted⟩ := accepted_below positive
  constructor
  · have all : {rn | (residue n rn).isSome} = {rn : type.Value | rn.toNat < n.toNat * share} := by
      ext rn
      rw [Set.mem_ofPred_eq, Set.mem_ofPred_eq, ← accepted rn, residue]
      split
      · next accepts => exact iff_of_true rfl accepts
      · next rejects => exact iff_of_false Bool.false_ne_true rejects
    have counted := type.ncard_toNat (P := fun x => x < n.toNat * share)
      fun x less => less.trans_le fits
    rw [all, counted, ncard_lt]
    exact half
  · refine ⟨share, some_, fun r below => ?_⟩
    have rows : {rn | ∃ result, residue n rn = some result ∧ result.toNat = r} =
        {rn : type.Value | rn.toNat < n.toNat * share ∧ rn.toNat % n.toNat = r} := by
      ext rn
      rw [Set.mem_ofPred_eq, Set.mem_ofPred_eq, ← accepted rn, residue]
      split
      · next accepts =>
          simp only [Option.some.injEq, exists_eq_left', toNat_remainder positive]
          exact (and_iff_right accepts).symm
      · next rejects =>
          exact iff_of_false (fun given => nomatch given.choose_spec.1) fun both => rejects both.1
    have counted := type.ncard_toNat (P := fun x => x < n.toNat * share ∧ x % n.toNat = r)
      fun x both => both.1.trans_le fits
    rw [rows, counted]
    exact ncard_residue below

theorem uniform_randUintLt (positive : 0 < n.toNat) :
    Uniform (type.randUintLt n) {result | result.toNat < n.toNat} := by
  obtain ⟨half, share, some_, each⟩ := residue_counts positive
  refine (follows_randUintLt positive).uniform ?_ ?_ ⟨share, some_, ?_⟩
  · intro rn result gives
    exact residue_lt positive gives
  · rw [card_value]
    exact half
  · intro result below
    rw [← each result.toNat below]
    congr 1
    ext rn
    constructor
    · intro gives
      exact ⟨result, gives, rfl⟩
    · rintro ⟨other, gives, same⟩
      rw [BitVec.eq_of_toNat_eq same] at gives
      exact gives

end UnsignedInt

namespace Integer

variable {type : Integer}

theorem highest_sub_lowest (type : Integer) :
    type.highest - type.lowest = 2 ^ type.unsigned.width - 1 := by
  have halves : (2 : Int) ^ type.unsigned.width = 2 ^ (type.unsigned.width - 1) * 2 := by
    rw [← pow_succ, Nat.sub_add_cancel type.unsigned.positive]
  rw [highest, lowest]
  cases type.signed with
  | true =>
      simp only [if_true]
      omega
  | false =>
      simp only [Bool.false_eq_true, if_false]
      omega

theorem ofUnsigned_toUnsigned (value : type.Value) :
    type.ofUnsigned (type.toUnsigned value) = value := by
  obtain ⟨value, low, high⟩ := value
  apply Subtype.ext
  have positive := type.unsigned.positive
  rw [lowest] at low
  rw [highest] at high
  show (if type.signed = true then (type.unsigned.cast value).toInt
    else ((type.unsigned.cast value).toNat : Int)) = value
  cases signed : type.signed with
  | true =>
      rw [signed, if_pos rfl] at low high
      rw [if_pos rfl]
      exact BitVec.toInt_ofInt_eq_self positive low (by omega)
  | false =>
      rw [signed, if_neg Bool.false_ne_true] at low high
      rw [if_neg Bool.false_ne_true, UnsignedInt.toNat_cast]
      exact Int.emod_eq_of_lt low (by omega)

theorem toUnsigned_ofUnsigned (rv : type.unsigned.Value) :
    type.toUnsigned (type.ofUnsigned rv) = rv := by
  show type.unsigned.cast (if type.signed = true then rv.toInt else (rv.toNat : Int)) = rv
  split
  · exact BitVec.ofInt_toInt
  · apply BitVec.eq_of_toNat_eq
    exact type.unsigned.toNat_cast_of_lt rv.isLt

variable {min_value max_value : type.Value}

/-- The width of the range is computed as if there were no wrap, up to the last one. -/
theorem range_eq (min_value max_value : type.Value) :
    ((type.range min_value max_value).toNat : Int) =
      (max_value.val - min_value.val + 1) % 2 ^ type.unsigned.width := by
  have diff := type.unsigned.toNat_cast_modEq (max_value.val - min_value.val)
  have difference : type.unsigned.cast (type.unsigned.arithmetic
      ((type.toUnsigned max_value).toNat - (type.toUnsigned min_value).toNat)) =
      type.unsigned.cast (max_value.val - min_value.val) := by
    rw [UnsignedInt.cast_arithmetic]
    apply type.unsigned.cast_of_modEq
    exact (type.unsigned.toNat_cast_modEq _).sub (type.unsigned.toNat_cast_modEq _)
  rw [range, difference, UnsignedInt.cast_arithmetic, UnsignedInt.toNat_cast]
  exact diff.add_right 1

theorem range_eq_zero_or (order : min_value.val ≤ max_value.val) :
    ((type.range min_value max_value).toNat = 0 ∧ min_value.val = type.lowest ∧
        max_value.val = type.highest) ∨
      ((type.range min_value max_value).toNat : Int) = max_value.val - min_value.val + 1 := by
  have whole := type.highest_sub_lowest
  have low := min_value.property.1
  have high := max_value.property.2
  have range := range_eq min_value max_value
  by_cases full : max_value.val - min_value.val + 1 = 2 ^ type.unsigned.width
  · left
    rw [full, Int.emod_self] at range
    exact ⟨by omega, by omega, by omega⟩
  · right
    rw [range]
    exact Int.emod_eq_of_lt (by omega) (by omega)

/-- The value that `rand_range` computes from the one below the width of the range. -/
def above (min_value : type.Value) (below : type.unsigned.Value) : type.Value :=
  type.ofUnsigned (type.unsigned.cast (type.unsigned.arithmetic
    ((type.toUnsigned min_value).toNat + below.toNat)))

theorem above_eq {below : type.unsigned.Value} (value : type.Value)
    (place : value.val = min_value.val + below.toNat) : above min_value below = value := by
  have same : type.unsigned.cast ((type.toUnsigned min_value).toNat + below.toNat) =
      type.toUnsigned value := by
    rw [toUnsigned, toUnsigned, place]
    apply type.unsigned.cast_of_modEq
    exact (type.unsigned.toNat_cast_modEq _).add_right _
  rw [above, UnsignedInt.cast_arithmetic, same, ofUnsigned_toUnsigned]

theorem above_val {below : type.unsigned.Value}
    (fits : (below.toNat : Int) < max_value.val - min_value.val + 1) :
    (above min_value below).val = min_value.val + below.toNat := by
  have low := min_value.property.1
  have high := max_value.property.2
  rw [above_eq ⟨min_value.val + below.toNat, by omega, by omega⟩ rfl]

/-- The range is that of all values. -/
theorem uniform_full (order : min_value.val ≤ max_value.val)
    (full : (type.range min_value max_value).toNat = 0) (least : min_value.val = type.lowest)
    (most : max_value.val = type.highest) :
    Uniform (type.randRange min_value max_value)
      {value | min_value.val ≤ value.val ∧ value.val ≤ max_value.val} := by
  have same : type.randRange min_value max_value = fun raw fuel =>
      (fun answer => (type.ofUnsigned answer.1, answer.2)) <$> once raw fuel := by
    funext raw fuel
    dsimp only [randRange]
    rw [if_neg order.not_gt, if_pos full, map_eq_pure_bind]
  have follows : Follows (type.randRange min_value max_value)
      fun rn => (some rn).map type.ofUnsigned := by
    rw [same]
    exact follows_once.map type.ofUnsigned
  apply follows.uniform
  · intro rn value _
    show min_value.val ≤ value.val ∧ value.val ≤ max_value.val
    rw [least, most]
    exact value.property
  · rw [show {rn : type.unsigned.Value | ((some rn).map type.ofUnsigned).isSome} = Set.univ from
      Set.eq_univ_of_forall fun rn => rfl, Set.ncard_univ]
    omega
  · refine ⟨1, Nat.one_pos, fun value _ => ?_⟩
    have one : {rn | (some rn).map type.ofUnsigned = some value} = {type.toUnsigned value} := by
      ext rn
      rw [Set.mem_ofPred_eq, Option.map_some, Option.some.injEq, Set.mem_singleton_iff]
      constructor
      · rintro rfl
        exact (toUnsigned_ofUnsigned rn).symm
      · rintro rfl
        exact ofUnsigned_toUnsigned value
    rw [one, Set.ncard_singleton]

/-- The range leaves out some values of the type. -/
theorem uniform_part (order : min_value.val ≤ max_value.val)
    (range : ((type.range min_value max_value).toNat : Int) = max_value.val - min_value.val + 1) :
    Uniform (type.randRange min_value max_value)
      {value | min_value.val ≤ value.val ∧ value.val ≤ max_value.val} := by
  have positive : 0 < (type.range min_value max_value).toNat := by omega
  have same : type.randRange min_value max_value = fun raw fuel =>
      (fun answer => (above min_value answer.1, answer.2)) <$>
        type.unsigned.randUintLt (type.range min_value max_value) raw fuel := by
    funext raw fuel
    dsimp only [randRange]
    rw [if_neg order.not_gt, if_neg positive.ne', map_eq_pure_bind]
    rfl
  have follows := (UnsignedInt.follows_randUintLt positive).map (above min_value)
  rw [← same] at follows
  have place {rn below : type.unsigned.Value}
      (gives : UnsignedInt.residue (type.range min_value max_value) rn = some below) :
      (above min_value below).val = min_value.val + below.toNat ∧
        (below.toNat : Int) < max_value.val - min_value.val + 1 := by
    have fits := UnsignedInt.residue_lt positive gives
    have fits : (below.toNat : Int) < max_value.val - min_value.val + 1 := by omega
    exact ⟨above_val fits, fits⟩
  obtain ⟨half, share, some_, each⟩ := UnsignedInt.residue_counts positive
  apply follows.uniform
  · intro rn value gives
    obtain ⟨below, drawn, rfl⟩ := Option.map_eq_some_iff.mp gives
    obtain ⟨there, fits⟩ := place drawn
    show min_value.val ≤ (above min_value below).val ∧ (above min_value below).val ≤ max_value.val
    omega
  · simp only [Option.isSome_map]
    rw [UnsignedInt.card_value]
    exact half
  · refine ⟨share, some_, ?_⟩
    rintro value ⟨low, high⟩
    rw [← each (value.val - min_value.val).toNat (by omega)]
    congr 1
    ext rn
    rw [Set.mem_ofPred_eq, Set.mem_ofPred_eq, Option.map_eq_some_iff]
    refine exists_congr fun below => and_congr_right fun gives => ?_
    obtain ⟨there, fits⟩ := place gives
    constructor
    · rintro rfl
      omega
    · intro distance
      apply above_eq
      omega

theorem uniform_randRange (order : min_value.val ≤ max_value.val) :
    Uniform (type.randRange min_value max_value)
      {value | min_value.val ≤ value.val ∧ value.val ≤ max_value.val} := by
  rcases range_eq_zero_or order with ⟨full, least, most⟩ | range
  · exact uniform_full order full least most
  · exact uniform_part order range

end Integer

/-- `rand_uint_lt` gives the remainder of the first raw value that it accepts, and both functions
give all of their results with equally many raw values. -/
theorem secure_ranges_uniform (type : Integer) :
    (∀ n : type.unsigned.Value, 0 < n.toNat →
      Uniform (type.unsigned.randUintLt n) {result | result.toNat < n.toNat} ∧
        ∀ rn result, Accepts (type.unsigned.randUintLt n) rn result →
          result.toNat = rn.toNat % n.toNat) ∧
      ∀ min_value max_value : type.Value, min_value.val ≤ max_value.val →
        Uniform (type.randRange min_value max_value)
          {value | min_value.val ≤ value.val ∧ value.val ≤ max_value.val} := by
  constructor
  · intro n positive
    refine ⟨UnsignedInt.uniform_randUintLt positive, ?_⟩
    intro rn result accepts
    have gives := (UnsignedInt.follows_randUintLt positive).accepts_iff.mp accepts
    rw [UnsignedInt.residue] at gives
    split at gives
    · rw [← Option.some.inj gives, UnsignedInt.toNat_remainder positive]
    · cases gives
  · intro min_value max_value order
    exact Integer.uniform_randRange order

/-- `signed char`, whose unsigned equivalent is promoted to `int`. -/
def signedChar : Integer := ⟨⟨8, true, by decide, by decide⟩, true⟩

theorem secure_ranges_uniform_signedChar :
    Uniform (signedChar.unsigned.randUintLt 6#8) {result | result.toNat < 6} ∧
      Uniform (signedChar.randRange ⟨-3, by decide⟩ ⟨5, by decide⟩)
        {value | -3 ≤ value.val ∧ value.val ≤ 5} ∧
      Uniform (signedChar.randRange ⟨-128, by decide⟩ ⟨127, by decide⟩)
        {value | -128 ≤ value.val ∧ value.val ≤ 127} :=
  ⟨((secure_ranges_uniform signedChar).1 6#8 (by decide)).1,
    (secure_ranges_uniform signedChar).2 ⟨-3, by decide⟩ ⟨5, by decide⟩ (by decide),
    (secure_ranges_uniform signedChar).2 ⟨-128, by decide⟩ ⟨127, by decide⟩ (by decide)⟩

end Blocxx.SecureRand
