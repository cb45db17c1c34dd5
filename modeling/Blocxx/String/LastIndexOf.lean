import Blocxx.Library.BackwardSearch
import Blocxx.String.Substring

/-!
This file embeds the two forms of `String::lastIndexOf` with their casts to `int`, and proves that
they find the last occurrence unless an `int` does not hold the length of the searched string.
-/

namespace Blocxx.Strings

open Library Library.Memory Library.BackwardSearch BinarySerialization

/-- The cast to `int`. -/
def toInt (value : Int) : Int := (value + 2 ^ 31) % 2 ^ 32 - 2 ^ 31

/-- The index that a search returns. -/
def index : Option Nat → UInt64
  | some position => UInt64.ofNat position
  | none => npos

/-- The loop over the indices ends when they wrap below zero. -/
def lastIndexOfChar (str : CowString) (ch : UInt8) (fromIndex : UInt64) : Option UInt64 :=
  let fromIndex := if fromIndex = npos then size str - 1 else fromIndex
  if fromIndex = npos then some npos
  else if fromIndex < size str then
    (lastBelow (fun i => ((memory str).byteAt i).map (· == ch)) (fromIndex.toNat + 1)).map index
  else some npos

/-- A difference of two `int` values that is not an `int` has no result. -/
def lastIndexOf (str : CowString) (arg : Option CString) (fromIndex : UInt64) : Option UInt64 :=
  let beyond := fromIndex = npos ∨ fromIndex ≥ size str
  let fromIndex := if beyond then size str - 1 else fromIndex
  if beyond ∧ toInt fromIndex.toNat < 0 then some npos
  else
    let arglen := match arg with
      | some arg => toInt arg.bytes.length
      | none => 0
    if arglen = -2 ^ 31 then none
    else
      let fromIndex := fromIndex - UInt64.ofInt (arglen - 1)
      if toInt fromIndex.toNat < 0 then some npos
      else
        match arg with
        | none => some (size str - 1)
        | some arg =>
            let test i := (strncmp ((memory str).drop i) arg.bytes (UInt64.ofInt arglen).toNat).map
              (· == 0)
            (lastBelow test (fromIndex.toNat + 1)).map index

/-- The result is the largest index with the property, or `npos` when there is none. -/
def IsLastIndex (property : Nat → Prop) (result : UInt64) : Prop :=
  if result = npos then ∀ i, ¬ property i else IsGreatest {i | property i} result.toNat

/-- The search finds the last occurrence that ends by the index where it starts. -/
def LastIndexOfExact (s : Whole) (a : CString) (fromIndex : UInt64) : Prop :=
  ∃ result, lastIndexOf s.str (some a) fromIndex = some result ∧
    IsLastIndex (fun i => a.bytes <+: s.bytes.drop i ∧
      i + a.bytes.length - 1 ≤ min fromIndex.toNat (s.bytes.length - 1)) result

def LastIndexOfCharExact (s : Whole) (ch : UInt8) (fromIndex : UInt64) : Prop :=
  ∃ result, lastIndexOfChar s.str ch fromIndex = some result ∧
    IsLastIndex (fun i => i ≤ min fromIndex.toNat (s.bytes.length - 1) ∧ s.bytes[i]? = some ch)
      result

/-- The index where the search starts, for this length of the searched string as an `int`. -/
def start (s : Bytes) (arglen : Int) (fromIndex : UInt64) : Int :=
  min fromIndex.toNat (s.length - 1) - (arglen - 1)

/-- The length of the searched string is an `int`, or the `int` that is left of it makes the search
miss all positions that it looks at, which are in the string. -/
def LengthHeld (s a : Bytes) (fromIndex : UInt64) : Prop :=
  s = [] ∨ a.length < 2 ^ 31 ∨
    let arglen := toInt a.length
    let first := start s arglen fromIndex
    arglen ≠ -2 ^ 31 ∧ (first < 0 ∨ 2 ^ 31 ≤ first ∨
      (0 < arglen ∧ ∀ i : Nat, i ≤ first → (s.drop i).take arglen.toNat ≠ a.take arglen.toNat) ∨
      (arglen < 0 ∧ first ≤ s.length))

section Indices

theorem index_some {position : Nat} (fits : position < 2 ^ 64 - 1) :
    index (some position) ≠ npos ∧ (index (some position)).toNat = position := by
  have value : (index (some position)).toNat = position := by
    show (UInt64.ofNat position).toNat = position
    rw [UInt64.toNat_ofNat']
    omega
  refine ⟨?_, value⟩
  intro same
  rw [same, npos_toNat] at value
  omega

/-- The index of the last position below a bound that no property reaches. -/
theorem isLastIndex_index {property wanted : Nat → Prop} {bound : Nat} {found : Option Nat}
    (last : IsLast property bound found) (fits : bound < 2 ^ 64)
    (same : ∀ i, wanted i ↔ i < bound ∧ property i) : IsLastIndex wanted (index found) := by
  cases found with
  | none =>
      rw [IsLastIndex, index, if_pos rfl]
      intro i here
      obtain ⟨below, property⟩ := (same i).mp here
      exact last i below property
  | some position =>
      have below := last.1.1
      obtain ⟨other, value⟩ := index_some (show position < 2 ^ 64 - 1 by omega)
      rw [IsLastIndex, if_neg other, value]
      refine ⟨(same position).mpr last.1, ?_⟩
      intro i here
      exact last.2 ((same i).mp here)

theorem isLastIndex_npos {wanted : Nat → Prop} : IsLastIndex wanted npos ↔ ∀ i, ¬ wanted i := by
  rw [IsLastIndex, if_pos rfl]

end Indices

section Positions

variable (s : Whole)

/-- The block from a position of the string on is the rest of the string. -/
theorem block_drop {position : Nat} (inside : position ≤ s.bytes.length) :
    (memory s.str).drop position = (s.bytes.drop position).map some ++ [some 0] := by
  rw [s.block, List.drop_append_of_le_length (by rwa [List.length_map]), List.map_drop]

theorem block_drop_outside {position : Nat} (outside : s.bytes.length < position) :
    (memory s.str).drop position = [] := by
  apply List.drop_eq_nil_of_le
  rw [s.block, List.length_append, List.length_map, List.length_singleton]
  exact outside

/-- The comparison at a position of the string answers. -/
theorem strncmp_answers (free : (0 : UInt8) ∉ s.bytes) (a : CString) {position : Nat}
    (inside : position ≤ s.bytes.length) (count : Nat) :
    ∃ answer, (strncmp ((memory s.str).drop position) a.bytes count).map (· == 0) = some answer ∧
      (answer = true ↔ (s.bytes.drop position).take count = a.bytes.take count) := by
  rw [block_drop s inside]
  have rest : (0 : UInt8) ∉ s.bytes.drop position := fun zero => free (List.mem_of_mem_drop zero)
  obtain ⟨result, compared, equal⟩ :=
    strncmp_spec (terminated_written (s.bytes.drop position) []) a.nonzero count
  rw [cString_append rest] at equal
  refine ⟨result == 0, by rw [compared, Option.map_some], ?_⟩
  rw [beq_iff_eq, equal]

end Positions

section Characters

/-- The search for a character is exact for every start in the string. -/
theorem lastIndexOfChar_exact (s : Whole) (ch : UInt8) {fromIndex : UInt64}
    (inside : fromIndex = npos ∨ fromIndex < size s.str) : LastIndexOfCharExact s ch fromIndex := by
  have fits := s.fits
  have sized := size_toNat s
  unfold LastIndexOfCharExact lastIndexOfChar
  by_cases empty : s.bytes = []
  · have null := (size_eq_zero s).mpr empty
    have unset : fromIndex = npos := by
      rcases inside with unset | below
      · exact unset
      · rw [null, UInt64.lt_iff_toNat_lt, UInt64.toNat_zero] at below
        exact absurd below (Nat.not_lt_zero _)
    dsimp only
    rw [if_pos unset, null, if_pos (by decide)]
    refine ⟨npos, rfl, isLastIndex_npos.mpr ?_⟩
    rintro i ⟨_, found⟩
    rw [empty, List.getElem?_nil] at found
    cases found
  · have positive : 0 < s.bytes.length := List.length_pos_iff.mpr empty
    generalize started : (if fromIndex = npos then size s.str - 1 else fromIndex) = first
    have value : first.toNat = min fromIndex.toNat (s.bytes.length - 1) := by
      rw [← started]
      split
      · next unset =>
          rw [unset, npos_toNat, UInt64.toNat_sub, UInt64.toNat_one, sized]
          omega
      · next set =>
          have below := inside.resolve_left set
          rw [UInt64.lt_iff_toNat_lt, sized] at below
          omega
    have other : first ≠ npos := by
      rintro rfl
      rw [npos_toNat] at value
      omega
    have below : first < size s.str := by
      rw [UInt64.lt_iff_toNat_lt, value, sized]
      omega
    dsimp only
    rw [if_neg other, if_pos below]
    have answers : ∀ position < first.toNat + 1, ∃ answer,
        ((memory s.str).byteAt position).map (· == ch) = some answer ∧
          (answer = true ↔ s.bytes[position]? = some ch) := by
      intro position below
      have inside : position < s.bytes.length := by omega
      refine ⟨s.bytes.get ⟨position, inside⟩ == ch, ?_, ?_⟩
      · rw [s.block, byteAt_written inside, Option.map_some]
      · rw [beq_iff_eq, List.getElem?_eq_getElem inside, Option.some.injEq]
        rfl
    obtain ⟨found, searched, last⟩ := lastBelow_spec answers
    refine ⟨index found, by rw [searched, Option.map_some], ?_⟩
    refine isLastIndex_index last (by omega) ?_
    intro i
    rw [value, Nat.lt_succ_iff]

end Characters

section Lengths

variable {s : Whole} {a : CString} {fromIndex : UInt64}

/-- The comparison at one index, with as many characters as this length is as a `size_t`. -/
def comparison (s : Whole) (a : CString) (arglen : Int) (position : Nat) : Option Bool :=
  (strncmp ((memory s.str).drop position) a.bytes (UInt64.ofInt arglen).toNat).map (· == 0)

theorem toInt_length_range (a : Bytes) :
    -2 ^ 31 ≤ toInt a.length ∧ toInt a.length < 2 ^ 31 := by
  unfold toInt
  omega

theorem ofInt_toNat (value : Int) : (UInt64.ofInt value).toNat = (value % 2 ^ 64).toNat := by
  rw [UInt64.ofInt, UInt64.toNat_ofNat']
  omega

theorem lastIndexOf_empty (empty : s.bytes = []) :
    lastIndexOf s.str (some a) fromIndex = some npos := by
  have null := (size_eq_zero s).mpr empty
  have beyond : fromIndex = npos ∨ fromIndex ≥ size s.str := by
    rw [ge_size, empty]
    exact .inr (Nat.zero_le _)
  unfold lastIndexOf
  dsimp only
  rw [if_pos beyond, null, if_pos ⟨null ▸ beyond, by decide⟩]

/-- The search in a string that is not empty starts behind the difference of the two lengths. -/
theorem lastIndexOf_nonempty (short : s.bytes.length < 2 ^ 31) (filled : s.bytes ≠ []) :
    lastIndexOf s.str (some a) fromIndex =
      if toInt a.bytes.length = -2 ^ 31 then none
      else
        let first := start s.bytes (toInt a.bytes.length) fromIndex
        if first < 0 ∨ 2 ^ 31 ≤ first then some npos
        else (lastBelow (comparison s a (toInt a.bytes.length)) (first.toNat + 1)).map index := by
  have positive : 0 < s.bytes.length := List.length_pos_iff.mpr filled
  have sized := size_toNat s
  have range := toInt_length_range a.bytes
  unfold lastIndexOf
  dsimp only
  generalize toInt a.bytes.length = arglen at range ⊢
  generalize clamped :
    (if fromIndex = npos ∨ fromIndex ≥ size s.str then size s.str - 1 else fromIndex) = last
  have value : last.toNat = min fromIndex.toNat (s.bytes.length - 1) := by
    rw [← clamped]
    split
    · next beyond =>
        rw [UInt64.toNat_sub, UInt64.toNat_one, sized]
        have far : s.bytes.length ≤ fromIndex.toNat := by
          rcases beyond with unset | far
          · rw [unset, npos_toNat]
            omega
          · exact (ge_size s fromIndex).mp far
        omega
    · next inside =>
        have below := mt (fun far => Or.inr ((ge_size s fromIndex).mpr far)) inside
        omega
  have small : ¬ toInt last.toNat < 0 := by
    rw [value]
    unfold toInt
    omega
  rw [if_neg fun both => small both.2]
  by_cases lowest : arglen = -2 ^ 31
  · rw [if_pos lowest, if_pos lowest]
  · rw [if_neg lowest, if_neg lowest]
    have moved : (last - UInt64.ofInt (arglen - 1)).toNat =
        (start s.bytes arglen fromIndex % 2 ^ 64).toNat := by
      rw [UInt64.toNat_sub, ofInt_toNat, value, start]
      omega
    rw [moved]
    have bounds : -2 ^ 31 < start s.bytes arglen fromIndex ∧
        start s.bytes arglen fromIndex < 2 ^ 32 := by
      unfold start
      omega
    generalize start s.bytes arglen fromIndex = first at bounds ⊢
    have sign : toInt (first % 2 ^ 64).toNat < 0 ↔ first < 0 ∨ 2 ^ 31 ≤ first := by
      unfold toInt
      omega
    by_cases outside : first < 0 ∨ 2 ^ 31 ≤ first
    · rw [if_pos (sign.mpr outside), if_pos outside]
    · have same : (first % 2 ^ 64).toNat = first.toNat := by omega
      rw [if_neg (mt sign.mp outside), if_neg outside, same]
      rfl

end Lengths

section Exact

variable {s : Whole} {a : CString} {fromIndex : UInt64}

/-- A searched string that is an `int` long is found where it last occurs. -/
theorem lastIndexOf_short (free : (0 : UInt8) ∉ s.bytes) (short : s.bytes.length < 2 ^ 31)
    (nonempty : a.bytes ≠ []) (filled : s.bytes ≠ []) (fits : a.bytes.length < 2 ^ 31) :
    LastIndexOfExact s a fromIndex := by
  have positive : 0 < s.bytes.length := List.length_pos_iff.mpr filled
  have needle : 0 < a.bytes.length := List.length_pos_iff.mpr nonempty
  have arglen : toInt a.bytes.length = a.bytes.length := by
    unfold toInt
    omega
  have count : (UInt64.ofInt a.bytes.length).toNat = a.bytes.length := by
    rw [ofInt_toNat]
    omega
  unfold LastIndexOfExact
  rw [lastIndexOf_nonempty short filled, arglen, if_neg (by omega)]
  dsimp only
  obtain ⟨first, same⟩ : ∃ first, start s.bytes a.bytes.length fromIndex = first := ⟨_, rfl⟩
  have value : first = min fromIndex.toNat (s.bytes.length - 1) - (a.bytes.length - 1 : Int) :=
    same.symm
  rw [same]
  by_cases outside : first < 0 ∨ 2 ^ 31 ≤ first
  · rw [if_pos outside]
    refine ⟨npos, rfl, isLastIndex_npos.mpr ?_⟩
    rintro i ⟨_, ends⟩
    omega
  · rw [if_neg outside]
    have answers : ∀ position < first.toNat + 1, ∃ answer,
        comparison s a a.bytes.length position = some answer ∧ (answer = true ↔
          (s.bytes.drop position).take a.bytes.length = a.bytes.take a.bytes.length) := by
      intro position below
      have answer := strncmp_answers s free a (show position ≤ _ by omega) a.bytes.length
      simpa only [comparison, count] using answer
    obtain ⟨found, searched, last⟩ := lastBelow_spec answers
    refine ⟨index found, by rw [searched, Option.map_some], ?_⟩
    refine isLastIndex_index last (by omega) ?_
    intro i
    rw [List.take_length, List.prefix_iff_eq_take, eq_comm, and_comm]
    refine and_congr_left fun _ => ?_
    omega

/-- A searched string that is longer than the string has no occurrence. -/
theorem lastIndexOf_long (longer : s.bytes.length < a.bytes.length) :
    LastIndexOfExact s a fromIndex ↔ lastIndexOf s.str (some a) fromIndex = some npos := by
  have nowhere : ∀ i, ¬ (a.bytes <+: s.bytes.drop i ∧
      i + a.bytes.length - 1 ≤ min fromIndex.toNat (s.bytes.length - 1)) := by
    rintro i ⟨occurs, _⟩
    have short := occurs.length_le
    rw [List.length_drop] at short
    omega
  constructor
  · rintro ⟨result, found, last⟩
    unfold IsLastIndex at last
    split at last
    · next unset => rw [found, unset]
    · exact absurd last.1 (nowhere _)
  · intro unset
    exact ⟨npos, unset, isLastIndex_npos.mpr nowhere⟩

/-- A search below a bound has no position exactly when it answers that no test holds. -/
theorem lastBelow_none {test : Nat → Option Bool} {bound : Nat} (fits : bound < 2 ^ 64) :
    (lastBelow test bound).map index = some npos ↔
      ∀ position < bound, test position = some false := by
  induction bound with
  | zero => exact iff_of_true rfl fun position below => absurd below (Nat.not_lt_zero position)
  | succ bound ih =>
      have fewer := ih (by omega)
      rw [Nat.forall_lt_succ_right, ← fewer, lastBelow]
      cases tested : test bound with
      | none => simp
      | some answer =>
          cases answer with
          | true =>
              have other := (index_some (show bound < 2 ^ 64 - 1 by omega)).1
              simpa using other
          | false => simp

/-- The comparison at a place in the string misses where the characters differ. -/
theorem comparison_misses (free : (0 : UInt8) ∉ s.bytes) (arglen : Int) {position : Nat}
    (inside : position ≤ s.bytes.length) :
    comparison s a arglen position = some false ↔
      (s.bytes.drop position).take (UInt64.ofInt arglen).toNat ≠
        a.bytes.take (UInt64.ofInt arglen).toNat := by
  obtain ⟨answer, compared, equal⟩ := strncmp_answers s free a inside (UInt64.ofInt arglen).toNat
  rw [comparison, compared, Option.some.injEq, ← Bool.not_eq_true, equal]

/-- With a negative length each comparison goes on to the end of the string and misses there. -/
theorem comparison_negative (free : (0 : UInt8) ∉ s.bytes) (short : s.bytes.length < 2 ^ 31)
    (long : 2 ^ 31 ≤ a.bytes.length) {arglen : Int} (range : -2 ^ 31 ≤ arglen)
    (negative : arglen < 0) (last : Nat) :
    (∀ position < last + 1, comparison s a arglen position = some false) ↔
      last ≤ s.bytes.length := by
  have counted := ofInt_toNat arglen
  constructor
  · intro all
    by_contra far
    have read := all last (Nat.lt_succ_self _)
    obtain ⟨count, next⟩ : ∃ count, (UInt64.ofInt arglen).toNat = count + 1 :=
      ⟨(UInt64.ofInt arglen).toNat - 1, by omega⟩
    rw [comparison, block_drop_outside s (not_le.mp far), next] at read
    cases read
  · intro inside position below
    rw [comparison_misses free arglen (by omega)]
    intro equal
    have lengths := congrArg List.length equal
    rw [List.length_take, List.length_take, List.length_drop] at lengths
    omega

/-- Where the length is not an `int`, the search is exact when it misses everywhere. -/
theorem lastIndexOf_exact_iff (free : (0 : UInt8) ∉ s.bytes) (short : s.bytes.length < 2 ^ 31)
    (nonempty : a.bytes ≠ []) :
    LastIndexOfExact s a fromIndex ↔ LengthHeld s.bytes a.bytes fromIndex := by
  unfold LengthHeld
  by_cases empty : s.bytes = []
  · have longer : s.bytes.length < a.bytes.length := by
      rw [empty]
      exact List.length_pos_iff.mpr nonempty
    rw [lastIndexOf_long longer, lastIndexOf_empty empty]
    exact iff_of_true rfl (.inl empty)
  rw [or_iff_right empty]
  by_cases fits : a.bytes.length < 2 ^ 31
  · exact iff_of_true (lastIndexOf_short free short nonempty empty fits) (.inl fits)
  have positive : 0 < s.bytes.length := List.length_pos_iff.mpr empty
  have range := toInt_length_range a.bytes
  rw [or_iff_right fits, lastIndexOf_long (by omega), lastIndexOf_nonempty short empty]
  generalize toInt a.bytes.length = arglen at range ⊢
  by_cases lowest : arglen = -2 ^ 31
  · rw [if_pos lowest]
    exact iff_of_false (Option.some_ne_none npos).symm fun held => held.1 lowest
  rw [if_neg lowest]
  dsimp only
  rw [and_iff_right lowest]
  obtain ⟨first, same⟩ : ∃ first, start s.bytes arglen fromIndex = first := ⟨_, rfl⟩
  have value : first = min fromIndex.toNat (s.bytes.length - 1) - (arglen - 1) := same.symm
  rw [same, ← or_assoc]
  by_cases outside : first < 0 ∨ 2 ^ 31 ≤ first
  · rw [if_pos outside]
    exact iff_of_true rfl (.inl outside)
  rw [if_neg outside, or_iff_right outside, lastBelow_none (by omega)]
  -- the three signs of the length that is left
  rcases lt_trichotomy arglen 0 with negative | rfl | above
  · rw [or_iff_right fun both => absurd both.1 (by omega), and_iff_right negative]
    rw [comparison_negative free short (not_lt.mp fits) range.1 negative]
    omega
  · refine iff_of_false ?_ (by omega)
    intro all
    have read := all first.toNat (Nat.lt_succ_self _)
    rw [comparison_misses free 0 (by omega), ofInt_toNat] at read
    exact read rfl
  · have counted := ofInt_toNat arglen
    have count : (UInt64.ofInt arglen).toNat = arglen.toNat := by omega
    rw [or_iff_left fun both => absurd both.1 (by omega), and_iff_right above, ← count]
    constructor
    · intro all i below
      exact (comparison_misses free arglen (by omega)).mp (all i (by omega))
    · intro all position below
      exact (comparison_misses free arglen (by omega)).mpr (all position (by omega))

end Exact

/-- The search for a string is exact where an `int` holds its length or what is left of it misses.
The search for a character always is. -/
theorem lastIndexOf_iff (s : Whole) (free : (0 : UInt8) ∉ s.bytes)
    (short : s.bytes.length < 2 ^ 31) {a : CString} (nonempty : a.bytes ≠ []) (ch : UInt8)
    (fromIndex : UInt64) :
    (LastIndexOfExact s a fromIndex ↔ LengthHeld s.bytes a.bytes fromIndex) ∧
      (fromIndex = npos ∨ fromIndex < size s.str → LastIndexOfCharExact s ch fromIndex) :=
  ⟨lastIndexOf_exact_iff free short nonempty, lastIndexOfChar_exact s ch⟩

def oneLetter : Whole where
  str := ofBytes (some [120])
  bytes := [120]
  block := rfl
  fits := by decide

theorem lastIndexOf_oneLetter :
    (LastIndexOfExact oneLetter ⟨[120], by decide⟩ npos ↔ LengthHeld [120] [120] npos) ∧
      (npos = npos ∨ npos < size oneLetter.str → LastIndexOfCharExact oneLetter 120 npos) :=
  lastIndexOf_iff oneLetter (by decide) (by decide) (by decide) 120 npos

/-- A string of as many letters as an `unsigned int` has values. -/
def manyLetters : CString where
  bytes := List.replicate (2 ^ 32) 120
  nonzero := fun zero => absurd (List.eq_of_mem_replicate zero) (by decide)

/-- No character of the long string is compared, and the search returns the length. -/
theorem manyLetters_not_exact :
    ¬ ∀ (s : Whole) (_ : (0 : UInt8) ∉ s.bytes) (_ : s.bytes.length < 2 ^ 31) (a : CString)
      (_ : a.bytes ≠ []) (fromIndex : UInt64), LastIndexOfExact s a fromIndex := by
  intro all
  have count : manyLetters.bytes.length = 2 ^ 32 := List.length_replicate
  have filled : manyLetters.bytes ≠ [] := by
    rw [← List.length_pos_iff, count]
    exact Nat.two_pow_pos 32
  have exact_ := all oneLetter (by decide) (by decide) manyLetters filled npos
  rcases (lastIndexOf_exact_iff (by decide) (by decide) filled).mp exact_ with empty | fits | held
  · cases empty
  · omega
  · have zero : toInt manyLetters.bytes.length = 0 := by
      rw [count]
      rfl
    have first : start oneLetter.bytes 0 npos = 1 := rfl
    dsimp only at held
    rw [zero, first] at held
    omega

end Blocxx.Strings
