import Blocxx.String.Whole

/-!
This file embeds `String::substring` and `String::erase` with their sums of `size_t`, and proves
when these sums are the mathematical ones.
-/

namespace Blocxx.Strings

open Library Library.Memory BinarySerialization

def npos : UInt64 := 0xFFFFFFFFFFFFFFFF

/-- `length` as the `size_t` that the code computes with. -/
def size (str : CowString) : UInt64 := UInt64.ofNat (length str)

/-- The constructor from a pointer into a block and a length. It has no result when the copy would
read outside of the block. -/
def ofMemory (block : Memory) (position count : Nat) : Option CowString :=
  (memcpy block position count).map fun bytes => ofBytes (some bytes)

def substring (str : CowString) (beginIndex len : UInt64) : Option CowString :=
  let l := size str
  if l = 0 then some none
  else if beginIndex ≥ l then some none
  else if len = 0 then some none
  else
    let count := if len = npos then l - beginIndex else len
    let count := if count + beginIndex > l then l - beginIndex else count
    ofMemory (memory str) beginIndex.toNat count.toNat

/-- A string whose last owner is left when the temporaries of an expression are gone. -/
def settled (str : CowString) : CowString := str.map fun m_buf => { m_buf with uses := 1 }

/-- The operator `+`. -/
def plus (s1 s2 : CowString) : CowString := concat (copy s1) (some (c_str s2))

def erase (str : CowString) (idx len : UInt64) : Option CowString :=
  if idx ≥ size str then some str
  else if len = npos then substring str 0 idx
  else do
    let first ← substring str 0 idx
    let second ← substring str (idx + len) npos
    return settled (plus first second)

/-- The code computes the sum of the two values without a wrap, or not at all. -/
def Sums (s : Whole) (idx len : UInt64) : Prop :=
  s.bytes.length ≤ idx.toNat ∨ len = npos ∨ idx.toNat + len.toNat < 2 ^ 64

/-- `substring` gives at most `len` characters of the string behind the first `idx` ones. -/
def SubstringExact (s : Whole) (idx len : UInt64) : Prop :=
  ∃ result, substring s.str idx len = some result ∧
    Shows result ((s.bytes.drop idx.toNat).take len.toNat)

/-- The characters that `erase` should leave. -/
def erased (s : Bytes) (idx len : Nat) : Bytes :=
  if s.length ≤ idx then s else s.take idx ++ s.drop (idx + len)

/-- `erase` leaves the first `idx` characters and those behind the erased ones. -/
def EraseExact (s : Whole) (idx len : UInt64) : Prop :=
  ∃ result, erase s.str idx len = some result ∧ Shows result (erased s.bytes idx.toNat len.toNat)

/-- What `erase` joins has no zero, and its second part starts at the sum. Behind a sum that wraps
it must not start with a character. -/
def Joins (s : Whole) (idx len : UInt64) : Prop :=
  s.bytes.length ≤ idx.toNat ∨ len = npos ∨
    if idx.toNat + len.toNat < 2 ^ 64 then
      s.bytes.length ≤ idx.toNat + len.toNat ∨
        (0 : UInt8) ∉ s.bytes.take idx.toNat ++ s.bytes.drop (idx.toNat + len.toNat)
    else s.bytes[idx.toNat + len.toNat - 2 ^ 64]? = some 0

/-- A string of these bytes, which has no buffer when there are none. -/
def made (bytes : Bytes) : CowString := if bytes = [] then none else ofBytes (some bytes)

theorem made_nil : made [] = none := rfl

theorem shows_made (bytes : Bytes) : Shows (made bytes) bytes := by
  unfold made
  split
  · next empty => exact shows_null.mpr empty
  · exact shows_ofBytes bytes

section Sizes

variable (s : Whole)

theorem size_toNat : (size s.str).toNat = s.bytes.length := by
  have fits := s.fits
  rw [size, s.length_eq, UInt64.toNat_ofNat']
  omega

theorem ge_size (idx : UInt64) : idx ≥ size s.str ↔ s.bytes.length ≤ idx.toNat := by
  rw [ge_iff_le, UInt64.le_iff_toNat_le, size_toNat]

theorem size_eq_zero : size s.str = 0 ↔ s.bytes = [] := by
  rw [← UInt64.toNat_inj, size_toNat, UInt64.toNat_zero, List.length_eq_zero_iff]

theorem npos_toNat : npos.toNat = 2 ^ 64 - 1 := by decide

theorem ofMemory_inside {position count : Nat} (inside : position + count ≤ s.bytes.length) :
    ofMemory (memory s.str) position count =
      some (ofBytes (some ((s.bytes.drop position).take count))) := by
  rw [ofMemory, s.block, memcpy_written inside, Option.map_some]

theorem ofMemory_outside {position count : Nat} (outside : s.bytes.length + 1 < position + count) :
    ofMemory (memory s.str) position count = none := by
  rw [ofMemory, s.block, memcpy_outside, Option.map_none]
  rw [List.length_append, List.length_map, List.length_singleton]
  exact outside

end Sizes

section Substrings

variable {s : Whole} {idx len : UInt64}

/-- Without a wrap of its sum `substring` gives the characters. -/
theorem substring_sums (sums : Sums s idx len) :
    substring s.str idx len = some (made ((s.bytes.drop idx.toNat).take len.toNat)) := by
  have fits := s.fits
  unfold substring
  simp only [ge_size, size_eq_zero]
  by_cases empty : s.bytes = []
  · rw [if_pos empty, empty, List.drop_nil, List.take_nil, made_nil]
  rw [if_neg empty]
  by_cases behind : s.bytes.length ≤ idx.toNat
  · rw [if_pos behind, List.drop_of_length_le behind, List.take_nil, made_nil]
  rw [if_neg behind]
  by_cases nothing : len = 0
  · rw [if_pos nothing, nothing, UInt64.toNat_zero, List.take_zero, made_nil]
  rw [if_neg nothing]
  have rest : (size s.str - idx).toNat = s.bytes.length - idx.toNat := by
    rw [UInt64.toNat_sub_of_le _ _ (by rw [UInt64.le_iff_toNat_le, size_toNat]; omega), size_toNat]
  -- the count is the smaller one of `len` and the number of characters that are left
  have count : (if (if len = npos then size s.str - idx else len) + idx > size s.str
      then size s.str - idx else if len = npos then size s.str - idx else len).toNat =
        min len.toNat (s.bytes.length - idx.toNat) := by
    by_cases all : len = npos
    · simp only [if_pos all, ite_self]
      rw [rest, all, npos_toNat, Nat.min_eq_right (by omega)]
    · simp only [if_neg all]
      have small : idx.toNat + len.toNat < 2 ^ 64 := by
        rcases sums with large | isAll | small
        · exact absurd large behind
        · exact absurd isAll all
        · exact small
      have sum : (len + idx).toNat = len.toNat + idx.toNat := by
        rw [UInt64.toNat_add]
        omega
      by_cases larger : len + idx > size s.str
      · rw [if_pos larger, rest]
        rw [gt_iff_lt, UInt64.lt_iff_toNat_lt, size_toNat, sum] at larger
        rw [Nat.min_eq_right (by omega)]
      · rw [if_neg larger]
        rw [gt_iff_lt, UInt64.lt_iff_toNat_lt, size_toNat, sum] at larger
        rw [Nat.min_eq_left (by omega)]
  have same : (s.bytes.drop idx.toNat).take (min len.toNat (s.bytes.length - idx.toNat)) =
      (s.bytes.drop idx.toNat).take len.toNat := by
    rw [← List.length_drop, ← List.take_eq_take_min]
  have nonempty : (s.bytes.drop idx.toNat).take len.toNat ≠ [] := by
    intro none
    have lengths := congrArg List.length none
    rw [List.length_take, List.length_drop, List.length_nil] at lengths
    have positive : len.toNat ≠ 0 := fun zero => nothing (UInt64.toNat_inj.mp zero)
    omega
  rw [count, ofMemory_inside s (by omega), same, made, if_neg nonempty]

/-- A sum that wraps is small, and the copy of all `len` characters reads outside of the block. -/
theorem substring_wraps (wraps : ¬ Sums s idx len) : substring s.str idx len = none := by
  have fits := s.fits
  have bound := len.toNat_lt
  rw [Sums, not_or, not_or] at wraps
  obtain ⟨inside, notAll, large⟩ := wraps
  have some : s.bytes ≠ [] := by
    rintro empty
    rw [empty, List.length_nil] at inside
    exact inside (Nat.zero_le _)
  have notZero : len ≠ 0 := by
    rintro rfl
    rw [UInt64.toNat_zero] at large
    have small := idx.toNat_lt
    omega
  have sum : (len + idx).toNat = len.toNat + idx.toNat - 2 ^ 64 := by
    rw [UInt64.toNat_add]
    omega
  have notLarger : ¬ len + idx > size s.str := by
    rw [gt_iff_lt, UInt64.lt_iff_toNat_lt, size_toNat, sum]
    omega
  unfold substring
  simp only [ge_size, size_eq_zero, if_neg some, if_neg inside, if_neg notZero, if_neg notAll,
    if_neg notLarger]
  exact ofMemory_outside s (by omega)

theorem substring_exact_iff : SubstringExact s idx len ↔ Sums s idx len := by
  constructor
  · rintro ⟨result, given, -⟩
    by_contra wraps
    rw [substring_wraps wraps] at given
    cases given
  · intro sums
    exact ⟨_, substring_sums sums, shows_made _⟩

end Substrings

section Erasures

theorem c_str_made (bytes : Bytes) : (c_str (made bytes)).bytes = bytes.takeWhile (· ≠ 0) := by
  show cString (memory (made bytes)) = _
  unfold made
  split
  · next empty =>
      rw [empty]
      rfl
  · exact cString_ofBlock bytes

theorem text_copy_made (bytes : Bytes) : text (copy (made bytes)) = bytes.takeWhile (· ≠ 0) := by
  unfold made
  split
  · next empty =>
      rw [empty]
      rfl
  · exact text_copies bytes 1

theorem length_copy_made (bytes : Bytes) : length (copy (made bytes)) = bytes.length := by
  unfold made
  split
  · next empty =>
      rw [empty]
      rfl
  · exact copies_length bytes 1

theorem shows_copy_made (bytes : Bytes) : Shows (copy (made bytes)) bytes := by
  unfold made
  split
  · next empty => exact shows_null.mpr empty
  · exact copies_shows bytes 1

/-- Nothing is added when the second string starts with a zero. -/
theorem plus_nothing (first : Bytes) {second : Bytes} (nothing : second.takeWhile (· ≠ 0) = []) :
    plus (made first) (made second) = copy (made first) :=
  concat_empty ((c_str_made second).trans nothing)

/-- The characters in front of the first zero are added to a string without a zero. -/
theorem plus_something (first : Bytes) {second : Bytes}
    (something : second.takeWhile (· ≠ 0) ≠ []) :
    length (plus (made first) (made second)) =
        first.length + (second.takeWhile (· ≠ 0)).length ∧
      (Shows (plus (made first) (made second)) (first ++ second.takeWhile (· ≠ 0)) ↔
        (0 : UInt8) ∉ first) := by
  have same := c_str_made second
  have nonempty : (c_str (made second)).bytes ≠ [] := same ▸ something
  constructor
  · rw [← same, ← length_copy_made, plus, concat]
    dsimp only
    rw [if_neg nonempty]
    rfl
  · rw [← same]
    exact concat_shows_iff (length_copy_made first) (text_copy_made first) nonempty

/-- The sum shows both strings exactly when they have no zero or nothing is added. -/
theorem plus_shows_iff (first second : Bytes) :
    Shows (plus (made first) (made second)) (first ++ second) ↔
      second = [] ∨ (0 : UInt8) ∉ first ++ second := by
  by_cases nothing : second.takeWhile (· ≠ 0) = []
  · rw [plus_nothing first nothing]
    constructor
    · intro shows
      have same := shows.unique (shows_copy_made first)
      exact .inl (List.append_right_eq_self.mp same)
    · rintro (rfl | free)
      · rw [List.append_nil]
        exact shows_copy_made first
      · rw [List.mem_append, not_or] at free
        rw [takeWhile_nonzero free.2] at nothing
        rw [nothing, List.append_nil]
        exact shows_copy_made first
  · obtain ⟨length, shown⟩ := plus_something first nothing
    constructor
    · intro shows
      -- the lengths agree only when the second string ends at its first zero
      have lengths := shows.1
      rw [length, List.length_append, Nat.add_left_cancel_iff] at lengths
      have whole := (List.takeWhile_prefix (p := (· ≠ (0 : UInt8))) (l := second)).eq_of_length
        lengths
      rw [whole] at shown
      right
      rw [List.mem_append, not_or]
      refine ⟨shown.mp shows, ?_⟩
      intro zero
      have kept := List.mem_takeWhile_imp (whole.symm ▸ zero)
      simp at kept
    · rintro (rfl | free)
      · exact absurd List.takeWhile_nil nothing
      · rw [List.mem_append, not_or] at free
        rw [takeWhile_nonzero free.2] at shown
        exact shown.mpr free.1

/-- The sum shows the first string exactly when the second one starts with a zero. -/
theorem plus_shows_first (first second : Bytes) :
    Shows (plus (made first) (made second)) first ↔ second.takeWhile (· ≠ 0) = [] := by
  by_cases nothing : second.takeWhile (· ≠ 0) = []
  · rw [plus_nothing first nothing]
    exact iff_of_true (shows_copy_made first) nothing
  · refine iff_of_false ?_ nothing
    intro shows
    have lengths := shows.1
    rw [(plus_something first nothing).1] at lengths
    exact nothing (List.eq_nil_of_length_eq_zero (by omega))

theorem shows_settled (str : CowString) (bytes : Bytes) :
    Shows (settled str) bytes ↔ Shows str bytes := by
  cases str with
  | none => exact Iff.rfl
  | some m_buf => exact Iff.rfl

variable {s : Whole} {idx len : UInt64}

/-- Inside of the string `erase` adds what is behind the sum of `size_t`. -/
theorem erase_eq (inside : ¬ s.bytes.length ≤ idx.toNat) (bounded : len ≠ npos) :
    erase s.str idx len = some (settled (plus (made (s.bytes.take idx.toNat))
      (made (s.bytes.drop (idx + len).toNat)))) := by
  have bound := idx.toNat_lt
  have fits := s.fits
  have first : Sums s 0 idx := .inr (.inr (by rw [UInt64.toNat_zero]; omega))
  have second : Sums s (idx + len) npos := .inr (.inl rfl)
  have all : s.bytes.length - (idx + len).toNat ≤ npos.toNat := by
    rw [npos_toNat]
    omega
  have kept := substring_sums first
  have added := substring_sums second
  rw [UInt64.toNat_zero, List.drop_zero] at kept
  rw [List.take_of_length_le (by rwa [List.length_drop])] at added
  rw [erase, if_neg (by rwa [ge_size]), if_neg bounded, kept, added]
  rfl

theorem erase_exact_iff : EraseExact s idx len ↔ Joins s idx len := by
  have fits := s.fits
  rw [Joins, EraseExact, erased]
  by_cases outside : s.bytes.length ≤ idx.toNat
  · rw [if_pos outside]
    refine iff_of_true ⟨s.str, ?_, s.shows⟩ (.inl outside)
    rw [erase, if_pos (by rwa [ge_size])]
  rw [if_neg outside, or_iff_right outside]
  by_cases all : len = npos
  · refine iff_of_true ⟨made (s.bytes.take idx.toNat), ?_, ?_⟩ (.inl all)
    · have bound := idx.toNat_lt
      have first : Sums s 0 idx := .inr (.inr (by rw [UInt64.toNat_zero]; omega))
      have kept := substring_sums first
      rw [UInt64.toNat_zero, List.drop_zero] at kept
      rw [erase, if_neg (by rwa [ge_size]), if_pos all, kept]
    · rw [all, npos_toNat, List.drop_of_length_le (by omega), List.append_nil]
      exact shows_made _
  rw [or_iff_right all, erase_eq outside all]
  have only (target : Bytes) : (∃ result, some (settled (plus (made (s.bytes.take idx.toNat))
      (made (s.bytes.drop (idx + len).toNat)))) = some result ∧ Shows result target) ↔
        Shows (plus (made (s.bytes.take idx.toNat)) (made (s.bytes.drop (idx + len).toNat)))
          target := by
    constructor
    · rintro ⟨result, same, shows⟩
      rw [← Option.some.inj same] at shows
      exact (shows_settled _ _).mp shows
    · intro shows
      exact ⟨_, rfl, (shows_settled _ _).mpr shows⟩
  rw [only]
  have bound := len.toNat_lt
  by_cases small : idx.toNat + len.toNat < 2 ^ 64
  · have sum : (idx + len).toNat = idx.toNat + len.toNat := by
      rw [UInt64.toNat_add]
      omega
    rw [if_pos small, sum, plus_shows_iff, List.drop_eq_nil_iff]
  · have sum : (idx + len).toNat = idx.toNat + len.toNat - 2 ^ 64 := by
      rw [UInt64.toNat_add]
      omega
    have there : (idx + len).toNat < s.bytes.length := by omega
    have gone : s.bytes.drop (idx.toNat + len.toNat) = [] := List.drop_of_length_le (by omega)
    rw [if_neg small, gone, List.append_nil, plus_shows_first, ← sum,
      List.drop_eq_getElem_cons there, List.getElem?_eq_getElem there, Option.some_inj]
    by_cases zero : s.bytes[(idx + len).toNat] = 0
    · exact iff_of_true (List.takeWhile_cons_of_neg (by simpa using zero)) zero
    · refine iff_of_false ?_ zero
      rw [List.takeWhile_cons_of_pos (by simpa using zero)]
      exact List.cons_ne_nil _ _

end Erasures

/-- `substring` and `erase` take and drop exactly when their sums do not wrap and the parts that
`erase` joins have no zero. -/
theorem substring_erase_iff (s : Whole) (idx len : UInt64) :
    (SubstringExact s idx len ↔ Sums s idx len) ∧ (EraseExact s idx len ↔ Joins s idx len) :=
  ⟨substring_exact_iff, erase_exact_iff⟩

/-- Three characters without other owners. -/
def threeLetters : Whole where
  str := ofBytes (some [97, 98, 99])
  bytes := [97, 98, 99]
  block := rfl
  fits := by decide

/-- The last character, asked for with almost the largest length. -/
theorem largeLength_not_exact :
    ¬ ∀ (s : Whole) (idx len : UInt64), SubstringExact s idx len ∧ EraseExact s idx len := by
  intro all
  have sums := substring_exact_iff.mp (all threeLetters 2 (npos - 1)).1
  unfold Sums at sums
  revert sums
  decide

end Blocxx.Strings
