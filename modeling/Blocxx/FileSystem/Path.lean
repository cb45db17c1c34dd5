import Blocxx.Library.Words
import Blocxx.String.LastIndexOf
import Mathlib.Data.List.DropRight

/-!
This file embeds `FileSystem::Path::dirname` and `basename` on POSIX and proves that they split a
path as the functions of POSIX do.
-/

namespace Blocxx.FileSystem.Path

open Strings Library Library.Memory Library.Words BinarySerialization

/-- `BLOCXX_FILENAME_SEPARATOR_C`. -/
def separator : UInt8 := 0x2F

def root : Bytes := [separator]

def dot : Bytes := [0x2E]

/-- The operator `[]` of a constant string. -/
def at_ (str : CowString) (ndx : Nat) : Option UInt8 :=
  if ndx ≤ length str then (memory str).byteAt ndx else some 0

/-- The loops that go back while the index is positive and the character this far in front of it is
a separator. -/
def skipSeparators (filename : CowString) (back : Nat) : Nat → Option Nat
  | 0 => some 0
  | position + 1 => do
      if (← at_ filename (position + 1 - back)) = separator then
        skipSeparators filename back position
      else return position + 1

/-- No mock object is installed. -/
def dirname (filename : CowString) : Option CowString := do
  if length filename = 0 then return ofBytes (some dot)
  let lastSlash ← skipSeparators filename 0 (length filename - 1)
  let lastSlash ← lastIndexOfChar filename separator (UInt64.ofNat lastSlash)
  if lastSlash = npos then return ofBytes (some dot)
  let lastSlash ← skipSeparators filename 1 lastSlash.toNat
  if lastSlash = 0 then return ofBytes (some root)
  substring filename 0 (UInt64.ofNat lastSlash)

def basename (filename : CowString) : Option CowString := do
  if length filename = 0 then return copy filename
  let last ← skipSeparators filename 0 (length filename - 1)
  if last = 0 ∧ (← at_ filename 0) = separator then return ofBytes (some root)
  let last := if last = length filename - 1 then npos else UInt64.ofNat last
  let beg ← lastIndexOfChar filename separator last
  let beg := if beg = npos then 0 else beg + 1
  let len := if last = npos then last else last + 1 - beg
  substring filename beg len

/-- A path without its trailing separators. -/
def withoutTrailing (path : Bytes) : Bytes := path.rdropWhile (· == separator)

/-- A path up to its last separator. -/
def upToLast (path : Bytes) : Bytes := path.rdropWhile (· != separator)

/-- The result of `dirname()` in POSIX. Where two leading separators may be kept, they are not. -/
def posixDirname (path : Bytes) : Bytes :=
  if path = [] then dot
  else if withoutTrailing path = [] then root
  else if separator ∉ withoutTrailing path then dot
  else if withoutTrailing (upToLast (withoutTrailing path)) = [] then root
  else withoutTrailing (upToLast (withoutTrailing path))

/-- The result of `basename()` in POSIX. -/
def posixBasename (path : Bytes) : Bytes :=
  if path = [] then dot
  else if withoutTrailing path = [] then root
  else (withoutTrailing path).rtakeWhile (· != separator)

/-- The non-empty components. -/
def components (path : Bytes) : List Bytes := words (· == separator) path

variable {s : Whole}

theorem at_eq {ndx : Nat} (inside : ndx < s.bytes.length) :
    at_ s.str ndx = s.bytes[ndx]? := by
  rw [at_, s.length_eq, if_pos inside.le, s.block, byteAt_written inside,
    List.getElem?_eq_getElem inside]
  rfl

theorem length_ne_zero (nonempty : s.bytes ≠ []) : length s.str ≠ 0 := by
  rw [s.length_eq]
  exact mt List.length_eq_zero_iff.mp nonempty

/-- One round of the loops. -/
theorem skipSeparators_step {back position index : Nat} (before : position + 1 - back = index)
    (inside : index < s.bytes.length) :
    skipSeparators s.str back (position + 1) =
      if s.bytes[index] = separator then skipSeparators s.str back position
      else some (position + 1) := by
  rw [skipSeparators, before, at_eq inside, List.getElem?_eq_getElem inside, Option.bind_eq_bind,
    Option.bind_some]
  rfl

/-- One more character is kept with all before it, or it is a trailing separator. -/
theorem withoutTrailing_take {path : Bytes} {position : Nat} (inside : position < path.length) :
    withoutTrailing (path.take (position + 1)) =
      if path[position] = separator then withoutTrailing (path.take position)
      else path.take (position + 1) := by
  rw [List.take_add_one, List.getElem?_eq_getElem inside, Option.toList_some, withoutTrailing]
  split
  next same => exact List.rdropWhile_concat_pos _ _ _ (by simpa using same)
  next other => exact List.rdropWhile_concat_neg _ _ _ (by simpa using other)

/-- The loop stops at the last character that is no separator, or at the first character. -/
theorem skipSeparators_last {position : Nat} (inside : position < s.bytes.length) :
    skipSeparators s.str 0 position =
      some ((withoutTrailing (s.bytes.take (position + 1))).length - 1) := by
  induction position with
  | zero =>
      rw [skipSeparators, withoutTrailing_take inside, List.take_zero]
      split
      · rfl
      · rw [List.length_take, Nat.min_eq_left inside]
  | succ position ih =>
      rw [skipSeparators_step (Nat.sub_zero _) inside, withoutTrailing_take inside]
      split
      · exact ih (by omega)
      · rw [List.length_take, Nat.min_eq_left inside]
        rfl

/-- The loop stops behind the last character that is no separator. -/
theorem skipSeparators_behind {position : Nat} (inside : position ≤ s.bytes.length) :
    skipSeparators s.str 1 position =
      some (withoutTrailing (s.bytes.take position)).length := by
  induction position with
  | zero => rfl
  | succ position ih =>
      rw [skipSeparators_step (Nat.add_sub_cancel _ _) inside, withoutTrailing_take inside]
      split
      · exact ih (by omega)
      · rw [List.length_take, Nat.min_eq_left inside]

theorem upToLast_eq_nil {path : Bytes} : upToLast path = [] ↔ separator ∉ path := by
  rw [upToLast, List.rdropWhile_eq_nil_iff]
  constructor
  · intro all member
    simpa using all separator member
  · intro none c member
    have other : c ≠ separator := fun same => none (same ▸ member)
    simpa using other

theorem withoutTrailing_eq_nil {path : Bytes} :
    withoutTrailing path = [] ↔ ∀ c ∈ path, c = separator := by
  rw [withoutTrailing, List.rdropWhile_eq_nil_iff]
  simp

theorem nonempty_of_filled {path : Bytes} (filled : withoutTrailing path ≠ []) : path ≠ [] := by
  intro empty
  rw [empty] at filled
  exact filled rfl

/-- The last separator is the end of the path up to it. -/
theorem upToLast_greatest {path : Bytes} (member : separator ∈ path) :
    IsGreatest {i | path[i]? = some separator} ((upToLast path).length - 1) := by
  induction path using List.reverseRecOn with
  | nil => cases member
  | append_singleton path c ih =>
      by_cases same : c = separator
      · rw [same, upToLast, List.rdropWhile_concat_neg _ _ _ (by simp)]
        constructor
        · simp
        · intro i found
          obtain ⟨inside, _⟩ := List.getElem?_eq_some_iff.mp found
          exact Nat.le_sub_one_of_lt inside
      · rw [upToLast, List.rdropWhile_concat_pos _ _ _ (by simpa using same), ← upToLast]
        have before : separator ∈ path := by simpa [Ne.symm same] using member
        obtain ⟨found, greatest⟩ := ih before
        obtain ⟨inside, _⟩ := List.getElem?_eq_some_iff.mp found
        constructor
        · show (path ++ [c])[_]? = _
          rw [List.getElem?_append_left inside]
          exact found
        · intro i here
          apply greatest
          show path[i]? = some separator
          have notLast : i ≠ path.length := by
            rintro rfl
            simp [same] at here
          have below : i < path.length := by
            obtain ⟨within, _⟩ := List.getElem?_eq_some_iff.mp here
            simp at within
            omega
          change (path ++ [c])[i]? = some separator at here
          rwa [List.getElem?_append_left below] at here

/-- The index of the last separator of the characters that are searched. -/
theorem lastIndexOfChar_eq {fromIndex : UInt64} {bound : Nat}
    (inside : fromIndex = npos ∨ fromIndex < size s.str)
    (searched : min fromIndex.toNat (s.bytes.length - 1) + 1 = bound) :
    lastIndexOfChar s.str separator fromIndex = some
      (if upToLast (s.bytes.take bound) = [] then npos
        else UInt64.ofNat ((upToLast (s.bytes.take bound)).length - 1)) := by
  obtain ⟨result, found, last⟩ := lastIndexOfChar_exact s separator inside
  have positions (i : Nat) : (s.bytes.take bound)[i]? = some separator ↔
      i ≤ min fromIndex.toNat (s.bytes.length - 1) ∧ s.bytes[i]? = some separator := by
    rw [List.getElem?_take, ← searched]
    by_cases below : i < min fromIndex.toNat (s.bytes.length - 1) + 1
    · simp [below, Nat.le_of_lt_succ below]
    · simp [below, show ¬ i ≤ min fromIndex.toNat (s.bytes.length - 1) by omega]
  simp only [IsLastIndex, ← positions] at last
  rw [found]
  simp only [upToLast_eq_nil]
  by_cases member : separator ∈ s.bytes.take bound
  · have greatest := upToLast_greatest member
    have isIndex : result ≠ npos := by
      intro unset
      rw [if_pos unset] at last
      exact last _ greatest.1
    rw [if_neg isIndex] at last
    rw [if_neg (not_not.mpr member), ← last.unique greatest, UInt64.ofNat_toNat]
  · rw [if_pos member]
    by_contra isIndex
    rw [if_neg fun unset => isIndex (congrArg some unset)] at last
    exact member (List.mem_of_getElem? last.1)

/-- A path is its part without trailing separators and these separators. -/
theorem exists_trailing (path : Bytes) : ∃ trailing, path = withoutTrailing path ++ trailing ∧
    ∀ c ∈ trailing, c = separator := by
  refine ⟨path.rtakeWhile (· == separator), List.rdropWhile_append_rtakeWhile.symm, ?_⟩
  intro c member
  simpa using List.mem_rtakeWhile_imp member

/-- A path is its part up to the last separator and the characters behind it. -/
theorem upToLast_append (path : Bytes) :
    upToLast path ++ path.rtakeWhile (· != separator) = path :=
  List.rdropWhile_append_rtakeWhile

theorem take_withoutTrailing (path : Bytes) :
    path.take (withoutTrailing path).length = withoutTrailing path :=
  (List.prefix_iff_eq_take.mp (List.rdropWhile_prefix _ _)).symm

theorem getLast_withoutTrailing {path : Bytes} (filled : withoutTrailing path ≠ []) :
    (withoutTrailing path).getLast filled ≠ separator :=
  mt beq_iff_eq.mpr (List.rdropWhile_last_not _ _ filled)

theorem getLast_upToLast {path : Bytes} (filled : upToLast path ≠ []) :
    (upToLast path).getLast filled = separator :=
  not_not.mp (mt bne_iff_ne.mpr (List.rdropWhile_last_not _ _ filled))

/-- The last separator of the part up to it is a trailing one. -/
theorem withoutTrailing_dropLast {path : Bytes} (member : separator ∈ path) :
    withoutTrailing (upToLast path).dropLast = withoutTrailing (upToLast path) := by
  have nonempty : upToLast path ≠ [] := mt upToLast_eq_nil.mp (not_not.mpr member)
  conv_rhs => rw [← List.dropLast_append_getLast nonempty, getLast_upToLast nonempty]
  rw [withoutTrailing, withoutTrailing, List.rdropWhile_concat_pos _ _ _ (by simp)]

/-- The search starts at the last character that is no trailing separator. -/
theorem skipSeparators_trailing (filled : s.bytes ≠ []) :
    skipSeparators s.str 0 (length s.str - 1) = some ((withoutTrailing s.bytes).length - 1) := by
  have positive := List.length_pos_iff.mpr filled
  rw [s.length_eq, skipSeparators_last (by omega), Nat.sub_add_cancel positive, List.take_length]

theorem withoutTrailing_length_le (path : Bytes) : (withoutTrailing path).length ≤ path.length :=
  (List.rdropWhile_prefix _ _).length_le

theorem toNat_position {position : Nat} (inside : position ≤ s.bytes.length) :
    (UInt64.ofNat position).toNat = position := by
  have fits := s.fits
  rw [UInt64.toNat_ofNat', Nat.mod_eq_of_lt (by omega)]

theorem position_ne_npos {position : Nat} (inside : position ≤ s.bytes.length) :
    UInt64.ofNat position ≠ npos := by
  have fits := s.fits
  have same := toNat_position inside
  intro unset
  rw [unset, npos_toNat] at same
  omega

/-- The search from the last character that is no trailing separator. -/
theorem lastIndexOfChar_trailing (filled : s.bytes ≠ []) {bound : Nat}
    (searched : (withoutTrailing s.bytes).length - 1 + 1 = bound) :
    lastIndexOfChar s.str separator (UInt64.ofNat ((withoutTrailing s.bytes).length - 1)) = some
      (if upToLast (s.bytes.take bound) = [] then npos
        else UInt64.ofNat ((upToLast (s.bytes.take bound)).length - 1)) := by
  have positive := List.length_pos_iff.mpr filled
  have short := withoutTrailing_length_le s.bytes
  have start := toNat_position (s := s) (show (withoutTrailing s.bytes).length - 1 ≤ _ by omega)
  apply lastIndexOfChar_eq
  · right
    rw [UInt64.lt_iff_toNat_lt, start, size_toNat]
    omega
  · rw [start]
    omega

theorem dirname_slashes (filled : s.bytes ≠ []) (slashes : withoutTrailing s.bytes = []) :
    dirname s.str = some (ofBytes (some root)) := by
  have nonzero := length_ne_zero filled
  have first : s.bytes.take 1 = [separator] := by
    obtain ⟨c, rest, cons⟩ := List.exists_cons_of_ne_nil filled
    have same := withoutTrailing_eq_nil.mp slashes c (cons ▸ List.mem_cons_self)
    rw [cons, same]
    rfl
  have found := lastIndexOfChar_trailing filled
    (show (withoutTrailing s.bytes).length - 1 + 1 = 1 by rw [slashes]; rfl)
  have skipped := skipSeparators_trailing filled
  rw [first] at found
  rw [slashes] at found skipped
  simp only [dirname, nonzero, skipped, found, if_false, Option.bind_eq_bind, Option.bind_some,
    Option.pure_def]
  rfl

/-- The search finds the last separator in front of the last component. -/
theorem lastIndexOfChar_component (filled : withoutTrailing s.bytes ≠ []) :
    lastIndexOfChar s.str separator (UInt64.ofNat ((withoutTrailing s.bytes).length - 1)) = some
      (if upToLast (withoutTrailing s.bytes) = [] then npos
        else UInt64.ofNat ((upToLast (withoutTrailing s.bytes)).length - 1)) := by
  have positive := List.length_pos_iff.mpr filled
  have nonempty := nonempty_of_filled filled
  have found := lastIndexOfChar_trailing nonempty (Nat.sub_add_cancel positive)
  rwa [take_withoutTrailing] at found

theorem dirname_file (filled : withoutTrailing s.bytes ≠ [])
    (file : separator ∉ withoutTrailing s.bytes) :
    dirname s.str = some (ofBytes (some dot)) := by
  have nonempty := nonempty_of_filled filled
  have nonzero := length_ne_zero nonempty
  have found := lastIndexOfChar_component filled
  rw [if_pos (upToLast_eq_nil.mpr file)] at found
  simp only [dirname, nonzero, skipSeparators_trailing nonempty, found, if_false, if_true,
    Option.bind_eq_bind, Option.bind_some, Option.pure_def]

theorem take_dropLast {front path : Bytes} (isPrefix : front <+: path) :
    path.take (front.length - 1) = front.dropLast := by
  obtain ⟨rest, rfl⟩ := isPrefix
  rw [List.dropLast_eq_take, List.take_append_of_le_length (Nat.sub_le _ _)]

theorem dirname_directory (inside : separator ∈ withoutTrailing s.bytes) :
    dirname s.str = some (ofBytes (some
      (if withoutTrailing (upToLast (withoutTrailing s.bytes)) = [] then root
        else withoutTrailing (upToLast (withoutTrailing s.bytes))))) := by
  have filled : withoutTrailing s.bytes ≠ [] := List.ne_nil_of_mem inside
  have nonempty := nonempty_of_filled filled
  have nonzero := length_ne_zero nonempty
  have found := lastIndexOfChar_component filled
  have isIndex : upToLast (withoutTrailing s.bytes) ≠ [] :=
    mt upToLast_eq_nil.mp (not_not.mpr inside)
  have fits := s.fits
  have prefix_ : upToLast (withoutTrailing s.bytes) <+: s.bytes :=
    (List.rdropWhile_prefix _ _).trans (List.rdropWhile_prefix _ _)
  have short := prefix_.length_le
  have position := toNat_position (s := s)
    (show (upToLast (withoutTrailing s.bytes)).length - 1 ≤ s.bytes.length by omega)
  have notNpos := position_ne_npos (s := s)
    (show (upToLast (withoutTrailing s.bytes)).length - 1 ≤ s.bytes.length by omega)
  have skipped := skipSeparators_behind (s := s)
    (show (upToLast (withoutTrailing s.bytes)).length - 1 ≤ s.bytes.length by omega)
  have before : s.bytes.take ((upToLast (withoutTrailing s.bytes)).length - 1) =
      (upToLast (withoutTrailing s.bytes)).dropLast :=
    take_dropLast prefix_
  rw [before, withoutTrailing_dropLast inside] at skipped
  rw [if_neg isIndex] at found
  simp only [dirname, nonzero, skipSeparators_trailing nonempty, found, position, notNpos, skipped,
    if_false, Option.bind_eq_bind, Option.bind_some, Option.pure_def, List.length_eq_zero_iff]
  split
  · rfl
  · next named =>
      have directory : withoutTrailing (upToLast (withoutTrailing s.bytes)) <+: s.bytes :=
        (List.rdropWhile_prefix _ _).trans prefix_
      have shorter := directory.length_le
      have length := toNat_position shorter
      rw [substring_sums (.inr (.inr (by rw [length, UInt64.toNat_zero]; omega))), length,
        UInt64.toNat_zero, List.drop_zero, ← List.prefix_iff_eq_take.mp directory, made,
        if_neg named]

theorem dirname_eq (s : Whole) : ∃ result, dirname s.str = some result ∧
    Shows result (posixDirname s.bytes) := by
  unfold posixDirname
  by_cases empty : s.bytes = []
  · rw [if_pos empty]
    refine ⟨ofBytes (some dot), ?_, shows_ofBytes dot⟩
    simp [dirname, s.length_eq, empty]
  rw [if_neg empty]
  by_cases slashes : withoutTrailing s.bytes = []
  · rw [if_pos slashes]
    exact ⟨_, dirname_slashes empty slashes, shows_ofBytes root⟩
  rw [if_neg slashes]
  by_cases inside : separator ∈ withoutTrailing s.bytes
  · rw [if_neg (not_not.mpr inside)]
    exact ⟨_, dirname_directory inside, shows_ofBytes _⟩
  · rw [if_pos inside]
    exact ⟨_, dirname_file slashes inside, shows_ofBytes dot⟩

theorem basename_slashes (filled : s.bytes ≠ []) (slashes : withoutTrailing s.bytes = []) :
    basename s.str = some (ofBytes (some root)) := by
  have nonzero := length_ne_zero filled
  have skipped := skipSeparators_trailing filled
  rw [slashes] at skipped
  have first : at_ s.str 0 = some separator := by
    have positive := List.length_pos_iff.mpr filled
    rw [at_eq positive, List.getElem?_eq_getElem positive]
    exact congrArg some (withoutTrailing_eq_nil.mp slashes _ (List.getElem_mem positive))
  simp only [basename, nonzero, skipped, first, if_false, Option.bind_eq_bind, Option.bind_some,
    Option.pure_def]
  rfl

/-- The search of `basename`, which starts at the end of the string when no separator trails. -/
theorem lastIndexOfChar_basename (filled : withoutTrailing s.bytes ≠ []) :
    lastIndexOfChar s.str separator (if (withoutTrailing s.bytes).length - 1 = length s.str - 1
        then npos else UInt64.ofNat ((withoutTrailing s.bytes).length - 1)) = some
      (if upToLast (withoutTrailing s.bytes) = [] then npos
        else UInt64.ofNat ((upToLast (withoutTrailing s.bytes)).length - 1)) := by
  split
  · next whole =>
      have fits := s.fits
      have positive := List.length_pos_iff.mpr filled
      rw [s.length_eq] at whole
      have searched : min npos.toNat (s.bytes.length - 1) + 1 =
          (withoutTrailing s.bytes).length := by
        rw [npos_toNat]
        omega
      have found := lastIndexOfChar_eq (s := s) (.inl rfl) searched
      rwa [take_withoutTrailing] at found
  · exact lastIndexOfChar_component filled

/-- The character behind the one that was found is the first one of the component. -/
theorem beg_eq {front : Bytes} (short : front.length ≤ s.bytes.length) :
    (if (if front = [] then npos else UInt64.ofNat (front.length - 1)) = npos then 0
      else (if front = [] then npos else UInt64.ofNat (front.length - 1)) + 1) =
      UInt64.ofNat front.length := by
  by_cases none : front = []
  · rw [if_pos none, if_pos rfl, none]
    rfl
  · have fits := s.fits
    have positive := List.length_pos_iff.mpr none
    have position := toNat_position (s := s) (show front.length - 1 ≤ s.bytes.length by omega)
    rw [if_neg none, if_neg]
    · apply UInt64.toNat_inj.mp
      rw [UInt64.toNat_add, position, toNat_position short, UInt64.toNat_one]
      omega
    · exact position_ne_npos (s := s) (by omega)

theorem first_ne_separator (filled : withoutTrailing s.bytes ≠ []) :
    ¬ ((withoutTrailing s.bytes).length - 1 = 0 ∧ s.bytes[0]? = some separator) := by
  rintro ⟨single, first⟩
  obtain ⟨trailing, whole, -⟩ := exists_trailing s.bytes
  obtain ⟨c, rest, cons⟩ := List.exists_cons_of_ne_nil filled
  have kept : withoutTrailing (withoutTrailing s.bytes) = withoutTrailing s.bytes :=
    List.rdropWhile_idempotent _ _
  rw [whole, cons] at first
  rw [cons] at single
  have alone : rest = [] := List.length_eq_zero_iff.mp single
  subst alone
  have same : c = separator := Option.some.inj first
  rw [cons, same] at kept
  exact absurd kept (by decide)

/-- The last component runs to the end of the part without trailing separators. -/
theorem basename_component (filled : withoutTrailing s.bytes ≠ []) :
    basename s.str = some (made ((withoutTrailing s.bytes).rtakeWhile (· != separator))) := by
  have fits := s.fits
  have positive := List.length_pos_iff.mpr filled
  have nonempty := nonempty_of_filled filled
  have nonzero := length_ne_zero nonempty
  have short := withoutTrailing_length_le s.bytes
  have shorter : (upToLast (withoutTrailing s.bytes)).length ≤ (withoutTrailing s.bytes).length :=
    (List.rdropWhile_prefix _ _).length_le
  have notFirst := first_ne_separator filled
  have first : at_ s.str 0 = some (s.bytes.head nonempty) := by
    rw [at_eq (List.length_pos_iff.mpr nonempty), ← List.head?_eq_getElem?, List.head?_eq_some_head]
  rw [← List.head?_eq_getElem?, List.head?_eq_some_head nonempty, Option.some.injEq] at notFirst
  simp only [basename, nonzero, skipSeparators_trailing nonempty, first, notFirst,
    lastIndexOfChar_basename filled, beg_eq (shorter.trans short), if_false, Option.bind_eq_bind,
    Option.bind_some]
  obtain ⟨trailing, whole, -⟩ := exists_trailing s.bytes
  have parts := upToLast_append (withoutTrailing s.bytes)
  have lengths := congrArg List.length whole
  have partLengths := congrArg List.length parts
  rw [List.length_append] at lengths partLengths
  have component : s.bytes.drop (upToLast (withoutTrailing s.bytes)).length =
      (withoutTrailing s.bytes).rtakeWhile (· != separator) ++ trailing := by
    have split : s.bytes = upToLast (withoutTrailing s.bytes) ++
        ((withoutTrailing s.bytes).rtakeWhile (· != separator) ++ trailing) := by
      rw [← List.append_assoc, parts]
      exact whole
    exact (congrArg (List.drop _) split).trans List.drop_left
  have beg := toNat_position (shorter.trans short)
  by_cases ends : (withoutTrailing s.bytes).length - 1 = length s.str - 1
  · rw [if_pos ends, if_pos rfl, substring_sums (.inr (.inl rfl)), beg, component]
    rw [s.length_eq] at ends
    have none : trailing = [] := List.length_eq_zero_iff.mp (by omega)
    rw [none, List.append_nil, List.take_of_length_le (by rw [npos_toNat]; omega)]
  · have last := toNat_position (s := s) (show (withoutTrailing s.bytes).length - 1 ≤ _ by omega)
    have notNpos := position_ne_npos (s := s)
      (show (withoutTrailing s.bytes).length - 1 ≤ _ by omega)
    have len : (UInt64.ofNat ((withoutTrailing s.bytes).length - 1) + 1 -
        UInt64.ofNat (upToLast (withoutTrailing s.bytes)).length).toNat =
          ((withoutTrailing s.bytes).rtakeWhile (· != separator)).length := by
      rw [UInt64.toNat_sub, UInt64.toNat_add, last, beg, UInt64.toNat_one]
      omega
    rw [if_neg ends, if_neg notNpos, substring_sums (.inr (.inr (by rw [len, beg]; omega))), beg,
      len, component, List.take_left]

theorem shows_copy {str : CowString} {bytes : Bytes} (shows : Shows str bytes) :
    Shows (copy str) bytes := by
  cases str with
  | none => exact shows
  | some m_buf => exact shows

/-- The result for an empty string is the string. -/
theorem basename_eq (s : Whole) : ∃ result, basename s.str = some result ∧
    Shows result (if s.bytes = [] then [] else posixBasename s.bytes) := by
  unfold posixBasename
  by_cases empty : s.bytes = []
  · rw [if_pos empty]
    refine ⟨copy s.str, ?_, ?_⟩
    · simp [basename, s.length_eq, empty]
    · rw [← empty]
      exact shows_copy s.shows
  rw [if_neg empty, if_neg empty]
  by_cases slashes : withoutTrailing s.bytes = []
  · rw [if_pos slashes]
    exact ⟨_, basename_slashes empty slashes, shows_ofBytes root⟩
  · rw [if_neg slashes]
    exact ⟨_, basename_component slashes, shows_made _⟩

theorem posixBasename_separator {path : Bytes} (member : separator ∈ posixBasename path) :
    posixBasename path = root := by
  unfold posixBasename at member ⊢
  split at member
  · exact absurd member (by decide)
  · split at member
    · next filled slashes => rw [if_neg filled, if_pos slashes]
    · simpa using List.mem_rtakeWhile_imp member

theorem components_separators {path : Bytes} (separators : ∀ c ∈ path, c = separator) :
    components path = [] := by
  have blanks : ∀ c ∈ path, (c == separator) = true := by simpa using separators
  have none := words_blanks blanks []
  rwa [List.append_nil, words_nil] at none

theorem components_withoutTrailing (path : Bytes) :
    components (withoutTrailing path) = components path := by
  obtain ⟨trailing, whole, separators⟩ := exists_trailing path
  conv_rhs => rw [whole]
  rw [components, components, words_append_startsBlank]
  · show _ = _ ++ components trailing
    rw [components_separators separators, List.append_nil]
  · intro c first
    simpa using separators c (List.mem_of_mem_head? first)

/-- The last component is behind the last separator. -/
theorem components_upToLast {path : Bytes} (filled : withoutTrailing path ≠ []) :
    components path =
      components (upToLast (withoutTrailing path)) ++ [posixBasename path] := by
  have nonempty := nonempty_of_filled filled
  have ends : EndsBlank (· == separator) (upToLast (withoutTrailing path)) := by
    intro c last
    by_cases none : upToLast (withoutTrailing path) = []
    · simp [none] at last
    · rw [List.getLast?_eq_some_getLast none, Option.mem_some_iff, getLast_upToLast none] at last
      simp [last]
  have single : components ((withoutTrailing path).rtakeWhile (· != separator)) =
      [(withoutTrailing path).rtakeWhile (· != separator)] := by
    apply words_single
    · intro none
      have last := List.rtakeWhile_eq_nil_iff.mp none filled
      exact last (bne_iff_ne.mpr (getLast_withoutTrailing filled))
    · intro c member
      simpa using List.mem_rtakeWhile_imp member
  rw [posixBasename, if_neg nonempty, if_neg filled, ← single, ← components_withoutTrailing path]
  conv_lhs => rw [← upToLast_append (withoutTrailing path)]
  exact words_append_endsBlank ends _

theorem components_posixDirname {path : Bytes} (inside : separator ∈ withoutTrailing path) :
    components (posixDirname path) = components (upToLast (withoutTrailing path)) := by
  have filled : withoutTrailing path ≠ [] := List.ne_nil_of_mem inside
  have nonempty := nonempty_of_filled filled
  rw [posixDirname, if_neg nonempty, if_neg filled, if_neg (not_not.mpr inside),
    ← components_withoutTrailing (upToLast _)]
  split
  · next slashes =>
      rw [slashes]
      exact components_separators (by simp [root])
  · rfl

/-- The two parts are those of POSIX, the second one is a single component, and together they have
the components of the path. -/
structure Splits (path dir base : Bytes) : Prop where
  single : separator ∈ base → base = root
  dirname : dir = posixDirname path
  basename : base = if path = [] then [] else posixBasename path
  components : (∃ c ∈ path, c ≠ separator) → components path =
    (if separator ∈ withoutTrailing path then components dir else []) ++ [base]
  file : (∃ c ∈ path, c ≠ separator) → separator ∉ withoutTrailing path → dir = dot

theorem splits_posix (path : Bytes) :
    Splits path (posixDirname path) (if path = [] then [] else posixBasename path) := by
  have nonempty (named : ∃ c ∈ path, c ≠ separator) : path ≠ [] := by
    obtain ⟨c, member, -⟩ := named
    exact List.ne_nil_of_mem member
  have filled (named : ∃ c ∈ path, c ≠ separator) : withoutTrailing path ≠ [] := by
    obtain ⟨c, member, other⟩ := named
    exact fun none => other (withoutTrailing_eq_nil.mp none c member)
  refine ⟨?_, rfl, rfl, ?_, ?_⟩
  · split
    · intro member
      cases member
    · exact posixBasename_separator
  · intro named
    rw [components_upToLast (filled named), if_neg (nonempty named)]
    split
    · next inside => rw [components_posixDirname inside]
    · next file =>
        rw [upToLast_eq_nil.mpr file]
        rfl
  · intro named file
    rw [posixDirname, if_neg (nonempty named), if_neg (filled named), if_pos file]

theorem dirname_basename_split (filename : Whole) : ∃ dir base dirBytes baseBytes,
    dirname filename.str = some dir ∧ Shows dir dirBytes ∧
      basename filename.str = some base ∧ Shows base baseBytes ∧
      Splits filename.bytes dirBytes baseBytes := by
  obtain ⟨dir, dirResult, dirShows⟩ := dirname_eq filename
  obtain ⟨base, baseResult, baseShows⟩ := basename_eq filename
  exact ⟨dir, base, _, _, dirResult, dirShows, baseResult, baseShows, splits_posix filename.bytes⟩

end Blocxx.FileSystem.Path
