import Blocxx.String.LastIndexOf

/-!
This file embeds `String::startsWith` and `String::endsWith` with the comparisons that they use, and
proves for which strings they answer whether a prefix or a suffix is equal. The generated function
`UTF8Utils::compareToIgnoreCase` is a parameter that gets the bytes of its two C strings.
-/

namespace Blocxx.Strings

open Library Library.Memory BinarySerialization

inductive EIgnoreCaseFlag where
  | E_CASE_SENSITIVE
  | E_CASE_INSENSITIVE
  deriving DecidableEq

open EIgnoreCaseFlag

section Embedding

variable (caseCompare : Bytes → Bytes → Int)

/-- The call of `UTF8Utils::compareToIgnoreCase`, which reads a terminated string. -/
def utf8CompareToIgnoreCase (block : Memory) (arg : Bytes) : Option Int :=
  (strlen block).map fun _ => caseCompare (cString block) arg

/-- The comparison that `endsWith` chooses. -/
def compareBlock (ignoreCase : EIgnoreCaseFlag) (block : Memory) (arg : Bytes) : Option Int :=
  match ignoreCase with
  | E_CASE_INSENSITIVE => utf8CompareToIgnoreCase caseCompare block arg
  | E_CASE_SENSITIVE => strcmp block arg

def compareTo (str : CowString) (arg : CString) : Option Int := strcmp (memory str) arg.bytes

def compareToIgnoreCase (str : CowString) (arg : CString) : Option Int :=
  utf8CompareToIgnoreCase caseCompare (memory str) arg.bytes

/-- The comparison of a mode. -/
def compareIn (ignoreCase : EIgnoreCaseFlag) (str : CowString) (arg : CString) : Option Int :=
  match ignoreCase with
  | E_CASE_SENSITIVE => compareTo str arg
  | E_CASE_INSENSITIVE => compareToIgnoreCase caseCompare str arg

def strncmpi (s1 : Memory) (s2 : CString) (n : Nat) : Option Int := do
  let ls1 ← ofMemory s1 0 n
  let ls2 ← ofMemory (s2.bytes.map some ++ [some 0]) 0 n
  compareToIgnoreCase caseCompare ls1 (c_str ls2)

def startsWith (str : CowString) (arg : Option CString) (ignoreCase : EIgnoreCaseFlag) :
    Option Bool :=
  match arg with
  | none => some true
  | some arg =>
      if arg.bytes = [] then some true
      else
        let arglen := arg.bytes.length
        if arglen ≤ length str then
          match ignoreCase with
          | E_CASE_INSENSITIVE => (strncmpi caseCompare (memory str) arg arglen).map (· == 0)
          | E_CASE_SENSITIVE => (strncmp (memory str) arg.bytes arglen).map (· == 0)
        else some false

def endsWith (str : CowString) (arg : Option CString) (ignoreCase : EIgnoreCaseFlag) :
    Option Bool :=
  match arg with
  | none => some (length str == 0)
  | some arg =>
      if arg.bytes = [] then some (length str == 0)
      else
        match str with
        | none => some false
        | some m_buf =>
            let ndx := toInt (size str - UInt64.ofNat arg.bytes.length).toNat
            if ndx < 0 then some false
            else
              (compareBlock caseCompare ignoreCase (m_buf.object.m_buf.drop ndx.toNat) arg.bytes).map
                (· == 0)

/-- The string of these bytes compares equal in this mode. -/
def Equal (ignoreCase : EIgnoreCaseFlag) (bytes : Bytes) (arg : CString) : Prop :=
  compareIn caseCompare ignoreCase (ofBytes (some bytes)) arg = some 0

def StartsWithExact (s a : Whole) (ignoreCase : EIgnoreCaseFlag) : Prop :=
  ∃ answer, startsWith caseCompare s.str (some (c_str a.str)) ignoreCase = some answer ∧
    (answer = true ↔ ∃ p, p <+: s.bytes ∧ Equal caseCompare ignoreCase p (c_str a.str))

def EndsWithExact (s a : Whole) (ignoreCase : EIgnoreCaseFlag) : Prop :=
  ∃ answer, endsWith caseCompare s.str (some (c_str a.str)) ignoreCase = some answer ∧
    (answer = true ↔ ∃ t, t <:+ s.bytes ∧ Equal caseCompare ignoreCase t (c_str a.str))

/-- Where the case does not matter, an equal prefix has as many bytes as the argument. -/
def StartAligned (s : Bytes) (a : CString) (ignoreCase : EIgnoreCaseFlag) : Prop :=
  ignoreCase = E_CASE_SENSITIVE ∨ a.bytes = [] ∨
    ((∃ p, p <+: s ∧ Equal caseCompare ignoreCase p a) → a.bytes.length ≤ s.length ∧
      Equal caseCompare ignoreCase (s.take a.bytes.length) a)

/-- The place where `endsWith` compares. -/
def ndx (s : Bytes) (a : CString) : Int := toInt (s.length - a.bytes.length)

/-- An empty argument meets an empty string. Another one is compared in the string, and where it is
equal to a suffix, it is compared with one. -/
def EndAligned (s : Whole) (a : CString) (ignoreCase : EIgnoreCaseFlag) : Prop :=
  if a.bytes = [] then s.bytes = []
  else s.str = none ∨ (ndx s.bytes a ≤ s.bytes.length ∧
    ((∃ t, t <:+ s.bytes ∧ Equal caseCompare ignoreCase t a) → 0 ≤ ndx s.bytes a ∧
      Equal caseCompare ignoreCase (s.bytes.drop (ndx s.bytes a).toNat) a))

end Embedding

section Comparisons

variable {caseCompare : Bytes → Bytes → Int}

/-- A string of bytes is equal when the bytes in front of its first zero are. -/
theorem equal_iff (ignoreCase : EIgnoreCaseFlag) (bytes : Bytes) (a : CString) :
    Equal caseCompare ignoreCase bytes a ↔
      match ignoreCase with
      | E_CASE_SENSITIVE => bytes.takeWhile (· ≠ 0) = a.bytes
      | E_CASE_INSENSITIVE => caseCompare (bytes.takeWhile (· ≠ 0)) a.bytes = 0 := by
  have terminated : Terminated (bytes.map some ++ [some 0]) := terminated_written bytes []
  have text : cString (bytes.map some ++ [some 0]) = bytes.takeWhile (· ≠ 0) :=
    cString_written bytes []
  cases ignoreCase with
  | E_CASE_SENSITIVE =>
      show strcmp (bytes.map some ++ [some 0]) a.bytes = some 0 ↔ _
      obtain ⟨result, compared, zero⟩ := strcmp_spec terminated a.nonzero
      rw [compared, Option.some.injEq, zero, text]
  | E_CASE_INSENSITIVE =>
      show utf8CompareToIgnoreCase caseCompare (bytes.map some ++ [some 0]) a.bytes = some 0 ↔ _
      rw [utf8CompareToIgnoreCase, strlen_terminated terminated, Option.map_some,
        Option.some.injEq, text]

variable (caseCompare) in
/-- The comparison of the rest of a block answers whether the rest of the string is equal. -/
theorem compareBlock_drop (s : Whole) (a : CString) (ignoreCase : EIgnoreCaseFlag) {position : Nat}
    (inside : position ≤ s.bytes.length) :
    ∃ answer, (compareBlock caseCompare ignoreCase ((memory s.str).drop position) a.bytes).map
      (· == 0) = some answer ∧
      (answer = true ↔ Equal caseCompare ignoreCase (s.bytes.drop position) a) := by
  rw [block_drop s inside]
  have terminated := terminated_written (s.bytes.drop position) []
  cases ignoreCase with
  | E_CASE_SENSITIVE =>
      obtain ⟨result, compared, zero⟩ := strcmp_spec terminated a.nonzero
      refine ⟨result == 0, by rw [compareBlock, compared, Option.map_some], ?_⟩
      rw [beq_iff_eq, zero, equal_iff, cString_written]
  | E_CASE_INSENSITIVE =>
      refine ⟨caseCompare ((s.bytes.drop position).takeWhile (· ≠ 0)) a.bytes == 0, ?_, ?_⟩
      · rw [compareBlock, utf8CompareToIgnoreCase, strlen_terminated terminated, cString_written]
        rfl
      · rw [beq_iff_eq, equal_iff]

/-- The empty string is equal to an empty argument and to no other. -/
theorem equal_nil {a : CString}
    (empty : ∀ arg : CString, caseCompare [] arg.bytes = 0 ↔ arg.bytes = [])
    (ignoreCase : EIgnoreCaseFlag) : Equal caseCompare ignoreCase [] a ↔ a.bytes = [] := by
  rw [equal_iff]
  cases ignoreCase with
  | E_CASE_SENSITIVE => exact eq_comm
  | E_CASE_INSENSITIVE => exact empty a

end Comparisons

section Prefixes

variable {caseCompare : Bytes → Bytes → Int}

/-- The bytes in front of the first zero begin with what the bytes begin with. -/
theorem prefix_takeWhile {bytes arg : Bytes} (free : (0 : UInt8) ∉ arg) :
    arg <+: bytes.takeWhile (· ≠ 0) ↔ ∃ p, p <+: bytes ∧ p.takeWhile (· ≠ 0) = arg := by
  constructor
  · intro begins
    exact ⟨arg, begins.trans (List.takeWhile_prefix _), takeWhile_nonzero free⟩
  · rintro ⟨p, ⟨rest, rfl⟩, rfl⟩
    rw [List.takeWhile_append]
    split
    · next whole =>
        rw [(List.takeWhile_prefix _).eq_of_length whole]
        exact List.prefix_append _ _
    · exact List.prefix_refl _

/-- A comparison of as many bytes as the argument has tells whether the string begins with it. -/
theorem startsWith_sensitive (s a : Whole) : StartsWithExact caseCompare s a E_CASE_SENSITIVE := by
  unfold StartsWithExact startsWith
  generalize c_str a.str = arg
  simp only [equal_iff]
  rw [← prefix_takeWhile arg.nonzero]
  by_cases empty : arg.bytes = []
  · rw [if_pos empty, empty]
    exact ⟨true, rfl, iff_of_true rfl List.nil_prefix⟩
  rw [if_neg empty, s.length_eq]
  by_cases fits : arg.bytes.length ≤ s.bytes.length
  · rw [if_pos fits, s.block]
    obtain ⟨result, compared, zero⟩ :=
      strncmp_spec (terminated_written s.bytes []) arg.nonzero arg.bytes.length
    refine ⟨result == 0, by rw [compared, Option.map_some], ?_⟩
    rw [beq_iff_eq, zero, cString_written, List.take_length, List.prefix_iff_eq_take]
    exact eq_comm
  · rw [if_neg fits]
    refine ⟨false, rfl, iff_of_false Bool.false_ne_true ?_⟩
    intro begins
    exact fits (begins.length_le.trans (List.takeWhile_prefix _).length_le)

variable (caseCompare) in
/-- The first bytes of a string compare as the string of them. -/
theorem strncmpi_eq (s : Whole) (arg : CString) (fits : arg.bytes.length ≤ s.bytes.length) :
    ∃ answer, (strncmpi caseCompare (memory s.str) arg arg.bytes.length).map (· == 0) =
        some answer ∧
      (answer = true ↔
        Equal caseCompare E_CASE_INSENSITIVE (s.bytes.take arg.bytes.length) arg) := by
  have whole : ofMemory (arg.bytes.map some ++ [some 0]) 0 arg.bytes.length =
      some (ofBytes (some arg.bytes)) := by
    rw [ofMemory, memcpy_written (by omega), List.drop_zero, List.take_length, Option.map_some]
  have same : c_str (ofBytes (some arg.bytes)) = arg := by
    have text : cString (arg.bytes.map some ++ [some 0]) = arg.bytes :=
      cString_append arg.nonzero []
    cases arg
    exact CString.mk.injEq .. |>.mpr text
  have first : strncmpi caseCompare (memory s.str) arg arg.bytes.length =
      compareToIgnoreCase caseCompare (ofBytes (some (s.bytes.take arg.bytes.length))) arg := by
    rw [strncmpi, ofMemory_inside s (by omega), whole, List.drop_zero]
    show compareToIgnoreCase caseCompare _ (c_str (ofBytes (some arg.bytes))) = _
    rw [same]
  have terminated := terminated_written (s.bytes.take arg.bytes.length) []
  refine ⟨caseCompare (cString ((s.bytes.take arg.bytes.length).map some ++ [some 0]))
    arg.bytes == 0, ?_, ?_⟩
  · rw [first, compareToIgnoreCase, utf8CompareToIgnoreCase]
    show ((strlen ((s.bytes.take arg.bytes.length).map some ++ [some 0])).map _).map _ = _
    rw [strlen_terminated terminated]
    rfl
  · rw [beq_iff_eq, equal_iff, cString_written]

/-- Without the case, the comparison is of the prefix with as many bytes as the argument has. -/
theorem startsWith_insensitive
    (empty : ∀ arg : CString, caseCompare [] arg.bytes = 0 ↔ arg.bytes = []) (s a : Whole) :
    StartsWithExact caseCompare s a E_CASE_INSENSITIVE ↔
      StartAligned caseCompare s.bytes (c_str a.str) E_CASE_INSENSITIVE := by
  unfold StartsWithExact startsWith StartAligned
  generalize c_str a.str = arg
  rw [or_iff_right (by simp)]
  dsimp only
  by_cases blank : arg.bytes = []
  · rw [if_pos blank]
    refine iff_of_true ⟨true, rfl, iff_of_true rfl ?_⟩ (.inl blank)
    exact ⟨[], List.nil_prefix, (equal_nil empty _).mpr blank⟩
  rw [if_neg blank, or_iff_right blank, s.length_eq]
  by_cases fits : arg.bytes.length ≤ s.bytes.length
  · rw [if_pos fits]
    obtain ⟨answer, compared, zero⟩ := strncmpi_eq caseCompare s arg fits
    constructor
    · rintro ⟨result, same, exact_⟩ found
      obtain rfl := Option.some.inj (compared.symm.trans same)
      exact ⟨fits, zero.mp (exact_.mpr found)⟩
    · intro aligned
      refine ⟨answer, compared, ?_⟩
      rw [zero]
      exact ⟨fun same => ⟨_, List.take_prefix _ _, same⟩, fun found => (aligned found).2⟩
  · rw [if_neg fits]
    constructor
    · rintro ⟨result, same, exact_⟩ found
      obtain rfl := Option.some.inj same
      exact absurd (exact_.mpr found) Bool.false_ne_true
    · intro aligned
      refine ⟨false, rfl, iff_of_false Bool.false_ne_true ?_⟩
      intro found
      exact fits (aligned found).1

end Prefixes

section Suffixes

variable {caseCompare : Bytes → Bytes → Int}

/-- The cast of the difference of the lengths does not depend on its wrap. -/
theorem ndx_eq (s : Whole) (arg : CString) :
    toInt (size s.str - UInt64.ofNat arg.bytes.length).toNat = ndx s.bytes arg := by
  rw [UInt64.toNat_sub, size_toNat, UInt64.toNat_ofNat', ndx, toInt, toInt]
  have fits := s.fits
  omega

/-- A buffer is compared at the place that the lengths give. -/
theorem endsWith_buffer (s : Whole) {arg : CString} (filled : arg.bytes ≠ [])
    (buffer : s.str ≠ none) (ignoreCase : EIgnoreCaseFlag) :
    endsWith caseCompare s.str (some arg) ignoreCase =
      if ndx s.bytes arg < 0 then some false
      else (compareBlock caseCompare ignoreCase
        ((memory s.str).drop (ndx s.bytes arg).toNat) arg.bytes).map (· == 0) := by
  rw [← ndx_eq]
  unfold endsWith
  dsimp only
  rw [if_neg filled]
  cases str : s.str with
  | none => exact absurd str buffer
  | some m_buf => rfl

/-- The comparison behind a block has no result. -/
theorem compareBlock_nil (ignoreCase : EIgnoreCaseFlag) (arg : Bytes) :
    compareBlock caseCompare ignoreCase [] arg = none := by
  cases ignoreCase with
  | E_CASE_SENSITIVE => rfl
  | E_CASE_INSENSITIVE => rfl

theorem endsWith_exact_iff
    (empty : ∀ arg : CString, caseCompare [] arg.bytes = 0 ↔ arg.bytes = []) (s a : Whole)
    (ignoreCase : EIgnoreCaseFlag) :
    EndsWithExact caseCompare s a ignoreCase ↔
      EndAligned caseCompare s (c_str a.str) ignoreCase := by
  unfold EndsWithExact EndAligned
  generalize c_str a.str = arg
  by_cases blank : arg.bytes = []
  · have found : ∃ t, t <:+ s.bytes ∧ Equal caseCompare ignoreCase t arg :=
      ⟨[], List.nil_suffix, (equal_nil empty _).mpr blank⟩
    rw [if_pos blank]
    unfold endsWith
    dsimp only
    rw [if_pos blank, s.length_eq]
    constructor
    · rintro ⟨answer, same, exact_⟩
      obtain rfl := Option.some.inj same
      simpa using exact_.mpr found
    · intro null
      exact ⟨true, by rw [null]; rfl, iff_of_true rfl found⟩
  rw [if_neg blank]
  by_cases buffer : s.str = none
  · have null : s.bytes = [] := shows_null.mp (buffer ▸ s.shows)
    refine iff_of_true ⟨false, ?_, iff_of_false Bool.false_ne_true ?_⟩ (.inl buffer)
    · rw [buffer, endsWith]
      exact if_neg blank
    · rintro ⟨t, ends, equal⟩
      rw [null, List.suffix_nil] at ends
      rw [ends, equal_nil empty] at equal
      exact blank equal
  rw [or_iff_right buffer, endsWith_buffer s blank buffer]
  by_cases negative : ndx s.bytes arg < 0
  · rw [if_pos negative, and_iff_right (by omega)]
    constructor
    · rintro ⟨answer, same, exact_⟩ found
      obtain rfl := Option.some.inj same
      exact absurd (exact_.mpr found) Bool.false_ne_true
    · intro aligned
      refine ⟨false, rfl, iff_of_false Bool.false_ne_true ?_⟩
      intro found
      have inside := (aligned found).1
      omega
  rw [if_neg negative]
  by_cases inside : ndx s.bytes arg ≤ s.bytes.length
  · obtain ⟨answer, compared, equal⟩ :=
      compareBlock_drop caseCompare s arg ignoreCase
        (show (ndx s.bytes arg).toNat ≤ s.bytes.length by omega)
    rw [compared, and_iff_right inside]
    constructor
    · rintro ⟨result, same, exact_⟩ found
      obtain rfl := Option.some.inj same
      exact ⟨by omega, equal.mp (exact_.mpr found)⟩
    · intro aligned
      refine ⟨answer, rfl, ?_⟩
      rw [equal]
      exact ⟨fun same => ⟨_, List.drop_suffix _ _, same⟩, fun found => (aligned found).2⟩
  · rw [block_drop_outside s (by omega), compareBlock_nil, Option.map_none]
    refine iff_of_false ?_ fun aligned => inside aligned.1
    rintro ⟨answer, same, _⟩
    cases same

end Suffixes

/-- The comparison without the case of the letters of ASCII. -/
def asciiCompare : Bytes → Bytes → Int
  | [], second => -(second.headD 0).toNat
  | c :: _, [] => c.toNat
  | c :: first, d :: second =>
      let lower (c : UInt8) : UInt8 := if 65 ≤ c ∧ c ≤ 90 then c + 32 else c
      if lower c = lower d then asciiCompare first second else c.toNat - d.toNat

theorem asciiCompare_nil (arg : CString) : asciiCompare [] arg.bytes = 0 ↔ arg.bytes = [] := by
  obtain ⟨bytes, nonzero⟩ := arg
  cases bytes with
  | nil => exact iff_of_true rfl rfl
  | cons c bytes =>
      refine iff_of_false ?_ (List.cons_ne_nil c bytes)
      intro zero
      have first : c = 0 := UInt8.toNat_inj.mp (by simpa [asciiCompare] using zero)
      exact nonzero (first ▸ List.mem_cons_self)

def emptyString : Whole where
  str := none
  bytes := []
  block := rfl
  fits := by decide

end Blocxx.Strings
