import Blocxx.Library.CReading

/-!
This file embeds the copies and catenations of `SafeCString` and proves their contracts.
-/

namespace Blocxx.SafeCString

open Library Library.Memory

structure OverflowException where
  message : String
  errorCode : Int

def RESULT_TRUNCATED : Int := 0

def DEST_UNTERMINATED : Int := 1

/-- What a function returns or throws, and the block of the destination. A pointer is a place in
this block. -/
abbrev Outcome := Except OverflowException Nat × Memory

/-- `std::memchr` for a terminator, which reads the cells in their order. No answer is a read of a
cell outside of the block or of an unwritten one. -/
def strend : Memory → Nat → Option (Option Nat)
  | _, 0 => some none
  | some byte :: rest, n + 1 =>
      if byte = 0 then some (some 0) else (strend rest n).map fun found => found.map (· + 1)
  | _, _ + 1 => none

/-- The bytes that `std::memccpy` copies up to a terminator, and whether it meets one. -/
def memccpy : Memory → Nat → Option (List UInt8 × Bool)
  | _, 0 => some ([], false)
  | some byte :: rest, n + 1 =>
      if byte = 0 then some ([0], true)
      else (memccpy rest n).map fun copied => (byte :: copied.1, copied.2)
  | _, _ + 1 => none

section Embedding

variable (BLOCXX_HAS_MEMCCPY : Bool)

def strend_checked (block : Memory) (s n : Nat) : Option (Except OverflowException Nat) :=
  (strend (block.drop s) n).map fun retval =>
    match retval with
    | some len => .ok (s + len)
    | none => .error ⟨"cstring catenation first operand unterminated", DEST_UNTERMINATED⟩

/-- The macro `BLOCXX_HAS_MEMCCPY` chooses the function that copies. -/
def safe_strcpy (block : Memory) (dst : Nat) (src : Memory) (n : Nat) :
    Option (Option Nat × Memory) :=
  if BLOCXX_HAS_MEMCCPY then
    (memccpy src n).bind fun copied =>
      (block.writeBytes dst copied.1).map fun block =>
        (if copied.2 then some (dst + copied.1.length - 1) else none, block)
  else
    (strend src n).bind fun found =>
      match found with
      | some len =>
          (memcpy src 0 (len + 1)).bind fun bytes =>
            (block.writeBytes dst bytes).map fun block => (some (dst + len), block)
      | none =>
          (memcpy src 0 n).bind fun bytes =>
            (block.writeBytes dst bytes).map fun block => (none, block)

/-- The rest of both forms of `strcpy_trunc` after the number of characters is known. -/
def truncated (block : Memory) (dst : Nat) (src : Memory) (n : Nat) : Option Outcome :=
  (safe_strcpy BLOCXX_HAS_MEMCCPY block dst src n).bind fun copied =>
    match copied.1 with
    | some retval => some (.ok retval, copied.2)
    | none => (copied.2.writeByte (dst + n) 0).map fun block => (.ok (dst + n), block)

def strcpy_trunc (block : Memory) (dst dstsize : Nat) (src : Memory) : Option Outcome :=
  let n := dstsize - 1
  truncated BLOCXX_HAS_MEMCCPY block dst src n

/-- The form of `strcpy_trunc` with `srclen`. -/
def strcpy_trunc_srclen (block : Memory) (dst dstsize : Nat) (src : Memory) (srclen : Nat) :
    Option Outcome :=
  let n := if srclen < dstsize then srclen else dstsize - 1
  truncated BLOCXX_HAS_MEMCCPY block dst src n

def strcpy_check (block : Memory) (dst dstsize : Nat) (src : Memory) : Option Outcome :=
  (safe_strcpy BLOCXX_HAS_MEMCCPY block dst src dstsize).bind fun copied =>
    match copied.1 with
    | some retval => some (.ok retval, copied.2)
    | none =>
        (copied.2.writeByte (dst + (dstsize - 1)) 0).map fun block =>
          (.error ⟨"cstring copy overflow", RESULT_TRUNCATED⟩, block)

/-- The form of `strcpy_check` with `srclen`. -/
def strcpy_check_srclen (block : Memory) (dst dstsize : Nat) (src : Memory) (srclen : Nat) :
    Option Outcome :=
  if srclen ≥ dstsize then strcpy_check BLOCXX_HAS_MEMCCPY block dst dstsize src
  else strcpy_trunc BLOCXX_HAS_MEMCCPY block dst (srclen + 1) src

/-- A copy to the end of the destination, which gets its place and what is left of the size. -/
def catenated (block : Memory) (dst dstsize : Nat) (copy : Nat → Nat → Option Outcome) :
    Option Outcome :=
  (strend_checked block dst dstsize).bind fun checked =>
    match checked with
    | .ok dstend => copy dstend (dst + dstsize - dstend)
    | .error exception => some (.error exception, block)

def strcat_trunc (block : Memory) (dst dstsize : Nat) (src : Memory) : Option Outcome :=
  catenated block dst dstsize fun dstend size =>
    strcpy_trunc BLOCXX_HAS_MEMCCPY block dstend size src

/-- The form of `strcat_trunc` with `srclen`. -/
def strcat_trunc_srclen (block : Memory) (dst dstsize : Nat) (src : Memory) (srclen : Nat) :
    Option Outcome :=
  catenated block dst dstsize fun dstend size =>
    strcpy_trunc_srclen BLOCXX_HAS_MEMCCPY block dstend size src srclen

def strcat_check (block : Memory) (dst dstsize : Nat) (src : Memory) : Option Outcome :=
  catenated block dst dstsize fun dstend size =>
    strcpy_check BLOCXX_HAS_MEMCCPY block dstend size src

/-- The form of `strcat_check` with `srclen`. -/
def strcat_check_srclen (block : Memory) (dst dstsize : Nat) (src : Memory) (srclen : Nat) :
    Option Outcome :=
  catenated block dst dstsize fun dstend size =>
    strcpy_check_srclen BLOCXX_HAS_MEMCCPY block dstend size src srclen

end Embedding

/-- The source is terminated, or it is an array of at least this many characters. -/
def Permits (src : Memory) (n : Nat) : Prop :=
  Terminated src ∨ ∃ (bytes : List UInt8) (rest : Memory),
    src = bytes.map some ++ rest ∧ n ≤ bytes.length

/-- The destination has this text and its terminator, and nothing outside of it is written. -/
structure Leaves (block : Memory) (dst dstsize : Nat) (text : List UInt8) (after : Memory) :
    Prop where
  length : after.length = block.length
  fits : text.length < dstsize
  text : ∃ rest, after.drop dst = text.map some ++ some 0 :: rest
  outside : ∀ index, index < dst ∨ dst + dstsize ≤ index → after[index]? = block[index]?

/-- What the documentation says of a copy that puts the characters behind the front: as many as fit
are there, and the result is the place of the terminator. A checked copy throws when not all fit. -/
def Copies (check : Bool) (block : Memory) (dst dstsize : Nat) (front characters : List UInt8)
    (result : Option Outcome) : Prop :=
  let text := front ++ characters.take (dstsize - 1 - front.length)
  ∃ after, Leaves block dst dstsize text after ∧
    result = some
      (if check = true ∧ dstsize ≤ front.length + characters.length then
        .error ⟨"cstring copy overflow", RESULT_TRUNCATED⟩
      else .ok (dst + text.length), after)

/-- What the documentation says of a catenation to an array. -/
def Catenates (check : Bool) (block : Memory) (dst dstsize : Nat) (array characters : List UInt8)
    (result : Option Outcome) : Prop :=
  if 0 ∈ array then Copies check block dst dstsize (array.takeWhile (· ≠ 0)) characters result
  else
    result = some
      (.error ⟨"cstring catenation first operand unterminated", DEST_UNTERMINATED⟩, block)

section Searches

variable {src : Memory} {n : Nat}

/-- Bytes that are not zero belong to the string at their start. -/
theorem length_le_cString {bytes : List UInt8} (nonzero : 0 ∉ bytes) (rest : Memory) :
    bytes.length ≤ (cString (bytes.map some ++ rest)).length := by
  induction bytes with
  | nil => exact Nat.zero_le _
  | cons byte bytes ih =>
      rw [List.mem_cons, not_or] at nonzero
      rw [List.map_cons, List.cons_append, cString, if_neg (Ne.symm nonzero.1)]
      exact Nat.succ_le_succ (ih nonzero.2)

/-- The string fills the permitted part, or it ends in it. -/
theorem Permits.cases (permits : Permits src n) :
    n ≤ (cString src).length ∨ (cString src).length < n ∧ Terminated src := by
  rcases Nat.lt_or_ge (cString src).length n with short | long
  · right
    refine ⟨short, ?_⟩
    rcases permits with ends | ⟨bytes, rest, rfl, enough⟩
    · exact ends
    · by_cases zero : 0 ∈ bytes
      · obtain ⟨front, behind, rfl⟩ := List.append_of_mem zero
        rw [List.map_append, List.append_assoc]
        exact terminated_written front _
      · have whole := length_le_cString zero rest
        omega
  · exact .inl long

theorem Permits.mono {fewer : Nat} (permits : Permits src n) (less : fewer ≤ n) :
    Permits src fewer := by
  rcases permits with ends | ⟨bytes, rest, same, enough⟩
  · exact .inl ends
  · exact .inr ⟨bytes, rest, same, less.trans enough⟩

/-- The search does not leave a string that is long enough. -/
theorem strend_long (long : n ≤ (cString src).length) : strend src n = some none := by
  induction long using le_length_induction with
  | zero src => exact strend.eq_1 src
  | cons byte rest n nonzero long ih =>
      rw [strend, if_neg nonzero, ih]
      rfl

theorem strend_short (short : (cString src).length < n) (ends : Terminated src) :
    strend src n = some (some (cString src).length) := by
  induction ends using Terminated.induction generalizing n with
  | zero rest =>
      obtain ⟨n, rfl⟩ := Nat.exists_eq_add_of_lt short
      rfl
  | cons byte rest ends nonzero ih =>
      rw [cString_cons nonzero, List.length_cons] at short
      obtain ⟨n, rfl⟩ := Nat.exists_eq_add_of_lt (Nat.zero_lt_of_lt short)
      rw [strend, if_neg nonzero, ih (by omega), cString_cons nonzero]
      rfl

theorem memccpy_long (long : n ≤ (cString src).length) :
    memccpy src n = some ((cString src).take n, false) := by
  induction long using le_length_induction with
  | zero src => exact memccpy.eq_1 src
  | cons byte rest n nonzero long ih =>
      rw [memccpy, if_neg nonzero, ih, cString_cons nonzero]
      rfl

theorem memccpy_short (short : (cString src).length < n) (ends : Terminated src) :
    memccpy src n = some (cString src ++ [0], true) := by
  induction ends using Terminated.induction generalizing n with
  | zero rest =>
      obtain ⟨n, rfl⟩ := Nat.exists_eq_add_of_lt short
      rfl
  | cons byte rest ends nonzero ih =>
      rw [cString_cons nonzero, List.length_cons] at short
      obtain ⟨n, rfl⟩ := Nat.exists_eq_add_of_lt (Nat.zero_lt_of_lt short)
      rw [memccpy, if_neg nonzero, ih (by omega), cString_cons nonzero]
      rfl

end Searches

/-- What a copy of these characters returns or throws, and the block after it. -/
def copyOutcome (check : Bool) (block : Memory) (dst dstsize : Nat) (characters : List UInt8) :
    Outcome :=
  (if check = true ∧ dstsize ≤ characters.length then
      .error ⟨"cstring copy overflow", RESULT_TRUNCATED⟩
    else .ok (dst + (characters.take (dstsize - 1)).length),
    store block dst (characters.take (dstsize - 1) ++ [0]))

section Copies

variable {BLOCXX_HAS_MEMCCPY : Bool} {block src : Memory} {dst n : Nat}

theorem memcpy_front {bytes : List UInt8} {rest : Memory} (same : src = bytes.map some ++ rest)
    {count : Nat} (inside : count ≤ bytes.length) :
    memcpy src 0 count = some (bytes.take count) := by
  rw [same, memcpy_written (by omega)]
  rfl

/-- A string that ends in the permitted part is copied with its terminator. -/
theorem safe_strcpy_short (short : (cString src).length < n) (ends : Terminated src)
    (fits : dst + (cString src).length + 1 ≤ block.length) :
    safe_strcpy BLOCXX_HAS_MEMCCPY block dst src n =
      some (some (dst + (cString src).length), store block dst (cString src ++ [0])) := by
  have length : (cString src ++ [0]).length = (cString src).length + 1 := by
    rw [List.length_append, List.length_singleton]
  have writes : block.writeBytes dst (cString src ++ [0]) =
      some (store block dst (cString src ++ [0])) := by
    rw [writeBytes, if_pos (by rw [length]; exact fits)]
  unfold safe_strcpy
  split
  · rw [memccpy_short short ends, Option.bind_some, writes, Option.map_some, if_pos rfl, length]
    rfl
  · obtain ⟨rest, same⟩ := ends
    have whole : src = (cString src ++ [0]).map some ++ rest := by
      rw [List.map_append, List.append_assoc]
      exact same
    rw [strend_short short ⟨rest, same⟩, Option.bind_some]
    dsimp only
    rw [memcpy_front whole length.ge, ← length, List.take_length, Option.bind_some, writes,
      Option.map_some]

/-- Of a longer string the permitted part is copied. -/
theorem safe_strcpy_long (long : n ≤ (cString src).length) (fits : dst + n ≤ block.length) :
    safe_strcpy BLOCXX_HAS_MEMCCPY block dst src n =
      some (none, store block dst ((cString src).take n)) := by
  have length : ((cString src).take n).length = n := List.length_take_of_le long
  have writes : block.writeBytes dst ((cString src).take n) =
      some (store block dst ((cString src).take n)) := by
    rw [writeBytes, if_pos (by rwa [length])]
  unfold safe_strcpy
  split
  · rw [memccpy_long long, Option.bind_some, writes, Option.map_some, if_neg Bool.false_ne_true]
  · obtain ⟨rest, same⟩ := cString_prefix src
    rw [strend_long long, Option.bind_some]
    dsimp only
    rw [memcpy_front same long, Option.bind_some, writes, Option.map_some]

/-- Both forms of `strcpy_trunc` leave at most this many characters. -/
theorem truncated_eq (permits : Permits src n) (fits : dst + n < block.length) :
    truncated BLOCXX_HAS_MEMCCPY block dst src n =
      some (.ok (dst + ((cString src).take n).length),
        store block dst ((cString src).take n ++ [0])) := by
  unfold truncated
  rcases permits.cases with long | ⟨short, ends⟩
  · have length : ((cString src).take n).length = n := List.length_take_of_le long
    have behind : dst + n < (store block dst ((cString src).take n)).length := by
      rwa [length_store (by rw [length]; omega)]
    have twice := @store_store block dst ((cString src).take n) [] [0] (by
      rw [length, List.length_singleton]
      exact fits) (Nat.zero_le _)
    rw [List.append_nil, length] at twice
    rw [safe_strcpy_long long fits.le, Option.bind_some]
    dsimp only
    rw [writeByte_eq_store behind, twice, length]
    rfl
  · rw [safe_strcpy_short short ends (by omega), Option.bind_some,
      List.take_of_length_le short.le]

theorem copyOutcome_unchecked (block : Memory) (dst dstsize : Nat) (characters : List UInt8) :
    copyOutcome false block dst dstsize characters =
      (.ok (dst + (characters.take (dstsize - 1)).length),
        store block dst (characters.take (dstsize - 1) ++ [0])) := by
  rw [copyOutcome, if_neg fun both => Bool.false_ne_true both.1]

theorem strcpy_trunc_eq {dstsize : Nat} (positive : 0 < dstsize)
    (inside : dst + dstsize ≤ block.length) (permits : Permits src (dstsize - 1)) :
    strcpy_trunc BLOCXX_HAS_MEMCCPY block dst dstsize src =
      some (copyOutcome false block dst dstsize (cString src)) := by
  rw [copyOutcome_unchecked]
  exact truncated_eq permits (by omega)

theorem strcpy_trunc_srclen_eq {dstsize srclen : Nat} (positive : 0 < dstsize)
    (inside : dst + dstsize ≤ block.length) (permits : Permits src srclen) :
    strcpy_trunc_srclen BLOCXX_HAS_MEMCCPY block dst dstsize src srclen =
      some (copyOutcome false block dst dstsize ((cString src).take srclen)) := by
  have least : (if srclen < dstsize then srclen else dstsize - 1) = min (dstsize - 1) srclen := by
    split <;> omega
  rw [copyOutcome_unchecked, List.take_take, ← least]
  unfold strcpy_trunc_srclen
  apply truncated_eq
  · apply permits.mono
    split <;> omega
  · split <;> omega

theorem strcpy_check_eq {dstsize : Nat} (positive : 0 < dstsize)
    (inside : dst + dstsize ≤ block.length) (permits : Permits src dstsize) :
    strcpy_check BLOCXX_HAS_MEMCCPY block dst dstsize src =
      some (copyOutcome true block dst dstsize (cString src)) := by
  unfold strcpy_check
  rcases permits.cases with long | ⟨short, ends⟩
  · obtain ⟨size, rfl⟩ := Nat.exists_eq_add_of_lt positive
    rw [Nat.zero_add] at *
    have last : (cString src).take (size + 1) =
        (cString src).take size ++ [(cString src)[size]] := List.take_succ_eq_append_getElem long
    have front : ((cString src).take size).length = size :=
      List.length_take_of_le (Nat.le_of_succ_le long)
    have copied : dst + ((cString src).take (size + 1)).length ≤ block.length := by
      rwa [List.length_take_of_le long]
    have behind : dst + size < (store block dst ((cString src).take (size + 1))).length := by
      rw [length_store copied]
      omega
    have twice := @store_store block dst ((cString src).take size) [(cString src)[size]] [0] (by
      rw [front, List.length_singleton]
      omega) le_rfl
    rw [front] at twice
    rw [safe_strcpy_long long inside, Option.bind_some]
    dsimp only
    rw [copyOutcome, if_pos ⟨rfl, long⟩, Nat.add_sub_cancel, writeByte_eq_store behind, last, twice]
    rfl
  · rw [safe_strcpy_short short ends (by omega), Option.bind_some, copyOutcome,
      if_neg fun both => short.not_ge both.2, List.take_of_length_le (Nat.le_sub_one_of_lt short)]

theorem strcpy_check_srclen_eq {dstsize srclen : Nat} (positive : 0 < dstsize)
    (inside : dst + dstsize ≤ block.length) (permits : Permits src srclen) :
    strcpy_check_srclen BLOCXX_HAS_MEMCCPY block dst dstsize src srclen =
      some (copyOutcome true block dst dstsize ((cString src).take srclen)) := by
  unfold strcpy_check_srclen
  rw [copyOutcome, List.take_take, List.length_take]
  by_cases large : srclen ≥ dstsize
  · have whole : min (dstsize - 1) srclen = dstsize - 1 := by omega
    have same : dstsize ≤ min srclen (cString src).length ↔ dstsize ≤ (cString src).length := by
      omega
    rw [if_pos large, strcpy_check_eq positive inside (permits.mono large), whole, copyOutcome]
    simp only [same]
  · have least : min (dstsize - 1) srclen = srclen := by omega
    rw [if_neg large, if_neg (by omega), least,
      strcpy_trunc_eq (Nat.succ_pos srclen) (by omega) permits, copyOutcome_unchecked]
    rfl

/-- A string and its terminator that are stored in the destination leave it with this string. -/
theorem leaves_store {front text : List UInt8} {rest : Memory} {dstsize : Nat}
    (starts : block.drop dst = front.map some ++ rest) (inside : dst + dstsize ≤ block.length)
    (fits : front.length + text.length < dstsize) :
    Leaves block dst dstsize (front ++ text) (store block (dst + front.length) (text ++ [0])) := by
  have length : (text ++ [0]).length = text.length + 1 := by
    rw [List.length_append, List.length_singleton]
  have within : dst + front.length + (text ++ [0]).length ≤ block.length := by
    rw [length]
    omega
  refine ⟨length_store within, by rwa [List.length_append], ?_, ?_⟩
  · refine ⟨rest.drop (text ++ [0]).length, ?_⟩
    rw [drop_store (by omega), starts, store_append, ← List.append_assoc, List.map_append,
      List.append_assoc]
    rfl
  · intro index outside
    rw [getElem?_store within, if_pos]
    rw [length]
    omega

/-- A copy to the end of the front has its contract. -/
theorem copies_of_eq {check : Bool} {front characters : List UInt8} {rest : Memory}
    {dstsize : Nat} {result : Option Outcome} (starts : block.drop dst = front.map some ++ rest)
    (inside : dst + dstsize ≤ block.length) (shorter : front.length < dstsize)
    (same : result = some
      (copyOutcome check block (dst + front.length) (dstsize - front.length) characters)) :
    Copies check block dst dstsize front characters result := by
  have room : dstsize - front.length - 1 = dstsize - 1 - front.length := by omega
  have fits : front.length + (characters.take (dstsize - 1 - front.length)).length < dstsize := by
    rw [List.length_take]
    omega
  have full : dstsize - front.length ≤ characters.length ↔
      dstsize ≤ front.length + characters.length := by omega
  refine ⟨_, leaves_store starts inside fits, ?_⟩
  rw [same, copyOutcome, room, List.length_append, Nat.add_assoc]
  simp only [full]

/-- A copy to the start of the destination. -/
theorem copies_start {check : Bool} {characters : List UInt8} {dstsize : Nat}
    {result : Option Outcome} (positive : 0 < dstsize) (inside : dst + dstsize ≤ block.length)
    (same : result = some (copyOutcome check block dst dstsize characters)) :
    Copies check block dst dstsize [] characters result :=
  copies_of_eq (List.nil_append _).symm inside positive same

/-- A string that ends in the bytes ends at their first zero. -/
theorem cString_of_zero {bytes : List UInt8} (zero : 0 ∈ bytes) (rest : Memory) :
    cString (bytes.map some ++ rest) = bytes.takeWhile (· ≠ 0) := by
  obtain ⟨front, behind, rfl⟩ := List.append_of_mem zero
  rw [← cString_map, List.map_append, List.map_cons, List.append_assoc, List.cons_append,
    cString_written, cString_written]

/-- The end of the destination is found, and the copy starts there. -/
theorem catenates {check : Bool} {array characters : List UInt8} {dstsize : Nat}
    {copy : Nat → Nat → Option Outcome} (inside : dst + dstsize ≤ block.length)
    (contents : (block.drop dst).take dstsize = array.map some)
    (copies : ∀ dstend size, 0 < size → dstend + size ≤ block.length →
      copy dstend size = some (copyOutcome check block dstend size characters)) :
    Catenates check block dst dstsize array characters (catenated block dst dstsize copy) := by
  have starts : block.drop dst = array.map some ++ (block.drop dst).drop dstsize := by
    rw [← contents, List.take_append_drop]
  have length : array.length = dstsize := by
    have lengths := congrArg List.length contents
    rw [List.length_take, List.length_map, List.length_drop] at lengths
    omega
  unfold Catenates catenated strend_checked
  split
  next zero =>
    have string := cString_of_zero zero ((block.drop dst).drop dstsize)
    have shorter := length_takeWhile_nonzero_lt zero
    have ends : Terminated (block.drop dst) := by
      obtain ⟨front, behind, same⟩ := List.append_of_mem zero
      rw [starts, same, List.map_append, List.append_assoc]
      exact terminated_written front _
    have front := cString_prefix (block.drop dst)
    rw [← starts] at string
    obtain ⟨rest, front⟩ := front
    rw [string] at front
    have found : strend (block.drop dst) dstsize = some (some (cString (block.drop dst)).length) :=
      strend_short (by rwa [string, ← length]) ends
    apply copies_of_eq front inside (by rwa [← length])
    rw [found, string, Option.map_some, Option.bind_some]
    dsimp only
    have left : dst + dstsize - (dst + (array.takeWhile (· ≠ 0)).length) =
        dstsize - (array.takeWhile (· ≠ 0)).length := by omega
    rw [left]
    apply copies
    · omega
    · omega
  next free =>
    have long : dstsize ≤ (cString (block.drop dst)).length := by
      rw [starts, ← length]
      exact length_le_cString free _
    rw [strend_long long]
    rfl

end Copies

/-- For every destination and every source that the documentation admits, each function writes only
inside of the destination, reads only what the source permits, and leaves, returns and throws what
the documentation says. -/
theorem contracts (BLOCXX_HAS_MEMCCPY : Bool) {block : Memory} {dst dstsize : Nat}
    (positive : 0 < dstsize) (inside : dst + dstsize ≤ block.length) (src : Memory)
    (srclen : Nat) :
    (Permits src (dstsize - 1) → Copies false block dst dstsize [] (cString src)
      (strcpy_trunc BLOCXX_HAS_MEMCCPY block dst dstsize src)) ∧
    (Permits src srclen → Copies false block dst dstsize [] ((cString src).take srclen)
      (strcpy_trunc_srclen BLOCXX_HAS_MEMCCPY block dst dstsize src srclen)) ∧
    (Permits src dstsize → Copies true block dst dstsize [] (cString src)
      (strcpy_check BLOCXX_HAS_MEMCCPY block dst dstsize src)) ∧
    (Permits src srclen → Copies true block dst dstsize [] ((cString src).take srclen)
      (strcpy_check_srclen BLOCXX_HAS_MEMCCPY block dst dstsize src srclen)) ∧
    ∀ array : List UInt8, (block.drop dst).take dstsize = array.map some →
      (Terminated src → Catenates false block dst dstsize array (cString src)
        (strcat_trunc BLOCXX_HAS_MEMCCPY block dst dstsize src)) ∧
      (Permits src srclen → Catenates false block dst dstsize array ((cString src).take srclen)
        (strcat_trunc_srclen BLOCXX_HAS_MEMCCPY block dst dstsize src srclen)) ∧
      (Terminated src → Catenates true block dst dstsize array (cString src)
        (strcat_check BLOCXX_HAS_MEMCCPY block dst dstsize src)) ∧
      (Permits src srclen → Catenates true block dst dstsize array ((cString src).take srclen)
        (strcat_check_srclen BLOCXX_HAS_MEMCCPY block dst dstsize src srclen)) := by
  refine ⟨?_, ?_, ?_, ?_, ?_⟩
  · intro permits
    exact copies_start positive inside (strcpy_trunc_eq positive inside permits)
  · intro permits
    exact copies_start positive inside (strcpy_trunc_srclen_eq positive inside permits)
  · intro permits
    exact copies_start positive inside (strcpy_check_eq positive inside permits)
  · intro permits
    exact copies_start positive inside (strcpy_check_srclen_eq positive inside permits)
  · intro array contents
    refine ⟨?_, ?_, ?_, ?_⟩
    · intro ends
      apply catenates inside contents
      intro dstend size some_left within
      exact strcpy_trunc_eq some_left within (.inl ends)
    · intro permits
      apply catenates inside contents
      intro dstend size some_left within
      exact strcpy_trunc_srclen_eq some_left within permits
    · intro ends
      apply catenates inside contents
      intro dstend size some_left within
      exact strcpy_check_eq some_left within (.inl ends)
    · intro permits
      apply catenates inside contents
      intro dstend size some_left within
      exact strcpy_check_srclen_eq some_left within permits

/-- The catenation of `cde` to `ab` in an array of five bytes drops the last character. -/
theorem contracts_five :
    Catenates false ([97, 98, 0, 7, 7].map some) 0 5 [97, 98, 0, 7, 7] [99, 100, 101]
      (strcat_trunc true ([97, 98, 0, 7, 7].map some) 0 5 ([99, 100, 101, 0].map some)) := by
  obtain ⟨-, -, -, -, catenated⟩ :=
    contracts true (show 0 < 5 by decide)
      (show 0 + 5 ≤ ([97, 98, 0, 7, 7].map (some : UInt8 → Option UInt8)).length by decide)
      ([99, 100, 101, 0].map some) 0
  exact (catenated [97, 98, 0, 7, 7] rfl).1 ⟨[], rfl⟩

end Blocxx.SafeCString
