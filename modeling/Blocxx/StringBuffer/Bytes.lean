import Blocxx.StringBuffer.StringBuffer

/-!
This file proves when each operation of a `StringBuffer` has its bytes, and when the buffer has
exactly the bytes that its operations build.
-/

namespace Blocxx.StringBuffers

open Library Library.Memory

/-- The class invariant and the bytes of the buffer. -/
structure Holds (buffer : StringBuffer) (bytes : List UInt8) : Prop where
  length : buffer.m_len = bytes.length
  room : buffer.m_len + 1 ≤ buffer.m_allocated
  sized : buffer.m_allocated < 2 ^ 64
  block : buffer.m_bfr.length = buffer.m_allocated
  cells : ∃ rest, buffer.m_bfr = bytes.map some ++ some 0 :: rest

/-- An operation has a result with these bytes. -/
def Gives (result : Option StringBuffer) (bytes : List UInt8) : Prop :=
  ∃ next, result = some next ∧ Holds next bytes

/-- The block that `checkAvail` leaves holds this many bytes more. -/
def Room (buffer : StringBuffer) (avail len : Nat) : Prop :=
  buffer.grows avail = true →
    buffer.m_len + len + 1 ≤ size (buffer.m_allocated * 2 + avail)

section Results

variable {buffer : StringBuffer} {first second : List UInt8} {result : Option StringBuffer}

/-- A buffer holds one sequence of bytes. -/
theorem Holds.unique (one : Holds buffer first) (other : Holds buffer second) : first = second := by
  obtain ⟨rest, cells⟩ := one.cells
  obtain ⟨tail, same⟩ := other.cells
  have lengths : (first.map some).length = (second.map some).length := by
    rw [List.length_map, List.length_map, ← one.length, other.length]
  have bytes := (List.append_inj (cells.symm.trans same) lengths).1
  exact List.map_injective_iff.mpr (Option.some_injective _) bytes

theorem Gives.unique (one : Gives result first) (other : Gives result second) : first = second := by
  obtain ⟨next, rfl, here⟩ := one
  obtain ⟨same, is, there⟩ := other
  cases is
  exact here.unique there

/-- An operation that is defined under a condition gives other bytes only when they are the same. -/
theorem gives_iff {condition : Prop} (gives : condition → Gives result first)
    (fails : ¬ condition → result = none) : Gives result second ↔ condition ∧ first = second := by
  constructor
  · intro given
    by_cases met : condition
    · exact ⟨met, (gives met).unique given⟩
    · obtain ⟨next, is, -⟩ := given
      cases (fails met).symm.trans is
  · rintro ⟨met, rfl⟩
    exact gives met

end Results

section Append

variable {buffer : StringBuffer} {bytes : List UInt8}

/-- The block has these bytes in front, which no zero has to follow. -/
structure Loaded (buffer : StringBuffer) (bytes : List UInt8) : Prop where
  length : buffer.m_len = bytes.length
  sized : buffer.m_allocated < 2 ^ 64
  block : buffer.m_bfr.length = buffer.m_allocated
  cells : ∃ rest, buffer.m_bfr = bytes.map some ++ rest

theorem Holds.loaded (holds : Holds buffer bytes) : Loaded buffer bytes := by
  obtain ⟨rest, cells⟩ := holds.cells
  exact ⟨holds.length, holds.sized, holds.block, _, cells⟩

/-- A write behind the bytes is inside of the block when they fit. -/
theorem Loaded.write (loaded : Loaded buffer bytes) (tail : List UInt8)
    (fits : bytes.length + tail.length ≤ buffer.m_allocated) :
    ∃ m_bfr : Memory, buffer.write bytes.length tail = some { buffer with m_bfr := m_bfr } ∧
      m_bfr.length = buffer.m_allocated ∧ ∃ rest, m_bfr = (bytes ++ tail).map some ++ rest := by
  obtain ⟨rest, cells⟩ := loaded.cells
  have block := loaded.block
  refine ⟨(bytes ++ tail).map some ++ rest.drop tail.length, ?_, ?_, _, rfl⟩
  · rw [StringBuffer.write, if_pos (by omega), cells, store_append]
  · rw [cells, List.length_append, List.length_map] at block
    rw [List.length_append, List.length_map, List.length_append, List.length_drop]
    omega

theorem Loaded.write_none (loaded : Loaded buffer bytes) {position : Nat} {tail : List UInt8}
    (long : buffer.m_allocated < position + tail.length) : buffer.write position tail = none := by
  rw [StringBuffer.write, if_neg]
  rw [loaded.block]
  omega

/-- The bytes and their zero are written at once. -/
theorem Loaded.terminated (loaded : Loaded buffer bytes) (tail : List UInt8)
    (fits : bytes.length + tail.length + 1 ≤ buffer.m_allocated) :
    Gives ((buffer.write buffer.m_len (tail ++ [0])).bind fun buffer =>
      some { buffer with m_len := size (buffer.m_len + tail.length) }) (bytes ++ tail) := by
  have sized := loaded.sized
  obtain ⟨m_bfr, written, block, rest, cells⟩ := loaded.write (tail ++ [0]) (by
    rw [List.length_append, List.length_singleton]
    omega)
  have length : size (buffer.m_len + tail.length) = (bytes ++ tail).length := by
    rw [size, loaded.length, List.length_append]
    omega
  refine ⟨⟨(bytes ++ tail).length, buffer.m_allocated, m_bfr⟩, ?_, rfl, ?_, sized, block, rest, ?_⟩
  · rw [← length, loaded.length, written]
    simp only [Option.bind_some, loaded.length]
  · rw [List.length_append]
    exact fits
  · show m_bfr = _
    rw [cells, ← List.append_assoc, List.map_append, List.append_assoc]
    rfl

/-- The bytes are written first, and the zero after them. -/
theorem Loaded.finish (loaded : Loaded buffer bytes) (tail : List UInt8)
    (fits : bytes.length + tail.length + 1 ≤ buffer.m_allocated) :
    Gives ((buffer.write buffer.m_len tail).bind fun buffer =>
      let m_len := size (buffer.m_len + tail.length)
      { buffer with m_len := m_len }.write m_len [0]) (bytes ++ tail) := by
  have sized := loaded.sized
  obtain ⟨m_bfr, written, block, rest, cells⟩ := loaded.write tail (by omega)
  have length : size (buffer.m_len + tail.length) = (bytes ++ tail).length := by
    rw [size, loaded.length, List.length_append]
    omega
  have after : Loaded ⟨(bytes ++ tail).length, buffer.m_allocated, m_bfr⟩ (bytes ++ tail) :=
    ⟨rfl, sized, block, rest, cells⟩
  obtain ⟨zeroed, ended, zeroedBlock, zeroedRest, zeroedCells⟩ := after.write [0] (by
    rw [List.length_append, List.length_singleton]
    exact fits)
  refine ⟨⟨(bytes ++ tail).length, buffer.m_allocated, zeroed⟩, ?_, rfl, ?_, sized, zeroedBlock,
    zeroedRest, ?_⟩
  · rw [loaded.length, written, Option.bind_some]
    simp only [length]
    exact ended
  · rw [List.length_append]
    exact fits
  · show zeroed = _
    rw [zeroedCells, List.map_append, List.append_assoc]
    rfl

theorem Loaded.finish_none (loaded : Loaded buffer bytes) {tail : List UInt8}
    (long : buffer.m_allocated < bytes.length + tail.length + 1) :
    ((buffer.write buffer.m_len tail).bind fun buffer =>
      let m_len := size (buffer.m_len + tail.length)
      { buffer with m_len := m_len }.write m_len [0]) = none := by
  have sized := loaded.sized
  by_cases inside : bytes.length + tail.length ≤ buffer.m_allocated
  · obtain ⟨m_bfr, written, block, -⟩ := loaded.write tail inside
    rw [loaded.length, written, Option.bind_some]
    simp only [StringBuffer.write]
    rw [if_neg]
    rw [block, size, loaded.length, List.length_singleton]
    omega
  · rw [loaded.write_none (by rw [loaded.length]; omega)]
    rfl

/-- The subtractions of lengths do not wrap. -/
theorem difference_of_le {first second : Nat} (less : second ≤ first) (sized : first < 2 ^ 64) :
    difference first second = first - second := by
  rw [difference]
  omega

theorem Holds.grows_iff (holds : Holds buffer bytes) (avail : Nat) :
    buffer.grows avail = true ↔ buffer.m_allocated < buffer.m_len + 1 + avail := by
  have room := holds.room
  rw [StringBuffer.grows, difference_of_le room holds.sized, decide_eq_true_eq]
  omega

/-- The block of `checkAvail` has the bytes when it is large enough for them. -/
theorem Holds.checkAvail (holds : Holds buffer bytes) (avail : Nat) :
    (∃ grown, buffer.checkAvail avail = some grown ∧ Loaded grown bytes ∧
      grown.m_allocated =
        if buffer.grows avail then size (buffer.m_allocated * 2 + avail)
        else buffer.m_allocated) ∨
    (buffer.checkAvail avail = none ∧ buffer.grows avail = true ∧
      size (buffer.m_allocated * 2 + avail) < buffer.m_len) := by
  have room := holds.room
  have block := holds.block
  rw [StringBuffer.checkAvail]
  cases grows : buffer.grows avail with
  | false =>
      simp only [Bool.false_eq_true, if_false]
      exact .inl ⟨buffer, rfl, holds.loaded, rfl⟩
  | true =>
      simp only [if_true]
      by_cases large : buffer.m_len ≤ size (buffer.m_allocated * 2 + avail)
      · left
        rw [if_pos ⟨by omega, large⟩]
        obtain ⟨rest, cells⟩ := holds.cells
        let free := allocate (size (buffer.m_allocated * 2 + avail) - buffer.m_len)
        refine ⟨_, rfl, ⟨holds.length, Nat.mod_lt _ (by decide), ?_, ⟨free, ?_⟩⟩, rfl⟩
        · show (buffer.m_bfr.take buffer.m_len ++ free).length =
            size (buffer.m_allocated * 2 + avail)
          rw [List.length_append, List.length_take, show free.length = _ from List.length_replicate]
          omega
        · show buffer.m_bfr.take buffer.m_len ++ free = bytes.map some ++ free
          have length : bytes.length = (bytes.map some).length := (List.length_map _).symm
          rw [cells, holds.length, length, List.take_left]
      · exact .inr ⟨if_neg fun both => large both.2, trivial, by omega⟩

/-- The bytes fit into the block of `checkAvail` exactly when there is room for them. -/
theorem Holds.checkAvail_room (holds : Holds buffer bytes) {avail len : Nat}
    (enough : len ≤ avail) :
    (Room buffer avail len → ∃ grown, buffer.checkAvail avail = some grown ∧ Loaded grown bytes ∧
      bytes.length + len + 1 ≤ grown.m_allocated) ∧
    (¬ Room buffer avail len → buffer.checkAvail avail = none ∨
      ∃ grown, buffer.checkAvail avail = some grown ∧ Loaded grown bytes ∧
        grown.m_allocated < bytes.length + len + 1) := by
  have length := holds.length
  have grows := holds.grows_iff avail
  rcases holds.checkAvail avail with ⟨grown, is, loaded, allocated⟩ | ⟨none, larger, small⟩
  · cases larger : buffer.grows avail with
    | true =>
        rw [if_pos larger] at allocated
        constructor
        · intro room
          have large := room larger
          exact ⟨grown, is, loaded, by omega⟩
        · intro not
          refine .inr ⟨grown, is, loaded, ?_⟩
          by_contra large
          exact not fun _ => by omega
    | false =>
        rw [if_neg (by rw [larger]; exact Bool.false_ne_true)] at allocated
        have stays := not_congr grows
        rw [larger, not_lt] at stays
        have large := stays.mp Bool.false_ne_true
        refine ⟨fun _ => ⟨grown, is, loaded, by omega⟩, ?_⟩
        intro not
        refine absurd (fun grew => ?_) not
        exact absurd (larger.symm.trans grew) Bool.false_ne_true
  · refine ⟨fun room => ?_, fun _ => .inl none⟩
    have large := room larger
    omega

/-- Two writes give the bytes behind the old ones exactly when there is room for them. -/
theorem Holds.append_finish (holds : Holds buffer bytes) (avail : Nat) (tail wanted : List UInt8)
    (enough : tail.length ≤ avail) :
    Gives ((buffer.checkAvail avail).bind fun buffer =>
      (buffer.write buffer.m_len tail).bind fun buffer =>
        let m_len := size (buffer.m_len + tail.length)
        { buffer with m_len := m_len }.write m_len [0]) (bytes ++ wanted) ↔
      Room buffer avail tail.length ∧ tail = wanted := by
  rw [← List.append_right_inj bytes]
  obtain ⟨fits, long⟩ := holds.checkAvail_room enough
  apply gives_iff
  · intro room
    obtain ⟨grown, is, loaded, large⟩ := fits room
    rw [is, Option.bind_some]
    exact loaded.finish tail large
  · intro not
    rcases long not with none | ⟨grown, is, loaded, small⟩
    · rw [none, Option.bind_none]
    · rw [is, Option.bind_some]
      exact loaded.finish_none small

/-- One write with the zero gives the bytes exactly when there is room for them. -/
theorem Holds.append_terminated (holds : Holds buffer bytes) {avail : Nat} {tail : List UInt8}
    (enough : tail.length ≤ avail) :
    Gives ((buffer.checkAvail avail).bind fun buffer =>
      (buffer.write buffer.m_len (tail ++ [0])).bind fun buffer =>
        some { buffer with m_len := size (buffer.m_len + tail.length) }) (bytes ++ tail) ↔
      Room buffer avail tail.length := by
  obtain ⟨fits, long⟩ := holds.checkAvail_room enough
  constructor
  · intro gives
    by_contra not
    obtain ⟨next, is, -⟩ := gives
    rcases long not with none | ⟨grown, grew, loaded, small⟩
    · rw [none] at is
      cases is
    · rw [grew, Option.bind_some, loaded.write_none (by
        rw [loaded.length, List.length_append, List.length_singleton]
        omega)] at is
      cases is
  · intro room
    obtain ⟨grown, is, loaded, large⟩ := fits room
    rw [is, Option.bind_some]
    exact loaded.terminated tail large

theorem Holds.appendChar (holds : Holds buffer bytes) (c : UInt8) :
    Gives (buffer.appendChar c) (bytes ++ [c]) ↔ Room buffer 1 1 :=
  (holds.append_finish 1 [c] [c] le_rfl).trans (and_iff_left rfl)

/-- The memory at a pointer has the bytes that the caller has given. -/
theorem Holds.at_take (holds : Holds buffer bytes) {str : Pointer} {len : Nat}
    (has : str.Has bytes len) :
    (buffer.at_ str).take len = ((str.bytes bytes).take len).map some := by
  cases str with
  | outside text =>
      show (text.bytes.map some ++ [some 0]).take len = (text.bytes.take len).map some
      rw [List.take_append_of_le_length (by rw [List.length_map]; exact has), List.map_take]
  | inside offset =>
      obtain ⟨rest, cells⟩ := holds.cells
      have inside : offset + len ≤ bytes.length := has
      show (buffer.m_bfr.drop offset).take len = ((bytes.drop offset).take len).map some
      rw [cells, List.drop_append_of_le_length (by rw [List.length_map]; omega),
        List.take_append_of_le_length (by rw [List.length_drop, List.length_map]; omega),
        List.map_take, List.map_drop]

theorem Holds.cString_at (holds : Holds buffer bytes) {str : Pointer} (has : str.Has bytes 0) :
    cString (buffer.at_ str) = (str.bytes bytes).takeWhile (· ≠ 0) := by
  cases str with
  | outside text => exact cString_written text.bytes []
  | inside offset =>
      obtain ⟨rest, cells⟩ := holds.cells
      have inside : offset + 0 ≤ bytes.length := has
      show cString (buffer.m_bfr.drop offset) = (bytes.drop offset).takeWhile (· ≠ 0)
      rw [cells, List.drop_append_of_le_length (by rw [List.length_map]; omega), ← List.map_drop,
        cString_written]

theorem Holds.length_lt (holds : Holds buffer bytes) : bytes.length + 1 < 2 ^ 64 := by
  have room := holds.room
  have sized := holds.sized
  have length := holds.length
  omega

theorem Holds.length_pointer (holds : Holds buffer bytes) (str : Pointer) :
    (str.bytes bytes).length + 1 < 2 ^ 64 := by
  cases str with
  | outside text => exact text.fits
  | inside offset =>
      have less := holds.length_lt
      show (bytes.drop offset).length + 1 < 2 ^ 64
      rw [List.length_drop]
      omega

theorem Pointer.Has.length {str : Pointer} {len : Nat} (has : str.Has bytes len) :
    ((str.bytes bytes).take len).length = len := by
  rw [List.length_take, Nat.min_eq_left]
  cases str with
  | outside text => exact has
  | inside offset =>
      have inside : offset + len ≤ bytes.length := has
      show len ≤ (bytes.drop offset).length
      rw [List.length_drop]
      omega

/-- A `strncpy` appends its bytes when the source can be read, there is room, and no other byte
follows a zero. -/
theorem Holds.append (holds : Holds buffer bytes) {str : Pointer} {len : Nat}
    (has : str.Has bytes len) :
    Gives (buffer.append str len) (bytes ++ (str.bytes bytes).take len) ↔
      buffer.Copies (len + 1) len str ∧ Room buffer (len + 1) len ∧
        ((str.bytes bytes).take len).Pairwise fun first second => first = 0 → second = 0 := by
  have copied := length_strncpy (buffer.at_ str) len
  have short : len ≤ (str.bytes bytes).length := by
    have taken := List.length_take_le' len (str.bytes bytes)
    rw [has.length] at taken
    exact taken
  have avail : size (len + 1) = len + 1 := by
    have less := holds.length_pointer str
    rw [size]
    omega
  have finish := holds.append_finish (len + 1) (strncpy (buffer.at_ str) len)
    ((str.bytes bytes).take len) (by omega)
  have same : (buffer.at_ str).take ((str.bytes bytes).take len).length =
      ((str.bytes bytes).take len).map some := by rw [has.length, holds.at_take has]
  have padded := strncpy_eq_iff same
  rw [has.length] at padded
  rw [copied, padded] at finish
  rw [StringBuffer.append, avail]
  by_cases copies : buffer.Copies (len + 1) len str
  · rw [if_pos copies, and_iff_right copies]
    exact finish
  · rw [if_neg copies]
    refine iff_of_false ?_ fun both => copies both.1
    rintro ⟨next, is, -⟩
    cases is

theorem Holds.appendCString (holds : Holds buffer bytes) {str : Pointer} (has : str.Has bytes 0)
    {len : Nat} (string : len = ((str.bytes bytes).takeWhile (· ≠ 0)).length) :
    Gives (buffer.appendCString str) (bytes ++ (str.bytes bytes).takeWhile (· ≠ 0)) ↔
      buffer.Copies (len + 1) (len + 1) str ∧ Room buffer (len + 1) len := by
  subst string
  have avail : size (((str.bytes bytes).takeWhile (· ≠ 0)).length + 1) =
      ((str.bytes bytes).takeWhile (· ≠ 0)).length + 1 := by
    have less := holds.length_pointer str
    have short := (List.takeWhile_prefix (· ≠ 0) (l := str.bytes bytes)).length_le
    rw [size]
    omega
  simp only [StringBuffer.appendCString, holds.cString_at has, avail]
  by_cases copies : buffer.Copies (((str.bytes bytes).takeWhile (· ≠ 0)).length + 1)
      (((str.bytes bytes).takeWhile (· ≠ 0)).length + 1) str
  · rw [if_pos copies, and_iff_right copies]
    exact holds.append_terminated (Nat.le_succ _)
  · rw [if_neg copies]
    refine iff_of_false ?_ fun both => copies both.1
    rintro ⟨next, is, -⟩
    cases is

/-- There is room as long as the bytes are far from the end of the address space. -/
theorem Holds.room_of_small (holds : Holds buffer bytes) {avail len : Nat} (enough : len ≤ avail)
    (small : bytes.length + avail < 2 ^ 62) : Room buffer avail len := by
  intro grows
  have length := holds.length
  have room := holds.room
  rw [holds.grows_iff] at grows
  rw [size, Nat.mod_eq_of_lt (by omega)]
  omega

theorem Holds.appendChar_small (holds : Holds buffer bytes) (c : UInt8)
    (small : bytes.length + 1 < 2 ^ 62) : Gives (buffer.appendChar c) (bytes ++ [c]) :=
  (holds.appendChar c).mpr (holds.room_of_small le_rfl small)

theorem Holds.appendCString_small (holds : Holds buffer bytes) (text : Text)
    (small : bytes.length + text.bytes.length + 1 < 2 ^ 62) :
    Gives (buffer.appendCString (.outside text)) (bytes ++ text.bytes.takeWhile (· ≠ 0)) := by
  have short := (List.takeWhile_prefix (· ≠ 0) (l := text.bytes)).length_le
  apply (@Holds.appendCString _ _ holds (.outside text) (Nat.zero_le _) _ rfl).mpr
  exact ⟨trivial, holds.room_of_small (Nat.le_succ _) (by
    show bytes.length + ((text.bytes.takeWhile (· ≠ 0)).length + 1) < 2 ^ 62
    omega)⟩

theorem Holds.append_small (holds : Holds buffer bytes) (text : Text) (free : 0 ∉ text.bytes)
    (small : bytes.length + text.bytes.length + 1 < 2 ^ 62) :
    Gives (buffer.append (.outside text) text.bytes.length) (bytes ++ text.bytes) := by
  have appends := @Holds.append _ _ holds (.outside text) text.bytes.length le_rfl
  rw [show (Pointer.outside text).bytes bytes = text.bytes from rfl, List.take_length] at appends
  refine appends.mpr ⟨trivial, holds.room_of_small (Nat.le_succ _) small, ?_⟩
  refine List.pairwise_of_forall_mem_list fun first mem second _ zero => ?_
  exact absurd (zero ▸ mem) free

end Append

section Others

variable {buffer : StringBuffer} {bytes : List UInt8}

/-- A new buffer has no bytes. -/
theorem holds_ofSize (allocSize : UInt64) : Holds (.ofSize allocSize) [] := by
  have positive : 0 < (StringBuffer.ofSize allocSize).m_allocated := by
    rw [StringBuffer.ofSize]
    simp only
    split
    · next more => exact more
    · exact Nat.succ_pos _
  have sized : (StringBuffer.ofSize allocSize).m_allocated < 2 ^ 64 := by
    rw [StringBuffer.ofSize]
    simp only
    split
    · exact allocSize.toNat_lt
    · decide
  have cells : (StringBuffer.ofSize allocSize).m_bfr =
      some 0 :: (allocate (StringBuffer.ofSize allocSize).m_allocated).drop 1 :=
    store_append [] _ [0]
  refine ⟨rfl, positive, sized, ?_, _, cells⟩
  rw [cells, List.length_cons, List.length_drop, allocate, List.length_replicate]
  omega

/-- The constructors from strings write the C string into the new block. -/
theorem ofString_eq (arg : Text) (m_len : Nat) :
    StringBuffer.ofString arg m_len =
      if (arg.bytes.takeWhile (· ≠ 0)).length + 1 ≤ size (m_len + 128) then
        some ⟨m_len, size (m_len + 128), (arg.bytes.takeWhile (· ≠ 0) ++ [0]).map some ++
          (allocate (size (m_len + 128))).drop ((arg.bytes.takeWhile (· ≠ 0)).length + 1)⟩
      else none := by
  have written := store_append [] (allocate (size (m_len + 128)))
    (arg.bytes.takeWhile (· ≠ 0) ++ [0])
  rw [List.length_append, List.length_singleton] at written
  simp only [StringBuffer.ofString, cString_written, StringBuffer.write, Nat.zero_add,
    List.length_append, List.length_singleton, List.length_replicate, allocate]
  congr 3

/-- They have the bytes of a C string exactly when the size of the block does not wrap. -/
theorem gives_ofString {arg : Text} {string : List UInt8}
    (same : arg.bytes.takeWhile (· ≠ 0) = string) :
    Gives (StringBuffer.ofString arg string.length) string ↔ string.length + 128 < 2 ^ 64 := by
  have short := (List.takeWhile_prefix (· ≠ 0) (l := arg.bytes)).length_le
  have fits := arg.fits
  rw [same] at short
  rw [ofString_eq, same]
  constructor
  · rintro ⟨next, is, -⟩
    split at is
    · next inside =>
        rw [size] at inside
        omega
    · cases is
  · intro small
    have allocated : size (string.length + 128) = string.length + 128 := by
      rw [size]
      omega
    rw [allocated, if_pos (by omega)]
    refine ⟨_, rfl, rfl, ?_, small, ?_, ?_⟩
    · show string.length + 1 ≤ string.length + 128
      omega
    · show ((string ++ [0]).map some ++ List.drop (string.length + 1)
        (allocate (string.length + 128))).length = string.length + 128
      rw [List.length_append, List.length_map, List.length_append, List.length_singleton,
        List.length_drop, allocate, List.length_replicate]
      omega
    · refine ⟨(allocate (string.length + 128)).drop (string.length + 1), ?_⟩
      rw [List.map_append, List.append_assoc]
      rfl

/-- A `String` with a zero byte leaves unwritten cells in the bytes. -/
theorem gives_ofString_length (arg : Text) :
    Gives (StringBuffer.ofString arg arg.bytes.length) arg.bytes ↔
      0 ∉ arg.bytes ∧ arg.bytes.length + 128 < 2 ^ 64 := by
  by_cases zero : (0 : UInt8) ∈ arg.bytes
  · refine iff_of_false ?_ fun both => both.1 zero
    have shorter := length_takeWhile_nonzero_lt zero
    rw [ofString_eq]
    rintro ⟨next, is, holds⟩
    split at is
    · cases is
      obtain ⟨rest, cells⟩ := holds.cells
      have terminator := congrArg (·[arg.bytes.length]?) cells
      have length : (arg.bytes.map some).length = arg.bytes.length := List.length_map _
      simp only at terminator
      rw [List.getElem?_append_right (by
          rw [List.length_map, List.length_append, List.length_singleton]
          omega),
        List.getElem?_append_right (by rw [List.length_map]), length, Nat.sub_self,
        List.getElem?_drop, allocate, List.getElem?_replicate] at terminator
      split at terminator
      · cases terminator
      · cases terminator
    · cases is
  · rw [gives_ofString (takeWhile_nonzero zero), and_iff_right zero]

theorem Holds.copy (holds : Holds buffer bytes) : Gives buffer.copy bytes := by
  have room := holds.room
  have block := holds.block
  have length := holds.length
  obtain ⟨rest, cells⟩ := holds.cells
  rw [StringBuffer.copy, if_pos ⟨by omega, room⟩]
  have front : buffer.m_bfr.take (buffer.m_len + 1) = bytes.map some ++ [some 0] := by
    rw [cells, List.take_append, length, List.length_map, Nat.add_sub_cancel_left,
      List.take_of_length_le (by rw [List.length_map]; omega)]
    rfl
  refine ⟨_, rfl, length, room, holds.sized, ?_, ?_⟩
  · show (buffer.m_bfr.take (buffer.m_len + 1) ++ allocate (buffer.m_allocated -
      (buffer.m_len + 1))).length = buffer.m_allocated
    rw [front, List.length_append, List.length_append, List.length_map, allocate,
      List.length_replicate, List.length_singleton]
    omega
  · refine ⟨allocate (buffer.m_allocated - (buffer.m_len + 1)), ?_⟩
    show buffer.m_bfr.take (buffer.m_len + 1) ++ _ = _
    rw [front, List.append_assoc]
    rfl

/-- A zero that is written into the bytes ends them there. -/
theorem Holds.shorten (holds : Holds buffer bytes) (index : Nat) (inside : index ≤ buffer.m_len) :
    Gives ({ buffer with m_len := index }.write index [0]) (bytes.take index) := by
  have room := holds.room
  have block := holds.block
  have length := holds.length
  obtain ⟨rest, cells⟩ := holds.cells
  have taken : (bytes.take index).length = index := by
    rw [List.length_take]
    omega
  have split : buffer.m_bfr = (bytes.take index).map some ++
      ((bytes.drop index).map some ++ some 0 :: rest) := by
    rw [cells, ← List.append_assoc, ← List.map_append, List.take_append_drop]
  have loaded : Loaded { buffer with m_len := index } (bytes.take index) :=
    ⟨taken.symm, holds.sized, block, _, split⟩
  obtain ⟨m_bfr, written, zeroed, after, zero⟩ := loaded.write [0] (by
    show (bytes.take index).length + 1 ≤ buffer.m_allocated
    omega)
  rw [taken] at written
  refine ⟨_, written, taken.symm, ?_, holds.sized, zeroed, after, ?_⟩
  · show index + 1 ≤ buffer.m_allocated
    omega
  · show m_bfr = _
    rw [zero, List.map_append, List.append_assoc]
    rfl

theorem Holds.reset (holds : Holds buffer bytes) : Gives buffer.reset [] :=
  holds.shorten 0 (Nat.zero_le _)

theorem Holds.truncate (holds : Holds buffer bytes) (index : Nat) :
    Gives (buffer.truncate index) (bytes.take index) := by
  rw [StringBuffer.truncate]
  split
  · next inside => exact holds.shorten index inside.le
  · next long =>
      rw [holds.length] at long
      rw [List.take_of_length_le (by omega)]
      exact ⟨buffer, rfl, holds⟩

theorem Holds.chop (holds : Holds buffer bytes) : Gives buffer.chop bytes.dropLast := by
  rw [StringBuffer.chop, List.dropLast_eq_take, ← holds.length]
  split
  · exact holds.truncate _
  · next empty =>
      rw [not_not] at empty
      have none : bytes = [] := List.length_eq_zero_iff.mp (holds.length.symm.trans empty)
      subst none
      rw [List.take_nil]
      exact ⟨buffer, rfl, holds⟩

/-- A cell of the bytes or their zero is tested. -/
theorem Holds.test (holds : Holds buffer bytes) {position : Nat} {c : UInt8}
    (here : (bytes ++ [0])[position]? = some c) (char : UInt8 → Bool) :
    buffer.test position char = char c := by
  obtain ⟨rest, cells⟩ := holds.cells
  have cell : buffer.m_bfr[position]? = some (some c) := by
    rw [cells, show bytes.map some ++ some 0 :: rest = (bytes ++ [0]).map some ++ rest by simp,
      List.getElem?_append_left, List.getElem?_map, here]
    · rfl
    · rw [List.length_map]
      exact (List.getElem?_eq_some_iff.mp here).1
  rw [StringBuffer.test, List.getD_eq_getElem?_getD, cell]
  rfl

theorem Holds.trimEnd (holds : Holds buffer bytes) :
    Gives (buffer.trimEnd buffer.m_len) (bytes.rdropWhile isspace) := by
  induction bytes using List.reverseRecOn generalizing buffer with
  | nil =>
      rw [holds.length]
      exact ⟨buffer, rfl, holds⟩
  | append_singleton bytes c ih =>
      have length : buffer.m_len = bytes.length + 1 := by
        rw [holds.length, List.length_append, List.length_singleton]
      have last : (bytes ++ [c] ++ [0])[bytes.length]? = some c := by
        rw [List.append_assoc, List.getElem?_append_right le_rfl, Nat.sub_self]
        rfl
      rw [length, StringBuffer.trimEnd, holds.test last]
      split
      · next space =>
          obtain ⟨next, written, shorter⟩ := holds.shorten bytes.length (by omega)
          rw [List.take_left] at shorter
          rw [written, Option.bind_some, List.rdropWhile_concat_pos _ _ _ space, ← shorter.length]
          exact ih shorter
      · next other =>
          rw [List.rdropWhile_concat_neg _ _ _ other]
          exact ⟨buffer, rfl, holds⟩

/-- The pointer stops behind the white space at the start. -/
theorem Holds.leading (holds : Holds buffer bytes) :
    buffer.leading = (bytes.takeWhile isspace).length := by
  obtain ⟨rest, cells⟩ := holds.cells
  rw [StringBuffer.leading, cells]
  clear cells holds
  induction bytes with
  | nil => rfl
  | cons c bytes ih =>
      rw [List.map_cons, List.cons_append]
      cases space : isspace c with
      | true =>
          have nonzero : c ≠ 0 := by
            rintro rfl
            exact Bool.false_ne_true space
          rw [List.takeWhile_cons_of_pos (by simp [space, nonzero]),
            List.takeWhile_cons_of_pos space, List.length_cons, List.length_cons, ih]
      | false =>
          rw [List.takeWhile_cons_of_neg (by simp [space]),
            List.takeWhile_cons_of_neg (by simp [space])]
          rfl

/-- The bytes move to the start of the block. -/
theorem Holds.move {lead tail : List UInt8} (holds : Holds buffer (lead ++ tail)) :
    Gives ({ buffer with m_len := tail.length }.move lead.length (tail.length + 1)) tail := by
  have room := holds.room
  have block := holds.block
  have length := holds.length
  obtain ⟨rest, cells⟩ := holds.cells
  rw [List.length_append] at length
  have moved : (buffer.m_bfr.drop lead.length).take (tail.length + 1) =
      tail.map some ++ [some 0] := by
    rw [cells, List.map_append, List.append_assoc, List.drop_append_of_le_length (by simp),
      List.drop_of_length_le (by simp), List.nil_append, List.take_append,
      List.take_of_length_le (by simp), List.length_map, Nat.add_sub_cancel_left]
    rfl
  rw [StringBuffer.move, if_pos (by show lead.length + _ ≤ buffer.m_bfr.length; omega)]
  refine ⟨_, rfl, rfl, ?_, holds.sized, ?_, buffer.m_bfr.drop (tail.length + 1), ?_⟩
  · show tail.length + 1 ≤ buffer.m_allocated
    omega
  · show ((buffer.m_bfr.drop lead.length).take (tail.length + 1) ++
      buffer.m_bfr.drop (tail.length + 1)).length = buffer.m_allocated
    rw [moved, List.length_append, List.length_append, List.length_map, List.length_drop,
      List.length_singleton]
    omega
  · show (buffer.m_bfr.drop lead.length).take (tail.length + 1) ++ _ = _
    rw [moved, List.append_assoc]
    rfl

/-- No zero byte is the first one behind white space at the start. -/
def TrimsAll (bytes : List UInt8) : Prop :=
  bytes.head?.any isspace = true → (bytes.dropWhile isspace).head? ≠ some 0

/-- The part of `trim` that removes white space at the start. -/
theorem Holds.trimStart (holds : Holds buffer bytes)
    (ends : bytes.rdropWhile isspace = bytes) :
    Gives (if buffer.m_len ≠ 0 then
        let p := buffer.leading
        if buffer.test p (· ≠ 0) && p > 0 then
          let m_len := difference buffer.m_len p
          { buffer with m_len := m_len }.move p (m_len + 1)
        else some buffer
      else some buffer) (bytes.dropWhile isspace) ↔ TrimsAll bytes := by
  have split : bytes.takeWhile isspace ++ bytes.dropWhile isspace = bytes :=
    List.takeWhile_append_dropWhile
  have leading := holds.leading
  have stays : Gives (some buffer) bytes := ⟨buffer, rfl, holds⟩
  cases bytes with
  | nil =>
      rw [if_neg (by rw [holds.length]; exact not_not_intro rfl)]
      exact iff_of_true stays nofun
  | cons first bytes =>
      rw [if_pos (by rw [holds.length]; exact Nat.succ_ne_zero _)]
      cases space : isspace first with
      | false =>
          have none : ¬ isspace first = true := by
            rw [space]
            exact Bool.false_ne_true
          rw [List.takeWhile_cons_of_neg none] at leading
          rw [List.dropWhile_cons_of_neg none]
          simp only [leading, List.length_nil, gt_iff_lt, lt_self_iff_false, decide_false,
            Bool.and_false, Bool.false_eq_true, if_false]
          refine iff_of_true stays fun head => ?_
          exact absurd head none
      | true =>
          have longer : 0 < buffer.leading := by
            rw [leading, List.takeWhile_cons_of_pos space]
            exact Nat.succ_pos _
          cases rest : (first :: bytes).dropWhile isspace with
          | nil =>
              have all := List.dropWhile_eq_nil_iff.mp rest
              rw [List.rdropWhile_eq_nil_iff.mpr all] at ends
              cases ends
          | cons c tail =>
              obtain ⟨lead, distance, whole⟩ : ∃ lead : List UInt8,
                  buffer.leading = lead.length ∧ first :: bytes = lead ++ c :: tail :=
                ⟨_, leading, by rw [← rest, split]⟩
              have stop : (first :: bytes ++ [0])[buffer.leading]? = some c := by
                rw [distance, whole, List.append_assoc, List.getElem?_append_right le_rfl,
                  Nat.sub_self]
                rfl
              have tested := holds.test stop (· ≠ 0)
              have trims : TrimsAll (first :: bytes) ↔ c ≠ 0 := by
                rw [TrimsAll, rest]
                simp [space]
              rw [trims]
              simp only [tested]
              by_cases zero : c = 0
              · subst zero
                simp only [ne_eq, not_true_eq_false, decide_false, Bool.false_and,
                  Bool.false_eq_true, if_false, iff_false]
                intro moved
                have lengths := congrArg List.length (moved.unique stays)
                rw [whole, List.length_append] at lengths
                omega
              · simp only [ne_eq, zero, not_false_eq_true, decide_true, Bool.true_and,
                  decide_eq_true_eq, iff_true]
                have length := holds.length
                have sized := holds.sized
                have room := holds.room
                rw [whole, List.length_append] at length
                rw [if_pos longer, difference_of_le (by omega) (by omega), distance,
                  show buffer.m_len - lead.length = (c :: tail).length by omega]
                rw [whole] at holds
                exact holds.move

theorem Holds.trim (holds : Holds buffer bytes) :
    Gives buffer.trim ((bytes.rdropWhile isspace).dropWhile isspace) ↔
      TrimsAll (bytes.rdropWhile isspace) := by
  obtain ⟨next, is, trimmed⟩ := holds.trimEnd
  rw [← trimmed.trimStart (List.rdropWhile_idempotent _ _), StringBuffer.trim, is]
  rfl

end Others

section Property

/-- The buffer keeps the class invariant and has the bytes of the reference. -/
def Exact (state : State) : Prop := Gives state.buffer state.reference

/-- No other byte follows a zero. -/
def ZerosLast (bytes : List UInt8) : Prop :=
  bytes.Pairwise fun first second => first = 0 → second = 0

/-- The conditions of the operations on the buffer, its bytes, and the arguments. -/
def Orderly (buffer : StringBuffer) (reference : List UInt8) : Label → Prop
  | .appendChar _ => Room buffer 1 1
  | .appendCString str =>
      let len := ((str.bytes reference).takeWhile (· ≠ 0)).length
      buffer.Copies (len + 1) (len + 1) str ∧ Room buffer (len + 1) len
  | .append str len =>
      buffer.Copies (len + 1) len str ∧ Room buffer (len + 1) len ∧
        ZerosLast ((str.bytes reference).take len)
  | .appendString arg | .appendStringBuffer (some arg) =>
      Room buffer (arg.bytes.length + 1) arg.bytes.length ∧ ZerosLast arg.bytes
  | .appendStringBuffer none =>
      buffer.grows (reference.length + 1) = false ∧ ZerosLast reference
  | .assignCString arg => (arg.bytes.takeWhile (· ≠ 0)).length + 128 < 2 ^ 64
  | .assignString arg => 0 ∉ arg.bytes ∧ arg.bytes.length + 128 < 2 ^ 64
  | .trim => TrimsAll (reference.rdropWhile isspace)
  | .copy | .reset | .truncate _ | .chop | .releaseString => True

/-- An operation of a run meets its condition. -/
def Cond (state : State) (label : Label) : Prop :=
  ∀ buffer, state.buffer = some buffer → Orderly buffer state.reference label

end Property

section Steps

variable {buffer : StringBuffer} {bytes : List UInt8}

theorem Holds.appendText (holds : Holds buffer bytes) (arg : Text) :
    Gives (buffer.append (.outside arg) arg.bytes.length) (bytes ++ arg.bytes) ↔
      Room buffer (arg.bytes.length + 1) arg.bytes.length ∧ ZerosLast arg.bytes := by
  have whole : (Pointer.bytes bytes (.outside arg)).take arg.bytes.length = arg.bytes :=
    List.take_length
  have has : (Pointer.outside arg).Has bytes arg.bytes.length := le_rfl
  have appended := holds.append has
  rw [whole] at appended
  exact appended.trans (and_iff_right trivial)

theorem Holds.appendItself (holds : Holds buffer bytes) :
    Gives (buffer.append (.inside 0) buffer.m_len) (bytes ++ bytes) ↔
      buffer.grows (bytes.length + 1) = false ∧ ZerosLast bytes := by
  have whole : (Pointer.bytes bytes (.inside 0)).take bytes.length = bytes := List.take_length
  have has : (Pointer.inside 0).Has bytes bytes.length := by
    rw [Pointer.Has]
    omega
  have appended := holds.append has
  rw [whole] at appended
  rw [holds.length, appended]
  constructor
  · rintro ⟨⟨stays, -⟩, -, zeros⟩
    exact ⟨stays, zeros⟩
  · rintro ⟨stays, zeros⟩
    refine ⟨⟨stays, ?_⟩, fun grows => ?_, zeros⟩
    · rw [holds.length]
      omega
    · exact absurd (stays.symm.trans grows) Bool.false_ne_true

/-- Each operation gives the bytes of the reference exactly when it meets its condition. -/
theorem Holds.run_iff (holds : Holds buffer bytes) {label : Label} (given : label.Given bytes) :
    Gives (label.run buffer) (label.apply bytes) ↔ Orderly buffer bytes label := by
  cases label with
  | appendChar c => exact holds.appendChar c
  | appendCString str => exact holds.appendCString given rfl
  | append str len => exact holds.append given
  | appendString arg => exact holds.appendText arg
  | appendStringBuffer arg =>
      cases arg with
      | some arg => exact holds.appendText arg
      | none => exact holds.appendItself
  | assignCString arg => exact gives_ofString rfl
  | assignString arg => exact gives_ofString_length arg
  | copy => exact iff_of_true holds.copy trivial
  | reset => exact iff_of_true holds.reset trivial
  | truncate index => exact iff_of_true (holds.truncate index) trivial
  | chop => exact iff_of_true holds.chop trivial
  | trim => exact holds.trim
  | releaseString => exact iff_of_true ⟨buffer, rfl, holds⟩ trivial

/-- A step from an exact state is exact exactly when its operation meets its condition. -/
theorem Exact.step {state next : State} {label : Label} (exact_ : Exact state)
    (taken : state.next label = some next) : Exact next ↔ Cond state label := by
  obtain ⟨buffer, is, holds⟩ := exact_
  rw [State.next] at taken
  split at taken
  · next ready =>
      rw [is, Option.map_some] at taken
      cases taken
      rw [Exact, holds.run_iff ready.2]
      constructor
      · intro met other same
        cases is.symm.trans same
        exact met
      · exact fun met => met buffer is
  · cases taken

theorem exact_start (allocSize : UInt64) : Exact (start allocSize) :=
  ⟨_, rfl, holds_ofSize allocSize⟩

end Steps

section Main

/-- A buffer is exact along a run exactly when each operation meets its condition. -/
theorem exact_iff (allocSize : UInt64) (steps : List (TransitionSystem.Transition State Label))
    (run : system.Run (start allocSize) steps) :
    (∀ step ∈ steps, Exact step.target) ↔ ∀ step ∈ steps, Cond step.source step.label := by
  refine run.property_iff_condition ?implies ?keep ?needed (exact_start allocSize)
  case implies => exact fun state exact_ => exact_
  case keep => exact fun state label next exact_ taken => (exact_.step taken).mpr
  case needed => exact fun state label next exact_ taken => (exact_.step taken).mp

/-- A string of three bytes, the second of them zero, is appended to a small buffer, which is
trimmed and released. -/
def appended : List Label :=
  [.appendChar 32, .appendString ⟨[97, 0, 98], by decide⟩, .trim, .releaseString]

theorem exact_iff_appended :
    (∀ step ∈ TransitionSystem.follow State.next (start 1) appended, Exact step.target) ↔
      ∀ step ∈ TransitionSystem.follow State.next (start 1) appended,
        Cond step.source step.label :=
  exact_iff 1 _ (TransitionSystem.follow_run _ _ _ _)

/-- The byte behind the zero is lost. -/
theorem appended_not_exact :
    ¬ ∀ (allocSize : UInt64) (steps : List (TransitionSystem.Transition State Label)),
      system.Run (start allocSize) steps → ∀ step ∈ steps, Exact step.target := by
  intro all
  have third (state : State) (exact_ : Exact state) (reference : state.reference = [97, 0, 98]) :
      state.buffer.map (fun buffer => buffer.m_bfr[2]?) = some (some (some 98)) := by
    obtain ⟨buffer, is, holds⟩ := exact_
    obtain ⟨rest, cells⟩ := holds.cells
    rw [is, Option.map_some, cells, reference]
    rfl
  have last := third _ (all 1 _ (TransitionSystem.follow_run _ _ appended (start 1)) _
    (List.getLast_mem (by decide +kernel))) (by decide +kernel)
  exact absurd last (by decide +kernel)

end Main

end Blocxx.StringBuffers
