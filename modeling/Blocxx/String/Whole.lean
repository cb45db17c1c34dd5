import Blocxx.Library.CReading
import Blocxx.String.WholeBytes

/-!
This file gives the strings whose block is their bytes and a terminator, and what the accesses of
`String` do to them.
-/

namespace Blocxx.Strings

open Library Library.Memory BinarySerialization

/-- A string whose block is its bytes and a terminator. The size of the block is a `size_t`. -/
structure Whole where
  str : CowString
  bytes : Bytes
  block : memory str = bytes.map some ++ [some 0]
  fits : bytes.length + 1 < 2 ^ 64

/-- The buffer of the string has other owners. -/
def Shared : CowString → Prop
  | none => False
  | some m_buf => m_buf.uses ≠ 1

instance (str : CowString) : Decidable (Shared str) := by
  cases str with
  | none => exact inferInstanceAs (Decidable False)
  | some m_buf => exact inferInstanceAs (Decidable (m_buf.uses ≠ 1))

/-- The argument that `c_str` gives. -/
def c_str (str : CowString) : CString := ⟨cString (memory str), zero_notMem_cString _⟩

theorem ByteBuf.eq_ofBlock {object : ByteBuf} {bytes : Bytes}
    (block : object.m_buf = bytes.map some ++ [some 0]) : object = .ofBlock bytes := by
  obtain ⟨m_len, m_buf, sized, terminated⟩ := object
  dsimp only at block
  subst block
  obtain rfl : bytes.length = m_len := by
    rw [List.length_append, List.length_map, List.length_singleton] at sized
    omega
  rfl

/-- A whole string has no buffer, or the buffer of its bytes. -/
theorem Whole.cases (whole : Whole) : whole.str = none ∧ whole.bytes = [] ∨
    ∃ uses, whole.str = some ⟨.ofBlock whole.bytes, uses⟩ := by
  obtain ⟨str, bytes, block, fits⟩ := whole
  cases str with
  | none =>
      cases bytes with
      | nil => exact .inl ⟨rfl, rfl⟩
      | cons byte bytes =>
          have lengths := congrArg List.length block
          simp [memory] at lengths
  | some m_buf =>
      right
      obtain ⟨object, uses⟩ := m_buf
      obtain rfl : object = .ofBlock bytes := ByteBuf.eq_ofBlock block
      exact ⟨uses, rfl⟩

theorem shows_ofBytes (bytes : Bytes) : Shows (ofBytes (some bytes)) bytes :=
  ⟨rfl, List.take_left' (List.length_map _)⟩

theorem Whole.length_eq (whole : Whole) : length whole.str = whole.bytes.length := by
  rcases whole.cases with ⟨null, empty⟩ | ⟨uses, buffer⟩
  · rw [null, empty]
    rfl
  · rw [buffer]
    rfl

theorem Whole.shows (whole : Whole) : Shows whole.str whole.bytes := by
  refine ⟨whole.length_eq, ?_⟩
  rw [whole.block, whole.length_eq]
  exact List.take_left' (List.length_map _)

/-- A string holds one sequence of bytes. -/
theorem Shows.unique {str : CowString} {first second : Bytes} (one : Shows str first)
    (other : Shows str second) : first = second :=
  List.map_injective_iff.mpr (Option.some_injective _) (one.2.symm.trans other.2)

theorem shows_null {bytes : Bytes} : Shows none bytes ↔ bytes = [] := by
  constructor
  · intro shows
    exact List.eq_nil_of_length_eq_zero shows.1.symm
  · rintro rfl
    exact ⟨rfl, rfl⟩

end Blocxx.Strings
