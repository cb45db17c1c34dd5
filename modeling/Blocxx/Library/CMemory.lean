import Mathlib.Data.List.TakeWhile
import Mathlib.Tactic

/-!
This file gives blocks of memory whose cells may be unwritten and the functions of C strings on
them.
-/

namespace Blocxx.Library

/-- A block of memory. A cell that no write has reached has no byte. -/
abbrev Memory := List (Option UInt8)

namespace Memory

/-- The block of `new char[size]`. -/
def allocate (size : Nat) : Memory := List.replicate size none

/-- The block after the bytes are written from this position on. -/
def store (memory : Memory) (position : Nat) (bytes : List UInt8) : Memory :=
  memory.take position ++ (bytes.map some ++ memory.drop (position + bytes.length))

/-- The bytes in front of the first zero. -/
def cString : Memory → List UInt8
  | some byte :: rest => if byte = 0 then [] else byte :: cString rest
  | _ => []

def strcpy (destination source : Memory) : Memory := store destination 0 (cString source ++ [0])

def strcat (destination : Memory) (bytes : List UInt8) : Memory :=
  store destination (cString destination).length (bytes ++ [0])

/-- The bytes that `strncpy` writes from this memory. -/
def strncpy (source : Memory) (count : Nat) : List UInt8 :=
  let string := cString (source.take count)
  string ++ List.replicate (count - string.length) 0

/-- All cells up to the first zero are written. -/
def Terminated (memory : Memory) : Prop :=
  ∃ rest, memory = (cString memory).map some ++ some 0 :: rest

theorem zero_notMem_cString (memory : Memory) : (0 : UInt8) ∉ cString memory := by
  induction memory with
  | nil => exact List.not_mem_nil
  | cons cell rest ih =>
      cases cell with
      | none => exact List.not_mem_nil
      | some byte =>
          unfold cString
          split
          · exact List.not_mem_nil
          · next nonzero =>
              rw [List.mem_cons, not_or]
              exact ⟨Ne.symm nonzero, ih⟩

/-- Written bytes in front of an empty string are the C string up to their first zero. -/
theorem cString_before (bytes : List UInt8) {rest : Memory} (ends : cString rest = []) :
    cString (bytes.map some ++ rest) = bytes.takeWhile (· ≠ 0) := by
  induction bytes with
  | nil => exact ends
  | cons byte bytes ih =>
      show (if byte = 0 then [] else byte :: cString (bytes.map some ++ rest)) = _
      rw [ih]
      by_cases zero : byte = 0
      · rw [if_pos zero, List.takeWhile_cons_of_neg (by simpa using zero)]
      · rw [if_neg zero, List.takeWhile_cons_of_pos (by simpa using zero)]

/-- The C string of bytes with a zero behind them ends at their first zero. -/
theorem cString_written (bytes : List UInt8) (rest : Memory) :
    cString (bytes.map some ++ some 0 :: rest) = bytes.takeWhile (· ≠ 0) :=
  cString_before bytes rfl

/-- Written bytes are their C string up to the first zero. -/
theorem cString_map (bytes : List UInt8) : cString (bytes.map some) = bytes.takeWhile (· ≠ 0) := by
  have alone := @cString_before bytes [] rfl
  rwa [List.append_nil] at alone

/-- Without a zero the bytes up to the first one are all bytes. -/
theorem takeWhile_nonzero {bytes : List UInt8} (nonzero : (0 : UInt8) ∉ bytes) :
    bytes.takeWhile (· ≠ 0) = bytes := by
  rw [List.takeWhile_eq_self_iff]
  intro byte member
  have different : byte ≠ 0 := fun zero => nonzero (zero ▸ member)
  simpa using different

/-- With a zero they are fewer. -/
theorem length_takeWhile_nonzero_lt {bytes : List UInt8} (zero : (0 : UInt8) ∈ bytes) :
    (bytes.takeWhile (· ≠ 0)).length < bytes.length := by
  apply lt_of_le_of_ne (List.takeWhile_prefix _).length_le
  intro same
  have whole := (List.takeWhile_prefix (· ≠ 0) (l := bytes)).eq_of_length same
  rw [← whole] at zero
  simpa using List.mem_takeWhile_imp zero

/-- The bytes in front of a zero are the C string when none of them is zero. -/
theorem cString_append {bytes : List UInt8} (nonzero : (0 : UInt8) ∉ bytes) (rest : Memory) :
    cString (bytes.map some ++ some 0 :: rest) = bytes := by
  rw [cString_written, takeWhile_nonzero nonzero]

theorem cString_cons {byte : UInt8} (nonzero : byte ≠ 0) (rest : Memory) :
    cString (some byte :: rest) = byte :: cString rest := if_neg nonzero

theorem terminated_zero (rest : Memory) : Terminated (some 0 :: rest) := ⟨rest, rfl⟩

theorem Terminated.cons {rest : Memory} (terminated : Terminated rest) (byte : UInt8) :
    Terminated (some byte :: rest) := by
  by_cases zero : byte = 0
  · subst zero
    exact terminated_zero rest
  · obtain ⟨tail, same⟩ := terminated
    refine ⟨tail, ?_⟩
    rw [cString_cons zero, List.map_cons, List.cons_append, ← same]

theorem terminated_written (bytes : List UInt8) (rest : Memory) :
    Terminated (bytes.map some ++ some 0 :: rest) := by
  induction bytes with
  | nil => exact terminated_zero rest
  | cons byte bytes ih => exact ih.cons byte

/-- A terminated block starts with a zero, or with another byte in front of a terminated one. -/
@[elab_as_elim]
theorem Terminated.induction {motive : (memory : Memory) → Terminated memory → Prop}
    (zero : ∀ rest, motive (some 0 :: rest) (terminated_zero rest))
    (cons : ∀ byte rest (ends : Terminated rest), byte ≠ 0 → motive rest ends →
      motive (some byte :: rest) (ends.cons byte))
    {memory : Memory} (terminated : Terminated memory) : motive memory terminated := by
  have free := zero_notMem_cString memory
  have split := terminated
  obtain ⟨rest, same⟩ := split
  generalize cString memory = bytes at same free
  subst same
  induction bytes with
  | nil => exact zero rest
  | cons byte bytes ih =>
      rw [List.mem_cons, not_or] at free
      exact cons byte _ (terminated_written bytes rest) (Ne.symm free.1) (ih free.2 _)

/-- A string of at least these many characters has one in front of a string of one less. -/
@[elab_as_elim]
theorem le_length_induction
    {motive : (memory : Memory) → (n : Nat) → n ≤ (cString memory).length → Prop}
    (zero : ∀ memory, motive memory 0 (Nat.zero_le _))
    (cons : ∀ byte rest n (nonzero : byte ≠ 0) (long : n ≤ (cString rest).length),
      motive rest n long → motive (some byte :: rest) (n + 1)
        (cString_cons nonzero rest ▸ Nat.succ_le_succ long))
    {memory : Memory} {n : Nat} (long : n ≤ (cString memory).length) : motive memory n long := by
  induction n generalizing memory with
  | zero => exact zero memory
  | succ n ih =>
      cases memory with
      | nil => cases long
      | cons cell rest =>
          cases cell with
          | none => cases long
          | some byte =>
              have shorter := long
              rw [cString] at shorter
              by_cases ends : byte = 0
              · rw [if_pos ends] at shorter
                cases shorter
              · rw [if_neg ends, List.length_cons, Nat.succ_le_succ_iff] at shorter
                exact cons byte rest n ends shorter (ih shorter)

theorem Terminated.cString_length_lt {memory : Memory} (terminated : Terminated memory) :
    (cString memory).length < memory.length := by
  obtain ⟨rest, same⟩ := terminated
  have lengths := congrArg List.length same
  rw [List.length_append, List.length_map, List.length_cons] at lengths
  omega

theorem length_cString_le (memory : Memory) : (cString memory).length ≤ memory.length := by
  induction memory with
  | nil => exact le_rfl
  | cons cell rest ih =>
      cases cell with
      | none => exact Nat.zero_le _
      | some byte =>
          show (if byte = 0 then [] else byte :: cString rest).length ≤ _
          split
          · exact Nat.zero_le _
          · exact Nat.succ_le_succ ih

/-- The C string stands at the start of its block. -/
theorem cString_prefix (memory : Memory) : ∃ rest, memory = (cString memory).map some ++ rest := by
  induction memory with
  | nil => exact ⟨[], rfl⟩
  | cons cell rest ih =>
      cases cell with
      | none => exact ⟨none :: rest, rfl⟩
      | some byte =>
          obtain ⟨tail, same⟩ := ih
          unfold cString
          split
          · exact ⟨_, rfl⟩
          · refine ⟨tail, ?_⟩
            rw [List.map_cons, List.cons_append, ← same]

theorem length_strncpy (source : Memory) (count : Nat) : (strncpy source count).length = count := by
  have short := length_cString_le (source.take count)
  rw [List.length_take] at short
  rw [strncpy, List.length_append, List.length_replicate]
  omega

/-- The copy of `strncpy` has the bytes exactly when no other byte follows a zero. -/
theorem strncpy_eq_iff {source : Memory} {bytes : List UInt8}
    (same : source.take bytes.length = bytes.map some) :
    strncpy source bytes.length = bytes ↔
      bytes.Pairwise fun first second => first = 0 → second = 0 := by
  rw [strncpy, same, cString_map]
  clear same
  induction bytes with
  | nil => simp
  | cons byte bytes ih =>
      rw [List.pairwise_cons]
      by_cases zero : byte = 0
      · subst zero
        rw [List.takeWhile_cons_of_neg (by simp), List.length_nil, List.nil_append, Nat.sub_zero,
          List.length_cons, List.replicate_succ, List.cons.injEq]
        constructor
        · rintro ⟨-, zeros⟩
          have all : ∀ byte ∈ bytes, byte = 0 := by
            rw [← zeros]
            exact fun byte mem => List.eq_of_mem_replicate mem
          refine ⟨fun byte mem _ => all byte mem, ?_⟩
          exact List.pairwise_of_forall_mem_list fun _ _ byte mem _ => all byte mem
        · rintro ⟨all, -⟩
          refine ⟨rfl, ?_⟩
          exact (List.eq_replicate_of_mem fun byte mem => all byte mem rfl).symm
      · rw [List.takeWhile_cons_of_pos (by simpa using zero), List.length_cons, List.length_cons,
          Nat.add_sub_add_right, List.cons_append, List.cons.injEq, ih]
        simp [zero]

/-- Bytes that are stored behind written ones follow them. -/
theorem store_append (first : List UInt8) (rest : Memory) (bytes : List UInt8) :
    store (first.map some ++ rest) first.length bytes =
      (first ++ bytes).map some ++ rest.drop bytes.length := by
  have length : (first.map some).length = first.length := List.length_map _
  rw [store, List.take_append_of_le_length length.ge, List.take_of_length_le length.le,
    List.drop_append, List.drop_of_length_le (by omega), length, Nat.add_sub_cancel_left,
    List.map_append, List.append_assoc, List.nil_append]

/-- The cells of a block after a write inside of it. -/
theorem getElem?_store {memory : Memory} {position : Nat} {bytes : List UInt8}
    (inside : position + bytes.length ≤ memory.length) (index : Nat) :
    (store memory position bytes)[index]? =
      if index < position ∨ position + bytes.length ≤ index then memory[index]?
      else (bytes.map some)[index - position]? := by
  have front : (memory.take position).length = position := by
    rw [List.length_take]
    omega
  rw [store, List.getElem?_append, front]
  by_cases before : index < position
  · rw [if_pos before, if_pos (.inl before), List.getElem?_take_of_lt before]
  rw [if_neg before, List.getElem?_append, List.length_map]
  by_cases behind : position + bytes.length ≤ index
  · rw [if_neg (by omega), if_pos (.inr behind), List.getElem?_drop]
    congr 1
    omega
  · rw [if_pos (by omega), if_neg (by omega)]

theorem length_store {memory : Memory} {position : Nat} {bytes : List UInt8}
    (inside : position + bytes.length ≤ memory.length) :
    (store memory position bytes).length = memory.length := by
  rw [store, List.length_append, List.length_append, List.length_take, List.length_map,
    List.length_drop]
  omega

/-- A write behind a place is a write to the part that starts there. -/
theorem drop_store {memory : Memory} {place : Nat} (inside : place ≤ memory.length)
    (position : Nat) (bytes : List UInt8) :
    (store memory (place + position) bytes).drop place =
      store (memory.drop place) position bytes := by
  have front : place ≤ (memory.take (place + position)).length := by
    rw [List.length_take]
    omega
  rw [store, List.drop_append_of_le_length front, List.drop_take, Nat.add_sub_cancel_left, store,
    List.drop_drop, Nat.add_assoc]

/-- A write that reaches as far as the end of an earlier one replaces it from its place on. -/
theorem store_store {memory : Memory} {position : Nat} {first second third : List UInt8}
    (inside : position + first.length + third.length ≤ memory.length)
    (covers : second.length ≤ third.length) :
    store (store memory position (first ++ second)) (position + first.length) third =
      store memory position (first ++ third) := by
  have front : (memory.take position ++ first.map some).length = position + first.length := by
    rw [List.length_append, List.length_take, List.length_map]
    omega
  have earlier : store memory position (first ++ second) =
      (memory.take position ++ first.map some) ++
        (second.map some ++ memory.drop (position + first.length + second.length)) := by
    rw [store, List.map_append, List.length_append, Nat.add_assoc, List.append_assoc,
      List.append_assoc]
  rw [store, earlier, ← front, List.take_left, List.drop_length_add_append, List.drop_append,
    List.drop_of_length_le (by rwa [List.length_map]), List.length_map, List.nil_append,
    List.drop_drop, front, store, List.map_append, List.length_append, List.append_assoc,
    List.append_assoc]
  congr 4
  omega

theorem strcpy_eq (destination source : Memory) :
    strcpy destination source =
      (cString source).map some ++ some 0 :: destination.drop ((cString source).length + 1) := by
  rw [strcpy, store, List.take_zero, List.nil_append, List.map_append, List.append_assoc,
    List.length_append, Nat.zero_add]
  rfl

/-- The block of a concatenation is the first string, the second one and a zero. -/
theorem strcat_eq {first : List UInt8} (nonzero : (0 : UInt8) ∉ first) (rest : Memory)
    (second : List UInt8) :
    strcat (first.map some ++ some 0 :: rest) second =
      (first ++ second).map some ++ some 0 :: rest.drop second.length := by
  have length : (first.map some).length = first.length := List.length_map _
  rw [strcat, cString_append nonzero, store, List.take_append_of_le_length length.ge,
    List.take_of_length_le length.le, List.map_append, List.map_append, List.append_assoc,
    List.append_assoc, List.length_append, List.length_singleton]
  congr 2
  rw [List.drop_append, List.drop_of_length_le (by omega), length,
    show first.length + (second.length + 1) - first.length = second.length + 1 by omega]
  rfl

end Memory

end Blocxx.Library
