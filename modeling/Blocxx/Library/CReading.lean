import Blocxx.Library.CMemory

/-!
This file gives the functions of C that read a block of memory. They have no result when they read
a cell outside of the block or one that no write has reached.
-/

namespace Blocxx.Library.Memory

/-- The byte at this position. -/
def byteAt (memory : Memory) : Int → Option UInt8
  | .ofNat position => memory.getD position none
  | .negSucc _ => none

def writtenBytes : Memory → Option (List UInt8)
  | [] => some []
  | none :: _ => none
  | some byte :: rest => (writtenBytes rest).map (byte :: ·)

/-- The bytes that `memcpy` reads from this position on. -/
def memcpy (memory : Memory) (position count : Nat) : Option (List UInt8) :=
  if position + count ≤ memory.length then writtenBytes ((memory.drop position).take count) else none

/-- The number of bytes in front of the first terminator. -/
def strlen : Memory → Option Nat
  | some byte :: rest => if byte = 0 then some 0 else (strlen rest).map (· + 1)
  | _ => none

/-- `strncmp`. The second string is given by the bytes before its terminator. -/
def strncmp : Memory → List UInt8 → Nat → Option Int
  | _, _, 0 => some 0
  | some byte :: rest, second, count + 1 =>
      match second with
      | [] => some byte.toNat
      | other :: more =>
          if byte = other then strncmp rest more count else some (byte.toNat - other.toNat)
  | _, _, _ + 1 => none

/-- `strcmp` reads nothing behind the place of the second terminator. -/
def strcmp (memory : Memory) (second : List UInt8) : Option Int :=
  strncmp memory second (second.length + 1)

/-- The write of one byte. -/
def writeByte (memory : Memory) (position : Nat) (byte : UInt8) : Option Memory :=
  if position < memory.length then some (memory.set position (some byte)) else none

/-- The write of bytes from this position on. -/
def writeBytes (memory : Memory) (position : Nat) (bytes : List UInt8) : Option Memory :=
  if position + bytes.length ≤ memory.length then some (store memory position bytes) else none

theorem writeByte_eq_store {memory : Memory} {position : Nat} (inside : position < memory.length)
    (byte : UInt8) : memory.writeByte position byte = some (store memory position [byte]) := by
  rw [writeByte, if_pos inside, List.set_eq_take_append_cons_drop, if_pos inside]
  rfl

theorem byteAt_written {bytes : List UInt8} {position : Nat} (inside : position < bytes.length)
    (rest : Memory) :
    byteAt (bytes.map some ++ rest) position = some (bytes.get ⟨position, inside⟩) := by
  show (bytes.map some ++ rest).getD position none = _
  rw [List.getD_eq_getElem?_getD, List.getElem?_append_left (by rwa [List.length_map]),
    List.getElem?_map, List.getElem?_eq_getElem inside]
  rfl

theorem writtenBytes_map (bytes : List UInt8) : writtenBytes (bytes.map some) = some bytes := by
  induction bytes with
  | nil => rfl
  | cons byte bytes ih => rw [List.map_cons, writtenBytes, ih, Option.map_some]

/-- A copy from written bytes. -/
theorem memcpy_written {bytes : List UInt8} {position count : Nat}
    (inside : position + count ≤ bytes.length) (rest : Memory) :
    memcpy (bytes.map some ++ rest) position count = some ((bytes.drop position).take count) := by
  have fits : position + count ≤ (bytes.map some ++ rest).length := by
    rw [List.length_append, List.length_map]
    omega
  have dropped : (bytes.map some ++ rest).drop position =
      (bytes.drop position).map some ++ rest := by
    rw [List.drop_append_of_le_length (by rw [List.length_map]; omega), List.map_drop]
  have taken : ((bytes.drop position).map some ++ rest).take count =
      ((bytes.drop position).take count).map some := by
    rw [List.take_append_of_le_length (by rw [List.length_map, List.length_drop]; omega),
      List.map_take]
  rw [memcpy, if_pos fits, dropped, taken, writtenBytes_map]

theorem memcpy_outside {memory : Memory} {position count : Nat}
    (outside : memory.length < position + count) : memcpy memory position count = none := by
  rw [memcpy, if_neg (Nat.not_le.mpr outside)]

theorem strlen_terminated {memory : Memory} (terminated : Terminated memory) :
    strlen memory = some (cString memory).length := by
  induction terminated using Terminated.induction with
  | zero rest => rfl
  | cons byte rest ends nonzero ih =>
      rw [strlen, if_neg nonzero, ih, cString_cons nonzero]
      rfl

/-- The comparison of a terminated string looks at the first bytes of both strings. -/
theorem strncmp_spec {memory : Memory} (terminated : Terminated memory) {second : List UInt8}
    (nonzero : (0 : UInt8) ∉ second) (count : Nat) :
    ∃ result, strncmp memory second count = some result ∧
      (result = 0 ↔ (cString memory).take count = second.take count) := by
  induction terminated using Terminated.induction generalizing second count with
  | zero rest =>
      cases count with
      | zero => exact ⟨0, rfl, by simp⟩
      | succ count =>
          cases second with
          | nil => exact ⟨0, rfl, by simp [cString]⟩
          | cons other more =>
              have different : (0 : UInt8) ≠ other := fun zero =>
                nonzero (zero ▸ List.mem_cons_self)
              refine ⟨(0 : UInt8).toNat - other.toNat, if_neg different, ?_⟩
              have positive : other.toNat ≠ 0 := fun zero =>
                different (UInt8.toNat_inj.mp zero.symm)
              rw [cString, if_pos rfl]
              simp only [List.take_nil, List.take_succ_cons, List.nil_eq, reduceCtorEq, iff_false]
              rw [UInt8.toNat_zero]
              omega
  | cons byte rest ends present ih =>
      rw [cString_cons present]
      cases count with
      | zero => exact ⟨0, rfl, by simp⟩
      | succ count =>
          cases second with
          | nil =>
              have positive : byte.toNat ≠ 0 := fun zero => present (UInt8.toNat_inj.mp zero)
              refine ⟨byte.toNat, rfl, ?_⟩
              simp only [List.take_succ_cons, List.take_nil, reduceCtorEq, iff_false]
              omega
          | cons other more =>
              rw [List.mem_cons, not_or] at nonzero
              rw [strncmp]
              by_cases equal : byte = other
              · obtain ⟨result, compared, zero⟩ := ih nonzero.2 count
                refine ⟨result, by rw [if_pos equal, compared], ?_⟩
                rw [zero, List.take_succ_cons, List.take_succ_cons, List.cons.injEq,
                  and_iff_right equal]
              · refine ⟨byte.toNat - other.toNat, if_neg equal, ?_⟩
                have different : byte.toNat ≠ other.toNat := fun same =>
                  equal (UInt8.toNat_inj.mp same)
                simp only [List.take_succ_cons, List.cons.injEq, equal, false_and, iff_false]
                omega

/-- Two strings compare equal when they are. -/
theorem strcmp_spec {memory : Memory} (terminated : Terminated memory) {second : List UInt8}
    (nonzero : (0 : UInt8) ∉ second) :
    ∃ result, strcmp memory second = some result ∧ (result = 0 ↔ cString memory = second) := by
  obtain ⟨result, compared, zero⟩ := strncmp_spec terminated nonzero (second.length + 1)
  refine ⟨result, compared, ?_⟩
  rw [zero, List.take_of_length_le (Nat.le_succ second.length)]
  constructor
  · intro same
    have lengths := congrArg List.length same
    rw [List.length_take] at lengths
    rw [← same, List.take_of_length_le (by omega)]
  · rintro rfl
    rw [List.take_of_length_le (Nat.le_succ _)]

/-- `strcmp` is negative when the first string comes first in the order of bytes without sign. -/
theorem strcmp_neg_iff {first second : List UInt8} (free : (0 : UInt8) ∉ first)
    (nonzero : (0 : UInt8) ∉ second) (rest : Memory) :
    ∃ result, strcmp (first.map some ++ some 0 :: rest) second = some result ∧
      (result < 0 ↔ compare first second = .lt) := by
  induction first generalizing second with
  | nil =>
      cases second with
      | nil => exact ⟨0, rfl, by decide⟩
      | cons other more =>
          have different : (0 : UInt8) ≠ other := fun zero => nonzero (zero ▸ List.mem_cons_self)
          have positive : other.toNat ≠ 0 := fun zero =>
            different (UInt8.toNat_inj.mp zero.symm)
          refine ⟨(0 : UInt8).toNat - other.toNat, if_neg different, iff_of_true ?_ rfl⟩
          show ((0 : Nat) : Int) - other.toNat < 0
          omega
  | cons byte bytes ih =>
      cases second with
      | nil => exact ⟨byte.toNat, rfl, iff_of_false (by omega) (by intro less; cases less)⟩
      | cons other more =>
          rw [List.mem_cons, not_or] at free nonzero
          have cons : compare (byte :: bytes) (other :: more) =
              (compare byte other).then (compare bytes more) := List.compareLex_cons_cons
          rw [cons]
          by_cases same : byte = other
          · subst same
            obtain ⟨result, compares, negative⟩ := ih free.2 nonzero.2
            have equal : compare byte byte = .eq := Std.ReflCmp.compare_self
            refine ⟨result, (if_pos rfl).trans compares, ?_⟩
            rw [equal, Ordering.eq_then]
            exact negative
          · have first : (compare byte other).then (compare bytes more) = compare byte other := by
              cases decided : compare byte other with
              | eq => exact absurd (Std.LawfulEqOrd.eq_of_compare decided) same
              | lt => rfl
              | gt => rfl
            refine ⟨byte.toNat - other.toNat, if_neg same, ?_⟩
            rw [first, Std.compare_eq_lt, UInt8.lt_iff_toNat_lt]
            omega

end Blocxx.Library.Memory
