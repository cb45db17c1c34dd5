import Blocxx.BinarySerialization.BinarySerialization
import Blocxx.String.String
import Mathlib.Data.List.TakeWhile

/-!
This file proves when the copies and the concatenations of a `String` act on all of its bytes.
-/

namespace Blocxx.Strings

open Library Library.Memory Library.ByteStream BinarySerialization

/-- The string has exactly these bytes, and all of them are written. -/
def Shows (str : CowString) (bytes : Bytes) : Prop :=
  length str = bytes.length ∧ (memory str).take (length str) = bytes.map some

/-- The string `String(s, len)` after this many copies of it. -/
def copies (s : Bytes) : Nat → CowString
  | 0 => ofBytes (some s)
  | count + 1 => copy (copies s count)

def bytesOf (arg : Option CString) : Bytes :=
  match arg with
  | some arg => arg.bytes
  | none => []

/-- A copy that a mutable access clones keeps the bytes, and a concatenation goes on behind all of
them, for the copies and for the cloned one. -/
structure ActsOnWhole (s : Bytes) (arg : Option CString) : Prop where
  cloned : ∀ count, Shows (mutableAccess (copies s (count + 1))) s
  joined : ∀ count, Shows (concat (copies s count) arg) (s ++ bytesOf arg)
  clonedJoined : ∀ count,
    Shows (concat (mutableAccess (copies s (count + 1))) arg) (s ++ bytesOf arg)

theorem copies_eq (s : Bytes) (count : Nat) : copies s count = some ⟨.ofBlock s, count + 1⟩ := by
  induction count with
  | zero => rfl
  | succ count ih =>
      rw [copies, ih]
      rfl

theorem mutableAccess_copies (s : Bytes) (count : Nat) :
    mutableAccess (copies s (count + 1)) = some ⟨(ByteBuf.ofBlock s).clone, 1⟩ := by
  rw [copies_eq]
  show some (Reference.getWriteLock _) = _
  rw [Reference.getWriteLock, if_neg (Nat.succ_ne_succ_iff.mpr (Nat.succ_ne_zero count))]

/-- A clone has the same C string. -/
theorem cString_clone (arg : ByteBuf) : cString arg.clone.m_buf = cString arg.m_buf := by
  show cString (strcpy _ _) = _
  rw [strcpy_eq, cString_append (zero_notMem_cString _)]

theorem cString_getWriteLock (m_buf : Reference) :
    cString m_buf.getWriteLock.object.m_buf = cString m_buf.object.m_buf := by
  unfold Reference.getWriteLock
  split
  · rfl
  · exact cString_clone _

theorem cString_ofBlock (s : Bytes) : cString (ByteBuf.ofBlock s).m_buf = s.takeWhile (· ≠ 0) :=
  cString_written s []

theorem text_copies (s : Bytes) (count : Nat) : text (copies s count) = s.takeWhile (· ≠ 0) := by
  rw [copies_eq]
  exact (cString_getWriteLock _).trans (cString_ofBlock s)

theorem text_mutableAccess (s : Bytes) (count : Nat) :
    text (mutableAccess (copies s (count + 1))) = s.takeWhile (· ≠ 0) := by
  rw [mutableAccess_copies]
  exact (cString_getWriteLock _).trans ((cString_clone _).trans (cString_ofBlock s))

/-- The bytes up to the first zero. -/
theorem takeWhile_zero {before : Bytes} (nonzero : (0 : UInt8) ∉ before) (after : Bytes) :
    (before ++ 0 :: after).takeWhile (· ≠ 0) = before := by
  rw [List.takeWhile_append_of_pos]
  · rw [List.takeWhile_cons_of_neg (by decide), List.append_nil]
  · intro byte mem
    have other : byte ≠ 0 := fun same => nonzero (same ▸ mem)
    simpa using other

theorem memory_clone (s : Bytes) :
    (ByteBuf.ofBlock s).clone.m_buf = (s.takeWhile (· ≠ 0)).map some ++
      some 0 :: allocate (s.length - (s.takeWhile (· ≠ 0)).length) := by
  show strcpy (allocate (s.length + 1)) _ = _
  rw [strcpy_eq, cString_ofBlock, allocate, List.drop_replicate, Nat.add_sub_add_right]
  rfl

theorem allocate_eq_map {bytes : Bytes} (written : allocate bytes.length = bytes.map some) :
    bytes = [] := by
  cases bytes with
  | nil => rfl
  | cons byte bytes =>
      have first := List.head_eq_of_cons_eq written
      exact absurd first.symm (Option.some_ne_none byte)

/-- The clone shows the bytes exactly when no zero comes before the last of them. -/
theorem clone_shows_iff (s : Bytes) (count : Nat) :
    Shows (mutableAccess (copies s (count + 1))) s ↔ (0 : UInt8) ∉ s.dropLast := by
  rw [mutableAccess_copies]
  show (s.length = s.length ∧ (ByteBuf.ofBlock s).clone.m_buf.take s.length = s.map some) ↔ _
  rw [memory_clone, and_iff_right rfl]
  by_cases zero : (0 : UInt8) ∈ s
  · obtain ⟨before, after, rfl, nonzero⟩ := List.eq_append_cons_of_mem zero
    have rest : (before ++ 0 :: after).length - before.length = after.length + 1 := by
      rw [List.length_append, List.length_cons]
      omega
    have length : (before ++ 0 :: after).length = (before.map some).length + (after.length + 1) := by
      rw [List.length_append, List.length_cons, List.length_map]
    rw [takeWhile_zero nonzero, rest, length, List.take_length_add_append, List.take_succ_cons,
      List.map_append, List.append_cancel_left_eq, List.map_cons, allocate, List.take_replicate,
      Nat.min_eq_left (Nat.le_succ _)]
    constructor
    · intro same
      have empty := allocate_eq_map (List.cons_inj_right _ |>.mp same)
      rw [empty, List.dropLast_concat]
      exact nonzero
    · intro last
      rcases List.eq_nil_or_concat after with rfl | ⟨front, back, rfl⟩
      · rfl
      · rw [List.concat_eq_append, List.dropLast_append_cons, ← List.cons_append,
          List.dropLast_concat] at last
        exact absurd (List.mem_append_right _ List.mem_cons_self) last
  · rw [takeWhile_nonzero zero, Nat.sub_self, List.take_append_of_le_length
      (List.length_map _).ge, List.take_of_length_le (List.length_map _).le]
    exact iff_of_true rfl fun mem => zero (List.dropLast_subset _ mem)

/-- The result of a concatenation shows both strings exactly when the first one has no zero. -/
theorem concat_shows_iff {str : CowString} {s : Bytes} (sized : length str = s.length)
    (prefixed : text str = s.takeWhile (· ≠ 0)) {arg : CString} (nonempty : arg.bytes ≠ []) :
    Shows (concat str (some arg)) (s ++ arg.bytes) ↔ (0 : UInt8) ∉ s := by
  rw [concat]
  dsimp only
  rw [if_neg nonempty]
  show (length str + arg.bytes.length = (s ++ arg.bytes).length ∧
    (concatenated (length str + arg.bytes.length) str arg.bytes).take
      (length str + arg.bytes.length) = (s ++ arg.bytes).map some) ↔ _
  rw [concatenated_eq, sized, prefixed, List.length_append, and_iff_right rfl]
  by_cases zero : (0 : UInt8) ∈ s
  · refine iff_of_false ?_ (not_not.mpr zero)
    intro same
    obtain ⟨before, after, rfl, nonzero⟩ := List.eq_append_cons_of_mem zero
    obtain ⟨first, others, eq⟩ := List.exists_cons_of_ne_nil nonempty
    -- the result has the first byte of the argument where the string has its zero
    have inside : before.length < (before ++ 0 :: after).length + arg.bytes.length := by
      rw [List.length_append, List.length_cons]
      omega
    have there := congrArg (·[before.length]?) same
    rw [List.getElem?_take_of_lt inside, takeWhile_zero nonzero, eq, List.map_append,
      List.map_append, List.map_append, List.append_assoc, List.append_assoc] at there
    have length : (before.map some).length = before.length := List.length_map _
    rw [List.getElem?_append_right length.le, List.getElem?_append_right length.le, length,
      Nat.sub_self] at there
    have there : first = 0 := Option.some.inj (Option.some.inj there)
    exact arg.nonzero (by rw [eq, ← there]; exact List.mem_cons_self)
  · refine iff_of_true ?_ zero
    have length : s.length + arg.bytes.length = ((s ++ arg.bytes).map some).length := by
      rw [List.length_map, List.length_append]
    rw [takeWhile_nonzero zero, length, List.take_left]

/-- A null or empty argument changes nothing. -/
theorem concat_empty {str : CowString} {arg : Option CString} (empty : bytesOf arg = []) :
    concat str arg = str := by
  cases arg with
  | none => rfl
  | some arg => exact if_pos empty

theorem copies_shows (s : Bytes) (count : Nat) : Shows (copies s count) s := by
  rw [copies_eq]
  exact ⟨rfl, List.take_left' (List.length_map _)⟩

theorem copies_length (s : Bytes) (count : Nat) : length (copies s count) = s.length := by
  rw [copies_eq]
  rfl

theorem mutableAccess_length (s : Bytes) (count : Nat) :
    length (mutableAccess (copies s (count + 1))) = s.length := by
  rw [mutableAccess_copies]
  rfl

/-- The operations act on all bytes exactly when no zero comes before the last byte, and nothing is
concatenated behind a zero. -/
theorem actsOnWhole_iff (s : Bytes) (arg : Option CString) :
    ActsOnWhole s arg ↔ (0 : UInt8) ∉ s.dropLast ∧ ((0 : UInt8) ∉ s ∨ bytesOf arg = []) := by
  have sound : (∀ count, Shows (mutableAccess (copies s (count + 1))) s) ↔
      (0 : UInt8) ∉ s.dropLast :=
    ⟨fun shows => (clone_shows_iff s 0).mp (shows 0), fun last count =>
      (clone_shows_iff s count).mpr last⟩
  by_cases empty : bytesOf arg = []
  · rw [and_iff_left (Or.inr empty), ← sound]
    constructor
    · exact ActsOnWhole.cloned
    · intro clone
      refine ⟨clone, ?_, ?_⟩ <;> intro count <;> rw [concat_empty empty, empty, List.append_nil]
      · exact copies_shows s count
      · exact clone count
  · rw [or_iff_left empty]
    cases arg with
    | none => exact absurd rfl empty
    | some arg =>
        have direct (count : Nat) :=
          concat_shows_iff (copies_length s count) (text_copies s count) empty
        have cloned (count : Nat) :=
          concat_shows_iff (mutableAccess_length s count) (text_mutableAccess s count) empty
        constructor
        · intro whole
          exact ⟨sound.mp whole.cloned, (direct 0).mp (whole.joined 0)⟩
        · rintro ⟨last, nonzero⟩
          exact ⟨sound.mpr last, fun count => (direct count).mpr nonzero,
            fun count => (cloned count).mpr nonzero⟩

/-- The clone of a string with a zero inside loses the bytes behind it. -/
theorem innerZero_not_actsOnWhole :
    ¬ ∀ (s : Bytes) (arg : Option CString), ActsOnWhole s arg := by
  intro all
  have shows := (all [97, 0, 98] none).cloned 0
  exact absurd ((clone_shows_iff _ _).mp shows) (by decide)

end Blocxx.Strings
