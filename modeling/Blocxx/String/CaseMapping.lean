import Blocxx.Library.Loop
import Blocxx.Library.Sharing
import Blocxx.String.Whole
import Blocxx.UTF8Utils.Remapping

/-!
This file embeds `String::toLowerCase` and `String::toUpperCase` on strings that share buffers, and
proves which strings they map exactly.
-/

namespace Blocxx.Strings

open Library Library.Memory BinarySerialization UTF8Utils

variable {Name : Type}

/-- The buffers of the program and the pointers of the strings to them. A buffer without a pointer
is freed memory. -/
structure Pool (Name : Type) where
  buffers : List ByteBuf
  m_buf : Name → Option Nat
  live : ∀ name p, m_buf name = some p → p < buffers.length

namespace Pool

/-- The buffer of the string. -/
def object (pool : Pool Name) (name : Name) : Option ByteBuf := do
  let p ← pool.m_buf name
  pool.buffers[p]?

theorem write_live (pool : Pool Name) (position : Nat) (object : ByteBuf) :
    ∀ other p, pool.m_buf other = some p → p < (pool.buffers.set position object).length := by
  intro other p points
  rw [List.length_set]
  exact pool.live other p points

/-- The buffer at this position has this content. -/
def write (pool : Pool Name) (position : Nat) (object : ByteBuf) : Pool Name where
  buffers := pool.buffers.set position object
  m_buf := pool.m_buf
  live := pool.write_live position object

variable [DecidableEq Name]

theorem place_live (pool : Pool Name) (name : Name) (object : ByteBuf) :
    ∀ other p, Function.update pool.m_buf name (some pool.buffers.length) other = some p →
      p < (pool.buffers ++ [object]).length := by
  intro other p points
  rw [List.length_append, List.length_singleton]
  rcases eq_or_ne other name with rfl | different
  · rw [Function.update_self] at points
    obtain rfl := Option.some.inj points
    exact Nat.lt_succ_self _
  · rw [Function.update_of_ne different] at points
    exact Nat.lt_succ_of_lt (pool.live other p points)

/-- The string gets a new buffer of its own. -/
def place (pool : Pool Name) (name : Name) (object : ByteBuf) : Pool Name where
  buffers := pool.buffers ++ [object]
  m_buf := Function.update pool.m_buf name (some pool.buffers.length)
  live := pool.place_live name object

variable [Fintype Name]

/-- The use count of the buffer is the number of strings that point to it. -/
def str (pool : Pool Name) (name : Name) : CowString := do
  let p ← pool.m_buf name
  let object ← pool.buffers[p]?
  return ⟨object, Sharing.uses pool.m_buf p⟩

/-- `COWIntrusiveReference::getWriteLock`. A shared buffer is cloned. -/
def getWriteLock (pool : Pool Name) (name : Name) : Pool Name :=
  match pool.str name with
  | none => pool
  | some m_buf => if m_buf.uses = 1 then pool else pool.place name m_buf.object.clone

end Pool

section Pool

variable {pool locked : Pool Name} {name other : Name} {p : Nat} {object : ByteBuf}

section Owns

variable [Fintype Name]

theorem Pool.str_eq {uses : Nat} (points : pool.m_buf name = some p)
    (holds : pool.buffers[p]? = some object) (counts : Sharing.uses pool.m_buf p = uses) :
    pool.str name = some ⟨object, uses⟩ := by
  rw [Pool.str, points, ← counts]
  simp [holds]

theorem Pool.str_some {m_buf : Reference} (is : pool.str name = some m_buf) :
    ∃ p, pool.m_buf name = some p ∧ pool.buffers[p]? = some m_buf.object ∧
      Sharing.uses pool.m_buf p = m_buf.uses := by
  simp only [Pool.str, bind, Option.bind_eq_some_iff, pure, Option.some.injEq] at is
  obtain ⟨p, points, object, holds, rfl⟩ := is
  exact ⟨p, points, holds, rfl⟩

theorem Pool.str_none (null : pool.str name = none) : pool.m_buf name = none := by
  cases points : pool.m_buf name with
  | none => rfl
  | some p =>
      have inside := pool.live name p points
      have holds : pool.buffers[p]? = some (pool.buffers.get ⟨p, inside⟩) :=
        List.getElem?_eq_getElem inside
      rw [Pool.str_eq points holds rfl] at null
      cases null

/-- The string is the only owner of its buffer, and the other strings have their old ones. -/
structure Owns (pool locked : Pool Name) (name : Name) (p : Nat) (object : ByteBuf) : Prop where
  points : locked.m_buf name = some p
  holds : locked.buffers[p]? = some object
  alone : Sharing.uses locked.m_buf p = 1
  others : ∀ other, other ≠ name → locked.object other = pool.object other

theorem Owns.str (owns : Owns pool locked name p object) :
    locked.str name = some ⟨object, 1⟩ :=
  Pool.str_eq owns.points owns.holds owns.alone

theorem Owns.buffer (owns : Owns pool locked name p object) : locked.object name = some object := by
  rw [Pool.object, owns.points]
  exact owns.holds

end Owns

section Place

variable [DecidableEq Name]

theorem Pool.place_others (different : other ≠ name) :
    (pool.place name object).object other = pool.object other := by
  simp only [Pool.object, Pool.place, Function.update_of_ne different]
  cases points : pool.m_buf other with
  | none => rfl
  | some q =>
      have inside := pool.live other q points
      simp [List.getElem?_append_left inside]

variable [Fintype Name]

/-- A new buffer has one pointer. -/
theorem Pool.place_uses :
    Sharing.uses (pool.place name object).m_buf pool.buffers.length = 1 := by
  have none_ : Sharing.uses pool.m_buf pool.buffers.length = 0 := by
    rw [Sharing.uses, census_eq_zero]
    intro other
    rw [decide_eq_false_iff_not]
    intro points
    exact absurd (pool.live other _ points) (lt_irrefl _)
  have before : pool.m_buf name ≠ some pool.buffers.length := by
    intro points
    exact absurd (pool.live name _ points) (lt_irrefl _)
  have counted := Sharing.uses_update pool.m_buf name (some pool.buffers.length)
    pool.buffers.length
  rw [none_] at counted
  simpa [before, Pool.place] using counted

theorem Pool.place_str : (pool.place name object).str name = some ⟨object, 1⟩ := by
  apply Pool.str_eq _ _ Pool.place_uses
  · exact Function.update_self _ _ _
  · simp [Pool.place]

theorem Owns.getWriteLock (owns : Owns pool locked name p object) :
    locked.getWriteLock name = locked := by
  rw [Pool.getWriteLock, owns.str]
  exact if_pos rfl

/-- What is written into an own buffer is seen by no other string. -/
theorem Owns.write (owns : Owns pool locked name p object) (written : ByteBuf) :
    Owns pool (locked.write p written) name p written where
  points := owns.points
  holds := by
    have inside := locked.live name p owns.points
    simp [Pool.write, inside]
  alone := owns.alone
  others other different := by
    rw [← owns.others other different]
    simp only [Pool.object, Pool.write]
    cases points : locked.m_buf other with
    | none => rfl
    | some q =>
        have apart : p ≠ q := by
          rintro rfl
          have twice := Sharing.two_uses different.symm owns.points points
          rw [owns.alone] at twice
          exact absurd twice (lt_irrefl _)
        simp [List.getElem?_set_ne apart]

theorem clone_ofBlock {s : Bytes} (free : 0 ∉ s) : (ByteBuf.ofBlock s).clone = .ofBlock s := by
  apply ByteBuf.eq_ofBlock
  rw [memory_clone, takeWhile_nonzero free, Nat.sub_self]
  rfl

/-- The lock gives the string a buffer of its own with its bytes. -/
theorem owns_getWriteLock {s : Bytes} (free : 0 ∉ s) {uses : Nat}
    (is : pool.str name = some ⟨.ofBlock s, uses⟩) :
    ∃ p, Owns pool (pool.getWriteLock name) name p (.ofBlock s) := by
  obtain ⟨p, points, holds, counts⟩ := Pool.str_some is
  rw [Pool.getWriteLock, is]
  dsimp only
  by_cases alone : uses = 1
  · rw [if_pos alone]
    exact ⟨p, points, holds, counts.trans alone, fun _ _ => rfl⟩
  · rw [if_neg alone, clone_ofBlock free]
    refine ⟨pool.buffers.length, Function.update_self _ _ _, ?_, Pool.place_uses, ?_⟩
    · simp [Pool.place]
    · exact fun other different => Pool.place_others different

end Place

end Pool

section Overwritten

variable {object : ByteBuf} {bytes : Bytes}

theorem overwritten_sized (inside : bytes.length ≤ object.m_len + 1) :
    (store object.m_buf 0 bytes).length = object.m_len + 1 := by
  rw [store, List.take_zero, List.nil_append, List.length_append, List.length_map,
    List.length_drop, object.sized]
  omega

theorem overwritten_terminated (ends : 0 ∈ bytes) : Terminated (store object.m_buf 0 bytes) := by
  obtain ⟨before, after, rfl⟩ := List.append_of_mem ends
  rw [store, List.take_zero, List.nil_append, List.map_append, List.append_assoc, List.map_cons]
  exact terminated_written before _

end Overwritten

/-- The buffer after its first bytes are overwritten. A call must stay inside of the block and leave
a terminator. -/
def ByteBuf.overwritten (object : ByteBuf) (bytes : Bytes) : Except Fault ByteBuf :=
  if keeps : bytes.length ≤ object.m_len + 1 ∧ 0 ∈ bytes then
    .ok ⟨object.m_len, store object.m_buf 0 bytes, overwritten_sized keeps.1,
      overwritten_terminated keeps.2⟩
  else .error .outOfBounds

theorem lift_bind {Result : Type} (written : ByteBuf)
    (next : ByteBuf → ExceptT Fault Option Result) :
    (liftM (Except.ok written : Except Fault ByteBuf) >>= next) = next written := rfl

variable [Fintype Name] [DecidableEq Name]

/-- `String::toLowerCase` and `String::toUpperCase` for the functions of `UTF8Utils` that they
call. -/
def changeCase (inPlace : Nat → Bytes → ExceptT Fault Option (Bool × Bytes))
    (copying : Nat → Bytes → ExceptT Fault Option Bytes) (fuel : Nat) (pool : Pool Name)
    (name : Name) : ExceptT Fault Option (Pool Name) := do
  let locked := pool.getWriteLock name
  match locked.m_buf name, locked.object name with
  | some p, some data =>
      let (ok, bytes) ← inPlace fuel (cString data.m_buf)
      let pool := locked.write p (← data.overwritten bytes)
      if ok then return pool
      let pool := pool.getWriteLock name
      let mapped ← copying fuel (cString (memory (pool.str name)))
      return pool.place name (.ofBlock mapped)
  | _, _ => return pool

def toLowerCase : Nat → Pool Name → Name → ExceptT Fault Option (Pool Name) :=
  changeCase toLowerCaseInPlace UTF8Utils.toLowerCase

def toUpperCase : Nat → Pool Name → Name → ExceptT Fault Option (Pool Name) :=
  changeCase toUpperCaseInPlace UTF8Utils.toUpperCase

/-- The string has the mapped bytes as its C string and nothing behind them, and the other strings
have the buffers that they had. -/
structure Mapped (pool after : Pool Name) (name : Name) (mapped : Bytes) : Prop where
  text : cString (memory (after.str name)) = mapped
  length : length (after.str name) = (cString (memory (after.str name))).length
  appends : ∀ arg : CString, Shows (concat (after.str name) (some arg)) (mapped ++ arg.bytes)
  others : ∀ other, other ≠ name → after.object other = pool.object other

/-- The method returns and maps the string to what the function of `UTF8Utils` returns. -/
def MapsOriginal (method : Nat → Pool Name → Name → ExceptT Fault Option (Pool Name))
    (copying : Nat → Bytes → ExceptT Fault Option Bytes) (pool : Pool Name) (name : Name)
    (s : Bytes) : Prop :=
  ∃ fuel after mapped, method fuel pool name = some (.ok after) ∧
    copying fuel s = some (.ok mapped) ∧ Mapped pool after name mapped

section Mapped

variable {pool after : Pool Name} {name : Name} {object : ByteBuf} {uses : Nat} {bytes : Bytes}

/-- A buffer that has no byte behind its C string is a block of its bytes. -/
theorem eq_ofBlock_of_length (whole : object.m_len = (cString object.m_buf).length) :
    object = .ofBlock (cString object.m_buf) := by
  apply ByteBuf.eq_ofBlock
  obtain ⟨rest, block⟩ := object.terminated
  have size := object.sized
  rw [block, List.length_append, List.length_map, List.length_cons, whole] at size
  obtain rfl : rest = [] := List.eq_nil_of_length_eq_zero (by omega)
  exact block

/-- An argument is appended directly behind the bytes. -/
theorem shows_concat {str : CowString} (free : 0 ∉ bytes) (shows : Shows str bytes)
    (prefixed : text str = bytes.takeWhile (· ≠ 0)) (arg : CString) :
    Shows (concat str (some arg)) (bytes ++ arg.bytes) := by
  by_cases empty : arg.bytes = []
  · have same : concat str (some arg) = str := if_pos empty
    rw [same, empty, List.append_nil]
    exact shows
  · exact (concat_shows_iff shows.1 prefixed empty).mpr free

omit [DecidableEq Name] in
theorem mapped_iff (is : after.str name = some ⟨object, uses⟩)
    (others : ∀ other, other ≠ name → after.object other = pool.object other) :
    Mapped pool after name bytes ↔ cString object.m_buf = bytes ∧ object.m_len = bytes.length := by
  constructor
  · intro mapped
    have text := mapped.text
    have length := mapped.length
    rw [text, is] at length
    rw [is] at text
    exact ⟨text, length⟩
  · rintro ⟨text, whole⟩
    have free : 0 ∉ bytes := by
      rw [← text]
      exact zero_notMem_cString _
    rw [← text] at whole
    have block := eq_ofBlock_of_length whole
    rw [text] at block
    subst block
    refine ⟨?_, ?_, ?_, others⟩
    · rw [is]
      exact text
    · rw [is]
      exact whole
    · rw [is]
      refine shows_concat free ⟨rfl, List.take_left' (List.length_map _)⟩ ?_
      exact (cString_getWriteLock _).trans (cString_ofBlock bytes)

omit [DecidableEq Name] in
/-- A string without a buffer is mapped to itself. -/
theorem mapped_null (null : pool.str name = none) : Mapped pool pool name [] where
  text := by
    rw [null]
    rfl
  length := by
    rw [null]
    rfl
  appends := by
    rw [null]
    exact shows_concat List.not_mem_nil (shows_null.mpr rfl) rfl
  others _ _ := rfl

end Mapped

section Calls

variable {pool : Pool Name} {name : Name} {transformer : UInt32 → UInt32} {s : Bytes}

/-- A string without a buffer is left alone. -/
theorem changeCase_null (null : pool.str name = none)
    (inPlace : Nat → Bytes → ExceptT Fault Option (Bool × Bytes))
    (copying : Nat → Bytes → ExceptT Fault Option Bytes) (fuel : Nat) :
    changeCase inPlace copying fuel pool name = some (.ok pool) := by
  simp only [changeCase, Pool.getWriteLock, null, Pool.str_none null]
  rfl

/-- The block is overwritten by the bytes of the call. -/
theorem overwritten_eq (object : ByteBuf) {buffer : Bytes}
    (length : buffer.length = object.m_len + 1) (ends : 0 ∈ buffer) :
    ∃ written, object.overwritten buffer = .ok written ∧ written.m_len = object.m_len ∧
      cString written.m_buf = buffer.takeWhile (· ≠ 0) := by
  refine ⟨_, dif_pos ⟨length.le, ends⟩, rfl, ?_⟩
  dsimp only
  rw [store, List.take_zero, List.nil_append, Nat.zero_add, length, ← object.sized,
    List.drop_length, List.append_nil, cString_map]

theorem transform_settles (free : 0 ∉ s) :
    Settles (transform · s transformer) (mapped transformer s) := by
  have returns := copy_returns (scans_scan transformer s.length s free le_rfl) []
  exact .of_returns returns

/-- The method ends with the buffer that the call in place leaves, or with a new one. -/
theorem changeCase_settles {p : Nat} {written : ByteBuf} {ok : Bool} {buffer : Bytes}
    (owns : Owns pool (pool.getWriteLock name) name p (.ofBlock s)) (free : 0 ∉ s)
    (settles : Settles (transformInPlace · s transformer) (ok, buffer))
    (overwrites : (ByteBuf.ofBlock s).overwritten buffer = .ok written) :
    Settles (changeCase (transformInPlace · · transformer) (transform · · transformer) · pool name)
      (if ok then (pool.getWriteLock name).write p written
      else ((pool.getWriteLock name).write p written).place name
        (.ofBlock (mapped transformer (cString written.m_buf)))) := by
  have text : cString (ByteBuf.ofBlock s).m_buf = s := by
    rw [cString_ofBlock, takeWhile_nonzero free]
  have wrote := owns.write written
  have reads : memory (((pool.getWriteLock name).write p written).str name) = written.m_buf := by
    rw [wrote.str]
    rfl
  simp only [changeCase, owns.points, owns.buffer, text]
  refine .bind settles ?_
  simp only [overwrites, lift_bind, wrote.getWriteLock, reads]
  cases ok with
  | true => exact .pure
  | false => exact .bind (transform_settles (zero_notMem_cString _)) .pure

/-- The bytes up to the first zero are these, and no others follow. -/
theorem takeWhile_whole_iff {bytes goal : Bytes} :
    bytes.takeWhile (· ≠ 0) = goal ∧ bytes.length = goal.length ↔ 0 ∉ goal ∧ bytes = goal := by
  constructor
  · rintro ⟨rfl, whole⟩
    have all := (List.takeWhile_prefix _).eq_of_length whole.symm
    refine ⟨fun zero => ?_, all.symm⟩
    have different := List.mem_takeWhile_imp zero
    exact absurd rfl (of_decide_eq_true different)
  · rintro ⟨free, rfl⟩
    exact ⟨takeWhile_nonzero free, rfl⟩

/-- The string is mapped exactly when the buffer that the call in place leaves allows it. -/
theorem mapsOriginal_iff_kept {uses : Nat} (is : pool.str name = some ⟨.ofBlock s, uses⟩)
    (free : 0 ∉ s) {ok : Bool} {buffer : Bytes}
    (settles : Settles (transformInPlace · s transformer) (ok, buffer))
    (length : buffer.length = s.length + 1) (ends : 0 ∈ buffer) :
    MapsOriginal (changeCase (transformInPlace · · transformer) (transform · · transformer))
        (transform · · transformer) pool name s ↔
      Kept transformer (mapped transformer s) s.length ok buffer := by
  obtain ⟨p, owns⟩ := owns_getWriteLock free is
  obtain ⟨written, overwrites, m_len, text⟩ :=
    overwritten_eq (.ofBlock s) length ends
  have wrote := owns.write written
  have changes := changeCase_settles owns free settles overwrites
  refine (changes.both_iff (transform_settles free)).trans ?_
  cases ok with
  | true =>
      refine (mapped_iff wrote.str wrote.others).trans ?_
      rw [text, m_len, Kept, if_pos rfl]
      constructor
      · rintro ⟨same, size⟩
        refine ⟨?_, same, size.symm⟩
        rw [← same, ← text]
        exact zero_notMem_cString _
      · rintro ⟨-, same, size⟩
        exact ⟨same, size.symm⟩
  | false =>
      have others : ∀ other, other ≠ name →
          (((pool.getWriteLock name).write p written).place name
            (.ofBlock (mapped transformer (cString written.m_buf)))).object other =
              pool.object other :=
        fun other different => (Pool.place_others different).trans (wrote.others other different)
      refine (mapped_iff Pool.place_str others).trans ?_
      rw [text, Kept, if_neg Bool.false_ne_true, cString_ofBlock]
      exact takeWhile_whole_iff

/-- The method maps the string exactly when its characters allow it. -/
theorem mapsOriginal_iff (maps : MapsCase transformer) (free : 0 ∉ s)
    (block : memory (pool.str name) = s.map some ++ [some 0]) :
    MapsOriginal (changeCase (transformInPlace · · transformer) (transform · · transformer))
        (transform · · transformer) pool name s ↔
      Remaps transformer (tokens transformer s) := by
  have scans : Scans transformer s (tokens transformer s) :=
    scans_scan transformer s.length s free le_rfl
  cases is : pool.str name with
  | none =>
      rw [is] at block
      obtain rfl : s = [] := by
        cases s with
        | nil => rfl
        | cons byte s =>
            have lengths := congrArg List.length block
            simp [memory] at lengths
      refine iff_of_true ?_ trivial
      exact ⟨1, pool, [], changeCase_null is _ _ 1, rfl, mapped_null is⟩
  | some m_buf =>
      rw [is] at block
      obtain ⟨object, uses⟩ := m_buf
      obtain rfl : object = .ofBlock s := ByteBuf.eq_ofBlock block
      obtain ⟨ok, buffer, returns, outcome, ends⟩ := inPlace_outcome maps.grows scans free []
      have length := inPlace_length returns
      rw [List.nil_append, List.length_append, List.length_singleton] at length
      have stable : Stable transformer [] s.length := fun after _ _ => rfl
      have kept := kept_iff maps scans free [] List.not_mem_nil stable outcome
      rw [List.nil_append, List.length_nil, Nat.zero_add] at kept
      exact (mapsOriginal_iff_kept is free (.of_returns returns) length ends).trans kept

end Calls

/-- `toLowerCase` and `toUpperCase` map a string without zero bytes exactly when no character
becomes shorter, or the bytes that are left over do not change the mapping of the bytes behind the
character. -/
theorem case_methods_iff (pool : Pool Name) (name : Name) (s : Bytes) (free : 0 ∉ s)
    (block : memory (pool.str name) = s.map some ++ [some 0]) :
    (MapsOriginal toLowerCase UTF8Utils.toLowerCase pool name s ↔
        Remaps (transformer lowerMappings) (tokens (transformer lowerMappings) s)) ∧
      (MapsOriginal toUpperCase UTF8Utils.toUpperCase pool name s ↔
        Remaps (transformer upperMappings) (tokens (transformer upperMappings) s)) :=
  ⟨mapsOriginal_iff mapsCase_lower free block, mapsOriginal_iff mapsCase_upper free block⟩

/-- Two strings that share a buffer of these bytes. -/
def twoStrings (s : Bytes) : Pool Bool where
  buffers := [.ofBlock s]
  m_buf _ := some 0
  live := by
    rintro _ p points
    obtain rfl := Option.some.inj points
    exact Nat.zero_lt_one

theorem case_methods_iff_letter :
    (MapsOriginal toLowerCase UTF8Utils.toLowerCase (twoStrings [0x41]) true [0x41] ↔
        Remaps (transformer lowerMappings) (tokens (transformer lowerMappings) [0x41])) ∧
      (MapsOriginal toUpperCase UTF8Utils.toUpperCase (twoStrings [0x41]) true [0x41] ↔
        Remaps (transformer upperMappings) (tokens (transformer upperMappings) [0x41])) :=
  case_methods_iff (twoStrings [0x41]) true [0x41] (by decide) rfl

/-- The Kelvin sign becomes a letter, and the string keeps the length of three bytes. -/
theorem kelvin_not_mapped :
    ¬ MapsOriginal toLowerCase UTF8Utils.toLowerCase (twoStrings [0xE2, 0x84, 0xAA]) true
      [0xE2, 0x84, 0xAA] := by
  have block : memory ((twoStrings [0xE2, 0x84, 0xAA]).str true) =
      [0xE2, 0x84, 0xAA].map some ++ [some 0] := rfl
  have agrees : MapsOriginal toLowerCase UTF8Utils.toLowerCase (twoStrings [0xE2, 0x84, 0xAA]) true
      [0xE2, 0x84, 0xAA] ↔ Remaps (transformer lowerMappings)
        (tokens (transformer lowerMappings) [0xE2, 0x84, 0xAA]) :=
    mapsOriginal_iff mapsCase_lower (by decide) block
  have one : tokens (transformer lowerMappings) [0xE2, 0x84, 0xAA] =
      [⟨[0xE2, 0x84, 0xAA], [0x6B], true⟩] := by
    decide +kernel
  rw [agrees, one]
  rintro ⟨⟨other, member, -⟩, -⟩
  cases member

end Blocxx.Strings
