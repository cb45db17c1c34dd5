import Blocxx.String.Substring
import Blocxx.StringBuffer.StringBuffer

/-!
This file embeds `String::ltrim`, `String::rtrim` and `String::trim` with the pointers that they move
over the buffer, and proves which strings they trim exactly.
-/

namespace Blocxx.Strings

open Library Library.Memory BinarySerialization StringBuffers

/-- The constructor from a pointer to a terminated string. -/
def ofCString (block : Memory) : Option CowString := do
  let m_len ← strlen block
  ofMemory block 0 m_len

/-- The distance of the first character that is not a space. A pointer that leaves the block or
meets a cell that is not written has none. -/
def skipSpaces : Memory → Option Nat
  | some c :: rest => if isspace c && c ≠ 0 then (skipSpaces rest).map (· + 1) else some 0
  | _ => none

/-- The position where the loop back over the spaces ends. It starts in front of this many cells,
and it looks at a character before it tests whether the pointer is still in the buffer. -/
def backOverSpaces (data : Memory) : Nat → Option Int
  | 0 => (data.byteAt (-1)).map fun _ => -1
  | position + 1 => do
      let c ← data.byteAt position
      if isspace c then backOverSpaces data position else some position

def ltrim (str : CowString) : Option CowString :=
  match mutableAccess str with
  | none => some none
  | some m_buf => do
      let data := m_buf.object.m_buf
      let s1 ← skipSpaces data
      if s1 = 0 then return some m_buf
      ofCString (data.drop s1)

def rtrim (str : CowString) : Option CowString :=
  if length str = 0 then some str
  else
    match mutableAccess str with
    | none => some none
    | some m_buf => do
        let data := m_buf.object.m_buf
        let last := m_buf.object.m_len - 1
        let s1 ← backOverSpaces data m_buf.object.m_len
        if s1 = last then return some m_buf
        if s1 < 0 then return none
        ofMemory data 0 (s1 + 1).toNat

def trim (str : CowString) : Option CowString :=
  if length str = 0 then some str
  else
    match mutableAccess str with
    | none => some none
    | some m_buf => do
        let data := m_buf.object.m_buf
        let s1 ← skipSpaces data
        let c ← data.byteAt s1
        if c = 0 then return none
        let p2 := s1 + (← strlen (data.drop s1))
        let s2 ← backOverSpaces data p2
        if s1 = 0 ∧ s2 = p2 then return some m_buf
        ofMemory data s1 (s2 - s1 + 1).toNat

/-- `ltrim` leaves the string without its leading spaces. -/
def LeftTrimmed (s : Whole) : Prop :=
  ∃ result, ltrim s.str = some result ∧ Shows result (s.bytes.dropWhile isspace)

def RightTrimmed (s : Whole) : Prop :=
  ∃ result, rtrim s.str = some result ∧ Shows result (s.bytes.rdropWhile isspace)

/-- `trim` leaves what `ltrim` and then `rtrim` should leave. -/
def Trimmed (s : Whole) : Prop :=
  ∃ result, trim s.str = some result ∧
    Shows result ((s.bytes.dropWhile isspace).rdropWhile isspace)

/-- The buffer that a call through `m_buf` gives has all bytes of the string. -/
def ClonesWhole (s : Whole) : Prop := ¬ Shared s.str ∨ (0 : UInt8) ∉ s.bytes.dropLast

section Spaces

theorem isspace_zero : isspace 0 = false := by decide

/-- A dropped prefix or suffix of spaces leaves the other characters. -/
theorem mem_dropWhile {bytes : Bytes} {c : UInt8} (mem : c ∈ bytes) (other : isspace c = false) :
    c ∈ bytes.dropWhile isspace := by
  rw [← List.takeWhile_append_dropWhile (p := isspace) (l := bytes), List.mem_append] at mem
  rcases mem with space | kept
  · rw [List.mem_takeWhile_imp space] at other
    cases other
  · exact kept

theorem mem_rdropWhile {bytes : Bytes} {c : UInt8} (mem : c ∈ bytes) (other : isspace c = false) :
    c ∈ bytes.rdropWhile isspace := by
  rw [List.rdropWhile, List.mem_reverse]
  exact mem_dropWhile (List.mem_reverse.mpr mem) other

/-- The leading spaces are in front of the first terminator. -/
theorem takeWhile_free (bytes : Bytes) :
    (bytes.takeWhile (· ≠ 0)).takeWhile isspace = bytes.takeWhile isspace := by
  induction bytes with
  | nil => rfl
  | cons c bytes ih =>
      by_cases zero : c = 0
      · subst zero
        rw [List.takeWhile_cons_of_neg (by simp), List.takeWhile_nil,
          List.takeWhile_cons_of_neg (by rw [isspace_zero]; simp)]
      · rw [List.takeWhile_cons_of_pos (by simpa using zero)]
        by_cases space : isspace c
        · rw [List.takeWhile_cons_of_pos space, List.takeWhile_cons_of_pos space, ih]
        · rw [List.takeWhile_cons_of_neg space, List.takeWhile_cons_of_neg space]

end Spaces

section Scans

/-- The forward loop stops behind the leading spaces. -/
theorem skipSpaces_terminated {data : Memory} (terminated : Terminated data) :
    skipSpaces data = some ((cString data).takeWhile isspace).length := by
  induction terminated using Terminated.induction with
  | zero rest => rfl
  | cons c rest ends nonzero ih =>
      rw [skipSpaces, cString_cons nonzero]
      by_cases space : isspace c
      · have both : (isspace c && c ≠ 0) = true := by
          rw [space, Bool.true_and]
          exact decide_eq_true nonzero
        rw [if_pos both, ih, List.takeWhile_cons_of_pos space, Option.map_some, List.length_cons]
      · have neither : ¬ (isspace c && c ≠ 0) = true := by
          rw [Bool.eq_false_iff.mpr space, Bool.false_and]
          exact Bool.false_ne_true
        rw [if_neg neither, List.takeWhile_cons_of_neg space, List.length_nil]

/-- The backward loop over written bytes stops at the last one that is not a space, or goes on in
front of them. -/
theorem backOverSpaces_written (front : Memory) (bytes : Bytes) (rest : Memory) :
    backOverSpaces (front ++ (bytes.map some ++ rest)) (front.length + bytes.length) =
      if bytes.rdropWhile isspace = [] then
        backOverSpaces (front ++ (bytes.map some ++ rest)) front.length
      else some (front.length + (bytes.rdropWhile isspace).length - 1) := by
  induction bytes using List.reverseRecOn generalizing rest with
  | nil => rfl
  | append_singleton bytes c ih =>
      have there : (front ++ ((bytes ++ [c]).map some ++ rest)).byteAt
          (front.length + bytes.length : Nat) = some c := by
        show (front ++ ((bytes ++ [c]).map some ++ rest)).getD _ none = _
        rw [List.getD_eq_getElem?_getD, List.getElem?_append_right (Nat.le_add_right _ _),
          Nat.add_sub_cancel_left, List.map_append, List.append_assoc,
          List.getElem?_append_right (by rw [List.length_map]), List.length_map, Nat.sub_self]
        rfl
      have split : (bytes ++ [c]).map some ++ rest = bytes.map some ++ some c :: rest := by
        rw [List.map_append, List.append_assoc]
        rfl
      rw [List.length_append, List.length_singleton, ← Nat.add_assoc, backOverSpaces, there]
      by_cases space : isspace c
      · rw [List.rdropWhile_concat_pos _ _ _ space, split, ← ih (some c :: rest)]
        exact if_pos space
      · rw [List.rdropWhile_concat_neg _ _ _ space]
        have some : bytes ++ [c] ≠ [] := by simp
        rw [if_neg some, List.length_append, List.length_singleton]
        refine (if_neg space).trans ?_
        congr 1
        push_cast
        omega

/-- In front of the block there is no character. -/
theorem backOverSpaces_zero (data : Memory) : backOverSpaces data 0 = none := rfl

end Scans

section Access

variable {s : Whole}

/-- The buffer that a call through `m_buf` gives has the characters in front of the first zero, and
its last cell is not written when the characters behind this zero are lost. -/
structure Locked (s : Whole) (m_buf : Reference) : Prop where
  sized : m_buf.object.m_len = s.bytes.length
  text : cString m_buf.object.m_buf = s.bytes.takeWhile (· ≠ 0)
  shows : Shows (some m_buf) s.bytes ↔ ClonesWhole s
  loses : ¬ ClonesWhole s → m_buf.object.m_buf.byteAt (s.bytes.length - 1 : Nat) = none

theorem clone_loses {bytes : Bytes} (zero : (0 : UInt8) ∈ bytes.dropLast) :
    (ByteBuf.ofBlock bytes).clone.m_buf.byteAt (bytes.length - 1 : Nat) = none := by
  have short : (bytes.takeWhile (· ≠ 0)).length < bytes.length - 1 := by
    obtain ⟨before, after, same, nonzero⟩ := List.eq_append_cons_of_mem zero
    have nonempty : bytes ≠ [] := by
      rintro rfl
      cases zero
    have cut : bytes.takeWhile (· ≠ 0) = before := by
      rw [← List.dropLast_append_getLast nonempty, same, List.append_assoc, List.cons_append,
        takeWhile_zero nonzero]
    have lengths := congrArg List.length same
    rw [List.length_dropLast, List.length_append, List.length_cons] at lengths
    rw [cut]
    omega
  show (ByteBuf.ofBlock bytes).clone.m_buf.getD (bytes.length - 1) none = none
  rw [memory_clone, List.getD_eq_getElem?_getD,
    List.getElem?_append_right (by rw [List.length_map]; omega), List.length_map,
    List.getElem?_cons, if_neg (by omega), allocate, List.getElem?_replicate]
  split <;> rfl

theorem Whole.locked (s : Whole) : mutableAccess s.str = none ∧ s.bytes = [] ∨
    ∃ m_buf, mutableAccess s.str = some m_buf ∧ Locked s m_buf := by
  rcases s.cases with ⟨null, empty⟩ | ⟨uses, buffer⟩
  · exact .inl ⟨by rw [null]; rfl, empty⟩
  · right
    have access : mutableAccess s.str = some (Reference.getWriteLock ⟨.ofBlock s.bytes, uses⟩) := by
      rw [buffer]
      rfl
    refine ⟨_, access, getWriteLock_length _,
      (cString_getWriteLock _).trans (cString_ofBlock s.bytes), ?_, ?_⟩
    all_goals rw [ClonesWhole, buffer]
    all_goals by_cases single : uses = 1
    · have same : Reference.getWriteLock ⟨.ofBlock s.bytes, uses⟩ = ⟨.ofBlock s.bytes, uses⟩ :=
        if_pos single
      rw [same]
      exact iff_of_true (copies_shows s.bytes 0) (.inl fun shared => shared single)
    · have cloned : Reference.getWriteLock ⟨.ofBlock s.bytes, uses⟩ =
          ⟨(ByteBuf.ofBlock s.bytes).clone, 1⟩ := if_neg single
      have shows := clone_shows_iff s.bytes 0
      rw [mutableAccess_copies] at shows
      rw [cloned, shows]
      exact (or_iff_right (not_not.mpr single)).symm
    · exact fun lost => absurd (.inl fun shared => shared single) lost
    · intro lost
      have cloned : Reference.getWriteLock ⟨.ofBlock s.bytes, uses⟩ =
          ⟨(ByteBuf.ofBlock s.bytes).clone, 1⟩ := if_neg single
      rw [cloned]
      rw [not_or, not_not] at lost
      exact clone_loses (not_not.mp lost.2)

theorem ofCString_terminated {block : Memory} (terminated : Terminated block) :
    ofCString block = some (ofBytes (some (cString block))) := by
  rw [ofCString, strlen_terminated terminated]
  obtain ⟨rest, same⟩ := terminated
  show ofMemory block 0 (cString block).length = _
  generalize cString block = bytes at same ⊢
  rw [same, ofMemory, memcpy_written (by rw [Nat.zero_add])]
  simp

/-- The string behind the first characters of a terminated one. -/
theorem drop_terminated {block : Memory} (terminated : Terminated block) {count : Nat}
    (inside : count ≤ (cString block).length) :
    Terminated (block.drop count) ∧ cString (block.drop count) = (cString block).drop count := by
  obtain ⟨rest, same⟩ := terminated
  have free := zero_notMem_cString block
  generalize cString block = bytes at same free inside ⊢
  have dropped : block.drop count = (bytes.drop count).map some ++ some 0 :: rest := by
    rw [same, List.drop_append_of_le_length (by rwa [List.length_map]), List.map_drop]
  rw [dropped]
  exact ⟨terminated_written _ _, cString_append (fun mem => free (List.mem_of_mem_drop mem)) _⟩

end Access

section Exact

variable {s : Whole}

theorem dropWhile_eq_drop (bytes : Bytes) :
    bytes.drop (bytes.takeWhile isspace).length = bytes.dropWhile isspace := by
  have dropped : (bytes.takeWhile isspace ++ bytes.dropWhile isspace).drop
      (bytes.takeWhile isspace).length = bytes.dropWhile isspace := List.drop_left
  rwa [List.takeWhile_append_dropWhile] at dropped

/-- `ltrim` leaves a string without leading spaces in its buffer, and cuts another one at its first
zero. -/
theorem ltrim_exact_iff : LeftTrimmed s ↔
    (0 : UInt8) ∉ s.bytes ∨ s.bytes.dropWhile isspace = s.bytes ∧ ClonesWhole s := by
  unfold LeftTrimmed ltrim
  rcases s.locked with ⟨null, empty⟩ | ⟨m_buf, access, -, text, shows, -⟩
  · rw [null, empty]
    exact iff_of_true ⟨none, rfl, shows_null.mpr rfl⟩ (.inl List.not_mem_nil)
  rw [access]
  have terminated := m_buf.object.terminated
  have skips := skipSpaces_terminated terminated
  rw [text, takeWhile_free] at skips
  dsimp only
  rw [skips]
  show (∃ result, (if (s.bytes.takeWhile isspace).length = 0 then some (some m_buf)
    else ofCString _) = some result ∧ _) ↔ _
  by_cases none : s.bytes.takeWhile isspace = []
  · have stays : s.bytes.dropWhile isspace = s.bytes := by
      rw [← dropWhile_eq_drop, none, List.length_nil, List.drop_zero]
    rw [none, List.length_nil, if_pos rfl, stays]
    constructor
    · rintro ⟨result, same, shown⟩
      rw [← Option.some.inj same] at shown
      exact .inr ⟨rfl, shows.mp shown⟩
    · rintro (free | ⟨-, whole⟩)
      · refine ⟨_, rfl, shows.mpr (.inr fun mem => free (List.dropLast_subset _ mem))⟩
      · exact ⟨_, rfl, shows.mpr whole⟩
  · have moves : s.bytes.dropWhile isspace ≠ s.bytes := by
      intro same
      have parts := List.takeWhile_append_dropWhile (p := isspace) (l := s.bytes)
      rw [same] at parts
      exact none (List.append_left_eq_self.mp parts)
    have short : (s.bytes.takeWhile isspace).length ≤ (cString m_buf.object.m_buf).length := by
      rw [text, ← takeWhile_free]
      exact (List.takeWhile_prefix _).length_le
    obtain ⟨ends, rest⟩ := drop_terminated terminated short
    rw [if_neg (by rwa [List.length_eq_zero_iff]), ofCString_terminated ends, rest, text,
      or_iff_left fun both => moves both.1]
    rw [← takeWhile_free, dropWhile_eq_drop]
    constructor
    · rintro ⟨result, same, shown⟩ zero
      rw [← Option.some.inj same] at shown
      have cut := shown.unique (shows_ofBytes _)
      have kept := mem_dropWhile zero isspace_zero
      rw [cut] at kept
      have before := List.mem_takeWhile_imp (List.dropWhile_subset _ kept)
      simp at before
    · intro free
      rw [takeWhile_nonzero free]
      exact ⟨_, rfl, shows_ofBytes _⟩

theorem take_rdropWhile (bytes : Bytes) :
    bytes.take (bytes.rdropWhile isspace).length = bytes.rdropWhile isspace :=
  (List.prefix_iff_eq_take.mp (List.rdropWhile_prefix isspace bytes)).symm

/-- Something is left of a string exactly when it has a character that is not a space. -/
theorem rdropWhile_ne_nil_iff {bytes : Bytes} :
    bytes.rdropWhile isspace ≠ [] ↔ ∃ c ∈ bytes, isspace c = false := by
  rw [Ne, List.rdropWhile_eq_nil_iff]
  push Not
  simp only [Bool.not_eq_true]

theorem memory_take {m_buf : Reference} {bytes : Bytes} (shows : Shows (some m_buf) bytes) :
    m_buf.object.m_buf = bytes.map some ++ m_buf.object.m_buf.drop bytes.length := by
  have taken := shows.2
  rw [shows.1] at taken
  have parts := List.take_append_drop bytes.length m_buf.object.m_buf
  rw [show m_buf.object.m_buf.take bytes.length = bytes.map some from taken] at parts
  exact parts.symm

/-- `rtrim` of a string of spaces looks in front of its buffer. -/
theorem rtrim_exact_iff : RightTrimmed s ↔
    (s.bytes = [] ∨ ∃ c ∈ s.bytes, isspace c = false) ∧ ClonesWhole s := by
  unfold RightTrimmed rtrim
  rw [s.length_eq]
  by_cases empty : s.bytes = []
  · rw [if_pos (by rw [empty, List.length_nil])]
    refine iff_of_true ⟨s.str, rfl, ?_⟩ ⟨.inl empty, .inr ?_⟩
    · have shows := s.shows
      rw [empty] at shows ⊢
      exact shows
    · rw [empty]
      exact List.not_mem_nil
  have some_ : s.bytes.length ≠ 0 := fun zero => empty (List.eq_nil_of_length_eq_zero zero)
  rw [if_neg some_, or_iff_right empty]
  rcases s.locked with ⟨null, isEmpty⟩ | ⟨m_buf, access, sized, -, shows, loses⟩
  · exact absurd isEmpty empty
  rw [access]
  dsimp only
  rw [sized]
  by_cases whole : ClonesWhole s
  · have scan := backOverSpaces_written [] s.bytes (m_buf.object.m_buf.drop s.bytes.length)
    rw [List.nil_append, ← memory_take (shows.mpr whole), List.length_nil, Nat.zero_add,
      backOverSpaces_zero] at scan
    rw [scan, and_iff_left whole, ← rdropWhile_ne_nil_iff]
    by_cases spaces : s.bytes.rdropWhile isspace = []
    · rw [if_pos spaces]
      refine iff_of_false ?_ (not_not.mpr spaces)
      rintro ⟨result, same, -⟩
      cases same
    · have kept : (s.bytes.rdropWhile isspace).length ≠ 0 := fun zero =>
        spaces (List.eq_nil_of_length_eq_zero zero)
      have isPrefix := List.rdropWhile_prefix isspace s.bytes
      have most := isPrefix.length_le
      refine iff_of_true ?_ spaces
      rw [if_neg spaces]
      obtain ⟨position, same⟩ : ∃ position : Int,
          ((0 : Nat) : Int) + (s.bytes.rdropWhile isspace).length - 1 = position := ⟨_, rfl⟩
      rw [same]
      show ∃ result, (if position = (s.bytes.length - 1 : Nat) then some (some m_buf)
        else if position < 0 then some none
        else ofMemory m_buf.object.m_buf 0 (position + 1).toNat) = some result ∧ _
      by_cases last : (s.bytes.rdropWhile isspace).length = s.bytes.length
      · refine ⟨some m_buf, if_pos (by omega), ?_⟩
        rw [isPrefix.eq_of_length last]
        exact shows.mpr whole
      · have count : (position + 1).toNat = (s.bytes.rdropWhile isspace).length := by omega
        rw [if_neg (by omega), if_neg (by omega), count, memory_take (shows.mpr whole), ofMemory,
          memcpy_written (by rw [Nat.zero_add]; exact most), List.drop_zero, take_rdropWhile]
        exact ⟨_, rfl, shows_ofBytes _⟩
  · have scan : backOverSpaces m_buf.object.m_buf s.bytes.length = none := by
      obtain ⟨position, same⟩ := Nat.exists_eq_succ_of_ne_zero some_
      have unwritten := loses whole
      rw [same, Nat.succ_sub_one] at unwritten
      rw [same, backOverSpaces, unwritten]
      rfl
    refine iff_of_false ?_ fun both => whole both.2
    rintro ⟨result, same, -⟩
    rw [scan] at same
    cases same

theorem byteAt_behind (front : Bytes) (cell : Option UInt8) (rest : Memory) :
    Memory.byteAt (front.map some ++ cell :: rest) front.length = cell := by
  show (front.map some ++ cell :: rest).getD front.length none = cell
  rw [List.getD_eq_getElem?_getD, List.getElem?_append_right (List.length_map _).le,
    List.length_map, Nat.sub_self]
  rfl

/-- Behind the leading spaces `trim` copies up to the last character that is not a space. -/
theorem trim_core (m_buf : Reference) {data : Memory} {front more : Bytes} {c : UInt8}
    {rest : Memory} (block : data = (front ++ c :: more).map some ++ some 0 :: rest)
    (free : 0 ∉ front ++ c :: more) (other : isspace c = false) :
    ∃ result, (do
        let c ← data.byteAt front.length
        if c = 0 then return none
        let p2 := front.length + (← strlen (data.drop front.length))
        let s2 ← backOverSpaces data p2
        if front.length = 0 ∧ s2 = p2 then return some m_buf
        ofMemory data front.length (s2 - front.length + 1).toNat : Option CowString) =
          some result ∧ Shows result ((c :: more).rdropWhile isspace) := by
  have freeCore : (0 : UInt8) ∉ c :: more := fun mem => free (List.mem_append_right _ mem)
  have nonzero : c ≠ 0 := fun zero => freeCore (zero ▸ List.mem_cons_self)
  have kept : (c :: more).rdropWhile isspace ≠ [] :=
    rdropWhile_ne_nil_iff.mpr ⟨c, List.mem_cons_self, other⟩
  have positive : 0 < ((c :: more).rdropWhile isspace).length := List.length_pos_of_ne_nil kept
  have most := (List.rdropWhile_prefix isspace (c :: more)).length_le
  have split : data = front.map some ++ ((c :: more).map some ++ some 0 :: rest) := by
    rw [block, List.map_append, List.append_assoc]
  have here : data.byteAt front.length = some c := by
    rw [split]
    exact byteAt_behind front (some c) _
  have behind : data.drop front.length = (c :: more).map some ++ some 0 :: rest := by
    rw [split, List.drop_left' (List.length_map _)]
  have ends := strlen_terminated (terminated_written (c :: more) rest)
  rw [cString_append freeCore] at ends
  have scan := backOverSpaces_written (front.map some) (c :: more) (some 0 :: rest)
  rw [if_neg kept, List.length_map, ← split] at scan
  obtain ⟨s2, same⟩ : ∃ s2 : Int,
      (front.length : Int) + ((c :: more).rdropWhile isspace).length - 1 = s2 := ⟨_, rfl⟩
  rw [same] at scan
  have moved : ¬ (front.length = 0 ∧ s2 = (front.length + (c :: more).length : Nat)) := by
    rintro ⟨-, unmoved⟩
    push_cast at unmoved
    omega
  have count : (s2 - front.length + 1).toNat = ((c :: more).rdropWhile isspace).length := by
    omega
  have inside : front.length + ((c :: more).rdropWhile isspace).length ≤
      (front ++ c :: more).length := by
    rw [List.length_append]
    omega
  rw [here]
  show ∃ result, (if c = 0 then some none else _) = some result ∧ _
  rw [if_neg nonzero, behind, ends]
  show ∃ result, (backOverSpaces data (front.length + (c :: more).length)).bind _ =
    some result ∧ _
  rw [scan, Option.bind_some, if_neg moved, count, ofMemory, block, memcpy_written inside,
    List.drop_left, take_rdropWhile]
  exact ⟨_, rfl, shows_ofBytes _⟩

/-- `trim` trims the characters in front of the first zero. -/
theorem trim_shows (s : Whole) : ∃ result, trim s.str = some result ∧ Shows result
    (((s.bytes.takeWhile (· ≠ 0)).dropWhile isspace).rdropWhile isspace) := by
  unfold trim
  rw [s.length_eq]
  by_cases empty : s.bytes = []
  · rw [if_pos (by rw [empty, List.length_nil])]
    have shows := s.shows
    rw [empty] at shows ⊢
    exact ⟨s.str, rfl, shows⟩
  have some_ : s.bytes.length ≠ 0 := fun zero => empty (List.eq_nil_of_length_eq_zero zero)
  rw [if_neg some_]
  rcases s.locked with ⟨null, isEmpty⟩ | ⟨m_buf, access, -, text, -, -⟩
  · exact absurd isEmpty empty
  rw [access]
  dsimp only
  have terminated := m_buf.object.terminated
  have skips := skipSpaces_terminated terminated
  have free := zero_notMem_cString m_buf.object.m_buf
  obtain ⟨rest, block⟩ := terminated
  rw [text] at skips free block
  generalize s.bytes.takeWhile (· ≠ 0) = bytes at skips free block ⊢
  generalize m_buf.object.m_buf = data at skips block ⊢
  have parts := List.takeWhile_append_dropWhile (p := isspace) (l := bytes)
  rw [skips, Option.bind_eq_bind, Option.bind_some]
  cases core : bytes.dropWhile isspace with
  | nil =>
      -- the first character that is not a space is the terminator
      rw [core, List.append_nil] at parts
      have ends : data.byteAt (bytes.takeWhile isspace).length = some 0 := by
        rw [parts, block]
        exact byteAt_behind bytes (some 0) rest
      rw [ends]
      exact ⟨none, rfl, shows_null.mpr rfl⟩
  | cons c more =>
      have other : isspace c = false := by
        have first := List.head?_dropWhile_not isspace bytes
        rw [core] at first
        exact first
      rw [core] at parts
      rw [← parts] at block free
      exact trim_core m_buf block free other

theorem trim_exact_iff : Trimmed s ↔ (0 : UInt8) ∉ s.bytes := by
  obtain ⟨result, trims, shows⟩ := trim_shows s
  constructor
  · rintro ⟨other, same, exact_⟩ zero
    obtain rfl := Option.some.inj (trims.symm.trans same)
    have kept := mem_rdropWhile (mem_dropWhile zero isspace_zero) isspace_zero
    rw [exact_.unique shows] at kept
    have inside := List.dropWhile_subset _ ((List.rdropWhile_prefix _ _).subset kept)
    have before := List.mem_takeWhile_imp inside
    simp at before
  · intro free
    rw [takeWhile_nonzero free] at shows
    exact ⟨result, trims, shows⟩

end Exact

/-- The three functions trim exactly the strings without zeros, of which `rtrim` must meet a
character that is not a space. A string with zeros keeps them where it is not cut and its buffer is
not cloned without them. -/
theorem trims_iff (s : Whole) :
    (LeftTrimmed s ↔
        (0 : UInt8) ∉ s.bytes ∨ s.bytes.dropWhile isspace = s.bytes ∧ ClonesWhole s) ∧
      (RightTrimmed s ↔
        (s.bytes = [] ∨ ∃ c ∈ s.bytes, isspace c = false) ∧ ClonesWhole s) ∧
      (Trimmed s ↔ (0 : UInt8) ∉ s.bytes) :=
  ⟨ltrim_exact_iff, rtrim_exact_iff, trim_exact_iff⟩

def oneSpace : Whole where
  str := ofBytes (some [32])
  bytes := [32]
  block := rfl
  fits := by decide

/-- The loop of `rtrim` goes on in front of a string of spaces. -/
theorem oneSpace_not_trimmed :
    ¬ ∀ s : Whole, LeftTrimmed s ∧ RightTrimmed s ∧ Trimmed s := by
  intro all
  rcases (rtrim_exact_iff.mp (all oneSpace).2.1).1 with empty | ⟨c, mem, other⟩
  · cases empty
  · obtain rfl := List.mem_singleton.mp mem
    cases other

end Blocxx.Strings
