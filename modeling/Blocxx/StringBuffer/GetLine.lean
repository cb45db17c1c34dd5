import Blocxx.Library.TransitionSystem
import Blocxx.StringBuffer.Bytes

/-!
This file embeds `StringBuffer::getLine` and settles which lines it returns.
-/

namespace Blocxx.StringBuffers

open Library Library.Memory

/-- The character `'\\n'`. -/
def LF : UInt8 := 10

/-- The character `'\\r'`. -/
def CR : UInt8 := 13

/-- What is left of the stream and its state. -/
structure IStream where
  rest : List UInt8
  failbit : Bool
  eofbit : Bool

namespace StringBuffer

/-- The loop of `getLine`. The characters are those of the stream, and each is counted. -/
def readLine (buffer : StringBuffer) (count : Nat) : List UInt8 → Option (StringBuffer × IStream)
  | [] => some (buffer, ⟨[], decide (count = 0), true⟩)
  | ch :: rest =>
      if ch = LF then some (buffer, ⟨rest, false, false⟩)
      else (buffer.appendChar ch).bind fun buffer => readLine buffer (count + 1) rest

/-- The buffer is truncated where `strchr` finds the character. -/
def truncateAt (buffer : StringBuffer) (ch : UInt8) : Option StringBuffer :=
  let string := cString buffer.m_bfr
  if ch ∈ string then buffer.truncate (string.idxOf ch) else some buffer

def getLine (buffer : StringBuffer) (is : IStream) (resetBuffer : Bool) :
    Option (StringBuffer × IStream) :=
  (if resetBuffer then buffer.reset else some buffer).bind fun buffer =>
    (if is.failbit then some (buffer, is)
      else (buffer.readLine 0 is.rest).map fun result =>
        (result.1, { result.2 with eofbit := is.eofbit || result.2.eofbit })).bind fun result =>
      (result.1.truncateAt CR).map fun buffer => (buffer, result.2)

/-- The bytes in front of the length. -/
def contents (buffer : StringBuffer) : List UInt8 := (buffer.m_bfr.take buffer.m_len).reduceOption

end StringBuffer

/-- A line without its end, and whether an LF has ended it. -/
structure Line where
  bytes : List UInt8
  ended : Bool
  deriving DecidableEq

/-- The lines of a text. -/
def lines : List UInt8 → List Line
  | [] => []
  | c :: rest =>
      if c = LF then ⟨[], true⟩ :: lines rest
      else
        match lines rest with
        | [] => [⟨[c], false⟩]
        | line :: more => ⟨c :: line.bytes, line.ended⟩ :: more

/-- The line without a CR directly before its LF. -/
def Line.text (line : Line) : List UInt8 :=
  if line.ended ∧ line.bytes.getLast? = some CR then line.bytes.dropLast else line.bytes

/-- The next line of a text. A text without lines has an empty one. -/
def firstLine (text : List UInt8) : Line := (lines text).head?.getD ⟨[], false⟩

/-- The state of the caller. Without a buffer a call has used memory that it may not. -/
structure Reading where
  buffer : Option StringBuffer
  is : IStream

/-- Each label is the argument `resetBuffer` of a call. No call follows the fail bit. -/
def Reading.next (state : Reading) (resetBuffer : Bool) : Option Reading :=
  if state.is.failbit then none
  else state.buffer.map fun buffer =>
    match buffer.getLine state.is resetBuffer with
    | some result => ⟨some result.1, result.2⟩
    | none => ⟨none, state.is⟩

def readingSystem (buffer : StringBuffer) (text : List UInt8) :
    TransitionSystem Reading Bool :=
  .computed (fun state => state = ⟨some buffer, ⟨text, false, false⟩⟩) Reading.next

/-- What stays in front of the line. -/
def kept (state : Reading) (resetBuffer : Bool) : List UInt8 :=
  if resetBuffer then [] else state.buffer.elim [] StringBuffer.contents

/-- The call returns the next line behind the kept bytes, and it fails when no byte is left. -/
def ReturnsLine (state : Reading) (resetBuffer : Bool) (next : Reading) : Prop :=
  Gives next.buffer (kept state resetBuffer ++ (firstLine state.is.rest).text) ∧
    lines next.is.rest = (lines state.is.rest).tail ∧
    (next.is.failbit = true ↔ state.is.rest = [])

/-- No CR stands where the search for it goes wrong: in the kept bytes up to their first zero, or,
when they have no zero, in the line without its end. When they have one, no CR behind it is found. -/
def NoStrayCR (kept : List UInt8) (line : Line) : Prop :=
  CR ∉ kept.takeWhile (· ≠ 0) ∧
    if 0 ∈ kept then line.text = line.bytes else CR ∉ line.text

instance (kept : List UInt8) (line : Line) : Decidable (NoStrayCR kept line) :=
  inferInstanceAs (Decidable (_ ∧ _))

/-- The condition of a call. -/
def GoodLine (state : Reading) (resetBuffer : Bool) : Prop :=
  NoStrayCR (kept state resetBuffer) (firstLine state.is.rest)

instance (state : Reading) (resetBuffer : Bool) : Decidable (GoodLine state resetBuffer) :=
  inferInstanceAs (Decidable (NoStrayCR _ _))

section Lists

/-- What a search for CR leaves of the bytes. -/
def cut (bytes : List UInt8) : List UInt8 :=
  let string := bytes.takeWhile (· ≠ 0)
  if CR ∈ string then bytes.take (string.idxOf CR) else bytes

theorem Line.text_cases (line : Line) :
    line.text = line.bytes ∧ ¬ (line.ended ∧ line.bytes.getLast? = some CR) ∨
      line.bytes = line.text ++ [CR] := by
  rw [Line.text]
  split
  · next strips =>
      right
      obtain ⟨front, same⟩ := List.getLast?_eq_some_iff.mp strips.2
      rw [same, List.dropLast_concat]
  · next plain => exact .inl ⟨rfl, plain⟩

theorem cut_of_notMem {bytes : List UInt8} (none_ : CR ∉ bytes.takeWhile (· ≠ 0)) :
    cut bytes = bytes := if_neg none_

theorem cut_of_mem {bytes : List UInt8} (found : CR ∈ bytes.takeWhile (· ≠ 0)) :
    cut bytes = bytes.take ((bytes.takeWhile (· ≠ 0)).idxOf CR) := if_pos found

/-- The search stops at a zero of the front. -/
theorem takeWhile_append_of_zero {front : List UInt8} (zero : 0 ∈ front) (rest : List UInt8) :
    (front ++ rest).takeWhile (· ≠ 0) = front.takeWhile (· ≠ 0) := by
  rw [List.takeWhile_append, if_neg (length_takeWhile_nonzero_lt zero).ne]

/-- A CR in the front cuts into the front. -/
theorem length_cut_lt {front : List UInt8} (found : CR ∈ front.takeWhile (· ≠ 0))
    (rest : List UInt8) : (cut (front ++ rest)).length < front.length := by
  have starts : front.takeWhile (· ≠ 0) <+: (front ++ rest).takeWhile (· ≠ 0) := by
    by_cases zero : 0 ∈ front
    · rw [takeWhile_append_of_zero zero]
    · rw [takeWhile_nonzero zero, List.takeWhile_append, takeWhile_nonzero zero, if_pos rfl]
      exact List.prefix_append _ _
  have index := List.idxOf_lt_length_of_mem found
  have short := (List.takeWhile_prefix (· ≠ 0) (l := front)).length_le
  rw [cut_of_mem (starts.subset found), ← starts.idxOf_eq_of_mem found, List.length_take]
  omega

/-- The search goes on behind a front without zeros and CRs. -/
theorem cut_append {front : List UInt8} (free : 0 ∉ front) (none_ : CR ∉ front)
    {rest : List UInt8} (zero : 0 ∉ rest) :
    cut (front ++ rest) = front ++ rest.take (rest.idxOf CR) := by
  have whole : (front ++ rest).takeWhile (· ≠ 0) = front ++ rest :=
    takeWhile_nonzero (by rw [List.mem_append, not_or]; exact ⟨free, zero⟩)
  have index : (front ++ rest).idxOf CR = front.length + rest.idxOf CR :=
    List.idxOf_append_of_notMem none_
  by_cases found : CR ∈ front ++ rest
  · rw [cut_of_mem (by rwa [whole]), whole, index, List.take_length_add_append]
  · rw [cut_of_notMem (by rwa [whole])]
    rw [List.mem_append, not_or] at found
    rw [List.take_of_length_le (List.idxOf_eq_length found.2).ge]

/-- Up to its first CR a line is its text exactly when the text has none. -/
theorem take_idxOf_eq_text_iff (line : Line) :
    line.bytes.take (line.bytes.idxOf CR) = line.text ↔ CR ∉ line.text := by
  constructor
  · intro same
    rw [← same, (List.take_prefix _ line.bytes).mem_iff_idxOf_lt_length, List.length_take]
    omega
  · intro none_
    rcases line.text_cases with ⟨same, -⟩ | split
    · rw [same] at none_ ⊢
      exact List.take_of_length_le (List.idxOf_eq_length none_).ge
    · rw [split, List.idxOf_append_of_notMem none_, List.idxOf_cons_self, Nat.add_zero,
        List.take_left]

/-- The search leaves the kept bytes and the text of the line exactly when there is no stray CR. -/
theorem cut_eq_iff (kept : List UInt8) (line : Line) (free : 0 ∉ line.bytes) :
    cut (kept ++ line.bytes) = kept ++ line.text ↔ NoStrayCR kept line := by
  by_cases found : CR ∈ kept.takeWhile (· ≠ 0)
  · refine iff_of_false ?_ fun clean => clean.1 found
    intro same
    have shorter := length_cut_lt found line.bytes
    rw [same, List.length_append] at shorter
    omega
  rw [NoStrayCR, and_iff_right found]
  by_cases zero : 0 ∈ kept
  · rw [if_pos zero, cut_of_notMem (by rwa [takeWhile_append_of_zero zero]),
      List.append_right_inj, eq_comm]
  · rw [takeWhile_nonzero zero] at found
    rw [if_neg zero, cut_append zero found free, List.append_right_inj, take_idxOf_eq_text_iff]

end Lists

section Calls

variable {buffer : StringBuffer} {bytes : List UInt8}

theorem contents_of_holds (holds : Holds buffer bytes) : buffer.contents = bytes := by
  obtain ⟨rest, cells⟩ := holds.cells
  have front : buffer.m_bfr.take buffer.m_len = bytes.map some := by
    rw [cells, holds.length, List.take_append_of_le_length (List.length_map _).ge,
      List.take_of_length_le (List.length_map _).le]
  rw [StringBuffer.contents, front]
  show (bytes.map some).filterMap id = bytes
  rw [List.filterMap_map]
  exact List.filterMap_some

theorem Holds.truncateAt (holds : Holds buffer bytes) :
    Gives (buffer.truncateAt CR) (cut bytes) := by
  obtain ⟨rest, cells⟩ := holds.cells
  have string : cString buffer.m_bfr = bytes.takeWhile (· ≠ 0) := by rw [cells, cString_written]
  rw [StringBuffer.truncateAt, string]
  by_cases found : CR ∈ bytes.takeWhile (· ≠ 0)
  · rw [if_pos found, cut_of_mem found]
    exact holds.truncate _
  · rw [if_neg found, cut_of_notMem found]
    exact ⟨buffer, rfl, holds⟩

theorem firstLine_LF (rest : List UInt8) : firstLine (LF :: rest) = ⟨[], true⟩ := rfl

theorem firstLine_cons {c : UInt8} (other : c ≠ LF) (rest : List UInt8) :
    firstLine (c :: rest) = ⟨c :: (firstLine rest).bytes, (firstLine rest).ended⟩ := by
  unfold firstLine
  rw [lines, if_neg other]
  cases lines rest with
  | nil => rfl
  | cons line more => rfl

theorem tail_lines_cons {c : UInt8} (other : c ≠ LF) (rest : List UInt8) :
    (lines (c :: rest)).tail = (lines rest).tail := by
  rw [lines, if_neg other]
  cases lines rest with
  | nil => rfl
  | cons line more => rfl

/-- What the loop of `getLine` leaves in the stream. -/
structure Leaves (rest : List UInt8) (count : Nat) (is : IStream) : Prop where
  lines : lines is.rest = (lines rest).tail
  fails : is.failbit = true ↔ count = 0 ∧ rest = []
  length : (firstLine rest).bytes.length + is.rest.length ≤ rest.length
  nonzero : 0 ∉ rest → 0 ∉ (firstLine rest).bytes ∧ 0 ∉ is.rest

/-- The loop appends the next line without its LF. -/
theorem Holds.readLine (holds : Holds buffer bytes) (count : Nat) (rest : List UInt8)
    (small : bytes.length + rest.length + 1 < 2 ^ 62) :
    ∃ next is, buffer.readLine count rest = some (next, is) ∧
      Holds next (bytes ++ (firstLine rest).bytes) ∧ Leaves rest count is := by
  induction rest generalizing buffer bytes count with
  | nil =>
      refine ⟨buffer, _, rfl, ?_, rfl, ?_, le_rfl, fun free => ⟨free, free⟩⟩
      · rwa [show (firstLine []).bytes = [] from rfl, List.append_nil]
      · rw [decide_eq_true_eq, and_iff_left rfl]
  | cons c rest ih =>
      by_cases ends : c = LF
      · subst ends
        refine ⟨buffer, ⟨rest, false, false⟩, if_pos rfl, ?_, rfl, ?_, ?_, ?_⟩
        · rwa [firstLine_LF, List.append_nil]
        · exact iff_of_false Bool.false_ne_true fun both => List.cons_ne_nil _ _ both.2
        · rw [firstLine_LF, List.length_cons]
          exact (Nat.zero_add _).le.trans (Nat.le_succ _)
        · intro free
          rw [List.mem_cons, not_or] at free
          exact ⟨List.not_mem_nil, free.2⟩
      · rw [List.length_cons] at small
        obtain ⟨middle, appended, has⟩ := holds.appendChar_small c (by omega)
        obtain ⟨next, is, reads, after, leaves⟩ := ih has (count + 1) (by
          rw [List.length_append, List.length_singleton]
          omega)
        refine ⟨next, is, ?_, ?_, ?_, ?_, ?_, ?_⟩
        · rw [StringBuffer.readLine, if_neg ends, appended, Option.bind_some, reads]
        · rw [firstLine_cons ends]
          rwa [List.append_assoc] at after
        · rw [leaves.lines, tail_lines_cons ends]
        · rw [leaves.fails]
          exact iff_of_false (fun both => Nat.succ_ne_zero _ both.1)
            fun both => List.cons_ne_nil _ _ both.2
        · have length := leaves.length
          rw [firstLine_cons ends, List.length_cons, List.length_cons]
          omega
        · intro free
          rw [List.mem_cons, not_or] at free
          obtain ⟨line, later⟩ := leaves.nonzero free.2
          rw [firstLine_cons ends, List.mem_cons, not_or]
          exact ⟨⟨free.1, line⟩, later⟩

/-- A call puts the next line behind the kept bytes and cuts them at the CR that it finds. -/
theorem Holds.getLine (holds : Holds buffer bytes) (rest : List UInt8) (eofbit resetBuffer : Bool)
    (small : bytes.length + rest.length + 1 < 2 ^ 62) :
    ∃ next is, buffer.getLine ⟨rest, false, eofbit⟩ resetBuffer = some (next, is) ∧
      Holds next (cut ((if resetBuffer then [] else bytes) ++ (firstLine rest).bytes)) ∧
      Leaves rest 0 is := by
  have starts : Gives (if resetBuffer then buffer.reset else some buffer)
      (if resetBuffer then [] else bytes) := by
    cases resetBuffer with
    | true => exact holds.reset
    | false => exact ⟨buffer, rfl, holds⟩
  obtain ⟨first, starts, has⟩ := starts
  have shorter : (if resetBuffer then [] else bytes).length ≤ bytes.length := by
    cases resetBuffer with
    | true => exact Nat.zero_le _
    | false => exact le_rfl
  obtain ⟨read, is, reads, after, leaves⟩ := has.readLine 0 rest (by omega)
  obtain ⟨next, truncated, result⟩ := after.truncateAt
  refine ⟨next, { is with eofbit := eofbit || is.eofbit }, ?_, result,
    ⟨leaves.lines, leaves.fails, leaves.length, leaves.nonzero⟩⟩
  rw [StringBuffer.getLine, starts, Option.bind_some, if_neg Bool.false_ne_true, reads,
    Option.map_some, Option.bind_some, truncated]
  rfl

/-- The invariant of the caller. The bytes are far from the end of the address space. -/
def Reading.Sound (state : Reading) : Prop :=
  ∃ buffer bytes, state.buffer = some buffer ∧ Holds buffer bytes ∧ 0 ∉ state.is.rest ∧
    bytes.length + state.is.rest.length + 1 < 2 ^ 62

theorem length_cut_le (bytes : List UInt8) : (cut bytes).length ≤ bytes.length := by
  rw [cut]
  split
  · exact (List.take_prefix _ _).length_le
  · exact le_rfl

/-- Each call keeps the invariant, and it returns the line exactly when there is no stray CR. -/
theorem Reading.Sound.step {state next : Reading} {resetBuffer : Bool} (sound : state.Sound)
    (taken : state.next resetBuffer = some next) :
    next.Sound ∧ (ReturnsLine state resetBuffer next ↔ GoodLine state resetBuffer) := by
  obtain ⟨first, rest, failbit, eofbit⟩ := state
  obtain ⟨buffer, bytes, rfl, holds, free, small⟩ := sound
  cases failbit with
  | true => cases taken
  | false =>
      have keeps : kept ⟨some buffer, ⟨rest, false, eofbit⟩⟩ resetBuffer =
          if resetBuffer then [] else bytes := by
        rw [kept, Option.elim_some, contents_of_holds holds]
      have shorter : (if resetBuffer then [] else bytes).length ≤ bytes.length := by
        cases resetBuffer with
        | true => exact Nat.zero_le _
        | false => exact le_rfl
      obtain ⟨after, is, reads, has, leaves⟩ := holds.getLine rest eofbit resetBuffer small
      have same : next = ⟨some after, is⟩ := by
        rw [Reading.next, if_neg Bool.false_ne_true, Option.map_some, reads] at taken
        exact (Option.some.inj taken).symm
      subst same
      obtain ⟨line, later⟩ := leaves.nonzero free
      constructor
      · have length := length_cut_le ((if resetBuffer then [] else bytes) ++ (firstLine rest).bytes)
        have total := leaves.length
        rw [List.length_append] at length
        refine ⟨after, _, rfl, has, later, ?_⟩
        dsimp only at small ⊢
        omega
      · have fails : is.failbit = true ↔ rest = [] := leaves.fails.trans (and_iff_right rfl)
        rw [ReturnsLine, and_iff_left ⟨leaves.lines, fails⟩, GoodLine, keeps, ← cut_eq_iff _ _ line]
        constructor
        · intro given
          exact Gives.unique ⟨after, rfl, has⟩ given
        · intro same
          rw [← same]
          exact ⟨after, rfl, has⟩

end Calls

/-- For every text without zeros and every buffer, all calls up to the fail bit return the lines in
order, without their ends and behind the kept bytes, exactly when no search meets a stray CR. -/
theorem getLine_iff {buffer : StringBuffer} {bytes text : List UInt8} (holds : Holds buffer bytes)
    (free : 0 ∉ text) (small : bytes.length + text.length + 1 < 2 ^ 62)
    {steps : List (TransitionSystem.Transition Reading Bool)}
    (run : (readingSystem buffer text).Run ⟨some buffer, ⟨text, false, false⟩⟩ steps) :
    (∀ step ∈ steps, ReturnsLine step.source step.label step.target) ↔
      ∀ step ∈ steps, GoodLine step.source step.label := by
  have keep (state : Reading) (resetBuffer : Bool) (next : Reading) (sound : state.Sound)
      (taken : (readingSystem buffer text).step state resetBuffer next)
      (_ : GoodLine state resetBuffer) : next.Sound := (sound.step taken).1
  have exactly (state : Reading) (resetBuffer : Bool) (next : Reading) (sound : state.Sound)
      (taken : (readingSystem buffer text).step state resetBuffer next) :
      ReturnsLine state resetBuffer next ↔ GoodLine state resetBuffer := (sound.step taken).2
  exact run.forall_iff keep exactly ⟨buffer, bytes, rfl, holds, free, small⟩

/-- The calls with these arguments. -/
def readings (text : List UInt8) (flags : List Bool) :
    List (TransitionSystem.Transition Reading Bool) :=
  TransitionSystem.follow Reading.next ⟨some (.ofSize 4), ⟨text, false, false⟩⟩ flags

/-- The text `a\r\nb` in three calls, of which the second keeps the first line. -/
theorem getLine_windows :
    (readings [97, 13, 10, 98] [true, false, true]).length = 3 ∧
      ∀ step ∈ readings [97, 13, 10, 98] [true, false, true],
        ReturnsLine step.source step.label step.target := by
  constructor
  · decide
  · apply (getLine_iff (holds_ofSize 4) (by decide) ?_ (TransitionSystem.follow_run _ _ _ _)).mpr
    · decide
    · decide

/-- The line `a\rb` is cut in the middle. -/
theorem getLine_cuts :
    ¬ ∀ step ∈ readings [97, 13, 98, 10] [true],
      ReturnsLine step.source step.label step.target := by
  intro returns
  have sound : Reading.Sound ⟨some (.ofSize 4), ⟨[97, 13, 98, 10], false, false⟩⟩ :=
    ⟨_, [], rfl, holds_ofSize 4, by decide, by decide⟩
  have bad := (sound.step rfl).2.mp (returns _ List.mem_cons_self)
  exact absurd bad (by decide)

end Blocxx.StringBuffers
