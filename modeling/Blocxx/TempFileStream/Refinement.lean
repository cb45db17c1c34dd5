import Blocxx.TempFileStream.TempFileBuffer

/-!
This file proves that a `TempFileBuffer` follows the contents that it was given, in memory and in
the temp file, as long as no call meets one of its defects.
-/

namespace Blocxx.TempFileStream

/-- What a buffer of any size has been given. The mark is where the last turn from output to input
found the end, and the last flag is set in output mode. -/
structure Contents where
  written : Bytes
  read : Nat
  atEnd : Bool
  mark : Nat
  output : Bool
  deriving DecidableEq

namespace Contents

def empty : Contents := ⟨[], 0, false, 0, true⟩

variable (a : Contents)

def put (c : UInt8) : Contents := { a with written := a.written ++ [c], output := true }

def putAll (s : Bytes) : Contents := s.foldl put a

/-- The bytes that were written and not yet read. -/
def unread : Bytes := a.written.drop a.read

/-- A turn to input leaves its mark. -/
def toInput : Contents :=
  { a with mark := if a.output then a.written.length else a.mark, output := false }

def skip (count : Nat) : Contents := { a with read := a.read + count }

/-- A read at the end sets a flag, and with the flag set every read is at the end. -/
def get : Option UInt8 × Contents :=
  if a.atEnd then (none, a)
  else
    match a.unread with
    | [] => (none, { a.toInput with atEnd := true })
    | c :: _ => (some c, a.toInput.skip 1)

def getAll (a : Contents) : Nat → Bytes × Contents
  | 0 => ([], a)
  | n + 1 =>
      match a.get with
      | (none, after) => ([], after)
      | (some c, after) =>
          let (rest, last) := after.getAll n
          (c :: rest, last)

def rewind : Contents where
  written := a.written
  read := 0
  atEnd := false
  mark := a.written.length
  output := false

end Contents

section Counts

/-- The greatest value of an `int`. -/
def INT_MAX : Nat := 2 ^ 31 - 1

theorem toInt_of_le {count : Nat} (small : count ≤ INT_MAX) : toInt count = count := by
  unfold INT_MAX at small
  unfold toInt
  exact Int.bmod_eq_of_le (by omega) (by omega)

theorem toSize_toInt {count : Nat} (small : count ≤ INT_MAX) : toSize (toInt count) = count := by
  have whole : (count : Int) % 2 ^ 64 = count := by
    unfold INT_MAX at small
    omega
  rw [toInt_of_le small]
  exact (congrArg Int.toNat whole).trans (Int.toNat_natCast count)

/-- A write at the end of the file appends. -/
theorem File.write_end {file : File} (atEnd : file.offset = file.bytes.length) (bfr : Bytes) :
    file.write bfr = ⟨file.bytes ++ bfr, (file.bytes ++ bfr).length⟩ := by
  unfold write
  rw [atEnd, List.take_length, List.drop_eq_nil_of_le (by omega), List.append_nil, Nat.sub_self,
    List.replicate_zero, List.append_nil, List.length_append]
  split
  · next nothing => rw [nothing, List.append_nil]
  · rfl

theorem take_set {memory : Bytes} {p : Nat} (inside : p < memory.length) (c : UInt8) :
    (memory.set p c).take (p + 1) = memory.take p ++ [c] := by
  rw [List.take_add_one, List.take_set_of_le (by omega), List.getElem?_set_self inside]
  rfl

/-- A copy into the memory changes neither what comes before it nor the length. -/
theorem copy_spec {memory s : Bytes} {p : Nat} (inside : p + s.length ≤ memory.length) :
    (memory.take p ++ s ++ memory.drop (p + s.length)).take (p + s.length) = memory.take p ++ s ∧
      (memory.take p ++ s ++ memory.drop (p + s.length)).length = memory.length := by
  constructor
  · apply List.take_left'
    rw [List.length_append, List.length_take]
    omega
  · simp only [List.length_append, List.length_take, List.length_drop]
    omega

end Counts

/-- The six ways in which a buffer represents contents: in memory or spilled, and each in output
mode, in input mode, or after the end was read. -/
inductive Shape (b : TempFileBuffer) (a : Contents) : Prop
  | memoryOut (file : b.m_tempFile = none) (put : b.pptr = some a.written.length)
      (get : b.gptr = none) (fits : a.written.length ≤ b.m_bufSize)
      (content : b.m_buffer.take a.written.length = a.written)
      (position : a.atEnd = false → b.m_readPos = a.read)
      (mark : b.m_writePos = a.mark) (output : a.output = true)
  | memoryIn (file : b.m_tempFile = none) (put : b.pptr = none)
      (get : b.gptr = some (a.read, a.written.length)) (fits : a.written.length ≤ b.m_bufSize)
      (content : b.m_buffer.take a.written.length = a.written)
      (mark : b.m_writePos = a.mark) (marked : a.mark = a.written.length)
      (input : a.output = false) (going : a.atEnd = false)
  | memoryEnd (file : b.m_tempFile = none) (put : b.pptr = none) (get : b.gptr = none)
      (fits : a.written.length ≤ b.m_bufSize)
      (content : b.m_buffer.take a.written.length = a.written)
      (mark : b.m_writePos = a.mark) (marked : a.mark = a.written.length)
      (input : a.output = false) (ended : a.atEnd = true)
  | fileOut {file : File} {pending : Nat} (isFile : b.m_tempFile = some file)
      (put : b.pptr = some pending) (get : b.gptr = none) (fits : pending ≤ b.m_bufSize)
      (content : file.bytes ++ b.m_buffer.take pending = a.written)
      (offset : file.offset = file.bytes.length)
      (position : a.atEnd = false → b.m_readPos = a.read)
  | fileIn {file : File} {g e : Nat} (isFile : b.m_tempFile = some file) (put : b.pptr = none)
      (get : b.gptr = some (g, e)) (area : g ≤ e ∧ e ≤ b.m_bufSize)
      (content : file.bytes = a.written) (offset : file.offset = a.read + (e - g))
      (ahead : a.read + (e - g) ≤ a.written.length)
      (chunk : (b.m_buffer.take e).drop g = a.unread.take (e - g))
      (input : a.output = false) (going : a.atEnd = false)
  | fileEnd {file : File} (isFile : b.m_tempFile = some file) (put : b.pptr = none)
      (get : b.gptr = none) (content : file.bytes = a.written)
      (input : a.output = false) (ended : a.atEnd = true)

/-- The buffer of the given size represents the contents. -/
structure Tracks (bufSize : Nat) (b : TempFileBuffer) (a : Contents) : Prop where
  size : b.m_bufSize = bufSize
  positive : 0 < b.m_bufSize
  memory : b.m_buffer.length = b.m_bufSize
  ended : b.m_isEOF = a.atEnd
  within : a.read ≤ a.written.length
  counted : b.m_tempFile ≠ none → b.m_bufSize ≤ INT_MAX
  shape : Shape b a

theorem Tracks.new {bufSize : Nat} (positive : 0 < bufSize) (memory : Vector UInt8 bufSize) :
    Tracks bufSize (.new memory) .empty where
  size := rfl
  positive := positive
  memory := memory.length_toList
  ended := rfl
  within := le_rfl
  counted none := absurd rfl none
  shape := .memoryOut rfl rfl rfl (Nat.zero_le _) rfl (fun _ => rfl) rfl rfl

/-- The counts of a buffer with this many bytes fit in an `int`. -/
def Counted (bufSize count : Nat) : Prop := bufSize ≤ INT_MAX ∨ count ≤ INT_MAX

/-- A turn from input to output finds the end of the temp file in the write position. -/
def TempFileBuffer.WriteReady (b : TempFileBuffer) : Prop :=
  b.pptr = none → ∀ file ∈ b.m_tempFile, b.m_writePos = file.size

section Output

variable {bufSize : Nat} {b : TempFileBuffer} {a : Contents}

theorem store_tracks {p : Nat} (tracks : Tracks bufSize b a) (put : b.pptr = some p)
    (room : p < b.m_bufSize) (c : UInt8) : Tracks bufSize (b.store c p).2 (a.put c) := by
  obtain ⟨size, positive, memory, ended, within, counted, shape⟩ := tracks
  have longer : (a.put c).written.length = a.written.length + 1 := List.length_append
  refine ⟨size, positive, ?_, ended, ?_, counted, ?_⟩
  · exact List.length_set.trans memory
  · rw [longer]
    exact Nat.le_succ_of_le within
  cases shape with
  | memoryOut file putHere get fits content position mark output =>
      obtain rfl := Option.some.inj (putHere.symm.trans put)
      refine .memoryOut file ?_ get ?_ ?_ position mark rfl
      · rw [longer]
        rfl
      · rw [longer]
        exact room
      · rw [longer]
        refine (take_set (by omega) c).trans ?_
        rw [content]
        rfl
  | fileOut isFile putHere get fits content offset position =>
      obtain rfl := Option.some.inj (putHere.symm.trans put)
      refine .fileOut isFile rfl get room ?_ offset position
      refine (congrArg _ (take_set (by omega) c)).trans ?_
      rw [← List.append_assoc, content]
      rfl
  | memoryIn _ none | memoryEnd _ none | fileIn _ none | fileEnd _ none =>
      cases none.symm.trans put

/-- The flush appends the put area to the file. -/
theorem buffer_out_eq {p : Nat} (put : b.pptr = some p) (small : p ≤ INT_MAX)
    (offset : (b.m_tempFile.getD ⟨[], 0⟩).offset = (b.m_tempFile.getD ⟨[], 0⟩).bytes.length) :
    b.buffer_out = ((p : Int), { b with
      m_tempFile := some ⟨(b.m_tempFile.getD ⟨[], 0⟩).bytes ++ b.m_buffer.take p,
        ((b.m_tempFile.getD ⟨[], 0⟩).bytes ++ b.m_buffer.take p).length⟩
      pptr := some 0 }) := by
  have count : b.pptr.getD 0 = p := by
    rw [put]
    rfl
  unfold TempFileBuffer.buffer_out TempFileBuffer.buffer_to_device
  dsimp only
  rw [count, toSize_toInt small, toInt_of_le small, File.write_end offset]

/-- A full put area is flushed, and the character starts the next one. -/
theorem overflowFull_tracks {p : Nat} (tracks : Tracks bufSize b a) (put : b.pptr = some p)
    (full : p = b.m_bufSize) (small : Counted bufSize a.written.length) (c : UInt8) :
    (b.overflowFull c).1 = some c ∧ Tracks bufSize (b.overflowFull c).2 (a.put c) ∧
      (b.overflowFull c).2.pptr ≠ none := by
  obtain ⟨size, positive, memory, ended, within, counted, shape⟩ := tracks
  have longer : (a.put c).written.length = a.written.length + 1 := List.length_append
  -- In both modes of output the flush leaves all that was written in the file.
  have flushed : p ≤ INT_MAX ∧ (a.atEnd = false → b.m_readPos = a.read) ∧
      (b.m_tempFile.getD ⟨[], 0⟩).offset = (b.m_tempFile.getD ⟨[], 0⟩).bytes.length ∧
      (b.m_tempFile.getD ⟨[], 0⟩).bytes ++ b.m_buffer.take p = a.written ∧ b.gptr = none := by
    cases shape with
    | memoryOut file putHere get fits content position mark output =>
        obtain rfl := Option.some.inj (putHere.symm.trans put)
        rw [file]
        unfold Counted at small
        exact ⟨by omega, position, rfl, content, get⟩
    | fileOut isFile putHere get fits content offset position =>
        obtain rfl := Option.some.inj (putHere.symm.trans put)
        have small := counted (by simp [isFile])
        rw [isFile]
        exact ⟨by omega, position, offset, content, get⟩
    | memoryIn _ none | memoryEnd _ none | fileIn _ none | fileEnd _ none =>
        cases none.symm.trans put
  obtain ⟨fits, position, offset, content, get⟩ := flushed
  have notNegative : ¬ (p : Int) < 0 := by omega
  unfold TempFileBuffer.overflowFull
  rw [buffer_out_eq put fits offset, content]
  dsimp only
  rw [if_neg notNegative]
  refine ⟨rfl, ⟨size, positive, ?_, ended, ?_, ?_, ?_⟩, by simp [TempFileBuffer.store]⟩
  · exact List.length_set.trans memory
  · rw [longer]
    exact Nat.le_succ_of_le within
  · intro _
    show b.m_bufSize ≤ INT_MAX
    omega
  · refine .fileOut rfl rfl get positive ?_ rfl position
    have start : (b.m_buffer.set 0 c).take 1 = [c] := take_set (by omega) c
    exact congrArg (a.written ++ ·) start

/-- The turn from input to output keeps the contents. -/
theorem switchToOutput_tracks (tracks : Tracks bufSize b a) (none : b.pptr = none)
    (ready : b.WriteReady) (small : Counted bufSize a.written.length) :
    Tracks bufSize b.switchToOutput { a with output := true } ∧
      ∃ p, b.switchToOutput.pptr = some p := by
  obtain ⟨size, positive, memory, ended, within, counted, shape⟩ := tracks
  unfold Counted at small
  have inMemory (file : b.m_tempFile = Option.none) (fits : a.written.length ≤ b.m_bufSize)
      (content : b.m_buffer.take a.written.length = a.written) (mark : b.m_writePos = a.mark)
      (marked : a.mark = a.written.length)
      (position : a.atEnd = false → (b.gptr.map Prod.fst).getD 0 = a.read) :
      Tracks bufSize b.switchToOutput { a with output := true } ∧
        ∃ p, b.switchToOutput.pptr = some p := by
    have pointer : (toInt b.m_writePos).toNat = a.written.length := by
      rw [mark, marked, toInt_of_le (by omega), Int.toNat_natCast]
    unfold TempFileBuffer.switchToOutput
    rw [file]
    dsimp only
    rw [pointer]
    exact ⟨⟨size, positive, memory, ended, within, fun spilled => absurd rfl spilled,
      .memoryOut rfl rfl rfl fits content position mark rfl⟩, _, rfl⟩
  have inFile {file : File} (isFile : b.m_tempFile = some file) (content : file.bytes = a.written)
      (position : a.atEnd = false →
        file.tell - (b.gptr.map fun get => get.2 - get.1).getD 0 = a.read) :
      Tracks bufSize b.switchToOutput { a with output := true } ∧
        ∃ p, b.switchToOutput.pptr = some p := by
    have atEnd := ready none file isFile
    have spilled : b.m_bufSize ≤ INT_MAX := counted (by simp [isFile])
    unfold TempFileBuffer.switchToOutput
    rw [isFile]
    dsimp only
    refine ⟨⟨size, positive, memory, ended, within, fun _ => spilled, ?_⟩, _, rfl⟩
    refine .fileOut rfl rfl rfl (Nat.zero_le _) ?_ atEnd position
    exact (List.append_nil _).trans content
  cases shape with
  | memoryOut _ put | fileOut _ put => cases none.symm.trans put
  | memoryIn file _ get fits content mark marked input going =>
      refine inMemory file fits content mark marked ?_
      intro _
      rw [get]
      rfl
  | memoryEnd file _ get fits content mark marked input ended =>
      refine inMemory file fits content mark marked ?_
      intro going
      cases ended.symm.trans going
  | fileIn isFile _ get area content offset ahead chunk input going =>
      refine inFile isFile content ?_
      intro _
      rw [get, File.tell, offset]
      exact Nat.add_sub_cancel _ _
  | fileEnd isFile _ get content input ended =>
      refine inFile isFile content ?_
      intro going
      cases ended.symm.trans going

/-- A character that is written comes behind the contents. -/
theorem sputc_tracks (tracks : Tracks bufSize b a) (ready : b.WriteReady)
    (small : Counted bufSize a.written.length) (c : UInt8) :
    (b.sputc c).1 = some c ∧ Tracks bufSize (b.sputc c).2 (a.put c) ∧
      (b.sputc c).2.pptr ≠ none := by
  have most {b : TempFileBuffer} {a : Contents} (tracks : Tracks bufSize b a) {p : Nat}
      (put : b.pptr = some p) : p ≤ b.m_bufSize := by
    cases tracks.shape with
    | memoryOut file putHere get fits =>
        obtain rfl := Option.some.inj (putHere.symm.trans put)
        exact fits
    | fileOut isFile putHere get fits =>
        obtain rfl := Option.some.inj (putHere.symm.trans put)
        exact fits
    | memoryIn _ none | memoryEnd _ none | fileIn _ none | fileEnd _ none =>
        cases none.symm.trans put
  unfold TempFileBuffer.sputc
  cases put : b.pptr with
  | some p =>
      dsimp only
      split
      · next room => exact ⟨rfl, store_tracks tracks put room c, by simp [TempFileBuffer.store]⟩
      · next full =>
          have bound := most tracks put
          unfold TempFileBuffer.overflow
          rw [put]
          dsimp only
          exact overflowFull_tracks tracks put (by omega) small c
  | none =>
      obtain ⟨switched, p, putNow⟩ := switchToOutput_tracks tracks put ready small
      have bound := most switched putNow
      have sameSize := switched.size.trans tracks.size.symm
      unfold TempFileBuffer.overflow
      rw [put]
      dsimp only
      rw [putNow, Option.getD_some]
      split
      · next room =>
          exact ⟨rfl, store_tracks switched putNow (by omega) c, by simp [TempFileBuffer.store]⟩
      · next full => exact overflowFull_tracks switched putNow (by omega) small c

theorem putAll_eq (s : Bytes) : a.putAll s = if s = [] then a else
    { a with written := a.written ++ s, output := true } := by
  induction s generalizing a with
  | nil => rfl
  | cons c rest ih =>
      rw [if_neg (List.cons_ne_nil c rest)]
      show (a.put c).putAll rest = _
      rw [ih]
      split
      · next isEmpty =>
          rw [isEmpty]
          rfl
      · simp [Contents.put]

/-- The loop of a block write. -/
theorem putAll_tracks {s : Bytes} : ∀ {b : TempFileBuffer} {a : Contents}, Tracks bufSize b a →
    (s ≠ [] → b.WriteReady) → Counted bufSize (a.written.length + s.length) →
      (b.putAll s).1 = s.length ∧ Tracks bufSize (b.putAll s).2 (a.putAll s) ∧
        (b.WriteReady → (b.putAll s).2.WriteReady) := by
  induction s with
  | nil =>
      intro b a tracks ready small
      exact ⟨rfl, tracks, id⟩
  | cons c rest ih =>
      intro b a tracks ready small
      rw [List.length_cons] at small
      have smallHere : Counted bufSize a.written.length := by
        unfold Counted at small ⊢
        omega
      obtain ⟨stored, after, output⟩ := sputc_tracks tracks (ready (List.cons_ne_nil c rest))
        smallHere c
      have smallAfter : Counted bufSize ((a.put c).written.length + rest.length) := by
        have longer : (a.put c).written.length = a.written.length + 1 := List.length_append
        unfold Counted at small ⊢
        omega
      have readyAfter : (b.sputc c).2.WriteReady := fun none => absurd none output
      obtain ⟨count, last, readyLast⟩ := ih after (fun _ => readyAfter) smallAfter
      rw [TempFileBuffer.putAll]
      rcases written : b.sputc c with ⟨answer, next⟩
      rw [written] at stored count last readyAfter readyLast
      obtain rfl : answer = some c := stored
      exact ⟨congrArg (· + 1) count, last, fun _ => readyLast readyAfter⟩

/-- A block write that fits into the put area is one copy. -/
theorem xsputn_tracks {s : Bytes} (tracks : Tracks bufSize b a) (ready : s ≠ [] → b.WriteReady)
    (small : Counted bufSize (a.written.length + s.length)) :
    (b.xsputn s).1 = s.length ∧ Tracks bufSize (b.xsputn s).2 (a.putAll s) ∧
      (b.WriteReady → (b.xsputn s).2.WriteReady) := by
  unfold TempFileBuffer.xsputn
  split
  · next p put =>
      split
      · next room =>
          refine ⟨rfl, ?_, fun _ none => by cases none⟩
          rw [putAll_eq]
          obtain ⟨size, positive, memory, ended, within, counted, shape⟩ := tracks
          have inside : p + s.length ≤ b.m_bufSize := by omega
          have count : s.length ≤ INT_MAX := by
            unfold Counted at small
            omega
          have pointer : ((p : Int) + toInt s.length).toNat = p + s.length := by
            rw [toInt_of_le count]
            omega
          dsimp only
          rw [pointer]
          obtain ⟨copied, length⟩ := copy_spec (inside.trans_eq memory.symm)
          split
          · next isEmpty =>
              have same : b = { b with
                  m_buffer := b.m_buffer.take p ++ s ++ b.m_buffer.drop (p + s.length)
                  pptr := some (p + s.length) } := by
                rw [isEmpty, List.append_nil, List.length_nil, add_zero, List.take_append_drop,
                  ← put]
              rw [← same]
              exact ⟨size, positive, memory, ended, within, counted, shape⟩
          · have longer : (a.written ++ s).length = a.written.length + s.length :=
              List.length_append
            refine ⟨size, positive, length.trans memory, ended, ?_, counted, ?_⟩
            · rw [longer]
              exact Nat.le_add_right_of_le within
            cases shape with
            | memoryOut file putHere get fits content position mark output =>
                obtain rfl := Option.some.inj (putHere.symm.trans put)
                refine .memoryOut file ?_ get ?_ ?_ position mark rfl
                · rw [longer]
                · rw [longer]
                  exact inside
                · rw [longer, copied, content]
            | fileOut isFile putHere get fits content offset position =>
                obtain rfl := Option.some.inj (putHere.symm.trans put)
                refine .fileOut isFile rfl get inside ?_ offset position
                · rw [copied, ← List.append_assoc, content]
            | memoryIn _ none | memoryEnd _ none | fileIn _ none | fileEnd _ none =>
                cases none.symm.trans put
      · exact putAll_tracks tracks ready small
  · exact putAll_tracks tracks ready small

end Output

end Blocxx.TempFileStream
