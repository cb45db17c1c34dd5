import Blocxx.TempFileStream.Spilling

/-!
This file embeds `releaseFileAndReset` of a buffer that keeps its file, and settles when the released
file holds all bytes of the buffer.
-/

namespace Blocxx.TempFileStream

namespace TempFileBuffer

variable (b : TempFileBuffer)

/-- The flush creates the file when there is none. The answer is what the kept file holds. -/
def releaseFileAndReset : Bytes × TempFileBuffer :=
  let out := b.buffer_out.2
  ((out.m_tempFile.map File.bytes).getD [], out.reset)

/-- The bytes that the buffer holds: those of the file and those of the put area, or in memory those
up to the end of the put area, of the get area, or of the last turn to input. -/
def held : Bytes :=
  match b.m_tempFile, b.pptr with
  | some file, some p => file.bytes ++ b.m_buffer.take p
  | some file, none => file.bytes
  | none, some p => b.m_buffer.take p
  | none, none => b.m_buffer.take b.getSize

/-- The buffer is as its constructor leaves it. -/
def Initial (bufSize : Nat) : Prop := ∃ memory, b = ⟨bufSize, memory, none, 0, 0, false, some 0, none⟩

/-- The released file holds the `getSize()` bytes of the buffer, and the buffer is as new. -/
structure Releases (bufSize : Nat) : Prop where
  bytes : b.releaseFileAndReset.1 = b.held
  size : b.held.length = b.getSize
  initial : b.releaseFileAndReset.2.Initial bufSize

/-- The number of bytes that `buffer_out` writes. -/
def flushCount : Nat := min (toSize (toInt (b.pptr.getD 0))) b.m_buffer.length

/-- In memory the buffer is in output mode and has not been in input mode, or it holds nothing. With
a file it is in input mode, or the file is at its end or nothing is left to flush. In output mode the
count of the put area fits. -/
def FlushesAll : Prop :=
  match b.m_tempFile, b.pptr with
  | none, some p => b.flushCount = p ∧ b.m_writePos = 0
  | none, none => b.getSize = 0
  | some file, some p => b.flushCount = p ∧ (p = 0 ∨ file.offset = file.size)
  | some _, none => True

instance : Decidable b.FlushesAll := by
  unfold FlushesAll
  split <;> infer_instance

end TempFileBuffer

/-- The buffer after the calls. -/
def after (b : TempFileBuffer) (operations : List Operation) : TempFileBuffer :=
  operations.foldl (fun b operation => (b.call operation).2) b

/-- The pointers of a buffer lie in its memory and count no more bytes than were written. -/
structure Sound (bufSize total : Nat) (b : TempFileBuffer) : Prop where
  size : b.m_bufSize = bufSize
  memory : bufSize ≤ b.m_buffer.length
  put : ∀ p ∈ b.pptr, p ≤ bufSize ∧ p ≤ total
  get : b.m_tempFile = none → ∀ area ∈ b.gptr, area.2 ≤ bufSize ∧ area.2 ≤ total
  last : b.m_tempFile = none → b.m_writePos ≤ bufSize ∧ b.m_writePos ≤ total
  oneMode : b.pptr = none ∨ b.gptr = none

section Release

variable {bufSize total : Nat} {b : TempFileBuffer}

theorem releaseFileAndReset_initial (size : b.m_bufSize = bufSize) :
    b.releaseFileAndReset.2.Initial bufSize := by
  subst size
  exact ⟨_, rfl⟩

/-- The flush writes into the file, which it creates when there is none. -/
theorem released_eq : b.releaseFileAndReset.1 =
    ((b.m_tempFile.getD ⟨[], 0⟩).write (b.m_buffer.take b.flushCount)).bytes := by
  unfold TempFileBuffer.flushCount
  rw [← List.take_eq_take_min]
  unfold TempFileBuffer.releaseFileAndReset TempFileBuffer.buffer_out
    TempFileBuffer.buffer_to_device
  dsimp only
  rw [Option.map_some, Option.getD_some]

theorem flushCount_of_input (input : b.pptr = none) : b.flushCount = 0 := by
  unfold TempFileBuffer.flushCount
  rw [input]
  exact Nat.zero_min _

theorem flushCount_of_output {p : Nat} (put : b.pptr = some p) (inside : p ≤ b.m_buffer.length)
    (small : p ≤ INT_MAX) : b.flushCount = p := by
  unfold TempFileBuffer.flushCount
  rw [put, Option.getD_some, toSize_toInt small]
  exact Nat.min_eq_left inside

theorem getSize_of_file {file : File} (isFile : b.m_tempFile = some file) :
    b.getSize = file.bytes.length + b.pptr.getD 0 := by
  unfold TempFileBuffer.getSize
  rw [isFile]
  cases b.gptr <;> rfl

theorem held_of_file {file : File} (isFile : b.m_tempFile = some file) :
    b.held = file.bytes ++ b.m_buffer.take (b.pptr.getD 0) := by
  unfold TempFileBuffer.held
  rw [isFile]
  cases b.pptr with
  | none => exact (List.append_nil file.bytes).symm
  | some p => rfl

/-- A flush of the whole put area at the end of the file releases all bytes. -/
theorem Sound.releases (sound : Sound bufSize total b) (flushes : b.FlushesAll) :
    b.Releases bufSize := by
  have inside {p : Nat} (put : b.pptr = some p) : p ≤ b.m_buffer.length :=
    (sound.put p put).1.trans sound.memory
  suffices same : b.releaseFileAndReset.1 = b.held ∧ b.held.length = b.getSize from
    ⟨same.1, same.2, releaseFileAndReset_initial sound.size⟩
  rw [released_eq]
  unfold TempFileBuffer.FlushesAll at flushes
  cases isFile : b.m_tempFile with
  | none =>
      rw [isFile] at flushes
      cases put : b.pptr with
      | some p =>
          rw [put] at flushes
          obtain ⟨count, start⟩ := flushes
          have get : b.gptr = none := by simpa [put] using sound.oneMode
          unfold TempFileBuffer.held TempFileBuffer.getSize
          rw [isFile, put, get, count, Option.getD_none, File.write_end rfl, start]
          dsimp only
          rw [List.nil_append, List.length_take, Nat.min_eq_left (inside put)]
          exact ⟨rfl, (Nat.zero_add p).symm⟩
      | none =>
          rw [put] at flushes
          unfold TempFileBuffer.held
          rw [isFile, put, flushCount_of_input put, Option.getD_none, File.write_end rfl]
          dsimp only at flushes ⊢
          rw [flushes]
          exact ⟨rfl, rfl⟩
  | some file =>
      have counted : b.pptr.getD 0 ≤ b.m_buffer.length := by
        cases put : b.pptr with
        | some p => exact inside put
        | none => exact Nat.zero_le _
      have size : b.held.length = b.getSize := by
        rw [held_of_file isFile, getSize_of_file isFile, List.length_append, List.length_take,
          Nat.min_eq_left counted]
      refine ⟨?_, size⟩
      rw [held_of_file isFile, Option.getD_some]
      rw [isFile] at flushes
      cases put : b.pptr with
      | some p =>
          rw [put] at flushes
          obtain ⟨count, nothing | atEnd⟩ := flushes
          · subst nothing
            rw [count]
            exact (List.append_nil file.bytes).symm
          · rw [count, File.write_end atEnd, Option.getD_some]
      | none =>
          rw [flushCount_of_input put]
          exact (List.append_nil file.bytes).symm

theorem File.length_write {file : File} {bfr : Bytes} (some_ : bfr ≠ []) :
    (file.write bfr).bytes.length =
      max (file.offset + bfr.length) (file.bytes.length) := by
  unfold write
  rw [if_neg some_]
  simp only [List.length_append, List.length_take, List.length_replicate, List.length_drop]
  omega

/-- Nothing but such a flush releases all bytes, when the counts fit in an `int`. -/
theorem Sound.flushes (sound : Sound bufSize total b) (small : Counted bufSize total)
    (releases : b.Releases bufSize) : b.FlushesAll := by
  obtain ⟨bytes, size, _⟩ := releases
  have count {p : Nat} (put : b.pptr = some p) :
      b.flushCount = p ∧ (b.m_buffer.take p).length = p := by
    obtain ⟨inBuffer, written⟩ := sound.put p put
    have inside := inBuffer.trans sound.memory
    unfold Counted at small
    exact ⟨flushCount_of_output put inside (by omega), List.length_take_of_le inside⟩
  rw [released_eq] at bytes
  unfold TempFileBuffer.FlushesAll
  cases isFile : b.m_tempFile with
  | none =>
      cases put : b.pptr with
      | some p =>
          have get : b.gptr = none := by simpa [put] using sound.oneMode
          unfold TempFileBuffer.held TempFileBuffer.getSize at size
          rw [isFile, put, get] at size
          dsimp only at size
          rw [(count put).2] at size
          exact ⟨(count put).1, by simpa using size⟩
      | none =>
          rw [isFile, flushCount_of_input put, Option.getD_none, File.write_end rfl] at bytes
          rw [← bytes] at size
          exact size.symm
  | some file =>
      cases put : b.pptr with
      | some p =>
          refine ⟨(count put).1, ?_⟩
          rw [isFile, (count put).1, Option.getD_some, held_of_file isFile, put,
            Option.getD_some] at bytes
          by_cases nothing : p = 0
          · exact .inl nothing
          · have some_ : b.m_buffer.take p ≠ [] := by
              intro isEmpty
              exact nothing ((count put).2.symm.trans (congrArg List.length isEmpty))
            have length := congrArg List.length bytes
            rw [File.length_write some_, List.length_append, (count put).2] at length
            refine .inr ?_
            unfold File.size
            omega
      | none => exact trivial

end Release

section Calls

variable {bufSize total : Nat} {b : TempFileBuffer}

theorem Sound.new (memory : Vector UInt8 bufSize) : Sound bufSize 0 (.new memory) where
  size := rfl
  memory := memory.length_toList.ge
  put := by
    rintro p ⟨⟩
    exact ⟨Nat.zero_le _, le_rfl⟩
  get := nofun
  last _ := ⟨Nat.zero_le _, le_rfl⟩
  oneMode := .inr rfl

theorem Sound.mono {more : Nat} (sound : Sound bufSize total b) (le : total ≤ more) :
    Sound bufSize more b where
  size := sound.size
  memory := sound.memory
  put p put := ⟨(sound.put p put).1, (sound.put p put).2.trans le⟩
  get file area get := ⟨(sound.get file area get).1, (sound.get file area get).2.trans le⟩
  last file := ⟨(sound.last file).1, (sound.last file).2.trans le⟩
  oneMode := sound.oneMode

/-- A count that is stored in an `int` does not grow. -/
theorem toInt_toNat_le (count : Nat) : (toInt count).toNat ≤ count := by
  unfold toInt
  rw [Int.bmod_def]
  split <;> omega

theorem Sound.store {p : Nat} (sound : Sound bufSize total b) (put : b.pptr = some p)
    (room : p < bufSize) (c : UInt8) : Sound bufSize (total + 1) (b.store c p).2 where
  size := sound.size
  memory := sound.memory.trans List.length_set.ge
  put := by
    have written := (sound.put p put).2
    rintro _ ⟨⟩
    omega
  get file area get := (sound.mono (Nat.le_succ total)).get file area get
  last file := (sound.mono (Nat.le_succ total)).last file
  oneMode := by
    rcases sound.oneMode with none | none
    · cases none.symm.trans put
    · exact .inr none

/-- The flush leaves an empty put area. -/
theorem Sound.buffer_out (sound : Sound bufSize total b) (output : b.gptr = none) :
    Sound bufSize total b.buffer_out.2 where
  size := sound.size
  memory := sound.memory
  put := by
    rintro p ⟨⟩
    exact ⟨Nat.zero_le _, Nat.zero_le _⟩
  get := nofun
  last := nofun
  oneMode := .inr output

theorem Sound.overflowFull {p : Nat} (sound : Sound bufSize total b) (positive : 0 < bufSize)
    (put : b.pptr = some p) (c : UInt8) : Sound bufSize (total + 1) (b.overflowFull c).2 := by
  have output : b.gptr = none := by simpa [put] using sound.oneMode
  have flushed := sound.buffer_out output
  unfold TempFileBuffer.overflowFull
  dsimp only
  split
  · exact flushed.mono (Nat.le_succ total)
  · exact flushed.store rfl positive c

theorem Sound.switchToOutput (sound : Sound bufSize total b) :
    Sound bufSize total b.switchToOutput ∧ ∃ p, b.switchToOutput.pptr = some p := by
  unfold TempFileBuffer.switchToOutput
  split
  · next file =>
      have shorter := toInt_toNat_le b.m_writePos
      have last := sound.last file
      refine ⟨⟨sound.size, sound.memory, ?_, nofun, fun _ => last, .inr rfl⟩, _, rfl⟩
      intro p put
      obtain rfl := Option.mem_some.mp put
      exact ⟨shorter.trans last.1, shorter.trans last.2⟩
  · refine ⟨⟨sound.size, sound.memory, ?_, nofun, nofun, .inr rfl⟩, _, rfl⟩
    rintro p ⟨⟩
    exact ⟨Nat.zero_le _, Nat.zero_le _⟩

theorem Sound.sputc (sound : Sound bufSize total b) (positive : 0 < bufSize) (c : UInt8) :
    Sound bufSize (total + 1) (b.sputc c).2 := by
  obtain ⟨switched, q, putNow⟩ := sound.switchToOutput
  unfold TempFileBuffer.sputc TempFileBuffer.overflow
  cases put : b.pptr with
  | some p =>
      dsimp only
      split
      · next room => exact sound.store put (room.trans_eq sound.size) c
      · exact sound.overflowFull positive put c
  | none =>
      dsimp only
      rw [putNow, Option.getD_some]
      split
      · next room => exact switched.store putNow (room.trans_eq sound.size) c
      · exact switched.overflowFull positive putNow c

theorem Sound.putAll (positive : 0 < bufSize) (s : Bytes) : ∀ {b : TempFileBuffer} {total : Nat},
    Sound bufSize total b → Sound bufSize (total + s.length) (b.putAll s).2 := by
  induction s with
  | nil =>
      intro b total sound
      exact sound
  | cons c rest ih =>
      intro b total sound
      have stored := sound.sputc positive c
      rw [TempFileBuffer.putAll, List.length_cons]
      rcases isPut : b.sputc c with ⟨answer, next⟩
      rw [isPut] at stored
      cases answer with
      | none => exact stored.mono (by omega)
      | some d => exact (ih stored).mono (by omega)

theorem Sound.xsputn (sound : Sound bufSize total b) (positive : 0 < bufSize) (s : Bytes) :
    Sound bufSize (total + s.length) (b.xsputn s).2 := by
  unfold TempFileBuffer.xsputn
  split
  · next p put =>
      split
      · next room =>
          have size := sound.size
          have memory := sound.memory
          have bounds := sound.put p put
          have shorter := toInt_toNat_le s.length
          have longer := sound.mono (Nat.le_add_right total s.length)
          refine ⟨size, ?_, ?_, longer.get, longer.last, ?_⟩
          · simp only [List.length_append, List.length_take, List.length_drop]
            omega
          · intro q put
            obtain rfl := Option.mem_some.mp put
            omega
          · rcases sound.oneMode with none | none
            · cases none.symm.trans put
            · exact .inr none
      · exact Sound.putAll positive s sound
  · exact Sound.putAll positive s sound

/-- A read of the file fills the memory and the get area. -/
theorem buffer_in_eq {retval : Int} {filled : TempFileBuffer}
    (isIn : b.buffer_in = (retval, filled)) : ∃ file buffer get ended, filled = { b with
      m_tempFile := file
      m_buffer := buffer
      gptr := get
      m_isEOF := ended } ∧ b.m_buffer.length ≤ buffer.length ∧
    (file = none → b.m_tempFile = none ∧ get = none) ∧ (retval < 0 → get = none) := by
  cases isFile : b.m_tempFile with
  | none =>
      rw [buffer_in_memory isFile] at isIn
      obtain ⟨rfl, rfl⟩ := Prod.mk.inj isIn
      exact ⟨_, _, _, _, rfl, le_rfl, fun _ => ⟨rfl, rfl⟩, fun _ => rfl⟩
  | some file =>
      have longer (bfr : Bytes) :
          b.m_buffer.length ≤ (bfr ++ b.m_buffer.drop bfr.length).length := by
        rw [List.length_append, List.length_drop]
        omega
      unfold TempFileBuffer.buffer_in TempFileBuffer.buffer_from_device at isIn
      rw [isFile] at isIn
      dsimp only at isIn
      generalize toInt (List.length _) = count at isIn
      split at isIn
      · obtain ⟨rfl, rfl⟩ := Prod.mk.inj isIn
        exact ⟨_, _, _, _, rfl, longer _, nofun, fun _ => rfl⟩
      · next read =>
          obtain ⟨rfl, rfl⟩ := Prod.mk.inj isIn
          exact ⟨_, _, _, _, rfl, longer _, nofun, fun negative => absurd (le_of_lt negative) read⟩

/-- A fill in input mode keeps the buffer sound, and so does one that finds nothing. -/
theorem Sound.buffer_in {retval : Int} {filled : TempFileBuffer} (sound : Sound bufSize total b)
    (isIn : b.buffer_in = (retval, filled)) (input : b.pptr = none ∨ retval < 0) :
    Sound bufSize total filled := by
  obtain ⟨file, buffer, get, ended, rfl, longer, created, nothing⟩ := buffer_in_eq isIn
  exact {
    size := sound.size
    memory := sound.memory.trans longer
    put := sound.put
    get := by
      intro none area found
      obtain rfl := (created none).2
      cases found
    last := fun none => sound.last (created none).1
    oneMode := input.imp id nothing }

/-- A fill that ends the output mode keeps the buffer sound. -/
theorem Sound.fill {retval : Int} {filled : TempFileBuffer} (sound : Sound bufSize total b)
    (isIn : b.buffer_in = (retval, filled)) :
    Sound bufSize total { filled with pptr := none } := by
  obtain ⟨file, buffer, get, ended, rfl, longer, created, nothing⟩ := buffer_in_eq isIn
  exact {
    size := sound.size
    memory := sound.memory.trans longer
    put := nofun
    get := by
      intro none area found
      obtain rfl := (created none).2
      cases found
    last := fun none => sound.last (created none).1
    oneMode := .inl rfl }

theorem Sound.switchToInput (sound : Sound bufSize total b) (output : b.gptr = none) :
    Sound bufSize total b.switchToInput := by
  have flushed := sound.buffer_out output
  exact ⟨flushed.size, flushed.memory, flushed.put, nofun, nofun, flushed.oneMode⟩

theorem Sound.underflow (sound : Sound bufSize total b) :
    Sound bufSize total b.underflow.2 := by
  unfold TempFileBuffer.underflow
  split
  · exact sound
  · cases get : b.gptr with
    | some area =>
        have input : b.pptr = none := by simpa [get] using sound.oneMode
        generalize isIn : b.buffer_in = result
        obtain ⟨retval, filled⟩ := result
        have after := sound.buffer_in isIn (.inl input)
        dsimp only
        split <;> exact after
    | none =>
        cases file : b.m_tempFile with
        | some file =>
            have switched := sound.switchToInput get
            generalize isIn : b.switchToInput.buffer_in = result
            obtain ⟨retval, filled⟩ := result
            dsimp only
            split
            · next negative => exact switched.buffer_in isIn (.inr negative)
            · exact switched.fill isIn
        | none =>
            have ends : b.pptr.getD 0 ≤ bufSize ∧ b.pptr.getD 0 ≤ total := by
              cases put : b.pptr with
              | some p => exact sound.put p put
              | none => exact ⟨Nat.zero_le _, Nat.zero_le _⟩
            exact {
              size := sound.size
              memory := sound.memory
              put := nofun
              get := by
                rintro _ area ⟨⟩
                exact ends
              last := fun _ => ends
              oneMode := .inl rfl }

theorem Sound.gbump (sound : Sound bufSize total b) (count : Nat) :
    Sound bufSize total (b.gbump count) where
  size := sound.size
  memory := sound.memory
  put := sound.put
  get := by
    intro file area moved
    obtain ⟨before, get, rfl⟩ := Option.mem_map.mp moved
    exact sound.get file before get
  last := sound.last
  oneMode := sound.oneMode.imp id fun none => by rw [TempFileBuffer.gbump, none]; rfl

theorem Sound.uflow (sound : Sound bufSize total b) : Sound bufSize total b.uflow.2 := by
  have after := sound.underflow
  unfold TempFileBuffer.uflow
  rcases isRead : b.underflow with ⟨answer, next⟩
  rw [isRead] at after
  cases answer with
  | none => exact after
  | some c => exact after.gbump 1

theorem Sound.sbumpc (sound : Sound bufSize total b) : Sound bufSize total b.sbumpc.2 := by
  unfold TempFileBuffer.sbumpc
  split
  · split
    · exact sound.gbump 1
    · exact sound.uflow
  · exact sound.uflow

theorem Sound.xsgetn (bound : Nat) : ∀ {b : TempFileBuffer} {remaining : Nat}
    {result : Bytes × TempFileBuffer}, Sound bufSize total b →
      b.xsgetn bound remaining = some result → Sound bufSize total result.2 := by
  induction bound with
  | zero =>
      intro b remaining result sound isRead
      cases isRead
      exact sound
  | succ bound ih =>
      intro b remaining result sound isRead
      cases remaining with
      | zero =>
          cases isRead
          exact sound
      | succ remaining =>
          rw [TempFileBuffer.xsgetn] at isRead
          dsimp only at isRead
          split at isRead
          · cases isRead
          · split at isRead
            · cases isRead
              exact sound.gbump _
            · have refilled := (sound.gbump (min ((b.gptr.getD (0, 0)).2 - (b.gptr.getD (0, 0)).1)
                (remaining + 1))).uflow
              split at isRead
              · next after isFlow =>
                  cases isRead
                  rwa [isFlow] at refilled
              · next c after isFlow =>
                  rw [isFlow] at refilled
                  obtain ⟨more, isMore, rfl⟩ := Option.map_eq_some_iff.mp isRead
                  have last := ih refilled isMore
                  exact last

/-- A turn to the beginning of a file keeps the buffer sound. -/
theorem Sound.seek {file : File} (sound : Sound bufSize total b) (isFile : b.m_tempFile = some file) :
    Sound bufSize total { b with
      m_readPos := 0
      m_tempFile := b.m_tempFile.map fun file => file.seek 0
      gptr := some (0, 0)
      pptr := none
      m_isEOF := false } := by
  rw [isFile]
  exact ⟨sound.size, sound.memory, nofun, nofun, nofun, .inl rfl⟩

theorem Sound.rewind (sound : Sound bufSize total b) : Sound bufSize total b.rewind := by
  unfold TempFileBuffer.rewind
  split
  · next file isFile =>
      dsimp only
      split
      · next p put =>
          have output : b.gptr = none := by simpa [put] using sound.oneMode
          have moved : Sound bufSize total { b with m_writePos := b.m_writePos + p } :=
            ⟨sound.size, sound.memory, sound.put, sound.get, by simp [isFile], sound.oneMode⟩
          exact (moved.buffer_out output).seek rfl
      · exact sound.seek isFile
  · next isFile =>
      have bounds : ∀ writePos, writePos ≤ bufSize ∧ writePos ≤ total →
          Sound bufSize total { b with
            m_readPos := 0
            m_writePos := writePos
            gptr := some (0, writePos)
            pptr := none
            m_isEOF := false } := by
        intro writePos bounds
        refine ⟨sound.size, sound.memory, nofun, ?_, fun _ => bounds, .inl rfl⟩
        rintro _ area ⟨⟩
        exact bounds
      apply bounds
      cases put : b.pptr with
      | some p => exact sound.put p put
      | none =>
          cases get : b.gptr with
          | some area => exact sound.get isFile area get
          | none => exact sound.last isFile

theorem Sound.call (sound : Sound bufSize total b) (positive : 0 < bufSize)
    (operation : Operation) :
    Sound bufSize (total + operation.length) (b.call operation).2 := by
  cases operation with
  | transfer transfer =>
      cases transfer with
      | sputc c => exact sound.sputc positive c
      | sputn s => exact sound.xsputn positive s
      | sbumpc => exact sound.sbumpc
      | sgetn n =>
          change Sound bufSize total (b.transfer (.sgetn n)).2
          unfold TempFileBuffer.transfer
          dsimp only
          split
          · next s after isRead =>
              have last := Sound.xsgetn n sound isRead
              exact last
          · exact sound
  | getSize => exact sound
  | rewind => exact sound.rewind

/-- The buffer is sound after any calls. -/
theorem Sound.after (positive : 0 < bufSize) (operations : List Operation) :
    ∀ {b : TempFileBuffer} {total : Nat}, Sound bufSize total b →
      Sound bufSize (total + bytesWritten operations) (after b operations) := by
  induction operations with
  | nil =>
      intro b total sound
      exact sound
  | cons operation rest ih =>
      intro b total sound
      have last := ih (sound.call positive operation)
      have sum : bytesWritten (operation :: rest) = operation.length + bytesWritten rest := by
        simp [bytesWritten]
      rw [sum, ← Nat.add_assoc]
      exact last

end Calls

/-- After any calls the released file holds all bytes of the buffer, which is as new, when the flush
writes the whole put area at the end of the file, and only then as long as the counts fit in an
`int`. -/
theorem release_keeps_bytes_iff (bufSize : Nat) (positive : 1 ≤ bufSize)
    (memory : Vector UInt8 bufSize) (operations : List Operation) :
    ((after (.new memory) operations).FlushesAll →
      (after (.new memory) operations).Releases bufSize) ∧
    (Counted bufSize (bytesWritten operations) →
      (after (.new memory) operations).Releases bufSize →
        (after (.new memory) operations).FlushesAll) := by
  have sound := Sound.after positive operations (Sound.new memory)
  rw [Nat.zero_add] at sound
  exact ⟨sound.releases, sound.flushes⟩

/-- A block that goes through the file and a read, with a byte that is written behind it. -/
def spilledCalls : List Operation :=
  [.transfer (.sputn [1, 2, 3]), .transfer .sbumpc, .transfer (.sputc 4)]

theorem release_keeps_bytes_spilledCalls : (after (.new #v[0, 0]) spilledCalls).Releases 2 :=
  (release_keeps_bytes_iff 2 (by decide) #v[0, 0] spilledCalls).1 (by decide)

/-- The file of a buffer that is read in memory is empty. -/
theorem release_loses_bytes :
    ¬ ∀ (bufSize : Nat) (memory : Vector UInt8 bufSize) (operations : List Operation),
      1 ≤ bufSize → (after (.new memory) operations).Releases bufSize := by
  intro always
  have releases := always 4 #v[0, 0, 0, 0] [.transfer (.sputn [1, 2, 3]), .transfer .sbumpc]
    (by decide)
  exact absurd releases.bytes (by decide)

end Blocxx.TempFileStream
