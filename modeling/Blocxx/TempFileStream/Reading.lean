import Blocxx.TempFileStream.Refinement

/-!
This file proves that the reads of a `TempFileBuffer`, its size, and its rewind follow the contents.
-/

namespace Blocxx.TempFileStream

namespace Contents

variable (a : Contents)

/-- Something is left to read in output mode, unless the end was read or nothing was written. -/
def Behind : Prop :=
  a.output = true → a.atEnd = false → a.written ≠ [] → a.read < a.written.length

theorem toInput_of_input (input : a.output = false) : a.toInput = a := by
  cases a
  cases input
  rfl

theorem get_atEnd (atEnd : a.atEnd = true) : a.get = (none, a) := by
  unfold get
  rw [if_pos atEnd]

theorem get_end (going : a.atEnd = false) (all : a.read = a.written.length) :
    a.get = (none, { a.toInput with atEnd := true }) := by
  have none : a.unread = [] := List.drop_eq_nil_of_le (by omega)
  unfold get
  rw [if_neg (by simp [going]), none]

theorem get_next (going : a.atEnd = false) (inside : a.read < a.written.length) :
    a.get = (some a.written[a.read], a.toInput.skip 1) := by
  have next : a.unread = a.written[a.read] :: a.written.drop (a.read + 1) :=
    List.drop_eq_getElem_cons inside
  unfold get
  rw [if_neg (by simp [going]), next]

/-- A character is read in input mode. -/
theorem output_of_get {a later : Contents} {c : UInt8} (isGet : a.get = (some c, later)) :
    later.output = false := by
  unfold get at isGet
  split at isGet
  · cases isGet
  · split at isGet
    · cases isGet
    · obtain ⟨-, rfl⟩ := Prod.mk.inj isGet
      rfl

end Contents

/-- The buffer represents the contents between two calls. -/
structure Follows (bufSize : Nat) (b : TempFileBuffer) (a : Contents) : Prop where
  tracks : Tracks bufSize b a
  behind : a.Behind

/-- The buffer has never left its first output mode, and nothing was written. -/
def TempFileBuffer.Blank (b : TempFileBuffer) : Prop := b.pptr = some 0 ∧ b.m_tempFile = none

section Files

variable {b : TempFileBuffer} {file : File}

theorem buffer_in_memory (none : b.m_tempFile = none) :
    b.buffer_in = (-1, { b with gptr := .none, m_isEOF := true }) := by
  unfold TempFileBuffer.buffer_in TempFileBuffer.buffer_from_device
  rw [none]
  dsimp only
  rw [if_pos (by decide), none]

/-- At the end of the file nothing is read. -/
theorem buffer_in_end (isFile : b.m_tempFile = some file)
    (atEnd : file.bytes.length ≤ file.offset) :
    b.buffer_in = (-1, { b with gptr := none, m_isEOF := true }) := by
  have nothing : file.read (toSize (toInt b.m_bufSize)) = ([], file) := by
    unfold File.read
    rw [List.drop_eq_nil_of_le atEnd, List.take_nil]
    rfl
  unfold TempFileBuffer.buffer_in TempFileBuffer.buffer_from_device
  rw [isFile]
  dsimp only
  rw [nothing]
  dsimp only
  rw [if_pos (by decide), ← isFile]
  rfl

/-- Before the end of the file a chunk is read. -/
theorem buffer_in_chunk (isFile : b.m_tempFile = some file) (spilled : b.m_bufSize ≤ INT_MAX)
    {chunk : Bytes} (isChunk : (file.bytes.drop file.offset).take b.m_bufSize = chunk)
    (some_ : chunk ≠ []) :
    b.buffer_in = ((chunk.length : Int), { b with
      m_tempFile := some { file with offset := file.offset + chunk.length }
      m_buffer := chunk ++ b.m_buffer.drop chunk.length
      gptr := some (0, chunk.length) }) := by
  have bytes : file.read (toSize (toInt b.m_bufSize)) =
      (chunk, { file with offset := file.offset + chunk.length }) := by
    rw [toSize_toInt spilled]
    unfold File.read
    rw [isChunk]
  have positive := List.length_pos_iff.mpr some_
  have small : chunk.length ≤ INT_MAX := by
    rw [← isChunk, List.length_take]
    omega
  have notEnd : ¬ (chunk.length : Int) ≤ 0 := by omega
  unfold TempFileBuffer.buffer_in TempFileBuffer.buffer_from_device
  rw [isFile]
  dsimp only
  rw [bytes]
  dsimp only
  rw [toInt_of_le small, if_neg notEnd, Int.toNat_natCast]

end Files

section Characters

variable {bufSize : Nat} {b : TempFileBuffer} {a : Contents}

/-- A get area is there in input mode only. -/
theorem Tracks.area {g e : Nat} (tracks : Tracks bufSize b a) (get : b.gptr = some (g, e)) :
    g ≤ e ∧ b.pptr = none ∧ a.output = false ∧ a.atEnd = false := by
  cases tracks.shape with
  | memoryIn file put getHere fits content mark marked input going =>
      obtain ⟨rfl, rfl⟩ := Prod.mk.inj (Option.some.inj (getHere.symm.trans get))
      exact ⟨tracks.within, put, input, going⟩
  | fileIn isFile put getHere area content offset ahead chunk input going =>
      obtain ⟨rfl, rfl⟩ := Prod.mk.inj (Option.some.inj (getHere.symm.trans get))
      exact ⟨area.1, put, input, going⟩
  | memoryOut _ _ none | memoryEnd _ _ none | fileOut _ _ none | fileEnd _ _ none =>
      cases none.symm.trans get

/-- The bytes of the get area are the next of the contents. -/
theorem Tracks.advance {g e : Nat} (tracks : Tracks bufSize b a) (get : b.gptr = some (g, e))
    {len : Nat} (inside : g + len ≤ e) :
    (b.m_buffer.drop g).take len = a.unread.take len ∧ a.read + len ≤ a.written.length ∧
      Tracks bufSize (b.gbump len) (a.skip len) := by
  obtain ⟨size, positive, memory, ended, within, counted, shape⟩ := tracks
  have moved : (b.gbump len).gptr = some (g + len, e) := by
    unfold TempFileBuffer.gbump
    rw [get]
    rfl
  cases shape with
  | memoryIn file put getHere fits content mark marked input going =>
      obtain ⟨rfl, rfl⟩ := Prod.mk.inj (Option.some.inj (getHere.symm.trans get))
      refine ⟨?_, inside, size, positive, memory, ended, inside, counted,
        .memoryIn file put moved fits content mark marked input going⟩
      have next : a.unread.take len =
          (b.m_buffer.take a.written.length |>.drop a.read).take len := by
        rw [content]
        rfl
      rw [next, List.drop_take, List.take_take, Nat.min_eq_left (by omega)]
  | fileIn isFile put getHere area content offset ahead chunk input going =>
      obtain ⟨rfl, rfl⟩ := Prod.mk.inj (Option.some.inj (get.symm.trans getHere))
      have within' : a.read + len ≤ a.written.length := by omega
      refine ⟨?_, within', size, positive, memory, ended, within', counted, ?_⟩
      · have next := congrArg (List.take len) chunk
        rw [List.drop_take, List.take_take, List.take_take, Nat.min_eq_left (by omega)] at next
        exact next
      · refine .fileIn isFile put moved ⟨inside, area.2⟩ content ?_ ?_ ?_ input going
        · show _ = a.read + len + (e - (g + len))
          omega
        · show a.read + len + (e - (g + len)) ≤ a.written.length
          omega
        · have later := congrArg (List.drop len) chunk
          rw [List.drop_drop] at later
          refine later.trans ?_
          show _ = (a.written.drop (a.read + len)).take (e - (g + len))
          unfold Contents.unread
          rw [List.drop_take, List.drop_drop, Nat.sub_sub]
  | memoryOut _ _ none | memoryEnd _ _ none | fileOut _ _ none | fileEnd _ _ none =>
      cases none.symm.trans get

/-- The character at the get pointer is the next one. -/
theorem Tracks.current {g e : Nat} (tracks : Tracks bufSize b a) (get : b.gptr = some (g, e))
    (some_ : g < e) :
    ∃ inside : a.read < a.written.length, b.current = a.written[a.read] := by
  obtain ⟨same, within, -⟩ := tracks.advance get (by omega : g + 1 ≤ e)
  refine ⟨by omega, ?_⟩
  have next : a.unread = a.written[a.read] :: a.written.drop (a.read + 1) :=
    List.drop_eq_getElem_cons (by omega)
  have first : b.current = ((b.m_buffer.drop g).take 1).headD 0 := by
    unfold TempFileBuffer.current
    rw [get]
    simp [List.getD_eq_getElem?_getD, List.head?_take, List.headD_eq_head?_getD]
  rw [first, same, next]
  rfl

/-- A file that is read on from the position of the contents fills the get area. -/
theorem fill_tracks {file : File} (size : b.m_bufSize = bufSize) (positive : 0 < b.m_bufSize)
    (memory : b.m_buffer.length = b.m_bufSize) (spilled : b.m_bufSize ≤ INT_MAX)
    (isFile : b.m_tempFile = some file) (content : file.bytes = a.written)
    (offset : file.offset = a.read) (ended : b.m_isEOF = a.atEnd) (going : a.atEnd = false)
    (inside : a.read < a.written.length) :
    ∃ chunk filled, b.buffer_in = (chunk, filled) ∧ ¬ chunk < 0 ∧
      Tracks bufSize { filled with pptr := none } a.toInput ∧
      (∃ e, filled.gptr = some (0, e) ∧ 0 < e) ∧ filled.pptr = b.pptr ∧
      (filled.m_writePos = b.m_writePos ∧
        ∀ after ∈ filled.m_tempFile, after.bytes = file.bytes) := by
  obtain ⟨chunk, isChunk⟩ : ∃ chunk, (file.bytes.drop file.offset).take b.m_bufSize = chunk :=
    ⟨_, rfl⟩
  have unread : a.unread.take b.m_bufSize = chunk := by
    rw [← isChunk, content, offset]
    rfl
  have lengths : chunk.length = min b.m_bufSize (a.written.length - a.read) := by
    rw [← unread, List.length_take, Contents.unread, List.length_drop]
  have some_ : chunk ≠ [] := List.length_pos_iff.mp (by omega)
  refine ⟨_, _, buffer_in_chunk isFile spilled isChunk some_, by omega, ?_,
    ⟨_, rfl, by omega⟩, rfl, rfl, ?_⟩
  · refine ⟨size, positive, ?_, ended, inside.le, fun _ => spilled, ?_⟩
    · simp only [List.length_append, List.length_drop]
      omega
    refine .fileIn rfl rfl rfl ⟨Nat.zero_le _, ?_⟩ content ?_ ?_ ?_ rfl going
    · show chunk.length ≤ b.m_bufSize
      omega
    · exact congrArg (· + chunk.length) offset
    · show a.read + (chunk.length - 0) ≤ a.written.length
      omega
    · show ((chunk ++ b.m_buffer.drop chunk.length).take chunk.length).drop 0 =
        a.unread.take (chunk.length - 0)
      rw [List.take_left, List.drop_zero, Nat.sub_zero, ← unread, List.length_take,
        List.take_eq_take_min]
  · rintro after ⟨⟩
    rfl

/-- The turn to input flushes what was written and goes to the read position. -/
theorem switchToInput_eq {file : File} {pending : Nat} (isFile : b.m_tempFile = some file)
    (put : b.pptr = some pending) (small : pending ≤ INT_MAX)
    (content : file.bytes ++ b.m_buffer.take pending = a.written)
    (offset : file.offset = file.bytes.length) (position : b.m_readPos = a.read) :
    b.switchToInput = { b with
      m_writePos := a.written.length
      m_tempFile := some ⟨a.written, a.read⟩
      pptr := some 0 } := by
  have here : b.m_tempFile.getD ⟨[], 0⟩ = file := by rw [isFile, Option.getD_some]
  have flush := buffer_out_eq put small (by rw [here]; exact offset)
  rw [here, content] at flush
  unfold TempFileBuffer.switchToInput
  rw [flush]
  simp only [Option.map_some, Option.getD_some, File.tell, File.seek, position]

/-- The outcome of a read that finds the get area empty: the end, or a get area that starts with
the next character. -/
inductive Refill (bufSize : Nat) (b : TempFileBuffer) (a : Contents) :
    Option UInt8 × TempFileBuffer → Prop
  | atEnd {after : TempFileBuffer} (none : a.get.1 = none) (tracks : Tracks bufSize after a.get.2)
      (ready : b.WriteReady → after.WriteReady) : Refill bufSize b a (.none, after)
  | filled {after : TempFileBuffer} {g e : Nat} (inside : a.read < a.written.length)
      (going : a.atEnd = false) (tracks : Tracks bufSize after a.toInput)
      (get : after.gptr = some (g, e)) (some_ : g < e) (ready : b.WriteReady → after.WriteReady) :
      Refill bufSize b a (some after.current, after)

theorem underflow_refill (follows : Follows bufSize b a) (notBlank : ¬ b.Blank)
    (empty : ∀ g e, b.gptr = some (g, e) → e ≤ g) : Refill bufSize b a b.underflow := by
  obtain ⟨tracks, behind⟩ := follows
  have ⟨size, positive, memory, ended, within, counted, shape⟩ := tracks
  have noFile (file : b.m_tempFile = none) {after : TempFileBuffer}
      (same : after.m_tempFile = none) :
      b.WriteReady → after.WriteReady := by
    intro _ _ file isFile
    cases same.symm.trans isFile
  unfold TempFileBuffer.underflow
  by_cases stopped : a.atEnd = true
  · rw [if_pos (ended.trans stopped)]
    have get := a.get_atEnd stopped
    exact .atEnd (by rw [get]) (by rwa [get]) id
  have going : a.atEnd = false := Bool.eq_false_iff.mpr stopped
  rw [if_neg (by rw [ended]; exact stopped)]
  cases shape with
  | memoryEnd _ _ _ _ _ _ _ _ stopped' | fileEnd _ _ _ _ _ stopped' => exact absurd stopped' stopped
  | memoryOut file put get fits content position mark output =>
      have written : a.written ≠ [] := by
        intro nothing
        rw [nothing] at put
        exact notBlank ⟨put, file⟩
      have inside := behind output going written
      have input : Tracks bufSize { b with
          m_tempFile := none
          m_readPos := a.read
          m_writePos := a.written.length
          gptr := some (a.read, a.written.length)
          pptr := none } a.toInput := by
        refine ⟨size, positive, memory, ended, within, fun spilled => absurd rfl spilled, ?_⟩
        have marked : a.toInput.mark = a.written.length := if_pos output
        exact .memoryIn rfl rfl rfl fits content marked.symm marked rfl going
      rw [get, file]
      dsimp only
      rw [put, position going, Option.getD_some]
      exact .filled inside going input rfl inside (noFile file rfl)
  | memoryIn file put get fits content mark marked input going =>
      have all : a.read = a.written.length := within.antisymm (empty _ _ get)
      have atEnd := a.get_end going all
      rw [get]
      dsimp only
      rw [buffer_in_memory file]
      refine .atEnd (by rw [atEnd]) ?_ (noFile file file)
      rw [atEnd, a.toInput_of_input input]
      exact ⟨size, positive, memory, rfl, within, counted,
        .memoryEnd file put rfl fits content mark marked input rfl⟩
  | fileOut isFile put get fits content offset position =>
      have spilled : b.m_bufSize ≤ INT_MAX := counted (by simp [isFile])
      have switch :=
        switchToInput_eq isFile put (fits.trans spilled) content offset (position going)
      have readyAfter {after : TempFileBuffer} (write : after.m_writePos = a.written.length)
          (bytes : ∀ file ∈ after.m_tempFile, file.bytes = a.written) :
          b.WriteReady → after.WriteReady := by
        intro _ _ file isAfter
        rw [write, File.size, bytes file isAfter]
      rcases within.lt_or_eq with inside | all
      · obtain ⟨count, filled, fill, notEnd, tracks, ⟨e, area, some_⟩, -, writeSame, bytes⟩ :=
          @fill_tracks bufSize { b with
            m_writePos := a.written.length
            m_tempFile := some ⟨a.written, a.read⟩
            pptr := some 0 } a ⟨a.written, a.read⟩ size positive memory spilled rfl rfl rfl ended
            going inside
        -- The pair is there before the match is reduced, since its parts are costly to compute.
        rw [get, isFile, switch, fill]
        dsimp only
        rw [if_neg notEnd]
        exact .filled inside going tracks area some_ (readyAfter writeSame bytes)
      · have atEnd := a.get_end going all
        have fill := @buffer_in_end { b with
          m_writePos := a.written.length
          m_tempFile := some ⟨a.written, a.read⟩
          pptr := some 0 } ⟨a.written, a.read⟩ rfl all.ge
        rw [get, isFile, switch, fill]
        dsimp only
        refine .atEnd (by rw [atEnd]) ?_ (readyAfter rfl ?_)
        · rw [atEnd]
          exact ⟨size, positive, memory, rfl, within, fun _ => spilled,
            .fileOut rfl rfl rfl (Nat.zero_le _) (List.append_nil _) all
              (fun going => by cases going)⟩
        · rintro file ⟨⟩
          rfl
  | @fileIn file g e isFile put get area content offset ahead chunk input going =>
      have drained : e = g := (empty g e get).antisymm area.1
      have start : file.offset = a.read := by
        rw [offset, drained]
        omega
      have spilled : b.m_bufSize ≤ INT_MAX := counted (by simp [isFile])
      rw [get]
      dsimp only
      rcases within.lt_or_eq with inside | all
      · obtain ⟨count, filled, fill, notEnd, tracks, ⟨e, area, some_⟩, putSame, writeSame, bytes⟩ :=
          fill_tracks size positive memory spilled isFile content start ended going inside
        have same : { filled with pptr := none } = filled := by
          rw [← put, ← putSame]
        rw [same] at tracks
        rw [fill]
        dsimp only
        rw [if_neg notEnd]
        refine .filled inside going tracks area some_ ?_
        intro ready none after isAfter
        rw [writeSame, ready put file isFile, File.size, File.size, bytes after isAfter]
      · have atEnd := a.get_end going all
        rw [buffer_in_end isFile (by rw [content, start, all])]
        refine .atEnd (by rw [atEnd]) ?_ ?_
        · rw [atEnd, a.toInput_of_input input]
          exact ⟨size, positive, memory, rfl, within, counted,
            .fileEnd isFile put rfl content input rfl⟩
        · intro ready none
          exact ready put

/-- A read answers as the contents do, and the buffer goes on to represent them. -/
structure Answers (bufSize : Nat) (b : TempFileBuffer) (a : Contents)
    (result : Option UInt8 × TempFileBuffer) : Prop where
  answer : result.1 = a.get.1
  follows : Follows bufSize result.2 a.get.2
  ready : b.WriteReady → result.2.WriteReady

theorem Contents.Behind.get (behind : a.Behind) : a.get.2.Behind := by
  unfold Contents.get
  split
  · exact behind
  · split
    · intro output
      cases output
    · intro output
      cases output

/-- The step to the next character. -/
theorem gbump_answers {after : TempFileBuffer} {g e : Nat} (inside : a.read < a.written.length)
    (going : a.atEnd = false) (tracks : Tracks bufSize after a.toInput)
    (get : after.gptr = some (g, e)) (some_ : g < e) (ready : b.WriteReady → after.WriteReady) :
    Answers bufSize b a (some after.current, after.gbump 1) := by
  obtain ⟨_, isNext⟩ := tracks.current get some_
  have moved := (tracks.advance get (by omega : g + 1 ≤ e)).2.2
  have next := a.get_next going inside
  refine ⟨?_, ⟨?_, ?_⟩, ready⟩
  · rw [next]
    exact congrArg some isNext
  · rw [next]
    exact moved
  · rw [next]
    intro output
    cases output

theorem uflow_answers (follows : Follows bufSize b a) (notBlank : ¬ b.Blank)
    (empty : ∀ g e, b.gptr = some (g, e) → e ≤ g) : Answers bufSize b a b.uflow := by
  unfold TempFileBuffer.uflow
  have refill := underflow_refill follows notBlank empty
  generalize b.underflow = result at refill
  cases refill with
  | atEnd none tracks ready => exact ⟨none.symm, ⟨tracks, follows.behind.get⟩, ready⟩
  | filled inside going tracks get some_ ready =>
      exact gbump_answers inside going tracks get some_ ready

/-- The read of one character. -/
theorem sbumpc_answers (follows : Follows bufSize b a) (notBlank : ¬ b.Blank) :
    Answers bufSize b a b.sbumpc := by
  unfold TempFileBuffer.sbumpc
  cases get : b.gptr with
  | none =>
      refine uflow_answers follows notBlank ?_
      intro g e isSome
      cases get.symm.trans isSome
  | some area =>
      obtain ⟨g, e⟩ := area
      dsimp only
      split
      · next some_ =>
          obtain ⟨-, -, input, going⟩ := follows.tracks.area get
          obtain ⟨inside, -⟩ := follows.tracks.current get some_
          refine gbump_answers inside going ?_ get some_ id
          rw [a.toInput_of_input input]
          exact follows.tracks
      · next empty =>
          refine uflow_answers follows notBlank ?_
          intro g' e' isSome
          obtain ⟨rfl, rfl⟩ := Prod.mk.inj (Option.some.inj (get.symm.trans isSome))
          omega

/-- In input mode a buffer is not blank. -/
theorem Tracks.notBlank (tracks : Tracks bufSize b a) (input : a.output = false) : ¬ b.Blank := by
  rintro ⟨put, noFile⟩
  cases tracks.shape with
  | memoryOut _ _ _ _ _ _ _ output => cases output.symm.trans input
  | memoryIn _ none | memoryEnd _ none | fileIn _ none | fileEnd _ none =>
      cases none.symm.trans put
  | fileOut isFile => cases noFile.symm.trans isFile

end Characters

section Blocks

variable {bufSize : Nat}

/-- As many characters as are left are read one by one, without a turn. -/
theorem Contents.getAll_bulk {len : Nat} : ∀ {a : Contents}, a.atEnd = false → a.output = false →
    a.read + len ≤ a.written.length → ∀ more,
      a.getAll (len + more) =
        (a.unread.take len ++ ((a.skip len).getAll more).1, ((a.skip len).getAll more).2) := by
  induction len with
  | zero =>
      intro a going input within more
      rw [Nat.zero_add]
      rfl
  | succ len ih =>
      intro a going input within more
      have inside : a.read < a.written.length := by omega
      have next : a.unread = a.written[a.read] :: (a.skip 1).unread :=
        List.drop_eq_getElem_cons inside
      have count : len + 1 + more = len + more + 1 := by omega
      have place : (a.skip 1).skip len = a.skip (len + 1) := by
        unfold Contents.skip
        dsimp only
        rw [Nat.add_assoc, Nat.add_comm 1]
      have withinNext : (a.skip 1).read + len ≤ a.written.length := by
        show a.read + 1 + len ≤ _
        omega
      rw [count, Contents.getAll, a.get_next going inside, a.toInput_of_input input]
      dsimp only
      rw [@ih (a.skip 1) going input withinNext more, next, place]
      rfl

/-- The bulk copy from the get area reads as many characters of the contents. -/
theorem bulk_spec {b : TempFileBuffer} {a : Contents} {g e len : Nat}
    (follows : Follows bufSize b a) (isArea : b.gptr.getD (0, 0) = (g, e)) (few : len ≤ e - g) :
    g ≤ e ∧ (b.m_buffer.drop g).take len = a.unread.take len ∧
      (∀ more, a.getAll (len + more) =
        (a.unread.take len ++ ((a.skip len).getAll more).1, ((a.skip len).getAll more).2)) ∧
      Follows bufSize (b.gbump len) (a.skip len) ∧
      (len = e - g → ∀ g' e', (b.gbump len).gptr = some (g', e') → e' ≤ g') := by
  cases get : b.gptr with
  | none =>
      rw [get] at isArea
      obtain ⟨rfl, rfl⟩ := Prod.mk.inj isArea
      obtain rfl := Nat.le_zero.mp few
      have same : b.gbump 0 = b := by
        unfold TempFileBuffer.gbump
        rw [get, Option.map_none, ← get]
      refine ⟨le_rfl, rfl, ?_, ?_, ?_⟩
      · intro more
        rw [Nat.zero_add]
        rfl
      · rw [same]
        exact follows
      · intro _ g' e' isSome
        rw [same, get] at isSome
        cases isSome
  | some area =>
      rw [get] at isArea
      obtain rfl : area = (g, e) := isArea
      obtain ⟨tracks, behind⟩ := follows
      obtain ⟨order, -, input, going⟩ := tracks.area get
      obtain ⟨taken, within, moved⟩ := tracks.advance get (by omega : g + len ≤ e)
      refine ⟨order, taken, Contents.getAll_bulk going input within, ⟨moved, ?_⟩, ?_⟩
      · intro output
        cases input.symm.trans output
      · intro all g' e' isSome
        have here : (b.gbump len).gptr = some (g + len, e) := by
          unfold TempFileBuffer.gbump
          rw [get]
          rfl
        obtain ⟨rfl, rfl⟩ := Prod.mk.inj (Option.some.inj (here.symm.trans isSome))
        omega

/-- A block read answers with the characters up to the end. -/
theorem xsgetn_answers {bound : Nat} : ∀ {remaining : Nat} {b : TempFileBuffer} {a : Contents},
    remaining ≤ bound → Follows bufSize b a → (remaining ≠ 0 → ¬ b.Blank) →
      ∃ after, b.xsgetn bound remaining = some ((a.getAll remaining).1, after) ∧
        Follows bufSize after (a.getAll remaining).2 ∧ (b.WriteReady → after.WriteReady) := by
  induction bound with
  | zero =>
      intro remaining b a most follows notBlank
      obtain rfl := Nat.le_zero.mp most
      exact ⟨b, rfl, follows, id⟩
  | succ bound ih =>
      intro remaining b a most follows notBlank
      cases remaining with
      | zero => exact ⟨b, rfl, follows, id⟩
      | succ remaining =>
          obtain ⟨⟨g, e⟩, isArea⟩ : ∃ area, b.gptr.getD (0, 0) = area := ⟨_, rfl⟩
          obtain ⟨len, isLen⟩ : ∃ len, min (e - g) (remaining + 1) = len := ⟨_, rfl⟩
          obtain ⟨order, taken, bulk, copied, drained⟩ :=
            bulk_spec follows isArea (by omega : len ≤ e - g)
          rw [TempFileBuffer.xsgetn, isArea]
          dsimp only
          rw [if_neg (by omega), isLen, taken]
          by_cases enough : len = remaining + 1
          · have all := bulk 0
            rw [Nat.add_zero, enough] at all
            rw [if_pos enough, enough, all]
            rw [enough] at copied
            exact ⟨_, by rw [Contents.getAll, List.append_nil], copied, id⟩
          · have count : remaining + 1 = len + (remaining - len + 1) := by omega
            have uflow := uflow_answers copied (notBlank (by omega)) (drained (by omega))
            rw [if_neg enough, count, bulk, Contents.getAll]
            obtain ⟨⟨answer, next⟩, isUflow⟩ : ∃ result, (b.gbump len).uflow = result := ⟨_, rfl⟩
            rw [isUflow] at uflow ⊢
            obtain ⟨isAnswer, followsNext, ready⟩ := uflow
            obtain ⟨⟨character, later⟩, isGet⟩ : ∃ result, (a.skip len).get = result := ⟨_, rfl⟩
            rw [isGet] at isAnswer followsNext ⊢
            obtain rfl : answer = character := isAnswer
            cases answer with
            | none => exact ⟨next, by rw [List.append_nil], followsNext, ready⟩
            | some c =>
                have notBlankNext : ¬ next.Blank :=
                  followsNext.tracks.notBlank (Contents.output_of_get isGet)
                obtain ⟨after, read, followsAfter, readyAfter⟩ :=
                  ih (by omega : remaining - len ≤ bound) followsNext fun _ => notBlankNext
                refine ⟨after, ?_, followsAfter, fun ready' => readyAfter (ready ready')⟩
                dsimp only
                rw [read]
                rfl

end Blocks

section Whole

variable {bufSize : Nat} {b : TempFileBuffer} {a : Contents}

/-- A buffer in memory counts the bytes before its last turn to input twice in output mode. -/
def TempFileBuffer.Miscounts (b : TempFileBuffer) : Prop :=
  b.m_tempFile = none ∧ b.pptr ≠ none ∧ b.m_writePos ≠ 0

instance (b : TempFileBuffer) : Decidable b.Miscounts := inferInstanceAs (Decidable (_ ∧ _ ∧ _))

theorem getSize_eq (tracks : Tracks bufSize b a) :
    b.getSize = a.written.length + (if b.Miscounts then a.mark else 0) := by
  have once (isSize : b.getSize = a.written.length) (right : ¬ b.Miscounts) :
      b.getSize = a.written.length + (if b.Miscounts then a.mark else 0) := by
    rw [isSize, if_neg right, add_zero]
  have input (none : b.pptr = none) : ¬ b.Miscounts := fun miscounts => miscounts.2.1 none
  have spilled {file : File} (isFile : b.m_tempFile = some file) : ¬ b.Miscounts :=
    fun miscounts => by cases isFile.symm.trans miscounts.1
  cases tracks.shape with
  | memoryOut file put get fits content position mark output =>
      have isSize : b.getSize = a.mark + a.written.length := by
        unfold TempFileBuffer.getSize
        rw [get, file, put, ← mark]
        rfl
      by_cases start : a.mark = 0
      · have right : ¬ b.Miscounts := fun miscounts => miscounts.2.2 (mark.trans start)
        exact once (by rw [isSize, start, zero_add]) right
      · have twice : b.Miscounts := ⟨file, by simp [put], by rwa [mark]⟩
        rw [isSize, if_pos twice, add_comm]
  | memoryIn file put get =>
      refine once ?_ (input put)
      unfold TempFileBuffer.getSize
      rw [get, file]
  | memoryEnd file put get fits content mark marked =>
      refine once ?_ (input put)
      unfold TempFileBuffer.getSize
      rw [get, file, put, ← marked, ← mark]
      rfl
  | fileOut isFile put get fits content =>
      have all := congrArg List.length content
      rw [List.length_append, List.length_take, tracks.memory, Nat.min_eq_left fits] at all
      refine once ?_ (spilled isFile)
      unfold TempFileBuffer.getSize
      rw [get, isFile, put]
      exact all
  | fileIn isFile put get area content =>
      refine once ?_ (spilled isFile)
      unfold TempFileBuffer.getSize
      rw [get, isFile, put, ← content]
      rfl
  | fileEnd isFile put get content =>
      refine once ?_ (spilled isFile)
      unfold TempFileBuffer.getSize
      rw [get, isFile, put, ← content]
      rfl

theorem rewind_follows (tracks : Tracks bufSize b a) : Follows bufSize b.rewind a.rewind := by
  refine ⟨?_, fun output => by cases output⟩
  obtain ⟨size, positive, memory, ended, within, counted, shape⟩ := tracks
  have inMemory (file : b.m_tempFile = none) {writePos : Nat} (isEnd : writePos = a.written.length)
      (fits : a.written.length ≤ b.m_bufSize)
      (content : b.m_buffer.take a.written.length = a.written) :
      Tracks bufSize { b with
        m_tempFile := none
        m_readPos := 0
        m_writePos := writePos
        gptr := some (0, writePos)
        pptr := none
        m_isEOF := false } a.rewind := by
    rw [isEnd]
    exact ⟨size, positive, memory, rfl, Nat.zero_le _, fun spilled => absurd rfl spilled,
      .memoryIn rfl rfl rfl fits content rfl rfl rfl rfl⟩
  have inFile {writePos : Nat} {file : File} (spilled : b.m_bufSize ≤ INT_MAX)
      (content : file.bytes = a.written) :
      Tracks bufSize { b with
        m_tempFile := some (file.seek 0)
        m_readPos := 0
        m_writePos := writePos
        gptr := some (0, 0)
        pptr := none
        m_isEOF := false } a.rewind :=
    ⟨size, positive, memory, rfl, Nat.zero_le _, fun _ => spilled,
      .fileIn rfl rfl rfl ⟨le_rfl, Nat.zero_le _⟩ content rfl (Nat.zero_le _)
        (by rw [Nat.sub_self, List.take_zero]; rfl) rfl rfl⟩
  unfold TempFileBuffer.rewind
  cases shape with
  | memoryOut file put get fits content =>
      rw [file, put]
      exact inMemory file rfl fits content
  | memoryIn file put get fits content =>
      rw [file, put, get]
      exact inMemory file rfl fits content
  | memoryEnd file put get fits content mark marked =>
      rw [file, put, get]
      exact inMemory file (mark.trans marked) fits content
  | @fileOut file pending isFile put get fits content offset =>
      have spilled : b.m_bufSize ≤ INT_MAX := counted (by simp [isFile])
      have here : b.m_tempFile.getD ⟨[], 0⟩ = file := by rw [isFile, Option.getD_some]
      have flush := @buffer_out_eq { b with m_writePos := b.m_writePos + pending } pending put
        (fits.trans spilled) (by rw [here]; exact offset)
      dsimp only at flush
      rw [here, content, put] at flush
      rw [put]
      dsimp only
      rw [flush]
      split
      · exact inFile spilled rfl
      · next none => cases isFile.symm.trans none
  | fileIn isFile put get area content =>
      rw [isFile, put]
      dsimp only
      rw [isFile, Option.map_some]
      exact inFile (counted (by simp [isFile])) content
  | fileEnd isFile put get content =>
      rw [isFile, put]
      dsimp only
      rw [isFile, Option.map_some]
      exact inFile (counted (by simp [isFile])) content

end Whole

end Blocxx.TempFileStream
