import Blocxx.TempFileStream.Reading

/-!
This file settles when a `TempFileBuffer` that is only written and read is a queue of bytes.
-/

namespace Blocxx.TempFileStream

/-- The writes and reads of one character and of a block. -/
inductive Transfer where
  | sputc (c : UInt8)
  | sputn (s : Bytes)
  | sbumpc
  | sgetn (n : Nat)
  deriving DecidableEq

/-- No character is EOF. A block read without an answer is undefined. -/
inductive Answer where
  | character (c : Option UInt8)
  | block (s : Option Bytes)
  | count (n : Nat)
  | done
  deriving DecidableEq

/-- How many bytes the transfer writes. -/
def Transfer.length : Transfer → Nat
  | .sputc _ => 1
  | .sputn s => s.length
  | .sbumpc | .sgetn _ => 0

def TempFileBuffer.transfer (b : TempFileBuffer) : Transfer → Answer × TempFileBuffer
  | .sputc c => (.character (b.sputc c).1, (b.sputc c).2)
  | .sputn s => (.count (b.xsputn s).1, (b.xsputn s).2)
  | .sbumpc => (.character b.sbumpc.1, b.sbumpc.2)
  | .sgetn n =>
      match b.sgetn n with
      | some (s, after) => (.block (some s), after)
      | none => (.block none, b)

def Contents.transfer (a : Contents) : Transfer → Answer × Contents
  | .sputc c => (.character (some c), a.put c)
  | .sputn s => (.count s.length, a.putAll s)
  | .sbumpc => (.character a.get.1, a.get.2)
  | .sgetn n => (.block (some (a.getAll n).1), (a.getAll n).2)

/-- The transfer neither writes behind a lost write position nor reads a blank buffer. -/
def Transfer.Safe (b : TempFileBuffer) : Transfer → Prop
  | .sputc _ => b.WriteReady
  | .sputn s => s ≠ [] → b.WriteReady
  | .sbumpc => ¬ b.Blank
  | .sgetn n => n ≠ 0 → ¬ b.Blank

section Decidable

variable (b : TempFileBuffer)

instance : Decidable b.WriteReady :=
  inferInstanceAs (Decidable (_ → ∀ file ∈ b.m_tempFile, _))

instance : Decidable b.Blank := inferInstanceAs (Decidable (_ ∧ _))

instance (transfer : Transfer) : Decidable (transfer.Safe b) := by
  cases transfer <;> unfold Transfer.Safe <;> infer_instance

end Decidable

section Steps

variable {bufSize : Nat} {b : TempFileBuffer} {a : Contents}

theorem Contents.written_get : a.get.2.written = a.written := by
  unfold get
  split
  · rfl
  · split <;> rfl

theorem Contents.written_getAll (n : Nat) : ∀ a : Contents, (a.getAll n).2.written = a.written := by
  induction n with
  | zero =>
      intro a
      rfl
  | succ n ih =>
      intro a
      have same := a.written_get
      rw [getAll]
      rcases isGet : a.get with ⟨answer, after⟩
      rw [isGet] at same
      cases answer with
      | none => exact same
      | some c => exact (ih after).trans same

theorem Contents.length_transfer (transfer : Transfer) :
    (a.transfer transfer).2.written.length = a.written.length + transfer.length := by
  cases transfer with
  | sputc c => exact List.length_append
  | sputn s =>
      show (a.putAll s).written.length = a.written.length + s.length
      rw [putAll_eq]
      split
      · next isEmpty =>
          rw [isEmpty]
          rfl
      · exact List.length_append
  | sbumpc => exact congrArg List.length a.written_get
  | sgetn n => exact congrArg List.length (written_getAll n a)

/-- One safe transfer answers as the contents do. -/
theorem transfer_follows {transfer : Transfer} (follows : Follows bufSize b a)
    (safe : transfer.Safe b) (small : Counted bufSize (a.written.length + transfer.length)) :
    (b.transfer transfer).1 = (a.transfer transfer).1 ∧
      Follows bufSize (b.transfer transfer).2 (a.transfer transfer).2 ∧
      (b.WriteReady → (b.transfer transfer).2.WriteReady) := by
  obtain ⟨tracks, behind⟩ := follows
  cases transfer with
  | sputc c =>
      have smallHere : Counted bufSize a.written.length := by
        unfold Counted at small ⊢
        omega
      obtain ⟨answer, after, output⟩ := sputc_tracks tracks safe smallHere c
      refine ⟨congrArg Answer.character answer, ⟨after, ?_⟩, fun _ none => absurd none output⟩
      intro _ _ _
      show a.read < (a.written ++ [c]).length
      rw [List.length_append]
      exact Nat.lt_succ_of_le tracks.within
  | sputn s =>
      obtain ⟨answer, after, ready⟩ := xsputn_tracks tracks safe small
      refine ⟨congrArg Answer.count answer, ⟨after, ?_⟩, ready⟩
      show (a.putAll s).Behind
      rw [putAll_eq]
      split
      · exact behind
      · next some_ =>
          intro _ _ _
          have within := tracks.within
          have positive := List.length_pos_iff.mpr some_
          show a.read < (a.written ++ s).length
          rw [List.length_append]
          omega
  | sbumpc =>
      obtain ⟨answer, after, ready⟩ := sbumpc_answers ⟨tracks, behind⟩ safe
      exact ⟨congrArg Answer.character answer, after, ready⟩
  | sgetn n =>
      obtain ⟨after, read, followsAfter, ready⟩ := xsgetn_answers le_rfl ⟨tracks, behind⟩ safe
      have isRead : b.sgetn n = some ((a.getAll n).1, after) := read
      have transferred : b.transfer (.sgetn n) = (.block (some (a.getAll n).1), after) := by
        unfold TempFileBuffer.transfer
        dsimp only
        rw [isRead]
      rw [transferred]
      exact ⟨rfl, followsAfter, ready⟩

end Steps

section Queue

/-- Writes go to the back of a queue of bytes, and reads come from its front. -/
def queueTransfer (queue : Bytes) : Transfer → Answer × Bytes
  | .sputc c => (.character (some c), queue ++ [c])
  | .sputn s => (.count s.length, queue ++ s)
  | .sbumpc => (.character queue.head?, queue.tail)
  | .sgetn n => (.block (some (queue.take n)), queue.drop n)

/-- The answers of a run of transfers. -/
def answers {State : Type} (step : State → Transfer → Answer × State) :
    State → List Transfer → List Answer
  | _, [] => []
  | state, transfer :: rest => (step state transfer).1 :: answers step (step state transfer).2 rest

/-- A read comes after the first byte was written, and once a read found the end no read comes
after more bytes were written. -/
def Transfer.InOrder (a : Contents) : Transfer → Prop
  | .sputc _ | .sputn _ => True
  | .sbumpc => a.written ≠ [] ∧ (a.atEnd = true → a.unread = [])
  | .sgetn n => n ≠ 0 → a.written ≠ [] ∧ (a.atEnd = true → a.unread = [])

instance (a : Contents) (transfer : Transfer) : Decidable (transfer.InOrder a) := by
  cases transfer <;> unfold Transfer.InOrder <;> infer_instance

/-- All transfers of the run are in order. -/
def InOrder (a : Contents) : List Transfer → Prop
  | [] => True
  | transfer :: rest => transfer.InOrder a ∧ InOrder (a.transfer transfer).2 rest

variable {bufSize : Nat} {b : TempFileBuffer} {a : Contents}

/-- A blank buffer was given nothing. -/
theorem Tracks.written_of_blank (tracks : Tracks bufSize b a) (blank : b.Blank) :
    a.written = [] := by
  obtain ⟨put, noFile⟩ := blank
  cases tracks.shape with
  | memoryOut _ putHere =>
      exact List.length_eq_zero_iff.mp (Option.some.inj (putHere.symm.trans put))
  | memoryIn _ none | memoryEnd _ none | fileIn _ none | fileEnd _ none =>
      cases none.symm.trans put
  | fileOut isFile => cases noFile.symm.trans isFile

/-- In order, the reads answer as the queue of what is unread. -/
theorem get_eq_queue (order : a.atEnd = true → a.unread = []) :
    a.get.1 = a.unread.head? ∧ a.get.2.unread = a.unread.tail ∧
      (a.get.2.atEnd = true → a.get.2.unread = []) := by
  unfold Contents.get
  by_cases ended : a.atEnd = true
  · have none := order ended
    rw [if_pos ended, none]
    exact ⟨rfl, rfl, fun _ => rfl⟩
  · rw [if_neg ended]
    split
    · next none =>
        rw [none]
        exact ⟨rfl, none, fun _ => none⟩
    · next c rest next =>
        have later : (a.toInput.skip 1).unread = rest := by
          have tail := congrArg List.tail next
          rw [Contents.unread, List.tail_drop] at tail
          exact tail
        rw [next]
        exact ⟨rfl, later, fun still => absurd still ended⟩

theorem getAll_eq_queue (n : Nat) : ∀ {a : Contents}, (a.atEnd = true → a.unread = []) →
    (a.getAll n).1 = a.unread.take n ∧ (a.getAll n).2.unread = a.unread.drop n := by
  induction n with
  | zero =>
      intro a order
      exact ⟨rfl, rfl⟩
  | succ n ih =>
      intro a order
      obtain ⟨answer, later, orderNext⟩ := get_eq_queue order
      rw [Contents.getAll]
      rcases isGet : a.get with ⟨character, after⟩
      rw [isGet] at answer later orderNext
      dsimp only at answer later orderNext
      cases unread : a.unread with
      | nil =>
          rw [unread] at answer later
          obtain rfl : character = none := answer
          exact ⟨rfl, later⟩
      | cons c rest =>
          rw [unread] at answer later
          obtain rfl : character = some c := answer
          obtain ⟨taken, left⟩ := ih orderNext
          dsimp only
          rw [taken, left, later]
          exact ⟨rfl, rfl⟩

/-- The state of the buffer before its first byte. -/
def Unused (b : TempFileBuffer) (a : Contents) : Prop :=
  a.written = [] → b.Blank ∧ a.atEnd = false

/-- A blank buffer answers with what is in its memory. -/
theorem uflow_blank (blank : b.Blank) (get : b.gptr = none) (going : b.m_isEOF = false) :
    ∃ c after, b.uflow = (some c, after) := by
  obtain ⟨put, noFile⟩ := blank
  unfold TempFileBuffer.uflow TempFileBuffer.underflow
  rw [if_neg (by rw [going]; decide), get, noFile]
  exact ⟨_, _, rfl⟩

theorem Tracks.get_of_blank (tracks : Tracks bufSize b a) (blank : b.Blank) : b.gptr = none := by
  obtain ⟨put, noFile⟩ := blank
  cases tracks.shape with
  | memoryOut _ _ get => exact get
  | memoryIn _ none | memoryEnd _ none | fileIn _ none | fileEnd _ none =>
      cases none.symm.trans put
  | fileOut isFile => cases noFile.symm.trans isFile

theorem Transfer.InOrder.safe {transfer : Transfer} (order : transfer.InOrder a)
    (tracks : Tracks bufSize b a) (ready : b.WriteReady) : transfer.Safe b := by
  cases transfer with
  | sputc c => exact ready
  | sputn s => exact fun _ => ready
  | sbumpc => exact fun blank => order.1 (tracks.written_of_blank blank)
  | sgetn n => exact fun some_ blank => (order some_).1 (tracks.written_of_blank blank)

/-- The transfers in order answer as the queue of what is unread. -/
theorem Transfer.InOrder.queue {transfer : Transfer} (order : transfer.InOrder a) :
    (a.transfer transfer).1 = (queueTransfer a.unread transfer).1 ∧
      (a.read ≤ a.written.length →
        (a.transfer transfer).2.unread = (queueTransfer a.unread transfer).2) := by
  cases transfer with
  | sputc c =>
      refine ⟨rfl, fun within => ?_⟩
      show (a.written ++ [c]).drop a.read = a.written.drop a.read ++ [c]
      exact List.drop_append_of_le_length within
  | sputn s =>
      refine ⟨rfl, fun within => ?_⟩
      show (a.putAll s).unread = a.written.drop a.read ++ s
      rw [putAll_eq]
      split
      · next isEmpty =>
          rw [isEmpty, List.append_nil]
          rfl
      · exact List.drop_append_of_le_length within
  | sbumpc =>
      obtain ⟨answer, later, -⟩ := get_eq_queue order.2
      exact ⟨congrArg Answer.character answer, fun _ => later⟩
  | sgetn n =>
      by_cases zero : n = 0
      · rw [zero]
        exact ⟨rfl, fun _ => rfl⟩
      · obtain ⟨taken, left⟩ := getAll_eq_queue n (order zero).2
        exact ⟨congrArg (fun s => Answer.block (some s)) taken, fun _ => left⟩

/-- Out of order a read answers with memory that was not written, or with EOF before bytes that
are there. -/
theorem Transfer.InOrder.of_answer {transfer : Transfer} (follows : Follows bufSize b a)
    (unused : Unused b a)
    (same : (b.transfer transfer).1 = (queueTransfer a.unread transfer).1) :
    transfer.InOrder a := by
  have empty (nothing : a.written = []) : a.unread = [] := by
    unfold Contents.unread
    rw [nothing, List.drop_nil]
  cases transfer with
  | sputc c => trivial
  | sputn s => trivial
  | sbumpc =>
      have answer : b.sbumpc.1 = a.unread.head? := Answer.character.inj same
      have some_ : a.written ≠ [] := by
        intro nothing
        obtain ⟨blank, going⟩ := unused nothing
        have get := follows.tracks.get_of_blank blank
        obtain ⟨c, after, read⟩ := uflow_blank blank get (follows.tracks.ended.trans going)
        have garbage : b.sbumpc = (some c, after) := by
          unfold TempFileBuffer.sbumpc
          rw [get]
          exact read
        rw [garbage, empty nothing] at answer
        cases answer
      refine ⟨some_, fun ended => ?_⟩
      have notBlank := mt follows.tracks.written_of_blank some_
      rw [(sbumpc_answers follows notBlank).answer, a.get_atEnd ended] at answer
      exact List.head?_eq_none_iff.mp answer.symm
  | sgetn n =>
      intro notZero
      obtain ⟨n, rfl⟩ := Nat.exists_eq_succ_of_ne_zero notZero
      have some_ : a.written ≠ [] := by
        intro nothing
        obtain ⟨blank, going⟩ := unused nothing
        have get := follows.tracks.get_of_blank blank
        obtain ⟨c, after, read⟩ := uflow_blank blank get (follows.tracks.ended.trans going)
        have garbage : b.sgetn (n + 1) =
            (after.xsgetn n n).map fun more => (c :: more.1, more.2) := by
          have still : b.gbump 0 = b := by
            unfold TempFileBuffer.gbump
            rw [get, Option.map_none, ← get]
          unfold TempFileBuffer.sgetn
          rw [TempFileBuffer.xsgetn, get]
          simp only [Option.getD_none, Nat.lt_irrefl, if_false, Nat.sub_self, Nat.zero_min, still,
            read, (Nat.succ_ne_zero n).symm, List.take_zero, List.nil_append, Nat.sub_zero]
        rw [empty nothing] at same
        unfold TempFileBuffer.transfer at same
        dsimp only at same
        rw [garbage] at same
        cases more : after.xsgetn n n with
        | none =>
            rw [more] at same
            cases same
        | some more =>
            rw [more] at same
            cases same
      refine ⟨some_, fun ended => ?_⟩
      have notBlank := mt follows.tracks.written_of_blank some_
      obtain ⟨after, read, -⟩ := xsgetn_answers le_rfl follows fun _ : n + 1 ≠ 0 => notBlank
      have isRead : b.sgetn (n + 1) = some ([], after) := by
        rw [Contents.getAll, a.get_atEnd ended] at read
        exact read
      unfold TempFileBuffer.transfer at same
      dsimp only at same
      rw [isRead] at same
      have nothing : [] = a.unread.take (n + 1) := Option.some.inj (Answer.block.inj same)
      cases unread : a.unread with
      | nil => rfl
      | cons c rest =>
          rw [unread] at nothing
          cases nothing

/-- A transfer that writes nothing leaves a buffer unused. -/
theorem Unused.transfer {transfer : Transfer} (unused : Unused b a) (order : transfer.InOrder a)
    (tracks : Tracks bufSize b a) : Unused (b.transfer transfer).2 (a.transfer transfer).2 := by
  intro nothing
  have length := a.length_transfer transfer
  rw [nothing, List.length_nil] at length
  have isEmpty : a.written = [] := List.length_eq_zero_iff.mp (by omega)
  have noBytes : transfer.length = 0 := by omega
  obtain ⟨blank, going⟩ := unused isEmpty
  cases transfer with
  | sputc c => cases noBytes
  | sputn s =>
      obtain rfl : s = [] := List.length_eq_zero_iff.mp noBytes
      refine ⟨?_, going⟩
      have room : ([] : Bytes).length < b.m_bufSize - 0 := tracks.positive
      show (b.xsputn []).2.Blank
      unfold TempFileBuffer.xsputn
      rw [blank.1]
      dsimp only
      rw [if_pos room]
      exact ⟨rfl, blank.2⟩
  | sbumpc => exact absurd isEmpty order.1
  | sgetn n =>
      by_cases zero : n = 0
      · rw [zero]
        exact ⟨blank, going⟩
      · exact absurd isEmpty (order zero).1

/-- How many bytes the transfers write. -/
def totalLength (transfers : List Transfer) : Nat := (transfers.map Transfer.length).sum

/-- The run lemma. The buffer answers as the queue of what is unread exactly while the transfers
are in order. -/
theorem answers_iff (transfers : List Transfer) : ∀ {b : TempFileBuffer} {a : Contents},
    Follows bufSize b a → b.WriteReady → Unused b a →
      Counted bufSize (a.written.length + totalLength transfers) →
        (answers TempFileBuffer.transfer b transfers = answers queueTransfer a.unread transfers ↔
          InOrder a transfers) := by
  induction transfers with
  | nil =>
      intro b a follows ready unused small
      exact ⟨fun _ => trivial, fun _ => rfl⟩
  | cons transfer rest ih =>
      intro b a follows ready unused small
      have total : totalLength (transfer :: rest) = transfer.length + totalLength rest := by
        simp [totalLength]
      rw [total] at small
      have smallHere : Counted bufSize (a.written.length + transfer.length) := by
        unfold Counted at small ⊢
        omega
      have step (order : transfer.InOrder a) :
          (b.transfer transfer).1 = (queueTransfer a.unread transfer).1 ∧
            (answers TempFileBuffer.transfer (b.transfer transfer).2 rest =
                answers queueTransfer (queueTransfer a.unread transfer).2 rest ↔
              InOrder (a.transfer transfer).2 rest) := by
        obtain ⟨answer, next, readyNext⟩ :=
          transfer_follows follows (order.safe follows.tracks ready) smallHere
        obtain ⟨queued, left⟩ := order.queue
        refine ⟨answer.trans queued, ?_⟩
        rw [← left follows.tracks.within]
        refine ih next (readyNext ready) (unused.transfer order follows.tracks) ?_
        rw [a.length_transfer, Nat.add_assoc]
        exact small
      rw [answers, answers, InOrder, List.cons.injEq]
      constructor
      · rintro ⟨here, later⟩
        have order := Transfer.InOrder.of_answer follows unused here
        exact ⟨order, (step order).2.mp later⟩
      · rintro ⟨order, orderLater⟩
        exact ⟨(step order).1, (step order).2.mpr orderLater⟩

theorem TempFileBuffer.WriteReady.new {bufSize : Nat} (memory : Vector UInt8 bufSize) :
    (TempFileBuffer.new memory).WriteReady := fun none => by cases none

/-- A new buffer that is written and read is a queue of bytes exactly when the reads are in
order. -/
theorem fifo_iff (bufSize : Nat) (positive : 1 ≤ bufSize) (memory : Vector UInt8 bufSize)
    (transfers : List Transfer) (small : Counted bufSize (totalLength transfers)) :
    answers TempFileBuffer.transfer (.new memory) transfers = answers queueTransfer [] transfers ↔
      InOrder .empty transfers := by
  refine answers_iff transfers ⟨Tracks.new positive memory, ?_⟩ (.new memory) ?_ ?_
  · intro _ _ some_
    exact absurd rfl some_
  · intro _
    exact ⟨⟨rfl, rfl⟩, rfl⟩
  · show Counted bufSize (0 + totalLength transfers)
    rwa [Nat.zero_add]

/-- The bytes go through a file, and the last read finds the end. -/
def throughFile : List Transfer := [.sputn [1, 2, 3], .sbumpc, .sputc 4, .sgetn 4]

theorem fifo_iff_throughFile :
    answers TempFileBuffer.transfer (.new #v[0, 0]) throughFile =
        answers queueTransfer [] throughFile ↔ InOrder .empty throughFile :=
  fifo_iff 2 (by decide) #v[0, 0] throughFile (.inl (by decide))

/-- The first read answers with the memory of the array, and the byte that is written after the
end was read never comes. -/
theorem lateByte_not_fifo :
    answers TempFileBuffer.transfer (.new #v[7, 7]) [.sbumpc] ≠ answers queueTransfer [] [.sbumpc] ∧
      answers TempFileBuffer.transfer (.new #v[7, 7])
          [.sputc 1, .sbumpc, .sbumpc, .sputc 2, .sbumpc] ≠
        answers queueTransfer [] [.sputc 1, .sbumpc, .sbumpc, .sputc 2, .sbumpc] := by
  decide

end Queue

end Blocxx.TempFileStream
