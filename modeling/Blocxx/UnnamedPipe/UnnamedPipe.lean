import Blocxx.Library.TransitionSystem
import Blocxx.String.String

/-!
This file embeds `writeString` and `readString` of `UnnamedPipe` on the two ends of a pipe, and
proves that `readString` returns no string as it was written. An `int` has four bytes, and the
lowest comes first.
-/

namespace Blocxx.UnnamedPipe

open Library Library.Memory Strings

section Integers

/-- The conversion to `int`. -/
def toInt (value : Nat) : Int := (value : Int).bmod (2 ^ 32)

/-- The conversion of an `int` to `size_t`. -/
def sizeT (value : Int) : Nat := (value % (2 ^ 64 : Nat)).toNat

/-- The bytes of an `int` in memory. -/
def intBytes (value : Int) : List UInt8 :=
  (List.range 4).map fun i => UInt8.ofNat ((value % (2 ^ 32 : Nat)).toNat / 256 ^ i)

/-- The `int` that these bytes are. -/
def intOf (bytes : List UInt8) : Int :=
  toInt (bytes.foldr (fun byte value => byte.toNat + 256 * value) 0)

def INT_MAX : Int := 2 ^ 31 - 1

end Integers

/-- The `ByteBuf` of a received `String`. -/
structure Received where
  m_len : Nat
  m_buf : Memory
  deriving DecidableEq

inductive Writer where
  | idle
  /-- `writeInt` has returned, and the characters are still to be written. -/
  | body (strData : CString)

inductive Reader where
  | idle
  /-- The buffer is allocated, and the characters are still to be read. -/
  | body (len : Int)
  /-- `readString` has reported an error or thrown. -/
  | failed

/-- The bytes in the pipe, the two ends, and what was written and received. -/
structure State where
  channel : List UInt8
  outputOpen : Bool
  inputOpen : Bool
  writer : Writer
  reader : Reader
  written : List CString
  received : List Received

/-- The results of a read. A timeout is a failure. -/
inductive Answer where
  | failed
  | got (count : Nat)
  deriving DecidableEq

inductive Label where
  | writeInt (strData : CString)
  | writeBody
  | closeOutput
  /-- The variable `len` has these bytes before the read. -/
  | readInt (answer : Answer) (unwritten : List UInt8) (allocated : Bool)
  | readBody (answer : Answer)

namespace State

variable (state : State)

/-- `PosixUnnamedPipe::read` with a size. A read of nothing is the end of the file, except when
nothing is asked for, and it closes the handle. -/
def read (bufferLen count : Nat) : Option (List UInt8 × State) :=
  if state.inputOpen = true ∧ count ≤ bufferLen ∧ count ≤ state.channel.length ∧
      (count = 0 → bufferLen = 0 ∨ state.channel = [] ∧ state.outputOpen = false) then
    some (state.channel.take count, { state with
      channel := state.channel.drop count
      inputOpen := decide (count ≠ 0) })
  else none

/-- The expression `new char[len+1]` can give a block. -/
def allocates (len : Int) : Prop := -1 ≤ len ∧ len < INT_MAX

instance (len : Int) : Decidable (allocates len) := inferInstanceAs (Decidable (_ ∧ _))

def next : Label → Option State
  | .writeInt strData =>
      match state.writer with
      | .idle =>
          if state.outputOpen = true then
            some { state with
              channel := state.channel ++ intBytes (toInt (strData.bytes.length + 1))
              writer := .body strData
              written := state.written ++ [strData] }
          else none
      | .body _ => none
  | .writeBody =>
      match state.writer with
      | .idle => none
      | .body strData =>
          if state.outputOpen = true then
            some { state with
              channel := state.channel ++
                (strData.bytes ++ [0]).take (sizeT (toInt (strData.bytes.length + 1)))
              writer := .idle }
          else none
  | .closeOutput => some { state with outputOpen := false }
  | .readInt answer unwritten allocated =>
      match state.reader, answer with
      | .idle, .failed => some { state with reader := .failed }
      | .idle, .got count =>
          if unwritten.length = 4 then
            (state.read 4 count).map fun (data, state) =>
              let len := intOf (data ++ unwritten.drop data.length)
              { state with
                reader := if allocates len ∧ allocated = true then .body len else .failed }
          else none
      | _, _ => none
  | .readBody answer =>
      match state.reader, answer with
      | .body _, .failed => some { state with reader := .failed }
      | .body len, .got count =>
          (state.read (sizeT len) count).map fun (data, state) =>
            { state with
              reader := .idle
              received := state.received ++
                [⟨sizeT len, store (allocate (len + 1).toNat) 0 data⟩] }
      | _, _ => none

end State

/-- The pipe is empty, and nothing was written. -/
def start : State := ⟨[], true, true, .idle, .idle, [], []⟩

def system : TransitionSystem State Label := .computed (· = start) State.next

section Property

/-- The received string has the length and the bytes of the written one, and all of them are
received ones. -/
structure SameString (strData : CString) (received : Received) : Prop where
  length : received.m_len = strData.bytes.length
  bytes : received.m_buf.take received.m_len = strData.bytes.map some

/-- The received strings are the first of the written ones. -/
def ArriveAsSent (state : State) : Prop :=
  ∀ (i : Nat) (received : Received), state.received[i]? = some received →
    ∃ strData, state.written[i]? = some strData ∧ SameString strData received

/-- The second read of `readString` does not succeed. -/
def NoneReturned (_ : State) (label : Label) : Prop := ∀ count, label ≠ .readBody (.got count)

end Property

section Lengths

theorem sizeT_mod (value : Int) : (sizeT value : Int) % 256 = value % 256 := by
  simp only [sizeT]
  omega

theorem toInt_mod (value : Nat) : toInt value % 256 = value % 256 := by
  obtain ⟨quotient, is⟩ := Int.dvd_bmod_sub_self (x := value) (m := 2 ^ 32)
  unfold toInt
  omega

/-- The first byte of an `int` gives it modulo 256. -/
theorem intOf_mod (byte : UInt8) (bytes : List UInt8) :
    intOf (byte :: bytes) % 256 = byte.toNat := by
  have small := byte.toNat_lt
  rw [intOf, toInt_mod, List.foldr_cons]
  omega

theorem intBytes_head (value : Int) :
    (intBytes value).head? = some (UInt8.ofNat (value % (2 ^ 32 : Nat)).toNat) := by
  simp [intBytes, List.range_succ]

/-- The length that is sent is never the length of the string. -/
theorem sent_length_ne {length received : Nat} {byte : UInt8}
    (isByte : byte = UInt8.ofNat (toInt (length + 1) % (2 ^ 32 : Nat)).toNat)
    (mod : (received : Int) % 256 = byte.toNat) : received ≠ length := by
  have value : (byte.toNat : Int) = (length + 1 : Nat) % 256 := by
    rw [isByte, UInt8.toNat_ofNat', ← toInt_mod]
    omega
  rintro rfl
  omega

end Lengths

section Invariant

/-- The first byte in the pipe is the first one of the first length. -/
def HeadSent (state : State) : Prop :=
  match state.written with
  | [] => state.channel = []
  | strData :: _ =>
      state.channel.head? =
        some (UInt8.ofNat (toInt (strData.bytes.length + 1) % (2 ^ 32 : Nat)).toNat)

/-- Nothing was returned, and the first byte of the first length was read in front of the rest. -/
structure Intact (state : State) : Prop where
  none : state.received = []
  idle : state.reader = .idle → HeadSent state
  writes : ∀ strData, state.writer = .body strData → state.written ≠ []
  body : ∀ len, state.reader = .body len → state.inputOpen = true →
    ∃ strData, state.written[0]? = some strData ∧ sizeT len ≠ strData.bytes.length

variable {state next : State} {label : Label}

theorem Intact.arriveAsSent (intact : Intact state) : ArriveAsSent state := by
  intro i received here
  rw [intact.none] at here
  cases here

/-- A write puts its bytes behind those in the pipe. -/
theorem HeadSent.append (sent : HeadSent state) {channel : List UInt8}
    (same : next.written.head? = state.written.head?) (some : state.written ≠ [])
    (grows : next.channel = state.channel ++ channel) : HeadSent next := by
  obtain ⟨strData, rest, written⟩ := List.exists_cons_of_ne_nil some
  rw [written, List.head?_cons] at same
  obtain ⟨later, nextWritten⟩ := List.head?_eq_some_iff.mp same
  rw [HeadSent, written] at sent
  rw [HeadSent, nextWritten, grows]
  simp only
  rw [List.head?_append, sent]
  rfl

/-- The length of the first string that the reader takes is wrong. -/
theorem Intact.readInt (intact : Intact state) (idle : state.reader = .idle) {count : Nat}
    {data unwritten : List UInt8} {after : State} (reads : state.read 4 count = some (data, after))
    (allocated : Bool) :
    Intact { after with
      reader := if State.allocates (intOf (data ++ unwritten.drop data.length)) ∧ allocated = true
        then .body (intOf (data ++ unwritten.drop data.length)) else .failed } := by
  have sent := intact.idle idle
  rw [State.read] at reads
  split at reads
  · next meets =>
      cases reads
      refine ⟨intact.none, ?_, intact.writes, ?_⟩
      · intro impossible
        simp only at impossible
        split at impossible <;> cases impossible
      · intro len here isOpen
        have some : count ≠ 0 := of_decide_eq_true isOpen
        simp only at here
        split at here
        · obtain rfl := Reader.body.inj here
          rw [HeadSent] at sent
          cases written : state.written with
          | nil =>
              rw [written] at sent
              have fits := meets.2.2.1
              rw [sent, List.length_nil] at fits
              omega
          | cons strData rest =>
              rw [written] at sent
              obtain ⟨byte, channel, isChannel⟩ : ∃ byte rest, state.channel = byte :: rest :=
                List.ne_nil_iff_exists_cons.mp fun empty => by
                  rw [empty] at sent
                  cases sent
              rw [isChannel, List.head?_cons] at sent
              have isByte := Option.some.inj sent
              refine ⟨strData, rfl, ?_⟩
              obtain ⟨more, rfl⟩ := Nat.exists_eq_succ_of_ne_zero some
              apply sent_length_ne isByte
              rewrite [sizeT_mod, isChannel, List.take_succ_cons, List.cons_append]
              exact intOf_mod byte _
        · cases here
  · cases reads

/-- A step that returns no string keeps the invariant. -/
theorem Intact.step (intact : Intact state) (taken : state.next label = some next)
    (none : NoneReturned state label) : Intact next := by
  cases label with
  | writeInt strData =>
      simp only [State.next] at taken
      split at taken
      · split at taken
        · cases taken
          refine ⟨intact.none, ?_, fun _ _ => List.concat_ne_nil _ _, ?_⟩
          · intro idle
            have sent := intact.idle idle
            cases written : state.written with
            | nil =>
                rw [HeadSent, written] at sent
                simp only [HeadSent, sent, List.nil_append]
                exact intBytes_head _
            | cons first rest =>
                refine sent.append ?_ (by rw [written]; exact List.cons_ne_nil _ _) rfl
                rw [List.head?_append, written]
                rfl
          · intro len here isOpen
            obtain ⟨first, is, different⟩ := intact.body len here isOpen
            refine ⟨first, ?_, different⟩
            obtain ⟨less, -⟩ := List.getElem?_eq_some_iff.mp is
            rw [List.getElem?_append_left less, is]
        · cases taken
      · cases taken
  | writeBody =>
      simp only [State.next] at taken
      split at taken
      · cases taken
      · next strData writes =>
          split at taken
          · cases taken
            refine ⟨intact.none, ?_, nofun, intact.body⟩
            exact fun idle => (intact.idle idle).append rfl (intact.writes strData writes) rfl
          · cases taken
  | closeOutput =>
      cases taken
      exact ⟨intact.none, intact.idle, intact.writes, intact.body⟩
  | readInt answer unwritten allocated =>
      simp only [State.next] at taken
      split at taken
      · cases taken
        exact ⟨intact.none, nofun, intact.writes, nofun⟩
      · next idle =>
          split at taken
          · obtain ⟨⟨data, after⟩, reads, rfl⟩ := Option.map_eq_some_iff.mp taken
            exact intact.readInt idle reads allocated
          · cases taken
      · cases taken
  | readBody answer =>
      simp only [State.next] at taken
      split at taken
      · cases taken
        exact ⟨intact.none, nofun, intact.writes, nofun⟩
      · next count _ => exact absurd rfl (none count)
      · cases taken

end Invariant

section Theorem

/-- The first string that is returned has a wrong length. -/
theorem Intact.not_arriveAsSent {state next : State} (intact : Intact state) {count : Nat}
    (taken : state.next (.readBody (.got count)) = some next) : ¬ ArriveAsSent next := by
  intro arrive
  simp only [State.next] at taken
  split at taken
  · next impossible => cases impossible
  · next len _ here is =>
      cases is
      obtain ⟨⟨data, after⟩, reads, rfl⟩ := Option.map_eq_some_iff.mp taken
      rw [State.read] at reads
      split at reads
      · next meets =>
          cases reads
          obtain ⟨strData, sent, different⟩ := intact.body len here meets.1
          obtain ⟨other, is, same⟩ := arrive 0 _ (by
            show (state.received ++ _)[0]? = _
            rw [intact.none]
            rfl)
          rw [Option.some.inj (sent.symm.trans is)] at different
          exact different same.length
      · cases reads
  · cases taken

theorem intact_start : Intact start where
  none := rfl
  idle _ := rfl
  writes := nofun
  body := nofun

/-- The strings of a run arrive as they were sent exactly when none of them is returned. -/
theorem arriveAsSent_iff (steps : List (TransitionSystem.Transition State Label))
    (run : system.Run start steps) :
    (∀ step ∈ steps, ArriveAsSent step.target) ↔
      ∀ step ∈ steps, NoneReturned step.source step.label := by
  refine run.property_iff_condition ?implies ?keep ?needed intact_start
  case implies => exact fun state intact => intact.arriveAsSent
  case keep =>
    intro state label next intact taken none
    exact intact.step taken none
  case needed =>
    rintro state label next intact taken arrive count rfl
    exact intact.not_arriveAsSent taken arrive

/-- The string `"ab"` is written and read, whole or with a failure. -/
def oneString (answer : Answer) : List Label :=
  [.writeInt ⟨[97, 98], by decide⟩, .writeBody, .readInt (.got 4) [0, 0, 0, 0] true,
    .readBody answer]

theorem arriveAsSent_iff_oneString :
    (∀ step ∈ TransitionSystem.follow State.next start (oneString .failed),
        ArriveAsSent step.target) ↔
      ∀ step ∈ TransitionSystem.follow State.next start (oneString .failed),
        NoneReturned step.source step.label :=
  arriveAsSent_iff _ (TransitionSystem.follow_run _ _ _ _)

/-- The received string has three bytes. -/
theorem oneString_not_arriveAsSent :
    ¬ ∀ steps : List (TransitionSystem.Transition State Label),
      system.Run start steps → ∀ step ∈ steps, ArriveAsSent step.target := by
  intro all
  have arrive := all _ (TransitionSystem.follow_run _ _ (oneString (.got 3)) start) _
    (List.getLast_mem (by decide))
  obtain ⟨strData, sent, same⟩ := arrive 0 ⟨3, [some 97, some 98, some 0, none]⟩ (by decide +kernel)
  have length : strData.bytes.length = 2 := by
    cases Option.some.inj sent
    rfl
  rw [← same.length] at length
  exact absurd length (by decide)

end Theorem

end Blocxx.UnnamedPipe
