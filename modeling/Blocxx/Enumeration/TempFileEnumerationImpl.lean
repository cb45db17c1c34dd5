import Blocxx.BinarySerialization.BinarySerialization
import Blocxx.TempFileStream.TempFileBuffer
import Blocxx.TempFileStream.Queue

/-!
This file embeds `TempFileEnumerationImpl` for elements of type `String`, and settles when an
enumeration of strings is a collection that returns its oldest element first. The stream is its
buffer.
-/

namespace Blocxx.Enumeration

open Library TempFileStream
open BinarySerialization hiding Bytes

/-- The size of the buffer when none is given. -/
def defaultBufSize : Nat := 4096

/-- The block operations of the buffer. -/
def rdbuf : ByteStream Failure TempFileBuffer where
  sputn s b := .ok (b.xsputn s)
  sgetn n b :=
    match b.sgetn n with
    | some result => .ok result
    | none => .error .undefinedBehaviour

/-- The signature in the order of a little-endian host. -/
def TEMPFILE_ENUMERATION_SIG : Bytes := [0x4e, 0x57, 0x45, 0x4f]

structure TempFileEnumerationImpl where
  m_size : Nat
  m_Data : TempFileBuffer

/-- An action on an enumeration. -/
abbrev EnumerationAction := StateT TempFileEnumerationImpl (Except Failure)

namespace TempFileEnumerationImpl

/-- What the constructor does with its stream. A block that is too short leaves a stream that is
not good. -/
def positionData : Action TempFileBuffer Unit := do
  let cnt ← fun state => rdbuf.sputn TEMPFILE_ENUMERATION_SIG state
  if cnt ≠ TEMPFILE_ENUMERATION_SIG.length then
    throw (.EnumerationException "Failed to write signature to enumeration tempfile.")
  let tmpSig ← fun state => rdbuf.sgetn TEMPFILE_ENUMERATION_SIG.length state
  if tmpSig.length ≠ TEMPFILE_ENUMERATION_SIG.length then
    throw (.EnumerationException "Failed to read signature from enumeration tempfile.")

/-- The constructor. The memory is what the new buffer holds. -/
def new (memory : Vector UInt8 defaultBufSize) : Except Failure TempFileEnumerationImpl := do
  let ((), m_Data) ← positionData.run (.new memory)
  return { m_size := 0, m_Data }

/-- The action on the buffer leaves the count as it is. -/
def onData {Answer : Type} (action : Action TempFileBuffer Answer) : EnumerationAction Answer :=
  fun enum => do
    let (answer, m_Data) ← action.run enum.m_Data
    return (answer, { enum with m_Data })

def hasMoreElements (enum : TempFileEnumerationImpl) : Bool := enum.m_size > 0

def numberOfElements (enum : TempFileEnumerationImpl) : Nat := enum.m_size

/-- The exception of `throwIfEmpty`. -/
def emptyEnum : Failure := .EnumerationException "Attempt to Extract from empty Enum"

def throwIfEmpty : EnumerationAction Unit := do
  let enum ← get
  if ¬ enum.hasMoreElements then throw emptyEnum

def nextElement : EnumerationAction Bytes := do
  throwIfEmpty
  let retval ← onData (readObject rdbuf)
  modify fun enum => { enum with m_size := enum.m_size - 1 }
  return retval

def addElement (arg : Bytes) : EnumerationAction Unit := do
  onData (writeObject rdbuf arg)
  modify fun enum => { enum with m_size := enum.m_size + 1 }

def clear : EnumerationAction Unit :=
  modify fun enum => { m_size := 0, m_Data := enum.m_Data.reset }

end TempFileEnumerationImpl

end Blocxx.Enumeration

namespace Blocxx.Enumeration

open Library ByteStream TempFileStream
open BinarySerialization hiding Bytes

section Buffer

/-- The buffer gives these bytes next, and no read has found its end. -/
def Holds (b : TempFileBuffer) (bytes : Bytes) : Prop :=
  ∃ a : Contents, Follows defaultBufSize b a ∧ b.WriteReady ∧ a.atEnd = false ∧ a.unread = bytes

theorem atEnd_putAll (a : Contents) (s : Bytes) : (a.putAll s).atEnd = a.atEnd := by
  rw [putAll_eq]
  split <;> rfl

/-- A read of bytes that are there does not find the end. -/
theorem atEnd_getAll (n : Nat) : ∀ {a : Contents}, a.atEnd = false → n ≤ a.unread.length →
    (a.getAll n).2.atEnd = false := by
  induction n with
  | zero =>
      intro a going _
      exact going
  | succ n ih =>
      intro a going enough
      have count : a.unread.length = a.written.length - a.read := List.length_drop
      have next := a.get_next going (by omega)
      rw [Contents.getAll, next]
      refine ih going ?_
      show n ≤ (a.written.drop (a.read + 1)).length
      rw [List.length_drop]
      omega

theorem counted_default (count : Nat) : Counted defaultBufSize count := .inl (by decide)

/-- The buffer is a queue of bytes for writers and readers that never read past its end. -/
theorem rdbuf_isQueue : IsQueue rdbuf Holds where
  put := by
    rintro b bytes data ⟨a, follows, ready, going, rfl⟩
    obtain ⟨answer, next, readyNext⟩ :=
      @transfer_follows _ b a (.sputn data) follows (fun _ => ready) (counted_default _)
    have count : (b.xsputn data).1 = data.length := Answer.count.inj answer
    refine ⟨(b.xsputn data).2, ?_, a.putAll data, next, readyNext ready, ?_, ?_⟩
    · show Except.ok (b.xsputn data) = _
      rw [← count]
    · rw [atEnd_putAll, going]
    · exact (@Transfer.InOrder.queue a (.sputn data) trivial).2 follows.tracks.within
  get := by
    rintro b data rest ⟨a, follows, ready, going, unread⟩
    have notBlank : data.length ≠ 0 → ¬ b.Blank := by
      intro some_ blank
      have nothing := follows.tracks.written_of_blank blank
      rw [Contents.unread, nothing, List.drop_nil] at unread
      have none : data = [] := (List.append_eq_nil_iff.mp unread.symm).1
      exact some_ (by rw [none, List.length_nil])
    obtain ⟨after, read, next, readyNext⟩ := xsgetn_answers le_rfl follows notBlank
    obtain ⟨taken, left⟩ :=
      @getAll_eq_queue data.length a fun ended => by cases going.symm.trans ended
    rw [unread] at taken left
    rw [List.take_left' rfl] at taken
    refine ⟨after, ?_, (a.getAll data.length).2, next, readyNext ready, ?_, ?_⟩
    · have isRead : b.sgetn data.length = some (data, after) := by
        rw [taken] at read
        exact read
      unfold rdbuf
      dsimp only
      rw [isRead]
    · refine atEnd_getAll data.length going ?_
      rw [unread, List.length_append]
      omega
    · rw [left, List.drop_left' rfl]

theorem Holds.new (memory : Vector UInt8 defaultBufSize) : Holds (.new memory) [] :=
  ⟨.empty, ⟨Tracks.new (by decide) memory, fun _ _ some_ => absurd rfl some_⟩, .new memory, rfl,
    rfl⟩

/-- A buffer that is reset holds nothing. -/
theorem Holds.reset {b : TempFileBuffer} {bytes : Bytes} (held : Holds b bytes) :
    Holds b.reset [] := by
  obtain ⟨a, ⟨tracks, -⟩, -⟩ := held
  refine ⟨.empty, ⟨⟨tracks.size, tracks.positive, tracks.memory, rfl, le_rfl,
    fun spilled => absurd rfl spilled, ?_⟩, fun _ _ some_ => absurd rfl some_⟩, ?_, rfl, rfl⟩
  · exact .memoryOut rfl rfl rfl (Nat.zero_le _) rfl (fun _ => rfl) rfl rfl
  · intro none
    cases none

end Buffer

section Elements

/-- The enumeration contains these elements, the oldest first. -/
structure Represents (enum : TempFileEnumerationImpl) (elements : List Bytes) : Prop where
  size : enum.m_size = elements.length
  fits : ∀ str ∈ elements, str.length < 2 ^ 32
  data : Holds enum.m_Data (encodeElements elements)

theorem new_represents (memory : Vector UInt8 defaultBufSize) :
    ∃ enum, TempFileEnumerationImpl.new memory = .ok enum ∧ Represents enum [] := by
  obtain ⟨written, put, heldWritten⟩ := rdbuf_isQueue.put TEMPFILE_ENUMERATION_SIG (.new memory)
  rw [List.nil_append, ← List.append_nil TEMPFILE_ENUMERATION_SIG] at heldWritten
  obtain ⟨m_Data, got, held⟩ := rdbuf_isQueue.get heldWritten
  refine ⟨⟨0, m_Data⟩, ?_, ⟨rfl, by simp, held⟩⟩
  have positioned : TempFileEnumerationImpl.positionData.run (.new memory) = .ok ((), m_Data) := by
    unfold TempFileEnumerationImpl.positionData
    rw [StateT.run_bind]
    show (rdbuf.sputn _ _ >>= _) = _
    rw [put]
    show (rdbuf.sgetn _ _ >>= _) = _
    rw [got]
    rfl
  unfold TempFileEnumerationImpl.new
  rw [positioned]
  rfl

variable {enum : TempFileEnumerationImpl} {elements : List Bytes}

theorem onData_run {Answer : Type} {action : Action TempFileBuffer Answer} {answer : Answer}
    {after : TempFileBuffer} (ran : action.run enum.m_Data = .ok (answer, after)) :
    (TempFileEnumerationImpl.onData action).run enum =
      .ok (answer, { enum with m_Data := after }) := by
  show (action.run enum.m_Data >>= _) = _
  rw [ran]
  rfl

theorem addElement_represents (holds : Represents enum elements) {arg : Bytes}
    (fits : arg.length < 2 ^ 32) :
    ∃ next, (TempFileEnumerationImpl.addElement arg).run enum = .ok ((), next) ∧
      Represents next (elements ++ [arg]) := by
  obtain ⟨after, wrote, held⟩ := writeObject_writes rdbuf_isQueue fits _ _ holds.data
  refine ⟨⟨enum.m_size + 1, after⟩, ?_, ?_, ?_, ?_⟩
  · unfold TempFileEnumerationImpl.addElement
    rw [StateT.run_bind, onData_run wrote]
    rfl
  · rw [List.length_append, ← holds.size]
    rfl
  · intro str member
    rcases List.mem_append.mp member with old | new
    · exact holds.fits str old
    · rwa [List.mem_singleton.mp new]
  · have joined : encodeElements (elements ++ [arg]) =
        encodeElements elements ++ encodeObject arg := by simp [encodeElements]
    rwa [joined]

theorem clear_represents (holds : Represents enum elements) :
    ∃ next, TempFileEnumerationImpl.clear.run enum = .ok ((), next) ∧ Represents next [] :=
  ⟨_, rfl, rfl, by simp, holds.data.reset⟩

theorem nextElement_empty (holds : Represents enum []) :
    TempFileEnumerationImpl.nextElement.run enum = .error TempFileEnumerationImpl.emptyEnum := by
  have none : enum.hasMoreElements = false := by
    unfold TempFileEnumerationImpl.hasMoreElements
    rw [holds.size]
    rfl
  have threw : TempFileEnumerationImpl.throwIfEmpty.run enum =
      .error TempFileEnumerationImpl.emptyEnum := by
    show (if ¬ enum.hasMoreElements = true then throw _ else pure () :
      EnumerationAction Unit).run enum = _
    rw [none, if_pos (by decide)]
    rfl
  unfold TempFileEnumerationImpl.nextElement
  rw [StateT.run_bind, threw]
  rfl

/-- What `nextElement` does behind `throwIfEmpty`. -/
theorem nextElement_run {str : Bytes} {rest : List Bytes}
    (holds : Represents enum (str :: rest)) :
    TempFileEnumerationImpl.nextElement.run enum =
      ((readObject rdbuf).run enum.m_Data).map fun result =>
        (result.1, ⟨enum.m_size - 1, result.2⟩) := by
  have some_ : enum.hasMoreElements = true := by
    unfold TempFileEnumerationImpl.hasMoreElements
    rw [holds.size]
    rfl
  have passed : TempFileEnumerationImpl.throwIfEmpty.run enum = .ok ((), enum) := by
    show (if ¬ enum.hasMoreElements = true then throw _ else pure () :
      EnumerationAction Unit).run enum = _
    rw [some_, if_neg (by decide)]
    rfl
  unfold TempFileEnumerationImpl.nextElement
  rw [StateT.run_bind, passed]
  show ((TempFileEnumerationImpl.onData (readObject rdbuf)).run enum >>= _) = _
  cases read : (readObject rdbuf).run enum.m_Data with
  | ok result =>
      rw [onData_run read]
      rfl
  | error failure =>
      show (((readObject rdbuf).run enum.m_Data >>= _) >>= _) = _
      rw [read]
      rfl

theorem nextElement_represents {str : Bytes} {rest : List Bytes}
    (holds : Represents enum (str :: rest)) (short : str.length ≠ 2 ^ 32 - 1) :
    ∃ next, TempFileEnumerationImpl.nextElement.run enum = .ok (str, next) ∧
      Represents next rest := by
  obtain ⟨first, later⟩ := List.forall_mem_cons.mp holds.fits
  obtain ⟨after, read, held⟩ :=
    readObject_reads rdbuf_isQueue (by omega : str.length < 2 ^ 32 - 1) _ _ holds.data
  refine ⟨⟨enum.m_size - 1, after⟩, ?_, ?_, later, held⟩
  · rw [nextElement_run holds, read]
    rfl
  · show enum.m_size - 1 = rest.length
    rw [holds.size]
    rfl

/-- The longest string is added, and it cannot be read. -/
theorem nextElement_fails {str : Bytes} {rest : List Bytes}
    (holds : Represents enum (str :: rest)) (longest : str.length = 2 ^ 32 - 1) :
    ∃ failure, TempFileEnumerationImpl.nextElement.run enum = .error failure := by
  obtain ⟨failure, threw⟩ := readObject_fails rdbuf_isQueue longest _ _ holds.data
  refine ⟨failure, ?_⟩
  rw [nextElement_run holds, threw]
  rfl

end Elements

section Runs

/-- The calls on an enumeration. -/
inductive Request where
  | addElement (arg : Bytes)
  | nextElement
  | numberOfElements
  | hasMoreElements
  | clear

inductive Outcome where
  | done
  | element (str : Bytes)
  | count (n : Nat)
  | more (b : Bool)
  | threw (failure : Failure)

def perform : Request → EnumerationAction Outcome
  | .addElement arg => do
      TempFileEnumerationImpl.addElement arg
      return .done
  | .nextElement => do return .element (← TempFileEnumerationImpl.nextElement)
  | .numberOfElements => do return .count (← get).numberOfElements
  | .hasMoreElements => do return .more (← get).hasMoreElements
  | .clear => do
      TempFileEnumerationImpl.clear
      return .done

/-- The exception of `throwIfEmpty` comes before any change. There is no state after another
one. -/
def call (enum : TempFileEnumerationImpl) (request : Request) :
    Outcome × Option TempFileEnumerationImpl :=
  match (perform request).run enum with
  | .ok (outcome, next) => (outcome, some next)
  | .error failure =>
      (.threw failure, if failure = TempFileEnumerationImpl.emptyEnum then some enum else none)

/-- The outcomes of a run, which ends when there is no next state. -/
def outcomes (enum : TempFileEnumerationImpl) : List Request → List Outcome
  | [] => []
  | request :: rest =>
      (call enum request).1 :: (call enum request).2.elim [] fun next => outcomes next rest

/-- Elements come to the back of a collection and go from its front. -/
def serve (elements : List Bytes) : Request → Outcome × List Bytes
  | .addElement arg => (.done, elements ++ [arg])
  | .nextElement =>
      match elements with
      | [] => (.threw TempFileEnumerationImpl.emptyEnum, [])
      | str :: rest => (.element str, rest)
  | .numberOfElements => (.count elements.length, elements)
  | .hasMoreElements => (.more (!elements.isEmpty), elements)
  | .clear => (.done, [])

def serveAll (elements : List Bytes) : List Request → List Outcome
  | [] => []
  | request :: rest => (serve elements request).1 :: serveAll (serve elements request).2 rest

/-- What is added is shorter than the range of a `UInt32`. -/
def Request.Fits : Request → Prop
  | .addElement arg => arg.length < 2 ^ 32
  | _ => True

instance (request : Request) : Decidable request.Fits := by
  cases request <;> unfold Request.Fits <;> infer_instance

/-- The element to return has not the greatest length of a `UInt32`. -/
def Request.Short (elements : List Bytes) : Request → Prop
  | .nextElement => ∀ str ∈ elements.head?, str.length ≠ 2 ^ 32 - 1
  | _ => True

/-- Each request of the run meets its condition. -/
def Short (elements : List Bytes) : List Request → Prop
  | [] => True
  | request :: rest => request.Short elements ∧ Short (serve elements request).2 rest

variable {enum : TempFileEnumerationImpl} {elements : List Bytes}

/-- One call answers as the collection does. -/
theorem call_serves {request : Request} (holds : Represents enum elements) (fits : request.Fits)
    (short : request.Short elements) :
    ∃ next, call enum request = ((serve elements request).1, some next) ∧
      Represents next (serve elements request).2 := by
  have answered {Answer : Type} {action : EnumerationAction Answer} {answer : Answer}
      {next : TempFileEnumerationImpl} (change : Answer → Outcome)
      (ran : action.run enum = .ok (answer, next)) :
      (do return change (← action) : EnumerationAction Outcome).run enum =
        .ok (change answer, next) := by
    rw [StateT.run_bind, ran]
    rfl
  unfold call
  cases request with
  | addElement arg =>
      obtain ⟨next, ran, after⟩ := addElement_represents holds fits
      have performed : (perform (.addElement arg)).run enum = .ok (.done, next) :=
        answered (fun _ => .done) ran
      rw [performed]
      exact ⟨next, rfl, after⟩
  | nextElement =>
      cases elements with
      | nil =>
          have performed : (perform .nextElement).run enum =
              .error TempFileEnumerationImpl.emptyEnum := by
            unfold perform
            rw [StateT.run_bind, nextElement_empty holds]
            rfl
          rw [performed]
          dsimp only
          rw [if_pos rfl]
          exact ⟨enum, rfl, holds⟩
      | cons str rest =>
          obtain ⟨next, ran, after⟩ := nextElement_represents holds (short str rfl)
          have performed : (perform .nextElement).run enum = .ok (.element str, next) :=
            answered .element ran
          rw [performed]
          exact ⟨next, rfl, after⟩
  | numberOfElements =>
      refine ⟨enum, ?_, holds⟩
      show (Outcome.count enum.m_size, some enum) = _
      rw [holds.size]
      rfl
  | hasMoreElements =>
      refine ⟨enum, ?_, holds⟩
      show (Outcome.more (decide (enum.m_size > 0)), some enum) = _
      rw [holds.size]
      cases elements <;> rfl
  | clear =>
      obtain ⟨next, ran, after⟩ := clear_represents holds
      have performed : (perform .clear).run enum = .ok (.done, next) :=
        answered (fun _ => .done) ran
      rw [performed]
      exact ⟨next, rfl, after⟩

/-- The longest element is not returned. -/
theorem call_fails {request : Request} (holds : Represents enum elements)
    (long : ¬ request.Short elements) : (call enum request).1 ≠ (serve elements request).1 := by
  cases request with
  | nextElement =>
      cases elements with
      | nil => exact absurd (fun str isHead => by cases isHead) long
      | cons str rest =>
          have longest : str.length = 2 ^ 32 - 1 := by
            by_contra short
            refine long ?_
            intro other isHead
            obtain rfl : str = other := Option.some.inj isHead
            exact short
          obtain ⟨failure, threw⟩ := nextElement_fails holds longest
          have performed : (perform .nextElement).run enum = .error failure := by
            unfold perform
            rw [StateT.run_bind, threw]
            rfl
          unfold call
          rw [performed]
          intro same
          cases same
  | addElement | numberOfElements | hasMoreElements | clear => exact absurd trivial long

/-- The run lemma. An enumeration answers as the collection that it represents exactly while no
element to return has the greatest length. -/
theorem outcomes_iff (requests : List Request) : ∀ {enum : TempFileEnumerationImpl}
    {elements : List Bytes}, Represents enum elements → (∀ request ∈ requests, request.Fits) →
      (outcomes enum requests = serveAll elements requests ↔ Short elements requests) := by
  induction requests with
  | nil =>
      intro enum elements holds fits
      exact ⟨fun _ => trivial, fun _ => rfl⟩
  | cons request rest ih =>
      intro enum elements holds fits
      obtain ⟨first, later⟩ := List.forall_mem_cons.mp fits
      rw [outcomes, serveAll, Short, List.cons.injEq]
      constructor
      · rintro ⟨here, after⟩
        have short : request.Short elements := by
          by_contra long
          exact call_fails holds long here
        obtain ⟨next, called, nextHolds⟩ := call_serves holds first short
        rw [called] at after
        exact ⟨short, (ih nextHolds later).mp after⟩
      · rintro ⟨short, after⟩
        obtain ⟨next, called, nextHolds⟩ := call_serves holds first short
        rw [called]
        exact ⟨rfl, (ih nextHolds later).mpr after⟩

/-- A new enumeration answers as an empty collection, to any requests, exactly when no element of
the greatest length is to be returned. -/
theorem collection_iff (memory : Vector UInt8 defaultBufSize) (requests : List Request)
    (fits : ∀ request ∈ requests, request.Fits) :
    (TempFileEnumerationImpl.new memory).map (fun enum => outcomes enum requests) =
        .ok (serveAll [] requests) ↔ Short [] requests := by
  obtain ⟨enum, isNew, holds⟩ := new_represents memory
  rw [isNew, ← outcomes_iff requests holds fits]
  exact ⟨Except.ok.inj, congrArg Except.ok⟩

/-- Two elements, of which one is empty, a clear, and requests of an empty collection. -/
def someRequests : List Request :=
  [.addElement [72, 105], .addElement [], .nextElement, .numberOfElements, .nextElement,
    .nextElement, .addElement [1], .clear, .hasMoreElements, .nextElement]

theorem collection_iff_someRequests :
    (TempFileEnumerationImpl.new (Vector.replicate defaultBufSize 0)).map
        (fun enum => outcomes enum someRequests) = .ok (serveAll [] someRequests) ↔
      Short [] someRequests :=
  collection_iff _ someRequests (by
    simp only [someRequests, List.forall_mem_cons]
    exact ⟨by decide, by decide, trivial, trivial, trivial, trivial, by decide, trivial, trivial,
      trivial, by simp⟩)

/-- An element of four gigabytes less one byte is below the bound, and it is not returned. -/
theorem longest_not_returned :
    (Request.addElement (List.replicate (2 ^ 32 - 1) 97)).Fits ∧
      (TempFileEnumerationImpl.new (Vector.replicate defaultBufSize 0)).map
          (fun enum => outcomes enum
            [.addElement (List.replicate (2 ^ 32 - 1) 97), .nextElement]) ≠
        .ok (serveAll [] [.addElement (List.replicate (2 ^ 32 - 1) 97), .nextElement]) := by
  obtain ⟨str, isStr⟩ : ∃ str, List.replicate (2 ^ 32 - 1) (97 : UInt8) = str := ⟨_, rfl⟩
  have length : str.length = 2 ^ 32 - 1 := by rw [← isStr, List.length_replicate]
  rw [isStr]
  have fits : (Request.addElement str).Fits := by
    show str.length < 2 ^ 32
    rw [length]
    decide
  refine ⟨fits, ?_⟩
  obtain ⟨enum, isNew, holds⟩ := new_represents (Vector.replicate defaultBufSize 0)
  rw [isNew]
  intro same
  have allFit : ∀ request ∈ [Request.addElement str, .nextElement], request.Fits :=
    List.forall_mem_cons.mpr ⟨fits, List.forall_mem_cons.mpr ⟨trivial, by simp⟩⟩
  have short := (outcomes_iff _ holds allFit).mp (Except.ok.inj same)
  exact short.2.1 str rfl length

end Runs

end Blocxx.Enumeration
