import Blocxx.Library.TransitionSystem
import Blocxx.StreamBuffer.BaseStreamBuffer
import Blocxx.StringBuffer.Bytes

/-!
This file embeds `OStringStream` and settles when it gives what was written to it.
-/

namespace Blocxx.StreamBuffer

open Library Library.Memory StringBuffers

/-- The virtual functions of `OStringStreamBuf`, which writes to its `StringBuffer` and has nothing
to read. -/
def stringDerived : Derived StringBuffer where
  buffer_to_device m_buf c :=
    if fits : c.length + 1 < 2 ^ 64 then
      (m_buf.append (.outside ⟨c, fits⟩) c.length).map fun m_buf => (0, m_buf)
    else none
  buffer_from_device _ _ := none

/-- The buffer and the state of the `std::ostream`. -/
structure OStringStream where
  m_buf : BaseStreamBuffer StringBuffer
  badbit : Bool

namespace OStringStream

section Embedding

variable (fuel : Nat) (stream : OStringStream)

/-- The constructor from a size. -/
def new (size : UInt64) : OStringStream where
  m_buf := .new .E_OUT size.toNat (.ofSize size)
  badbit := false

/-- A bad stream writes nothing, and a character that is refused makes it bad. -/
def put (c : UInt8) : Option OStringStream :=
  if stream.badbit then some stream
  else
    (BaseStreamBuffer.sputc stringDerived fuel stream.m_buf c).map fun result =>
      ⟨result.2, decide (result.1 = EOF)⟩

def write (s : Bytes) : Option OStringStream :=
  if stream.badbit then some stream
  else
    (stream.m_buf.xsputn stringDerived fuel s).map fun result =>
      ⟨result.2, decide (result.1 ≠ s.length)⟩

/-- The `String` is made of the C string of the buffer. -/
def toString : Option (Bytes × OStringStream) :=
  (stream.m_buf.sync stringDerived).map fun result =>
    (cString result.2.device.m_bfr, { stream with m_buf := result.2 })

/-- The string at the pointer. -/
def c_str : Option (Bytes × OStringStream) := stream.toString

def length : Option (Nat × OStringStream) :=
  (stream.m_buf.sync stringDerived).map fun result =>
    (result.2.device.m_len, { stream with m_buf := result.2 })

/-- The put area stays as it is. -/
def reset : Option OStringStream :=
  stream.m_buf.device.reset.map fun device =>
    { stream with m_buf := { stream.m_buf with device := device } }

/-- The copy constructor, and what it leaves of the original. -/
def copy (ostr : OStringStream) : Option (OStringStream × OStringStream) :=
  ostr.length.bind fun size =>
    size.2.toString.bind fun text =>
      ((new (.ofNat size.1)).write fuel text.1).map fun stream => (stream, text.2)

/-- The assignment of another stream, and what it leaves of that one. -/
def assign (ostr : OStringStream) : Option (OStringStream × OStringStream) :=
  stream.reset.bind fun stream =>
    ostr.toString.bind fun text =>
      (stream.write fuel text.1).map fun stream => (stream, text.2)

end Embedding

/-- A call on the stream with a number. The last number of `copy` and `assign` is the original. -/
inductive Label where
  | construct (i : Nat) (size : UInt64)
  | put (i : Nat) (c : UInt8)
  | write (i : Nat) (s : Bytes)
  | reset (i : Nat)
  | copy (i j : Nat)
  | assign (i j : Nat)
  | toString (i : Nat)
  | c_str (i : Nat)
  | length (i : Nat)

/-- What a call answers: nothing, whether the stream is good, a text, or a length. -/
inductive Answer where
  | done
  | good (isGood : Bool)
  | text (s : Bytes)
  | length (n : Nat)
  deriving DecidableEq

/-- Each stream comes with the bytes that it should have. A call that does not return has no
answer. -/
structure State where
  streams : Nat → Option OStringStream
  reference : Nat → Bytes
  answer : Option Answer

/-- The streams after a change of the one with this number. -/
def stored (streams : Nat → Option OStringStream) (i : Nat) (stream : OStringStream) :
    Nat → Option OStringStream :=
  Function.update streams i (some stream)

/-- What a call does to the streams. -/
def Label.run (fuel : Nat) (streams : Nat → Option OStringStream) :
    Label → Option (Answer × (Nat → Option OStringStream))
  | .construct i size => some (.done, stored streams i (new size))
  | .put i c =>
      (streams i).bind fun stream => (stream.put fuel c).map fun after =>
        (.good (!after.badbit), stored streams i after)
  | .write i s =>
      (streams i).bind fun stream => (stream.write fuel s).map fun after =>
        (.good (!after.badbit), stored streams i after)
  | .reset i =>
      (streams i).bind fun stream => stream.reset.map fun after => (.done, stored streams i after)
  | .copy i j =>
      (streams j).bind fun ostr => (ostr.copy fuel).map fun after =>
        (.good (!after.1.badbit), stored (stored streams j after.2) i after.1)
  | .assign i j =>
      (streams i).bind fun stream => (streams j).bind fun ostr =>
        if i = j then some (.good (!stream.badbit), streams)
        else (stream.assign fuel ostr).map fun after =>
          (.good (!after.1.badbit), stored (stored streams j after.2) i after.1)
  | .toString i =>
      (streams i).bind fun stream => stream.toString.map fun after =>
        (.text after.1, stored streams i after.2)
  | .c_str i =>
      (streams i).bind fun stream => stream.c_str.map fun after =>
        (.text after.1, stored streams i after.2)
  | .length i =>
      (streams i).bind fun stream => stream.length.map fun after =>
        (.length after.1, stored streams i after.2)

/-- What a call means for the bytes. -/
def Label.apply (reference : Nat → Bytes) : Label → Nat → Bytes
  | .construct i _ => Function.update reference i []
  | .put i c => Function.update reference i (reference i ++ [c])
  | .write i s => Function.update reference i (reference i ++ s)
  | .reset i => Function.update reference i []
  | .copy i j => Function.update reference i (reference j)
  | .assign i j => Function.update reference i (reference j)
  | .toString _ | .c_str _ | .length _ => reference

/-- The answer of a string accumulator that has these bytes after the call. -/
def Label.expected (reference : Nat → Bytes) : Label → Answer
  | .construct _ _ | .reset _ => .done
  | .put _ _ | .write _ _ | .copy _ _ | .assign _ _ => .good true
  | .toString i | .c_str i => .text (reference i)
  | .length i => .length (reference i).length

/-- The streams of a call exist, a new one does not, no byte is zero, and the bytes of a stream are
far from the end of the address space. -/
def Label.Given (state : State) : Label → Prop
  | .construct i _ => state.streams i = none
  | .put i c => state.streams i ≠ none ∧ c ≠ 0 ∧ (state.reference i).length + 2 < 2 ^ 62
  | .write i s => state.streams i ≠ none ∧ 0 ∉ s ∧
      (state.reference i).length + s.length + 1 < 2 ^ 62
  | .copy i j => state.streams i = none ∧ state.streams j ≠ none
  | .assign i j => state.streams i ≠ none ∧ state.streams j ≠ none
  | .reset i | .toString i | .c_str i | .length i => state.streams i ≠ none

instance (state : State) (label : Label) : Decidable (label.Given state) := by
  unfold Label.Given
  split <;> infer_instance

/-- No call follows one that does not return. -/
def State.next (fuel : Nat) (state : State) (label : Label) : Option State :=
  if state.answer ≠ none ∧ label.Given state then
    some
      { streams := ((label.run fuel state.streams).map Prod.snd).getD state.streams
        reference := label.apply state.reference
        answer := (label.run fuel state.streams).map Prod.fst }
  else none

def start : State := ⟨fun _ => none, fun _ => [], some .done⟩

def system (fuel : Nat) : TransitionSystem State Label :=
  .computed (fun state => state = start) (State.next fuel)

/-- The call returns with the answer of a string accumulator. -/
def Right (label : Label) (next : State) : Prop :=
  next.answer = some (label.expected next.reference)

instance (label : Label) (next : State) : Decidable (Right label next) :=
  inferInstanceAs (Decidable (_ = _))

/-- A block can be written: the buffer is not empty, and the count of the put area stays an `int`. -/
def Writable (stream : OStringStream) (s : Bytes) : Prop :=
  (stream.m_buf.m_bufSize ≠ 0 ∨ s = []) ∧ stream.m_buf.Counted s.length

instance (stream : OStringStream) (s : Bytes) : Decidable (stream.Writable s) :=
  inferInstanceAs (Decidable (_ ∧ _))

/-- The condition on the streams before a call. -/
def Condition (state : State) : Label → Prop
  | .put i c => ∀ stream ∈ state.streams i, stream.Writable [c]
  | .write i s => ∀ stream ∈ state.streams i, stream.Writable s
  | .reset i => ∀ stream ∈ state.streams i, stream.m_buf.written = []
  | .copy _ j => (state.reference j).length < 2 ^ 31
  | .assign i j => i ≠ j → ∀ stream ∈ state.streams i,
      stream.m_buf.written = [] ∧ stream.Writable (state.reference j)
  | .construct _ _ | .toString _ | .c_str _ | .length _ => True

instance (state : State) (label : Label) : Decidable (Condition state label) := by
  unfold Condition
  split <;> infer_instance

section Calls

open BaseStreamBuffer

variable {stream : OStringStream} {content : Bytes} {fuel : Nat}

/-- The bytes that a stream can have. -/
def Allowed (content : Bytes) : Prop := 0 ∉ content ∧ content.length + 1 < 2 ^ 62

theorem Allowed.prefix_ {first second : Bytes} (allowed : Allowed (first ++ second)) :
    Allowed first := by
  obtain ⟨free, small⟩ := allowed
  rw [List.mem_append, not_or] at free
  rw [List.length_append] at small
  exact ⟨free.1, by omega⟩

/-- The invariant of one stream. -/
structure Sound (stream : OStringStream) (content : Bytes) : Prop where
  good : stream.badbit = false
  direction : stream.m_buf.direction = .E_OUT
  carries : Carries Holds stream.m_buf content
  counted : stream.m_buf.written.length < 2 ^ 31
  allowed : Allowed content

/-- The `StringBuffer` takes all bytes but zero bytes. -/
theorem string_delivers (limit : Nat) : Delivers stringDerived Holds Allowed limit := by
  rintro m_buf received s holds ⟨free, small⟩ -
  rw [List.mem_append, not_or] at free
  rw [List.length_append] at small
  have fits : s.length + 1 < 2 ^ 64 := by omega
  obtain ⟨after, appended, has⟩ := holds.append_small ⟨s, fits⟩ free.2 small
  refine ⟨after, ?_, has⟩
  show (if fits : s.length + 1 < 2 ^ 64 then _ else _) = _
  rw [dif_pos fits, appended]
  rfl

theorem Sound.putSize (sound : Sound stream content) :
    stream.m_buf.putSize = stream.m_buf.m_bufSize := by
  rw [BaseStreamBuffer.putSize, sound.direction]
  rfl

theorem sound_new (size : UInt64) : Sound (new size) [] where
  good := rfl
  direction := rfl
  carries := ⟨[], holds_ofSize size, rfl⟩
  counted := Nat.two_pow_pos 31
  allowed := ⟨List.not_mem_nil, by decide⟩

/-- What the stream is after its buffer has accepted a block. -/
theorem Sound.accepts (sound : Sound stream content) {s : Bytes} (writable : stream.Writable s)
    {after : BaseStreamBuffer StringBuffer} (accepts : Accepts Holds stream.m_buf content s after)
    (allowed : Allowed (content ++ s)) : Sound ⟨after, false⟩ (content ++ s) where
  good := rfl
  direction := accepts.kept.direction.trans sound.direction
  carries := accepts.carries
  counted := by
    have fits := after.length_written_le
    have length := accepts.length
    rw [accepts.kept.putSize] at fits
    rcases writable.2 with small | few
    · exact fits.trans_lt small
    · exact length.trans_lt few
  allowed := allowed

theorem Sound.put (sound : Sound stream content) {c : UInt8} (writable : stream.Writable [c])
    (allowed : Allowed (content ++ [c])) (enough : 0 < fuel) :
    ∃ after, stream.put fuel c = some after ∧ Sound after (content ++ [c]) := by
  have room : 0 < stream.m_buf.putSize := by
    rw [sound.putSize]
    exact Nat.pos_of_ne_zero (writable.1.resolve_right (List.cons_ne_nil c []))
  obtain ⟨after, puts, accepts⟩ := sputc_spec (string_delivers _) le_rfl sound.carries
    sound.allowed room writable.2 enough
  refine ⟨⟨after, false⟩, ?_, sound.accepts writable accepts allowed⟩
  rw [OStringStream.put, sound.good, if_neg Bool.false_ne_true, puts, Option.map_some,
    decide_eq_false (toIntType_ne_EOF c)]

theorem Sound.write (sound : Sound stream content) {s : Bytes} (writable : stream.Writable s)
    (allowed : Allowed (content ++ s)) (enough : 0 < fuel) :
    ∃ after, stream.write fuel s = some after ∧ Sound after (content ++ s) := by
  have room : 0 < stream.m_buf.putSize ∨ s = [] := by
    rw [sound.putSize]
    exact writable.1.imp_left Nat.pos_of_ne_zero
  obtain ⟨after, puts, accepts⟩ := xsputn_spec (string_delivers _) le_rfl
    (fun _ _ => Allowed.prefix_) sound.carries allowed room writable.2 enough
  refine ⟨⟨after, false⟩, ?_, sound.accepts writable accepts allowed⟩
  rw [OStringStream.write, sound.good, if_neg Bool.false_ne_true, puts, Option.map_some,
    decide_eq_false (not_not.mpr rfl)]

/-- After a flush the `StringBuffer` has all bytes of the stream. -/
theorem Sound.sync (sound : Sound stream content) :
    ∃ device, stream.m_buf.sync stringDerived = some (0, stream.m_buf.emptied device) ∧
      Holds device content ∧
      Sound { stream with m_buf := stream.m_buf.emptied device } content := by
  obtain ⟨device, flushed, holds⟩ := buffer_out_spec (string_delivers _) le_rfl sound.carries
    sound.allowed sound.counted
  refine ⟨device, flushed, holds, ?_⟩
  exact ⟨sound.good, sound.direction, ⟨content, holds, (List.append_nil _).symm⟩,
    Nat.two_pow_pos 31, sound.allowed⟩

/-- The C string of a buffer without zero bytes. -/
theorem cString_of_holds {m_buf : StringBuffer} (holds : Holds m_buf content)
    (free : 0 ∉ content) : cString m_buf.m_bfr = content := by
  obtain ⟨rest, cells⟩ := holds.cells
  rw [cells, cString_append free]

theorem Sound.toString (sound : Sound stream content) :
    ∃ after, stream.toString = some (content, after) ∧ Sound after content := by
  obtain ⟨device, flushed, holds, after⟩ := sound.sync
  refine ⟨_, ?_, after⟩
  rw [OStringStream.toString, flushed, Option.map_some]
  exact congrArg (fun text => some (text, _)) (cString_of_holds holds sound.allowed.1)

theorem Sound.length (sound : Sound stream content) :
    ∃ after, stream.length = some (content.length, after) ∧ Sound after content := by
  obtain ⟨device, flushed, holds, after⟩ := sound.sync
  refine ⟨_, ?_, after⟩
  rw [OStringStream.length, flushed, Option.map_some]
  exact congrArg (fun length => some (length, _)) holds.length

/-- A stream with an empty put area is reset. -/
theorem Sound.reset (sound : Sound stream content) (empty : stream.m_buf.written = []) :
    ∃ device, stream.reset =
      some { stream with m_buf := { stream.m_buf with device := device } } ∧
      Sound { stream with m_buf := { stream.m_buf with device := device } } [] := by
  obtain ⟨received, holds, -⟩ := sound.carries
  obtain ⟨device, reset, none_⟩ := holds.reset
  refine ⟨device, ?_, sound.good, sound.direction, ⟨[], none_, empty.symm⟩, sound.counted,
    List.not_mem_nil, by decide⟩
  rw [OStringStream.reset, reset, Option.map_some]

/-- A copy has a buffer of the size of its content. -/
theorem Sound.copy (sound : Sound stream content) (int : content.length < 2 ^ 31)
    (enough : 0 < fuel) :
    ∃ after, stream.copy fuel = some after ∧ Sound after.1 content ∧ Sound after.2 content := by
  obtain ⟨counted, length, sound⟩ := sound.length
  obtain ⟨ostr, text, original⟩ := sound.toString
  have size : (UInt64.ofNat content.length).toNat = content.length := by
    exact UInt64.toNat_ofNat_of_lt' (by
      show content.length < 2 ^ 64
      omega)
  have writable : (new (.ofNat content.length)).Writable content := by
    refine ⟨?_, .inr ?_⟩
    · show (UInt64.ofNat content.length).toNat ≠ 0 ∨ content = []
      rw [size, Ne, List.length_eq_zero_iff]
      exact (em _).symm
    · show 0 + content.length < 2 ^ 31
      omega
  obtain ⟨after, written, copied⟩ :=
    (sound_new (.ofNat content.length)).write writable sound.allowed enough
  refine ⟨(after, ostr), ?_, copied, original⟩
  rw [OStringStream.copy, length, Option.bind_some, text, Option.bind_some, written,
    Option.map_some]

theorem Sound.assign (sound : Sound stream content) {ostr : OStringStream} {other : Bytes}
    (original : Sound ostr other) (empty : stream.m_buf.written = [])
    (writable : stream.Writable other) (enough : 0 < fuel) :
    ∃ after, stream.assign fuel ostr = some after ∧ Sound after.1 other ∧ Sound after.2 other := by
  obtain ⟨device, reset, cleared⟩ := sound.reset empty
  obtain ⟨flushed, text, original⟩ := original.toString
  obtain ⟨after, written, assigned⟩ := cleared.write writable original.allowed enough
  refine ⟨(after, flushed), ?_, assigned, original⟩
  rw [OStringStream.assign, reset, Option.bind_some, text, Option.bind_some, written,
    Option.map_some]

end Calls

section Runs

variable {streams : Nat → Option OStringStream} {reference : Nat → Bytes} {fuel : Nat}

/-- The invariant of all streams. -/
def AllSound (streams : Nat → Option OStringStream) (reference : Nat → Bytes) : Prop :=
  ∀ i stream, streams i = some stream → Sound stream (reference i)

theorem AllSound.stored (sound : AllSound streams reference) (i : Nat) {after : OStringStream}
    {content : Bytes} (here : Sound after content) :
    AllSound (stored streams i after) (Function.update reference i content) := by
  intro k stream is
  rw [OStringStream.stored] at is
  rcases eq_or_ne k i with rfl | different
  · rw [Function.update_self] at is ⊢
    obtain rfl := Option.some.inj is
    exact here
  · rw [Function.update_of_ne different] at is ⊢
    exact sound k stream is

/-- A flush changes no content. -/
theorem AllSound.stored_same (sound : AllSound streams reference) (i : Nat)
    {after : OStringStream} (here : Sound after (reference i)) :
    AllSound (OStringStream.stored streams i after) reference := by
  have stored := sound.stored i here
  rwa [Function.update_eq_self] at stored

/-- A call that meets its condition answers as it should, and keeps the invariant. -/
theorem AllSound.run {state : State} (sound : AllSound state.streams state.reference)
    {label : Label} (given : label.Given state) (met : Condition state label)
    (enough : 0 < fuel) :
    ∃ streams, label.run fuel state.streams =
        some (label.expected (label.apply state.reference), streams) ∧
      AllSound streams (label.apply state.reference) := by
  cases label with
  | construct i size => exact ⟨_, rfl, sound.stored i (sound_new size)⟩
  | put i c =>
      obtain ⟨stream, is⟩ := Option.ne_none_iff_exists'.mp given.1
      have here := sound i stream is
      obtain ⟨after, puts, appended⟩ := here.put (met stream is) (c := c) (by
        refine ⟨?_, ?_⟩
        · rw [List.mem_append, List.mem_singleton, not_or]
          exact ⟨here.allowed.1, given.2.1.symm⟩
        · rw [List.length_append]
          exact given.2.2) enough
      refine ⟨_, ?_, sound.stored i appended⟩
      rw [Label.run, is, Option.bind_some, puts, Option.map_some, appended.good]
      rfl
  | write i s =>
      obtain ⟨stream, is⟩ := Option.ne_none_iff_exists'.mp given.1
      have here := sound i stream is
      obtain ⟨after, puts, appended⟩ := here.write (met stream is) (by
        refine ⟨?_, ?_⟩
        · rw [List.mem_append, not_or]
          exact ⟨here.allowed.1, given.2.1⟩
        · rw [List.length_append]
          exact given.2.2) enough
      refine ⟨_, ?_, sound.stored i appended⟩
      rw [Label.run, is, Option.bind_some, puts, Option.map_some, appended.good]
      rfl
  | reset i =>
      obtain ⟨stream, is⟩ := Option.ne_none_iff_exists'.mp given
      obtain ⟨device, resets, cleared⟩ := (sound i stream is).reset (met stream is)
      refine ⟨_, ?_, sound.stored i cleared⟩
      rw [Label.run, is, Option.bind_some, resets, Option.map_some]
      rfl
  | copy i j =>
      obtain ⟨ostr, is⟩ := Option.ne_none_iff_exists'.mp given.2
      obtain ⟨after, copies, copied, original⟩ := (sound j ostr is).copy met enough
      refine ⟨_, ?_, (sound.stored_same j original).stored i copied⟩
      rw [Label.run, is, Option.bind_some, copies, Option.map_some, copied.good]
      rfl
  | assign i j =>
      obtain ⟨stream, is⟩ := Option.ne_none_iff_exists'.mp given.1
      obtain ⟨ostr, other⟩ := Option.ne_none_iff_exists'.mp given.2
      rcases eq_or_ne i j with rfl | different
      · refine ⟨state.streams, ?_, ?_⟩
        · rw [Label.run, is, Option.bind_some, Option.bind_some, if_pos rfl,
            (sound i stream is).good]
          rfl
        · show AllSound _ (Function.update state.reference i (state.reference i))
          rwa [Function.update_eq_self]
      · obtain ⟨empty, writable⟩ := met different stream is
        obtain ⟨after, assigns, assigned, original⟩ :=
          (sound i stream is).assign (sound j ostr other) empty writable enough
        refine ⟨_, ?_, (sound.stored_same j original).stored i assigned⟩
        rw [Label.run, is, Option.bind_some, other, Option.bind_some, if_neg different, assigns,
          Option.map_some, assigned.good]
        rfl
  | toString i =>
      obtain ⟨stream, is⟩ := Option.ne_none_iff_exists'.mp given
      obtain ⟨after, gives, same⟩ := (sound i stream is).toString
      refine ⟨_, ?_, sound.stored_same i same⟩
      rw [Label.run, is, Option.bind_some, gives, Option.map_some]
      rfl
  | c_str i =>
      obtain ⟨stream, is⟩ := Option.ne_none_iff_exists'.mp given
      obtain ⟨after, gives, same⟩ := (sound i stream is).toString
      refine ⟨_, ?_, sound.stored_same i same⟩
      rw [Label.run, is, Option.bind_some, c_str, gives, Option.map_some]
      rfl
  | length i =>
      obtain ⟨stream, is⟩ := Option.ne_none_iff_exists'.mp given
      obtain ⟨after, gives, same⟩ := (sound i stream is).length
      refine ⟨_, ?_, sound.stored_same i same⟩
      rw [Label.run, is, Option.bind_some, gives, Option.map_some]
      rfl

/-- In a run whose calls meet the condition, each stream is a string accumulator. -/
theorem run_right (enough : 0 < fuel) {steps : List (TransitionSystem.Transition State Label)}
    (run : (system fuel).Run start steps)
    (met : ∀ step ∈ steps, Condition step.source step.label) :
    ∀ step ∈ steps, Right step.label step.target := by
  have keep (state : State) (label : Label) (next : State)
      (sound : AllSound state.streams state.reference)
      (taken : (system fuel).step state label next) (met : Condition state label) :
      AllSound next.streams next.reference ∧ Right label next := by
    replace taken : state.next fuel label = some next := taken
    rw [State.next] at taken
    split at taken
    · next ready =>
        obtain rfl := Option.some.inj taken
        obtain ⟨streams, runs, keeps⟩ := sound.run ready.2 met enough
        rw [Right, runs]
        exact ⟨keeps, rfl⟩
    · cases taken
  exact run.forall_of_condition keep (fun _ _ is => absurd is nofun) met

/-- Two streams, the second of them a copy, are written, flushed, reset and assigned. -/
def accumulated : List Label :=
  [.construct 0 2, .write 0 [97, 98, 99], .put 0 255, .copy 1 0, .write 1 [100], .toString 0,
    .length 1, .reset 1, .assign 1 0, .c_str 1, .toString 0]

theorem accumulated_right :
    (TransitionSystem.follow (State.next 1) start accumulated).length = accumulated.length ∧
      ∀ step ∈ TransitionSystem.follow (State.next 1) start accumulated,
        Right step.label step.target := by
  constructor
  · decide +kernel
  · apply run_right Nat.one_pos (TransitionSystem.follow_run _ _ _ _)
    decide +kernel

/-- A character is written, and the stream is reset before it is flushed. -/
def unflushed : List Label := [.construct 0 256, .put 0 97, .reset 0, .toString 0]

theorem unflushed_not_right : ¬ ∀ fuel, 0 < fuel →
    ∀ step ∈ TransitionSystem.follow (State.next fuel) start unflushed,
      Right step.label step.target := by
  intro all
  have last := all 1 Nat.one_pos
  revert last
  decide +kernel

end Runs

end OStringStream

end Blocxx.StreamBuffer
