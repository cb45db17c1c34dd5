import Blocxx.String.Substring

/-!
This file embeds `String::readObject` and `readStringArray` with the buffer that they allocate, and
proves for which streams they write only into it. The results are strings that get the announced
bytes.
-/

namespace Blocxx.Strings

open Library Library.Memory Library.ByteStream BinarySerialization

/-- A `streambuf` that is read. It never gives more bytes than it is asked for. -/
structure InputStream (State : Type) where
  sgetn : Nat → State → Bytes × State
  atMost : ∀ count state, (sgetn count state).1.length ≤ count

/-- The stream of the readers, which put nothing. -/
def InputStream.toByteStream {State : Type} (istrm : InputStream State) :
    ByteStream Failure State where
  sputn _ state := .ok (0, state)
  sgetn count state := .ok (istrm.sgetn count state)

/-- `BadSignatureException` is derived from `IOException`. -/
def IsIOException : Failure → Prop
  | .IOException _ => True
  | .BadSignatureException _ => True
  | _ => False

section Embedding

variable {State : Type} (istrm : InputStream State)

/-- `readObject` of the string `target`: the exception or the state of the stream, and the string
behind the call. A write outside of the buffer has no result. -/
def readObjectInto (target : CowString) (state : State) :
    Option (Except Failure State × CowString) :=
  match (readLen istrm.toByteStream).run state with
  | .error failure => some (.error failure, target)
  | .ok (len, state) => do
      let bfr := allocate (len + 1).toNat
      let (dataIn, state) := istrm.sgetn len.toNat state
      let bfr ← bfr.writeBytes 0 dataIn
      if dataIn.length ≠ len.toNat then
        return (.error (.IOException "Failed reading data"), target)
      let bfr ← bfr.writeByte len.toNat 0
      let m_buf ← ofMemory bfr 0 len.toNat
      return (.ok state, m_buf)

/-- The loop of `readArray`, with the number of elements that are left. -/
def readStrings : Nat → State → Option (Except Failure (List CowString × State))
  | 0, state => some (.ok ([], state))
  | left + 1, state => do
      match ← readObjectInto istrm none state with
      | (.error failure, _) => return .error failure
      | (.ok state, x) =>
          match ← readStrings left state with
          | .error failure => return .error failure
          | .ok (a, state) => return .ok (x :: a, state)

/-- The signature and the number of elements. -/
def readArrayHead : Action State UInt32 := do
  verifySignature istrm.toByteStream BINSIG_STRARRAY
  readLen istrm.toByteStream

def readStringArrayFrom (state : State) : Option (Except Failure (List CowString × State)) :=
  match (readArrayHead istrm).run state with
  | .error failure => some (.error failure)
  | .ok (len, state) => readStrings istrm len.toNat state

/-- The stream announces a string of these bytes here, and it gives them. -/
def Announces (state : State) (bytes : Bytes) (next : State) : Prop :=
  ∃ len middle, (readLen istrm.toByteStream).run state = .ok (len, middle) ∧
    istrm.sgetn len.toNat middle = (bytes, next) ∧ bytes.length = len.toNat

/-- The array gets the announced strings. -/
def AnnouncesAll : State → List CowString → State → Prop
  | state, [], next => next = state
  | state, x :: a, next =>
      ∃ bytes middle, Announces istrm state bytes middle ∧ Shows x bytes ∧
        AnnouncesAll middle a next

/-- The call writes into its buffer. It throws an `IOException` and leaves the target, or it assigns
the announced bytes. -/
def ReadsSafely (target : CowString) (state : State) : Prop :=
  ∃ result str, readObjectInto istrm target state = some (result, str) ∧
    match result with
    | .error failure => IsIOException failure ∧ str = target
    | .ok next => ∃ bytes, Announces istrm state bytes next ∧ Shows str bytes

def ReadsArraySafely (state : State) : Prop :=
  ∃ result, readStringArrayFrom istrm state = some result ∧
    match result with
    | .error failure => IsIOException failure
    | .ok (a, next) => ∃ len middle, (readArrayHead istrm).run state = .ok (len, middle) ∧
        a.length = len.toNat ∧ AnnouncesAll istrm middle a next

/-- Behind the largest length the stream gives nothing. -/
def LengthFits (state : State) : Prop :=
  ∀ middle, (readLen istrm.toByteStream).run state = .ok (0xFFFFFFFF, middle) →
    (istrm.sgetn 0xFFFFFFFF middle).1 = []

/-- The lengths fit of as many strings as the stream gives. -/
def LengthsFit : Nat → State → Prop
  | 0, _ => True
  | left + 1, state => LengthFits istrm state ∧
      ∀ bytes next, Announces istrm state bytes next → LengthsFit left next

def ArrayFits (state : State) : Prop :=
  ∀ len middle, (readArrayHead istrm).run state = .ok (len, middle) →
    LengthsFit istrm len.toNat middle

end Embedding

section Failures

variable {State : Type} (istrm : InputStream State)

theorem read_failsOnly (count : Nat) :
    FailsOnly IsIOException (read istrm.toByteStream count) := by
  unfold BinarySerialization.read
  refine FailsOnly.bind ?_ fun dataIn => ?_
  · intro state failure threw
    cases threw
  · dsimp only
    split
    · exact (FailsOnly.throw trivial).bind fun _ => FailsOnly.pure dataIn
    · exact FailsOnly.pure dataIn

theorem readByte_failsOnly : FailsOnly IsIOException (readByte istrm.toByteStream) :=
  (read_failsOnly istrm 1).bind fun dataIn => FailsOnly.pure (dataIn.headD 0)

theorem readLen_failsOnly : FailsOnly IsIOException (readLen istrm.toByteStream) := by
  unfold readLen
  refine (readByte_failsOnly istrm).bind fun lc => ?_
  dsimp only
  split
  · have octets := (read_failsOnly istrm (lc &&& 0x7f).toNat).bind fun octets =>
      FailsOnly.pure (octets.foldl appendOctet 0)
    split
    · exact (FailsOnly.throw trivial).bind fun _ => octets
    · exact octets
  · exact FailsOnly.pure lc.toUInt32

theorem readArrayHead_failsOnly : FailsOnly IsIOException (readArrayHead istrm) := by
  unfold readArrayHead verifySignature
  refine FailsOnly.bind ?_ fun _ => readLen_failsOnly istrm
  refine (readByte_failsOnly istrm).bind fun val => ?_
  split
  · exact FailsOnly.throw trivial
  · exact FailsOnly.pure ()

end Failures

section Buffer

/-- The bytes that are delivered into a new buffer. -/
theorem writeBytes_allocate {size : Nat} {dataIn : Bytes} (fits : dataIn.length ≤ size) :
    writeBytes (allocate size) 0 dataIn =
      some (dataIn.map some ++ allocate (size - dataIn.length)) := by
  rw [writeBytes, if_pos (by rwa [allocate, List.length_replicate, Nat.zero_add]), store,
    List.take_zero, List.nil_append, allocate, List.drop_replicate, Nat.zero_add]
  rfl

/-- The terminator behind them fills the last place of the buffer. -/
theorem writeByte_terminator (dataIn : Bytes) :
    writeByte (dataIn.map some ++ allocate 1) dataIn.length 0 =
      some (dataIn.map some ++ [some 0]) := by
  rw [writeByte, if_pos (by simp [allocate])]
  simp [allocate]

variable {State : Type} {istrm : InputStream State} {target : CowString}
  {state middle next : State} {len : UInt32} {dataIn : Bytes}

/-- A block of no bytes takes no bytes, and else the string gets what it announces. -/
theorem readObjectInto_eq
    (announced : (readLen istrm.toByteStream).run state = .ok (len, middle))
    (delivered : istrm.sgetn len.toNat middle = (dataIn, next)) :
    readObjectInto istrm target state =
      if len = 0xFFFFFFFF ∧ dataIn ≠ [] then none
      else if dataIn.length ≠ len.toNat then
        some (.error (.IOException "Failed reading data"), target)
      else some (.ok next, ofBytes (some dataIn)) := by
  have atMost := istrm.atMost len.toNat middle
  rw [delivered] at atMost
  unfold readObjectInto
  rw [announced]
  simp only [delivered]
  by_cases largest : len = 0xFFFFFFFF
  · subst largest
    have wrapped : ((0xFFFFFFFF : UInt32) + 1).toNat = 0 := rfl
    have other : dataIn = [] → dataIn.length ≠ (0xFFFFFFFF : UInt32).toNat := by
      rintro rfl
      decide
    rw [wrapped]
    by_cases nothing : dataIn = []
    · rw [if_neg fun both => both.2 nothing, writeBytes_allocate (by rw [nothing]; rfl),
        if_pos (other nothing)]
      show (if dataIn.length ≠ (0xFFFFFFFF : UInt32).toNat then _ else _) = _
      rw [if_pos (other nothing)]
      rfl
    · have outside : ¬ 0 + dataIn.length ≤ (allocate 0).length := by
        have given := List.length_pos_iff.mpr nothing
        show ¬ 0 + dataIn.length ≤ 0
        omega
      rw [if_pos ⟨rfl, nothing⟩, writeBytes, if_neg outside]
      rfl
  · have sized : (len + 1).toNat = len.toNat + 1 := by
      have bound := len.toNat_lt
      have below : len.toNat ≠ 0xFFFFFFFF := fun same => largest (UInt32.toNat_inj.mp same)
      rw [UInt32.toNat_add, UInt32.toNat_one]
      omega
    rw [if_neg fun both => largest both.1, sized,
      writeBytes_allocate (Nat.le_succ_of_le atMost)]
    show (if dataIn.length ≠ len.toNat then _ else _) = _
    by_cases short : dataIn.length ≠ len.toNat
    · rw [if_pos short, if_pos short]
      rfl
    · rw [if_neg short, if_neg short]
      have whole : dataIn.length = len.toNat := not_not.mp short
      have last : len.toNat + 1 - dataIn.length = 1 := by omega
      rw [last, ← whole, writeByte_terminator]
      show (ofMemory (dataIn.map some ++ [some 0]) 0 dataIn.length >>= _) = _
      rw [ofMemory, memcpy_written (by rw [Nat.zero_add]), List.drop_zero, List.take_length]
      rfl

/-- Below the largest length, the string is the one of the reader without the buffer. -/
theorem readObjectInto_agrees
    (below : ∀ middle, (readLen istrm.toByteStream).run state ≠ .ok (0xFFFFFFFF, middle)) :
    readObjectInto istrm target state =
      some (match (readObject istrm.toByteStream).run state with
        | .error failure => (.error failure, target)
        | .ok (str, next) => (.ok next, str)) := by
  cases ran : (readLen istrm.toByteStream).run state with
  | error failure =>
      have threw : (readObject istrm.toByteStream).run state = .error failure := by
        unfold readObject BinarySerialization.readObject
        rw [StateT.run_bind, StateT.run_bind, ran]
        rfl
      rw [threw, readObjectInto, ran]
  | ok result =>
      obtain ⟨len, middle⟩ := result
      have other : len ≠ 0xFFFFFFFF := by
        rintro rfl
        exact below middle ran
      have sized : ¬ (len + 1).toNat ≤ len.toNat := by
        have bound := len.toNat_lt
        have small : len.toNat ≠ 0xFFFFFFFF := fun same => other (UInt32.toNat_inj.mp same)
        rw [UInt32.toNat_add, UInt32.toNat_one]
        omega
      obtain ⟨dataIn, next, delivered⟩ : ∃ dataIn next,
          istrm.sgetn len.toNat middle = (dataIn, next) := ⟨_, _, rfl⟩
      have block : (read istrm.toByteStream len.toNat).run middle =
          if dataIn.length ≠ len.toNat then .error (.IOException "Failed reading data")
          else .ok (dataIn, next) := by
        have got : istrm.toByteStream.sgetn len.toNat middle = .ok (dataIn, next) :=
          congrArg Except.ok delivered
        simp only [BinarySerialization.read, StateT.run, bind, StateT.bind, got, Except.bind]
        split
        · rfl
        · rfl
      have ran' : (readObject istrm.toByteStream).run state =
          ((read istrm.toByteStream len.toNat).run middle).map fun result =>
            (ofBytes (some result.1), result.2) := by
        unfold readObject BinarySerialization.readObject
        rw [StateT.run_bind, StateT.run_bind, ran]
        simp only [bind, Except.bind]
        rw [if_neg sized]
        cases (read istrm.toByteStream len.toNat).run middle with
        | error failure => rfl
        | ok result => rfl
      rw [readObjectInto_eq ran delivered, if_neg fun both => other both.1, ran', block]
      by_cases short : dataIn.length ≠ len.toNat
      · rw [if_pos short, if_pos short]
        rfl
      · rw [if_neg short, if_neg short]
        rfl

end Buffer

section Exact

variable {State : Type} {istrm : InputStream State}

theorem Announces.unique {state next next' : State} {bytes bytes' : Bytes}
    (one : Announces istrm state bytes next) (other : Announces istrm state bytes' next') :
    bytes = bytes' ∧ next = next' := by
  obtain ⟨len, middle, ran, delivered, _⟩ := one
  obtain ⟨len', middle', ran', delivered', _⟩ := other
  obtain ⟨rfl, rfl⟩ := Prod.mk.inj (Except.ok.inj (ran.symm.trans ran'))
  exact Prod.mk.inj (delivered.symm.trans delivered')

/-- What one call does. -/
inductive ReadCase (istrm : InputStream State) (target : CowString) (state : State) : Prop where
  | outside (long : ¬ LengthFits istrm state) (ran : readObjectInto istrm target state = none)
  | failed (fits : LengthFits istrm state) (failure : Failure)
      (ran : readObjectInto istrm target state = some (.error failure, target))
      (allowed : IsIOException failure)
      (nothing : ∀ bytes next, ¬ Announces istrm state bytes next)
  | assigned (fits : LengthFits istrm state) (bytes : Bytes) (next : State)
      (ran : readObjectInto istrm target state = some (.ok next, ofBytes (some bytes)))
      (announced : Announces istrm state bytes next)

theorem readCase (istrm : InputStream State) (target : CowString) (state : State) :
    ReadCase istrm target state := by
  cases ran : (readLen istrm.toByteStream).run state with
  | error failure =>
      refine .failed ?_ failure ?_ (readLen_failsOnly istrm state failure ran) ?_
      · intro middle announced
        cases ran.symm.trans announced
      · rw [readObjectInto, ran]
      · rintro bytes next ⟨len, middle, announced, _⟩
        cases ran.symm.trans announced
  | ok result =>
      obtain ⟨len, middle⟩ := result
      obtain ⟨dataIn, next, delivered⟩ : ∃ dataIn next,
          istrm.sgetn len.toNat middle = (dataIn, next) := ⟨_, _, rfl⟩
      have step : readObjectInto istrm target state = _ := readObjectInto_eq ran delivered
      by_cases outside : len = 0xFFFFFFFF ∧ dataIn ≠ []
      · rw [if_pos outside] at step
        obtain ⟨rfl, given⟩ := outside
        refine .outside ?_ step
        intro fits
        have nothing := congrArg Prod.fst delivered
        rw [show (0xFFFFFFFF : UInt32).toNat = 0xFFFFFFFF from rfl, fits middle ran] at nothing
        exact given nothing.symm
      · rw [if_neg outside] at step
        have fits : LengthFits istrm state := by
          intro middle' announced
          obtain ⟨rfl, rfl⟩ := Prod.mk.inj (Except.ok.inj (ran.symm.trans announced))
          have nothing : dataIn = [] := by
            by_contra given
            exact outside ⟨rfl, given⟩
          exact (congrArg Prod.fst delivered).trans nothing
        by_cases short : dataIn.length ≠ len.toNat
        · rw [if_pos short] at step
          refine .failed fits _ step trivial ?_
          rintro bytes next' ⟨len', middle', announced, delivered', whole⟩
          obtain ⟨rfl, rfl⟩ := Prod.mk.inj (Except.ok.inj (ran.symm.trans announced))
          obtain ⟨rfl, _⟩ := Prod.mk.inj (delivered.symm.trans delivered')
          exact short whole
        · rw [if_neg short] at step
          exact .assigned fits dataIn next step ⟨len, middle, ran, delivered, not_not.mp short⟩

theorem readObject_exact_iff (target : CowString) (state : State) :
    ReadsSafely istrm target state ↔ LengthFits istrm state := by
  unfold ReadsSafely
  rcases readCase istrm target state with
    ⟨long, ran⟩ | ⟨fits, failure, ran, allowed, -⟩ | ⟨fits, bytes, next, ran, announced⟩
  · refine iff_of_false ?_ long
    rintro ⟨result, str, ran', _⟩
    cases ran.symm.trans ran'
  · exact iff_of_true ⟨_, _, ran, allowed, rfl⟩ fits
  · exact iff_of_true ⟨_, _, ran, bytes, announced, shows_ofBytes bytes⟩ fits

/-- The loop goes from one announced string to the next one. -/
theorem readStrings_exact_iff (left : Nat) (state : State) :
    (∃ result, readStrings istrm left state = some result ∧
      match result with
      | .error failure => IsIOException failure
      | .ok (a, next) => a.length = left ∧ AnnouncesAll istrm state a next) ↔
      LengthsFit istrm left state := by
  induction left generalizing state with
  | zero => exact iff_of_true ⟨_, rfl, rfl, rfl⟩ trivial
  | succ left ih =>
      rw [readStrings, LengthsFit]
      rcases readCase istrm none state with
        ⟨long, ran⟩ | ⟨fits, failure, ran, allowed, nothing⟩ | ⟨fits, bytes, next, ran, announced⟩
      · rw [ran]
        refine iff_of_false ?_ fun both => long both.1
        rintro ⟨result, looped, _⟩
        cases looped
      · rw [ran]
        exact iff_of_true ⟨_, rfl, allowed⟩
          ⟨fits, fun bytes next announced => absurd announced (nothing bytes next)⟩
      · have rest : (∀ bytes next, Announces istrm state bytes next → LengthsFit istrm left next) ↔
            LengthsFit istrm left next := by
          constructor
          · intro all
            exact all bytes next announced
          · intro here bytes' next' announced'
            rwa [← (announced.unique announced').2]
        rw [ran, and_iff_right fits, rest, ← ih next]
        show (∃ result, (readStrings istrm left next >>= _) = some result ∧ _) ↔ _
        cases looped : readStrings istrm left next with
        | none =>
            refine iff_of_false ?_ ?_
            · rintro ⟨result, same, _⟩
              cases same
            · rintro ⟨result, same, _⟩
              cases same
        | some result =>
            cases result with
            | error failure =>
                constructor
                · rintro ⟨result, same, allowed⟩
                  cases same
                  exact ⟨_, rfl, allowed⟩
                · rintro ⟨result, same, allowed⟩
                  cases same
                  exact ⟨_, rfl, allowed⟩
            | ok result =>
                obtain ⟨a, last⟩ := result
                constructor
                · rintro ⟨result, same, safe⟩
                  cases same
                  obtain ⟨count, _, middle, announced', _, all⟩ := safe
                  refine ⟨_, rfl, Nat.succ.inj count, ?_⟩
                  rwa [(announced.unique announced').2]
                · rintro ⟨result, same, safe⟩
                  cases same
                  obtain ⟨count, all⟩ := safe
                  exact ⟨_, rfl, congrArg Nat.succ count, bytes, next, announced,
                    shows_ofBytes bytes, all⟩

theorem readStringArray_exact_iff (state : State) :
    ReadsArraySafely istrm state ↔ ArrayFits istrm state := by
  unfold ReadsArraySafely ArrayFits readStringArrayFrom
  cases ran : (readArrayHead istrm).run state with
  | error failure =>
      refine iff_of_true ⟨_, rfl, readArrayHead_failsOnly istrm state failure ran⟩ ?_
      intro len middle announced
      cases announced
  | ok result =>
      obtain ⟨len, middle⟩ := result
      have head (len' : UInt32) (middle' : State) :
          (Except.ok (len, middle) : Except Failure (UInt32 × State)) = .ok (len', middle') ↔
            len = len' ∧ middle = middle' := by
        rw [Except.ok.injEq, Prod.mk.injEq]
      have fits : (∀ len' middle', (Except.ok (len, middle) : Except Failure (UInt32 × State)) =
          .ok (len', middle') → LengthsFit istrm len'.toNat middle') ↔
            LengthsFit istrm len.toNat middle := by
        constructor
        · intro all
          exact all len middle rfl
        · intro here len' middle' same
          obtain ⟨rfl, rfl⟩ := (head len' middle').mp same
          exact here
      rw [fits, ← readStrings_exact_iff]
      constructor
      · rintro ⟨result, looped, safe⟩
        refine ⟨result, looped, ?_⟩
        cases result with
        | error failure => exact safe
        | ok result =>
            obtain ⟨len', middle', same, count, all⟩ := safe
            obtain ⟨rfl, rfl⟩ := (head len' middle').mp same
            exact ⟨count, all⟩
      · rintro ⟨result, looped, safe⟩
        refine ⟨result, looped, ?_⟩
        cases result with
        | error failure => exact safe
        | ok result => exact ⟨len, middle, rfl, safe⟩

end Exact

/-- Both readers write only into their buffers exactly where no string is announced with the largest
length and at least one byte. -/
theorem readers_safe_iff {State : Type} (istrm : InputStream State) (target : CowString)
    (state : State) :
    (ReadsSafely istrm target state ↔ LengthFits istrm state) ∧
      (ReadsArraySafely istrm state ↔ ArrayFits istrm state) :=
  ⟨readObject_exact_iff target state, readStringArray_exact_iff state⟩

/-- The stream over bytes that are there from the beginning. -/
def queueStream : InputStream Bytes where
  sgetn count bytes := (bytes.take count, bytes.drop count)
  atMost count bytes := List.length_take_le count bytes

/-- The length wraps to a buffer of no bytes, and the stream gives one. -/
theorem largestLength_not_safe :
    ¬ ∀ (target : CowString) (state : Bytes),
      ReadsSafely queueStream target state ∧ ReadsArraySafely queueStream state := by
  intro all
  have fits := (readObject_exact_iff none _).mp (all none [0x84, 0xFF, 0xFF, 0xFF, 0xFF, 97]).1
  have nothing := fits [97] rfl
  cases nothing

end Blocxx.Strings
