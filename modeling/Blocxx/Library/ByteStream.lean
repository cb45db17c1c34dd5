import Mathlib.Tactic

/-!
This file gives streams that take and give blocks of bytes, and the rules by which writers and
readers of a queue of bytes compose.
-/

namespace Blocxx.Library

/-- The two block operations. A write tells how many bytes it took. -/
structure ByteStream (Failure State : Type) where
  sputn : List UInt8 → State → Except Failure (Nat × State)
  sgetn : Nat → State → Except Failure (List UInt8 × State)

namespace ByteStream

variable {Failure State : Type}

/-- The stream holds the bytes in the order of their writes, and it gives them in this order. -/
structure IsQueue (stream : ByteStream Failure State) (holds : State → List UInt8 → Prop) :
    Prop where
  put {state : State} {bytes : List UInt8} (data : List UInt8) (held : holds state bytes) :
    ∃ next, stream.sputn data state = .ok (data.length, next) ∧ holds next (bytes ++ data)
  get {state : State} {data rest : List UInt8} (held : holds state (data ++ rest)) :
    ∃ next, stream.sgetn data.length state = .ok (data, next) ∧ holds next rest

/-- The plain queue of bytes. -/
def queue : ByteStream Failure (List UInt8) where
  sputn data bytes := .ok (data.length, bytes ++ data)
  sgetn count bytes := .ok (bytes.take count, bytes.drop count)

theorem queue_isQueue : IsQueue (queue : ByteStream Failure (List UInt8)) Eq where
  put data held := ⟨_, rfl, by rw [held]⟩
  get held := by
    subst held
    exact ⟨_, by simp [queue], rfl⟩

variable {holds : State → List UInt8 → Prop} {Answer Result : Type}

/-- The action puts exactly these bytes behind the held ones. -/
def Writes (holds : State → List UInt8 → Prop) (action : StateT State (Except Failure) Unit)
    (encoding : List UInt8) : Prop :=
  ∀ state bytes, holds state bytes →
    ∃ next, action.run state = .ok ((), next) ∧ holds next (bytes ++ encoding)

/-- The action takes exactly these bytes from the front, and it answers with the value. -/
def Reads (holds : State → List UInt8 → Prop) (action : StateT State (Except Failure) Answer)
    (encoding : List UInt8) (value : Answer) : Prop :=
  ∀ state rest, holds state (encoding ++ rest) →
    ∃ next, action.run state = .ok (value, next) ∧ holds next rest

theorem Writes.nothing : Writes holds (pure () : StateT State (Except Failure) Unit) [] := by
  intro state bytes held
  exact ⟨state, rfl, by rwa [List.append_nil]⟩

/-- The bytes of the second action come behind those of the first. -/
theorem Writes.bind {first second : StateT State (Except Failure) Unit}
    {before after : List UInt8} (one : Writes holds first before)
    (other : Writes holds second after) : Writes holds (do first; second) (before ++ after) := by
  intro state bytes held
  obtain ⟨middle, ran, heldMiddle⟩ := one state bytes held
  obtain ⟨last, ranLast, heldLast⟩ := other middle _ heldMiddle
  refine ⟨last, ?_, by rwa [← List.append_assoc]⟩
  rw [StateT.run_bind, ran]
  exact ranLast

theorem Reads.nothing (value : Answer) :
    Reads holds (pure value : StateT State (Except Failure) Answer) [] value := by
  intro state rest held
  exact ⟨state, rfl, held⟩

/-- The second action reads behind the bytes of the first. -/
theorem Reads.bind {first : StateT State (Except Failure) Answer}
    {second : Answer → StateT State (Except Failure) Result} {before after : List UInt8}
    {answer : Answer} {result : Result} (one : Reads holds first before answer)
    (other : Reads holds (second answer) after result) :
    Reads holds (first >>= second) (before ++ after) result := by
  intro state rest held
  rw [List.append_assoc] at held
  obtain ⟨middle, ran, heldMiddle⟩ := one state _ held
  obtain ⟨last, ranLast, heldLast⟩ := other middle rest heldMiddle
  refine ⟨last, ?_, heldLast⟩
  rw [StateT.run_bind, ran]
  exact ranLast

/-- The value is computed from the answer. -/
theorem Reads.map {action : StateT State (Except Failure) Answer} {encoding : List UInt8}
    {answer : Answer} (change : Answer → Result) (reads : Reads holds action encoding answer) :
    Reads holds (do return change (← action)) encoding (change answer) := by
  have mapped : Reads holds (action >>= fun answer => pure (change answer)) (encoding ++ [])
      (change answer) := reads.bind (Reads.nothing (change answer))
  rwa [List.append_nil] at mapped

/-- The action throws on these bytes. -/
def Fails (holds : State → List UInt8 → Prop) (action : StateT State (Except Failure) Answer)
    (encoding : List UInt8) : Prop :=
  ∀ state rest, holds state (encoding ++ rest) → ∃ failure, action.run state = .error failure

/-- What comes behind the failure is not read. -/
theorem Fails.bind {first : StateT State (Except Failure) Answer}
    {second : Answer → StateT State (Except Failure) Result} {before after : List UInt8}
    (fails : Fails holds first before) : Fails holds (first >>= second) (before ++ after) := by
  intro state rest held
  rw [List.append_assoc] at held
  obtain ⟨failure, threw⟩ := fails state _ held
  refine ⟨failure, ?_⟩
  rw [StateT.run_bind, threw]
  rfl

theorem Fails.map {action : StateT State (Except Failure) Answer} {encoding : List UInt8}
    (change : Answer → Result) (fails : Fails holds action encoding) :
    Fails holds (do return change (← action)) encoding := by
  have mapped : Fails holds (action >>= fun answer => pure (change answer)) (encoding ++ []) :=
    fails.bind
  rwa [List.append_nil] at mapped

/-- The failure comes behind the bytes of the first action. -/
theorem Reads.bind_fails {first : StateT State (Except Failure) Answer}
    {second : Answer → StateT State (Except Failure) Result} {before after : List UInt8}
    {answer : Answer} (one : Reads holds first before answer)
    (fails : Fails holds (second answer) after) :
    Fails holds (first >>= second) (before ++ after) := by
  intro state rest held
  rw [List.append_assoc] at held
  obtain ⟨middle, ran, heldMiddle⟩ := one state _ held
  obtain ⟨failure, threw⟩ := fails middle rest heldMiddle
  refine ⟨failure, ?_⟩
  rw [StateT.run_bind, ran]
  exact threw

/-- The action throws only these failures. -/
def FailsOnly (allowed : Failure → Prop) (action : StateT State (Except Failure) Answer) : Prop :=
  ∀ state failure, action.run state = .error failure → allowed failure

theorem FailsOnly.pure {allowed : Failure → Prop} (answer : Answer) :
    FailsOnly allowed (Pure.pure answer : StateT State (Except Failure) Answer) := by
  intro state failure threw
  cases threw

theorem FailsOnly.throw {allowed : Failure → Prop} {failure : Failure} (here : allowed failure) :
    FailsOnly allowed (MonadExcept.throw failure : StateT State (Except Failure) Answer) := by
  intro state failure' threw
  cases threw
  exact here

/-- Both actions throw only these failures. -/
theorem FailsOnly.bind {allowed : Failure → Prop} {first : StateT State (Except Failure) Answer}
    {second : Answer → StateT State (Except Failure) Result} (one : FailsOnly allowed first)
    (other : ∀ answer, FailsOnly allowed (second answer)) :
    FailsOnly allowed (first >>= second) := by
  intro state failure threw
  rw [StateT.run_bind] at threw
  cases ran : first.run state with
  | error failure' =>
      rw [ran] at threw
      cases threw
      exact one state failure ran
  | ok result =>
      rw [ran] at threw
      exact other result.1 result.2 failure threw

end ByteStream

end Blocxx.Library
