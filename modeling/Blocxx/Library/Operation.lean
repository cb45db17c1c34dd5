import Mathlib.Tactic

/-!
This file gives the rule that takes a fallible computation apart, operations on an object that may
throw after they have changed it, and the rules for the strong guarantee: an operation that throws
leaves the object as it was.
-/

namespace Blocxx.Library

section Sequence

variable {Failure Answer Result : Type}

/-- A sequence succeeds when its first part does and the rest does with its answer. -/
theorem bind_eq_ok {first : Except Failure Answer} {next : Answer → Except Failure Result}
    {result : Result} :
    first >>= next = .ok result ↔ ∃ answer, first = .ok answer ∧ next answer = .ok result := by
  cases first with
  | error failure => simp [bind, Except.bind]
  | ok answer => simp [bind, Except.bind]

end Sequence

/-- What the operation throws or answers comes with the object behind it. -/
abbrev Operation (Failure Object Answer : Type) := ExceptT Failure (StateM Object) Answer

namespace Operation

variable {Failure Object Answer Result : Type}

def outcome (operation : Operation Failure Object Answer) (object : Object) :
    Except Failure Answer :=
  ((ExceptT.run operation).run object).1

/-- The object behind the operation. -/
def after (operation : Operation Failure Object Answer) (object : Object) : Object :=
  ((ExceptT.run operation).run object).2

/-- A computation that does not reach the object. -/
def lift (computed : Except Failure Answer) : Operation Failure Object Answer :=
  ExceptT.mk (pure computed)

/-- The operation throws from this object only with the object unchanged. -/
def StrongAt (operation : Operation Failure Object Answer) (object : Object) : Prop :=
  ∀ failure, operation.outcome object = .error failure → operation.after object = object

/-- The operation writes nothing. -/
def Reads (operation : Operation Failure Object Answer) : Prop :=
  ∀ object, operation.after object = object

/-- The operation never throws. -/
def Succeeds (operation : Operation Failure Object Answer) : Prop :=
  ∀ object, ∃ answer, operation.outcome object = .ok answer

@[simp] theorem after_pure (answer : Answer) (object : Object) :
    after (pure answer : Operation Failure Object Answer) object = object := rfl

@[simp] theorem outcome_lift (computed : Except Failure Answer) (object : Object) :
    outcome (lift computed) object = computed := rfl

@[simp] theorem after_lift (computed : Except Failure Answer) (object : Object) :
    after (lift computed) object = object := rfl

@[simp] theorem outcome_get (object : Object) :
    outcome (get : Operation Failure Object Object) object = .ok object := rfl

@[simp] theorem after_get (object : Object) :
    after (get : Operation Failure Object Object) object = object := rfl

@[simp] theorem outcome_modify (change : Object → Object) (object : Object) :
    outcome (modify change : Operation Failure Object Unit) object = .ok () := rfl

@[simp] theorem after_modify (change : Object → Object) (object : Object) :
    after (modify change : Operation Failure Object Unit) object = change object := rfl

section Adapt

variable {Adapted : Type} (change : Failure → Adapted)
  (operation : Operation Failure Object Answer) (object : Object)

@[simp] theorem outcome_adapt :
    outcome (ExceptT.adapt change operation : Operation Adapted Object Answer) object =
      (operation.outcome object).mapError change := rfl

@[simp] theorem after_adapt :
    after (ExceptT.adapt change operation : Operation Adapted Object Answer) object =
      operation.after object := rfl

end Adapt

section Bind

variable (first : Operation Failure Object Answer)
  (next : Answer → Operation Failure Object Result) (object : Object)

theorem run_bind : (ExceptT.run (first >>= next)).run object =
    match first.outcome object with
    | .ok answer => (ExceptT.run (next answer)).run (first.after object)
    | .error failure => (.error failure, first.after object) := by
  show (ExceptT.run first >>= ExceptT.bindCont next).run object = _
  rw [StateT.run_bind]
  show (ExceptT.bindCont next (first.outcome object)).run (first.after object) = _
  cases first.outcome object with
  | ok answer => rfl
  | error failure => rfl

/-- A sequence goes on from the object that its first part leaves. -/
theorem outcome_bind : (first >>= next).outcome object =
    (first.outcome object).bind fun answer => (next answer).outcome (first.after object) := by
  rw [outcome, run_bind]
  cases first.outcome object with
  | ok answer => rfl
  | error failure => rfl

theorem after_bind : (first >>= next).after object =
    match first.outcome object with
    | .ok answer => (next answer).after (first.after object)
    | .error _ => first.after object := by
  rw [after, run_bind]
  cases first.outcome object with
  | ok answer => rfl
  | error failure => rfl

end Bind

theorem reads_lift (computed : Except Failure Answer) :
    Reads (lift computed : Operation Failure Object Answer) := fun _ => rfl

theorem reads_get : Reads (get : Operation Failure Object Object) := fun _ => rfl

theorem Reads.bind {first : Operation Failure Object Answer}
    {next : Answer → Operation Failure Object Result} (reads : first.Reads)
    (rest : ∀ answer, (next answer).Reads) : (first >>= next).Reads := by
  intro object
  rw [after_bind, reads object]
  cases first.outcome object with
  | ok answer => exact rest answer object
  | error failure => rfl

theorem succeeds_modify (change : Object → Object) :
    Succeeds (modify change : Operation Failure Object Unit) := fun _ => ⟨(), rfl⟩

theorem Succeeds.strongAt {operation : Operation Failure Object Answer}
    (succeeds : operation.Succeeds) (object : Object) : operation.StrongAt object := by
  intro failure thrown
  obtain ⟨answer, ok⟩ := succeeds object
  exact absurd (thrown.symm.trans ok) nofun

theorem Succeeds.bind {first : Operation Failure Object Answer}
    {next : Answer → Operation Failure Object Result} (succeeds : first.Succeeds)
    (rest : ∀ answer, (next answer).Succeeds) : (first >>= next).Succeeds := by
  intro object
  obtain ⟨answer, ok⟩ := succeeds object
  rw [outcome_bind, ok]
  exact rest answer _

/-- The checks come in front of a part with the guarantee. -/
theorem Reads.bind_strongAt {first : Operation Failure Object Answer}
    {next : Answer → Operation Failure Object Result} (reads : first.Reads) {object : Object}
    (rest : ∀ answer, first.outcome object = .ok answer → (next answer).StrongAt object) :
    (first >>= next).StrongAt object := by
  intro failure thrown
  rw [outcome_bind, reads object] at thrown
  rw [after_bind, reads object]
  cases ok : first.outcome object with
  | ok answer =>
      rw [ok] at thrown
      exact rest answer ok failure thrown
  | error failure => rfl

/-- What comes behind a part with the guarantee does not throw. -/
theorem StrongAt.bind_succeeds {first : Operation Failure Object Answer}
    {next : Answer → Operation Failure Object Result} {object : Object}
    (strong : first.StrongAt object) (rest : ∀ answer, (next answer).Succeeds) :
    (first >>= next).StrongAt object := by
  intro failure thrown
  rw [outcome_bind] at thrown
  rw [after_bind]
  cases ok : first.outcome object with
  | ok answer =>
      rw [ok] at thrown
      obtain ⟨result, returns⟩ := rest answer (first.after object)
      exact absurd (thrown.symm.trans returns) nofun
  | error failure => exact strong failure ok

end Operation

end Blocxx.Library
