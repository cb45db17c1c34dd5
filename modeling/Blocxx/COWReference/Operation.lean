import Mathlib.Tactic

/-!
This file gives the operations that `COWIntrusiveReference` and `COWReference` share, and the
references that a thread uses in the middle of an operation.
-/

namespace Blocxx.CopyOnWrite

/-- A slot is a named reference or the temporary of a thread. -/
abbrev Slot (Name Thread : Type) := Name ⊕ Thread

/-- A constructor makes the named reference itself. `operator=` makes a temporary and swaps it with
the named reference. -/
inductive Target (Name : Type) where
  | itself (name : Name)
  | temporaryFor (name : Name)

variable {Name Thread Value Point : Type}

namespace Target

def name : Target Name → Name
  | itself name => name
  | temporaryFor name => name

def slot (target : Target Name) (thread : Thread) : Slot Name Thread :=
  match target with
  | itself name => .inl name
  | temporaryFor _ => .inr thread

end Target

/-- A null pointer is constructed from `none`, and a new object from its value. The function of an
access is what the caller does to the object that it gets. -/
inductive Operation (Name Value : Type) where
  | construct (target : Target Name) (value : Option Value)
  | copy (target : Target Name) (rhs : Name)
  | swap (name rhs : Name)
  | destroy (name : Name)
  | access (name : Name) (change : Value → Value)

def Operation.names : Operation Name Value → List Name
  | construct target _ => [target.name]
  | copy target rhs => [target.name, rhs]
  | swap name rhs => [name, rhs]
  | destroy name => [name]
  | access name _ => [name]

/-- The reference that the operation brings into being. -/
def Operation.makes : Operation Name Value → Option Name
  | construct (.itself name) _ => some name
  | copy (.itself name) _ => some name
  | _ => none

/-- The references that must exist before the operation. -/
def Operation.needs : Operation Name Value → List Name
  | construct (.itself _) _ => []
  | construct (.temporaryFor name) _ => [name]
  | copy (.itself _) rhs => [rhs]
  | copy (.temporaryFor name) rhs => [name, rhs]
  | swap name rhs => [name, rhs]
  | destroy name => [name]
  | access name _ => [name]

/-- A thread uses the references of its operation and its own temporary. -/
def Uses (names : List Name) (thread : Thread) : Slot Name Thread → Prop
  | .inl name => name ∈ names
  | .inr other => other = thread

theorem uses_singleton (name : Name) (thread : Thread) : Uses [name] thread (.inl name) :=
  List.mem_singleton_self name

/-- The slot that a constructor fills is in use. -/
theorem Target.uses_slot (target : Target Name) {names : List Name} (member : target.name ∈ names)
    (thread : Thread) : Uses names thread (target.slot thread) := by
  cases target with
  | itself name => exact member
  | temporaryFor _ => rfl

/-- No reference is used by two threads at a time. -/
def Separate (names : Point → List Name) (point : Thread → Point) : Prop :=
  ∀ one other, one ≠ other → ∀ name ∈ names (point one), name ∉ names (point other)

/-- The slot is a reference in the middle of its clone step. -/
def insideClone [Fintype Thread] [DecidableEq Name] (inside : Point → Option Name)
    (point : Thread → Point) : Slot Name Thread → Bool
  | .inl name => decide (∃ thread, inside (point thread) = some name)
  | .inr _ => false

/-- What the slot is a reference to. In the middle of its clone step it is none. -/
def referent [Fintype Thread] [DecidableEq Name] {Cell : Type} (inside : Point → Option Name)
    (point : Thread → Point) (pointer : Slot Name Thread → Option Cell)
    (slot : Slot Name Thread) : Option Cell :=
  if insideClone inside point slot then none else pointer slot

variable {names : Point → List Name} {point : Thread → Point} {thread other : Thread}

theorem Separate.not_uses (separate : Separate names point) (different : other ≠ thread)
    {slot : Slot Name Thread} (uses : Uses (names (point other)) other slot) :
    ¬ Uses (names (point thread)) thread slot := by
  intro usesToo
  cases slot with
  | inl name => exact separate other thread different name uses usesToo
  | inr owner => exact different (Eq.trans (Eq.symm uses) usesToo)

variable [DecidableEq Thread]

/-- The names that a thread begins to use are not used by another one. -/
theorem Separate.update (separate : Separate names point) {new : Point}
    (apart : ∀ other, other ≠ thread → ∀ name ∈ names new, name ∉ names (point other)) :
    Separate names (Function.update point thread new) := by
  intro one two different name member
  by_cases first : one = thread
  · subst first
    rw [Function.update_self] at member
    rw [Function.update_of_ne different.symm]
    exact apart two different.symm name member
  · rw [Function.update_of_ne first] at member
    by_cases second : two = thread
    · subst second
      rw [Function.update_self]
      intro used
      exact apart one first name used member
    · rw [Function.update_of_ne second]
      exact separate one two different name member

/-- A thread that goes on uses no new names. -/
theorem Separate.proceed (separate : Separate names point) {new : Point}
    (fewer : ∀ name ∈ names new, name ∈ names (point thread)) :
    Separate names (Function.update point thread new) := by
  apply separate.update
  intro other different name member
  exact separate thread other different.symm name (fewer name member)

end Blocxx.CopyOnWrite
