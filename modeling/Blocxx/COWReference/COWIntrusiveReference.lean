import Blocxx.COWReference.Operation
import Blocxx.Library.Census
import Blocxx.Library.TransitionSystem

/-!
This file embeds `COWIntrusiveReference` and the reference counts of `COWIntrusiveCountableBase`.
Threads run the operations in atomic steps. A step is missing where it touches a dead object.
-/

namespace Blocxx.COWIntrusiveReference
open CopyOnWrite

variable (Name Thread Obj Value : Type)

/-- The next atomic step of a thread, with its local variables. -/
inductive Point where
  | idle
  | construct (target : Target Name) (value : Option Value)
  | addRef (target : Target Name) (p : Obj) (value : Value)
  | copy (target : Target Name) (rhs : Name)
  | swapTemporary (name : Name)
  | swap (name rhs : Name)
  | release (slot : Slot Name Thread)
  | delete (p : Obj)
  | unique (name : Name) (change : Value → Value)
  | clone (name : Name) (change : Value → Value)
  | decAndTest (name : Name) (p tmp : Obj) (change : Value → Value)
  | undo (name : Name) (p tmp : Obj) (change : Value → Value)
  | discard (name : Name) (tmp : Obj) (change : Value → Value)
  | adopt (name : Name) (tmp : Obj) (change : Value → Value)
  | write (name : Name) (change : Value → Value)

/-- The live objects with `m_usecount` and value. A reference that does not exist holds null. The
value `deep` is the one that the reference would show if each copy was a deep copy. -/
structure State where
  object : Obj → Option (Int × Value)
  m_pObj : Slot Name Thread → Option Obj
  deep : Slot Name Thread → Option Value
  point : Thread → Point Name Thread Obj Value

/-- A step allocates at the fresh address, or it does not use it. -/
inductive Label where
  | begin (thread : Thread) (operation : Operation Name Value)
  | run (thread : Thread) (fresh : Obj)

variable {Name Thread Obj Value}

namespace Point

/-- The references in use. -/
def names : Point Name Thread Obj Value → List Name
  | idle => []
  | construct target _ => [target.name]
  | addRef target _ _ => [target.name]
  | copy target rhs => [target.name, rhs]
  | swapTemporary name => [name]
  | swap name rhs => [name, rhs]
  | release (.inl name) => [name]
  | release (.inr _) => []
  | delete _ => []
  | unique name _ => [name]
  | clone name _ => [name]
  | decAndTest name _ _ _ => [name]
  | undo name _ _ _ => [name]
  | discard name _ _ => [name]
  | adopt name _ _ => [name]
  | write name _ => [name]

def start : Operation Name Value → Point Name Thread Obj Value
  | .construct target value => construct target value
  | .copy target rhs => copy target rhs
  | .swap name rhs => swap name rhs
  | .destroy name => release (.inl name)
  | .access name change => unique name change

/-- What follows the constructor. -/
def constructed : Target Name → Point Name Thread Obj Value
  | .itself _ => idle
  | .temporaryFor name => swapTemporary name

def allocates : Point Name Thread Obj Value → Bool
  | construct _ (some _) => true
  | clone _ _ => true
  | _ => false

/-- The objects without a reference that the thread still has in its local variables. -/
def keeps (p : Obj) : Point Name Thread Obj Value → Prop
  | addRef _ made _ => p = made
  | delete dead => p = dead
  | decAndTest _ _ tmp _ => p = tmp
  | undo _ old tmp _ => p = old ∨ p = tmp
  | discard _ tmp _ => p = tmp
  | adopt _ tmp _ => p = tmp
  | _ => False

/-- The reference has given up its object and has not got another one yet. -/
def insideClone : Point Name Thread Obj Value → Option Name
  | undo name _ _ _ => some name
  | adopt name _ _ => some name
  | _ => none

end Point

section Counts

variable [DecidableEq Obj] (object : Obj → Option (Int × Value)) (p : Obj)

/-- `COWIntrusiveReferenceAddRef`. -/
def inc : Option (Obj → Option (Int × Value)) :=
  (object p).map fun (count, value) => Function.update object p (some (count + 1, value))

def decAndTest : Option (Bool × (Obj → Option (Int × Value))) :=
  (object p).map fun (count, value) =>
    (count - 1 = 0, Function.update object p (some (count - 1, value)))

/-- `COWIntrusiveReferenceUnique`. -/
def unique : Option Bool :=
  (object p).map fun (count, _) => count = 1

end Counts

variable [DecidableEq Name] [DecidableEq Thread] [DecidableEq Obj]

namespace State

variable (state : State Name Thread Obj Value) (thread : Thread)

def goTo (point : Point Name Thread Obj Value) : State Name Thread Obj Value :=
  { state with point := Function.update state.point thread point }

def setPointer (slot : Slot Name Thread) (p : Option Obj) : State Name Thread Obj Value :=
  { state with m_pObj := Function.update state.m_pObj slot p }

def setDeep (slot : Slot Name Thread) (value : Option Value) : State Name Thread Obj Value :=
  { state with deep := Function.update state.deep slot value }

/-- The slot gets the pointer, and the value of a deep copy. -/
def set (slot : Slot Name Thread) (p : Option Obj) (value : Option Value) :
    State Name Thread Obj Value :=
  (state.setPointer slot p).setDeep slot value

def exchange (one other : Slot Name Thread) : State Name Thread Obj Value :=
  { state with
    m_pObj := state.m_pObj ∘ Equiv.swap one other
    deep := state.deep ∘ Equiv.swap one other }

/-- The memory with other objects. -/
def withObject (object : Obj → Option (Int × Value)) : State Name Thread Obj Value :=
  { state with object := object }

/-- The next atomic step of the thread. -/
def run (fresh : Obj) : Option (State Name Thread Obj Value) :=
  match state.point thread with
  | .idle => none
  | .construct target none =>
      some ((state.set (target.slot thread) none none).goTo thread (.constructed target))
  | .construct target (some value) =>
      some ((state.withObject (Function.update state.object fresh (some (0, value)))).goTo thread
        (.addRef target fresh value))
  | .addRef target p value => do
      let object ← inc state.object p
      some (((state.withObject object).set (target.slot thread) (some p) (some value)).goTo thread
        (.constructed target))
  | .copy target rhs =>
      match state.m_pObj (.inl rhs) with
      | none =>
          some ((state.set (target.slot thread) none (state.deep (.inl rhs))).goTo thread
            (.constructed target))
      | some p => do
          let object ← inc state.object p
          some (((state.withObject object).set (target.slot thread) (some p)
            (state.deep (.inl rhs))).goTo thread (.constructed target))
  | .swapTemporary name =>
      some ((state.exchange (.inr thread) (.inl name)).goTo thread (.release (.inr thread)))
  | .swap name rhs => some ((state.exchange (.inl name) (.inl rhs)).goTo thread .idle)
  | .release slot =>
      match state.m_pObj slot with
      | none => some ((state.set slot none none).goTo thread .idle)
      | some p => do
          let (zero, object) ← decAndTest state.object p
          some (((state.withObject object).set slot none none).goTo thread
            (if zero then .delete p else .idle))
  | .delete p => do
      let _ ← state.object p
      some ((state.withObject (Function.update state.object p none)).goTo thread .idle)
  | .unique name change =>
      match state.m_pObj (.inl name) with
      | none => some (state.goTo thread .idle)
      | some p => do
          let alone ← unique state.object p
          some (state.goTo thread (if alone then .write name change else .clone name change))
  | .clone name change => do
      let p ← state.m_pObj (.inl name)
      let (_, value) ← state.object p
      some ((state.withObject (Function.update state.object fresh (some (0, value)))).goTo thread
        (.decAndTest name p fresh change))
  | .decAndTest name p tmp change => do
      let (zero, object) ← decAndTest state.object p
      some ((state.withObject object).goTo thread
        (if zero then .undo name p tmp change else .adopt name tmp change))
  | .undo name p tmp change => do
      let object ← inc state.object p
      some (((state.withObject object).setPointer (.inl name) (some p)).goTo thread
        (.discard name tmp change))
  | .discard name tmp change => do
      let _ ← state.object tmp
      some ((state.withObject (Function.update state.object tmp none)).goTo thread
        (.write name change))
  | .adopt name tmp change => do
      let object ← inc state.object tmp
      some (((state.withObject object).setPointer (.inl name) (some tmp)).goTo thread
        (.write name change))
  | .write name change => do
      let p ← state.m_pObj (.inl name)
      let (count, value) ← state.object p
      some (((state.withObject (Function.update state.object p (some (count, change value)))).setDeep
        (.inl name) ((state.deep (.inl name)).map change)).goTo thread .idle)

/-- The number of references to the object. -/
def references [Fintype Name] [Fintype Thread] (p : Obj) : Nat :=
  Library.census (fun referent : Option Obj => decide (referent = some p))
    (referent Point.insideClone state.point state.m_pObj)

/-- The value that a read through the slot shows. -/
def shows (slot : Slot Name Thread) : Option Value :=
  (state.m_pObj slot).bind fun p => (state.object p).map Prod.snd

/-- An idle thread may begin an operation on references that no other thread uses. The reference
that it makes does not exist. -/
structure CanBegin (operation : Operation Name Value) : Prop where
  idle : state.point thread = .idle
  apart : ∀ other, other ≠ thread → ∀ name ∈ operation.names, name ∉ (state.point other).names
  empty : ∀ name, operation.makes = some name → state.m_pObj (.inl name) = none

end State

/-- Any number of references and threads. -/
def system : Library.TransitionSystem (State Name Thread Obj Value) (Label Name Thread Obj Value) where
  initial state := state.object = (fun _ => none) ∧ state.m_pObj = (fun _ => none) ∧
    state.deep = (fun _ => none) ∧ state.point = fun _ => .idle
  step state label next :=
    match label with
    | .begin thread operation =>
        state.CanBegin thread operation ∧ next = state.goTo thread (.start operation)
    | .run thread fresh =>
        ((state.point thread).allocates = true → state.object fresh = none) ∧
          state.run thread fresh = some next

end Blocxx.COWIntrusiveReference
