import Blocxx.COWReference.Operation
import Blocxx.Library.Census
import Blocxx.Library.TransitionSystem

/-!
This file embeds `COWReference`, which shares a separate `RefCount`. Threads run the operations in
atomic steps. A step is missing where it touches a dead object or a dead `RefCount`.
-/

namespace Blocxx.COWReference
open CopyOnWrite

variable (Name Thread RC Obj Value : Type)

/-- The next atomic step of a thread, with what it has read. -/
inductive Point where
  | idle
  | construct (target : Target Name) (value : Option Value)
  | newRefCount (target : Target Name) (ptr : Option Obj) (value : Option Value)
  | copy (target : Target Name) (rhs : Name)
  | swapTemporary (name : Name)
  | swap (name rhs : Name)
  | decRef (slot : Slot Name Thread)
  | deleteRefCount (refCount : RC) (ptr : Option Obj)
  | deleteObject (ptr : Option Obj)
  | refCountGreaterThanOne (name : Name) (change : Value → Value)
  | clone (name : Name) (change : Value → Value)
  | decAndTest (name : Name) (tmp : Obj) (change : Value → Value)
  | incRef (name : Name) (refCount : RC) (tmp : Obj) (change : Value → Value)
  | discard (name : Name) (tmp : Obj) (change : Value → Value)
  | becomeUnique (name : Name) (tmp : Obj) (change : Value → Value)
  | write (name : Name) (change : Value → Value)

/-- The live counts and the live objects. A reference that does not exist has no count. The value
`deep` is the one that the reference would show if each copy was a deep copy. -/
structure State where
  refCount : RC → Option Int
  object : Obj → Option Value
  m_pRefCount : Slot Name Thread → Option RC
  m_pObj : Slot Name Thread → Option Obj
  deep : Slot Name Thread → Option (Option Value)
  point : Thread → Point Name Thread RC Obj Value

/-- A step allocates a count or an object at the fresh addresses, or it does not use them. -/
inductive Label where
  | begin (thread : Thread) (operation : Operation Name Value)
  | run (thread : Thread) (freshCount : RC) (fresh : Obj)

variable {Name Thread RC Obj Value}

namespace Point

/-- The references in use. -/
def names : Point Name Thread RC Obj Value → List Name
  | construct target _ => [target.name]
  | newRefCount target _ _ => [target.name]
  | copy target rhs => [target.name, rhs]
  | swapTemporary name => [name]
  | swap name rhs => [name, rhs]
  | decRef (.inl name) => [name]
  | refCountGreaterThanOne name _ => [name]
  | clone name _ => [name]
  | decAndTest name _ _ => [name]
  | incRef name _ _ _ => [name]
  | discard name _ _ => [name]
  | becomeUnique name _ _ => [name]
  | write name _ => [name]
  | _ => []

def start : Operation Name Value → Point Name Thread RC Obj Value
  | .construct target value => construct target value
  | .copy target rhs => copy target rhs
  | .swap name rhs => swap name rhs
  | .destroy name => decRef (.inl name)
  | .access name change => refCountGreaterThanOne name change

/-- What follows the constructor. -/
def constructed : Target Name → Point Name Thread RC Obj Value
  | .itself _ => idle
  | .temporaryFor name => swapTemporary name

def allocatesCount : Point Name Thread RC Obj Value → Bool
  | newRefCount _ _ _ => true
  | becomeUnique _ _ _ => true
  | _ => false

def allocates : Point Name Thread RC Obj Value → Bool
  | construct _ (some _) => true
  | clone _ _ => true
  | _ => false

/-- The counts without a reference that the thread still has in its local variables. -/
def keeps (refCount : RC) : Point Name Thread RC Obj Value → Prop
  | deleteRefCount dead _ => refCount = dead
  | incRef _ old _ _ => refCount = old
  | _ => False

/-- The objects without a count that the thread still has in its local variables. -/
def carries (p : Obj) : Point Name Thread RC Obj Value → Prop
  | newRefCount _ ptr _ => ptr = some p
  | deleteObject ptr => ptr = some p
  | decAndTest _ tmp _ => p = tmp
  | incRef _ _ tmp _ => p = tmp
  | discard _ tmp _ => p = tmp
  | becomeUnique _ tmp _ => p = tmp
  | _ => False

/-- The reference has given up its count and has not got another one yet. -/
def insideClone : Point Name Thread RC Obj Value → Option Name
  | incRef name _ _ _ => some name
  | becomeUnique name _ _ => some name
  | _ => none

end Point

section Counts

variable [DecidableEq RC] (refCount : RC → Option Int) (rc : RC)

/-- `RefCount::inc`. -/
def inc : Option (RC → Option Int) :=
  (refCount rc).map fun count => Function.update refCount rc (some (count + 1))

/-- `RefCount::decAndTest`. -/
def decAndTest : Option (Bool × (RC → Option Int)) :=
  (refCount rc).map fun count =>
    (count - 1 = 0, Function.update refCount rc (some (count - 1)))

end Counts

variable [DecidableEq Name] [DecidableEq Thread] [DecidableEq RC] [DecidableEq Obj]

namespace State

variable (state : State Name Thread RC Obj Value) (thread : Thread)

def goTo (point : Point Name Thread RC Obj Value) : State Name Thread RC Obj Value :=
  { state with point := Function.update state.point thread point }

def withCounts (refCount : RC → Option Int) : State Name Thread RC Obj Value :=
  { state with refCount := refCount }

def withObject (object : Obj → Option Value) : State Name Thread RC Obj Value :=
  { state with object := object }

def setPointers (slot : Slot Name Thread) (rc : Option RC) (p : Option Obj) :
    State Name Thread RC Obj Value :=
  { state with
    m_pRefCount := Function.update state.m_pRefCount slot rc
    m_pObj := Function.update state.m_pObj slot p }

def setDeep (slot : Slot Name Thread) (value : Option (Option Value)) :
    State Name Thread RC Obj Value :=
  { state with deep := Function.update state.deep slot value }

/-- `COWReferenceBase::swap` and the swap of the pointers. -/
def exchange (one other : Slot Name Thread) : State Name Thread RC Obj Value :=
  { state with
    m_pRefCount := state.m_pRefCount ∘ Equiv.swap one other
    m_pObj := state.m_pObj ∘ Equiv.swap one other
    deep := state.deep ∘ Equiv.swap one other }

/-- The next atomic step of the thread. -/
def run (freshCount : RC) (fresh : Obj) : Option (State Name Thread RC Obj Value) :=
  match state.point thread with
  | .idle => none
  | .construct target none => some (state.goTo thread (.newRefCount target none none))
  | .construct target (some value) =>
      some ((state.withObject (Function.update state.object fresh (some value))).goTo thread
        (.newRefCount target (some fresh) (some value)))
  | .newRefCount target ptr value =>
      some ((((state.withCounts (Function.update state.refCount freshCount (some 1))).setPointers
        (target.slot thread) (some freshCount) ptr).setDeep (target.slot thread) (some value)).goTo
          thread (.constructed target))
  | .copy target rhs => do
      let rc ← state.m_pRefCount (.inl rhs)
      let refCount ← inc state.refCount rc
      some ((((state.withCounts refCount).setPointers (target.slot thread) (some rc)
        (state.m_pObj (.inl rhs))).setDeep (target.slot thread) (state.deep (.inl rhs))).goTo thread
          (.constructed target))
  | .swapTemporary name =>
      some ((state.exchange (.inr thread) (.inl name)).goTo thread (.decRef (.inr thread)))
  | .swap name rhs => some ((state.exchange (.inl name) (.inl rhs)).goTo thread .idle)
  | .decRef slot => do
      let rc ← state.m_pRefCount slot
      let (zero, refCount) ← decAndTest state.refCount rc
      some ((((state.withCounts refCount).setPointers slot none none).setDeep slot none).goTo thread
        (if zero then .deleteRefCount rc (state.m_pObj slot) else .idle))
  | .deleteRefCount rc ptr => do
      let _ ← state.refCount rc
      some ((state.withCounts (Function.update state.refCount rc none)).goTo thread
        (.deleteObject ptr))
  | .deleteObject none => some (state.goTo thread .idle)
  | .deleteObject (some p) => do
      let _ ← state.object p
      some ((state.withObject (Function.update state.object p none)).goTo thread .idle)
  | .refCountGreaterThanOne name change => do
      let rc ← state.m_pRefCount (.inl name)
      let count ← state.refCount rc
      some (state.goTo thread (if count > 1 then .clone name change else .write name change))
  | .clone name change => do
      let p ← state.m_pObj (.inl name)
      let value ← state.object p
      some ((state.withObject (Function.update state.object fresh (some value))).goTo thread
        (.decAndTest name fresh change))
  | .decAndTest name tmp change => do
      let rc ← state.m_pRefCount (.inl name)
      let (zero, refCount) ← decAndTest state.refCount rc
      some ((state.withCounts refCount).goTo thread
        (if zero then .incRef name rc tmp change else .becomeUnique name tmp change))
  | .incRef name _ tmp change => do
      let rc ← state.m_pRefCount (.inl name)
      let refCount ← inc state.refCount rc
      some ((state.withCounts refCount).goTo thread (.discard name tmp change))
  | .discard name tmp change => do
      let _ ← state.object tmp
      some ((state.withObject (Function.update state.object tmp none)).goTo thread
        (.write name change))
  | .becomeUnique name tmp change =>
      some (((state.withCounts (Function.update state.refCount freshCount (some 1))).setPointers
        (.inl name) (some freshCount) (some tmp)).goTo thread (.write name change))
  | .write name change => do
      let p ← state.m_pObj (.inl name)
      let value ← state.object p
      some (((state.withObject (Function.update state.object p (some (change value)))).setDeep
        (.inl name) ((state.deep (.inl name)).map (Option.map change))).goTo thread .idle)

/-- The number of references that share the count. -/
def references [Fintype Name] [Fintype Thread] (rc : RC) : Nat :=
  Library.census (fun referent : Option RC => decide (referent = some rc))
    (referent Point.insideClone state.point state.m_pRefCount)

/-- The value that a read through the slot shows. -/
def shows (slot : Slot Name Thread) : Option Value :=
  (state.m_pObj slot).bind state.object

/-- An idle thread may begin an operation on references that no other thread uses. The reference
that it makes does not exist, the other ones do, and one that it changes is not null. -/
structure CanBegin (operation : Operation Name Value) : Prop where
  idle : state.point thread = .idle
  apart : ∀ other, other ≠ thread → ∀ name ∈ operation.names, name ∉ (state.point other).names
  empty : ∀ name, operation.makes = some name → state.m_pRefCount (.inl name) = none
  present : ∀ name ∈ operation.needs, state.m_pRefCount (.inl name) ≠ none
  notNull : ∀ name change, operation = .access name change → state.m_pObj (.inl name) ≠ none

end State

/-- Any number of references and threads. -/
def system : Library.TransitionSystem (State Name Thread RC Obj Value)
    (Label Name Thread RC Obj Value) where
  initial state := state.refCount = (fun _ => none) ∧ state.object = (fun _ => none) ∧
    state.m_pRefCount = (fun _ => none) ∧ state.m_pObj = (fun _ => none) ∧
    state.deep = (fun _ => none) ∧ state.point = fun _ => .idle
  step state label next :=
    match label with
    | .begin thread operation =>
        state.CanBegin thread operation ∧ next = state.goTo thread (.start operation)
    | .run thread freshCount fresh =>
        ((state.point thread).allocatesCount = true → state.refCount freshCount = none) ∧
          ((state.point thread).allocates = true → state.object fresh = none) ∧
          state.run thread freshCount fresh = some next

end Blocxx.COWReference
