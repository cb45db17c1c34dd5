import Blocxx.Library.TransitionSystem
import Blocxx.Select.Select
import Blocxx.SortedVectorMap.SortedVectorMap

/-!
This file embeds `SelectEngine`. The answers of `selectRW` and what the callbacks do come as the
labels of the steps. A session keeps, next to the engine, what its documentation promises.
-/

namespace Blocxx.SelectEngine

open Library SortedVectorMap Select

/-- The enumeration has two bits that can be combined. -/
abbrev EEventType := BitVec 2

def E_READ_EVENT : EEventType := 1

def E_WRITE_EVENT : EEventType := 2

/-- The test `eventType & event`. -/
def includes (eventType event : EEventType) : Bool := eventType &&& event != 0

structure Data (Callback : Type) where
  callback : Callback
  eventType : EEventType
  deriving DecidableEq

/-- The order of the descriptors. -/
def descriptors : Compare Int where
  less a b := decide (a < b)
  irrefl := by simp
  trans := by
    intro k1 k2 k3
    simp only [decide_eq_true_eq]
    omega
  equivalentTrans := by
    intro k1 k2 k3
    simp only [decide_eq_false_iff_not]
    omega

structure Engine (Callback : Type) where
  m_table : List (Int × Data Callback)
  /-- The number of pairs that the vector has storage for. -/
  capacity : Nat
  m_stopFlag : Bool

variable {Callback : Type}

/-- What the table has for the object. -/
def Engine.used (engine : Engine Callback) (obj : Int) : Option (Data Callback) :=
  (engine.m_table[find descriptors engine.m_table obj]?).map Prod.snd

section Changes

variable (grow : Nat → Nat)

/-- The insertion needs storage for one more pair only when the object is new. -/
def Engine.addSelectableObject (engine : Engine Callback) (obj : Int) (cb : Callback)
    (eventType : EEventType) : Engine Callback :=
  let inserted := insert descriptors engine.m_table (obj, ⟨cb, eventType⟩)
  { engine with
    m_table := inserted.1
    capacity :=
      if inserted.2.2 = true ∧ engine.m_table.length = engine.capacity then grow engine.capacity
      else engine.capacity }

def Engine.removeSelectableObject (engine : Engine Callback) (obj : Int) (_ : EEventType) :
    Engine Callback × Bool :=
  let erased := erase descriptors engine.m_table obj
  ({ engine with m_table := erased.1 }, erased.2 ≠ 0)

def Engine.stop (engine : Engine Callback) : Engine Callback := { engine with m_stopFlag := true }

/-- The calls that a callback may make on the engine. -/
inductive Call (Callback : Type) where
  | addSelectableObject (obj : Int) (cb : Callback) (eventType : EEventType)
  | removeSelectableObject (obj : Int) (eventType : EEventType)
  | stop

def Call.run (engine : Engine Callback) : Call Callback → Engine Callback
  | .addSelectableObject obj cb eventType => engine.addSelectableObject grow obj cb eventType
  | .removeSelectableObject obj eventType => (engine.removeSelectableObject obj eventType).1
  | .stop => engine.stop

/-- An insertion or an erasure invalidates the iterators from its place on, and all of them when
the vector moves to larger storage. -/
def Call.invalidates (engine : Engine Callback) (position : Nat) : Call Callback → Bool
  | .addSelectableObject obj _ _ =>
      !foundAt descriptors engine.m_table obj (lowerBound descriptors engine.m_table obj) &&
        (engine.m_table.length == engine.capacity ||
          decide (lowerBound descriptors engine.m_table obj ≤ position))
  | .removeSelectableObject obj _ =>
      foundAt descriptors engine.m_table obj (lowerBound descriptors engine.m_table obj) &&
        decide (lowerBound descriptors engine.m_table obj ≤ position)
  | .stop => false

/-- An iterator at the position is still valid after these calls. -/
def survives (position : Nat) : Engine Callback → List (Call Callback) → Bool
  | _, [] => true
  | engine, call :: calls =>
      !call.invalidates engine position && survives position (call.run grow engine) calls

/-- What a callback does with the engine until it returns or throws. -/
structure Behaviour (Callback : Type) where
  calls : List (Call Callback)
  throws : Bool

/-- The events that the documentation speaks of. -/
inductive Event (Callback : Type) where
  /-- After an addition of the data the table has the used data for the object. -/
  | added (data : Data Callback) (used : Option (Data Callback))
  /-- The callback is invoked while the object is registered so. -/
  | selected (callback : Callback) (event : EEventType) (registered : Option (Data Callback))
  deriving DecidableEq

structure Session (Callback : Type) where
  engine : Engine Callback
  /-- What is registered for an object by the documentation. An addition overwrites it. -/
  registered : Int → Option (Data Callback)
  /-- The latest event comes first. -/
  events : List (Event Callback)

def Session.perform (session : Session Callback) (call : Call Callback) : Session Callback :=
  match call with
  | .addSelectableObject obj cb eventType =>
      { engine := call.run grow session.engine
        registered := Function.update session.registered obj (some ⟨cb, eventType⟩)
        events := .added ⟨cb, eventType⟩ ((call.run grow session.engine).used obj) ::
          session.events }
  | .removeSelectableObject obj _ =>
      { session with
        engine := call.run grow session.engine
        registered := Function.update session.registered obj none }
  | .stop => { session with engine := call.run grow session.engine }

/-- The variables of the body of the inner loop. An invalidated iterator has no position. -/
structure Body (Callback : Type) where
  session : Session Callback
  iter : Option Nat
  threw : Bool

/-- One of the two conditional calls of `selected`. It answers nothing when it dereferences an
iterator that is invalid or at the end. -/
def Body.selected (body : Body Callback) (available : Bool) (event : EEventType)
    (behaviour : Behaviour Callback) : Option (Body Callback) :=
  if available = false ∨ body.threw = true then some body
  else
    match body.iter with
    | none => none
    | some position =>
        match body.session.engine.m_table[position]? with
        | none => none
        | some element =>
            let invoked : Session Callback :=
              { body.session with
                events := .selected element.2.callback event
                  (body.session.registered element.1) :: body.session.events }
            some
              { session := behaviour.calls.foldl (Session.perform grow) invoked
                iter :=
                  if survives grow position body.session.engine behaviour.calls then some position
                  else none
                threw := behaviour.throws }

/-- The body of the inner loop for an entry that is available. -/
def Session.dispatch (session : Session Callback) (selObj : SelectObject)
    (read write : Behaviour Callback) : Option (Body Callback) :=
  let iter := find descriptors session.engine.m_table selObj.s
  let body : Body Callback := ⟨session, some iter, false⟩
  (body.selected grow selObj.readAvailable E_READ_EVENT read).bind fun body =>
    body.selected grow selObj.writeAvailable E_WRITE_EVENT write

end Changes

/-- The array that `go` builds from the table. -/
def Engine.selObjs (engine : Engine Callback) : List SelectObject :=
  engine.m_table.map fun element =>
    { s := element.1
      waitForRead := includes element.2.eventType E_READ_EVENT
      waitForWrite := includes element.2.eventType E_WRITE_EVENT
      readAvailable := false
      writeAvailable := false
      wasError := false }

inductive Ending where
  | returned
  | selectException (message : String)
  | callbackException
  deriving DecidableEq

inductive Point where
  /-- The function `go` is not running. It may have ended before. -/
  | outside (ended : Option Ending)
  | loopHead
  | selecting (selObjs : List SelectObject)
  | innerLoop (selected : Int) (rest : List SelectObject)
  | undefinedBehaviour
  deriving DecidableEq

structure State (Callback : Type) where
  session : Session Callback
  point : Point

inductive Label (Callback : Type) where
  /-- A call on the engine while `go` is not running. -/
  | call (call : Call Callback)
  /-- The code runs up to the next answer that it needs. -/
  | go
  | selectRW (rc : Int) (readAvailable writeAvailable wasError : Int → Bool)
  /-- The callbacks of the entry behave so, where they are invoked. -/
  | dispatch (read write : Behaviour Callback)

/-- The end of the inner loop and the test of the outer one. -/
def State.finishRound (state : State Callback) : State Callback :=
  { state with
    point := if state.session.engine.m_stopFlag then .outside (some .returned) else .loopHead }

def State.next (grow : Nat → Nat) (state : State Callback) :
    Label Callback → Option (State Callback)
  | .call call =>
      match state.point with
      | .outside _ => some { state with session := state.session.perform grow call }
      | _ => none
  | .go =>
      match state.point with
      | .outside _ =>
          let started : Session Callback :=
            { state.session with engine := { state.session.engine with m_stopFlag := false } }
          some ⟨started, .loopHead⟩
      | .loopHead =>
          let selObjs := state.session.engine.selObjs
          some { state with
            point := if selObjs.isEmpty then .outside (some .returned) else .selecting selObjs }
      | .innerLoop _ [] => some state.finishRound
      | .innerLoop selected (selObj :: rest) =>
          if selected ≤ 0 then some state.finishRound
          else if selObj.readAvailable || selObj.writeAvailable then none
          else some { state with point := .innerLoop selected rest }
      | _ => none
  | .selectRW rc readAvailable writeAvailable wasError =>
      match state.point with
      | .selecting selObjs =>
          let answered := selObjs.map fun so =>
            { so with
              readAvailable := readAvailable so.s
              writeAvailable := writeAvailable so.s
              wasError := wasError so.s }
          some { state with
            point :=
              if rc = SELECT_ERROR then .outside (some (.selectException "Select Error"))
              else if rc = SELECT_TIMEOUT then .outside (some (.selectException "Select Timeout"))
              else .innerLoop rc answered }
      | _ => none
  | .dispatch read write =>
      match state.point with
      | .innerLoop selected (selObj :: rest) =>
          if 0 < selected ∧ (selObj.readAvailable || selObj.writeAvailable) = true then
            match state.session.dispatch grow selObj read write with
            | none => some { state with point := .undefinedBehaviour }
            | some body =>
                some ⟨body.session,
                  if body.threw then .outside (some .callbackException)
                  else .innerLoop (selected - 1) rest⟩
          else none
      | _ => none

/-- The table is any sorted vector, and its data are the registered ones. -/
def Initial (state : State Callback) : Prop :=
  state.point = .outside none ∧ state.session.events = [] ∧
    (state.session.engine.m_table.Pairwise fun a b => descriptors.less a.1 b.1 = true) ∧
    state.session.engine.m_table.length ≤ state.session.engine.capacity ∧
    ∀ obj data, state.session.registered obj = some data ↔
      (obj, data) ∈ state.session.engine.m_table

def system (grow : Nat → Nat) : TransitionSystem (State Callback) (Label Callback) :=
  .computed Initial (State.next grow)

end Blocxx.SelectEngine
