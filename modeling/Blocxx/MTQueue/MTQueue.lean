import Blocxx.Library.Monitor
import Blocxx.Library.Census

/-!
This file embeds `MTQueue` with its base, and proves that the queue keeps the order of its values,
its bound, and the counts of the threads that wait. Each definition is one section that holds
`m_mutex`.
-/

namespace Blocxx.Queue
open Library.Monitor

/-- The greatest size is constant once calls are made. -/
structure MTQueue (T : Type) where
  m_maxQueueSize : Nat
  m_shutdown : Bool
  m_pushesBlocked : Nat
  m_popsBlocked : Nat
  m_deque : List T

/-- Both sides wait on one condition. -/
inductive Condition where
  | m_cond
  deriving DecidableEq

/-- A Boolean `infinite` says that the timeout is infinite. -/
inductive Call (T : Type) where
  | pushBack (val : T)
  | popFront (infinite : Bool)
  | shutdown

/-- The two waits. -/
inductive Point where
  | pushBlocked
  | popBlocked
  deriving DecidableEq

/-- The value is the front of the deque, and an empty deque has none. -/
inductive EPopResult (T : Type) where
  | E_TIMED_OUT
  | E_SHUT_DOWN
  | E_VALUE (value : Option T)

/-- A push returns nothing. The record keeps whether it has inserted its value. -/
inductive Result (T : Type) where
  | pushed (inserted : Bool)
  | popped (rv : EPopResult T)
  | returned

abbrev QueueSection (T : Type) := Section (MTQueue T) (Result T) Point Condition

namespace MTQueue

variable {T : Type}

/-- The constructor. -/
def new (maxQueueSize : Nat) : MTQueue T := ⟨maxQueueSize, false, 0, 0, []⟩

def count (queue : MTQueue T) : Nat := queue.m_deque.length

/-- The test of the loop that contains the wait. -/
def blocks (queue : MTQueue T) : Point → Prop
  | .pushBlocked => queue.m_shutdown = false ∧ queue.count ≥ queue.m_maxQueueSize
  | .popBlocked => queue.m_shutdown = false ∧ queue.count = 0

instance (queue : MTQueue T) (point : Point) : Decidable (queue.blocks point) := by
  cases point <;> unfold blocks <;> infer_instance

/-- A notice is sent when the count of the other side is positive. -/
def notifyOne (blocked : Nat) : List (Notice Condition) :=
  if blocked > 0 then [.one .m_cond] else []

/-- The loop test of `enterPushBack`, and the code after the loop with the rest of `pushBack`. -/
def pushBack (val : T) (queue : MTQueue T) : QueueSection T :=
  if queue.blocks .pushBlocked then
    ⟨{ queue with m_pushesBlocked := queue.m_pushesBlocked + 1 }, [],
      .wait .m_cond false .pushBlocked⟩
  else if ¬ queue.m_shutdown then
    ⟨{ queue with m_deque := queue.m_deque ++ [val] }, notifyOne queue.m_popsBlocked,
      .finish (.pushed true)⟩
  else ⟨queue, notifyOne queue.m_popsBlocked, .finish (.pushed false)⟩

/-- The loop test of `enterPopFront`, and the code after the loop with the rest of `popFront`. -/
def popFront (infinite : Bool) (queue : MTQueue T) : QueueSection T :=
  if queue.blocks .popBlocked then
    ⟨{ queue with m_popsBlocked := queue.m_popsBlocked + 1 }, [],
      .wait .m_cond (!infinite) .popBlocked⟩
  else if queue.m_shutdown then
    ⟨queue, notifyOne queue.m_pushesBlocked, .finish (.popped .E_SHUT_DOWN)⟩
  else
    ⟨{ queue with m_deque := queue.m_deque.tail }, notifyOne queue.m_pushesBlocked,
      .finish (.popped (.E_VALUE queue.m_deque.head?))⟩

def shutdown (queue : MTQueue T) : QueueSection T :=
  ⟨{ queue with m_shutdown := true }, [.all .m_cond], .finish .returned⟩

/-- The count that is lowered behind the wait. -/
def unblock (queue : MTQueue T) : Point → MTQueue T
  | .pushBlocked => { queue with m_pushesBlocked := queue.m_pushesBlocked - 1 }
  | .popBlocked => { queue with m_popsBlocked := queue.m_popsBlocked - 1 }

/-- The section that starts in the loop. -/
def loop : Call T → MTQueue T → QueueSection T
  | .pushBack val => pushBack val
  | .popFront infinite => popFront infinite
  | .shutdown => shutdown

/-- The section behind a wait. A false answer means that the timed wait of `enterPopFront`
expired. -/
def resume (call : Call T) (point : Point) (signalled : Bool) (queue : MTQueue T) :
    QueueSection T :=
  match point, signalled with
  | .popBlocked, false =>
      ⟨queue.unblock .popBlocked, [], .finish (.popped .E_TIMED_OUT)⟩
  | _, _ => loop call (queue.unblock point)

def program : Program (MTQueue T) (Call T) (Result T) Point Condition := ⟨loop, resume⟩

end MTQueue

end Blocxx.Queue

namespace Blocxx.Queue
open Library Library.Monitor

variable {Thread T : Type}

abbrev QueueState (Thread T : Type) :=
  State Thread (MTQueue T) (Call T) (Result T) Point Condition

/-- This relation lists the waits of each call. -/
inductive Waits : Call T → Point → Condition → Bool → Prop
  | push (val : T) : Waits (.pushBack val) .pushBlocked .m_cond false
  | pop (infinite : Bool) : Waits (.popFront infinite) .popBlocked .m_cond (!infinite)

/-- No call goes on without the lock. -/
def Leaves (_ : Call T) (_ : Point) : Prop := False

/-- A thread that starts a section is idle, or it has left its wait. The Boolean says that the
wait expired. -/
inductive Stands : Phase (Call T) Point Condition → Call T → Option Point → Bool → Prop
  | idle (call : Call T) : Stands .idle call none false
  | woken {call : Call T} {point : Point} {condition : Condition} {timed : Bool} (wake : Wake)
      (waits : Waits call point condition timed) :
      Stands (.woken call point condition wake) call (some point) (wake == .expired)

namespace MTQueue

/-- The queue behind the wait at the point. -/
def entered (queue : MTQueue T) : Option Point → MTQueue T
  | none => queue
  | some point => queue.unblock point

/-- Behind a wait only the count of its side is lower. -/
theorem entered_spec (queue : MTQueue T) (point : Option Point) :
    (queue.entered point).m_deque = queue.m_deque ∧
      (queue.entered point).m_maxQueueSize = queue.m_maxQueueSize ∧
      (queue.entered point).m_shutdown = queue.m_shutdown ∧
      (queue.entered point).m_pushesBlocked =
        queue.m_pushesBlocked - (decide (point = some .pushBlocked)).toNat ∧
      (queue.entered point).m_popsBlocked =
        queue.m_popsBlocked - (decide (point = some .popBlocked)).toNat := by
  cases point with
  | none => exact ⟨rfl, rfl, rfl, rfl, rfl⟩
  | some point => cases point <;> exact ⟨rfl, rfl, rfl, rfl, rfl⟩

/-- This relation lists what a section can do, with a flag for an expired wait. -/
inductive Move (queue : MTQueue T) : Call T → Bool → QueueSection T → Prop
  | waitPush {val : T} (full : queue.blocks .pushBlocked) :
      Move queue (.pushBack val) false
        ⟨{ queue with m_pushesBlocked := queue.m_pushesBlocked + 1 }, [],
          .wait .m_cond false .pushBlocked⟩
  | push {val : T} (running : queue.m_shutdown = false)
      (room : queue.m_deque.length < queue.m_maxQueueSize) :
      Move queue (.pushBack val) false
        ⟨{ queue with m_deque := queue.m_deque ++ [val] }, notifyOne queue.m_popsBlocked,
          .finish (.pushed true)⟩
  | ignore {val : T} (stopped : queue.m_shutdown = true) :
      Move queue (.pushBack val) false
        ⟨queue, notifyOne queue.m_popsBlocked, .finish (.pushed false)⟩
  | waitPop {infinite : Bool} (empty : queue.blocks .popBlocked) :
      Move queue (.popFront infinite) false
        ⟨{ queue with m_popsBlocked := queue.m_popsBlocked + 1 }, [],
          .wait .m_cond (!infinite) .popBlocked⟩
  | pop {infinite : Bool} {value : T} {rest : List T} (running : queue.m_shutdown = false)
      (found : queue.m_deque = value :: rest) :
      Move queue (.popFront infinite) false
        ⟨{ queue with m_deque := rest }, notifyOne queue.m_pushesBlocked,
          .finish (.popped (.E_VALUE (some value)))⟩
  | shutDown {infinite : Bool} (stopped : queue.m_shutdown = true) :
      Move queue (.popFront infinite) false
        ⟨queue, notifyOne queue.m_pushesBlocked, .finish (.popped .E_SHUT_DOWN)⟩
  | expire {infinite : Bool} :
      Move queue (.popFront infinite) true ⟨queue, [], .finish (.popped .E_TIMED_OUT)⟩
  | stop : Move queue .shutdown false
      ⟨{ queue with m_shutdown := true }, [.all .m_cond], .finish .returned⟩

variable {queue : MTQueue T} {call : Call T} {expired : Bool} {ran : QueueSection T}

/-- A section that starts in the loop makes one of the moves. -/
theorem loop_move (queue : MTQueue T) (call : Call T) :
    Move queue call false (loop call queue) := by
  cases call with
  | pushBack val =>
      show Move queue _ false (queue.pushBack val)
      unfold pushBack
      split
      · next full => exact .waitPush full
      · next free =>
          split
          · next running =>
              have isRunning : queue.m_shutdown = false := Bool.eq_false_of_not_eq_true running
              refine .push isRunning ?_
              by_contra full
              exact free ⟨isRunning, Nat.le_of_not_lt full⟩
          · next stopped => exact .ignore (by simpa using stopped)
  | popFront infinite =>
      show Move queue _ false (queue.popFront infinite)
      unfold popFront
      split
      · next empty => exact .waitPop empty
      · next free =>
          split
          · next stopped => exact .shutDown stopped
          · next running =>
              have isRunning : queue.m_shutdown = false := Bool.eq_false_of_not_eq_true running
              cases found : queue.m_deque with
              | nil =>
                  refine absurd ⟨isRunning, ?_⟩ free
                  rw [count, found]
                  rfl
              | cons value rest => exact .pop isRunning found
  | shutdown => exact .stop

/-- The values that the finished call has inserted and taken. -/
def inserted : Finished Thread (Call T) (Result T) → Option T
  | ⟨_, .pushBack val, .pushed true⟩ => some val
  | _ => none

def taken : Finished Thread (Call T) (Result T) → Option T
  | ⟨_, _, .popped (.E_VALUE value)⟩ => value
  | _ => none

/-- The old values and the inserted one are the taken one and the new values. -/
theorem Move.conserves (move : Move queue call expired ran) (thread : Thread) :
    queue.m_deque ++ (ran.next.finished thread call).filterMap inserted =
      (ran.next.finished thread call).filterMap taken ++ ran.shared.m_deque := by
  cases move with
  | waitPush full | waitPop empty | ignore stopped | shutDown stopped | expire | stop =>
      exact List.append_nil _
  | push running room => simp [Next.finished, inserted, taken]
  | pop running found => simp [Next.finished, inserted, taken, found]

theorem Move.bounded (move : Move queue call expired ran)
    (bound : queue.m_deque.length ≤ queue.m_maxQueueSize) :
    ran.shared.m_maxQueueSize = queue.m_maxQueueSize ∧
      ran.shared.m_deque.length ≤ queue.m_maxQueueSize := by
  cases move with
  | push running room =>
      refine ⟨rfl, ?_⟩
      rw [List.length_append, List.length_singleton]
      exact room
  | pop running found =>
      refine ⟨rfl, ?_⟩
      rw [found, List.length_cons] at bound
      exact Nat.le_of_succ_le bound
  | waitPush full | waitPop empty | ignore stopped | shutDown stopped | expire | stop =>
      exact ⟨rfl, bound⟩

/-- A queue that is shut down stays so and inserts nothing. -/
theorem Move.stopped (move : Move queue call expired ran) (thread : Thread)
    (stopped : queue.m_shutdown = true) :
    ran.shared.m_shutdown = true ∧ (ran.next.finished thread call).filterMap inserted = [] := by
  cases move with
  | push running room => cases stopped.symm.trans running
  | pop running found => cases stopped.symm.trans running
  | waitPush full => cases stopped.symm.trans full.1
  | waitPop empty => cases stopped.symm.trans empty.1
  | ignore _ | shutDown _ | expire => exact ⟨stopped, rfl⟩
  | stop => exact ⟨rfl, rfl⟩

/-- No move reads an empty deque. -/
theorem Move.nonempty (move : Move queue call expired ran) (thread : Thread) :
    ∀ done ∈ ran.next.finished thread call, done.result ≠ .popped (.E_VALUE none) := by
  cases move <;> simp [Next.finished]

/-- The census test for the threads inside a wait. -/
def at_ (point : Point) (position : Option (Call T × Point)) : Bool :=
  position.map Prod.snd = some point

/-- The section counts itself in the wait that it starts. -/
theorem Move.counts (move : Move queue call expired ran) :
    ran.shared.m_pushesBlocked =
        queue.m_pushesBlocked + (at_ .pushBlocked (ran.next.position call)).toNat ∧
      ran.shared.m_popsBlocked =
        queue.m_popsBlocked + (at_ .popBlocked (ran.next.position call)).toNat := by
  cases move <;> exact ⟨rfl, rfl⟩

end MTQueue

open MTQueue

def system [DecidableEq Thread] (maxQueueSize : Nat) :
    TransitionSystem (QueueState Thread T) (Label Thread (Call T)) :=
  program.system (.new maxQueueSize)

theorem MTQueue.Move.fits {queue : MTQueue T} {call : Call T} {expired : Bool}
    {ran : QueueSection T} (move : Move queue call expired ran) :
    (ran.next.phase call).Fits Waits Leaves := by
  cases move with
  | waitPush full => exact .push _
  | waitPop empty => exact .pop _
  | push | ignore | pop | shutDown | expire | stop => trivial

/-- A thread that continues behind its wait makes one of the moves. -/
theorem resume_move {call : Call T} {point : Point} {condition : Condition} {timed signalled : Bool}
    (queue : MTQueue T) (waits : Waits call point condition timed)
    (expires : signalled = false → timed = true) :
    Move (queue.unblock point) call (!signalled) (resume call point signalled queue) := by
  cases waits with
  | push val =>
      cases signalled with
      | true => exact loop_move _ _
      | false => cases expires rfl
  | pop infinite =>
      cases signalled with
      | true => exact loop_move _ _
      | false => exact .expire

theorem program_keeps : (program (T := T)).Keeps Waits Leaves where
  enter call queue := (loop_move queue call).fits
  resume := by
    rintro call point signalled queue (⟨leaves, -⟩ | ⟨condition, timed, waits, expires⟩)
    · exact leaves.elim
    · exact (resume_move queue waits expires).fits

section Steps

variable [DecidableEq Thread] {maxQueueSize : Nat} {state next : QueueState Thread T}
  {label : Label Thread (Call T)}

theorem fits_of_reachable (reached : (system maxQueueSize).Reachable state) (thread : Thread) :
    (state.phase thread).Fits Waits Leaves := program_keeps.reachable reached thread

omit [DecidableEq Thread] in
/-- A turn makes one of the moves, from the queue behind the wait of its thread. -/
theorem turn_move {thread : Thread} {call : Call T} {ran : QueueSection T}
    (fits : ∀ thread, (state.phase thread).Fits Waits Leaves)
    (turn : Turn program state label thread call ran) :
    ∃ point expired, Stands (state.phase thread) call point expired ∧
      Move (state.shared.entered point) call expired ran := by
  have stood := fits thread
  cases turn with
  | enter call idle =>
      rw [idle]
      exact ⟨none, false, .idle call, loop_move _ call⟩
  | between stands =>
      rw [stands] at stood
      exact stood.elim
  | @woken thread call point condition wake stands =>
      rw [stands] at stood ⊢
      obtain ⟨timed, waits, expires⟩ := stood
      refine ⟨some point, _, .woken wake waits, ?_⟩
      have answer : (wake == .expired) = !(wake != .expired) := by simp [bne]
      rw [answer]
      exact resume_move state.shared waits (by simpa using expires)

end Steps

/-- The values that pushes have inserted, in the order of their sections. -/
def insertedValues (state : QueueState Thread T) : List T := state.finished.filterMap inserted

/-- The values that pops have returned, in the order of their sections. -/
def returnedValues (state : QueueState Thread T) : List T := state.finished.filterMap taken

section Invariant

variable [Fintype Thread] [DecidableEq Thread] {maxQueueSize : Nat}
  {state next : QueueState Thread T} {label : Label Thread (Call T)}

/-- How many threads are inside the wait, asleep or on their way out. -/
def waiting (point : Point) (state : QueueState Thread T) : Nat :=
  census (at_ point) state.position

/-- This is the invariant of the queue and of the record of finished calls. -/
structure Consistent (maxQueueSize : Nat) (state : QueueState Thread T) : Prop where
  order : insertedValues state = returnedValues state ++ state.shared.m_deque
  limit : state.shared.m_maxQueueSize = maxQueueSize
  bounded : state.shared.m_deque.length ≤ maxQueueSize
  nonempty : ∀ done ∈ state.finished, done.result ≠ .popped (.E_VALUE none)
  pushes : state.shared.m_pushesBlocked = waiting .pushBlocked state
  pops : state.shared.m_popsBlocked = waiting .popBlocked state

omit [Fintype Thread] [DecidableEq Thread] in
theorem Stands.position {thread : Thread} {call : Call T} {point : Option Point} {expired : Bool}
    (stands : Stands (state.phase thread) call point expired) :
    state.position thread = point.map (call, ·) := by
  unfold State.position
  generalize state.phase thread = phase at stands
  cases stands with
  | idle => rfl
  | woken => rfl

theorem Consistent.turn {thread : Thread} {call : Call T} {point : Option Point} {expired : Bool}
    {ran : QueueSection T} {phase : Thread → Phase (Call T) Point Condition}
    (consistent : Consistent maxQueueSize state)
    (stands : Stands (state.phase thread) call point expired)
    (move : Move (state.shared.entered point) call expired ran)
    (delivered : Delivered ran.notices state.phase phase) :
    Consistent maxQueueSize (state.ran thread call ran phase) := by
  have positions : (state.ran thread call ran phase).position =
      Function.update state.position thread (ran.next.position call) :=
    State.ran_position delivered
  have counted (wait : Point) : (decide (point = some wait)).toNat ≤ waiting wait state ∧
      waiting wait (state.ran thread call ran phase) + (decide (point = some wait)).toNat =
        waiting wait state + (at_ wait (ran.next.position call)).toNat := by
    have own : at_ wait (state.position thread) = decide (point = some wait) := by
      rw [stands.position, at_, Option.map_map]
      simp
    unfold waiting
    rw [positions, ← own]
    exact ⟨le_census thread, census_update thread _⟩
  obtain ⟨deque, greatest, shutdown, pushes, pops⟩ := entered_spec state.shared point
  obtain ⟨limit, bound⟩ := move.bounded (by
    rw [deque, greatest, consistent.limit]
    exact consistent.bounded)
  obtain ⟨pushesNow, popsNow⟩ := move.counts
  rw [greatest, consistent.limit] at limit bound
  exact {
    order := by
      have before := consistent.order
      have conserves := move.conserves thread
      rw [deque] at conserves
      unfold insertedValues returnedValues at before ⊢
      show (state.finished ++ ran.next.finished thread call).filterMap inserted =
        (state.finished ++ ran.next.finished thread call).filterMap taken ++ ran.shared.m_deque
      rw [List.filterMap_append, List.filterMap_append, before, List.append_assoc, conserves,
        List.append_assoc]
    limit := limit
    bounded := bound
    nonempty := by
      intro done member
      rcases List.mem_append.mp member with old | new
      · exact consistent.nonempty done old
      · exact move.nonempty thread done new
    pushes := by
      have before := consistent.pushes
      have change := counted .pushBlocked
      show ran.shared.m_pushesBlocked = _
      omega
    pops := by
      have before := consistent.pops
      have change := counted .popBlocked
      show ran.shared.m_popsBlocked = _
      omega }

theorem consistent_of_reachable (reached : (system maxQueueSize).Reachable state) :
    Consistent maxQueueSize state := by
  apply reached.invariant
  · intro state start
    rw [start]
    have nobody (wait : Point) : waiting wait (⟨.new maxQueueSize, fun _ => .idle, []⟩ :
        QueueState Thread T) = 0 := census_eq_zero.mpr fun _ => rfl
    exact {
      order := rfl
      limit := rfl
      bounded := Nat.zero_le _
      nonempty := by simp
      pushes := (nobody _).symm
      pops := (nobody _).symm }
  · intro state label next before consistent step
    have awake {after : QueueState Thread T} (position : after.position = state.position)
        (shared : after.shared = state.shared) (finished : after.finished = state.finished) :
        Consistent maxQueueSize after := by
      obtain ⟨order, limit, bounded, nonempty, pushes, pops⟩ := consistent
      unfold insertedValues returnedValues at order
      unfold waiting at pushes pops
      constructor
      · unfold insertedValues returnedValues
        rw [shared, finished, order]
      · rw [shared, limit]
      · rwa [shared]
      · rwa [finished]
      · unfold waiting
        rw [shared, position, pushes]
      · unfold waiting
        rw [shared, position, pops]
    cases step with
    | run turn delivered =>
        obtain ⟨point, expired, stands, move⟩ := turn_move (fits_of_reachable before) turn
        exact consistent.turn stands move delivered
    | rouse asleep => exact awake (State.wake_position (by rw [asleep]; rfl)) rfl rfl
    | expire asleep => exact awake (State.wake_position (by rw [asleep]; rfl)) rfl rfl

omit [Fintype Thread] in
/-- After a shutdown nothing is inserted in any later state. -/
theorem inserted_of_shutdown (reached : (system maxQueueSize).Reachable state)
    (stopped : state.shared.m_shutdown = true) {later : QueueState Thread T}
    (reaches : (system maxQueueSize).Reaches state later) :
    later.shared.m_shutdown = true ∧ insertedValues later = insertedValues state := by
  induction reaches with
  | refl => exact ⟨stopped, rfl⟩
  | @tail middle later before taken ih =>
      obtain ⟨label, step⟩ := taken
      obtain ⟨stays, same⟩ := ih
      cases step with
      | @run label thread call ran phase turn delivered =>
          obtain ⟨point, expired, stands, move⟩ :=
            turn_move (fits_of_reachable (reached.later before)) turn
          have entered := (entered_spec middle.shared point).2.2.1
          obtain ⟨keeps, nothing⟩ := move.stopped thread (entered.trans stays)
          refine ⟨keeps, ?_⟩
          show (middle.finished ++ ran.next.finished thread call).filterMap inserted = _
          rw [List.filterMap_append, nothing, List.append_nil]
          exact same
      | rouse asleep => exact ⟨stays, same⟩
      | expire asleep => exact ⟨stays, same⟩

/-- These properties say that the queue is a bounded queue, first in, first out. -/
structure BoundedFifo (maxQueueSize : Nat) (state : QueueState Thread T) : Prop where
  order : insertedValues state = returnedValues state ++ state.shared.m_deque
  bounded : state.shared.m_deque.length ≤ maxQueueSize
  stopped : state.shared.m_shutdown = true → ∀ later, (system maxQueueSize).Reaches state later →
    insertedValues later = insertedValues state
  nonempty : ∀ done ∈ state.finished, done.result ≠ .popped (.E_VALUE none)
  pushes : state.shared.m_pushesBlocked = waiting .pushBlocked state
  pops : state.shared.m_popsBlocked = waiting .popBlocked state

end Invariant

section Example

variable [DecidableEq Thread]

/-- The state after an idle thread ran the first section of a call. -/
def called (state : QueueState Thread Nat) (thread : Thread) (call : Call Nat)
    (phase : Thread → Phase (Call Nat) Point Condition) : QueueState Thread Nat :=
  state.ran thread call (loop call state.shared) phase

theorem called_step {maxQueueSize : Nat} {state : QueueState Thread Nat} {thread : Thread}
    {call : Call Nat} {phase : Thread → Phase (Call Nat) Point Condition}
    (idle : state.phase thread = .idle)
    (delivered : Delivered (loop call state.shared).notices state.phase phase) :
    (system maxQueueSize).step state (.enter thread call) (called state thread call phase) :=
  .run (.enter call idle) delivered

def start : QueueState Thread Nat := ⟨.new 1, fun _ => .idle, []⟩

/-- One thread waits for a value. -/
def onePop (thread : Thread) : QueueState Thread Nat :=
  called start thread (.popFront true) fun _ => .idle

theorem onePop_step (thread : Thread) :
    (system 1).step start (.enter thread (.popFront true)) (onePop thread) :=
  called_step rfl (.nil _)

end Example

end Blocxx.Queue
