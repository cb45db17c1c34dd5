import Blocxx.ThreadPool.Invariant

/-!
This file proves that the pool hands out its accepted work once and in order.
-/

namespace Blocxx.ThreadPool
open Library Library.Monitor FixedSizePoolImpl

variable {Thread Work : Type}

/-- The work that a returned call has put into the queue. -/
def added (done : Finished Thread (Call Work) (Result Work)) : Option Work :=
  match done.call, done.result with
  | .addWork work _, .answer true => work
  | _, _ => none

/-- The work that a returned call has taken out of the queue. -/
def taken (done : Finished Thread (Call Work) (Result Work)) : Option Work :=
  match done.call, done.result with
  | .getWorkFromQueue _, .work work => work
  | _, _ => none

/-- The work that `addWork` has accepted, in the order of acceptance. -/
def accepted (state : PoolState Thread Work) : List Work := state.finished.filterMap added

/-- The work that the workers have got, in the order of the calls. -/
def handedOut (state : PoolState Thread Work) : List Work := state.finished.filterMap taken

/-- The call of the thread that a label moves. -/
def callOf (state : PoolState Thread Work) : Label Thread (Call Work) → Option (Call Work)
  | .enter _ call => some call
  | .resume thread => (state.position thread).map Prod.fst
  | .rouse _ => none
  | .expire _ => none

namespace FixedSizePoolImpl

variable {pool : FixedSizePoolImpl Work} {call : Call Work} {point : Option (Point Work)}
  {ran : PoolSection Work}

/-- A refusal neither adds nor takes work. -/
theorem refuse_neutral {result : Result Work} (thread : Thread) (call : Call Work)
    (answer : result ≠ .answer true ∧ ∀ work, result ≠ .work (some work)) :
    added (⟨thread, call, result⟩ : Finished Thread _ _) = none ∧
      taken (⟨thread, call, result⟩ : Finished Thread _ _) = none := by
  obtain ⟨refused, nothing⟩ := answer
  cases result with
  | answer accepted =>
      cases accepted with
      | true => exact absurd rfl refused
      | false => cases call <;> exact ⟨rfl, rfl⟩
  | work work =>
      cases work with
      | none => cases call <;> exact ⟨rfl, rfl⟩
      | some work => exact absurd rfl (nothing work)
  | returned => cases call <;> exact ⟨rfl, rfl⟩

/-- The old queue and the added work are the taken work and the new queue. -/
theorem Move.conserves (move : Move pool call point ran) (thread : Thread) :
    pool.queue ++ (ran.next.finished thread call).filterMap added =
      (ran.next.finished thread call).filterMap taken ++ ran.shared.queue := by
  cases move with
  | refuse stands answer expires =>
      obtain ⟨noWork, noTaken⟩ := refuse_neutral thread call answer
      simp [Next.finished, noWork, noTaken]
  | waitFull stands waits full opened => simp [Next.finished]
  | waitWork stands waits empty running => simp [Next.finished]
  | waitEmpty stands waits kept => simp [Next.finished]
  | add stands room opened => simp [Next.finished, added, taken]
  | take stands found running => simp [Next.finished, added, taken, found]
  | stop stands kept empty => simp [Next.finished]
  | wakeWorkers => simp [Next.finished]
  | wakeAdders => simp [Next.finished]

/-- A non-zero limit bounds the queue. -/
def Bounded (maxQueueSize : Nat) (pool : FixedSizePoolImpl Work) : Prop :=
  pool.maxQueueSize = maxQueueSize ∧ (maxQueueSize ≠ 0 → pool.queue.length ≤ maxQueueSize)

theorem Move.bounded {maxQueueSize : Nat} (move : Move pool call point ran)
    (bounded : pool.Bounded maxQueueSize) : ran.shared.Bounded maxQueueSize := by
  obtain ⟨rfl, limit⟩ := bounded
  cases move with
  | refuse stands answer expires => exact ⟨rfl, limit⟩
  | waitFull stands waits full opened => exact ⟨rfl, limit⟩
  | waitWork stands waits empty running => exact ⟨rfl, limit⟩
  | waitEmpty stands waits kept => exact ⟨rfl, limit⟩
  | add stands room opened =>
      refine ⟨rfl, ?_⟩
      intro limited
      have below := limit limited
      have notFull : pool.queue.length ≠ pool.maxQueueSize := fun full =>
        room ⟨Nat.pos_of_ne_zero limited, full⟩
      rw [List.length_append, List.length_singleton]
      omega
  | take stands found running =>
      refine ⟨rfl, ?_⟩
      intro limited
      have below := limit limited
      rw [found, List.length_cons] at below
      exact Nat.le_of_succ_le below
  | stop stands kept empty => exact ⟨rfl, limit⟩
  | wakeWorkers => exact ⟨rfl, limit⟩
  | wakeAdders => exact ⟨rfl, limit⟩

/-- A closed queue stays closed and accepts nothing. -/
theorem Move.closed (move : Move pool call point ran) (thread : Thread)
    (closed : pool.queueClosed = true) :
    ran.shared.queueClosed = true ∧ (ran.next.finished thread call).filterMap added = [] := by
  cases move with
  | refuse stands answer expires =>
      obtain ⟨noWork, _⟩ := refuse_neutral thread call answer
      exact ⟨closed, by simp [Next.finished, noWork]⟩
  | waitFull stands waits full opened => exact ⟨closed, rfl⟩
  | waitWork stands waits empty running => exact ⟨closed, rfl⟩
  | waitEmpty stands waits kept => exact ⟨kept closed, rfl⟩
  | add stands room opened => exact absurd (.inr closed) opened
  | take stands found running => exact ⟨closed, rfl⟩
  | stop stands kept empty => exact ⟨kept closed, rfl⟩
  | wakeWorkers => exact ⟨closed, rfl⟩
  | wakeAdders => exact ⟨closed, rfl⟩

/-- The queue of a pool that is shut down does not change any more. -/
theorem Move.frozen (move : Move pool call point ran) (stopped : pool.shutdown = true) :
    ran.shared.shutdown = true ∧ ran.shared.queue = pool.queue := by
  cases move with
  | refuse stands answer expires => exact ⟨stopped, rfl⟩
  | waitFull stands waits full opened => exact ⟨stopped, rfl⟩
  | waitWork stands waits empty running => exact ⟨stopped, rfl⟩
  | waitEmpty stands waits kept => exact ⟨stopped, rfl⟩
  | add stands room opened => exact absurd (.inl stopped) opened
  | take stands found running => simp [stopped] at running
  | stop stands kept empty => exact ⟨rfl, rfl⟩
  | wakeWorkers => exact ⟨stopped, rfl⟩
  | wakeAdders => exact ⟨stopped, rfl⟩

/-- The move that shuts the pool down keeps the queue, and a shutdown that finishes the work
with an infinite timeout finds it empty. -/
theorem Move.stops (move : Move pool call point ran) (running : pool.shutdown = false)
    (stopped : ran.shared.shutdown = true) :
    ran.shared.queue = pool.queue ∧ (call = .shutdown true true → pool.queue = []) := by
  cases move with
  | stop stands kept empty =>
      refine ⟨rfl, ?_⟩
      rintro ⟨⟩
      exact empty rfl rfl
  | _ => simp [running] at stopped

/-- A worker that waits for work gets none only from a pool that is shut down. -/
theorem Move.none (move : Move pool call point ran) (waiting : call = .getWorkFromQueue true)
    (none : ran.next = .finish (.work none)) : ran.shared.shutdown = true := by
  cases move with
  | refuse stands answer expires => exact expires waiting (Next.finish.inj none)
  | _ => simp at none

end FixedSizePoolImpl

variable [DecidableEq Thread] {maxQueueSize : Nat} {state next : PoolState Thread Work}
  {label : Label Thread (Call Work)}

/-- Each step makes a move of the call that its label names, or leaves the pool as it was. -/
theorem step_move (fits : ∀ thread, (state.phase thread).Fits Waits Leaves)
    (step : (system maxQueueSize).step state label next) :
    (∃ thread call point ran, callOf state label = some call ∧ Move state.shared call point ran ∧
        next.shared = ran.shared ∧
        next.finished = state.finished ++ ran.next.finished thread call) ∨
      next.shared = state.shared ∧ next.finished = state.finished := by
  rcases Step.ran_or_woken step with ⟨thread, call, ran, turn, shared, _, finished⟩ |
    ⟨shared, _, finished⟩
  · left
    rcases turn.continues fits with ⟨rfl, _, rfl⟩ | ⟨rfl, point, answer, stands, continues, rfl⟩
    · exact ⟨thread, call, none, _, rfl, enter_move call, shared, finished⟩
    · refine ⟨thread, call, some point, _, ?_, resume_move continues, shared, finished⟩
      rw [callOf, stands]
      rfl
  · exact .inr ⟨shared, finished⟩

/-- This is the invariant of the queue and of the record of returned calls. -/
structure InOrder (maxQueueSize : Nat) (state : PoolState Thread Work) : Prop where
  order : accepted state = handedOut state ++ state.shared.queue
  bounded : state.shared.Bounded maxQueueSize
  workers : ∀ done ∈ state.finished, done.call = .getWorkFromQueue true →
    done.result = .work none → state.shared.shutdown = true

theorem InOrder.step (inOrder : InOrder maxQueueSize state)
    (fits : ∀ thread, (state.phase thread).Fits Waits Leaves)
    (step : (system maxQueueSize).step state label next) : InOrder maxQueueSize next := by
  rcases step_move fits step with ⟨thread, call, point, ran, _, move, shared, finished⟩ |
    ⟨shared, finished⟩
  · exact {
      order := by
        have before := inOrder.order
        have conserves := move.conserves thread
        rw [accepted, handedOut] at before ⊢
        rw [shared, finished, List.filterMap_append, List.filterMap_append, before,
          List.append_assoc, List.append_assoc, conserves]
      bounded := by
        rw [shared]
        exact move.bounded inOrder.bounded
      workers := by
        intro done member waiting none
        rw [shared]
        rw [finished, List.mem_append] at member
        rcases member with old | new
        · exact (move.frozen (inOrder.workers done old waiting none)).1
        · cases goes : ran.next with
          | finish result =>
              rw [goes, Next.finished, List.mem_singleton] at new
              subst new
              exact move.none waiting (by rw [goes, ← none])
          | wait condition timed point => simp [goes, Next.finished] at new
          | leave point => simp [goes, Next.finished] at new }
  · exact {
      order := by
        have before := inOrder.order
        rw [accepted, handedOut] at before ⊢
        rw [shared, finished, before]
      bounded := by
        rw [shared]
        exact inOrder.bounded
      workers := by
        rw [shared, finished]
        exact inOrder.workers }

theorem inOrder_of_reachable (reached : (system maxQueueSize).Reachable state) :
    InOrder maxQueueSize state := by
  apply reached.invariant
  · intro state start
    rw [start]
    exact {
      order := rfl
      bounded := ⟨rfl, fun _ => Nat.zero_le _⟩
      workers := by simp }
  · intro state label next before inOrder step
    exact inOrder.step (fits_of_reachable before) step

/-- After the queue is closed no work is accepted in any later state. -/
theorem accepted_of_closed (reached : (system maxQueueSize).Reachable state)
    (closed : state.shared.queueClosed = true) {later : PoolState Thread Work}
    (reaches : (system maxQueueSize).Reaches state later) :
    later.shared.queueClosed = true ∧ accepted later = accepted state := by
  induction reaches with
  | refl => exact ⟨closed, rfl⟩
  | @tail middle later before taken ih =>
      obtain ⟨label, step⟩ := taken
      obtain ⟨stays, same⟩ := ih
      rcases step_move (fits_of_reachable (reached.later before)) step with
        ⟨thread, call, point, ran, _, move, shared, finished⟩ | ⟨shared, finished⟩
      · obtain ⟨keeps, nothing⟩ := move.closed thread stays
        refine ⟨by rwa [shared], ?_⟩
        rw [accepted, finished, List.filterMap_append, nothing, List.append_nil]
        exact same
      · refine ⟨by rwa [shared], ?_⟩
        rw [accepted, finished]
        exact same

/-- A step has set `m_shutdown` while exactly the work that is left now was queued. -/
def LeftByShutdown (maxQueueSize : Nat) (state : PoolState Thread Work) : Prop :=
  ∃ before label after, (system maxQueueSize).Reachable before ∧
    (system maxQueueSize).step before label after ∧ before.shared.shutdown = false ∧
    after.shared.shutdown = true ∧ before.shared.queue = state.shared.queue ∧
    (system maxQueueSize).Reaches after state

theorem leftByShutdown_of_reachable (reached : (system maxQueueSize).Reachable state) :
    state.shared.shutdown = true → LeftByShutdown maxQueueSize state := by
  induction reached with
  | initial start =>
      intro stopped
      rw [start] at stopped
      cases stopped
  | @step state next label before taken ih =>
      intro stopped
      rcases step_move (fits_of_reachable before) taken with
        ⟨thread, call, point, ran, _, move, shared, finished⟩ | ⟨shared, finished⟩
      · cases running : state.shared.shutdown with
        | true =>
            obtain ⟨first, cause, after, reached, step, off, on, queue, reaches⟩ := ih running
            refine ⟨first, cause, after, reached, step, off, on, ?_, reaches.tail ⟨label, taken⟩⟩
            rw [queue, shared, (move.frozen running).2]
        | false =>
            rw [shared] at stopped
            refine ⟨state, label, next, before, taken, running, by rwa [shared], ?_, .refl⟩
            rw [shared, (move.stops running stopped).1]
      · rw [shared] at stopped
        obtain ⟨first, cause, after, reached, step, off, on, queue, reaches⟩ := ih stopped
        refine ⟨first, cause, after, reached, step, off, on, ?_, reaches.tail ⟨label, taken⟩⟩
        rw [queue, shared]

/-- These properties say that the pool neither loses, repeats, nor reorders work. -/
structure Orderly (maxQueueSize : Nat) (state : PoolState Thread Work) : Prop where
  order : accepted state = handedOut state ++ state.shared.queue
  refused : ∀ work, work ∉ accepted state → work ∉ handedOut state
  left : state.shared.shutdown = true → LeftByShutdown maxQueueSize state
  workers : ∀ done ∈ state.finished, done.call = .getWorkFromQueue true →
    done.result = .work none → state.shared.shutdown = true
  closed : state.shared.queueClosed = true → ∀ later, (system maxQueueSize).Reaches state later →
    accepted later = accepted state
  bounded : maxQueueSize ≠ 0 → state.shared.queue.length ≤ maxQueueSize
  finishes : ∀ label next, (system maxQueueSize).step state label next →
    callOf state label = some (.shutdown true true) → state.shared.shutdown = false →
      next.shared.shutdown = true → state.shared.queue = []

/-- Thread 0 has added one piece of work to a pool with room for one. -/
def oneQueued : PoolState Nat Nat :=
  State.ran ⟨.new 1, fun _ => .idle, []⟩ 0 (.addWork (some 5) true)
    (enter (.addWork (some 5) true) (.new 1)) fun _ => .idle

theorem oneQueued_reachable : (system 1).Reachable oneQueued :=
  .step (.initial rfl)
    (show (system 1).step _ (.enter 0 (.addWork (some 5) true)) oneQueued from
      .run (.enter _ rfl) (.all (.nil _)))

end Blocxx.ThreadPool
