import Blocxx.ThreadPool.FixedSizePoolImpl

/-!
This file states where the threads of the pool can stand and what each section can do.
-/

namespace Blocxx.ThreadPool
open Library Library.Monitor

variable {Thread Work : Type}

/-- This relation lists the waits of each call. A wait is timed unless its timeout is infinite. -/
inductive Waits : Call Work → Point Work → Condition → Bool → Prop
  | add (work : Work) (infinite : Bool) :
      Waits (.addWork (some work) infinite) (.addLoop work infinite) .queueNotFull (!infinite)
  | work (waitForWork : Bool) :
      Waits (.getWorkFromQueue waitForWork) (.workLoop waitForWork) .queueNotEmpty (!waitForWork)
  | empty : Waits .waitForEmptyQueue .emptyLoop .queueEmpty false
  | finish (infinite : Bool) :
      Waits (.shutdown true infinite) (.finishLoop infinite) .queueEmpty (!infinite)

/-- Only a shutdown goes on without the lock. -/
inductive Leaves : Call Work → Point Work → Prop
  | wakeWorkers (finishWorkInQueue infinite : Bool) :
      Leaves (.shutdown finishWorkInQueue infinite) .wakeWorkers
  | wakeAdders (finishWorkInQueue infinite : Bool) :
      Leaves (.shutdown finishWorkInQueue infinite) .wakeAdders
  | joinThreads (finishWorkInQueue infinite : Bool) :
      Leaves (.shutdown finishWorkInQueue infinite) .joinThreads

namespace FixedSizePoolImpl

/-- This relation lists what a section can do. -/
inductive Move (pool : FixedSizePoolImpl Work) :
    Call Work → Option (Point Work) → PoolSection Work → Prop
  | refuse {call : Call Work} {point : Option (Point Work)} {result : Result Work}
      (stands : point ≠ some .wakeWorkers ∧ point ≠ some .wakeAdders)
      (answer : result ≠ .answer true ∧ ∀ work, result ≠ .work (some work))
      (expires : call = .getWorkFromQueue true → result = .work none → pool.shutdown = true) :
      Move pool call point ⟨pool, [], .finish result⟩
  | waitFull {call : Call Work} {point : Option (Point Work)} {work : Work} {infinite : Bool}
      (stands : point ≠ some .wakeWorkers ∧ point ≠ some .wakeAdders)
      (waits : Waits call (.addLoop work infinite) .queueNotFull (!infinite))
      (full : pool.queueIsFull) (opened : ¬ pool.isClosed) :
      Move pool call point ⟨pool, [], .wait .queueNotFull (!infinite) (.addLoop work infinite)⟩
  | waitWork {call : Call Work} {point : Option (Point Work)} {waitForWork : Bool}
      (stands : point ≠ some .wakeWorkers ∧ point ≠ some .wakeAdders)
      (waits : Waits call (.workLoop waitForWork) .queueNotEmpty (!waitForWork))
      (empty : pool.queue = []) (running : pool.shutdown = false) :
      Move pool call point
        ⟨pool, [], .wait .queueNotEmpty (!waitForWork) (.workLoop waitForWork)⟩
  | waitEmpty {call : Call Work} {point : Option (Point Work)} {loop : Point Work} {timed : Bool}
      (stands : point ≠ some .wakeWorkers ∧ point ≠ some .wakeAdders)
      (waits : Waits call loop .queueEmpty timed) {closed : Bool}
      (kept : pool.queueClosed = true → closed = true) :
      Move pool call point
        ⟨{ pool with queueClosed := closed }, [], .wait .queueEmpty timed loop⟩
  | add {point : Option (Point Work)} {work : Work} {infinite : Bool}
      (stands : point ≠ some .wakeWorkers ∧ point ≠ some .wakeAdders)
      (room : ¬ pool.queueIsFull) (opened : ¬ pool.isClosed) :
      Move pool (.addWork (some work) infinite) point
        ⟨{ pool with queue := pool.queue ++ [work] },
          if (pool.queue ++ [work]).length = 1 then [.all .queueNotEmpty] else [],
          .finish (.answer true)⟩
  | take {point : Option (Point Work)} {waitForWork : Bool} {work : Work} {rest : List Work}
      (stands : point ≠ some .wakeWorkers ∧ point ≠ some .wakeAdders)
      (found : pool.queue = work :: rest) (running : pool.shutdown = false) :
      Move pool (.getWorkFromQueue waitForWork) point
        ⟨{ pool with queue := rest },
          (if ¬ queueIsFull { pool with queue := rest } then [.all .queueNotFull] else []) ++
            (if rest.length = 0 then [.all .queueEmpty] else []),
          .finish (.work (some work))⟩
  | stop {point : Option (Point Work)} {finishWorkInQueue infinite closed : Bool}
      (stands : point ≠ some .wakeWorkers ∧ point ≠ some .wakeAdders)
      (kept : pool.queueClosed = true → closed = true)
      (empty : finishWorkInQueue = true → infinite = true → pool.queue = []) :
      Move pool (.shutdown finishWorkInQueue infinite) point
        ⟨{ pool with queueClosed := closed, shutdown := true }, [], .leave .wakeWorkers⟩
  | wakeWorkers {finishWorkInQueue infinite : Bool} :
      Move pool (.shutdown finishWorkInQueue infinite) (some .wakeWorkers)
        ⟨pool, [.all .queueNotEmpty], .leave .wakeAdders⟩
  | wakeAdders {finishWorkInQueue infinite : Bool} :
      Move pool (.shutdown finishWorkInQueue infinite) (some .wakeAdders)
        ⟨pool, [.all .queueNotFull], .leave .joinThreads⟩

variable {pool : FixedSizePoolImpl Work} {point : Option (Point Work)}

theorem addLoop_move (work : Work) (infinite : Bool)
    (stands : point ≠ some .wakeWorkers ∧ point ≠ some .wakeAdders) :
    Move pool (.addWork (some work) infinite) point (pool.addLoop work infinite) := by
  unfold addLoop
  split
  next blocked => exact .waitFull stands (.add work infinite) blocked.1 blocked.2
  next free =>
    split
    next closed => exact .refuse stands (by simp) (by simp)
    next opened => exact .add stands (fun full => free ⟨full, opened⟩) opened

theorem getWorkFromQueue_move (waitForWork : Bool)
    (stands : point ≠ some .wakeWorkers ∧ point ≠ some .wakeAdders) :
    Move pool (.getWorkFromQueue waitForWork) point (pool.getWorkFromQueue waitForWork) := by
  unfold getWorkFromQueue
  split
  next empty running => exact .waitWork stands (.work waitForWork) empty running
  next stopped => exact .refuse stands (by simp) (fun _ _ => stopped)
  next work rest found running => exact .take stands found running

theorem waitForEmptyQueue_move
    (stands : point ≠ some .wakeWorkers ∧ point ≠ some .wakeAdders) :
    Move pool .waitForEmptyQueue point pool.waitForEmptyQueue := by
  unfold waitForEmptyQueue
  split
  next => exact .waitEmpty stands .empty id
  next => exact .refuse stands (by simp) (by simp)

theorem finishLoop_move (infinite : Bool) {closed : Bool}
    (stands : point ≠ some .wakeWorkers ∧ point ≠ some .wakeAdders)
    (kept : pool.queueClosed = true → closed = true) :
    Move pool (.shutdown true infinite) point
      (finishLoop infinite { pool with queueClosed := closed }) := by
  unfold finishLoop
  split
  next => exact .waitEmpty stands (.finish infinite) kept
  next empty =>
    exact .stop stands kept fun _ _ => List.length_eq_zero_iff.mp (not_not.mp empty)

/-- Each call starts with one of the moves. -/
theorem enter_move (call : Call Work) : Move pool call none (enter call pool) := by
  cases call with
  | addWork work infinite =>
      cases work with
      | none => exact .refuse (by simp) (by simp) (by simp)
      | some work => exact addLoop_move work infinite (by simp)
  | getWorkFromQueue waitForWork => exact getWorkFromQueue_move waitForWork (by simp)
  | waitForEmptyQueue => exact waitForEmptyQueue_move (by simp)
  | shutdown finishWorkInQueue infinite =>
      change Move pool _ none (pool.shutdownThreads finishWorkInQueue infinite)
      unfold shutdownThreads
      split
      next closed => exact .refuse (by simp) (by simp) (by simp)
      next opened =>
        dsimp only
        split
        next finishing =>
          subst finishing
          exact finishLoop_move infinite (by simp) fun _ => rfl
        next discarding =>
          exact .stop (by simp) (fun _ => rfl) fun finishing => absurd finishing discarding

/-- A thread that continues where it may stand makes one of the moves. -/
theorem resume_move {call : Call Work} {point : Point Work} {answer : Bool}
    (continues : Continues Waits Leaves call point answer) :
    Move pool call (some point) (resume call point answer pool) := by
  rcases continues with ⟨leaves, rfl⟩ | ⟨condition, timed, waits, expired⟩
  · cases leaves with
    | wakeWorkers finishWorkInQueue infinite => exact .wakeWorkers
    | wakeAdders finishWorkInQueue infinite => exact .wakeAdders
    | joinThreads finishWorkInQueue infinite => exact .refuse (by simp) (by simp) (by simp)
  · cases waits with
    | add work infinite =>
        cases answer with
        | true => exact addLoop_move work infinite (by simp)
        | false => exact .refuse (by simp) (by simp) (by simp)
    | work waitForWork =>
        cases answer with
        | true => exact getWorkFromQueue_move waitForWork (by simp)
        | false =>
            have short : waitForWork = false := by simpa using expired rfl
            exact .refuse (by simp) (by simp) (by simp [short])
    | empty => exact waitForEmptyQueue_move (by simp)
    | finish infinite =>
        cases answer with
        | true => exact finishLoop_move infinite (by simp) id
        | false => exact .stop (by simp) id fun _ forever => by simp [forever] at expired

theorem Move.fits {call : Call Work} {ran : PoolSection Work} (move : Move pool call point ran) :
    (ran.next.phase call).Fits Waits Leaves := by
  cases move with
  | refuse stands answer expires => exact trivial
  | waitFull stands waits full opened => exact waits
  | waitWork stands waits empty running => exact waits
  | waitEmpty stands waits kept => exact waits
  | add stands room opened => exact trivial
  | take stands found running => exact trivial
  | stop stands kept empty => exact .wakeWorkers _ _
  | wakeWorkers => exact .wakeAdders _ _
  | wakeAdders => exact .joinThreads _ _

/-- The sections of the pool keep every thread where it may stand. -/
theorem program_keeps :
    (program : Program (FixedSizePoolImpl Work) _ _ _ _).Keeps Waits Leaves where
  enter call _ := (enter_move call).fits
  resume _ _ _ _ continues := (resume_move continues).fits

end FixedSizePoolImpl

open FixedSizePoolImpl

abbrev PoolState (Thread Work : Type) :=
  Monitor.State Thread (FixedSizePoolImpl Work) (Call Work) (Result Work) (Point Work) Condition

variable {state : PoolState Thread Work} {label : Label Thread (Call Work)} {thread : Thread}
  {call : Call Work} {ran : PoolSection Work}

/-- Each turn of the pool is a move of its call. -/
theorem turn_move (fits : ∀ thread, (state.phase thread).Fits Waits Leaves)
    (turn : Turn program state label thread call ran) :
    ∃ point : Option (Point Work), state.position thread = point.map (fun point => (call, point)) ∧
      Move state.shared call point ran := by
  rcases turn.continues fits with ⟨_, idle, rfl⟩ | ⟨_, point, answer, stands, continues, rfl⟩
  · exact ⟨none, idle, enter_move call⟩
  · exact ⟨some point, stands, resume_move continues⟩

/-- The pool is new and no call is in progress. -/
def system [DecidableEq Thread] (maxQueueSize : Nat) :
    TransitionSystem (PoolState Thread Work) (Label Thread (Call Work)) :=
  (program : Program (FixedSizePoolImpl Work) _ _ _ _).system (.new maxQueueSize)

/-- In every reachable state each thread stands where it may. -/
theorem fits_of_reachable [DecidableEq Thread] {maxQueueSize : Nat}
    (reached : (system maxQueueSize).Reachable state) :
    ∀ thread, (state.phase thread).Fits Waits Leaves := program_keeps.reachable reached

end Blocxx.ThreadPool
