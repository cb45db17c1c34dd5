import Blocxx.ThreadPool.FixedSizePoolImpl

/-!
This file embeds `DynamicSizePoolImpl` and `DynamicSizeNoQueuePoolImpl`. Each definition is one
section that holds `m_queueLock`, except the notice of `addWork`, those of `shutdownThreads`, and
the end of a worker thread, which run without it. The start of a thread always succeeds.
-/

namespace Blocxx.ThreadPool
open Library Library.Monitor

inductive PoolType where
  | DYNAMIC_SIZE
  | DYNAMIC_SIZE_NO_QUEUE
  deriving DecidableEq

/-- The members of `CommonPoolImpl` are those of the fixed pool. The threads are numbered in the
order of their creation, and a thread that has ended is not running any more. -/
structure DynamicSizePoolImpl (Work : Type) extends FixedSizePoolImpl Work where
  poolType : PoolType
  maxThreads : Nat
  threads : List Nat
  created : Nat
  ended : List Nat
  workingThreads : Nat

/-- The calls of the interface, and the run of a worker thread. -/
inductive DynamicCall (Work : Type) where
  | addWork (work : Option Work) (infinite : Bool)
  | waitForEmptyQueue
  | shutdown (finishWorkInQueue infinite : Bool)
  | run (worker : Nat)

/-- The points of `addWork` and of `run`, and those of the common functions. -/
inductive DynamicPoint (Work : Type) where
  | addLoop (work : Work) (infinite : Bool)
  | addNotify
  | addTest
  | common (point : Point Work)
  | workLoop (worker : Nat)
  | working (worker : Nat)
  | nextWork (worker : Nat)
  | exiting (worker : Nat)

inductive DynamicResult (Work : Type) where
  | common (result : Result Work)
  | ended

abbrev DynamicSection (Work : Type) :=
  Section (DynamicSizePoolImpl Work) (DynamicResult Work) (DynamicPoint Work) Condition

namespace DynamicSizePoolImpl

variable {Work : Type}

/-- The constructors. The pool without a queue has room for as much work as it has threads. -/
def new (poolType : PoolType) (maxThreads maxQueueSize : Nat) : DynamicSizePoolImpl Work where
  toFixedSizePoolImpl := .new (match poolType with
    | .DYNAMIC_SIZE => maxQueueSize
    | .DYNAMIC_SIZE_NO_QUEUE => maxThreads)
  poolType := poolType
  maxThreads := maxThreads
  threads := []
  created := 0
  ended := []
  workingThreads := 0

/-- There are at most as many working threads as the pool may have. -/
def queueIsFull (pool : DynamicSizePoolImpl Work) : Prop :=
  match pool.poolType with
  | .DYNAMIC_SIZE => pool.toFixedSizePoolImpl.queueIsFull
  | .DYNAMIC_SIZE_NO_QUEUE => pool.maxThreads - pool.workingThreads ≤ pool.queue.length

instance (pool : DynamicSizePoolImpl Work) : Decidable pool.queueIsFull := by
  unfold queueIsFull
  split <;> infer_instance

def isRunning (pool : DynamicSizePoolImpl Work) (worker : Nat) : Bool := worker ∉ pool.ended

def incrementWorkerCount (pool : DynamicSizePoolImpl Work) : DynamicSizePoolImpl Work :=
  match pool.poolType with
  | .DYNAMIC_SIZE => pool
  | .DYNAMIC_SIZE_NO_QUEUE => { pool with workingThreads := pool.workingThreads + 1 }

/-- A section that ends its call and sends no notice. -/
def finish (pool : DynamicSizePoolImpl Work) (result : Result Work) : DynamicSection Work :=
  ⟨pool, [], .finish (.common result)⟩

/-- A section of a common function. -/
def lift (pool : DynamicSizePoolImpl Work) (ran : PoolSection Work) : DynamicSection Work where
  shared := { pool with toFixedSizePoolImpl := ran.shared }
  notices := ran.notices
  next := match ran.next with
    | .finish result => .finish (.common result)
    | .wait condition timed point => .wait condition timed (.common point)
    | .leave point => .leave (.common point)

/-- The loop of `addWork` that cleans up dead threads. -/
def cleanUp (pool : DynamicSizePoolImpl Work) : DynamicSizePoolImpl Work :=
  { pool with threads := pool.threads.filter pool.isRunning }

/-- The loop test of `addWork` and the code after the loop, which releases the lock. -/
def addLoop (work : Work) (infinite : Bool) (pool : DynamicSizePoolImpl Work) :
    DynamicSection Work :=
  if pool.queueIsFull ∧ ¬ pool.isClosed then
    ⟨pool, [], .wait .queueNotFull (!infinite) (.addLoop work infinite)⟩
  else if pool.isClosed then finish pool (.answer false)
  else ⟨{ pool with queue := pool.queue ++ [work] }, [], .leave .addNotify⟩

def addWork (work : Option Work) (infinite : Bool) (pool : DynamicSizePoolImpl Work) :
    DynamicSection Work :=
  match work with
  | none => finish pool (.answer false)
  | some work =>
      if pool.isClosed then finish pool (.answer false)
      else addLoop work infinite pool.cleanUp

/-- The end of `addWork`, which holds the lock again. -/
def addTest (pool : DynamicSizePoolImpl Work) : DynamicSection Work :=
  if pool.queue ≠ [] ∧ pool.threads.length < pool.maxThreads then
    finish { pool with threads := pool.threads ++ [pool.created], created := pool.created + 1 }
      (.answer true)
  else finish pool (.answer true)

/-- The loop test of `getWorkFromQueue(false)` and the code after the loop. -/
def getWorkFromQueue (worker : Nat) (pool : DynamicSizePoolImpl Work) : DynamicSection Work :=
  match pool.queue, pool.shutdown with
  | [], false => ⟨pool, [], .wait .queueNotEmpty true (.workLoop worker)⟩
  | _, true => ⟨pool, [], .leave (.exiting worker)⟩
  | _ :: rest, false =>
      let left := { pool with queue := rest }.incrementWorkerCount
      ⟨left,
        (if ¬ left.queueIsFull then [.all .queueNotFull] else []) ++
          (if rest.length = 0 then [.all .queueEmpty] else []),
        .leave (.working worker)⟩

def decrementWorkerCount (worker : Nat) (pool : DynamicSizePoolImpl Work) : DynamicSection Work :=
  match pool.poolType with
  | .DYNAMIC_SIZE => ⟨pool, [], .leave (.nextWork worker)⟩
  | .DYNAMIC_SIZE_NO_QUEUE =>
      ⟨{ pool with workingThreads := pool.workingThreads - 1 }, [.all .queueNotFull],
        .leave (.nextWork worker)⟩

/-- The end of the thread after its run has returned. -/
def doneRunning (worker : Nat) (pool : DynamicSizePoolImpl Work) : DynamicSection Work :=
  ⟨{ pool with ended := worker :: pool.ended }, [], .finish .ended⟩

/-- The first section of each member function and of a worker thread. -/
def enter : DynamicCall Work → DynamicSizePoolImpl Work → DynamicSection Work
  | .addWork work infinite => addWork work infinite
  | .waitForEmptyQueue => fun pool => pool.lift pool.waitForEmptyQueue
  | .shutdown finishWorkInQueue infinite =>
      fun pool => pool.lift (pool.shutdownThreads finishWorkInQueue infinite)
  | .run worker => getWorkFromQueue worker

/-- The section after a point. A false answer means that the timed wait expired. The common points
belong to calls that `FixedSizePoolImpl.resume` does not read. -/
def resume (_ : DynamicCall Work) :
    DynamicPoint Work → Bool → DynamicSizePoolImpl Work → DynamicSection Work
  | .addLoop work infinite, true => addLoop work infinite
  | .addLoop _ _, false => fun pool => finish pool (.answer false)
  | .addNotify, _ => fun pool => ⟨pool, [.one .queueNotEmpty], .leave .addTest⟩
  | .addTest, _ => addTest
  | .common point, answer =>
      fun pool => pool.lift (FixedSizePoolImpl.resume .waitForEmptyQueue point answer
        pool.toFixedSizePoolImpl)
  | .workLoop worker, true => getWorkFromQueue worker
  | .workLoop worker, false => fun pool => ⟨pool, [], .leave (.exiting worker)⟩
  | .working worker, _ => decrementWorkerCount worker
  | .nextWork worker, _ => getWorkFromQueue worker
  | .exiting worker, _ => doneRunning worker

def program : Program (DynamicSizePoolImpl Work) (DynamicCall Work) (DynamicResult Work)
    (DynamicPoint Work) Condition := ⟨enter, resume⟩

end DynamicSizePoolImpl

/-- A thread is a client of the pool or one of its workers. -/
abbrev DynamicState (Client Work : Type) :=
  State (Client ⊕ Nat) (DynamicSizePoolImpl Work) (DynamicCall Work) (DynamicResult Work)
    (DynamicPoint Work) Condition

/-- Clients make the calls of the interface, and each worker that was created runs once. -/
def Scheduled {Client Work : Type} (state : DynamicState Client Work) :
    Label (Client ⊕ Nat) (DynamicCall Work) → Prop
  | .enter (.inl _) call => ∀ worker, call ≠ .run worker
  | .enter (.inr worker) call => call = .run worker ∧ worker < state.shared.created ∧
      worker ∉ state.shared.ended
  | .resume _ | .rouse _ | .expire _ => True

instance {Client Work : Type} (state : DynamicState Client Work)
    (label : Label (Client ⊕ Nat) (DynamicCall Work)) : Decidable (Scheduled state label) :=
  match label with
  | .enter (.inl _) (.run worker) => isFalse fun never => never worker rfl
  | .enter (.inl _) (.addWork _ _) => isTrue nofun
  | .enter (.inl _) .waitForEmptyQueue => isTrue nofun
  | .enter (.inl _) (.shutdown _ _) => isTrue nofun
  | .enter (.inr worker) (.run other) =>
      decidable_of_iff (other = worker ∧ worker < state.shared.created ∧
        worker ∉ state.shared.ended) (by simp [Scheduled])
  | .enter (.inr _) (.addWork _ _) => isFalse nofun
  | .enter (.inr _) .waitForEmptyQueue => isFalse nofun
  | .enter (.inr _) (.shutdown _ _) => isFalse nofun
  | .resume _ => isTrue trivial
  | .rouse _ => isTrue trivial
  | .expire _ => isTrue trivial

def dynamicSystem {Client Work : Type} [DecidableEq Client] (poolType : PoolType)
    (maxThreads maxQueueSize : Nat) :
    TransitionSystem (DynamicState Client Work) (Label (Client ⊕ Nat) (DynamicCall Work)) :=
  (DynamicSizePoolImpl.program.system (.new poolType maxThreads maxQueueSize)).restrict Scheduled

end Blocxx.ThreadPool
