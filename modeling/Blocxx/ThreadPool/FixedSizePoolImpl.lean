import Blocxx.Library.Monitor

/-!
This file embeds `FixedSizePoolImpl`. Each definition is one section that holds `m_queueLock`,
except the notices and the joins of `shutdownThreads`, which run without it.
-/

namespace Blocxx.ThreadPool
open Library.Monitor

/-- The state that the queue lock protects. The limit is constant. -/
structure FixedSizePoolImpl (Work : Type) where
  maxQueueSize : Nat
  queue : List Work
  queueClosed : Bool
  shutdown : Bool

inductive Condition where
  | queueNotFull
  | queueEmpty
  | queueNotEmpty
  deriving DecidableEq

/-- A null reference is `none`. A Boolean `infinite` says that the timeout is infinite. -/
inductive Call (Work : Type) where
  | addWork (work : Option Work) (infinite : Bool)
  | getWorkFromQueue (waitForWork : Bool)
  | waitForEmptyQueue
  | shutdown (finishWorkInQueue infinite : Bool)

/-- A point keeps the local variables that the code after it reads. -/
inductive Point (Work : Type) where
  | addLoop (work : Work) (infinite : Bool)
  | workLoop (waitForWork : Bool)
  | emptyLoop
  | finishLoop (infinite : Bool)
  | wakeWorkers
  | wakeAdders
  | joinThreads

inductive Result (Work : Type) where
  | answer (added : Bool)
  | work (work : Option Work)
  | returned

abbrev PoolSection (Work : Type) :=
  Section (FixedSizePoolImpl Work) (Result Work) (Point Work) Condition

namespace FixedSizePoolImpl

variable {Work : Type}

/-- The constructor. -/
def new (maxQueueSize : Nat) : FixedSizePoolImpl Work := ⟨maxQueueSize, [], false, false⟩

def queueIsFull (pool : FixedSizePoolImpl Work) : Prop :=
  0 < pool.maxQueueSize ∧ pool.queue.length = pool.maxQueueSize

instance (pool : FixedSizePoolImpl Work) : Decidable pool.queueIsFull :=
  inferInstanceAs (Decidable (_ ∧ _))

/-- This is the test `queueClosed()`, which reads both flags. -/
def isClosed (pool : FixedSizePoolImpl Work) : Prop :=
  pool.shutdown = true ∨ pool.queueClosed = true

instance (pool : FixedSizePoolImpl Work) : Decidable pool.isClosed :=
  inferInstanceAs (Decidable (_ ∨ _))

/-- A section that ends its call and sends no notice. -/
def finish (pool : FixedSizePoolImpl Work) (result : Result Work) : PoolSection Work :=
  ⟨pool, [], .finish result⟩

/-- The loop test of `addWork` and the code after the loop. -/
def addLoop (work : Work) (infinite : Bool) (pool : FixedSizePoolImpl Work) : PoolSection Work :=
  if pool.queueIsFull ∧ ¬ pool.isClosed then
    ⟨pool, [], .wait .queueNotFull (!infinite) (.addLoop work infinite)⟩
  else if pool.isClosed then finish pool (.answer false)
  else
    ⟨{ pool with queue := pool.queue ++ [work] },
      if (pool.queue ++ [work]).length = 1 then [.all .queueNotEmpty] else [],
      .finish (.answer true)⟩

/-- A null reference is refused before the lock is taken. -/
def addWork (work : Option Work) (infinite : Bool) (pool : FixedSizePoolImpl Work) :
    PoolSection Work :=
  match work with
  | none => finish pool (.answer false)
  | some work => addLoop work infinite pool

/-- The loop test of `getWorkFromQueue` and the code after the loop. A caller that does not wait
for work waits for one second. -/
def getWorkFromQueue (waitForWork : Bool) (pool : FixedSizePoolImpl Work) : PoolSection Work :=
  match pool.queue, pool.shutdown with
  | [], false => ⟨pool, [], .wait .queueNotEmpty (!waitForWork) (.workLoop waitForWork)⟩
  | _, true => finish pool (.work none)
  | work :: rest, false =>
      let left := { pool with queue := rest }
      ⟨left,
        (if ¬ left.queueIsFull then [.all .queueNotFull] else []) ++
          (if rest.length = 0 then [.all .queueEmpty] else []),
        .finish (.work (some work))⟩

def waitForEmptyQueue (pool : FixedSizePoolImpl Work) : PoolSection Work :=
  if pool.queue.length ≠ 0 then ⟨pool, [], .wait .queueEmpty false .emptyLoop⟩
  else finish pool .returned

/-- The end of `finishOffWorkInQueue` sets `m_shutdown` and unlocks. -/
def setShutdown (pool : FixedSizePoolImpl Work) : PoolSection Work :=
  ⟨{ pool with shutdown := true }, [], .leave .wakeWorkers⟩

/-- The loop test of `finishOffWorkInQueue` and the code after the loop. -/
def finishLoop (infinite : Bool) (pool : FixedSizePoolImpl Work) : PoolSection Work :=
  if pool.queue.length ≠ 0 then
    ⟨pool, [], .wait .queueEmpty (!infinite) (.finishLoop infinite)⟩
  else setShutdown pool

/-- A pool that is closed already makes `shutdownThreads` return at once. -/
def shutdownThreads (finishWorkInQueue infinite : Bool) (pool : FixedSizePoolImpl Work) :
    PoolSection Work :=
  if pool.isClosed then finish pool .returned
  else
    let closed := { pool with queueClosed := true }
    if finishWorkInQueue then finishLoop infinite closed else setShutdown closed

/-- The first section of each member function. -/
def enter : Call Work → FixedSizePoolImpl Work → PoolSection Work
  | .addWork work infinite => addWork work infinite
  | .getWorkFromQueue waitForWork => getWorkFromQueue waitForWork
  | .waitForEmptyQueue => waitForEmptyQueue
  | .shutdown finishWorkInQueue infinite => shutdownThreads finishWorkInQueue infinite

/-- The section after a point. A false answer means that the timed wait expired. -/
def resume (_ : Call Work) : Point Work → Bool → FixedSizePoolImpl Work → PoolSection Work
  | .addLoop work infinite, true => addLoop work infinite
  | .addLoop _ _, false => fun pool => finish pool (.answer false)
  | .workLoop waitForWork, true => getWorkFromQueue waitForWork
  | .workLoop _, false => fun pool => finish pool (.work none)
  | .emptyLoop, _ => waitForEmptyQueue
  | .finishLoop infinite, true => finishLoop infinite
  | .finishLoop _, false => setShutdown
  | .wakeWorkers, _ => fun pool => ⟨pool, [.all .queueNotEmpty], .leave .wakeAdders⟩
  | .wakeAdders, _ => fun pool => ⟨pool, [.all .queueNotFull], .leave .joinThreads⟩
  | .joinThreads, _ => fun pool => finish pool .returned

def program : Program (FixedSizePoolImpl Work) (Call Work) (Result Work) (Point Work) Condition :=
  ⟨enter, resume⟩

end FixedSizePoolImpl

end Blocxx.ThreadPool
