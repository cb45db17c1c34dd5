import Blocxx.Library.Interruption
import Blocxx.ThreadPool.EmptyQueue

/-!
This file embeds the three implementations of `ThreadPoolImpl` with their worker threads and their
exceptions: a wait that throws `ThreadCancelledException`, the start of a thread that throws, and
work that ends with `ThreadCancelledException`. Each definition is one section that holds
`m_queueLock`, except the notice of the dynamic `addWork`, those of `shutdownThreads`, and the end
of a worker thread, which run without it.
-/

namespace Blocxx.ThreadPool
open Library Library.Monitor

inductive Implementation where
  | fixedSize
  | dynamicSize
  | dynamicSizeNoQueue
  deriving DecidableEq

/-- `Thread::start` runs the thread, fails to create it, or is cancelled while it waits for the
thread to run. -/
inductive Start where
  | started
  | threadException
  | threadCancelledException
  deriving DecidableEq

/-- The members of `CommonPoolImpl` are those of the fixed pool. The threads are numbered in the
order of their creation, and a thread that has ended is not running any more. The work that was
handed out and the number of changes of `m_threads` are auxiliary: no section reads them. -/
structure ThreadPoolImpl (Work : Type) extends FixedSizePoolImpl Work where
  maxThreads : UInt32
  threads : List Nat
  created : Nat
  ended : List Nat
  workingThreads : UInt64
  handedOut : List Work
  threadChanges : Nat

/-- The calls of the interface, and the run of a worker thread. A call of `addWork` knows how the
thread that it may create starts. -/
inductive ImplCall (Work : Type) where
  | addWork (work : Option Work) (infinite : Bool) (start : Start)
  | waitForEmptyQueue
  | shutdown (finishWorkInQueue infinite : Bool)
  | run (worker : Nat)

/-- The points of `addWork` and of `run`, and those of the common functions. -/
inductive ImplPoint (Work : Type) where
  | addLoop (work : Work) (infinite : Bool)
  | addNotify
  | addTest
  | common (point : Point Work)
  | workLoop (worker : Nat)
  | working (worker : Nat) (work : Work)
  | nextWork (worker : Nat)
  | exiting (worker : Nat)

/-- A call of the interface returns, or an exception leaves it. -/
inductive ImplResult (Work : Type) where
  | common (result : Result Work)
  | thrown
  | ended

abbrev ImplSection (Work : Type) :=
  Section (ThreadPoolImpl Work) (ImplResult Work) (ImplPoint Work) Condition

namespace ThreadPoolImpl

variable {Work : Type}

/-- The constructors. The fixed pool starts its threads at once, and the pool without a queue has
room for as much work as it has threads. -/
def new (implementation : Implementation) (numThreads maxQueueSize : UInt32) :
    ThreadPoolImpl Work where
  toFixedSizePoolImpl := .new (match implementation with
    | .dynamicSizeNoQueue => numThreads.toNat
    | _ => maxQueueSize.toNat)
  maxThreads := numThreads
  threads := match implementation with
    | .fixedSize => List.range numThreads.toNat
    | _ => []
  created := match implementation with
    | .fixedSize => numThreads.toNat
    | _ => 0
  ended := []
  workingThreads := 0
  handedOut := []
  threadChanges := 0

/-- The difference has the width of `UInt32`, since `AtomicGet` returns an `int`. -/
def freeThreads (pool : ThreadPoolImpl Work) : UInt32 :=
  pool.maxThreads - pool.workingThreads.toUInt32

def queueIsFull (implementation : Implementation) (pool : ThreadPoolImpl Work) : Prop :=
  match implementation with
  | .dynamicSizeNoQueue => pool.freeThreads.toNat ≤ pool.queue.length
  | _ => pool.toFixedSizePoolImpl.queueIsFull

instance (implementation : Implementation) (pool : ThreadPoolImpl Work) :
    Decidable (queueIsFull implementation pool) := by
  unfold queueIsFull
  split <;> infer_instance

def isRunning (pool : ThreadPoolImpl Work) (worker : Nat) : Bool := worker ∉ pool.ended

def incrementWorkerCount (implementation : Implementation) (pool : ThreadPoolImpl Work) :
    ThreadPoolImpl Work :=
  match implementation with
  | .dynamicSizeNoQueue => { pool with workingThreads := pool.workingThreads + 1 }
  | _ => pool

/-- A section that ends its call and sends no notice. -/
def finish (pool : ThreadPoolImpl Work) (result : Result Work) : ImplSection Work :=
  ⟨pool, [], .finish (.common result)⟩

/-- A section of a common function. -/
def lift (pool : ThreadPoolImpl Work) (ran : PoolSection Work) : ImplSection Work where
  shared := { pool with toFixedSizePoolImpl := ran.shared }
  notices := ran.notices
  next := match ran.next with
    | .finish result => .finish (.common result)
    | .wait condition timed point => .wait condition timed (.common point)
    | .leave point => .leave (.common point)

/-- The loop of the dynamic `addWork` that cleans up dead threads. -/
def cleanUp (pool : ThreadPoolImpl Work) : ThreadPoolImpl Work :=
  { pool with
    threads := pool.threads.filter pool.isRunning
    threadChanges := pool.threadChanges +
      (pool.threads.filter fun worker => !pool.isRunning worker).length }

/-- The loop test of `addWork` and the code after the loop. The fixed pool tells its workers about
the work with the lock, and a dynamic pool releases the lock. -/
def addLoop (implementation : Implementation) (work : Work) (infinite : Bool)
    (pool : ThreadPoolImpl Work) : ImplSection Work :=
  if queueIsFull implementation pool ∧ ¬ pool.isClosed then
    ⟨pool, [], .wait .queueNotFull (!infinite) (.addLoop work infinite)⟩
  else if pool.isClosed then finish pool (.answer false)
  else
    let pushed := { pool with queue := pool.queue ++ [work] }
    match implementation with
    | .fixedSize =>
        ⟨pushed, if pushed.queue.length = 1 then [.all .queueNotEmpty] else [],
          .finish (.common (.answer true))⟩
    | _ => ⟨pushed, [], .leave .addNotify⟩

/-- A null reference is refused before the lock is taken. Only a dynamic pool tests first whether
it is closed and cleans up. -/
def addWork (implementation : Implementation) (work : Option Work) (infinite : Bool)
    (pool : ThreadPoolImpl Work) : ImplSection Work :=
  match work, implementation with
  | none, _ => finish pool (.answer false)
  | some work, .fixedSize => addLoop .fixedSize work infinite pool
  | some work, implementation =>
      if pool.isClosed then finish pool (.answer false)
      else addLoop implementation work infinite pool.cleanUp

/-- The end of the dynamic `addWork`, which holds the lock again. A thread that could not be created
leaves the list again, and one whose start was cancelled stays in it. -/
def addTest (start : Start) (pool : ThreadPoolImpl Work) : ImplSection Work :=
  if pool.queue ≠ [] ∧ pool.threads.length < pool.maxThreads.toNat then
    let grown := { pool with
      threads := pool.threads ++ [pool.created]
      created := pool.created + 1
      threadChanges := pool.threadChanges + 1 }
    match start with
    | .started => finish grown (.answer true)
    | .threadException =>
        ⟨{ pool with threadChanges := pool.threadChanges + 2 }, [], .finish .thrown⟩
    | .threadCancelledException => ⟨grown, [], .finish .thrown⟩
  else finish pool (.answer true)

/-- A worker of the fixed pool waits for work, and one of a dynamic pool waits for one second. -/
def waitForWork : Implementation → Bool
  | .fixedSize => true
  | _ => false

/-- The loop test of `getWorkFromQueue` and the code after the loop. A worker that gets no work
leaves `run`. -/
def getWorkFromQueue (implementation : Implementation) (worker : Nat)
    (pool : ThreadPoolImpl Work) : ImplSection Work :=
  match pool.queue, pool.shutdown with
  | [], false =>
      ⟨pool, [], .wait .queueNotEmpty (!waitForWork implementation) (.workLoop worker)⟩
  | _, true => ⟨pool, [], .leave (.exiting worker)⟩
  | work :: rest, false =>
      let left := incrementWorkerCount implementation
        { pool with queue := rest, handedOut := pool.handedOut ++ [work] }
      ⟨left,
        (if ¬ queueIsFull implementation left then [.all .queueNotFull] else []) ++
          (if rest.length = 0 then [.all .queueEmpty] else []),
        .leave (.working worker work)⟩

/-- The worker of the fixed pool makes no such call, and that of the first dynamic pool has no
effect. -/
def decrementWorkerCount (implementation : Implementation) (worker : Nat)
    (pool : ThreadPoolImpl Work) : ImplSection Work :=
  match implementation with
  | .dynamicSizeNoQueue =>
      ⟨{ pool with workingThreads := pool.workingThreads - 1 }, [.all .queueNotFull],
        .leave (.nextWork worker)⟩
  | _ => ⟨pool, [], .leave (.nextWork worker)⟩

/-- `runRunnable` passes on only `ThreadCancelledException`, which ends `run`. -/
def runRunnable (cancels : Work → Bool) (implementation : Implementation) (worker : Nat)
    (work : Work) (pool : ThreadPoolImpl Work) : ImplSection Work :=
  if cancels work then ⟨pool, [], .leave (.exiting worker)⟩
  else decrementWorkerCount implementation worker pool

/-- The end of the thread after its run has returned or thrown. -/
def doneRunning (worker : Nat) (pool : ThreadPoolImpl Work) : ImplSection Work :=
  ⟨{ pool with ended := worker :: pool.ended }, [], .finish .ended⟩

/-- The first section of each member function and of a worker thread. -/
def enter (implementation : Implementation) :
    ImplCall Work → ThreadPoolImpl Work → ImplSection Work
  | .addWork work infinite _ => addWork implementation work infinite
  | .waitForEmptyQueue => fun pool => pool.lift pool.waitForEmptyQueue
  | .shutdown finishWorkInQueue infinite =>
      fun pool => pool.lift (pool.shutdownThreads finishWorkInQueue infinite)
  | .run worker => getWorkFromQueue implementation worker

/-- How the thread starts that the call may create. -/
def startOf : ImplCall Work → Start
  | .addWork _ _ start => start
  | _ => .started

/-- The section after a point. A false answer means that the timed wait expired. The common points
belong to calls that `FixedSizePoolImpl.resume` does not read. -/
def resume (implementation : Implementation) (cancels : Work → Bool) (call : ImplCall Work) :
    ImplPoint Work → Bool → ThreadPoolImpl Work → ImplSection Work
  | .addLoop work infinite, true => addLoop implementation work infinite
  | .addLoop _ _, false => fun pool => finish pool (.answer false)
  | .addNotify, _ => fun pool => ⟨pool, [.one .queueNotEmpty], .leave .addTest⟩
  | .addTest, _ => addTest (startOf call)
  | .common point, answer =>
      fun pool => pool.lift (FixedSizePoolImpl.resume .waitForEmptyQueue point answer
        pool.toFixedSizePoolImpl)
  | .workLoop worker, true => getWorkFromQueue implementation worker
  | .workLoop worker, false => fun pool => ⟨pool, [], .leave (.exiting worker)⟩
  | .working worker work, _ => runRunnable cancels implementation worker work
  | .nextWork worker, _ => getWorkFromQueue implementation worker
  | .exiting worker, _ => doneRunning worker

def program (implementation : Implementation) (cancels : Work → Bool) :
    Program (ThreadPoolImpl Work) (ImplCall Work) (ImplResult Work) (ImplPoint Work) Condition :=
  ⟨enter implementation, resume implementation cancels⟩

/-- A cancelled client gets the exception, and a cancelled worker leaves `run`. -/
def cancelled : Raise (ImplCall Work) (ImplResult Work) (ImplPoint Work) Condition
  | .run worker, _ => .leave (.exiting worker)
  | _, _ => .finish .thrown

end ThreadPoolImpl

/-- A thread is a client of the pool or one of its workers. -/
abbrev ImplState (Client Work : Type) :=
  State (Client ⊕ Nat) (ThreadPoolImpl Work) (ImplCall Work) (ImplResult Work) (ImplPoint Work)
    Condition

/-- Clients make the calls of the interface, and each worker that was created runs once. -/
def MayRun {Client Work Results Points : Type}
    (state : State (Client ⊕ Nat) (ThreadPoolImpl Work) (ImplCall Work) Results Points Condition) :
    Label (Client ⊕ Nat) (ImplCall Work) → Prop
  | .enter (.inl _) call => ∀ worker, call ≠ .run worker
  | .enter (.inr worker) call => call = .run worker ∧ worker < state.shared.created ∧
      worker ∉ state.shared.ended
  | .resume _ | .rouse _ | .expire _ => True

instance {Client Work Results Points : Type}
    (state : State (Client ⊕ Nat) (ThreadPoolImpl Work) (ImplCall Work) Results Points Condition)
    (label : Label (Client ⊕ Nat) (ImplCall Work)) : Decidable (MayRun state label) :=
  match label with
  | .enter (.inl _) (.run worker) => isFalse fun never => never worker rfl
  | .enter (.inl _) (.addWork _ _ _) => isTrue nofun
  | .enter (.inl _) .waitForEmptyQueue => isTrue nofun
  | .enter (.inl _) (.shutdown _ _) => isTrue nofun
  | .enter (.inr worker) (.run other) =>
      decidable_of_iff (other = worker ∧ worker < state.shared.created ∧
        worker ∉ state.shared.ended) (by simp [MayRun])
  | .enter (.inr _) (.addWork _ _ _) => isFalse nofun
  | .enter (.inr _) .waitForEmptyQueue => isFalse nofun
  | .enter (.inr _) (.shutdown _ _) => isFalse nofun
  | .resume _ => isTrue trivial
  | .rouse _ => isTrue trivial
  | .expire _ => isTrue trivial

def implSystem {Client Work : Type} [DecidableEq Client] (implementation : Implementation)
    (cancels : Work → Bool) (numThreads maxQueueSize : UInt32) :
    TransitionSystem (ImplState Client Work) (Label (Client ⊕ Nat) (ImplCall Work)) :=
  ((ThreadPoolImpl.program implementation cancels).throwingSystem ThreadPoolImpl.cancelled
    (.new implementation numThreads maxQueueSize)).restrict MayRun

end Blocxx.ThreadPool
