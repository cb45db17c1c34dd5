import Blocxx.ThreadPool.DynamicSizePoolImpl
import Blocxx.ThreadPool.EmptyQueue

/-!
This file states where the threads of a dynamic pool can stand and what each section can do.
-/

namespace Blocxx.ThreadPool
open Library Library.Monitor

variable {Client Work : Type}

/-- The common call that a call of the interface makes. -/
def DynamicCall.common : DynamicCall Work → Option (Call Work)
  | .waitForEmptyQueue => some .waitForEmptyQueue
  | .shutdown finishWorkInQueue infinite => some (.shutdown finishWorkInQueue infinite)
  | .addWork _ _ | .run _ => none

/-- This relation lists the waits of each call. -/
inductive DynamicWaits : DynamicCall Work → DynamicPoint Work → Condition → Bool → Prop
  | add (work : Work) (infinite : Bool) :
      DynamicWaits (.addWork (some work) infinite) (.addLoop work infinite) .queueNotFull
        (!infinite)
  | work (worker : Nat) : DynamicWaits (.run worker) (.workLoop worker) .queueNotEmpty true
  | common {call : DynamicCall Work} {inner : Call Work} {point : Point Work}
      {condition : Condition} {timed : Bool} (isCommon : call.common = some inner)
      (waits : Waits inner point condition timed) :
      DynamicWaits call (.common point) condition timed

/-- The calls that go on without the lock. -/
inductive DynamicLeaves : DynamicCall Work → DynamicPoint Work → Prop
  | addNotify (work : Work) (infinite : Bool) :
      DynamicLeaves (.addWork (some work) infinite) .addNotify
  | addTest (work : Work) (infinite : Bool) :
      DynamicLeaves (.addWork (some work) infinite) .addTest
  | working (worker : Nat) : DynamicLeaves (.run worker) (.working worker)
  | nextWork (worker : Nat) : DynamicLeaves (.run worker) (.nextWork worker)
  | exiting (worker : Nat) : DynamicLeaves (.run worker) (.exiting worker)
  | common {call : DynamicCall Work} {inner : Call Work} {point : Point Work}
      (isCommon : call.common = some inner) (leaves : Leaves inner point) :
      DynamicLeaves call (.common point)

namespace DynamicSizePoolImpl

/-- The clean-up changes the list of threads alone. -/
def withThreads (pool : DynamicSizePoolImpl Work) (threads : List Nat) :
    DynamicSizePoolImpl Work := { pool with threads := threads }

/-- This relation lists what a section can do. The Boolean is the answer of the wait. -/
inductive DynamicMove (pool : DynamicSizePoolImpl Work) :
    DynamicCall Work → Option (DynamicPoint Work) → Bool → DynamicSection Work → Prop
  | refuse {work : Option Work} {infinite answer : Bool} {point : Option (DynamicPoint Work)}
      {threads : List Nat} (stands : point ≠ some .addNotify ∧ point ≠ some .addTest) :
      DynamicMove pool (.addWork work infinite) point answer
        (finish (pool.withThreads threads) (.answer false))
  | waitFull {work : Work} {infinite answer : Bool} {point : Option (DynamicPoint Work)}
      {threads : List Nat} (stands : point ≠ some .addNotify ∧ point ≠ some .addTest) :
      DynamicMove pool (.addWork (some work) infinite) point answer
        ⟨pool.withThreads threads, [], .wait .queueNotFull (!infinite) (.addLoop work infinite)⟩
  | push {work : Work} {infinite answer : Bool} {point : Option (DynamicPoint Work)}
      {threads : List Nat} (opened : ¬ pool.isClosed) :
      DynamicMove pool (.addWork (some work) infinite) point answer
        ⟨{ pool.withThreads threads with queue := pool.queue ++ [work] }, [], .leave .addNotify⟩
  | notify {work : Work} {infinite answer : Bool} :
      DynamicMove pool (.addWork (some work) infinite) (some .addNotify) answer
        ⟨pool, [.one .queueNotEmpty], .leave .addTest⟩
  | create {work : Work} {infinite answer : Bool} (some_ : pool.queue ≠ [])
      (room : pool.threads.length < pool.maxThreads) :
      DynamicMove pool (.addWork (some work) infinite) (some .addTest) answer
        (finish { pool with
            threads := pool.threads ++ [pool.created], created := pool.created + 1 }
          (.answer true))
  | rely {work : Work} {infinite answer : Bool}
      (enough : pool.queue = [] ∨ pool.maxThreads ≤ pool.threads.length) :
      DynamicMove pool (.addWork (some work) infinite) (some .addTest) answer
        (finish pool (.answer true))
  | sleep {worker : Nat} {answer : Bool} {point : Option (DynamicPoint Work)}
      (empty : pool.queue = []) (running : pool.shutdown = false)
      (stands : point ≠ some (.exiting worker)) :
      DynamicMove pool (.run worker) point answer
        ⟨pool, [], .wait .queueNotEmpty true (.workLoop worker)⟩
  | take {worker : Nat} {answer : Bool} {point : Option (DynamicPoint Work)} {work : Work}
      {rest : List Work} {count : Nat} {more : List (Notice Condition)}
      (found : pool.queue = work :: rest) (running : pool.shutdown = false)
      (stands : point ≠ some (.exiting worker)) :
      DynamicMove pool (.run worker) point answer
        ⟨{ pool with queue := rest, workingThreads := count },
          more ++ (if rest.length = 0 then [.all .queueEmpty] else []), .leave (.working worker)⟩
  | giveUp {worker : Nat} {answer : Bool} {point : Option (DynamicPoint Work)}
      (why : pool.shutdown = true ∨ point = some (.workLoop worker) ∧ answer = false) :
      DynamicMove pool (.run worker) point answer ⟨pool, [], .leave (.exiting worker)⟩
  | worked {worker count : Nat} {answer : Bool} {more : List (Notice Condition)} :
      DynamicMove pool (.run worker) (some (.working worker)) answer
        ⟨{ pool with workingThreads := count }, more, .leave (.nextWork worker)⟩
  | end_ {worker : Nat} {answer : Bool} :
      DynamicMove pool (.run worker) (some (.exiting worker)) answer
        ⟨{ pool with ended := worker :: pool.ended }, [], .finish .ended⟩
  | common {call : DynamicCall Work} {inner : Call Work} {point : Option (Point Work)}
      {answer : Bool} {ran : PoolSection Work} (isCommon : call.common = some inner)
      (move : FixedSizePoolImpl.CommonMove pool.toFixedSizePoolImpl inner point answer ran) :
      DynamicMove pool call (point.map .common) answer (pool.lift ran)

variable {pool : DynamicSizePoolImpl Work}

theorem addLoop_move (work : Work) (infinite : Bool) {answer : Bool} (threads : List Nat)
    {point : Option (DynamicPoint Work)}
    (stands : point ≠ some .addNotify ∧ point ≠ some .addTest) :
    DynamicMove pool (.addWork (some work) infinite) point answer
      (addLoop work infinite (pool.withThreads threads)) := by
  unfold addLoop
  split
  · exact .waitFull stands
  · split
    · exact .refuse stands
    · next opened => exact .push opened

theorem getWorkFromQueue_move (worker : Nat) {answer : Bool}
    {point : Option (DynamicPoint Work)} (stands : point ≠ some (.exiting worker)) :
    DynamicMove pool (.run worker) point answer (getWorkFromQueue worker pool) := by
  unfold getWorkFromQueue
  split
  · next empty running => exact .sleep empty running stands
  · next stopped => exact .giveUp (.inl stopped)
  · next work rest found running =>
      have taken : ∃ count, { pool with queue := rest }.incrementWorkerCount =
          { pool with queue := rest, workingThreads := count } := by
        unfold incrementWorkerCount
        split
        · exact ⟨pool.workingThreads, rfl⟩
        · exact ⟨_, rfl⟩
      obtain ⟨count, isLeft⟩ := taken
      dsimp only
      rw [isLeft]
      exact .take found running stands

theorem decrementWorkerCount_move (worker : Nat) {answer : Bool} :
    DynamicMove pool (.run worker) (some (.working worker)) answer
      (decrementWorkerCount worker pool) := by
  unfold decrementWorkerCount
  split
  · exact @DynamicMove.worked _ pool worker pool.workingThreads answer []
  · exact .worked

theorem addTest_move {work : Work} {infinite answer : Bool} :
    DynamicMove pool (.addWork (some work) infinite) (some .addTest) answer (addTest pool) := by
  unfold addTest
  split
  · next room => exact .create room.1 room.2
  · next none_ =>
      refine .rely ?_
      by_contra enough
      push Not at enough
      exact none_ enough

/-- The common calls are those of the fixed pool. -/
theorem common_isCommon {call : DynamicCall Work} {inner : Call Work}
    (isCommon : call.common = some inner) : FixedSizePoolImpl.IsCommon inner := by
  cases call with
  | addWork | run => cases isCommon
  | waitForEmptyQueue | shutdown =>
      obtain rfl := Option.some.inj isCommon
      exact trivial

/-- Each call starts with one of the moves. -/
theorem enter_move (call : DynamicCall Work) :
    DynamicMove pool call none true (enter call pool) := by
  cases call with
  | addWork work infinite =>
      cases work with
      | none => exact @DynamicMove.refuse _ pool none infinite true none pool.threads (by simp)
      | some work =>
          show DynamicMove pool _ none true (addWork (some work) infinite pool)
          unfold addWork
          dsimp only
          split
          · exact @DynamicMove.refuse _ pool (some work) infinite true none pool.threads (by simp)
          · exact addLoop_move work infinite _ (by simp)
  | waitForEmptyQueue =>
      exact @DynamicMove.common _ pool _ _ none true _ rfl
        FixedSizePoolImpl.waitForEmptyQueue_common
  | shutdown finishWorkInQueue infinite =>
      exact @DynamicMove.common _ pool _ _ none true _ rfl
        (FixedSizePoolImpl.shutdownThreads_common finishWorkInQueue infinite)
  | run worker => exact getWorkFromQueue_move worker (by simp)

/-- A thread that continues where it may stand makes one of the moves. -/
theorem resume_move {call : DynamicCall Work} {point : DynamicPoint Work} {answer : Bool}
    (continues : Continues DynamicWaits DynamicLeaves call point answer) :
    DynamicMove pool call (some point) answer (resume call point answer pool) := by
  rcases continues with ⟨leaves, rfl⟩ | ⟨condition, timed, waits, expired⟩
  · cases leaves with
    | addNotify work infinite => exact .notify
    | addTest work infinite => exact addTest_move
    | working worker => exact decrementWorkerCount_move worker
    | nextWork worker => exact getWorkFromQueue_move worker (by simp)
    | exiting worker => exact .end_
    | @common _ inner point isCommon leaves =>
        exact @DynamicMove.common _ pool _ inner (some point) true _ isCommon
          (FixedSizePoolImpl.resume_common (common_isCommon isCommon) (.inl ⟨leaves, rfl⟩))
  · cases waits with
    | add work infinite =>
        cases answer with
        | true => exact addLoop_move work infinite pool.threads (by simp)
        | false =>
            exact @DynamicMove.refuse _ pool (some work) infinite false
              (some (.addLoop work infinite)) pool.threads (by simp)
    | work worker =>
        cases answer with
        | true => exact getWorkFromQueue_move worker (by simp)
        | false => exact .giveUp (.inr ⟨rfl, rfl⟩)
    | @common _ inner point _ _ isCommon waits =>
        exact @DynamicMove.common _ pool _ inner (some point) answer _ isCommon
          (FixedSizePoolImpl.resume_common (common_isCommon isCommon)
            (.inr ⟨condition, timed, waits, expired⟩))

theorem DynamicMove.fits {call : DynamicCall Work} {point : Option (DynamicPoint Work)}
    {answer : Bool} {ran : DynamicSection Work} (move : DynamicMove pool call point answer ran) :
    (ran.next.phase call).Fits DynamicWaits DynamicLeaves := by
  cases move with
  | refuse | create | rely | end_ => exact trivial
  | waitFull stands => exact .add _ _
  | push opened => exact .addNotify _ _
  | notify => exact .addTest _ _
  | sleep empty running stands => exact .work _
  | take found running stands => exact .working _
  | giveUp why => exact .exiting _
  | worked => exact .nextWork _
  | @common _ inner _ _ inside isCommon move =>
      have fits := move.fits
      unfold lift
      cases goes : inside.next with
      | finish result => exact trivial
      | wait condition timed point =>
          rw [goes] at fits
          exact .common isCommon fits
      | leave point =>
          rw [goes] at fits
          exact .common isCommon fits

/-- The sections of the pool keep every thread where it may stand. -/
theorem program_keeps :
    (program : Program (DynamicSizePoolImpl Work) _ _ _ _).Keeps DynamicWaits DynamicLeaves where
  enter call _ := (enter_move call).fits
  resume _ _ _ _ continues := (resume_move continues).fits

end DynamicSizePoolImpl

open DynamicSizePoolImpl

/-- Every thread stands where its call may leave it. -/
def AllFit (state : DynamicState Client Work) : Prop :=
  ∀ thread, (state.phase thread).Fits DynamicWaits DynamicLeaves

variable {state next : DynamicState Client Work} {label : Label (Client ⊕ Nat) (DynamicCall Work)}
  {thread : Client ⊕ Nat} {call : DynamicCall Work} {ran : DynamicSection Work}

/-- Each turn of the pool is a move of its call. -/
theorem dynamicTurn_move (fits : AllFit state)
    (turn : Turn DynamicSizePoolImpl.program state label thread call ran) :
    ∃ point answer, Begins state label thread call point answer ∧
      DynamicMove state.shared call point answer ran := by
  rcases turn.begins fits with ⟨begins, rfl⟩ | ⟨point, answer, begins, continues, rfl⟩
  · exact ⟨none, true, begins, enter_move call⟩
  · exact ⟨some point, answer, begins, resume_move continues⟩

end Blocxx.ThreadPool
