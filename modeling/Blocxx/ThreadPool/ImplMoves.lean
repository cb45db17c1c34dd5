import Blocxx.ThreadPool.ThreadPoolImpl

/-!
This file states where the threads of a pool with exceptions can stand and what each section can do.
-/

namespace Blocxx.ThreadPool
open Library Library.Monitor

variable {Client Work : Type}

/-- The common call that a call of the interface makes. -/
def ImplCall.common : ImplCall Work → Option (Call Work)
  | .waitForEmptyQueue => some .waitForEmptyQueue
  | .shutdown finishWorkInQueue infinite => some (.shutdown finishWorkInQueue infinite)
  | .addWork _ _ _ | .run _ => none

/-- The points of `addWork` at which its work has entered the queue. -/
def ImplPoint.BehindPush : ImplPoint Work → Prop
  | .addNotify | .addTest => True
  | _ => False

/-- The point of `addWork` at which it waits for room. -/
def ImplPoint.BeforePush : ImplPoint Work → Prop
  | .addLoop _ _ => True
  | _ => False

/-- The points of a worker that looks for work. -/
def ImplPoint.LooksForWork : ImplPoint Work → Prop
  | .workLoop _ | .nextWork _ => True
  | _ => False

open ThreadPoolImpl

section Standing

variable (implementation : Implementation)

/-- This relation lists the waits of each call. -/
inductive ImplWaits : ImplCall Work → ImplPoint Work → Condition → Bool → Prop
  | add (work : Work) (infinite : Bool) (start : Start) :
      ImplWaits (.addWork (some work) infinite start) (.addLoop work infinite) .queueNotFull (!infinite)
  | work (worker : Nat) :
      ImplWaits (.run worker) (.workLoop worker) .queueNotEmpty (!waitForWork implementation)
  | common {call : ImplCall Work} {inner : Call Work} {point : Point Work}
      {condition : Condition} {timed : Bool} (isCommon : call.common = some inner)
      (waits : Waits inner point condition timed) :
      ImplWaits call (.common point) condition timed

/-- The calls that go on without the lock. Only a dynamic `addWork` does. -/
inductive ImplLeaves : ImplCall Work → ImplPoint Work → Prop
  | add (work : Option Work) (infinite : Bool) (start : Start) {point : ImplPoint Work}
      (behind : point.BehindPush) (dynamic : implementation ≠ .fixedSize) :
      ImplLeaves (.addWork work infinite start) point
  | working (worker : Nat) (work : Work) : ImplLeaves (.run worker) (.working worker work)
  | nextWork (worker : Nat) : ImplLeaves (.run worker) (.nextWork worker)
  | exiting (worker : Nat) : ImplLeaves (.run worker) (.exiting worker)
  | common {call : ImplCall Work} {inner : Call Work} {point : Point Work}
      (isCommon : call.common = some inner) (leaves : Leaves inner point) :
      ImplLeaves call (.common point)

end Standing

namespace ThreadPoolImpl

/-- The pool before or after the clean-up, which runs only while the pool is open. -/
def Cleaned (pool cleaned : ThreadPoolImpl Work) : Prop :=
  cleaned = pool ∨ ¬ pool.isClosed ∧ cleaned = pool.cleanUp

/-- The list of threads with the thread that `addWork` creates. -/
def grow (pool : ThreadPoolImpl Work) : ThreadPoolImpl Work :=
  { pool with
    threads := pool.threads ++ [pool.created]
    created := pool.created + 1
    threadChanges := pool.threadChanges + 1 }

/-- Work is left for a thread that the pool may still create. -/
def MayGrow (pool : ThreadPoolImpl Work) : Prop :=
  pool.queue ≠ [] ∧ pool.threads.length < pool.maxThreads.toNat

instance (pool : ThreadPoolImpl Work) : Decidable pool.MayGrow :=
  inferInstanceAs (Decidable (_ ∧ _))

/-- This relation lists what a section can do. The Boolean is the answer of the wait. -/
inductive Move (implementation : Implementation) (cancels : Work → Bool)
    (pool : ThreadPoolImpl Work) :
    ImplCall Work → Option (ImplPoint Work) → Bool → ImplSection Work → Prop
  | refuse {work : Option Work} {infinite answer : Bool} {start : Start}
      {point : Option (ImplPoint Work)} {cleaned : ThreadPoolImpl Work} {result : ImplResult Work}
      (stands : ∀ here ∈ point, here.BeforePush) (isCleaned : Cleaned pool cleaned)
      (refused : result = .common (.answer false) ∨ result = .thrown) :
      Move implementation cancels pool (.addWork work infinite start) point answer
        ⟨cleaned, [], .finish result⟩
  | waitFull {work : Work} {infinite answer : Bool} {start : Start}
      {point : Option (ImplPoint Work)} {cleaned : ThreadPoolImpl Work}
      (stands : ∀ here ∈ point, here.BeforePush) (isCleaned : Cleaned pool cleaned)
      (full : queueIsFull implementation pool) :
      Move implementation cancels pool (.addWork (some work) infinite start) point answer
        ⟨cleaned, [], .wait .queueNotFull (!infinite) (.addLoop work infinite)⟩
  | push {work : Work} {infinite answer : Bool} {start : Start}
      {point : Option (ImplPoint Work)} {cleaned : ThreadPoolImpl Work}
      {notices : List (Notice Condition)}
      {next : Next (ImplResult Work) (ImplPoint Work) Condition}
      (stands : ∀ here ∈ point, here.BeforePush) (isCleaned : Cleaned pool cleaned)
      (room : ¬ queueIsFull implementation pool) (opened : ¬ pool.isClosed)
      (goes : next = .finish (.common (.answer true)) ∨
        implementation ≠ .fixedSize ∧ next = .leave .addNotify) :
      Move implementation cancels pool (.addWork (some work) infinite start) point answer
        ⟨{ cleaned with queue := pool.queue ++ [work] }, notices, next⟩
  | notify {work : Option Work} {infinite answer : Bool} {start : Start}
      (dynamic : implementation ≠ .fixedSize) :
      Move implementation cancels pool (.addWork work infinite start) (some .addNotify) answer
        ⟨pool, [.one .queueNotEmpty], .leave .addTest⟩
  | create {work : Option Work} {infinite answer : Bool} {start : Start} {result : ImplResult Work}
      (dynamic : implementation ≠ .fixedSize) (mayGrow : pool.MayGrow)
      (ends : start = .started ∧ result = .common (.answer true) ∨
        start = .threadCancelledException ∧ result = .thrown) :
      Move implementation cancels pool (.addWork work infinite start) (some .addTest) answer
        ⟨pool.grow, [], .finish result⟩
  | fail {work : Option Work} {infinite answer : Bool}
      (dynamic : implementation ≠ .fixedSize) (mayGrow : pool.MayGrow) :
      Move implementation cancels pool (.addWork work infinite .threadException) (some .addTest)
        answer ⟨{ pool with threadChanges := pool.threadChanges + 2 }, [], .finish .thrown⟩
  | rely {work : Option Work} {infinite answer : Bool} {start : Start}
      (dynamic : implementation ≠ .fixedSize) (enough : ¬ pool.MayGrow) :
      Move implementation cancels pool (.addWork work infinite start) (some .addTest) answer
        (finish pool (.answer true))
  | sleep {worker : Nat} {answer : Bool} {point : Option (ImplPoint Work)}
      (stands : ∀ here ∈ point, here.LooksForWork) :
      Move implementation cancels pool (.run worker) point answer
        ⟨pool, [], .wait .queueNotEmpty (!waitForWork implementation) (.workLoop worker)⟩
  | take {worker : Nat} {answer : Bool} {point : Option (ImplPoint Work)} {work : Work}
      {rest : List Work} {notices : List (Notice Condition)}
      (stands : ∀ here ∈ point, here.LooksForWork)
      (found : pool.queue = work :: rest) :
      Move implementation cancels pool (.run worker) point answer
        ⟨incrementWorkerCount implementation
            { pool with queue := rest, handedOut := pool.handedOut ++ [work] },
          notices, .leave (.working worker work)⟩
  | giveUp {worker : Nat} {answer : Bool} {point : Option (ImplPoint Work)}
      (stands : ∀ here ∈ point, here.LooksForWork) :
      Move implementation cancels pool (.run worker) point answer
        ⟨pool, [], .leave (.exiting worker)⟩
  | cancel {worker : Nat} {answer : Bool} {work : Work} (cancelled : cancels work = true) :
      Move implementation cancels pool (.run worker) (some (.working worker work)) answer
        ⟨pool, [], .leave (.exiting worker)⟩
  | worked {worker : Nat} {answer : Bool} {work : Work} (returned : cancels work = false) :
      Move implementation cancels pool (.run worker) (some (.working worker work)) answer
        (decrementWorkerCount implementation worker pool)
  | end_ {worker : Nat} {answer : Bool} :
      Move implementation cancels pool (.run worker) (some (.exiting worker)) answer
        ⟨{ pool with ended := worker :: pool.ended }, [], .finish .ended⟩
  | common {call : ImplCall Work} {inner : Call Work} {point : Option (Point Work)}
      {answer : Bool} {ran : PoolSection Work} (isCommon : call.common = some inner)
      (move : FixedSizePoolImpl.CommonMove pool.toFixedSizePoolImpl inner point answer ran) :
      Move implementation cancels pool call (point.map .common) answer (pool.lift ran)
  | commonThrown {call : ImplCall Work} {inner : Call Work} {point : Option (ImplPoint Work)}
      {answer closed : Bool} (isCommon : call.common = some inner)
      (stands : ∀ here ∈ point, ∃ inner, here = .common inner)
      (kept : pool.queueClosed = true → closed = true) :
      Move implementation cancels pool call point answer
        ⟨{ pool with queueClosed := closed }, [], .finish .thrown⟩

variable {implementation : Implementation} {cancels : Work → Bool} {pool : ThreadPoolImpl Work}
  {call : ImplCall Work} {point : Option (ImplPoint Work)} {answer : Bool}

/-- The clean-up changes neither flag. -/
theorem Cleaned.isClosed {cleaned : ThreadPoolImpl Work} (isCleaned : Cleaned pool cleaned) :
    cleaned.isClosed ↔ pool.isClosed := by
  rcases isCleaned with rfl | ⟨_, rfl⟩
  · exact Iff.rfl
  · exact Iff.rfl

theorem Cleaned.queue {cleaned : ThreadPoolImpl Work} (isCleaned : Cleaned pool cleaned) :
    cleaned.queue = pool.queue := by
  rcases isCleaned with rfl | ⟨_, rfl⟩
  · rfl
  · rfl

theorem Cleaned.handedOut {cleaned : ThreadPoolImpl Work} (isCleaned : Cleaned pool cleaned) :
    cleaned.handedOut = pool.handedOut := by
  rcases isCleaned with rfl | ⟨_, rfl⟩
  · rfl
  · rfl

theorem Cleaned.workingThreads {cleaned : ThreadPoolImpl Work}
    (isCleaned : Cleaned pool cleaned) : cleaned.workingThreads = pool.workingThreads ∧
      cleaned.maxThreads = pool.maxThreads := by
  rcases isCleaned with rfl | ⟨_, rfl⟩
  · exact ⟨rfl, rfl⟩
  · exact ⟨rfl, rfl⟩

theorem Cleaned.queueIsFull {cleaned : ThreadPoolImpl Work} (isCleaned : Cleaned pool cleaned) :
    queueIsFull implementation cleaned ↔ queueIsFull implementation pool := by
  rcases isCleaned with rfl | ⟨_, rfl⟩
  · exact Iff.rfl
  · exact Iff.rfl

theorem addLoop_move (work : Work) (infinite : Bool) (start : Start)
    {cleaned : ThreadPoolImpl Work} (stands : ∀ here ∈ point, here.BeforePush)
    (isCleaned : Cleaned pool cleaned) :
    Move implementation cancels pool (.addWork (some work) infinite start) point answer
      (addLoop implementation work infinite cleaned) := by
  unfold addLoop
  split
  · next blocked => exact .waitFull stands isCleaned (isCleaned.queueIsFull.mp blocked.1)
  · next free =>
      split
      · exact .refuse stands isCleaned (.inl rfl)
      · next opened =>
          have room : ¬ queueIsFull implementation pool := fun full =>
            free ⟨isCleaned.queueIsFull.mpr full, opened⟩
          have opened := mt isCleaned.isClosed.mpr opened
          rw [isCleaned.queue]
          cases implementation with
          | fixedSize => exact .push stands isCleaned room opened (.inl rfl)
          | dynamicSize => exact .push stands isCleaned room opened (.inr ⟨by decide, rfl⟩)
          | dynamicSizeNoQueue => exact .push stands isCleaned room opened (.inr ⟨by decide, rfl⟩)

theorem getWorkFromQueue_move (worker : Nat)
    (stands : ∀ here ∈ point, here.LooksForWork) :
    Move implementation cancels pool (.run worker) point answer
      (getWorkFromQueue implementation worker pool) := by
  unfold getWorkFromQueue
  split
  · exact .sleep stands
  · exact .giveUp stands
  · next work rest found running => exact .take stands found

theorem addTest_move {work : Option Work} {infinite : Bool} (start : Start)
    (dynamic : implementation ≠ .fixedSize) :
    Move implementation cancels pool (.addWork work infinite start) (some .addTest) answer
      (addTest start pool) := by
  unfold addTest
  split
  · next mayGrow =>
      cases start with
      | started => exact .create dynamic mayGrow (.inl ⟨rfl, rfl⟩)
      | threadException => exact .fail dynamic mayGrow
      | threadCancelledException => exact .create dynamic mayGrow (.inr ⟨rfl, rfl⟩)
  · next enough => exact .rely dynamic enough

theorem runRunnable_move (worker : Nat) (work : Work) :
    Move implementation cancels pool (.run worker) (some (.working worker work)) answer
      (runRunnable cancels implementation worker work pool) := by
  unfold runRunnable
  split
  · next cancelled => exact .cancel cancelled
  · next returned => exact .worked (Bool.eq_false_of_not_eq_true returned)

theorem common_isCommon {inner : Call Work} (isCommon : call.common = some inner) :
    FixedSizePoolImpl.IsCommon inner := by
  cases call with
  | addWork | run => cases isCommon
  | waitForEmptyQueue | shutdown =>
      obtain rfl := Option.some.inj isCommon
      exact trivial

/-- Each call starts with one of the moves. -/
theorem enter_move (call : ImplCall Work) :
    Move implementation cancels pool call none true (enter implementation call pool) := by
  cases call with
  | addWork work infinite start =>
      change Move implementation cancels pool _ none true (addWork implementation work infinite pool)
      unfold addWork
      split
      · exact .refuse nofun (.inl rfl) (.inl rfl)
      · exact addLoop_move _ infinite start nofun (.inl rfl)
      · split
        · exact .refuse nofun (.inl rfl) (.inl rfl)
        · next opened => exact addLoop_move _ infinite start nofun (.inr ⟨opened, rfl⟩)
  | waitForEmptyQueue =>
      exact @Move.common _ implementation cancels pool _ _ none true _ rfl
        FixedSizePoolImpl.waitForEmptyQueue_common
  | shutdown finishWorkInQueue infinite =>
      exact @Move.common _ implementation cancels pool _ _ none true _ rfl
        (FixedSizePoolImpl.shutdownThreads_common finishWorkInQueue infinite)
  | run worker => exact getWorkFromQueue_move worker nofun

/-- A thread that continues where it may stand makes one of the moves. -/
theorem resume_move {point : ImplPoint Work}
    (continues : Continues (ImplWaits implementation) (ImplLeaves implementation) call point answer) :
    Move implementation cancels pool call (some point) answer
      (resume implementation cancels call point answer pool) := by
  rcases continues with ⟨leaves, rfl⟩ | ⟨condition, timed, waits, expired⟩
  · cases leaves with
    | add work infinite start behind dynamic =>
        cases point with
        | addNotify => exact .notify dynamic
        | addTest => exact addTest_move start dynamic
        | _ => exact behind.elim
    | working worker work => exact runRunnable_move worker work
    | nextWork worker => exact getWorkFromQueue_move worker (by rintro here ⟨⟩; exact trivial)
    | exiting worker => exact .end_
    | @common _ inner point isCommon leaves =>
        exact @Move.common _ implementation cancels pool _ inner (some point) true _ isCommon
          (FixedSizePoolImpl.resume_common (common_isCommon isCommon) (.inl ⟨leaves, rfl⟩))
  · cases waits with
    | add work infinite start =>
        have stands : ∀ here ∈ some (ImplPoint.addLoop work infinite), here.BeforePush := by
          rintro here ⟨⟩
          exact trivial
        cases answer with
        | true => exact addLoop_move work infinite start stands (.inl rfl)
        | false => exact .refuse stands (.inl rfl) (.inl rfl)
    | work worker =>
        have stands : ∀ here ∈ some (.workLoop worker : ImplPoint Work),
            here.LooksForWork := by
          rintro here ⟨⟩
          exact trivial
        cases answer with
        | true => exact getWorkFromQueue_move worker stands
        | false => exact .giveUp stands
    | @common _ inner point _ _ isCommon waits =>
        exact @Move.common _ implementation cancels pool _ inner (some point) answer _ isCommon
          (FixedSizePoolImpl.resume_common (common_isCommon isCommon)
            (.inr ⟨condition, timed, waits, expired⟩))

theorem decrementWorkerCount_next (worker : Nat) :
    (decrementWorkerCount implementation worker pool).next = .leave (.nextWork worker) := by
  cases implementation <;> rfl

variable {ran : ImplSection Work}

theorem Move.fits (move : Move implementation cancels pool call point answer ran) :
    (ran.next.phase call).Fits (ImplWaits implementation) (ImplLeaves implementation) := by
  cases move with
  | refuse | create | fail | rely | end_ | commonThrown => exact trivial
  | waitFull => exact .add _ _ _
  | push stands isCleaned room opened goes =>
      rcases goes with rfl | ⟨dynamic, rfl⟩
      · exact trivial
      · exact .add _ _ _ trivial dynamic
  | notify dynamic => exact .add _ _ _ trivial dynamic
  | sleep => exact .work _
  | take => exact .working _ _
  | giveUp | cancel => exact .exiting _
  | worked =>
      rw [decrementWorkerCount_next]
      exact .nextWork _
  | @common _ inner _ _ inside isCommon move =>
      have fits := move.fits
      unfold lift
      cases goes : inside.next with
      | finish result => exact trivial
      | wait condition timed point =>
          rw [goes] at fits
          exact .common isCommon fits
      | leave point =>
          rw [goes] at fits
          exact .common isCommon fits

theorem cancelled_of_common {inner : Call Work} {here : ImplPoint Work}
    (isCommon : call.common = some inner) : cancelled call here = .finish .thrown := by
  cases call with
  | addWork | run => cases isCommon
  | waitForEmptyQueue | shutdown => rfl

/-- A section that would wait makes another move when the wait throws. -/
theorem Move.entering (move : Move implementation cancels pool call point answer ran)
    {condition : Condition} {timed : Bool} {here : ImplPoint Work}
    (waits : ran.next = .wait condition timed here) :
    Move implementation cancels pool call point answer
      ⟨ran.shared, ran.notices, cancelled call here⟩ := by
  cases move with
  | refuse | notify | create | fail | rely | take | giveUp | cancel | end_ | commonThrown =>
      cases waits
  | waitFull stands isCleaned => exact .refuse stands isCleaned (.inr rfl)
  | push stands isCleaned room opened goes =>
      rcases goes with rfl | ⟨_, rfl⟩ <;> cases waits
  | sleep stands => exact .giveUp stands
  | worked =>
      rw [decrementWorkerCount_next] at waits
      cases waits
  | @common _ inner point _ inside isCommon move =>
      rw [cancelled_of_common isCommon]
      cases move with
      | waitEmpty sleeps some_ kept =>
          refine .commonThrown isCommon ?_ kept
          rintro here standing
          obtain ⟨inner, _, rfl⟩ := Option.mem_map.mp standing
          exact ⟨inner, rfl⟩
      | empty | already | stop | wakeWorkers | wakeAdders | joinThreads => cases waits

/-- The moves list what the sections do, whether or not a wait throws. -/
theorem lists : Lists (program implementation cancels) cancelled (ImplWaits implementation)
    (ImplLeaves implementation) (Move implementation cancels) where
  enter call pool := enter_move call
  resume call point answer pool continues := resume_move continues
  entering pool call point answer ran condition timed here move waits := move.entering waits
  leaving pool call point condition timed waits := by
    cases waits with
    | add work infinite start =>
        refine .refuse ?_ (.inl rfl) (.inr rfl)
        rintro here ⟨⟩
        exact trivial
    | work worker =>
        refine .giveUp ?_
        rintro here ⟨⟩
        exact trivial
    | common isCommon waits =>
        rw [cancelled_of_common isCommon]
        refine @Move.commonThrown _ implementation cancels pool call _ _ _ pool.queueClosed isCommon
          ?_ id
        rintro here ⟨⟩
        exact ⟨_, rfl⟩
  fits pool call point answer ran move := move.fits

end ThreadPoolImpl

end Blocxx.ThreadPool
