import Blocxx.Library.Replay
import Blocxx.ThreadPool.DynamicInvariant

/-!
This file proves for the fixed and for the dynamic pools that no caller of `waitForEmptyQueue`
hangs past a shutdown that finds the queue empty.
-/

namespace Blocxx.ThreadPool
open Library Library.Monitor

variable {Thread Client Work : Type}

namespace FixedSizePoolImpl

/-- The fixed pool has the members and the calls of `CommonPoolImpl`. -/
def view : PoolView (FixedSizePoolImpl Work) (Call Work) (Point Work) Work where
  common := id
  shutdown := .shutdown
  waitForEmptyQueue := .waitForEmptyQueue
  behindStop := BehindStop

variable {pool : FixedSizePoolImpl Work} {call : Call Work} {point : Option (Point Work)}
  {answer : Bool} {ran : PoolSection Work}

theorem CommonMove.safe (move : CommonMove pool call point answer ran) :
    view.Safe pool call point answer ran where
  handles := move.handles
  enters before _ _ inside behind := move.enters inside behind before
  decides := move.decides
  returns _ _ isShutdown ends := move.returns isShutdown ends

/-- The sections of `addWork` and `getWorkFromQueue` tell an empty queue and never stop the pool. -/
theorem Move.safe (move : Move pool call point ran) (other : ¬ IsCommon call) :
    view.Safe pool call point answer ran := by
  have outside {finishWorkInQueue infinite : Bool} :
      call ≠ .shutdown finishWorkInQueue infinite := by
    rintro rfl
    exact other trivial
  have running : ran.shared.shutdown = pool.shutdown := by
    cases move with
    | stop => exact (outside rfl).elim
    | refuse | waitFull | waitWork | waitEmpty | add | take | wakeWorkers | wakeAdders => rfl
  refine {
    handles := ?_
    enters := ?_
    decides := fun on off => by cases on.symm.trans (running.symm.trans off)
    returns := fun _ _ isShutdown => absurd isShutdown outside }
  · cases move with
    | refuse => exact .same id
    | waitFull | waitWork => exact .same nofun
    | waitEmpty stands waits kept => cases waits <;> exact (other trivial).elim
    | add stands room opened => exact .push opened id
    | take stands found on => exact .take found id
    | stop | wakeWorkers | wakeAdders => exact (outside rfl).elim
  · intro _ inner here inside behind
    cases move with
    | refuse | add | take => cases inside
    | waitFull | waitWork =>
        obtain ⟨rfl, rfl⟩ := Prod.mk.inj (Option.some.inj inside)
        exact behind.elim
    | waitEmpty stands waits kept => cases waits <;> exact (other trivial).elim
    | stop | wakeWorkers | wakeAdders => exact (outside rfl).elim

theorem turn_safe {state : PoolState Thread Work} {label : Label Thread (Call Work)}
    {thread : Thread} (fits : ∀ thread, (state.phase thread).Fits Waits Leaves)
    (turn : Turn program state label thread call ran) :
    ∃ point answer, Begins state label thread call point answer ∧
      view.Safe state.shared call point answer ran := by
  rcases turn.begins fits with ⟨begins, rfl⟩ | ⟨point, answer, begins, continues, rfl⟩
  · refine ⟨none, true, begins, ?_⟩
    cases call with
    | addWork | getWorkFromQueue => exact (enter_move _).safe id
    | waitForEmptyQueue => exact waitForEmptyQueue_common.safe
    | shutdown finishWorkInQueue infinite => exact (shutdownThreads_common _ _).safe
  · refine ⟨some point, answer, begins, ?_⟩
    by_cases isCommon : IsCommon call
    · exact (@resume_common _ _ _ _ call _ isCommon continues).safe
    · exact (resume_move continues).safe isCommon

/-- The invariant of the fixed pool along a run. -/
theorem settled_step [DecidableEq Thread] {maxQueueSize : Nat} (state : PoolState Thread Work)
    (label : Label Thread (Call Work)) (next : PoolState Thread Work)
    (before : view.Settled state ∧ ∀ thread, (state.phase thread).Fits Waits Leaves)
    (step : (system maxQueueSize).step state label next)
    (empties : view.EmptiesFirst state label) :
    view.Settled next ∧ ∀ thread, (next.phase thread).Fits Waits Leaves :=
  ⟨before.1.step (fun _ _ _ => turn_safe before.2) empties step, step.fits program_keeps before.2⟩

end FixedSizePoolImpl

namespace DynamicSizePoolImpl
open FixedSizePoolImpl (CommonMove)

/-- The dynamic pools have the members and the calls of `CommonPoolImpl`. -/
def view : PoolView (DynamicSizePoolImpl Work) (DynamicCall Work) (DynamicPoint Work) Work where
  common := toFixedSizePoolImpl
  shutdown := .shutdown
  waitForEmptyQueue := .waitForEmptyQueue
  behindStop
    | .common point => FixedSizePoolImpl.BehindStop point
    | _ => False

variable {pool : DynamicSizePoolImpl Work} {call : DynamicCall Work}
  {point : Option (DynamicPoint Work)} {answer : Bool} {ran : DynamicSection Work}

theorem common_shutdown {inner : Call Work} (isCommon : call.common = some inner)
    {finishWorkInQueue infinite : Bool} :
    inner = .shutdown finishWorkInQueue infinite ↔
      call = .shutdown finishWorkInQueue infinite := by
  cases call with
  | addWork | run => cases isCommon
  | waitForEmptyQueue | shutdown =>
      obtain rfl := Option.some.inj isCommon
      simp

/-- A common section does for a dynamic pool what it does for the fixed one. -/
theorem lift_safe {inner : Call Work} {point : Option (Point Work)} {inside : PoolSection Work}
    (isCommon : call.common = some inner)
    (move : CommonMove pool.toFixedSizePoolImpl inner point answer inside) :
    view.Safe pool call (point.map .common) answer (pool.lift inside) where
  handles := by
    have handles := move.handles
    unfold lift
    cases goes : inside.next <;> rw [goes] at handles <;> exact handles
  enters before outer here := by
    have enters {here : Point Work} (position : inside.next.position inner = some (inner, here))
        (behind : FixedSizePoolImpl.BehindStop here) : inside.shared.shutdown = true := by
      refine move.enters position behind fun here atPoint behind => before (.common here) ?_ behind
      rw [atPoint]
      rfl
    unfold lift
    cases goes : inside.next with
    | finish result => exact nofun
    | wait condition timed point =>
        rw [goes] at enters
        rintro position behind
        obtain ⟨rfl, rfl⟩ := Prod.mk.inj (Option.some.inj position)
        exact enters rfl behind
    | leave point =>
        rw [goes] at enters
        rintro position behind
        obtain ⟨rfl, rfl⟩ := Prod.mk.inj (Option.some.inj position)
        exact enters rfl behind
  decides running stopped := by
    rcases move.decides running stopped with empty | ⟨finishWorkInQueue, infinite, isCall, why⟩
    · exact .inl empty
    · refine .inr ⟨finishWorkInQueue, infinite, (common_shutdown isCommon).mp isCall, ?_⟩
      exact why.imp (fun atStart => ⟨by rw [atStart.1]; rfl, atStart.2⟩) id
  returns finishWorkInQueue infinite isCall ends := by
    have over_ : inside.next.position inner = none := by
      unfold lift at ends
      cases goes : inside.next with
      | finish result => rfl
      | wait | leave =>
          rw [goes] at ends
          cases ends
    rcases move.returns ((common_shutdown isCommon).mpr isCall) over_ with
      ⟨atStart, closed⟩ | ⟨here, atPoint, behind⟩
    · exact .inl ⟨by rw [atStart]; rfl, closed⟩
    · exact .inr ⟨.common here, by rw [atPoint]; rfl, behind⟩

/-- The sections of `addWork` and of the workers tell an empty queue and never stop the pool. -/
theorem DynamicMove.safe (move : DynamicMove pool call point answer ran) :
    view.Safe pool call point answer ran := by
  -- Outside the common functions no section stops the pool or stands behind its stop.
  have other (handles : PoolView.Handles pool.toFixedSizePoolImpl ran.shared.toFixedSizePoolImpl
        ran.notices ((ran.next.phase call).asleepOn Condition.queueEmpty))
      (stays : ∀ inner here, ran.next.position call = some (inner, .common here) → False)
      (running : ran.shared.shutdown = pool.shutdown)
      (outside : ∀ finishWorkInQueue infinite, call ≠ .shutdown finishWorkInQueue infinite) :
      view.Safe pool call point answer ran := {
    handles := handles
    enters := by
      rintro - inner here inside behind
      cases here with
      | common here => exact (stays inner here inside).elim
      | addLoop | addNotify | addTest | workLoop | working | nextWork | exiting =>
          exact behind.elim
    decides := fun on off => by cases on.symm.trans (running.symm.trans off)
    returns := fun _ _ isShutdown => absurd isShutdown (outside _ _) }
  cases move with
  | refuse | create | rely | end_ => exact other (.same id) nofun rfl nofun
  | waitFull | sleep => exact other (.same nofun) nofun rfl nofun
  | push opened => exact other (.push opened id) nofun rfl nofun
  | notify | giveUp | worked => exact other (.same id) nofun rfl nofun
  | take found on stands => exact other (.take found id) nofun rfl nofun
  | common isCommon move => exact lift_safe isCommon move

theorem settled_step [DecidableEq Client] {poolType : PoolType} {maxThreads maxQueueSize : Nat}
    (state : DynamicState Client Work) (label : Label (Client ⊕ Nat) (DynamicCall Work))
    (next : DynamicState Client Work) (before : view.Settled state ∧ AllFit state)
    (step : (dynamicSystem poolType maxThreads maxQueueSize).step state label next)
    (empties : view.EmptiesFirst state label) : view.Settled next ∧ AllFit next := by
  refine ⟨before.1.step (fun _ _ _ turn => ?_) empties step.1, step.1.fits program_keeps before.2⟩
  obtain ⟨point, answer, begins, move⟩ := dynamicTurn_move before.2 turn
  exact ⟨point, answer, begins, move.safe⟩

end DynamicSizePoolImpl

variable {Shared Calls Results Points : Type}

/-- In every run whose steps empty the queue first, nobody hangs after a shutdown has returned. -/
def LetsGo (view : PoolView Shared Calls Points Work)
    (program : Program Shared Calls Results Points Condition)
    (system : TransitionSystem (State Thread Shared Calls Results Points Condition)
      (Label Thread Calls)) : Prop :=
  ∀ start steps, system.initial start → system.Run start steps →
    (∀ step ∈ steps, view.EmptiesFirst step.source step.label) →
      ∀ step ∈ steps, view.ShutDown step.target → view.NeverHangs program step.target

/-- The labels of a shutdown that one thread makes alone. -/
def shutdownAlone {Calls : Type} (thread : Thread) (call : Calls) : List (Label Thread Calls) :=
  [.enter thread call, .resume thread, .resume thread, .resume thread]

def fixedRun : List (TransitionSystem.Transition (PoolState Nat Nat) (Label Nat (Call Nat))) :=
  FixedSizePoolImpl.program.replay [0] ⟨.new 0, fun _ => .idle, []⟩
    (shutdownAlone 0 (.shutdown false true))

def dynamicRun : List (TransitionSystem.Transition (DynamicState Unit Nat)
    (Label (Unit ⊕ Nat) (DynamicCall Nat))) :=
  DynamicSizePoolImpl.program.replay [.inl ()] ⟨.new .DYNAMIC_SIZE 1 0, fun _ => .idle, []⟩
    (shutdownAlone (.inl ()) (.shutdown false true))

/-- One client adds two pieces of work, the only worker takes the first one, another client waits
for the empty queue, and a third one shuts the pool down and discards the second piece. -/
def discardingRun :
    List (TransitionSystem.Transition (PoolState Nat Nat) (Label Nat (Call Nat))) :=
  FixedSizePoolImpl.program.replay [0, 1, 2, 3] ⟨.new 0, fun _ => .idle, []⟩
    [.enter 0 (.addWork (some 4) true), .enter 3 (.getWorkFromQueue true),
      .enter 0 (.addWork (some 5) true), .enter 1 .waitForEmptyQueue,
      .enter 2 (.shutdown false true), .resume 2, .resume 2, .enter 3 (.getWorkFromQueue true),
      .resume 2]

def discarded : PoolState Nat Nat := (discardingRun.getLast (by decide)).target

end Blocxx.ThreadPool
