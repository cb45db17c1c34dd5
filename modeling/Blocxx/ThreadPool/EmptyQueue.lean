import Blocxx.ThreadPool.Invariant

/-!
This file proves that a pool of any kind lets its callers of `waitForEmptyQueue` go once it is
shut down with an empty queue.
-/

namespace Blocxx.ThreadPool
open Library Library.Monitor

variable {Thread Shared Calls Results Points Work : Type}

/-- What the pools have in common: the members of `CommonPoolImpl`, the calls of `shutdown` and
`waitForEmptyQueue`, and the points behind the end of `finishOffWorkInQueue`. -/
structure PoolView (Shared Calls Points Work : Type) where
  common : Shared → FixedSizePoolImpl Work
  shutdown (finishWorkInQueue infinite : Bool) : Calls
  waitForEmptyQueue : Calls
  behindStop : Points → Prop

namespace PoolView

variable (view : PoolView Shared Calls Points Work)

/-- Every section that empties the queue tells it, nobody starts to wait for an empty queue that is
empty, and a closed queue stays closed and empty. -/
structure Handles (before after : FixedSizePoolImpl Work) (notices : List (Notice Condition))
    (sleeps : Prop) : Prop where
  emptied : before.queue ≠ [] → after.queue = [] → .all .queueEmpty ∈ notices
  waits : sleeps → after.queue ≠ []
  closed : before.isClosed → after.isClosed ∧ (before.queue = [] → after.queue = [])
  stopped : before.shutdown = true → after.shutdown = true
  stops : before.shutdown = false → after.shutdown = true → after.queue = before.queue

section Handles

variable {pool : FixedSizePoolImpl Work} {notices : List (Notice Condition)} {sleeps : Prop}

theorem Handles.same (awake : ¬ sleeps) : Handles pool pool notices sleeps where
  emptied some_ empty := absurd empty some_
  waits asleep := absurd asleep awake
  closed closed := ⟨closed, id⟩
  stopped := id
  stops _ _ := rfl

theorem Handles.push {work : Work} (opened : ¬ pool.isClosed) (awake : ¬ sleeps) :
    Handles pool { pool with queue := pool.queue ++ [work] } notices sleeps where
  emptied _ empty := absurd (show pool.queue ++ [work] = [] from empty) (by simp)
  waits asleep := absurd asleep awake
  closed closed := absurd closed opened
  stopped := id
  stops on off := by cases on.symm.trans off

/-- The worker that takes the last work tells that the queue is empty. -/
theorem Handles.take {work : Work} {rest : List Work} (found : pool.queue = work :: rest)
    (awake : ¬ sleeps) :
    Handles pool { pool with queue := rest }
      (notices ++ (if rest.length = 0 then [.all .queueEmpty] else [])) sleeps where
  emptied _ empty := by
    have none_ : rest.length = 0 := congrArg List.length (show rest = [] from empty)
    refine List.mem_append_right _ ?_
    rw [if_pos none_]
    exact List.mem_singleton_self _
  waits asleep := absurd asleep awake
  closed closed := ⟨closed, fun empty => by cases found.symm.trans empty⟩
  stopped := id
  stops on off := by cases on.symm.trans off

end Handles

/-- What a section of a pool does, from the point of its thread and the answer of its wait. A
section that stops the pool does so because its call discards the queue, its wait has expired, or
the queue is empty. -/
structure Safe (before : Shared) (call : Calls) (point : Option Points) (answer : Bool)
    (ran : Section Shared Results Points Condition) : Prop where
  handles : Handles (view.common before) (view.common ran.shared) ran.notices
    ((ran.next.phase call).asleepOn .queueEmpty)
  enters : (∀ here, point = some here → view.behindStop here →
      (view.common before).shutdown = true) →
    ∀ inner here, ran.next.position call = some (inner, here) → view.behindStop here →
      (view.common ran.shared).shutdown = true
  decides : (view.common before).shutdown = false → (view.common ran.shared).shutdown = true →
    (view.common before).queue = [] ∨ ∃ finishWorkInQueue infinite,
      call = view.shutdown finishWorkInQueue infinite ∧
        (point = none ∧ finishWorkInQueue = false ∨ answer = false)
  returns : ∀ finishWorkInQueue infinite, call = view.shutdown finishWorkInQueue infinite →
    ran.next.position call = none → (point = none ∧ (view.common before).isClosed) ∨
      ∃ here, point = some here ∧ view.behindStop here

/-- Some call of `shutdown` has returned. -/
def ShutDown (state : State Thread Shared Calls Results Points Condition) : Prop :=
  ∃ done ∈ state.finished, ∃ finishWorkInQueue infinite,
    done.call = view.shutdown finishWorkInQueue infinite

/-- This is the invariant of a pool that is only shut down with an empty queue. -/
structure Settled (state : State Thread Shared Calls Results Points Condition) : Prop where
  awake : (view.common state.shared).queue = [] →
    ∀ thread, ¬ (state.phase thread).asleepOn .queueEmpty
  discarded : (view.common state.shared).shutdown = true → (view.common state.shared).queue = []
  standing : ∀ thread call here, state.position thread = some (call, here) →
    view.behindStop here → (view.common state.shared).shutdown = true
  returned : view.ShutDown state →
    (view.common state.shared).isClosed ∧ (view.common state.shared).queue = []

/-- The queue is empty when a call discards it, when a call finds it closed already while another
one still waits, and when the wait of a call has expired. -/
structure EmptiesFirst (state : State Thread Shared Calls Results Points Condition)
    (label : Label Thread Calls) : Prop where
  enters : ∀ thread finishWorkInQueue infinite,
    label = .enter thread (view.shutdown finishWorkInQueue infinite) →
      (view.common state.shared).shutdown = false →
        finishWorkInQueue = false ∨ (view.common state.shared).queueClosed = true →
          (view.common state.shared).queue = []
  expires : ∀ thread finishWorkInQueue infinite point condition, label = .resume thread →
    state.phase thread = .woken (view.shutdown finishWorkInQueue infinite) point condition
      .expired → (view.common state.shared).queue = []

variable {view} {state next : State Thread Shared Calls Results Points Condition}
  {label : Label Thread Calls} {thread : Thread} {call : Calls} {point : Option Points}
  {answer : Bool}
  {ran : Section Shared Results Points Condition}
  {phase : Thread → Phase Calls Points Condition}

/-- Under the condition a section finds the queue empty when it stops the pool. -/
theorem Safe.stops_empty (safe : view.Safe state.shared call point answer ran)
    (begins : Begins state label thread call point answer)
    (empties : view.EmptiesFirst state label)
    (running : (view.common state.shared).shutdown = false)
    (stopped : (view.common ran.shared).shutdown = true) :
    (view.common state.shared).queue = [] := by
  rcases safe.decides running stopped with empty | ⟨finishWorkInQueue, infinite, rfl, why⟩
  · exact empty
  · rcases why with ⟨atStart, discards⟩ | late
    · exact empties.enters _ _ _ (begins.entered atStart) running (.inl discards)
    · obtain ⟨resumes, here, condition, expired⟩ := begins.expired late
      exact empties.expires _ _ _ here condition resumes expired

variable [DecidableEq Thread]

theorem Settled.turn (settled : view.Settled state)
    (begins : Begins state label thread call point answer)
    (safe : view.Safe state.shared call point answer ran)
    (empties : view.EmptiesFirst state label)
    (delivered : Delivered ran.notices state.phase phase) :
    view.Settled (state.ran thread call ran phase) := by
  have stopped {here : Points} (atPoint : point = some here) (behind : view.behindStop here) :
      (view.common state.shared).shutdown = true := by
    refine settled.standing thread call here ?_ behind
    rw [begins.stands, atPoint]
    rfl
  have keeps (closed : (view.common state.shared).isClosed)
      (empty : (view.common state.shared).queue = []) :
      (view.common ran.shared).isClosed ∧ (view.common ran.shared).queue = [] :=
    ⟨(safe.handles.closed closed).1, (safe.handles.closed closed).2 empty⟩
  exact {
    awake := by
      intro empty
      refine State.ran_awake delivered ?_ fun sleeps => safe.handles.waits sleeps empty
      by_cases before : (view.common state.shared).queue = []
      · exact .inl (settled.awake before)
      · exact .inr (safe.handles.emptied before empty)
    discarded := by
      intro stopped
      by_cases before : (view.common state.shared).shutdown = true
      · exact (keeps (.inl before) (settled.discarded before)).2
      · -- This section stops the pool, and it leaves the queue as it found it.
        have running := Bool.eq_false_of_not_eq_true before
        have empty := safe.stops_empty begins empties running stopped
        exact (safe.handles.stops running stopped).trans empty
    standing := by
      intro other outer here inside behind
      rw [State.ran_position delivered] at inside
      by_cases own : other = thread
      · subst own
        rw [Function.update_self] at inside
        exact safe.enters (fun _ => stopped) outer here inside behind
      · rw [Function.update_of_ne own] at inside
        exact safe.handles.stopped (settled.standing other outer here inside behind)
    returned := by
      rintro ⟨done, member, finishWorkInQueue, infinite, isShutdown⟩
      rcases List.mem_append.mp member with old | new
      · obtain ⟨closed, empty⟩ := settled.returned ⟨done, old, _, _, isShutdown⟩
        exact keeps closed empty
      · have own : done.call = call ∧ ran.next.position call = none := by
          cases goes : ran.next with
          | finish result =>
              rw [goes, Next.finished, List.mem_singleton] at new
              subst new
              exact ⟨rfl, rfl⟩
          | wait | leave =>
              rw [goes] at new
              cases new
        rw [own.1] at isShutdown
        -- A call returns at once when the queue is closed already, or behind its own stop.
        rcases safe.returns _ _ isShutdown own.2 with ⟨atStart, closed⟩ | ⟨here, atPoint, behind⟩
        · refine keeps closed ?_
          by_cases stopped : (view.common state.shared).shutdown = true
          · exact settled.discarded stopped
          · have label_ := begins.entered atStart
            rw [isShutdown] at label_
            exact empties.enters _ _ _ label_ (Bool.eq_false_of_not_eq_true stopped)
              (.inr (closed.resolve_left stopped))
        · have isStopped := stopped atPoint behind
          exact keeps (.inl isStopped) (settled.discarded isStopped) }

theorem Settled.wake (settled : view.Settled state) {inner : Points} {condition : Condition}
    {timed : Bool} (asleep : state.phase thread = .asleep call inner condition timed)
    (wake : Wake) : view.Settled (state.wake thread (.woken call inner condition wake)) := by
  have positions : (state.wake thread (.woken call inner condition wake)).position =
      state.position := State.wake_position (by rw [asleep]; rfl)
  exact {
    awake := fun empty other sleeps => settled.awake empty other (State.wake_asleepOn sleeps)
    discarded := settled.discarded
    standing := by
      rw [positions]
      exact settled.standing
    returned := settled.returned }

theorem Settled.step {program : Program Shared Calls Results Points Condition}
    (settled : view.Settled state)
    (turns : ∀ thread call ran, Turn program state label thread call ran →
      ∃ point answer, Begins state label thread call point answer ∧
        view.Safe state.shared call point answer ran)
    (empties : view.EmptiesFirst state label) (step : Step program state label next) :
    view.Settled next := by
  cases step with
  | @run label thread call ran phase turn delivered =>
      obtain ⟨point, answer, begins, safe⟩ := turns thread call ran turn
      exact settled.turn begins safe empties delivered
  | rouse asleep => exact settled.wake asleep .spurious
  | expire asleep => exact settled.wake asleep .expired

/-- No caller of `waitForEmptyQueue` is asleep, and no later call starts to sleep. -/
structure NeverHangs (view : PoolView Shared Calls Points Work)
    (program : Program Shared Calls Results Points Condition)
    (state : State Thread Shared Calls Results Points Condition) : Prop where
  asleep : ∀ thread point condition timed,
    state.phase thread ≠ .asleep view.waitForEmptyQueue point condition timed
  later : ∀ condition timed point,
    (program.enter view.waitForEmptyQueue state.shared).next ≠ .wait condition timed point

omit [DecidableEq Thread] in
/-- After a shutdown of a settled pool nobody hangs, since the queue is empty and the callers of
`waitForEmptyQueue` sleep on `m_queueEmpty` only. -/
theorem Settled.neverHangs {program : Program Shared Calls Results Points Condition}
    (settled : view.Settled state) (shutDown : view.ShutDown state)
    (sleeps : ∀ thread point condition timed,
      state.phase thread = .asleep view.waitForEmptyQueue point condition timed →
        condition = .queueEmpty)
    (returns : (view.common state.shared).queue = [] →
      ∃ result, (program.enter view.waitForEmptyQueue state.shared).next = .finish result) :
    view.NeverHangs program state := by
  have empty := (settled.returned shutDown).2
  constructor
  · intro thread point condition timed asleep
    apply settled.awake empty thread
    rw [asleep, sleeps thread point condition timed asleep]
    exact rfl
  · intro condition timed point
    obtain ⟨result, ends⟩ := returns empty
    rw [ends]
    exact nofun

end PoolView

/-! The functions that all pools have in common are those of the fixed pool. -/

namespace FixedSizePoolImpl

/-- The calls of `waitForEmptyQueue` and of `shutdown`. -/
def IsCommon : Call Work → Prop
  | .waitForEmptyQueue | .shutdown _ _ => True
  | _ => False

/-- This relation lists what a section of these calls can do. The Boolean is the answer of the
wait. -/
inductive CommonMove (pool : FixedSizePoolImpl Work) :
    Call Work → Option (Point Work) → Bool → PoolSection Work → Prop
  | waitEmpty {call : Call Work} {point : Option (Point Work)} {answer : Bool} {loop : Point Work}
      {timed : Bool} (waits : Waits call loop .queueEmpty timed) (some_ : pool.queue ≠ [])
      {closed : Bool} (kept : pool.queueClosed = true → closed = true) :
      CommonMove pool call point answer
        ⟨{ pool with queueClosed := closed }, [], .wait .queueEmpty timed loop⟩
  | empty {point : Option (Point Work)} {answer : Bool} :
      CommonMove pool .waitForEmptyQueue point answer ⟨pool, [], .finish .returned⟩
  | already {finishWorkInQueue infinite answer : Bool} (closed : pool.isClosed) :
      CommonMove pool (.shutdown finishWorkInQueue infinite) none answer
        ⟨pool, [], .finish .returned⟩
  | stop {point : Option (Point Work)} {finishWorkInQueue infinite answer closed : Bool}
      (kept : pool.queueClosed = true → closed = true)
      (why : pool.queue = [] ∨ point = none ∧ finishWorkInQueue = false ∨ answer = false) :
      CommonMove pool (.shutdown finishWorkInQueue infinite) point answer
        ⟨{ pool with queueClosed := closed, shutdown := true }, [], .leave .wakeWorkers⟩
  | wakeWorkers {finishWorkInQueue infinite answer : Bool} :
      CommonMove pool (.shutdown finishWorkInQueue infinite) (some .wakeWorkers) answer
        ⟨pool, [.all .queueNotEmpty], .leave .wakeAdders⟩
  | wakeAdders {finishWorkInQueue infinite answer : Bool} :
      CommonMove pool (.shutdown finishWorkInQueue infinite) (some .wakeAdders) answer
        ⟨pool, [.all .queueNotFull], .leave .joinThreads⟩
  | joinThreads {finishWorkInQueue infinite answer : Bool} :
      CommonMove pool (.shutdown finishWorkInQueue infinite) (some .joinThreads) answer
        ⟨pool, [], .finish .returned⟩

variable {pool : FixedSizePoolImpl Work} {point : Option (Point Work)} {answer : Bool}

theorem waitForEmptyQueue_common :
    CommonMove pool .waitForEmptyQueue point answer pool.waitForEmptyQueue := by
  unfold waitForEmptyQueue
  split
  · next some_ => exact .waitEmpty .empty (List.length_pos_iff.mp (Nat.pos_of_ne_zero some_)) id
  · exact .empty

/-- A call that finds the queue empty returns at once. -/
theorem waitForEmptyQueue_of_empty (empty : pool.queue = []) :
    pool.waitForEmptyQueue = finish pool .returned := by
  unfold waitForEmptyQueue
  rw [empty]
  exact if_neg (by simp)

theorem finishLoop_common (infinite : Bool) {closed : Bool}
    (kept : pool.queueClosed = true → closed = true) :
    CommonMove pool (.shutdown true infinite) point answer
      (finishLoop infinite { pool with queueClosed := closed }) := by
  unfold finishLoop
  split
  · next count =>
      have some_ : pool.queue ≠ [] := List.length_pos_iff.mp (Nat.pos_of_ne_zero count)
      exact .waitEmpty (.finish infinite) some_ kept
  · next count =>
      exact .stop kept (.inl (List.length_eq_zero_iff.mp (not_not.mp count)))

theorem shutdownThreads_common (finishWorkInQueue infinite : Bool) :
    CommonMove pool (.shutdown finishWorkInQueue infinite) none answer
      (pool.shutdownThreads finishWorkInQueue infinite) := by
  unfold shutdownThreads
  split
  · next closed => exact .already closed
  · dsimp only
    split
    · next finishing =>
        rw [finishing]
        exact finishLoop_common infinite fun _ => rfl
    · next discarding =>
        exact .stop (fun _ => rfl) (.inr (.inl ⟨rfl, Bool.eq_false_of_not_eq_true discarding⟩))

/-- A section of a common call makes one of the moves, also when the call is not known. -/
theorem resume_common {call other : Call Work} {point : Point Work}
    (isCommon : IsCommon call) (continues : Continues Waits Leaves call point answer) :
    CommonMove pool call (some point) answer (resume other point answer pool) := by
  rcases continues with ⟨leaves, rfl⟩ | ⟨condition, timed, waits, expired⟩
  · cases leaves with
    | wakeWorkers finishWorkInQueue infinite => exact .wakeWorkers
    | wakeAdders finishWorkInQueue infinite => exact .wakeAdders
    | joinThreads finishWorkInQueue infinite => exact .joinThreads
  · cases waits with
    | add work infinite => exact isCommon.elim
    | work waitForWork => exact isCommon.elim
    | empty => exact waitForEmptyQueue_common
    | finish infinite =>
        cases answer with
        | true => exact finishLoop_common infinite id
        | false => exact .stop id (.inr (.inr rfl))

/-- The points behind the end of `finishOffWorkInQueue`. -/
def BehindStop : Point Work → Prop
  | .wakeWorkers | .wakeAdders | .joinThreads => True
  | _ => False

variable {call : Call Work} {ran : PoolSection Work}

theorem CommonMove.fits (move : CommonMove pool call point answer ran) :
    (ran.next.phase call).Fits Waits Leaves := by
  cases move with
  | waitEmpty waits some_ kept => exact waits
  | empty | already | joinThreads => exact trivial
  | stop kept why => exact .wakeWorkers _ _
  | wakeWorkers => exact .wakeAdders _ _
  | wakeAdders => exact .joinThreads _ _

/-- A common function changes only the flags. -/
theorem CommonMove.queue (move : CommonMove pool call point answer ran) :
    ran.shared.queue = pool.queue := by
  cases move <;> rfl

theorem CommonMove.handles (move : CommonMove pool call point answer ran) :
    PoolView.Handles pool ran.shared ran.notices ((ran.next.phase call).asleepOn .queueEmpty) := by
  cases move with
  | waitEmpty waits some_ kept =>
      exact {
        emptied := fun _ empty => absurd empty some_
        waits := fun _ => some_
        closed := fun closed => ⟨closed.imp id kept, id⟩
        stopped := id
        stops := fun _ _ => rfl }
  | empty | already closed | wakeWorkers | wakeAdders | joinThreads => exact .same id
  | stop kept why =>
      exact {
        emptied := fun some_ empty => absurd empty some_
        waits := False.elim
        closed := fun _ => ⟨.inl rfl, id⟩
        stopped := fun _ => rfl
        stops := fun _ _ => rfl }

/-- A shutdown goes behind its stop when it has set the flag or was there before. -/
theorem CommonMove.enters (move : CommonMove pool call point answer ran) {inner : Call Work}
    {here : Point Work} (inside : ran.next.position call = some (inner, here))
    (behind : BehindStop here) (before : ∀ here, point = some here → BehindStop here →
      pool.shutdown = true) : ran.shared.shutdown = true := by
  cases move with
  | waitEmpty waits some_ kept =>
      obtain ⟨rfl, rfl⟩ := Prod.mk.inj (Option.some.inj inside)
      cases waits <;> exact behind.elim
  | empty | already closed | joinThreads => cases inside
  | stop kept why => rfl
  | wakeWorkers => exact before _ rfl trivial
  | wakeAdders => exact before _ rfl trivial

theorem CommonMove.decides (move : CommonMove pool call point answer ran)
    (running : pool.shutdown = false) (stopped : ran.shared.shutdown = true) :
    pool.queue = [] ∨ ∃ finishWorkInQueue infinite,
      call = .shutdown finishWorkInQueue infinite ∧
        (point = none ∧ finishWorkInQueue = false ∨ answer = false) := by
  cases move with
  | waitEmpty | empty | already | wakeWorkers | wakeAdders | joinThreads =>
      cases running.symm.trans stopped
  | stop kept why => exact why.imp id fun why => ⟨_, _, rfl, why⟩

theorem CommonMove.returns (move : CommonMove pool call point answer ran)
    {finishWorkInQueue infinite : Bool} (isShutdown : call = .shutdown finishWorkInQueue infinite)
    (ends : ran.next.position call = none) :
    (point = none ∧ pool.isClosed) ∨ ∃ here, point = some here ∧ BehindStop here := by
  cases move with
  | waitEmpty | stop | wakeWorkers | wakeAdders => cases ends
  | empty => cases isShutdown
  | already closed => exact .inl ⟨rfl, closed⟩
  | joinThreads => exact .inr ⟨_, rfl, trivial⟩

end FixedSizePoolImpl

end Blocxx.ThreadPool
