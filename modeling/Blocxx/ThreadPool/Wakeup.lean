import Blocxx.ThreadPool.Order

/-!
This file proves that the pool loses no wakeup.
-/

namespace Blocxx.ThreadPool
open Library Library.Monitor FixedSizePoolImpl

variable {Thread Work : Type}

namespace FixedSizePoolImpl

variable {pool : FixedSizePoolImpl Work} {call : Call Work} {point : Option (Point Work)}
  {ran : PoolSection Work}

/-- A move that leaves work for a running pool finds work or wakes the workers. -/
theorem Move.work (move : Move pool call point ran) (some : ran.shared.queue ≠ [])
    (running : ran.shared.shutdown = false) :
    (pool.queue ≠ [] ∧ pool.shutdown = false ∨ .all .queueNotEmpty ∈ ran.notices) ∧
      ¬ (ran.next.phase call).asleepOn .queueNotEmpty := by
  cases move with
  | refuse stands answer expires => exact ⟨.inl ⟨some, running⟩, id⟩
  | waitFull stands waits full opened => exact ⟨.inl ⟨some, running⟩, nofun⟩
  | waitWork stands waits empty stillRunning => exact absurd empty some
  | waitEmpty stands waits kept => exact ⟨.inl ⟨some, running⟩, nofun⟩
  | add stands room opened =>
      refine ⟨?_, id⟩
      cases found : pool.queue with
      | nil => exact .inr (by simp)
      | cons first rest => exact .inl ⟨by simp, running⟩
  | take stands found stillRunning => exact ⟨.inl ⟨by simp [found], stillRunning⟩, id⟩
  | stop stands kept empty => cases running
  | wakeWorkers => exact ⟨.inr (List.mem_singleton_self _), id⟩
  | wakeAdders => exact ⟨.inl ⟨some, running⟩, id⟩

/-- A move that leaves room in the queue finds room or wakes the callers of `addWork`. -/
theorem Move.room (move : Move pool call point ran) (room : ¬ ran.shared.queueIsFull) :
    (¬ pool.queueIsFull ∨ .all .queueNotFull ∈ ran.notices) ∧
      ¬ (ran.next.phase call).asleepOn .queueNotFull := by
  cases move with
  | refuse stands answer expires => exact ⟨.inl room, id⟩
  | waitFull stands waits full opened => exact absurd full room
  | waitWork stands waits empty running => exact ⟨.inl room, nofun⟩
  | waitEmpty stands waits kept => exact ⟨.inl room, nofun⟩
  | add stands before opened => exact ⟨.inl before, id⟩
  | take stands found running =>
      refine ⟨.inr ?_, id⟩
      dsimp only at room ⊢
      rw [if_pos room]
      exact List.mem_append_left _ (List.mem_singleton_self _)
  | stop stands kept empty => exact ⟨.inl room, id⟩
  | wakeWorkers => exact ⟨.inl room, id⟩
  | wakeAdders => exact ⟨.inl room, id⟩

/-- After the pool is shut down a move goes to the notices, wakes the workers, or leaves them
awake. -/
theorem Move.workers (move : Move pool call point ran) (stopped : ran.shared.shutdown = true) :
    ran.next.position call = some (call, .wakeWorkers) ∨
      ((pool.shutdown = true ∧ point ≠ some .wakeWorkers ∨ .all .queueNotEmpty ∈ ran.notices) ∧
        ¬ (ran.next.phase call).asleepOn .queueNotEmpty) := by
  cases move with
  | refuse stands answer expires => exact .inr ⟨.inl ⟨stopped, stands.1⟩, id⟩
  | waitFull stands waits full opened => exact absurd (.inl stopped) opened
  | waitWork stands waits empty running => cases stopped.symm.trans running
  | waitEmpty stands waits kept => exact .inr ⟨.inl ⟨stopped, stands.1⟩, nofun⟩
  | add stands room opened => exact absurd (.inl stopped) opened
  | take stands found running => cases stopped.symm.trans running
  | stop stands kept empty => exact .inl rfl
  | wakeWorkers => exact .inr ⟨.inr (List.mem_singleton_self _), id⟩
  | wakeAdders => exact .inr ⟨.inl ⟨stopped, by simp⟩, id⟩

/-- After the pool is shut down a move goes to the notices, wakes the callers of `addWork`, or
leaves them awake. -/
theorem Move.adders (move : Move pool call point ran) (stopped : ran.shared.shutdown = true) :
    (ran.next.position call = some (call, .wakeWorkers) ∨
        ran.next.position call = some (call, .wakeAdders)) ∨
      ((pool.shutdown = true ∧ (point ≠ some .wakeWorkers ∧ point ≠ some .wakeAdders) ∨
          .all .queueNotFull ∈ ran.notices) ∧
        ¬ (ran.next.phase call).asleepOn .queueNotFull) := by
  cases move with
  | refuse stands answer expires => exact .inr ⟨.inl ⟨stopped, stands⟩, id⟩
  | waitFull stands waits full opened => exact absurd (.inl stopped) opened
  | waitWork stands waits empty running => cases stopped.symm.trans running
  | waitEmpty stands waits kept => exact .inr ⟨.inl ⟨stopped, stands⟩, nofun⟩
  | add stands room opened => exact absurd (.inl stopped) opened
  | take stands found running => cases stopped.symm.trans running
  | stop stands kept empty => exact .inl (.inl rfl)
  | wakeWorkers => exact .inl (.inr rfl)
  | wakeAdders => exact .inr ⟨.inr (List.mem_singleton_self _), id⟩

end FixedSizePoolImpl

/-- Some shutdown has set the flag and has not notified the workers yet. -/
def BeforeWorkers (state : PoolState Thread Work) : Prop :=
  ∃ thread call, state.position thread = some (call, .wakeWorkers)

/-- Some shutdown has set the flag and has not notified the callers of `addWork` yet. -/
def BeforeAdders (state : PoolState Thread Work) : Prop :=
  ∃ thread call, state.position thread = some (call, .wakeWorkers) ∨
    state.position thread = some (call, .wakeAdders)

/-- Nobody sleeps on a condition that holds. This is the invariant of the wait sets. -/
structure Awake (state : PoolState Thread Work) : Prop where
  work : state.shared.queue ≠ [] → state.shared.shutdown = false →
    ∀ thread, ¬ (state.phase thread).asleepOn .queueNotEmpty
  room : ¬ state.shared.queueIsFull → ∀ thread, ¬ (state.phase thread).asleepOn .queueNotFull
  workers : state.shared.shutdown = true →
    BeforeWorkers state ∨ ∀ thread, ¬ (state.phase thread).asleepOn .queueNotEmpty
  adders : state.shared.shutdown = true →
    BeforeAdders state ∨ ∀ thread, ¬ (state.phase thread).asleepOn .queueNotFull

section Awake

variable [DecidableEq Thread] {maxQueueSize : Nat} {state next : PoolState Thread Work}
  {label : Label Thread (Call Work)} {thread : Thread} {call : Call Work} {ran : PoolSection Work}
  {phase : Thread → Phase (Call Work) (Point Work) Condition}

theorem Awake.turn (awake : Awake state) (fits : ∀ thread, (state.phase thread).Fits Waits Leaves)
    (turn : Turn program state label thread call ran)
    (delivered : Delivered ran.notices state.phase phase) :
    Awake (state.ran thread call ran phase) := by
  obtain ⟨point, stands, move⟩ := turn_move fits turn
  have positions : (state.ran thread call ran phase).position =
      Function.update state.position thread (ran.next.position call) :=
    State.ran_position delivered
  have entered {inside : Point Work} (goes : ran.next.position call = some (call, inside)) :
      (state.ran thread call ran phase).position thread = some (call, inside) := by
    rw [positions, Function.update_self, goes]
  have stays {other : Thread} {outer : Call Work} {inside : Point Work}
      (before : state.position other = some (outer, inside)) (leaves : point ≠ some inside) :
      (state.ran thread call ran phase).position other = some (outer, inside) := by
    have different : other ≠ thread := by
      rintro rfl
      rw [stands] at before
      cases point with
      | none => simp at before
      | some here => exact leaves (by simpa using (Prod.mk.inj (Option.some.inj before)).2)
    rw [positions, Function.update_of_ne different, before]
  exact {
    work := by
      intro some running
      obtain ⟨before, own⟩ := move.work some running
      refine State.ran_awake delivered (before.imp ?_ id) own
      rintro ⟨found, on⟩
      exact awake.work found on
    room := by
      intro room
      obtain ⟨before, own⟩ := move.room room
      exact State.ran_awake delivered (before.imp awake.room id) own
    workers := by
      intro stopped
      rcases move.workers stopped with goes | ⟨before, own⟩
      · exact .inl ⟨thread, call, entered goes⟩
      · rcases before with ⟨off, outside⟩ | sent
        · rcases awake.workers off with ⟨other, outer, inside⟩ | asleep
          · exact .inl ⟨other, outer, stays inside outside⟩
          · exact .inr (State.ran_awake delivered (.inl asleep) own)
        · exact .inr (State.ran_awake delivered (.inr sent) own)
    adders := by
      intro stopped
      rcases move.adders stopped with goes | ⟨before, own⟩
      · exact .inl ⟨thread, call, goes.imp entered entered⟩
      · rcases before with ⟨off, notWorkers, notAdders⟩ | sent
        · rcases awake.adders off with ⟨other, outer, inside⟩ | asleep
          · exact .inl ⟨other, outer, inside.imp (stays · notWorkers) (stays · notAdders)⟩
          · exact .inr (State.ran_awake delivered (.inl asleep) own)
        · exact .inr (State.ran_awake delivered (.inr sent) own) }

theorem Awake.wake (awake : Awake state) {point : Point Work} {condition : Condition}
    {timed : Bool} (asleep : state.phase thread = .asleep call point condition timed)
    (wake : Wake) : Awake (state.wake thread (.woken call point condition wake)) := by
  have position : (state.wake thread (.woken call point condition wake)).position =
      state.position := State.wake_position (by rw [asleep]; rfl)
  have still {waited : Condition} (before : ∀ other, ¬ (state.phase other).asleepOn waited)
      (other : Thread) :
      ¬ ((state.wake thread (.woken call point condition wake)).phase other).asleepOn waited :=
    fun sleeps => before other (State.wake_asleepOn sleeps)
  exact {
    work := fun some running => still (awake.work some running)
    room := fun room => still (awake.room room)
    workers := by
      intro stopped
      rw [BeforeWorkers, position]
      exact (awake.workers stopped).imp id still
    adders := by
      intro stopped
      rw [BeforeAdders, position]
      exact (awake.adders stopped).imp id still }

theorem awake_of_reachable (reached : (system maxQueueSize).Reachable state) : Awake state := by
  apply reached.invariant
  · intro state start
    rw [start]
    exact {
      work := fun _ _ _ => id
      room := fun _ _ => id
      workers := fun _ => .inr fun _ => id
      adders := fun _ => .inr fun _ => id }
  · intro state label next before awake step
    cases step with
    | run turn delivered => exact awake.turn (fits_of_reachable before) turn delivered
    | rouse asleep => exact awake.wake asleep .spurious
    | expire asleep => exact awake.wake asleep .expired

end Awake

/-- These properties say that no thread sleeps through the event that it waits for. The last two
hold once a shutdown has set the flag and has sent its notices. -/
structure NoLostWakeup (state : PoolState Thread Work) : Prop where
  work : state.shared.queue ≠ [] → state.shared.shutdown = false →
    ∀ worker, ¬ (state.phase worker).asleepOn .queueNotEmpty
  room : ¬ state.shared.queueIsFull → ∀ adder, ¬ (state.phase adder).asleepOn .queueNotFull
  workers : state.shared.shutdown = true → ¬ BeforeAdders state →
    ∀ worker waitForWork point condition timed,
      state.phase worker ≠ .asleep (.getWorkFromQueue waitForWork) point condition timed
  adders : state.shared.shutdown = true → ¬ BeforeAdders state →
    ∀ adder work infinite point condition timed,
      state.phase adder ≠ .asleep (.addWork work infinite) point condition timed

/-- No reachable state of the pool has a lost wakeup. -/
theorem no_lost_wakeup [DecidableEq Thread] {maxQueueSize : Nat} {state : PoolState Thread Work}
    (reached : (system maxQueueSize).Reachable state) : NoLostWakeup state := by
  have awake := awake_of_reachable reached
  have fits := fits_of_reachable reached
  exact {
    work := awake.work
    room := awake.room
    workers := by
      intro stopped sent worker waitForWork point condition timed asleep
      have stands := fits worker
      rw [asleep] at stands
      have early : ¬ BeforeWorkers state := fun ⟨thread, call, inside⟩ =>
        sent ⟨thread, call, .inl inside⟩
      have nobody := (awake.workers stopped).resolve_left early worker
      rw [asleep] at nobody
      cases stands with
      | work waitForWork => exact nobody rfl
    adders := by
      intro stopped sent adder work infinite point condition timed asleep
      have stands := fits adder
      rw [asleep] at stands
      have nobody := (awake.adders stopped).resolve_left sent adder
      rw [asleep] at nobody
      cases stands with
      | add work infinite => exact nobody rfl }

theorem no_lost_wakeup_oneQueued : NoLostWakeup oneQueued := no_lost_wakeup oneQueued_reachable

end Blocxx.ThreadPool
