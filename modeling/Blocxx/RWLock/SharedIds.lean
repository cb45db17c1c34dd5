import Blocxx.RWLock.Held

/-!
This file proves when the lock is safe although several threads call it for one id.
-/

namespace Blocxx.RWLock
open Library Library.Monitor GenericRWLockImpl

variable {Thread Id : Type} [DecidableEq Thread] [DecidableEq Id]

/-- The number of times that this call has been made and has ended. -/
def calls (state : LockState Thread Id) (call : Call Id) : Nat :=
  state.finished.countP fun done => done.call = call

/-- The number of times that this call has returned without an exception. -/
def returns (state : LockState Thread Id) (call : Call Id) : Nat :=
  state.finished.countP fun done => done.call = call ∧ done.result = .returned

/-- A release is called less often than the acquire of its id has returned. -/
def ReleasesMatched (state : LockState Thread Id) : Label Thread (Call Id) → Prop
  | .enter _ (.releaseReadLock id) =>
      calls state (.releaseReadLock id) < returns state (.acquireReadLock id)
  | .enter _ (.releaseWriteLock id) =>
      calls state (.releaseWriteLock id) < returns state (.acquireWriteLock id)
  | _ => True

/-- No counter is negative, each upgrader keeps its entry, and a writer excludes other ids. -/
structure SharedSafe (state : LockState Thread Id) : Prop where
  counters : 0 ≤ state.shared.numReaders ∧ 0 ≤ state.shared.numWriters
  reference : ∀ thread id, state.position thread = some (.acquireWriteLock id, .upgrade) →
    state.shared.lockerInfo.lookup id ≠ none
  exclusive : ∀ id other, other ≠ id → 0 < heldWrites state id →
    ¬ 0 < heldReads state other ∧ ¬ 0 < heldWrites state other

/-- The entries account for all returned calls but the lost reads. -/
structure Shared (state : LockState Thread Id) (slot : WriterSlot Thread Id) (lost : Nat) :
    Prop where
  consistent : state.shared.Consistent state.position slot lost
  reads : ∀ id, heldReads state id ≤ state.shared.readCount id + lost
  writes : ∀ id, heldWrites state id = state.shared.writeCount id

section Shared

variable {state next : LockState Thread Id} {label : Label Thread (Call Id)} {thread : Thread}
  {call : Call Id} {ran : LockSection Id} {slot : WriterSlot Thread Id} {lost : Nat}

/-- A step that keeps the entry of every upgrader keeps the account. -/
theorem Shared.step (shared : Shared state slot lost) (step : system.step state label next)
    (safe : KeepsUpgrader state label) :
    ∃ (slot : WriterSlot Thread Id) (lost : Nat), Shared next slot lost := by
  rcases Step.ran_or_woken step with ⟨thread, call, ran, turn, same, position, finished⟩ |
    ⟨same, position, finished⟩
  · obtain ⟨point, stands, _, move⟩ := turn_move shared.consistent turn
    obtain ⟨slot, kept⟩ := move.consistent shared.consistent stands
      (turn_safe shared.consistent turn safe)
    refine ⟨slot, lost + state.shared.lostRead call.id point ran, ?_, ?_, ?_⟩
    · rw [same, position]
      exact kept
    · intro id
      have change := move.readCount shared.consistent rfl thread id
      have before := shared.reads id
      rw [same, heldReads, finished, List.map_append, List.sum_append, change]
      rw [heldReads] at before
      split <;> push_cast <;> omega
    · intro id
      have change := move.writeCount shared.consistent rfl thread id
      have before := shared.writes id
      rw [same, heldWrites, finished, List.map_append, List.sum_append, change]
      rw [heldWrites] at before
      omega
  · refine ⟨slot, lost, ?_, ?_, ?_⟩
    · rw [same, position]
      exact shared.consistent
    · rw [same]
      simpa only [heldReads, finished] using shared.reads
    · rw [same]
      simpa only [heldWrites, finished] using shared.writes

omit [DecidableEq Thread] in
/-- The account makes the lock safe. -/
theorem Shared.safe (shared : Shared state slot lost) : SharedSafe state where
  counters := by
    have readers := shared.consistent.readers
    have writers := shared.consistent.numWriters_cases
    omega
  reference := by
    intro thread id stands
    have upgrading := (shared.consistent.upgrades thread id).mp stands
    obtain ⟨info, found, _⟩ := shared.consistent.upgraderReads thread id upgrading
    simp [found]
  exclusive := by
    intro id other different writer
    have reads := shared.reads other
    have writes := shared.writes other
    rw [shared.writes, Nat.cast_pos, shared.consistent.writeCount_pos] at writer
    obtain ⟨rfl, missing⟩ := shared.consistent.writer_alone writer
    rw [GenericRWLockImpl.readCount, missing other different] at reads
    rw [GenericRWLockImpl.writeCount, missing other different] at writes
    simp only [Option.elim_none] at reads writes
    omega

omit [DecidableEq Thread] in
/-- The release of the last lock of an id erases its entry. -/
theorem releaseReadLock_last {lock : GenericRWLockImpl Id} {id : Id}
    (found : lock.lockerInfo.lookup id = some ⟨1, 0⟩) :
    (lock.releaseReadLock id).shared.lockerInfo.lookup id = none := by
  simp [releaseReadLock, found, LockerInfo.isReader, LockerInfo.isWriter]

/-- A step that takes the entry of an upgrader away leaves a dead reference behind. -/
theorem drops_reference (step : system.step state label next)
    (reference : ∀ thread id, next.position thread = some (.acquireWriteLock id, .upgrade) →
      next.shared.lockerInfo.lookup id ≠ none) : KeepsUpgrader state label := by
  cases step with
  | @run label thread call ran phase turn delivered =>
      rcases turn.cases_position with ⟨rfl, idle, rfl⟩ | ⟨rfl, _⟩
      · rintro ⟨id, rfl, found, upgrader, stands⟩
        have different : upgrader ≠ thread := by
          rintro rfl
          rw [stands] at idle
          cases idle
        apply reference upgrader id
        · rw [State.ran_position delivered, Function.update_of_ne different, stands]
        · exact releaseReadLock_last found
      · exact trivial
  | rouse asleep => exact trivial
  | expire asleep => exact trivial

end Shared

/-- The lock is new and all threads are idle. -/
def start : LockState Thread Id := ⟨.new, fun _ => .idle, []⟩

/-- The lock is accounted for when some slot and some number of lost reads fit. -/
def Accounted (state : LockState Thread Id) : Prop :=
  ∃ (slot : WriterSlot Thread Id) (lost : Nat), Shared state slot lost

omit [DecidableEq Thread] in
theorem accounted_start : Accounted (start : LockState Thread Id) := by
  refine ⟨.free, 0, consistent_new _ fun _ => rfl, ?_, ?_⟩
  · intro id
    simp [start, heldReads, GenericRWLockImpl.readCount, GenericRWLockImpl.new]
  · intro id
    simp [start, heldWrites, GenericRWLockImpl.writeCount, GenericRWLockImpl.new]

omit [DecidableEq Thread] in
theorem Accounted.safe {state : LockState Thread Id} (accounted : Accounted state) :
    SharedSafe state := by
  obtain ⟨slot, lost, shared⟩ := accounted
  exact shared.safe

theorem Accounted.step {state next : LockState Thread Id} {label : Label Thread (Call Id)}
    (accounted : Accounted state) (step : system.step state label next)
    (safe : KeepsUpgrader state label) : Accounted next := by
  obtain ⟨slot, lost, shared⟩ := accounted
  exact shared.step step safe

/-- The state after an idle thread ran the first section of a call. -/
def called (state : LockState Nat Nat) (thread : Nat) (call : Call Nat)
    (phase : Nat → Phase (Call Nat) Point Condition) : LockState Nat Nat :=
  state.ran thread call (enter call state.shared) phase

theorem called_step {state : LockState Nat Nat} {thread : Nat} {call : Call Nat}
    {phase : Nat → Phase (Call Nat) Point Condition} (idle : state.phase thread = .idle)
    (delivered : Delivered (enter call state.shared).notices state.phase phase)
    (matched : ReleasesMatched state (.enter thread call)) :
    (system.restrict ReleasesMatched).step state (.enter thread call)
      (called state thread call phase) :=
  ⟨.run (.enter call idle) delivered, matched⟩

def oneReader : LockState Nat Nat := called start 0 (.acquireReadLock 1) start.phase

def twoReaders : LockState Nat Nat := called oneReader 1 (.acquireReadLock 2) oneReader.phase

/-- The ids 1 and 2 hold read locks, and thread 2 waits to upgrade id 1. -/
def upgradePending : LockState Nat Nat := called twoReaders 2 (.acquireWriteLock 1) twoReaders.phase

/-- Thread 0 has released the read lock of id 1, which notified thread 2. -/
def upgraderDropped : LockState Nat Nat :=
  called upgradePending 0 (.releaseReadLock 1) fun thread =>
    if (upgradePending.phase thread).asleepOn .waitingWriters
    then (upgradePending.phase thread).notify else upgradePending.phase thread

/-- Thread 1 has released the read lock of id 2 as well. -/
def belowZero : LockState Nat Nat :=
  called upgraderDropped 1 (.releaseReadLock 2) upgraderDropped.phase

def droppingRun : List (TransitionSystem.Transition (LockState Nat Nat) (Label Nat (Call Nat))) :=
  [⟨start, .enter 0 (.acquireReadLock 1), oneReader⟩,
    ⟨oneReader, .enter 1 (.acquireReadLock 2), twoReaders⟩,
    ⟨twoReaders, .enter 2 (.acquireWriteLock 1), upgradePending⟩,
    ⟨upgradePending, .enter 0 (.releaseReadLock 1), upgraderDropped⟩,
    ⟨upgraderDropped, .enter 1 (.releaseReadLock 2), belowZero⟩]

theorem droppingRun_run : (system.restrict ReleasesMatched).Run start droppingRun := by
  refine .cons (called_step rfl (.nil _) trivial) <| .cons (called_step rfl (.nil _) trivial) <|
    .cons (called_step rfl (.nil _) trivial) <| .cons (called_step rfl (.all (.nil _)) ?first) <|
    .cons (called_step rfl (.nil _) ?second) (.nil _)
  case first =>
    show calls upgradePending (.releaseReadLock 1) < returns upgradePending (.acquireReadLock 1)
    decide
  case second =>
    show calls upgraderDropped (.releaseReadLock 2) < returns upgraderDropped (.acquireReadLock 2)
    decide

end Blocxx.RWLock
