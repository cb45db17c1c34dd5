import Blocxx.RWLock.Consistency

/-!
This file runs the lock under any interleaving and counts the locks that the returned calls hold.
-/

namespace Blocxx.RWLock
open Library Library.Monitor GenericRWLockImpl

variable {Thread Id : Type} [DecidableEq Thread] [DecidableEq Id]

abbrev LockState (Thread Id : Type) :=
  Monitor.State Thread (GenericRWLockImpl Id) (Call Id) Result Point Condition

/-- The lock is new and no call is in progress. -/
def system : TransitionSystem (LockState Thread Id) (Label Thread (Call Id)) :=
  (program : Program (GenericRWLockImpl Id) (Call Id) Result Point Condition).system .new

/-- A call starts only when no call of its id is in progress. -/
def OneCallPerId (state : LockState Thread Id) : Label Thread (Call Id) → Prop
  | .enter _ call => ∀ other inside point, state.position other = some (inside, point) →
      inside.id ≠ call.id
  | _ => True

/-- A call does not release the last read lock of an id whose upgrade is in progress. -/
def KeepsUpgrader (state : LockState Thread Id) : Label Thread (Call Id) → Prop
  | .enter _ call => ¬ DropsUpgrader state.shared state.position call
  | _ => True

section Turn

variable {state next : LockState Thread Id} {label : Label Thread (Call Id)} {thread : Thread}
  {call : Call Id} {ran : LockSection Id} {slot : WriterSlot Thread Id} {lost : Nat}

omit [DecidableEq Thread] in
/-- Each turn of a consistent lock is a move of the id of its call. -/
theorem turn_move (consistent : state.shared.Consistent state.position slot lost)
    (turn : Turn program state label thread call ran) :
    ∃ point : Option Point, state.position thread = point.map (fun point => (call, point)) ∧
      (label = .enter thread call ∨ point.isSome) ∧ Move call.id state.shared call point ran := by
  rcases turn.cases_position with ⟨entered, idle, rfl⟩ | ⟨_, point, answer, stands, rfl⟩
  · exact ⟨none, idle, .inl entered, enter_move consistent call⟩
  · exact ⟨some point, stands, .inr rfl, resume_move consistent answer stands⟩

omit [DecidableEq Thread] in
/-- Only the first section of a call can take the entry of an upgrader away. -/
theorem turn_safe (consistent : state.shared.Consistent state.position slot lost)
    (turn : Turn program state label thread call ran) (safe : KeepsUpgrader state label) :
    ¬ DropsUpgrader state.shared state.position call := by
  rcases turn.cases_position with ⟨entered, idle, rfl⟩ | ⟨_, point, answer, stands, rfl⟩
  · rwa [entered] at safe
  · rintro ⟨id, rfl, _⟩
    exact consistent.placed thread _ point stands

omit [DecidableEq Thread] in
/-- One call per id protects the entry of an upgrader. -/
theorem OneCallPerId.keepsUpgrader (one : OneCallPerId state label) :
    KeepsUpgrader state label := by
  cases label with
  | enter thread call =>
      rintro ⟨id, rfl, _, other, stands⟩
      exact one other _ _ stands rfl
  | resume thread => exact trivial
  | rouse thread => exact trivial
  | expire thread => exact trivial

end Turn

omit [DecidableEq Thread] in
theorem consistent_new (position : Position Thread Id) (idle : ∀ thread, position thread = none) :
    (GenericRWLockImpl.new : GenericRWLockImpl Id).Consistent position .free 0 where
  placed := by simp [idle]
  entry := by simp [GenericRWLockImpl.new]
  upgrades := by simp [idle]
  upgraderReads := by simp
  writes := by simp [GenericRWLockImpl.new, holdsWrite]
  oneWriter := rfl
  readers := by
    have none : plainReaders (GenericRWLockImpl.new : GenericRWLockImpl Id)
        (.free : WriterSlot Thread Id) = ∅ := by
      ext id
      simp [mem_plainReaders, GenericRWLockImpl.new]
    rw [none]
    rfl
  alone := by simp

/-! The calls that returned say which locks each id holds. -/

/-- A returned acquire adds one read lock of its id and a returned release removes one. -/
def readChange (id : Id) (call : Finished Thread (Call Id) Result) : Int :=
  match call.call, call.result with
  | .acquireReadLock other, .returned => if other = id then 1 else 0
  | .releaseReadLock other, .returned => if other = id then -1 else 0
  | _, _ => 0

def writeChange (id : Id) (call : Finished Thread (Call Id) Result) : Int :=
  match call.call, call.result with
  | .acquireWriteLock other, .returned => if other = id then 1 else 0
  | .releaseWriteLock other, .returned => if other = id then -1 else 0
  | _, _ => 0

/-- The number of read locks that the callers of this id have acquired and not released. -/
def heldReads (state : LockState Thread Id) (id : Id) : Int :=
  (state.finished.map (readChange id)).sum

def heldWrites (state : LockState Thread Id) (id : Id) : Int :=
  (state.finished.map (writeChange id)).sum

namespace GenericRWLockImpl

def readCount (lock : GenericRWLockImpl Id) (id : Id) : Nat :=
  (lock.lockerInfo.lookup id).elim 0 LockerInfo.readCount

def writeCount (lock : GenericRWLockImpl Id) (id : Id) : Nat :=
  (lock.lockerInfo.lookup id).elim 0 LockerInfo.writeCount

variable {lock : GenericRWLockImpl Id} {position : Position Thread Id}
  {slot : WriterSlot Thread Id} {lost : Nat} {id : Id} {call : Call Id} {point : Option Point}
  {ran : LockSection Id}

omit [DecidableEq Thread] in
/-- The id with a write count has the writer's slot. -/
theorem Consistent.writeCount_pos (consistent : lock.Consistent position slot lost) :
    0 < lock.writeCount id ↔ slot = .writing id := by
  rw [← consistent.writes, holdsWrite, GenericRWLockImpl.writeCount]
  cases found : lock.lockerInfo.lookup id <;> simp [LockerInfo.isWriter]

omit [DecidableEq Thread] in
/-- Beside a writer no other id has an entry, and no read is lost. -/
theorem Consistent.writer_alone (consistent : lock.Consistent position slot lost)
    (writing : slot = .writing id) :
    lost = 0 ∧ ∀ other, other ≠ id → lock.lockerInfo.lookup other = none := by
  have readers := consistent.readers
  have none := consistent.alone id writing
  refine ⟨by omega, ?_⟩
  intro other different
  by_contra present
  have member : other ∈ lock.plainReaders slot := by
    rw [mem_plainReaders, writing]
    exact ⟨present, by simpa [WriterSlot.owner] using different.symm⟩
  have some := Finset.card_pos.mpr ⟨other, member⟩
  omega

omit [DecidableEq Thread] [DecidableEq Id] in
private theorem change_of_other (change : Id → Finished Thread (Call Id) Result → Int)
    (none : ∀ result other, other ≠ call.id → ∀ thread, change other ⟨thread, call, result⟩ = 0)
    {next : Next Result Point Condition} {thread : Thread} {other : Id}
    (different : other ≠ call.id) : ((next.finished thread call).map (change other)).sum = 0 := by
  cases next <;> simp [Next.finished, none _ other different thread]

omit [DecidableEq Thread] in
theorem readChange_of_other (result : Result) (other : Id) (different : other ≠ call.id)
    (thread : Thread) : readChange other ⟨thread, call, result⟩ = 0 := by
  cases call <;> cases result <;> simp_all [readChange, Call.id, eq_comm]

omit [DecidableEq Thread] in
theorem writeChange_of_other (result : Result) (other : Id) (different : other ≠ call.id)
    (thread : Thread) : writeChange other ⟨thread, call, result⟩ = 0 := by
  cases call <;> cases result <;> simp_all [writeChange, Call.id, eq_comm]

omit [DecidableEq Thread] in
/-- The read counts follow the returned calls, up to a lost read. -/
theorem Move.readCount (consistent : lock.Consistent position slot lost)
    (move : Move id lock call point ran) (owner : call.id = id) (thread : Thread) (other : Id) :
    ((ran.next.finished thread call).map (readChange other)).sum =
      (ran.shared.readCount other : Int) - lock.readCount other +
        if other = id then (lock.lostRead id point ran : Int) else 0 := by
  by_cases same : other = id
  · subst same
    rw [if_pos rfl]
    cases move with
    | @refuse call point result noWriter answer =>
        rw [lostRead_eq_zero (.inr fun same => answer.1 (Next.finish.inj same))]
        cases call <;> cases result <;> simp_all [Next.finished, readChange]
    | readGrant start canRead noWriter =>
        cases found : lock.lockerInfo.lookup other with
        | some info =>
            have waited := start.resolve_left fun fresh => by simp [found] at fresh
            rw [lostRead, if_pos ⟨waited, by rw [found]; rfl, rfl⟩]
            simp [Next.finished, readChange, GenericRWLockImpl.readCount, IdMap.insertNew, found]
        | none =>
            rw [lostRead, if_neg (by simp [found])]
            simp [Next.finished, readChange, GenericRWLockImpl.readCount, IdMap.insertNew, found]
    | readRelease found kept =>
        simp [Next.finished, readChange, GenericRWLockImpl.readCount, lostRead, found]
        omega
    | writeGrant start noReader noWriter =>
        have missing := consistent.empty noReader noWriter other
        rw [lostRead_eq_zero (.inl (by rcases start with rfl | rfl <;> simp))]
        simp [Next.finished, readChange, GenericRWLockImpl.readCount, IdMap.insertNew, missing]
    | _ => simp_all [Next.finished, readChange, GenericRWLockImpl.readCount, lostRead]
  · rw [if_neg same, change_of_other readChange readChange_of_other (by rwa [owner])]
    simp [GenericRWLockImpl.readCount, move.frame same]

omit [DecidableEq Thread] in
/-- The write counts follow the returned calls. -/
theorem Move.writeCount (consistent : lock.Consistent position slot lost)
    (move : Move id lock call point ran) (owner : call.id = id) (thread : Thread) (other : Id) :
    ((ran.next.finished thread call).map (writeChange other)).sum =
      (ran.shared.writeCount other : Int) - lock.writeCount other := by
  by_cases same : other = id
  · subst same
    cases move with
    | @refuse call point result noWriter answer =>
        cases call <;> cases result <;> simp_all [Next.finished, writeChange]
    | readGrant start canRead noWriter =>
        cases found : lock.lockerInfo.lookup other <;>
          simp [Next.finished, writeChange, GenericRWLockImpl.writeCount, IdMap.insertNew, found]
    | writeGrant start noReader noWriter =>
        have missing := consistent.empty noReader noWriter other
        simp [Next.finished, writeChange, GenericRWLockImpl.writeCount, IdMap.insertNew, missing]
    | _ => simp_all [Next.finished, writeChange, GenericRWLockImpl.writeCount]
  · rw [change_of_other writeChange writeChange_of_other (by rwa [owner])]
    simp [GenericRWLockImpl.writeCount, move.frame same]

end GenericRWLockImpl

end Blocxx.RWLock
