import Blocxx.RWLock.GenericRWLockImpl

/-!
This file states what each section of the lock can do and the invariant that every section keeps.
-/

namespace Blocxx.RWLock
open Library.Monitor

variable {Thread Id : Type} [DecidableEq Id]

abbrev Position (Thread Id : Type) := Thread → Option (Call Id × Point)

@[simp, grind =] theorem IdMap.lookup_insert (map : IdMap Id) (id other : Id) (info : LockerInfo) :
    (Finmap.insert id info map).lookup other =
      if other = id then some info else map.lookup other := by
  by_cases same : other = id
  · subst same; simp [Finmap.lookup_insert]
  · simp [Finmap.lookup_insert_of_ne map same, same]

@[simp, grind =] theorem IdMap.lookup_erase (map : IdMap Id) (id other : Id) :
    (Finmap.erase id map).lookup other = if other = id then none else map.lookup other := by
  by_cases same : other = id
  · subst same; simp [Finmap.lookup_erase]
  · simp [Finmap.lookup_erase_ne same, same]

theorem IdMap.mem_keys (map : IdMap Id) (id : Id) : id ∈ map.keys ↔ map.lookup id ≠ none := by
  rw [Finmap.mem_keys, ← not_iff_not, not_not, Finmap.lookup_eq_none]

namespace GenericRWLockImpl

/-- This relation lists what a section of one id can do when no assertion fails. -/
inductive Move (id : Id) (lock : GenericRWLockImpl Id) :
    Call Id → Option Point → LockSection Id → Prop
  | refuse {call : Call Id} {point : Option Point} {result : Result}
      (noWriter : point ≠ some .upgrade ∧ point ≠ some .newWriter)
      (answer : result ≠ .returned ∧ result ≠ .assertionException ∧ result ≠ .danglingReference) :
      Move id lock call point ⟨lock, [], .finish result⟩
  | readAgain {info : LockerInfo} (found : lock.lockerInfo.lookup id = some info) :
      Move id lock (.acquireReadLock id) none
        ⟨{ lock with
            lockerInfo := lock.lockerInfo.insert id ⟨info.readCount + 1, info.writeCount⟩ },
          [], .finish .returned⟩
  | readWait {point : Option Point}
      (start : point = none ∧ lock.lockerInfo.lookup id = none ∨ point = some .newReader)
      (closed : lock.canRead = false ∨ lock.numWriters ≠ 0) :
      Move id lock (.acquireReadLock id) point
        ⟨lock, [], .wait .waitingReaders true .newReader⟩
  | readGrant {point : Option Point}
      (start : point = none ∧ lock.lockerInfo.lookup id = none ∨ point = some .newReader)
      (canRead : lock.canRead = true) (noWriter : lock.numWriters = 0) :
      Move id lock (.acquireReadLock id) point
        ⟨{ lock with
            lockerInfo := lock.lockerInfo.insertNew id ⟨1, 0⟩
            numReaders := lock.numReaders + 1 }, [], .finish .returned⟩
  | readRelease {info : LockerInfo} (found : lock.lockerInfo.lookup id = some info)
      (kept : 1 < info.readCount ∨ 0 < info.readCount ∧ 0 < info.writeCount) :
      Move id lock (.releaseReadLock id) none
        ⟨{ lock with
            lockerInfo := lock.lockerInfo.insert id ⟨info.readCount - 1, info.writeCount⟩ },
          [], .finish .returned⟩
  | readLeave (found : lock.lockerInfo.lookup id = some ⟨1, 0⟩) :
      Move id lock (.releaseReadLock id) none
        ⟨{ lock with
            numReaders := lock.numReaders - 1
            lockerInfo := lock.lockerInfo.erase id },
          if lock.numReaders - 1 = 0 then [.all .waitingWriters] else [], .finish .returned⟩
  | writeAgain {info : LockerInfo} (found : lock.lockerInfo.lookup id = some info)
      (writer : 0 < info.writeCount) :
      Move id lock (.acquireWriteLock id) none
        ⟨{ lock with
            lockerInfo := lock.lockerInfo.insert id ⟨info.readCount, info.writeCount + 1⟩ },
          [], .finish .returned⟩
  | upgradeStart {readCount : Nat} (found : lock.lockerInfo.lookup id = some ⟨readCount + 1, 0⟩)
      (noWriter : lock.numWriters = 0) (others : lock.numReaders - 1 ≠ 0) :
      Move id lock (.acquireWriteLock id) none
        ⟨{ lock with
            numReaders := lock.numReaders - 1
            numWriters := lock.numWriters + 1
            canRead := false }, [], .wait .waitingWriters true .upgrade⟩
  | upgradeNow {readCount : Nat} (found : lock.lockerInfo.lookup id = some ⟨readCount + 1, 0⟩)
      (noWriter : lock.numWriters = 0) (alone : lock.numReaders - 1 = 0) :
      Move id lock (.acquireWriteLock id) none
        ⟨{ lock with
            numReaders := lock.numReaders - 1
            numWriters := lock.numWriters + 1
            lockerInfo := lock.lockerInfo.insert id ⟨readCount + 1, 1⟩ }, [], .finish .returned⟩
  | upgradeWait (others : lock.numReaders ≠ 0) :
      Move id lock (.acquireWriteLock id) (some .upgrade)
        ⟨{ lock with canRead := false }, [], .wait .waitingWriters true .upgrade⟩
  | upgradeDone {info : LockerInfo} (found : lock.lockerInfo.lookup id = some info)
      (alone : lock.numReaders = 0) :
      Move id lock (.acquireWriteLock id) (some .upgrade)
        ⟨{ lock with
            lockerInfo := lock.lockerInfo.insert id ⟨info.readCount, info.writeCount + 1⟩ },
          [], .finish .returned⟩
  | upgradeTimeout {result : Result}
      (answer : result ≠ .returned ∧ result ≠ .assertionException ∧ result ≠ .danglingReference) :
      Move id lock (.acquireWriteLock id) (some .upgrade)
        ⟨{ lock with
            numReaders := lock.numReaders + 1
            numWriters := lock.numWriters - 1
            canRead := true },
          if lock.numWriters - 1 = 0 then [.all .waitingReaders] else [], .finish result⟩
  | writeWait {point : Option Point} (start : point = none ∨ point = some .newWriter)
      (taken : lock.numReaders ≠ 0 ∨ lock.numWriters ≠ 0) :
      Move id lock (.acquireWriteLock id) point
        ⟨{ lock with canRead := false }, [], .wait .waitingWriters true .newWriter⟩
  | writeGrant {point : Option Point} (start : point = none ∨ point = some .newWriter)
      (noReader : lock.numReaders = 0) (noWriter : lock.numWriters = 0) :
      Move id lock (.acquireWriteLock id) point
        ⟨{ lock with
            lockerInfo := lock.lockerInfo.insertNew id ⟨0, 1⟩
            numWriters := lock.numWriters + 1
            canRead := false }, [], .finish .returned⟩
  | writeTimeout {result : Result}
      (answer : result ≠ .returned ∧ result ≠ .assertionException ∧ result ≠ .danglingReference) :
      Move id lock (.acquireWriteLock id) (some .newWriter)
        ⟨{ lock with canRead := true },
          if lock.numWriters = 0 then [.all .waitingReaders] else [], .finish result⟩
  | writeRelease {readCount writeCount : Nat}
      (found : lock.lockerInfo.lookup id = some ⟨readCount, writeCount + 2⟩) :
      Move id lock (.releaseWriteLock id) none
        ⟨{ lock with lockerInfo := lock.lockerInfo.insert id ⟨readCount, writeCount + 1⟩ },
          [], .finish .returned⟩
  | downgrade {readCount : Nat} (found : lock.lockerInfo.lookup id = some ⟨readCount + 1, 1⟩)
      (one : lock.numWriters = 1) :
      Move id lock (.releaseWriteLock id) none
        ⟨{ canRead := true
           numReaders := lock.numReaders + 1
           numWriters := lock.numWriters - 1
           lockerInfo := lock.lockerInfo.insert id ⟨readCount + 1, 0⟩ },
          [.all .waitingReaders], .finish .returned⟩
  | writeLeave (found : lock.lockerInfo.lookup id = some ⟨0, 1⟩) (one : lock.numWriters = 1) :
      Move id lock (.releaseWriteLock id) none
        ⟨{ lock with
            canRead := true
            numWriters := lock.numWriters - 1
            lockerInfo := lock.lockerInfo.erase id },
          [.one .waitingWriters, .all .waitingReaders], .finish .returned⟩

end GenericRWLockImpl

/-- At most one id has the writer's slot: it waits to upgrade or it holds the write lock. -/
inductive WriterSlot (Thread Id : Type) where
  | free
  | upgrading (thread : Thread) (id : Id)
  | writing (id : Id)

namespace WriterSlot

def owner : WriterSlot Thread Id → Option Id
  | .free => none
  | .upgrading _ id => some id
  | .writing id => some id

def count : WriterSlot Thread Id → Int
  | .free => 0
  | .upgrading _ _ => 1
  | .writing _ => 1

end WriterSlot

namespace GenericRWLockImpl

/-- The ids that have an entry and do not have the writer's slot. -/
def plainReaders (lock : GenericRWLockImpl Id) (slot : WriterSlot Thread Id) : Finset Id :=
  lock.lockerInfo.keys.filter fun id => slot.owner ≠ some id

theorem mem_plainReaders {lock : GenericRWLockImpl Id} {slot : WriterSlot Thread Id} {id : Id} :
    id ∈ lock.plainReaders slot ↔ lock.lockerInfo.lookup id ≠ none ∧ slot.owner ≠ some id := by
  rw [plainReaders, Finset.mem_filter, IdMap.mem_keys]

def holdsRead (lock : GenericRWLockImpl Id) (id : Id) : Prop :=
  ∃ info, lock.lockerInfo.lookup id = some info ∧ info.isReader

def holdsWrite (lock : GenericRWLockImpl Id) (id : Id) : Prop :=
  ∃ info, lock.lockerInfo.lookup id = some info ∧ info.isWriter

/-- Only the two acquiring calls wait, each in its own loops. -/
def Placed : Call Id → Point → Prop
  | .acquireReadLock _, .newReader => True
  | .acquireWriteLock _, .upgrade => True
  | .acquireWriteLock _, .newWriter => True
  | _, _ => False

/-- The entries, the counters, and the waiting upgrader agree on the writer's slot.
The lost reads are counted as readers, but no entry accounts for them. -/
structure Consistent (lock : GenericRWLockImpl Id) (position : Position Thread Id)
    (slot : WriterSlot Thread Id) (lost : Nat) : Prop where
  placed : ∀ thread call point, position thread = some (call, point) → Placed call point
  entry : ∀ id info, lock.lockerInfo.lookup id = some info → info.isReader ∨ info.isWriter
  upgrades : ∀ thread id,
    position thread = some (.acquireWriteLock id, .upgrade) ↔ slot = .upgrading thread id
  upgraderReads : ∀ thread id, slot = .upgrading thread id → lock.holdsRead id
  writes : ∀ id, lock.holdsWrite id ↔ slot = .writing id
  oneWriter : lock.numWriters = slot.count
  readers : lock.numReaders = (lock.plainReaders slot).card + lost
  alone : ∀ id, slot = .writing id → lock.numReaders = 0

variable {lock : GenericRWLockImpl Id} {position : Position Thread Id}
  {slot : WriterSlot Thread Id} {lost : Nat}

/-- The counter of writers is zero or one. -/
theorem Consistent.numWriters_cases (consistent : lock.Consistent position slot lost) :
    lock.numWriters = 0 ∨ lock.numWriters = 1 := by
  rw [consistent.oneWriter]
  cases slot
  · exact .inl rfl
  · exact .inr rfl
  · exact .inr rfl

/-- An id with a write count keeps the counter at one. -/
theorem Consistent.numWriters_of_writer (consistent : lock.Consistent position slot lost)
    {id : Id} {info : LockerInfo} (found : lock.lockerInfo.lookup id = some info)
    (writer : info.isWriter) : lock.numWriters = 1 := by
  have writing := (consistent.writes id).mp ⟨info, found, writer⟩
  rw [consistent.oneWriter, writing]
  rfl

theorem acquireReadLock_move (consistent : lock.Consistent position slot lost) (id : Id) :
    Move id lock (.acquireReadLock id) none (lock.acquireReadLock id) := by
  unfold acquireReadLock
  split
  next ti found =>
    rw [if_pos (consistent.entry id ti found)]
    exact .readAgain found
  next missing =>
    unfold readerLoop
    split
    next closed => exact .readWait (.inl ⟨rfl, missing⟩) closed
    next opened =>
      obtain ⟨canRead, noWriter⟩ := not_or.mp opened
      exact .readGrant (.inl ⟨rfl, missing⟩) (by simpa using canRead) (by simpa using noWriter)

theorem releaseReadLock_move (lock : GenericRWLockImpl Id) (id : Id) :
    Move id lock (.releaseReadLock id) none (lock.releaseReadLock id) := by
  unfold releaseReadLock
  split
  next missing => exact .refuse (by simp) (by simp)
  next info found =>
    obtain ⟨readCount, writeCount⟩ := info
    split
    next reader =>
      dsimp only
      split
      next last =>
        simp only [LockerInfo.isReader, LockerInfo.isWriter] at reader last
        have one : readCount = 1 := by omega
        have zero : writeCount = 0 := by omega
        subst one zero
        exact .readLeave found
      next kept =>
        simp only [LockerInfo.isReader, LockerInfo.isWriter] at reader kept
        exact .readRelease found (by dsimp only; omega)
    next noReader => exact .refuse (by simp) (by simp)

theorem upgradeLoop_move {id : Id} {info : LockerInfo}
    (found : lock.lockerInfo.lookup id = some info) :
    Move id lock (.acquireWriteLock id) (some .upgrade) (lock.upgradeLoop id) := by
  unfold upgradeLoop
  split
  next others => exact .upgradeWait others
  next alone =>
    rw [found]
    exact .upgradeDone found (by simpa using alone)

theorem writerLoop_move {id : Id} {point : Option Point}
    (start : point = none ∨ point = some .newWriter) :
    Move id lock (.acquireWriteLock id) point (lock.writerLoop id) := by
  unfold writerLoop
  split
  next taken => exact .writeWait start taken
  next opened =>
    obtain ⟨noReader, noWriter⟩ := not_or.mp opened
    exact .writeGrant start (by simpa using noReader) (by simpa using noWriter)

theorem acquireWriteLock_move (consistent : lock.Consistent position slot lost) (id : Id) :
    Move id lock (.acquireWriteLock id) none (lock.acquireWriteLock id) := by
  unfold acquireWriteLock
  split
  next ti found =>
    have held := consistent.entry id ti found
    rw [if_neg (not_not.mpr held)]
    split
    next writer => exact .writeAgain found writer
    next noWriter =>
      rw [if_neg (not_not.mpr consistent.numWriters_cases)]
      split
      next taken => exact .refuse (by simp) (by simp)
      next notOne =>
        have zero := consistent.numWriters_cases.resolve_right notOne
        obtain ⟨readCount, writeCount⟩ := ti
        simp only [LockerInfo.isReader, LockerInfo.isWriter] at held noWriter
        obtain rfl : writeCount = 0 := by omega
        obtain ⟨count, rfl⟩ : ∃ count, readCount = count + 1 := ⟨readCount - 1, by omega⟩
        unfold upgradeLoop
        split
        next others => exact .upgradeStart found zero others
        next alone =>
          dsimp only at alone ⊢
          rw [found]
          exact .upgradeNow found zero (by simpa using alone)
  next missing => exact writerLoop_move (.inl rfl)

theorem releaseWriteLock_move (consistent : lock.Consistent position slot lost) (id : Id) :
    Move id lock (.releaseWriteLock id) none (lock.releaseWriteLock id) := by
  unfold releaseWriteLock
  split
  next missing => exact .refuse (by simp) (by simp)
  next info found =>
    split
    next writer =>
      have one := consistent.numWriters_of_writer found writer
      obtain ⟨readCount, writeCount⟩ := info
      dsimp only
      split
      next more =>
        simp only [LockerInfo.isWriter] at more
        obtain ⟨count, rfl⟩ : ∃ count, writeCount = count + 2 := ⟨writeCount - 2, by omega⟩
        exact .writeRelease found
      next last =>
        simp only [LockerInfo.isWriter] at writer last
        obtain rfl : writeCount = 1 := by omega
        rw [if_neg (by omega)]
        split
        next reader =>
          simp only [LockerInfo.isReader] at reader
          obtain ⟨count, rfl⟩ : ∃ count, readCount = count + 1 := ⟨readCount - 1, by omega⟩
          exact .downgrade found one
        next noReader =>
          simp only [LockerInfo.isReader] at noReader
          obtain rfl : readCount = 0 := by omega
          exact .writeLeave found one
    next noWriter => exact .refuse (by simp) (by simp)

/-- A call of a consistent lock starts with one of the moves. -/
theorem enter_move (consistent : lock.Consistent position slot lost) (call : Call Id) :
    Move call.id lock call none (enter call lock) := by
  cases call with
  | acquireReadLock id => exact acquireReadLock_move consistent id
  | acquireWriteLock id => exact acquireWriteLock_move consistent id
  | releaseReadLock id => exact releaseReadLock_move lock id
  | releaseWriteLock id => exact releaseWriteLock_move consistent id

/-- A thread of a consistent lock continues after its wait with one of the moves. -/
theorem resume_move (consistent : lock.Consistent position slot lost) {thread : Thread}
    {call : Call Id} {point : Point} (answer : Bool)
    (stands : position thread = some (call, point)) :
    Move call.id lock call (some point) (resume call point answer lock) := by
  have placed := consistent.placed thread call point stands
  match call, point, answer, placed with
  | .acquireReadLock id, .newReader, true, _ =>
      change Move id lock _ _ (readerLoop id lock)
      unfold readerLoop
      split
      next closed => exact .readWait (.inr rfl) closed
      next opened =>
        obtain ⟨canRead, noWriter⟩ := not_or.mp opened
        exact .readGrant (.inr rfl) (by simpa using canRead) (by simpa using noWriter)
  | .acquireReadLock id, .newReader, false, _ => exact .refuse (by simp) (by simp)
  | .acquireWriteLock id, .upgrade, true, _ =>
      have upgrading := (consistent.upgrades thread id).mp stands
      obtain ⟨info, found, _⟩ := consistent.upgraderReads thread id upgrading
      exact upgradeLoop_move found
  | .acquireWriteLock id, .upgrade, false, _ => exact .upgradeTimeout (by simp)
  | .acquireWriteLock id, .newWriter, true, _ => exact writerLoop_move (.inr rfl)
  | .acquireWriteLock id, .newWriter, false, _ => exact .writeTimeout (by simp)

end GenericRWLockImpl

end Blocxx.RWLock
