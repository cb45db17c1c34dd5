import Blocxx.Library.Monitor
import Mathlib.Data.Finmap

/-!
This file embeds `GenericRWLockImpl`. Each definition is one section that holds `m_guard`.
-/

namespace Blocxx.RWLock
open Library.Monitor

/-- The counts of one id. A decrement is reached only after a test that the count is positive. -/
structure LockerInfo where
  readCount : Nat
  writeCount : Nat
  deriving DecidableEq

def LockerInfo.isReader (info : LockerInfo) : Prop := 0 < info.readCount

def LockerInfo.isWriter (info : LockerInfo) : Prop := 0 < info.writeCount

instance (info : LockerInfo) : Decidable info.isReader := inferInstanceAs (Decidable (_ < _))

instance (info : LockerInfo) : Decidable info.isWriter := inferInstanceAs (Decidable (_ < _))

/-- Two keys that the comparator does not separate are one id. -/
abbrev IdMap (Id : Type) := Finmap fun _ : Id => LockerInfo

/-- `std::map::insert` keeps an entry that is already there. -/
def IdMap.insertNew {Id : Type} [DecidableEq Id] (map : IdMap Id) (id : Id) (info : LockerInfo) :
    IdMap Id :=
  match map.lookup id with
  | some _ => map
  | none => map.insert id info

/-- The integers stand for the unsigned counters before reduction, so that a decrement
below zero shows. An unsigned value is positive exactly when it is not zero. -/
structure GenericRWLockImpl (Id : Type) where
  canRead : Bool
  numReaders : Int
  numWriters : Int
  lockerInfo : IdMap Id

inductive Condition where
  | waitingWriters
  | waitingReaders
  deriving DecidableEq

inductive Call (Id : Type) where
  | acquireReadLock (id : Id)
  | acquireWriteLock (id : Id)
  | releaseReadLock (id : Id)
  | releaseWriteLock (id : Id)
  deriving DecidableEq

def Call.id {Id : Type} : Call Id → Id
  | .acquireReadLock id | .acquireWriteLock id | .releaseReadLock id | .releaseWriteLock id => id

/-- The three loops of the class: a new reader, an upgrading reader, and a new writer wait. -/
inductive Point where
  | newReader
  | upgrade
  | newWriter
  deriving DecidableEq

/-- A call returns, throws, fails a `BLOCXX_ASSERT`, or writes through a dead reference. -/
inductive Result where
  | returned
  | timeoutException (message : String)
  | deadlockException (message : String)
  | genericRWLockImplException (message : String)
  | assertionException
  | danglingReference
  deriving DecidableEq

abbrev LockSection (Id : Type) := Section (GenericRWLockImpl Id) Result Point Condition

namespace GenericRWLockImpl

variable {Id : Type} [DecidableEq Id]

/-- The constructor. -/
def new : GenericRWLockImpl Id := ⟨true, 0, 0, ∅⟩

/-- A section that ends its call and sends no notice. -/
def finish (lock : GenericRWLockImpl Id) (result : Result) : LockSection Id :=
  ⟨lock, [], .finish result⟩

/-- The loop test of a new reader and the code after the loop. -/
def readerLoop (id : Id) (lock : GenericRWLockImpl Id) : LockSection Id :=
  if lock.canRead = false ∨ lock.numWriters ≠ 0 then
    ⟨lock, [], .wait .waitingReaders true .newReader⟩
  else
    finish { lock with
      lockerInfo := lock.lockerInfo.insertNew id ⟨1, 0⟩
      numReaders := lock.numReaders + 1 } .returned

def acquireReadLock (id : Id) (lock : GenericRWLockImpl Id) : LockSection Id :=
  match lock.lockerInfo.lookup id with
  | some ti =>
      if ti.isReader ∨ ti.isWriter then
        finish { lock with
          lockerInfo := lock.lockerInfo.insert id ⟨ti.readCount + 1, ti.writeCount⟩ } .returned
      else finish lock .assertionException
  | none => readerLoop id lock

def readerTimeout (lock : GenericRWLockImpl Id) : LockSection Id :=
  finish lock (.timeoutException "Timeout while waiting for read lock.")

def releaseReadLock (id : Id) (lock : GenericRWLockImpl Id) : LockSection Id :=
  match lock.lockerInfo.lookup id with
  | none => finish lock
      (.genericRWLockImplException "Cannot release a read lock when no read lock is held")
  | some info =>
      if info.isReader then
        let left : LockerInfo := ⟨info.readCount - 1, info.writeCount⟩
        if ¬ left.isWriter ∧ ¬ left.isReader then
          ⟨{ lock with
              numReaders := lock.numReaders - 1
              lockerInfo := lock.lockerInfo.erase id },
            if lock.numReaders - 1 = 0 then [.all .waitingWriters] else [], .finish .returned⟩
        else
          finish { lock with lockerInfo := lock.lockerInfo.insert id left } .returned
      else finish lock
        (.genericRWLockImplException "Cannot release a read lock when no read lock is held")

/-- The loop test of an upgrading reader and the increment of its write count after the loop.
The increment goes through a reference that was taken before the wait. -/
def upgradeLoop (id : Id) (lock : GenericRWLockImpl Id) : LockSection Id :=
  if lock.numReaders ≠ 0 then
    ⟨{ lock with canRead := false }, [], .wait .waitingWriters true .upgrade⟩
  else
    match lock.lockerInfo.lookup id with
    | some ti => finish { lock with
        lockerInfo := lock.lockerInfo.insert id ⟨ti.readCount, ti.writeCount + 1⟩ } .returned
    | none => finish lock .danglingReference

def upgradeTimeout (lock : GenericRWLockImpl Id) : LockSection Id :=
  ⟨{ lock with
      numReaders := lock.numReaders + 1
      numWriters := lock.numWriters - 1
      canRead := true },
    if lock.numWriters - 1 = 0 then [.all .waitingReaders] else [],
    .finish (.timeoutException "Timeout while waiting for write lock.")⟩

/-- The loop test of a new writer and the code after the loop. -/
def writerLoop (id : Id) (lock : GenericRWLockImpl Id) : LockSection Id :=
  if lock.numReaders ≠ 0 ∨ lock.numWriters ≠ 0 then
    ⟨{ lock with canRead := false }, [], .wait .waitingWriters true .newWriter⟩
  else
    finish { lock with
      lockerInfo := lock.lockerInfo.insertNew id ⟨0, 1⟩
      numWriters := lock.numWriters + 1
      canRead := false } .returned

def writerTimeout (lock : GenericRWLockImpl Id) : LockSection Id :=
  ⟨{ lock with canRead := true },
    if lock.numWriters = 0 then [.all .waitingReaders] else [],
    .finish (.timeoutException "Timeout while waiting for write lock.")⟩

def acquireWriteLock (id : Id) (lock : GenericRWLockImpl Id) : LockSection Id :=
  match lock.lockerInfo.lookup id with
  | some ti =>
      if ¬ (ti.isReader ∨ ti.isWriter) then finish lock .assertionException
      else if ti.isWriter then
        finish { lock with
          lockerInfo := lock.lockerInfo.insert id ⟨ti.readCount, ti.writeCount + 1⟩ } .returned
      else if ¬ (lock.numWriters = 0 ∨ lock.numWriters = 1) then finish lock .assertionException
      else if lock.numWriters = 1 then
        finish lock (.deadlockException
          "Upgrading read lock to a write lock failed, another upgrade is already in progress.")
      else
        upgradeLoop id { lock with
          numReaders := lock.numReaders - 1
          numWriters := lock.numWriters + 1 }
  | none => writerLoop id lock

def releaseWriteLock (id : Id) (lock : GenericRWLockImpl Id) : LockSection Id :=
  match lock.lockerInfo.lookup id with
  | none => finish lock
      (.genericRWLockImplException "Cannot release a write lock when no write lock is held")
  | some ti =>
      if ti.isWriter then
        let left : LockerInfo := ⟨ti.readCount, ti.writeCount - 1⟩
        let info := lock.lockerInfo.insert id left
        if left.isWriter then finish { lock with lockerInfo := info } .returned
        else if lock.numWriters - 1 ≠ 0 then
          finish { lock with lockerInfo := info, numWriters := lock.numWriters - 1 }
            .assertionException
        else if left.isReader then
          ⟨{ canRead := true
             numReaders := lock.numReaders + 1
             numWriters := lock.numWriters - 1
             lockerInfo := info }, [.all .waitingReaders], .finish .returned⟩
        else
          ⟨{ lock with
              canRead := true
              numWriters := lock.numWriters - 1
              lockerInfo := lock.lockerInfo.erase id },
            [.one .waitingWriters, .all .waitingReaders], .finish .returned⟩
      else finish lock
        (.genericRWLockImplException "Cannot release a write lock when no write lock is held")

/-- The first section of each member function. -/
def enter : Call Id → GenericRWLockImpl Id → LockSection Id
  | .acquireReadLock id => acquireReadLock id
  | .acquireWriteLock id => acquireWriteLock id
  | .releaseReadLock id => releaseReadLock id
  | .releaseWriteLock id => releaseWriteLock id

/-- The section after `timedWait`. A false answer means that the wait timed out. -/
def resume (call : Call Id) : Point → Bool → GenericRWLockImpl Id → LockSection Id
  | .newReader, true => readerLoop call.id
  | .newReader, false => readerTimeout
  | .upgrade, true => upgradeLoop call.id
  | .upgrade, false => upgradeTimeout
  | .newWriter, true => writerLoop call.id
  | .newWriter, false => writerTimeout

def program : Program (GenericRWLockImpl Id) (Call Id) Result Point Condition := ⟨enter, resume⟩

end GenericRWLockImpl

end Blocxx.RWLock
