import Blocxx.RWLock.Invariant

/-!
This file proves that each move of the lock keeps the invariant.
-/

namespace Blocxx.RWLock
open Library.Monitor

variable {Thread Id : Type} [DecidableEq Id]

/-- A set that gains one id gains one member. -/
theorem card_of_gain {before after : Finset Id} (id : Id)
    (agree : ∀ other, other ≠ id → (other ∈ after ↔ other ∈ before))
    (absent : id ∉ before) (present : id ∈ after) : after.card = before.card + 1 := by
  have equal : after = insert id before := by
    ext other
    by_cases same : other = id
    · simp [same, present]
    · simp [same, agree other same]
  rw [equal, Finset.card_insert_of_notMem absent]

/-- After an insertion the id is a writer by its new counts, and the others stay as they were. -/
theorem IdMap.writer_insert (map : IdMap Id) (id other : Id) (counts : LockerInfo) :
    (∃ info, (Finmap.insert id counts map).lookup other = some info ∧ info.isWriter) ↔
      other = id ∧ counts.isWriter ∨
        other ≠ id ∧ ∃ info, map.lookup other = some info ∧ info.isWriter := by
  rw [IdMap.lookup_insert]
  by_cases same : other = id
  · simp [same]
  · simp [same]

theorem IdMap.writer_erase (map : IdMap Id) (id other : Id) :
    (∃ info, (Finmap.erase id map).lookup other = some info ∧ info.isWriter) ↔
      other ≠ id ∧ ∃ info, map.lookup other = some info ∧ info.isWriter := by
  rw [IdMap.lookup_erase]
  by_cases same : other = id
  · simp [same]
  · simp [same]

namespace GenericRWLockImpl

variable [DecidableEq Thread] {lock : GenericRWLockImpl Id} {position : Position Thread Id}
  {slot : WriterSlot Thread Id} {thread : Thread} {next : Option (Call Id × Point)} {id : Id}
  {lost : Nat}

omit [DecidableEq Id] in
theorem placed_update
    (before : ∀ thread call point, position thread = some (call, point) → Placed call point)
    (placed : ∀ call point, next = some (call, point) → Placed call point) :
    ∀ other call point, Function.update position thread next other = some (call, point) →
      Placed call point := by
  intro other call point stands
  by_cases same : other = thread
  · subst same
    exact placed call point (by simpa using stands)
  · exact before other call point (by simpa [Function.update_of_ne same] using stands)

omit [DecidableEq Id] in
/-- The slot of the upgrader does not change while the thread neither starts nor ends an upgrade. -/
theorem upgrades_update
    (before : ∀ thread id,
      position thread = some (.acquireWriteLock id, .upgrade) ↔ slot = .upgrading thread id)
    (same : ∀ id, next = some (.acquireWriteLock id, .upgrade) ↔
      position thread = some (.acquireWriteLock id, .upgrade)) :
    ∀ other id, Function.update position thread next other = some (.acquireWriteLock id, .upgrade) ↔
      slot = .upgrading other id := by
  intro other id
  by_cases equal : other = thread
  · subst equal
    rw [Function.update_self, same, before]
  · rw [Function.update_of_ne equal, before]

/-- A section that only waits, refuses, or changes `canRead` keeps the invariant. -/
theorem Consistent.stay (consistent : lock.Consistent position slot lost) (canRead : Bool)
    (placed : ∀ call point, next = some (call, point) → Placed call point)
    (same : ∀ id, next = some (.acquireWriteLock id, .upgrade) ↔
      position thread = some (.acquireWriteLock id, .upgrade)) :
    Consistent { lock with canRead := canRead } (Function.update position thread next) slot
      lost where
  placed := placed_update consistent.placed placed
  entry := consistent.entry
  upgrades := upgrades_update consistent.upgrades same
  upgraderReads := consistent.upgraderReads
  writes := consistent.writes
  oneWriter := consistent.oneWriter
  readers := consistent.readers
  alone := consistent.alone

/-- New counts that keep an id a writer, or keep it a reader, keep the invariant. -/
theorem Consistent.recount (consistent : lock.Consistent position slot lost)
    (idle : position thread = none) {info counts : LockerInfo}
    (found : lock.lockerInfo.lookup id = some info)
    (held : counts.isReader ∨ counts.isWriter) (sameWriter : counts.isWriter ↔ info.isWriter)
    (upgraderReads : ∀ other, slot = .upgrading other id → counts.isReader) :
    Consistent { lock with lockerInfo := lock.lockerInfo.insert id counts }
      (Function.update position thread none) slot lost where
  placed := placed_update consistent.placed (by simp)
  entry := by
    have before := consistent.entry
    grind
  upgrades := upgrades_update consistent.upgrades (by simp [idle])
  upgraderReads := by
    have before := consistent.upgraderReads
    grind [holdsRead]
  writes := by
    have before := consistent.writes
    simp only [holdsWrite] at before ⊢
    grind
  oneWriter := consistent.oneWriter
  readers := by
    have equal : plainReaders { lock with lockerInfo := lock.lockerInfo.insert id counts } slot =
        lock.plainReaders slot := by
      ext other
      grind [mem_plainReaders]
    rw [equal]
    exact consistent.readers
  alone := consistent.alone

omit [DecidableEq Thread] in
theorem Consistent.free_of_numWriters (consistent : lock.Consistent position slot lost)
    (noWriter : lock.numWriters = 0) : slot = .free := by
  have one := consistent.oneWriter
  cases slot with
  | free => rfl
  | upgrading thread id => simp [WriterSlot.count, noWriter] at one
  | writing id => simp [WriterSlot.count, noWriter] at one

omit [DecidableEq Thread] in
/-- Without readers and without a writer there is no entry at all. -/
theorem Consistent.empty (consistent : lock.Consistent position slot lost)
    (noReader : lock.numReaders = 0) (noWriter : lock.numWriters = 0) (id : Id) :
    lock.lockerInfo.lookup id = none := by
  have free := consistent.free_of_numWriters noWriter
  have readers := consistent.readers
  rw [noReader] at readers
  have none : lock.plainReaders slot = ∅ := by
    apply Finset.card_eq_zero.mp
    omega
  by_contra present
  have member : id ∈ lock.plainReaders slot :=
    mem_plainReaders.mpr ⟨present, by simp [free, WriterSlot.owner]⟩
  simp [none] at member

/-- A new reader that finds the entry of its id there raises the counter alone. -/
theorem Consistent.readGrant_old (consistent : lock.Consistent position slot lost)
    (noUpgrade : ∀ other, position thread ≠ some (.acquireWriteLock other, .upgrade))
    (noWriter : lock.numWriters = 0) :
    Consistent { lock with numReaders := lock.numReaders + 1 }
      (Function.update position thread none) slot (lost + 1) where
  placed := placed_update consistent.placed (by simp)
  entry := consistent.entry
  upgrades := upgrades_update consistent.upgrades (by simp [noUpgrade])
  upgraderReads := consistent.upgraderReads
  writes := consistent.writes
  oneWriter := consistent.oneWriter
  readers := by
    have readers := consistent.readers
    change lock.numReaders + 1 = (lock.plainReaders slot).card + (lost + 1 : Nat)
    omega
  alone := by
    have free := consistent.free_of_numWriters noWriter
    simp [free]

/-- A new reader without an entry becomes a plain reader. -/
theorem Consistent.readGrant_new (consistent : lock.Consistent position slot lost)
    (noUpgrade : ∀ other, position thread ≠ some (.acquireWriteLock other, .upgrade))
    (noWriter : lock.numWriters = 0) (missing : lock.lockerInfo.lookup id = none) :
    Consistent { lock with
        lockerInfo := lock.lockerInfo.insert id ⟨1, 0⟩
        numReaders := lock.numReaders + 1 } (Function.update position thread none) slot lost := by
  obtain rfl := consistent.free_of_numWriters noWriter
  exact {
    placed := placed_update consistent.placed (by simp)
    entry := by
      have before := consistent.entry
      grind [LockerInfo.isReader]
    upgrades := upgrades_update consistent.upgrades (by simp [noUpgrade])
    upgraderReads := by simp
    writes := by
      have before := consistent.writes
      simp only [holdsWrite] at before ⊢
      grind [LockerInfo.isWriter]
    oneWriter := consistent.oneWriter
    readers := by
      have readers := consistent.readers
      have gain : (plainReaders { lock with
          lockerInfo := lock.lockerInfo.insert id ⟨1, 0⟩
          numReaders := lock.numReaders + 1 } (.free : WriterSlot Thread Id)).card =
          (lock.plainReaders (.free : WriterSlot Thread Id)).card + 1 := by
        apply card_of_gain id <;> grind [mem_plainReaders, WriterSlot.owner]
      dsimp only
      omega
    alone := by simp }

/-- The last read lock of a plain reader goes away with its entry. -/
theorem Consistent.readLeave (consistent : lock.Consistent position slot lost)
    (idle : position thread = none) (found : lock.lockerInfo.lookup id = some ⟨1, 0⟩)
    (noUpgrade : ∀ other, slot ≠ .upgrading other id) :
    Consistent { lock with
        numReaders := lock.numReaders - 1
        lockerInfo := lock.lockerInfo.erase id }
      (Function.update position thread none) slot lost := by
  have notWriting : slot ≠ .writing id := by
    intro writing
    obtain ⟨info, same, writer⟩ := (consistent.writes id).mpr writing
    rw [found] at same
    obtain rfl := Option.some.inj same
    exact absurd writer (by simp [LockerInfo.isWriter])
  have notOwner : slot.owner ≠ some id := by
    cases slot <;> simp_all [WriterSlot.owner]
  have lose : (lock.plainReaders slot).card = (plainReaders { lock with
      numReaders := lock.numReaders - 1
      lockerInfo := lock.lockerInfo.erase id } slot).card + 1 := by
    apply card_of_gain id <;> grind [mem_plainReaders]
  exact {
    placed := placed_update consistent.placed (by simp)
    entry := by
      have before := consistent.entry
      grind
    upgrades := upgrades_update consistent.upgrades (by simp [idle])
    upgraderReads := by
      have before := consistent.upgraderReads
      grind [holdsRead]
    writes := by
      have before := consistent.writes
      simp only [holdsWrite] at before ⊢
      grind
    oneWriter := consistent.oneWriter
    readers := by
      have readers := consistent.readers
      dsimp only
      omega
    alone := by
      intro other writing
      have zero := consistent.alone other writing
      have readers := consistent.readers
      omega }

/-- A plain reader that starts an upgrade takes the free slot. -/
theorem Consistent.upgradeStart (consistent : lock.Consistent position slot lost) {readCount : Nat}
    (found : lock.lockerInfo.lookup id = some ⟨readCount + 1, 0⟩) (noWriter : lock.numWriters = 0) :
    Consistent { lock with
        numReaders := lock.numReaders - 1
        numWriters := lock.numWriters + 1
        canRead := false }
      (Function.update position thread (some (.acquireWriteLock id, .upgrade)))
      (.upgrading thread id) lost := by
  obtain rfl := consistent.free_of_numWriters noWriter
  have lose : (lock.plainReaders (.free : WriterSlot Thread Id)).card = (plainReaders { lock with
      numReaders := lock.numReaders - 1
      numWriters := lock.numWriters + 1
      canRead := false } (.upgrading thread id)).card + 1 := by
    apply card_of_gain id <;> grind [mem_plainReaders, WriterSlot.owner]
  exact {
    placed := placed_update consistent.placed (by rintro _ _ ⟨⟩; exact trivial)
    entry := consistent.entry
    upgrades := by
      have before := consistent.upgrades
      grind [Function.update]
    upgraderReads := by
      rintro other reader ⟨⟩
      exact ⟨_, found, Nat.succ_pos readCount⟩
    writes := by
      have before := consistent.writes
      simp only [holdsWrite] at before ⊢
      simp [before]
    oneWriter := by simp [noWriter, WriterSlot.count]
    readers := by
      have readers := consistent.readers
      dsimp only
      omega
    alone := by simp }

/-- A plain reader that is alone becomes the writer at once. -/
theorem Consistent.upgradeNow (consistent : lock.Consistent position slot lost) {readCount : Nat}
    (found : lock.lockerInfo.lookup id = some ⟨readCount + 1, 0⟩) (noWriter : lock.numWriters = 0)
    (alone : lock.numReaders - 1 = 0) :
    Consistent { lock with
        numReaders := lock.numReaders - 1
        numWriters := lock.numWriters + 1
        lockerInfo := lock.lockerInfo.insert id ⟨readCount + 1, 1⟩ }
      (Function.update position thread none) (.writing id) lost := by
  obtain rfl := consistent.free_of_numWriters noWriter
  have lose : (lock.plainReaders (.free : WriterSlot Thread Id)).card = (plainReaders { lock with
      numReaders := lock.numReaders - 1
      numWriters := lock.numWriters + 1
      lockerInfo := lock.lockerInfo.insert id ⟨readCount + 1, 1⟩ }
        (.writing id : WriterSlot Thread Id)).card + 1 := by
    apply card_of_gain id <;> grind [mem_plainReaders, WriterSlot.owner]
  exact {
    placed := placed_update consistent.placed (by simp)
    entry := by
      have before := consistent.entry
      grind [LockerInfo.isReader]
    upgrades := by
      have before := consistent.upgrades
      grind [Function.update]
    upgraderReads := by simp
    writes := by
      have before := consistent.writes
      simp only [holdsWrite] at before ⊢
      grind [LockerInfo.isWriter]
    oneWriter := by simp [noWriter, WriterSlot.count]
    readers := by
      have readers := consistent.readers
      dsimp only
      omega
    alone := fun _ _ => alone }

/-- The upgrader that is alone becomes the writer. -/
theorem Consistent.upgradeDone (consistent : lock.Consistent position slot lost)
    (stands : position thread = some (.acquireWriteLock id, .upgrade)) {info : LockerInfo}
    (found : lock.lockerInfo.lookup id = some info) (alone : lock.numReaders = 0) :
    Consistent { lock with
        lockerInfo := lock.lockerInfo.insert id ⟨info.readCount, info.writeCount + 1⟩ }
      (Function.update position thread none) (.writing id) lost := by
  obtain rfl := (consistent.upgrades thread id).mp stands
  have equal : plainReaders { lock with
      lockerInfo := lock.lockerInfo.insert id ⟨info.readCount, info.writeCount + 1⟩ }
        (.writing id : WriterSlot Thread Id) = lock.plainReaders (.upgrading thread id) := by
    ext other
    grind [mem_plainReaders, WriterSlot.owner]
  exact {
    placed := placed_update consistent.placed (by simp)
    entry := by
      have before := consistent.entry
      grind [LockerInfo.isWriter]
    upgrades := by
      have before := consistent.upgrades
      grind [Function.update]
    upgraderReads := by simp
    writes := by
      have before := consistent.writes
      simp only [holdsWrite] at before ⊢
      grind [LockerInfo.isWriter]
    oneWriter := consistent.oneWriter
    readers := by
      rw [equal]
      exact consistent.readers
    alone := fun _ _ => alone }

/-- The upgrader that gives up is a plain reader again. -/
theorem Consistent.upgradeTimeout (consistent : lock.Consistent position slot lost)
    (stands : position thread = some (.acquireWriteLock id, .upgrade)) :
    Consistent { lock with
        numReaders := lock.numReaders + 1
        numWriters := lock.numWriters - 1
        canRead := true } (Function.update position thread none)
      (.free : WriterSlot Thread Id) lost := by
  obtain rfl := (consistent.upgrades thread id).mp stands
  obtain ⟨info, found, _⟩ := consistent.upgraderReads thread id rfl
  have gain : (plainReaders { lock with
      numReaders := lock.numReaders + 1
      numWriters := lock.numWriters - 1
      canRead := true } (.free : WriterSlot Thread Id)).card =
      (lock.plainReaders (.upgrading thread id)).card + 1 := by
    apply card_of_gain id <;> grind [mem_plainReaders, WriterSlot.owner]
  exact {
    placed := placed_update consistent.placed (by simp)
    entry := consistent.entry
    upgrades := by
      have before := consistent.upgrades
      grind [Function.update]
    upgraderReads := by simp
    writes := by
      have before := consistent.writes
      simp only [holdsWrite] at before ⊢
      simp [before]
    oneWriter := by
      have one := consistent.oneWriter
      simp only [WriterSlot.count] at one ⊢
      omega
    readers := by
      have readers := consistent.readers
      dsimp only
      omega
    alone := by simp }

/-- A new writer takes the free slot of an empty lock. -/
theorem Consistent.writeGrant (consistent : lock.Consistent position slot lost)
    (noReader : lock.numReaders = 0) (noWriter : lock.numWriters = 0) :
    Consistent { lock with
        lockerInfo := lock.lockerInfo.insertNew id ⟨0, 1⟩
        numWriters := lock.numWriters + 1
        canRead := false } (Function.update position thread none)
      (.writing id : WriterSlot Thread Id) lost := by
  have empty := consistent.empty noReader noWriter
  obtain rfl := consistent.free_of_numWriters noWriter
  simp only [IdMap.insertNew, empty id]
  exact {
    placed := placed_update consistent.placed (by simp)
    entry := by
      have before := consistent.entry
      grind [LockerInfo.isWriter]
    upgrades := by
      have before := consistent.upgrades
      grind [Function.update]
    upgraderReads := by simp
    writes := by
      intro other
      rw [holdsWrite, IdMap.writer_insert]
      simp [empty, LockerInfo.isWriter, eq_comm]
    oneWriter := by simp [noWriter, WriterSlot.count]
    readers := by
      have none : plainReaders { lock with
          lockerInfo := lock.lockerInfo.insert id ⟨0, 1⟩
          numWriters := lock.numWriters + 1
          canRead := false } (.writing id : WriterSlot Thread Id) = ∅ := by
        ext other
        grind [mem_plainReaders, WriterSlot.owner]
      have readers := consistent.readers
      rw [noReader] at readers
      rw [none, Finset.card_empty]
      dsimp only
      omega
    alone := fun _ _ => noReader }

/-- The writer that keeps a read lock is a plain reader again. -/
theorem Consistent.downgrade (consistent : lock.Consistent position slot lost) {readCount : Nat}
    (found : lock.lockerInfo.lookup id = some ⟨readCount + 1, 1⟩) (one : lock.numWriters = 1) :
    Consistent
      { canRead := true
        numReaders := lock.numReaders + 1
        numWriters := lock.numWriters - 1
        lockerInfo := lock.lockerInfo.insert id ⟨readCount + 1, 0⟩ }
      (Function.update position thread none)
      (.free : WriterSlot Thread Id) lost := by
  obtain rfl := (consistent.writes id).mp ⟨_, found, Nat.one_pos⟩
  have gain : (plainReaders
      { canRead := true
        numReaders := lock.numReaders + 1
        numWriters := lock.numWriters - 1
        lockerInfo := lock.lockerInfo.insert id ⟨readCount + 1, 0⟩ }
        (.free : WriterSlot Thread Id)).card =
      (lock.plainReaders (.writing id : WriterSlot Thread Id)).card + 1 := by
    apply card_of_gain id <;> grind [mem_plainReaders, WriterSlot.owner]
  exact {
    placed := placed_update consistent.placed (by simp)
    entry := by
      have before := consistent.entry
      grind [LockerInfo.isReader]
    upgrades := by
      have before := consistent.upgrades
      grind [Function.update]
    upgraderReads := by simp
    writes := by
      intro other
      have before := consistent.writes other
      simp only [holdsWrite] at before
      rw [holdsWrite, IdMap.writer_insert, before]
      simp [LockerInfo.isWriter, eq_comm]
    oneWriter := by simp [one, WriterSlot.count]
    readers := by
      have readers := consistent.readers
      dsimp only
      omega
    alone := by simp }

/-- The writer without a read lock leaves no entry. -/
theorem Consistent.writeLeave (consistent : lock.Consistent position slot lost)
    (found : lock.lockerInfo.lookup id = some ⟨0, 1⟩)
    (one : lock.numWriters = 1) :
    Consistent { lock with
        canRead := true
        numWriters := lock.numWriters - 1
        lockerInfo := lock.lockerInfo.erase id } (Function.update position thread none)
      (.free : WriterSlot Thread Id) lost := by
  obtain rfl := (consistent.writes id).mp ⟨_, found, Nat.one_pos⟩
  have equal : plainReaders { lock with
      canRead := true
      numWriters := lock.numWriters - 1
      lockerInfo := lock.lockerInfo.erase id } (.free : WriterSlot Thread Id) =
      lock.plainReaders (.writing id : WriterSlot Thread Id) := by
    ext other
    grind [mem_plainReaders, WriterSlot.owner]
  exact {
    placed := placed_update consistent.placed (by simp)
    entry := by
      have before := consistent.entry
      grind
    upgrades := by
      have before := consistent.upgrades
      grind [Function.update]
    upgraderReads := by simp
    writes := by
      intro other
      have before := consistent.writes other
      simp only [holdsWrite] at before
      rw [holdsWrite, IdMap.writer_erase, before]
      simp [eq_comm]
    oneWriter := by simp [one, WriterSlot.count]
    readers := by
      rw [equal]
      exact consistent.readers
    alone := by simp }

/-- The call releases the last read lock of an id whose upgrade is in progress. -/
def DropsUpgrader (lock : GenericRWLockImpl Id) (position : Position Thread Id) (call : Call Id) :
    Prop :=
  ∃ id, call = .releaseReadLock id ∧ lock.lockerInfo.lookup id = some ⟨1, 0⟩ ∧
    ∃ thread, position thread = some (.acquireWriteLock id, .upgrade)

/-- A new reader that finds an entry of its id raises the counter but no read count. -/
def lostRead (lock : GenericRWLockImpl Id) (id : Id) (point : Option Point)
    (ran : LockSection Id) : Nat :=
  if point = some .newReader ∧ (lock.lockerInfo.lookup id).isSome ∧ ran.next = .finish .returned
  then 1 else 0

theorem lostRead_eq_zero {point : Option Point} {ran : LockSection Id}
    (other : point ≠ some .newReader ∨ ran.next ≠ .finish .returned) :
    lock.lostRead id point ran = 0 := by
  rw [lostRead, if_neg]
  rintro ⟨new, _, returned⟩
  exact other.elim (absurd new) (absurd returned)

omit [DecidableEq Thread] in
theorem Consistent.not_upgrading (consistent : lock.Consistent position slot lost)
    {info : LockerInfo} (found : lock.lockerInfo.lookup id = some info) (writer : info.isWriter)
    (other : Thread) : slot ≠ .upgrading other id := by
  intro upgrading
  have writing := (consistent.writes id).mp ⟨info, found, writer⟩
  rw [upgrading] at writing
  cases writing

/-- Each move keeps the invariant, unless it takes the entry of an upgrader away. -/
theorem Move.consistent (consistent : lock.Consistent position slot lost) {call : Call Id}
    {point : Option Point} {ran : LockSection Id} (move : Move id lock call point ran)
    (stands : position thread = point.map fun point => (call, point))
    (safe : ¬ DropsUpgrader lock position call) :
    ∃ slot : WriterSlot Thread Id,
      ran.shared.Consistent (Function.update position thread (ran.next.position call)) slot
        (lost + lock.lostRead id point ran) := by
  cases move with
  | @refuse call point result noWriter answer =>
      rw [lostRead_eq_zero (.inr fun same => answer.1 (Next.finish.inj same))]
      refine ⟨slot, consistent.stay lock.canRead ?_ ?_⟩
      · simp [Next.position]
      · intro id
        rw [stands]
        cases point <;> simp_all [Next.position]
  | readAgain found =>
      rw [lostRead_eq_zero (.inl (by simp))]
      exact ⟨slot, consistent.recount stands found (.inl (Nat.succ_pos _)) Iff.rfl
        fun _ _ => Nat.succ_pos _⟩
  | readWait start closed =>
      rw [lostRead_eq_zero (.inr (by simp))]
      refine ⟨slot, consistent.stay lock.canRead ?_ ?_⟩
      · rintro _ _ ⟨⟩
        exact trivial
      · intro id
        rcases start with ⟨rfl, _⟩ | rfl <;> simp [stands, Next.position]
  | readGrant start canRead noWriter =>
      have noUpgrade (other : Id) : position thread ≠ some (.acquireWriteLock other, .upgrade) := by
        rw [stands]
        rcases start with ⟨rfl, _⟩ | rfl <;> simp
      refine ⟨slot, ?_⟩
      cases found : lock.lockerInfo.lookup id with
      | some info =>
          have waited := start.resolve_left fun fresh => by simp [found] at fresh
          rw [lostRead, if_pos ⟨waited, by rw [found]; rfl, rfl⟩]
          simp only [IdMap.insertNew, found]
          exact consistent.readGrant_old noUpgrade noWriter
      | none =>
          rw [lostRead, if_neg (by simp [found])]
          simp only [IdMap.insertNew, found]
          exact consistent.readGrant_new noUpgrade noWriter found
  | @readRelease info found kept =>
      rw [lostRead_eq_zero (.inl (by simp))]
      refine ⟨slot, consistent.recount stands found ?_ Iff.rfl ?_⟩
      · rcases kept with more | ⟨_, writer⟩
        · exact .inl (Nat.sub_pos_of_lt more)
        · exact .inr writer
      · intro other upgrading
        rcases kept with more | ⟨_, writer⟩
        · exact Nat.sub_pos_of_lt more
        · exact absurd upgrading (consistent.not_upgrading found writer other)
  | readLeave found =>
      rw [lostRead_eq_zero (.inl (by simp))]
      refine ⟨slot, consistent.readLeave stands found ?_⟩
      intro other upgrading
      exact safe ⟨id, rfl, found, other, (consistent.upgrades other id).mpr upgrading⟩
  | writeAgain found writer =>
      rw [lostRead_eq_zero (.inl (by simp))]
      exact ⟨slot, consistent.recount stands found (.inr (Nat.succ_pos _))
        (iff_of_true (Nat.succ_pos _) writer)
        fun other upgrading => absurd upgrading (consistent.not_upgrading found writer other)⟩
  | upgradeStart found noWriter others =>
      rw [lostRead_eq_zero (.inl (by simp))]
      exact ⟨_, consistent.upgradeStart found noWriter⟩
  | upgradeNow found noWriter alone =>
      rw [lostRead_eq_zero (.inl (by simp))]
      exact ⟨_, consistent.upgradeNow found noWriter alone⟩
  | upgradeWait others =>
      rw [lostRead_eq_zero (.inl (by simp))]
      refine ⟨slot, consistent.stay _ ?_ ?_⟩
      · rintro _ _ ⟨⟩
        exact trivial
      · intro other
        simp [stands, Next.position]
  | upgradeDone found alone =>
      rw [lostRead_eq_zero (.inl (by simp))]
      exact ⟨_, consistent.upgradeDone stands found alone⟩
  | upgradeTimeout answer =>
      rw [lostRead_eq_zero (.inl (by simp))]
      exact ⟨_, consistent.upgradeTimeout stands⟩
  | writeWait start taken =>
      rw [lostRead_eq_zero (.inr (by simp))]
      refine ⟨slot, consistent.stay _ ?_ ?_⟩
      · rintro _ _ ⟨⟩
        exact trivial
      · intro other
        rcases start with rfl | rfl <;> simp [stands, Next.position]
  | writeGrant start noReader noWriter =>
      rw [lostRead_eq_zero (.inl (by rcases start with rfl | rfl <;> simp))]
      exact ⟨_, consistent.writeGrant noReader noWriter⟩
  | writeTimeout answer =>
      rw [lostRead_eq_zero (.inl (by simp))]
      refine ⟨slot, consistent.stay _ ?_ ?_⟩
      · simp [Next.position]
      · intro other
        simp [stands, Next.position]
  | writeRelease found =>
      rw [lostRead_eq_zero (.inl (by simp))]
      exact ⟨slot, consistent.recount stands found (.inr (Nat.succ_pos _))
        (iff_of_true (Nat.succ_pos _) (Nat.succ_pos _))
        fun other upgrading =>
          absurd upgrading (consistent.not_upgrading found (Nat.succ_pos _) other)⟩
  | downgrade found one =>
      rw [lostRead_eq_zero (.inl (by simp))]
      exact ⟨_, consistent.downgrade found one⟩
  | writeLeave found one =>
      rw [lostRead_eq_zero (.inl (by simp))]
      exact ⟨_, consistent.writeLeave found one⟩

omit [DecidableEq Thread] in
/-- A move touches only the entry of its own id. -/
theorem Move.frame {call : Call Id} {point : Option Point} {ran : LockSection Id}
    (move : Move id lock call point ran) {other : Id} (different : other ≠ id) :
    ran.shared.lockerInfo.lookup other = lock.lockerInfo.lookup other := by
  have insertNew (info : LockerInfo) :
      (lock.lockerInfo.insertNew id info).lookup other = lock.lockerInfo.lookup other := by
    unfold IdMap.insertNew
    split
    · rfl
    · rw [IdMap.lookup_insert, if_neg different]
  cases move <;> simp [insertNew, different]

omit [DecidableEq Thread] in
/-- No assertion fails and no dead reference is used. -/
theorem Move.result {call : Call Id} {point : Option Point} {ran : LockSection Id}
    (move : Move id lock call point ran) {result : Result} (finished : ran.next = .finish result) :
    result ≠ .assertionException ∧ result ≠ .danglingReference := by
  cases move <;> cases finished <;> simp_all

end GenericRWLockImpl

end Blocxx.RWLock
