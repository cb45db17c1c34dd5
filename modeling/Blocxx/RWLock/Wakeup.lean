import Blocxx.RWLock.Safety

/-!
This file proves that the lock forgets no waiter when each id has at most one call in progress.
-/

namespace Blocxx.RWLock
open Library Library.Monitor GenericRWLockImpl

variable {Thread Id : Type} [DecidableEq Thread] [DecidableEq Id]

/-- Readers and writers wait on their own conditions, each in its own loops. -/
inductive Waits : Call Id → Point → Condition → Bool → Prop
  | newReader (id : Id) : Waits (.acquireReadLock id) .newReader .waitingReaders true
  | upgrade (id : Id) : Waits (.acquireWriteLock id) .upgrade .waitingWriters true
  | newWriter (id : Id) : Waits (.acquireWriteLock id) .newWriter .waitingWriters true

/-- No section of the lock leaves the mutex with work to do. -/
def Leaves (_ : Call Id) (_ : Point) : Prop := False

omit [DecidableEq Id] in
theorem waits_waitingWriters {call : Call Id} {point : Point} {timed : Bool}
    (waits : Waits call point .waitingWriters timed) : ∃ id, call = .acquireWriteLock id := by
  cases waits with
  | upgrade id => exact ⟨id, rfl⟩
  | newWriter id => exact ⟨id, rfl⟩

/-- A thread is inside `acquireWriteLock`, asleep or awake. -/
def InWriteCall (state : LockState Thread Id) (thread : Thread) : Prop :=
  ∃ id point, state.position thread = some (.acquireWriteLock id, point)

namespace GenericRWLockImpl

variable {lock : GenericRWLockImpl Id} {position : Position Thread Id}
  {slot : WriterSlot Thread Id} {id : Id} {call : Call Id} {point : Option Point}
  {ran : LockSection Id}

omit [DecidableEq Thread] in
/-- A counter that is not zero belongs to an entry. -/
theorem Consistent.present (consistent : lock.Consistent position slot 0)
    (busy : lock.numReaders ≠ 0 ∨ lock.numWriters ≠ 0) :
    ∃ id, lock.lockerInfo.lookup id ≠ none := by
  have reader (id : Id) (reads : lock.holdsRead id) : ∃ id, lock.lockerInfo.lookup id ≠ none := by
    obtain ⟨info, found, _⟩ := reads
    exact ⟨id, by simp [found]⟩
  cases slot with
  | free =>
      have noWriter := consistent.oneWriter
      have readers := consistent.readers
      have some : 0 < (lock.plainReaders (.free : WriterSlot Thread Id)).card := by
        simp only [WriterSlot.count] at noWriter
        omega
      obtain ⟨id, member⟩ := Finset.card_pos.mp some
      exact ⟨id, (mem_plainReaders.mp member).1⟩
  | upgrading thread id => exact reader id (consistent.upgraderReads thread id rfl)
  | writing id =>
      obtain ⟨info, found, _⟩ := (consistent.writes id).mpr rfl
      exact ⟨id, by simp [found]⟩

theorem readerLoop_fits (lock : GenericRWLockImpl Id) (id : Id) :
    ((readerLoop id lock).next.phase (.acquireReadLock id)).Fits Waits Leaves := by
  unfold readerLoop
  split
  · exact .newReader id
  · exact trivial

theorem upgradeLoop_fits (lock : GenericRWLockImpl Id) (id : Id) :
    ((upgradeLoop id lock).next.phase (.acquireWriteLock id)).Fits Waits Leaves := by
  unfold upgradeLoop
  split
  · exact .upgrade id
  · split <;> exact trivial

theorem writerLoop_fits (lock : GenericRWLockImpl Id) (id : Id) :
    ((writerLoop id lock).next.phase (.acquireWriteLock id)).Fits Waits Leaves := by
  unfold writerLoop
  split
  · exact .newWriter id
  · exact trivial

theorem enter_fits (call : Call Id) (lock : GenericRWLockImpl Id) :
    ((enter call lock).next.phase call).Fits Waits Leaves := by
  cases call with
  | acquireReadLock id =>
      change ((acquireReadLock id lock).next.phase _).Fits Waits Leaves
      unfold acquireReadLock
      split
      · split <;> exact trivial
      · exact readerLoop_fits lock id
  | acquireWriteLock id =>
      change ((acquireWriteLock id lock).next.phase _).Fits Waits Leaves
      unfold acquireWriteLock
      split
      · split_ifs <;> first | exact trivial | exact upgradeLoop_fits _ id
      · exact writerLoop_fits lock id
  | releaseReadLock id =>
      change ((releaseReadLock id lock).next.phase _).Fits Waits Leaves
      unfold releaseReadLock
      split
      · exact trivial
      · dsimp only
        split_ifs <;> exact trivial
  | releaseWriteLock id =>
      change ((releaseWriteLock id lock).next.phase _).Fits Waits Leaves
      unfold releaseWriteLock
      split
      · exact trivial
      · dsimp only
        split_ifs <;> exact trivial

/-- The sections of the lock keep every thread where it may stand. -/
theorem program_keeps :
    (program : Program (GenericRWLockImpl Id) (Call Id) Result Point Condition).Keeps
      Waits Leaves where
  enter := enter_fits
  resume call point answer lock continues := by
    rcases continues with ⟨leaves, _⟩ | ⟨condition, timed, waits, _⟩
    · exact leaves.elim
    · cases waits with
      | newReader id =>
          cases answer with
          | true => exact readerLoop_fits lock id
          | false => exact trivial
      | upgrade id =>
          cases answer with
          | true => exact upgradeLoop_fits lock id
          | false => exact trivial
      | newWriter id =>
          cases answer with
          | true => exact writerLoop_fits lock id
          | false => exact trivial

omit [DecidableEq Thread] in
theorem insertNew_present (map : IdMap Id) (id : Id) (info : LockerInfo) :
    (map.insertNew id info).lookup id ≠ none := by
  unfold IdMap.insertNew
  cases found : map.lookup id <;> simp [found]

omit [DecidableEq Thread] in
/-- A move closes the lock to readers, wakes the readers, or leaves the gate as it was. -/
theorem Move.gate (consistent : lock.Consistent position slot 0)
    (move : Move id lock call point ran) {thread : Thread}
    (stands : position thread = point.map fun point => (call, point)) :
    ran.shared.numWriters ≠ 0 ∨
      (∃ standing, ran.next.position call = some (.acquireWriteLock id, standing)) ∨
      (ran.shared.canRead = true ∧ .all .waitingReaders ∈ ran.notices ∧
        ∃ result, ran.next = .finish result) ∨
      (ran.shared.canRead = lock.canRead ∧ ran.shared.numWriters = lock.numWriters ∧
        (point ≠ some .upgrade ∧ point ≠ some .newWriter) ∧
        ((ran.next.phase call).asleepOn .waitingReaders →
          lock.canRead = false ∨ lock.numWriters ≠ 0)) := by
  cases move with
  | refuse noWriter answer => exact .inr (.inr (.inr ⟨rfl, rfl, noWriter, False.elim⟩))
  | readAgain found => exact .inr (.inr (.inr ⟨rfl, rfl, by simp, False.elim⟩))
  | readWait start closed =>
      refine .inr (.inr (.inr ⟨rfl, rfl, ?_, fun _ => closed⟩))
      rcases start with ⟨rfl, _⟩ | rfl <;> simp
  | readGrant start canRead noWriter =>
      refine .inr (.inr (.inr ⟨rfl, rfl, ?_, False.elim⟩))
      rcases start with ⟨rfl, _⟩ | rfl <;> simp
  | readRelease found kept => exact .inr (.inr (.inr ⟨rfl, rfl, by simp, False.elim⟩))
  | readLeave found => exact .inr (.inr (.inr ⟨rfl, rfl, by simp, False.elim⟩))
  | writeAgain found writer => exact .inr (.inr (.inr ⟨rfl, rfl, by simp, False.elim⟩))
  | upgradeStart found noWriter others => exact .inr (.inl ⟨_, rfl⟩)
  | upgradeNow found noWriter alone =>
      left
      dsimp only
      omega
  | upgradeWait others => exact .inr (.inl ⟨_, rfl⟩)
  | upgradeDone found alone =>
      have upgrading := (consistent.upgrades thread id).mp stands
      have one := consistent.oneWriter
      rw [upgrading, WriterSlot.count] at one
      left
      dsimp only
      omega
  | upgradeTimeout answer =>
      by_cases last : lock.numWriters - 1 = 0
      · exact .inr (.inr (.inl ⟨rfl, by simp [last], _, rfl⟩))
      · exact .inl last
  | writeWait start taken => exact .inr (.inl ⟨_, rfl⟩)
  | writeGrant start noReader noWriter =>
      left
      dsimp only
      omega
  | writeTimeout answer =>
      by_cases noWriter : lock.numWriters = 0
      · exact .inr (.inr (.inl ⟨rfl, by simp [noWriter], _, rfl⟩))
      · exact .inl noWriter
  | writeRelease found => exact .inr (.inr (.inr ⟨rfl, rfl, by simp, False.elim⟩))
  | downgrade found one => exact .inr (.inr (.inl ⟨rfl, by simp, _, rfl⟩))
  | writeLeave found one => exact .inr (.inr (.inl ⟨rfl, by simp, _, rfl⟩))

/-- A move leaves an entry, keeps a counter up, wakes a writer, or leaves the entries as they
were. -/
theorem Move.handover (move : Move id lock call point ran) :
    (∃ other, ran.shared.lockerInfo.lookup other ≠ none) ∨
      (ran.shared.numReaders ≠ 0 ∨ ran.shared.numWriters ≠ 0) ∨
      ((.all .waitingWriters ∈ ran.notices ∨ .one .waitingWriters ∈ ran.notices) ∧
        ∃ result, ran.next = .finish result) ∨
      (ran.shared.lockerInfo = lock.lockerInfo ∧
        ¬ (ran.next.phase call).asleepOn .waitingWriters) := by
  cases move with
  | refuse noWriter answer => exact .inr (.inr (.inr ⟨rfl, False.elim⟩))
  | readAgain found => exact .inl ⟨id, by simp⟩
  | readWait start closed => exact .inr (.inr (.inr ⟨rfl, by simp [Next.phase, Phase.asleepOn]⟩))
  | readGrant start canRead noWriter => exact .inl ⟨id, insertNew_present _ _ _⟩
  | readRelease found kept => exact .inl ⟨id, by simp⟩
  | readLeave found =>
      by_cases last : lock.numReaders - 1 = 0
      · exact .inr (.inr (.inl ⟨.inl (by simp [last]), _, rfl⟩))
      · exact .inr (.inl (.inl last))
  | writeAgain found writer => exact .inl ⟨id, by simp⟩
  | upgradeStart found noWriter others => exact .inl ⟨id, by simp [found]⟩
  | upgradeNow found noWriter alone => exact .inl ⟨id, by simp⟩
  | upgradeWait others => exact .inr (.inl (.inl others))
  | upgradeDone found alone => exact .inl ⟨id, by simp⟩
  | upgradeTimeout answer => exact .inr (.inr (.inr ⟨rfl, by simp [Next.phase, Phase.asleepOn]⟩))
  | writeWait start taken => exact .inr (.inl taken)
  | writeGrant start noReader noWriter => exact .inl ⟨id, insertNew_present _ _ _⟩
  | writeTimeout answer => exact .inr (.inr (.inr ⟨rfl, by simp [Next.phase, Phase.asleepOn]⟩))
  | writeRelease found => exact .inl ⟨id, by simp⟩
  | downgrade found one => exact .inl ⟨id, by simp⟩
  | writeLeave found one => exact .inr (.inr (.inl ⟨.inr (by simp), _, rfl⟩))

omit [DecidableEq Thread] in
/-- A writer that was notified finds the lock held or takes it. -/
theorem resume_notified (consistent : lock.Consistent position slot 0) {thread : Thread}
    {point : Point} (stands : position thread = some (call, point)) {timed : Bool}
    (waits : Waits call point .waitingWriters timed) :
    ∃ other, (resume call point true lock).shared.lockerInfo.lookup other ≠ none := by
  cases waits with
  | upgrade id =>
      have upgrading := (consistent.upgrades thread id).mp stands
      obtain ⟨info, found, _⟩ := consistent.upgraderReads thread id upgrading
      refine ⟨id, ?_⟩
      change (upgradeLoop id lock).shared.lockerInfo.lookup id ≠ none
      unfold upgradeLoop
      split
      · simp [found]
      · simp [found, finish]
  | newWriter id =>
      change ∃ other, (writerLoop id lock).shared.lockerInfo.lookup other ≠ none
      unfold writerLoop
      split
      next taken => exact consistent.present taken
      next => exact ⟨id, insertNew_present _ _ _⟩

end GenericRWLockImpl

/-- No waiter is forgotten. This is the invariant behind the two conditions of the lock. -/
structure Attended (state : LockState Thread Id) : Prop where
  fits : ∀ thread, (state.phase thread).Fits Waits Leaves
  gate : (state.shared.canRead = false ∨ ∃ thread, (state.phase thread).asleepOn .waitingReaders) →
    state.shared.numWriters ≠ 0 ∨ ∃ thread, InWriteCall state thread
  writers : (∃ thread, (state.phase thread).asleepOn .waitingWriters) →
    (∃ id, state.shared.lockerInfo.lookup id ≠ none) ∨
      ∃ thread, (state.phase thread).notifiedOn .waitingWriters

section Attended

variable {state next : LockState Thread Id} {label : Label Thread (Call Id)} {thread : Thread}
  {call : Call Id} {ran : LockSection Id} {slot : WriterSlot Thread Id}
  {phase : Thread → Phase (Call Id) Point Condition}

/-- A section leaves the gate open, or somebody is there to open it. -/
theorem Attended.ran_gate (attended : Attended state) (serial : Serial state slot)
    (turn : Turn program state label thread call ran)
    (delivered : Delivered ran.notices state.phase phase)
    (closed : ran.shared.canRead = false ∨
      ∃ other, ((state.ran thread call ran phase).phase other).asleepOn .waitingReaders) :
    ran.shared.numWriters ≠ 0 ∨ ∃ other, InWriteCall (state.ran thread call ran phase) other := by
  have positions : (state.ran thread call ran phase).position =
      Function.update state.position thread (ran.next.position call) :=
    State.ran_position delivered
  obtain ⟨point, stands, _, move⟩ := turn_move serial.consistent turn
  rcases move.gate serial.consistent stands with writer | inside | ⟨canRead, sent, result, finish⟩ |
    ⟨canRead, numWriters, outside, waits⟩
  · exact .inl writer
  · obtain ⟨standing, goes⟩ := inside
    exact .inr ⟨thread, _, standing, by rw [positions, Function.update_self, goes]⟩
  · -- All readers were woken, and the thread that ran is idle.
    rcases closed with shut | ⟨other, asleep⟩
    · rw [canRead] at shut
      cases shut
    · by_cases same : other = thread
      · subst same
        simp [State.ran, finish, Next.phase, Phase.asleepOn] at asleep
      · exact absurd (State.ran_asleepOn delivered same asleep).2 (delivered.all_awake sent other)
  · have before : state.shared.numWriters ≠ 0 ∨ ∃ other, InWriteCall state other := by
      rcases closed with shut | ⟨other, asleep⟩
      · exact attended.gate (.inl (by rw [← canRead, shut]))
      · by_cases same : other = thread
        · subst same
          simp only [State.ran, Function.update_self] at asleep
          rcases waits asleep with shut | writer
          · exact attended.gate (.inl shut)
          · exact .inl writer
        · exact attended.gate (.inr ⟨other, (State.ran_asleepOn delivered same asleep).1⟩)
    rcases before with writer | ⟨other, id, standing, inside⟩
    · exact .inl (by rwa [numWriters])
    · have different : other ≠ thread := by
        rintro rfl
        rw [stands] at inside
        have placed := serial.consistent.placed other
        cases point with
        | none => simp at inside
        | some point =>
            obtain ⟨rfl, rfl⟩ : call = .acquireWriteLock id ∧ point = standing := by
              simpa using inside
            have fits := placed _ _ stands
            cases point <;> simp_all [Placed]
      exact .inr ⟨other, id, standing, by rw [positions, Function.update_of_ne different, inside]⟩

omit [DecidableEq Thread] in
/-- A notified writer that runs leaves an entry behind. -/
theorem Attended.ran_notified (attended : Attended state) (serial : Serial state slot)
    (turn : Turn program state label thread call ran)
    (notified : (state.phase thread).notifiedOn .waitingWriters) :
    ∃ id, ran.shared.lockerInfo.lookup id ≠ none := by
  cases turn with
  | enter call idle =>
      rw [idle] at notified
      exact notified.elim
  | between stands =>
      rw [stands] at notified
      exact notified.elim
  | woken stands =>
      have fits := attended.fits thread
      rw [stands] at notified fits
      obtain ⟨rfl, rfl⟩ := notified
      obtain ⟨timed, waits, _⟩ := fits
      exact resume_notified serial.consistent (by rw [State.position, stands, Phase.position]) waits

/-- A section that frees the lock notifies a sleeping writer. -/
theorem Attended.ran_writers (attended : Attended state) (serial : Serial state slot)
    {after : WriterSlot Thread Id} (kept : Serial (state.ran thread call ran phase) after)
    (turn : Turn program state label thread call ran)
    (delivered : Delivered ran.notices state.phase phase)
    (sleeps : ∃ other, ((state.ran thread call ran phase).phase other).asleepOn .waitingWriters) :
    (∃ id, ran.shared.lockerInfo.lookup id ≠ none) ∨
      ∃ other, ((state.ran thread call ran phase).phase other).notifiedOn .waitingWriters := by
  obtain ⟨sleeper, asleep⟩ := sleeps
  obtain ⟨point, stands, _, move⟩ := turn_move serial.consistent turn
  by_cases notified : (state.phase thread).notifiedOn .waitingWriters
  · exact .inl (attended.ran_notified serial turn notified)
  · have untouched : ∀ other, (phase other).notifiedOn .waitingWriters → other ≠ thread := by
      rintro other reached rfl
      rw [delivered.of_awake turn.not_asleepOn] at reached
      exact notified reached
    have keep (reached : ∃ other, (phase other).notifiedOn .waitingWriters) :
        ∃ other, ((state.ran thread call ran phase).phase other).notifiedOn .waitingWriters := by
      obtain ⟨other, reached⟩ := reached
      refine ⟨other, ?_⟩
      simpa only [State.ran, Function.update_of_ne (untouched other reached)] using reached
    rcases move.handover with entry | busy | ⟨sent, result, finish⟩ | ⟨same, awake⟩
    · exact .inl entry
    · exact .inl (kept.consistent.present busy)
    · have different : sleeper ≠ thread := by
        rintro rfl
        simp [State.ran, finish, Next.phase, Phase.asleepOn] at asleep
      obtain ⟨slept, sleepsStill⟩ := State.ran_asleepOn delivered different asleep
      rcases sent with all | one
      · exact absurd sleepsStill (delivered.all_awake all sleeper)
      · exact .inr (keep (delivered.one_notified one slept))
    · have different : sleeper ≠ thread := by
        rintro rfl
        exact awake (by simpa only [State.ran, Function.update_self] using asleep)
      have slept := (State.ran_asleepOn delivered different asleep).1
      rcases attended.writers ⟨sleeper, slept⟩ with entry | ⟨other, reached⟩
      · exact .inl (by rwa [same])
      · exact .inr (keep ⟨other, delivered.notifiedOn reached⟩)

theorem Attended.wake (attended : Attended state) {point : Point} {condition : Condition}
    {timed : Bool} (asleep : state.phase thread = .asleep call point condition timed) (wake : Wake)
    (fits : ∀ other, ((state.wake thread (.woken call point condition wake)).phase other).Fits
      Waits Leaves) : Attended (state.wake thread (.woken call point condition wake)) where
  fits := fits
  gate closed := by
    have position : (state.wake thread (.woken call point condition wake)).position =
        state.position := State.wake_position (by rw [asleep]; rfl)
    simp only [InWriteCall, position]
    apply attended.gate
    rcases closed with shut | ⟨other, sleeps⟩
    · exact .inl shut
    · exact .inr ⟨other, State.wake_asleepOn sleeps⟩
  writers sleeps := by
    obtain ⟨other, sleeps⟩ := sleeps
    rcases attended.writers ⟨other, State.wake_asleepOn sleeps⟩ with entry | ⟨reached, notified⟩
    · exact .inl entry
    · exact .inr ⟨reached, State.wake_notifiedOn asleep notified⟩

theorem Attended.step (attended : Attended state) (serial : Serial state slot)
    (step : system.step state label next) (one : OneCallPerId state label) : Attended next := by
  obtain ⟨after, kept⟩ := serial.step step one
  have fits := step.fits program_keeps attended.fits
  cases step with
  | run turn delivered =>
      exact {
        fits := fits
        gate := attended.ran_gate serial turn delivered
        writers := attended.ran_writers serial kept turn delivered }
  | rouse asleep => exact attended.wake asleep .spurious fits
  | expire asleep => exact attended.wake asleep .expired fits

theorem attended_of_reachable (reached : (system.restrict OneCallPerId).Reachable state) :
    Attended state := by
  apply reached.invariant
  · rintro state rfl
    exact {
      fits := fun _ => trivial
      gate := by simp [GenericRWLockImpl.new, Phase.asleepOn]
      writers := by simp [Phase.asleepOn] }
  · rintro state label next before attended ⟨step, one⟩
    obtain ⟨slot, serial⟩ := serial_of_reachable before
    exact attended.step serial step one

end Attended

/-- These properties say that a sleeping thread has somebody who will wake it. -/
structure NoForgottenWaiter (state : LockState Thread Id) : Prop where
  reader : ∀ thread id point condition timed,
    state.phase thread = .asleep (.acquireReadLock id) point condition timed →
      0 < state.shared.numWriters ∨ ∃ writer, InWriteCall state writer
  writer : ∀ thread id point condition timed,
    state.phase thread = .asleep (.acquireWriteLock id) point condition timed →
      (∃ holder, 0 < heldReads state holder ∨ 0 < heldWrites state holder) ∨
        ∃ other, other ≠ thread ∧ ∃ id point condition,
          state.phase other = .woken (.acquireWriteLock id) point condition .notified
  canRead : state.shared.canRead = false →
    (∃ id, 0 < heldWrites state id ∨ Upgrading state id) ∨
      ∃ thread id, state.position thread = some (.acquireWriteLock id, .newWriter)

omit [DecidableEq Thread] in
/-- The id of an entry holds a lock. -/
theorem Serial.holds_of_entry {state : LockState Thread Id} {slot : WriterSlot Thread Id}
    (serial : Serial state slot) {id : Id} (entry : state.shared.lockerInfo.lookup id ≠ none) :
    0 < heldReads state id ∨ 0 < heldWrites state id := by
  obtain ⟨info, found⟩ := Option.ne_none_iff_exists'.mp entry
  have held := serial.consistent.entry id info found
  simp only [serial.reads, serial.writes, GenericRWLockImpl.readCount, GenericRWLockImpl.writeCount,
    found, Option.elim_some, Nat.cast_pos]
  exact held

end Blocxx.RWLock
