import Blocxx.RWLock.Held

/-!
This file proves the safety of the lock when each id has at most one call in progress.
-/

namespace Blocxx.RWLock
open Library Library.Monitor GenericRWLockImpl

variable {Thread Id : Type} [DecidableEq Thread] [DecidableEq Id]

/-- A thread waits to upgrade the read lock of this id. -/
def Upgrading (state : LockState Thread Id) (id : Id) : Prop :=
  ∃ thread, state.position thread = some (.acquireWriteLock id, .upgrade)

/-- Each id is served by one thread, and the entries are what the returned calls say. -/
structure Serial (state : LockState Thread Id) (slot : WriterSlot Thread Id) : Prop where
  consistent : state.shared.Consistent state.position slot 0
  distinct : ∀ thread other call inside point standing,
    state.position thread = some (call, point) → state.position other = some (inside, standing) →
      inside.id = call.id → other = thread
  fresh : ∀ thread id, state.position thread = some (.acquireReadLock id, .newReader) →
    state.shared.lockerInfo.lookup id = none
  reads : ∀ id, heldReads state id = state.shared.readCount id
  writes : ∀ id, heldWrites state id = state.shared.writeCount id
  results : ∀ call ∈ state.finished, call.result ≠ .assertionException

section Serial

variable {state next : LockState Thread Id} {label : Label Thread (Call Id)} {thread : Thread}
  {call : Call Id} {ran : LockSection Id} {slot : WriterSlot Thread Id}

omit [DecidableEq Thread] in
/-- No other thread has a call in progress for the id of the thread that runs. -/
theorem Serial.alone (serial : Serial state slot)
    (turn : Turn program state label thread call ran) (one : OneCallPerId state label)
    {other : Thread} (different : other ≠ thread) {inside : Call Id} {point : Point}
    (stands : state.position other = some (inside, point)) : inside.id ≠ call.id := by
  rcases turn.cases_position with ⟨entered, idle, rfl⟩ | ⟨_, here, answer, running, rfl⟩
  · rw [entered] at one
    exact one other inside point stands
  · intro same
    exact different (serial.distinct thread other call inside here point running stands same)

omit [DecidableEq Thread] in
/-- A thread waits for a new entry only while its id has none. -/
theorem GenericRWLockImpl.Move.fresh {lock : GenericRWLockImpl Id} {id : Id}
    {point : Option Point} (move : Move id lock call point ran)
    (before : point = some .newReader → lock.lockerInfo.lookup id = none)
    {reader : Id} (stands : ran.next.position call = some (.acquireReadLock reader, .newReader)) :
    reader = id ∧ ran.shared.lockerInfo.lookup id = none := by
  cases move with
  | readWait start closed =>
      obtain rfl : id = reader := by simpa [Next.position] using stands
      exact ⟨rfl, start.elim And.right before⟩
  | _ => simp [Next.position] at stands

omit [DecidableEq Thread] in
/-- A waiting reader of a serial lock has no entry. -/
theorem Serial.waiting_new (serial : Serial state slot) {point : Option Point}
    (stands : state.position thread = point.map fun point => (call, point))
    (waiting : point = some .newReader) : state.shared.lockerInfo.lookup call.id = none := by
  subst waiting
  have placed := serial.consistent.placed thread call .newReader stands
  cases call with
  | acquireReadLock id => exact serial.fresh thread id stands
  | acquireWriteLock id => exact placed.elim
  | releaseReadLock id => exact placed.elim
  | releaseWriteLock id => exact placed.elim

/-- Two threads that stand in calls of one id are one thread after a section, too. -/
theorem Serial.distinct_update (serial : Serial state slot)
    (turn : Turn program state label thread call ran) (one : OneCallPerId state label)
    {entered : Option (Call Id × Point)} (own : ∀ inside point, entered = some (inside, point) →
      inside = call) :
    ∀ first second call inside point standing,
      Function.update state.position thread entered first = some (call, point) →
        Function.update state.position thread entered second = some (inside, standing) →
          inside.id = call.id → second = first := by
  intro first second outer inside point standing firstStands secondStands same
  by_cases firstRuns : first = thread
  · by_cases secondRuns : second = thread
    · rw [firstRuns, secondRuns]
    · subst firstRuns
      rw [Function.update_self] at firstStands
      rw [Function.update_of_ne secondRuns] at secondStands
      rw [own outer point firstStands] at same
      exact absurd same (serial.alone turn one secondRuns secondStands)
  · rw [Function.update_of_ne firstRuns] at firstStands
    by_cases secondRuns : second = thread
    · subst secondRuns
      rw [Function.update_self] at secondStands
      rw [own inside standing secondStands] at same
      exact absurd same.symm (serial.alone turn one firstRuns firstStands)
    · rw [Function.update_of_ne secondRuns] at secondStands
      exact serial.distinct first second outer inside point standing firstStands secondStands same

/-- Every step keeps the lock serial when each id has at most one call in progress. -/
theorem Serial.step (serial : Serial state slot) (step : system.step state label next)
    (one : OneCallPerId state label) : ∃ slot : WriterSlot Thread Id, Serial next slot := by
  rcases Step.ran_or_woken step with ⟨thread, call, ran, turn, shared, position, finished⟩ |
    ⟨shared, position, finished⟩
  · obtain ⟨point, stands, _, move⟩ := turn_move serial.consistent turn
    have waited := serial.waiting_new stands
    have lost : state.shared.lostRead call.id point ran = 0 := by
      rw [lostRead, if_neg]
      rintro ⟨new, present, _⟩
      simp [waited new] at present
    obtain ⟨slot, kept⟩ := move.consistent serial.consistent stands
      (turn_safe serial.consistent turn one.keepsUpgrader)
    rw [lost] at kept
    refine ⟨slot, ?_, ?_, ?_, ?_, ?_, ?_⟩
    · rw [shared, position]
      exact kept
    · rw [position]
      apply serial.distinct_update turn one
      intro inside point entered
      cases goes : ran.next <;> simp_all [Next.position]
    · intro other id waiting
      rw [position] at waiting
      rw [shared]
      by_cases same : other = thread
      · subst same
        rw [Function.update_self] at waiting
        obtain ⟨rfl, missing⟩ := move.fresh waited waiting
        exact missing
      · rw [Function.update_of_ne same] at waiting
        have different : id ≠ call.id := serial.alone turn one same waiting
        rw [move.frame different]
        exact serial.fresh other id waiting
    · intro id
      have change := move.readCount serial.consistent rfl thread id
      have before := serial.reads id
      rw [lost] at change
      rw [shared, heldReads, finished, List.map_append, List.sum_append, change]
      rw [heldReads] at before
      split <;> omega
    · intro id
      have change := move.writeCount serial.consistent rfl thread id
      have before := serial.writes id
      rw [shared, heldWrites, finished, List.map_append, List.sum_append, change]
      rw [heldWrites] at before
      omega
    · intro call member
      rw [finished, List.mem_append] at member
      rcases member with old | new
      · exact serial.results call old
      · cases goes : ran.next with
        | finish result =>
            rw [goes, Next.finished, List.mem_singleton] at new
            subst new
            exact (move.result goes).1
        | wait condition timed point => simp [goes, Next.finished] at new
        | leave point => simp [goes, Next.finished] at new
  · refine ⟨slot, ?_, ?_, ?_, ?_, ?_, ?_⟩
    · rw [shared, position]
      exact serial.consistent
    · rw [position]
      exact serial.distinct
    · rw [shared, position]
      exact serial.fresh
    · rw [shared]
      simpa only [heldReads, finished] using serial.reads
    · rw [shared]
      simpa only [heldWrites, finished] using serial.writes
    · rw [finished]
      exact serial.results

/-- Every reachable state with one call per id is serial. -/
theorem serial_of_reachable
    (reached : ((system : TransitionSystem (LockState Thread Id) _).restrict OneCallPerId).Reachable
      state) : ∃ slot : WriterSlot Thread Id, Serial state slot := by
  apply reached.invariant
  · rintro state rfl
    refine ⟨.free, consistent_new _ fun _ => rfl, ?_, ?_, ?_, ?_, ?_⟩
    · simp [State.position, Phase.position]
    · simp [State.position, Phase.position]
    · intro id
      simp [heldReads, GenericRWLockImpl.readCount, GenericRWLockImpl.new]
    · intro id
      simp [heldWrites, GenericRWLockImpl.writeCount, GenericRWLockImpl.new]
    · simp
  · rintro state label next _ ⟨slot, serial⟩ ⟨step, one⟩
    exact serial.step step one

end Serial

/-- These are the safety properties of the lock, told by the returned calls and the counters. -/
structure Safe (state : LockState Thread Id) : Prop where
  exclusive : ∀ id other, other ≠ id → 0 < heldWrites state id →
    heldReads state other = 0 ∧ heldWrites state other = 0
  oneWriter : state.shared.numWriters = 0 ∨ state.shared.numWriters = 1
  writers : state.shared.numWriters = 1 ↔ ∃ id, 0 < heldWrites state id ∨ Upgrading state id
  readers : ∃ readers : Finset Id,
    (∀ id, id ∈ readers ↔
      0 < heldReads state id ∧ ¬ 0 < heldWrites state id ∧ ¬ Upgrading state id) ∧
    state.shared.numReaders = readers.card
  assertions : ∀ call ∈ state.finished, call.result ≠ .assertionException

section Safe

variable {state : LockState Thread Id} {slot : WriterSlot Thread Id} {id : Id}

omit [DecidableEq Thread] in
theorem Serial.heldWrites_pos (serial : Serial state slot) :
    0 < heldWrites state id ↔ slot = .writing id := by
  rw [serial.writes, Nat.cast_pos, serial.consistent.writeCount_pos]

omit [DecidableEq Thread] in
theorem Serial.upgrading (serial : Serial state slot) :
    Upgrading state id ↔ ∃ thread, slot = .upgrading thread id := by
  simp only [Upgrading, serial.consistent.upgrades]

omit [DecidableEq Thread] in
/-- The plain readers are the ids that read and neither write nor upgrade. -/
theorem Serial.plainReaders (serial : Serial state slot) :
    id ∈ state.shared.plainReaders slot ↔
      0 < heldReads state id ∧ ¬ 0 < heldWrites state id ∧ ¬ Upgrading state id := by
  rw [mem_plainReaders, serial.heldWrites_pos, serial.upgrading, serial.reads,
    GenericRWLockImpl.readCount]
  cases found : state.shared.lockerInfo.lookup id with
  | none => simp
  | some info =>
      have owner : slot.owner = some id ↔
          slot = .writing id ∨ ∃ thread, slot = .upgrading thread id := by
        cases slot <;> simp [WriterSlot.owner]
      have entry := serial.consistent.entry id info found
      have writes := serial.consistent.writes id
      simp only [holdsWrite, found, Option.some.injEq, exists_eq_left'] at writes
      simp only [ne_eq, owner, not_or, reduceCtorEq, not_false_eq_true, true_and,
        Option.elim_some, Nat.cast_pos]
      constructor
      · intro outside
        exact ⟨entry.resolve_right fun writer => outside.1 (writes.mp writer), outside⟩
      · exact And.right

omit [DecidableEq Thread] in
/-- The counter of writers is one exactly when the slot is taken. -/
theorem Serial.numWriters_iff (serial : Serial state slot) :
    state.shared.numWriters = 1 ↔ ∃ id, 0 < heldWrites state id ∨ Upgrading state id := by
  simp only [serial.heldWrites_pos, serial.upgrading, serial.consistent.oneWriter]
  cases slot with
  | free => simp [WriterSlot.count]
  | upgrading thread id => simp [WriterSlot.count]
  | writing id => simp [WriterSlot.count]

omit [DecidableEq Thread] in
theorem Serial.exclusive (serial : Serial state slot) {other : Id} (different : other ≠ id)
    (writer : 0 < heldWrites state id) :
    heldReads state other = 0 ∧ heldWrites state other = 0 := by
  have writing := serial.heldWrites_pos.mp writer
  have missing := (serial.consistent.writer_alone writing).2 other different
  rw [serial.reads, serial.writes, GenericRWLockImpl.readCount, GenericRWLockImpl.writeCount,
    missing]
  exact ⟨rfl, rfl⟩

/-- The state after the first writer of a new lock. -/
def firstWriter : LockState Nat Nat :=
  State.ran ⟨.new, fun _ => .idle, []⟩ 0 (.acquireWriteLock 7) (acquireWriteLock 7 .new)
    fun _ => .idle

theorem firstWriter_reachable : (system.restrict OneCallPerId).Reachable firstWriter :=
  .step (.initial rfl)
    (show (system.restrict OneCallPerId).step _ (.enter 0 (.acquireWriteLock 7)) firstWriter from
      ⟨.run (.enter _ rfl) (.nil _), by simp [OneCallPerId, State.position, Phase.position]⟩)

end Safe

end Blocxx.RWLock
