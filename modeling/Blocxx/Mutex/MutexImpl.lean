import Blocxx.Library.SequentialObject

/-!
This file embeds the recursive mutex that `MutexImpl.cpp` makes of a plain one, and proves that it is
a reentrant lock that loses no wakeup. Each definition is one section that holds the plain mutex.
-/

namespace Blocxx.Mutexes
open Library Library.Monitor

section Model

/-- The type `Id` has the answers of `pthread_self`. -/
structure Mutex_t (Id : Type) where
  valid_id : Bool
  count : UInt32
  thread_id : Id

inductive Condition where
  | unlocked
  deriving DecidableEq

inductive Call (Id : Type) where
  | acquireMutex (tid : Id)
  | releaseMutex (tid : Id)
  deriving DecidableEq

def Call.tid {Id : Type} : Call Id → Id
  | .acquireMutex tid | .releaseMutex tid => tid

inductive Point where
  | waitLoop
  deriving DecidableEq

/-- A call returns, passes the exception of `testCancel` on, or fails an assertion. -/
inductive Result where
  | returned (res : Int)
  | cancelled
  | aborted
  deriving DecidableEq

abbrev MutexSection (Id : Type) := Section (Mutex_t Id) Result Point Condition

namespace Mutex_t

variable {Id : Type} [DecidableEq Id]

/-- `createMutex` leaves the id as it finds it. -/
def createMutex (thread_id : Id) : Mutex_t Id := ⟨false, 0, thread_id⟩

variable (tid : Id) (handle : Mutex_t Id)

/-- The loop test of `acquireMutex` and the code after the loop. A wait that does not return 0 was
interrupted. -/
def waitLoop : MutexSection Id :=
  if handle.valid_id then ⟨handle, [], .wait .unlocked true .waitLoop⟩
  else ⟨⟨true, 1, tid⟩, [], .finish (.returned 0)⟩

def acquireMutex : MutexSection Id :=
  if handle.valid_id ∧ handle.thread_id = tid then
    ⟨{ handle with count := handle.count + 1 }, [], .finish (.returned 0)⟩
  else waitLoop tid handle

def releaseMutex : MutexSection Id :=
  if handle.valid_id ∧ handle.thread_id ≠ tid then ⟨handle, [], .finish (.returned (-1))⟩
  else if handle.count - 1 = 0 then
    if handle.valid_id then
      ⟨⟨false, 0, handle.thread_id⟩, [.one .unlocked], .finish (.returned 0)⟩
    else ⟨{ handle with count := 0 }, [], .finish .aborted⟩
  else ⟨{ handle with count := handle.count - 1 }, [], .finish (.returned 0)⟩

end Mutex_t

/-- An interrupted wait goes on, as after a wakeup without a cause, or its thread is cancelled. The
answer of the wait tells which. -/
def program {Id : Type} [DecidableEq Id] :
    Program (Mutex_t Id) (Call Id) Result Point Condition where
  enter
    | .acquireMutex tid => Mutex_t.acquireMutex tid
    | .releaseMutex tid => Mutex_t.releaseMutex tid
  resume
    | call, .waitLoop, true => Mutex_t.waitLoop call.tid
    | _, .waitLoop, false => fun handle => ⟨handle, [], .finish .cancelled⟩

end Model

section Reference

variable {Id : Type} [DecidableEq Id]

/-- A reentrant lock is free, or it is held to some depth. A free one counts the releases since it was
held. -/
inductive Lock (Id : Type) where
  | free (surplus : Nat)
  | held (owner : Id) (depth : Nat)

namespace Lock

/-- The lock after a call with this result, if it may have the result. -/
def after : After (Lock Id) (Call Id) Result
  | lock, .acquireMutex _, .cancelled => some lock
  | .free _, .acquireMutex tid, .returned 0 => some (.held tid 1)
  | .held owner depth, .acquireMutex tid, .returned 0 =>
      if owner = tid then some (.held owner (depth + 1)) else none
  | .free surplus, .releaseMutex _, .returned 0 => some (.free (surplus + 1))
  | .held owner depth, .releaseMutex tid, .returned res =>
      if owner ≠ tid then if res = -1 then some (.held owner depth) else none
      else if res ≠ 0 then none
      else if depth = 1 then some (.free 0)
      else some (.held owner (depth - 1))
  | _, _, _ => none

/-- The counter has 32 bits, and it may not pass zero in either direction. -/
def Allows : Lock Id → Call Id → Prop
  | .held owner depth, .acquireMutex tid => owner = tid → depth < 2 ^ 32
  | .free surplus, .releaseMutex _ => surplus + 1 < 2 ^ 32
  | _, _ => True

end Lock

abbrev MutexState (Id : Type) := State Id (Mutex_t Id) (Call Id) Result Point Condition

def system (thread_id : Id) : TransitionSystem (MutexState Id) (Label Id (Call Id)) :=
  program.system (.createMutex thread_id)

/-- A thread calls with its own id, and the lock that the calls before have made allows the call. -/
def Allowed (state : MutexState Id) : Label Id (Call Id) → Prop
  | .enter thread call =>
      call.tid = thread ∧ ∀ lock, Lock.after.history (.free 0) state.finished = some lock → lock.Allows call
  | _ => True

/-- The finished calls are those of a reentrant lock, and when it is free a thread that waits for it
has been told so. -/
structure Sound (state : MutexState Id) : Prop where
  legal : (Lock.after.history (.free 0) state.finished).isSome
  awake : ∀ surplus, Lock.after.history (.free 0) state.finished = some (.free surplus) →
    ∀ thread, (state.phase thread).asleepOn .unlocked →
      ∃ told, (state.phase told).notifiedOn .unlocked

end Reference

section Sections

variable {Id : Type} [DecidableEq Id]

/-- This relation lists the waits of each call. -/
inductive Waits : Call Id → Point → Condition → Bool → Prop
  | acquireMutex (tid : Id) : Waits (.acquireMutex tid) .waitLoop .unlocked true

/-- No call goes on without the plain mutex. -/
def Leaves (_ : Call Id) (_ : Point) : Prop := False

theorem releaseMutex_finishes (tid : Id) (handle : Mutex_t Id) :
    ∃ result, (handle.releaseMutex tid).next = .finish result := by
  rw [Mutex_t.releaseMutex]
  split_ifs <;> exact ⟨_, rfl⟩

omit [DecidableEq Id] in
theorem waitLoop_fits (tid : Id) (handle : Mutex_t Id) :
    ((handle.waitLoop tid).next.phase (.acquireMutex tid)).Fits Waits Leaves := by
  rw [Mutex_t.waitLoop]
  split
  · exact .acquireMutex tid
  · trivial

theorem enter_fits (call : Call Id) (handle : Mutex_t Id) :
    ((program.enter call handle).next.phase call).Fits Waits Leaves := by
  cases call with
  | acquireMutex tid =>
      show (((handle.acquireMutex tid).next).phase _).Fits _ _
      rw [Mutex_t.acquireMutex]
      split
      · trivial
      · exact waitLoop_fits tid handle
  | releaseMutex tid =>
      obtain ⟨result, finishes⟩ := releaseMutex_finishes tid handle
      show (((handle.releaseMutex tid).next).phase _).Fits _ _
      rw [finishes]
      trivial

theorem resume_fits {call : Call Id} {point : Point} {answer : Bool} (handle : Mutex_t Id)
    (continues : Continues Waits Leaves call point answer) :
    ((program.resume call point answer handle).next.phase call).Fits Waits Leaves := by
  rcases continues with ⟨leaves, -⟩ | ⟨condition, timed, waits, -⟩
  · exact leaves.elim
  · cases waits with
    | acquireMutex tid =>
        cases answer with
        | true => exact waitLoop_fits tid handle
        | false => trivial

theorem program_keeps :
    (program : Program (Mutex_t Id) (Call Id) Result Point Condition).Keeps Waits Leaves where
  enter := enter_fits
  resume _ _ _ handle continues := resume_fits handle continues

end Sections

section Simulation

variable {Id : Type} [DecidableEq Id]

/-- The mutex stands for the lock. -/
def Represents (handle : Mutex_t Id) : Lock Id → Prop
  | .free surplus => handle.valid_id = false ∧ surplus < 2 ^ 32 ∧
      (handle.count.toNat + surplus) % 2 ^ 32 = 0
  | .held owner depth => handle.valid_id = true ∧ handle.thread_id = owner ∧ 0 < depth ∧
      depth ≤ 2 ^ 32 ∧ handle.count.toNat = depth % 2 ^ 32

variable {handle : Mutex_t Id} {lock : Lock Id} {tid : Id}

theorem sub_one_eq_zero_iff (count : UInt32) : count - 1 = 0 ↔ count.toNat = 1 := by
  rw [← UInt32.toNat_inj, UInt32.toNat_sub]
  have small := count.toNat_lt
  show (2 ^ 32 - 1 + count.toNat) % 2 ^ 32 = 0 ↔ _
  omega

theorem sub_one_toNat (count : UInt32) : (count - 1).toNat = (2 ^ 32 - 1 + count.toNat) % 2 ^ 32 := by
  rw [UInt32.toNat_sub]
  rfl

theorem releaseMutex_simulates (represents : Represents handle lock)
    (allows : lock.Allows (.releaseMutex tid)) :
    (handle.releaseMutex tid).Simulates Lock.after Represents (.releaseMutex tid) lock := by
  have one := sub_one_eq_zero_iff handle.count
  cases lock with
  | free surplus =>
      obtain ⟨unlocked, small, count⟩ := represents
      have more : surplus + 1 < 2 ^ 32 := allows
      have goes : ¬ handle.count - 1 = 0 := by
        rw [one]
        omega
      rw [Mutex_t.releaseMutex, if_neg (by simp [unlocked]), if_neg goes]
      refine ⟨.free (surplus + 1), rfl, unlocked, more, ?_⟩
      rw [sub_one_toNat]
      omega
  | held owner depth =>
      obtain ⟨locked, rfl, positive, most, count⟩ := represents
      by_cases own : handle.thread_id = tid
      · rw [Mutex_t.releaseMutex, if_neg (by simp [own])]
        by_cases last : depth = 1
        · have zero : handle.count - 1 = 0 := by
            rw [one]
            omega
          rw [if_pos zero, if_pos locked]
          refine ⟨.free 0, ?_, rfl, by decide, rfl⟩
          simp [Lock.after, own, last]
        · have goes : ¬ handle.count - 1 = 0 := by
            rw [one]
            omega
          rw [if_neg goes]
          refine ⟨.held handle.thread_id (depth - 1), ?_, locked, rfl, by omega, by omega, ?_⟩
          · simp [Lock.after, own, last]
          · rw [sub_one_toNat]
            omega
      · rw [Mutex_t.releaseMutex, if_pos ⟨locked, own⟩]
        refine ⟨.held handle.thread_id depth, ?_, locked, rfl, positive, most, count⟩
        simp [Lock.after, own]

theorem waitLoop_simulates (tid : Id) (represents : Represents handle lock) :
    (handle.waitLoop tid).Simulates Lock.after Represents (.acquireMutex tid) lock := by
  cases lock with
  | free surplus =>
      rw [Mutex_t.waitLoop, if_neg (by simp [represents.1])]
      exact ⟨.held tid 1, rfl, rfl, rfl, by decide, by decide, rfl⟩
  | held owner depth =>
      rw [Mutex_t.waitLoop, if_pos represents.1]
      exact represents

theorem enter_simulates {call : Call Id} (represents : Represents handle lock)
    (allows : lock.Allows call) :
    (program.enter call handle).Simulates Lock.after Represents call lock := by
  cases call with
  | acquireMutex tid =>
      show (handle.acquireMutex tid).Simulates _ _ _ lock
      rw [Mutex_t.acquireMutex]
      split
      · next again =>
          obtain ⟨locked, own⟩ := again
          cases lock with
          | free surplus => exact absurd locked (by simp [represents.1])
          | held owner depth =>
              obtain ⟨_, rfl, positive, most, count⟩ := represents
              have deeper : depth < 2 ^ 32 := allows own
              refine ⟨.held handle.thread_id (depth + 1), ?_, locked, rfl, by omega, by omega, ?_⟩
              · simp [Lock.after, own]
              · rw [UInt32.toNat_add]
                show (handle.count.toNat + 1) % 2 ^ 32 = _
                omega
      · exact waitLoop_simulates tid represents
  | releaseMutex tid => exact releaseMutex_simulates represents allows

theorem resume_simulates {call : Call Id} {point : Point} {answer : Bool}
    (represents : Represents handle lock)
    (continues : Continues Waits Leaves call point answer) :
    (program.resume call point answer handle).Simulates Lock.after Represents call lock := by
  rcases continues with ⟨leaves, -⟩ | ⟨condition, timed, waits, -⟩
  · exact leaves.elim
  · cases waits with
    | acquireMutex tid =>
        cases answer with
        | true => exact waitLoop_simulates tid represents
        | false =>
            refine ⟨lock, ?_, represents⟩
            cases lock <;> rfl

end Simulation

section Wakeup

variable {Id : Type} [DecidableEq Id]

/-- This relation lists what a section does to the threads that wait. The Boolean says that its own
thread may have been told that the mutex is free. -/
inductive Effect (handle : Mutex_t Id) : Bool → MutexSection Id → Prop
  | locks {told : Bool} {ran : MutexSection Id} (locked : ran.shared.valid_id = true) :
      Effect handle told ran
  | unlocks {ran : MutexSection Id} {result : Result} (tells : ran.notices = [.one .unlocked])
      (finishes : ran.next = .finish result) : Effect handle false ran
  | stays {ran : MutexSection Id} {result : Result}
      (same : ran.shared.valid_id = handle.valid_id) (silent : ran.notices = [])
      (finishes : ran.next = .finish result) : Effect handle false ran

variable {handle : Mutex_t Id}

omit [DecidableEq Id] in
theorem waitLoop_effect (tid : Id) (told : Bool) : Effect handle told (handle.waitLoop tid) := by
  apply Effect.locks
  rw [Mutex_t.waitLoop]
  split
  · assumption
  · rfl

theorem enter_effect (call : Call Id) : Effect handle false (program.enter call handle) := by
  cases call with
  | acquireMutex tid =>
      show Effect handle false (handle.acquireMutex tid)
      rw [Mutex_t.acquireMutex]
      split
      · next again => exact .locks again.1
      · exact waitLoop_effect tid false
  | releaseMutex tid =>
      show Effect handle false (handle.releaseMutex tid)
      rw [Mutex_t.releaseMutex]
      split_ifs
      · exact .stays rfl rfl rfl
      · exact .unlocks rfl rfl
      · exact .stays rfl rfl rfl
      · exact .stays rfl rfl rfl

theorem resume_effect {call : Call Id} {point : Point} {answer : Bool}
    (continues : Continues Waits Leaves call point answer) :
    Effect handle answer (program.resume call point answer handle) := by
  rcases continues with ⟨leaves, -⟩ | ⟨condition, timed, waits, -⟩
  · exact leaves.elim
  · cases waits with
    | acquireMutex tid =>
        cases answer with
        | true => exact waitLoop_effect tid true
        | false => exact .stays rfl rfl rfl

/-- While the mutex is free and threads sleep, one that no longer sleeps has been told. -/
def Awake (state : MutexState Id) : Prop :=
  state.shared.valid_id = false → ∀ thread, (state.phase thread).asleepOn .unlocked →
    ∃ told, (state.phase told).notifiedOn .unlocked

variable {state : MutexState Id} {thread : Id} {call : Call Id} {ran : MutexSection Id}
  {phase : Id → Phase (Call Id) Point Condition}

theorem Awake.turn (awake : Awake state) {told : Bool} (effect : Effect state.shared told ran)
    (stands : ¬ (state.phase thread).asleepOn .unlocked)
    (untold : told = false → ¬ (state.phase thread).notifiedOn .unlocked)
    (delivered : Delivered ran.notices state.phase phase) :
    Awake (state.ran thread call ran phase) := by
  intro unlocked sleeper asleep
  cases effect with
  | locks locked =>
      rw [show (state.ran thread call ran phase).shared = ran.shared from rfl, locked] at unlocked
      cases unlocked
  | unlocks tells finishes =>
      have other : sleeper ≠ thread := by
        rintro rfl
        simp only [State.ran, Function.update_self, finishes] at asleep
        exact asleep
      have slept := (State.ran_asleepOn delivered other asleep).1
      rw [tells] at delivered
      rcases delivered.of_one with ⟨chosen, chosenAsleep, rfl⟩ | ⟨nobody, -⟩
      · refine ⟨chosen, ?_⟩
        have different : chosen ≠ thread := by
          rintro rfl
          exact stands chosenAsleep
        simp only [State.ran, Function.update_of_ne different, Function.update_self]
        exact Phase.notify_notifiedOn chosenAsleep
      · exact absurd slept (nobody sleeper)
  | stays same silent finishes =>
      have other : sleeper ≠ thread := by
        rintro rfl
        simp only [State.ran, Function.update_self, finishes] at asleep
        exact asleep
      have slept := (State.ran_asleepOn delivered other asleep).1
      have before : state.shared.valid_id = false := by
        rw [← same]
        exact unlocked
      obtain ⟨holder, notified⟩ := awake before sleeper slept
      have different : holder ≠ thread := by
        rintro rfl
        exact untold rfl notified
      refine ⟨holder, ?_⟩
      simp only [State.ran, Function.update_of_ne different]
      exact delivered.notifiedOn notified

/-- A sleeper that wakes without a notice takes none from another thread. -/
theorem Awake.wake (awake : Awake state) {point : Point} {condition : Condition} {timed : Bool}
    {wake : Wake} (stands : state.phase thread = .asleep call point condition timed) :
    Awake (state.wake thread (.woken call point condition wake)) := by
  intro unlocked sleeper asleep
  obtain ⟨holder, notified⟩ := awake unlocked sleeper (State.wake_asleepOn asleep)
  exact ⟨holder, State.wake_notifiedOn stands notified⟩

end Wakeup

section Theorem

variable {Id : Type} [DecidableEq Id] {thread_id : Id} {state next : MutexState Id}
  {label : Label Id (Call Id)}

/-- The finished calls lead to a lock that the mutex stands for. -/
structure Locked (state : MutexState Id) : Prop where
  serial : state.Serial Lock.after Represents (.free 0)
  awake : Awake state

theorem turn_awake {thread : Id} {call : Call Id} {ran : MutexSection Id}
    {phase : Id → Phase (Call Id) Point Condition} (awake : Awake state)
    (fits : ∀ thread, (state.phase thread).Fits Waits Leaves)
    (turn : Turn program state label thread call ran)
    (delivered : Delivered ran.notices state.phase phase) :
    Awake (state.ran thread call ran phase) := by
  have stands := turn.not_asleepOn .unlocked
  have stood := fits thread
  cases turn with
  | enter call idle =>
      refine awake.turn (enter_effect call) stands ?_ delivered
      rw [idle]
      exact fun _ => id
  | between between =>
      rw [between] at stood
      exact stood.elim
  | @woken _ _ point condition wake woken =>
      rw [woken] at stood
      obtain ⟨timed, waits, expires⟩ := stood
      have continues : Continues Waits Leaves call point (wake != .expired) :=
        .inr ⟨condition, timed, waits, fun late => expires (by simpa using late)⟩
      refine awake.turn (resume_effect continues) stands ?_ delivered
      rw [woken]
      rintro late ⟨-, rfl⟩
      cases late

theorem Locked.step (locked : Locked state)
    (fits : ∀ thread, (state.phase thread).Fits Waits Leaves)
    (step : (system thread_id).step state label next) (allowed : Allowed state label) :
    Locked next := by
  constructor
  · apply locked.serial.step step
    intro thread call ran lock turn replayed represents
    rcases turn.continues fits with ⟨rfl, -, rfl⟩ | ⟨-, point, answer, -, continues, rfl⟩
    · exact enter_simulates represents (allowed.2 lock replayed)
    · exact resume_simulates represents continues
  · cases step with
    | @run label thread call ran phase turn delivered =>
        exact turn_awake locked.awake fits turn delivered
    | rouse asleep => exact locked.awake.wake asleep
    | expire asleep => exact locked.awake.wake asleep

theorem locked_of_reachable (reached : ((system thread_id).restrict Allowed).Reachable state) :
    Locked state := by
  apply reached.invariant
  · rintro state rfl
    exact ⟨⟨.free 0, rfl, rfl, by decide, rfl⟩, fun _ _ asleep => asleep.elim⟩
  · intro state label next before locked step
    exact locked.step (program_keeps.reachable before.unrestricted) step.1 step.2

/-- In every run in which the threads call with their own ids, and the counter does not pass zero, the
mutex is a reentrant lock and loses no wakeup. -/
theorem recursive_mutex_sound
    (reached : ((system thread_id).restrict Allowed).Reachable state) : Sound state := by
  obtain ⟨⟨lock, replayed, represents⟩, awake⟩ := locked_of_reachable reached
  refine ⟨by rw [replayed]; rfl, ?_⟩
  intro surplus free thread asleep
  rw [replayed] at free
  cases free
  exact awake represents.1 thread asleep

/-- A thread has acquired a new mutex. -/
def acquired : MutexState Bool :=
  State.ran ⟨.createMutex false, fun _ => .idle, []⟩ true (.acquireMutex true)
    (Mutex_t.acquireMutex true (.createMutex false)) fun _ => .idle

theorem acquired_reachable : ((system false).restrict Allowed).Reachable acquired :=
  .step (.initial rfl)
    (show ((system false).restrict Allowed).step _ (.enter true (.acquireMutex true)) acquired from
      ⟨.run (.enter _ rfl) (.nil _), rfl, fun lock replayed => by
        cases replayed
        trivial⟩)

theorem recursive_mutex_sound_acquired : Sound acquired :=
  recursive_mutex_sound acquired_reachable

end Theorem

end Blocxx.Mutexes
