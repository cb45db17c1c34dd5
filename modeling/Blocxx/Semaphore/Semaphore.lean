import Blocxx.Library.Monitor

/-!
This file embeds `Semaphore` and proves that it counts exactly and loses no wakeup. Each definition
is one section that holds `m_mutex`.
-/

namespace Blocxx.Semaphores
open Library.Monitor

structure Semaphore where
  m_curCount : Int

inductive Condition where
  | m_cond
  deriving DecidableEq

inductive Call where
  | wait
  | timedWait
  | signal
  | getCount
  deriving DecidableEq

/-- Each of the two waits has one loop. -/
inductive Point where
  | waitLoop
  | timedWaitLoop
  deriving DecidableEq

inductive Result where
  | returned
  | waited (ret : Bool)
  | count (m_curCount : Int)
  deriving DecidableEq

abbrev SemaphoreSection := Section Semaphore Result Point Condition

namespace Semaphore

/-- The value of a sum in an `Int32`. -/
def int32 (value : Int) : Int := value.bmod (2 ^ 32)

variable (semaphore : Semaphore)

/-- The loop test of `wait` and the code after the loop. -/
def waitLoop : SemaphoreSection :=
  if semaphore.m_curCount ≤ 0 then ⟨semaphore, [], .wait .m_cond false .waitLoop⟩
  else ⟨⟨int32 (semaphore.m_curCount - 1)⟩, [], .finish .returned⟩

/-- The loop test of `timedWait` and the code after the loop. -/
def timedWaitLoop (ret : Bool) : SemaphoreSection :=
  if semaphore.m_curCount ≤ 0 ∧ ret = true then
    ⟨semaphore, [], .wait .m_cond true .timedWaitLoop⟩
  else if ret = true then ⟨⟨int32 (semaphore.m_curCount - 1)⟩, [], .finish (.waited ret)⟩
  else ⟨semaphore, [], .finish (.waited ret)⟩

def signal : SemaphoreSection :=
  ⟨⟨int32 (semaphore.m_curCount + 1)⟩, [.all .m_cond], .finish .returned⟩

def getCount : SemaphoreSection := ⟨semaphore, [], .finish (.count semaphore.m_curCount)⟩

end Semaphore

/-- The answer of a timed wait is the new value of `ret`. -/
def program : Program Semaphore Call Result Point Condition where
  enter
    | .wait => Semaphore.waitLoop
    | .timedWait => (Semaphore.timedWaitLoop · true)
    | .signal => Semaphore.signal
    | .getCount => Semaphore.getCount
  resume
    | _, .waitLoop, _ => Semaphore.waitLoop
    | _, .timedWaitLoop, answer => (Semaphore.timedWaitLoop · answer)

end Blocxx.Semaphores

namespace Blocxx.Semaphores
open Library Library.Monitor

variable {Thread : Type}

abbrev SemaphoreState (Thread : Type) := State Thread Semaphore Call Result Point Condition

/-- This relation lists the waits of each call. -/
inductive Waits : Call → Point → Condition → Bool → Prop
  | wait : Waits .wait .waitLoop .m_cond false
  | timedWait : Waits .timedWait .timedWaitLoop .m_cond true

/-- No call goes on without the lock. -/
def Leaves (_ : Call) (_ : Point) : Prop := False

/-- The wait with this result has taken a unit. -/
def takes : Call → Result → Bool
  | .wait, .returned => true
  | .timedWait, .waited ret => ret
  | _, _ => false

/-- This relation lists what a section can do. -/
inductive Move (semaphore : Semaphore) : Call → SemaphoreSection → Prop
  | sleep {call : Call} {point : Point} {timed : Bool} (waits : Waits call point .m_cond timed)
      (empty : semaphore.m_curCount ≤ 0) :
      Move semaphore call ⟨semaphore, [], .wait .m_cond timed point⟩
  | take {call : Call} {result : Result} (taken : takes call result = true)
      (positive : 0 < semaphore.m_curCount) :
      Move semaphore call ⟨⟨Semaphore.int32 (semaphore.m_curCount - 1)⟩, [], .finish result⟩
  | giveUp : Move semaphore .timedWait ⟨semaphore, [], .finish (.waited false)⟩
  | signal : Move semaphore .signal semaphore.signal
  | getCount : Move semaphore .getCount semaphore.getCount

section Moves

variable {semaphore : Semaphore} {call : Call} {ran : SemaphoreSection}

theorem waitLoop_move (semaphore : Semaphore) : Move semaphore .wait semaphore.waitLoop := by
  rw [Semaphore.waitLoop]
  split
  · next empty => exact .sleep .wait empty
  · next some => exact .take rfl (not_le.mp some)

theorem timedWaitLoop_move (semaphore : Semaphore) (ret : Bool) :
    Move semaphore .timedWait (semaphore.timedWaitLoop ret) := by
  rw [Semaphore.timedWaitLoop]
  split
  · next empty => exact .sleep .timedWait empty.1
  · next goesOn =>
      cases ret with
      | true => exact .take rfl (not_le.mp fun empty => goesOn ⟨empty, rfl⟩)
      | false => exact .giveUp

theorem enter_move (call : Call) (semaphore : Semaphore) :
    Move semaphore call (program.enter call semaphore) := by
  cases call with
  | wait => exact waitLoop_move semaphore
  | timedWait => exact timedWaitLoop_move semaphore true
  | signal => exact .signal
  | getCount => exact .getCount

theorem resume_move {point : Point} {answer : Bool} (semaphore : Semaphore)
    (continues : Continues Waits Leaves call point answer) :
    Move semaphore call (program.resume call point answer semaphore) := by
  rcases continues with ⟨leaves, -⟩ | ⟨condition, timed, waits, -⟩
  · exact leaves.elim
  · cases waits with
    | wait => exact waitLoop_move semaphore
    | timedWait => exact timedWaitLoop_move semaphore answer

theorem Move.fits (move : Move semaphore call ran) :
    (ran.next.phase call).Fits Waits Leaves := by
  cases move with
  | sleep waits empty => exact waits
  | take | giveUp | signal | getCount => trivial

theorem program_keeps : program.Keeps Waits Leaves where
  enter call semaphore := (enter_move call semaphore).fits
  resume _ _ _ semaphore continues := (resume_move semaphore continues).fits

end Moves

section Property

/-- How many signals the record of finished calls has. -/
def signals (finished : List (Finished Thread Call Result)) : Nat :=
  finished.countP fun done => done.call = .signal

/-- How many waits of the record have taken a unit. -/
def successfulWaits (finished : List (Finished Thread Call Result)) : Nat :=
  finished.countP fun done => takes done.call done.result

/-- The thread is inside a call and does not sleep. -/
def Inside : Phase Call Point Condition → Prop
  | .between _ _ | .woken _ _ _ _ => True
  | _ => False

/-- A unit is left, all calls in progress sleep, and there is one. -/
def Stranded (state : SemaphoreState Thread) : Prop :=
  0 < state.shared.m_curCount ∧ (∀ thread, ¬ Inside (state.phase thread)) ∧
    ∃ thread, (state.phase thread).asleepOn .m_cond

variable [DecidableEq Thread]

def system (initCount : Int) : TransitionSystem (SemaphoreState Thread) (Label Thread Call) :=
  program.system ⟨initCount⟩

/-- The count is exact, a step changes it or wakes threads only to finish a signal or a wait that
takes a unit, and nobody is stranded. -/
structure CountsExactly (initCount : Int) (state : SemaphoreState Thread) : Prop where
  nonneg : 0 ≤ state.shared.m_curCount
  exact : state.shared.m_curCount =
    initCount + signals state.finished - successfulWaits state.finished
  quiet : ∀ label next, (system initCount).step state label next →
    (∃ done : Finished Thread Call Result, next.finished = state.finished ++ [done] ∧
      (done.call = .signal ∨ takes done.call done.result = true)) ∨
    next.shared = state.shared ∧
      ∃ thread, ∀ other, other ≠ thread → next.phase other = state.phase other
  awake : ¬ Stranded state

end Property

section Invariant

variable [DecidableEq Thread] {initCount : Int} {state next : SemaphoreState Thread}
  {label : Label Thread Call} {thread : Thread} {call : Call} {ran : SemaphoreSection}
  {phase : Thread → Phase Call Point Condition}

theorem int32_of_fits {value : Int} (nonneg : 0 ≤ value) (less : value < 2 ^ 31) :
    Semaphore.int32 value = value := by
  rw [Semaphore.int32, Int.bmod_def, Int.emod_eq_of_lt nonneg (by omega)]
  split <;> omega

/-- Threads sleep only while no unit is left. -/
structure Counted (initCount : Int) (state : SemaphoreState Thread) : Prop where
  nonneg : 0 ≤ state.shared.m_curCount
  exact : state.shared.m_curCount =
    initCount + signals state.finished - successfulWaits state.finished
  empty : ∀ thread, (state.phase thread).asleepOn .m_cond → state.shared.m_curCount ≤ 0

theorem fits_of_reachable (reached : (system initCount).Reachable state) (thread : Thread) :
    (state.phase thread).Fits Waits Leaves := program_keeps.reachable reached thread

omit [DecidableEq Thread] in
theorem turn_move (fits : ∀ thread, (state.phase thread).Fits Waits Leaves)
    (turn : Turn program state label thread call ran) : Move state.shared call ran := by
  rcases turn.continues fits with ⟨-, -, rfl⟩ | ⟨-, point, answer, -, continues, rfl⟩
  · exact enter_move call state.shared
  · exact resume_move state.shared continues

omit [DecidableEq Thread] in
theorem signals_append (first second : List (Finished Thread Call Result)) :
    signals (first ++ second) = signals first + signals second := List.countP_append

omit [DecidableEq Thread] in
theorem successfulWaits_append (first second : List (Finished Thread Call Result)) :
    successfulWaits (first ++ second) = successfulWaits first + successfulWaits second :=
  List.countP_append

omit [DecidableEq Thread] in
/-- A wait is not a signal. -/
theorem signals_of_takes (thread : Thread) {result : Result} (taken : takes call result = true) :
    signals [(⟨thread, call, result⟩ : Finished Thread Call Result)] = 0 ∧
      successfulWaits [(⟨thread, call, result⟩ : Finished Thread Call Result)] = 1 := by
  constructor
  · cases call with
    | signal => cases taken
    | wait | timedWait | getCount => rfl
  · exact List.countP_eq_length.mpr (by simpa using taken)

theorem Counted.turn (counted : Counted initCount state) (move : Move state.shared call ran)
    (delivered : Delivered ran.notices state.phase phase)
    (few : initCount + signals (state.ran thread call ran phase).finished < 2 ^ 31) :
    Counted initCount (state.ran thread call ran phase) := by
  have nonneg := counted.nonneg
  have exact := counted.exact
  have slept (other : Thread) (different : other ≠ thread)
      (asleep : ((state.ran thread call ran phase).phase other).asleepOn .m_cond) :
      state.shared.m_curCount ≤ 0 :=
    counted.empty other (State.ran_asleepOn delivered different asleep).1
  have same (other : Thread) (idle : ran.next.phase call = .idle)
      (asleep : ((state.ran thread call ran phase).phase other).asleepOn .m_cond) :
      other ≠ thread := by
    rintro rfl
    simp only [State.ran, Function.update_self, idle] at asleep
    exact asleep
  cases move with
  | sleep waits empty =>
      refine ⟨nonneg, ?_, fun _ _ => empty⟩
      show state.shared.m_curCount = initCount + signals (state.finished ++ []) -
        successfulWaits (state.finished ++ [])
      rw [List.append_nil]
      exact exact
  | @take call result taken positive =>
      obtain ⟨noSignal, oneWait⟩ := signals_of_takes thread taken
      have few : initCount + signals (state.finished ++ [⟨thread, call, result⟩]) < 2 ^ 31 := few
      rw [signals_append, noSignal] at few
      have value : Semaphore.int32 (state.shared.m_curCount - 1) = state.shared.m_curCount - 1 :=
        int32_of_fits (by omega) (by omega)
      refine ⟨?_, ?_, ?_⟩
      · show 0 ≤ Semaphore.int32 (state.shared.m_curCount - 1)
        omega
      · show Semaphore.int32 (state.shared.m_curCount - 1) =
          initCount + signals (state.finished ++ [⟨thread, call, result⟩]) -
            successfulWaits (state.finished ++ [⟨thread, call, result⟩])
        rw [signals_append, successfulWaits_append, noSignal, oneWait, value]
        omega
      · intro other asleep
        have none := slept other (same other rfl asleep) asleep
        omega
  | giveUp =>
      refine ⟨nonneg, ?_, fun other asleep => slept other (same other rfl asleep) asleep⟩
      show state.shared.m_curCount =
        initCount + signals (state.finished ++ [⟨thread, .timedWait, .waited false⟩]) -
          successfulWaits (state.finished ++ [⟨thread, .timedWait, .waited false⟩])
      rw [signals_append, successfulWaits_append]
      exact exact
  | signal =>
      have few : initCount + signals (state.finished ++ [⟨thread, .signal, .returned⟩]) < 2 ^ 31 :=
        few
      have one : signals [(⟨thread, .signal, .returned⟩ : Finished Thread Call Result)] = 1 := rfl
      have none : successfulWaits [(⟨thread, .signal, .returned⟩ : Finished Thread Call Result)] =
        0 := rfl
      rw [signals_append, one] at few
      have value : Semaphore.int32 (state.shared.m_curCount + 1) = state.shared.m_curCount + 1 :=
        int32_of_fits (by omega) (by omega)
      refine ⟨?_, ?_, ?_⟩
      · show 0 ≤ Semaphore.int32 (state.shared.m_curCount + 1)
        omega
      · show Semaphore.int32 (state.shared.m_curCount + 1) =
          initCount + signals (state.finished ++ [⟨thread, .signal, .returned⟩]) -
            successfulWaits (state.finished ++ [⟨thread, .signal, .returned⟩])
        rw [signals_append, successfulWaits_append, one, none, value]
        omega
      · intro other asleep
        exact absurd asleep
          (State.ran_awake delivered (.inr (List.mem_singleton_self _)) id other)
  | getCount =>
      refine ⟨nonneg, ?_, fun other asleep => slept other (same other rfl asleep) asleep⟩
      show state.shared.m_curCount = initCount +
        signals (state.finished ++ [⟨thread, .getCount, .count state.shared.m_curCount⟩]) -
          successfulWaits
            (state.finished ++ [⟨thread, .getCount, .count state.shared.m_curCount⟩])
      rw [signals_append, successfulWaits_append]
      exact exact

/-- A sleeper that wakes up leaves the count as it is. -/
theorem Counted.wake (counted : Counted initCount state) (point : Point) (wake : Wake) :
    Counted initCount (state.wake thread (.woken call point .m_cond wake)) := by
  refine ⟨counted.nonneg, counted.exact, fun other asleep => ?_⟩
  by_cases same : other = thread
  · subst same
    simp only [State.wake, Function.update_self] at asleep
    exact asleep.elim
  · simp only [State.wake, Function.update_of_ne same] at asleep
    exact counted.empty other asleep

theorem counted_of_reachable (nonneg : 0 ≤ initCount)
    (reached : (system initCount).Reachable state)
    (few : initCount + signals state.finished < 2 ^ 31) : Counted initCount state := by
  revert few
  apply reached.invariant
  · rintro state rfl _
    refine ⟨nonneg, ?_, fun _ asleep => asleep.elim⟩
    show initCount = initCount + (0 : Nat) - (0 : Nat)
    omega
  · intro state label next reached counted step few
    cases step with
    | @run label thread call ran phase turn delivered =>
        have move := turn_move (fits_of_reachable reached) turn
        refine (counted ?_).turn move delivered few
        have more : signals state.finished ≤
            signals (state.finished ++ ran.next.finished thread call) := by
          rw [signals_append]
          exact Nat.le_add_right _ _
        have few : initCount + signals (state.finished ++ ran.next.finished thread call) < 2 ^ 31 :=
          few
        omega
    | @rouse thread call point condition timed asleep => exact (counted few).wake point .spurious
    | @expire thread call point condition asleep => exact (counted few).wake point .expired

omit [DecidableEq Thread] in
/-- A section that finishes no signal and takes no unit changes nothing. -/
theorem Move.quiet (move : Move state.shared call ran) (thread : Thread) :
    (∃ done : Finished Thread Call Result, ran.next.finished thread call = [done] ∧
      (done.call = .signal ∨ takes done.call done.result = true)) ∨
    ran.shared = state.shared ∧ ran.notices = [] := by
  cases move with
  | sleep | giveUp | getCount => exact .inr ⟨rfl, rfl⟩
  | take taken positive => exact .inl ⟨_, rfl, .inr taken⟩
  | signal => exact .inl ⟨_, rfl, .inl rfl⟩

theorem quiet_of_reachable (reached : (system initCount).Reachable state)
    (step : (system initCount).step state label next) :
    (∃ done : Finished Thread Call Result, next.finished = state.finished ++ [done] ∧
      (done.call = .signal ∨ takes done.call done.result = true)) ∨
    next.shared = state.shared ∧
      ∃ thread, ∀ other, other ≠ thread → next.phase other = state.phase other := by
  cases step with
  | @run label thread call ran phase turn delivered =>
      rcases (turn_move (fits_of_reachable reached) turn).quiet thread with
        ⟨done, finished, changes⟩ | ⟨shared, none⟩
      · refine .inl ⟨done, ?_, changes⟩
        show state.finished ++ ran.next.finished thread call = _
        rw [finished]
      · refine .inr ⟨shared, thread, fun other different => ?_⟩
        show Function.update phase thread _ other = state.phase other
        rw [Function.update_of_ne different]
        rw [none] at delivered
        cases delivered
        rfl
  | @rouse thread | @expire thread =>
      exact .inr ⟨rfl, thread, fun other different => Function.update_of_ne different _ _⟩

end Invariant

section Theorem

variable [DecidableEq Thread]

/-- With fewer than `2 ^ 31 - initCount` signals every reachable state counts exactly. -/
theorem semaphore_counts {initCount : Int} (nonneg : 0 ≤ initCount) {state : SemaphoreState Thread}
    (reached : (system initCount).Reachable state)
    (few : (signals state.finished : Int) < 2 ^ 31 - initCount) :
    CountsExactly initCount state := by
  have counted := counted_of_reachable nonneg reached (by omega)
  refine ⟨counted.nonneg, counted.exact, fun label next => quiet_of_reachable reached, ?_⟩
  rintro ⟨positive, -, thread, asleep⟩
  have empty := counted.empty thread asleep
  omega

/-- A thread has signalled. -/
def signalled : SemaphoreState Bool :=
  State.ran ⟨⟨0⟩, fun _ => .idle, []⟩ true Call.signal (Semaphore.signal ⟨0⟩) fun _ => .idle

theorem semaphore_counts_signalled : CountsExactly 0 signalled := by
  have step : (system 0).step ⟨⟨0⟩, fun _ => .idle, []⟩ (.enter true .signal) signalled :=
    .run (.enter Call.signal rfl) (.all (.nil _))
  exact semaphore_counts le_rfl (.step (.initial rfl) step) (by decide)

end Theorem

end Blocxx.Semaphores
