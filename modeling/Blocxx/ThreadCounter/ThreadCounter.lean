import Blocxx.Library.SequentialObject

/-!
This file embeds `ThreadCounter` and proves that it is a counter whose calls happen one after the
other, and that no thread waits for what has happened. Each definition is one section that holds
`m_runCountGuard`.
-/

namespace Blocxx.ThreadCounters
open Library Library.Monitor

section Model

structure ThreadCounter where
  m_maxThreads : Int32
  m_runCount : Int32

inductive Condition where
  | m_runCountCondition
  deriving DecidableEq

inductive Call where
  | incThreadCount
  | decThreadCount
  | getThreadCount
  | waitForAll
  | setMax (maxThreads : Int32)

inductive Point where
  | incLoop
  | waitLoop

/-- A failed `BLOCXX_ASSERT` throws as well. -/
inductive Result where
  | returned
  | count (m_runCount : Int32)
  | TimeoutException (message : String)
  | AssertionException (condition : String)

abbrev CounterSection := Section ThreadCounter Result Point Condition

namespace ThreadCounter

variable (counter : ThreadCounter)

/-- The loop test of `incThreadCount` and the code after the loop. -/
def incLoop : CounterSection :=
  if counter.m_maxThreads ≤ counter.m_runCount then
    ⟨counter, [], .wait .m_runCountCondition true .incLoop⟩
  else ⟨{ counter with m_runCount := counter.m_runCount + 1 }, [], .finish .returned⟩

def decThreadCount : CounterSection :=
  if 0 < counter.m_runCount then
    ⟨{ counter with m_runCount := counter.m_runCount - 1 }, [.all .m_runCountCondition],
      .finish .returned⟩
  else ⟨counter, [], .finish (.AssertionException "m_runCount > 0")⟩

def getThreadCount : CounterSection := ⟨counter, [], .finish (.count counter.m_runCount)⟩

/-- The loop test of `waitForAll` and the code after the loop. -/
def waitLoop : CounterSection :=
  if 0 < counter.m_runCount then ⟨counter, [], .wait .m_runCountCondition true .waitLoop⟩
  else ⟨counter, [], .finish .returned⟩

def setMax (maxThreads : Int32) : CounterSection :=
  ⟨{ counter with m_maxThreads := maxThreads }, [.all .m_runCountCondition], .finish .returned⟩

/-- An expired wait throws. -/
def timedout (message : String) : CounterSection :=
  ⟨counter, [], .finish (.TimeoutException message)⟩

end ThreadCounter

def program : Program ThreadCounter Call Result Point Condition where
  enter
    | .incThreadCount => ThreadCounter.incLoop
    | .decThreadCount => ThreadCounter.decThreadCount
    | .getThreadCount => ThreadCounter.getThreadCount
    | .waitForAll => ThreadCounter.waitLoop
    | .setMax maxThreads => (ThreadCounter.setMax · maxThreads)
  resume
    | _, .incLoop, true => ThreadCounter.incLoop
    | _, .incLoop, false => (ThreadCounter.timedout · "ThreadCounter::incThreadCount timedout")
    | _, .waitLoop, true => ThreadCounter.waitLoop
    | _, .waitLoop, false => (ThreadCounter.timedout · "ThreadCounter::waitForAll timedout")

end Model

section Property

/-- What a counter is for. -/
structure Counter where
  max : Int
  count : Nat

/-- An increment returns below the maximum, a wait returns when nothing is left, and what throws changes
nothing. -/
def Counter.after : After Counter Call Result
  | counter, .incThreadCount, .returned =>
      if counter.count < counter.max then some { counter with count := counter.count + 1 } else none
  | counter, .decThreadCount, .returned =>
      if 0 < counter.count then some { counter with count := counter.count - 1 } else none
  | counter, .decThreadCount, .AssertionException _ =>
      if counter.count = 0 then some counter else none
  | counter, .getThreadCount, .count m_runCount =>
      if m_runCount.toInt = counter.count then some counter else none
  | counter, .waitForAll, .returned => if counter.count = 0 then some counter else none
  | counter, .setMax maxThreads, .returned => some { counter with max := maxThreads.toInt }
  | counter, .incThreadCount, .TimeoutException _ | counter, .waitForAll, .TimeoutException _ =>
      some counter
  | _, _, _ => none

def Represents (shared : ThreadCounter) (counter : Counter) : Prop :=
  shared.m_maxThreads.toInt = counter.max ∧ shared.m_runCount.toInt = counter.count

/-- The test of the loop at the point still holds. -/
def Blocks (shared : ThreadCounter) (_ : Call) : Point → Prop
  | .incLoop => shared.m_maxThreads ≤ shared.m_runCount
  | .waitLoop => 0 < shared.m_runCount

variable {Thread : Type} [DecidableEq Thread]

abbrev CounterState (Thread : Type) := State Thread ThreadCounter Call Result Point Condition

def system (maxThreads : Int32) : TransitionSystem (CounterState Thread) (Label Thread Call) :=
  program.system ⟨maxThreads, 0⟩

omit [DecidableEq Thread] in
/-- The finished calls are those of a counter, which never passes all of its maxima, and each thread
that sleeps has to. -/
structure Sound (maxThreads : Int32) (state : CounterState Thread) : Prop where
  serial : state.Serial Counter.after Represents ⟨maxThreads.toInt, 0⟩
  bounded : ∀ most : Int, 0 ≤ most → maxThreads.toInt ≤ most →
    (∀ done ∈ state.finished, ∀ max, done.call = .setMax max → max.toInt ≤ most) →
      state.shared.m_runCount.toInt ≤ most
  asleep : state.Blocked Blocks

end Property

section Steps

/-- No call goes on without the lock. -/
def Leaves (_ : Call) (_ : Point) : Prop := False

/-- This relation lists the waits of each call. -/
inductive Waits : Call → Point → Condition → Bool → Prop
  | inc : Waits .incThreadCount .incLoop .m_runCountCondition true
  | waitForAll : Waits .waitForAll .waitLoop .m_runCountCondition true

/-- This relation lists what a section can do. -/
inductive Move (shared : ThreadCounter) : Call → CounterSection → Prop
  | sleep {call : Call} {point : Point} (waits : Waits call point .m_runCountCondition true)
      (blocks : Blocks shared call point) :
      Move shared call ⟨shared, [], .wait .m_runCountCondition true point⟩
  | inc (below : shared.m_runCount < shared.m_maxThreads) :
      Move shared .incThreadCount
        ⟨{ shared with m_runCount := shared.m_runCount + 1 }, [], .finish .returned⟩
  | dec (positive : 0 < shared.m_runCount) :
      Move shared .decThreadCount ⟨{ shared with m_runCount := shared.m_runCount - 1 },
        [.all .m_runCountCondition], .finish .returned⟩
  | setMax (maxThreads : Int32) : Move shared (.setMax maxThreads) (shared.setMax maxThreads)
  | stays {call : Call} {result : Result} (allowed : ∀ counter, Represents shared counter →
      Counter.after counter call result = some counter) : Move shared call ⟨shared, [], .finish result⟩

variable {shared : ThreadCounter} {call : Call} {ran : CounterSection}

theorem Represents.eq_zero {counter : Counter} (represents : Represents shared counter)
    (none : ¬ 0 < shared.m_runCount) : counter.count = 0 := by
  rw [Int32.lt_iff_toInt_lt, represents.2] at none
  change ¬ (0 : Int) < counter.count at none
  omega

theorem incLoop_move (shared : ThreadCounter) : Move shared .incThreadCount shared.incLoop := by
  rw [ThreadCounter.incLoop]
  split
  · next full => exact .sleep .inc full
  · next below => exact .inc (Int32.not_le.mp below)

theorem waitLoop_move (shared : ThreadCounter) : Move shared .waitForAll shared.waitLoop := by
  rw [ThreadCounter.waitLoop]
  split
  · next positive => exact .sleep .waitForAll positive
  · next none => exact .stays fun counter represents => if_pos (represents.eq_zero none)

theorem enter_move (call : Call) (shared : ThreadCounter) :
    Move shared call (program.enter call shared) := by
  cases call with
  | incThreadCount => exact incLoop_move shared
  | decThreadCount =>
      show Move shared _ shared.decThreadCount
      rw [ThreadCounter.decThreadCount]
      split
      · next positive => exact .dec positive
      · next none => exact .stays fun counter represents => if_pos (represents.eq_zero none)
  | getThreadCount => exact .stays fun counter represents => if_pos represents.2
  | waitForAll => exact waitLoop_move shared
  | setMax maxThreads => exact .setMax maxThreads

theorem resume_move {point : Point} {answer : Bool} (shared : ThreadCounter)
    (continues : Continues Waits Leaves call point answer) :
    Move shared call (program.resume call point answer shared) := by
  rcases continues with ⟨leaves, -⟩ | ⟨condition, timed, waits, -⟩
  · exact leaves.elim
  · cases waits with
    | inc =>
        cases answer with
        | true => exact incLoop_move shared
        | false => exact .stays fun _ _ => rfl
    | waitForAll =>
        cases answer with
        | true => exact waitLoop_move shared
        | false => exact .stays fun _ _ => rfl

theorem Move.fits (move : Move shared call ran) : (ran.next.phase call).Fits Waits Leaves := by
  cases move with
  | sleep waits blocks => exact waits
  | inc | dec | setMax | stays => trivial

theorem program_keeps : program.Keeps Waits Leaves where
  enter call shared := (enter_move call shared).fits
  resume _ _ _ shared continues := (resume_move shared continues).fits

/-- A count below the maximum has a successor. -/
theorem toInt_add_one {n most : Int32} (below : n < most) : (n + 1).toInt = n.toInt + 1 := by
  have small := most.toInt_lt
  have large := n.le_toInt
  rw [Int32.lt_iff_toInt_lt] at below
  rw [Int32.toInt_add]
  exact Int.bmod_eq_of_le (by show _ ≤ n.toInt + 1; omega) (by show n.toInt + 1 < _; omega)

theorem toInt_sub_one {n : Int32} (positive : 0 < n) : (n - 1).toInt = n.toInt - 1 := by
  have small := n.toInt_lt
  rw [Int32.lt_iff_toInt_lt] at positive
  change 0 < n.toInt at positive
  rw [Int32.toInt_sub]
  exact Int.bmod_eq_of_le (by show _ ≤ n.toInt - 1; omega) (by show n.toInt - 1 < _; omega)

theorem Move.simulates (move : Move shared call ran) {counter : Counter}
    (represents : Represents shared counter) :
    ran.Simulates Counter.after Represents call counter := by
  obtain ⟨max, count⟩ := represents
  cases move with
  | sleep waits blocks => exact ⟨max, count⟩
  | inc below =>
      have next := toInt_add_one below
      rw [Int32.lt_iff_toInt_lt, max, count] at below
      refine ⟨_, if_pos below, max, next.trans ?_⟩
      rw [count]
      rfl
  | dec positive =>
      have next := toInt_sub_one positive
      rw [Int32.lt_iff_toInt_lt, count] at positive
      change (0 : Int) < counter.count at positive
      refine ⟨_, if_pos (by omega), max, next.trans ?_⟩
      show shared.m_runCount.toInt - 1 = ((counter.count - 1 : Nat) : Int)
      omega
  | setMax maxThreads => exact ⟨_, rfl, rfl, count⟩
  | stays allowed => exact ⟨counter, allowed counter ⟨max, count⟩, max, count⟩

/-- Only an increment, which no thread waits for, wakes nobody when it changes the counter. -/
theorem Move.keeps (move : Move shared call ran) :
    (∀ call point, Blocks shared call point → Blocks ran.shared call point) ∨
      ∀ condition, .all condition ∈ ran.notices := by
  cases move with
  | sleep | stays => exact .inl fun _ _ => id
  | inc below =>
      left
      intro call point blocks
      cases point with
      | incLoop => exact absurd blocks (Int32.not_le.mpr below)
      | waitLoop =>
          change 0 < shared.m_runCount + 1
          rw [Int32.lt_iff_toInt_lt, toInt_add_one below]
          have positive := Int32.lt_iff_toInt_lt.mp blocks
          omega
  | dec | setMax => exact .inr fun condition => by cases condition; exact List.mem_singleton_self _

end Steps

section Theorem

variable {Thread : Type} [DecidableEq Thread] {maxThreads : Int32} {state : CounterState Thread}

omit [DecidableEq Thread] in
theorem turn_move {label : Label Thread Call} {thread : Thread} {call : Call} {ran : CounterSection}
    (fits : ∀ thread, (state.phase thread).Fits Waits Leaves)
    (turn : Turn program state label thread call ran) : Move state.shared call ran := by
  rcases turn.continues fits with ⟨-, -, rfl⟩ | ⟨-, point, answer, -, continues, rfl⟩
  · exact enter_move call state.shared
  · exact resume_move state.shared continues

/-- A call keeps the counter below a bound of its maxima. -/
theorem after_bounded {most : Int} {counter next : Counter} {call : Call} {result : Result}
    (bounded : counter.count ≤ most ∧ counter.max ≤ most)
    (maximum : ∀ max, call = .setMax max → max.toInt ≤ most)
    (taken : counter.after call result = some next) : next.count ≤ most ∧ next.max ≤ most := by
  unfold Counter.after at taken
  split at taken <;> grind

omit [DecidableEq Thread] in
theorem history_bounded {most : Int} {start counter : Counter}
    (bounded : start.count ≤ most ∧ start.max ≤ most) {finished : List (Finished Thread Call Result)}
    (maxima : ∀ done ∈ finished, ∀ max, done.call = .setMax max → max.toInt ≤ most)
    (leads : Counter.after.history start finished = some counter) : counter.count ≤ most := by
  induction finished generalizing start with
  | nil =>
      cases leads
      exact bounded.1
  | cons done rest ih =>
      rw [List.forall_mem_cons] at maxima
      obtain ⟨next, first, later⟩ := Option.bind_eq_some_iff.mp leads
      exact ih (after_bounded bounded maxima.1 first) maxima.2 later

/-- In every reachable state the finished calls are those of a counter, and each thread that sleeps has
to. -/
theorem thread_counter_sound (reached : (system maxThreads).Reachable state) :
    Sound maxThreads state := by
  have both : state.Serial Counter.after Represents ⟨maxThreads.toInt, 0⟩ ∧ state.Blocked Blocks := by
    apply reached.invariant
    · rintro state rfl
      exact ⟨⟨_, rfl, rfl, rfl⟩, nofun⟩
    · intro state label next before kept step
      have fits := program_keeps.reachable before
      constructor
      · exact kept.1.step step fun counter turn _ => (turn_move fits turn).simulates
      · refine kept.2.step step ?_ fun turn => (turn_move fits turn).keeps
        intro thread call ran turn condition timed point ends
        cases turn_move fits turn with
        | sleep waits blocks =>
            cases ends
            exact blocks
        | inc | dec | setMax | stays => cases ends
  refine ⟨both.1, ?_, both.2⟩
  intro most nonneg max maxima
  obtain ⟨counter, leads, -, count⟩ := both.1
  rw [count]
  exact history_bounded ⟨nonneg, max⟩ maxima leads

/-- A thread has been counted. -/
def counted : CounterState Bool :=
  State.ran ⟨⟨1, 0⟩, fun _ => .idle, []⟩ true Call.incThreadCount (ThreadCounter.incLoop ⟨1, 0⟩)
    fun _ => .idle

theorem thread_counter_sound_counted : Sound 1 counted := by
  have step : (system 1).step ⟨⟨1, 0⟩, fun _ => .idle, []⟩ (.enter true .incThreadCount) counted :=
    .run (.enter Call.incThreadCount rfl) (.nil _)
  exact thread_counter_sound (.step (.initial rfl) step)

end Theorem

end Blocxx.ThreadCounters
