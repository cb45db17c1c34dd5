import Blocxx.Library.Monitor
import Blocxx.Library.Census

/-!
This file embeds the generic `ThreadBarrierImpl` and proves that the barrier can be used again and
again by as many threads as its threshold. Each definition is one section that holds `m_mutex`.
-/

namespace Blocxx.Barrier
open Library.Monitor

/-- Each sub-barrier has a count and a condition. -/
inductive SubBarrier where
  | m_subBarrier0
  | m_subBarrier1
  deriving DecidableEq

structure ThreadBarrierImpl where
  m_threshold : Nat
  m_curSubBarrier : Int
  m_waitingCount : SubBarrier → Nat

inductive Call where
  | wait

/-- The point keeps the sub-barrier that the call has selected. -/
inductive Point where
  | waitLoop (curBarrier : SubBarrier)

abbrev BarrierSection := Section ThreadBarrierImpl Unit Point SubBarrier

namespace ThreadBarrierImpl

/-- The constructor. -/
def new (threshold : Nat) : ThreadBarrierImpl := ⟨threshold, 0, fun _ => 0⟩

variable (barrier : ThreadBarrierImpl)

def curBarrier : SubBarrier :=
  if barrier.m_curSubBarrier ≠ 0 then .m_subBarrier0 else .m_subBarrier1

def setCount (subBarrier : SubBarrier) (count : Nat) : ThreadBarrierImpl :=
  { barrier with m_waitingCount := Function.update barrier.m_waitingCount subBarrier count }

/-- The loop test of `wait` and the return after the loop. -/
def waitLoop (curBarrier : SubBarrier) : BarrierSection :=
  if barrier.m_waitingCount curBarrier ≠ 0 then
    ⟨barrier, [], .wait curBarrier false (.waitLoop curBarrier)⟩
  else ⟨barrier, [], .finish ()⟩

def wait : BarrierSection :=
  let curBarrier := barrier.curBarrier
  let count := barrier.m_waitingCount curBarrier + 1
  if count = barrier.m_threshold then
    ⟨{ barrier.setCount curBarrier 0 with m_curSubBarrier := 1 - barrier.m_curSubBarrier },
      [.all curBarrier], .finish ()⟩
  else (barrier.setCount curBarrier count).waitLoop curBarrier

end ThreadBarrierImpl

def program : Program ThreadBarrierImpl Call Unit Point SubBarrier where
  enter _ barrier := barrier.wait
  resume
    | _, .waitLoop curBarrier, _ => fun barrier => barrier.waitLoop curBarrier

end Blocxx.Barrier

namespace Blocxx.Barrier
open Library Library.Monitor

abbrev BarrierState (Thread : Type) := State Thread ThreadBarrierImpl Call Unit Point SubBarrier

abbrev BarrierPhase := Phase Call Point SubBarrier

variable {Thread : Type} [DecidableEq Thread]

def system (threshold : Nat) : TransitionSystem (BarrierState Thread) (Label Thread Call) :=
  program.system (.new threshold)

/-- How many calls of `wait` the thread has returned from. -/
def returned (state : BarrierState Thread) (thread : Thread) : Nat :=
  (state.finished.filter fun done => done.thread = thread).length

/-- How many calls of `wait` the thread has entered. -/
def entered (state : BarrierState Thread) (thread : Thread) : Nat :=
  returned state thread + (state.position thread).isSome.toNat

/-- The sub-barrier of a generation. -/
def barrierOf (generation : Nat) : SubBarrier :=
  if generation % 2 = 0 then .m_subBarrier1 else .m_subBarrier0

/-- Where a thread stands in a generation, with the calls that it has entered and returned from.
It is outside, it has arrived, or it has been released and has not returned yet. -/
inductive Standing : Nat → BarrierPhase → Nat → Nat → Prop
  | outside (generation : Nat) : Standing generation .idle generation generation
  | asleep (generation : Nat) :
      Standing generation
        (.asleep .wait (.waitLoop (barrierOf generation)) (barrierOf generation) false)
        (generation + 1) generation
  | awake (generation : Nat) (wake : Wake) :
      Standing generation
        (.woken .wait (.waitLoop (barrierOf generation)) (barrierOf generation) wake)
        (generation + 1) generation
  | released (generation : Nat) (wake : Wake) :
      Standing (generation + 1)
        (.woken .wait (.waitLoop (barrierOf generation)) (barrierOf generation) wake)
        (generation + 1) generation

section Facts

variable {generation : Nat} {phase : BarrierPhase} {calls returns : Nat}

theorem barrierOf_spare (generation : Nat) :
    barrierOf (generation + 1) ≠ barrierOf generation ∧
      barrierOf (generation + 1 + 1) = barrierOf generation := by
  unfold barrierOf
  rcases Nat.mod_two_eq_zero_or_one generation with even | odd
  · have next : (generation + 1) % 2 = 1 := by omega
    have again : (generation + 1 + 1) % 2 = 0 := by omega
    rw [even, next, again]
    decide
  · have next : (generation + 1) % 2 = 0 := by omega
    have again : (generation + 1 + 1) % 2 = 1 := by omega
    rw [odd, next, again]
    decide

/-- No thread is more than one call ahead of the generation, and none is behind. -/
theorem Standing.near (standing : Standing generation phase calls returns) :
    (calls = generation ∨ calls = generation + 1) ∧ returns ≤ generation := by
  cases standing with
  | outside => exact ⟨.inl rfl, le_rfl⟩
  | asleep => exact ⟨.inr rfl, le_rfl⟩
  | awake => exact ⟨.inr rfl, le_rfl⟩
  | released => exact ⟨.inl rfl, Nat.le_succ _⟩

theorem Standing.of_idle (standing : Standing generation .idle calls returns) :
    calls = generation ∧ returns = generation := by
  cases standing with
  | outside => exact ⟨rfl, rfl⟩

/-- A thread that has left its wait set has arrived, or it has been released. -/
theorem Standing.of_woken {call : Call} {point : Point} {condition : SubBarrier} {wake : Wake}
    (standing : Standing generation (.woken call point condition wake) calls returns) :
    (point = .waitLoop (barrierOf generation) ∧ condition = barrierOf generation ∧
        calls = generation + 1 ∧ returns = generation) ∨
      ∃ before, generation = before + 1 ∧ point = .waitLoop (barrierOf before) ∧
        calls = before + 1 ∧ returns = before := by
  cases standing with
  | awake => exact .inl ⟨rfl, rfl, rfl, rfl⟩
  | released => exact .inr ⟨_, rfl, rfl, rfl, rfl⟩

/-- A sleeper has arrived, and its wait has no timeout. -/
theorem Standing.of_asleep {call : Call} {point : Point} {condition : SubBarrier} {timed : Bool}
    (standing : Standing generation (.asleep call point condition timed) calls returns) :
    timed = false ∧ calls = generation + 1 ∧
      ∀ wake, Standing generation (.woken call point condition wake) calls returns := by
  cases standing with
  | asleep => exact ⟨rfl, rfl, .awake generation⟩

/-- A thread that is released finds a generation behind it. -/
theorem Standing.release (standing : Standing generation phase (generation + 1) returns)
    {later : BarrierPhase} (told : later = phase ∨ later = phase.notify)
    (awake : ¬ later.asleepOn (barrierOf generation)) :
    Standing (generation + 1) later (generation + 1) returns := by
  cases standing with
  | asleep =>
      rcases told with rfl | rfl
      · exact absurd rfl awake
      · exact .released generation .notified
  | awake _ wake =>
      rcases told with rfl | rfl <;> exact .released generation wake

/-- One section moves its thread alone, by one call that it enters or returns from. -/
theorem ran_calls {state : BarrierState Thread} (thread : Thread) (call : Call)
    {ran : BarrierSection} {phase : Thread → BarrierPhase}
    (delivered : Delivered ran.notices state.phase phase) :
    returned (state.ran thread call ran phase) = Function.update (returned state) thread
        (returned state thread + (ran.next.finished thread call).length) ∧
      entered (state.ran thread call ran phase) = Function.update (entered state) thread
        (returned state thread + (ran.next.finished thread call).length +
          (ran.next.position call).isSome.toNat) := by
  have returns : returned (state.ran thread call ran phase) = Function.update (returned state)
      thread (returned state thread + (ran.next.finished thread call).length) := by
    funext other
    show ((state.finished ++ ran.next.finished thread call).filter
      fun done => done.thread = other).length = _
    rw [List.filter_append, List.length_append]
    by_cases same : other = thread
    · subst same
      rw [Function.update_self]
      cases ran.next <;> simp [returned, Next.finished]
    · rw [Function.update_of_ne same]
      cases ran.next <;> simp [returned, Next.finished, Ne.symm same]
  refine ⟨returns, ?_⟩
  funext other
  unfold entered
  rw [returns, State.ran_position delivered]
  by_cases same : other = thread
  · subst same
    simp only [Function.update_self]
  · simp only [Function.update_of_ne same]

end Facts

variable [Fintype Thread]

/-- This is the invariant of a generation: the counts of the two sub-barriers, the current one, and
the place of each thread. -/
structure InGeneration (generation : Nat) (state : BarrierState Thread) : Prop where
  threshold : state.shared.m_threshold = Fintype.card Thread
  current : state.shared.m_curSubBarrier = (generation % 2 : Nat)
  arrived : state.shared.m_waitingCount (barrierOf generation) =
    census (· == generation + 1) (entered state)
  spare : state.shared.m_waitingCount (barrierOf (generation + 1)) = 0
  missing : ∃ thread, entered state thread = generation
  stands : ∀ thread, Standing generation (state.phase thread) (entered state thread)
    (returned state thread)

variable {generation : Nat} {state next : BarrierState Thread} {thread : Thread}
  {phase : Thread → BarrierPhase}

theorem InGeneration.curBarrier (inGeneration : InGeneration generation state) :
    state.shared.curBarrier = barrierOf generation := by
  unfold ThreadBarrierImpl.curBarrier barrierOf
  rw [inGeneration.current]
  rcases Nat.mod_two_eq_zero_or_one generation with even | odd
  · rw [even]
    decide
  · rw [odd]
    decide

/-- The calls after a thread has arrived. -/
theorem InGeneration.arrival (inGeneration : InGeneration generation state)
    (idle : state.phase thread = .idle) {ran : BarrierSection}
    (delivered : Delivered ran.notices state.phase phase)
    (arrives : (ran.next.finished thread Call.wait).length +
      (ran.next.position Call.wait).isSome.toNat = 1) :
    entered (state.ran thread .wait ran phase) =
        Function.update (entered state) thread (generation + 1) ∧
      returned (state.ran thread .wait ran phase) = Function.update (returned state) thread
        (generation + (ran.next.finished thread Call.wait).length) ∧
      census (· == generation + 1) (entered (state.ran thread .wait ran phase)) =
        census (· == generation + 1) (entered state) + 1 := by
  have standing := inGeneration.stands thread
  rw [idle] at standing
  obtain ⟨calls, returns⟩ := standing.of_idle
  obtain ⟨returnsNow, callsNow⟩ := ran_calls thread .wait delivered
  rw [returns] at returnsNow
  rw [returns, Nat.add_assoc, arrives] at callsNow
  refine ⟨callsNow, returnsNow, ?_⟩
  have counted : census (· == generation + 1)
      (Function.update (entered state) thread (generation + 1)) +
        (entered state thread == generation + 1).toNat =
      census (· == generation + 1) (entered state) + (generation + 1 == generation + 1).toNat :=
    census_update thread _
  have before : (entered state thread == generation + 1) = false := by
    rw [calls]
    simp
  rw [before, beq_self_eq_true] at counted
  rw [callsNow]
  exact counted

/-- The last thread to arrive starts the next generation. -/
theorem InGeneration.trip (inGeneration : InGeneration generation state)
    (idle : state.phase thread = .idle)
    (last : state.shared.m_waitingCount (barrierOf generation) + 1 = state.shared.m_threshold)
    (delivered : Delivered state.shared.wait.notices state.phase phase) :
    InGeneration (generation + 1) (state.ran thread .wait state.shared.wait phase) := by
  obtain ⟨spare, same⟩ := barrierOf_spare generation
  have ran : state.shared.wait =
      ⟨{ state.shared.setCount (barrierOf generation) 0 with
          m_curSubBarrier := 1 - state.shared.m_curSubBarrier },
        [.all (barrierOf generation)], .finish ()⟩ := by
    unfold ThreadBarrierImpl.wait
    dsimp only
    rw [inGeneration.curBarrier, if_pos last]
  have goes : state.shared.wait.next = .finish () := by rw [ran]
  have wakes : .all (barrierOf generation) ∈ state.shared.wait.notices := by
    rw [ran]
    exact List.mem_singleton_self _
  obtain ⟨calls, returns, counted⟩ :=
    inGeneration.arrival idle delivered (by rw [goes]; rfl)
  have all : ∀ other, entered (state.ran thread .wait state.shared.wait phase) other =
      generation + 1 := by
    have every := census_eq_card.mp (by
      rw [counted, ← inGeneration.arrived, last, inGeneration.threshold])
    exact fun other => by simpa using every other
  exact {
    threshold := by
      show state.shared.wait.shared.m_threshold = _
      rw [ran]
      exact inGeneration.threshold
    current := by
      show state.shared.wait.shared.m_curSubBarrier = _
      rw [ran]
      show 1 - state.shared.m_curSubBarrier = _
      rw [inGeneration.current]
      omega
    arrived := by
      show state.shared.wait.shared.m_waitingCount _ = _
      rw [ran]
      show Function.update state.shared.m_waitingCount (barrierOf generation) 0 _ = _
      rw [Function.update_of_ne spare, inGeneration.spare]
      refine (census_eq_zero.mpr fun other => ?_).symm
      rw [← ran, all other]
      simp
    spare := by
      show state.shared.wait.shared.m_waitingCount _ = _
      rw [ran]
      show Function.update state.shared.m_waitingCount (barrierOf generation) 0 _ = _
      rw [same, Function.update_self]
    missing := ⟨thread, all thread⟩
    stands := by
      intro other
      rw [all other, returns, goes]
      by_cases own : other = thread
      · subst own
        show Standing _ (Function.update phase other (state.shared.wait.next.phase _) other) _ _
        rw [Function.update_self, Function.update_self, goes]
        exact .outside (generation + 1)
      · show Standing _ (Function.update phase thread _ other) _ _
        rw [Function.update_of_ne own, Function.update_of_ne own]
        have standing := inGeneration.stands other
        have arrivedAlready : entered state other = generation + 1 := by
          have now := all other
          rwa [calls, Function.update_of_ne own] at now
        rw [arrivedAlready] at standing
        exact standing.release (delivered.same_or_notified other)
          (delivered.all_awake wakes other) }

/-- Another thread that arrives sleeps. -/
theorem InGeneration.arrive (inGeneration : InGeneration generation state)
    (idle : state.phase thread = .idle)
    (notLast : state.shared.m_waitingCount (barrierOf generation) + 1 ≠ state.shared.m_threshold)
    (delivered : Delivered state.shared.wait.notices state.phase phase) :
    InGeneration generation (state.ran thread .wait state.shared.wait phase) := by
  obtain ⟨spare, same⟩ := barrierOf_spare generation
  have ran : state.shared.wait =
      ⟨state.shared.setCount (barrierOf generation)
          (state.shared.m_waitingCount (barrierOf generation) + 1), [],
        .wait (barrierOf generation) false (.waitLoop (barrierOf generation))⟩ := by
    unfold ThreadBarrierImpl.wait
    dsimp only
    rw [inGeneration.curBarrier, if_neg notLast]
    unfold ThreadBarrierImpl.waitLoop ThreadBarrierImpl.setCount
    rw [if_pos (by simp)]
  have goes : state.shared.wait.next =
      .wait (barrierOf generation) false (.waitLoop (barrierOf generation)) := by rw [ran]
  have silent : state.shared.wait.notices = [] := by rw [ran]
  obtain ⟨calls, returns, counted⟩ :=
    inGeneration.arrival idle delivered (by rw [goes]; rfl)
  have unmoved : phase = state.phase := by
    rw [silent] at delivered
    cases delivered with
    | nil => rfl
  have stands : ∀ other, Standing generation
      ((state.ran thread .wait state.shared.wait phase).phase other)
      (entered (state.ran thread .wait state.shared.wait phase) other)
      (returned (state.ran thread .wait state.shared.wait phase) other) := by
    intro other
    rw [calls, returns, goes]
    show Standing _ (Function.update phase thread (state.shared.wait.next.phase _) other) _ _
    rw [goes, unmoved]
    by_cases own : other = thread
    · subst own
      simp only [Function.update_self]
      exact .asleep generation
    · simp only [Function.update_of_ne own]
      exact inGeneration.stands other
  exact {
    threshold := by
      show state.shared.wait.shared.m_threshold = _
      rw [ran]
      exact inGeneration.threshold
    current := by
      show state.shared.wait.shared.m_curSubBarrier = _
      rw [ran]
      exact inGeneration.current
    arrived := by
      rw [counted, ← inGeneration.arrived]
      show state.shared.wait.shared.m_waitingCount _ = _
      rw [ran]
      exact Function.update_self _ _ _
    spare := by
      show state.shared.wait.shared.m_waitingCount _ = _
      rw [ran]
      exact (Function.update_of_ne spare _ _).trans inGeneration.spare
    missing := by
      by_contra nobody
      push Not at nobody
      refine notLast ?_
      rw [inGeneration.arrived, ← counted, inGeneration.threshold]
      refine census_eq_card.mpr fun other => ?_
      have one := (stands other).near.1.resolve_left (nobody other)
      simpa using one
    stands := stands }

/-- What changes only phases and returns keeps the generation. -/
theorem InGeneration.of_same (inGeneration : InGeneration generation state)
    (shared : next.shared = state.shared) (calls : entered next = entered state)
    (stands : ∀ thread, Standing generation (next.phase thread) (entered next thread)
      (returned next thread)) : InGeneration generation next where
  threshold := by
    rw [shared]
    exact inGeneration.threshold
  current := by
    rw [shared]
    exact inGeneration.current
  arrived := by
    rw [shared, calls]
    exact inGeneration.arrived
  spare := by
    rw [shared]
    exact inGeneration.spare
  missing := by
    rw [calls]
    exact inGeneration.missing
  stands := stands

/-- A thread that goes on behind its wait sleeps again, or it returns when it has been released. -/
theorem InGeneration.resume (inGeneration : InGeneration generation state) {call : Call}
    {point : Point} {condition : SubBarrier} {wake : Wake} {answer : Bool}
    (woken : state.phase thread = .woken call point condition wake)
    (delivered : Delivered (program.resume call point answer state.shared).notices state.phase
      phase) :
    InGeneration generation
      (state.ran thread call (program.resume call point answer state.shared) phase) := by
  have standing := inGeneration.stands thread
  rw [woken] at standing
  obtain ⟨returnsNow, callsNow⟩ := ran_calls thread call delivered
  rcases standing.of_woken with ⟨rfl, rfl, calls, returns⟩ | ⟨before, rfl, rfl, calls, returns⟩
  · have some_ : state.shared.m_waitingCount (barrierOf generation) ≠ 0 := by
      rw [inGeneration.arrived]
      exact (census_pos.mpr ⟨thread, by rw [calls]; exact beq_self_eq_true _⟩).ne'
    have ran : program.resume call (.waitLoop (barrierOf generation)) answer state.shared =
        ⟨state.shared, [],
          .wait (barrierOf generation) false (.waitLoop (barrierOf generation))⟩ := by
      show state.shared.waitLoop _ = _
      unfold ThreadBarrierImpl.waitLoop
      rw [if_pos some_]
    rw [ran] at delivered returnsNow callsNow ⊢
    cases delivered with
    | nil =>
        rw [returns] at returnsNow callsNow
        have sameCalls : Function.update (entered state) thread (generation + 0 + 1) =
            entered state := Function.update_eq_self_iff.mpr calls.symm
        have sameReturns : Function.update (returned state) thread (generation + 0) =
            returned state := Function.update_eq_self_iff.mpr returns.symm
        have callsSame := callsNow.trans sameCalls
        refine inGeneration.of_same rfl callsSame fun other => ?_
        rw [callsSame, returnsNow.trans sameReturns]
        show Standing _ (Function.update state.phase thread _ other) _ _
        by_cases own : other = thread
        · subst own
          rw [Function.update_self, calls, returns]
          cases call
          exact .asleep generation
        · rw [Function.update_of_ne own]
          exact inGeneration.stands other
  · have zero : state.shared.m_waitingCount (barrierOf before) = 0 := by
      have spare := inGeneration.spare
      rwa [(barrierOf_spare before).2] at spare
    have ran : program.resume call (.waitLoop (barrierOf before)) answer state.shared =
        ⟨state.shared, [], .finish ()⟩ := by
      show state.shared.waitLoop _ = _
      unfold ThreadBarrierImpl.waitLoop
      rw [if_neg (not_not.mpr zero)]
    rw [ran] at delivered returnsNow callsNow ⊢
    cases delivered with
    | nil =>
        rw [returns] at returnsNow callsNow
        have callsSame := callsNow.trans (Function.update_eq_self_iff.mpr calls.symm)
        refine inGeneration.of_same rfl callsSame fun other => ?_
        rw [callsSame, returnsNow]
        show Standing _ (Function.update state.phase thread _ other) _ _
        by_cases own : other = thread
        · subst own
          rw [Function.update_self, Function.update_self, calls]
          exact .outside (before + 1)
        · rw [Function.update_of_ne own, Function.update_of_ne own]
          exact inGeneration.stands other

/-- A sleeper that wakes up keeps the generation. -/
theorem InGeneration.wake (inGeneration : InGeneration generation state) {call : Call}
    {point : Point} {condition : SubBarrier} {timed : Bool}
    (asleep : state.phase thread = .asleep call point condition timed) (wake : Wake) :
    InGeneration generation (state.wake thread (.woken call point condition wake)) := by
  have positions : (state.wake thread (.woken call point condition wake)).position =
      state.position := State.wake_position (by rw [asleep]; rfl)
  have calls : entered (state.wake thread (.woken call point condition wake)) = entered state := by
    funext other
    unfold entered
    rw [positions]
    rfl
  refine inGeneration.of_same rfl calls fun other => ?_
  rw [calls]
  show Standing _ (Function.update state.phase thread _ other) _ (returned state other)
  have standing := inGeneration.stands other
  by_cases own : other = thread
  · subst own
    rw [asleep] at standing
    rw [Function.update_self]
    exact standing.of_asleep.2.2 wake
  · rwa [Function.update_of_ne own]

theorem InGeneration.step (inGeneration : InGeneration generation state) {threshold : Nat}
    {label : Label Thread Call} (step : (system threshold).step state label next) :
    ∃ later, InGeneration later next := by
  cases step with
  | @run label thread call ran phase turn delivered =>
      cases turn with
      | enter _ idle =>
          cases call
          by_cases last :
              state.shared.m_waitingCount (barrierOf generation) + 1 = state.shared.m_threshold
          · exact ⟨generation + 1, inGeneration.trip idle last delivered⟩
          · exact ⟨generation, inGeneration.arrive idle last delivered⟩
      | between stands =>
          have standing := inGeneration.stands thread
          rw [stands] at standing
          cases standing
      | woken stands => exact ⟨generation, inGeneration.resume stands delivered⟩
  | rouse asleep => exact ⟨generation, inGeneration.wake asleep .spurious⟩
  | expire asleep => exact ⟨generation, inGeneration.wake asleep .expired⟩

theorem inGeneration_of_reachable [Nonempty Thread]
    (reached : (system (Fintype.card Thread)).Reachable state) :
    ∃ generation, InGeneration generation state := by
  apply reached.invariant
  · intro state start
    rw [start]
    refine ⟨0, rfl, rfl, ?_, rfl, ⟨Classical.arbitrary Thread, rfl⟩, fun _ => .outside 0⟩
    exact (census_eq_zero.mpr fun _ => rfl).symm
  · rintro state label next - ⟨generation, inGeneration⟩ step
    exact inGeneration.step step

/-- These properties say that the barrier holds each thread until all have entered, and no
longer. -/
structure Synchronized (state : BarrierState Thread) : Prop where
  held : ∀ thread other, returned state thread ≤ entered state other
  released : ∀ count, (∀ other, count ≤ entered state other) →
    ∀ thread, entered state thread = count →
      ∀ call point condition timed, state.phase thread ≠ .asleep call point condition timed

/-- Every reachable state of a barrier for all threads is synchronized. -/
theorem barrier_reusable {state : BarrierState Thread}
    (reached : (system (Fintype.card Thread)).Reachable state) : Synchronized state := by
  constructor
  · intro thread other
    have : Nonempty Thread := ⟨thread⟩
    obtain ⟨generation, inGeneration⟩ := inGeneration_of_reachable reached
    have before := (inGeneration.stands thread).near.2
    have after := (inGeneration.stands other).near.1
    omega
  · rintro count all thread rfl call point condition timed asleep
    have : Nonempty Thread := ⟨thread⟩
    obtain ⟨generation, inGeneration⟩ := inGeneration_of_reachable reached
    have standing := inGeneration.stands thread
    rw [asleep] at standing
    have ahead := standing.of_asleep.2.1
    obtain ⟨late, missing⟩ := inGeneration.missing
    have entered := all late
    omega

/-- The first of two threads waits. -/
def oneWaits : BarrierState (Fin 2) :=
  State.ran ⟨.new 2, fun _ => .idle, []⟩ 0 .wait (ThreadBarrierImpl.new 2).wait fun _ => .idle

theorem barrier_reusable_oneWaits : Synchronized oneWaits := by
  have reached : (system (Fintype.card (Fin 2))).Reachable oneWaits :=
    .step (.initial rfl) (.run (.enter Call.wait rfl) (.nil _))
  exact barrier_reusable reached

end Blocxx.Barrier
