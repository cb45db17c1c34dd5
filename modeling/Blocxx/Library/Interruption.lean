import Blocxx.Library.Monitor

/-!
This file lets the waits of a monitor throw. A wait tests for a request to cancel its thread before
the thread sleeps and after an interruption. It also marks the calls that change a part of the
shared state.
-/

namespace Blocxx.Library.Monitor

variable {Thread Shared Call Result Point Condition View : Type}

/-- The exception of a wait leads its call to the end or to a later point. -/
abbrev Raise (Call Result Point Condition : Type) := Call → Point → Next Result Point Condition

/-- A wait throws in the section that starts it, or in a section of its own after an
interruption. -/
inductive Thrown (program : Program Shared Call Result Point Condition)
    (raise : Raise Call Result Point Condition)
    (state : State Thread Shared Call Result Point Condition) :
    Label Thread Call → Thread → Call → Section Shared Result Point Condition → Prop
  | entering {label : Label Thread Call} {thread : Thread} {call : Call}
      {ran : Section Shared Result Point Condition} {condition : Condition} {timed : Bool}
      {point : Point} (turn : Turn program state label thread call ran)
      (waits : ran.next = .wait condition timed point) :
      Thrown program raise state label thread call ⟨ran.shared, ran.notices, raise call point⟩
  | leaving {thread : Thread} {call : Call} {point : Point} {condition : Condition}
      (stands : state.phase thread = .woken call point condition .spurious) :
      Thrown program raise state (.resume thread) thread call
        ⟨state.shared, [], raise call point⟩

/-- A step is one of the program, or a section that an exception ends. -/
inductive ThrowingStep [DecidableEq Thread] [DecidableEq Condition]
    (program : Program Shared Call Result Point Condition)
    (raise : Raise Call Result Point Condition) :
    State Thread Shared Call Result Point Condition → Label Thread Call →
      State Thread Shared Call Result Point Condition → Prop
  | plain {state next : State Thread Shared Call Result Point Condition}
      {label : Label Thread Call} (step : Step program state label next) :
      ThrowingStep program raise state label next
  | thrown {state : State Thread Shared Call Result Point Condition} {label : Label Thread Call}
      {thread : Thread} {call : Call} {ran : Section Shared Result Point Condition}
      {phase : Thread → Phase Call Point Condition}
      (turn : Thrown program raise state label thread call ran)
      (delivered : Delivered ran.notices state.phase phase) :
      ThrowingStep program raise state label (state.ran thread call ran phase)

/-- All threads are idle at the start. -/
def Program.throwingSystem [DecidableEq Thread] [DecidableEq Condition]
    (program : Program Shared Call Result Point Condition)
    (raise : Raise Call Result Point Condition) (start : Shared) :
    TransitionSystem (State Thread Shared Call Result Point Condition) (Label Thread Call) where
  initial state := state = ⟨start, fun _ => .idle, []⟩
  step := ThrowingStep program raise

/-- A run in which no wait throws is a run. -/
theorem Program.throwing_run [DecidableEq Thread] [DecidableEq Condition]
    {program : Program Shared Call Result Point Condition}
    {raise : Raise Call Result Point Condition} {start : Shared}
    {state : State Thread Shared Call Result Point Condition}
    {steps : List (TransitionSystem.Transition
      (State Thread Shared Call Result Point Condition) (Label Thread Call))}
    (run : (program.system start).Run state steps) :
    (program.throwingSystem raise start).Run state steps :=
  run.mono fun _ _ _ step => ThrowingStep.plain step

section Standing

variable {program : Program Shared Call Result Point Condition}
  {raise : Raise Call Result Point Condition}
  {state next : State Thread Shared Call Result Point Condition} {label : Label Thread Call}
  {thread : Thread} {call : Call} {ran : Section Shared Result Point Condition}
  {waits : Call → Point → Condition → Bool → Prop} {leaves : Call → Point → Prop}

/-- A relation lists what the sections do, those that an exception ends included. -/
structure Lists (program : Program Shared Call Result Point Condition)
    (raise : Raise Call Result Point Condition)
    (waits : Call → Point → Condition → Bool → Prop) (leaves : Call → Point → Prop)
    (move : Shared → Call → Option Point → Bool → Section Shared Result Point Condition → Prop) :
    Prop where
  enter : ∀ call shared, move shared call none true (program.enter call shared)
  resume : ∀ call point answer shared, Continues waits leaves call point answer →
    move shared call (some point) answer (program.resume call point answer shared)
  entering : ∀ shared call point answer ran condition timed here,
    move shared call point answer ran → ran.next = .wait condition timed here →
      move shared call point answer ⟨ran.shared, ran.notices, raise call here⟩
  leaving : ∀ shared call point condition timed, waits call point condition timed →
    move shared call (some point) true ⟨shared, [], raise call point⟩
  fits : ∀ shared call point answer ran, move shared call point answer ran →
    (ran.next.phase call).Fits waits leaves

variable {move : Shared → Call → Option Point → Bool →
  Section Shared Result Point Condition → Prop}

/-- A turn of the program makes one of the listed moves. -/
theorem Lists.of_turn (lists : Lists program raise waits leaves move)
    (fits : ∀ thread, (state.phase thread).Fits waits leaves)
    (turn : Turn program state label thread call ran) :
    ∃ point answer, Begins state label thread call point answer ∧
      move state.shared call point answer ran := by
  rcases turn.begins fits with ⟨begins, rfl⟩ | ⟨point, answer, begins, continues, rfl⟩
  · exact ⟨none, true, begins, lists.enter call state.shared⟩
  · exact ⟨some point, answer, begins, lists.resume call point answer state.shared continues⟩

/-- A section that an exception ends makes one of the listed moves. -/
theorem Lists.of_thrown (lists : Lists program raise waits leaves move)
    (fits : ∀ thread, (state.phase thread).Fits waits leaves)
    (turn : Thrown program raise state label thread call ran) :
    ∃ point answer, Begins state label thread call point answer ∧
      move state.shared call point answer ran := by
  cases turn with
  | entering turn sleeps =>
      obtain ⟨point, answer, begins, moves⟩ := lists.of_turn fits turn
      exact ⟨point, answer, begins, lists.entering _ _ _ _ _ _ _ _ moves sleeps⟩
  | @leaving thread call point condition stands =>
      have stood := fits thread
      rw [stands] at stood
      obtain ⟨timed, waited, _⟩ := stood
      refine ⟨some point, true, ⟨?_, nofun, fun _ => rfl, nofun⟩,
        lists.leaving state.shared call point condition timed waited⟩
      rw [State.position, stands, Phase.position]
      rfl

theorem Lists.keeps (lists : Lists program raise waits leaves move) :
    program.Keeps waits leaves where
  enter call shared := lists.fits shared call none true _ (lists.enter call shared)
  resume call point answer shared continues :=
    lists.fits shared call (some point) answer _ (lists.resume call point answer shared continues)

/-- A thread that goes on runs the section after its point. -/
theorem Begins.of_resume {point : Option Point} {answer : Bool}
    (begins : Begins state label thread call point answer) {other : Thread} {inner : Call}
    {here : Point} (resumes : label = .resume other)
    (stands : state.position other = some (inner, here)) : call = inner ∧ point = some here := by
  have place := begins.stands
  cases point with
  | none =>
      have enters := begins.entered rfl
      rw [resumes] at enters
      cases enters
  | some point =>
      have goes := begins.resumed nofun
      rw [resumes] at goes
      cases goes
      rw [stands] at place
      cases place
      exact ⟨rfl, rfl⟩

variable [DecidableEq Thread] [DecidableEq Condition]

/-- Each step runs one of the listed moves and delivers its notices, or wakes a sleeper. -/
theorem Lists.ran_or_woken (lists : Lists program raise waits leaves move)
    (fits : ∀ thread, (state.phase thread).Fits waits leaves)
    (step : ThrowingStep program raise state label next) :
    (∃ thread call point answer ran phase, Begins state label thread call point answer ∧
        move state.shared call point answer ran ∧ Delivered ran.notices state.phase phase ∧
        next = state.ran thread call ran phase) ∨
      state.callOf label = none ∧ ∃ thread call point condition timed wake,
        state.phase thread = .asleep call point condition timed ∧
        next = state.wake thread (.woken call point condition wake) := by
  cases step with
  | plain step =>
      cases step with
      | run turn delivered =>
          obtain ⟨point, answer, begins, moves⟩ := lists.of_turn fits turn
          exact .inl ⟨_, _, point, answer, _, _, begins, moves, delivered, rfl⟩
      | rouse asleep => exact .inr ⟨rfl, _, _, _, _, _, _, asleep, rfl⟩
      | expire asleep => exact .inr ⟨rfl, _, _, _, _, _, _, asleep, rfl⟩
  | thrown turn delivered =>
      obtain ⟨point, answer, begins, moves⟩ := lists.of_thrown fits turn
      exact .inl ⟨_, _, point, answer, _, _, begins, moves, delivered, rfl⟩

/-- Each step makes one of the listed moves or changes nothing but a wait set. -/
theorem Lists.of_step (lists : Lists program raise waits leaves move)
    (fits : ∀ thread, (state.phase thread).Fits waits leaves)
    (step : ThrowingStep program raise state label next) :
    (∃ thread call point answer ran, Begins state label thread call point answer ∧
        move state.shared call point answer ran ∧ next.shared = ran.shared ∧
        next.position = Function.update state.position thread (ran.next.position call) ∧
        next.finished = state.finished ++ ran.next.finished thread call) ∨
      state.callOf label = none ∧ next.shared = state.shared ∧ next.position = state.position ∧
        next.finished = state.finished := by
  rcases lists.ran_or_woken fits step with
    ⟨thread, call, point, answer, ran, phase, begins, moves, delivered, rfl⟩ |
    ⟨silent, thread, call, point, condition, timed, wake, asleep, rfl⟩
  · exact .inl ⟨thread, call, point, answer, ran, begins, moves, rfl,
      State.ran_position delivered, rfl⟩
  · exact .inr ⟨silent, rfl, State.wake_position (by rw [asleep]; rfl), rfl⟩

/-- The exceptions leave every thread where it may stand. -/
theorem Lists.step_fits (lists : Lists program raise waits leaves move)
    (fits : ∀ thread, (state.phase thread).Fits waits leaves)
    (step : ThrowingStep program raise state label next) (other : Thread) :
    (next.phase other).Fits waits leaves := by
  cases step with
  | plain step => exact step.fits lists.keeps fits other
  | thrown turn delivered =>
      obtain ⟨point, answer, _, moves⟩ := lists.of_thrown fits turn
      exact State.ran_fits delivered fits (lists.fits _ _ _ _ _ moves) other

end Standing

end Blocxx.Library.Monitor
