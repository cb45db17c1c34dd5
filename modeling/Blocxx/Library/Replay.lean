import Blocxx.Library.Monitor

/-!
This file computes the runs of a monitor in which no thread sleeps on a condition that is notified,
so that a list of labels fixes the run.
-/

namespace Blocxx.Library

namespace TransitionSystem

variable {State Label : Type*} {system : TransitionSystem State Label}

/-- A run whose steps meet the condition is one of the restricted system. -/
theorem Run.restrict {condition : State → Label → Prop} {state : State}
    {steps : List (Transition State Label)} (run : system.Run state steps)
    (met : ∀ step ∈ steps, condition step.source step.label) :
    (system.restrict condition).Run state steps := by
  induction run with
  | nil state => exact .nil state
  | cons taken tail ih =>
      simp only [List.forall_mem_cons] at met
      exact .cons ⟨taken, met.1⟩ (ih met.2)

end TransitionSystem

namespace Monitor

variable {Thread Shared Call Result Point Condition : Type}

def Notice.condition : Notice Condition → Condition
  | .one condition => condition
  | .all condition => condition

/-- The section that a label runs, with its thread and its call. -/
def Program.turn (program : Program Shared Call Result Point Condition)
    (state : State Thread Shared Call Result Point Condition) :
    Label Thread Call → Option (Thread × Call × Section Shared Result Point Condition)
  | .enter thread call =>
      match state.phase thread with
      | .idle => some (thread, call, program.enter call state.shared)
      | _ => none
  | .resume thread =>
      match state.phase thread with
      | .between call point => some (thread, call, program.resume call point true state.shared)
      | .woken call point _ wake =>
          some (thread, call, program.resume call point (wake != .expired) state.shared)
      | _ => none
  | .rouse _ | .expire _ => none

theorem Program.turn_sound {program : Program Shared Call Result Point Condition}
    {state : State Thread Shared Call Result Point Condition} {label : Label Thread Call}
    {thread : Thread} {call : Call} {ran : Section Shared Result Point Condition}
    (takes : program.turn state label = some (thread, call, ran)) :
    Turn program state label thread call ran := by
  cases label with
  | enter other inner =>
      simp only [Program.turn] at takes
      split at takes
      · next idle =>
          cases takes
          exact .enter _ idle
      · cases takes
  | resume other =>
      simp only [Program.turn] at takes
      split at takes
      · next stands =>
          cases takes
          exact .between stands
      · next stands =>
          cases takes
          exact .woken stands
      · cases takes
  | rouse | expire => cases takes

section Replay

variable [DecidableEq Thread] [DecidableEq Condition]

/-- Nobody hears a notice when no thread sleeps on its condition. -/
theorem Delivered.of_unheard {notices : List (Notice Condition)}
    {phase : Thread → Phase Call Point Condition}
    (awake : ∀ notice ∈ notices, ∀ thread, ¬ (phase thread).asleepOn notice.condition) :
    Delivered notices phase phase := by
  induction notices with
  | nil => exact .nil phase
  | cons notice rest ih =>
      simp only [List.forall_mem_cons] at awake
      cases notice with
      | one condition => exact .nobody awake.1 (ih awake.2)
      | all condition =>
          have same : (fun thread => if (phase thread).asleepOn condition
              then (phase thread).notify else phase thread) = phase := by
            funext thread
            exact if_neg (awake.1 thread)
          refine .all ?_
          rw [same]
          exact ih awake.2

/-- The state after a label, when only the threads of the list are not idle and none of them hears
a notice. -/
def Program.next (program : Program Shared Call Result Point Condition) (active : List Thread)
    (state : State Thread Shared Call Result Point Condition) (label : Label Thread Call) :
    Option (State Thread Shared Call Result Point Condition) :=
  match label with
  | .rouse _ => none
  | .expire thread =>
      match state.phase thread with
      | .asleep call point condition true =>
          if thread ∈ active then some (state.wake thread (.woken call point condition .expired))
          else none
      | _ => none
  | label =>
      match program.turn state label with
      | some (thread, call, ran) =>
          if thread ∈ active ∧ ∀ notice ∈ ran.notices, ∀ other ∈ active,
              ¬ (state.phase other).asleepOn notice.condition then
            some (state.ran thread call ran state.phase)
          else none
      | none => none

variable {program : Program Shared Call Result Point Condition} {active : List Thread}
  {state next : State Thread Shared Call Result Point Condition} {label : Label Thread Call}

theorem Program.next_sound (others : ∀ thread, thread ∉ active → state.phase thread = .idle)
    (goes : program.next active state label = some next) :
    Step program state label next ∧ ∀ thread, thread ∉ active → next.phase thread = .idle := by
  have stays {thread : Thread} {phase : Phase Call Point Condition} (member : thread ∈ active)
      (other : Thread) (outside : other ∉ active) :
      Function.update state.phase thread phase other = .idle := by
    have different : other ≠ thread := by
      rintro rfl
      exact outside member
    rw [Function.update_of_ne different]
    exact others other outside
  unfold Program.next at goes
  split at goes
  · cases goes
  · split at goes
    · next asleep =>
        split at goes
        · next member =>
            cases goes
            exact ⟨.expire asleep, stays member⟩
        · cases goes
    · cases goes
  · split at goes
    · next thread call ran takes =>
        split at goes
        · next met =>
            cases goes
            refine ⟨.run (Program.turn_sound takes) (.of_unheard ?_), stays met.1⟩
            intro notice sent other
            by_cases member : other ∈ active
            · exact met.2 notice sent other member
            · rw [others other member]
              exact id
        · cases goes
    · cases goes

/-- The steps that the labels lead to, up to the first label that cannot be taken. -/
def Program.replay (program : Program Shared Call Result Point Condition) (active : List Thread) :
    State Thread Shared Call Result Point Condition → List (Label Thread Call) →
      List (TransitionSystem.Transition
        (State Thread Shared Call Result Point Condition) (Label Thread Call))
  | _, [] => []
  | state, label :: rest =>
      match program.next active state label with
      | some next => ⟨state, label, next⟩ :: program.replay active next rest
      | none => []

theorem Program.replay_label (labels : List (Label Thread Call)) :
    ∀ step ∈ program.replay active state labels, step.label ∈ labels := by
  induction labels generalizing state with
  | nil => simp [Program.replay]
  | cons label rest ih =>
      unfold Program.replay
      split
      · simp only [List.forall_mem_cons]
        exact ⟨List.mem_cons_self, fun step member => List.mem_cons_of_mem _ (ih step member)⟩
      · simp

/-- A replay is a run. -/
theorem Program.replay_run {start : Shared}
    (others : ∀ thread, thread ∉ active → state.phase thread = .idle)
    (labels : List (Label Thread Call)) :
    (program.system start).Run state (program.replay active state labels) := by
  induction labels generalizing state with
  | nil => exact .nil state
  | cons label rest ih =>
      unfold Program.replay
      split
      · next next goes =>
          obtain ⟨step, others⟩ := Program.next_sound others goes
          exact .cons step (ih others)
      · exact .nil state

end Replay

end Monitor

end Blocxx.Library
