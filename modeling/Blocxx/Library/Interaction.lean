import Blocxx.Library.Loop

/-!
This file gives programs that act on a state, throw exceptions and may run for ever, and the rules
by which they keep an invariant.
-/

namespace Blocxx.Library.Interaction

/-- The ends of a program that does not return. -/
inductive Stop (Error : Type) where
  | threw (error : Error)
  | unfinished

/-- The state at the end is known for every end. -/
abbrev Program (State Error : Type) := ExceptT (Stop Error) (StateM State)

variable {State Error Answer Result Local : Type}

namespace Program

/-- The answer or the other end of a program, and the state at this end. -/
def outcome (program : Program State Error Answer) (state : State) :
    Except (Stop Error) Answer × State :=
  program.run.run state

def raise (error : Error) : Program State Error Answer := throw (.threw error)

/-- The answer comes from the state, which it changes, and it may be an exception. -/
def ask (question : State → Except Error Answer × State) : Program State Error Answer :=
  fun state =>
    match question state with
    | (.ok answer, next) => (.ok answer, next)
    | (.error error, next) => (.error (.threw error), next)

/-- The handler catches exceptions only. -/
def handle (program : Program State Error Answer) (handler : Error → Program State Error Answer) :
    Program State Error Answer :=
  fun state =>
    match program.outcome state with
    | (.error (.threw error), next) => (handler error).outcome next
    | (.error .unfinished, next) => (.error .unfinished, next)
    | (.ok answer, next) => (.ok answer, next)

/-- The loop makes at most this many iterations. -/
def repeated (body : Local → Program State Error (Loop.Iteration Local Answer)) :
    Nat → Local → Program State Error Answer
  | 0, _ => throw .unfinished
  | fuel + 1, here => do
      match ← body here with
      | .next later => repeated body fuel later
      | .stop answer => return answer

/-- From a state with the invariant and a precondition, every end of the program has the invariant,
and a normal one has the postcondition. -/
def Keeps (invariant before : State → Prop) (program : Program State Error Answer)
    (after : Answer → State → Prop) : Prop :=
  ∀ state, invariant state → before state → invariant (program.outcome state).2 ∧
    ∀ answer, (program.outcome state).1 = .ok answer → after answer (program.outcome state).2

variable {invariant before : State → Prop} {program : Program State Error Answer}
  {after : Answer → State → Prop}

theorem Keeps.pure {answer : Answer}
    (holds : ∀ state, invariant state → before state → after answer state) :
    Keeps invariant before (pure answer : Program State Error Answer) after := by
  intro state kept here
  refine ⟨kept, ?_⟩
  intro same returned
  cases returned
  exact holds state kept here

theorem Keeps.raise {error : Error} :
    Keeps invariant before (raise error : Program State Error Answer) after := by
  intro state kept _
  refine ⟨kept, ?_⟩
  intro answer returned
  cases returned

theorem Keeps.get {after : State → State → Prop}
    (holds : ∀ state, invariant state → before state → after state state) :
    Keeps invariant before (get : Program State Error State) after := by
  intro state kept here
  refine ⟨kept, ?_⟩
  intro same returned
  cases returned
  exact holds state kept here

theorem Keeps.ask {question : State → Except Error Answer × State}
    (holds : ∀ state, invariant state → before state → invariant (question state).2 ∧
      ∀ answer, (question state).1 = .ok answer → after answer (question state).2) :
    Keeps invariant before (ask question) after := by
  intro state kept here
  have held := holds state kept here
  show invariant (Program.ask question state).2 ∧
    ∀ answer, (Program.ask question state).1 = .ok answer →
      after answer (Program.ask question state).2
  unfold Program.ask
  cases asked : question state with
  | mk reply next =>
      rw [asked] at held
      cases reply with
      | error error =>
          refine ⟨held.1, ?_⟩
          intro answer returned
          cases returned
      | ok reply =>
          refine ⟨held.1, ?_⟩
          intro answer returned
          cases returned
          exact held.2 reply rfl

theorem outcome_bind (program : Program State Error Answer)
    (next : Answer → Program State Error Result) (state : State) :
    (program >>= next).outcome state =
      match program.outcome state with
      | (.ok answer, middle) => (next answer).outcome middle
      | (.error stop, middle) => (.error stop, middle) := by
  show (ExceptT.bindCont next (program.run.run state).1).run (program.run.run state).2 = _
  unfold outcome
  cases program.run.run state with
  | mk reply middle =>
      cases reply with
      | ok answer => rfl
      | error stop => rfl

theorem Keeps.bind {middle : Answer → State → Prop} {next : Answer → Program State Error Result}
    {after : Result → State → Prop} (first : Keeps invariant before program middle)
    (second : ∀ answer, Keeps invariant (middle answer) (next answer) after) :
    Keeps invariant before (program >>= next) after := by
  intro state kept here
  obtain ⟨kept_middle, holds⟩ := first state kept here
  rw [outcome_bind]
  cases ran : program.outcome state with
  | mk reply there =>
      rw [ran] at kept_middle holds
      cases reply with
      | ok answer => exact second answer there kept_middle (holds answer rfl)
      | error stop =>
          refine ⟨kept_middle, ?_⟩
          intro answer returned
          cases returned

/-- The handler may rely on the stronger invariant of the program that it guards. -/
theorem Keeps.handle {inner : State → Prop} {handler : Error → Program State Error Answer}
    (tried : Keeps inner before program after) (weaker : ∀ state, inner state → invariant state)
    (handled : ∀ error, Keeps invariant inner (handler error) after) :
    Keeps invariant (fun state => inner state ∧ before state) (program.handle handler) after := by
  intro state _ here
  obtain ⟨kept_middle, holds⟩ := tried state here.1 here.2
  show invariant (Program.handle program handler state).2 ∧
    ∀ answer, (Program.handle program handler state).1 = .ok answer →
      after answer (Program.handle program handler state).2
  unfold Program.handle
  cases ran : program.outcome state with
  | mk reply there =>
      rw [ran] at kept_middle holds
      cases reply with
      | ok answer => exact ⟨weaker _ kept_middle, holds⟩
      | error stop =>
          cases stop with
          | threw error => exact handled error there (weaker _ kept_middle) kept_middle
          | unfinished =>
              refine ⟨weaker _ kept_middle, ?_⟩
              intro answer returned
              cases returned

/-- A stronger invariant that holds at the start holds at the end. -/
theorem Keeps.under {inner : State → Prop} (kept : Keeps inner before program after)
    (weaker : ∀ state, inner state → invariant state) :
    Keeps invariant (fun state => inner state ∧ before state) program
      fun answer state => inner state ∧ after answer state := by
  intro state _ here
  obtain ⟨still, answered⟩ := kept state here.1 here.2
  exact ⟨weaker _ still, fun answer returned => ⟨still, answered answer returned⟩⟩

/-- Less is known before, and more is known after. -/
theorem Keeps.weaken {weaker : State → Prop} {stronger : Answer → State → Prop}
    (kept : Keeps invariant weaker program stronger)
    (first : ∀ state, invariant state → before state → weaker state)
    (last : ∀ answer state, invariant state → stronger answer state → after answer state) :
    Keeps invariant before program after := by
  intro state holds here
  obtain ⟨still, answered⟩ := kept state holds (first state holds here)
  exact ⟨still, fun answer returned => last answer _ still (answered answer returned)⟩

/-- A weaker precondition is enough. -/
theorem Keeps.suffices_before {weaker : State → Prop}
    (kept : Keeps invariant weaker program after)
    (first : ∀ state, invariant state → before state → weaker state) :
    Keeps invariant before program after :=
  kept.weaken first fun _ _ _ holds => holds

/-- What an iteration leaves when it goes on, and when it stops. -/
def Leaves (inside : Local → State → Prop) (after : Answer → State → Prop) :
    Loop.Iteration Local Answer → State → Prop
  | .next later => inside later
  | .stop answer => after answer

/-- Every iteration keeps a property of the local variables and the state. -/
theorem Keeps.repeated {body : Local → Program State Error (Loop.Iteration Local Answer)}
    (inside : Local → State → Prop)
    (iteration : ∀ here, Keeps invariant (inside here) (body here) (Leaves inside after))
    (fuel : Nat) :
    ∀ here, Keeps invariant (inside here) (repeated body fuel here) after := by
  induction fuel with
  | zero =>
      intro here state kept _
      refine ⟨kept, ?_⟩
      intro answer returned
      cases returned
  | succ fuel ih =>
      intro here
      apply Keeps.bind (iteration here)
      intro step
      cases step with
      | next later => exact ih later
      | stop answer => exact .pure fun state _ holds => holds

end Program

end Blocxx.Library.Interaction
