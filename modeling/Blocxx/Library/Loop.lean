import Mathlib.Tactic

/-!
This file gives loops that may run for ever and the rules for their results, and the rules for
computations that run such loops with fuel and may fail.
-/

namespace Blocxx.Library.Loop

/-- One iteration goes on with a new state or stops with a result. -/
inductive Iteration (State Result : Type*) where
  | next (state : State)
  | stop (result : Result)

variable {State Result : Type*} {body : State → Iteration State Result}

/-- The loop runs for at most this many iterations. -/
def run (body : State → Iteration State Result) : Nat → State → Option Result
  | 0, _ => none
  | fuel + 1, state =>
      match body state with
      | .next state => run body fuel state
      | .stop result => some result

/-- The loop stops with this result after finitely many iterations. -/
def Returns (body : State → Iteration State Result) (state : State) (result : Result) : Prop :=
  ∃ fuel, run body fuel state = some result

theorem Returns.stop {state : State} {result : Result} (stops : body state = .stop result) :
    Returns body state result :=
  ⟨1, by rw [run, stops]⟩

theorem Returns.next {state later : State} {result : Result} (goes : body state = .next later)
    (returns : Returns body later result) : Returns body state result := by
  obtain ⟨fuel, runs⟩ := returns
  refine ⟨fuel + 1, ?_⟩
  rw [run, goes]
  exact runs

/-- The result depends only on what the first iteration does. -/
theorem Returns.of_same {state other : State} {result : Result} (same : body state = body other)
    (returns : Returns body other result) : Returns body state result := by
  obtain ⟨fuel, runs⟩ := returns
  cases fuel with
  | zero => cases runs
  | succ fuel =>
      refine ⟨fuel + 1, ?_⟩
      rw [run] at runs ⊢
      rw [same]
      exact runs

/-- More fuel does not change a result. -/
theorem run_mono {fuel more : Nat} (enough : fuel ≤ more) {state : State} {result : Result}
    (runs : run body fuel state = some result) : run body more state = some result := by
  induction fuel generalizing more state with
  | zero => cases runs
  | succ fuel ih =>
      obtain ⟨more, rfl⟩ : ∃ rest, more = rest + 1 := ⟨more - 1, by omega⟩
      rw [run] at runs ⊢
      cases goes : body state with
      | next later =>
          rw [goes] at runs
          exact ih (by omega) runs
      | stop result =>
          rw [goes] at runs
          exact runs

/-- A loop has at most one result. -/
theorem Returns.unique {state : State} {first second : Result} (one : Returns body state first)
    (other : Returns body state second) : first = second := by
  obtain ⟨fuel, runs⟩ := one
  obtain ⟨more, runsToo⟩ := other
  have long := run_mono (Nat.le_max_left fuel more) runs
  have longToo := run_mono (Nat.le_max_right fuel more) runsToo
  rw [long] at longToo
  exact Option.some.inj longToo

/-- A loop that starts here comes to this state at the head of some iteration. -/
inductive Visits (body : State → Iteration State Result) (start : State) : State → Prop
  | start : Visits body start start
  | next {state later : State} (before : Visits body start state)
      (goes : body state = .next later) : Visits body start later

/-- The states after the first one are those of the loop that starts one iteration later. -/
theorem visits_iff {start state : State} :
    Visits body start state ↔
      state = start ∨ ∃ later, body start = .next later ∧ Visits body later state := by
  constructor
  · intro visits
    induction visits with
    | start => exact .inl rfl
    | @next state after before goes ih =>
        right
        rcases ih with rfl | ⟨later, first, visits⟩
        · exact ⟨after, goes, .start⟩
        · exact ⟨later, first, .next visits goes⟩
  · rintro (rfl | ⟨later, first, visits⟩)
    · exact .start
    · induction visits with
      | start => exact .next .start first
      | next before goes ih => exact .next ih goes

/-- A loop returns when a measure decreases in every iteration that it comes to. -/
theorem returns_of_decreasing {start : State} (measure : State → Nat)
    (decreases : ∀ state later, Visits body start state → body state = .next later →
      measure later < measure state) : ∃ result, Returns body start result := by
  have fromHere (bound : Nat) : ∀ state, Visits body start state → measure state ≤ bound →
      ∃ result, Returns body state result := by
    induction bound with
    | zero =>
        intro state visits least
        cases goes : body state with
        | next later =>
            have less := decreases state later visits goes
            omega
        | stop result => exact ⟨result, .stop goes⟩
    | succ bound ih =>
        intro state visits most
        cases goes : body state with
        | next later =>
            have less := decreases state later visits goes
            obtain ⟨result, returns⟩ := ih later (.next visits goes) (by omega)
            exact ⟨result, .next goes returns⟩
        | stop result => exact ⟨result, .stop goes⟩
  exact fromHere _ start .start le_rfl

/-- A loop returns with what its invariant gives at the end, when each iteration keeps the invariant
and decreases a measure. -/
theorem returns_of_invariant {Invariant : State → Prop} {Ends : Result → Prop}
    (measure : State → Nat)
    (steps : ∀ state later, Invariant state → body state = .next later →
      Invariant later ∧ measure later < measure state)
    (stops : ∀ state result, Invariant state → body state = .stop result → Ends result)
    {start : State} (starts : Invariant start) :
    ∃ result, Returns body start result ∧ Ends result := by
  obtain ⟨bound, less⟩ : ∃ bound, measure start < bound := ⟨_, Nat.lt_succ_self _⟩
  induction bound generalizing start with
  | zero => exact absurd less (Nat.not_lt_zero _)
  | succ bound ih =>
      cases goes : body start with
      | next later =>
          obtain ⟨keeps, lower⟩ := steps start later starts goes
          obtain ⟨result, returns, ends⟩ := ih keeps (by omega)
          exact ⟨result, .next goes returns, ends⟩
      | stop result => exact ⟨result, .stop goes, stops start result starts goes⟩

/-- The rest of a run from a state that it comes to. -/
theorem Visits.run {start state : State} (visits : Visits body start state) {fuel : Nat}
    {result : Result} (runs : Loop.run body fuel start = some result) :
    ∃ rest ≤ fuel, Loop.run body rest state = some result := by
  induction visits with
  | start => exact ⟨fuel, le_rfl, runs⟩
  | next before goes ih =>
      obtain ⟨rest, less, runs⟩ := ih
      cases rest with
      | zero => cases runs
      | succ rest =>
          rw [Loop.run, goes] at runs
          exact ⟨rest, by omega, runs⟩

/-- A loop that always comes back to some states never returns from them. -/
theorem not_returns_of_recurrence {Again : State → Prop}
    (again : ∀ state, Again state → ∃ last later, Visits body state last ∧
      body last = .next later ∧ Again later) {start : State} (starts : Again start)
    (result : Result) : ¬ Returns body start result := by
  have never (fuel : Nat) : ∀ state, Again state → run body fuel state ≠ some result := by
    induction fuel using Nat.strong_induction_on with
    | h fuel ih =>
        intro state here runs
        obtain ⟨last, later, visits, goes, back⟩ := again state here
        obtain ⟨rest, less, rest_runs⟩ := visits.run runs
        cases rest with
        | zero => cases rest_runs
        | succ rest =>
            rw [run, goes] at rest_runs
            exact ih rest (by omega) later back rest_runs
  rintro ⟨fuel, runs⟩
  exact never fuel start starts runs

/-- One iteration later a loop has the same results. -/
theorem returns_next_iff {state later : State} (goes : body state = .next later) {result : Result} :
    Returns body state result ↔ Returns body later result := by
  constructor
  · rintro ⟨fuel, runs⟩
    obtain ⟨rest, -, runs⟩ := (Visits.next .start goes).run runs
    exact ⟨rest, runs⟩
  · exact Returns.next goes

theorem Visits.trans {start state later : State} (first : Visits body start state)
    (second : Visits body state later) : Visits body start later := by
  induction second with
  | start => exact first
  | next before goes ih => exact .next ih goes

/-- Of two states that a loop comes to, one comes after the other. -/
theorem Visits.linear {start state other : State} (one : Visits body start state)
    (another : Visits body start other) : Visits body state other ∨ Visits body other state := by
  induction one with
  | start => exact .inl another
  | next before goes ih =>
      rcases ih with ahead | behind
      · rcases visits_iff.mp ahead with rfl | ⟨later, first, visits⟩
        · exact .inr (.next .start goes)
        · obtain rfl := Iteration.next.inj (goes.symm.trans first)
          exact .inl visits
      · exact .inr (.next behind goes)

/-- A state and a later one of its loop have the same results. -/
theorem Visits.returns_iff {start state : State} (visits : Visits body start state)
    {result : Result} : Returns body start result ↔ Returns body state result := by
  induction visits with
  | start => exact Iff.rfl
  | next before goes ih => rw [ih, returns_next_iff goes]

/-- A measure that no iteration increases and that only idle iterations keep. The loop returns
exactly when it never comes to a state from which all iterations are idle. -/
theorem returns_iff_not_idle (measure : State → Nat) (Idle : State → Prop) {start : State}
    (goes_on : ∀ state, Visits body start state → Idle state → ∃ later, body state = .next later)
    (keeps : ∀ state later, Visits body start state → body state = .next later →
      measure later ≤ measure state)
    (decreases : ∀ state later, Visits body start state → body state = .next later →
      ¬ Idle state → measure later < measure state) :
    (∃ result, Returns body start result) ↔
      ∀ state, Visits body start state → ∃ later, Visits body state later ∧ ¬ Idle later := by
  constructor
  · rintro ⟨result, returns⟩ state visits
    by_contra idle
    push Not at idle
    have here := visits.returns_iff.mp returns
    apply @not_returns_of_recurrence _ _ _ (Visits body state) ?_ _ .start result here
    intro later visitsLater
    obtain ⟨next, goes⟩ := goes_on later (visits.trans visitsLater) (idle later visitsLater)
    exact ⟨later, next, .start, goes, .next visitsLater goes⟩
  · intro busy
    have fromHere (bound : Nat) : ∀ state, Visits body start state → measure state ≤ bound →
        ∃ result, Returns body state result := by
      induction bound using Nat.strong_induction_on with
      | h bound ih =>
          intro state visits most
          obtain ⟨later, visitsLater, moves⟩ := busy state visits
          have there := visits.trans visitsLater
          have less : measure later ≤ measure state := by
            clear moves there
            induction visitsLater with
            | start => exact le_rfl
            | next before goes ih => exact (keeps _ _ (visits.trans before) goes).trans ih
          cases goes : body later with
          | stop result => exact ⟨result, visitsLater.returns_iff.mpr (.stop goes)⟩
          | next next =>
              have lower := decreases later next there goes moves
              obtain ⟨result, returns⟩ := ih (measure next) (by omega) next (.next there goes) le_rfl
              exact ⟨result, visitsLater.returns_iff.mpr (.next goes returns)⟩
    exact fromHere _ start .start le_rfl

end Blocxx.Library.Loop

namespace Blocxx.Library

variable {Failure Answer Result : Type}

/-- With enough fuel the computation gives this answer, and with less fuel it gives none. -/
structure Settles (call : Nat → ExceptT Failure Option Answer) (answer : Answer) : Prop where
  enough : ∃ fuel, ∀ more, fuel ≤ more → call more = some (.ok answer)
  only : ∀ fuel, call fuel = none ∨ call fuel = some (.ok answer)

namespace Settles

variable {call : Nat → ExceptT Failure Option Answer} {answer : Answer}

theorem pure :
    Settles (fun _ => some (.ok answer) : Nat → ExceptT Failure Option Answer) answer where
  enough := ⟨0, fun _ _ => rfl⟩
  only _ := .inr rfl

/-- A loop that returns settles. -/
theorem of_returns {State : Type} {body : State → Loop.Iteration State (Except Failure Answer)}
    {state : State} (returns : Loop.Returns body state (.ok answer)) :
    Settles (fun fuel => Loop.run body fuel state) answer where
  enough := by
    obtain ⟨fuel, runs⟩ := returns
    exact ⟨fuel, fun more enough => Loop.run_mono enough runs⟩
  only fuel := by
    cases runs : Loop.run body fuel state with
    | none => exact .inl rfl
    | some result =>
        have same := Loop.Returns.unique ⟨fuel, runs⟩ returns
        exact .inr (congrArg some same)

/-- A sequence settles with its parts. -/
theorem bind {next : Nat → Answer → ExceptT Failure Option Result} {result : Result}
    (first : Settles call answer) (rest : Settles (fun fuel => next fuel answer) result) :
    Settles (fun fuel => call fuel >>= next fuel) result where
  enough := by
    obtain ⟨one, calls⟩ := first.enough
    obtain ⟨other, follows⟩ := rest.enough
    refine ⟨max one other, fun more enough => ?_⟩
    rw [calls more (le_trans (le_max_left one other) enough)]
    exact follows more (le_trans (le_max_right one other) enough)
  only fuel := by
    rcases first.only fuel with none_ | called
    · left
      rw [none_]
      rfl
    · have follows := rest.only fuel
      rw [called]
      exact follows

/-- The answer is the only one. -/
theorem unique (settles : Settles call answer) {fuel : Nat} {other : Answer}
    (calls : call fuel = some (.ok other)) : other = answer := by
  rcases settles.only fuel with none_ | called
  · rw [none_] at calls
    cases calls
  · rw [called] at calls
    exact (Except.ok.inj (Option.some.inj calls)).symm

/-- Two calls with the same fuel give the two answers. -/
theorem both_iff {next : Nat → ExceptT Failure Option Result} {result : Result}
    (first : Settles call answer) (second : Settles next result)
    {Meets : Answer → Result → Prop} :
    (∃ fuel one other, call fuel = some (.ok one) ∧ next fuel = some (.ok other) ∧
      Meets one other) ↔ Meets answer result := by
  constructor
  · rintro ⟨fuel, one, other, calls, follows, meets⟩
    rwa [first.unique calls, second.unique follows] at meets
  · intro meets
    obtain ⟨one, calls⟩ := first.enough
    obtain ⟨other, follows⟩ := second.enough
    exact ⟨max one other, answer, result, calls _ (le_max_left one other),
      follows _ (le_max_right one other), meets⟩

end Settles

end Blocxx.Library
