import Mathlib.Tactic

/-!
This file gives labelled transition systems, their reachable states, and their finite runs, and the
systems whose steps a function computes.
-/

namespace Blocxx.Library

/-- A transition system has start states and labelled steps. -/
structure TransitionSystem (State Label : Type*) where
  initial : State → Prop
  step : State → Label → State → Prop

namespace TransitionSystem

variable {State Label : Type*} {system : TransitionSystem State Label}

/-- A state is reachable when finitely many steps lead to it. -/
inductive Reachable (system : TransitionSystem State Label) : State → Prop
  | initial {state : State} (start : system.initial state) : Reachable system state
  | step {state next : State} {label : Label} (before : Reachable system state)
      (taken : system.step state label next) : Reachable system next

/-- This rule proves a property of every reachable state by induction on the run. -/
theorem Reachable.invariant {property : State → Prop}
    (base : ∀ state, system.initial state → property state)
    (keep : ∀ state label next, system.Reachable state → property state →
      system.step state label next → property next)
    {state : State} (reached : system.Reachable state) : property state := by
  induction reached with
  | initial start => exact base _ start
  | step before taken ih => exact keep _ _ _ before ih taken

/-- The restricted system takes only the steps that meet the condition. -/
def restrict (system : TransitionSystem State Label) (condition : State → Label → Prop) :
    TransitionSystem State Label where
  initial := system.initial
  step state label next := system.step state label next ∧ condition state label

/-- The restricted system reaches no other states. -/
theorem Reachable.unrestricted {condition : State → Label → Prop} {state : State}
    (reached : (system.restrict condition).Reachable state) : system.Reachable state := by
  induction reached with
  | initial start => exact .initial start
  | step before taken ih => exact ih.step taken.1

/-- A later state comes after finitely many steps. -/
def Reaches (system : TransitionSystem State Label) : State → State → Prop :=
  Relation.ReflTransGen fun state next => ∃ label, system.step state label next

/-- A state that comes after a reachable one is reachable. -/
theorem Reachable.later {state later : State} (reached : system.Reachable state)
    (reaches : system.Reaches state later) : system.Reachable later := by
  induction reaches with
  | refl => exact reached
  | tail before taken ih =>
      obtain ⟨label, step⟩ := taken
      exact ih.step step

/-- One step of a run keeps its source, its label, and its target. -/
structure Transition (State Label : Type*) where
  source : State
  label : Label
  target : State

/-- A run is a chain of steps from the given state. -/
inductive Run (system : TransitionSystem State Label) :
    State → List (Transition State Label) → Prop
  | nil (state : State) : Run system state []
  | cons {state next : State} {label : Label} {rest : List (Transition State Label)}
      (taken : system.step state label next) (tail : Run system next rest) :
      Run system state (⟨state, label, next⟩ :: rest)

/-- A run from a reachable state leads to reachable states. -/
theorem Run.reachable {state : State} {steps : List (Transition State Label)}
    (run : system.Run state steps) (before : system.Reachable state) :
    ∀ step ∈ steps, system.Reachable step.target := by
  induction run with
  | nil => simp
  | cons taken tail ih =>
      simp only [List.forall_mem_cons]
      have next := before.step taken
      exact ⟨next, ih next⟩

/-- What each step keeps under the condition holds along a run whose steps all meet it. -/
theorem Run.invariant {property : State → Prop} {condition : State → Label → State → Prop}
    (keep : ∀ state label next, property state → system.step state label next →
      condition state label next → property next)
    {state : State} {steps : List (Transition State Label)} (run : system.Run state steps)
    (start : property state)
    (met : ∀ step ∈ steps, condition step.source step.label step.target) :
    ∀ step ∈ steps, property step.target := by
  induction run with
  | nil => simp
  | cons taken tail ih =>
      simp only [List.forall_mem_cons] at met ⊢
      have next := keep _ _ _ start taken met.1
      exact ⟨next, ih next met.2⟩

/-- What each step does when it meets the condition holds for all steps of a run that meet it, as long
as the invariant that it needs is kept. -/
theorem Run.forall_of_condition {invariant : State → Prop}
    {property condition : State → Label → State → Prop}
    (keep : ∀ state label next, invariant state → system.step state label next →
      condition state label next → invariant next ∧ property state label next)
    {state : State} {steps : List (Transition State Label)} (run : system.Run state steps)
    (start : invariant state)
    (met : ∀ step ∈ steps, condition step.source step.label step.target) :
    ∀ step ∈ steps, property step.source step.label step.target := by
  induction run with
  | nil => simp
  | cons taken tail ih =>
      simp only [List.forall_mem_cons] at met ⊢
      obtain ⟨next, does⟩ := keep _ _ _ start taken met.1
      exact ⟨does, ih next met.2⟩

/-- A property that the condition keeps, and whose failure shows in the next state, holds
along a run exactly when each step meets the condition. -/
theorem Run.property_iff_condition {invariant property : State → Prop}
    {condition : State → Label → Prop}
    (implies : ∀ state, invariant state → property state)
    (keep : ∀ state label next, invariant state → system.step state label next →
      condition state label → invariant next)
    (needed : ∀ state label next, invariant state → system.step state label next →
      property next → condition state label)
    {state : State} {steps : List (Transition State Label)}
    (run : system.Run state steps) (start : invariant state) :
    (∀ step ∈ steps, property step.target) ↔
      ∀ step ∈ steps, condition step.source step.label := by
  induction run with
  | nil => simp
  | cons taken tail ih =>
      simp only [List.forall_mem_cons]
      constructor
      · rintro ⟨here, later⟩
        have met := needed _ _ _ start taken here
        exact ⟨met, (ih (keep _ _ _ start taken met)).mp later⟩
      · rintro ⟨met, later⟩
        have next := keep _ _ _ start taken met
        exact ⟨implies _ next, (ih next).mpr later⟩

/-- A property of single steps that agrees with a condition under an invariant, which the condition
keeps, holds along a run exactly when each step meets the condition. -/
theorem Run.forall_iff {invariant : State → Prop} {property condition : State → Label → State → Prop}
    (keep : ∀ state label next, invariant state → system.step state label next →
      condition state label next → invariant next)
    (exactly : ∀ state label next, invariant state → system.step state label next →
      (property state label next ↔ condition state label next))
    {state : State} {steps : List (Transition State Label)}
    (run : system.Run state steps) (start : invariant state) :
    (∀ step ∈ steps, property step.source step.label step.target) ↔
      ∀ step ∈ steps, condition step.source step.label step.target := by
  induction run with
  | nil => simp
  | cons taken tail ih =>
      simp only [List.forall_mem_cons]
      rw [exactly _ _ _ start taken]
      exact and_congr_right fun met => ih (keep _ _ _ start taken met)

/-- A run of one system is a run of any system that takes its steps. -/
theorem Run.mono {other : TransitionSystem State Label}
    (includes : ∀ state label next, system.step state label next → other.step state label next)
    {state : State} {steps : List (Transition State Label)} (run : system.Run state steps) :
    other.Run state steps := by
  induction run with
  | nil state => exact .nil state
  | cons taken tail ih => exact .cons (includes _ _ _ taken) ih

/-- The system starts in these states and takes the steps that the function answers. -/
def computed (initial : State → Prop) (next : State → Label → Option State) :
    TransitionSystem State Label where
  initial := initial
  step state label after := next state label = some after

/-- The steps that the labels lead to, up to the first label that cannot be taken. -/
def follow (next : State → Label → Option State) :
    State → List Label → List (Transition State Label)
  | _, [] => []
  | state, label :: labels =>
      match next state label with
      | some after => ⟨state, label, after⟩ :: follow next after labels
      | none => []

theorem follow_run (initial : State → Prop) (next : State → Label → Option State)
    (labels : List Label) (state : State) :
    (computed initial next).Run state (follow next state labels) := by
  induction labels generalizing state with
  | nil => exact .nil state
  | cons label labels ih =>
      rw [follow]
      split
      · next after taken => exact .cons taken (ih after)
      · exact .nil state

theorem follow_label {next : State → Label → Option State} (labels : List Label) {state : State} :
    ∀ step ∈ follow next state labels, step.label ∈ labels := by
  induction labels generalizing state with
  | nil => exact List.forall_mem_nil _
  | cons label labels ih =>
      rw [follow]
      split
      · rw [List.forall_mem_cons]
        exact ⟨List.mem_cons_self, fun step mem => List.mem_cons_of_mem _ (ih step mem)⟩
      · exact List.forall_mem_nil _

end TransitionSystem

end Blocxx.Library
