import Blocxx.Library.Replay
import Blocxx.ThreadPool.ImplMoves

/-!
This file proves when the list of threads is frozen in a closed pool.
-/

namespace Blocxx.ThreadPool
open Library Library.Monitor ThreadPoolImpl

variable {Client Work : Type}

/-- Every thread stands where its call may leave it. -/
def ImplFits (implementation : Implementation) (state : ImplState Client Work) : Prop :=
  ∀ thread, (state.phase thread).Fits (ImplWaits implementation)
    (ImplLeaves implementation)

/-- A step of a closed pool leaves it closed with the same threads. -/
def KeepsThreads (state next : ImplState Client Work) : Prop :=
  state.shared.isClosed → next.shared.isClosed ∧ next.shared.threads = state.shared.threads ∧
    next.shared.threadChanges = state.shared.threadChanges

/-- An `addWork` that has put its work into the queue takes the lock of a closed pool again and
finds work and room for a thread. -/
def GrowsLate (state : ImplState Client Work) (label : Label (Client ⊕ Nat) (ImplCall Work)) :
    Prop :=
  state.shared.isClosed ∧ state.shared.MayGrow ∧
    ∃ thread call, label = .resume thread ∧ state.position thread = some (call, .addTest)

namespace ThreadPoolImpl

variable {implementation : Implementation} {cancels : Work → Bool} {pool : ThreadPoolImpl Work}
  {call : ImplCall Work} {point : Option (ImplPoint Work)} {answer : Bool} {ran : ImplSection Work}

/-- The sections of a closed pool keep it closed. -/
theorem Move.closed (move : Move implementation cancels pool call point answer ran)
    (closed : pool.isClosed) : ran.shared.isClosed := by
  cases move with
  | refuse stands isCleaned => exact isCleaned.isClosed.mpr closed
  | waitFull stands isCleaned => exact isCleaned.isClosed.mpr closed
  | push stands isCleaned room opened => exact absurd closed opened
  | notify | create | fail | rely | sleep | giveUp | cancel | end_ => exact closed
  | take => cases implementation <;> exact closed
  | worked => cases implementation <;> exact closed
  | common isCommon move => exact (move.handles.closed closed).1
  | commonThrown isCommon stands kept => exact closed.imp id kept

/-- A section of a closed pool changes its threads exactly when it is the end of an `addWork` that
may still create a thread. -/
theorem Move.threads_iff (move : Move implementation cancels pool call point answer ran)
    (closed : pool.isClosed) :
    (ran.shared.threads = pool.threads ∧ ran.shared.threadChanges = pool.threadChanges) ↔
      ¬ (pool.MayGrow ∧ point = some .addTest) := by
  have same {stays : Prop} (elsewhere : point = some .addTest → False) (keeps : stays) :
      stays ↔ ¬ (pool.MayGrow ∧ point = some .addTest) :=
    ⟨fun _ late => elsewhere late.2, fun _ => keeps⟩
  have kept {cleaned : ThreadPoolImpl Work} (isCleaned : Cleaned pool cleaned) :
      cleaned = pool := by
    rcases isCleaned with same | ⟨opened, _⟩
    · exact same
    · exact absurd closed opened
  cases move with
  | refuse stands isCleaned =>
      obtain rfl := kept isCleaned
      exact same (stands _) ⟨rfl, rfl⟩
  | waitFull stands isCleaned =>
      obtain rfl := kept isCleaned
      exact same (stands _) ⟨rfl, rfl⟩
  | push stands isCleaned room opened => exact absurd closed opened
  | notify => exact same nofun ⟨rfl, rfl⟩
  | create dynamic mayGrow =>
      refine ⟨fun keeps => ?_, fun never => absurd ⟨mayGrow, rfl⟩ never⟩
      have more : pool.threadChanges + 1 = pool.threadChanges := keeps.2
      omega
  | fail dynamic mayGrow =>
      refine ⟨fun keeps => ?_, fun never => absurd ⟨mayGrow, rfl⟩ never⟩
      have more : pool.threadChanges + 2 = pool.threadChanges := keeps.2
      omega
  | rely dynamic enough => exact ⟨fun _ late => enough late.1, fun _ => ⟨rfl, rfl⟩⟩
  | sleep stands => exact same (fun late => stands _ late) ⟨rfl, rfl⟩
  | giveUp stands => exact same (fun late => stands _ late) ⟨rfl, rfl⟩
  | take stands =>
      exact same (fun late => stands _ late) (by cases implementation <;> exact ⟨rfl, rfl⟩)
  | cancel | end_ => exact same nofun ⟨rfl, rfl⟩
  | worked => exact same nofun (by cases implementation <;> exact ⟨rfl, rfl⟩)
  | @common _ _ point => exact same (by cases point <;> exact nofun) ⟨rfl, rfl⟩
  | commonThrown isCommon stands =>
      refine same (fun late => ?_) ⟨rfl, rfl⟩
      obtain ⟨inner, different⟩ := stands _ late
      cases different

end ThreadPoolImpl

variable [DecidableEq Client] {implementation : Implementation} {cancels : Work → Bool}
  {numThreads maxQueueSize : UInt32}

theorem keepsThreads_iff {state next : ImplState Client Work}
    {label : Label (Client ⊕ Nat) (ImplCall Work)} (fits : ImplFits implementation state)
    (step : (implSystem implementation cancels numThreads maxQueueSize).step state label next) :
    KeepsThreads state next ↔ ¬ GrowsLate state label := by
  rcases lists.of_step fits step.1 with
    ⟨thread, call, point, answer, ran, begins, move, shared, _, _⟩ | ⟨silent, shared, _, _⟩
  · rw [KeepsThreads, shared]
    constructor
    · rintro keeps ⟨closed, mayGrow, other, inner, resumes, stands⟩
      obtain ⟨_, late⟩ := begins.of_resume resumes stands
      exact (move.threads_iff closed).mp (keeps closed).2 ⟨mayGrow, late⟩
    · intro never closed
      refine ⟨move.closed closed, (move.threads_iff closed).mpr ?_⟩
      rintro ⟨mayGrow, rfl⟩
      exact never ⟨closed, mayGrow, thread, call, begins.resumed nofun, begins.stands⟩
  · rw [KeepsThreads, shared]
    refine ⟨?_, fun _ closed => ⟨closed, rfl, rfl⟩⟩
    rintro _ ⟨_, _, other, inner, rfl, stands⟩
    rw [State.callOf, stands] at silent
    cases silent

/-- In a run of a pool the threads are frozen once it is closed, exactly when no `addWork` finds
room for a thread after it has put its work into the queue of a pool that is now closed. -/
theorem threads_frozen_iff {start : ImplState Client Work}
    {steps : List (TransitionSystem.Transition (ImplState Client Work)
      (Label (Client ⊕ Nat) (ImplCall Work)))}
    (initial : (implSystem implementation cancels numThreads maxQueueSize).initial start)
    (run : (implSystem implementation cancels numThreads maxQueueSize).Run start steps) :
    (∀ step ∈ steps, KeepsThreads step.source step.target) ↔
      ∀ step ∈ steps, ¬ GrowsLate step.source step.label := by
  obtain rfl := initial
  have keep (state : ImplState Client Work) (label : Label (Client ⊕ Nat) (ImplCall Work))
      (next : ImplState Client Work) (fits : ImplFits implementation state)
      (step : (implSystem implementation cancels numThreads maxQueueSize).step state label next)
      (_ : ¬ GrowsLate state label) : ImplFits implementation next := lists.step_fits fits step.1
  have exactly (state : ImplState Client Work) (label : Label (Client ⊕ Nat) (ImplCall Work))
      (next : ImplState Client Work) (fits : ImplFits implementation state)
      (step : (implSystem implementation cancels numThreads maxQueueSize).step state label next) :
      KeepsThreads state next ↔ ¬ GrowsLate state label := keepsThreads_iff fits step
  exact run.forall_iff keep exactly fun _ => trivial

/-- A replay of two clients of a dynamic pool for at most one thread. -/
def replayTwo (labels : List (Label (Bool ⊕ Nat) (ImplCall Nat))) :
    List (TransitionSystem.Transition (ImplState Bool Nat) (Label (Bool ⊕ Nat) (ImplCall Nat))) :=
  (program .dynamicSize fun _ => false).replay [.inl false, .inl true]
    ⟨.new .dynamicSize 1 0, fun _ => .idle, []⟩ labels

theorem replayTwo_run {labels : List (Label (Bool ⊕ Nat) (ImplCall Nat))}
    (mayRun : ∀ step ∈ replayTwo labels, MayRun step.source step.label) :
    (implSystem .dynamicSize (fun _ => false) 1 0).Run
      ⟨.new .dynamicSize 1 0, fun _ => .idle, []⟩ (replayTwo labels) :=
  (Program.throwing_run (Program.replay_run (fun _ _ => rfl) labels)).restrict mayRun

/-- One client adds work to an open pool and creates a thread. -/
def openGrowth : List (Label (Bool ⊕ Nat) (ImplCall Nat)) :=
  [.enter (.inl false) (.addWork (some 5) true .started), .resume (.inl false),
    .resume (.inl false)]

theorem threads_frozen_openGrowth :
    (∀ step ∈ replayTwo openGrowth, ¬ GrowsLate step.source step.label) ∧
      ∀ step ∈ replayTwo openGrowth, KeepsThreads step.source step.target := by
  have opened : ∀ step ∈ replayTwo openGrowth, ¬ step.source.shared.isClosed := by decide
  have early : ∀ step ∈ replayTwo openGrowth, ¬ GrowsLate step.source step.label :=
    fun step member late => opened step member late.1
  exact ⟨early, (threads_frozen_iff rfl (replayTwo_run (by decide))).mpr early⟩

/-- The other client shuts the pool down before the first one takes the lock again. -/
def lateGrowth : List (Label (Bool ⊕ Nat) (ImplCall Nat)) :=
  [.enter (.inl false) (.addWork (some 5) true .started), .resume (.inl false),
    .enter (.inl true) (.shutdown false true), .resume (.inl false)]

theorem lateGrowth_not_frozen :
    ¬ ∀ steps, (implSystem .dynamicSize (fun _ => false) 1 0).Run
        (⟨.new .dynamicSize 1 0, fun _ => .idle, []⟩ : ImplState Bool Nat) steps →
      ∀ step ∈ steps, KeepsThreads step.source step.target := by
  intro always
  have keeps := always (replayTwo lateGrowth) (replayTwo_run (by decide)) _
    (List.getLast_mem (by decide))
  obtain ⟨_, same, _⟩ := keeps (by decide)
  exact absurd same (by decide)

end Blocxx.ThreadPool
