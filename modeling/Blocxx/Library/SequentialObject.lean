import Blocxx.Library.Monitor

/-!
This file relates a monitor to a sequential object, which answers one call after the other.
-/

namespace Blocxx.Library.Monitor

variable {Thread Shared Call Result Point Condition Object : Type}

/-- A sequential object changes with each call and its result, if the call may have this result. -/
abbrev After (Object Call Result : Type) := Object → Call → Result → Option Object

/-- The object after finished calls in their order. -/
def After.history (after : After Object Call Result) (start : Object)
    (finished : List (Finished Thread Call Result)) : Option Object :=
  finished.foldlM (fun object done => after object done.call done.result) start

theorem After.history_append {after : After Object Call Result} {start object : Object}
    {finished : List (Finished Thread Call Result)}
    (before : after.history start finished = some object) (done : Finished Thread Call Result) :
    after.history start (finished ++ [done]) = after object done.call done.result := by
  rw [history, List.foldlM_append]
  rw [history] at before
  rw [before]
  simp

/-- A section that finishes its call has a result that the object allows, and any other one leaves the
object as it is. -/
def Section.Simulates (ran : Section Shared Result Point Condition) (after : After Object Call Result)
    (represents : Shared → Object → Prop) (call : Call) (object : Object) : Prop :=
  match ran.next with
  | .finish result => ∃ later, after object call result = some later ∧ represents ran.shared later
  | _ => represents ran.shared object

/-- The finished calls lead to an object that the shared state stands for. -/
def State.Serial (state : State Thread Shared Call Result Point Condition)
    (after : After Object Call Result) (represents : Shared → Object → Prop) (start : Object) : Prop :=
  ∃ object, after.history start state.finished = some object ∧ represents state.shared object

variable {after : After Object Call Result} {represents : Shared → Object → Prop} {start : Object}
  {state next : State Thread Shared Call Result Point Condition} {label : Label Thread Call}
  {program : Program Shared Call Result Point Condition}

/-- A step keeps the order of the finished calls a history of the object when its section does what the
object does. -/
theorem State.Serial.step [DecidableEq Thread] [DecidableEq Condition]
    (serial : state.Serial after represents start) (step : Step program state label next)
    (simulates : ∀ {thread call ran} object, Turn program state label thread call ran →
      after.history start state.finished = some object → represents state.shared object →
        ran.Simulates after represents call object) :
    next.Serial after represents start := by
  obtain ⟨object, before, stands⟩ := serial
  cases step with
  | @run label thread call ran phase turn delivered =>
      have does := simulates object turn before stands
      rw [Section.Simulates] at does
      rw [State.Serial, State.ran]
      cases ends : ran.next with
      | finish result =>
          rw [ends] at does
          obtain ⟨later, allowed, stands⟩ := does
          exact ⟨later, (After.history_append before _).trans allowed, stands⟩
      | wait | leave =>
          rw [ends] at does
          exact ⟨object, (congrArg _ (List.append_nil _)).trans before, does⟩
  | rouse | expire => exact ⟨object, before, stands⟩

/-- Each thread that sleeps is blocked there. -/
def State.Blocked (state : State Thread Shared Call Result Point Condition)
    (blocked : Shared → Call → Point → Prop) : Prop :=
  ∀ thread call point condition timed, state.phase thread = .asleep call point condition timed →
    blocked state.shared call point

/-- A section begins no wait without a reason, and it takes no reason away unless it wakes all threads. -/
theorem State.Blocked.step [DecidableEq Thread] [DecidableEq Condition]
    {blocked : Shared → Call → Point → Prop} (waits : state.Blocked blocked)
    (step : Step program state label next)
    (begins : ∀ {thread call ran}, Turn program state label thread call ran →
      ∀ {condition timed point}, ran.next = .wait condition timed point →
        blocked ran.shared call point)
    (keeps : ∀ {thread call ran}, Turn program state label thread call ran →
      (∀ call point, blocked state.shared call point → blocked ran.shared call point) ∨
        ∀ condition, .all condition ∈ ran.notices) : next.Blocked blocked := by
  intro other call point condition timed asleep
  cases step with
  | @run label thread inner ran phase turn delivered =>
      change Function.update phase thread (ran.next.phase inner) other = _ at asleep
      by_cases same : other = thread
      · rw [same, Function.update_self] at asleep
        cases ends : ran.next with
        | wait =>
            rw [ends] at asleep
            cases asleep
            exact begins turn ends
        | finish | leave =>
            rw [ends] at asleep
            cases asleep
      · rw [Function.update_of_ne same] at asleep
        have sleeps : (phase other).asleepOn condition := by
          rw [asleep]
          rfl
        have slept := (delivered.asleepOn sleeps).symm.trans asleep
        rcases keeps turn with keeps | wakes
        · exact keeps call point (waits other call point condition timed slept)
        · exact absurd sleeps (delivered.all_awake (wakes condition) other)
  | @rouse thread | @expire thread =>
      change Function.update state.phase thread _ other = _ at asleep
      by_cases same : other = thread
      · rw [same, Function.update_self] at asleep
        cases asleep
      · rw [Function.update_of_ne same] at asleep
        exact waits other call point condition timed asleep

end Blocxx.Library.Monitor
