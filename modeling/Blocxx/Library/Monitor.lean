import Blocxx.Library.TransitionSystem

/-!
This file models threads that share one mutex and several condition variables.
A step is one section of code that runs while the mutex is held.
-/

namespace Blocxx.Library.Monitor

/-- A thread leaves a wait set by a notice, without a cause, or by its timeout. -/
inductive Wake where
  | notified
  | spurious
  | expired
  deriving DecidableEq

/-- A phase says where a thread stands between two sections. -/
inductive Phase (Call Point Condition : Type) where
  | idle
  | between (call : Call) (point : Point)
  | asleep (call : Call) (point : Point) (condition : Condition) (timed : Bool)
  | woken (call : Call) (point : Point) (condition : Condition) (wake : Wake)

/-- A notice wakes one or all threads of a wait set. -/
inductive Notice (Condition : Type) where
  | one (condition : Condition)
  | all (condition : Condition)
  deriving DecidableEq

/-- A section ends with the result of its call, with a wait, or without the mutex. -/
inductive Next (Result Point Condition : Type) where
  | finish (result : Result)
  | wait (condition : Condition) (timed : Bool) (point : Point)
  | leave (point : Point)
  deriving DecidableEq

/-- A section keeps the new shared state, the notices it sends, and how it ends. -/
structure Section (Shared Result Point Condition : Type) where
  shared : Shared
  notices : List (Notice Condition)
  next : Next Result Point Condition

/-- A program gives the first section of each call and the section after each point.
The Boolean of `resume` is the answer of the timed wait. -/
structure Program (Shared Call Result Point Condition : Type) where
  enter : Call → Shared → Section Shared Result Point Condition
  resume : Call → Point → Bool → Shared → Section Shared Result Point Condition

/-- This record keeps the result of one finished call. -/
structure Finished (Thread Call Result : Type) where
  thread : Thread
  call : Call
  result : Result

/-- The record of finished calls is auxiliary: no section reads it. -/
structure State (Thread Shared Call Result Point Condition : Type) where
  shared : Shared
  phase : Thread → Phase Call Point Condition
  finished : List (Finished Thread Call Result)

inductive Label (Thread Call : Type) where
  | enter (thread : Thread) (call : Call)
  | resume (thread : Thread)
  | rouse (thread : Thread)
  | expire (thread : Thread)

variable {Thread Shared Call Result Point Condition : Type}

namespace Phase

def asleepOn (condition : Condition) : Phase Call Point Condition → Prop
  | .asleep _ _ waited _ => waited = condition
  | _ => False

def notifiedOn (condition : Condition) : Phase Call Point Condition → Prop
  | .woken _ _ waited wake => waited = condition ∧ wake = .notified
  | _ => False

instance [DecidableEq Condition] (condition : Condition) (phase : Phase Call Point Condition) :
    Decidable (phase.asleepOn condition) := by
  cases phase <;> simp only [asleepOn] <;> infer_instance

/-- A thread that a notice reaches leaves the wait set. -/
def notify : Phase Call Point Condition → Phase Call Point Condition
  | .asleep call point condition _ => .woken call point condition .notified
  | phase => phase

/-- The position forgets whether the thread still sleeps. -/
def position : Phase Call Point Condition → Option (Call × Point)
  | .idle => none
  | .between call point => some (call, point)
  | .asleep call point _ _ => some (call, point)
  | .woken call point _ _ => some (call, point)

@[simp] theorem notify_position (phase : Phase Call Point Condition) :
    phase.notify.position = phase.position := by
  cases phase <;> rfl

theorem notify_notifiedOn {condition : Condition} {phase : Phase Call Point Condition}
    (asleep : phase.asleepOn condition) : phase.notify.notifiedOn condition := by
  cases phase <;> simp_all [asleepOn, notify, notifiedOn]

@[simp] theorem notify_not_asleepOn {condition : Condition} {phase : Phase Call Point Condition} :
    ¬ phase.notify.asleepOn condition := by
  cases phase <;> simp [asleepOn, notify]

theorem eq_woken_of_notifiedOn {condition : Condition} {phase : Phase Call Point Condition}
    (notified : phase.notifiedOn condition) :
    ∃ call point, phase = .woken call point condition .notified := by
  cases phase with
  | woken call point waited wake =>
      obtain ⟨rfl, rfl⟩ := notified
      exact ⟨call, point, rfl⟩
  | idle => exact notified.elim
  | between call point => exact notified.elim
  | asleep call point waited timed => exact notified.elim

theorem notify_of_notifiedOn {condition : Condition} {phase : Phase Call Point Condition}
    (notified : phase.notifiedOn condition) : phase.notify = phase := by
  cases phase <;> simp_all [notifiedOn, notify]

/-- A notice changes no phase outside a wait set. -/
theorem notify_of_awake {phase : Phase Call Point Condition}
    (awake : ∀ condition, ¬ phase.asleepOn condition) : phase.notify = phase := by
  cases phase with
  | asleep call point condition timed => exact absurd rfl (awake condition)
  | idle => rfl
  | between call point => rfl
  | woken call point condition wake => rfl

end Phase

open Phase

/-- A delivery sends the notices of one section to the wait sets. -/
inductive Delivered [DecidableEq Thread] [DecidableEq Condition] :
    List (Notice Condition) → (Thread → Phase Call Point Condition) →
      (Thread → Phase Call Point Condition) → Prop
  | nil (phase : Thread → Phase Call Point Condition) : Delivered [] phase phase
  | all {condition : Condition} {rest : List (Notice Condition)}
      {phase later : Thread → Phase Call Point Condition}
      (tail : Delivered rest (fun thread => if (phase thread).asleepOn condition
        then (phase thread).notify else phase thread) later) :
      Delivered (.all condition :: rest) phase later
  | one {condition : Condition} {rest : List (Notice Condition)}
      {phase later : Thread → Phase Call Point Condition} {chosen : Thread}
      (asleep : (phase chosen).asleepOn condition)
      (tail : Delivered rest (Function.update phase chosen (phase chosen).notify) later) :
      Delivered (.one condition :: rest) phase later
  | nobody {condition : Condition} {rest : List (Notice Condition)}
      {phase later : Thread → Phase Call Point Condition}
      (awake : ∀ thread, ¬ (phase thread).asleepOn condition)
      (tail : Delivered rest phase later) : Delivered (.one condition :: rest) phase later

section Delivery

variable [DecidableEq Thread] [DecidableEq Condition]
  {notices : List (Notice Condition)} {phase later : Thread → Phase Call Point Condition}

/-- A delivery leaves each thread as it was or notifies it. -/
theorem Delivered.same_or_notified (delivered : Delivered notices phase later) (thread : Thread) :
    later thread = phase thread ∨ later thread = (phase thread).notify := by
  have twice (phase : Phase Call Point Condition) : phase.notify.notify = phase.notify := by
    cases phase <;> rfl
  induction delivered with
  | nil => exact .inl rfl
  | all tail ih =>
      dsimp only at ih
      split at ih
      · rw [twice, or_self] at ih
        exact .inr ih
      · exact ih
  | @one condition rest phase later chosen asleep tail ih =>
      by_cases same : thread = chosen
      · subst same
        simp only [Function.update_self, twice, or_self] at ih
        exact .inr ih
      · simpa only [Function.update_of_ne same] using ih
  | nobody awake tail ih => exact ih

@[simp] theorem Delivered.position (delivered : Delivered notices phase later) (thread : Thread) :
    (later thread).position = (phase thread).position := by
  rcases delivered.same_or_notified thread with same | notified
  · rw [same]
  · rw [notified, notify_position]

/-- A thread that still sleeps was not touched. -/
theorem Delivered.asleepOn {condition : Condition} (delivered : Delivered notices phase later)
    {thread : Thread} (asleep : (later thread).asleepOn condition) :
    later thread = phase thread := by
  rcases delivered.same_or_notified thread with same | notified
  · exact same
  · rw [notified] at asleep
    exact absurd asleep notify_not_asleepOn

/-- A delivery reaches only the wait sets. -/
theorem Delivered.of_awake (delivered : Delivered notices phase later) {thread : Thread}
    (awake : ∀ condition, ¬ (phase thread).asleepOn condition) : later thread = phase thread := by
  rcases delivered.same_or_notified thread with same | notified
  · exact same
  · rw [notified, notify_of_awake awake]

/-- A delivery never takes a notice back. -/
theorem Delivered.notifiedOn {condition : Condition} (delivered : Delivered notices phase later)
    {thread : Thread} (notified : (phase thread).notifiedOn condition) :
    (later thread).notifiedOn condition := by
  rcases delivered.same_or_notified thread with same | changed
  · rwa [same]
  · rwa [changed, notify_of_notifiedOn notified]

/-- A notice to one thread notifies a sleeper or finds nobody. -/
theorem Delivered.of_one {condition : Condition}
    (delivered : Delivered [.one condition] phase later) :
    (∃ chosen, (phase chosen).asleepOn condition ∧
        later = Function.update phase chosen (phase chosen).notify) ∨
      (∀ thread, ¬ (phase thread).asleepOn condition) ∧ later = phase := by
  cases delivered with
  | one asleep tail =>
      cases tail with
      | nil => exact .inl ⟨_, asleep, rfl⟩
  | nobody awake tail =>
      cases tail with
      | nil => exact .inr ⟨awake, rfl⟩

/-- Nobody sleeps on a condition whose wait set was emptied. -/
theorem Delivered.all_awake {condition : Condition} (delivered : Delivered notices phase later)
    (sent : .all condition ∈ notices) (thread : Thread) :
    ¬ (later thread).asleepOn condition := by
  induction delivered with
  | nil => simp at sent
  | @all current rest phase later tail ih =>
      by_cases same : current = condition
      · subst same
        intro asleep
        have kept := tail.asleepOn asleep
        rw [kept] at asleep
        split at asleep
        · exact notify_not_asleepOn asleep
        · contradiction
      · exact ih (by simpa [Ne.symm same] using sent)
  | one asleep tail ih => exact ih (by simpa using sent)
  | nobody awake tail ih => exact ih (by simpa using sent)

/-- A notice to one thread reaches a sleeper when there is one. -/
theorem Delivered.one_notified {condition : Condition} (delivered : Delivered notices phase later)
    (sent : .one condition ∈ notices) {sleeper : Thread}
    (asleep : (phase sleeper).asleepOn condition) :
    ∃ thread, (later thread).notifiedOn condition := by
  induction delivered with
  | nil => simp at sent
  | @all current rest phase later tail ih =>
      by_cases same : current = condition
      · subst same
        refine ⟨sleeper, tail.notifiedOn ?_⟩
        simp only [if_pos asleep]
        exact notify_notifiedOn asleep
      · apply ih (by simpa using sent)
        have other : ¬ (phase sleeper).asleepOn current := by
          intro wrong
          cases found : phase sleeper <;> simp_all [Phase.asleepOn]
        simpa only [if_neg other] using asleep
  | @one current rest phase later chosen chosenAsleep tail ih =>
      by_cases same : current = condition
      · subst same
        refine ⟨chosen, tail.notifiedOn ?_⟩
        simp only [Function.update_self]
        exact notify_notifiedOn chosenAsleep
      · apply ih (by simpa [Ne.symm same] using sent)
        have other : sleeper ≠ chosen := by
          rintro rfl
          cases found : phase sleeper <;> simp_all [Phase.asleepOn]
        simpa only [Function.update_of_ne other] using asleep
  | @nobody current rest phase later awake tail ih =>
      by_cases same : current = condition
      · subst same
        exact absurd asleep (awake sleeper)
      · exact ih (by simpa [Ne.symm same] using sent) asleep

end Delivery

namespace Next

def phase (call : Call) : Next Result Point Condition → Phase Call Point Condition
  | .finish _ => .idle
  | .wait condition timed point => .asleep call point condition timed
  | .leave point => .between call point

def position (call : Call) : Next Result Point Condition → Option (Call × Point)
  | .finish _ => none
  | .wait _ _ point => some (call, point)
  | .leave point => some (call, point)

def finished (thread : Thread) (call : Call) :
    Next Result Point Condition → List (Finished Thread Call Result)
  | .finish result => [⟨thread, call, result⟩]
  | _ => []

@[simp] theorem phase_position (call : Call) (next : Next Result Point Condition) :
    (next.phase call).position = next.position call := by
  cases next <;> rfl

end Next

/-- The positions of all threads, without the wait sets. -/
def State.position (state : State Thread Shared Call Result Point Condition) (thread : Thread) :
    Option (Call × Point) := (state.phase thread).position

/-- The call of the thread that a label moves. -/
def State.callOf (state : State Thread Shared Call Result Point Condition) :
    Label Thread Call → Option Call
  | .enter _ call => some call
  | .resume thread => (state.position thread).map Prod.fst
  | .rouse _ | .expire _ => none

/-- A turn names the thread that takes the mutex and the section that it runs. -/
inductive Turn (program : Program Shared Call Result Point Condition)
    (state : State Thread Shared Call Result Point Condition) :
    Label Thread Call → Thread → Call → Section Shared Result Point Condition → Prop
  | enter {thread : Thread} (call : Call) (idle : state.phase thread = .idle) :
      Turn program state (.enter thread call) thread call (program.enter call state.shared)
  | between {thread : Thread} {call : Call} {point : Point}
      (stands : state.phase thread = .between call point) :
      Turn program state (.resume thread) thread call
        (program.resume call point true state.shared)
  | woken {thread : Thread} {call : Call} {point : Point} {condition : Condition} {wake : Wake}
      (stands : state.phase thread = .woken call point condition wake) :
      Turn program state (.resume thread) thread call
        (program.resume call point (wake != .expired) state.shared)

/-- A turn starts an idle thread or continues a thread at its point. -/
theorem Turn.cases_position {program : Program Shared Call Result Point Condition}
    {state : State Thread Shared Call Result Point Condition} {label : Label Thread Call}
    {thread : Thread} {call : Call} {ran : Section Shared Result Point Condition}
    (turn : Turn program state label thread call ran) :
    (label = .enter thread call ∧ state.position thread = none ∧
        ran = program.enter call state.shared) ∨
      label = .resume thread ∧ ∃ point answer, state.position thread = some (call, point) ∧
        ran = program.resume call point answer state.shared := by
  cases turn with
  | enter call idle => exact .inl ⟨rfl, by rw [State.position, idle, Phase.position], rfl⟩
  | between stands => exact .inr ⟨rfl, _, _, by rw [State.position, stands, Phase.position], rfl⟩
  | woken stands => exact .inr ⟨rfl, _, _, by rw [State.position, stands, Phase.position], rfl⟩

/-- The label of a turn names its call. -/
theorem Turn.callOf {program : Program Shared Call Result Point Condition}
    {state : State Thread Shared Call Result Point Condition} {label : Label Thread Call}
    {thread : Thread} {call : Call} {ran : Section Shared Result Point Condition}
    (turn : Turn program state label thread call ran) : state.callOf label = some call := by
  cases turn with
  | enter call idle => rfl
  | between stands => rw [State.callOf, State.position, stands, Phase.position, Option.map_some]
  | woken stands => rw [State.callOf, State.position, stands, Phase.position, Option.map_some]

/-- A thread that takes the mutex does not sleep. -/
theorem Turn.not_asleepOn {program : Program Shared Call Result Point Condition}
    {state : State Thread Shared Call Result Point Condition} {label : Label Thread Call}
    {thread : Thread} {call : Call} {ran : Section Shared Result Point Condition}
    (turn : Turn program state label thread call ran)
    (condition : Condition) : ¬ (state.phase thread).asleepOn condition := by
  cases turn with
  | enter call idle => rw [idle]; exact id
  | between stands => rw [stands]; exact id
  | woken stands => rw [stands]; exact id

/-- This is the state after a section and its notices. -/
def State.ran [DecidableEq Thread] (state : State Thread Shared Call Result Point Condition)
    (thread : Thread) (call : Call) (ran : Section Shared Result Point Condition)
    (phase : Thread → Phase Call Point Condition) :
    State Thread Shared Call Result Point Condition where
  shared := ran.shared
  phase := Function.update phase thread (ran.next.phase call)
  finished := state.finished ++ ran.next.finished thread call

/-- A thread leaves its wait set without a notice. -/
def State.wake [DecidableEq Thread] (state : State Thread Shared Call Result Point Condition)
    (thread : Thread) (phase : Phase Call Point Condition) :
    State Thread Shared Call Result Point Condition :=
  { state with phase := Function.update state.phase thread phase }

/-- A step runs one section, or one sleeper wakes up without a notice. -/
inductive Step [DecidableEq Thread] [DecidableEq Condition]
    (program : Program Shared Call Result Point Condition) :
    State Thread Shared Call Result Point Condition → Label Thread Call →
      State Thread Shared Call Result Point Condition → Prop
  | run {state : State Thread Shared Call Result Point Condition} {label : Label Thread Call}
      {thread : Thread} {call : Call} {ran : Section Shared Result Point Condition}
      {phase : Thread → Phase Call Point Condition}
      (turn : Turn program state label thread call ran)
      (delivered : Delivered ran.notices state.phase phase) :
      Step program state label (state.ran thread call ran phase)
  | rouse {state : State Thread Shared Call Result Point Condition} {thread : Thread}
      {call : Call} {point : Point} {condition : Condition} {timed : Bool}
      (asleep : state.phase thread = .asleep call point condition timed) :
      Step program state (.rouse thread)
        (state.wake thread (.woken call point condition .spurious))
  | expire {state : State Thread Shared Call Result Point Condition} {thread : Thread}
      {call : Call} {point : Point} {condition : Condition}
      (asleep : state.phase thread = .asleep call point condition true) :
      Step program state (.expire thread)
        (state.wake thread (.woken call point condition .expired))

/-- All threads are idle at the start. -/
def Program.system [DecidableEq Thread] [DecidableEq Condition]
    (program : Program Shared Call Result Point Condition) (start : Shared) :
    TransitionSystem (State Thread Shared Call Result Point Condition) (Label Thread Call) where
  initial state := state = ⟨start, fun _ => .idle, []⟩
  step := Step program

section Inversion

variable [DecidableEq Thread] [DecidableEq Condition]
  {program : Program Shared Call Result Point Condition}
  {state next : State Thread Shared Call Result Point Condition} {label : Label Thread Call}
  {thread : Thread} {call : Call} {ran : Section Shared Result Point Condition}

/-- The notices of a section move no thread to another point. -/
theorem State.ran_position {phase : Thread → Phase Call Point Condition}
    (delivered : Delivered ran.notices state.phase phase) :
    (state.ran thread call ran phase).position =
      Function.update state.position thread (ran.next.position call) := by
  funext other
  by_cases same : other = thread
  · subst same
    simp [State.position, State.ran]
  · simp [State.position, State.ran, Function.update_of_ne same, delivered.position]

omit [DecidableEq Condition] in
/-- A wake moves no thread to another point. -/
theorem State.wake_position {phase : Phase Call Point Condition}
    (same : phase.position = (state.phase thread).position) :
    (state.wake thread phase).position = state.position := by
  funext other
  by_cases equal : other = thread
  · subst equal
    simp [State.position, State.wake, same]
  · simp [State.position, State.wake, Function.update_of_ne equal]

/-- Each step runs one section or changes nothing but a wait set. -/
theorem Step.ran_or_woken (step : Step program state label next) :
    (∃ thread call ran, Turn program state label thread call ran ∧
        next.shared = ran.shared ∧
        next.position = Function.update state.position thread (ran.next.position call) ∧
        next.finished = state.finished ++ ran.next.finished thread call) ∨
      (next.shared = state.shared ∧ next.position = state.position ∧
        next.finished = state.finished) := by
  cases step with
  | run turn delivered =>
      exact .inl ⟨_, _, _, turn, rfl, State.ran_position delivered, rfl⟩
  | rouse asleep => exact .inr ⟨rfl, State.wake_position (by rw [asleep]; rfl), rfl⟩
  | expire asleep => exact .inr ⟨rfl, State.wake_position (by rw [asleep]; rfl), rfl⟩

omit [DecidableEq Condition] in
/-- A thread that is asleep after a wake was asleep before it. -/
theorem State.wake_asleepOn {condition waited : Condition} {point : Point} {wake : Wake}
    {other : Thread}
    (asleep : ((state.wake thread (.woken call point waited wake)).phase other).asleepOn
      condition) : (state.phase other).asleepOn condition := by
  by_cases same : other = thread
  · subst same
    simp [State.wake, asleepOn] at asleep
  · simpa [State.wake, Function.update_of_ne same] using asleep

omit [DecidableEq Condition] in
/-- A wake keeps the notices that other threads hold. -/
theorem State.wake_notifiedOn {condition : Condition} {phase : Phase Call Point Condition}
    {waited : Condition} {point : Point} {timed : Bool} {other : Thread}
    (stands : state.phase thread = .asleep call point waited timed)
    (notified : (state.phase other).notifiedOn condition) :
    ((state.wake thread phase).phase other).notifiedOn condition := by
  have different : other ≠ thread := by
    rintro rfl
    rw [stands] at notified
    exact notified
  simpa [State.wake, Function.update_of_ne different] using notified

/-- Another thread that sleeps after a section slept before it. -/
theorem State.ran_asleepOn {phase : Thread → Phase Call Point Condition} {condition : Condition}
    {other : Thread} (delivered : Delivered ran.notices state.phase phase)
    (different : other ≠ thread)
    (asleep : ((state.ran thread call ran phase).phase other).asleepOn condition) :
    (state.phase other).asleepOn condition ∧ (phase other).asleepOn condition := by
  simp only [State.ran, Function.update_of_ne different] at asleep
  exact ⟨by rwa [← delivered.asleepOn asleep], asleep⟩

/-- Nobody sleeps on a condition after a section when nobody slept on it before or the section
woke all of them, and its own thread does not start to sleep on it. -/
theorem State.ran_awake {phase : Thread → Phase Call Point Condition} {condition : Condition}
    (delivered : Delivered ran.notices state.phase phase)
    (before : (∀ other, ¬ (state.phase other).asleepOn condition) ∨ .all condition ∈ ran.notices)
    (own : ¬ (ran.next.phase call).asleepOn condition) (other : Thread) :
    ¬ ((state.ran thread call ran phase).phase other).asleepOn condition := by
  intro asleep
  by_cases same : other = thread
  · subst same
    apply own
    simpa only [State.ran, Function.update_self] using asleep
  · obtain ⟨slept, sleeps⟩ := State.ran_asleepOn delivered same asleep
    rcases before with awake | sent
    · exact awake other slept
    · exact delivered.all_awake sent other sleeps

end Inversion

/-! A thread stands only where a section of its call left it. -/

section Standing

variable {waits : Call → Point → Condition → Bool → Prop} {leaves : Call → Point → Prop}

/-- The thread waits or stands as the two relations allow. Only a timed wait expires. -/
def Phase.Fits (waits : Call → Point → Condition → Bool → Prop) (leaves : Call → Point → Prop) :
    Phase Call Point Condition → Prop
  | .idle => True
  | .between call point => leaves call point
  | .asleep call point condition timed => waits call point condition timed
  | .woken call point condition wake =>
      ∃ timed, waits call point condition timed ∧ (wake = .expired → timed = true)

/-- A thread at this point continues, and a false answer means that its timed wait expired. -/
def Continues (waits : Call → Point → Condition → Bool → Prop) (leaves : Call → Point → Prop)
    (call : Call) (point : Point) (answer : Bool) : Prop :=
  leaves call point ∧ answer = true ∨
    ∃ condition timed, waits call point condition timed ∧ (answer = false → timed = true)

/-- The sections of a program leave a thread only where the two relations allow. -/
structure Program.Keeps (program : Program Shared Call Result Point Condition)
    (waits : Call → Point → Condition → Bool → Prop) (leaves : Call → Point → Prop) : Prop where
  enter : ∀ call shared, ((program.enter call shared).next.phase call).Fits waits leaves
  resume : ∀ call point answer shared, Continues waits leaves call point answer →
    ((program.resume call point answer shared).next.phase call).Fits waits leaves

/-- A thread inside a call waits there or has left the mutex there. -/
theorem Phase.Fits.of_position {phase : Phase Call Point Condition}
    (fits : phase.Fits waits leaves) {call : Call} {point : Point}
    (stands : phase.position = some (call, point)) :
    leaves call point ∨ ∃ condition timed, waits call point condition timed := by
  cases phase with
  | idle => cases stands
  | between =>
      cases stands
      exact .inl fits
  | asleep =>
      cases stands
      exact .inr ⟨_, _, fits⟩
  | woken =>
      cases stands
      obtain ⟨timed, waited, _⟩ := fits
      exact .inr ⟨_, timed, waited⟩

theorem Phase.Fits.notify {phase : Phase Call Point Condition} (fits : phase.Fits waits leaves) :
    phase.notify.Fits waits leaves := by
  cases phase with
  | asleep call point condition timed =>
      refine ⟨timed, fits, ?_⟩
      intro expired
      cases expired
  | idle => exact fits
  | between call point => exact fits
  | woken call point condition wake => exact fits

variable {program : Program Shared Call Result Point Condition}
  {state next : State Thread Shared Call Result Point Condition} {label : Label Thread Call}
  {thread : Thread} {call : Call} {ran : Section Shared Result Point Condition}

/-- A turn finds its thread at a point or outside all calls, and a false answer tells that its wait
has expired. -/
structure Begins (state : State Thread Shared Call Result Point Condition)
    (label : Label Thread Call) (thread : Thread) (call : Call) (point : Option Point)
    (answer : Bool) : Prop where
  stands : state.position thread = point.map (call, ·)
  entered : point = none → label = .enter thread call
  resumed : point ≠ none → label = .resume thread
  expired : answer = false → label = .resume thread ∧
    ∃ here condition, state.phase thread = .woken call here condition .expired

/-- A turn begins a call or goes on where its thread may stand. -/
theorem Turn.begins (turn : Turn program state label thread call ran)
    (fits : ∀ thread, (state.phase thread).Fits waits leaves) :
    (Begins state label thread call none true ∧ ran = program.enter call state.shared) ∨
      ∃ point answer, Begins state label thread call (some point) answer ∧
        Continues waits leaves call point answer ∧
        ran = program.resume call point answer state.shared := by
  have stood := fits thread
  cases turn with
  | enter call idle =>
      refine .inl ⟨⟨?_, fun _ => rfl, nofun, nofun⟩, rfl⟩
      rw [State.position, idle, Phase.position]
      rfl
  | between stands =>
      rw [stands] at stood
      refine .inr ⟨_, true, ⟨?_, nofun, fun _ => rfl, nofun⟩, .inl ⟨stood, rfl⟩, rfl⟩
      rw [State.position, stands, Phase.position]
      rfl
  | @woken thread call point condition wake stands =>
      rw [stands] at stood
      obtain ⟨timed, waited, expires⟩ := stood
      have late (no : (wake != .expired) = false) : wake = .expired := by simpa using no
      refine .inr ⟨point, _, ⟨?_, nofun, fun _ => rfl, ?_⟩, .inr ⟨condition, timed, waited, ?_⟩,
        rfl⟩
      · rw [State.position, stands, Phase.position]
        rfl
      · intro no
        refine ⟨rfl, point, condition, ?_⟩
        rw [stands, late no]
      · exact fun no => expires (late no)

/-- A turn enters a call or continues it where the thread stood. -/
theorem Turn.continues (turn : Turn program state label thread call ran)
    (fits : ∀ thread, (state.phase thread).Fits waits leaves) :
    (label = .enter thread call ∧ state.position thread = none ∧
        ran = program.enter call state.shared) ∨
      label = .resume thread ∧ ∃ point answer, state.position thread = some (call, point) ∧
        Continues waits leaves call point answer ∧
        ran = program.resume call point answer state.shared := by
  rcases turn.begins fits with ⟨begins, isSection⟩ | ⟨point, answer, begins, continues, isSection⟩
  · exact .inl ⟨begins.entered rfl, begins.stands, isSection⟩
  · exact .inr ⟨begins.resumed nofun, point, answer, begins.stands, continues, isSection⟩

variable [DecidableEq Thread]

/-- A sleeper that wakes stays at its point. -/
theorem State.wake_fits {point : Point} {condition : Condition} {timed : Bool} {wake : Wake}
    (asleep : state.phase thread = .asleep call point condition timed)
    (expires : wake = .expired → timed = true)
    (fits : ∀ thread, (state.phase thread).Fits waits leaves) (other : Thread) :
    ((state.wake thread (.woken call point condition wake)).phase other).Fits waits leaves := by
  by_cases same : other = thread
  · subst same
    have slept := fits other
    rw [asleep] at slept
    simp only [State.wake, Function.update_self]
    exact ⟨timed, slept, expires⟩
  · simp only [State.wake, Function.update_of_ne same]
    exact fits other

variable [DecidableEq Condition]

/-- The thread that ran stands where its section leaves it, and a notice moves no other thread. -/
theorem State.ran_fits {phase : Thread → Phase Call Point Condition}
    (delivered : Delivered ran.notices state.phase phase)
    (fits : ∀ thread, (state.phase thread).Fits waits leaves)
    (left : (ran.next.phase call).Fits waits leaves) (other : Thread) :
    ((state.ran thread call ran phase).phase other).Fits waits leaves := by
  by_cases same : other = thread
  · subst same
    simp only [State.ran, Function.update_self]
    exact left
  · simp only [State.ran, Function.update_of_ne same]
    rcases delivered.same_or_notified other with kept | notified
    · rw [kept]
      exact fits other
    · rw [notified]
      exact (fits other).notify

/-- Every step leaves each thread where the two relations allow. -/
theorem Step.fits (keeps : program.Keeps waits leaves) (step : Step program state label next)
    (fits : ∀ thread, (state.phase thread).Fits waits leaves) (other : Thread) :
    (next.phase other).Fits waits leaves := by
  cases step with
  | run turn delivered =>
      apply State.ran_fits delivered fits
      rcases turn.continues fits with ⟨_, _, rfl⟩ | ⟨_, point, answer, _, continues, rfl⟩
      · exact keeps.enter _ state.shared
      · exact keeps.resume _ point answer state.shared continues
  | rouse asleep =>
      have awake (same : Wake.spurious = .expired) : False := by cases same
      exact State.wake_fits asleep (fun same => (awake same).elim) fits other
  | expire asleep => exact State.wake_fits asleep (fun _ => rfl) fits other

/-- In every reachable state of the program each thread stands where it may. -/
theorem Program.Keeps.reachable (keeps : program.Keeps waits leaves) {start : Shared}
    (reached : (program.system start).Reachable state) :
    ∀ thread, (state.phase thread).Fits waits leaves := by
  apply reached.invariant
  · intro state begins thread
    rw [begins]
    exact trivial
  · intro state label next before fits step
    exact step.fits keeps fits

end Standing

end Blocxx.Library.Monitor
