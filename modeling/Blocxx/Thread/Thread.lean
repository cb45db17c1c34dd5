import Blocxx.Library.Monitor
import Blocxx.Library.Replay

/-!
This file embeds the waits for a started `Thread`, its cancellation, and its end, and proves when
waiting for a thread and cancelling it is sound. Each definition is one section that holds
`m_stateGuard`, or one step without it.
-/

namespace Blocxx.Threads
open Library.Monitor

/-- How the thread has come to its end. A forced cancellation comes before `doneRunning`. -/
inductive Exit where
  | unfinished
  | clean
  | forced
  deriving DecidableEq

/-- The two flags, and auxiliary fields that no section reads for its result. -/
structure Thread where
  m_isRunning : Bool
  m_cancelled : Bool
  runEnded : Bool
  exit : Exit

inductive Condition where
  | m_stateCond
  deriving DecidableEq

/-- The two virtual functions of a cancelled thread may throw. -/
inductive Call where
  | threadRunner
  | timedWait
  | definitiveCancel (doCooperativeCancelThrows doDefinitiveCancelThrows : Bool)
  | cancel
  deriving DecidableEq

inductive Point where
  | doneRunning
  | timedWaitLoop
  | definitiveCancelLoop (doDefinitiveCancelThrows : Bool)
  | cancelInternal
  deriving DecidableEq

inductive Result where
  | returned
  | threw
  | waited (exited : Bool)
  | cancelled (cleanly : Bool)
  deriving DecidableEq

abbrev ThreadSection := Section Thread Result Point Condition

namespace Thread

/-- The end of `ThreadImpl::cancel`. -/
def forced (thread : Thread) : Thread :=
  { thread with exit := if thread.exit = .unfinished then .forced else thread.exit }

variable (thread : Thread)

/-- The end of `run`. The thread that makes the call first is the started one. -/
def run : ThreadSection :=
  if thread.runEnded then ⟨thread, [], .finish .returned⟩
  else ⟨{ thread with runEnded := true }, [], .leave .doneRunning⟩

def doneRunning : ThreadSection :=
  ⟨{ thread with
      m_isRunning := false
      exit := if thread.exit = .unfinished then .clean else thread.exit },
    [.all .m_stateCond], .finish .returned⟩

/-- The loop of `timedWait` with the answer of its wait. -/
def timedWaitLoop (answer : Bool) : ThreadSection :=
  if answer then
    if thread.m_isRunning then ⟨thread, [], .wait .m_stateCond true .timedWaitLoop⟩
    else ⟨thread, [], .finish (.waited true)⟩
  else ⟨thread, [], .finish (.waited false)⟩

/-- The locked part of `cancel_internal`. -/
def cancelInternal (result : Result) : ThreadSection :=
  ⟨{ thread with m_isRunning := false, m_cancelled := true }, [.all .m_stateCond],
    .finish result⟩

def cancel : ThreadSection := ⟨thread.forced, [], .leave .cancelInternal⟩

/-- The part of `definitiveCancel` in front of its lock. -/
def definitiveCancel (doCooperativeCancelThrows doDefinitiveCancelThrows : Bool) :
    ThreadSection :=
  if !thread.m_isRunning then ⟨thread, [], .finish (.cancelled true)⟩
  else if doCooperativeCancelThrows then ⟨thread, [], .finish .threw⟩
  else ⟨thread, [], .leave (.definitiveCancelLoop doDefinitiveCancelThrows)⟩

/-- The loop of `definitiveCancel` with the answer of its wait. -/
def definitiveCancelLoop (doDefinitiveCancelThrows answer : Bool) : ThreadSection :=
  if answer then
    if !thread.m_cancelled && thread.m_isRunning then
      ⟨thread, [], .wait .m_stateCond true (.definitiveCancelLoop doDefinitiveCancelThrows)⟩
    else ⟨thread, [], .finish (.cancelled true)⟩
  else if doDefinitiveCancelThrows then ⟨thread, [], .finish .threw⟩
  else if !thread.m_cancelled && thread.m_isRunning then
    thread.forced.cancelInternal (.cancelled false)
  else ⟨thread, [], .finish (.cancelled false)⟩

end Thread

/-- The answer of a timed wait is false when it has expired. -/
def program : Program Thread Call Result Point Condition where
  enter
    | .threadRunner => Thread.run
    | .timedWait => (Thread.timedWaitLoop · true)
    | .definitiveCancel cooperative definitive => (Thread.definitiveCancel · cooperative definitive)
    | .cancel => Thread.cancel
  resume
    | _, .doneRunning, _ => Thread.doneRunning
    | _, .timedWaitLoop, answer => (Thread.timedWaitLoop · answer)
    | _, .definitiveCancelLoop definitive, answer =>
        (Thread.definitiveCancelLoop · definitive answer)
    | _, .cancelInternal, _ => (Thread.cancelInternal · .returned)

/-- The thread after `start`. -/
def started : Thread := ⟨true, false, false, .unfinished⟩

end Blocxx.Threads

namespace Blocxx.Threads
open Library Library.Monitor

variable {Caller : Type}

abbrev ThreadState (Caller : Type) := State Caller Thread Call Result Point Condition

section Property

/-- What the result of a call says is true of the thread. -/
def Thread.Right (thread : Thread) : Result → Prop
  | .waited true => thread.runEnded = true
  | .cancelled true => thread.exit = .clean
  | .cancelled false => thread.exit = .forced
  | _ => True

/-- All results are right, and nobody sleeps on when the flag is cleared. -/
structure Sound (state : ThreadState Caller) : Prop where
  results : ∀ done ∈ state.finished, state.shared.Right done.result
  awake : state.shared.m_isRunning = false →
    ∀ caller, ¬ (state.phase caller).asleepOn .m_stateCond

/-- The test of a wait finds no flag that a forced cancellation has set, unless `timedWait` makes it
and `run` has ended. -/
def Thread.Waits (thread : Thread) : Point → Bool → Prop
  | .timedWaitLoop, true => thread.m_isRunning = false → thread.runEnded = true
  | .definitiveCancelLoop _, true => thread.m_isRunning = false → thread.exit ≠ .forced
  | .definitiveCancelLoop false, false => thread.exit ≠ .clean
  | _, _ => True

/-- The condition of a step on the state before it. A wait of `definitiveCancel` does not expire
after a clean exit. -/
def Orderly (state : ThreadState Caller) : Label Caller Call → Prop
  | .enter _ .timedWait => state.shared.Waits .timedWaitLoop true
  | .enter _ (.definitiveCancel _ definitive) =>
      state.shared.Waits (.definitiveCancelLoop definitive) true
  | .resume caller =>
      match state.phase caller with
      | .between _ point => state.shared.Waits point true
      | .woken _ point _ wake => state.shared.Waits point (wake != .expired)
      | _ => True
  | _ => True

end Property

section Sections

/-- This relation lists the waits of each call. -/
inductive Sleeps : Call → Point → Condition → Bool → Prop
  | timedWait : Sleeps .timedWait .timedWaitLoop .m_stateCond true
  | definitiveCancel {cooperative definitive : Bool} :
      Sleeps (.definitiveCancel cooperative definitive) (.definitiveCancelLoop definitive)
        .m_stateCond true

/-- This relation lists where a call goes on without the lock. -/
inductive Leaves : Call → Point → Prop
  | threadRunner : Leaves .threadRunner .doneRunning
  | definitiveCancel {cooperative definitive : Bool} :
      Leaves (.definitiveCancel cooperative definitive) (.definitiveCancelLoop definitive)
  | cancel : Leaves .cancel .cancelInternal

variable {thread : Thread} {call : Call} {ran : ThreadSection}

theorem timedWaitLoop_fits (thread : Thread) (answer : Bool) :
    ((thread.timedWaitLoop answer).next.phase .timedWait).Fits Sleeps Leaves := by
  rw [Thread.timedWaitLoop]
  split
  · split
    · exact .timedWait
    · trivial
  · trivial

theorem definitiveCancelLoop_fits (thread : Thread) (cooperative definitive answer : Bool) :
    ((thread.definitiveCancelLoop definitive answer).next.phase
      (.definitiveCancel cooperative definitive)).Fits Sleeps Leaves := by
  rw [Thread.definitiveCancelLoop]
  split
  · split
    · exact .definitiveCancel
    · trivial
  · split
    · trivial
    · split
      · trivial
      · trivial

theorem program_keeps : program.Keeps Sleeps Leaves where
  enter call thread := by
    cases call with
    | threadRunner =>
        show (thread.run.next.phase _).Fits Sleeps Leaves
        rw [Thread.run]
        split
        · trivial
        · exact .threadRunner
    | timedWait => exact timedWaitLoop_fits thread true
    | definitiveCancel cooperative definitive =>
        show ((thread.definitiveCancel cooperative definitive).next.phase _).Fits Sleeps Leaves
        rw [Thread.definitiveCancel]
        split
        · trivial
        · split
          · trivial
          · exact .definitiveCancel
    | cancel => exact .cancel
  resume call point answer thread continues := by
    rcases continues with ⟨leaves, -⟩ | ⟨condition, timed, sleeps, -⟩
    · cases leaves with
      | threadRunner | cancel => trivial
      | definitiveCancel => exact definitiveCancelLoop_fits thread _ _ answer
    · cases sleeps with
      | timedWait => exact timedWaitLoop_fits thread answer
      | definitiveCancel => exact definitiveCancelLoop_fits thread _ _ answer

end Sections

section Invariant

variable {thread other : Thread} {point : Point}

/-- The flags tell how far the thread is. -/
structure Thread.Flags (thread : Thread) : Prop where
  running : thread.m_isRunning = true → thread.exit ≠ .clean ∧ thread.m_cancelled = false
  stopped : thread.m_isRunning = false → thread.exit ≠ .unfinished

/-- Nothing that has happened to the thread is taken back. -/
structure Thread.Later (thread later : Thread) : Prop where
  runEnded : thread.runEnded = true → later.runEnded = true
  exit : thread.exit ≠ .unfinished → later.exit = thread.exit
  stopped : thread.m_isRunning = false → later.m_isRunning = false

/-- What a section does to a thread whose flags are right, and when its result is right. -/
structure Does (thread : Thread) (orderly : Prop) (ran : ThreadSection) : Prop where
  later : thread.Later ran.shared
  flags : ran.shared.Flags
  right : (∀ result, ran.next = .finish result → ran.shared.Right result) ↔ orderly
  sleeps : ∀ condition timed point, ran.next = .wait condition timed point →
    ran.shared.m_isRunning = true
  notifies : ran.shared.m_isRunning = false → thread.m_isRunning = true →
    .all .m_stateCond ∈ ran.notices
  cancels : ran.next = .leave .cancelInternal → ran.shared.exit ≠ .unfinished

theorem Thread.Later.refl (thread : Thread) : thread.Later thread := ⟨id, fun _ => rfl, id⟩

theorem Thread.Right.later {result : Result} (right : thread.Right result)
    (goesOn : thread.Later other) : other.Right result := by
  cases result with
  | returned | threw => trivial
  | waited exited =>
      cases exited with
      | true => exact goesOn.runEnded right
      | false => trivial
  | cancelled cleanly =>
      cases cleanly with
      | true =>
          have exit : thread.exit = .clean := right
          exact (goesOn.exit (by rw [exit]; nofun)).trans exit
      | false =>
          have exit : thread.exit = .forced := right
          exact (goesOn.exit (by rw [exit]; nofun)).trans exit

/-- A section that only finishes has done nothing but give its result. -/
theorem does_finish (flags : thread.Flags) {result : Result} {orderly : Prop}
    (right : thread.Right result ↔ orderly) :
    Does thread orderly ⟨thread, [], .finish result⟩ := by
  refine ⟨.refl thread, flags, ?_, nofun, ?_, nofun⟩
  · rw [← right]
    constructor
    · exact fun all => all result rfl
    · rintro here other is
      cases is
      exact here
  · intro stopped running
    exact absurd (stopped.symm.trans running) Bool.false_ne_true

theorem does_wait (flags : thread.Flags) {orderly : Prop} (holds : orderly)
    (running : thread.m_isRunning = true) :
    Does thread orderly ⟨thread, [], .wait .m_stateCond true point⟩ := by
  refine ⟨.refl thread, flags, iff_of_true nofun holds, fun _ _ _ _ => running, ?_, nofun⟩
  intro stopped
  exact absurd (stopped.symm.trans running) Bool.false_ne_true

theorem timedWaitLoop_does (flags : thread.Flags) (answer : Bool) :
    Does thread (thread.Waits .timedWaitLoop answer) (thread.timedWaitLoop answer) := by
  rw [Thread.timedWaitLoop]
  cases answer with
  | true =>
      simp only [if_true]
      split
      · next running =>
          apply does_wait flags _ running
          intro stopped
          exact absurd (stopped.symm.trans running) Bool.false_ne_true
      · next stopped =>
          rw [Bool.not_eq_true] at stopped
          exact does_finish flags ⟨fun ended _ => ended, fun waits => waits stopped⟩
  | false => exact does_finish flags Iff.rfl

theorem Thread.forced_later (thread : Thread) : thread.Later thread.forced := by
  refine ⟨id, ?_, id⟩
  intro begun
  exact if_neg begun

theorem Thread.forced_exit (thread : Thread) : thread.forced.exit ≠ .unfinished := by
  rw [Thread.forced]
  simp only
  split
  · nofun
  · next begun => exact begun

theorem cancelInternal_does (goesOn : thread.Later other) (begun : other.exit ≠ .unfinished)
    {result : Result} {orderly : Prop} (right : other.Right result ↔ orderly) :
    Does thread orderly (other.cancelInternal result) := by
  have same : (other.cancelInternal result).shared.Right = other.Right := by
    funext result
    cases result with
    | returned | threw => rfl
    | waited exited => cases exited <;> rfl
    | cancelled cleanly => cases cleanly <;> rfl
  refine ⟨⟨goesOn.runEnded, goesOn.exit, fun _ => rfl⟩, ⟨nofun, fun _ => begun⟩, ?_, nofun,
    fun _ _ => List.mem_singleton_self _, nofun⟩
  rw [same, ← right]
  constructor
  · exact fun all => all result rfl
  · rintro here other is
    cases is
    exact here

theorem clean_iff {exit : Exit} (begun : exit ≠ .unfinished) : exit = .clean ↔ exit ≠ .forced := by
  cases exit with
  | unfinished => exact absurd rfl begun
  | clean => exact iff_of_true rfl nofun
  | forced => exact iff_of_false nofun (not_not_intro rfl)

/-- A test that finds the flag cleared returns true, which is right after a clean exit. -/
theorem does_return (flags : thread.Flags) (stopped : thread.m_isRunning = false)
    (definitive : Bool) :
    Does thread (thread.Waits (.definitiveCancelLoop definitive) true)
      ⟨thread, [], .finish (.cancelled true)⟩ := by
  apply does_finish flags
  have clean := clean_iff (flags.stopped stopped)
  cases definitive with
  | true => exact ⟨fun exit _ => clean.mp exit, fun waits => clean.mpr (waits stopped)⟩
  | false => exact ⟨fun exit _ => clean.mp exit, fun waits => clean.mpr (waits stopped)⟩

theorem definitiveCancelLoop_does (flags : thread.Flags) (definitive answer : Bool) :
    Does thread (thread.Waits (.definitiveCancelLoop definitive) answer)
      (thread.definitiveCancelLoop definitive answer) := by
  have runs : (!thread.m_cancelled && thread.m_isRunning) = thread.m_isRunning := by
    cases running : thread.m_isRunning with
    | true =>
        rw [(flags.running running).2]
        rfl
    | false => exact Bool.and_false _
  rw [Thread.definitiveCancelLoop, runs]
  cases answer with
  | true =>
      rw [if_pos rfl]
      split
      · next running =>
          apply does_wait flags _ running
          cases definitive with
          | true | false =>
              intro stopped
              exact absurd (stopped.symm.trans running) Bool.false_ne_true
      · next stopped => exact does_return flags (Bool.eq_false_of_not_eq_true stopped) definitive
  | false =>
      rw [if_neg Bool.false_ne_true]
      cases definitive with
      | true => exact does_finish flags Iff.rfl
      | false =>
          rw [if_neg Bool.false_ne_true]
          split
          · next running =>
              apply cancelInternal_does thread.forced_later thread.forced_exit
              refine iff_of_true ?_ (flags.running running).1
              show (if thread.exit = .unfinished then Exit.forced else thread.exit) = .forced
              have notClean := (flags.running running).1
              cases exit : thread.exit with
              | unfinished | forced => rfl
              | clean => exact absurd exit notClean
          · next stopped =>
              have begun := flags.stopped (Bool.eq_false_of_not_eq_true stopped)
              apply does_finish flags
              show thread.exit = .forced ↔ thread.exit ≠ .clean
              rw [Ne, clean_iff begun, not_not]

theorem definitiveCancel_does (flags : thread.Flags) (cooperative definitive : Bool) :
    Does thread (thread.Waits (.definitiveCancelLoop definitive) true)
      (thread.definitiveCancel cooperative definitive) := by
  rw [Thread.definitiveCancel]
  cases running : thread.m_isRunning with
  | false => exact does_return flags running definitive
  | true =>
      have waits : thread.Waits (.definitiveCancelLoop definitive) true := by
        cases definitive with
        | true | false =>
            intro stopped
            exact absurd (stopped.symm.trans running) Bool.false_ne_true
      rw [if_neg (by decide)]
      cases cooperative with
      | true => exact does_finish flags (iff_of_true trivial waits)
      | false =>
          refine ⟨.refl thread, flags, iff_of_true nofun waits, nofun, ?_, nofun⟩
          intro stopped
          exact absurd (stopped.symm.trans running) Bool.false_ne_true

theorem run_does (flags : thread.Flags) : Does thread True thread.run := by
  rw [Thread.run]
  split
  · exact does_finish flags Iff.rfl
  · refine ⟨⟨fun _ => rfl, fun _ => rfl, id⟩, ⟨flags.running, flags.stopped⟩,
      iff_of_true nofun trivial, nofun, ?_, nofun⟩
    intro stopped running
    exact absurd (stopped.symm.trans running) Bool.false_ne_true

theorem doneRunning_does (thread : Thread) : Does thread True thread.doneRunning := by
  have begun : thread.doneRunning.shared.exit ≠ .unfinished := by
    show (if thread.exit = .unfinished then Exit.clean else thread.exit) ≠ .unfinished
    split
    · nofun
    · next begun => exact begun
  refine ⟨⟨id, fun before => if_neg before, fun _ => rfl⟩, ⟨nofun, fun _ => begun⟩, ?_, nofun,
    fun _ _ => List.mem_singleton_self _, nofun⟩
  refine iff_of_true ?_ trivial
  rintro result is
  cases is
  trivial

theorem cancel_does (flags : thread.Flags) : Does thread True thread.cancel := by
  refine ⟨thread.forced_later, ⟨?_, fun _ => thread.forced_exit⟩, iff_of_true nofun trivial, nofun,
    ?_, fun _ => thread.forced_exit⟩
  · intro running
    refine ⟨?_, (flags.running running).2⟩
    show (if thread.exit = .unfinished then Exit.forced else thread.exit) ≠ .clean
    split
    · nofun
    · exact (flags.running running).1
  · intro stopped running
    exact absurd (stopped.symm.trans running) Bool.false_ne_true

/-- The invariant of a run. -/
structure Kept (state : ThreadState Caller) : Prop where
  sound : Sound state
  flags : state.shared.Flags
  cancelling : ∀ caller call, state.position caller = some (call, .cancelInternal) →
    state.shared.exit ≠ .unfinished
  fits : ∀ caller, (state.phase caller).Fits Sleeps Leaves

variable {state next : ThreadState Caller} {label : Label Caller Call} {caller : Caller}
  {call : Call} {ran : ThreadSection}

/-- A thread that stands at a point does what its section does. -/
theorem Kept.resume_does (kept : Kept state) {point : Point} (answer : Bool)
    (stands : state.position caller = some (call, point)) :
    Does state.shared (state.shared.Waits point answer)
      (program.resume call point answer state.shared) := by
  cases point with
  | doneRunning =>
      have done := doneRunning_does state.shared
      cases answer <;> exact done
  | timedWaitLoop => exact timedWaitLoop_does kept.flags answer
  | definitiveCancelLoop definitive => exact definitiveCancelLoop_does kept.flags definitive answer
  | cancelInternal =>
      have cancelled : Does state.shared True (state.shared.cancelInternal .returned) :=
        cancelInternal_does (.refl _) (kept.cancelling caller call stands) Iff.rfl
      cases answer <;> exact cancelled

/-- The section of a turn does what the condition of its label says. -/
theorem Kept.turn_does (kept : Kept state) (turn : Turn program state label caller call ran) :
    Does state.shared (Orderly state label) ran := by
  cases turn with
  | enter call idle =>
      cases call with
      | threadRunner => exact run_does kept.flags
      | timedWait => exact timedWaitLoop_does kept.flags true
      | definitiveCancel cooperative definitive =>
          exact definitiveCancel_does kept.flags cooperative definitive
      | cancel => exact cancel_does kept.flags
  | between stands =>
      have does := kept.resume_does true (by rw [State.position, stands, Phase.position])
      simp only [Orderly, stands]
      exact does
  | @woken caller call point condition wake stands =>
      have does := kept.resume_does (wake != .expired)
        (by rw [State.position, stands, Phase.position])
      simp only [Orderly, stands]
      exact does

variable [DecidableEq Caller]

/-- A section keeps the invariant exactly when its result is right. -/
theorem Kept.section (kept : Kept state) {orderly : Prop} (does : Does state.shared orderly ran)
    {phase : Caller → Phase Call Point Condition}
    (delivered : Delivered ran.notices state.phase phase)
    (fits : ∀ other, ((state.ran caller call ran phase).phase other).Fits Sleeps Leaves) :
    (Sound (state.ran caller call ran phase) ↔ orderly) ∧
      (orderly → Kept (state.ran caller call ran phase)) := by
  have awake : ran.shared.m_isRunning = false →
      ∀ other, ¬ ((state.ran caller call ran phase).phase other).asleepOn .m_stateCond := by
    intro stopped
    apply State.ran_awake delivered
    · cases running : state.shared.m_isRunning with
      | true => exact .inr (does.notifies stopped running)
      | false => exact .inl (kept.sound.awake running)
    · intro asleep
      cases goes : ran.next with
      | finish result =>
          rw [goes] at asleep
          exact asleep
      | leave point =>
          rw [goes] at asleep
          exact asleep
      | wait condition timed point =>
          have running := does.sleeps condition timed point goes
          exact absurd (stopped.symm.trans running) Bool.false_ne_true
  have right : (∀ done ∈ (state.ran caller call ran phase).finished,
      ran.shared.Right done.result) ↔ orderly := by
    rw [← does.right]
    show (∀ done ∈ state.finished ++ ran.next.finished caller call, _) ↔ _
    constructor
    · intro all result is
      rw [is] at all
      exact all ⟨caller, call, result⟩ (List.mem_append_right _ (List.mem_singleton_self _))
    · intro new done mem
      rcases List.mem_append.mp mem with old | here
      · exact (kept.sound.results done old).later does.later
      · cases goes : ran.next with
        | finish result =>
            rw [goes] at here
            rw [List.mem_singleton.mp here]
            exact new result goes
        | leave | wait =>
            rw [goes] at here
            cases here
  have cancelling : ∀ other call', (state.ran caller call ran phase).position other =
      some (call', .cancelInternal) → ran.shared.exit ≠ .unfinished := by
    intro other call' stands
    have fit := fits other
    rw [State.ran_position delivered] at stands
    by_cases same : other = caller
    · subst same
      rw [Function.update_self] at stands
      simp only [State.ran, Function.update_self] at fit
      cases goes : ran.next with
      | finish result =>
          rw [goes] at stands
          cases stands
      | leave point =>
          rw [goes] at stands
          cases stands
          exact does.cancels goes
      | wait condition timed point =>
          rw [goes] at stands fit
          cases stands
          cases fit
    · rw [Function.update_of_ne same] at stands
      have begun := kept.cancelling other call' stands
      rw [does.later.exit begun]
      exact begun
  refine ⟨⟨fun sound => right.mp sound.results, fun met => ⟨right.mpr met, awake⟩⟩, fun met => ?_⟩
  exact ⟨⟨right.mpr met, awake⟩, does.flags, cancelling, fits⟩

/-- A thread that wakes up without a notice keeps the invariant. -/
theorem Kept.wake (kept : Kept state) {point : Point} {wake : Wake} {condition : Condition}
    {timed : Bool} (asleep : state.phase caller = .asleep call point condition timed)
    (fits : ∀ other, ((state.wake caller (.woken call point condition wake)).phase other).Fits
      Sleeps Leaves) : Kept (state.wake caller (.woken call point condition wake)) := by
  refine ⟨⟨kept.sound.results, ?_⟩, kept.flags, ?_, fits⟩
  · exact fun stopped other asleep => kept.sound.awake stopped other (State.wake_asleepOn asleep)
  · rw [State.wake_position (by rw [asleep]; rfl)]
    exact kept.cancelling

/-- A step is sound exactly when it meets its condition. -/
theorem Kept.step (kept : Kept state) (step : Step program state label next) :
    (Sound next ↔ Orderly state label) ∧ (Orderly state label → Kept next) := by
  have fits := step.fits program_keeps kept.fits
  cases step with
  | run turn delivered => exact kept.section (kept.turn_does turn) delivered fits
  | rouse asleep =>
      have after := kept.wake asleep fits
      exact ⟨iff_of_true after.sound trivial, fun _ => after⟩
  | expire asleep =>
      have after := kept.wake asleep fits
      exact ⟨iff_of_true after.sound trivial, fun _ => after⟩

def system : TransitionSystem (ThreadState Caller) (Label Caller Call) := program.system started

/-- No thread has called anything yet. -/
def start : ThreadState Caller := ⟨started, fun _ => .idle, []⟩

omit [DecidableEq Caller] in
theorem kept_start : Kept (start : ThreadState Caller) := by
  refine ⟨⟨nofun, nofun⟩, ⟨fun _ => ⟨nofun, rfl⟩, nofun⟩, nofun, fun _ => trivial⟩

end Invariant

section Main

/-- The waits and the cancellations of a thread are sound along a run exactly when no test finds
flags of a forced cancellation and no wait of `definitiveCancel` expires after a clean exit. -/
theorem sound_iff {Caller : Type} [DecidableEq Caller]
    (steps : List (TransitionSystem.Transition (ThreadState Caller) (Label Caller Call)))
    (run : system.Run start steps) :
    (∀ step ∈ steps, Sound step.target) ↔ ∀ step ∈ steps, Orderly step.source step.label := by
  refine run.property_iff_condition ?implies ?keep ?needed kept_start
  case implies => exact fun state kept => kept.sound
  case keep =>
    intro state label next kept taken orderly
    exact (kept.step taken).2 orderly
  case needed =>
    intro state label next kept taken sound
    exact (kept.step taken).1.mp sound

/-- One caller cancels the thread, and another one waits for it. -/
def cancelledFirst : List (Label Bool Call) :=
  [.enter false .cancel, .resume false, .enter true .timedWait]

theorem sound_iff_cancelledFirst :
    (∀ step ∈ program.replay [false, true] start cancelledFirst, Sound step.target) ↔
      ∀ step ∈ program.replay [false, true] start cancelledFirst,
        Orderly step.source step.label :=
  sound_iff _
    (Program.replay_run (fun caller outside => absurd outside (by cases caller <;> decide))
      cancelledFirst)

/-- The wait returns true while `run` goes on. -/
theorem cancelledFirst_not_sound :
    ¬ ∀ (Caller : Type) (_ : DecidableEq Caller)
      (steps : List (TransitionSystem.Transition (ThreadState Caller) (Label Caller Call))),
      system.Run start steps → ∀ step ∈ steps, Sound step.target := by
  intro all
  have run : system.Run start (program.replay [false, true] start cancelledFirst) :=
    Program.replay_run (fun caller outside => absurd outside (by cases caller <;> decide))
      cancelledFirst
  have sound := all Bool inferInstance _ run _ (List.getLast_mem (by decide))
  exact Bool.false_ne_true (sound.results ⟨true, .timedWait, .waited true⟩
    (List.mem_cons_of_mem _ (List.mem_singleton_self _)))

end Main

end Blocxx.Threads
