import Blocxx.DateTime.DateTime
import Blocxx.Exec.TimeoutTimer
import Blocxx.Process.Process

/-!
This file embeds `waitCloseTerm` with its timers and the clock, and proves the order and the times
of its measures. Times are exact seconds.
-/

namespace Blocxx.Process.Clocked

open Library Library.Interaction Library.Interaction.Program
open Exec (TimeoutTimer)

inductive Event where
  | getCurrentTime (answer : ℚ)
  | sleep (milliseconds : Nat) (answer : Except Failure Unit)
  | pollStatus (pid : ProcId) (answer : Except Failure Status)
  | kill (pid : ProcId) (sig : Int) (answer : Except Failure Int)
  | close (pipe : Pipe) (answer : Except Failure Unit)

/-- What the clock, the `ProcessImpl` and the pipes answer after the events of a call. -/
structure System where
  getCurrentTime : List Event → ℚ
  nonDecreasing : ∀ events event, getCurrentTime events ≤ getCurrentTime (events ++ [event])
  /-- `Thread::sleep`, which throws in a thread that is cancelled. -/
  sleep : List Event → Nat → Except Failure Unit
  pollStatus : List Event → ProcId → Except Failure Status
  kill : List Event → ProcId → Int → Except Failure Int
  close : List Event → Pipe → Except Failure Unit
  getCurProcessId : ProcId

/-- The members of a `Process`, and what happened since the call of `waitCloseTerm`. -/
structure State where
  m_pipe : Pipe → Bool
  m_pid : ProcId
  m_status : Status
  events : List Event

def State.happens (state : State) (event : Event) : State :=
  { state with events := state.events ++ [event] }

abbrev Action := Program State Failure

section Timeouts

def getType : Exec.Timeout → ETimeoutType
  | .absolute _ => .absolute
  | .relative _ => .relative
  | .relativeWithReset _ => .relativeWithReset

/-- No number stands for `INFINITY`. An absolute timeout has no seconds. -/
def getRelative : Exec.Timeout → Option ℚ
  | .absolute _ => some 0
  | .relative seconds => seconds
  | .relativeWithReset seconds => seconds

/-- The comparison `seconds > 0`. -/
def isPositive : Option ℚ → Bool
  | none => true
  | some seconds => 0 < seconds

/-- The condition under which `waitCloseTerm` takes a step. -/
def waits (timeout : Exec.Timeout) : Bool :=
  getType timeout = .relative ∧ isPositive (getRelative timeout)

/-- The sum of a time and seconds. They are rounded to microseconds, and a time outside of the
limits is an exception. -/
def plus (dt seconds : ℚ) : Except Failure ℚ :=
  let sum := dt + Exec.truncate (1000000 * seconds + 1 / 2) / 1000000
  if Time.DATETIME_MINIMUM_TIME ≤ sum ∧ sum < Time.DATETIME_MAXIMUM_TIME + 1 then .ok sum
  else .error .other

/-- A timeout that is infinitely late is not reached, like the infinite one. -/
def asAbsoluteTimeout (timer : TimeoutTimer) : Except Failure Exec.Timeout :=
  match timer.m_timeout with
  | .absolute dt => .ok (.absolute dt)
  | .relative none => .ok (.relative none)
  | .relative (some seconds) => (plus timer.m_start seconds).map .absolute
  | .relativeWithReset none => .ok (.relative none)
  | .relativeWithReset (some seconds) => (plus timer.m_start seconds).map .absolute

end Timeouts

section Calls

variable (system : System)

def getCurrentTime : Action ℚ :=
  ask fun state =>
    let answer := system.getCurrentTime state.events
    (.ok answer, state.happens (.getCurrentTime answer))

def sleep (milliseconds : Nat) : Action Unit :=
  ask fun state =>
    let answer := system.sleep state.events milliseconds
    (answer, state.happens (.sleep milliseconds answer))

/-- The assignment of the answer of `pollStatus` to `m_status`. -/
def updateStatus : Action Status :=
  ask fun state =>
    let answer := system.pollStatus state.events state.m_pid
    let state := state.happens (.pollStatus state.m_pid answer)
    match answer with
    | .ok status => (answer, { state with m_status := status })
    | .error _ => (answer, state)

def kill (pid : ProcId) (sig : Int) : Action Int :=
  ask fun state =>
    let answer := system.kill state.events pid sig
    (answer, state.happens (.kill pid sig answer))

def upr_close (pipe : Pipe) : Action Unit :=
  ask fun state =>
    if state.m_pipe pipe then
      let answer := system.close state.events pipe
      (answer, state.happens (.close pipe answer))
    else (.ok (), state)

/-- The constructor of a `TimeoutTimer`. -/
def startTimer (timeout : Exec.Timeout) : Action TimeoutTimer := do
  let now ← getCurrentTime system
  return .started timeout now

/-- A timer of `waitCloseTerm` as an absolute timeout. -/
def absoluteTimeout (timer : TimeoutTimer) : Action Exec.Timeout :=
  ask fun state => (asAbsoluteTimeout timer, state)

end Calls

section Process

variable (system : System) (fuel : Nat)

def processStatus : Action Status := do
  let process ← get
  if process.m_pid ≥ 0 ∧ !process.m_status.terminated then updateStatus system
  else return process.m_status

/-- The body of the loop of `terminatesWithin`, with the variables `timer` and `period`. -/
def terminatesWithinBody (here : TimeoutTimer × ℚ) :
    Action (Loop.Iteration (TimeoutTimer × ℚ) Bool) := do
  let process ← get
  if !here.1.expired ∧ !process.m_status.terminated then
    sleep system ⌊here.2⌋₊
    let _ ← updateStatus system
    let now ← getCurrentTime system
    return .next (here.1.loop now, min 5000 (here.2 * (6 / 5)))
  else return .stop process.m_status.terminated

def terminatesWithin (wait_time : Exec.Timeout) : Action Bool := do
  let timer ← startTimer system wait_time
  repeated (terminatesWithinBody system) fuel (timer, 100)

def killWait (wait_time : Exec.Timeout) (sig : Int) (signame : String)
    (terminationSelectionFlag : ETerminationSelectionFlag) : Action Bool := do
  let process ← get
  let killArg :=
    match terminationSelectionFlag with
    | .terminateProcessGroup => -process.m_pid
    | .terminateProcessOnly => process.m_pid
  let errnum ← kill system killArg sig
  if errnum ≠ 0 then
    let status ← processStatus system
    if status.terminated then return true
    else
      raise (.processError s!"Failed sending {signame} to process {process.m_pid}." (some errnum))
  else terminatesWithin system fuel wait_time

/-- Closes the streams. -/
def closeStreams : Action Unit := do
  upr_close system .m_in
  upr_close system .m_out
  upr_close system .m_err

/-- The wait before the streams are closed. It answers whether the process terminated. -/
def waitInitial (wait_initial : Exec.Timeout) (initialTimer : TimeoutTimer) : Action Bool :=
  if waits wait_initial then do
    let wait_time ← absoluteTimeout initialTimer
    terminatesWithin system fuel wait_time
  else return false

/-- The wait after the streams are closed. -/
def waitClosed (wait_close : Exec.Timeout) (closeTimer : TimeoutTimer) : Action Bool :=
  if waits wait_close then do
    closeStreams system
    let wait_time ← absoluteTimeout closeTimer
    terminatesWithin system fuel wait_time
  else return false

/-- The wait after a `SIGTERM`. -/
def waitTerm (wait_term : Exec.Timeout) (termTimer : TimeoutTimer)
    (terminationSelectionFlag : ETerminationSelectionFlag) : Action Bool :=
  if waits wait_term then do
    let wait_time ← absoluteTimeout termTimer
    killWait system fuel wait_time SIGTERM "SIGTERM" terminationSelectionFlag
  else return false

/-- The steps of `waitCloseTerm` with the timers that it starts together. -/
def escalate (wait_initial wait_close wait_term : Exec.Timeout)
    (initialTimer closeTimer termTimer : TimeoutTimer)
    (terminationSelectionFlag : ETerminationSelectionFlag) : Action Unit := do
  let initially ← waitInitial system fuel wait_initial initialTimer
  if initially then return ()
  else
    let closed ← waitClosed system fuel wait_close closeTimer
    if closed then return ()
    else
      let asked ← waitTerm system fuel wait_term termTimer terminationSelectionFlag
      if asked then return ()
      else
        let killed ←
          killWait system fuel (.relative (some 60)) SIGKILL "SIGKILL" terminationSelectionFlag
        if killed then return ()
        else
          raise (.processError
            "Child process has not terminated after sending it a SIGKILL." none)

def waitCloseTerm (wait_initial wait_close wait_term : Exec.Timeout)
    (terminationSelectionFlag : ETerminationSelectionFlag) : Action Unit := do
  let process ← get
  if process.m_pid < 0 then return ()
  else
    let status ← processStatus system
    if status.terminated then return ()
    else if process.m_pid = system.getCurProcessId then
      raise (.processError "Process::m_pid == the current process id" none)
    else
      let initialTimer ← startTimer system wait_initial
      let closeTimer ← startTimer system wait_close
      let termTimer ← startTimer system wait_term
      escalate system fuel wait_initial wait_close wait_term initialTimer closeTimer termTimer
        terminationSelectionFlag

end Process

section Measures

/-- What a call of `waitCloseTerm` starts with. -/
structure Call where
  system : System
  m_pipe : Pipe → Bool
  m_status : Status
  wait_initial : Exec.Timeout
  wait_close : Exec.Timeout
  wait_term : Exec.Timeout

variable (call : Call)

/-- The seconds of a timeout have passed since the call, up to half a microsecond. -/
def Call.HasExpired (timeout : Exec.Timeout) (events : List Event) : Prop :=
  ∃ seconds, getRelative timeout = some seconds ∧
    seconds < call.system.getCurrentTime events - call.system.getCurrentTime [] + 1 / 2000000

def Event.reportsTermination : Event → Bool
  | .pollStatus _ (.ok status) => status.terminated
  | _ => false

/-- Termination is not reported. -/
def Call.Running (events : List Event) : Prop :=
  call.m_status.terminated = false ∧ ∀ event ∈ events, event.reportsTermination = false

/-- All pipes that the process has are closed. -/
def Call.Closed (events : List Event) : Prop :=
  ∀ pipe, call.m_pipe pipe = true → ∃ answer, .close pipe answer ∈ events

def Signalled (sig : Int) (events : List Event) : Prop :=
  ∃ pid answer, .kill pid sig answer ∈ events

/-- It is the turn of the `SIGTERM`. -/
structure Call.AfterClose (events : List Event) : Prop where
  initial : call.HasExpired call.wait_initial events
  close : call.HasExpired call.wait_close events
  closed : isPositive (getRelative call.wait_close) = true → call.Closed events

/-- It is the turn of the `SIGKILL`. -/
structure Call.AfterTerm (events : List Event) : Prop where
  afterClose : call.AfterClose events
  term : call.HasExpired call.wait_term events
  signalled : isPositive (getRelative call.wait_term) = true → Signalled SIGTERM events

/-- The process waits in a step that it takes. -/
def Call.Waiting (events : List Event) : Prop :=
  isPositive (getRelative call.wait_initial) = true ∨
    isPositive (getRelative call.wait_close) = true ∧ call.Closed events ∨
      ∃ sig, Signalled sig events

/-- The events that may follow others. A measure is taken in its turn, and in no other case. -/
inductive Call.Allowed (earlier : List Event) : Event → Prop
  | getCurrentTime {answer : ℚ} : Allowed earlier (.getCurrentTime answer)
  | pollStatus {pid : ProcId} {answer : Except Failure Status} :
      Allowed earlier (.pollStatus pid answer)
  | sleep {milliseconds : Nat} {answer : Except Failure Unit} (waiting : call.Waiting earlier) :
      Allowed earlier (.sleep milliseconds answer)
  | close {pipe : Pipe} {answer : Except Failure Unit} (running : call.Running earlier)
      (taken : isPositive (getRelative call.wait_close) = true)
      (turn : call.HasExpired call.wait_initial earlier) : Allowed earlier (.close pipe answer)
  | term {pid : ProcId} {answer : Except Failure Int} (running : call.Running earlier)
      (taken : isPositive (getRelative call.wait_term) = true) (turn : call.AfterClose earlier) :
      Allowed earlier (.kill pid SIGTERM answer)
  | kill {pid : ProcId} {answer : Except Failure Int} (running : call.Running earlier)
      (turn : call.AfterTerm earlier) : Allowed earlier (.kill pid SIGKILL answer)

/-- Every event is allowed after the ones before it. -/
def Call.Escalates (events : List Event) : Prop :=
  ∀ earlier event later, events = earlier ++ event :: later → call.Allowed earlier event

/-- A wait that is positive is of the type that is not reset. -/
def Plain (timeout : Exec.Timeout) : Prop :=
  isPositive (getRelative timeout) = true → getType timeout = .relative

variable {call} {events : List Event} {event : Event} {timeout : Exec.Timeout}

theorem Call.Escalates.happens (escalates : call.Escalates events)
    (allowed : call.Allowed events event) : call.Escalates (events ++ [event]) := by
  intro earlier other later same
  rcases List.append_eq_append_iff.mp same with ⟨more, front, back⟩ | ⟨more, front, back⟩
  · cases more with
    | nil =>
        rw [List.append_nil] at front
        rw [List.nil_append, List.cons.injEq] at back
        rw [front, ← back.1]
        exact allowed
    | cons first more => simp at back
  · cases more with
    | nil =>
        rw [List.append_nil] at front
        rw [List.nil_append, List.cons.injEq] at back
        rw [← front, back.1]
        exact allowed
    | cons first more =>
        rw [List.cons_append, List.cons.injEq] at back
        exact escalates earlier other more (by rw [front, back.1])

theorem Call.Escalates.nil : call.Escalates [] := by
  intro earlier event later same
  simp at same

/-- The fact stays true whatever happens. -/
def Stable (fact : List Event → Prop) : Prop :=
  ∀ events event, fact events → fact (events ++ [event])

theorem getCurrentTime_stable (system : System) (time : ℚ) :
    Stable fun events => time ≤ system.getCurrentTime events :=
  fun events event before => before.trans (system.nonDecreasing events event)

theorem start_le (system : System) (events : List Event) :
    system.getCurrentTime [] ≤ system.getCurrentTime events := by
  induction events using List.reverseRecOn with
  | nil => exact le_rfl
  | append_singleton events event ih => exact getCurrentTime_stable system _ events event ih

theorem Call.HasExpired.stable : Stable (call.HasExpired timeout) := by
  intro events event expired
  obtain ⟨seconds, finite, passed⟩ := expired
  have later := call.system.nonDecreasing events event
  exact ⟨seconds, finite, by linarith⟩

theorem Call.Closed.stable : Stable call.Closed := by
  intro events event closed pipe there
  obtain ⟨answer, member⟩ := closed pipe there
  exact ⟨answer, List.mem_append_left _ member⟩

theorem Signalled.stable {sig : Int} : Stable (Signalled sig) := by
  intro events event signalled
  obtain ⟨pid, answer, member⟩ := signalled
  exact ⟨pid, answer, List.mem_append_left _ member⟩

theorem Call.AfterClose.stable : Stable call.AfterClose :=
  fun _ _ before => ⟨HasExpired.stable _ _ before.initial,
    HasExpired.stable _ _ before.close, fun taken => Closed.stable _ _ (before.closed taken)⟩

theorem Call.AfterTerm.stable : Stable call.AfterTerm :=
  fun _ _ before => ⟨AfterClose.stable _ _ before.afterClose,
    HasExpired.stable _ _ before.term, fun taken => Signalled.stable _ _ (before.signalled taken)⟩

/-- A timeout that is not positive has expired when the call starts. -/
theorem Call.hasExpired_of_not_positive
    (none : isPositive (getRelative timeout) = false) (events : List Event) :
    call.HasExpired timeout events := by
  cases relative : getRelative timeout with
  | none =>
      rw [relative] at none
      cases none
  | some seconds =>
      rw [relative] at none
      have least : seconds ≤ 0 := not_lt.mp (of_decide_eq_false none)
      have later := start_le call.system events
      exact ⟨seconds, relative, by linarith⟩

/-- A time in microseconds is not less than the seconds by more than half a microsecond. -/
theorem truncate_gt {seconds : ℚ} (positive : 0 < seconds) :
    seconds < (Exec.truncate (1000000 * seconds + 1 / 2) : ℚ) / 1000000 + 1 / 2000000 := by
  rw [Exec.truncate, if_pos (by linarith)]
  have near := Int.lt_floor_add_one (1000000 * seconds + 1 / 2)
  linarith

/-- An absolute timeout is reached when the relative one has expired. -/
theorem Call.hasExpired_of_expired {timer waiting : TimeoutTimer} {events : List Event}
    (waits : waits timer.m_timeout = true)
    (start : call.system.getCurrentTime [] ≤ timer.m_start)
    (absolute : asAbsoluteTimeout timer = .ok waiting.m_timeout)
    (expired : waiting.expired = true)
    (reading : waiting.m_loopTime ≤ call.system.getCurrentTime events) :
    call.HasExpired timer.m_timeout events := by
  obtain ⟨m_timeout, m_start, m_loopTime⟩ := timer
  obtain ⟨wait_time, waitingStart, waitingLoop⟩ := waiting
  dsimp only at *
  cases m_timeout with
  | absolute dt => cases waits
  | relativeWithReset seconds => cases waits
  | relative seconds =>
      cases seconds with
      | none =>
          cases absolute
          cases expired
      | some seconds =>
          have positive : 0 < seconds := of_decide_eq_true (of_decide_eq_true waits).2
          have rounded := truncate_gt positive
          simp only [asAbsoluteTimeout, plus] at absolute
          split at absolute
          · cases absolute
            have reached := of_decide_eq_true expired
            exact ⟨seconds, rfl, by linarith⟩
          · cases absolute

end Measures

section Programs

variable (call : Call) (fuel : Nat)

/-- The events of the call are allowed, and `m_status` tells whether the process runs. -/
structure Call.Kept (state : State) : Prop where
  m_pipe : state.m_pipe = call.m_pipe
  escalates : call.Escalates state.events
  running : state.m_status.terminated = false → call.Running state.events

/-- What a program knows of the call. -/
abbrev Call.Knows (before : State → Prop) {Answer : Type} (program : Action Answer)
    (after : Answer → State → Prop) : Prop :=
  Keeps call.Kept before program after

/-- A timer with this timeout has expired at a reading of the clock. -/
def Call.Reached (wait_time : Exec.Timeout) (events : List Event) : Prop :=
  ∃ timer : TimeoutTimer, timer.m_timeout = wait_time ∧ timer.expired = true ∧
    timer.m_loopTime ≤ call.system.getCurrentTime events

variable {call} {state : State} {event : Event} {fact : List Event → Prop}

theorem Call.Running.happens {events : List Event} (running : call.Running events)
    (silent : event.reportsTermination = false) : call.Running (events ++ [event]) := by
  refine ⟨running.1, fun other member => ?_⟩
  rcases List.mem_append.mp member with before | last
  · exact running.2 other before
  · rw [List.mem_singleton.mp last]
    exact silent

theorem Call.Kept.happens (kept : call.Kept state) (allowed : call.Allowed state.events event)
    (silent : event.reportsTermination = false) : call.Kept (state.happens event) :=
  ⟨kept.m_pipe, kept.escalates.happens allowed, fun runs => (kept.running runs).happens silent⟩

theorem getCurrentTime_knows (before : State → Prop)
    (stable : ∀ state event, before state → before (state.happens event)) :
    call.Knows before (getCurrentTime call.system)
      fun now state => before state ∧ call.system.getCurrentTime [] ≤ now ∧
        now ≤ call.system.getCurrentTime state.events := by
  apply Keeps.ask
  intro state kept here
  refine ⟨kept.happens .getCurrentTime rfl, ?_⟩
  intro now answered
  cases answered
  exact ⟨stable _ _ here, start_le call.system state.events, call.system.nonDecreasing _ _⟩

theorem startTimer_knows (before : State → Prop)
    (stable : ∀ state event, before state → before (state.happens event))
    (timeout : Exec.Timeout) :
    call.Knows before (startTimer call.system timeout)
      fun timer state => before state ∧ timer.m_timeout = timeout ∧
        call.system.getCurrentTime [] ≤ timer.m_start ∧
          timer.m_loopTime ≤ call.system.getCurrentTime state.events := by
  apply Keeps.bind (getCurrentTime_knows before stable)
  intro now
  apply Keeps.pure
  intro state _ here
  exact ⟨here.1, rfl, here.2⟩

theorem sleep_knows (stable : Stable fact)
    (waiting : ∀ events, fact events → call.Waiting events) (milliseconds : Nat) :
    call.Knows (fun state => fact state.events ∧ state.m_status.terminated = false)
      (sleep call.system milliseconds)
      fun _ state => fact state.events ∧ state.m_status.terminated = false := by
  apply Keeps.ask
  intro state kept here
  refine ⟨kept.happens (.sleep (waiting _ here.1)) rfl, ?_⟩
  intro _ _
  exact ⟨stable _ _ here.1, here.2⟩

/-- The members after the answer of `pollStatus` is assigned. -/
theorem Call.Kept.polled (kept : call.Kept state) (runs : state.m_status.terminated = false)
    (status : Status) :
    call.Kept { state.happens (.pollStatus state.m_pid (.ok status)) with m_status := status } :=
  ⟨kept.m_pipe, kept.escalates.happens .pollStatus, fun still => (kept.running runs).happens still⟩

theorem updateStatus_knows (stable : Stable fact) :
    call.Knows (fun state => fact state.events ∧ state.m_status.terminated = false)
      (updateStatus call.system)
      fun status state => fact state.events ∧ status = state.m_status := by
  apply Keeps.ask
  intro state kept here
  dsimp only
  cases call.system.pollStatus state.events state.m_pid with
  | ok status =>
      refine ⟨kept.polled here.2 status, ?_⟩
      intro answer answered
      cases answered
      exact ⟨stable _ _ here.1, rfl⟩
  | error error =>
      refine ⟨kept.happens .pollStatus rfl, ?_⟩
      intro answer answered
      cases answered

theorem get_knows (before : State → Prop) :
    call.Knows before get fun process state => process = state ∧ before state :=
  .get fun _ _ here => ⟨rfl, here⟩

theorem processStatus_knows (fact : List Event → Prop) (stable : Stable fact) :
    call.Knows (fun state => fact state.events) (processStatus call.system)
      fun status state => fact state.events ∧ status = state.m_status := by
  apply Keeps.bind (get_knows _)
  intro process
  split
  next running =>
    apply (updateStatus_knows stable).suffices_before
    rintro state - ⟨rfl, here⟩
    exact ⟨here, by simpa using running.2⟩
  · apply Keeps.pure
    rintro state - ⟨rfl, here⟩
    exact ⟨here, rfl⟩

/-- The process is polled until it terminates or the timer of the loop has expired. -/
theorem terminatesWithin_knows (fact : List Event → Prop) (stable : Stable fact)
    (waiting : ∀ events, fact events → call.Waiting events) (wait_time : Exec.Timeout) :
    call.Knows (fun state => fact state.events) (terminatesWithin call.system fuel wait_time)
      fun terminated state => fact state.events ∧ terminated = state.m_status.terminated ∧
        (terminated = false → call.Reached wait_time state.events) := by
  apply Keeps.bind (startTimer_knows _ (fun _ _ => stable _ _) wait_time)
  intro timer
  apply Keeps.suffices_before
  · refine Keeps.repeated (fun here state => fact state.events ∧ here.1.m_timeout = wait_time ∧
      here.1.m_loopTime ≤ call.system.getCurrentTime state.events) ?_ fuel (timer, 100)
    intro here
    apply Keeps.bind (get_knows _)
    intro process
    split
    next running =>
      have runs : process.m_status.terminated = false := by simpa using running.2
      have timed : Stable fun events => fact events ∧ here.1.m_timeout = wait_time :=
        fun events event known => ⟨stable _ _ known.1, known.2⟩
      apply Keeps.bind
      · apply (sleep_knows timed (fun events known => waiting events known.1) _).suffices_before
        rintro state - ⟨rfl, known⟩
        exact ⟨⟨known.1, known.2.1⟩, runs⟩
      intro _
      apply Keeps.bind (updateStatus_knows timed)
      intro status
      apply Keeps.bind
      · apply (getCurrentTime_knows (fun state => fact state.events ∧
          here.1.m_timeout = wait_time) fun _ _ => timed _ _).suffices_before
        exact fun state _ known => known.1
      intro now
      apply Keeps.pure
      intro state _ known
      exact ⟨known.1.1, known.1.2, known.2.2⟩
    next stops =>
      apply Keeps.pure
      rintro state - ⟨rfl, known⟩
      refine ⟨known.1, rfl, fun runs => ⟨here.1, known.2.1, ?_, known.2.2⟩⟩
      simpa [runs] using stops
  · intro state _ known
    exact ⟨known.1, known.2.1, known.2.2.2⟩

theorem kill_knows (stable : Stable fact) (pid : ProcId) {sig : Int}
    (allowed : ∀ events, fact events → call.Running events → ∀ pid answer,
      call.Allowed events (.kill pid sig answer)) :
    call.Knows (fun state => fact state.events ∧ state.m_status.terminated = false)
      (kill call.system pid sig)
      fun _ state => fact state.events ∧ Signalled sig state.events := by
  apply Keeps.ask
  intro state kept here
  refine ⟨kept.happens (allowed _ here.1 (kept.running here.2) pid _) rfl, ?_⟩
  intro _ _
  exact ⟨stable _ _ here.1, pid, _, List.mem_append_right _ List.mem_cons_self⟩

/-- A signal is sent while the process runs. -/
theorem killWait_knows (stable : Stable fact) (wait_time : Exec.Timeout) {sig : Int}
    (signame : String) (flag : ETerminationSelectionFlag)
    (allowed : ∀ events, fact events → call.Running events → ∀ pid answer,
      call.Allowed events (.kill pid sig answer)) :
    call.Knows (fun state => fact state.events ∧ state.m_status.terminated = false)
      (killWait call.system fuel wait_time sig signame flag)
      fun terminated state => (fact state.events ∧ Signalled sig state.events) ∧
        terminated = state.m_status.terminated ∧
          (terminated = false → call.Reached wait_time state.events) := by
  have signalled : Stable fun events => fact events ∧ Signalled sig events :=
    fun _ _ known => ⟨stable _ _ known.1, Signalled.stable _ _ known.2⟩
  apply Keeps.bind (get_knows _)
  intro process
  apply Keeps.bind
  · apply (kill_knows stable _ allowed).suffices_before
    exact fun state _ here => here.2
  intro errnum
  split
  · apply Keeps.bind (processStatus_knows _ signalled)
    intro status
    split
    next terminated =>
      apply Keeps.pure
      rintro state - ⟨here, rfl⟩
      exact ⟨here, terminated.symm, fun runs => absurd runs.symm Bool.false_ne_true⟩
    · exact .raise
  · exact terminatesWithin_knows fuel _ signalled (fun _ known => .inr (.inr ⟨sig, known.2⟩)) _

theorem upr_close_knows (stable : Stable fact) (pipe : Pipe)
    (taken : isPositive (getRelative call.wait_close) = true)
    (turn : ∀ events, fact events → call.HasExpired call.wait_initial events) :
    call.Knows (fun state => fact state.events ∧ state.m_status.terminated = false)
      (upr_close call.system pipe)
      fun _ state => (fact state.events ∧
        (call.m_pipe pipe = true → ∃ answer, .close pipe answer ∈ state.events)) ∧
          state.m_status.terminated = false := by
  apply Keeps.ask
  intro state kept here
  rw [kept.m_pipe]
  split
  · refine ⟨kept.happens (.close (kept.running here.2) taken (turn _ here.1)) rfl, ?_⟩
    intro _ _
    exact ⟨⟨stable _ _ here.1, fun _ => ⟨_, List.mem_append_right _ List.mem_cons_self⟩⟩, here.2⟩
  next none =>
    refine ⟨kept, ?_⟩
    intro _ _
    exact ⟨⟨here.1, fun there => absurd there none⟩, here.2⟩

theorem closeStreams_knows (stable : Stable fact)
    (taken : isPositive (getRelative call.wait_close) = true)
    (turn : ∀ events, fact events → call.HasExpired call.wait_initial events) :
    call.Knows (fun state => fact state.events ∧ state.m_status.terminated = false)
      (closeStreams call.system)
      fun _ state => fact state.events ∧ call.Closed state.events := by
  have closed {fact : List Event → Prop} (stable : Stable fact) (pipe : Pipe) :
      Stable fun events => fact events ∧
        (call.m_pipe pipe = true → ∃ answer, .close pipe answer ∈ events) := by
    intro events event known
    refine ⟨stable _ _ known.1, fun there => ?_⟩
    obtain ⟨answer, member⟩ := known.2 there
    exact ⟨answer, List.mem_append_left _ member⟩
  apply Keeps.bind (upr_close_knows stable .m_in taken turn)
  intro _
  apply Keeps.bind (upr_close_knows (closed stable .m_in) .m_out taken
    fun events known => turn events known.1)
  intro _
  apply (upr_close_knows (closed (closed stable .m_in) .m_out) .m_err taken
    fun events known => turn events known.1.1).weaken fun _ _ here => here
  intro _ state _ known
  refine ⟨known.1.1.1.1, fun pipe there => ?_⟩
  cases pipe with
  | m_in => exact known.1.1.1.2 there
  | m_out => exact known.1.1.2 there
  | m_err => exact known.1.2 there

/-- A wait for an absolute timeout ends when the timer has expired. -/
theorem timed_knows (fact : List Event → Prop) {before : State → Prop} {timer : TimeoutTimer}
    {program : Exec.Timeout → Action Bool} (waits : waits timer.m_timeout = true)
    (start : call.system.getCurrentTime [] ≤ timer.m_start)
    (reaches : ∀ wait_time, call.Knows before (program wait_time) fun terminated state =>
      fact state.events ∧ terminated = state.m_status.terminated ∧
        (terminated = false → call.Reached wait_time state.events)) :
    call.Knows before (do let wait_time ← absoluteTimeout timer; program wait_time)
      fun terminated state => fact state.events ∧ terminated = state.m_status.terminated ∧
        (terminated = false → call.HasExpired timer.m_timeout state.events) := by
  have converted : call.Knows before (absoluteTimeout timer) fun wait_time state =>
      before state ∧ asAbsoluteTimeout timer = .ok wait_time :=
    .ask fun state kept here => ⟨kept, fun _ answered => ⟨here, answered⟩⟩
  apply Keeps.bind converted
  intro wait_time state kept here
  obtain ⟨still, answers⟩ := reaches wait_time state kept here.1
  refine ⟨still, fun terminated returned => ?_⟩
  obtain ⟨known, same, reached⟩ := answers terminated returned
  refine ⟨known, same, fun runs => ?_⟩
  obtain ⟨waiting, rfl, expired, reading⟩ := reached runs
  exact Call.hasExpired_of_expired waits start here.2 expired reading

/-- A wait of a type that is not reset is taken exactly when it is positive. -/
theorem Plain.waits_iff {timeout : Exec.Timeout} (plain : Plain timeout) :
    waits timeout = true ↔ isPositive (getRelative timeout) = true := by
  unfold waits
  rw [decide_eq_true_eq]
  exact ⟨fun both => both.2, fun positive => ⟨plain positive, positive⟩⟩

/-- A step that is left out has expired when the call starts. -/
theorem skipped_knows {timeout : Exec.Timeout} (plain : Plain timeout)
    (skipped : ¬ waits timeout = true) {fact : State → Prop} :
    call.Knows (fun state => fact state ∧ state.m_status.terminated = false)
      (return false : Action Bool)
      fun terminated state => fact state ∧ terminated = state.m_status.terminated ∧
        (terminated = false → call.HasExpired timeout state.events) := by
  apply Keeps.pure
  intro state _ here
  rw [plain.waits_iff, Bool.not_eq_true] at skipped
  exact ⟨here.1, here.2.symm, fun _ => Call.hasExpired_of_not_positive skipped _⟩

section Steps

variable {timer : TimeoutTimer} (start : call.system.getCurrentTime [] ≤ timer.m_start)
include start

theorem waitInitial_knows (same : timer.m_timeout = call.wait_initial)
    (plain : Plain call.wait_initial) :
    call.Knows (fun state => True ∧ state.m_status.terminated = false)
      (waitInitial call.system fuel call.wait_initial timer)
      fun terminated state => True ∧ terminated = state.m_status.terminated ∧
        (terminated = false → call.HasExpired call.wait_initial state.events) := by
  unfold waitInitial
  split
  next waits =>
    rw [← same] at waits ⊢
    apply timed_knows (fun _ => True) waits start
    intro wait_time
    apply (terminatesWithin_knows fuel (fun _ => True) (fun _ _ => id) _ _).suffices_before
    · exact fun _ _ _ => trivial
    · intro events _
      rw [same, plain.waits_iff] at waits
      exact .inl waits
  next skipped => exact skipped_knows plain skipped

theorem waitClosed_knows (same : timer.m_timeout = call.wait_close)
    (plain : Plain call.wait_close) :
    call.Knows (fun state => call.HasExpired call.wait_initial state.events ∧
        state.m_status.terminated = false)
      (waitClosed call.system fuel call.wait_close timer)
      fun terminated state => (call.HasExpired call.wait_initial state.events ∧
          (isPositive (getRelative call.wait_close) = true → call.Closed state.events)) ∧
        terminated = state.m_status.terminated ∧
          (terminated = false → call.HasExpired call.wait_close state.events) := by
  have stable : Stable fun events => call.HasExpired call.wait_initial events ∧
      call.Closed events :=
    fun _ _ known => ⟨Call.HasExpired.stable _ _ known.1, Call.Closed.stable _ _ known.2⟩
  unfold waitClosed
  split
  next waits =>
    have taken := plain.waits_iff.mp waits
    apply Keeps.bind (closeStreams_knows Call.HasExpired.stable taken fun _ known => known)
    intro _
    rw [← same] at waits
    have timed := timed_knows (fun events => call.HasExpired call.wait_initial events ∧
      call.Closed events) waits start fun wait_time => terminatesWithin_knows fuel _ stable
        (fun _ known => .inr (.inl ⟨taken, known.2⟩)) wait_time
    rw [same] at timed
    exact timed.weaken (fun _ _ known => known) fun _ _ _ known =>
      ⟨⟨known.1.1, fun _ => known.1.2⟩, known.2⟩
  next skipped =>
    apply (skipped_knows plain skipped).weaken fun _ _ known => known
    intro _ state _ known
    refine ⟨⟨known.1, fun taken => ?_⟩, known.2⟩
    exact absurd (plain.waits_iff.mpr taken) skipped

theorem waitTerm_knows (same : timer.m_timeout = call.wait_term) (plain : Plain call.wait_term)
    (flag : ETerminationSelectionFlag) :
    call.Knows (fun state => call.AfterClose state.events ∧ state.m_status.terminated = false)
      (waitTerm call.system fuel call.wait_term timer flag)
      fun terminated state => (call.AfterClose state.events ∧
          (isPositive (getRelative call.wait_term) = true → Signalled SIGTERM state.events)) ∧
        terminated = state.m_status.terminated ∧
          (terminated = false → call.HasExpired call.wait_term state.events) := by
  unfold waitTerm
  split
  next waits =>
    have taken := plain.waits_iff.mp waits
    rw [← same] at waits
    have timed := timed_knows (fun events => call.AfterClose events ∧
      Signalled SIGTERM events) waits start fun wait_time =>
      killWait_knows fuel Call.AfterClose.stable wait_time "SIGTERM" flag
        fun _ turn running _ _ => .term running taken turn
    rw [same] at timed
    exact timed.weaken (fun _ _ known => known) fun _ _ _ known =>
      ⟨⟨known.1.1, fun _ => known.1.2⟩, known.2⟩
  next skipped =>
    apply (skipped_knows plain skipped).weaken fun _ _ known => known
    intro _ state _ known
    refine ⟨⟨known.1, fun taken => ?_⟩, known.2⟩
    exact absurd (plain.waits_iff.mpr taken) skipped

end Steps

/-- A step is followed by the next one unless the process terminated. -/
theorem step_knows {before : State → Prop} {step : Action Bool} {next : Action Unit}
    (first : call.Knows before step fun terminated state =>
      terminated = state.m_status.terminated ∧ (terminated = false → fact state.events))
    (rest : call.Knows (fun state => fact state.events ∧ state.m_status.terminated = false) next
      fun _ _ => True) :
    call.Knows before (do if (← step) then return () else next) fun _ _ => True := by
  apply Keeps.bind first
  intro terminated
  split
  · exact .pure fun _ _ _ => trivial
  next runs =>
    rw [Bool.not_eq_true] at runs
    apply rest.suffices_before
    intro state _ known
    exact ⟨known.2 runs, known.1.symm.trans runs⟩

theorem escalate_knows {initialTimer closeTimer termTimer : TimeoutTimer}
    (initially : call.system.getCurrentTime [] ≤ initialTimer.m_start)
    (initialSame : initialTimer.m_timeout = call.wait_initial)
    (closes : call.system.getCurrentTime [] ≤ closeTimer.m_start)
    (closeSame : closeTimer.m_timeout = call.wait_close)
    (terms : call.system.getCurrentTime [] ≤ termTimer.m_start)
    (termSame : termTimer.m_timeout = call.wait_term) (initialPlain : Plain call.wait_initial)
    (closePlain : Plain call.wait_close) (termPlain : Plain call.wait_term)
    (flag : ETerminationSelectionFlag) :
    call.Knows (fun state => True ∧ state.m_status.terminated = false)
      (escalate call.system fuel call.wait_initial call.wait_close call.wait_term initialTimer
        closeTimer termTimer flag) fun _ _ => True := by
  apply step_knows
  · exact (waitInitial_knows fuel initially initialSame initialPlain).weaken
      (fun _ _ here => here) fun _ _ _ known => known.2
  apply step_knows
  · apply (waitClosed_knows fuel closes closeSame closePlain).weaken fun _ _ here => here
    intro _ state _ known
    exact ⟨known.2.1, fun runs => (⟨known.1.1, known.2.2 runs, known.1.2⟩ :
      call.AfterClose state.events)⟩
  apply step_knows
  · apply (waitTerm_knows fuel terms termSame termPlain flag).weaken fun _ _ here => here
    intro _ state _ known
    exact ⟨known.2.1, fun runs => (⟨known.1.1, known.2.2 runs, known.1.2⟩ :
      call.AfterTerm state.events)⟩
  apply step_knows
  · apply (killWait_knows fuel Call.AfterTerm.stable (.relative (some 60)) "SIGKILL" flag
      fun _ turn running _ _ => .kill running turn).weaken fun _ _ here => here
    exact fun _ _ _ known => ⟨known.2.1, fun _ => known.1.1⟩
  exact .raise

theorem waitCloseTerm_knows (initialPlain : Plain call.wait_initial)
    (closePlain : Plain call.wait_close) (termPlain : Plain call.wait_term)
    (flag : ETerminationSelectionFlag) :
    call.Knows (fun _ => True)
      (waitCloseTerm call.system fuel call.wait_initial call.wait_close call.wait_term flag)
      fun _ _ => True := by
  apply Keeps.bind (get_knows _)
  intro process
  split
  · exact .pure fun _ _ _ => trivial
  · apply Keeps.bind ((processStatus_knows (fun _ => True) fun _ _ => id).suffices_before
      fun _ _ _ => trivial)
    intro status
    split
    · exact .pure fun _ _ _ => trivial
    next running =>
      split
      · exact .raise
      · apply Keeps.bind
        · apply (startTimer_knows (fun state => state.m_status.terminated = false) (fun _ _ => id)
            call.wait_initial).suffices_before
          intro state _ known
          rw [← known.2, ← Bool.not_eq_true]
          exact running
        intro initialTimer
        apply Keeps.bind
        · apply (startTimer_knows (fun state => state.m_status.terminated = false ∧
            initialTimer.m_timeout = call.wait_initial ∧
              call.system.getCurrentTime [] ≤ initialTimer.m_start) (fun _ _ => id)
                call.wait_close).suffices_before
          exact fun _ _ known => ⟨known.1, known.2.1, known.2.2.1⟩
        intro closeTimer
        apply Keeps.bind
        · apply (startTimer_knows (fun state => (state.m_status.terminated = false ∧
            initialTimer.m_timeout = call.wait_initial ∧
              call.system.getCurrentTime [] ≤ initialTimer.m_start) ∧
            closeTimer.m_timeout = call.wait_close ∧
              call.system.getCurrentTime [] ≤ closeTimer.m_start) (fun _ _ => id)
                call.wait_term).suffices_before
          exact fun _ _ known => ⟨known.1, known.2.1, known.2.2.1⟩
        intro termTimer state kept known
        obtain ⟨⟨⟨runs, initialSame, initially⟩, closeSame, closes⟩, termSame, terms, -⟩ := known
        exact escalate_knows fuel initially initialSame closes closeSame terms termSame
          initialPlain closePlain termPlain flag state kept ⟨trivial, runs⟩

/-- The state when the process is called. -/
def Call.start (m_pid : ProcId) : State := ⟨call.m_pipe, m_pid, call.m_status, []⟩

/-- The events of `waitCloseTerm` when it ends, by an exception or not, or at any time before. -/
def Call.events (m_pid : ProcId) (flag : ETerminationSelectionFlag) : List Event :=
  ((waitCloseTerm call.system fuel call.wait_initial call.wait_close call.wait_term flag).outcome
    (call.start m_pid)).2.events

/-- For every clock, every behaviour of the child and of the system, and every end of the call:
each measure is taken in its turn if no positive wait is of the type that is reset. -/
theorem waitCloseTerm_escalates (call : Call) (fuel : Nat) (m_pid : ProcId)
    (flag : ETerminationSelectionFlag) (initialPlain : Plain call.wait_initial)
    (closePlain : Plain call.wait_close) (termPlain : Plain call.wait_term) :
    call.Escalates (call.events fuel m_pid flag) := by
  have kept : call.Kept (call.start m_pid) :=
    ⟨rfl, .nil, fun runs => ⟨runs, fun _ member => by cases member⟩⟩
  exact (waitCloseTerm_knows fuel initialPlain closePlain termPlain flag _ kept
    trivial).1.escalates

end Programs

section Child

/-- A child that runs for ever. The clock stands still. -/
def child : System where
  getCurrentTime _ := 0
  nonDecreasing _ _ := le_rfl
  sleep _ _ := .ok ()
  pollStatus _ _ := .ok ⟨false, 0⟩
  kill _ _ _ := .ok 0
  close _ _ := .ok ()
  getCurProcessId := 1

/-- The default timeouts. -/
def defaults : Call where
  system := child
  m_pipe _ := true
  m_status := ⟨false, 0⟩
  wait_initial := .relative (some 5)
  wait_close := .relative (some 10)
  wait_term := .relative (some 15)

theorem defaults_escalates :
    defaults.Escalates (defaults.events 4 7 .terminateProcessOnly) :=
  waitCloseTerm_escalates defaults 4 7 .terminateProcessOnly (fun _ => rfl) (fun _ => rfl)
    fun _ => rfl

/-- The default seconds in timeouts that are reset. -/
def resets : Call where
  system := child
  m_pipe _ := true
  m_status := ⟨false, 0⟩
  wait_initial := .relativeWithReset (some 5)
  wait_close := .relativeWithReset (some 10)
  wait_term := .relativeWithReset (some 15)

/-- The child is killed at once. -/
theorem resets_kills :
    resets.events 0 7 .terminateProcessOnly = [.pollStatus 7 (.ok ⟨false, 0⟩), .getCurrentTime 0,
      .getCurrentTime 0, .getCurrentTime 0, .kill 7 SIGKILL (.ok 0), .getCurrentTime 0] ∧
    ¬ resets.Escalates (resets.events 0 7 .terminateProcessOnly) := by
  have events : resets.events 0 7 .terminateProcessOnly = [.pollStatus 7 (.ok ⟨false, 0⟩),
      .getCurrentTime 0, .getCurrentTime 0, .getCurrentTime 0, .kill 7 SIGKILL (.ok 0),
      .getCurrentTime 0] := rfl
  refine ⟨events, fun escalates => ?_⟩
  rw [events] at escalates
  have allowed := escalates [.pollStatus 7 (.ok ⟨false, 0⟩), .getCurrentTime 0, .getCurrentTime 0,
    .getCurrentTime 0] (.kill 7 SIGKILL (.ok 0)) [.getCurrentTime 0] rfl
  cases allowed with
  | kill running turn =>
      obtain ⟨seconds, finite, passed⟩ := turn.afterClose.initial
      obtain rfl : 5 = seconds := Option.some.inj finite
      norm_num [resets, child] at passed

end Child

end Blocxx.Process.Clocked
