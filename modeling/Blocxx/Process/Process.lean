import Blocxx.Library.Interaction

/-!
This file embeds `Process` and `ZombieReaper` on a POSIX system. The answers of `ProcessImpl`, of
the timers, of the pipes and of the thread pool are any functions of what happened before.
-/

namespace Blocxx.Process

open Library Library.Interaction Library.Interaction.Program

abbrev ProcId := Int

/-- `Process::Status`. -/
structure Status where
  m_status_available : Bool
  m_status : Nat

def WTERMSIG (status : Nat) : Nat := status % 128

def WIFEXITED (status : Nat) : Bool := WTERMSIG status = 0

def WIFSIGNALED (status : Nat) : Bool := 0 < WTERMSIG status ∧ WTERMSIG status < 127

def Status.terminated (status : Status) : Bool :=
  status.m_status_available && (WIFEXITED status.m_status || WIFSIGNALED status.m_status)

inductive Failure where
  /-- `ProcessErrorException`. -/
  | processError (message : String) (errnum : Option Int)
  /-- An exception of a call. -/
  | other

inductive Pipe where
  | m_in
  | m_out
  | m_err

inductive Event where
  | pollStatus (pid : ProcId) (answer : Except Failure Status)
  | kill (pid : ProcId) (sig : Int) (answer : Except Failure Int)
  | close (pipe : Pipe) (answer : Except Failure Unit)
  | expired (answer : Bool)
  | addWork (pid : ProcId) (answer : Except Failure Bool)

/-- What a `ProcessImpl` and the other objects answer after a history. -/
structure ProcessImpl where
  pollStatus : List Event → ProcId → Except Failure Status
  kill : List Event → ProcId → Int → Except Failure Int
  close : List Event → Pipe → Except Failure Unit
  /-- `TimeoutTimer::expired`. -/
  expired : List Event → Bool
  addWork : List Event → ProcId → Except Failure Bool
  getCurProcessId : ProcId

/-- The members of a `Process`, and what happened since it was constructed. A pipe is either null
or not. -/
structure State where
  m_pipe : Pipe → Bool
  m_pid : ProcId
  m_status : Status
  history : List Event
  /-- The process of the `ZombieReaper` that was constructed. -/
  reaper : Option ProcId

/-- The constructors. -/
def construct (m_pipe : Pipe → Bool) (pid : ProcId) : State := ⟨m_pipe, pid, ⟨false, 0⟩, [], none⟩

def State.happens (state : State) (event : Event) : State :=
  { state with history := state.history ++ [event] }

abbrev Action := Program State Failure

inductive ETimeoutType where
  | absolute
  | relative
  | relativeWithReset
  deriving DecidableEq

structure Timeout where
  m_type : ETimeoutType
  m_seconds : WithTop ℚ

/-- The condition under which `waitCloseTerm` waits. -/
def Timeout.waits (timeout : Timeout) : Bool :=
  timeout.m_type = .relative ∧ timeout.m_seconds > 0

inductive ETerminationSelectionFlag where
  | terminateProcessGroup
  | terminateProcessOnly

def SIGKILL : Int := 9

def SIGTERM : Int := 15

section Calls

variable (impl : ProcessImpl)

def pollStatus (pid : ProcId) : Action Status :=
  ask fun state =>
    let answer := impl.pollStatus state.history pid
    (answer, state.happens (.pollStatus pid answer))

def kill (pid : ProcId) (sig : Int) : Action Int :=
  ask fun state =>
    let answer := impl.kill state.history pid sig
    (answer, state.happens (.kill pid sig answer))

def expired : Action Bool :=
  ask fun state =>
    let answer := impl.expired state.history
    (.ok answer, state.happens (.expired answer))

def upr_close (pipe : Pipe) : Action Unit :=
  ask fun state =>
    if state.m_pipe pipe then
      let answer := impl.close state.history pipe
      (answer, state.happens (.close pipe answer))
    else (.ok (), state)

/-- A `ZombieReaper` is constructed and given to the thread pool. A pool that is closed answers
`false`, and one that cannot start a thread throws although the work is in its queue. -/
def addWork (pid : ProcId) : Action Bool :=
  ask fun state =>
    let answer := impl.addWork state.history pid
    (answer, { state.happens (.addWork pid answer) with reaper := some pid })

end Calls

section Process

variable (impl : ProcessImpl) (fuel : Nat)

/-- The assignment of the answer of `pollStatus` to `m_status`. -/
def updateStatus : Action Status := do
  let process ← get
  let status ← pollStatus impl process.m_pid
  modify fun process => { process with m_status := status }
  return status

def processStatus : Action Status := do
  let process ← get
  if process.m_pid ≥ 0 ∧ !process.m_status.terminated then updateStatus impl
  else return process.m_status

/-- The body of the loop of `terminatesWithin`. -/
def terminatesWithinBody (_ : Unit) : Action (Loop.Iteration Unit Bool) := do
  let isExpired ← expired impl
  let process ← get
  if !isExpired ∧ !process.m_status.terminated then
    let _ ← updateStatus impl
    return .next ()
  else return .stop process.m_status.terminated

def terminatesWithin : Action Bool := repeated (terminatesWithinBody impl) fuel ()

def killWait (sig : Int) (signame : String)
    (terminationSelectionFlag : ETerminationSelectionFlag) : Action Bool := do
  let process ← get
  let killArg :=
    match terminationSelectionFlag with
    | .terminateProcessGroup => -process.m_pid
    | .terminateProcessOnly => process.m_pid
  let errnum ← kill impl killArg sig
  if errnum ≠ 0 then
    let status ← processStatus impl
    if status.terminated then return true
    else
      raise (.processError s!"Failed sending {signame} to process {process.m_pid}." (some errnum))
  else terminatesWithin impl fuel

/-- Closes the streams. -/
def closeStreams : Action Unit := do
  upr_close impl .m_in
  upr_close impl .m_out
  upr_close impl .m_err

/-- The wait before the streams are closed. It answers whether the process terminated. -/
def waitInitial (wait_initial : Timeout) : Action Bool :=
  if wait_initial.waits then terminatesWithin impl fuel else return false

/-- The wait after the streams are closed. -/
def waitClosed (wait_close : Timeout) : Action Bool :=
  if wait_close.waits then do
    closeStreams impl
    terminatesWithin impl fuel
  else return false

/-- The wait after a `SIGTERM`. -/
def waitTerm (wait_term : Timeout)
    (terminationSelectionFlag : ETerminationSelectionFlag) : Action Bool :=
  if wait_term.waits then killWait impl fuel SIGTERM "SIGTERM" terminationSelectionFlag
  else return false

def waitCloseTerm (wait_initial wait_close wait_term : Timeout)
    (terminationSelectionFlag : ETerminationSelectionFlag) : Action Unit := do
  let process ← get
  if process.m_pid < 0 then return ()
  else
    let status ← processStatus impl
    if status.terminated then return ()
    else if process.m_pid = impl.getCurProcessId then
      raise (.processError "Process::m_pid == the current process id" none)
    else
      let initially ← waitInitial impl fuel wait_initial
      if initially then return ()
      else
        let closed ← waitClosed impl fuel wait_close
        if closed then return ()
        else
          let asked ← waitTerm impl fuel wait_term terminationSelectionFlag
          if asked then return ()
          else
            let killed ← killWait impl fuel SIGKILL "SIGKILL" terminationSelectionFlag
            if killed then return ()
            else
              raise (.processError
                "Child process has not terminated after sending it a SIGKILL." none)

/-- The handlers of the destructor. -/
def preventZombie : Action Unit := do
  let process ← get
  if process.m_status.terminated then return ()
  else
    let _ ← addWork impl process.m_pid
    return ()

def destructor : Action Unit := do
  let process ← get
  if process.m_pid < 0 then return ()
  else
    handle (waitCloseTerm impl fuel ⟨.relative, 0⟩ ⟨.relative, 1⟩ ⟨.relative, 5⟩
      .terminateProcessGroup) fun _ => preventZombie impl

end Process

section ZombieReaper

variable (impl : ProcessImpl) (fuel : Nat) (m_pid : ProcId)

def MAX_ZOMBIE_POLL_ATTEMPTS : Nat := 6

/-- The body of the loop of `ZombieReaper::run`, with the variables `status` and `attempts`. -/
def zombieReaperBody (here : Status × Nat) : Action (Loop.Iteration (Status × Nat) Unit) :=
  if here.1.terminated then return .stop ()
  else do
    let signum := if here.2 < MAX_ZOMBIE_POLL_ATTEMPTS then SIGTERM else SIGKILL
    let _ ← handle (kill impl m_pid signum) fun _ => return 0
    let status ← pollStatus impl m_pid
    return .next (status, here.2 + 1)

/-- `ZombieReaper::run`. -/
def zombieReaperRun : Action Unit := do
  let status ← pollStatus impl m_pid
  repeated (zombieReaperBody impl m_pid) fuel (status, 0)

end ZombieReaper

section Lifetime

variable (impl : ProcessImpl) (fuel : Nat)

inductive Operation where
  | processStatus
  | waitCloseTerm (wait_initial wait_close wait_term : Timeout)
      (terminationSelectionFlag : ETerminationSelectionFlag)

def perform : Operation → Action Unit
  | .processStatus => do
      let _ ← processStatus impl
      return ()
  | .waitCloseTerm wait_initial wait_close wait_term terminationSelectionFlag =>
      waitCloseTerm impl fuel wait_initial wait_close wait_term terminationSelectionFlag

/-- The caller goes on after an exception. -/
def callAll : List Operation → Action Unit
  | [] => return ()
  | operation :: operations => do
      handle (perform impl fuel operation) fun _ => return ()
      callAll operations

/-- A thread of the pool runs the reaper if there is one. -/
def runReaper : Action Unit := do
  let process ← get
  match process.reaper with
  | none => return ()
  | some pid => zombieReaperRun impl fuel pid

/-- The calls, the destructor and the reaper. -/
def lifetime (operations : List Operation) : Action Unit := do
  callAll impl fuel operations
  handle (destructor impl fuel) fun _ => return ()
  runReaper impl fuel

end Lifetime

end Blocxx.Process
