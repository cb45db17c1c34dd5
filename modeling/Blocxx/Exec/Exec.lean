import Blocxx.Exec.TimeoutTimer
import Blocxx.Library.TransitionSystem

/-!
This file embeds `processInputOutput`. The answers of the system calls and what the callbacks do
come as the labels of the steps, and time passes in steps of its own. A history keeps what the
callers may rely on. An array is a function of its index, next to its size.
-/

namespace Blocxx.Exec

open Library

inductive Stream where
  | in
  | out
  | err
  deriving DecidableEq

/-- The open pipes have different descriptors, so a pipe stands for its own. -/
structure Pipe where
  process : Nat
  stream : Stream
  deriving DecidableEq

/-- The results of `isOpen` for the pipes of a process. -/
structure Process where
  inOpen : Bool
  outOpen : Bool
  errOpen : Bool

structure ProcessOutputState where
  inIsOpen : Bool
  outIsOpen : Bool
  errIsOpen : Bool
  availableDataLen : Nat

structure SelectObject where
  s : Pipe
  waitForRead : Bool
  waitForWrite : Bool
  readAvailable : Bool
  writeAvailable : Bool

/-- The variables of one round. A missing key of a map has the value zero. -/
structure Round where
  selObjs : List SelectObject
  inputIndexProcessIndex : Nat → Nat
  outputIndexProcessIndex : Nat → Nat

section Building

def Round.pushInput (round : Round) (s : Pipe) (i : Nat) : Round :=
  { round with
    selObjs := round.selObjs ++ [⟨s, true, false, false, false⟩]
    inputIndexProcessIndex :=
      Function.update round.inputIndexProcessIndex round.selObjs.length i }

def Round.pushOutput (round : Round) (s : Pipe) (i : Nat) : Round :=
  { round with
    selObjs := round.selObjs ++ [⟨s, false, true, false, false⟩]
    outputIndexProcessIndex :=
      Function.update round.outputIndexProcessIndex round.selObjs.length i }

/-- The body of the loop that builds the arrays. -/
def Round.add (round : Round) (state : ProcessOutputState) (i : Nat) : Round :=
  let round := if state.outIsOpen then round.pushInput ⟨i, .out⟩ i else round
  let round := if state.errIsOpen then round.pushInput ⟨i, .err⟩ i else round
  if state.inIsOpen = true ∧ 0 < state.availableDataLen then round.pushOutput ⟨i, .in⟩ i else round

def buildRound (processStates : Nat → ProcessOutputState) (size : Nat) : Round :=
  (List.range size).foldl (fun round i => round.add (processStates i) i)
    ⟨[], fun _ => 0, fun _ => 0⟩

end Building

/-- The local variables, and the pipes of the processes. -/
structure Locals where
  procs : Nat → Process
  size : Nat
  timer : TimeoutTimer
  processStates : Nat → ProcessOutputState
  numOpenPipes : Int
  inputs : Nat → List UInt8

inductive EOutputSource where
  | E_STDOUT
  | E_STDERR
  deriving DecidableEq

/-- One call of `poll` or `epoll_wait`, at this time and with this argument. -/
structure Wait where
  called : ℚ
  ms : Int

/-- One call of `handleData`. -/
structure Handled where
  data : List UInt8
  outputSource : EOutputSource
  streamIndex : Nat

inductive Ending where
  | returned
  | execErrorException (message : String)
  | execTimeoutException (message : String)
  | callbackException
  deriving DecidableEq

structure History where
  /-- The bytes that the callbacks have appended to each buffer. -/
  appended : Nat → List UInt8
  /-- The bytes that were written to the standard input of each process. -/
  written : Nat → List UInt8
  /-- The indices that were used, each with the size of its buffer. -/
  indices : List (Nat × Nat)
  /-- The data read, with their pipes. The latest come first. -/
  read : List (Pipe × List UInt8)
  /-- The calls of `handleData`. The latest comes first. -/
  handled : List Handled
  /-- The pipes that have reached their end. -/
  ended : Pipe → Bool
  /-- The standard inputs that the input callback closed, each with the bytes written by then. -/
  closed : List (Nat × List UInt8)
  waits : List Wait
  /-- The loop head of this round was reached after the deadline. -/
  late : Bool
  /-- The endings that the calls of `selectRW` in such rounds led to. -/
  lateEndings : List (Option Ending)

inductive Point where
  /-- The loop over the processes before the other one. -/
  | starting (i : Nat)
  | loopHead
  /-- The loop of `selectRW`, with its timer. -/
  | selecting (round : Round) (timer : TimeoutTimer)
  /-- The wait in that loop. -/
  | waiting (round : Round) (timer : TimeoutTimer)
  | reading (round : Round) (i : Nat) (availableToFind : Int)
  | writing (round : Round) (i : Nat) (availableToFind : Int)
  | ended (ending : Ending)

structure State where
  clock : ℚ
  locals : Locals
  history : History
  point : Point

/-- What `getData` does. It may also close the standard input. -/
structure GetData where
  appended : List UInt8
  closes : Bool
  throws : Bool
  deriving DecidableEq

/-- What `handleData` does. -/
structure HandleData where
  appended : List UInt8
  throws : Bool

inductive Outcome where
  | failed
  /-- The wait ended with nothing available, also by a signal. -/
  | nothing
  | available (count : Nat) (readAvailable writeAvailable : Pipe → Bool)

inductive Writing where
  /-- The error `EPIPE`. -/
  | broken
  | failed
  | wrote (writerc : Nat)

inductive Label where
  | pass (now : ℚ)
  /-- The code runs up to the next answer that it needs. -/
  | go
  | getData (answer : GetData)
  | waited (outcome : Outcome)
  /-- The read fails. -/
  | readFailed
  /-- The read gives these bytes, none at the end of the file. -/
  | read (data : List UInt8) (answer : HandleData)
  | write (outcome : Writing) (answer : GetData)

section Steps

def Locals.setState (locals : Locals) (i : Nat) (change : ProcessOutputState → ProcessOutputState) :
    Locals :=
  { locals with
    processStates := Function.update locals.processStates i (change (locals.processStates i)) }

def Locals.setProcess (locals : Locals) (i : Nat) (change : Process → Process) : Locals :=
  { locals with procs := Function.update locals.procs i (change (locals.procs i)) }

def Locals.setInput (locals : Locals) (i : Nat) (input : List UInt8) : Locals :=
  { locals with inputs := Function.update locals.inputs i input }

/-- A callback appends to the buffer of a process. -/
def State.append (state : State) (i : Nat) (bytes : List UInt8) : State :=
  { state with
    locals := state.locals.setInput i (state.locals.inputs i ++ bytes)
    history := { state.history with
      appended := Function.update state.history.appended i (state.history.appended i ++ bytes) } }

/-- The call of `getData`. -/
def State.getData (state : State) (i : Nat) (answer : GetData) : State :=
  let state := state.append i answer.appended
  if answer.closes then
    { state with
      locals := state.locals.setProcess i fun proc => { proc with inOpen := false }
      history := { state.history with
        closed := (i, state.history.written i) :: state.history.closed } }
  else state

/-- The assignment of `availableDataLen` after a call of `getData`. -/
def State.storeLength (state : State) (i : Nat) : State :=
  { state with
    locals := state.locals.setState i fun s =>
      { s with availableDataLen := (state.locals.inputs i).length } }

/-- The flags that are set from the pipes before the loop. -/
def State.storeOpen (state : State) (i : Nat) : State :=
  let proc := state.locals.procs i
  { state with
    locals := state.locals.setState i fun s =>
      { s with
        outIsOpen := s.outIsOpen && proc.outOpen
        errIsOpen := s.errIsOpen && proc.errOpen
        inIsOpen := s.inIsOpen && proc.inOpen } }

/-- The time at which a timer without reset expires. -/
def TimeoutTimer.deadline (timer : TimeoutTimer) : Option ℚ :=
  match timer.m_timeout with
  | .absolute dt => some dt
  | .relative seconds => seconds.map fun s => timer.m_start + s
  | .relativeWithReset seconds => seconds.map fun s => timer.m_start + s

/-- The deadline is in the past. -/
def State.pastDeadline (state : State) : Bool :=
  state.locals.timer.deadline.any fun deadline => deadline < state.clock

/-- A flag is set only where it was asked for. -/
def SelectObject.answered (readAvailable writeAvailable : Pipe → Bool) (so : SelectObject) :
    SelectObject :=
  { so with
    readAvailable := so.waitForRead && readAvailable so.s
    writeAvailable := so.waitForWrite && writeAvailable so.s }

/-- The constant `LOOP_TIMEOUT`. -/
def LOOP_TIMEOUT : ℚ := 10

/-- The variable `readstream` for an entry. -/
def Locals.readstream (locals : Locals) (streamIndex : Nat) (s : Pipe) : Option Pipe :=
  let state := locals.processStates streamIndex
  if state.outIsOpen = true ∧ (⟨streamIndex, .out⟩ : Pipe) = s then some ⟨streamIndex, .out⟩
  else if state.errIsOpen = true ∧ (⟨streamIndex, .err⟩ : Pipe) = s then some ⟨streamIndex, .err⟩
  else none

/-- The branch for the end of a file. -/
def State.endOfFile (state : State) (streamIndex : Nat) (readstream : Pipe) : State :=
  let locals := state.locals
  let locals :=
    if readstream = ⟨streamIndex, .out⟩ then
      (locals.setState streamIndex fun s => { s with outIsOpen := false }).setProcess streamIndex
        fun proc => { proc with outOpen := false }
    else
      (locals.setState streamIndex fun s => { s with errIsOpen := false }).setProcess streamIndex
        fun proc => { proc with errOpen := false }
  { state with
    locals := { locals with numOpenPipes := locals.numOpenPipes - 1 }
    history := { state.history with ended := Function.update state.history.ended readstream true } }

/-- The branch that hands the data to the output callback. -/
def State.handleData (state : State) (streamIndex : Nat) (readstream : Pipe) (data : List UInt8)
    (answer : HandleData) : State :=
  let outputSource : EOutputSource :=
    if readstream = ⟨streamIndex, .out⟩ then .E_STDOUT else .E_STDERR
  let state := { state with
    history := { state.history with
      read := (readstream, data) :: state.history.read
      handled := ⟨data, outputSource, streamIndex⟩ :: state.history.handled } }
  state.append streamIndex answer.appended

/-- The successful write, from the offset on, and the erasure of as many bytes at the front. -/
def State.wrote (state : State) (streamIndex writerc : Nat) : State :=
  let input := state.locals.inputs streamIndex
  let offset := input.length - (state.locals.processStates streamIndex).availableDataLen
  { state with
    locals := state.locals.setInput streamIndex (input.drop writerc)
    history := { state.history with
      indices := (offset, input.length) :: state.history.indices
      written := Function.update state.history.written streamIndex
        (state.history.written streamIndex ++ (input.drop offset).take writerc) } }

/-- The write that fails, which uses the index of the offset too. -/
def State.usedOffset (state : State) (streamIndex : Nat) : State :=
  let input := state.locals.inputs streamIndex
  let offset := input.length - (state.locals.processStates streamIndex).availableDataLen
  { state with
    history := { state.history with
      indices := (offset, input.length) :: state.history.indices } }

/-- The branch for `EPIPE`. -/
def State.brokenPipe (state : State) (streamIndex : Nat) : State :=
  { state with
    locals := (state.locals.setState streamIndex fun s => { s with inIsOpen := false }).setProcess
      streamIndex fun proc => { proc with inOpen := false } }

/-- The state at another point. -/
def State.at (state : State) (point : Point) : State := { state with point := point }

/-- A callback that throws ends the function, and else the code goes on. -/
def State.called (state : State) (throws : Bool) (next : State) : State :=
  if throws then state.at (.ended .callbackException) else next

/-- The loop head. -/
def State.head (state : State) : State :=
  if 0 < state.locals.numOpenPipes then
    let round := buildRound state.locals.processStates state.locals.size
    { state with
      history := { state.history with late := state.pastDeadline }
      point := .selecting round
        (.started state.locals.timer.asRelativeTimeout state.clock) }
  else state.at (.ended .returned)

/-- The branch for a timeout of `selectRW`. -/
def State.timedOut (state : State) : State :=
  let timer := state.locals.timer.loop state.clock
  { state with
    locals := { state.locals with timer := timer }
    point :=
      if timer.expired then
        .ended (.execTimeoutException "Exec::gatherOutput: timedout")
      else .loopHead }

/-- The state after `selectRW`. -/
def State.selected (state after : State) : State :=
  if state.history.late then
    { after with
      history := { after.history with
        lateEndings :=
          (match after.point with
            | .ended ending => some ending
            | _ => none) :: after.history.lateEndings } }
  else after

/-- The end of one wait of `selectRW`. -/
def State.waited (state : State) (round : Round) (timer : TimeoutTimer) (outcome : Outcome) :
    State :=
  let timer := timer.loop state.clock
  match outcome with
  | .failed =>
      state.selected (state.at (.ended (.execErrorException
        "Exec::gatherOutput: error selecting on stdout and stderr")))
  | .nothing =>
      if timer.expired then state.selected state.timedOut else state.at (.selecting round timer)
  | .available count readAvailable writeAvailable =>
      state.selected
        { state with
          locals := { state.locals with timer := state.locals.timer.resetOnLoop state.clock }
          point := .reading
            { round with
              selObjs := round.selObjs.map (.answered readAvailable writeAvailable) } 0 count }

/-- The step of the code at a point of the reading loop. It needs an answer only at a pipe. -/
def State.readingStep (state : State) (round : Round) (i : Nat) (availableToFind : Int) :
    State ⊕ (Nat × Pipe) :=
  match round.selObjs[i]? with
  | some so =>
      if availableToFind ≤ 0 then .inl (state.at (.writing round 0 availableToFind))
      else if so.readAvailable = false then .inl (state.at (.reading round (i + 1) availableToFind))
      else
        let streamIndex := round.inputIndexProcessIndex i
        match state.locals.readstream streamIndex so.s with
        | none => .inl (state.at (.reading round (i + 1) (availableToFind - 1)))
        | some readstream => .inr (streamIndex, readstream)
  | none => .inl (state.at (.writing round 0 availableToFind))

/-- The step of the code at a point of the writing loop. -/
def State.writingStep (state : State) (round : Round) (i : Nat) (availableToFind : Int) :
    State ⊕ Nat :=
  match round.selObjs[i]? with
  | some so =>
      if availableToFind ≤ 0 then .inl (state.at .loopHead)
      else if so.writeAvailable = false then .inl (state.at (.writing round (i + 1) availableToFind))
      else
        let streamIndex := round.outputIndexProcessIndex i
        if (state.locals.processStates streamIndex).inIsOpen = false then
          .inl (state.at (.writing round (i + 1) (availableToFind - 1)))
        else .inr streamIndex
  | none => .inl (state.at .loopHead)

def State.next (state : State) : Label → Option State
  | .pass now => if state.clock ≤ now then some { state with clock := now } else none
  | .go =>
      match state.point with
      | .starting i =>
          if i < state.locals.size then none
          else
            let timer := TimeoutTimer.started state.locals.timer.m_timeout state.clock
            some { state with locals := { state.locals with timer := timer }, point := .loopHead }
      | .loopHead => some state.head
      | .selecting round timer =>
          some { state with
            history := { state.history with
              waits := ⟨state.clock, timer.asIntMs LOOP_TIMEOUT⟩ :: state.history.waits }
            point := .waiting round timer }
      | .waiting _ _ => none
      | .reading round i availableToFind =>
          match state.readingStep round i availableToFind with
          | .inl next => some next
          | .inr _ => none
      | .writing round i availableToFind =>
          match state.writingStep round i availableToFind with
          | .inl next => some next
          | .inr _ => none
      | .ended _ => none
  | .getData answer =>
      match state.point with
      | .starting i =>
          if i < state.locals.size then
            let called := state.getData i answer
            some (called.called answer.throws
              (((called.storeLength i).storeOpen i).at (.starting (i + 1))))
          else none
      | _ => none
  | .waited outcome =>
      match state.point with
      | .waiting round timer => some (state.waited round timer outcome)
      | _ => none
  | .readFailed =>
      match state.point with
      | .reading round i availableToFind =>
          match state.readingStep round i availableToFind with
          | .inl _ => none
          | .inr _ =>
              some (state.at (.ended (.execErrorException "Exec::gatherOutput: read error")))
      | _ => none
  | .read data answer =>
      match state.point with
      | .reading round i availableToFind =>
          match state.readingStep round i availableToFind with
          | .inl _ => none
          | .inr (streamIndex, readstream) =>
              let continued : Point := .reading round (i + 1) (availableToFind - 1)
              if data.length = 0 then
                some ((state.endOfFile streamIndex readstream).at continued)
              else if data.length ≤ 1023 then
                let called := state.handleData streamIndex readstream data answer
                some (called.called answer.throws (called.at continued))
              else none
      | _ => none
  | .write outcome answer =>
      match state.point with
      | .writing round i availableToFind =>
          match state.writingStep round i availableToFind with
          | .inl _ => none
          | .inr streamIndex =>
              let continued : Point := .writing round (i + 1) (availableToFind - 1)
              let used := state.usedOffset streamIndex
              match outcome with
              | .broken => some ((used.brokenPipe streamIndex).at continued)
              | .failed =>
                  some (used.at (.ended (.execErrorException "Exec::gatherOutput: write error")))
              | .wrote writerc =>
                  if writerc = 0 then some (used.at continued)
                  else if writerc ≤
                      (state.locals.processStates streamIndex).availableDataLen then
                    let called := (state.wrote streamIndex writerc).getData streamIndex answer
                    some (called.called answer.throws ((called.storeLength streamIndex).at continued))
                  else none
      | _ => none

end Steps

/-- The state at the call of the function with these pipes. -/
def atCall (clock : ℚ) (timeout : Timeout) (procs : Nat → Process) (size : Nat) : State where
  clock := clock
  locals :=
    { procs := procs
      size := size
      timer := .started timeout clock
      processStates := fun _ => ⟨true, true, true, 0⟩
      numOpenPipes := 2 * size
      inputs := fun _ => [] }
  history := ⟨fun _ => [], fun _ => [], [], [], [], fun _ => false, [], [], false, []⟩
  point := .starting 0

def system : TransitionSystem State Label :=
  .computed (fun state => ∃ clock timeout procs size, state = atCall clock timeout procs size)
    State.next

end Blocxx.Exec
