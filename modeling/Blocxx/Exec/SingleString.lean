import Blocxx.Exec.Steps

/-!
This file proves that `SingleStringInputCallback` sends the whole input exactly when no write is
partial.
-/

namespace Blocxx.Exec

open Library

section Callback

/-- The member function of `SingleStringInputCallback`, with the member `m_s` after it. -/
def doGetData (m_s : List UInt8) (isOpen : Bool) : GetData × List UInt8 :=
  if 0 < m_s.length then (⟨m_s, false, false⟩, []) else (⟨[], isOpen, false⟩, m_s)

/-- A run of `processInputOutput` with the callbacks of `feedProcessAndGatherOutput`. -/
structure Fed where
  state : State
  m_s : List UInt8

/-- The callback is asked for the data of a process. -/
def Fed.asked (fed : Fed) (i : Nat) (answer : GetData) : Option (List UInt8) :=
  let given := doGetData fed.m_s (fed.state.locals.procs i).inOpen
  if answer = given.1 then some given.2 else none

/-- The member `m_s` after a step. The output callback appends nothing. -/
def Fed.remaining (fed : Fed) : Label → Option (List UInt8)
  | .getData answer =>
      match fed.state.point with
      | .starting i => fed.asked i answer
      | _ => none
  | .write (.wrote writerc) answer =>
      if writerc = 0 then some fed.m_s
      else
        match fed.state.point with
        | .writing round i _ => fed.asked (round.outputIndexProcessIndex i) answer
        | _ => none
  | .read _ answer => if answer.appended = [] then some fed.m_s else none
  | _ => some fed.m_s

def Fed.next (fed : Fed) (label : Label) : Option Fed :=
  (fed.remaining label).bind fun m_s => (fed.state.next label).map fun state => ⟨state, m_s⟩

/-- The function is called with one process. -/
def Feeds (input : List UInt8) (fed : Fed) : Prop :=
  (∃ clock timeout procs, fed.state = atCall clock timeout procs 1) ∧ fed.m_s = input

def feeding (input : List UInt8) : TransitionSystem Fed Label := .computed (Feeds input) Fed.next

end Callback

section Property

/-- The callback closes the standard input only after the whole input, and no round waits for a
closed one. -/
def SendsAll (input : List UInt8) (fed : Fed) : Prop :=
  (∀ closed ∈ fed.state.history.closed, closed.2 = input) ∧
    ∀ round timer,
      fed.state.point = .selecting round timer ∨ fed.state.point = .waiting round timer →
        ∀ so ∈ round.selObjs, so.waitForWrite = true →
          (fed.state.locals.procs so.s.process).inOpen = true

/-- A write that accepts something accepts all that it is offered. -/
def Whole (fed : Fed) : Label → Prop
  | .write (.wrote writerc) _ =>
      match fed.state.point with
      | .writing round i _ =>
          writerc ≠ 0 → writerc = (fed.state.locals.processStates
            (round.outputIndexProcessIndex i)).availableDataLen
      | _ => True
  | _ => True

end Property

section Changes

variable {state after : State}

/-- A part of the code that leaves the standard inputs and their buffers alone. -/
structure SameInputs (state after : State) : Prop where
  flags : ∀ i, (after.locals.processStates i).inIsOpen =
      (state.locals.processStates i).inIsOpen ∧
    (after.locals.processStates i).availableDataLen =
      (state.locals.processStates i).availableDataLen
  procs : ∀ i, (after.locals.procs i).inOpen = (state.locals.procs i).inOpen
  inputs : after.locals.inputs = state.locals.inputs
  written : after.history.written = state.history.written
  closed : after.history.closed = state.history.closed

theorem SameInputs.trans {last : State} (first : SameInputs state after)
    (second : SameInputs after last) : SameInputs state last where
  flags i := ⟨(second.flags i).1.trans (first.flags i).1, (second.flags i).2.trans (first.flags i).2⟩
  procs i := (second.procs i).trans (first.procs i)
  inputs := second.inputs.trans first.inputs
  written := second.written.trans first.written
  closed := second.closed.trans first.closed

theorem sameInputs_at (state : State) (point : Point) : SameInputs state (state.at point) :=
  ⟨fun _ => ⟨rfl, rfl⟩, fun _ => rfl, rfl, rfl, rfl⟩

theorem sameInputs_usedOffset (state : State) (i : Nat) : SameInputs state (state.usedOffset i) :=
  ⟨fun _ => ⟨rfl, rfl⟩, fun _ => rfl, rfl, rfl, rfl⟩

theorem sameInputs_selected (state after : State) : SameInputs after (state.selected after) := by
  rw [State.selected]
  split <;> exact ⟨fun _ => ⟨rfl, rfl⟩, fun _ => rfl, rfl, rfl, rfl⟩

theorem sameInputs_called (throws : Bool) (same : SameInputs state after)
    (thrown : State) (sameThrown : SameInputs state thrown) :
    SameInputs state (thrown.called throws after) := by
  rw [State.called]
  split
  · exact sameThrown.trans (sameInputs_at thrown _)
  · exact same

theorem sameInputs_endOfFile (state : State) (streamIndex : Nat) (pipe : Pipe) :
    SameInputs state (state.endOfFile streamIndex pipe) := by
  rw [State.endOfFile]
  dsimp only
  split
  · refine ⟨fun j => ?_, fun j => ?_, rfl, rfl, rfl⟩
    · show (Function.update state.locals.processStates streamIndex _ j).inIsOpen = _ ∧
        (Function.update state.locals.processStates streamIndex _ j).availableDataLen = _
      exact ⟨update_field ProcessOutputState.inIsOpen (by rfl) j,
        update_field ProcessOutputState.availableDataLen (by rfl) j⟩
    · show (Function.update state.locals.procs streamIndex _ j).inOpen = _
      exact update_field Process.inOpen (by rfl) j
  · refine ⟨fun j => ?_, fun j => ?_, rfl, rfl, rfl⟩
    · show (Function.update state.locals.processStates streamIndex _ j).inIsOpen = _ ∧
        (Function.update state.locals.processStates streamIndex _ j).availableDataLen = _
      exact ⟨update_field ProcessOutputState.inIsOpen (by rfl) j,
        update_field ProcessOutputState.availableDataLen (by rfl) j⟩
    · show (Function.update state.locals.procs streamIndex _ j).inOpen = _
      exact update_field Process.inOpen (by rfl) j

/-- An output callback that appends nothing leaves the buffers. -/
theorem sameInputs_handleData (state : State) (streamIndex : Nat) (pipe : Pipe)
    (data : List UInt8) {answer : HandleData} (nothing : answer.appended = []) :
    SameInputs state (state.handleData streamIndex pipe data answer) := by
  refine ⟨fun _ => ⟨rfl, rfl⟩, fun _ => rfl, ?_, rfl, rfl⟩
  show Function.update state.locals.inputs streamIndex
    (state.locals.inputs streamIndex ++ answer.appended) = state.locals.inputs
  rw [nothing, List.append_nil, Function.update_eq_self]

theorem sameInputs_waited (state : State) (round : Round) (timer : TimeoutTimer)
    (outcome : Outcome) : SameInputs state (state.waited round timer outcome) := by
  cases outcome with
  | failed => exact (sameInputs_at state _).trans (sameInputs_selected state _)
  | nothing =>
      simp only [State.waited]
      split
      · have timedOut : SameInputs state state.timedOut :=
          ⟨fun _ => ⟨rfl, rfl⟩, fun _ => rfl, rfl, rfl, rfl⟩
        exact timedOut.trans (sameInputs_selected state _)
      · exact sameInputs_at state _
  | available count readAvailable writeAvailable =>
      refine SameInputs.trans ?_ (sameInputs_selected state _)
      exact ⟨fun _ => ⟨rfl, rfl⟩, fun _ => rfl, rfl, rfl, rfl⟩

end Changes

section Invariant

variable {input : List UInt8} {fed next : Fed} {label : Label}

/-- No round waits for a closed standard input. -/
def State.WaitsOpen (state : State) : Prop :=
  ∀ round timer, state.point = .selecting round timer ∨ state.point = .waiting round timer →
    ∀ so ∈ round.selObjs, so.waitForWrite = true →
      (state.locals.procs so.s.process).inOpen = true

/-- The callback has not been asked yet. -/
structure Fresh (input : List UInt8) (fed : Fed) : Prop where
  place : fed.state.point = .starting 0
  member : fed.m_s = input
  inputs : fed.state.locals.inputs 0 = []
  written : fed.state.history.written 0 = []
  flag : (fed.state.locals.processStates 0).inIsOpen = true
  closed : fed.state.history.closed = []

/-- The callback has given the whole input, of which all or nothing is written. -/
structure Given (input : List UInt8) (fed : Fed) : Prop where
  place : fed.state.point ≠ .starting 0
  member : fed.m_s = []
  split : fed.state.history.written 0 ++ fed.state.locals.inputs 0 = input
  whole : fed.state.history.written 0 = [] ∨ fed.state.locals.inputs 0 = []
  count : (fed.state.locals.processStates 0).availableDataLen =
    (fed.state.locals.inputs 0).length
  isOpen : fed.state.locals.inputs 0 ≠ [] →
    (fed.state.locals.processStates 0).inIsOpen = true →
      (fed.state.locals.procs 0).inOpen = true
  closed : ∀ closed ∈ fed.state.history.closed, closed.2 = input
  waits : fed.state.WaitsOpen

/-- The invariant of the runs in which all writes are whole. -/
structure Feeding (input : List UInt8) (fed : Fed) : Prop where
  shaped : fed.state.Shaped
  single : fed.state.locals.size = 1
  phase : Fresh input fed ∨ Given input fed

/-- The code waits, or is about to. -/
def Point.waits : Point → Bool
  | .selecting _ _ => true
  | .waiting _ _ => true
  | _ => false

theorem waitsOpen_of_not {state : State} (settled : state.point.waits = false) :
    state.WaitsOpen := by
  intro round timer there
  rcases there with there | there
  · rw [there] at settled
    cases settled
  · rw [there] at settled
    cases settled

theorem Feeding.sendsAll (feeding : Feeding input fed) : SendsAll input fed := by
  rcases feeding.phase with fresh | given
  · refine ⟨?_, waitsOpen_of_not (by rw [fresh.place]; rfl)⟩
    rw [fresh.closed]
    exact List.forall_mem_nil _
  · exact ⟨given.closed, given.waits⟩

theorem feeding_start (feeds : Feeds input fed) : Feeding input fed := by
  obtain ⟨state, m_s⟩ := fed
  obtain ⟨⟨clock, timeout, procs, same⟩, rfl⟩ := feeds
  simp only at same
  subst same
  refine ⟨shaped_atCall ⟨clock, timeout, procs, 1, rfl⟩, rfl, Or.inl ?_⟩
  exact ⟨rfl, rfl, rfl, rfl, rfl, rfl⟩

theorem Fed.next_cases (taken : fed.next label = some next) :
    fed.remaining label = some next.m_s ∧ Step fed.state label next.state := by
  obtain ⟨m_s, remaining, mapped⟩ := Option.bind_eq_some_iff.mp taken
  obtain ⟨state, goes, rfl⟩ := Option.map_eq_some_iff.mp mapped
  exact ⟨remaining, step_of_next goes⟩

/-- The given input stays given when the standard inputs are left alone. -/
theorem Given.same (given : Given input fed) {state : State}
    (same : SameInputs fed.state state) (place : state.point ≠ .starting 0)
    (waits : state.WaitsOpen) : Given input ⟨state, []⟩ where
  place := place
  member := rfl
  split := by
    rw [same.written, same.inputs]
    exact given.split
  whole := by
    rw [same.written, same.inputs]
    exact given.whole
  count := by
    rw [(same.flags 0).2, same.inputs]
    exact given.count
  isOpen := by
    rw [same.inputs, (same.flags 0).1, same.procs 0]
    exact given.isOpen
  closed := by
    rw [same.closed]
    exact given.closed
  waits := waits

/-- The labels whose steps ask the input callback or break a pipe. -/
def Label.Quiet : Label → Prop
  | .getData _ => False
  | .read _ answer => answer.appended = []
  | .write (.wrote writerc) _ => writerc = 0
  | .write .broken _ => False
  | _ => True

theorem Step.sameInputs {state next : State} (step : Step state label next)
    (quiet : label.Quiet) : SameInputs state next := by
  cases step with
  | pass later => exact ⟨fun _ => ⟨rfl, rfl⟩, fun _ => rfl, rfl, rfl, rfl⟩
  | start place done => exact ⟨fun _ => ⟨rfl, rfl⟩, fun _ => rfl, rfl, rfl, rfl⟩
  | head place =>
      rw [State.head]
      split <;> exact ⟨fun _ => ⟨rfl, rfl⟩, fun _ => rfl, rfl, rfl, rfl⟩
  | wait place => exact ⟨fun _ => ⟨rfl, rfl⟩, fun _ => rfl, rfl, rfl, rfl⟩
  | move moves => exact sameInputs_at state _
  | getData answer place more => exact quiet.elim
  | waited outcome place => exact sameInputs_waited state _ _ outcome
  | readFailed place => exact sameInputs_at state _
  | endOfFile answer place reads =>
      exact (sameInputs_endOfFile state _ _).trans (sameInputs_at _ _)
  | @handleData _ _ streamIndex _ pipe data answer place reads some fits =>
      have handled := sameInputs_handleData state streamIndex pipe data quiet
      exact sameInputs_called answer.throws (handled.trans (sameInputs_at _ _)) _ handled
  | brokenPipe answer place writes => exact quiet.elim
  | writeFailed answer place writes =>
      exact (sameInputs_usedOffset state _).trans (sameInputs_at _ _)
  | wroteNothing answer place writes =>
      exact (sameInputs_usedOffset state _).trans (sameInputs_at _ _)
  | wrote answer place writes some offered => exact absurd quiet some

theorem Moves.waits {point next : Point} (moves : Moves point next) : next.waits = false := by
  cases moves <;> rfl

theorem Moves.not_starting {point next : Point} (moves : Moves point next) {i : Nat} :
    next ≠ .starting i := by
  cases moves <;> exact Point.noConfusion

theorem called_waits {before after : State} {throws : Bool} (settled : after.point.waits = false) :
    (before.called throws after).point.waits = false := by
  rw [State.called]
  split
  · rfl
  · exact settled

/-- A round waits for the standard input only when there are bytes to write and it is open. -/
theorem Given.waits_head (given : Given input fed) (single : fed.state.locals.size = 1) :
    fed.state.head.WaitsOpen := by
  rw [State.head]
  split
  · intro round timer there so mem waits
    have same : round = buildRound fed.state.locals.processStates fed.state.locals.size := by
      rcases there with there | there
      · cases there
        rfl
      · cases there
    subst same
    obtain ⟨i, inside, mem⟩ := mem_buildRound.mp mem
    obtain rfl : i = 0 := by omega
    rcases mem_entries.mp mem with ⟨-, rfl⟩ | ⟨-, rfl⟩ | ⟨flag, offered, rfl⟩
    · cases waits
    · cases waits
    · rw [given.count] at offered
      exact given.isOpen (List.length_pos_iff.mp offered) flag
  · exact waitsOpen_of_not rfl

theorem Step.waitsOpen {next : State} (step : Step fed.state label next)
    (quiet : label.Quiet) (given : Given input fed) (single : fed.state.locals.size = 1) :
    next.WaitsOpen := by
  cases step with
  | pass later => exact given.waits
  | start place done => exact waitsOpen_of_not rfl
  | head place => exact given.waits_head single
  | wait place =>
      intro round timer there
      rcases there with there | there
      · cases there
      · cases there
        exact given.waits _ _ (Or.inl place)
  | move moves => exact waitsOpen_of_not moves.waits
  | getData answer place more => exact quiet.elim
  | @waited round timer outcome place =>
      cases outcome with
      | failed =>
          apply waitsOpen_of_not
          simp only [State.waited, selected_point]
          rfl
      | nothing =>
          simp only [State.waited]
          split
          · apply waitsOpen_of_not
            rw [selected_point]
            simp only [State.timedOut]
            split <;> rfl
          · intro other inner there
            rcases there with there | there
            · cases there
              exact given.waits round timer (Or.inr place)
            · cases there
      | available count readAvailable writeAvailable =>
          apply waitsOpen_of_not
          simp only [State.waited, selected_point]
          rfl
  | readFailed place => exact waitsOpen_of_not rfl
  | endOfFile answer place reads => exact waitsOpen_of_not rfl
  | handleData answer place reads some fits => exact waitsOpen_of_not (called_waits rfl)
  | brokenPipe answer place writes => exact quiet.elim
  | writeFailed answer place writes => exact waitsOpen_of_not rfl
  | wroteNothing answer place writes => exact waitsOpen_of_not rfl
  | wrote answer place writes some offered => exact absurd quiet some

theorem step_not_starting {state next : State} {label : Label} (step : Step state label next)
    (single : state.locals.size = 1) (place : state.point ≠ .starting 0) :
    next.point ≠ .starting 0 := by
  intro there
  cases step with
  | pass later => exact place there
  | head loop =>
      rw [State.head] at there
      split at there <;> cases there
  | move moves => exact moves.not_starting there
  | @getData i answer starts more =>
      obtain rfl : i = 0 := by omega
      exact place starts
  | waited outcome waits =>
      cases outcome with
      | failed =>
          simp only [State.waited, selected_point] at there
          cases there
      | nothing =>
          simp only [State.waited] at there
          split at there
          · rw [selected_point] at there
            simp only [State.timedOut] at there
            split at there <;> cases there
          · cases there
      | available count readAvailable writeAvailable =>
          simp only [State.waited, selected_point] at there
          cases there
  | handleData answer reading reads some fits =>
      rw [State.called] at there
      split at there <;> cases there
  | wrote answer writing writes some offered =>
      rw [State.called] at there
      split at there <;> cases there
  | start _ _ => cases there
  | wait _ => cases there
  | readFailed _ => cases there
  | endOfFile _ _ _ => cases there
  | brokenPipe _ _ _ => cases there
  | writeFailed _ _ _ => cases there
  | wroteNothing _ _ _ => cases there

/-- A step in which the callback is not asked keeps what is given. -/
theorem Given.quiet (given : Given input fed) {state : State} (step : Step fed.state label state)
    (quiet : label.Quiet) (single : fed.state.locals.size = 1) : Given input ⟨state, []⟩ :=
  given.same (step.sameInputs quiet) (step_not_starting step single given.place)
    (step.waitsOpen quiet given single)

/-- What the call of the input callback changes for its process. -/
theorem getData_own (state : State) (i : Nat) (answer : GetData) :
    (state.getData i answer).locals.inputs i = state.locals.inputs i ++ answer.appended ∧
      (state.getData i answer).history.written = state.history.written ∧
      (state.getData i answer).locals.processStates = state.locals.processStates ∧
      ((state.getData i answer).locals.procs i).inOpen =
        (!answer.closes && (state.locals.procs i).inOpen) ∧
      (state.getData i answer).history.closed =
        if answer.closes = true then (i, state.history.written i) :: state.history.closed
        else state.history.closed := by
  rw [State.getData]
  dsimp only
  cases answer.closes with
  | false =>
      refine ⟨?_, rfl, rfl, rfl, rfl⟩
      exact Function.update_self _ _ _
  | true =>
      refine ⟨?_, rfl, rfl, ?_, rfl⟩
      · exact Function.update_self _ _ _
      · show (Function.update state.locals.procs i _ i).inOpen = _
        rw [Function.update_self]
        rfl

/-- The first call of the callback gives the input, or it closes the standard input at once. -/
theorem Fresh.getData (fresh : Fresh input fed) :
    Given input
      ⟨(((fed.state.getData 0 (doGetData fed.m_s
          (fed.state.locals.procs 0).inOpen).1).storeLength 0).storeOpen 0).at (.starting 1),
        (doGetData fed.m_s (fed.state.locals.procs 0).inOpen).2⟩ := by
  obtain ⟨inputs, written, -, -, closed⟩ := getData_own fed.state 0
    (doGetData fed.m_s (fed.state.locals.procs 0).inOpen).1
  rw [fresh.inputs, List.nil_append] at inputs
  have appended : (doGetData fed.m_s (fed.state.locals.procs 0).inOpen).1.appended = input := by
    rw [doGetData, fresh.member]
    split
    · rfl
    · next empty => exact (List.length_eq_zero_iff.mp (by omega)).symm
  refine ⟨?_, ?_, ?_, Or.inl ?_, ?_, ?_, ?_, waitsOpen_of_not rfl⟩
  · intro there
    cases there
  · show (doGetData fed.m_s _).2 = []
    rw [doGetData]
    split
    · rfl
    · next empty => exact List.length_eq_zero_iff.mp (Nat.eq_zero_of_not_pos empty)
  · show (fed.state.getData 0 _).history.written 0 ++ (fed.state.getData 0 _).locals.inputs 0 = _
    rw [inputs, written, fresh.written, appended, List.nil_append]
  · show (fed.state.getData 0 _).history.written 0 = []
    rw [written, fresh.written]
  · simp [State.at, State.storeOpen, State.storeLength, Locals.setState]
  · intro _ flag
    simp only [State.at, State.storeOpen, Locals.setState, Function.update_self,
      Bool.and_eq_true] at flag
    exact flag.2
  · show ∀ pair ∈ (fed.state.getData 0 _).history.closed, pair.2 = input
    rw [closed, fresh.closed, fresh.written, doGetData, fresh.member]
    split
    · exact fun pair mem => absurd mem (by simp)
    · next empty =>
        have none : input = [] := List.length_eq_zero_iff.mp (by omega)
        split
        · intro pair mem
          rw [List.mem_singleton.mp mem, none]
        · exact List.forall_mem_nil _

/-- A write that accepts something finds the whole input in the buffer. -/
theorem Given.unsent (given : Given input fed) (some : fed.state.locals.inputs 0 ≠ []) :
    fed.state.history.written 0 = [] ∧ fed.state.locals.inputs 0 = input := by
  have nothing := given.whole.resolve_right some
  have split := given.split
  rw [nothing, List.nil_append] at split
  exact ⟨nothing, split⟩

/-- After a write the callback closes the standard input, and the rest of the input is unsent. -/
theorem Given.wrote (given : Given input fed) {writerc : Nat} (some : writerc ≠ 0)
    (offered : writerc ≤ (fed.state.locals.processStates 0).availableDataLen)
    (flag : (fed.state.locals.processStates 0).inIsOpen = true) (point : Point)
    (settled : point.waits = false) (started : point ≠ .starting 0) :
    let called := (fed.state.wrote 0 writerc).getData 0
      ⟨[], (fed.state.locals.procs 0).inOpen, false⟩
    (SendsAll input ⟨(called.storeLength 0).at point, []⟩ ↔
        writerc = (fed.state.locals.processStates 0).availableDataLen) ∧
      (writerc = (fed.state.locals.processStates 0).availableDataLen →
        Given input ⟨(called.storeLength 0).at point, []⟩) := by
  intro called
  have count := given.count
  have unsent : fed.state.locals.inputs 0 ≠ [] := by
    intro none
    rw [none, List.length_nil] at count
    omega
  obtain ⟨nothing, all⟩ := given.unsent unsent
  have isOpen := given.isOpen unsent flag
  obtain ⟨inputs, written, -, -, pairs⟩ := getData_own (fed.state.wrote 0 writerc) 0
    ⟨[], (fed.state.locals.procs 0).inOpen, false⟩
  have sent : (fed.state.wrote 0 writerc).history.written 0 = input.take writerc := by
    simp only [State.wrote, Function.update_self, count, Nat.sub_self, List.drop_zero]
    rw [nothing, List.nil_append, all]
  have rest : (fed.state.wrote 0 writerc).locals.inputs 0 = input.drop writerc := by
    simp only [State.wrote, Locals.setInput, Function.update_self]
    rw [all]
  rw [rest, List.append_nil] at inputs
  have closed : called.history.closed = (0, input.take writerc) :: fed.state.history.closed := by
    refine pairs.trans ?_
    rw [if_pos isOpen, sent]
    rfl
  have goes : writerc = (fed.state.locals.processStates 0).availableDataLen →
      Given input ⟨(called.storeLength 0).at point, []⟩ := by
    intro whole
    have length : input.length ≤ writerc := by
      rw [whole, count, all]
    refine ⟨started, rfl, ?_, Or.inr ?_, ?_, ?_, ?_, waitsOpen_of_not settled⟩
    · show called.history.written 0 ++ called.locals.inputs 0 = input
      rw [written, sent, inputs, List.take_append_drop]
    · show called.locals.inputs 0 = []
      rw [inputs, List.drop_of_length_le length]
    · simp [State.at, State.storeLength, Locals.setState]
    · intro more
      refine absurd ?_ more
      show called.locals.inputs 0 = []
      rw [inputs, List.drop_of_length_le length]
    · show ∀ pair ∈ called.history.closed, pair.2 = input
      rw [closed, List.forall_mem_cons]
      exact ⟨List.take_of_length_le length, given.closed⟩
  refine ⟨⟨?_, fun whole => ⟨(goes whole).closed, (goes whole).waits⟩⟩, goes⟩
  rintro ⟨sends, -⟩
  have first : input.take writerc = input := by
    have closedAll : ∀ pair ∈ called.history.closed, pair.2 = input := sends
    rw [closed, List.forall_mem_cons] at closedAll
    exact closedAll.1
  have length := congrArg List.length first
  rw [List.length_take, ← all] at length
  omega

theorem Fed.asked_some {i : Nat} {answer : GetData} {m_s : List UInt8}
    (asked : fed.asked i answer = some m_s) :
    answer = (doGetData fed.m_s (fed.state.locals.procs i).inOpen).1 ∧
      m_s = (doGetData fed.m_s (fed.state.locals.procs i).inOpen).2 := by
  simp only [Fed.asked] at asked
  split at asked
  · next same =>
      cases asked
      exact ⟨same, rfl⟩
  · cases asked

/-- A step in which the callback is not asked is whole, and it keeps the invariant. -/
theorem Feeding.quiet (feeding : Feeding input fed) (given : Given input fed) {state : State}
    (step : Step fed.state label state) (quiet : label.Quiet) :
    Feeding input ⟨state, []⟩ where
  shaped := step.shaped feeding.shaped
  single := (step_size step).trans feeding.single
  phase := Or.inr (given.quiet step quiet feeding.single)

theorem whole_of_quiet (quiet : label.Quiet) : Whole fed label := by
  cases label with
  | write outcome answer =>
      cases outcome with
      | wrote writerc =>
          simp only [Whole]
          split
          · exact fun some => absurd quiet some
          · trivial
      | broken => trivial
      | failed => trivial
  | _ => trivial

/-- The first step of the callback gives the input. -/
theorem Fresh.step (fresh : Fresh input fed) (single : fed.state.locals.size = 1)
    (taken : fed.next label = some next) :
    Whole fed label ∧ (Fresh input next ∨ Given input next) := by
  obtain ⟨remaining, step⟩ := Fed.next_cases taken
  obtain ⟨state, m_s⟩ := next
  have place := fresh.place
  simp only at remaining step
  cases step with
  | pass later =>
      cases remaining
      exact ⟨trivial, Or.inl ⟨place, fresh.member, fresh.inputs, fresh.written, fresh.flag,
        fresh.closed⟩⟩
  | @start i starts done =>
      rw [place] at starts
      cases starts
      omega
  | @getData i answer starts more =>
      rw [place] at starts
      cases starts
      simp only [Fed.remaining, place] at remaining
      obtain ⟨rfl, rfl⟩ := Fed.asked_some remaining
      refine ⟨trivial, Or.inr ?_⟩
      have throws : (doGetData fed.m_s (fed.state.locals.procs 0).inOpen).1.throws = false := by
        rw [doGetData]
        split <;> rfl
      rw [throws]
      exact fresh.getData
  | move moves =>
      rw [place] at moves
      cases moves
  | head there => rw [place] at there; cases there
  | wait there => rw [place] at there; cases there
  | waited outcome there => rw [place] at there; cases there
  | readFailed there => rw [place] at there; cases there
  | endOfFile answer there reads => rw [place] at there; cases there
  | handleData answer there reads some fits => rw [place] at there; cases there
  | brokenPipe answer there writes => rw [place] at there; cases there
  | writeFailed answer there writes => rw [place] at there; cases there
  | wroteNothing answer there writes => rw [place] at there; cases there
  | wrote answer there writes some offered => rw [place] at there; cases there

/-- The process of a writable entry is the only one. -/
theorem Feeding.process (feeding : Feeding input fed) {round : Round} {i streamIndex : Nat}
    {point : Point} (place : fed.state.point = point) (there : point.round = some round)
    (writes : AtWrite fed.state round i streamIndex) : streamIndex = 0 := by
  have inside := feeding.shaped.at place there
  obtain ⟨so, here, waits, stream⟩ := writes.entry inside.1
  have process := inside.2 so (List.mem_of_getElem? here)
  rw [stream, feeding.single] at process
  exact Nat.lt_one_iff.mp process

/-- Nothing waits for a standard input that is broken. -/
theorem Given.brokenPipe (given : Given input fed) (point : Point)
    (settled : point.waits = false) (started : point ≠ .starting 0) :
    Given input ⟨((fed.state.usedOffset 0).brokenPipe 0).at point, []⟩ where
  place := started
  member := rfl
  split := given.split
  whole := given.whole
  count := by
    simp only [State.at, State.brokenPipe, State.usedOffset, Locals.setState, Locals.setProcess,
      Function.update_self]
    exact given.count
  isOpen := by
    intro _ flag
    simp [State.at, State.brokenPipe, State.usedOffset, Locals.setState, Locals.setProcess] at flag
  closed := given.closed
  waits := waitsOpen_of_not settled

/-- A step keeps the property exactly when it is whole. -/
theorem Feeding.step (feeding : Feeding input fed) (taken : fed.next label = some next) :
    (SendsAll input next ↔ Whole fed label) ∧ (Whole fed label → Feeding input next) := by
  obtain ⟨remaining, step⟩ := Fed.next_cases taken
  have shaped := step.shaped feeding.shaped
  have single := (step_size step).trans feeding.single
  have settled (whole : Whole fed label) (after : Feeding input next) :
      (SendsAll input next ↔ Whole fed label) ∧ (Whole fed label → Feeding input next) :=
    ⟨iff_of_true after.sendsAll whole, fun _ => after⟩
  rcases feeding.phase with fresh | given
  · obtain ⟨whole, phase⟩ := fresh.step feeding.single taken
    exact settled whole ⟨shaped, single, phase⟩
  have quietly (same : some fed.m_s = some next.m_s) (quiet : label.Quiet) :
      (SendsAll input next ↔ Whole fed label) ∧ (Whole fed label → Feeding input next) := by
    have after := feeding.quiet given step quiet
    rw [← given.member, Option.some.inj same] at after
    exact settled (whole_of_quiet quiet) after
  cases label with
  | getData answer =>
      obtain ⟨state, m_s⟩ := next
      cases step with
      | @getData i answer starts more =>
          have first : i = 0 := by
            rw [feeding.single] at more
            omega
          rw [first] at starts
          exact absurd starts given.place
  | read data answer =>
      simp only [Fed.remaining] at remaining
      split at remaining
      · next nothing => exact quietly remaining nothing
      · cases remaining
  | write outcome answer =>
      cases outcome with
      | broken =>
          have same : next.m_s = [] := by
            rw [← Option.some.inj (show some fed.m_s = some next.m_s from remaining)]
            exact given.member
          obtain ⟨state, m_s⟩ := next
          simp only at same
          subst same
          cases step with
          | brokenPipe answer place writes =>
              have process := feeding.process place rfl writes
              subst process
              refine settled trivial ⟨shaped, single, Or.inr ?_⟩
              exact given.brokenPipe _ rfl Point.noConfusion
      | failed =>
          exact quietly remaining trivial
      | wrote writerc =>
          by_cases none : writerc = 0
          · subst none
            exact quietly remaining rfl
          · obtain ⟨state, m_s⟩ := next
            cases step with
            | wroteNothing answer place writes => exact absurd rfl none
            | @wrote round i streamIndex _ availableToFind _ place writes some offered =>
                have process := feeding.process place rfl writes
                have index : streamIndex = round.outputIndexProcessIndex i := by
                  obtain ⟨so, -, -, index, -⟩ := writes
                  exact index
                have flag : (fed.state.locals.processStates streamIndex).inIsOpen = true := by
                  obtain ⟨so, -, -, -, flag⟩ := writes
                  exact flag
                simp only [Fed.remaining, if_neg none, place, ← index] at remaining
                obtain ⟨rfl, rfl⟩ := Fed.asked_some remaining
                subst process
                have both := given.wrote some offered flag
                  (.writing round (i + 1) (availableToFind - 1)) rfl Point.noConfusion
                have whole : Whole fed (.write (.wrote writerc)
                    (doGetData fed.m_s (fed.state.locals.procs 0).inOpen).1) ↔
                      writerc = (fed.state.locals.processStates 0).availableDataLen := by
                  simp only [Whole, place, ← index]
                  exact forall_prop_of_true some
                rw [given.member] at shaped single whole ⊢
                rw [whole]
                exact ⟨both.1, fun met => ⟨shaped, single, Or.inr (both.2 met)⟩⟩
  | pass now =>
      exact quietly remaining trivial
  | go =>
      exact quietly remaining trivial
  | waited outcome =>
      exact quietly remaining trivial
  | readFailed =>
      exact quietly remaining trivial

end Invariant

section Theorem

variable {input : List UInt8}

/-- A run closes the standard input only after the whole input is written, and never waits for it
afterwards, exactly when each write accepts all that it is offered. -/
theorem sendsAll_iff {start : Fed} (feeds : Feeds input start)
    {steps : List (TransitionSystem.Transition Fed Label)}
    (run : (feeding input).Run start steps) :
    (∀ step ∈ steps, SendsAll input step.target) ↔
      ∀ step ∈ steps, Whole step.source step.label := by
  refine run.property_iff_condition ?implies ?keep ?needed (feeding_start feeds)
  case implies => exact fun fed feeding => feeding.sendsAll
  case keep =>
    intro fed label next feeding taken whole
    exact (feeding.step taken).2 whole
  case needed =>
    intro fed label next feeding taken sends
    exact (feeding.step taken).1.mp sends

/-- The input has two bytes, and the process has three open pipes. -/
def twoBytes : Fed := ⟨atCall 0 (.relative none) (fun _ => ⟨true, true, true⟩) 1, [97, 98]⟩

theorem twoBytes_feeds : Feeds [97, 98] twoBytes := ⟨⟨0, .relative none, _, rfl⟩, rfl⟩

/-- The first write accepts this many bytes. -/
def accepting (writerc : Nat) : List Label :=
  [.getData ⟨[97, 98], false, false⟩, .go, .go, .go,
    .waited (.available 1 (fun _ => false) fun _ => true), .go, .go, .go, .go, .go, .go,
    .write (.wrote writerc) ⟨[], true, false⟩]

theorem sendsAll_iff_accepting :
    (∀ step ∈ TransitionSystem.follow Fed.next twoBytes (accepting 2),
        SendsAll [97, 98] step.target) ↔
      ∀ step ∈ TransitionSystem.follow Fed.next twoBytes (accepting 2),
        Whole step.source step.label :=
  sendsAll_iff twoBytes_feeds (TransitionSystem.follow_run _ _ _ _)

/-- After a partial write the callback closes the standard input. -/
theorem acceptedOne_not_sendsAll :
    ¬ ∀ (input : List UInt8) (start : Fed)
        (steps : List (TransitionSystem.Transition Fed Label)),
      Feeds input start → (feeding input).Run start steps →
        ∀ step ∈ steps, SendsAll input step.target := by
  intro all
  have sends := all [97, 98] twoBytes _ twoBytes_feeds
    (TransitionSystem.follow_run _ _ (accepting 1) twoBytes)
  have reached : (0, [97]) ∈
      ((TransitionSystem.follow Fed.next twoBytes (accepting 1)).flatMap fun step =>
        step.target.state.history.closed) := by
    decide
  obtain ⟨step, mem, closed⟩ := List.mem_flatMap.mp reached
  have whole := (sends step mem).1 _ closed
  revert whole
  decide

end Theorem

end Blocxx.Exec
