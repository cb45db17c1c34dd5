import Blocxx.Exec.Steps

/-!
This file proves that `processInputOutput` delivers the input exactly when the output callback adds
nothing to the buffer of a process whose standard input is open.
-/

namespace Blocxx.Exec

open Library

section Invariant

/-- The stored count is the size of the buffer while the standard input is open. -/
def Locals.Counted (locals : Locals) : Prop :=
  ∀ i, (locals.processStates i).inIsOpen = true →
    (locals.processStates i).availableDataLen = (locals.inputs i).length

/-- From this index on, each entry that waits for writing has bytes to offer. -/
def Locals.Offers (locals : Locals) (round : Round) (start : Nat) : Prop :=
  ∀ j, start ≤ j → ∀ so, round.selObjs[j]? = some so → so.waitForWrite = true →
    0 < (locals.processStates so.s.process).availableDataLen

/-- The round waits for writing to each process with unsent bytes and an open standard input. -/
def Locals.WaitsFor (locals : Locals) (round : Round) : Prop :=
  ∀ i < locals.size, locals.inputs i ≠ [] → (locals.procs i).inOpen = true →
    ∃ so ∈ round.selObjs, so.s = ⟨i, .in⟩ ∧ so.waitForWrite = true

def Point.Pending (locals : Locals) : Point → Prop
  | .selecting round _ => locals.Offers round 0 ∧ locals.WaitsFor round
  | .waiting round _ => locals.Offers round 0 ∧ locals.WaitsFor round
  | .reading round _ _ => locals.Offers round 0
  | .writing round i _ => locals.Offers round i
  | _ => True

/-- The function has ended, or it still runs. -/
def Point.hasEnded : Point → Bool
  | .ended _ => true
  | _ => false

structure Delivering (state : State) : Prop where
  accounted : ∀ i, state.history.written i ++ state.locals.inputs i = state.history.appended i
  inBounds : ∀ used ∈ state.history.indices, used.1 < used.2
  marked : ∀ i, (state.locals.procs i).inOpen = true →
    (state.locals.processStates i).inIsOpen = true
  counted : state.point.hasEnded = false → state.locals.Counted
  pending : state.point.Pending state.locals

end Invariant

section Rounds

variable {locals : Locals}

theorem offers_buildRound : locals.Offers (buildRound locals.processStates locals.size) 0 := by
  intro j _ so here waits
  obtain ⟨i, -, mem⟩ := mem_buildRound.mp (List.mem_of_getElem? here)
  rcases mem_entries.mp mem with ⟨-, rfl⟩ | ⟨-, rfl⟩ | ⟨-, offered, rfl⟩
  · cases waits
  · cases waits
  · exact offered

theorem waitsFor_buildRound (counted : locals.Counted)
    (marked : ∀ i, (locals.procs i).inOpen = true → (locals.processStates i).inIsOpen = true) :
    locals.WaitsFor (buildRound locals.processStates locals.size) := by
  intro i inside unsent isOpen
  have flag := marked i isOpen
  have offered : 0 < (locals.processStates i).availableDataLen := by
    rw [counted i flag]
    exact List.length_pos_iff.mpr unsent
  refine ⟨⟨⟨i, .in⟩, false, true, false, false⟩, mem_buildRound.mpr ⟨i, inside, ?_⟩, rfl, rfl⟩
  exact mem_entries.mpr (Or.inr (Or.inr ⟨flag, offered, rfl⟩))

theorem Locals.Offers.answered {round : Round} (offers : locals.Offers round 0)
    (readAvailable writeAvailable : Pipe → Bool) :
    locals.Offers (round.answered readAvailable writeAvailable) 0 := by
  intro j low so here waits
  rw [Round.answered, List.getElem?_map] at here
  obtain ⟨before, there, rfl⟩ := Option.map_eq_some_iff.mp here
  exact offers j low before there waits

/-- Entries behind the written one are of other processes. -/
theorem Locals.Offers.behind {round : Round} {i streamIndex : Nat} {changed : Locals}
    (sound : round.Sound) (offers : locals.Offers round i) {so : SelectObject}
    (here : round.selObjs[i]? = some so) (stream : so.s = ⟨streamIndex, .in⟩)
    (same : ∀ j, j ≠ streamIndex → changed.processStates j = locals.processStates j) :
    changed.Offers round (i + 1) := by
  intro j beyond other there waits
  have input := (sound.write other (List.mem_of_getElem? there)).mp waits
  have different : other.s.process ≠ streamIndex := by
    intro process
    have pipe : so.s = other.s := by
      rw [stream, ← process, ← input]
    have index := sound.index_eq here there pipe
    omega
  rw [same _ different]
  exact offers j (by omega) other there waits

end Rounds

section Changes

variable {state : State}

theorem accounted_append (i : Nat) (bytes : List UInt8)
    (accounted : ∀ j, state.history.written j ++ state.locals.inputs j = state.history.appended j)
    (j : Nat) :
    (state.append i bytes).history.written j ++ (state.append i bytes).locals.inputs j =
      (state.append i bytes).history.appended j := by
  simp only [State.append, Locals.setInput]
  by_cases same : j = i
  · subst same
    rw [Function.update_self, Function.update_self, ← accounted j, List.append_assoc]
  · rw [Function.update_of_ne same, Function.update_of_ne same]
    exact accounted j

theorem accounted_getData (i : Nat) (answer : GetData)
    (accounted : ∀ j, state.history.written j ++ state.locals.inputs j = state.history.appended j)
    (j : Nat) :
    (state.getData i answer).history.written j ++ (state.getData i answer).locals.inputs j =
      (state.getData i answer).history.appended j := by
  have appended := accounted_append i answer.appended accounted j
  simp only [State.getData]
  split
  · exact appended
  · exact appended

theorem getData_inBounds (i : Nat) (answer : GetData) :
    (state.getData i answer).history.indices = state.history.indices := by
  simp only [State.getData]
  split <;> rfl

theorem getData_processStates (i : Nat) (answer : GetData) :
    (state.getData i answer).locals.processStates = state.locals.processStates := by
  simp only [State.getData]
  split <;> rfl

/-- The input callback opens no pipe. -/
theorem getData_inOpen (i : Nat) (answer : GetData) (j : Nat)
    (isOpen : ((state.getData i answer).locals.procs j).inOpen = true) :
    (state.locals.procs j).inOpen = true := by
  simp only [State.getData] at isOpen
  split at isOpen
  · by_cases same : j = i
    · subst same
      simp [Locals.setProcess] at isOpen
    · simpa [Locals.setProcess, Function.update_of_ne same, State.append, Locals.setInput] using
        isOpen
  · exact isOpen

theorem getData_inputs (i : Nat) (answer : GetData) {j : Nat} (other : j ≠ i) :
    (state.getData i answer).locals.inputs j = state.locals.inputs j := by
  have appended : (state.append i answer.appended).locals.inputs j = state.locals.inputs j :=
    Function.update_of_ne other _ _
  simp only [State.getData]
  split <;> exact appended

/-- The assignment of the length makes the count of this process right. -/
theorem counted_storeLength (i : Nat)
    (others : ∀ j, j ≠ i → (state.locals.processStates j).inIsOpen = true →
      (state.locals.processStates j).availableDataLen = (state.locals.inputs j).length) :
    (state.storeLength i).locals.Counted := by
  intro j isOpen
  by_cases same : j = i
  · subst same
    simp [State.storeLength, Locals.setState]
  · simp only [State.storeLength, Locals.setState, Function.update_of_ne same] at isOpen ⊢
    exact others j same isOpen

theorem storeLength_inIsOpen (i j : Nat) :
    ((state.storeLength i).locals.processStates j).inIsOpen =
      (state.locals.processStates j).inIsOpen := by
  by_cases same : j = i
  · subst same
    simp [State.storeLength, Locals.setState]
  · simp [State.storeLength, Locals.setState, Function.update_of_ne same]

theorem counted_storeOpen (i : Nat) (counted : state.locals.Counted) :
    (state.storeOpen i).locals.Counted := by
  intro j isOpen
  by_cases same : j = i
  · subst same
    simp only [State.storeOpen, Locals.setState, Function.update_self, Bool.and_eq_true] at isOpen ⊢
    exact counted j isOpen.1
  · simp only [State.storeOpen, Locals.setState, Function.update_of_ne same] at isOpen ⊢
    exact counted j isOpen

theorem marked_storeOpen (i : Nat)
    (marked : ∀ j, (state.locals.procs j).inOpen = true →
      (state.locals.processStates j).inIsOpen = true) (j : Nat)
    (isOpen : (state.locals.procs j).inOpen = true) :
    ((state.storeOpen i).locals.processStates j).inIsOpen = true := by
  have flag := marked j isOpen
  by_cases same : j = i
  · subst same
    simp [State.storeOpen, Locals.setState, flag, isOpen]
  · simpa [State.storeOpen, Locals.setState, Function.update_of_ne same] using flag

theorem Delivering.counted_at (delivering : Delivering state) {point : Point}
    (place : state.point = point) (working : point.hasEnded = false) : state.locals.Counted := by
  apply delivering.counted
  rw [place]
  exact working

/-- The offset that a write uses is the start of a buffer that is not empty. -/
theorem Delivering.offset (delivering : Delivering state) {round : Round} {i streamIndex : Nat}
    {availableToFind : Int} (place : state.point = .writing round i availableToFind)
    (writes : AtWrite state round i streamIndex) (sound : round.Sound) :
    (state.locals.inputs streamIndex).length -
        (state.locals.processStates streamIndex).availableDataLen = 0 ∧
      0 < (state.locals.inputs streamIndex).length := by
  have pending := delivering.pending
  rw [place] at pending
  obtain ⟨so, here, waits, stream⟩ := writes.entry sound
  have offered := pending i le_rfl so here waits
  rw [stream] at offered
  obtain ⟨-, -, -, -, isOpen⟩ := writes
  have counted := delivering.counted_at place rfl streamIndex isOpen
  simp only at offered
  omega

theorem delivering_usedOffset (delivering : Delivering state) {streamIndex : Nat}
    (offset : (state.locals.inputs streamIndex).length -
        (state.locals.processStates streamIndex).availableDataLen = 0 ∧
      0 < (state.locals.inputs streamIndex).length) :
    Delivering (state.usedOffset streamIndex) where
  accounted := delivering.accounted
  inBounds := by
    show ∀ used ∈ (_, _) :: state.history.indices, _
    rw [List.forall_mem_cons]
    exact ⟨by omega, delivering.inBounds⟩
  marked := delivering.marked
  counted := delivering.counted
  pending := delivering.pending

/-- A move to another point needs only what that point promises. -/
theorem Delivering.at (delivering : Delivering state) {point : Point}
    (working : point.hasEnded = false → state.point.hasEnded = false)
    (pending : point.Pending state.locals) : Delivering (state.at point) where
  accounted := delivering.accounted
  inBounds := delivering.inBounds
  marked := delivering.marked
  counted := fun reached => delivering.counted (working reached)
  pending := pending

theorem Delivering.ended (delivering : Delivering state) (ending : Ending) :
    Delivering (state.at (.ended ending)) :=
  delivering.at (fun working => by cases working) trivial

theorem Delivering.selected {after : State} (delivering : Delivering after) :
    Delivering (state.selected after) := by
  rw [State.selected]
  split
  · exact ⟨delivering.accounted, delivering.inBounds, delivering.marked, delivering.counted,
      delivering.pending⟩
  · exact delivering

/-- What `selectRW` answers changes no buffer. -/
theorem Delivering.waited (delivering : Delivering state) {round : Round} {timer : TimeoutTimer}
    (place : state.point = .waiting round timer) (outcome : Outcome) :
    Delivering (state.waited round timer outcome) := by
  have pending := delivering.pending
  rw [place] at pending
  have counted := delivering.counted_at place rfl
  cases outcome with
  | failed => exact (delivering.ended _).selected
  | nothing =>
      simp only [State.waited]
      split
      · refine Delivering.selected ⟨delivering.accounted, delivering.inBounds, delivering.marked,
          fun _ => counted, ?_⟩
        simp only [State.timedOut]
        split <;> trivial
      · exact delivering.at (fun _ => by rw [place]; rfl) pending
  | available count readAvailable writeAvailable =>
      refine Delivering.selected ⟨delivering.accounted, delivering.inBounds, delivering.marked,
        fun _ => counted, ?_⟩
      exact pending.1.answered readAvailable writeAvailable

end Changes

section Steps

/-- The output callback appends nothing to the buffer of a process whose standard input is open. -/
def Silent (state : State) : Label → Prop
  | .read data answer =>
      match state.point with
      | .reading round i _ =>
          data ≠ [] → answer.appended ≠ [] →
            (state.locals.processStates (round.inputIndexProcessIndex i)).inIsOpen = false
      | _ => True
  | _ => True

/-- The call of the input callback before the loop. -/
theorem Delivering.getData {state : State} (delivering : Delivering state) {i : Nat}
    (answer : GetData) (place : state.point = .starting i) :
    Delivering ((state.getData i answer).called answer.throws
      ((((state.getData i answer).storeLength i).storeOpen i).at (.starting (i + 1)))) := by
  have counted := delivering.counted_at place rfl
  have accounted := accounted_getData i answer delivering.accounted
  have inBounds : ∀ used ∈ (state.getData i answer).history.indices, used.1 < used.2 := by
    rw [getData_inBounds]
    exact delivering.inBounds
  have marked : ∀ j, ((state.getData i answer).locals.procs j).inOpen = true →
      ((state.getData i answer).locals.processStates j).inIsOpen = true := by
    intro j isOpen
    rw [getData_processStates]
    exact delivering.marked j (getData_inOpen i answer j isOpen)
  rw [State.called]
  split
  · exact ⟨accounted, inBounds, marked, (fun working => by cases working), trivial⟩
  · have stored : ((state.getData i answer).storeLength i).locals.Counted := by
      apply counted_storeLength
      intro j other isOpen
      rw [getData_processStates] at isOpen ⊢
      rw [getData_inputs i answer other]
      exact counted j isOpen
    have stays : ∀ j, (((state.getData i answer).storeLength i).locals.procs j).inOpen = true →
        (((state.getData i answer).storeLength i).locals.processStates j).inIsOpen = true := by
      intro j isOpen
      rw [storeLength_inIsOpen]
      exact marked j isOpen
    exact ⟨accounted, inBounds, marked_storeOpen i stays, fun _ => counted_storeOpen i stored,
      trivial⟩

/-- The end of an output changes nothing about the input. -/
theorem Delivering.endOfFile {state : State} (delivering : Delivering state) (streamIndex : Nat)
    (pipe : Pipe) : Delivering (state.endOfFile streamIndex pipe) := by
  have flags (j : Nat) :
      ((state.endOfFile streamIndex pipe).locals.processStates j).inIsOpen =
          (state.locals.processStates j).inIsOpen ∧
        ((state.endOfFile streamIndex pipe).locals.processStates j).availableDataLen =
          (state.locals.processStates j).availableDataLen ∧
        ((state.endOfFile streamIndex pipe).locals.procs j).inOpen =
          (state.locals.procs j).inOpen := by
    simp only [State.endOfFile, Locals.setState, Locals.setProcess]
    by_cases same : j = streamIndex
    · subst same
      split <;> simp
    · split <;> simp [Function.update_of_ne same]
  have inputs : (state.endOfFile streamIndex pipe).locals.inputs = state.locals.inputs := by
    simp only [State.endOfFile]
    split <;> rfl
  have size : (state.endOfFile streamIndex pipe).locals.size = state.locals.size := by
    simp only [State.endOfFile]
    split <;> rfl
  have offers (round : Round) (start : Nat) (before : state.locals.Offers round start) :
      (state.endOfFile streamIndex pipe).locals.Offers round start := by
    intro j low so here waits
    rw [(flags so.s.process).2.1]
    exact before j low so here waits
  have waitsFor (round : Round) (before : state.locals.WaitsFor round) :
      (state.endOfFile streamIndex pipe).locals.WaitsFor round := by
    intro j inside unsent isOpen
    rw [size] at inside
    rw [inputs] at unsent
    rw [(flags j).2.2] at isOpen
    exact before j inside unsent isOpen
  refine ⟨?_, delivering.inBounds, ?_, ?_, ?_⟩
  · rw [inputs]
    exact delivering.accounted
  · intro j isOpen
    rw [(flags j).2.2] at isOpen
    rw [(flags j).1]
    exact delivering.marked j isOpen
  · intro working j isOpen
    rw [(flags j).1] at isOpen
    rw [(flags j).2.1, inputs]
    exact delivering.counted working j isOpen
  · have pending := delivering.pending
    show state.point.Pending _
    cases place : state.point with
    | selecting round timer =>
        rw [place] at pending
        exact ⟨offers round 0 pending.1, waitsFor round pending.2⟩
    | waiting round timer =>
        rw [place] at pending
        exact ⟨offers round 0 pending.1, waitsFor round pending.2⟩
    | reading round i availableToFind =>
        rw [place] at pending
        exact offers round 0 pending
    | writing round i availableToFind =>
        rw [place] at pending
        exact offers round i pending
    | starting i => trivial
    | loopHead => trivial
    | ended ending => trivial

/-- A silent output callback leaves the buffers that are still to be written. -/
theorem Delivering.handleData {state : State} (delivering : Delivering state) {round : Round}
    {i streamIndex : Nat} {availableToFind : Int} (pipe : Pipe) (data : List UInt8)
    {answer : HandleData} (place : state.point = .reading round i availableToFind)
    (silent : answer.appended ≠ [] →
      (state.locals.processStates streamIndex).inIsOpen = false) :
    Delivering (state.handleData streamIndex pipe data answer) := by
  have counted := delivering.counted_at place rfl
  have pending := delivering.pending
  rw [place] at pending
  refine ⟨accounted_append streamIndex answer.appended delivering.accounted, delivering.inBounds,
    delivering.marked, ?_, ?_⟩
  · intro _ j isOpen
    show (state.locals.processStates j).availableDataLen = (Function.update state.locals.inputs
      streamIndex (state.locals.inputs streamIndex ++ answer.appended) j).length
    by_cases same : j = streamIndex
    · subst same
      have nothing : answer.appended = [] := by
        by_contra some
        have closed := silent some
        rw [show (state.locals.processStates j).inIsOpen = true from isOpen] at closed
        cases closed
      rw [Function.update_self, nothing, List.append_nil]
      exact counted j isOpen
    · rw [Function.update_of_ne same]
      exact counted j isOpen
  · show state.point.Pending _
    rw [place]
    exact pending

theorem Delivering.brokenPipe {state : State} (delivering : Delivering state) {round : Round}
    {i streamIndex : Nat} {availableToFind : Int}
    (place : state.point = .writing round i availableToFind) :
    Delivering (state.brokenPipe streamIndex) := by
  have counted := delivering.counted_at place rfl
  have pending := delivering.pending
  rw [place] at pending
  refine ⟨delivering.accounted, delivering.inBounds, ?_, ?_, ?_⟩
  · intro j isOpen
    simp only [State.brokenPipe, Locals.setState, Locals.setProcess] at isOpen ⊢
    by_cases same : j = streamIndex
    · subst same
      simp at isOpen
    · rw [Function.update_of_ne same] at isOpen ⊢
      exact delivering.marked j isOpen
  · intro _ j isOpen
    simp only [State.brokenPipe, Locals.setState, Locals.setProcess] at isOpen ⊢
    by_cases same : j = streamIndex
    · subst same
      simp at isOpen
    · rw [Function.update_of_ne same] at isOpen ⊢
      exact counted j isOpen
  · show state.point.Pending _
    rw [place]
    intro j low so here waits
    have offered := pending j low so here waits
    simp only [State.brokenPipe, Locals.setState, Locals.setProcess]
    by_cases same : so.s.process = streamIndex
    · rw [same] at offered ⊢
      rw [Function.update_self]
      exact offered
    · rw [Function.update_of_ne same]
      exact offered

/-- A write sends the front of the buffer, and the input callback is asked for more. -/
theorem Delivering.wrote {state : State} (delivering : Delivering state) {round : Round}
    {i streamIndex writerc : Nat} {availableToFind : Int} (answer : GetData) (next : Int)
    (place : state.point = .writing round i availableToFind)
    (writes : AtWrite state round i streamIndex) (sound : round.Sound) :
    Delivering (((state.wrote streamIndex writerc).getData streamIndex answer).called answer.throws
      ((((state.wrote streamIndex writerc).getData streamIndex answer).storeLength
        streamIndex).at (.writing round (i + 1) next))) := by
  have counted := delivering.counted_at place rfl
  have pending := delivering.pending
  rw [place] at pending
  obtain ⟨so, here, waits, stream⟩ := writes.entry sound
  have offset := delivering.offset place writes sound
  have sent : ∀ j, (state.wrote streamIndex writerc).history.written j ++
      (state.wrote streamIndex writerc).locals.inputs j =
        (state.wrote streamIndex writerc).history.appended j := by
    intro j
    simp only [State.wrote, Locals.setInput]
    by_cases same : j = streamIndex
    · subst same
      rw [Function.update_self, Function.update_self, offset.1, List.drop_zero, List.append_assoc,
        List.take_append_drop]
      exact delivering.accounted j
    · rw [Function.update_of_ne same, Function.update_of_ne same]
      exact delivering.accounted j
  have accounted := accounted_getData streamIndex answer sent
  have inBounds : ∀ used ∈ ((state.wrote streamIndex writerc).getData streamIndex
      answer).history.indices, used.1 < used.2 := by
    rw [getData_inBounds]
    show ∀ used ∈ (_, _) :: state.history.indices, _
    rw [List.forall_mem_cons]
    exact ⟨by omega, delivering.inBounds⟩
  have marked : ∀ j,
      (((state.wrote streamIndex writerc).getData streamIndex answer).locals.procs j).inOpen =
        true →
      (((state.wrote streamIndex writerc).getData streamIndex
        answer).locals.processStates j).inIsOpen = true := by
    intro j isOpen
    rw [getData_processStates]
    have before := getData_inOpen streamIndex answer j isOpen
    exact delivering.marked j before
  rw [State.called]
  split
  · exact ⟨accounted, inBounds, marked, (fun working => by cases working), trivial⟩
  · refine ⟨accounted, inBounds, ?_, ?_, ?_⟩
    · intro j isOpen
      show (((State.storeLength _ streamIndex).locals.processStates j).inIsOpen) = true
      rw [storeLength_inIsOpen]
      exact marked j isOpen
    · intro _
      apply counted_storeLength
      intro j other isOpen
      rw [getData_processStates] at isOpen ⊢
      rw [getData_inputs streamIndex answer other]
      show _ = (Function.update state.locals.inputs streamIndex _ j).length
      rw [Function.update_of_ne other]
      exact counted j isOpen
    · refine Locals.Offers.behind sound pending here stream ?_
      intro j other
      show Function.update _ streamIndex _ j = _
      rw [Function.update_of_ne other, getData_processStates]
      rfl

/-- The loop over the writable entries goes on. -/
theorem Delivering.skipWrite {state : State} (delivering : Delivering state) {round : Round}
    {i : Nat} {availableToFind next : Int} (place : state.point = .writing round i availableToFind) :
    Delivering (state.at (.writing round (i + 1) next)) := by
  have pending := delivering.pending
  rw [place] at pending
  refine delivering.at (fun _ => by rw [place]; rfl) ?_
  intro j low so here waits
  exact pending j (by omega) so here waits

theorem Delivering.move {state : State} (delivering : Delivering state) {point : Point}
    (moves : Moves state.point point) : Delivering (state.at point) := by
  have pending := delivering.pending
  cases place : state.point with
  | reading round i availableToFind =>
      rw [place] at moves pending
      have working : state.point.hasEnded = false := by rw [place]; rfl
      cases moves with
      | skipRead => exact delivering.at (fun _ => working) pending
      | endReads => exact delivering.at (fun _ => working) pending
  | writing round i availableToFind =>
      rw [place] at moves pending
      have working : state.point.hasEnded = false := by rw [place]; rfl
      cases moves with
      | skipWrite => exact delivering.skipWrite place
      | endWrites => exact delivering.at (fun _ => working) trivial
  | _ =>
      rw [place] at moves
      cases moves

theorem Delivering.step {state next : State} {label : Label} (delivering : Delivering state)
    (step : Step state label next) (shaped : state.Shaped) (silent : Silent state label) :
    Delivering next := by
  cases step with
  | pass later =>
      exact ⟨delivering.accounted, delivering.inBounds, delivering.marked, delivering.counted,
        delivering.pending⟩
  | start place done =>
      exact ⟨delivering.accounted, delivering.inBounds, delivering.marked,
        fun _ => delivering.counted_at place rfl, trivial⟩
  | head place =>
      have counted := delivering.counted_at place rfl
      rw [State.head]
      split
      · exact ⟨delivering.accounted, delivering.inBounds, delivering.marked, fun _ => counted,
          offers_buildRound, waitsFor_buildRound counted delivering.marked⟩
      · exact delivering.ended _
  | wait place =>
      have pending := delivering.pending
      rw [place] at pending
      exact ⟨delivering.accounted, delivering.inBounds, delivering.marked,
        fun _ => delivering.counted_at place rfl, pending⟩
  | move moves => exact delivering.move moves
  | getData answer place more => exact delivering.getData answer place
  | waited outcome place => exact delivering.waited place outcome
  | readFailed place => exact delivering.ended _
  | @endOfFile round i streamIndex _ pipe answer place reads =>
      have after := delivering.endOfFile streamIndex pipe
      have same : (state.endOfFile streamIndex pipe).point = state.point := rfl
      rw [place] at same
      have pending := after.pending
      rw [same] at pending
      exact after.at (fun _ => by rw [same]; rfl) pending
  | @handleData round i streamIndex _ pipe data answer place reads some fits =>
      have index : streamIndex = round.inputIndexProcessIndex i := by
        obtain ⟨so, -, -, index, -⟩ := reads
        exact index
      simp only [Silent, place] at silent
      rw [← index] at silent
      have after := delivering.handleData pipe data place (silent some)
      have same : (state.handleData streamIndex pipe data answer).point = state.point := rfl
      rw [place] at same
      have pending := after.pending
      rw [same] at pending
      rw [State.called]
      split
      · exact after.ended _
      · exact after.at (fun _ => by rw [same]; rfl) pending
  | @brokenPipe round i streamIndex _ answer place writes =>
      have offset := delivering.offset place writes (shaped.at place rfl).1
      have used := delivering_usedOffset delivering offset
      have same : (state.usedOffset streamIndex).point = state.point := rfl
      rw [place] at same
      exact (used.brokenPipe same).skipWrite same
  | writeFailed answer place writes =>
      have offset := delivering.offset place writes (shaped.at place rfl).1
      exact (delivering_usedOffset delivering offset).ended _
  | @wroteNothing round i streamIndex _ answer place writes =>
      have offset := delivering.offset place writes (shaped.at place rfl).1
      have used := delivering_usedOffset delivering offset
      have same : (state.usedOffset streamIndex).point = state.point := rfl
      rw [place] at same
      exact used.skipWrite same
  | wrote answer place writes some offered =>
      exact delivering.wrote answer _ place writes (shaped.at place rfl).1

end Steps

theorem delivering_atCall {start : State} (initial : AtCall start) : Delivering start := by
  obtain ⟨clock, timeout, procs, size, rfl⟩ := initial
  refine ⟨fun i => rfl, ?_, fun i _ => rfl, fun _ i _ => rfl, trivial⟩
  intro used mem
  cases mem

/-- The bytes written and the bytes in the buffer are all that were appended, each index lies in
its buffer, and the round waits for writing to each process with unsent bytes. -/
def DeliversExactly (state : State) : Prop :=
  (∀ i, state.history.written i ++ state.locals.inputs i = state.history.appended i) ∧
    (∀ used ∈ state.history.indices, used.1 < used.2) ∧
    ∀ round timer, state.point = .selecting round timer ∨ state.point = .waiting round timer →
      state.locals.WaitsFor round

theorem Delivering.exactly {state : State} (delivering : Delivering state) :
    DeliversExactly state := by
  refine ⟨delivering.accounted, delivering.inBounds, ?_⟩
  intro round timer place
  have pending := delivering.pending
  rcases place with place | place
  · rw [place] at pending
    exact pending.2
  · rw [place] at pending
    exact pending.2

/-- A run delivers the input exactly while the output callback is silent about the processes whose
standard input is open. -/
theorem deliversExactly_of_silent {start : State} (initial : AtCall start)
    {steps : List (TransitionSystem.Transition State Label)} (run : system.Run start steps)
    (silent : ∀ step ∈ steps, Silent step.source step.label) :
    ∀ step ∈ steps, DeliversExactly step.target := by
  have keep : ∀ state label next, Delivering state ∧ state.Shaped →
      system.step state label next → Silent state label → Delivering next ∧ next.Shaped := by
    intro state label next both taken silent
    have step := step_of_next taken
    exact ⟨both.1.step step both.2 silent, step.shaped both.2⟩
  have kept := run.invariant keep ⟨delivering_atCall initial, shaped_atCall initial⟩ silent
  exact fun step mem => (kept step mem).1.exactly

section Interleaved

/-- One process with three open pipes. -/
def oneProcess : State := atCall 0 (.relative none) (fun _ => ⟨true, true, true⟩) 1

theorem oneProcess_atCall : AtCall oneProcess := ⟨0, .relative none, _, 1, rfl⟩

/-- The input callback gives two bytes, the process prints one, the output callback answers these,
and the process takes two. -/
def conversation (answer : List UInt8) : List Label :=
  [.getData ⟨[97, 98], false, false⟩, .go, .go, .go,
    .waited (.available 2 (fun pipe => pipe.stream == .out) fun _ => true),
    .read [120] ⟨answer, false⟩, .go, .go, .go, .go, .go,
    .write (.wrote 2) ⟨[], false, false⟩]

/-- An output callback that appends nothing is silent. -/
theorem silent_of_nothing {state : State} {label : Label}
    (nothing : ∀ data answer, label = .read data answer → answer.appended = []) :
    Silent state label := by
  cases label with
  | read data answer =>
      simp only [Silent]
      split
      · intro _ some
        exact absurd (nothing data answer rfl) some
      · trivial
  | _ => trivial

/-- With a silent output callback the whole conversation takes place, and delivers exactly. -/
theorem deliversExactly_of_silent_conversation :
    (TransitionSystem.follow State.next oneProcess (conversation [])).length = 12 ∧
      ∀ step ∈ TransitionSystem.follow State.next oneProcess (conversation []),
        DeliversExactly step.target := by
  refine ⟨by decide, ?_⟩
  refine deliversExactly_of_silent oneProcess_atCall (TransitionSystem.follow_run _ _ _ _) ?_
  intro step mem
  have label := TransitionSystem.follow_label _ step mem
  apply silent_of_nothing
  intro data answer same
  rw [same] at label
  simp [conversation] at label
  rw [label.2]

/-- The answer of the output callback is sent first, and then again. -/
theorem conversation_not_deliversExactly :
    ¬ ∀ (start : State) (steps : List (TransitionSystem.Transition State Label)),
      AtCall start → system.Run start steps → ∀ step ∈ steps, DeliversExactly step.target := by
  intro all
  have exactly := all oneProcess _ oneProcess_atCall
    (TransitionSystem.follow_run _ _ (conversation [99, 100]) oneProcess)
  have reached : ([99, 100], [99, 100], [97, 98, 99, 100]) ∈
      (TransitionSystem.follow State.next oneProcess (conversation [99, 100])).map fun step =>
        (step.target.history.written 0, step.target.locals.inputs 0,
          step.target.history.appended 0) := by
    decide
  obtain ⟨step, mem, same⟩ := List.mem_map.mp reached
  have kept := (exactly step mem).1 0
  simp only [Prod.mk.injEq] at same
  rw [same.1, same.2.1, same.2.2] at kept
  revert kept
  decide

end Interleaved

end Blocxx.Exec
