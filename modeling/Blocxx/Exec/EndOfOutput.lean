import Blocxx.Exec.Steps

/-!
This file proves that the loop of `processInputOutput` counts its open pipes exactly when all
outputs are open at the call, and that all data read are handed on once.
-/

namespace Blocxx.Exec

open Library

section Counting

/-- The number of the flags of outputs that are true. -/
def Locals.openOutputs (locals : Locals) : Nat :=
  ∑ i ∈ Finset.range locals.size,
    ((locals.processStates i).outIsOpen.toNat + (locals.processStates i).errIsOpen.toNat)

/-- A sum becomes smaller by one when one of its terms does. -/
theorem sum_range_decrease {f g : Nat → Nat} {size i : Nat} (inside : i < size)
    (others : ∀ j, j ≠ i → g j = f j) (self : g i + 1 = f i) :
    ∑ j ∈ Finset.range size, g j + 1 = ∑ j ∈ Finset.range size, f j := by
  have mem := Finset.mem_range.mpr inside
  rw [← Finset.add_sum_erase _ g mem, ← Finset.add_sum_erase _ f mem]
  have rest : ∑ j ∈ (Finset.range size).erase i, g j = ∑ j ∈ (Finset.range size).erase i, f j := by
    apply Finset.sum_congr rfl
    intro j away
    exact others j (Finset.ne_of_mem_erase away)
  omega

/-- All flags are true when their number is the greatest possible. -/
theorem all_open_of_openOutputs {locals : Locals} (all : locals.openOutputs = 2 * locals.size) :
    ∀ i < locals.size, (locals.processStates i).outIsOpen = true ∧
      (locals.processStates i).errIsOpen = true := by
  intro i inside
  have terms : ∀ j ∈ Finset.range locals.size, ((locals.processStates j).outIsOpen.toNat +
      (locals.processStates j).errIsOpen.toNat) ≤ 2 := by
    intro j _
    have out := Bool.toNat_le (locals.processStates j).outIsOpen
    have err := Bool.toNat_le (locals.processStates j).errIsOpen
    omega
  have most : ∑ j ∈ Finset.range locals.size, 2 = 2 * locals.size := by
    rw [Finset.sum_const, Finset.card_range, smul_eq_mul, Nat.mul_comm]
  have each := (Finset.sum_eq_sum_iff_of_le terms).mp (all.trans most.symm) i
    (Finset.mem_range.mpr inside)
  have out := Bool.toNat_le (locals.processStates i).outIsOpen
  have err := Bool.toNat_le (locals.processStates i).errIsOpen
  exact ⟨Bool.toNat_eq_one.mp (by omega), Bool.toNat_eq_one.mp (by omega)⟩

theorem openOutputs_of_all_open {locals : Locals}
    (all : ∀ i < locals.size, (locals.processStates i).outIsOpen = true ∧
      (locals.processStates i).errIsOpen = true) :
    locals.openOutputs = 2 * locals.size := by
  have terms : ∀ j ∈ Finset.range locals.size, ((locals.processStates j).outIsOpen.toNat +
      (locals.processStates j).errIsOpen.toNat) = 2 := by
    intro j mem
    have flags := all j (Finset.mem_range.mp mem)
    rw [flags.1, flags.2]
    rfl
  rw [Locals.openOutputs, Finset.sum_congr rfl terms, Finset.sum_const, Finset.card_range,
    smul_eq_mul, Nat.mul_comm]

/-- No flag is true when their number is zero. -/
theorem openOutputs_eq_zero_iff (locals : Locals) :
    locals.openOutputs = 0 ↔ ∀ i < locals.size, (locals.processStates i).outIsOpen = false ∧
      (locals.processStates i).errIsOpen = false := by
  rw [Locals.openOutputs, Finset.sum_eq_zero_iff]
  simp only [Finset.mem_range, Nat.add_eq_zero_iff, Bool.toNat_eq_zero]

end Counting

section Property

/-- The output has reached its end, or it was closed at the call. -/
def AtEnd (procs : Nat → Process) (history : History) (i : Nat) : Prop :=
  (history.ended ⟨i, .out⟩ = true ∨ (procs i).outOpen = false) ∧
    (history.ended ⟨i, .err⟩ = true ∨ (procs i).errOpen = false)

/-- The call of `handleData` for data that were read from a pipe. -/
def handing (read : Pipe × List UInt8) : Handled :=
  ⟨read.2, if read.1.stream = .out then .E_STDOUT else .E_STDERR, read.1.process⟩

/-- The loop counts the open outputs and ends at the end of all, and all data are handed on. -/
structure EndsWithOutput (procs : Nat → Process) (state : State) : Prop where
  counted : state.point = .loopHead →
    state.locals.numOpenPipes = (state.locals.openOutputs : Int)
  ends : state.point = .loopHead →
    (state.locals.numOpenPipes ≤ 0 ↔ ∀ i < state.locals.size, AtEnd procs state.history i)
  returned : state.point = .ended .returned →
    ∀ i < state.locals.size, AtEnd procs state.history i
  handed : state.history.handled = state.history.read.map handing

end Property

section Invariant

/-- All outputs of the processes are open. -/
def AllOpen (procs : Nat → Process) (size : Nat) : Prop :=
  ∀ i < size, (procs i).outOpen = true ∧ (procs i).errOpen = true

/-- The outputs are still open before the loop, and the function returns when none is. -/
def Point.Promises (locals : Locals) : Point → Prop
  | .starting _ => AllOpen locals.procs locals.size
  | .ended ending => ending = .returned → locals.numOpenPipes ≤ 0
  | _ => True

/-- The flags tell which pipes have not reached their end, and the count is that of the flags. -/
structure Tracked (state : State) : Prop where
  counted : state.locals.numOpenPipes = (state.locals.openOutputs : Int)
  flags : ∀ i < state.locals.size,
    (state.locals.processStates i).outIsOpen = !state.history.ended ⟨i, .out⟩ ∧
      (state.locals.processStates i).errIsOpen = !state.history.ended ⟨i, .err⟩
  handed : state.history.handled = state.history.read.map handing
  promises : state.point.Promises state.locals

end Invariant

section Changes

/-- A part of the code that leaves the outputs alone. -/
structure SameOutputs (state after : State) : Prop where
  size : after.locals.size = state.locals.size
  numOpenPipes : after.locals.numOpenPipes = state.locals.numOpenPipes
  flags : ∀ i, (after.locals.processStates i).outIsOpen =
      (state.locals.processStates i).outIsOpen ∧
    (after.locals.processStates i).errIsOpen = (state.locals.processStates i).errIsOpen
  procs : ∀ i, (after.locals.procs i).outOpen = (state.locals.procs i).outOpen ∧
    (after.locals.procs i).errOpen = (state.locals.procs i).errOpen
  ended : after.history.ended = state.history.ended
  handled : after.history.handled = state.history.handled
  read : after.history.read = state.history.read

variable {state after : State}

theorem SameOutputs.trans {last : State} (first : SameOutputs state after)
    (second : SameOutputs after last) : SameOutputs state last where
  size := second.size.trans first.size
  numOpenPipes := second.numOpenPipes.trans first.numOpenPipes
  flags i := ⟨(second.flags i).1.trans (first.flags i).1, (second.flags i).2.trans (first.flags i).2⟩
  procs i := ⟨(second.procs i).1.trans (first.procs i).1, (second.procs i).2.trans (first.procs i).2⟩
  ended := second.ended.trans first.ended
  handled := second.handled.trans first.handled
  read := second.read.trans first.read

theorem SameOutputs.openOutputs (same : SameOutputs state after) :
    after.locals.openOutputs = state.locals.openOutputs := by
  rw [Locals.openOutputs, Locals.openOutputs, same.size]
  apply Finset.sum_congr rfl
  intro i _
  rw [(same.flags i).1, (same.flags i).2]

/-- The outputs stay tracked at a point whose promises are kept. -/
theorem Tracked.same (tracked : Tracked state) (same : SameOutputs state after)
    (promises : after.point.Promises after.locals) : Tracked after where
  counted := by
    rw [same.numOpenPipes, same.openOutputs]
    exact tracked.counted
  flags := by
    intro i inside
    rw [same.size] at inside
    rw [(same.flags i).1, (same.flags i).2, same.ended]
    exact tracked.flags i inside
  handed := by
    rw [same.handled, same.read]
    exact tracked.handed
  promises := promises

theorem sameOutputs_at (point : Point) : SameOutputs state (state.at point) :=
  ⟨rfl, rfl, fun _ => ⟨rfl, rfl⟩, fun _ => ⟨rfl, rfl⟩, rfl, rfl, rfl⟩

theorem sameOutputs_append (state : State) (i : Nat) (bytes : List UInt8) :
    SameOutputs state (state.append i bytes) :=
  ⟨rfl, rfl, fun _ => ⟨rfl, rfl⟩, fun _ => ⟨rfl, rfl⟩, rfl, rfl, rfl⟩

theorem sameOutputs_usedOffset (state : State) (i : Nat) : SameOutputs state (state.usedOffset i) :=
  ⟨rfl, rfl, fun _ => ⟨rfl, rfl⟩, fun _ => ⟨rfl, rfl⟩, rfl, rfl, rfl⟩

theorem sameOutputs_wrote (state : State) (i writerc : Nat) : SameOutputs state (state.wrote i writerc) :=
  ⟨rfl, rfl, fun _ => ⟨rfl, rfl⟩, fun _ => ⟨rfl, rfl⟩, rfl, rfl, rfl⟩

theorem sameOutputs_storeLength (state : State) (i : Nat) : SameOutputs state (state.storeLength i) where
  size := rfl
  numOpenPipes := rfl
  flags j := by
    show (Function.update state.locals.processStates i _ j).outIsOpen = _ ∧
      (Function.update state.locals.processStates i _ j).errIsOpen = _
    exact ⟨update_field ProcessOutputState.outIsOpen (by rfl) j,
      update_field ProcessOutputState.errIsOpen (by rfl) j⟩
  procs _ := ⟨rfl, rfl⟩
  ended := rfl
  handled := rfl
  read := rfl

/-- The flags of open outputs stay. -/
theorem sameOutputs_storeOpen (state : State) (i : Nat)
    (out : (state.locals.procs i).outOpen = true)
    (err : (state.locals.procs i).errOpen = true) : SameOutputs state (state.storeOpen i) where
  size := rfl
  numOpenPipes := rfl
  flags j := by
    show (Function.update state.locals.processStates i _ j).outIsOpen = _ ∧
      (Function.update state.locals.processStates i _ j).errIsOpen = _
    constructor
    · apply update_field ProcessOutputState.outIsOpen
      show ((state.locals.processStates i).outIsOpen && (state.locals.procs i).outOpen) = _
      rw [out, Bool.and_true]
    · apply update_field ProcessOutputState.errIsOpen
      show ((state.locals.processStates i).errIsOpen && (state.locals.procs i).errOpen) = _
      rw [err, Bool.and_true]
  procs _ := ⟨rfl, rfl⟩
  ended := rfl
  handled := rfl
  read := rfl

theorem sameOutputs_brokenPipe (state : State) (i : Nat) : SameOutputs state (state.brokenPipe i) where
  size := rfl
  numOpenPipes := rfl
  flags j := by
    show (Function.update state.locals.processStates i _ j).outIsOpen = _ ∧
      (Function.update state.locals.processStates i _ j).errIsOpen = _
    exact ⟨update_field ProcessOutputState.outIsOpen (by rfl) j,
      update_field ProcessOutputState.errIsOpen (by rfl) j⟩
  procs j := by
    show (Function.update state.locals.procs i _ j).outOpen = _ ∧
      (Function.update state.locals.procs i _ j).errOpen = _
    exact ⟨update_field Process.outOpen (by rfl) j, update_field Process.errOpen (by rfl) j⟩
  ended := rfl
  handled := rfl
  read := rfl

theorem sameOutputs_getData (state : State) (i : Nat) (answer : GetData) :
    SameOutputs state (state.getData i answer) := by
  have appended := sameOutputs_append state i answer.appended
  rw [State.getData]
  split
  · refine appended.trans ⟨rfl, rfl, fun _ => ⟨rfl, rfl⟩, ?_, rfl, rfl, rfl⟩
    intro j
    show (Function.update state.locals.procs i _ j).outOpen = _ ∧
      (Function.update state.locals.procs i _ j).errOpen = _
    exact ⟨update_field Process.outOpen (by rfl) j, update_field Process.errOpen (by rfl) j⟩
  · exact appended

theorem sameOutputs_selected (state after : State) : SameOutputs after (state.selected after) := by
  rw [State.selected]
  split
  · exact ⟨rfl, rfl, fun _ => ⟨rfl, rfl⟩, fun _ => ⟨rfl, rfl⟩, rfl, rfl, rfl⟩
  · exact ⟨rfl, rfl, fun _ => ⟨rfl, rfl⟩, fun _ => ⟨rfl, rfl⟩, rfl, rfl, rfl⟩

end Changes

section Steps

variable {state : State}

theorem Tracked.at (tracked : Tracked state) {point : Point}
    (promises : point.Promises state.locals) : Tracked (state.at point) :=
  tracked.same (sameOutputs_at point) promises

/-- The callback throws, or the code goes on. -/
theorem Tracked.called {next : State} (tracked : Tracked state) (goesOn : Tracked next)
    (throws : Bool) : Tracked (state.called throws next) := by
  rw [State.called]
  split
  · exact tracked.at (fun succeeded => by cases succeeded)
  · exact goesOn

theorem Tracked.selected {after : State} (tracked : Tracked after) :
    Tracked (state.selected after) := by
  apply tracked.same (sameOutputs_selected state after)
  rw [selected_point, selected_locals]
  exact tracked.promises

theorem Tracked.head (tracked : Tracked state) : Tracked state.head := by
  rw [State.head]
  split
  · exact ⟨tracked.counted, tracked.flags, tracked.handed, trivial⟩
  · next none => exact tracked.at fun _ => Int.not_lt.mp none

theorem Tracked.waited (tracked : Tracked state) (round : Round) (timer : TimeoutTimer)
    (outcome : Outcome) : Tracked (state.waited round timer outcome) := by
  cases outcome with
  | failed =>
      apply Tracked.selected
      exact tracked.at (fun succeeded => by cases succeeded)
  | nothing =>
      simp only [State.waited]
      split
      · refine Tracked.selected ⟨tracked.counted, tracked.flags, tracked.handed, ?_⟩
        simp only [State.timedOut]
        split
        · intro succeeded
          cases succeeded
        · trivial
      · exact tracked.at trivial
  | available count readAvailable writeAvailable =>
      exact Tracked.selected ⟨tracked.counted, tracked.flags, tracked.handed, trivial⟩

theorem SameOutputs.allOpen {after : State} (same : SameOutputs state after)
    (allOpen : AllOpen state.locals.procs state.locals.size) :
    AllOpen after.locals.procs after.locals.size := by
  intro i inside
  rw [same.size] at inside
  rw [(same.procs i).1, (same.procs i).2]
  exact allOpen i inside

theorem Tracked.getData (tracked : Tracked state) {i : Nat} (answer : GetData)
    (place : state.point = .starting i) (more : i < state.locals.size) :
    Tracked ((state.getData i answer).called answer.throws
      ((((state.getData i answer).storeLength i).storeOpen i).at (.starting (i + 1)))) := by
  have allOpen := tracked.promises
  rw [place] at allOpen
  have asked := sameOutputs_getData state i answer
  have stored := sameOutputs_storeLength (state.getData i answer) i
  have outputs := asked.allOpen allOpen i (by rw [asked.size]; exact more)
  have opened := sameOutputs_storeOpen ((state.getData i answer).storeLength i) i outputs.1 outputs.2
  have all := (asked.trans stored).trans opened
  apply Tracked.called
  · apply tracked.same asked
    rw [getData_point, place]
    exact asked.allOpen allOpen
  · exact tracked.same (all.trans (sameOutputs_at _)) (all.allOpen allOpen)

/-- The flags and the count after the end of an output. -/
theorem endOfFile_out (state : State) (streamIndex : Nat) :
    (state.endOfFile streamIndex ⟨streamIndex, .out⟩).locals.processStates =
      Function.update state.locals.processStates streamIndex
        { state.locals.processStates streamIndex with outIsOpen := false } := by
  simp [State.endOfFile, Locals.setState, Locals.setProcess]

theorem endOfFile_err (state : State) (streamIndex : Nat) :
    (state.endOfFile streamIndex ⟨streamIndex, .err⟩).locals.processStates =
      Function.update state.locals.processStates streamIndex
        { state.locals.processStates streamIndex with errIsOpen := false } := by
  simp [State.endOfFile, Locals.setState, Locals.setProcess]

/-- The end of an output lowers the count with its flag. -/
theorem Tracked.endOfFile (tracked : Tracked state) {round : Round} {i streamIndex : Nat}
    {next : Int} {pipe : Pipe} (reads : AtRead state round i streamIndex pipe)
    (inside : streamIndex < state.locals.size) :
    Tracked ((state.endOfFile streamIndex pipe).at (.reading round (i + 1) next)) := by
  obtain ⟨size, numOpenPipes⟩ := endOfFile_locals state streamIndex pipe
  have decreased : (state.endOfFile streamIndex pipe).locals.openOutputs + 1 =
      state.locals.openOutputs := by
    rw [Locals.openOutputs, Locals.openOutputs, size]
    refine sum_range_decrease inside ?others ?self
    case others =>
      intro j other
      rcases reads.pipe with ⟨rfl, -⟩ | ⟨rfl, -⟩
      · rw [endOfFile_out, Function.update_of_ne other]
      · rw [endOfFile_err, Function.update_of_ne other]
    case self =>
      rcases reads.pipe with ⟨rfl, isOpen⟩ | ⟨rfl, isOpen⟩
      · rw [endOfFile_out, Function.update_self, isOpen]
        simp only [Bool.toNat_false, Bool.toNat_true]
        omega
      · rw [endOfFile_err, Function.update_self, isOpen]
        simp only [Bool.toNat_false, Bool.toNat_true]
  refine ⟨?_, ?_, tracked.handed, trivial⟩
  · show (state.endOfFile streamIndex pipe).locals.numOpenPipes =
      ((state.endOfFile streamIndex pipe).locals.openOutputs : Int)
    have before := tracked.counted
    rw [numOpenPipes]
    omega
  · intro j insideJ
    have flags := tracked.flags j (by rwa [← size])
    show ((state.endOfFile streamIndex pipe).locals.processStates j).outIsOpen =
        !Function.update state.history.ended pipe true ⟨j, .out⟩ ∧
      ((state.endOfFile streamIndex pipe).locals.processStates j).errIsOpen =
        !Function.update state.history.ended pipe true ⟨j, .err⟩
    rcases reads.pipe with ⟨rfl, -⟩ | ⟨rfl, -⟩
    · rw [endOfFile_out]
      by_cases same : j = streamIndex
      · subst same
        simp [flags.2]
      · simp [same, flags.1, flags.2]
    · rw [endOfFile_err]
      by_cases same : j = streamIndex
      · subst same
        simp [flags.1]
      · simp [same, flags.1, flags.2]

/-- The data read are handed on with the process and the output that they come from. -/
theorem Tracked.handleData (tracked : Tracked state) {round : Round} {i streamIndex : Nat}
    {availableToFind : Int} {pipe : Pipe} (data : List UInt8) (answer : HandleData)
    (place : state.point = .reading round i availableToFind)
    (reads : AtRead state round i streamIndex pipe) :
    Tracked (state.handleData streamIndex pipe data answer) where
  counted := tracked.counted
  flags := tracked.flags
  promises := by
    show state.point.Promises _
    rw [place]
    trivial
  handed := by
    show _ :: state.history.handled = handing (pipe, data) :: state.history.read.map handing
    rw [tracked.handed]
    rcases reads.pipe with ⟨rfl, -⟩ | ⟨rfl, -⟩ <;> simp [handing]

theorem Moves.promises {point next : Point} (moves : Moves point next) (locals : Locals) :
    next.Promises locals := by
  cases moves <;> trivial

theorem Tracked.step {next : State} {label : Label} (tracked : Tracked state)
    (step : Step state label next) (shaped : state.Shaped) : Tracked next := by
  cases step with
  | pass later => exact ⟨tracked.counted, tracked.flags, tracked.handed, tracked.promises⟩
  | start place done => exact ⟨tracked.counted, tracked.flags, tracked.handed, trivial⟩
  | head place => exact tracked.head
  | wait place => exact ⟨tracked.counted, tracked.flags, tracked.handed, trivial⟩
  | move moves => exact tracked.at (moves.promises state.locals)
  | getData answer place more => exact tracked.getData answer place more
  | waited outcome place => exact tracked.waited _ _ outcome
  | readFailed place => exact tracked.at (fun succeeded => by cases succeeded)
  | endOfFile answer place reads =>
      exact tracked.endOfFile reads (reads.inside (shaped.at place rfl))
  | @handleData round i _ availableToFind _ data answer place reads some fits =>
      have handled := tracked.handleData data answer place reads
      apply handled.called
      apply handled.at
      trivial
  | @brokenPipe round i streamIndex _ answer place writes =>
      have used := sameOutputs_usedOffset state streamIndex
      have broken := sameOutputs_brokenPipe (state.usedOffset streamIndex) streamIndex
      exact tracked.same ((used.trans broken).trans (sameOutputs_at _)) trivial
  | @writeFailed round i streamIndex _ answer place writes =>
      have used := sameOutputs_usedOffset state streamIndex
      exact tracked.same (used.trans (sameOutputs_at _)) (fun succeeded => by cases succeeded)
  | @wroteNothing round i streamIndex _ answer place writes =>
      have used := sameOutputs_usedOffset state streamIndex
      exact tracked.same (used.trans (sameOutputs_at _)) trivial
  | @wrote round i streamIndex writerc _ answer place writes some offered =>
      have wrote := sameOutputs_wrote state streamIndex writerc
      have asked := wrote.trans (sameOutputs_getData (state.wrote streamIndex writerc) streamIndex
        answer)
      have stored := asked.trans (sameOutputs_storeLength
        ((state.wrote streamIndex writerc).getData streamIndex answer) streamIndex)
      apply Tracked.called
      · apply tracked.same asked
        rw [getData_point]
        show state.point.Promises _
        rw [place]
        trivial
      · exact tracked.same (stored.trans (sameOutputs_at _)) trivial

end Steps

section Property

theorem tracked_atCall {clock : ℚ} {timeout : Timeout} {procs : Nat → Process} {size : Nat}
    (allOpen : AllOpen procs size) : Tracked (atCall clock timeout procs size) := by
  refine ⟨?_, fun i _ => ⟨rfl, rfl⟩, rfl, allOpen⟩
  rw [openOutputs_of_all_open fun i _ => ⟨rfl, rfl⟩]
  show (2 * size : Int) = ((2 * size : Nat) : Int)
  rw [Nat.cast_mul, Nat.cast_ofNat]

/-- With all outputs open at the call, an output is at its end when its flag is false. -/
theorem Tracked.atEnd_iff {state : State} (tracked : Tracked state) {procs : Nat → Process}
    (allOpen : AllOpen procs state.locals.size) :
    state.locals.numOpenPipes ≤ 0 ↔ ∀ i < state.locals.size, AtEnd procs state.history i := by
  have zero := openOutputs_eq_zero_iff state.locals
  have counted := tracked.counted
  have none : state.locals.numOpenPipes ≤ 0 ↔ state.locals.openOutputs = 0 := by omega
  rw [none, zero]
  apply forall_congr'
  intro i
  apply imp_congr_right
  intro inside
  rw [(tracked.flags i inside).1, (tracked.flags i inside).2, AtEnd, (allOpen i inside).1,
    (allOpen i inside).2]
  simp

theorem Tracked.endsWithOutput {state : State} (tracked : Tracked state) {procs : Nat → Process}
    (allOpen : AllOpen procs state.locals.size) : EndsWithOutput procs state where
  counted _ := tracked.counted
  ends _ := tracked.atEnd_iff allOpen
  returned := by
    intro place
    have promises := tracked.promises
    rw [place] at promises
    exact (tracked.atEnd_iff allOpen).mp (promises rfl)
  handed := tracked.handed

/-- The state in which this many processes have been looked at before the loop. -/
structure Opened (procs : Nat → Process) (count k : Nat) (state : State) : Prop where
  place : state.point = .starting k
  size : state.locals.size = count
  numOpenPipes : state.locals.numOpenPipes = 2 * count
  outputs : ∀ i, (state.locals.procs i).outOpen = (procs i).outOpen ∧
    (state.locals.procs i).errOpen = (procs i).errOpen
  done : ∀ i < k, (state.locals.processStates i).outIsOpen = (procs i).outOpen ∧
    (state.locals.processStates i).errIsOpen = (procs i).errOpen
  rest : ∀ i, k ≤ i → (state.locals.processStates i).outIsOpen = true ∧
    (state.locals.processStates i).errIsOpen = true

theorem Opened.next {procs : Nat → Process} {size k : Nat} {state : State}
    (opened : Opened procs size k state) (more : k < size) :
    ∃ next, state.next (.getData ⟨[], false, false⟩) = some next ∧
      Opened procs size (k + 1) next := by
  let answer : GetData := ⟨[], false, false⟩
  have stored := (sameOutputs_getData state k answer).trans
    (sameOutputs_storeLength (state.getData k answer) k)
  refine ⟨(((state.getData k answer).storeLength k).storeOpen k).at (.starting (k + 1)), ?_, ?_⟩
  · simp only [State.next, opened.place, opened.size, if_pos more]
    rfl
  · have flags (i : Nat) : ((((state.getData k answer).storeLength k).storeOpen k).locals.processStates
        i).outIsOpen = (if i = k then (procs k).outOpen
          else (state.locals.processStates i).outIsOpen) ∧
        ((((state.getData k answer).storeLength k).storeOpen k).locals.processStates
          i).errIsOpen = (if i = k then (procs k).errOpen
            else (state.locals.processStates i).errIsOpen) := by
      simp only [State.storeOpen, Locals.setState]
      by_cases same : i = k
      · subst same
        have before := opened.rest i le_rfl
        rw [Function.update_self, if_pos rfl, if_pos rfl]
        simp only [(stored.flags i).1, (stored.flags i).2, (stored.procs i).1, (stored.procs i).2,
          before.1, before.2, (opened.outputs i).1, (opened.outputs i).2, Bool.true_and, and_self]
      · rw [Function.update_of_ne same, if_neg same, if_neg same]
        exact stored.flags i
    refine ⟨rfl, stored.size.trans opened.size, stored.numOpenPipes.trans opened.numOpenPipes,
      ?_, ?_, ?_⟩
    · intro i
      have here := opened.outputs i
      rw [← here.1, ← here.2]
      exact stored.procs i
    · intro i less
      have here := flags i
      by_cases same : i = k
      · subst same
        rw [if_pos rfl, if_pos rfl] at here
        exact here
      · rw [if_neg same, if_neg same] at here
        have before := opened.done i (by omega)
        exact ⟨here.1.trans before.1, here.2.trans before.2⟩
    · intro i beyond
      have here := flags i
      have other : i ≠ k := by omega
      rw [if_neg other, if_neg other] at here
      have before := opened.rest i (by omega)
      exact ⟨here.1.trans before.1, here.2.trans before.2⟩

/-- The loop before the other one can come to its end. -/
theorem opened_reached (clock : ℚ) (timeout : Timeout) (procs : Nat → Process) (size : Nat) :
    ∀ k ≤ size, ∃ state, system.Reaches (atCall clock timeout procs size) state ∧
      Opened procs size k state := by
  intro k
  induction k with
  | zero =>
      intro _
      refine ⟨_, .refl, rfl, rfl, rfl, fun i => ⟨rfl, rfl⟩, ?_, fun i _ => ⟨rfl, rfl⟩⟩
      intro i impossible
      exact absurd impossible (Nat.not_lt_zero i)
  | succ k ih =>
      intro inside
      obtain ⟨state, reaches, opened⟩ := ih (by omega)
      obtain ⟨next, taken, opened⟩ := opened.next inside
      exact ⟨next, reaches.tail ⟨_, taken⟩, opened⟩

/-- A call whose states all count their open outputs has all outputs open. -/
theorem allOpen_of_endsWithOutput {clock : ℚ} {timeout : Timeout} {procs : Nat → Process}
    {size : Nat} (ends : ∀ state, system.Reaches (atCall clock timeout procs size) state →
      EndsWithOutput procs state) : AllOpen procs size := by
  obtain ⟨state, reaches, opened⟩ := opened_reached clock timeout procs size size le_rfl
  have taken : ∃ next, state.next .go = some next ∧ next.point = .loopHead ∧
      next.locals.numOpenPipes = state.locals.numOpenPipes ∧
      next.locals.size = state.locals.size ∧
      next.locals.processStates = state.locals.processStates := by
    refine ⟨{ state with
      locals := { state.locals with
        timer := .started state.locals.timer.m_timeout state.clock }
      point := .loopHead }, ?_, rfl, rfl, rfl, rfl⟩
    simp only [State.next, opened.place, opened.size, lt_irrefl, if_false]
  obtain ⟨next, go, place, numOpenPipes, sizes, flags⟩ := taken
  have counted := (ends next (reaches.tail ⟨_, go⟩)).counted place
  rw [numOpenPipes, opened.numOpenPipes] at counted
  have all : next.locals.openOutputs = 2 * next.locals.size := by
    rw [sizes, opened.size]
    omega
  intro i inside
  have isOpen := all_open_of_openOutputs all i (by rw [sizes, opened.size]; exact inside)
  rw [flags, (opened.done i inside).1, (opened.done i inside).2] at isOpen
  exact isOpen

theorem tracked_of_reaches {clock : ℚ} {timeout : Timeout} {procs : Nat → Process} {size : Nat}
    (allOpen : AllOpen procs size) {state : State}
    (reaches : system.Reaches (atCall clock timeout procs size) state) :
    Tracked state ∧ state.Shaped ∧ state.locals.size = size := by
  induction reaches with
  | refl => exact ⟨tracked_atCall allOpen, shaped_atCall ⟨clock, timeout, procs, size, rfl⟩, rfl⟩
  | tail before taken ih =>
      obtain ⟨label, taken⟩ := taken
      have step := step_of_next taken
      exact ⟨ih.1.step step ih.2.1, step.shaped ih.2.1, (step_size step).trans ih.2.2⟩

/-- Every state that a call reaches counts its open outputs and ends at the end of all exactly when
all outputs are open at the call. -/
theorem endsWithOutput_iff (clock : ℚ) (timeout : Timeout) (procs : Nat → Process) (size : Nat) :
    (∀ state, system.Reaches (atCall clock timeout procs size) state →
        EndsWithOutput procs state) ↔
      AllOpen procs size := by
  constructor
  · exact allOpen_of_endsWithOutput
  · intro allOpen state reaches
    obtain ⟨tracked, -, sizes⟩ := tracked_of_reaches allOpen reaches
    apply tracked.endsWithOutput
    rw [sizes]
    exact allOpen

/-- The standard error of the only process is closed at the call. -/
theorem closed_not_endsWithOutput :
    ¬ ∀ (clock : ℚ) (timeout : Timeout) (procs : Nat → Process) (size : Nat) (state : State),
      system.Reaches (atCall clock timeout procs size) state → EndsWithOutput procs state := by
  intro all
  have allOpen := allOpen_of_endsWithOutput
    (all 0 (.relative none) (fun _ => ⟨true, true, false⟩) 1)
  exact Bool.false_ne_true (allOpen 0 Nat.zero_lt_one).2

end Property

end Blocxx.Exec
