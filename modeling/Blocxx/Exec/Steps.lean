import Blocxx.Exec.Exec

/-!
This file says once what a step of `processInputOutput` can do, and what the arrays of a round
contain.
-/

namespace Blocxx.Exec

open Library

section Rounds

/-- The entries that the body of the building loop adds for a process. -/
def entries (state : ProcessOutputState) (i : Nat) : List SelectObject :=
  (if state.outIsOpen = true then [⟨⟨i, .out⟩, true, false, false, false⟩] else []) ++
    (if state.errIsOpen = true then [⟨⟨i, .err⟩, true, false, false, false⟩] else []) ++
    if state.inIsOpen = true ∧ 0 < state.availableDataLen then
      [⟨⟨i, .in⟩, false, true, false, false⟩]
    else []

theorem Round.add_selObjs (round : Round) (state : ProcessOutputState) (i : Nat) :
    (round.add state i).selObjs = round.selObjs ++ entries state i := by
  simp only [Round.add, entries]
  split <;> split <;> split <;> simp [Round.pushInput, Round.pushOutput]

theorem buildRound_selObjs (states : Nat → ProcessOutputState) (size : Nat) :
    (buildRound states size).selObjs =
      (List.range size).flatMap fun i => entries (states i) i := by
  induction size with
  | zero => rfl
  | succ size ih =>
      rw [buildRound, List.range_succ, List.foldl_append, List.flatMap_append, List.foldl_cons,
        List.foldl_nil, Round.add_selObjs, List.flatMap_cons, List.flatMap_nil, List.append_nil]
      exact congrArg (· ++ entries (states size) size) ih

/-- The maps lead from the index of an entry to its process. -/
def Round.Indexed (round : Round) : Prop :=
  ∀ k so, round.selObjs[k]? = some so →
    (so.waitForRead = true → round.inputIndexProcessIndex k = so.s.process) ∧
      (so.waitForWrite = true → round.outputIndexProcessIndex k = so.s.process)

theorem getElem?_push {Element : Type} {list : List Element} {last element : Element} {k : Nat}
    (here : (list ++ [last])[k]? = some element) :
    (k ≠ list.length ∧ list[k]? = some element) ∨ (k = list.length ∧ element = last) := by
  rcases lt_trichotomy k list.length with less | rfl | more
  · rw [List.getElem?_append_left less] at here
    exact Or.inl ⟨less.ne, here⟩
  · rw [List.getElem?_concat_length] at here
    cases here
    exact Or.inr ⟨rfl, rfl⟩
  · rw [List.getElem?_eq_none (by rw [List.length_append, List.length_singleton]; omega)] at here
    cases here

theorem Round.Indexed.pushInput {round : Round} (indexed : round.Indexed) (i : Nat)
    (stream : Stream) : (round.pushInput ⟨i, stream⟩ i).Indexed := by
  intro k so here
  rcases getElem?_push here with ⟨other, here⟩ | ⟨rfl, rfl⟩
  · simp only [Round.pushInput, Function.update_of_ne other]
    exact indexed k so here
  · exact ⟨fun _ => Function.update_self _ _ _, fun impossible => nomatch impossible⟩

theorem Round.Indexed.pushOutput {round : Round} (indexed : round.Indexed) (i : Nat)
    (stream : Stream) : (round.pushOutput ⟨i, stream⟩ i).Indexed := by
  intro k so here
  rcases getElem?_push here with ⟨other, here⟩ | ⟨rfl, rfl⟩
  · simp only [Round.pushOutput, Function.update_of_ne other]
    exact indexed k so here
  · exact ⟨fun impossible => (nomatch impossible), fun _ => Function.update_self _ _ _⟩

theorem Round.Indexed.add {round : Round} (indexed : round.Indexed) (state : ProcessOutputState)
    (i : Nat) : (round.add state i).Indexed := by
  have out : (if state.outIsOpen then round.pushInput ⟨i, .out⟩ i else round).Indexed := by
    split
    · exact indexed.pushInput i .out
    · exact indexed
  have err : ∀ before : Round, before.Indexed →
      (if state.errIsOpen then before.pushInput ⟨i, .err⟩ i else before).Indexed := by
    intro before indexed
    split
    · exact indexed.pushInput i .err
    · exact indexed
  simp only [Round.add]
  split
  · exact (err _ out).pushOutput i .in
  · exact err _ out

theorem buildRound_indexed (states : Nat → ProcessOutputState) (size : Nat) :
    (buildRound states size).Indexed := by
  induction size with
  | zero =>
      intro k so here
      cases here
  | succ size ih =>
      rw [buildRound, List.range_succ, List.foldl_append]
      exact Round.Indexed.add ih (states size) size

/-- The entries of a round are of different pipes, and an entry is mapped back to its process. -/
structure Round.Sound (round : Round) : Prop where
  distinct : (round.selObjs.map SelectObject.s).Nodup
  indexed : round.Indexed
  read : ∀ so ∈ round.selObjs, so.waitForRead = true ↔ so.s.stream ≠ .in
  write : ∀ so ∈ round.selObjs, so.waitForWrite = true ↔ so.s.stream = .in
  asked : ∀ so ∈ round.selObjs, (so.readAvailable = true → so.waitForRead = true) ∧
    (so.writeAvailable = true → so.waitForWrite = true)

theorem mem_entries {state : ProcessOutputState} {i : Nat} {so : SelectObject} :
    so ∈ entries state i ↔
      (state.outIsOpen = true ∧ so = ⟨⟨i, .out⟩, true, false, false, false⟩) ∨
      (state.errIsOpen = true ∧ so = ⟨⟨i, .err⟩, true, false, false, false⟩) ∨
      (state.inIsOpen = true ∧ 0 < state.availableDataLen ∧
        so = ⟨⟨i, .in⟩, false, true, false, false⟩) := by
  simp only [entries, List.mem_append, List.mem_ite_nil_right, List.mem_singleton, or_assoc,
    and_assoc]

theorem mem_buildRound {states : Nat → ProcessOutputState} {size : Nat} {so : SelectObject} :
    so ∈ (buildRound states size).selObjs ↔ ∃ i < size, so ∈ entries (states i) i := by
  simp only [buildRound_selObjs, List.mem_flatMap, List.mem_range]

theorem entries_distinct (state : ProcessOutputState) (i : Nat) :
    ((entries state i).map SelectObject.s).Nodup := by
  simp only [entries]
  split <;> split <;> split <;> simp

theorem buildRound_distinct (states : Nat → ProcessOutputState) (size : Nat) :
    ((buildRound states size).selObjs.map SelectObject.s).Nodup := by
  rw [buildRound_selObjs, List.map_flatMap, List.nodup_flatMap]
  refine ⟨fun i _ => entries_distinct (states i) i, ?_⟩
  refine List.nodup_range.imp fun {a b} different => ?_
  show List.Disjoint _ _
  intro pipe first second
  obtain ⟨so, mem, rfl⟩ := List.mem_map.mp first
  obtain ⟨other, memOther, same⟩ := List.mem_map.mp second
  have process {state : ProcessOutputState} {i : Nat} {so : SelectObject}
      (mem : so ∈ entries state i) : so.s.process = i := by
    rcases mem_entries.mp mem with ⟨-, rfl⟩ | ⟨-, rfl⟩ | ⟨-, -, rfl⟩ <;> rfl
  apply different
  rw [← process mem, ← process memOther, same]

theorem buildRound_sound (states : Nat → ProcessOutputState) (size : Nat) :
    (buildRound states size).Sound where
  distinct := buildRound_distinct states size
  indexed := buildRound_indexed states size
  read := by
    intro so mem
    obtain ⟨i, -, mem⟩ := mem_buildRound.mp mem
    rcases mem_entries.mp mem with ⟨-, rfl⟩ | ⟨-, rfl⟩ | ⟨-, -, rfl⟩ <;> simp
  write := by
    intro so mem
    obtain ⟨i, -, mem⟩ := mem_buildRound.mp mem
    rcases mem_entries.mp mem with ⟨-, rfl⟩ | ⟨-, rfl⟩ | ⟨-, -, rfl⟩ <;> simp
  asked := by
    intro so mem
    obtain ⟨i, -, mem⟩ := mem_buildRound.mp mem
    rcases mem_entries.mp mem with ⟨-, rfl⟩ | ⟨-, rfl⟩ | ⟨-, -, rfl⟩ <;> simp

/-- The round with the answers of `selectRW`. -/
def Round.answered (round : Round) (readAvailable writeAvailable : Pipe → Bool) : Round :=
  { round with selObjs := round.selObjs.map (.answered readAvailable writeAvailable) }

theorem Round.Sound.answered {round : Round} (sound : round.Sound)
    (readAvailable writeAvailable : Pipe → Bool) :
    (round.answered readAvailable writeAvailable).Sound where
  distinct := by
    rw [Round.answered, List.map_map]
    exact sound.distinct
  indexed := by
    intro k so here
    rw [Round.answered, List.getElem?_map] at here
    obtain ⟨before, there, rfl⟩ := Option.map_eq_some_iff.mp here
    exact sound.indexed k before there
  read := by
    intro so mem
    obtain ⟨before, there, rfl⟩ := List.mem_map.mp mem
    exact sound.read before there
  write := by
    intro so mem
    obtain ⟨before, there, rfl⟩ := List.mem_map.mp mem
    exact sound.write before there
  asked := by
    intro so mem
    obtain ⟨before, there, rfl⟩ := List.mem_map.mp mem
    simp only [SelectObject.answered, Bool.and_eq_true]
    exact ⟨And.left, And.left⟩

/-- Two entries of a round with the same pipe are at the same place. -/
theorem Round.Sound.index_eq {round : Round} (sound : round.Sound) {j k : Nat}
    {so other : SelectObject} (here : round.selObjs[j]? = some so)
    (there : round.selObjs[k]? = some other) (same : so.s = other.s) : j = k := by
  obtain ⟨insideJ, rfl⟩ := List.getElem?_eq_some_iff.mp here
  obtain ⟨insideK, rfl⟩ := List.getElem?_eq_some_iff.mp there
  have lengthJ : j < (round.selObjs.map SelectObject.s).length := by rwa [List.length_map]
  have lengthK : k < (round.selObjs.map SelectObject.s).length := by rwa [List.length_map]
  have equal : (round.selObjs.map SelectObject.s)[j] = (round.selObjs.map SelectObject.s)[k] := by
    rw [List.getElem_map, List.getElem_map]
    exact same
  exact (List.Nodup.getElem_inj_iff sound.distinct).mp equal

end Rounds

/-- An update that keeps a field of the updated value keeps it of all. -/
theorem update_field {Value Field : Type} (field : Value → Field) {values : Nat → Value} {i : Nat}
    {value : Value} (keeps : field value = field (values i)) (j : Nat) :
    field (Function.update values i value j) = field (values j) := by
  by_cases same : j = i
  · subst same
    rw [Function.update_self]
    exact keeps
  · rw [Function.update_of_ne same]

section Steps

/-- The code is about to read the pipe of a readable entry. -/
def AtRead (state : State) (round : Round) (i streamIndex : Nat) (pipe : Pipe) : Prop :=
  ∃ so, round.selObjs[i]? = some so ∧ so.readAvailable = true ∧
    streamIndex = round.inputIndexProcessIndex i ∧
    state.locals.readstream streamIndex so.s = some pipe

/-- The code is about to write to the standard input of the process of a writable entry. -/
def AtWrite (state : State) (round : Round) (i streamIndex : Nat) : Prop :=
  ∃ so, round.selObjs[i]? = some so ∧ so.writeAvailable = true ∧
    streamIndex = round.outputIndexProcessIndex i ∧
    (state.locals.processStates streamIndex).inIsOpen = true

/-- The loops over the entries move on without a system call. -/
inductive Moves : Point → Point → Prop
  | skipRead {round : Round} {i : Nat} {availableToFind next : Int} :
      Moves (.reading round i availableToFind) (.reading round (i + 1) next)
  | endReads {round : Round} {i : Nat} {availableToFind : Int} :
      Moves (.reading round i availableToFind) (.writing round 0 availableToFind)
  | skipWrite {round : Round} {i : Nat} {availableToFind next : Int} :
      Moves (.writing round i availableToFind) (.writing round (i + 1) next)
  | endWrites {round : Round} {i : Nat} {availableToFind : Int} :
      Moves (.writing round i availableToFind) .loopHead

theorem readingStep_inl {state next : State} {round : Round} {i : Nat} {availableToFind : Int}
    (moves : state.readingStep round i availableToFind = .inl next) :
    ∃ point, Moves (.reading round i availableToFind) point ∧ next = state.at point := by
  simp only [State.readingStep] at moves
  split at moves
  · split at moves
    · cases moves
      exact ⟨_, .endReads, rfl⟩
    · split at moves
      · cases moves
        exact ⟨_, .skipRead, rfl⟩
      · split at moves
        · cases moves
          exact ⟨_, .skipRead, rfl⟩
        · cases moves
  · cases moves
    exact ⟨_, .endReads, rfl⟩

theorem readingStep_inr {state : State} {round : Round} {i streamIndex : Nat}
    {availableToFind : Int} {pipe : Pipe}
    (stops : state.readingStep round i availableToFind = .inr (streamIndex, pipe)) :
    AtRead state round i streamIndex pipe := by
  simp only [State.readingStep] at stops
  split at stops
  · next so here =>
      split at stops
      · cases stops
      · split at stops
        · cases stops
        · next available =>
            split at stops
            · cases stops
            · next found =>
                cases stops
                exact ⟨so, here, Bool.eq_true_of_not_eq_false available, rfl, found⟩
  · cases stops

theorem writingStep_inl {state next : State} {round : Round} {i : Nat} {availableToFind : Int}
    (moves : state.writingStep round i availableToFind = .inl next) :
    ∃ point, Moves (.writing round i availableToFind) point ∧ next = state.at point := by
  simp only [State.writingStep] at moves
  split at moves
  · split at moves
    · cases moves
      exact ⟨_, .endWrites, rfl⟩
    · split at moves
      · cases moves
        exact ⟨_, .skipWrite, rfl⟩
      · split at moves
        · cases moves
          exact ⟨_, .skipWrite, rfl⟩
        · cases moves
  · cases moves
    exact ⟨_, .endWrites, rfl⟩

theorem writingStep_inr {state : State} {round : Round} {i streamIndex : Nat}
    {availableToFind : Int}
    (stops : state.writingStep round i availableToFind = .inr streamIndex) :
    AtWrite state round i streamIndex := by
  simp only [State.writingStep] at stops
  split at stops
  · next so here =>
      split at stops
      · cases stops
      · split at stops
        · cases stops
        · next available =>
            split at stops
            · cases stops
            · next isOpen =>
                cases stops
                exact ⟨so, here, Bool.eq_true_of_not_eq_false available, rfl,
                  Bool.eq_true_of_not_eq_false isOpen⟩
  · cases stops

/-- All that a step can do. -/
inductive Step (state : State) : Label → State → Prop
  | pass {now : ℚ} (later : state.clock ≤ now) : Step state (.pass now) { state with clock := now }
  | start {i : Nat} (place : state.point = .starting i) (done : ¬ i < state.locals.size) :
      Step state .go
        { state with
          locals := { state.locals with
            timer := .started state.locals.timer.m_timeout state.clock }
          point := .loopHead }
  | head (place : state.point = .loopHead) : Step state .go state.head
  | wait {round : Round} {timer : TimeoutTimer} (place : state.point = .selecting round timer) :
      Step state .go
        { state with
          history := { state.history with
            waits := ⟨state.clock, timer.asIntMs LOOP_TIMEOUT⟩ :: state.history.waits }
          point := .waiting round timer }
  | move {point : Point} (moves : Moves state.point point) : Step state .go (state.at point)
  | getData {i : Nat} (answer : GetData) (place : state.point = .starting i)
      (more : i < state.locals.size) :
      Step state (.getData answer) ((state.getData i answer).called answer.throws
        ((((state.getData i answer).storeLength i).storeOpen i).at (.starting (i + 1))))
  | waited {round : Round} {timer : TimeoutTimer} (outcome : Outcome)
      (place : state.point = .waiting round timer) :
      Step state (.waited outcome) (state.waited round timer outcome)
  | readFailed {round : Round} {i : Nat} {availableToFind : Int}
      (place : state.point = .reading round i availableToFind) :
      Step state .readFailed
        (state.at (.ended (.execErrorException "Exec::gatherOutput: read error")))
  | endOfFile {round : Round} {i streamIndex : Nat} {availableToFind : Int} {pipe : Pipe}
      (answer : HandleData) (place : state.point = .reading round i availableToFind)
      (reads : AtRead state round i streamIndex pipe) :
      Step state (.read [] answer)
        ((state.endOfFile streamIndex pipe).at (.reading round (i + 1) (availableToFind - 1)))
  | handleData {round : Round} {i streamIndex : Nat} {availableToFind : Int} {pipe : Pipe}
      {data : List UInt8} (answer : HandleData)
      (place : state.point = .reading round i availableToFind)
      (reads : AtRead state round i streamIndex pipe) (some : data ≠ [])
      (fits : data.length ≤ 1023) :
      Step state (.read data answer)
        ((state.handleData streamIndex pipe data answer).called answer.throws
          ((state.handleData streamIndex pipe data answer).at
            (.reading round (i + 1) (availableToFind - 1))))
  | brokenPipe {round : Round} {i streamIndex : Nat} {availableToFind : Int} (answer : GetData)
      (place : state.point = .writing round i availableToFind)
      (writes : AtWrite state round i streamIndex) :
      Step state (.write .broken answer)
        (((state.usedOffset streamIndex).brokenPipe streamIndex).at
          (.writing round (i + 1) (availableToFind - 1)))
  | writeFailed {round : Round} {i streamIndex : Nat} {availableToFind : Int} (answer : GetData)
      (place : state.point = .writing round i availableToFind)
      (writes : AtWrite state round i streamIndex) :
      Step state (.write .failed answer)
        ((state.usedOffset streamIndex).at
          (.ended (.execErrorException "Exec::gatherOutput: write error")))
  | wroteNothing {round : Round} {i streamIndex : Nat} {availableToFind : Int} (answer : GetData)
      (place : state.point = .writing round i availableToFind)
      (writes : AtWrite state round i streamIndex) :
      Step state (.write (.wrote 0) answer)
        ((state.usedOffset streamIndex).at (.writing round (i + 1) (availableToFind - 1)))
  | wrote {round : Round} {i streamIndex writerc : Nat} {availableToFind : Int} (answer : GetData)
      (place : state.point = .writing round i availableToFind)
      (writes : AtWrite state round i streamIndex) (some : writerc ≠ 0)
      (offered : writerc ≤ (state.locals.processStates streamIndex).availableDataLen) :
      Step state (.write (.wrote writerc) answer)
        (((state.wrote streamIndex writerc).getData streamIndex answer).called answer.throws
          ((((state.wrote streamIndex writerc).getData streamIndex answer).storeLength
            streamIndex).at (.writing round (i + 1) (availableToFind - 1))))

theorem step_go {state next : State} (taken : state.next .go = some next) :
    Step state .go next := by
  simp only [State.next] at taken
  split at taken
  · next i place =>
      split at taken
      · cases taken
      · next done =>
          cases taken
          exact .start place done
  · next place =>
      cases taken
      exact .head place
  · next round timer place =>
      cases taken
      exact .wait place
  · cases taken
  · next round i availableToFind place =>
      split at taken
      · next after found =>
          cases taken
          obtain ⟨point, moves, rfl⟩ := readingStep_inl found
          rw [← place] at moves
          exact .move moves
      · cases taken
  · next round i availableToFind place =>
      split at taken
      · next after found =>
          cases taken
          obtain ⟨point, moves, rfl⟩ := writingStep_inl found
          rw [← place] at moves
          exact .move moves
      · cases taken
  · cases taken

theorem step_read {state next : State} {data : List UInt8} {answer : HandleData}
    (taken : state.next (.read data answer) = some next) : Step state (.read data answer) next := by
  simp only [State.next] at taken
  split at taken
  · next round i availableToFind place =>
      split at taken
      · cases taken
      · next streamIndex pipe stops =>
          have reads := readingStep_inr stops
          split at taken
          · next none =>
              cases taken
              rw [List.length_eq_zero_iff] at none
              subst none
              exact .endOfFile answer place reads
          · next some =>
              split at taken
              · next fits =>
                  cases taken
                  rw [List.length_eq_zero_iff] at some
                  exact .handleData answer place reads some fits
              · cases taken
  · cases taken

theorem step_write {state next : State} {outcome : Writing} {answer : GetData}
    (taken : state.next (.write outcome answer) = some next) :
    Step state (.write outcome answer) next := by
  simp only [State.next] at taken
  split at taken
  · next round i availableToFind place =>
      split at taken
      · cases taken
      · next streamIndex stops =>
          have writes := writingStep_inr stops
          cases outcome with
          | broken =>
              cases taken
              exact .brokenPipe answer place writes
          | failed =>
              cases taken
              exact .writeFailed answer place writes
          | wrote writerc =>
              simp only at taken
              split at taken
              · next none =>
                  cases taken
                  subst none
                  exact .wroteNothing answer place writes
              · next some =>
                  split at taken
                  · next offered =>
                      cases taken
                      exact .wrote answer place writes some offered
                  · cases taken
  · cases taken

theorem step_of_next {state next : State} {label : Label}
    (taken : state.next label = some next) : Step state label next := by
  cases label with
  | pass now =>
      simp only [State.next] at taken
      split at taken
      · next later =>
          cases taken
          exact .pass later
      · cases taken
  | go => exact step_go taken
  | getData answer =>
      simp only [State.next] at taken
      split at taken
      · next i place =>
          split at taken
          · next more =>
              cases taken
              exact .getData answer place more
          · cases taken
      · cases taken
  | waited outcome =>
      simp only [State.next] at taken
      split at taken
      · next round timer place =>
          cases taken
          exact .waited outcome place
      · cases taken
  | readFailed =>
      simp only [State.next] at taken
      split at taken
      · next place =>
          split at taken
          · cases taken
          · cases taken
            exact .readFailed place
      · cases taken
  | read data answer => exact step_read taken
  | write outcome answer => exact step_write taken

/-- A pipe that is read is an output of the process that its entry is mapped to. -/
theorem AtRead.pipe {state : State} {round : Round} {i streamIndex : Nat} {pipe : Pipe}
    (reads : AtRead state round i streamIndex pipe) :
    (pipe = ⟨streamIndex, .out⟩ ∧ (state.locals.processStates streamIndex).outIsOpen = true) ∨
      (pipe = ⟨streamIndex, .err⟩ ∧ (state.locals.processStates streamIndex).errIsOpen = true) := by
  obtain ⟨so, -, -, -, stream⟩ := reads
  simp only [Locals.readstream] at stream
  split at stream
  · next out =>
      cases stream
      exact Or.inl ⟨rfl, out.1⟩
  · split at stream
    · next err =>
        cases stream
        exact Or.inr ⟨rfl, err.1⟩
    · cases stream

/-- A pipe that is read is the one of an entry. -/
theorem AtRead.entry {state : State} {round : Round} {i streamIndex : Nat} {pipe : Pipe}
    (reads : AtRead state round i streamIndex pipe) : ∃ so ∈ round.selObjs, so.s = pipe := by
  obtain ⟨so, here, -, -, stream⟩ := reads
  refine ⟨so, List.mem_of_getElem? here, ?_⟩
  simp only [Locals.readstream] at stream
  split at stream
  · next out =>
      cases stream
      exact out.2.symm
  · split at stream
    · next err =>
        cases stream
        exact err.2.symm
    · cases stream

/-- A process that is written to is the one of its entry, which waits for writing. -/
theorem AtWrite.entry {state : State} {round : Round} {i streamIndex : Nat}
    (writes : AtWrite state round i streamIndex) (sound : round.Sound) :
    ∃ so, round.selObjs[i]? = some so ∧ so.waitForWrite = true ∧ so.s = ⟨streamIndex, .in⟩ := by
  obtain ⟨so, here, available, index, -⟩ := writes
  have mem := List.mem_of_getElem? here
  have waits := (sound.asked so mem).2 available
  refine ⟨so, here, waits, ?_⟩
  rw [index, (sound.indexed i so here).2 waits, ← (sound.write so mem).mp waits]

end Steps

section Shape

theorem getData_point (state : State) (i : Nat) (answer : GetData) :
    (state.getData i answer).point = state.point := by
  rw [State.getData]
  split <;> rfl

theorem getData_size (state : State) (i : Nat) (answer : GetData) :
    (state.getData i answer).locals.size = state.locals.size := by
  rw [State.getData]
  split <;> rfl

theorem selected_point (state after : State) : (state.selected after).point = after.point := by
  rw [State.selected]
  split <;> rfl

theorem selected_locals (state after : State) :
    (state.selected after).locals = after.locals := by
  rw [State.selected]
  split <;> rfl

theorem endOfFile_locals (state : State) (streamIndex : Nat) (pipe : Pipe) :
    (state.endOfFile streamIndex pipe).locals.size = state.locals.size ∧
      (state.endOfFile streamIndex pipe).locals.numOpenPipes =
        state.locals.numOpenPipes - 1 := by
  simp only [State.endOfFile]
  split <;> exact ⟨rfl, rfl⟩

/-- No step changes the number of the processes. -/
theorem step_size {state next : State} {label : Label} (step : Step state label next) :
    next.locals.size = state.locals.size := by
  have called (before after : State) (throws : Bool) (same : after.locals.size =
      before.locals.size) : (before.called throws after).locals.size = before.locals.size := by
    rw [State.called]
    split
    · rfl
    · exact same
  cases step with
  | head place =>
      rw [State.head]
      split <;> rfl
  | waited outcome place =>
      cases outcome with
      | nothing =>
          simp only [State.waited]
          split
          · rw [selected_locals]
            rfl
          · rfl
      | failed => exact congrArg Locals.size (selected_locals _ _)
      | available count readAvailable writeAvailable =>
          simp only [State.waited]
          rw [selected_locals]
  | @getData i answer place more =>
      rw [called]
      · exact getData_size state i answer
      · rfl
  | endOfFile answer place reads => exact (endOfFile_locals state _ _).1
  | handleData answer place reads some fits => exact called _ _ _ rfl
  | @wrote round i streamIndex writerc _ answer place writes some offered =>
      rw [called]
      · exact getData_size (state.wrote streamIndex writerc) streamIndex answer
      · rfl
  | _ => rfl

def Point.round : Point → Option Round
  | .selecting round _ => some round
  | .waiting round _ => some round
  | .reading round _ _ => some round
  | .writing round _ _ => some round
  | _ => none

/-- The entries of the round are of the processes of the call. -/
def Round.Inside (round : Round) (size : Nat) : Prop :=
  round.Sound ∧ ∀ so ∈ round.selObjs, so.s.process < size

theorem buildRound_inside (states : Nat → ProcessOutputState) (size : Nat) :
    (buildRound states size).Inside size := by
  refine ⟨buildRound_sound states size, ?_⟩
  intro so mem
  obtain ⟨i, inside, mem⟩ := mem_buildRound.mp mem
  rcases mem_entries.mp mem with ⟨-, rfl⟩ | ⟨-, rfl⟩ | ⟨-, -, rfl⟩ <;> exact inside

theorem Round.Inside.answered {round : Round} {size : Nat} (inside : round.Inside size)
    (readAvailable writeAvailable : Pipe → Bool) :
    (round.answered readAvailable writeAvailable).Inside size := by
  refine ⟨inside.1.answered readAvailable writeAvailable, ?_⟩
  intro so mem
  obtain ⟨before, there, rfl⟩ := List.mem_map.mp mem
  exact inside.2 before there

/-- The round at the point, if there is one, is of the processes of the call. -/
def State.Shaped (state : State) : Prop :=
  ∀ round, state.point.round = some round → round.Inside state.locals.size

theorem Moves.round {point next : Point} (moves : Moves point next) (round : Round)
    (there : next.round = some round) : point.round = some round := by
  cases moves with
  | endWrites => cases there
  | _ => exact there

theorem Step.shaped {state next : State} {label : Label} (step : Step state label next)
    (shaped : state.Shaped) : next.Shaped := by
  have size := step_size step
  intro round there
  rw [size]
  have called {before after : State} {throws : Bool} {round : Round}
      (there : (before.called throws after).point.round = some round) :
      after.point.round = some round := by
    rw [State.called] at there
    split at there
    · cases there
    · exact there
  cases step with
  | pass later => exact shaped round there
  | start place done => cases there
  | head place =>
      rw [State.head] at there
      split at there
      · cases there
        exact buildRound_inside _ _
      · cases there
  | wait place =>
      apply shaped
      rw [place]
      exact there
  | move moves => exact shaped round (moves.round round there)
  | getData answer place more => cases called there
  | waited outcome place =>
      cases outcome with
      | failed =>
          simp only [State.waited, selected_point] at there
          cases there
      | nothing =>
          simp only [State.waited] at there
          split at there
          · rw [selected_point] at there
            simp only [State.timedOut] at there
            split at there <;> cases there
          · apply shaped
            rw [place]
            exact there
      | available count readAvailable writeAvailable =>
          simp only [State.waited, selected_point] at there
          cases there
          apply Round.Inside.answered
          apply shaped
          rw [place]
          rfl
  | readFailed place => cases there
  | endOfFile answer place reads =>
      apply shaped
      rw [place]
      exact there
  | handleData answer place reads some fits =>
      apply shaped
      rw [place]
      exact called there
  | brokenPipe answer place writes =>
      apply shaped
      rw [place]
      exact there
  | writeFailed answer place writes => cases there
  | wroteNothing answer place writes =>
      apply shaped
      rw [place]
      exact there
  | wrote answer place writes some offered =>
      apply shaped
      rw [place]
      exact called there

theorem AtRead.inside {state : State} {round : Round} {i streamIndex size : Nat} {pipe : Pipe}
    (reads : AtRead state round i streamIndex pipe) (inside : round.Inside size) :
    streamIndex < size := by
  obtain ⟨so, mem, stream⟩ := reads.entry
  have process := inside.2 so mem
  rw [stream] at process
  rcases reads.pipe with ⟨rfl, -⟩ | ⟨rfl, -⟩ <;> exact process

theorem State.Shaped.at {state : State} (shaped : state.Shaped) {point : Point} {round : Round}
    (place : state.point = point) (there : point.round = some round) :
    round.Inside state.locals.size := by
  apply shaped
  rw [place]
  exact there

/-- The pipes and the callbacks at the call are arbitrary. -/
def AtCall (state : State) : Prop :=
  ∃ clock timeout procs size, state = atCall clock timeout procs size

theorem shaped_atCall {start : State} (initial : AtCall start) : start.Shaped := by
  obtain ⟨clock, timeout, procs, size, rfl⟩ := initial
  intro round there
  cases there

end Shape

end Blocxx.Exec
