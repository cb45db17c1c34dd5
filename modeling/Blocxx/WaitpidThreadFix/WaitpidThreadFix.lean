import Blocxx.Library.TransitionSystem

/-!
This file embeds the process thread of `WaitpidThreadFix.cpp` with its queue and its callers, and
proves when it answers every request. A step is one section of code that holds a mutex, or one end of
`doWork`.
-/

namespace Blocxx.WaitpidThreadFix
open Library

variable {Thread Value Error : Type}

/-- A work item with its signal. The result is default-constructed. -/
structure WorkItem (Value Error : Type) where
  m_result : Value
  m_err : Option Error
  m_signal : Bool

/-- The ends of `doWork`. An exception that is not a `blocxx::Exception` has no type here. -/
inductive DoWork (Value Error : Type) where
  | returned (value : Value)
  | threw (err : Error)
  | threwOther

/-- What `spawn` and `waitPid` do in the end. -/
inductive Answer (Value Error : Type) where
  | returned (value : Value)
  | rethrown (err : Error)

/-- The points of the worker thread between its sections. -/
inductive Worker (Error : Type) where
  /-- Before the section of `getWork`, or in it before the loop test. -/
  | getWork
  /-- In the wait on `m_workNotEmpty`. -/
  | asleep
  | doWork (item : Nat)
  | saveException (item : Nat) (err : Error)
  | signalDone (item : Nat)
  /-- An exception has left `run`, and the thread is at its end. -/
  | ended

/-- The points of a thread that calls `spawn` or `waitPid`. -/
inductive Caller (Value : Type) where
  | idle
  /-- Before the section of `waitForSignal`, or in it before the loop test. -/
  | waitForSignal (item : Nat)
  /-- In the wait of that loop. -/
  | asleep (item : Nat)
  /-- Before the section that reads `m_result`. -/
  | readResult (item : Nat)
  | getException (item : Nat) (result : Value)

/-- The records of what has happened, with the oldest first. -/
structure History (Thread Value Error : Type) where
  /-- The calls, by the number of their item. -/
  requests : List Thread
  executed : List (Nat × DoWork Value Error)
  /-- The ends of the calls. The item is deleted with its reference. -/
  answered : List (Thread × Nat × Answer Value Error)

/-- The items have the numbers of their insertion into the queue. -/
structure State (Thread Value Error : Type) where
  m_work : List Nat
  items : Nat → WorkItem Value Error
  worker : Worker Error
  caller : Thread → Caller Value
  history : History Thread Value Error

inductive Label (Thread Value Error : Type) where
  | addWork (thread : Thread)
  | waitForSignal (thread : Thread)
  /-- The wait of the thread ends without a cause. -/
  | rouse (thread : Thread)
  | readResult (thread : Thread)
  | getException (thread : Thread)
  | getWork
  | rouseWorker
  | doWork (outcome : DoWork Value Error)
  | saveException
  | signalDone

namespace State

variable [DecidableEq Thread] [Inhabited Value] (state : State Thread Value Error)

def setItem (item : Nat) (change : WorkItem Value Error → WorkItem Value Error) :
    State Thread Value Error :=
  { state with items := Function.update state.items item (change (state.items item)) }

def setCaller (thread : Thread) (caller : Caller Value) : State Thread Value Error :=
  { state with caller := Function.update state.caller thread caller }

/-- The new item is pushed, and the worker is notified. -/
def addWork (thread : Thread) : State Thread Value Error where
  m_work := state.m_work ++ [state.history.requests.length]
  items := Function.update state.items state.history.requests.length ⟨default, none, false⟩
  worker :=
    match state.worker with
    | .asleep => .getWork
    | worker => worker
  caller := Function.update state.caller thread (.waitForSignal state.history.requests.length)
  history := { state.history with requests := state.history.requests ++ [thread] }

/-- The end of `doWork` with the handler of `run`. -/
def doWork (item : Nat) (outcome : DoWork Value Error) : State Thread Value Error :=
  let state := { state with
    history := { state.history with executed := state.history.executed ++ [(item, outcome)] } }
  match outcome with
  | .returned value =>
      { state.setItem item fun work => { work with m_result := value } with
        worker := .signalDone item }
  | .threw err => { state with worker := .saveException item err }
  | .threwOther => { state with worker := .ended }

/-- The notice to the threads that wait for the item. -/
def notifyAll (item : Nat) : Caller Value → Caller Value
  | .asleep other => if other = item then .waitForSignal item else .asleep other
  | caller => caller

def signalDone (item : Nat) : State Thread Value Error :=
  { state.setItem item fun work => { work with m_signal := true } with
    worker := .getWork
    caller := fun thread => notifyAll item (state.caller thread) }

/-- The end of the call, which rethrows the exception of the item. -/
def getException (thread : Thread) (item : Nat) (result : Value) : State Thread Value Error :=
  let answer : Answer Value Error :=
    match (state.items item).m_err with
    | some err => .rethrown err
    | none => .returned result
  { state.setCaller thread .idle with
    history := { state.history with
      answered := state.history.answered ++ [(thread, item, answer)] } }

def next : Label Thread Value Error → Option (State Thread Value Error)
  | .addWork thread =>
      match state.caller thread with
      | .idle => some (state.addWork thread)
      | _ => none
  | .waitForSignal thread =>
      match state.caller thread with
      | .waitForSignal item =>
          some (state.setCaller thread
            (if (state.items item).m_signal = true then .readResult item else .asleep item))
      | _ => none
  | .rouse thread =>
      match state.caller thread with
      | .asleep item => some (state.setCaller thread (.waitForSignal item))
      | _ => none
  | .readResult thread =>
      match state.caller thread with
      | .readResult item =>
          some (state.setCaller thread (.getException item (state.items item).m_result))
      | _ => none
  | .getException thread =>
      match state.caller thread with
      | .getException item result => some (state.getException thread item result)
      | _ => none
  | .getWork =>
      match state.worker, state.m_work with
      | .getWork, item :: rest => some { state with m_work := rest, worker := .doWork item }
      | .getWork, [] => some { state with worker := .asleep }
      | _, _ => none
  | .rouseWorker =>
      match state.worker with
      | .asleep => some { state with worker := .getWork }
      | _ => none
  | .doWork outcome =>
      match state.worker with
      | .doWork item => some (state.doWork item outcome)
      | _ => none
  | .saveException =>
      match state.worker with
      | .saveException item err =>
          some { state.setItem item fun work => { work with m_err := some err } with
            worker := .signalDone item }
      | _ => none
  | .signalDone =>
      match state.worker with
      | .signalDone item => some (state.signalDone item)
      | _ => none

end State

/-- Nothing was asked for, and the worker has been started. -/
def start [Inhabited Value] : State Thread Value Error where
  m_work := []
  items := fun _ => ⟨default, none, false⟩
  worker := .getWork
  caller := fun _ => .idle
  history := ⟨[], [], []⟩

def system [DecidableEq Thread] [Inhabited Value] :
    TransitionSystem (State Thread Value Error) (Label Thread Value Error) :=
  .computed (· = start) State.next

variable {Thread Value Error : Type}

section Property

/-- The item of a call in progress. -/
def Caller.item : Caller Value → Option Nat
  | .idle => none
  | .waitForSignal item | .asleep item | .readResult item | .getException item _ => some item

/-- The item that was taken from the queue and is not yet executed. -/
def Worker.taken : Worker Error → List Nat
  | .doWork item => [item]
  | _ => []

/-- The worker has executed the item and will still signal it. -/
def Worker.holds : Worker Error → Nat → Bool
  | .saveException item _, other | .signalDone item, other => item == other
  | _, _ => false

/-- The answer to the call whose item was executed so. -/
def DoWork.answer : DoWork Value Error → Option (Answer Value Error)
  | .returned value => some (.returned value)
  | .threw err => some (.rethrown err)
  | .threwOther => none

/-- The steps that the worker takes without a cause from outside. -/
def Label.OfWorker : Label Thread Value Error → Prop
  | .getWork | .doWork _ | .saveException | .signalDone => True
  | _ => False

/-- The item throws nothing but a `blocxx::Exception`. -/
def Caught (_ : State Thread Value Error) (label : Label Thread Value Error) : Prop :=
  label ≠ .doWork .threwOther

variable [DecidableEq Thread] [Inhabited Value]

/-- The steps of the worker alone. -/
def workerSystem : TransitionSystem (State Thread Value Error) (Label Thread Value Error) :=
  system.restrict fun _ label => label.OfWorker

/-- Requests are executed once and in the order of the queue, each caller gets the answer to its
own request, no item in use is deleted, and no caller waits for a signal in vain. -/
structure AnswersEvery (state : State Thread Value Error) : Prop where
  order : state.history.executed.map Prod.fst ++ state.worker.taken ++ state.m_work =
    List.range state.history.requests.length
  own : ∀ thread item answer, (thread, item, answer) ∈ state.history.answered →
    state.history.requests[item]? = some thread ∧
      ∃ outcome, (item, outcome) ∈ state.history.executed ∧ outcome.answer = some answer
  kept : ∀ item, item ∈ state.worker.taken ∨ state.worker.holds item = true ∨ item ∈ state.m_work →
    ∀ answered ∈ state.history.answered, answered.2.1 ≠ item
  woken : ∀ thread item, state.caller thread = .asleep item → (state.items item).m_signal = false
  served : ∀ thread item, (state.caller thread).item = some item →
    ∃ later, workerSystem.Reaches state later ∧ (later.items item).m_signal = true

end Property

section Invariant

/-- What a caller knows at its point. -/
def Caller.Fits (items : Nat → WorkItem Value Error) : Caller Value → Prop
  | .idle | .waitForSignal _ => True
  | .asleep item => (items item).m_signal = false
  | .readResult item => (items item).m_signal = true
  | .getException item result => (items item).m_signal = true ∧ result = (items item).m_result

variable [Inhabited Value]

/-- The members of an item that was executed so. -/
def Recorded (worker : Worker Error) (item : Nat) (work : WorkItem Value Error) :
    DoWork Value Error → Prop
  | .returned value =>
      (∀ other, worker ≠ .saveException item other) ∧ work = ⟨value, none, !worker.holds item⟩
  | .threw err =>
      worker = .saveException item err ∧ work = ⟨default, none, false⟩ ∨
        (∀ other, worker ≠ .saveException item other) ∧
          work = ⟨default, some err, !worker.holds item⟩
  | .threwOther => False

/-- The invariant while no exception has left `run`. -/
structure Serving (state : State Thread Value Error) : Prop where
  order : state.history.executed.map Prod.fst ++ state.worker.taken ++ state.m_work =
    List.range state.history.requests.length
  alive : state.worker ≠ .ended
  asleep : state.worker = .asleep → state.m_work = []
  held : ∀ item, state.worker.holds item = true → item ∈ state.history.executed.map Prod.fst
  recorded : ∀ item outcome, (item, outcome) ∈ state.history.executed →
    Recorded state.worker item (state.items item) outcome
  fresh : ∀ item, item ∉ state.history.executed.map Prod.fst →
    state.items item = ⟨default, none, false⟩
  fits : ∀ thread, (state.caller thread).Fits state.items
  calls : ∀ thread item, (state.caller thread).item = some item →
    state.history.requests[item]? = some thread
  owned : ∀ item < state.history.requests.length,
    (∃ answered ∈ state.history.answered, answered.2.1 = item) ∨
      ∃ thread, (state.caller thread).item = some item
  answered : ∀ thread item answer, (thread, item, answer) ∈ state.history.answered →
    (state.items item).m_signal = true ∧ state.history.requests[item]? = some thread ∧
      ∃ outcome, (item, outcome) ∈ state.history.executed ∧ outcome.answer = some answer

variable {state : State Thread Value Error}

theorem Recorded.signalled_iff {worker : Worker Error} {item : Nat} {work : WorkItem Value Error}
    {outcome : DoWork Value Error} (recorded : Recorded worker item work outcome) :
    work.m_signal = true ↔ worker.holds item = false := by
  cases outcome with
  | returned value =>
      rw [recorded.2]
      simp
  | threw err =>
      rcases recorded with ⟨rfl, rfl⟩ | ⟨-, rfl⟩
      · simp [Worker.holds]
      · simp
  | threwOther => exact recorded.elim

/-- An item is signalled when it was executed and the worker does not hold it. -/
theorem Serving.signalled_iff (serving : Serving state) (item : Nat) :
    (state.items item).m_signal = true ↔
      item ∈ state.history.executed.map Prod.fst ∧ state.worker.holds item = false := by
  by_cases executed : item ∈ state.history.executed.map Prod.fst
  · obtain ⟨⟨_, outcome⟩, mem, rfl⟩ := List.mem_map.mp executed
    rw [(serving.recorded _ outcome mem).signalled_iff]
    exact (and_iff_right executed).symm
  · rw [serving.fresh item executed]
    constructor
    · intro impossible
      cases impossible
    · intro both
      exact absurd both.1 executed

theorem Serving.mem_iff (serving : Serving state) (item : Nat) :
    item ∈ state.history.executed.map Prod.fst ∨ item ∈ state.worker.taken ∨ item ∈ state.m_work ↔
      item < state.history.requests.length := by
  rw [← List.mem_range, ← serving.order, List.mem_append, List.mem_append, or_assoc]

/-- The items of the queue and the taken one are not yet executed. -/
theorem Serving.not_executed (serving : Serving state) {item : Nat}
    (waits : item ∈ state.worker.taken ∨ item ∈ state.m_work) :
    item ∉ state.history.executed.map Prod.fst := by
  have distinct := List.nodup_range (n := state.history.requests.length)
  rw [← serving.order, List.append_assoc] at distinct
  intro executed
  exact (List.disjoint_of_nodup_append distinct) executed (List.mem_append.mpr waits)

end Invariant

section Steps

variable [DecidableEq Thread] [Inhabited Value] {state : State Thread Value Error}

/-- A caller that goes on with its item leaves the invariant. -/
theorem Serving.setCaller (serving : Serving state) {thread : Thread} {caller : Caller Value}
    (same : caller.item = (state.caller thread).item) (fits : caller.Fits state.items) :
    Serving (state.setCaller thread caller) := by
  have items (other : Thread) :
      ((state.setCaller thread caller).caller other).item = (state.caller other).item := by
    by_cases own : other = thread
    · subst own
      simpa only [State.setCaller, Function.update_self] using same
    · simp only [State.setCaller, Function.update_of_ne own]
  refine ⟨serving.order, serving.alive, serving.asleep, serving.held, serving.recorded,
    serving.fresh, ?_, ?_, ?_, serving.answered⟩
  · intro other
    by_cases own : other = thread
    · subst own
      simpa only [State.setCaller, Function.update_self] using fits
    · simpa only [State.setCaller, Function.update_of_ne own] using serving.fits other
  · intro other item here
    rw [items] at here
    exact serving.calls other item here
  · intro item less
    rcases serving.owned item less with answered | ⟨other, here⟩
    · exact .inl answered
    · exact .inr ⟨other, (items other).trans here⟩

theorem Serving.addWork (serving : Serving state) {thread : Thread}
    (idle : state.caller thread = .idle) : Serving (state.addWork thread) := by
  have notNew {item : Nat} (executed : item ∈ state.history.executed.map Prod.fst) :
      item ≠ state.history.requests.length :=
    ((serving.mem_iff item).mp (.inl executed)).ne
  have taken : (state.addWork thread).worker.taken = state.worker.taken := by
    simp only [State.addWork]
    cases state.worker <;> rfl
  have holds (item : Nat) : (state.addWork thread).worker.holds item = state.worker.holds item := by
    simp only [State.addWork]
    cases state.worker <;> rfl
  have saves (item : Nat) (err : Error) : (state.addWork thread).worker = .saveException item err ↔
      state.worker = .saveException item err := by
    simp only [State.addWork]
    cases state.worker <;> simp
  have kept {item : Nat} (old : item ≠ state.history.requests.length) :
      (state.addWork thread).items item = state.items item := Function.update_of_ne old _ _
  have others {other : Thread} (different : other ≠ thread) :
      (state.addWork thread).caller other = state.caller other :=
    Function.update_of_ne different _ _
  have own : (state.addWork thread).caller thread = .waitForSignal state.history.requests.length :=
    Function.update_self _ _ _
  have length : (state.addWork thread).history.requests.length =
      state.history.requests.length + 1 := List.length_append
  have older {item : Nat} {other : Thread}
      (here : state.history.requests[item]? = some other) :
      (state.addWork thread).history.requests[item]? = some other ∧
        item ≠ state.history.requests.length := by
    obtain ⟨less, -⟩ := List.getElem?_eq_some_iff.mp here
    exact ⟨(List.getElem?_append_left less).trans here, less.ne⟩
  refine ⟨?_, ?_, ?_, ?_, ?_, ?_, ?_, ?_, ?_, ?_⟩
  · rw [taken, length, List.range_succ, ← serving.order]
    exact (List.append_assoc _ _ _).symm
  · simp only [State.addWork]
    have alive := serving.alive
    cases worker : state.worker <;> simp_all
  · simp only [State.addWork]
    cases state.worker <;> nofun
  · intro item holding
    rw [holds] at holding
    exact serving.held item holding
  · intro item outcome executed
    have recorded := serving.recorded item outcome executed
    rw [kept (notNew (List.mem_map_of_mem executed))]
    cases outcome with
    | returned value =>
        rw [Recorded, holds]
        simp only [ne_eq, saves]
        exact recorded
    | threw err =>
        rw [Recorded, holds, saves]
        simp only [ne_eq, saves]
        exact recorded
    | threwOther => exact recorded
  · intro item unexecuted
    by_cases new : item = state.history.requests.length
    · rw [new]
      exact Function.update_self _ _ _
    · rw [kept new]
      exact serving.fresh item unexecuted
  · intro other
    by_cases same : other = thread
    · rw [same, own]
      trivial
    · rw [others same]
      have fits := serving.fits other
      have calls := serving.calls other
      cases point : state.caller other with
      | idle | waitForSignal item => trivial
      | asleep item | readResult item =>
          rw [point] at fits calls
          rw [Caller.Fits, kept (older (calls item rfl)).2]
          exact fits
      | getException item result =>
          rw [point] at fits calls
          rw [Caller.Fits, kept (older (calls item rfl)).2]
          exact fits
  · intro other item here
    by_cases same : other = thread
    · rw [same, own] at here
      cases here
      rw [same]
      exact List.getElem?_concat_length
    · rw [others same] at here
      exact (older (serving.calls other item here)).1
  · intro item less
    rw [length] at less
    by_cases new : item = state.history.requests.length
    · exact .inr ⟨thread, by rw [own, new]; rfl⟩
    · rcases serving.owned item (by omega) with answered | ⟨other, here⟩
      · exact .inl answered
      · refine .inr ⟨other, ?_⟩
        have different : other ≠ thread := by
          rintro rfl
          rw [idle] at here
          cases here
        rw [others different]
        exact here
  · intro other item answer mem
    obtain ⟨signalled, requested, executed⟩ := serving.answered other item answer mem
    obtain ⟨still, old⟩ := older requested
    rw [kept old]
    exact ⟨signalled, still, executed⟩

/-- The call answers with what was recorded of its item. -/
theorem Serving.getException (serving : Serving state) {thread : Thread} {item : Nat}
    {result : Value} (here : state.caller thread = .getException item result) :
    Serving (state.getException thread item result) := by
  have fits := serving.fits thread
  rw [here] at fits
  obtain ⟨signalled, isResult⟩ := fits
  have requested := serving.calls thread item (by rw [here]; rfl)
  have others {other : Thread} (different : other ≠ thread) :
      (state.getException thread item result).caller other = state.caller other :=
    Function.update_of_ne different _ _
  have own : (state.getException thread item result).caller thread = .idle :=
    Function.update_self _ _ _
  refine ⟨serving.order, serving.alive, serving.asleep, serving.held, serving.recorded,
    serving.fresh, ?_, ?_, ?_, ?_⟩
  · intro other
    by_cases same : other = thread
    · rw [same, own]
      trivial
    · rw [others same]
      exact serving.fits other
  · intro other others_item calls
    by_cases same : other = thread
    · rw [same, own] at calls
      cases calls
    · rw [others same] at calls
      exact serving.calls other others_item calls
  · intro otherItem less
    rcases serving.owned otherItem less with ⟨answered, mem, is⟩ | ⟨other, calls⟩
    · exact .inl ⟨answered, List.mem_append_left _ mem, is⟩
    · by_cases same : other = thread
      · rw [same, here] at calls
        refine .inl ⟨_, List.mem_append_right _ (List.mem_singleton_self _), ?_⟩
        exact Option.some.inj calls
      · exact .inr ⟨other, by rw [others same]; exact calls⟩
  · intro other otherItem answer mem
    rcases List.mem_append.mp mem with old | new
    · exact serving.answered other otherItem answer old
    · cases List.mem_singleton.mp new
      refine ⟨signalled, requested, ?_⟩
      obtain ⟨executed, free⟩ := (serving.signalled_iff item).mp signalled
      obtain ⟨⟨_, outcome⟩, found, rfl⟩ := List.mem_map.mp executed
      refine ⟨outcome, found, ?_⟩
      have recorded := serving.recorded _ outcome found
      cases outcome with
      | returned value =>
          rw [isResult, recorded.2]
          rfl
      | threw err =>
          rcases recorded with ⟨saves, -⟩ | ⟨-, recorded⟩
          · rw [saves] at free
            simp [Worker.holds] at free
          · rw [recorded]
            rfl
      | threwOther => exact recorded.elim

omit [DecidableEq Thread] in
/-- The worker takes an item, or it goes to sleep. -/
theorem Serving.getWork (serving : Serving state) (m_work : List Nat) (worker : Worker Error)
    (before : ∀ item, state.worker.holds item = false) (after : ∀ item, worker.holds item = false)
    (alive : worker ≠ .ended)
    (order : state.worker.taken ++ state.m_work = worker.taken ++ m_work)
    (asleep : worker = .asleep → m_work = []) :
    Serving { state with m_work := m_work, worker := worker } := by
  have saves {worker : Worker Error} (free : ∀ item, worker.holds item = false) (item : Nat)
      (err : Error) : worker ≠ .saveException item err := by
    rintro rfl
    simpa [Worker.holds] using free item
  refine ⟨?_, alive, asleep, ?_, ?_, serving.fresh, serving.fits, serving.calls, serving.owned,
    serving.answered⟩
  · rw [← serving.order, List.append_assoc, List.append_assoc, order]
  · intro item holding
    rw [after item] at holding
    cases holding
  · intro item outcome executed
    have recorded := serving.recorded item outcome executed
    cases outcome with
    | returned value =>
        rw [Recorded, before item] at recorded
        rw [Recorded, after item]
        exact ⟨saves after item, recorded.2⟩
    | threw err =>
        rcases recorded with ⟨saving, -⟩ | ⟨-, recorded⟩
        · exact absurd saving (saves before item err)
        · rw [before item] at recorded
          refine .inr ⟨saves after item, ?_⟩
          rw [after item]
          exact recorded
    | threwOther => exact recorded.elim

omit [DecidableEq Thread] in
/-- A section of the worker that changes the members of an item that nobody was told about. -/
theorem Serving.fits_setItem (serving : Serving state) {item : Nat} {work : WorkItem Value Error}
    (unsignalled : (state.items item).m_signal = false) (still : work.m_signal = false)
    (thread : Thread) :
    (state.caller thread).Fits (Function.update state.items item work) := by
  have fits := serving.fits thread
  cases point : state.caller thread with
  | idle | waitForSignal other => trivial
  | asleep other =>
      by_cases same : other = item
      · rw [Caller.Fits, same, Function.update_self]
        exact still
      · rw [Caller.Fits, Function.update_of_ne same]
        rw [point] at fits
        exact fits
  | readResult other =>
      rw [point] at fits
      have same : other ≠ item := by
        rintro rfl
        exact Bool.false_ne_true (unsignalled.symm.trans fits)
      rw [Caller.Fits, Function.update_of_ne same]
      exact fits
  | getException other result =>
      rw [point] at fits
      have same : other ≠ item := by
        rintro rfl
        exact Bool.false_ne_true (unsignalled.symm.trans fits.1)
      rw [Caller.Fits, Function.update_of_ne same]
      exact fits

/-- What was recorded of another item stays so when the worker has gone on. -/
theorem Recorded.of_other {worker later : Worker Error} {item other : Nat}
    {work : WorkItem Value Error} {outcome : DoWork Value Error}
    (recorded : Recorded worker other work outcome) (different : item ≠ other)
    (before : ∀ number, number ≠ item → worker.holds number = false)
    (after : ∀ number, number ≠ item → later.holds number = false) :
    Recorded later other work outcome := by
  have saves {worker : Worker Error} (free : ∀ number, number ≠ item → worker.holds number = false)
      (err : Error) : worker ≠ .saveException other err := by
    rintro rfl
    simpa [Worker.holds] using free other different.symm
  cases outcome with
  | returned value =>
      rw [Recorded, before other different.symm] at recorded
      rw [Recorded, after other different.symm]
      exact ⟨saves after, recorded.2⟩
  | threw err =>
      rcases recorded with ⟨saving, -⟩ | ⟨-, recorded⟩
      · exact absurd saving (saves before err)
      · rw [before other different.symm] at recorded
        refine .inr ⟨saves after, ?_⟩
        rw [after other different.symm]
        exact recorded
  | threwOther => exact recorded.elim

omit [DecidableEq Thread] in
/-- An item is executed without another exception than its own. -/
theorem Serving.doWork (serving : Serving state) {item : Nat} (here : state.worker = .doWork item)
    {outcome : DoWork Value Error} (own : outcome ≠ .threwOther) :
    Serving (state.doWork item outcome) := by
  have unexecuted : item ∉ state.history.executed.map Prod.fst :=
    serving.not_executed (.inl (by rw [here]; exact List.mem_singleton_self _))
  have isFresh := serving.fresh item unexecuted
  have unsignalled : (state.items item).m_signal = false := by rw [isFresh]
  have executed : (state.doWork item outcome).history.executed =
      state.history.executed ++ [(item, outcome)] := by
    cases outcome <;> rfl
  have rest : (state.doWork item outcome).history.requests = state.history.requests ∧
      (state.doWork item outcome).history.answered = state.history.answered ∧
      (state.doWork item outcome).caller = state.caller ∧
      (state.doWork item outcome).m_work = state.m_work := by
    cases outcome <;> exact ⟨rfl, rfl, rfl, rfl⟩
  have later : (state.doWork item outcome).worker.taken = [] ∧
      (state.doWork item outcome).worker ≠ .ended ∧
      (state.doWork item outcome).worker ≠ .asleep ∧
      ∀ number, (state.doWork item outcome).worker.holds number = (item == number) := by
    cases outcome with
    | returned | threw => exact ⟨rfl, nofun, nofun, fun _ => rfl⟩
    | threwOther => exact absurd rfl own
  have kept {number : Nat} (different : number ≠ item) :
      (state.doWork item outcome).items number = state.items number := by
    cases outcome with
    | returned => exact Function.update_of_ne different _ _
    | threw | threwOther => rfl
  have mine : Recorded (state.doWork item outcome).worker item
      ((state.doWork item outcome).items item) outcome ∧
      ((state.doWork item outcome).items item).m_signal = false := by
    cases outcome with
    | returned value =>
        have is : (state.doWork item (.returned value)).items item = ⟨value, none, false⟩ := by
          refine (Function.update_self _ _ _).trans ?_
          show ({ state.items item with m_result := value } : WorkItem Value Error) = _
          rw [isFresh]
        rw [is]
        refine ⟨⟨nofun, ?_⟩, rfl⟩
        rw [later.2.2.2 item, beq_self_eq_true]
        rfl
    | threw err => exact ⟨.inl ⟨rfl, isFresh⟩, unsignalled⟩
    | threwOther => exact absurd rfl own
  have same : (state.doWork item outcome).items = Function.update state.items item
      ((state.doWork item outcome).items item) := by
    funext number
    by_cases is : number = item
    · rw [is, Function.update_self]
    · rw [Function.update_of_ne is, kept is]
  obtain ⟨requests, answered, caller, m_work⟩ := rest
  obtain ⟨taken, alive, awake, holds⟩ := later
  refine ⟨?_, alive, fun asleep => absurd asleep awake, ?_, ?_, ?_, ?_, ?_, ?_, ?_⟩
  · rw [executed, taken, m_work, requests, ← serving.order, here]
    simp [Worker.taken]
  · intro number holding
    rw [holds, beq_iff_eq] at holding
    rw [executed, ← holding]
    simp
  · intro number other mem
    rw [executed] at mem
    rcases List.mem_append.mp mem with old | new
    · have different : item ≠ number := by
        rintro rfl
        exact unexecuted (List.mem_map_of_mem old)
      rw [kept different.symm]
      refine (serving.recorded number other old).of_other different ?_ ?_
      · intro another _
        rw [here]
        rfl
      · intro another not
        rw [holds]
        exact beq_false_of_ne not.symm
    · cases List.mem_singleton.mp new
      exact mine.1
  · intro number not
    rw [executed, List.map_append, List.mem_append, not_or] at not
    rw [kept fun is => not.2 (by rw [is]; exact List.mem_singleton_self _)]
    exact serving.fresh number not.1
  · intro thread
    rw [same, caller]
    exact serving.fits_setItem unsignalled mine.2 thread
  · rw [caller, requests]
    exact serving.calls
  · rw [caller, requests, answered]
    exact serving.owned
  · intro thread number answer mem
    rw [answered] at mem
    obtain ⟨signalled, requested, found, old, is⟩ := serving.answered thread number answer mem
    have different : number ≠ item := by
      rintro rfl
      exact Bool.false_ne_true (unsignalled.symm.trans signalled)
    rw [kept different, requests, executed]
    exact ⟨signalled, requested, found, List.mem_append_left _ old, is⟩

omit [DecidableEq Thread] in
/-- The worker changes the executed item that it holds. -/
theorem Serving.setItem (serving : Serving state) {item : Nat} (work : WorkItem Value Error)
    (worker : Worker Error) (caller : Thread → Caller Value)
    (executed : item ∈ state.history.executed.map Prod.fst) (taken : state.worker.taken = [])
    (before : ∀ number, number ≠ item → state.worker.holds number = false)
    (after : ∀ number, number ≠ item → worker.holds number = false)
    (awake : worker ≠ .ended ∧ worker ≠ .asleep ∧ worker.taken = [])
    (mine : ∀ outcome, Recorded state.worker item (state.items item) outcome →
      Recorded worker item work outcome)
    (stays : (state.items item).m_signal = true → work.m_signal = true)
    (same : ∀ thread, (caller thread).item = (state.caller thread).item)
    (fits : ∀ thread, (caller thread).Fits (Function.update state.items item work)) :
    Serving { state with
      items := Function.update state.items item work, worker := worker, caller := caller } := by
  refine ⟨?_, awake.1, fun asleep => absurd asleep awake.2.1, ?_, ?_, ?_, fits, ?_, ?_, ?_⟩
  · rw [← serving.order, taken, awake.2.2]
  · intro number holding
    by_cases is : number = item
    · rw [is]
      exact executed
    · rw [after number is] at holding
      cases holding
  · intro number outcome mem
    have recorded := serving.recorded number outcome mem
    by_cases is : number = item
    · subst is
      simp only [Function.update_self]
      exact mine outcome recorded
    · simp only [Function.update_of_ne is]
      exact recorded.of_other (Ne.symm is) before after
  · intro number not
    have is : number ≠ item := by
      rintro rfl
      exact not executed
    simp only [Function.update_of_ne is]
    exact serving.fresh number not
  · intro thread number here
    exact serving.calls thread number ((same thread).symm.trans here)
  · intro number less
    rcases serving.owned number less with answered | ⟨thread, here⟩
    · exact .inl answered
    · exact .inr ⟨thread, (same thread).trans here⟩
  · intro thread number answer mem
    obtain ⟨signalled, requested, found⟩ := serving.answered thread number answer mem
    refine ⟨?_, requested, found⟩
    by_cases is : number = item
    · subst is
      simp only [Function.update_self]
      exact stays signalled
    · simp only [Function.update_of_ne is]
      exact signalled

omit [DecidableEq Thread] in
/-- The worker holds at most one item. -/
theorem Worker.holds_of_ne {worker : Worker Error} {item : Nat}
    (here : (∃ err, worker = .saveException item err) ∨ worker = .signalDone item) (number : Nat)
    (different : number ≠ item) : worker.holds number = false := by
  rcases here with ⟨err, rfl⟩ | rfl <;> exact beq_false_of_ne different.symm

omit [DecidableEq Thread] in
theorem Serving.saveException (serving : Serving state) {item : Nat} {err : Error}
    (here : state.worker = .saveException item err) :
    Serving { state.setItem item fun work => { work with m_err := some err } with
      worker := .signalDone item } := by
  have holding : state.worker.holds item = true := by
    rw [here]
    exact beq_self_eq_true item
  have unsignalled : (state.items item).m_signal = false := by
    rw [Bool.eq_false_iff, Ne, serving.signalled_iff, holding]
    simp
  apply serving.setItem { state.items item with m_err := some err } (.signalDone item) state.caller
    (serving.held item holding) (by rw [here]; rfl) (Worker.holds_of_ne (.inl ⟨err, here⟩))
    (Worker.holds_of_ne (.inr rfl)) ⟨nofun, nofun, rfl⟩
  case mine =>
    intro outcome recorded
    have free : (∀ other, (.signalDone item : Worker Error) ≠ .saveException item other) ∧
        (.signalDone item : Worker Error).holds item = true :=
      ⟨nofun, beq_self_eq_true item⟩
    cases outcome with
    | returned value => exact absurd here (recorded.1 err)
    | threw other =>
        rcases recorded with ⟨saving, is⟩ | ⟨never, -⟩
        · rw [here] at saving
          cases saving
          refine .inr ⟨free.1, ?_⟩
          rw [is, free.2]
          rfl
        · exact absurd here (never err)
    | threwOther => exact recorded.elim
  case stays => exact id
  case same => exact fun _ => rfl
  case fits => exact serving.fits_setItem unsignalled unsignalled

omit [DecidableEq Thread] in
theorem Serving.signalDone (serving : Serving state) {item : Nat}
    (here : state.worker = .signalDone item) : Serving (state.signalDone item) := by
  have holding : state.worker.holds item = true := by
    rw [here]
    exact beq_self_eq_true item
  apply serving.setItem { state.items item with m_signal := true } .getWork
    (fun thread => State.notifyAll item (state.caller thread)) (serving.held item holding)
    (by rw [here]; rfl) (Worker.holds_of_ne (.inr here)) (fun _ _ => rfl) ⟨nofun, nofun, rfl⟩
  case mine =>
    intro outcome recorded
    have free (other : Error) : (.getWork : Worker Error) ≠ .saveException item other := nofun
    cases outcome with
    | returned value =>
        refine ⟨free, ?_⟩
        rw [recorded.2]
        rfl
    | threw other =>
        rcases recorded with ⟨saving, -⟩ | ⟨-, is⟩
        · rw [here] at saving
          cases saving
        · refine .inr ⟨free, ?_⟩
          rw [is]
          rfl
    | threwOther => exact recorded.elim
  case stays => exact fun _ => rfl
  case same =>
    intro thread
    cases state.caller thread with
    | asleep other =>
        simp only [State.notifyAll]
        split
        · next is =>
            rw [is]
            rfl
        · rfl
    | idle | waitForSignal | readResult | getException => rfl
  case fits =>
    intro thread
    have fits := serving.fits thread
    cases point : state.caller thread with
    | idle | waitForSignal other => trivial
    | asleep other =>
        rw [point] at fits
        simp only [State.notifyAll]
        split
        · trivial
        · next different =>
            rw [Caller.Fits, Function.update_of_ne different]
            exact fits
    | readResult other =>
        rw [point] at fits
        show (Function.update state.items item _ other).m_signal = true
        by_cases is : other = item
        · rw [is, Function.update_self]
        · rw [Function.update_of_ne is]
          exact fits
    | getException other result =>
        rw [point] at fits
        show (Function.update state.items item _ other).m_signal = true ∧
          result = (Function.update state.items item _ other).m_result
        by_cases is : other = item
        · subst is
          rw [Function.update_self]
          exact ⟨rfl, fits.2⟩
        · rw [Function.update_of_ne is]
          exact fits

/-- Each step without another exception than a `blocxx::Exception` keeps the invariant. -/
theorem Serving.step (serving : Serving state) {next : State Thread Value Error}
    {label : Label Thread Value Error} (taken : state.next label = some next)
    (own : ∀ outcome, label = .doWork outcome → outcome ≠ .threwOther) : Serving next := by
  cases label with
  | addWork thread =>
      simp only [State.next] at taken
      split at taken
      · next idle =>
          cases taken
          exact serving.addWork idle
      · cases taken
  | waitForSignal thread =>
      simp only [State.next] at taken
      split at taken
      · next item here =>
          cases taken
          apply serving.setCaller
          · rw [here]
            split <;> rfl
          · split
            · next signalled => exact signalled
            · next unsignalled => exact Bool.eq_false_of_not_eq_true unsignalled
      · cases taken
  | rouse thread =>
      simp only [State.next] at taken
      split at taken
      · next item here =>
          cases taken
          apply serving.setCaller
          · rw [here]
            rfl
          · trivial
      · cases taken
  | readResult thread =>
      simp only [State.next] at taken
      split at taken
      · next item here =>
          cases taken
          apply serving.setCaller
          · rw [here]
            rfl
          · have fits := serving.fits thread
            rw [here] at fits
            exact ⟨fits, rfl⟩
      · cases taken
  | getException thread =>
      simp only [State.next] at taken
      split at taken
      · next item result here =>
          cases taken
          exact serving.getException here
      · cases taken
  | getWork =>
      simp only [State.next] at taken
      split at taken
      · next item rest here queue =>
          cases taken
          apply serving.getWork rest (.doWork item) (by rw [here]; exact fun _ => rfl)
            (fun _ => rfl) nofun _ nofun
          rw [here, queue]
          rfl
      · next here queue =>
          cases taken
          apply serving.getWork state.m_work .asleep (by rw [here]; exact fun _ => rfl)
            (fun _ => rfl) nofun _ fun _ => queue
          rw [here]
          rfl
      · cases taken
  | rouseWorker =>
      simp only [State.next] at taken
      split at taken
      · next here =>
          cases taken
          apply serving.getWork state.m_work .getWork (by rw [here]; exact fun _ => rfl)
            (fun _ => rfl) nofun _ nofun
          rw [here]
          rfl
      · cases taken
  | doWork outcome =>
      simp only [State.next] at taken
      split at taken
      · next item here =>
          cases taken
          exact serving.doWork here (own outcome rfl)
      · cases taken
  | saveException =>
      simp only [State.next] at taken
      split at taken
      · next item err here =>
          cases taken
          exact serving.saveException here
      · cases taken
  | signalDone =>
      simp only [State.next] at taken
      split at taken
      · next item here =>
          cases taken
          exact serving.signalDone here
      · cases taken

end Steps

section Progress

/-- The number of steps that the worker takes for the items that it knows, at most. -/
def State.workLeft (state : State Thread Value Error) : Nat :=
  4 * state.m_work.length +
    match state.worker with
    | .doWork _ => 3
    | .saveException _ _ => 2
    | .signalDone _ => 1
    | _ => 0

variable [DecidableEq Thread] [Inhabited Value] {state : State Thread Value Error}

omit [DecidableEq Thread] in
/-- While an item is not signalled, the worker has work to do. -/
theorem Serving.busy (serving : Serving state) {item : Nat}
    (requested : item < state.history.requests.length)
    (unsignalled : ¬ (state.items item).m_signal = true) :
    state.worker.holds item = true ∨ item ∈ state.worker.taken ∨ item ∈ state.m_work := by
  rcases (serving.mem_iff item).mpr requested with executed | waits
  · left
    by_contra free
    exact unsignalled ((serving.signalled_iff item).mpr
      ⟨executed, Bool.eq_false_of_not_eq_true free⟩)
  · exact .inr waits

/-- The worker takes a step by itself that leaves less to do. -/
theorem Serving.proceeds (serving : Serving state) {item : Nat}
    (requested : item < state.history.requests.length)
    (unsignalled : ¬ (state.items item).m_signal = true) :
    ∃ label next, state.next label = some next ∧ label.OfWorker ∧
      (∀ outcome, label = .doWork outcome → outcome ≠ .threwOther) ∧
      next.history.requests = state.history.requests ∧ next.workLeft < state.workLeft := by
  have busy := serving.busy requested unsignalled
  cases here : state.worker with
  | getWork =>
      cases queue : state.m_work with
      | nil =>
          rw [here, queue] at busy
          simp [Worker.holds, Worker.taken] at busy
      | cons first rest =>
          refine ⟨.getWork, { state with m_work := rest, worker := .doWork first }, ?_, trivial,
            nofun, rfl, ?_⟩
          · simp only [State.next, here, queue]
          · simp only [State.workLeft, here, queue, List.length_cons]
            omega
  | asleep =>
      rw [here, serving.asleep here] at busy
      simp [Worker.holds, Worker.taken] at busy
  | doWork taken =>
      refine ⟨.doWork (.returned default), state.doWork taken (.returned default), ?_, trivial, ?_,
        rfl, ?_⟩
      · simp only [State.next, here]
      · rintro _ ⟨⟩
        exact nofun
      · simp only [State.workLeft, here]
        show 4 * state.m_work.length + 1 < _
        omega
  | saveException held err =>
      refine ⟨.saveException, { state.setItem held fun work => { work with m_err := some err } with
        worker := .signalDone held }, ?_, trivial, nofun, rfl, ?_⟩
      · simp only [State.next, here]
      · simp only [State.workLeft, here]
        show 4 * state.m_work.length + 1 < _
        omega
  | signalDone held =>
      refine ⟨.signalDone, state.signalDone held, ?_, trivial, nofun, rfl, ?_⟩
      · simp only [State.next, here]
      · simp only [State.workLeft, here]
        show 4 * state.m_work.length < _
        omega
  | ended => exact absurd here serving.alive

/-- The worker alone comes to signal every item. -/
theorem Serving.reaches_signal (serving : Serving state) {item : Nat}
    (requested : item < state.history.requests.length) :
    ∃ later, workerSystem.Reaches state later ∧ (later.items item).m_signal = true := by
  generalize left : state.workLeft = fuel
  induction fuel using Nat.strong_induction_on generalizing state with
  | _ fuel ih =>
      by_cases signalled : (state.items item).m_signal = true
      · exact ⟨state, .refl, signalled⟩
      · obtain ⟨label, next, taken, ofWorker, own, requests, less⟩ :=
          serving.proceeds requested signalled
        rw [left] at less
        obtain ⟨later, reaches, signal⟩ := ih next.workLeft less (serving.step taken own)
          (by rw [requests]; exact requested) rfl
        exact ⟨later, .head ⟨label, taken, ofWorker⟩ reaches, signal⟩

theorem Serving.answersEvery (serving : Serving state) : AnswersEvery state where
  order := serving.order
  own thread item answer mem := (serving.answered thread item answer mem).2
  kept := by
    rintro item waits ⟨thread, other, answer⟩ mem rfl
    obtain ⟨executed, free⟩ :=
      (serving.signalled_iff _).mp (serving.answered thread _ answer mem).1
    rcases waits with taken | held | queued
    · exact serving.not_executed (.inl taken) executed
    · exact Bool.false_ne_true (free.symm.trans held)
    · exact serving.not_executed (.inr queued) executed
  woken := by
    intro thread item here
    have fits := serving.fits thread
    rw [here] at fits
    exact fits
  served := by
    intro thread item here
    obtain ⟨less, -⟩ := List.getElem?_eq_some_iff.mp (serving.calls thread item here)
    exact serving.reaches_signal less

omit [DecidableEq Thread] in
theorem serving_start : Serving (start : State Thread Value Error) where
  order := rfl
  alive := nofun
  asleep := nofun
  held := nofun
  recorded := nofun
  fresh _ _ := rfl
  fits _ := trivial
  calls := nofun
  owned := nofun
  answered := nofun

/-- The worker does not come back. -/
theorem ended_of_reaches {later : State Thread Value Error} (ended : state.worker = .ended)
    (reaches : workerSystem.Reaches state later) : later = state := by
  induction reaches with
  | refl => rfl
  | tail before taken ih =>
      subst ih
      obtain ⟨label, taken, ofWorker⟩ := taken
      have taken : State.next _ label = some _ := taken
      cases label <;> simp_all [State.next, Label.OfWorker]

/-- Behind another exception the caller of the item waits in vain. -/
theorem Serving.not_served (serving : Serving state) {next : State Thread Value Error}
    (taken : state.next (.doWork .threwOther) = some next) : ¬ AnswersEvery next := by
  intro answers
  simp only [State.next] at taken
  split at taken
  · next item here =>
      cases taken
      have waits : item ∈ state.worker.taken := by
        rw [here]
        exact List.mem_singleton_self item
      have unsignalled : (state.items item).m_signal = false := by
        rw [serving.fresh item (serving.not_executed (.inl waits))]
      have requested := (serving.mem_iff item).mp (.inr (.inl waits))
      rcases serving.owned item requested with ⟨⟨thread, _, answer⟩, mem, rfl⟩ | ⟨thread, calls⟩
      · exact Bool.false_ne_true
          (unsignalled.symm.trans (serving.answered thread _ answer mem).1)
      · obtain ⟨later, reaches, signalled⟩ := answers.served thread item calls
        rw [ended_of_reaches rfl reaches] at signalled
        exact Bool.false_ne_true (unsignalled.symm.trans signalled)
  · cases taken

end Progress

section Theorem

variable [DecidableEq Thread] [Inhabited Value]

/-- Thread `true` asks, and its item ends so. -/
def oneRequest (outcome : DoWork Nat Nat) : List (Label Bool Nat Nat) :=
  [.addWork true, .getWork, .waitForSignal true, .doWork outcome, .signalDone]

end Theorem

end Blocxx.WaitpidThreadFix
