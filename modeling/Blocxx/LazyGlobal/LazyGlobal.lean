import Blocxx.Library.TransitionSystem

/-!
This file embeds `callOnce`, the calls of `get` on one `LazyGlobal` or `GlobalPtr`, and the
destructor of the first one, and proves when they make one object. Each step reads or writes one
shared variable.
-/

namespace Blocxx.LazyGlobals

open Library

/-- Where a thread stands in a call of `get`. -/
inductive Phase where
  | idle
  /-- The flag was zero outside of the lock. -/
  | locking
  | locked
  /-- The function of `callOnce` runs. -/
  | running
  /-- The function has completed, and the flag is not set. -/
  | flagging
  | unlocking
  /-- `callOnce` has returned, and `m_p` is not read. -/
  | reading
  deriving DecidableEq

/-- The end of a call with the value of `m_p`, or with the exception of the function. -/
inductive Result where
  | returned (m_p : Option Nat)
  | threw
  deriving DecidableEq

/-- The fields after `phase` are auxiliary. The lists of completed runs and of results start again
with the destructor. -/
structure State (Thread : Type) where
  m_p : Option Nat
  flag : Bool
  mtx : Option Thread
  phase : Thread → Phase
  inside : List Thread
  created : Nat
  deleted : List Nat
  completed : List Nat
  results : List (Thread × Result)
  destroyed : Bool
  failed : Bool

inductive Label (Thread : Type) where
  /-- The test of the flag outside of the lock. -/
  | enter (thread : Thread)
  | lock (thread : Thread)
  /-- The test of the flag inside of the lock. -/
  | test (thread : Thread)
  | completes (thread : Thread)
  | throws (thread : Thread)
  | setFlag (thread : Thread)
  | unlock (thread : Thread)
  | returns (thread : Thread)
  /-- The destructor of the `LazyGlobal`, in which the one of the object may throw. -/
  | destroy (throws : Bool)
  deriving DecidableEq

variable {Thread : Type} [DecidableEq Thread]

namespace State

variable (state : State Thread)

def move (thread : Thread) (phase : Phase) : State Thread :=
  { state with phase := Function.update state.phase thread phase }

/-- The end of a call. -/
def finish (thread : Thread) (result : Result) : State Thread :=
  { state.move thread .idle with
    inside := state.inside.filter (· ≠ thread)
    results := state.results ++ [(thread, result)] }

/-- An exception of the object's destructor leaves `m_p` and the flag. -/
def destroy (throws : Bool) : State Thread :=
  let after := { state with
    deleted := state.m_p.toList ++ state.deleted
    completed := []
    results := []
    destroyed := true
    failed := throws }
  if throws then after else { after with m_p := none, flag := false, mtx := none }

/-- No call is in progress while the destructor runs. -/
def next : Label Thread → Option (State Thread)
  | .enter thread =>
      if state.phase thread = .idle then
        some { state.move thread (if state.flag then .reading else .locking) with
          inside := thread :: state.inside }
      else none
  | .lock thread =>
      if state.phase thread = .locking ∧ state.mtx = none then
        some { state.move thread .locked with mtx := some thread }
      else none
  | .test thread =>
      if state.phase thread = .locked then
        some (state.move thread (if state.flag then .unlocking else .running))
      else none
  | .completes thread =>
      if state.phase thread = .running then
        some { state.move thread .flagging with
          m_p := some state.created
          created := state.created + 1
          completed := state.completed ++ [state.created] }
      else none
  | .throws thread =>
      if state.phase thread = .running then
        some { state.finish thread .threw with mtx := none }
      else none
  | .setFlag thread =>
      if state.phase thread = .flagging then
        some { state.move thread .unlocking with flag := true }
      else none
  | .unlock thread =>
      if state.phase thread = .unlocking then some { state.move thread .reading with mtx := none }
      else none
  | .returns thread =>
      if state.phase thread = .reading then some (state.finish thread (.returned state.m_p))
      else none
  | .destroy throws =>
      if state.inside = [] ∧ state.destroyed = false ∧ (throws = true → state.m_p ≠ none) then
        some (state.destroy throws)
      else none

end State

/-- The object that `BLOCXX_LAZY_GLOBAL_INIT` initializes. -/
def start : State Thread := ⟨none, false, none, fun _ => .idle, [], 0, [], [], [], false, false⟩

def system : TransitionSystem (State Thread) (Label Thread) := .computed (· = start) State.next

variable {Thread : Type} [DecidableEq Thread]

section Property

/-- No two runs of the function overlap, at most one completes, and each call returns after it with
its object, which is not deleted. A run that throws ends its call and leaves the flag zero and the
mutex free, and then every call runs the function again. -/
structure Once (state : State Thread) : Prop where
  exclusive : ∀ first second, state.phase first = .running → state.phase second = .running →
    first = second
  once : state.completed.length ≤ 1
  returned : ∀ thread m_p, (thread, .returned m_p) ∈ state.results →
    ∃ object, m_p = some object ∧ state.completed = [object] ∧ object ∉ state.deleted
  thrown : ∀ thread next, state.next (.throws thread) = some next →
    next.results = state.results ++ [(thread, .threw)] ∧ next.flag = false ∧ next.mtx = none
  again : ∀ thread, state.flag = false → state.mtx = none → state.phase thread = .idle →
    ∃ steps, system.Run state steps ∧
      steps.map (·.label) = [.enter thread, .lock thread, .test thread] ∧
      ∀ step ∈ steps.getLast?, step.target.phase thread = .running

/-- No call returns after the object's destructor has thrown. -/
def Intact (state : State Thread) : Label Thread → Prop
  | .returns _ => state.failed = false
  | _ => True

end Property

section Phases

variable {mtx other : Option Thread} {flag later : Bool} {completed more : List Nat}
  {thread : Thread} {phase : Phase}

/-- What a phase says of the mutex, the flag, and the completed runs. -/
def Fits (mtx : Option Thread) (flag : Bool) (completed : List Nat) (thread : Thread) :
    Phase → Prop
  | .idle | .locking => True
  | .locked => mtx = some thread
  | .running => mtx = some thread ∧ flag = false ∧ completed = []
  | .flagging => mtx = some thread ∧ flag = false ∧ completed ≠ []
  | .unlocking => mtx = some thread ∧ flag = true
  | .reading => flag = true

omit [DecidableEq Thread] in
/-- A thread without the mutex depends only on a flag that is set. -/
theorem Fits.loose (fits : Fits mtx flag completed thread phase) (without : mtx ≠ some thread)
    (set : flag = true → later = true) : Fits other later more thread phase := by
  cases phase with
  | idle | locking => trivial
  | locked => exact absurd fits without
  | running | flagging | unlocking => exact absurd fits.1 without
  | reading => exact set fits

/-- The other threads still fit when one of them moves. -/
theorem fits_update {phases : Thread → Phase} (own : Fits other later more thread phase)
    (others : ∀ another, another ≠ thread → Fits other later more another (phases another)) :
    ∀ another, Fits other later more another (Function.update phases thread phase another) := by
  intro another
  by_cases same : another = thread
  · subst same
    rw [Function.update_self]
    exact own
  · rw [Function.update_of_ne same]
    exact others another same

end Phases

section Invariant

variable {state next : State Thread} {label : Label Thread} {thread : Thread}

/-- The invariant of the fields that no phase changes by itself. -/
structure Recorded (state : State Thread) : Prop where
  made : state.failed = false → (state.flag = true → state.completed ≠ []) ∧
    (state.completed = [] ∧ state.m_p = none ∨
      ∃ object, state.completed = [object] ∧ state.m_p = some object ∧ object ∉ state.deleted)
  fresh : (∀ object ∈ state.deleted, object < state.created) ∧
    ∀ object ∈ state.m_p, object < state.created
  failed : state.failed = true → state.destroyed = true ∧ state.flag = true ∧
    state.completed = [] ∧ ∃ object, state.m_p = some object ∧ object ∈ state.deleted
  returned : ∀ thread m_p, (thread, .returned m_p) ∈ state.results →
    ∃ object, m_p = some object ∧ state.completed = [object] ∧ object ∉ state.deleted

structure Kept (state : State Thread) : Prop where
  recorded : Recorded state
  fits : ∀ thread, Fits state.mtx state.flag state.completed thread (state.phase thread)
  inside : ∀ thread, state.phase thread ≠ .idle → thread ∈ state.inside
  flagging : state.flag = false → state.completed ≠ [] → ∃ thread, state.phase thread = .flagging

/-- A call on a free flag runs the function. -/
theorem runs_again (zero : state.flag = false) (free : state.mtx = none)
    (idle : state.phase thread = .idle) :
    ∃ steps, system.Run state steps ∧
      steps.map (·.label) = [.enter thread, .lock thread, .test thread] ∧
      ∀ step ∈ steps.getLast?, step.target.phase thread = .running := by
  let entered : State Thread :=
    { state.move thread .locking with inside := thread :: state.inside }
  let locked : State Thread := { entered.move thread .locked with mtx := some thread }
  have enter : state.next (.enter thread) = some entered := by
    rw [State.next, if_pos idle, zero]
    rfl
  have lock : entered.next (.lock thread) = some locked :=
    if_pos ⟨Function.update_self _ _ _, free⟩
  have standing : locked.phase thread = .locked := Function.update_self _ _ _
  have test : locked.next (.test thread) = some (locked.move thread .running) := by
    rw [State.next, if_pos standing, show locked.flag = false from zero]
    rfl
  refine ⟨_, .cons enter (.cons lock (.cons test (.nil _))), rfl, ?_⟩
  rintro step is
  cases is
  exact Function.update_self _ _ _

omit [DecidableEq Thread] in
theorem Kept.running (kept : Kept state) (runs : state.phase thread = .running) :
    state.mtx = some thread ∧ state.flag = false ∧ state.completed = [] := by
  have fits := kept.fits thread
  rw [runs] at fits
  exact fits

theorem Kept.once (kept : Kept state) : Once state where
  exclusive := by
    intro first second runs other
    have mutex := (kept.running runs).1
    rw [(kept.running other).1] at mutex
    exact (Option.some.inj mutex).symm
  once := by
    cases failed : state.failed with
    | true => simp [(kept.recorded.failed failed).2.2.1]
    | false =>
        rcases (kept.recorded.made failed).2 with ⟨none, -⟩ | ⟨object, one, -⟩
        · simp [none]
        · simp [one]
  returned := kept.recorded.returned
  thrown := by
    intro thread next taken
    rw [State.next] at taken
    split at taken
    · next runs =>
        cases taken
        exact ⟨rfl, (kept.running runs).2.1, rfl⟩
    · cases taken
  again := fun thread => runs_again

omit [DecidableEq Thread] in
theorem Kept.fitsOf (kept : Kept state) {phase : Phase} (stands : state.phase thread = phase) :
    Fits state.mtx state.flag state.completed thread phase := by
  rw [← stands]
  exact kept.fits thread

omit [DecidableEq Thread] in
/-- The other threads are loose when a thread has the mutex or nobody has it. -/
theorem Kept.others (kept : Kept state) (without : ∀ other, other ≠ thread → state.mtx ≠ some other)
    {mtx : Option Thread} {flag : Bool} {completed : List Nat}
    (set : state.flag = true → flag = true) :
    ∀ other, other ≠ thread → Fits mtx flag completed other (state.phase other) :=
  fun other different => (kept.fits other).loose (without other different) set

theorem inside_update (kept : Kept state) {phase : Phase} (stands : state.phase thread ≠ .idle) :
    ∀ other, Function.update state.phase thread phase other ≠ .idle → other ∈ state.inside := by
  intro other busy
  by_cases same : other = thread
  · subst same
    exact kept.inside other stands
  · rw [Function.update_of_ne same] at busy
    exact kept.inside other busy

theorem inside_finish (kept : Kept state) :
    ∀ other, Function.update state.phase thread .idle other ≠ .idle →
      other ∈ state.inside.filter (· ≠ thread) := by
  intro other busy
  by_cases same : other = thread
  · subst same
    rw [Function.update_self] at busy
    exact absurd rfl busy
  · rw [Function.update_of_ne same] at busy
    exact List.mem_filter.mpr ⟨kept.inside other busy, by simpa using same⟩

theorem flagging_update (kept : Kept state) {phase : Phase}
    (stands : state.phase thread ≠ .flagging) :
    state.flag = false → state.completed ≠ [] →
      ∃ other, Function.update state.phase thread phase other = .flagging := by
  intro zero some
  obtain ⟨other, flags⟩ := kept.flagging zero some
  refine ⟨other, ?_⟩
  rw [Function.update_of_ne]
  · exact flags
  · rintro rfl
    exact stands flags

omit [DecidableEq Thread] in
theorem without_of_mtx (mutex : state.mtx = some thread) :
    ∀ other, other ≠ thread → state.mtx ≠ some other := by
  intro other different same
  rw [mutex] at same
  exact different (Option.some.inj same).symm

theorem Kept.enter (kept : Kept state) (idle : state.phase thread = .idle) :
    Kept { state.move thread (if state.flag then .reading else .locking) with
      inside := thread :: state.inside } := by
  have recorded := kept.recorded
  refine ⟨⟨recorded.made, recorded.fresh, recorded.failed, recorded.returned⟩,
    fits_update ?_ (fun other _ => kept.fits other), ?_,
    flagging_update kept (by rw [idle]; nofun)⟩
  · split
    · next set => exact set
    · trivial
  · intro other busy
    by_cases same : other = thread
    · exact List.mem_cons.mpr (.inl same)
    · apply List.mem_cons_of_mem
      apply kept.inside
      have moved : Function.update state.phase thread _ other ≠ .idle := busy
      rwa [Function.update_of_ne same] at moved

theorem Kept.lock (kept : Kept state) (stands : state.phase thread = .locking)
    (free : state.mtx = none) :
    Kept { state.move thread .locked with mtx := some thread } := by
  have recorded := kept.recorded
  refine ⟨⟨recorded.made, recorded.fresh, recorded.failed, recorded.returned⟩,
    fits_update rfl (kept.others ?_ id), inside_update kept (by rw [stands]; nofun),
    flagging_update kept (by rw [stands]; nofun)⟩
  intro other _
  rw [free]
  nofun

theorem Kept.test (kept : Kept state) (stands : state.phase thread = .locked) :
    Kept (state.move thread (if state.flag then .unlocking else .running)) := by
  have recorded := kept.recorded
  have mutex : state.mtx = some thread := kept.fitsOf stands
  refine ⟨⟨recorded.made, recorded.fresh, recorded.failed, recorded.returned⟩,
    fits_update ?_ (fun other _ => kept.fits other), inside_update kept (by rw [stands]; nofun),
    flagging_update kept (by rw [stands]; nofun)⟩
  split
  · next set => exact ⟨mutex, set⟩
  · next zero =>
      rw [Bool.not_eq_true] at zero
      refine ⟨mutex, zero, ?_⟩
      by_contra some
      -- The thread that has completed a run would have the mutex.
      obtain ⟨other, flags⟩ := kept.flagging zero some
      have same := mutex.symm.trans (kept.fitsOf flags).1
      cases Option.some.inj same
      cases stands.symm.trans flags

theorem Kept.completes (kept : Kept state) (stands : state.phase thread = .running) :
    Kept { state.move thread .flagging with
      m_p := some state.created
      created := state.created + 1
      completed := state.completed ++ [state.created] } := by
  have recorded := kept.recorded
  obtain ⟨mutex, zero, none⟩ := kept.running stands
  have alive : state.failed = false := by
    rw [Bool.eq_false_iff]
    intro failed
    exact Bool.false_ne_true (zero.symm.trans (recorded.failed failed).2.1)
  refine ⟨⟨?_, ?_, ?_, ?_⟩,
    fits_update ⟨mutex, zero, by simp⟩ (kept.others (without_of_mtx mutex) id),
    inside_update kept (by rw [stands]; nofun), fun _ _ => ⟨thread, Function.update_self _ _ _⟩⟩
  · intro _
    refine ⟨fun _ => by simp, .inr ⟨state.created, ?_, rfl, ?_⟩⟩
    · show state.completed ++ [state.created] = _
      rw [none]
      rfl
    · intro mem
      exact absurd (recorded.fresh.1 _ mem) (lt_irrefl _)
  · refine ⟨fun object mem => Nat.lt_succ_of_lt (recorded.fresh.1 object mem), ?_⟩
    rintro object is
    cases is
    exact Nat.lt_succ_self _
  · intro failed
    exact absurd (alive.symm.trans failed) Bool.false_ne_true
  · intro other m_p mem
    obtain ⟨object, -, one, -⟩ := recorded.returned other m_p mem
    rw [none] at one
    cases one

theorem Kept.throws (kept : Kept state) (stands : state.phase thread = .running) :
    Kept { state.finish thread .threw with mtx := none } := by
  have recorded := kept.recorded
  obtain ⟨mutex, zero, none⟩ := kept.running stands
  refine ⟨⟨recorded.made, recorded.fresh, recorded.failed, ?_⟩,
    fits_update trivial (kept.others (without_of_mtx mutex) id), inside_finish kept,
    flagging_update kept (by rw [stands]; nofun)⟩
  intro other m_p mem
  rcases List.mem_append.mp mem with old | new
  · exact recorded.returned other m_p old
  · cases List.mem_singleton.mp new

theorem Kept.setFlag (kept : Kept state) (stands : state.phase thread = .flagging) :
    Kept { state.move thread .unlocking with flag := true } := by
  have recorded := kept.recorded
  obtain ⟨mutex, zero, some⟩ : _ ∧ _ ∧ _ := kept.fitsOf stands
  refine ⟨⟨?_, recorded.fresh, ?_, recorded.returned⟩,
    fits_update ⟨mutex, rfl⟩ (kept.others (without_of_mtx mutex) fun _ => rfl),
    inside_update kept (by rw [stands]; nofun), nofun⟩
  · exact fun alive => ⟨fun _ => some, (recorded.made alive).2⟩
  · exact fun failed => ⟨(recorded.failed failed).1, rfl, (recorded.failed failed).2.2⟩

theorem Kept.unlock (kept : Kept state) (stands : state.phase thread = .unlocking) :
    Kept { state.move thread .reading with mtx := none } := by
  have recorded := kept.recorded
  obtain ⟨mutex, set⟩ : _ ∧ _ := kept.fitsOf stands
  exact ⟨⟨recorded.made, recorded.fresh, recorded.failed, recorded.returned⟩,
    fits_update set (kept.others (without_of_mtx mutex) id),
    inside_update kept (by rw [stands]; nofun), flagging_update kept (by rw [stands]; nofun)⟩

/-- A call returns the object of the completed run unless the destructor has failed. -/
theorem Kept.returns (kept : Kept state) (stands : state.phase thread = .reading)
    (alive : state.failed = false) : Kept (state.finish thread (.returned state.m_p)) := by
  have recorded := kept.recorded
  have set : state.flag = true := kept.fitsOf stands
  obtain ⟨made, object⟩ := recorded.made alive
  refine ⟨⟨recorded.made, recorded.fresh, recorded.failed, ?_⟩,
    fits_update trivial (fun other _ => kept.fits other), inside_finish kept,
    flagging_update kept (by rw [stands]; nofun)⟩
  intro other m_p mem
  rcases List.mem_append.mp mem with old | new
  · exact recorded.returned other m_p old
  · cases List.mem_singleton.mp new
    rcases object with ⟨none, -⟩ | ⟨object, one, is, live⟩
    · exact absurd none (made set)
    · exact ⟨object, is, one, live⟩

/-- A call that returns after a failed destructor returns the deleted object. -/
theorem Kept.returns_failed (kept : Kept state) (failed : state.failed = true) :
    ¬ Once (state.finish thread (.returned state.m_p)) := by
  intro once
  obtain ⟨-, -, none, -⟩ := kept.recorded.failed failed
  obtain ⟨object, -, one, -⟩ := once.returned thread state.m_p
    (List.mem_append_right _ (List.mem_singleton_self _))
  cases none.symm.trans one

omit [DecidableEq Thread] in
/-- Nobody is inside a call when the destructor runs. -/
theorem Kept.destroy (kept : Kept state) (outside : state.inside = []) {throws : Bool}
    (first : state.destroyed = false) (some : throws = true → state.m_p ≠ none) :
    Kept (state.destroy throws) := by
  have recorded := kept.recorded
  have idle (thread : Thread) : state.phase thread = .idle := by
    by_contra busy
    have inside := kept.inside thread busy
    rw [outside] at inside
    cases inside
  have alive : state.failed = false := by
    rw [Bool.eq_false_iff]
    intro failed
    exact Bool.false_ne_true (first.symm.trans (recorded.failed failed).1)
  obtain ⟨made, object⟩ := recorded.made alive
  have fresh : ∀ object ∈ state.m_p.toList ++ state.deleted, object < state.created := by
    intro object mem
    rcases List.mem_append.mp mem with live | dead
    · exact recorded.fresh.2 object (by simpa using live)
    · exact recorded.fresh.1 object dead
  cases throws with
  | false =>
      refine ⟨⟨fun _ => ⟨nofun, .inl ⟨rfl, rfl⟩⟩, ⟨fresh, nofun⟩, nofun, nofun⟩, ?_, ?_,
        fun _ some => absurd rfl some⟩
      · intro thread
        show Fits _ _ _ _ (state.phase thread)
        rw [idle]
        trivial
      · exact fun thread busy => absurd (idle thread) busy
  | true =>
      rcases object with ⟨none, null⟩ | ⟨object, one, is, live⟩
      · exact absurd null (some rfl)
      · have set : state.flag = true := by
          cases flag : state.flag with
          | true => rfl
          | false =>
              obtain ⟨thread, flags⟩ := kept.flagging flag (by rw [one]; nofun)
              cases (idle thread).symm.trans flags
        refine ⟨⟨nofun, ⟨fresh, recorded.fresh.2⟩, fun _ => ⟨rfl, set, rfl, object, is, ?_⟩, nofun⟩,
          ?_, ?_,
          fun _ some => absurd rfl some⟩
        · show object ∈ state.m_p.toList ++ state.deleted
          rw [is]
          exact List.mem_append_left _ (List.mem_singleton_self _)
        · intro thread
          show Fits _ _ _ _ (state.phase thread)
          rw [idle]
          trivial
        · exact fun thread busy => absurd (idle thread) busy

/-- Each step keeps the invariant, except a return after a failed destructor. -/
theorem Kept.step (kept : Kept state) (taken : state.next label = some next) :
    (Once next ↔ Intact state label) ∧ (Intact state label → Kept next) := by
  have settled (met : Intact state label) (after : Kept next) :
      (Once next ↔ Intact state label) ∧ (Intact state label → Kept next) :=
    ⟨iff_of_true after.once met, fun _ => after⟩
  cases label with
  | enter thread =>
      rw [State.next] at taken
      split at taken
      · next idle =>
          cases taken
          exact settled trivial (kept.enter idle)
      · cases taken
  | lock thread =>
      rw [State.next] at taken
      split at taken
      · next ready =>
          cases taken
          exact settled trivial (kept.lock ready.1 ready.2)
      · cases taken
  | test thread =>
      rw [State.next] at taken
      split at taken
      · next stands =>
          cases taken
          exact settled trivial (kept.test stands)
      · cases taken
  | completes thread =>
      rw [State.next] at taken
      split at taken
      · next stands =>
          cases taken
          exact settled trivial (kept.completes stands)
      · cases taken
  | throws thread =>
      rw [State.next] at taken
      split at taken
      · next stands =>
          cases taken
          exact settled trivial (kept.throws stands)
      · cases taken
  | setFlag thread =>
      rw [State.next] at taken
      split at taken
      · next stands =>
          cases taken
          exact settled trivial (kept.setFlag stands)
      · cases taken
  | unlock thread =>
      rw [State.next] at taken
      split at taken
      · next stands =>
          cases taken
          exact settled trivial (kept.unlock stands)
      · cases taken
  | returns thread =>
      rw [State.next] at taken
      split at taken
      · next stands =>
          cases taken
          cases failed : state.failed with
          | false => exact settled failed (kept.returns stands failed)
          | true =>
              have broken : ¬ Intact state (.returns thread) := by
                rw [Intact, failed]
                nofun
              exact ⟨iff_of_false (kept.returns_failed failed) broken, fun met => absurd met broken⟩
      · cases taken
  | destroy throws =>
      rw [State.next] at taken
      split at taken
      · next ready =>
          cases taken
          exact settled trivial (kept.destroy ready.1 ready.2.1 ready.2.2)
      · cases taken

omit [DecidableEq Thread] in
theorem kept_start : Kept (start : State Thread) where
  recorded := ⟨fun _ => ⟨nofun, .inl ⟨rfl, rfl⟩⟩, ⟨nofun, nofun⟩, nofun, nofun⟩
  fits _ := trivial
  inside _ busy := absurd rfl busy
  flagging _ some := absurd rfl some

end Invariant

section Main

/-- The calls make one object along a run exactly when none of them returns after the object's
destructor has thrown. -/
theorem once_iff {Thread : Type} [DecidableEq Thread]
    (steps : List (TransitionSystem.Transition (State Thread) (Label Thread)))
    (run : system.Run start steps) :
    (∀ step ∈ steps, Once step.target) ↔ ∀ step ∈ steps, Intact step.source step.label := by
  refine run.property_iff_condition ?implies ?keep ?needed kept_start
  case implies => exact fun state kept => kept.once
  case keep =>
    intro state label next kept taken intact
    exact (kept.step taken).2 intact
  case needed =>
    intro state label next kept taken once
    exact (kept.step taken).1.mp once

/-- A call whose function throws first, a second one, the destructor, and a third call. -/
def recreated (throws : Bool) (last : List (Label Bool)) : List (Label Bool) :=
  [.enter false, .lock false, .test false, .throws false, .enter true, .lock true, .test true,
    .completes true, .setFlag true, .unlock true, .returns true, .destroy throws, .enter true] ++
    last ++ [.returns true]

theorem once_iff_recreated :
    (∀ step ∈ TransitionSystem.follow State.next (start : State Bool) (recreated false
        [.lock true, .test true, .completes true, .setFlag true, .unlock true]),
      Once step.target) ↔
    ∀ step ∈ TransitionSystem.follow State.next (start : State Bool) (recreated false
        [.lock true, .test true, .completes true, .setFlag true, .unlock true]),
      Intact step.source step.label :=
  once_iff _ (TransitionSystem.follow_run _ _ _ _)

/-- The object's destructor throws, and the third call returns the deleted object. -/
theorem recreated_not_once :
    ¬ ∀ (Thread : Type) (_ : DecidableEq Thread)
      (steps : List (TransitionSystem.Transition (State Thread) (Label Thread))),
      system.Run start steps → ∀ step ∈ steps, Once step.target := by
  intro all
  have run := TransitionSystem.follow_run (· = (start : State Bool)) State.next
    (recreated true []) start
  have once := all Bool inferInstance _ run _ (List.getLast_mem (by decide))
  obtain ⟨object, -, one, -⟩ := once.returned true (some 0) (by decide)
  have none : ((TransitionSystem.follow State.next (start : State Bool)
      (recreated true [])).getLast (by decide)).target.completed = [] := by decide
  cases none.symm.trans one

end Main

end Blocxx.LazyGlobals
