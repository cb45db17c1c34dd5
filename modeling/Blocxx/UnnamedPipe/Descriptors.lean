import Blocxx.UnnamedPipe.PosixUnnamedPipe

/-!
This file proves when a `PosixUnnamedPipe` closes each of its descriptors once.
-/

namespace Blocxx.PosixUnnamedPipe

open Library

section Property

/-- One of the two members has the descriptor. -/
def State.Holds (state : State) (fd : Nat) : Prop :=
  state.m_fds0 = some fd ∨ state.m_fds1 = some fd

/-- Nothing was used or closed that was not open, the open descriptors are the held ones, and none
is open after the destructor. -/
structure OwnsOnce (state : State) : Prop where
  faultless : state.kernel.fault = false
  held : ∀ fd, state.kernel.isOpen fd = true ↔ state.Holds fd
  ended : state.destroyed = true → ∀ fd, state.kernel.isOpen fd = false

/-- No interrupted close has closed its descriptor, and `m_fds[1]` is invalid when `open` makes new
descriptors. -/
def Orderly (state : State) : Label → Prop
  | .closed answer => answer ≠ .interrupted true
  | .opened _ => state.m_fds1 = none
  | _ => True

end Property

section Invariant

/-- The tasks end with both members invalid where they have to be. -/
def Fits (m_fds0 m_fds1 : Option Nat) : List Task → Prop
  | [] => True
  | .closeInput :: rest => Fits none m_fds1 rest
  | .closeOutput :: rest => Fits m_fds0 none rest
  | .socketpair :: rest => m_fds0 = none ∧ rest = []
  | .destroyed :: rest => m_fds0 = none ∧ m_fds1 = none ∧ rest = []

/-- While a task is left, the members have different descriptors. -/
structure Owning (state : State) : Prop where
  faultless : state.kernel.fault = false
  held : ∀ fd, state.kernel.isOpen fd = true ↔ state.Holds fd
  different : state.tasks ≠ [] → ∀ fd, state.m_fds0 = some fd → state.m_fds1 ≠ some fd
  fits : Fits state.m_fds0 state.m_fds1 state.tasks
  ended : state.destroyed = true → state.m_fds0 = none ∧ state.m_fds1 = none ∧ state.tasks = []

variable {state next : State} {label : Label}

theorem Owning.ownsOnce (owning : Owning state) : OwnsOnce state where
  faultless := owning.faultless
  held := owning.held
  ended := by
    intro destroyed fd
    obtain ⟨first, second, -⟩ := owning.ended destroyed
    rw [Bool.eq_false_iff, Ne, owning.held, State.Holds, first, second]
    simp

/-- A held descriptor is used without a fault. -/
theorem Owning.use (owning : Owning state) {fd : Nat} (holds : state.Holds fd) :
    state.kernel.use fd = state.kernel := by
  have isOpen := (owning.held fd).mpr holds
  simp only [Kernel.use, isOpen, Bool.not_true, Bool.or_false]

theorem Owning.release (owning : Owning state) {fd : Nat} (holds : state.Holds fd) :
    (state.kernel.release fd).fault = false ∧
      ∀ other, (state.kernel.release fd).isOpen other = true ↔
        state.kernel.isOpen other = true ∧ other ≠ fd := by
  constructor
  · rw [Kernel.release, owning.use holds]
    exact owning.faultless
  · intro other
    by_cases same : other = fd
    · subst same
      simp [Kernel.release]
    · simp [Kernel.release, same]

theorem owning_of_call {after : State} (called : state.call after = some next)
    (keeps : state.tasks = [] → state.destroyed = false → Owning after) : Owning next := by
  rw [State.call] at called
  split at called
  · next ready =>
      cases called
      exact keeps ready.1 ready.2
  · cases called

theorem Owning.close (owning : Owning state) (alive : state.destroyed = false) {rest : List Task}
    (fits : Fits none none rest) : Owning (state.close rest) where
  faultless := owning.faultless
  held := by
    intro fd
    show state.kernel.isOpen fd = true ↔ state.m_fds0 = some fd ∨
      (if state.m_fds0 = state.m_fds1 then none else state.m_fds1) = some fd
    rw [owning.held fd, State.Holds]
    split
    · next same =>
        rw [← same]
        simp
    · rfl
  different := by
    intro _ fd first
    show (if state.m_fds0 = state.m_fds1 then none else state.m_fds1) ≠ some fd
    split
    · nofun
    · next different =>
        intro second
        exact different (first.trans second.symm)
  fits := fits
  ended := by
    intro destroyed
    exact absurd (alive.symm.trans destroyed) Bool.false_ne_true

theorem Owning.closeInputHandle (owning : Owning state) (ready : state.tasks = [])
    (alive : state.destroyed = false) : Owning state.closeInputHandle := by
  have notEnded {Goal : Prop} (destroyed : state.destroyed = true) : Goal :=
    absurd (alive.symm.trans destroyed) Bool.false_ne_true
  rw [State.closeInputHandle]
  split
  · split
    · next different =>
        refine ⟨owning.faultless, owning.held, ?_, trivial, notEnded⟩
        intro _ fd first second
        exact different (first.trans second.symm)
    · next same =>
        rw [Ne, not_not] at same
        refine ⟨owning.faultless, ?_, fun some => absurd ready some, ?_, notEnded⟩
        · intro fd
          rw [owning.held fd, State.Holds, State.Holds, same]
          simp
        · show Fits none state.m_fds1 state.tasks
          rw [ready]
          trivial
  · exact owning

theorem Owning.closeOutputHandle (owning : Owning state) (ready : state.tasks = [])
    (alive : state.destroyed = false) : Owning state.closeOutputHandle := by
  have notEnded {Goal : Prop} (destroyed : state.destroyed = true) : Goal :=
    absurd (alive.symm.trans destroyed) Bool.false_ne_true
  rw [State.closeOutputHandle]
  split
  · split
    · next different =>
        refine ⟨owning.faultless, owning.held, ?_, trivial, notEnded⟩
        intro _ fd first second
        exact different (first.trans second.symm)
    · next same =>
        rw [Ne, not_not] at same
        refine ⟨owning.faultless, ?_, fun some => absurd ready some, ?_, notEnded⟩
        · intro fd
          rw [owning.held fd, State.Holds, State.Holds, same]
          simp
        · show Fits state.m_fds0 none state.tasks
          rw [ready]
          trivial
  · exact owning

theorem Owning.open_ (owning : Owning state) (alive : state.destroyed = false) :
    Owning state.open_ := by
  rw [State.open_]
  split
  · exact owning.close alive ⟨rfl, rfl⟩
  · next invalid =>
      rw [not_not] at invalid
      refine ⟨owning.faultless, owning.held, ?_, ⟨invalid, rfl⟩, ?_⟩
      · intro _ fd first
        rw [invalid] at first
        cases first
      · intro destroyed
        exact absurd (alive.symm.trans destroyed) Bool.false_ne_true

theorem Owning.read (owning : Owning state) (ready : state.tasks = [])
    (alive : state.destroyed = false) (endOfFile : Bool) : Owning (state.read endOfFile) := by
  rw [State.read]
  split
  · next fd first =>
      have same : ({ state with kernel := state.kernel.use fd } : State) = state := by
        rw [owning.use (.inl first)]
      simp only [same]
      split
      · exact owning.closeInputHandle ready alive
      · exact owning
  · exact owning

/-- An interrupted close leaves the members, so that it has to leave the descriptor as well. -/
theorem Owning.interrupted (owning : Owning state) {fd : Nat} (holds : state.Holds fd)
    (hidden : Bool) :
    (OwnsOnce { state with kernel := state.kernel.close fd (.interrupted hidden) } ↔
      hidden = false) ∧
    (hidden = false →
      Owning { state with kernel := state.kernel.close fd (.interrupted hidden) }) := by
  cases hidden with
  | true =>
      refine ⟨iff_of_false ?_ nofun, nofun⟩
      intro owns
      have still := (owns.held fd).mpr holds
      exact ((owning.release holds).2 fd).mp still |>.2 rfl
  | false =>
      have after : Owning { state with kernel := state.kernel.use fd } := by
        rw [owning.use holds]
        exact owning
      exact ⟨iff_of_true after.ownsOnce rfl, fun _ => after⟩

theorem Owning.alive (owning : Owning state) {task : Task} {rest : List Task}
    (tasks : state.tasks = task :: rest) : state.destroyed = false := by
  rw [Bool.eq_false_iff]
  intro destroyed
  have none := (owning.ended destroyed).2.2
  rw [tasks] at none
  cases none

theorem Owning.closedInput (owning : Owning state) {fd : Nat} {rest : List Task}
    (task : state.tasks = .closeInput :: rest) (first : state.m_fds0 = some fd) :
    Owning { state with kernel := state.kernel.release fd, m_fds0 := none, tasks := rest } := by
  have different := owning.different (by rw [task]; nofun) fd first
  have fits := owning.fits
  rw [task] at fits
  obtain ⟨faultless, isOpen⟩ := owning.release (.inl first)
  refine ⟨faultless, ?_, nofun, fits, ?_⟩
  · intro other
    rw [isOpen other, owning.held other, State.Holds, State.Holds, first]
    simp only [Option.some.injEq, reduceCtorEq, false_or]
    constructor
    · rintro ⟨same | second, not⟩
      · exact absurd same.symm not
      · exact second
    · intro second
      refine ⟨.inr second, ?_⟩
      rintro rfl
      exact different second
  · intro destroyed
    exact absurd ((owning.alive task).symm.trans destroyed) Bool.false_ne_true

theorem Owning.closedOutput (owning : Owning state) {fd : Nat} {rest : List Task}
    (task : state.tasks = .closeOutput :: rest) (second : state.m_fds1 = some fd) :
    Owning { state with kernel := state.kernel.release fd, m_fds1 := none, tasks := rest } := by
  have fits := owning.fits
  rw [task] at fits
  obtain ⟨faultless, isOpen⟩ := owning.release (.inr second)
  refine ⟨faultless, ?_, fun _ _ _ => nofun, fits, ?_⟩
  · intro other
    rw [isOpen other, owning.held other, State.Holds, State.Holds, second]
    simp only [Option.some.injEq, reduceCtorEq, or_false]
    constructor
    · rintro ⟨first | same, not⟩
      · exact first
      · exact absurd same.symm not
    · intro first
      refine ⟨.inl first, ?_⟩
      rintro rfl
      exact owning.different (by rw [task]; nofun) other first second
  · intro destroyed
    exact absurd ((owning.alive task).symm.trans destroyed) Bool.false_ne_true

/-- A close keeps the invariant exactly when no interruption hides that it closed. -/
theorem Owning.closed (owning : Owning state) {answer : CloseAnswer}
    (taken : state.closed answer = some next) :
    (OwnsOnce next ↔ answer ≠ .interrupted true) ∧
      (answer ≠ .interrupted true → Owning next) := by
  have done (after : Owning next) (met : answer ≠ .interrupted true) :
      (OwnsOnce next ↔ answer ≠ .interrupted true) ∧
        (answer ≠ .interrupted true → Owning next) :=
    ⟨iff_of_true after.ownsOnce met, fun _ => after⟩
  have bool (hidden : Bool) :
      hidden = false ↔ CloseAnswer.interrupted hidden ≠ .interrupted true := by
    cases hidden <;> decide
  rw [State.closed] at taken
  split at taken
  · next rest task =>
      obtain ⟨fd, first, closed⟩ := Option.map_eq_some_iff.mp taken
      cases answer with
      | done =>
          subst closed
          exact done (owning.closedInput task first) nofun
      | interrupted hidden =>
          subst closed
          rw [← bool]
          exact owning.interrupted (.inl first) hidden
  · next rest task =>
      obtain ⟨fd, second, closed⟩ := Option.map_eq_some_iff.mp taken
      cases answer with
      | done =>
          subst closed
          exact done (owning.closedOutput task second) nofun
      | interrupted hidden =>
          subst closed
          rw [← bool]
          exact owning.interrupted (.inr second) hidden
  · cases taken

/-- New descriptors keep the invariant exactly when no old one is held. -/
theorem Owning.opened (owning : Owning state) {rest : List Task}
    (task : state.tasks = .socketpair :: rest) {first second : Nat} {kernel : Kernel}
    (pair : state.kernel.pair first second = some kernel) :
    (OwnsOnce { state with
        m_fds0 := some first, m_fds1 := some second, tasks := rest, kernel := kernel } ↔
      state.m_fds1 = none) ∧
    (state.m_fds1 = none → Owning { state with
        m_fds0 := some first, m_fds1 := some second, tasks := rest, kernel := kernel }) := by
  have fits := owning.fits
  rw [task] at fits
  obtain ⟨invalid, rfl⟩ := fits
  have alive {Goal : Prop} (destroyed : state.destroyed = true) : Goal :=
    absurd ((owning.alive task).symm.trans destroyed) Bool.false_ne_true
  rw [Kernel.pair] at pair
  split at pair
  · next fresh =>
      cases pair
      obtain ⟨different, firstFree, secondFree⟩ := fresh
      have keeps (free : state.m_fds1 = none) : Owning { state with
          m_fds0 := some first, m_fds1 := some second, tasks := []
          kernel := { state.kernel with
            isOpen := Function.update (Function.update state.kernel.isOpen first true) second
              true } } := by
        refine ⟨owning.faultless, ?_, fun some => absurd rfl some, trivial, alive⟩
        intro fd
        have before := owning.held fd
        rw [State.Holds, invalid, free] at before
        simp only [reduceCtorEq, or_self, iff_false, Bool.not_eq_true] at before
        simp only [State.Holds, Option.some.injEq]
        by_cases isSecond : fd = second
        · subst isSecond
          simp
        · by_cases isFirst : fd = first
          · subst isFirst
            simp [isSecond]
          · simp [isSecond, isFirst, before, Ne.symm isSecond, Ne.symm isFirst]
      refine ⟨⟨?_, fun free => (keeps free).ownsOnce⟩, keeps⟩
      intro owns
      cases old : state.m_fds1 with
      | none => rfl
      | some fd =>
          have wasOpen := (owning.held fd).mpr (.inr old)
          have notFirst : fd ≠ first := by
            rintro rfl
            exact Bool.false_ne_true (firstFree.symm.trans wasOpen)
          have notSecond : fd ≠ second := by
            rintro rfl
            exact Bool.false_ne_true (secondFree.symm.trans wasOpen)
          have held := (owns.held fd).mp (by
            simp only [Function.update_of_ne notSecond, Function.update_of_ne notFirst]
            exact wasOpen)
          simp only [State.Holds, Option.some.injEq] at held
          rcases held with same | same
          · exact absurd same.symm notFirst
          · exact absurd same.symm notSecond
  · cases pair

theorem Owning.openFailed (owning : Owning state) {rest : List Task}
    (task : state.tasks = .socketpair :: rest) :
    (OwnsOnce { state with m_fds0 := none, m_fds1 := none, tasks := rest } ↔
      state.m_fds1 = none) ∧
    (state.m_fds1 = none →
      Owning { state with m_fds0 := none, m_fds1 := none, tasks := rest }) := by
  have fits := owning.fits
  rw [task] at fits
  obtain ⟨invalid, rfl⟩ := fits
  have keeps (free : state.m_fds1 = none) :
      Owning { state with m_fds0 := none, m_fds1 := none, tasks := [] } := by
    refine ⟨owning.faultless, ?_, nofun, trivial, fun _ => ⟨rfl, rfl, rfl⟩⟩
    intro fd
    rw [owning.held fd, State.Holds, invalid, free]
    rfl
  refine ⟨⟨?_, fun free => (keeps free).ownsOnce⟩, keeps⟩
  intro owns
  cases old : state.m_fds1 with
  | none => rfl
  | some fd =>
      have held := (owns.held fd).mp ((owning.held fd).mpr (.inr old))
      simp [State.Holds] at held

/-- A step keeps the property exactly when it is orderly. -/
theorem Owning.step (owning : Owning state) (taken : state.next label = some next) :
    (OwnsOnce next ↔ Orderly state label) ∧ (Orderly state label → Owning next) := by
  have settled (met : Orderly state label) (after : Owning next) :
      (OwnsOnce next ↔ Orderly state label) ∧ (Orderly state label → Owning next) :=
    ⟨iff_of_true after.ownsOnce met, fun _ => after⟩
  cases label with
  | «open» =>
      exact settled trivial (owning_of_call taken fun _ alive => owning.open_ alive)
  | read endOfFile =>
      exact settled trivial (owning_of_call taken fun ready alive =>
        owning.read ready alive endOfFile)
  | closeInputHandle =>
      exact settled trivial (owning_of_call taken owning.closeInputHandle)
  | closeOutputHandle =>
      exact settled trivial (owning_of_call taken owning.closeOutputHandle)
  | close =>
      exact settled trivial (owning_of_call taken fun _ alive => owning.close alive trivial)
  | destructor =>
      exact settled trivial (owning_of_call taken fun _ alive =>
        owning.close alive ⟨rfl, rfl, rfl⟩)
  | skip =>
      apply settled trivial
      have fits := owning.fits
      have ended (task : Task) (rest : List Task) (tasks : state.tasks = task :: rest) {Goal : Prop}
          (destroyed : state.destroyed = true) : Goal :=
        absurd ((owning.alive tasks).symm.trans destroyed) Bool.false_ne_true
      simp only [State.next] at taken
      split at taken
      · next rest task =>
          split at taken
          · next invalid =>
              cases taken
              rw [task] at fits
              have first : Fits none state.m_fds1 rest := fits
              refine ⟨owning.faultless, owning.held, ?_, ?_, ended _ _ task⟩
              · intro _ fd first
                rw [invalid] at first
                cases first
              · show Fits state.m_fds0 state.m_fds1 rest
                rw [invalid]
                exact first
          · cases taken
      · next rest task =>
          split at taken
          · next invalid =>
              cases taken
              rw [task] at fits
              have second : Fits state.m_fds0 none rest := fits
              refine ⟨owning.faultless, owning.held, ?_, ?_, ended _ _ task⟩
              · intro _ fd _
                rw [invalid]
                nofun
              · show Fits state.m_fds0 state.m_fds1 rest
                rw [invalid]
                exact second
          · cases taken
      · next rest task =>
          cases taken
          rw [task] at fits
          obtain ⟨first, second, rfl⟩ := fits
          refine ⟨owning.faultless, owning.held, fun some => absurd rfl some, trivial, ?_⟩
          exact fun _ => ⟨first, second, rfl⟩
      · cases taken
  | closed answer => exact owning.closed taken
  | opened fds =>
      simp only [State.next] at taken
      split at taken
      · next rest first second task =>
          obtain ⟨kernel, pair, rfl⟩ := Option.map_eq_some_iff.mp taken
          exact owning.opened task pair
      · next rest task =>
          cases taken
          exact owning.openFailed task
      · cases taken

theorem owning_constructed (inputfd outputfd : Option Nat) :
    Owning (constructed inputfd outputfd) where
  faultless := rfl
  held := by
    intro fd
    simp only [constructed, State.Holds, Bool.or_eq_true, decide_eq_true_eq]
    rw [eq_comm (a := some fd), eq_comm (a := some fd)]
  different := fun some => absurd rfl some
  fits := trivial
  ended := nofun

end Invariant

section Main

/-- Each descriptor is closed once exactly when no interrupted close has closed its descriptor and
`open` makes no descriptors while `m_fds[1]` holds one. -/
theorem ownsOnce_iff (inputfd outputfd : Option Nat)
    (steps : List (TransitionSystem.Transition State Label))
    (run : system.Run (constructed inputfd outputfd) steps) :
    (∀ step ∈ steps, OwnsOnce step.target) ↔
      ∀ step ∈ steps, Orderly step.source step.label := by
  refine run.property_iff_condition ?implies ?keep ?needed (owning_constructed inputfd outputfd)
  case implies => exact fun state owning => owning.ownsOnce
  case keep =>
    intro state label next owning taken orderly
    exact (owning.step taken).2 orderly
  case needed =>
    intro state label next owning taken owns
    exact (owning.step taken).1.mp owns

/-- A read finds the end of the file, and the pipe is opened again, closed before or not. -/
def reopened (closeOutput : List Label) : List Label :=
  [.read true, .closed .done] ++ closeOutput ++
    [.open, .opened (some (5, 6)), .destructor, .closed .done, .closed .done, .skip]

theorem ownsOnce_iff_reopened :
    (∀ step ∈ TransitionSystem.follow State.next (constructed (some 3) (some 4))
        (reopened [.closeOutputHandle, .closed .done]), OwnsOnce step.target) ↔
      ∀ step ∈ TransitionSystem.follow State.next (constructed (some 3) (some 4))
        (reopened [.closeOutputHandle, .closed .done]), Orderly step.source step.label :=
  ownsOnce_iff _ _ _ (TransitionSystem.follow_run _ _ _ _)

/-- The first pipe's output is left open. -/
theorem reopened_not_ownsOnce :
    ¬ ∀ (inputfd outputfd : Option Nat) (steps : List (TransitionSystem.Transition State Label)),
      system.Run (constructed inputfd outputfd) steps →
        ∀ step ∈ steps, OwnsOnce step.target := by
  intro all
  have owns := all _ _ _ (TransitionSystem.follow_run _ _ (reopened [])
    (constructed (some 3) (some 4))) _ (List.getLast_mem (by decide))
  exact Bool.false_ne_true ((owns.ended (by decide) 4).symm.trans (by decide))

end Main

end Blocxx.PosixUnnamedPipe
