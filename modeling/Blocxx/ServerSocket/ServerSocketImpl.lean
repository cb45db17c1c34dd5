import Blocxx.Library.TransitionSystem

/-!
This file embeds the Unix domain sockets of `ServerSocketImpl` with their lock file, as processes that
share one socket name. Each step is one system call of one process.
-/

namespace Blocxx.ServerSockets

open Library

section Model

/-- What follows a call of `close`, which may be made by `doListenUDS` or by the destructor. -/
inductive After where
  | returns
  | listens
  | destroys
  deriving DecidableEq

/-- The next system call of a process. -/
inductive Phase where
  | outside
  /-- The system calls of `close`. -/
  | closeSocket (after : After)
  | removeSocket (after : After)
  | unlock (after : After)
  | closeFile (after : After)
  | removeLock (after : After)
  /-- The system calls of `doListenUDS`, where the assignment to `m_udsFile` closes the old file and
  the temporary one. -/
  | socket
  | openOrCreateFile
  | assign (file : Option Nat)
  | tryLock
  | exists
  | clobber
  | bind
  | chmod
  | listen
  | fillAddrParms
  /-- The end of the destructor. -/
  | destroyFile
  deriving DecidableEq

/-- The object of a process. Files and sockets have numbers. -/
structure ServerSocketImpl where
  m_isActive : Bool
  m_sockfd : Option Nat
  m_udsFile : Option Nat
  /-- The descriptor of `m_sockfd` is open. -/
  isOpen : Bool
  phase : Phase
  deriving DecidableEq

def ServerSocketImpl.new : ServerSocketImpl := ⟨false, none, none, false, .outside⟩

/-- The two names may refer to files that other processes have made. A lock belongs to a process. -/
structure State (Process : Type) where
  lockName : Option Nat
  socketName : Option Nat
  locks : Nat → Option Process
  server : Process → ServerSocketImpl
  fresh : Nat

/-- A process calls a function of its object, makes its next system call, which may fail for a reason
of its own, or ends. -/
inductive Label (Process : Type) where
  | doListenUDS (process : Process)
  | close (process : Process)
  | destroy (process : Process)
  | advance (process : Process) (ok : Bool)
  | die (process : Process)

namespace ServerSocketImpl

/-- The end of `close` without an exception. -/
def closed (server : ServerSocketImpl) : After → ServerSocketImpl
  | .returns => { server with m_isActive := false, phase := .outside }
  | .listens => { server with m_isActive := false, phase := .socket }
  | .destroys => { server with m_isActive := false, phase := .destroyFile }

/-- The destructor catches the exception. -/
def thrown (server : ServerSocketImpl) : After → ServerSocketImpl
  | .returns | .listens => { server with phase := .outside }
  | .destroys => { server with phase := .destroyFile }

end ServerSocketImpl

namespace State

variable {Process : Type} [DecidableEq Process] (state : State Process) (process : Process)

def set (server : ServerSocketImpl) : State Process :=
  { state with server := Function.update state.server process server }

/-- A process that closes a descriptor of a file loses its lock on it. -/
def drop (file : Option Nat) : State Process :=
  { state with locks := fun other =>
      if file = some other ∧ state.locks other = some process then none else state.locks other }

/-- The next system call of the process. -/
def advance (ok : Bool) : Option (State Process) :=
  let server := state.server process
  match server.phase with
  | .outside => none
  | .closeSocket after =>
      some (state.set process { server with isOpen := false, phase := .removeSocket after })
  | .removeSocket after =>
      if ok ∧ state.socketName.isSome then
        some ({ state with socketName := none }.set process
          (if server.m_udsFile.isSome then { server with phase := .unlock after }
          else server.closed after))
      else some (state.set process (server.thrown after))
  | .unlock after =>
      if ok then
        some ((state.drop process server.m_udsFile).set process
          { server with phase := .closeFile after })
      else some (state.set process (server.thrown after))
  | .closeFile after =>
      some ((state.drop process server.m_udsFile).set process
        { server with m_udsFile := none, phase := .removeLock after })
  | .removeLock after =>
      if ok ∧ state.lockName.isSome then
        some ({ state with lockName := none }.set process (server.closed after))
      else some (state.set process (server.thrown after))
  | .socket =>
      if ok then
        some ({ state with fresh := state.fresh + 1 }.set process
          { server with m_sockfd := some state.fresh, isOpen := true, phase := .openOrCreateFile })
      else some (state.set process { server with phase := .outside })
  | .openOrCreateFile =>
      if ok then
        match state.lockName with
        | some file => some (state.set process { server with phase := .assign (some file) })
        | none =>
            some ({ state with lockName := some state.fresh, fresh := state.fresh + 1 }.set process
              { server with phase := .assign (some state.fresh) })
      else some (state.set process { server with phase := .assign none })
  | .assign file =>
      let closed := (state.drop process server.m_udsFile).drop process file
      if ok ∧ file.isSome then
        some (closed.set process { server with m_udsFile := file, phase := .tryLock })
      else some (closed.set process { server with m_udsFile := none, phase := .outside })
  | .tryLock =>
      match server.m_udsFile with
      | none => some (state.set process { server with phase := .outside })
      | some file =>
          if ok ∧ (state.locks file = none ∨ state.locks file = some process) then
            some ({ state with locks := Function.update state.locks file (some process) }.set process
              { server with phase := .exists })
          else some (state.set process { server with phase := .outside })
  | .exists =>
      if ok ∧ state.socketName.isSome then
        some (state.set process { server with phase := .clobber })
      else some (state.set process { server with phase := .bind })
  | .clobber =>
      if ok ∧ state.socketName.isSome then
        some ({ state with socketName := none }.set process { server with phase := .bind })
      else some (state.set process { server with phase := .outside })
  | .bind =>
      if ok ∧ state.socketName = none then
        some ({ state with socketName := server.m_sockfd }.set process
          { server with phase := .chmod })
      else some (state.set process { server with phase := .outside })
  | .chmod =>
      if ok ∧ state.socketName.isSome then
        some (state.set process { server with phase := .listen })
      else some (state.set process { server with phase := .outside })
  | .listen =>
      if ok then some (state.set process { server with phase := .fillAddrParms })
      else some (state.set process { server with phase := .outside })
  | .fillAddrParms =>
      if ok then some (state.set process { server with m_isActive := true, phase := .outside })
      else some (state.set process { server with phase := .outside })
  | .destroyFile => some ((state.drop process server.m_udsFile).set process .new)

/-- A call starts with the system call that it makes first, if any. -/
def next : Label Process → Option (State Process)
  | .doListenUDS process =>
      let server := state.server process
      if server.phase = .outside then
        some (state.set process { server with
          phase := if server.m_isActive then .closeSocket .listens else .socket })
      else none
  | .close process =>
      let server := state.server process
      if server.phase = .outside ∧ server.m_isActive then
        some (state.set process { server with phase := .closeSocket .returns })
      else none
  | .destroy process =>
      let server := state.server process
      if server.phase = .outside then
        some (state.set process { server with
          phase := if server.m_isActive then .closeSocket .destroys else .destroyFile })
      else none
  | .advance process ok => state.advance process ok
  | .die process =>
      some { state with
        locks := fun file => if state.locks file = some process then none else state.locks file
        server := Function.update state.server process .new }

end State

/-- A process that has not called yet is like one that has ended. Files may be left from before. -/
structure State.IsInitial {Process : Type} (state : State Process) : Prop where
  unlocked : ∀ file, state.locks file = none
  servers : ∀ process, state.server process = .new
  lockName : ∀ file ∈ state.lockName, file < state.fresh
  socketName : ∀ socket ∈ state.socketName, socket < state.fresh

def system (Process : Type) [DecidableEq Process] :
    TransitionSystem (State Process) (Label Process) := .computed State.IsInitial State.next

end Model

section Property

/-- The process has the lock file open. -/
def ServerSocketImpl.Opens (server : ServerSocketImpl) (file : Nat) : Prop :=
  server.m_udsFile = some file ∨ server.phase = .assign (some file)

/-- The object is active, and its socket is open. -/
def ServerSocketImpl.Serves (server : ServerSocketImpl) : Prop :=
  server.m_isActive = true ∧ server.isOpen = true

variable {Process : Type}

/-- At most one process serves, and the name refers to its socket. -/
structure Exclusive (state : State Process) : Prop where
  named : ∀ process, (state.server process).Serves →
    state.socketName.isSome ∧ state.socketName = (state.server process).m_sockfd
  single : ∀ process other, (state.server process).Serves → (state.server other).Serves →
    process = other

/-- A process that removes the lock file finds it, and no other process has it open. -/
def Undisturbed (state : State Process) : Label Process → Prop
  | .advance process ok => ∀ after, (state.server process).phase = .removeLock after →
      ok = true ∧ state.lockName.isSome ∧ ∀ other, other ≠ process → ∀ file,
        state.lockName = some file → ¬ (state.server other).Opens file
  | _ => True

end Property

section Invariant

namespace ServerSocketImpl

/-- What the object is like at each system call. -/
def Consistent (server : ServerSocketImpl) : Prop :=
  match server.phase with
  | .outside | .destroyFile => True
  | .closeSocket _ => server.m_isActive = true
  | .removeSocket _ | .unlock _ | .closeFile _ => server.m_isActive = true ∧ server.isOpen = false
  | .removeLock _ =>
      server.m_isActive = true ∧ server.isOpen = false ∧ server.m_udsFile = none
  | .socket => server.m_isActive = false
  | .openOrCreateFile | .assign _ | .tryLock | .exists | .clobber | .bind | .chmod | .listen
  | .fillAddrParms => server.m_isActive = false ∧ server.m_sockfd.isSome

/-- The process needs the lock here. -/
def Critical (server : ServerSocketImpl) : Prop :=
  match server.phase with
  | .closeFile _ | .removeLock _ => False
  | .exists | .clobber | .bind | .chmod | .listen | .fillAddrParms => True
  | _ => server.m_isActive = true

/-- The name refers to the socket of the process. -/
def Bound (server : ServerSocketImpl) : Prop :=
  match server.phase with
  | .chmod | .listen | .fillAddrParms => True
  | _ => server.Serves

theorem not_serves {server : ServerSocketImpl} (inactive : server.m_isActive = false) :
    ¬ server.Serves := by
  rintro ⟨active, -⟩
  rw [inactive] at active
  cases active

theorem Bound.critical {server : ServerSocketImpl} (consistent : server.Consistent)
    (bound : server.Bound) : server.Critical := by
  unfold Consistent at consistent
  unfold Bound at bound
  unfold Critical
  cases at_ : server.phase <;> simp only [at_] at consistent bound ⊢
  case closeFile | removeLock => exact absurd bound.2 (by simp [consistent.2])
  all_goals exact bound.1

end ServerSocketImpl

variable {Process : Type}

/-- The process has the lock of the file that it has open. -/
def State.Holds (state : State Process) (process : Process) : Prop :=
  ∃ file, (state.server process).m_udsFile = some file ∧ state.locks file = some process

/-- All open lock files are the one that has the name, and the processes that need the lock have it. -/
structure Guarded (state : State Process) : Prop where
  consistent : ∀ process, (state.server process).Consistent
  current : ∀ process file, (state.server process).Opens file → state.lockName = some file
  held : ∀ process file, state.locks file = some process →
    (state.server process).m_udsFile = some file
  critical : ∀ process, (state.server process).Critical → state.Holds process
  bound : ∀ process, (state.server process).Bound →
    state.socketName.isSome ∧ state.socketName = (state.server process).m_sockfd

variable {state later : State Process} {process other : Process}

theorem Guarded.holder_unique (guarded : Guarded state) (holds : state.Holds process)
    (also : state.Holds other) : process = other := by
  obtain ⟨file, opened, locked⟩ := holds
  obtain ⟨another, openedToo, lockedToo⟩ := also
  have first := guarded.current process file (.inl opened)
  have second := guarded.current other another (.inl openedToo)
  rw [first, Option.some.injEq] at second
  subst second
  rw [locked, Option.some.injEq] at lockedToo
  exact lockedToo

theorem Guarded.exclusive (guarded : Guarded state) : Exclusive state := by
  have bound (process : Process) (serves : (state.server process).Serves) :
      (state.server process).Bound := by
    unfold ServerSocketImpl.Bound
    split
    · trivial
    · trivial
    · trivial
    · exact serves
  refine ⟨fun process serves => guarded.bound process (bound process serves), ?_⟩
  intro process other serves servesToo
  exact guarded.holder_unique
    (guarded.critical process ((bound process serves).critical (guarded.consistent process)))
    (guarded.critical other ((bound other servesToo).critical (guarded.consistent other)))

variable [DecidableEq Process] {server : ServerSocketImpl}

/-- What a system call of one process may change. It keeps the locks of the others, it changes the name
of the socket only with the lock, and that of the lock file only when no other process has it open. -/
structure Change (state : State Process) (process : Process) (server : ServerSocketImpl)
    (later : State Process) : Prop where
  servers : later.server = Function.update state.server process server
  consistent : server.Consistent
  opens : ∀ file, server.Opens file → later.lockName = some file
  lockName : later.lockName = state.lockName ∨
    ∀ other, other ≠ process → ∀ file, ¬ (state.server other).Opens file
  locks : ∀ file, later.locks file = some process → server.m_udsFile = some file
  others : ∀ other, other ≠ process → ∀ file,
    later.locks file = some other ↔ state.locks file = some other
  critical : server.Critical →
    ∃ file, server.m_udsFile = some file ∧ later.locks file = some process
  bound : server.Bound → later.socketName.isSome ∧ later.socketName = server.m_sockfd
  socketName : later.socketName = state.socketName ∨ state.Holds process

theorem Guarded.change (guarded : Guarded state) (change : Change state process server later) :
    Guarded later := by
  have itself : later.server process = server := by
    rw [change.servers, Function.update_self]
  have unmoved {other : Process} (different : other ≠ process) :
      later.server other = state.server other := by
    rw [change.servers, Function.update_of_ne different]
  refine ⟨?_, ?_, ?_, ?_, ?_⟩
  · intro other
    by_cases same : other = process
    · rw [same, itself]
      exact change.consistent
    · rw [unmoved same]
      exact guarded.consistent other
  · intro other file opened
    by_cases same : other = process
    · rw [same, itself] at opened
      exact change.opens file opened
    · rw [unmoved same] at opened
      rcases change.lockName with kept | none
      · rw [kept]
        exact guarded.current other file opened
      · exact absurd opened (none other same file)
  · intro other file locked
    by_cases same : other = process
    · rw [same] at locked
      rw [same, itself]
      exact change.locks file locked
    · rw [unmoved same]
      exact guarded.held other file ((change.others other same file).mp locked)
  · intro other needs
    by_cases same : other = process
    · rw [same, itself] at needs
      rw [same, State.Holds, itself]
      exact change.critical needs
    · rw [unmoved same] at needs
      obtain ⟨file, opened, locked⟩ := guarded.critical other needs
      rw [State.Holds, unmoved same]
      exact ⟨file, opened, (change.others other same file).mpr locked⟩
  · intro other bound
    by_cases same : other = process
    · rw [same, itself] at bound ⊢
      exact change.bound bound
    · rw [unmoved same] at bound ⊢
      rcases change.socketName with kept | holds
      · rw [kept]
        exact guarded.bound other bound
      · have needs := bound.critical (guarded.consistent other)
        exact absurd (guarded.holder_unique (guarded.critical other needs) holds) same

/-- A step that changes only the object of its process. -/
theorem Guarded.moved (guarded : Guarded state) (server : ServerSocketImpl)
    (consistent : server.Consistent)
    (file : server.m_udsFile = (state.server process).m_udsFile)
    (temporary : ∀ file, server.phase ≠ .assign (some file))
    (critical : server.Critical → (state.server process).Critical)
    (bound : server.Bound → (state.server process).Bound ∧
      server.m_sockfd = (state.server process).m_sockfd) :
    Change state process server (state.set process server) where
  servers := rfl
  consistent := consistent
  opens := by
    rintro opened (isOpen | assigns)
    · exact guarded.current process opened (.inl (by rw [← file, isOpen]))
    · exact absurd assigns (temporary opened)
  lockName := .inl rfl
  locks opened locked := by
    rw [file]
    exact guarded.held process opened locked
  others _ _ _ := Iff.rfl
  critical needs := by
    rw [file]
    exact guarded.critical process (critical needs)
  bound isBound := by
    rw [(bound isBound).2]
    exact guarded.bound process (bound isBound).1
  socketName := .inl rfl

/-- A process has no lock after it has closed or unlocked its file. -/
theorem Guarded.drop_own (guarded : Guarded state) (file : Nat) :
    (state.drop process (state.server process).m_udsFile).locks file ≠ some process := by
  intro locked
  rw [State.drop] at locked
  dsimp only at locked
  split at locked
  · cases locked
  · next kept => exact kept ⟨guarded.held process file locked, locked⟩

theorem drop_none {file : Option Nat} {name : Nat} (none : state.locks name ≠ some process) :
    (state.drop process file).locks name ≠ some process := by
  rw [State.drop]
  dsimp only
  split
  · nofun
  · exact none

theorem drop_other {file : Option Nat} (different : other ≠ process) (name : Nat) :
    (state.drop process file).locks name = some other ↔ state.locks name = some other := by
  rw [State.drop]
  dsimp only
  split
  · next dropped =>
      rw [dropped.2, Option.some.injEq]
      exact ⟨nofun, fun same => absurd same.symm different⟩
  · exact Iff.rfl

end Invariant

section Steps

variable {Process : Type} [DecidableEq Process] {state later : State Process} {process : Process}
  {ok : Bool}

/-- An exception leaves the object active, with the lock. -/
theorem Guarded.throws (guarded : Guarded state) (after : After)
    (needs : (state.server process).Critical) (isClosed : (state.server process).isOpen = false) :
    Change state process ((state.server process).thrown after)
      (state.set process ((state.server process).thrown after)) := by
  refine guarded.moved _ ?_ ?_ ?_ (fun _ => needs) ?_
  · cases after <;> trivial
  · cases after <;> rfl
  · cases after <;> nofun
  · intro bound
    have isOpen : (state.server process).isOpen = true := by
      cases after <;> exact bound.2
    rw [isClosed] at isOpen
    cases isOpen

/-- A call of `doListenUDS` fails before its object is active. -/
theorem Guarded.gives_up (guarded : Guarded state)
    (inactive : (state.server process).m_isActive = false) :
    Change state process { state.server process with phase := .outside }
      (state.set process { state.server process with phase := .outside }) := by
  refine guarded.moved _ trivial rfl nofun ?_ ?_
  · intro active
    rw [ServerSocketImpl.Critical] at active
    exact absurd active (by simp [inactive])
  · intro bound
    exact absurd bound (ServerSocketImpl.not_serves inactive)

/-- The process with the lock changes the name of the socket. -/
theorem Guarded.renames (guarded : Guarded state) (phase : Phase) (socketName : Option Nat)
    (holds : state.Holds process)
    (consistent : ({ state.server process with phase := phase } : ServerSocketImpl).Consistent)
    (temporary : ∀ file, phase ≠ .assign (some file))
    (bound : ({ state.server process with phase := phase } : ServerSocketImpl).Bound →
      socketName.isSome ∧ socketName = (state.server process).m_sockfd) :
    Change state process { state.server process with phase := phase }
      ({ state with socketName := socketName }.set process
        { state.server process with phase := phase }) where
  servers := rfl
  consistent := consistent
  opens := by
    rintro file (opened | assigns)
    · exact guarded.current process file (.inl opened)
    · exact absurd assigns (temporary file)
  lockName := .inl rfl
  locks := guarded.held process
  others _ _ _ := Iff.rfl
  critical _ := holds
  bound := bound
  socketName := .inr holds

/-- The process gives its lock up. -/
theorem change_releases (server : ServerSocketImpl)
    {locks : Nat → Option Process} (own : ∀ name, locks name ≠ some process)
    (others : ∀ other, other ≠ process → ∀ name, locks name = some other ↔
      state.locks name = some other)
    (consistent : server.Consistent)
    (opens : ∀ file, server.Opens file → state.lockName = some file)
    (uncritical : ¬ server.Critical) :
    Change state process server ({ state with locks := locks }.set process server) where
  servers := rfl
  consistent := consistent
  opens := opens
  lockName := .inl rfl
  locks file locked := absurd locked (own file)
  others := others
  critical needs := absurd needs uncritical
  bound isBound := absurd (isBound.critical consistent) uncritical
  socketName := .inl rfl

/-- A process without the lock opens the lock file, or makes a new one. -/
theorem Guarded.opens (guarded : Guarded state) (server : ServerSocketImpl)
    {lockName : Option Nat} {fresh : Nat} (consistent : server.Consistent)
    (kept : lockName = state.lockName ∨ state.lockName = none)
    (file : server.m_udsFile = (state.server process).m_udsFile)
    (temporary : ∀ name, server.phase = .assign (some name) → lockName = some name)
    (uncritical : ¬ server.Critical) :
    Change state process server
      ({ state with lockName := lockName, fresh := fresh }.set process server) := by
  have none (missing : state.lockName = none) (other : Process) (name : Nat) :
      ¬ (state.server other).Opens name := by
    intro opened
    have found := guarded.current other name opened
    rw [missing] at found
    cases found
  refine ⟨rfl, consistent, ?_, ?_, ?_, fun _ _ _ => Iff.rfl, fun needs => absurd needs uncritical,
    fun bound => absurd (bound.critical consistent) uncritical, .inl rfl⟩
  · rintro name (opened | assigns)
    · have opens : (state.server process).Opens name := .inl (file.symm.trans opened)
      rcases kept with same | missing
      · exact same.trans (guarded.current process name opens)
      · exact absurd opens (none missing process name)
    · exact temporary name assigns
  · rcases kept with same | missing
    · exact .inl same
    · exact .inr fun other _ => none missing other
  · intro name locked
    exact file.trans (guarded.held process name locked)

theorem Guarded.advance (guarded : Guarded state)
    (undisturbed : Undisturbed state (.advance process ok))
    (taken : state.advance process ok = some later) :
    ∃ server, Change state process server later := by
  have consistent := guarded.consistent process
  have needs := guarded.critical process
  unfold State.advance at taken
  unfold ServerSocketImpl.Consistent at consistent
  unfold ServerSocketImpl.Critical at needs
  dsimp only at taken
  cases at_ : (state.server process).phase with
  | outside =>
      rw [at_] at taken
      cases taken
  | closeSocket after =>
      simp only [at_, Option.some.injEq] at taken consistent needs
      subst taken
      refine ⟨_, guarded.moved _ ⟨consistent, rfl⟩ rfl nofun ?_ nofun⟩
      intro active
      simpa only [ServerSocketImpl.Critical, at_] using active
  | removeSocket after =>
      simp only [at_] at taken consistent needs
      have holds := needs consistent.1
      split at taken
      · have opened : (state.server process).m_udsFile.isSome = true := by
          obtain ⟨file, opened, -⟩ := holds
          rw [opened]
          rfl
        rw [if_pos opened, Option.some.injEq] at taken
        subst taken
        refine ⟨_, guarded.renames _ none holds ⟨consistent.1, consistent.2⟩ nofun ?_⟩
        intro bound
        exact absurd bound.2 (by simp [consistent.2])
      · cases taken
        exact ⟨_, guarded.throws after
          (by simpa only [ServerSocketImpl.Critical, at_] using consistent.1) consistent.2⟩
  | unlock after =>
      simp only [at_] at taken consistent needs
      split at taken
      · cases taken
        refine ⟨_, change_releases _ guarded.drop_own (fun _ => drop_other)
          ⟨consistent.1, consistent.2⟩ ?_ id⟩
        rintro file (opened | assigns)
        · exact guarded.current process file (.inl opened)
        · cases assigns
      · cases taken
        exact ⟨_, guarded.throws after
          (by simpa only [ServerSocketImpl.Critical, at_] using consistent.1) consistent.2⟩
  | closeFile after =>
      simp only [at_, Option.some.injEq] at taken consistent
      subst taken
      refine ⟨_, change_releases _ guarded.drop_own (fun _ => drop_other)
        ⟨consistent.1, consistent.2, rfl⟩ ?_ id⟩
      rintro file (opened | assigns)
      · cases opened
      · cases assigns
  | removeLock after =>
      simp only [at_] at taken consistent
      obtain ⟨succeeds, found, alone⟩ := undisturbed after at_
      rw [if_pos ⟨succeeds, found⟩, Option.some.injEq] at taken
      subst taken
      have isClosed : ¬ ((state.server process).closed after).Critical := by
        cases after <;> nofun
      have settled : ((state.server process).closed after).Consistent := by
        cases after <;> trivial
      refine ⟨_, ⟨rfl, settled, ?_, .inr ?_, ?_, fun _ _ _ => Iff.rfl,
        fun needs => absurd needs isClosed,
        fun bound => absurd (bound.critical settled) isClosed, .inl rfl⟩⟩
      · have shut : ((state.server process).closed after).m_udsFile = none := by
          cases after <;> exact consistent.2.2
        rintro file (opened | assigns)
        · rw [shut] at opened
          cases opened
        · cases after <;> cases assigns
      · intro other different file opened
        exact alone other different file (guarded.current other file opened) opened
      · intro file locked
        cases after <;> exact guarded.held process file locked
  | socket =>
      simp only [at_] at taken consistent needs
      split at taken
      · cases taken
        exact ⟨_, guarded.opens _ ⟨consistent, rfl⟩ (.inl rfl) rfl nofun
          (by simp [ServerSocketImpl.Critical, consistent])⟩
      · cases taken
        exact ⟨_, guarded.gives_up consistent⟩
  | openOrCreateFile =>
      simp only [at_] at taken consistent needs
      have uncritical (file : Option Nat) : ¬ ({ state.server process with
          phase := .assign file } : ServerSocketImpl).Critical := by
        simp [ServerSocketImpl.Critical, consistent.1]
      split at taken
      · split at taken
        · next file found =>
            cases taken
            refine ⟨_, guarded.opens _ consistent (.inl rfl) rfl ?_ (uncritical _)⟩
            rintro name ⟨⟩
            exact found
        · next missing =>
            cases taken
            refine ⟨_, guarded.opens _ consistent (.inr missing) rfl ?_ (uncritical _)⟩
            rintro name ⟨⟩
            rfl
      · cases taken
        exact ⟨_, guarded.opens _ consistent (.inl rfl) rfl nofun (uncritical _)⟩
  | assign file =>
      simp only [at_] at taken consistent needs
      split at taken
      · cases taken
        refine ⟨_, change_releases _ (fun _ => drop_none (guarded.drop_own _))
          (fun _ other _ => (drop_other other _).trans (drop_other other _))
          ⟨consistent.1, consistent.2⟩ ?_ ?_⟩
        · rintro name (opened | assigns)
          · exact guarded.current process name (.inr (by rw [at_, ← opened]))
          · cases assigns
        · intro active
          exact absurd active (by simp [ServerSocketImpl.Critical, consistent.1])
      · cases taken
        refine ⟨_, change_releases _ (fun _ => drop_none (guarded.drop_own _))
          (fun _ other _ => (drop_other other _).trans (drop_other other _)) trivial ?_ ?_⟩
        · rintro name (opened | assigns)
          · cases opened
          · cases assigns
        · intro active
          exact absurd active (by simp [ServerSocketImpl.Critical, consistent.1])
  | tryLock =>
      simp only [at_] at taken consistent needs
      split at taken
      · cases taken
        exact ⟨_, guarded.gives_up consistent.1⟩
      · next file opened =>
          split at taken
          · next free =>
              cases taken
              refine ⟨_, ⟨rfl, consistent, ?_, .inl rfl, ?_, ?_, ?_, ?_, .inl rfl⟩⟩
              · rintro name (same | assigns)
                · exact guarded.current process name (.inl same)
                · cases assigns
              · intro name locked
                by_cases same : name = file
                · rw [same]
                  exact opened
                · change Function.update state.locks file (some process) name = some process
                    at locked
                  rw [Function.update_of_ne same] at locked
                  exact guarded.held process name locked
              · intro other different name
                change Function.update state.locks file (some process) name = some other ↔ _
                by_cases same : name = file
                · have apart : some process ≠ some other :=
                    fun equal => different (Option.some.inj equal).symm
                  rw [same, Function.update_self]
                  refine ⟨fun locked => absurd locked apart, fun locked => ?_⟩
                  rcases free.2 with unlocked | own
                  · rw [unlocked] at locked
                    cases locked
                  · rw [own] at locked
                    exact absurd locked apart
                · rw [Function.update_of_ne same]
              · intro _
                exact ⟨file, opened, Function.update_self ..⟩
              · intro bound
                exact absurd bound (ServerSocketImpl.not_serves consistent.1)
          · cases taken
            exact ⟨_, guarded.gives_up consistent.1⟩
  | «exists» =>
      simp only [at_] at taken consistent needs
      split at taken
      · cases taken
        exact ⟨_, guarded.moved _ consistent rfl nofun
          (fun _ => by simp [ServerSocketImpl.Critical, at_])
          fun bound => absurd bound (ServerSocketImpl.not_serves consistent.1)⟩
      · cases taken
        exact ⟨_, guarded.moved _ consistent rfl nofun
          (fun _ => by simp [ServerSocketImpl.Critical, at_])
          fun bound => absurd bound (ServerSocketImpl.not_serves consistent.1)⟩
  | clobber =>
      simp only [at_, forall_const] at taken consistent needs
      split at taken
      · cases taken
        exact ⟨_, guarded.renames .bind none needs consistent nofun fun bound =>
          absurd bound (ServerSocketImpl.not_serves consistent.1)⟩
      · cases taken
        exact ⟨_, guarded.gives_up consistent.1⟩
  | bind =>
      simp only [at_, forall_const] at taken consistent needs
      split at taken
      · cases taken
        exact ⟨_, guarded.renames .chmod _ needs consistent nofun fun _ => ⟨consistent.2, rfl⟩⟩
      · cases taken
        exact ⟨_, guarded.gives_up consistent.1⟩
  | chmod =>
      simp only [at_] at taken consistent needs
      split at taken
      · cases taken
        exact ⟨_, guarded.moved _ consistent rfl nofun
          (fun _ => by simp [ServerSocketImpl.Critical, at_])
          fun _ => ⟨by simp [ServerSocketImpl.Bound, at_], rfl⟩⟩
      · cases taken
        exact ⟨_, guarded.gives_up consistent.1⟩
  | listen =>
      simp only [at_] at taken consistent needs
      split at taken
      · cases taken
        exact ⟨_, guarded.moved _ consistent rfl nofun
          (fun _ => by simp [ServerSocketImpl.Critical, at_])
          fun _ => ⟨by simp [ServerSocketImpl.Bound, at_], rfl⟩⟩
      · cases taken
        exact ⟨_, guarded.gives_up consistent.1⟩
  | fillAddrParms =>
      simp only [at_] at taken consistent needs
      split at taken
      · cases taken
        exact ⟨_, guarded.moved _ trivial rfl nofun
          (fun _ => by simp [ServerSocketImpl.Critical, at_])
          fun _ => ⟨by simp [ServerSocketImpl.Bound, at_], rfl⟩⟩
      · cases taken
        exact ⟨_, guarded.gives_up consistent.1⟩
  | destroyFile =>
      simp only [at_, Option.some.injEq] at taken
      subst taken
      exact ⟨_, change_releases .new guarded.drop_own (fun _ => drop_other) trivial
        (by rintro file (opened | assigns) <;> contradiction)
        (by simp [ServerSocketImpl.Critical, ServerSocketImpl.new])⟩

/-- A call starts. -/
theorem Guarded.starts (guarded : Guarded state)
    (idle : (state.server process).phase = .outside) {phase : Phase}
    (begins : phase = .socket ∧ (state.server process).m_isActive = false ∨
      phase = .destroyFile ∨
        ∃ after, phase = .closeSocket after ∧ (state.server process).m_isActive = true) :
    Change state process { state.server process with phase := phase }
      (state.set process { state.server process with phase := phase }) := by
  have critical : (state.server process).m_isActive = true → (state.server process).Critical := by
    simp only [ServerSocketImpl.Critical, idle, imp_self]
  have bound : (state.server process).Serves → (state.server process).Bound := by
    simp only [ServerSocketImpl.Bound, idle, imp_self]
  rcases begins with ⟨rfl, inactive⟩ | rfl | ⟨after, rfl, active⟩
  · exact guarded.moved _ inactive rfl nofun critical fun serves => ⟨bound serves, rfl⟩
  · exact guarded.moved _ trivial rfl nofun critical fun serves => ⟨bound serves, rfl⟩
  · exact guarded.moved _ active rfl nofun critical fun serves => ⟨bound serves, rfl⟩

theorem change_die :
    Change state process .new { state with
      locks := fun file => if state.locks file = some process then none else state.locks file
      server := Function.update state.server process .new } where
  servers := rfl
  consistent := trivial
  opens := by
    rintro file (opened | assigns) <;> contradiction
  lockName := .inl rfl
  locks file locked := by
    dsimp only at locked
    split at locked
    · cases locked
    · contradiction
  others other different file := by
    dsimp only
    split
    · next own =>
        rw [own, Option.some.injEq]
        exact ⟨nofun, fun same => absurd same.symm different⟩
    · exact Iff.rfl
  critical := nofun
  bound := nofun
  socketName := .inl rfl

theorem Guarded.step (guarded : Guarded state) {label : Label Process}
    (undisturbed : Undisturbed state label) (taken : state.next label = some later) :
    Guarded later := by
  cases label with
  | doListenUDS process =>
      rw [State.next] at taken
      split at taken
      · next idle =>
          cases taken
          apply guarded.change (guarded.starts idle ?_)
          split
          · next active => exact .inr (.inr ⟨_, rfl, active⟩)
          · next inactive => exact .inl ⟨rfl, Bool.eq_false_of_not_eq_true inactive⟩
      · cases taken
  | close process =>
      rw [State.next] at taken
      split at taken
      · next idle =>
          cases taken
          exact guarded.change (guarded.starts idle.1 (.inr (.inr ⟨_, rfl, idle.2⟩)))
      · cases taken
  | destroy process =>
      rw [State.next] at taken
      split at taken
      · next idle =>
          cases taken
          apply guarded.change (guarded.starts idle ?_)
          split
          · next active => exact .inr (.inr ⟨_, rfl, active⟩)
          · exact .inr (.inl rfl)
      · cases taken
  | advance process ok =>
      obtain ⟨server, change⟩ := guarded.advance undisturbed taken
      exact guarded.change change
  | die process =>
      cases taken
      exact guarded.change change_die

end Steps

section Theorem

variable {Process : Type} [DecidableEq Process] {state : State Process}

omit [DecidableEq Process] in
theorem guarded_initial (start : state.IsInitial) : Guarded state := by
  refine ⟨?_, ?_, ?_, ?_, ?_⟩
  · intro process
    rw [start.servers]
    trivial
  · intro process file opened
    rw [start.servers] at opened
    rcases opened with opened | assigns <;> contradiction
  · intro process file locked
    rw [start.unlocked] at locked
    cases locked
  · intro process needs
    rw [start.servers] at needs
    cases needs
  · intro process bound
    rw [start.servers] at bound
    cases bound.1

/-- No process has called yet, and there are no files. -/
def noServer (Process : Type) : State Process := ⟨none, none, fun _ => none, fun _ => .new, 0⟩

theorem noServer_initial (Process : Type) : (noServer Process).IsInitial :=
  ⟨fun _ => rfl, fun _ => rfl, nofun, nofun⟩

/-- A process listens. -/
def listening : List (Label Unit) := .doListenUDS () :: List.replicate 9 (.advance () true)

def afterCalls (count : Nat) : State Unit :=
  ((listening.take count).foldlM State.next (noServer Unit)).getD (noServer Unit)

theorem afterCalls_reachable (count : Nat) (few : count ≤ 10) :
    ((system Unit).restrict Undisturbed).Reachable (afterCalls count) := by
  induction count with
  | zero => exact .initial (noServer_initial Unit)
  | succ count ih =>
      have less : count < 10 := few
      have step : ((system Unit).restrict Undisturbed).step (afterCalls count)
          (listening.getD count (.die ())) (afterCalls (count + 1)) := by
        constructor
        · interval_cases count <;> rfl
        · interval_cases count <;> first | exact trivial | exact nofun
      exact (ih less.le).step step

/-- The second process opens the lock file before the first one removes it, and locks it when the first
one has unlocked it. The third process makes a new lock file. -/
def disturbed : List (Label Nat) :=
  [.doListenUDS 0] ++ List.replicate 9 (.advance 0 true) ++
    [.doListenUDS 1] ++ List.replicate 3 (.advance 1 true) ++
    [.close 0] ++ List.replicate 3 (.advance 0 true) ++ [.advance 1 true] ++
    List.replicate 2 (.advance 0 true) ++ List.replicate 5 (.advance 1 true) ++
    [.doListenUDS 2] ++ List.replicate 10 (.advance 2 true)

/-- The condition is needed. -/
theorem disturbed_not_exclusive :
    ∃ state : State Nat, (system Nat).Reachable state ∧ ¬ Exclusive state := by
  have serve : (⟨true, some 2, some 1, true, .outside⟩, ⟨true, some 3, some 4, true, .outside⟩) ∈
      (TransitionSystem.follow State.next (noServer Nat) disturbed).map fun step =>
        (step.target.server 1, step.target.server 2) := by decide
  obtain ⟨step, taken, same⟩ := List.mem_map.mp serve
  rw [Prod.mk.injEq] at same
  have run := TransitionSystem.follow_run State.IsInitial State.next disturbed (noServer Nat)
  refine ⟨step.target, run.reachable (.initial (noServer_initial _)) step taken, ?_⟩
  intro exclusive
  have one := exclusive.single 1 2 (by rw [same.1]; exact ⟨rfl, rfl⟩)
    (by rw [same.2]; exact ⟨rfl, rfl⟩)
  cases one

end Theorem

end Blocxx.ServerSockets
