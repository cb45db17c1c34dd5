import Blocxx.Library.TransitionSystem

/-!
This file embeds the descriptors of `PosixUnnamedPipe`. A member function leaves tasks, and each of
them is one step with the answer of the system. No descriptor stands for `BLOCXX_INVALID_HANDLE`.
-/

namespace Blocxx.PosixUnnamedPipe

open Library

/-- What a member function does next. -/
inductive Task where
  /-- The close of the descriptor in `m_fds[0]`, after which it is invalid. -/
  | closeInput
  | closeOutput
  | socketpair
  /-- The end of the destructor. -/
  | destroyed
  deriving DecidableEq

/-- The descriptors that are open for the pipe, and whether another one was used or closed. -/
structure Kernel where
  isOpen : Nat → Bool
  fault : Bool

structure State where
  m_fds0 : Option Nat
  m_fds1 : Option Nat
  tasks : List Task
  destroyed : Bool
  kernel : Kernel

/-- The end of one `::close`. The one with `EINTR` may have closed the descriptor. -/
inductive CloseAnswer where
  | done
  | interrupted (closed : Bool)
  deriving DecidableEq

inductive Label where
  | open
  | read (endOfFile : Bool)
  | closeInputHandle
  | closeOutputHandle
  | close
  | destructor
  /-- The end of a task that has nothing to close. -/
  | skip
  | closed (answer : CloseAnswer)
  | opened (fds : Option (Nat × Nat))
  deriving DecidableEq

namespace Kernel

variable (kernel : Kernel)

def use (fd : Nat) : Kernel := { kernel with fault := kernel.fault || !kernel.isOpen fd }

def release (fd : Nat) : Kernel :=
  { kernel.use fd with isOpen := Function.update kernel.isOpen fd false }

/-- One turn of the loop in `upclose`. -/
def close (fd : Nat) : CloseAnswer → Kernel
  | .done | .interrupted true => kernel.release fd
  | .interrupted false => kernel.use fd

/-- The new descriptors are not open before. -/
def pair (first second : Nat) : Option Kernel :=
  if first ≠ second ∧ kernel.isOpen first = false ∧ kernel.isOpen second = false then
    some { kernel with
      isOpen := Function.update (Function.update kernel.isOpen first true) second true }
  else none

end Kernel

namespace State

variable (state : State)

/-- The member function `close`, up to its calls of `upclose`. -/
def close (rest : List Task) : State :=
  { state with
    m_fds1 := if state.m_fds0 = state.m_fds1 then none else state.m_fds1
    tasks := .closeInput :: .closeOutput :: rest }

def open_ : State :=
  if state.m_fds0 ≠ none then state.close [.socketpair]
  else { state with tasks := [.socketpair] }

def closeInputHandle : State :=
  if state.m_fds0 ≠ none then
    if state.m_fds0 ≠ state.m_fds1 then { state with tasks := [.closeInput] }
    else { state with m_fds0 := none }
  else state

def closeOutputHandle : State :=
  if state.m_fds1 ≠ none then
    if state.m_fds0 ≠ state.m_fds1 then { state with tasks := [.closeOutput] }
    else { state with m_fds1 := none }
  else state

def read (endOfFile : Bool) : State :=
  match state.m_fds0 with
  | some fd =>
      let state := { state with kernel := state.kernel.use fd }
      if endOfFile then state.closeInputHandle else state
  | none => state

/-- One turn of the loop in `upclose` for a task. -/
def closed (answer : CloseAnswer) : Option State :=
  match state.tasks with
  | .closeInput :: rest =>
      state.m_fds0.map fun fd =>
        let state := { state with kernel := state.kernel.close fd answer }
        if answer = .done then { state with m_fds0 := none, tasks := rest } else state
  | .closeOutput :: rest =>
      state.m_fds1.map fun fd =>
        let state := { state with kernel := state.kernel.close fd answer }
        if answer = .done then { state with m_fds1 := none, tasks := rest } else state
  | _ => none

/-- A call of a member function starts when no other one is running and the object lives. -/
def call (after : State) : Option State :=
  if state.tasks = [] ∧ state.destroyed = false then some after else none

def next : Label → Option State
  | .open => state.call state.open_
  | .read endOfFile => state.call (state.read endOfFile)
  | .closeInputHandle => state.call state.closeInputHandle
  | .closeOutputHandle => state.call state.closeOutputHandle
  | .close => state.call (state.close [])
  | .destructor => state.call (state.close [.destroyed])
  | .skip =>
      match state.tasks with
      | .closeInput :: rest =>
          if state.m_fds0 = none then some { state with tasks := rest } else none
      | .closeOutput :: rest =>
          if state.m_fds1 = none then some { state with tasks := rest } else none
      | .destroyed :: rest => some { state with tasks := rest, destroyed := true }
      | _ => none
  | .closed answer => state.closed answer
  | .opened fds =>
      match state.tasks, fds with
      | .socketpair :: rest, some (first, second) =>
          (state.kernel.pair first second).map fun kernel =>
            { state with
              m_fds0 := some first, m_fds1 := some second, tasks := rest, kernel := kernel }
      | .socketpair :: rest, none =>
          some { state with m_fds0 := none, m_fds1 := none, tasks := rest }
      | _, _ => none

end State

/-- The object that was constructed from these descriptors, which are open for it. -/
def constructed (inputfd outputfd : Option Nat) : State where
  m_fds0 := inputfd
  m_fds1 := outputfd
  tasks := []
  destroyed := false
  kernel := ⟨fun fd => some fd = inputfd || some fd = outputfd, false⟩

def system : TransitionSystem State Label :=
  .computed (fun state => ∃ inputfd outputfd, state = constructed inputfd outputfd) State.next

end Blocxx.PosixUnnamedPipe
