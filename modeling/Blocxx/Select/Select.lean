import Mathlib.Tactic

/-!
This file embeds the three back ends of `selectRW`. The kernel is the results of the system calls
and, for each wait, the readiness of the descriptors.
-/

namespace Blocxx.Select

def SELECT_TIMEOUT : Int := -2

def SELECT_ERROR : Int := -1

def SELECT_NOT_IMPLEMENTED : Int := -4

structure SelectObject where
  s : Int
  waitForRead : Bool
  waitForWrite : Bool
  readAvailable : Bool
  writeAvailable : Bool
  wasError : Bool
  deriving DecidableEq

/-- The bits of `epoll_event` and `pollfd`. -/
structure Events where
  IN : Bool
  PRI : Bool
  OUT : Bool
  ERR : Bool
  HUP : Bool
  NVAL : Bool
  deriving DecidableEq

def Events.any (events : Events) : Bool :=
  events.IN || events.PRI || events.OUT || events.ERR || events.HUP || events.NVAL

/-- The bits that are set in both. -/
def Events.inter (first second : Events) : Events where
  IN := first.IN && second.IN
  PRI := first.PRI && second.PRI
  OUT := first.OUT && second.OUT
  ERR := first.ERR && second.ERR
  HUP := first.HUP && second.HUP
  NVAL := first.NVAL && second.NVAL

/-- What one wait sees. -/
inductive Wait where
  | interrupted
  | failed
  | returned (readiness : Int → Events)

/-- The timer expires after the last wait. -/
structure Kernel where
  /-- The `errno` of `epoll_create` unless it succeeds. -/
  epoll_create : Option Int
  /-- The `errno` of `epoll_ctl` for a descriptor that is not yet added, unless it succeeds. -/
  epoll_ctl : Int → Option Int
  waits : List Wait

def EPERM : Int := 1

def EEXIST : Int := 17

def ENOSYS : Int := 38

/-- The loop that waits until something is ready, the wait fails or the timer expires. It answers
the count and the readiness, or the error. -/
def waitLoop (count : (Int → Events) → Nat) : List Wait → Except Int (Nat × (Int → Events))
  | [] => .error SELECT_TIMEOUT
  | .interrupted :: waits => waitLoop count waits
  | .failed :: _ => .error SELECT_ERROR
  | .returned readiness :: waits =>
      if count readiness = 0 then waitLoop count waits else .ok (count readiness, readiness)

/-- The output flags before a wait. -/
def SelectObject.clear (so : SelectObject) : SelectObject :=
  { so with readAvailable := false, writeAvailable := false, wasError := false }

section Epoll

def read_events : Events := ⟨true, true, false, true, true, false⟩

def write_events : Events := ⟨false, false, true, true, true, false⟩

/-- The member `events` with which an object is added. -/
def SelectObject.epollEvents (so : SelectObject) : Events where
  IN := so.waitForRead
  PRI := so.waitForRead
  OUT := so.waitForWrite
  ERR := so.waitForRead || so.waitForWrite
  HUP := so.waitForRead || so.waitForWrite
  NVAL := false

/-- The kernel reports the asked bits, and errors and hang-ups in any case. -/
def SelectObject.epollReported (readiness : Int → Events) (so : SelectObject) : Events :=
  (readiness so.s).inter { so.epollEvents with ERR := true, HUP := true }

/-- The events that `epoll_wait` fills in, with the indices of their objects. -/
def epollReady (readiness : Int → Events) (selarray : List SelectObject) : List (Nat × Events) :=
  selarray.zipIdx.filterMap fun entry =>
    let events := entry.1.epollReported readiness
    if events.any then some (entry.2, events) else none

/-- The loop that adds the objects. It answers the `errno` of a failure, and nothing when an
assertion fails. -/
def epollAdd (epoll_ctl : Int → Option Int) :
    List Int → List SelectObject → Option (Option Int × List SelectObject)
  | _, [] => some (none, [])
  | added, so :: rest =>
      if so.s < 0 then none
      else
        match if so.s ∈ added then some EEXIST else epoll_ctl so.s with
        | some errno => some (some errno, so.clear :: rest)
        | none =>
            (epollAdd epoll_ctl (so.s :: added) rest).map fun result =>
              (result.1, so.clear :: result.2)

/-- The body of the loop over the filled events. -/
def setAvailable (selarray : List SelectObject) (event : Nat × Events) : List SelectObject :=
  selarray.modify event.1 fun so =>
    { so with
      readAvailable := so.waitForRead && (event.2.inter read_events).any
      writeAvailable := so.waitForWrite && (event.2.inter write_events).any }

/-- No answer is a failed assertion. -/
def selectRWEpoll (kernel : Kernel) (selarray : List SelectObject) :
    Option (Int × List SelectObject) :=
  match kernel.epoll_create with
  | some errno =>
      some (if errno = ENOSYS then SELECT_NOT_IMPLEMENTED else SELECT_ERROR, selarray)
  | none =>
      match epollAdd kernel.epoll_ctl [] selarray with
      | none => none
      | some (some errno, cleared) =>
          some (if errno = EPERM then SELECT_NOT_IMPLEMENTED else SELECT_ERROR, cleared)
      | some (none, cleared) =>
          match waitLoop (fun readiness => (epollReady readiness selarray).length) kernel.waits with
          | .error rc => some (rc, cleared)
          | .ok (ecc, readiness) =>
              some (ecc, (epollReady readiness selarray).foldl setAvailable cleared)

end Epoll

section Poll

/-- The member `events` of `pollfd`. -/
def SelectObject.pollEvents (so : SelectObject) : Events where
  IN := so.waitForRead
  PRI := so.waitForRead
  OUT := so.waitForWrite
  ERR := false
  HUP := false
  NVAL := false

/-- The kernel reports the asked bits, and errors, hang-ups and invalid descriptors in any case. -/
def SelectObject.revents (readiness : Int → Events) (so : SelectObject) : Events :=
  (readiness so.s).inter { so.pollEvents with ERR := true, HUP := true, NVAL := true }

/-- The number of entries that `poll` answers. -/
def pollCount (selarray : List SelectObject) (readiness : Int → Events) : Nat :=
  selarray.countP fun so => (so.revents readiness).any

/-- The body of the loop after `poll`. -/
def SelectObject.polled (readiness : Int → Events) (so : SelectObject) : SelectObject :=
  let revents := so.revents readiness
  let so := so.clear
  let so := if revents.ERR || revents.NVAL then { so with wasError := true } else so
  let so :=
    if so.waitForRead then
      { so with readAvailable := revents.IN || revents.PRI || revents.HUP }
    else so
  if so.waitForWrite then { so with writeAvailable := revents.OUT || revents.HUP } else so

def selectRWPoll (kernel : Kernel) (selarray : List SelectObject) :
    Option (Int × List SelectObject) :=
  if ∃ so ∈ selarray, so.s < 0 then none
  else
    match waitLoop (pollCount selarray) kernel.waits with
    | .error rc => some (rc, selarray.map SelectObject.clear)
    | .ok (rc, readiness) => some (rc, selarray.map (SelectObject.polled readiness))

end Poll

section SelectCall

def FD_SETSIZE : Int := 1024

/-- The descriptors in `ifds` before the call. -/
def readSet (selarray : List SelectObject) : List Int :=
  (selarray.filter SelectObject.waitForRead).map SelectObject.s

/-- The descriptors in `ofds` before the call. -/
def writeSet (selarray : List SelectObject) : List Int :=
  (selarray.filter SelectObject.waitForWrite).map SelectObject.s

/-- The bits for which `select` leaves a descriptor in the set for reading. -/
def Events.readable (events : Events) : Bool := events.IN || events.HUP || events.ERR

/-- The bits for which `select` leaves a descriptor in the set for writing. -/
def Events.writable (events : Events) : Bool := events.OUT || events.ERR

/-- The sets `ifds` and `ofds` after the call. -/
def readySets (selarray : List SelectObject) (readiness : Int → Events) : List Int × List Int :=
  ((readSet selarray).dedup.filter fun fd => (readiness fd).readable,
    (writeSet selarray).dedup.filter fun fd => (readiness fd).writable)

/-- The number of descriptors in both sets that `select` answers. -/
def selectCount (selarray : List SelectObject) (readiness : Int → Events) : Nat :=
  (readySets selarray readiness).1.length + (readySets selarray readiness).2.length

/-- The body of the loop after `select`. -/
def SelectObject.selected (sets : List Int × List Int) (so : SelectObject) : SelectObject :=
  { so with
    readAvailable := so.s ∈ sets.1
    writeAvailable := so.s ∈ sets.2
    wasError := false }

/-- The variable `availableCount` after the loop. -/
def availableCount (sets : List Int × List Int) (selarray : List SelectObject) : Nat :=
  selarray.countP fun so => so.s ∈ sets.1 || so.s ∈ sets.2

def selectRWSelect (kernel : Kernel) (selarray : List SelectObject) :
    Option (Int × List SelectObject) :=
  match selarray.find? fun so => so.s < 0 || so.s ≥ FD_SETSIZE with
  | some so => if so.s < 0 then none else some (SELECT_ERROR, selarray)
  | none =>
      match waitLoop (selectCount selarray) kernel.waits with
      | .error rc => some (rc, selarray)
      | .ok (_, readiness) =>
          let sets := readySets selarray readiness
          some (availableCount sets selarray, selarray.map (SelectObject.selected sets))

end SelectCall

end Blocxx.Select
