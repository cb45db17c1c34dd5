import Mathlib.Tactic

/-!
This file embeds `Timeout` and `TimeoutTimer`. Times are exact seconds, and no number of seconds
stands for `INFINITY`.
-/

namespace Blocxx.Exec

inductive Timeout where
  | absolute (dt : ℚ)
  | relative (seconds : Option ℚ)
  | relativeWithReset (seconds : Option ℚ)
  deriving DecidableEq

structure TimeoutTimer where
  m_timeout : Timeout
  m_start : ℚ
  m_loopTime : ℚ

def INT_MIN : ℚ := -2147483648

def INT_MAX : ℚ := 2147483647

/-- The conversion of a number to an `int`, which drops the fraction. -/
def truncate (y : ℚ) : Int := if 0 ≤ y then ⌊y⌋ else ⌈y⌉

/-- The assignment to an `int`. -/
def safeAssign (y : ℚ) : Int :=
  if y < INT_MIN then -2147483648
  else if INT_MAX < y then 2147483647
  else truncate (y + 1 / 2)

namespace TimeoutTimer

/-- The constructor, also the member `start`. -/
def started (timeout : Timeout) (now : ℚ) : TimeoutTimer := ⟨timeout, now, now⟩

def loop (timer : TimeoutTimer) (now : ℚ) : TimeoutTimer := { timer with m_loopTime := now }

def resetOnLoop (timer : TimeoutTimer) (now : ℚ) : TimeoutTimer :=
  let timer := timer.loop now
  match timer.m_timeout with
  | .relativeWithReset _ => { timer with m_start := timer.m_loopTime }
  | _ => timer

/-- The test `diff.realSeconds() >= seconds`. -/
def compareInterval (first timeToTest : ℚ) : Option ℚ → Bool
  | some seconds => seconds ≤ timeToTest - first
  | none => false

def expired (timer : TimeoutTimer) : Bool :=
  match timer.m_timeout with
  | .absolute dt => dt ≤ timer.m_loopTime
  | .relative seconds => compareInterval timer.m_start timer.m_loopTime seconds
  | .relativeWithReset seconds => compareInterval timer.m_start timer.m_loopTime seconds

/-- The number of seconds until the timeout expires. -/
def calcSeconds (timer : TimeoutTimer) : Option ℚ :=
  match timer.m_timeout with
  | .absolute dt => some (dt - timer.m_loopTime)
  | .relative seconds => seconds.map fun s => timer.m_start - timer.m_loopTime + s
  | .relativeWithReset seconds => seconds.map fun s => timer.m_start - timer.m_loopTime + s

def asRelativeTimeout (timer : TimeoutTimer) : Timeout := .relative timer.calcSeconds

/-- The seconds until the timeout expires, and no more than the given ones. -/
def calcSecondsUpTo (timer : TimeoutTimer) (maxSeconds : ℚ) : ℚ :=
  match timer.calcSeconds with
  | none => maxSeconds
  | some seconds => if maxSeconds < seconds then maxSeconds else seconds

/-- The overload of `asIntMs` with a finite limit. -/
def asIntMs (timer : TimeoutTimer) (maxSeconds : ℚ) : Int :=
  safeAssign (timer.calcSecondsUpTo maxSeconds * 1000)

end TimeoutTimer

end Blocxx.Exec
