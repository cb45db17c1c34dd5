import Blocxx.Exec.Steps

/-!
This file proves when `processInputOutput` keeps to a deadline that no output resets.
-/

namespace Blocxx.Exec

open Library

section Rounding

theorem truncate_nonneg_iff {y : ℚ} : 0 ≤ truncate y ↔ -1 < y := by
  rw [truncate]
  split
  · next some =>
      rw [Int.floor_nonneg]
      constructor
      · intro _
        linarith
      · intro _
        exact some
  · have below : 0 ≤ ⌈y⌉ ↔ (-1 : ℤ) < ⌈y⌉ := by omega
    rw [below, Int.lt_ceil]
    norm_num

theorem truncate_pos_iff {y : ℚ} : 0 < truncate y ↔ 1 ≤ y := by
  rw [truncate]
  split
  · have whole : 0 < ⌊y⌋ ↔ (1 : ℤ) ≤ ⌊y⌋ := by omega
    rw [whole, Int.le_floor]
    norm_num
  · next negative =>
      have none : ⌈y⌉ ≤ 0 := by
        rw [Int.ceil_le]
        push_cast
        linarith
      constructor
      · intro some
        omega
      · intro one
        linarith

/-- The wait is not negative when less than one and a half milliseconds are over. -/
theorem safeAssign_nonneg_iff {y : ℚ} (fits : y ≤ INT_MAX) :
    0 ≤ safeAssign y ↔ -(3 / 2) < y := by
  rw [safeAssign]
  split
  · next small =>
      rw [INT_MIN] at small
      constructor
      · intro impossible
        omega
      · intro large
        linarith
  · rw [if_neg (not_lt.mpr fits), truncate_nonneg_iff]
    constructor
    · intro _
      linarith
    · intro _
      linarith

theorem safeAssign_pos_iff {y : ℚ} (fits : y ≤ INT_MAX) : 0 < safeAssign y ↔ 1 / 2 ≤ y := by
  rw [safeAssign]
  split
  · next small =>
      rw [INT_MIN] at small
      constructor
      · intro impossible
        omega
      · intro large
        linarith
  · rw [if_neg (not_lt.mpr fits), truncate_pos_iff]
    constructor
    · intro _
      linarith
    · intro _
      linarith

variable {timer : TimeoutTimer}

theorem calcSecondsUpTo_some {seconds : ℚ} (remaining : timer.calcSeconds = some seconds) :
    timer.calcSecondsUpTo LOOP_TIMEOUT = min seconds LOOP_TIMEOUT := by
  simp only [TimeoutTimer.calcSecondsUpTo, remaining]
  by_cases more : LOOP_TIMEOUT < seconds
  · rw [if_pos more, min_eq_right more.le]
  · rw [if_neg more, min_eq_left (not_lt.mp more)]

/-- The wait is negative exactly when the timer has been expired for one and a half milliseconds. -/
theorem asIntMs_nonneg_iff {seconds : ℚ} (remaining : timer.calcSeconds = some seconds) :
    0 ≤ timer.asIntMs LOOP_TIMEOUT ↔ -(3 / 2000) < seconds := by
  have limit : LOOP_TIMEOUT = 10 := rfl
  have most : min seconds 10 ≤ 10 := min_le_right _ _
  rw [TimeoutTimer.asIntMs, calcSecondsUpTo_some remaining, limit, safeAssign_nonneg_iff]
  · have scale : -(3 / 2) < min seconds 10 * 1000 ↔ -(3 / 2000) < min seconds 10 := by
      constructor <;> intro _ <;> linarith
    rw [scale, lt_min_iff]
    norm_num
  · rw [INT_MAX]
    linarith

/-- The wait is positive exactly when half a millisecond or more remains. -/
theorem asIntMs_pos_iff {seconds : ℚ} (remaining : timer.calcSeconds = some seconds) :
    0 < timer.asIntMs LOOP_TIMEOUT ↔ 1 / 2000 ≤ seconds := by
  have limit : LOOP_TIMEOUT = 10 := rfl
  have most : min seconds 10 ≤ 10 := min_le_right _ _
  rw [TimeoutTimer.asIntMs, calcSecondsUpTo_some remaining, limit, safeAssign_pos_iff]
  · have scale : 1 / 2 ≤ min seconds 10 * 1000 ↔ 1 / 2000 ≤ min seconds 10 := by
      constructor <;> intro _ <;> linarith
    rw [scale, le_min_iff]
    norm_num
  · rw [INT_MAX]
    linarith

/-- Without a deadline the wait is the limit. -/
theorem asIntMs_infinite (remaining : timer.calcSeconds = none) :
    0 ≤ timer.asIntMs LOOP_TIMEOUT := by
  have limit : timer.calcSecondsUpTo LOOP_TIMEOUT = 10 := by
    simp only [TimeoutTimer.calcSecondsUpTo, remaining]
    rfl
  rw [TimeoutTimer.asIntMs, limit, safeAssign_nonneg_iff]
  · norm_num
  · rw [INT_MAX]
    norm_num

end Rounding

section Timers

/-- No output resets the timeout. -/
def Timeout.Fixed : Timeout → Prop
  | .relativeWithReset _ => False
  | _ => True

variable {timer : TimeoutTimer}

theorem resetOnLoop_deadline (fixed : timer.m_timeout.Fixed) (now : ℚ) :
    (timer.resetOnLoop now).deadline = timer.deadline := by
  obtain ⟨timeout, start, loopTime⟩ := timer
  cases timeout with
  | absolute dt => rfl
  | relative seconds => rfl
  | relativeWithReset seconds => exact fixed.elim

theorem resetOnLoop_timeout (now : ℚ) : (timer.resetOnLoop now).m_timeout = timer.m_timeout := by
  obtain ⟨timeout, start, loopTime⟩ := timer
  cases timeout <;> rfl

/-- The remaining seconds are the ones from the last reading to the deadline. -/
theorem calcSeconds_eq (timer : TimeoutTimer) :
    timer.calcSeconds = timer.deadline.map fun deadline => deadline - timer.m_loopTime := by
  obtain ⟨timeout, start, loopTime⟩ := timer
  have sums (s : ℚ) : start - loopTime + s = start + s - loopTime := by ring
  cases timeout with
  | absolute dt => rfl
  | relative seconds =>
      cases seconds <;> simp [TimeoutTimer.calcSeconds, TimeoutTimer.deadline, sums]
  | relativeWithReset seconds =>
      cases seconds <;> simp [TimeoutTimer.calcSeconds, TimeoutTimer.deadline, sums]

/-- A timer whose deadline is past has expired. -/
theorem expired_of_past {deadline now : ℚ} (is : timer.deadline = some deadline)
    (past : deadline < now) : (timer.loop now).expired = true := by
  obtain ⟨timeout, start, loopTime⟩ := timer
  have interval {seconds : Option ℚ} (is : (seconds.map fun s => start + s) = some deadline) :
      TimeoutTimer.compareInterval start now seconds = true := by
    obtain ⟨s, rfl, rfl⟩ := Option.map_eq_some_iff.mp is
    exact decide_eq_true (by linarith)
  cases timeout with
  | absolute dt =>
      cases is
      exact decide_eq_true past.le
  | relative seconds => exact interval is
  | relativeWithReset seconds => exact interval is

end Timers

section Property

/-- The wait is limited, and it does not reach beyond the deadline. -/
def Wait.Within (wait : Wait) (deadline : Option ℚ) : Prop :=
  0 ≤ wait.ms ∧ ∀ limit, deadline = some limit → wait.ms = 0 ∨ wait.called + wait.ms / 1000 ≤ limit

/-- All waits are within the deadline, and each round that starts after it ends with the exception
for the timeout. -/
def KeepsDeadline (state : State) : Prop :=
  (∀ wait ∈ state.history.waits, wait.Within state.locals.timer.deadline) ∧
    ∀ ending ∈ state.history.lateEndings,
      ending = some (.execTimeoutException "Exec::gatherOutput: timedout")

/-- The time that passed without being seen by the timers: after the last reading of the one of
`selectRW`, and between the last reading of the other one and the start of this one. -/
def State.unseen (state : State) (timer : TimeoutTimer) : ℚ :=
  (state.clock - timer.m_loopTime) + (timer.m_start - state.locals.timer.m_loopTime)

/-- At a wait less than one and a half milliseconds are over, and the unseen time fits into what
the rounding and the limit of the wait leave of the remaining time, unless the wait has no length.
In a round that starts after the deadline nothing is available and no wait fails. -/
def Punctual (state : State) : Label → Prop
  | .go =>
      match state.point with
      | .selecting _ timer =>
          ∀ seconds, timer.calcSeconds = some seconds →
            -(3 / 2000) < seconds ∧ (seconds < 1 / 2000 ∨
              state.unseen timer + timer.asIntMs LOOP_TIMEOUT / 1000 ≤ seconds)
      | _ => True
  | .waited outcome => state.history.late = true → outcome = .nothing
  | _ => True

end Property

section Invariant

/-- The timer of `selectRW` runs to the deadline as the other timer sees it. -/
def Point.Timed (state : State) : Point → Prop
  | .starting _ => state.history.waits = [] ∧ state.history.lateEndings = []
  | .selecting _ timer =>
      timer.m_timeout = state.locals.timer.asRelativeTimeout ∧
        (state.history.late = true → state.pastDeadline = true)
  | .waiting _ timer =>
      timer.m_timeout = state.locals.timer.asRelativeTimeout ∧
        (state.history.late = true → state.pastDeadline = true)
  | _ => True

structure Timely (state : State) : Prop where
  fixed : state.locals.timer.m_timeout.Fixed
  keeps : KeepsDeadline state
  timed : state.point.Timed state

/-- A part of the code that reads no clock. -/
structure SameTimes (state after : State) : Prop where
  timer : after.locals.timer = state.locals.timer
  waits : after.history.waits = state.history.waits
  lateEndings : after.history.lateEndings = state.history.lateEndings

variable {state after : State}

theorem SameTimes.keeps (same : SameTimes state after) (keeps : KeepsDeadline state) :
    KeepsDeadline after := by
  rw [KeepsDeadline, same.timer, same.waits, same.lateEndings]
  exact keeps

theorem Timely.same (timely : Timely state) (same : SameTimes state after)
    (timed : after.point.Timed after) : Timely after where
  fixed := by
    rw [same.timer]
    exact timely.fixed
  keeps := same.keeps timely.keeps
  timed := timed

/-- What remains by the timer of `selectRW` is what remains until the deadline and the unseen
time. -/
theorem remaining_eq {timer : TimeoutTimer}
    (inner : timer.m_timeout = state.locals.timer.asRelativeTimeout) :
    timer.calcSeconds = state.locals.timer.deadline.map fun deadline =>
      deadline - state.clock + state.unseen timer := by
  obtain ⟨timeout, start, loopTime⟩ := timer
  simp only at inner
  subst inner
  show (state.locals.timer.calcSeconds.map fun s => start - loopTime + s) = _
  rw [calcSeconds_eq, Option.map_map]
  apply congrArg (Option.map · state.locals.timer.deadline)
  funext deadline
  simp only [Function.comp_apply, State.unseen]
  ring

/-- A wait is within the deadline exactly when the code comes to it in time. -/
theorem within_iff {timer : TimeoutTimer}
    (inner : timer.m_timeout = state.locals.timer.asRelativeTimeout) :
    Wait.Within ⟨state.clock, timer.asIntMs LOOP_TIMEOUT⟩ state.locals.timer.deadline ↔
      ∀ seconds, timer.calcSeconds = some seconds →
        -(3 / 2000) < seconds ∧ (seconds < 1 / 2000 ∨
          state.unseen timer + timer.asIntMs LOOP_TIMEOUT / 1000 ≤ seconds) := by
  have remaining := remaining_eq inner
  cases is : state.locals.timer.deadline with
  | none =>
      rw [is] at remaining
      constructor
      · intro _ seconds some
        rw [remaining] at some
        cases some
      · intro _
        exact ⟨asIntMs_infinite remaining, fun limit impossible => by cases impossible⟩
  | some deadline =>
      rw [is] at remaining
      have nonneg := asIntMs_nonneg_iff remaining
      have pos := asIntMs_pos_iff remaining
      have reach : state.clock + (timer.asIntMs LOOP_TIMEOUT : ℚ) / 1000 ≤ deadline ↔
          state.unseen timer + (timer.asIntMs LOOP_TIMEOUT : ℚ) / 1000 ≤
            deadline - state.clock + state.unseen timer := by
        constructor <;> intro _ <;> linarith
      have zero (limited : 0 ≤ timer.asIntMs LOOP_TIMEOUT) :
          timer.asIntMs LOOP_TIMEOUT = 0 ↔
            deadline - state.clock + state.unseen timer < 1 / 2000 := by
        rw [← not_le, ← pos]
        omega
      constructor
      · rintro ⟨limited, within⟩ seconds some
        rw [remaining] at some
        cases some
        refine ⟨nonneg.mp limited, ?_⟩
        rw [← zero limited, ← reach]
        exact within deadline rfl
      · intro punctual
        obtain ⟨recent, fits⟩ := punctual _ remaining
        have limited := nonneg.mpr recent
        refine ⟨limited, ?_⟩
        rintro _ ⟨⟩
        rw [← zero limited, ← reach] at fits
        exact fits

end Invariant

section Steps

variable {state : State}

theorem sameTimes_at (state : State) (point : Point) : SameTimes state (state.at point) :=
  ⟨rfl, rfl, rfl⟩

theorem SameTimes.trans {after last : State} (first : SameTimes state after)
    (second : SameTimes after last) : SameTimes state last where
  timer := second.timer.trans first.timer
  waits := second.waits.trans first.waits
  lateEndings := second.lateEndings.trans first.lateEndings

theorem sameTimes_getData (state : State) (i : Nat) (answer : GetData) :
    SameTimes state (state.getData i answer) := by
  rw [State.getData]
  split <;> exact ⟨rfl, rfl, rfl⟩

theorem sameTimes_endOfFile (state : State) (streamIndex : Nat) (pipe : Pipe) :
    SameTimes state (state.endOfFile streamIndex pipe) := by
  rw [State.endOfFile]
  dsimp only
  split <;> exact ⟨rfl, rfl, rfl⟩

/-- A callback that throws ends the function, and after one that does not the code goes on. -/
theorem Timely.called (timely : Timely state) {called after : State} (throws : Bool)
    (sameCalled : SameTimes state called) (same : SameTimes state after)
    (timed : after.point.Timed after) : Timely (called.called throws after) := by
  rw [State.called]
  split
  · exact timely.same (sameCalled.trans (sameTimes_at called _)) trivial
  · exact timely.same same timed

theorem Moves.timed {point next : Point} (moves : Moves point next) (state : State) :
    next.Timed state := by
  cases moves <;> trivial

/-- Time that passes leaves the deadline in the past. -/
theorem pastDeadline_later {now : ℚ} (later : state.clock ≤ now) (past : state.pastDeadline = true) :
    ({ state with clock := now } : State).pastDeadline = true := by
  rw [State.pastDeadline, Option.any_eq_true] at past ⊢
  obtain ⟨deadline, is, before⟩ := past
  rw [decide_eq_true_eq] at before
  exact ⟨deadline, is, decide_eq_true (before.trans_le later)⟩

theorem Timely.pass (timely : Timely state) {now : ℚ} (later : state.clock ≤ now) :
    Timely { state with clock := now } where
  fixed := timely.fixed
  keeps := timely.keeps
  timed := by
    have timed := timely.timed
    show state.point.Timed { state with clock := now }
    cases place : state.point with
    | selecting round timer =>
        rw [place] at timed
        exact ⟨timed.1, fun late => pastDeadline_later later (timed.2 late)⟩
    | waiting round timer =>
        rw [place] at timed
        exact ⟨timed.1, fun late => pastDeadline_later later (timed.2 late)⟩
    | starting i =>
        rw [place] at timed
        exact timed
    | loopHead => trivial
    | reading round i availableToFind => trivial
    | writing round i availableToFind => trivial
    | ended ending => trivial

theorem Timely.start (timely : Timely state) {i : Nat} (place : state.point = .starting i) :
    Timely { state with
      locals := { state.locals with timer := .started state.locals.timer.m_timeout state.clock }
      point := .loopHead } where
  fixed := timely.fixed
  keeps := by
    have timed := timely.timed
    rw [place] at timed
    obtain ⟨waits, lateEndings⟩ := timed
    constructor
    · show ∀ wait ∈ state.history.waits, _
      rw [waits]
      exact List.forall_mem_nil _
    · show ∀ ending ∈ state.history.lateEndings, _
      rw [lateEndings]
      exact List.forall_mem_nil _
  timed := trivial

theorem Timely.head (timely : Timely state) : Timely state.head := by
  rw [State.head]
  split
  · exact ⟨timely.fixed, timely.keeps, rfl, fun late => late⟩
  · exact timely.same (sameTimes_at state _) trivial

theorem keepsDeadline_wait (state : State) (ms : Int) (point : Point) :
    KeepsDeadline { state with
        history := { state.history with waits := ⟨state.clock, ms⟩ :: state.history.waits }
        point := point } ↔
      Wait.Within ⟨state.clock, ms⟩ state.locals.timer.deadline ∧ KeepsDeadline state := by
  simp only [KeepsDeadline, List.forall_mem_cons, and_assoc]

/-- A step to a wait keeps the deadline exactly when the code comes to it in time. -/
theorem Timely.wait (timely : Timely state) {round : Round} {timer : TimeoutTimer}
    (place : state.point = .selecting round timer) {next : State}
    (is : next = { state with
      history := { state.history with
        waits := ⟨state.clock, timer.asIntMs LOOP_TIMEOUT⟩ :: state.history.waits }
      point := .waiting round timer }) :
    (KeepsDeadline next ↔ Punctual state .go) ∧ (Punctual state .go → Timely next) := by
  have timed := timely.timed
  rw [place] at timed
  have punctual := within_iff timed.1
  have keeps : KeepsDeadline next ↔ Punctual state .go := by
    rw [is, keepsDeadline_wait, punctual, Punctual, place]
    exact and_iff_left timely.keeps
  refine ⟨keeps, fun met => ⟨?_, keeps.mpr met, ?_⟩⟩
  · rw [is]
    exact timely.fixed
  · rw [is]
    exact timed

/-- After `selectRW` a late round has to be at its end. -/
theorem keepsDeadline_selected (state after : State) :
    KeepsDeadline (state.selected after) ↔
      KeepsDeadline after ∧ (state.history.late = true →
        after.point = .ended (.execTimeoutException "Exec::gatherOutput: timedout")) := by
  rw [State.selected]
  split
  · next late =>
      simp only [KeepsDeadline, List.forall_mem_cons, late, true_implies]
      split
      · next ending place =>
          rw [place, Option.some.injEq, Point.ended.injEq]
          tauto
      · next going =>
          have never : after.point ≠
              .ended (.execTimeoutException "Exec::gatherOutput: timedout") := going _
          simp [never]
  · next early => simp [early]

theorem timely_selected {after : State} (fixed : after.locals.timer.m_timeout.Fixed)
    (keeps : KeepsDeadline (state.selected after)) (timed : ∀ other, after.point.Timed other) :
    Timely (state.selected after) := by
  have same : (state.selected after).locals = after.locals ∧
      (state.selected after).point = after.point := by
    rw [State.selected]
    split <;> exact ⟨rfl, rfl⟩
  refine ⟨?_, keeps, ?_⟩
  · rw [same.1]
    exact fixed
  · rw [same.2]
    exact timed _

/-- The branch for a timeout ends with the exception when the deadline is past. -/
theorem timedOut_point (past : state.pastDeadline = true) :
    state.timedOut.point = .ended (.execTimeoutException "Exec::gatherOutput: timedout") := by
  rw [State.pastDeadline, Option.any_eq_true] at past
  obtain ⟨deadline, is, before⟩ := past
  rw [decide_eq_true_eq] at before
  simp only [State.timedOut, expired_of_past is before, if_true]

theorem timedOut_timed (state other : State) : state.timedOut.point.Timed other := by
  simp only [State.timedOut]
  split <;> trivial

theorem keepsDeadline_timedOut (keeps : KeepsDeadline state) : KeepsDeadline state.timedOut := by
  show (∀ wait ∈ state.history.waits, wait.Within (state.locals.timer.loop state.clock).deadline) ∧ _
  exact keeps

/-- A wait that ends keeps the deadline exactly when a late round finds nothing. -/
theorem Timely.waited (timely : Timely state) {round : Round} {timer : TimeoutTimer}
    (place : state.point = .waiting round timer) (outcome : Outcome) :
    (KeepsDeadline (state.waited round timer outcome) ↔ Punctual state (.waited outcome)) ∧
      (Punctual state (.waited outcome) → Timely (state.waited round timer outcome)) := by
  have timed := timely.timed
  rw [place] at timed
  cases outcome with
  | failed =>
      let after := state.at (.ended (.execErrorException
        "Exec::gatherOutput: error selecting on stdout and stderr"))
      have keeps : KeepsDeadline (state.selected after) ↔ Punctual state (.waited .failed) := by
        rw [keepsDeadline_selected]
        show KeepsDeadline state ∧ _ ↔ _
        simp [Punctual, after, State.at, timely.keeps]
      refine ⟨keeps, fun met => ?_⟩
      exact timely_selected timely.fixed (keeps.mpr met) fun _ => trivial
  | nothing =>
      have met : Punctual state (.waited .nothing) := fun _ => rfl
      have fixed : state.timedOut.locals.timer.m_timeout.Fixed := timely.fixed
      have after : Timely (state.waited round timer .nothing) := by
        simp only [State.waited]
        split
        · apply timely_selected fixed
          · rw [keepsDeadline_selected]
            exact ⟨keepsDeadline_timedOut timely.keeps, fun late => timedOut_point (timed.2 late)⟩
          · exact timedOut_timed state
        · exact timely.same (sameTimes_at state _) timed
      exact ⟨iff_of_true after.keeps met, fun _ => after⟩
  | available count readAvailable writeAvailable =>
      let after : State := { state with
        locals := { state.locals with timer := state.locals.timer.resetOnLoop state.clock }
        point := .reading (round.answered readAvailable writeAvailable) 0 count }
      have same : KeepsDeadline after ↔ KeepsDeadline state := by
        simp only [KeepsDeadline, after, resetOnLoop_deadline timely.fixed]
      have keeps : KeepsDeadline (state.selected after) ↔
          Punctual state (.waited (.available count readAvailable writeAvailable)) := by
        rw [keepsDeadline_selected, same]
        simp [Punctual, after, timely.keeps]
      refine ⟨keeps, fun met => ?_⟩
      apply timely_selected _ (keeps.mpr met) fun _ => trivial
      show (state.locals.timer.resetOnLoop state.clock).m_timeout.Fixed
      rw [resetOnLoop_timeout]
      exact timely.fixed

theorem Moves.punctual {point : Point} (moves : Moves state.point point) : Punctual state .go := by
  rw [Punctual]
  split
  · next place =>
      rw [place] at moves
      cases moves
  · trivial

/-- A step keeps the deadline exactly when it is punctual. -/
theorem Timely.step (timely : Timely state) {next : State} {label : Label}
    (step : Step state label next) :
    (KeepsDeadline next ↔ Punctual state label) ∧ (Punctual state label → Timely next) := by
  have settled (met : Punctual state label) (after : Timely next) :
      (KeepsDeadline next ↔ Punctual state label) ∧ (Punctual state label → Timely next) :=
    ⟨iff_of_true after.keeps met, fun _ => after⟩
  cases step with
  | pass later => exact settled trivial (timely.pass later)
  | start place done =>
      apply settled _ (timely.start place)
      rw [Punctual, place]
      trivial
  | head place =>
      apply settled _ timely.head
      rw [Punctual, place]
      trivial
  | wait place => exact timely.wait place rfl
  | move moves => exact settled moves.punctual (timely.same (sameTimes_at state _) (moves.timed _))
  | @getData i answer place more =>
      have asked := sameTimes_getData state i answer
      apply settled trivial
      apply timely.called answer.throws asked
      · exact ⟨asked.timer, asked.waits, asked.lateEndings⟩
      · have timed := timely.timed
        rw [place] at timed
        exact ⟨asked.waits.trans timed.1, asked.lateEndings.trans timed.2⟩
  | waited outcome place => exact timely.waited place outcome
  | readFailed place => exact settled trivial (timely.same (sameTimes_at state _) trivial)
  | endOfFile answer place reads =>
      apply settled trivial
      exact timely.same ((sameTimes_endOfFile state _ _).trans (sameTimes_at _ _)) trivial
  | handleData answer place reads some fits =>
      apply settled trivial
      exact timely.called answer.throws ⟨rfl, rfl, rfl⟩ ⟨rfl, rfl, rfl⟩ trivial
  | brokenPipe answer place writes =>
      exact settled trivial (timely.same ⟨rfl, rfl, rfl⟩ trivial)
  | writeFailed answer place writes =>
      exact settled trivial (timely.same ⟨rfl, rfl, rfl⟩ trivial)
  | wroteNothing answer place writes =>
      exact settled trivial (timely.same ⟨rfl, rfl, rfl⟩ trivial)
  | @wrote round i streamIndex writerc _ answer place writes some offered =>
      have asked := sameTimes_getData (state.wrote streamIndex writerc) streamIndex answer
      have called : SameTimes state ((state.wrote streamIndex writerc).getData streamIndex answer) :=
        ⟨asked.timer, asked.waits, asked.lateEndings⟩
      apply settled trivial
      exact timely.called answer.throws called ⟨called.timer, called.waits, called.lateEndings⟩
        trivial

end Steps

section Theorem

theorem timely_atCall {clock : ℚ} {timeout : Timeout} (fixed : timeout.Fixed)
    (procs : Nat → Process) (size : Nat) : Timely (atCall clock timeout procs size) where
  fixed := fixed
  keeps := ⟨List.forall_mem_nil _, List.forall_mem_nil _⟩
  timed := ⟨rfl, rfl⟩

/-- One process with three open pipes, and a second until the deadline. -/
def oneSecond : State := atCall 0 (.relative (some 1)) (fun _ => ⟨true, true, true⟩) 1

/-- The output callback takes this long for the first byte. -/
def slowCallback (seconds : ℚ) : List Label :=
  [.getData ⟨[], false, false⟩, .go, .go, .go,
    .waited (.available 1 (fun pipe => pipe.stream == .out) fun _ => false), .read [97] ⟨[], false⟩,
    .pass seconds, .go, .go, .go, .go]

end Theorem

end Blocxx.Exec
