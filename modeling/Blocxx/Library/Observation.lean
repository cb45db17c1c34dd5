import Blocxx.Library.Interruption

/-!
This file marks the calls of a monitor that change a view of the shared state.
-/

namespace Blocxx.Library.Monitor

variable {Thread Shared Call Result Point Condition View : Type}

/-- The mark goes along with the call and its result. -/
def Next.mark (marked : Bool) :
    Next Result Point Condition → Next (Result × Bool) (Point × Bool) Condition
  | .finish result => .finish (result, marked)
  | .wait condition timed point => .wait condition timed (point, marked)
  | .leave point => .leave (point, marked)

def Section.mark (marked : Bool) (ran : Section Shared Result Point Condition) :
    Section Shared (Result × Bool) (Point × Bool) Condition :=
  ⟨ran.shared, ran.notices, ran.next.mark marked⟩

/-- A call is marked once one of its sections has changed the view. -/
def Program.observed [DecidableEq View] (program : Program Shared Call Result Point Condition)
    (view : Shared → View) : Program Shared Call (Result × Bool) (Point × Bool) Condition where
  enter call shared :=
    (program.enter call shared).mark (decide (view (program.enter call shared).shared ≠
      view shared))
  resume call point answer shared :=
    (program.resume call point.1 answer shared).mark (point.2 ||
      decide (view (program.resume call point.1 answer shared).shared ≠ view shared))

/-- An exception changes nothing. -/
def Raise.observed (raise : Raise Call Result Point Condition) :
    Raise Call (Result × Bool) (Point × Bool) Condition :=
  fun call point => (raise call point.1).mark point.2

theorem Next.mark_eq_wait {marked : Bool} {next : Next Result Point Condition}
    {condition : Condition} {timed : Bool} {here : Point × Bool}
    (waits : next.mark marked = .wait condition timed here) :
    next = .wait condition timed here.1 ∧ here.2 = marked := by
  cases next with
  | wait found short point =>
      cases waits
      exact ⟨rfl, rfl⟩
  | finish | leave => cases waits

section Listed

variable [DecidableEq View] {program : Program Shared Call Result Point Condition}
  {raise : Raise Call Result Point Condition} {waits : Call → Point → Condition → Bool → Prop}
  {leaves : Call → Point → Prop}
  {move : Shared → Call → Option Point → Bool → Section Shared Result Point Condition → Prop}

/-- The mark that a section leaves on a call with the given point and mark. -/
def markAfter (view : Shared → View) (shared : Shared) (point : Option (Point × Bool))
    (ran : Section Shared Result Point Condition) : Bool :=
  point.any Prod.snd || decide (view ran.shared ≠ view shared)

/-- The moves of the observed program, when each point tells whether its call is marked. -/
def Observed (view : Shared → View) (tells : Call → Point → Bool → Prop)
    (move : Shared → Call → Option Point → Bool → Section Shared Result Point Condition → Prop)
    (shared : Shared) (call : Call) (point : Option (Point × Bool)) (answer : Bool)
    (marked : Section Shared (Result × Bool) (Point × Bool) Condition) : Prop :=
  (∀ here ∈ point, tells call here.1 here.2) ∧
    ∃ ran, move shared call (point.map Prod.fst) answer ran ∧
      marked = ran.mark (markAfter view shared point ran)

/-- A program whose points tell the mark lists the moves of the observed program. -/
theorem Lists.observed (lists : Lists program raise waits leaves move) (view : Shared → View)
    {tells : Call → Point → Bool → Prop}
    (told : ∀ shared call point answer ran, (∀ here ∈ point, tells call here.1 here.2) →
      move shared call (point.map Prod.fst) answer ran → ∀ here,
        ran.next.position call = some (call, here) →
          tells call here (markAfter view shared point ran)) :
    Lists (program.observed view) raise.observed
      (fun call point condition timed =>
        waits call point.1 condition timed ∧ tells call point.1 point.2)
      (fun call point => leaves call point.1 ∧ tells call point.1 point.2)
      (Observed view tells move) where
  enter call shared := by
    refine ⟨nofun, _, lists.enter call shared, ?_⟩
    rfl
  resume call point answer shared continues := by
    refine ⟨?_, _, lists.resume call point.1 answer shared ?_, rfl⟩
    · rintro here ⟨⟩
      rcases continues with ⟨leaves, _⟩ | ⟨_, _, waits, _⟩
      · exact leaves.2
      · exact waits.2
    · rcases continues with ⟨leaves, answered⟩ | ⟨condition, timed, waits, expired⟩
      · exact .inl ⟨leaves.1, answered⟩
      · exact .inr ⟨condition, timed, waits.1, expired⟩
  entering shared call point answer marked condition timed here moves sleeps := by
    obtain ⟨told, ran, moves, rfl⟩ := moves
    obtain ⟨sleeps, isMark⟩ := Next.mark_eq_wait sleeps
    refine ⟨told, _, lists.entering _ _ _ _ _ _ _ _ moves sleeps, ?_⟩
    rw [Raise.observed, isMark]
    rfl
  leaving shared call point condition timed waits := by
    refine ⟨?_, _, lists.leaving shared call point.1 condition timed waits.1, ?_⟩
    · rintro here ⟨⟩
      exact waits.2
    · simp [markAfter, Section.mark, Raise.observed]
  fits shared call point answer marked moves := by
    obtain ⟨tells, ran, moves, rfl⟩ := moves
    have stands := lists.fits _ _ _ _ _ moves
    have told := told _ _ _ _ _ tells moves
    revert stands told
    generalize markAfter view shared point ran = mark
    intro stands told
    unfold Section.mark
    cases goes : ran.next with
    | finish result => exact trivial
    | wait condition timed here =>
        rw [goes] at stands told
        exact ⟨stands, told here rfl⟩
    | leave here =>
        rw [goes] at stands told
        exact ⟨stands, told here rfl⟩

end Listed

end Blocxx.Library.Monitor
