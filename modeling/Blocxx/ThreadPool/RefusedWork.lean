import Blocxx.Library.Observation
import Blocxx.Library.Replay
import Blocxx.ThreadPool.ImplMoves

/-!
This file proves when work that a pool has refused never runs. The pool is observed: each call knows
whether one of its sections has changed the queue.
-/

namespace Blocxx.ThreadPool
open Library Library.Monitor ThreadPoolImpl

variable {Client Work : Type}

abbrev ObservedState (Client Work : Type) :=
  State (Client ⊕ Nat) (ThreadPoolImpl Work) (ImplCall Work) (ImplResult Work × Bool)
    (ImplPoint Work × Bool) Condition

/-- The pool with the marks of the calls that change its queue. -/
def observedSystem [DecidableEq Client] [DecidableEq Work] (implementation : Implementation)
    (cancels : Work → Bool) (numThreads maxQueueSize : UInt32) :
    TransitionSystem (ObservedState Client Work) (Label (Client ⊕ Nat) (ImplCall Work)) :=
  (((program implementation cancels).observed fun pool => pool.queue).throwingSystem
    cancelled.observed (.new implementation numThreads maxQueueSize)).restrict MayRun

/-- `addWork` has returned false or thrown. -/
def Refused (result : ImplResult Work) : Prop :=
  result = .common (.answer false) ∨ result = .thrown

/-- A call of `addWork` that was refused has not changed the queue, and its work is neither in the
queue nor handed out unless another call has passed the same work, which was accepted or has
entered the queue. -/
structure LeavesNoTrace (state : ObservedState Client Work) : Prop where
  untouched : ∀ done ∈ state.finished, ∀ work infinite start,
    done.call = .addWork work infinite start → Refused done.result.1 → done.result.2 = false
  neverTaken : ∀ done ∈ state.finished, ∀ work infinite start,
    done.call = .addWork (some work) infinite start → Refused done.result.1 →
      (∀ other ∈ state.finished, ∀ infinite start,
        other.call = .addWork (some work) infinite start → Refused other.result.1) →
      (∀ thread infinite start here,
        state.position thread = some (.addWork (some work) infinite start, here) →
          ¬ here.1.BehindPush) →
      work ∉ state.shared.queue ∧ work ∉ state.shared.handedOut

/-- An `addWork` has put its work into the queue and fails to start the thread that it creates. -/
def StartFails (state : ObservedState Client Work)
    (label : Label (Client ⊕ Nat) (ImplCall Work)) : Prop :=
  ∃ thread call marked, label = .resume thread ∧
    state.position thread = some (call, .addTest, marked) ∧ startOf call ≠ .started ∧
      state.shared.MayGrow

/-- A call of `addWork` is marked from the time that its work is in the queue. -/
def Tells (call : ImplCall Work) (point : ImplPoint Work) (marked : Bool) : Prop :=
  ∀ work infinite start, call = .addWork work infinite start → (marked = true ↔ point.BehindPush)

namespace ThreadPoolImpl

variable {implementation : Implementation} {cancels : Work → Bool}
  {pool : ThreadPoolImpl Work} {call : ImplCall Work} {point : Option (ImplPoint Work × Bool)}
  {answer : Bool} {ran : ImplSection Work}

/-- A call that has not entered the queue is not marked. -/
theorem unmarked_of_beforePush {work : Option Work} {infinite : Bool} {start : Start}
    (tells : ∀ here ∈ point, Tells (.addWork work infinite start) here.1 here.2)
    (stands : ∀ here ∈ point.map Prod.fst, here.BeforePush) : point.any Prod.snd = false := by
  cases point with
  | none => rfl
  | some here =>
      have before := stands here.1 rfl
      have told := tells here rfl work infinite start rfl
      obtain ⟨here, marked⟩ := here
      cases here with
      | addLoop => simpa [ImplPoint.BehindPush] using told
      | _ => exact before.elim

/-- A call that has entered the queue is marked. -/
theorem marked_of_behindPush {work : Option Work} {infinite : Bool} {start : Start}
    {here : ImplPoint Work}
    (tells : ∀ here ∈ point, Tells (.addWork work infinite start) here.1 here.2)
    (stands : point.map Prod.fst = some here) (behind : here.BehindPush) :
    point.any Prod.snd = true := by
  obtain ⟨place, isPoint, rfl⟩ := Option.map_eq_some_iff.mp stands
  rw [isPoint]
  exact (tells place isPoint work infinite start rfl).mpr behind

variable [DecidableEq Work]

/-- The mark that a section leaves on its call. -/
abbrev mark (pool : ThreadPoolImpl Work) (point : Option (ImplPoint Work × Bool))
    (ran : ImplSection Work) : Bool := markAfter (fun pool => pool.queue) pool point ran

theorem mark_of_queue (same : ran.shared.queue = pool.queue) :
    mark pool point ran = point.any Prod.snd := by
  simp [mark, markAfter, same]

theorem mark_of_marked (marked : point.any Prod.snd = true) : mark pool point ran = true := by
  simp [mark, markAfter, marked]

theorem mark_of_push {work : Work} (pushed : ran.shared.queue = pool.queue ++ [work]) :
    mark pool point ran = true := by
  simp [mark, markAfter, pushed]

/-- Each section keeps the marks of `addWork` right. -/
theorem Move.tells (tells : ∀ here ∈ point, Tells call here.1 here.2)
    (move : Move implementation cancels pool call (point.map Prod.fst) answer ran)
    {here : ImplPoint Work} (goes : ran.next.position call = some (call, here)) :
    Tells call here (mark pool point ran) := by
  rintro work infinite start rfl
  generalize isPlace : point.map Prod.fst = place at move
  cases move with
  | refuse | create | fail | rely | commonThrown => cases goes
  | waitFull stands isCleaned =>
      cases goes
      subst isPlace
      rw [mark_of_queue isCleaned.queue, unmarked_of_beforePush tells stands]
      simp [ImplPoint.BehindPush]
  | @push work _ _ _ _ cleaned notices next stands isCleaned room opened goesOn =>
      have marked : mark pool point
          (⟨{ cleaned with queue := pool.queue ++ [work] }, notices, next⟩ : ImplSection Work) =
            true := mark_of_push rfl
      rw [marked]
      rcases goesOn with rfl | ⟨_, rfl⟩
      · cases goes
      · cases goes
        exact ⟨fun _ => trivial, fun _ => rfl⟩
  | notify =>
      cases goes
      rw [mark_of_marked (marked_of_behindPush tells isPlace trivial)]
      exact ⟨fun _ => trivial, fun _ => rfl⟩
  | common isCommon => cases isCommon

/-- Whatever is in the queue or was handed out has been there before, or the section has put it
into the queue. -/
theorem Move.entered (move : Move implementation cancels pool call (point.map Prod.fst) answer ran)
    {work : Work} (inside : work ∈ ran.shared.queue ∨ work ∈ ran.shared.handedOut) :
    (work ∈ pool.queue ∨ work ∈ pool.handedOut) ∨
      (∃ infinite start, call = .addWork (some work) infinite start) ∧
        mark pool point ran = true := by
  generalize point.map Prod.fst = place at move
  cases move with
  | refuse stands isCleaned =>
      rw [isCleaned.queue, isCleaned.handedOut] at inside
      exact .inl inside
  | waitFull stands isCleaned =>
      rw [isCleaned.queue, isCleaned.handedOut] at inside
      exact .inl inside
  | @push pushed infinite _ start _ cleaned _ _ stands isCleaned =>
      dsimp only at inside
      rw [isCleaned.handedOut, List.mem_append, List.mem_singleton] at inside
      rcases inside with (old | rfl) | out
      · exact .inl (.inl old)
      · exact .inr ⟨⟨infinite, start, rfl⟩, mark_of_push rfl⟩
      · exact .inl (.inr out)
  | @take worker _ _ taken rest notices stands found =>
      have inside : work ∈ rest ∨ work ∈ pool.handedOut ++ [taken] := by
        cases implementation <;> exact inside
      rw [List.mem_append, List.mem_singleton] at inside
      rw [found]
      rcases inside with queued | out | rfl
      · exact .inl (.inl (List.mem_cons_of_mem _ queued))
      · exact .inl (.inr out)
      · exact .inl (.inl List.mem_cons_self)
  | worked =>
      refine .inl ?_
      cases implementation <;> exact inside
  | @common _ _ _ _ inside_ isCommon move =>
      have same : work ∈ inside_.shared.queue ∨ work ∈ pool.handedOut := inside
      rw [move.queue] at same
      exact .inl same
  | notify | create | fail | rely | sleep | giveUp | cancel | end_ | commonThrown =>
      exact .inl inside

/-- A section that refuses its work has not put it into the queue, or it fails to start a thread. -/
theorem Move.refused {work : Option Work} {infinite : Bool} {start : Start}
    {result : ImplResult Work}
    (move : Move implementation cancels pool (.addWork work infinite start) (point.map Prod.fst)
      answer ran)
    (tells : ∀ here ∈ point, Tells (.addWork work infinite start) here.1 here.2)
    (ends : ran.next = .finish result) (refused : Refused result) :
    mark pool point ran = false ∨
      point.map Prod.fst = some .addTest ∧ start ≠ .started ∧ pool.MayGrow := by
  generalize isPlace : point.map Prod.fst = place at move
  cases move with
  | refuse stands isCleaned =>
      subst isPlace
      rw [mark_of_queue isCleaned.queue]
      exact .inl (unmarked_of_beforePush tells stands)
  | push stands isCleaned room opened goes =>
      rcases goes with rfl | ⟨_, rfl⟩
      · cases ends
        rcases refused with wrong | wrong <;> cases wrong
      · cases ends
  | create dynamic mayGrow goes =>
      rcases goes with ⟨_, rfl⟩ | ⟨rfl, rfl⟩
      · cases ends
        rcases refused with wrong | wrong <;> cases wrong
      · exact .inr ⟨rfl, by decide, mayGrow⟩
  | fail dynamic mayGrow => exact .inr ⟨rfl, by decide, mayGrow⟩
  | rely =>
      cases ends
      rcases refused with wrong | wrong <;> cases wrong
  | waitFull | notify => cases ends
  | common isCommon | commonThrown isCommon => cases isCommon

omit [DecidableEq Work] in
/-- A thread that does not start makes `addWork` throw. -/
theorem Move.throws (move : Move implementation cancels pool call (some .addTest) answer ran)
    (fails : startOf call ≠ .started) (mayGrow : pool.MayGrow) :
    (∃ work infinite start, call = .addWork work infinite start) ∧
      ran.next = .finish .thrown := by
  generalize isPlace : some ImplPoint.addTest = place at move
  cases move with
  | create dynamic mayGrow goes =>
      refine ⟨⟨_, _, _, rfl⟩, ?_⟩
      rcases goes with ⟨rfl, _⟩ | ⟨_, rfl⟩
      · exact absurd rfl fails
      · rfl
  | fail => exact ⟨⟨_, _, _, rfl⟩, rfl⟩
  | rely dynamic enough => exact absurd mayGrow enough
  | refuse stands => exact (stands _ isPlace.symm).elim
  | waitFull stands => exact (stands _ isPlace.symm).elim
  | push stands => exact (stands _ isPlace.symm).elim
  | sleep stands => exact (stands _ isPlace.symm).elim
  | take stands => exact (stands _ isPlace.symm).elim
  | giveUp stands => exact (stands _ isPlace.symm).elim
  | notify | cancel | worked | end_ => cases isPlace
  | @common _ _ point => cases point <;> cases isPlace
  | commonThrown isCommon stands =>
      obtain ⟨inner, wrong⟩ := stands _ isPlace.symm
      cases wrong

end ThreadPoolImpl

/-- Some call of `addWork` with this work has changed the queue. -/
def HasEntered (state : ObservedState Client Work) (work : Work) : Prop :=
  (∃ done ∈ state.finished, ∃ infinite start,
    done.call = .addWork (some work) infinite start ∧ done.result.2 = true) ∨
  ∃ thread infinite start here,
    state.position thread = some (.addWork (some work) infinite start, here) ∧ here.2 = true

/-- This is the invariant of the observed pool while every thread starts. -/
structure Traced (implementation : Implementation) (state : ObservedState Client Work) : Prop where
  fits : ∀ thread, (state.phase thread).Fits
    (fun call point condition timed =>
      ImplWaits implementation call point.1 condition timed ∧ Tells call point.1 point.2)
    (fun call point => ImplLeaves implementation call point.1 ∧ Tells call point.1 point.2)
  origin : ∀ work, work ∈ state.shared.queue ∨ work ∈ state.shared.handedOut →
    HasEntered state work
  untouched : ∀ done ∈ state.finished, ∀ work infinite start,
    done.call = .addWork work infinite start → Refused done.result.1 → done.result.2 = false

variable {implementation : Implementation} {state next : ObservedState Client Work}

/-- The points of a call tell whether it is marked. -/
theorem Traced.tells (traced : Traced implementation state) {thread : Client ⊕ Nat}
    {call : ImplCall Work} {here : ImplPoint Work × Bool}
    (stands : state.position thread = some (call, here)) : Tells call here.1 here.2 := by
  rcases (traced.fits thread).of_position stands with leaves | ⟨_, _, waits⟩
  · exact leaves.2
  · exact waits.2

theorem Traced.leavesNoTrace (traced : Traced implementation state) : LeavesNoTrace state where
  untouched := traced.untouched
  neverTaken done member work infinite start isCall refused others inside := by
    have never : ¬ HasEntered state work := by
      rintro (⟨other, found, forever, starts, passes, marked⟩ |
        ⟨thread, forever, starts, here, stands, marked⟩)
      · rw [traced.untouched other found _ _ _ passes (others other found _ _ passes)] at marked
        cases marked
      · exact inside thread forever starts here stands
          ((traced.tells stands _ _ _ rfl).mp marked)
    exact ⟨fun queued => never (traced.origin work (.inl queued)),
      fun out => never (traced.origin work (.inr out))⟩

variable [DecidableEq Client] [DecidableEq Work] {cancels : Work → Bool}
  {numThreads maxQueueSize : UInt32} {label : Label (Client ⊕ Nat) (ImplCall Work)}

theorem observed_lists : Lists ((program implementation cancels).observed fun pool => pool.queue)
    cancelled.observed
    (fun call point condition timed =>
      ImplWaits implementation call point.1 condition timed ∧ Tells call point.1 point.2)
    (fun call point => ImplLeaves implementation call point.1 ∧ Tells call point.1 point.2)
    (Observed (fun pool => pool.queue) Tells (Move implementation cancels)) :=
  lists.observed _ fun _ _ _ _ _ tells move _ goes => move.tells tells goes

/-- A step of the observed pool makes a marked move or changes nothing but a wait set. -/
theorem Traced.of_step (traced : Traced implementation state)
    (step : (observedSystem implementation cancels numThreads maxQueueSize).step state label next) :
    (∃ thread call point answer ran, Begins state label thread call point answer ∧
        (∀ here ∈ point, Tells call here.1 here.2) ∧
        Move implementation cancels state.shared call (point.map Prod.fst) answer ran ∧
        next.shared = ran.shared ∧
        next.position = Function.update state.position thread
          ((ran.next.mark (mark state.shared point ran)).position call) ∧
        next.finished = state.finished ++
          (ran.next.mark (mark state.shared point ran)).finished thread call) ∨
      state.callOf label = none ∧ next.shared = state.shared ∧ next.position = state.position ∧
        next.finished = state.finished := by
  rcases observed_lists.of_step traced.fits step.1 with
    ⟨thread, call, point, answer, _, begins, ⟨tells, ran, move, rfl⟩, changed⟩ | same
  · exact .inl ⟨thread, call, point, answer, ran, begins, tells, move, changed⟩
  · exact .inr same

/-- A step keeps the origin of all work. -/
theorem Traced.origin_step (traced : Traced implementation state)
    (step : (observedSystem implementation cancels numThreads maxQueueSize).step state label next)
    {work : Work} (inside : work ∈ next.shared.queue ∨ work ∈ next.shared.handedOut) :
    HasEntered next work := by
  rcases traced.of_step step with
    ⟨thread, call, point, answer, ran, begins, tells, move, shared, position, finished⟩ |
    ⟨_, shared, position, finished⟩
  · have entering (isWork : ∃ infinite start, call = .addWork (some work) infinite start)
        (marked : mark state.shared point ran = true) : HasEntered next work := by
      obtain ⟨infinite, start, rfl⟩ := isWork
      rw [marked] at position finished
      have own : next.position thread = (ran.next.mark true).position (.addWork (some work)
          infinite start) := by rw [position, Function.update_self]
      cases goes : ran.next with
      | finish result =>
          refine .inl ⟨⟨thread, .addWork (some work) infinite start, result, true⟩, ?_, infinite,
            start, rfl, rfl⟩
          rw [finished, goes]
          exact List.mem_append_right _ List.mem_cons_self
      | wait condition timed here =>
          rw [goes] at own
          exact .inr ⟨thread, infinite, start, (here, true), own, rfl⟩
      | leave here =>
          rw [goes] at own
          exact .inr ⟨thread, infinite, start, (here, true), own, rfl⟩
    rw [shared] at inside
    rcases move.entered inside with old | ⟨isWork, marked⟩
    · rcases traced.origin work old with ⟨done, member, ended⟩ |
        ⟨other, infinite, start, here, stands, marked⟩
      · refine .inl ⟨done, ?_, ended⟩
        rw [finished]
        exact List.mem_append_left _ member
      · by_cases same : other = thread
        · subst same
          rw [begins.stands] at stands
          obtain ⟨place, isPoint, isPlace⟩ := Option.map_eq_some_iff.mp stands
          obtain ⟨rfl, rfl⟩ := Prod.mk.inj isPlace
          apply entering ⟨infinite, start, rfl⟩
          apply mark_of_marked
          rw [isPoint]
          exact marked
        · refine .inr ⟨other, infinite, start, here, ?_, marked⟩
          rw [position, Function.update_of_ne same]
          exact stands
    · exact entering isWork marked
  · rw [shared] at inside
    rw [HasEntered, position, finished]
    exact traced.origin work inside

/-- A step leaves no trace of refused work exactly when it does not fail to start a thread. -/
theorem Traced.untouched_iff (traced : Traced implementation state)
    (step : (observedSystem implementation cancels numThreads maxQueueSize).step state label next) :
    (∀ done ∈ next.finished, ∀ work infinite start, done.call = .addWork work infinite start →
      Refused done.result.1 → done.result.2 = false) ↔ ¬ StartFails state label := by
  rcases traced.of_step step with
    ⟨thread, call, point, answer, ran, begins, tells, move, shared, position, finished⟩ |
    ⟨silent, shared, position, finished⟩
  · constructor
    · rintro untouched ⟨other, inner, marked, resumes, stands, fails, mayGrow⟩
      obtain ⟨rfl, rfl⟩ := begins.of_resume resumes stands
      obtain ⟨⟨work, infinite, start, rfl⟩, goes⟩ := move.throws fails mayGrow
      have behind : marked = true := (tells _ rfl work infinite start rfl).mpr trivial
      have touched : mark state.shared (some (.addTest, marked)) ran = true :=
        mark_of_marked behind
      rw [touched, goes] at finished
      have member : ⟨thread, .addWork work infinite start, .thrown, true⟩ ∈ next.finished := by
        rw [finished]
        exact List.mem_append_right _ List.mem_cons_self
      exact Bool.noConfusion (untouched _ member work infinite start rfl (.inr rfl))
    · intro starts done member work infinite start isCall refused
      rw [finished, List.mem_append] at member
      rcases member with old | new
      · exact traced.untouched done old work infinite start isCall refused
      · cases goes : ran.next with
        | finish result =>
            rw [goes] at new
            obtain rfl := List.mem_singleton.mp new
            obtain rfl : call = .addWork work infinite start := isCall
            rcases move.refused tells goes refused with unmarked | ⟨isPlace, fails, mayGrow⟩
            · exact unmarked
            · obtain ⟨⟨_, marked⟩, rfl, rfl⟩ := Option.map_eq_some_iff.mp isPlace
              exact absurd ⟨thread, _, marked, begins.resumed nofun, begins.stands, fails, mayGrow⟩
                starts
        | wait => simp [goes, Next.mark, Next.finished] at new
        | leave => simp [goes, Next.mark, Next.finished] at new
  · rw [finished]
    refine ⟨?_, fun _ => traced.untouched⟩
    rintro _ ⟨other, inner, marked, rfl, stands, _⟩
    rw [State.callOf, stands] at silent
    cases silent

theorem Traced.step (traced : Traced implementation state)
    (step : (observedSystem implementation cancels numThreads maxQueueSize).step state label next)
    (starts : ¬ StartFails state label) : Traced implementation next where
  fits := observed_lists.step_fits traced.fits step.1
  origin _ := traced.origin_step step
  untouched := (traced.untouched_iff step).mpr starts

theorem Traced.noTrace_iff (traced : Traced implementation state)
    (step : (observedSystem implementation cancels numThreads maxQueueSize).step state label next) :
    LeavesNoTrace next ↔ ¬ StartFails state label :=
  ⟨fun noTrace => (traced.untouched_iff step).mp noTrace.untouched,
    fun starts => (traced.step step starts).leavesNoTrace⟩

omit [DecidableEq Client] [DecidableEq Work] in
/-- The fixed pool starts no thread in `addWork`. -/
theorem Traced.not_startFails (traced : Traced .fixedSize state) : ¬ StartFails state label := by
  rintro ⟨thread, call, marked, _, stands, _⟩
  rcases (traced.fits thread).of_position stands with ⟨leaves, _⟩ | ⟨_, _, waits, _⟩
  · cases leaves with
    | add work infinite start behind dynamic => exact dynamic rfl
  · cases waits

omit [DecidableEq Client] [DecidableEq Work] in
theorem traced_new {numThreads maxQueueSize : UInt32} : Traced implementation
    (⟨.new implementation numThreads maxQueueSize, fun _ => .idle, []⟩ :
      ObservedState Client Work) where
  fits _ := trivial
  origin work inside := by rcases inside with wrong | wrong <;> cases wrong
  untouched := nofun

/-- In a run of any pool a refused call of `addWork` leaves no trace in every state exactly when
every thread that `addWork` creates starts. In the fixed pool it never leaves a trace. -/
theorem refused_work_iff {start : ObservedState Client Work}
    {steps : List (TransitionSystem.Transition (ObservedState Client Work)
      (Label (Client ⊕ Nat) (ImplCall Work)))}
    (initial : (observedSystem implementation cancels numThreads maxQueueSize).initial start)
    (run : (observedSystem implementation cancels numThreads maxQueueSize).Run start steps) :
    ((∀ step ∈ steps, LeavesNoTrace step.target) ↔
      ∀ step ∈ steps, ¬ StartFails step.source step.label) ∧
    (implementation = .fixedSize → ∀ step ∈ steps, LeavesNoTrace step.target) := by
  obtain rfl := initial
  have keep (state : ObservedState Client Work) (label : Label (Client ⊕ Nat) (ImplCall Work))
      (next : ObservedState Client Work) (traced : Traced implementation state)
      (step : (observedSystem implementation cancels numThreads maxQueueSize).step state label
        next) (starts : ¬ StartFails state label) : Traced implementation next :=
    traced.step step starts
  have exactly (state : ObservedState Client Work) (label : Label (Client ⊕ Nat) (ImplCall Work))
      (next : ObservedState Client Work) (traced : Traced implementation state)
      (step : (observedSystem implementation cancels numThreads maxQueueSize).step state label
        next) : LeavesNoTrace next ↔ ¬ StartFails state label := traced.noTrace_iff step
  refine ⟨run.forall_iff keep exactly traced_new, ?_⟩
  rintro rfl
  have fixed (state : ObservedState Client Work) (label : Label (Client ⊕ Nat) (ImplCall Work))
      (next : ObservedState Client Work) (traced : Traced .fixedSize state)
      (step : (observedSystem .fixedSize cancels numThreads maxQueueSize).step state label next)
      (_ : True) : Traced .fixedSize next := traced.step step traced.not_startFails
  intro step member
  exact (run.invariant fixed traced_new (fun _ _ => trivial) step member).leavesNoTrace

/-- A client adds work to a dynamic pool for one thread, which starts in the given way. -/
def addOne (start : Start) : List (Label (Unit ⊕ Nat) (ImplCall Nat)) :=
  [.enter (.inl ()) (.addWork (some 5) true start), .resume (.inl ()), .resume (.inl ())]

def replayAdd (start : Start) : List (TransitionSystem.Transition (ObservedState Unit Nat)
    (Label (Unit ⊕ Nat) (ImplCall Nat))) :=
  ((program .dynamicSize fun _ => false).observed fun pool => pool.queue).replay [.inl ()]
    ⟨.new .dynamicSize 1 0, fun _ => .idle, []⟩ (addOne start)

theorem replayAdd_run {start : Start}
    (mayRun : ∀ step ∈ replayAdd start, MayRun step.source step.label) :
    (observedSystem .dynamicSize (fun _ => false) 1 0).Run
      ⟨.new .dynamicSize 1 0, fun _ => .idle, []⟩ (replayAdd start) :=
  (Program.throwing_run (Program.replay_run (fun _ _ => rfl) (addOne start))).restrict mayRun

theorem refused_work_started :
    (∀ step ∈ replayAdd .started, ¬ StartFails step.source step.label) ∧
      ∀ step ∈ replayAdd .started, LeavesNoTrace step.target := by
  have starts : ∀ step ∈ replayAdd .started, ¬ StartFails step.source step.label := by
    have started : ∀ step ∈ replayAdd .started, (step.source.position (.inl ())).all
        (fun place => startOf place.1 = .started) = true := by decide
    rintro step member ⟨thread, call, marked, resumes, stands, fails, _⟩
    have label := Program.replay_label (addOne .started) step member
    rw [resumes] at label
    obtain rfl : thread = .inl () := by simpa [addOne] using label
    have starts := started step member
    rw [stands] at starts
    exact fails (of_decide_eq_true starts)
  exact ⟨starts, (refused_work_iff rfl (replayAdd_run (by decide))).1.mpr starts⟩

/-- The work stays in the queue when its `addWork` throws. -/
theorem failedStart_leaves_trace :
    ¬ ∀ steps, (observedSystem .dynamicSize (fun _ => false) 1 0).Run
        (⟨.new .dynamicSize 1 0, fun _ => .idle, []⟩ : ObservedState Unit Nat) steps →
      ∀ step ∈ steps, LeavesNoTrace step.target := by
  intro always
  have noTrace := always (replayAdd .threadException) (replayAdd_run (by decide)) _
    (List.getLast_mem (by decide))
  exact Bool.noConfusion (noTrace.untouched _ List.mem_cons_self _ _ _ rfl (.inr rfl))

end Blocxx.ThreadPool
