import Blocxx.MTQueue.MTQueue

/-!
This file proves that the queue loses no wakeup while each notice reaches the side that it is for,
and that a notice to the other side can be lost.
-/

namespace Blocxx.Queue
open Library Library.Monitor MTQueue

variable {Thread T : Type}

/-- The thread sleeps in the wait. -/
def sleepsAt (point : Point) : Phase (Call T) Point Condition → Bool
  | .asleep _ here _ _ => here = point
  | _ => false

/-- The thread has left the wait set, and its wait did not expire. -/
def readyAt (point : Point) : Phase (Call T) Point Condition → Bool
  | .woken _ here _ wake => here = point && wake != .expired
  | _ => false

/-- The thread is inside a call and does not sleep. -/
def inside : Phase (Call T) Point Condition → Bool
  | .between _ _ | .woken _ _ _ _ => true
  | _ => false

def notified : Phase (Call T) Point Condition → Bool
  | .woken _ _ _ .notified => true
  | _ => false

/-- The wait whose threads the notice of the call is for. -/
def partner : Call T → Option Point
  | .pushBack _ => some .popBlocked
  | .popFront _ => some .pushBlocked
  | .shutdown => none

/-- All calls in progress sleep, and the loop of one of them would end. -/
def LostWakeup (state : QueueState Thread T) : Prop :=
  (∀ thread, inside (state.phase thread) = false) ∧
    ∃ thread point, sleepsAt point (state.phase thread) = true ∧ ¬ state.shared.blocks point

/-- When a thread sleeps on the side that the notice is for, the step notifies no thread of the
other side. -/
def ReachesPartner (state : QueueState Thread T) (label : Label Thread (Call T))
    (next : QueueState Thread T) : Prop :=
  ∀ point ∈ (state.callOf label).bind partner,
    (∃ sleeper, sleepsAt point (state.phase sleeper) = true) →
      ∀ thread, notified (state.phase thread) = false → notified (next.phase thread) = true →
        sleepsAt point (state.phase thread) = true

/-- Sleepers are left only for values or room that ready threads will take. -/
structure Fed (queue : MTQueue T) (asleep ready : Point → Nat) : Prop where
  pops : 0 < asleep .popBlocked →
    queue.m_shutdown = false ∧ queue.m_deque.length ≤ ready .popBlocked
  pushes : 0 < asleep .pushBlocked → queue.m_shutdown = false ∧
    queue.m_maxQueueSize ≤ queue.m_deque.length + ready .pushBlocked

/-- The count of the threads inside a wait that the queue keeps. -/
def MTQueue.blocked (queue : MTQueue T) : Point → Nat
  | .pushBlocked => queue.m_pushesBlocked
  | .popBlocked => queue.m_popsBlocked

/-- One move leaves no sleeper without a ready thread, when its notice reaches its partner. The
thread of the move is one of the ready threads before it. -/
theorem MTQueue.Move.fed {queue : MTQueue T} {call : Call T} {expired : Bool}
    {ran : QueueSection T} {asleep ready told own asleepNow readyNow : Point → Nat}
    (move : Move queue call expired ran) (fed : Fed queue asleep ready)
    (side : ∀ wait, own wait ≤ 1 ∧ (partner call = some wait ∨ expired = true → own wait = 0))
    (heard : ∀ wait, partner call = some wait → ran.notices = notifyOne (queue.blocked wait) →
      0 < asleep wait → told wait = 1)
    (notAll : .all .m_cond ∉ ran.notices)
    (sleeps : ∀ wait, asleepNow wait + told wait =
      asleep wait + (sleepsAt wait (ran.next.phase call)).toNat)
    (wakes : ∀ wait, readyNow wait + own wait = ready wait + told wait) :
    Fed ran.shared asleepNow readyNow := by
  have popsWake := wakes .popBlocked
  have pushesWake := wakes .pushBlocked
  have popsSide := side .popBlocked
  have pushesSide := side .pushBlocked
  cases move with
  | waitPush full =>
      obtain ⟨running, isFull⟩ := full
      have popsSleep : asleepNow .popBlocked + told .popBlocked = asleep .popBlocked :=
        sleeps .popBlocked
      have noPop := popsSide.2 (.inl rfl)
      constructor
      · intro some_
        obtain ⟨-, few⟩ := fed.pops (by omega)
        refine ⟨running, ?_⟩
        show queue.m_deque.length ≤ _
        omega
      · intro _
        exact ⟨running, Nat.le_add_right_of_le isFull⟩
  | push running room =>
      have popsSleep : asleepNow .popBlocked + told .popBlocked = asleep .popBlocked :=
        sleeps .popBlocked
      have pushesSleep : asleepNow .pushBlocked + told .pushBlocked = asleep .pushBlocked :=
        sleeps .pushBlocked
      have noPop := popsSide.2 (.inl rfl)
      constructor
      · intro some_
        obtain ⟨-, few⟩ := fed.pops (by omega)
        have one := heard .popBlocked rfl rfl (by omega)
        refine ⟨running, ?_⟩
        show (queue.m_deque ++ [_]).length ≤ _
        rw [List.length_append, List.length_singleton]
        omega
      · intro some_
        obtain ⟨-, few⟩ := fed.pushes (by omega)
        refine ⟨running, ?_⟩
        show queue.m_maxQueueSize ≤ (queue.m_deque ++ [_]).length + _
        rw [List.length_append, List.length_singleton]
        omega
  | waitPop empty =>
      obtain ⟨running, isEmpty⟩ := empty
      have pushesSleep : asleepNow .pushBlocked + told .pushBlocked = asleep .pushBlocked :=
        sleeps .pushBlocked
      have noPush := pushesSide.2 (.inl rfl)
      constructor
      · intro _
        exact ⟨running, (le_of_eq isEmpty).trans (Nat.zero_le _)⟩
      · intro some_
        obtain ⟨-, few⟩ := fed.pushes (by omega)
        refine ⟨running, ?_⟩
        show queue.m_maxQueueSize ≤ queue.m_deque.length + _
        omega
  | @pop infinite value rest running found =>
      have popsSleep : asleepNow .popBlocked + told .popBlocked = asleep .popBlocked :=
        sleeps .popBlocked
      have pushesSleep : asleepNow .pushBlocked + told .pushBlocked = asleep .pushBlocked :=
        sleeps .pushBlocked
      have noPush := pushesSide.2 (.inl rfl)
      have count : queue.m_deque.length = rest.length + 1 := by rw [found, List.length_cons]
      constructor
      · intro some_
        obtain ⟨-, few⟩ := fed.pops (by omega)
        refine ⟨running, ?_⟩
        show rest.length ≤ _
        omega
      · intro some_
        obtain ⟨-, few⟩ := fed.pushes (by omega)
        have one := heard .pushBlocked rfl rfl (by omega)
        refine ⟨running, ?_⟩
        show queue.m_maxQueueSize ≤ rest.length + _
        omega
  | ignore stopped | shutDown stopped =>
      have nobody (wait : Point) : asleepNow wait + told wait = asleep wait := sleeps wait
      have popsSleep := nobody .popBlocked
      have pushesSleep := nobody .pushBlocked
      constructor
      · intro some_
        cases stopped.symm.trans (fed.pops (by omega)).1
      · intro some_
        cases stopped.symm.trans (fed.pushes (by omega)).1
  | expire =>
      have popsSleep : asleepNow .popBlocked + told .popBlocked = asleep .popBlocked :=
        sleeps .popBlocked
      have pushesSleep : asleepNow .pushBlocked + told .pushBlocked = asleep .pushBlocked :=
        sleeps .pushBlocked
      have noPop := popsSide.2 (.inr rfl)
      have noPush := pushesSide.2 (.inr rfl)
      constructor
      · intro some_
        obtain ⟨running, few⟩ := fed.pops (by omega)
        refine ⟨running, ?_⟩
        show queue.m_deque.length ≤ _
        omega
      · intro some_
        obtain ⟨running, few⟩ := fed.pushes (by omega)
        refine ⟨running, ?_⟩
        show queue.m_maxQueueSize ≤ queue.m_deque.length + _
        omega
  | stop => exact absurd (List.mem_singleton_self _) notAll

/-- A move sends no notice, one to its partner, or one to all. -/
theorem MTQueue.Move.notices {queue : MTQueue T} {call : Call T} {expired : Bool}
    {ran : QueueSection T} (move : Move queue call expired ran)
    (notAll : .all .m_cond ∉ ran.notices) :
    (∃ wait, partner call = some wait) ∧ (ran.notices = [] ∨ ran.notices = [.one .m_cond]) := by
  have either (blocked : Nat) : notifyOne blocked = [] ∨ notifyOne blocked = [.one .m_cond] := by
    unfold notifyOne
    split
    · exact .inr rfl
    · exact .inl rfl
  cases move with
  | waitPush | waitPop | expire => exact ⟨⟨_, rfl⟩, .inl rfl⟩
  | push | ignore | pop | shutDown => exact ⟨⟨_, rfl⟩, either _⟩
  | stop => exact absurd (List.mem_singleton_self _) notAll

/-- Only a call that ends wakes all threads. -/
theorem MTQueue.Move.idle_of_all {queue : MTQueue T} {call : Call T} {expired : Bool}
    {ran : QueueSection T} (move : Move queue call expired ran)
    (sent : .all .m_cond ∈ ran.notices) : ran.next.phase call = .idle := by
  cases move with
  | waitPush | waitPop => cases sent
  | push | ignore | pop | shutDown | expire | stop => rfl

theorem asleepOn_of_sleepsAt {point : Point} {phase : Phase (Call T) Point Condition}
    (asleep : sleepsAt point phase = true) : phase.asleepOn .m_cond := by
  cases phase with
  | asleep call here condition timed => rfl
  | idle | between | woken => cases asleep

section Counts

variable [Fintype Thread]

def sleepers (point : Point) (state : QueueState Thread T) : Nat :=
  census (sleepsAt point) state.phase

def ready (point : Point) (state : QueueState Thread T) : Nat :=
  census (readyAt point) state.phase

/-- No sleeper of the state is left behind. -/
def Served (state : QueueState Thread T) : Prop :=
  Fed state.shared (sleepers · state) (ready · state)

/-- The sleepers are inside their wait. -/
theorem sleepers_le {state : QueueState Thread T} (point : Point) :
    sleepers point state ≤ waiting point state := by
  refine census_le fun thread asleep => ?_
  unfold State.position
  cases standing : state.phase thread with
  | asleep _ here _ _ =>
      rw [standing] at asleep
      simpa [at_, Phase.position, sleepsAt] using asleep
  | idle | between | woken =>
      rw [standing] at asleep
      cases asleep

theorem Served.noLostWakeup {state : QueueState Thread T} (served : Served state) :
    ¬ LostWakeup state := by
  rintro ⟨nobody, thread, point, asleep, free⟩
  have some_ : 0 < sleepers point state := census_pos.mpr ⟨thread, asleep⟩
  have none (wait : Point) : ready wait state = 0 := by
    refine census_eq_zero.mpr fun other => ?_
    have outside := nobody other
    cases phase : state.phase other with
    | woken => rw [phase] at outside; cases outside
    | idle | between | asleep => rfl
  refine free ?_
  cases point with
  | popBlocked =>
      obtain ⟨running, few⟩ := served.pops some_
      rw [none] at few
      exact ⟨running, Nat.le_zero.mp few⟩
  | pushBlocked =>
      obtain ⟨running, few⟩ := served.pushes some_
      rw [none, Nat.add_zero] at few
      exact ⟨running, few⟩

end Counts

section Steps

variable [Fintype Thread] [DecidableEq Thread] {maxQueueSize : Nat}
  {state next : QueueState Thread T} {label : Label Thread (Call T)} {thread : Thread}
  {call : Call T} {ran : QueueSection T}
  {phase : Thread → Phase (Call T) Point Condition}

/-- A notice makes one sleeper of the side ready, or it finds nobody. -/
def Reached (before after : Thread → Phase (Call T) Point Condition) (side : Option Point) : Prop :=
  ∀ wait, census (sleepsAt wait) after + (decide (side = some wait)).toNat =
      census (sleepsAt wait) before ∧
    census (readyAt wait) after = census (readyAt wait) before + (decide (side = some wait)).toNat

/-- A thread that is notified changes from a sleeper to a ready thread of its side. -/
theorem reached_update {before : Thread → Phase (Call T) Point Condition} {chosen : Thread}
    {here : Point} {condition : Condition} {timed : Bool}
    (asleep : before chosen = .asleep call here condition timed) :
    Reached before (Function.update before chosen (before chosen).notify) (some here) := by
  intro wait
  have less : census (sleepsAt wait) (Function.update before chosen (before chosen).notify) +
      (sleepsAt wait (before chosen)).toNat =
      census (sleepsAt wait) before + (sleepsAt wait (before chosen).notify).toNat :=
    census_update chosen _
  have more : census (readyAt wait) (Function.update before chosen (before chosen).notify) +
      (readyAt wait (before chosen)).toNat =
      census (readyAt wait) before + (readyAt wait (before chosen).notify).toNat :=
    census_update chosen _
  have slept : sleepsAt wait (before chosen) = decide (some here = some wait) := by
    rw [asleep]
    simp [sleepsAt]
  have isReady : readyAt wait (before chosen).notify = decide (some here = some wait) := by
    rw [asleep]
    simp [Phase.notify, readyAt]
  have notYet : readyAt wait (before chosen) = false := by rw [asleep]; rfl
  have noMore : sleepsAt wait (before chosen).notify = false := by rw [asleep]; rfl
  rw [slept, noMore] at less
  rw [isReady, notYet] at more
  exact ⟨less, more⟩

/-- A notice reaches the side that it prefers when a thread sleeps there. -/
theorem notice_reaches {notices : List (Notice Condition)} {point : Point}
    {before after : Thread → Phase (Call T) Point Condition}
    (delivered : Delivered notices before after)
    (few : notices = [] ∨ notices = [.one .m_cond])
    (prefers : (∃ sleeper, sleepsAt point (before sleeper) = true) →
      ∀ thread, notified (before thread) = false → notified (after thread) = true →
        sleepsAt point (before thread) = true) :
    ∃ side, Reached before after side ∧
      (notices ≠ [] → 0 < census (sleepsAt point) before → side = some point) := by
  rcases few with rfl | rfl
  · cases delivered with
    | nil => exact ⟨none, fun wait => ⟨rfl, rfl⟩, fun some_ => absurd rfl some_⟩
  · rcases delivered.of_one with ⟨chosen, asleep, changed⟩ | ⟨awake, same⟩
    · cases sleeps : before chosen with
      | asleep call here condition timed =>
          refine ⟨some here, by rw [changed]; exact reached_update sleeps, ?_⟩
          intro _ some_
          have told : notified (after chosen) = true := by
            rw [changed, Function.update_self, sleeps]
            rfl
          have right := prefers (census_pos.mp some_) chosen (by rw [sleeps]; rfl) told
          rw [sleeps] at right
          simpa [sleepsAt] using right
      | idle | between | woken =>
          rw [sleeps] at asleep
          exact asleep.elim
    · refine ⟨none, fun wait => by rw [same]; exact ⟨rfl, rfl⟩, ?_⟩
      intro _ some_
      obtain ⟨sleeper, sleeps⟩ := census_pos.mp some_
      exact absurd (asleepOn_of_sleepsAt sleeps) (awake sleeper)

omit [Fintype Thread] [DecidableEq Thread] in
/-- A thread that starts a section does not sleep, and it is ready only at its own wait. -/
theorem Stands.own {standing : Phase (Call T) Point Condition} {point : Option Point}
    {expired : Bool} (stands : Stands standing call point expired) (wait : Point) :
    (∀ condition, ¬ standing.asleepOn condition) ∧ sleepsAt wait standing = false ∧
      readyAt wait standing = (decide (point = some wait) && !expired) ∧
      (partner call = some wait → point ≠ some wait) := by
  cases stands with
  | idle call => exact ⟨fun _ => id, rfl, rfl, fun _ => nofun⟩
  | woken wake waits =>
      refine ⟨fun _ => id, rfl, ?_, ?_⟩
      · simp [readyAt, bne]
      · cases waits with
        | push val => cases wait <;> simp [partner]
        | pop infinite => cases wait <;> simp [partner]

/-- The counts after the section of a thread, from the counts after its notices. -/
theorem ran_counts {point : Option Point} {expired : Bool}
    (stands : Stands (state.phase thread) call point expired)
    (delivered : Delivered ran.notices state.phase phase) (wait : Point) :
    sleepers wait (state.ran thread call ran phase) =
        census (sleepsAt wait) phase + (sleepsAt wait (ran.next.phase call)).toNat ∧
      ready wait (state.ran thread call ran phase) +
          (decide (point = some wait) && !expired).toNat =
        census (readyAt wait) phase := by
  obtain ⟨awake, notAsleep, isReady, -⟩ := stands.own wait
  have same : phase thread = state.phase thread := delivered.of_awake awake
  have slept : sleepers wait (state.ran thread call ran phase) +
        (sleepsAt wait (phase thread)).toNat =
      census (sleepsAt wait) phase + (sleepsAt wait (ran.next.phase call)).toNat :=
    census_update thread _
  have gone : ready wait (state.ran thread call ran phase) + (readyAt wait (phase thread)).toNat =
      census (readyAt wait) phase + (readyAt wait (ran.next.phase call)).toNat :=
    census_update thread _
  have notReady : readyAt wait (ran.next.phase call) = false := by
    cases ran.next <;> rfl
  rw [same, notAsleep] at slept
  rw [same, isReady, notReady] at gone
  exact ⟨slept, gone⟩

theorem Served.turn {point : Option Point} {expired : Bool} (served : Served state)
    (consistent : Consistent maxQueueSize state)
    (stands : Stands (state.phase thread) call point expired)
    (move : Move (state.shared.entered point) call expired ran)
    (delivered : Delivered ran.notices state.phase phase)
    (prefers : ∀ wait ∈ partner call, (∃ sleeper, sleepsAt wait (state.phase sleeper) = true) →
      ∀ other, notified (state.phase other) = false → notified (phase other) = true →
        sleepsAt wait (state.phase other) = true) :
    Served (state.ran thread call ran phase) := by
  obtain ⟨deque, greatest, shutdown, pushes, pops⟩ := entered_spec state.shared point
  have counts := ran_counts stands delivered
  by_cases sent : .all .m_cond ∈ ran.notices
  · have nobody (wait : Point) : ¬ 0 < sleepers wait (state.ran thread call ran phase) := by
      intro some_
      obtain ⟨other, asleep⟩ := census_pos.mp some_
      refine State.ran_awake delivered (.inr sent) ?_ other (asleepOn_of_sleepsAt asleep)
      rw [move.idle_of_all sent]
      exact id
    exact ⟨fun some_ => absurd some_ (nobody _), fun some_ => absurd some_ (nobody _)⟩
  · obtain ⟨⟨wait, isPartner⟩, few⟩ := move.notices sent
    obtain ⟨side, reached, hears⟩ := notice_reaches delivered few (prefers wait isPartner)
    have fed : Fed (state.shared.entered point) (sleepers · state) (ready · state) := by
      constructor
      · intro some_
        rw [shutdown, deque]
        exact served.pops some_
      · intro some_
        rw [shutdown, deque, greatest]
        exact served.pushes some_
    have own (here : Point) (none : partner call = some here ∨ expired = true) :
        (decide (point = some here) && !expired).toNat = 0 := by
      rcases none with isPartner | rfl
      · rw [decide_eq_false ((stands.own here).2.2.2 isPartner)]
        rfl
      · rw [Bool.not_true, Bool.and_false]
        rfl
    have heard : ran.notices = notifyOne ((state.shared.entered point).blocked wait) →
        0 < sleepers wait state → side = some wait := by
      intro isNotice some_
      refine hears ?_ some_
      have less : sleepers wait state ≤ waiting wait state := sleepers_le wait
      have outside : (decide (point = some wait)).toNat = 0 := by
        rw [decide_eq_false ((stands.own wait).2.2.2 isPartner)]
        rfl
      have positive : (state.shared.entered point).blocked wait > 0 := by
        have pushesNow := consistent.pushes
        have popsNow := consistent.pops
        cases wait with
        | pushBlocked =>
            show (state.shared.entered point).m_pushesBlocked > 0
            omega
        | popBlocked =>
            show (state.shared.entered point).m_popsBlocked > 0
            omega
      rw [isNotice, notifyOne, if_pos positive]
      exact List.cons_ne_nil _ _
    have told (here : Point) (isHere : partner call = some here)
        (isNotice : ran.notices = notifyOne ((state.shared.entered point).blocked here))
        (some_ : 0 < sleepers here state) : (decide (side = some here)).toNat = 1 := by
      obtain rfl : wait = here := Option.some.inj (isPartner.symm.trans isHere)
      rw [decide_eq_true (heard isNotice some_)]
      rfl
    refine move.fed fed (fun here => ⟨Bool.toNat_le _, own here⟩) told sent ?_ ?_
    · intro here
      have now := (counts here).1
      have before := (reached here).1
      unfold sleepers at now ⊢
      omega
    · intro here
      have now := (counts here).2
      have before := (reached here).2
      unfold ready at now ⊢
      omega

/-- A sleeper that wakes up without a notice leaves its side served. -/
theorem Served.wake {point : Point} {condition : Condition} {timed : Bool} (served : Served state)
    (asleep : state.phase thread = .asleep call point condition timed) (wake : Wake) :
    Served (state.wake thread (.woken call point condition wake)) := by
  have fewer (here : Point) :
      sleepers here (state.wake thread (.woken call point condition wake)) ≤
        sleepers here state := by
    have changed : sleepers here (state.wake thread (.woken call point condition wake)) +
        (sleepsAt here (state.phase thread)).toNat = sleepers here state + 0 :=
      census_update thread _
    omega
  have more (here : Point) : ready here state ≤
      ready here (state.wake thread (.woken call point condition wake)) := by
    have notYet : readyAt here (state.phase thread) = false := by rw [asleep]; rfl
    have changed : ready here (state.wake thread (.woken call point condition wake)) +
        (readyAt here (state.phase thread)).toNat =
          ready here state + (readyAt here
            (.woken call point condition wake : Phase (Call T) Point Condition)).toNat :=
      census_update thread _
    rw [notYet, Bool.toNat_false, Nat.add_zero] at changed
    omega
  constructor
  · intro some_
    obtain ⟨running, few⟩ := served.pops (some_.trans_le (fewer _))
    exact ⟨running, few.trans (more _)⟩
  · intro some_
    obtain ⟨running, few⟩ := served.pushes (some_.trans_le (fewer _))
    exact ⟨running, few.trans (Nat.add_le_add_left (more _) _)⟩

/-- What a run keeps whose notices reach their partners. -/
structure Watched (maxQueueSize : Nat) (state : QueueState Thread T) : Prop where
  reached : (system maxQueueSize).Reachable state
  served : Served state

theorem Watched.step (watched : Watched maxQueueSize state)
    (step : (system maxQueueSize).step state label next)
    (partners : ReachesPartner state label next) : Watched maxQueueSize next := by
  refine ⟨watched.reached.step step, ?_⟩
  cases step with
  | @run label thread call ran phase turn delivered =>
      obtain ⟨point, expired, stands, move⟩ := turn_move (fits_of_reachable watched.reached) turn
      refine watched.served.turn (consistent_of_reachable watched.reached) stands move delivered ?_
      intro wait isPartner some_ other notYet told
      refine partners wait (by rw [turn.callOf]; exact isPartner) some_ other notYet ?_
      have different : other ≠ thread := by
        rintro rfl
        rw [delivered.of_awake (stands.own wait).1, notYet] at told
        cases told
      show notified (Function.update phase thread _ other) = true
      rwa [Function.update_of_ne different]
  | rouse asleep => exact watched.served.wake asleep .spurious
  | expire asleep => exact watched.served.wake asleep .expired

/-- No wakeup is lost along a run whose notices all reach the side that they are for. -/
theorem no_wakeup_lost_of_partners
    {steps : List (TransitionSystem.Transition (QueueState Thread T) (Label Thread (Call T)))}
    (run : (system maxQueueSize).Run ⟨.new maxQueueSize, fun _ => .idle, []⟩ steps)
    (partners : ∀ step ∈ steps, ReachesPartner step.source step.label step.target) :
    ∀ step ∈ steps, ¬ LostWakeup step.target := by
  have start : Watched maxQueueSize
      (⟨.new maxQueueSize, fun _ => .idle, []⟩ : QueueState Thread T) := by
    have nobody (point : Point) : ¬ 0 < sleepers point
        (⟨.new maxQueueSize, fun _ => .idle, []⟩ : QueueState Thread T) := by
      intro some_
      obtain ⟨thread, asleep⟩ := census_pos.mp some_
      cases asleep
    exact ⟨.initial rfl, fun some_ => absurd some_ (nobody _), fun some_ => absurd some_ (nobody _)⟩
  have watched := run.invariant (fun _ _ _ watched step partners => watched.step step partners)
    start partners
  exact fun step member => (watched step member).served.noLostWakeup

end Steps

/-! Two pops wait, one push wakes the first of them, another push waits for room, and the first pop
wakes the second one instead of the push. -/

section Example

/-- The state after a thread went on behind its wait. -/
def resumed (state : QueueState (Fin 3) Nat) (thread : Fin 3) (call : Call Nat) (point : Point)
    (phase : Fin 3 → Phase (Call Nat) Point Condition) : QueueState (Fin 3) Nat :=
  state.ran thread call (resume call point true state.shared) phase

theorem resumed_step {maxQueueSize : Nat} {state : QueueState (Fin 3) Nat} {thread : Fin 3}
    {call : Call Nat} {point : Point} {phase : Fin 3 → Phase (Call Nat) Point Condition}
    (stands : state.phase thread = .woken call point .m_cond .notified)
    (delivered : Delivered (resume call point true state.shared).notices state.phase phase) :
    (system maxQueueSize).step state (.resume thread) (resumed state thread call point phase) :=
  .run (.woken stands) delivered

def twoPops : QueueState (Fin 3) Nat :=
  called (onePop 1) 2 (.popFront true) (onePop 1).phase

/-- The phases after a notice to one sleeper. -/
def notifying (state : QueueState (Fin 3) Nat) (chosen : Fin 3) :
    Fin 3 → Phase (Call Nat) Point Condition :=
  Function.update state.phase chosen (state.phase chosen).notify

def oneValue : QueueState (Fin 3) Nat := called twoPops 0 (.pushBack 7) (notifying twoPops 1)

def pushWaits : QueueState (Fin 3) Nat := called oneValue 0 (.pushBack 8) oneValue.phase

/-- The notice of the pop has reached the other pop. -/
def misdirected : QueueState (Fin 3) Nat :=
  resumed pushWaits 1 (.popFront true) .popBlocked (notifying pushWaits 2)

def swallowed : QueueState (Fin 3) Nat :=
  resumed misdirected 2 (.popFront true) .popBlocked misdirected.phase

/-- The queue is empty and has room for one, and a push and a pop sleep. -/
theorem notice_swallowed : (system 1).Reachable swallowed ∧ LostWakeup swallowed := by
  constructor
  · have first : (system 1).step (onePop 1) (.enter 2 (.popFront true)) twoPops :=
      called_step rfl (.nil _)
    have second : (system 1).step twoPops (.enter 0 (.pushBack 7)) oneValue :=
      called_step rfl (.one (show (twoPops.phase 1).asleepOn .m_cond from rfl) (.nil _))
    have third : (system 1).step oneValue (.enter 0 (.pushBack 8)) pushWaits :=
      called_step rfl (.nil _)
    have fourth : (system 1).step pushWaits (.resume 1) misdirected :=
      resumed_step rfl (.one (show (pushWaits.phase 2).asleepOn .m_cond from rfl) (.nil _))
    have fifth : (system 1).step misdirected (.resume 2) swallowed :=
      resumed_step rfl (.nil _)
    have reached : (system 1).Reachable (onePop (1 : Fin 3)) :=
      .step (.initial rfl) (onePop_step 1)
    exact ((((reached.step first).step second).step third).step fourth).step fifth
  · exact ⟨by decide, 0, .pushBlocked, by decide, by decide⟩

def servedRun : List (TransitionSystem.Transition (QueueState (Fin 3) Nat)
    (Label (Fin 3) (Call Nat))) :=
  [⟨start, .enter 1 (.popFront true), onePop 1⟩,
    ⟨onePop 1, .enter 2 (.popFront true), twoPops⟩, ⟨twoPops, .enter 0 (.pushBack 7), oneValue⟩]

theorem no_wakeup_lost_of_partners_servedRun : ¬ LostWakeup oneValue := by
  have push : (system 1).step twoPops (.enter 0 (.pushBack 7)) oneValue :=
    called_step rfl (.one (show (twoPops.phase 1).asleepOn .m_cond from rfl) (.nil _))
  have run : (system 1).Run start servedRun :=
    .cons (onePop_step 1) <| .cons (called_step rfl (.nil _)) <| .cons push (.nil _)
  have partners : ∀ step ∈ servedRun, ReachesPartner step.source step.label step.target := by
    simp only [servedRun, List.forall_mem_cons]
    refine ⟨?_, ?_, ?_, by simp⟩ <;> unfold ReachesPartner <;> decide
  exact no_wakeup_lost_of_partners run partners _ (List.getLast_mem (by decide))

end Example

end Blocxx.Queue
