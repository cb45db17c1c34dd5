import Blocxx.Library.Replay
import Blocxx.ThreadPool.ImplMoves

/-!
This file proves when the pool without a queue accounts for its working threads.
-/

namespace Blocxx.ThreadPool
open Library Library.Monitor ThreadPoolImpl

variable {Client Work : Type}

def ImplPoint.isWorking : ImplPoint Work → Bool
  | .working _ _ => true
  | _ => false

/-- The threads that have taken work and have not finished it. -/
def workers (state : ImplState Client Work) : Set (Client ⊕ Nat) :=
  {thread | ∃ call point, state.position thread = some (call, point) ∧ point.isWorking = true}

namespace ThreadPoolImpl

/-- There is a thread for all the work that is done or queued. -/
def Balanced (pool : ThreadPoolImpl Work) : Prop :=
  pool.workingThreads.toNat + pool.queue.length ≤ pool.maxThreads.toNat

variable {cancels : Work → Bool} {pool : ThreadPoolImpl Work} {call : ImplCall Work}
  {point : Option (ImplPoint Work)} {answer : Bool} {ran : ImplSection Work}

/-- The number of free threads does not wrap. -/
theorem Balanced.freeThreads (balanced : pool.Balanced) :
    pool.freeThreads.toNat = pool.maxThreads.toNat - pool.workingThreads.toNat := by
  have below : pool.workingThreads.toNat ≤ pool.maxThreads.toNat := Nat.le_of_add_right_le balanced
  have short := pool.maxThreads.toNat_lt
  have narrow : pool.workingThreads.toUInt32.toNat = pool.workingThreads.toNat := by
    rw [UInt64.toNat_toUInt32]
    exact Nat.mod_eq_of_lt (by omega)
  rw [ThreadPoolImpl.freeThreads, UInt32.toNat_sub_of_le, narrow]
  rw [UInt32.le_iff_toNat_le, narrow]
  exact below

theorem Balanced.full_iff (balanced : pool.Balanced) :
    queueIsFull .dynamicSizeNoQueue pool ↔
      pool.workingThreads.toNat + pool.queue.length = pool.maxThreads.toNat := by
  have free := balanced.freeThreads
  unfold Balanced at balanced
  change pool.freeThreads.toNat ≤ pool.queue.length ↔ _
  omega

/-- A section counts the worker that takes work and the worker that has finished it, but not the
worker whose work was cancelled. -/
structure CountsWorker (cancels : Work → Bool) (before after : ThreadPoolImpl Work)
    (point next : Option (ImplPoint Work)) : Prop where
  balanced : after.Balanced
  counted : (∀ worker work, point = some (.working worker work) → cancels work = false) →
    after.workingThreads.toNat + (point.any ImplPoint.isWorking).toNat =
      before.workingThreads.toNat + (next.any ImplPoint.isWorking).toNat
  lost : (∃ worker work, point = some (.working worker work) ∧ cancels work = true) →
    after.workingThreads = before.workingThreads ∧ next.any ImplPoint.isWorking = false

/-- A section that takes no work and ends none. -/
theorem CountsWorker.idle {after : ThreadPoolImpl Work} {next : Option (ImplPoint Work)}
    (balanced : after.Balanced) (same : after.workingThreads = pool.workingThreads)
    (before : point.any ImplPoint.isWorking = false)
    (later : next.any ImplPoint.isWorking = false) :
    CountsWorker cancels pool after point next where
  balanced := balanced
  counted _ := by rw [same, before, later]
  lost cancelled := by
    obtain ⟨worker, work, rfl, _⟩ := cancelled
    cases before

theorem idle_of_beforePush (stands : ∀ here ∈ point, here.BeforePush) :
    point.any ImplPoint.isWorking = false := by
  cases point with
  | none => rfl
  | some here =>
      have before := stands here rfl
      cases here <;> first | rfl | exact before.elim

theorem idle_of_looksForWork (stands : ∀ here ∈ point, here.LooksForWork) :
    point.any ImplPoint.isWorking = false := by
  cases point with
  | none => rfl
  | some here =>
      have looks := stands here rfl
      cases here <;> first | rfl | exact looks.elim

theorem lift_idle (inside : PoolSection Work) :
    ((pool.lift inside).next.position call).map Prod.snd = none ∨
      ∃ inner, ((pool.lift inside).next.position call).map Prod.snd = some (.common inner) := by
  unfold lift
  cases inside.next with
  | finish => exact .inl rfl
  | wait condition timed inner => exact .inr ⟨inner, rfl⟩
  | leave inner => exact .inr ⟨inner, rfl⟩

theorem Move.countsWorker
    (move : Move .dynamicSizeNoQueue cancels pool call point answer ran)
    (balanced : pool.Balanced)
    (busy : point.any ImplPoint.isWorking = true → 0 < pool.workingThreads.toNat) :
    CountsWorker cancels pool ran.shared point ((ran.next.position call).map Prod.snd) := by
  have kept {cleaned : ThreadPoolImpl Work} (isCleaned : Cleaned pool cleaned) :
      cleaned.Balanced := by
    rw [Balanced, isCleaned.queue, isCleaned.workingThreads.1, isCleaned.workingThreads.2]
    exact balanced
  have short := pool.maxThreads.toNat_lt
  cases move with
  | refuse stands isCleaned =>
      exact .idle (kept isCleaned) isCleaned.workingThreads.1 (idle_of_beforePush stands) rfl
  | waitFull stands isCleaned =>
      exact .idle (kept isCleaned) isCleaned.workingThreads.1 (idle_of_beforePush stands) rfl
  | push stands isCleaned room opened goes =>
      have later {call : ImplCall Work} {next : Next (ImplResult Work) (ImplPoint Work) Condition}
          (goes : next = .finish (.common (.answer true)) ∨
            Implementation.dynamicSizeNoQueue ≠ .fixedSize ∧ next = .leave .addNotify) :
          ((next.position call).map Prod.snd).any ImplPoint.isWorking = false := by
        rcases goes with rfl | ⟨_, rfl⟩ <;> rfl
      refine .idle ?_ isCleaned.workingThreads.1 (idle_of_beforePush stands) (later goes)
      rw [balanced.full_iff] at room
      unfold Balanced at balanced ⊢
      dsimp only
      rw [isCleaned.workingThreads.1, isCleaned.workingThreads.2, List.length_append,
        List.length_singleton]
      omega
  | notify => exact .idle balanced rfl rfl rfl
  | create => exact .idle balanced rfl rfl rfl
  | fail => exact .idle balanced rfl rfl rfl
  | rely => exact .idle balanced rfl rfl rfl
  | sleep stands => exact .idle balanced rfl (idle_of_looksForWork stands) rfl
  | giveUp stands => exact .idle balanced rfl (idle_of_looksForWork stands) rfl
  | @take worker _ _ work rest notices stands found =>
      unfold Balanced at balanced
      rw [found, List.length_cons] at balanced
      have more : (pool.workingThreads + 1).toNat = pool.workingThreads.toNat + 1 := by
        rw [UInt64.toNat_add, UInt64.toNat_one]
        exact Nat.mod_eq_of_lt (by omega)
      have before := idle_of_looksForWork stands
      refine ⟨?_, ?_, ?_⟩
      · change (pool.workingThreads + 1).toNat + rest.length ≤ pool.maxThreads.toNat
        omega
      · intro _
        rw [before]
        change (pool.workingThreads + 1).toNat + 0 = pool.workingThreads.toNat + 1
        omega
      · rintro ⟨other, lost, rfl, _⟩
        cases before
  | @cancel worker _ work cancelled =>
      refine ⟨balanced, ?_, fun _ => ⟨rfl, rfl⟩⟩
      intro returned
      rw [returned worker work rfl] at cancelled
      cases cancelled
  | @worked worker _ work returned =>
      have some_ : 0 < pool.workingThreads.toNat := busy rfl
      have fewer : (pool.workingThreads - 1).toNat = pool.workingThreads.toNat - 1 := by
        rw [UInt64.toNat_sub_of_le]
        · rfl
        · rw [UInt64.le_iff_toNat_le]
          exact some_
      unfold Balanced at balanced
      refine ⟨?_, ?_, ?_⟩
      · change (pool.workingThreads - 1).toNat + pool.queue.length ≤ pool.maxThreads.toNat
        omega
      · intro _
        change (pool.workingThreads - 1).toNat + 1 = pool.workingThreads.toNat + 0
        omega
      · rintro ⟨other, lost, stands, cancelled⟩
        cases stands
        rw [returned] at cancelled
        cases cancelled
  | end_ => exact .idle balanced rfl rfl rfl
  | @common call inner point _ inside isCommon move =>
      have same : (pool.lift inside).shared.Balanced := by
        change pool.workingThreads.toNat + inside.shared.queue.length ≤ pool.maxThreads.toNat
        rw [move.queue]
        exact balanced
      refine .idle same rfl (by cases point <;> rfl) ?_
      rcases @lift_idle _ pool call inside with none_ | ⟨inner, stands⟩
      · rw [none_]
        rfl
      · rw [stands]
        rfl
  | commonThrown isCommon stands =>
      refine .idle balanced rfl ?_ rfl
      cases point with
      | none => rfl
      | some here =>
          obtain ⟨inner, rfl⟩ := stands here rfl
          rfl

/-- Only an `addWork` that finds the pool full starts to wait for room. -/
theorem Move.blocks (move : Move .dynamicSizeNoQueue cancels pool call point answer ran)
    (balanced : pool.Balanced) (sleeps : (ran.next.phase call).asleepOn .queueNotFull) :
    ran.shared.workingThreads.toNat + ran.shared.queue.length = ran.shared.maxThreads.toNat := by
  cases move with
  | waitFull stands isCleaned full =>
      dsimp only
      rw [isCleaned.queue, isCleaned.workingThreads.1, isCleaned.workingThreads.2]
      exact balanced.full_iff.mp full
  | push stands isCleaned room opened goes => rcases goes with rfl | ⟨_, rfl⟩ <;> exact sleeps.elim
  | sleep => cases sleeps
  | common isCommon move =>
      cases move with
      | waitEmpty => cases sleeps
      | empty | already | stop | wakeWorkers | wakeAdders | joinThreads => exact sleeps.elim
  | refuse | notify | create | fail | rely | take | giveUp | cancel | worked | end_ |
      commonThrown => exact sleeps.elim

end ThreadPoolImpl

/-- The counter of the pool is the number of its workers. -/
def Counts (state : ImplState Client Work) : Prop :=
  (workers state).encard = state.shared.workingThreads.toNat

/-- After a step the counter is the number of the workers that have taken work and have not
finished it, the sum with the queue is within the limit and the number of free threads does not
wrap, and no thread has started to wait in `addWork` below the limit. -/
structure Accounts (state next : ImplState Client Work) : Prop where
  counts : Counts next
  balanced : next.shared.Balanced
  free : next.shared.freeThreads.toNat =
    next.shared.maxThreads.toNat - next.shared.workingThreads.toNat
  blocks : ∀ thread, ¬ (state.phase thread).asleepOn .queueNotFull →
    (next.phase thread).asleepOn .queueNotFull →
      next.shared.workingThreads.toNat + next.shared.queue.length = next.shared.maxThreads.toNat

/-- The work that a worker has taken ends with `ThreadCancelledException`. -/
def CancelsWork (cancels : Work → Bool) (state : ImplState Client Work)
    (label : Label (Client ⊕ Nat) (ImplCall Work)) : Prop :=
  ∃ thread call worker work, label = .resume thread ∧
    state.position thread = some (call, .working worker work) ∧ cancels work = true

/-- This is the invariant of the pool while no work is cancelled. -/
structure Accounted (state : ImplState Client Work) : Prop where
  fits : ∀ thread, (state.phase thread).Fits (ImplWaits .dynamicSizeNoQueue)
    (ImplLeaves .dynamicSizeNoQueue)
  balanced : state.shared.Balanced
  counts : Counts state

variable {state next : ImplState Client Work} {thread : Client ⊕ Nat}

/-- The place of a thread is one of a worker that has taken work. -/
def atWork (place : Option (ImplCall Work × ImplPoint Work)) : Bool :=
  (place.map Prod.snd).any ImplPoint.isWorking

theorem mem_workers : thread ∈ workers state ↔ atWork (state.position thread) = true := by
  constructor
  · rintro ⟨call, point, stands, working⟩
    rw [stands]
    exact working
  · intro working
    cases stands : state.position thread with
    | none =>
        rw [stands] at working
        cases working
    | some place =>
        rw [stands] at working
        exact ⟨place.1, place.2, stands, working⟩

/-- A section moves only its own thread into or out of the set of workers. -/
theorem workers_update [DecidableEq Client] {place : Option (ImplCall Work × ImplPoint Work)}
    (moves : next.position = Function.update state.position thread place) :
    (workers next).encard + (atWork (state.position thread)).toNat =
      (workers state).encard + (atWork place).toNat := by
  have others (other : Client ⊕ Nat) (different : other ≠ thread) :
      other ∈ workers next ↔ other ∈ workers state := by
    rw [mem_workers, mem_workers, moves, Function.update_of_ne different]
  have own : thread ∈ workers next ↔ atWork place = true := by
    rw [mem_workers, moves, Function.update_self]
  have rest : workers next \ {thread} = workers state \ {thread} := by
    ext other
    simp only [Set.mem_sdiff, Set.mem_singleton_iff]
    exact and_congr_left (others other)
  have count (state : ImplState Client Work) (working : Bool)
      (own : thread ∈ workers state ↔ working = true) :
      (workers state).encard = (workers state \ {thread}).encard + working.toNat := by
    cases working with
    | true => exact (Set.encard_sdiff_singleton_add_one (own.mpr rfl)).symm
    | false =>
        have outside : thread ∉ workers state := by simp [own]
        rw [Set.sdiff_singleton_eq_self outside]
        exact (add_zero _).symm
  rw [count next _ own, count state _ mem_workers, rest]
  exact add_right_comm _ _ _

variable {cancels : Work → Bool} {numThreads maxQueueSize : UInt32}
  {label : Label (Client ⊕ Nat) (ImplCall Work)} {call : ImplCall Work}
  {point : Option (ImplPoint Work)} {answer : Bool} {ran : ImplSection Work}

theorem atWork_of_begins (begins : Begins state label thread call point answer) :
    atWork (state.position thread) = point.any ImplPoint.isWorking := by
  rw [begins.stands]
  cases point <;> rfl

/-- The section of a cancelled worker starts where its work is. -/
theorem cancelsWork_iff (begins : Begins state label thread call point answer) :
    CancelsWork cancels state label ↔
      ∃ worker work, point = some (.working worker work) ∧ cancels work = true := by
  constructor
  · rintro ⟨other, inner, worker, work, resumes, stands, cancelled⟩
    exact ⟨worker, work, (begins.of_resume resumes stands).2, cancelled⟩
  · rintro ⟨worker, work, rfl, cancelled⟩
    exact ⟨thread, call, worker, work, begins.resumed nofun, begins.stands, cancelled⟩

/-- A worker that stands at its work is counted. -/
theorem Accounted.busy (accounted : Accounted state)
    (begins : Begins state label thread call point answer)
    (working : point.any ImplPoint.isWorking = true) : 0 < state.shared.workingThreads.toNat := by
  have inside : thread ∈ workers state :=
    mem_workers.mpr ((atWork_of_begins begins).trans working)
  have some_ := Set.encard_pos.mpr ⟨thread, inside⟩
  rw [accounted.counts] at some_
  exact_mod_cast some_

variable [DecidableEq Client]

/-- A section keeps the counter right unless the work of its thread is cancelled. -/
theorem Accounted.counts_iff (accounted : Accounted state)
    (begins : Begins state label thread call point answer)
    (counts : CountsWorker cancels state.shared ran.shared point
      ((ran.next.position call).map Prod.snd)) (shared : next.shared = ran.shared)
    (moves : next.position = Function.update state.position thread (ran.next.position call)) :
    Counts next ↔ ¬ CancelsWork cancels state label := by
  have update := workers_update moves
  rw [atWork_of_begins begins, accounted.counts] at update
  rw [cancelsWork_iff begins, Counts, shared]
  constructor
  · rintro counted ⟨worker, work, rfl, cancelled⟩
    obtain ⟨same, later⟩ := counts.lost ⟨worker, work, rfl, cancelled⟩
    rw [counted, same, atWork, later] at update
    have wrong : state.shared.workingThreads.toNat + 1 = state.shared.workingThreads.toNat + 0 := by
      exact_mod_cast update
    omega
  · intro returned
    have counted := counts.counted fun worker work stands =>
      Bool.eq_false_of_not_eq_true fun cancelled => returned ⟨worker, work, stands, cancelled⟩
    apply ENat.add_left_injective_of_ne_top
      (ENat.natCast_ne_top (point.any ImplPoint.isWorking).toNat)
    dsimp only
    rw [update, atWork]
    exact_mod_cast counted.symm

/-- Each step of an accounted state accounts for the workers unless their work is cancelled. -/
theorem Accounted.accounts_iff (accounted : Accounted state)
    (step : (implSystem .dynamicSizeNoQueue cancels numThreads maxQueueSize).step state label
      next) : Accounts state next ↔ ¬ CancelsWork cancels state label := by
  rcases lists.ran_or_woken accounted.fits step.1 with
    ⟨thread, call, point, answer, ran, phase, begins, move, delivered, rfl⟩ |
    ⟨silent, thread, call, point, condition, timed, wake, asleep, rfl⟩
  · have counts := move.countsWorker accounted.balanced (accounted.busy begins)
    rw [← accounted.counts_iff begins counts rfl (State.ran_position delivered)]
    refine ⟨Accounts.counts, fun counted =>
      ⟨counted, counts.balanced, counts.balanced.freeThreads, ?_⟩⟩
    intro other awake sleeps
    by_cases same : other = thread
    · subst same
      simp only [State.ran, Function.update_self] at sleeps
      exact move.blocks accounted.balanced sleeps
    · exact absurd (State.ran_asleepOn delivered same sleeps).1 awake
  · have same : Counts (state.wake thread (.woken call point condition wake)) := by
      rw [Counts, workers, State.wake_position (by rw [asleep]; rfl)]
      exact accounted.counts
    refine ⟨?_, fun _ => ⟨same, accounted.balanced, accounted.balanced.freeThreads, ?_⟩⟩
    · rintro _ ⟨other, inner, worker, work, rfl, stands, _⟩
      rw [State.callOf, stands] at silent
      cases silent
    · intro other awake sleeps
      exact absurd (State.wake_asleepOn sleeps) awake

theorem Accounted.step (accounted : Accounted state)
    (step : (implSystem .dynamicSizeNoQueue cancels numThreads maxQueueSize).step state label next)
    (returns : ¬ CancelsWork cancels state label) : Accounted next where
  fits := lists.step_fits accounted.fits step.1
  balanced := ((accounted.accounts_iff step).mpr returns).balanced
  counts := ((accounted.accounts_iff step).mpr returns).counts

/-- In a run the pool without a queue accounts for its workers exactly when no work that a worker
has taken ends with `ThreadCancelledException`. -/
theorem workers_accounted_iff {start : ImplState Client Work}
    {steps : List (TransitionSystem.Transition (ImplState Client Work)
      (Label (Client ⊕ Nat) (ImplCall Work)))}
    (initial : (implSystem .dynamicSizeNoQueue cancels numThreads maxQueueSize).initial start)
    (run : (implSystem .dynamicSizeNoQueue cancels numThreads maxQueueSize).Run start steps) :
    (∀ step ∈ steps, Accounts step.source step.target) ↔
      ∀ step ∈ steps, ¬ CancelsWork cancels step.source step.label := by
  obtain rfl := initial
  have nobody : workers (⟨.new .dynamicSizeNoQueue numThreads maxQueueSize, fun _ => .idle, []⟩ :
      ImplState Client Work) = ∅ := by
    rw [Set.eq_empty_iff_forall_notMem]
    intro thread inside
    rw [mem_workers] at inside
    cases inside
  have new : Accounted (⟨.new .dynamicSizeNoQueue numThreads maxQueueSize, fun _ => .idle, []⟩ :
      ImplState Client Work) := by
    refine ⟨fun _ => trivial, Nat.zero_le _, ?_⟩
    unfold Counts
    rw [nobody, Set.encard_empty]
    rfl
  have keep (state : ImplState Client Work) (label : Label (Client ⊕ Nat) (ImplCall Work))
      (next : ImplState Client Work) (accounted : Accounted state)
      (step : (implSystem .dynamicSizeNoQueue cancels numThreads maxQueueSize).step state label
        next) (returns : ¬ CancelsWork cancels state label) : Accounted next :=
    accounted.step step returns
  have exactly (state : ImplState Client Work) (label : Label (Client ⊕ Nat) (ImplCall Work))
      (next : ImplState Client Work) (accounted : Accounted state)
      (step : (implSystem .dynamicSizeNoQueue cancels numThreads maxQueueSize).step state label
        next) : Accounts state next ↔ ¬ CancelsWork cancels state label :=
    accounted.accounts_iff step
  exact run.forall_iff keep exactly new

/-- A client adds work to a pool for one thread, and the new worker takes it and runs it. -/
def oneWork : List (Label (Unit ⊕ Nat) (ImplCall Nat)) :=
  [.enter (.inl ()) (.addWork (some 5) true .started), .resume (.inl ()), .resume (.inl ()),
    .enter (.inr 0) (.run 0), .resume (.inr 0)]

def replayWork (cancels : Nat → Bool) :
    List (TransitionSystem.Transition (ImplState Unit Nat) (Label (Unit ⊕ Nat) (ImplCall Nat))) :=
  (program .dynamicSizeNoQueue cancels).replay [.inl (), .inr 0]
    ⟨.new .dynamicSizeNoQueue 1 0, fun _ => .idle, []⟩ oneWork

theorem replayWork_run {cancels : Nat → Bool}
    (mayRun : ∀ step ∈ replayWork cancels, MayRun step.source step.label) :
    (implSystem .dynamicSizeNoQueue cancels 1 0).Run
      ⟨.new .dynamicSizeNoQueue 1 0, fun _ => .idle, []⟩ (replayWork cancels) :=
  (Program.throwing_run (Program.replay_run (fun _ _ => rfl) oneWork)).restrict mayRun

theorem workers_accounted_oneWork :
    (∀ step ∈ replayWork fun _ => false,
        ¬ CancelsWork (fun _ => false) step.source step.label) ∧
      ∀ step ∈ replayWork fun _ => false, Accounts step.source step.target := by
  have returns : ∀ step ∈ replayWork fun _ => false,
      ¬ CancelsWork (fun _ => false) step.source step.label := by
    rintro step _ ⟨_, _, _, _, _, _, cancelled⟩
    exact Bool.false_ne_true cancelled
  exact ⟨returns, (workers_accounted_iff rfl (replayWork_run (by decide))).mpr returns⟩

/-- The worker whose work is cancelled stays counted. -/
theorem cancelledWork_not_accounted :
    ¬ ∀ (cancels : Nat → Bool) (steps), (implSystem .dynamicSizeNoQueue cancels 1 0).Run
        (⟨.new .dynamicSizeNoQueue 1 0, fun _ => .idle, []⟩ : ImplState Unit Nat) steps →
      ∀ step ∈ steps, Accounts step.source step.target := by
  intro always
  have accounts := always (fun _ => true) _ (replayWork_run (by decide)) _
    (List.getLast_mem (by decide))
  have nobody : workers ((replayWork fun _ => true).getLast (by decide)).target = ∅ := by
    rw [Set.eq_empty_iff_forall_notMem]
    rintro (client | worker) inside
    · rw [mem_workers] at inside
      cases inside
    · rw [mem_workers] at inside
      cases worker <;> cases inside
  have counts := accounts.counts
  unfold Counts at counts
  rw [nobody, Set.encard_empty] at counts
  exact absurd counts (by decide)

end Blocxx.ThreadPool
