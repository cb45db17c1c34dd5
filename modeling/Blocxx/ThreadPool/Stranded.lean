import Blocxx.Library.Replay
import Blocxx.ThreadPool.DynamicInvariant

/-!
This file proves that a dynamic pool strands no accepted work in the runs where nobody relies on a
worker that has decided to exit.
-/

namespace Blocxx.ThreadPool
open Library Library.Monitor DynamicSizePoolImpl

variable {Client Work : Type}

/-- Clients never run as workers, and a worker runs between its creation and its end. -/
def Belongs (pool : DynamicSizePoolImpl Work) : Client ⊕ Nat → DynamicCall Work → Prop
  | .inl _, call => ∀ worker, call ≠ .run worker
  | .inr worker, call => call = .run worker ∧ worker < pool.created ∧ worker ∉ pool.ended

/-- The calls in progress are those of the clients and of the workers. -/
structure Lives (state : DynamicState Client Work) : Prop where
  belongs : ∀ thread call point, state.position thread = some (call, point) →
    Belongs state.shared thread call
  ended : ∀ worker ∈ state.shared.ended, worker < state.shared.created

/-- The worker exists and has not decided to exit. -/
structure Undecided (state : DynamicState Client Work) (worker : Nat) : Prop where
  created : worker < state.shared.created
  running : worker ∉ state.shared.ended
  stays : ∀ call, state.position (.inr worker) ≠ some (call, .exiting worker)

/-- The thread will look at the queue: it is an undecided worker, or an `addWork` that still has its
test before it. -/
def Attends (state : DynamicState Client Work) (thread : Client ⊕ Nat) : Prop :=
  (∃ worker, thread = .inr worker ∧ Undecided state worker) ∨
    ∃ call, state.position thread = some (call, .addNotify) ∨
      state.position thread = some (call, .addTest)

/-- Some thread will look at the work that a running pool has. -/
def Attended (state : DynamicState Client Work) : Prop :=
  state.shared.queue ≠ [] → state.shared.shutdown = false → ∃ thread, Attends state thread

/-- Another thread will look at the queue when an `addWork` finds the pool at its maximum, and when
a worker goes on behind an expired wait. -/
structure LeavesAttended (state : DynamicState Client Work)
    (label : Label (Client ⊕ Nat) (DynamicCall Work)) : Prop where
  atMaximum : ∀ thread call, label = .resume thread →
    state.position thread = some (call, .addTest) → state.shared.queue ≠ [] →
      state.shared.shutdown = false → state.shared.maxThreads ≤ state.shared.threads.length →
        ∃ other, other ≠ thread ∧ Attends state other
  expired : ∀ worker call point condition, label = .resume (.inr worker) →
    state.phase (.inr worker) = .woken call point condition .expired → state.shared.queue ≠ [] →
      state.shared.shutdown = false → ∃ other, other ≠ .inr worker ∧ Attends state other

namespace DynamicSizePoolImpl

variable {pool : DynamicSizePoolImpl Work} {call : DynamicCall Work}
  {point : Option (DynamicPoint Work)} {answer : Bool} {ran : DynamicSection Work}

/-- A section creates workers or ends the worker that runs it. -/
theorem DynamicMove.lifecycle (move : DynamicMove pool call point answer ran) :
    pool.created ≤ ran.shared.created ∧ (ran.shared.ended = pool.ended ∨
      ∃ worker, call = .run worker ∧ ran.shared.ended = worker :: pool.ended ∧
        ran.next.position call = none) := by
  cases move with
  | refuse | waitFull | push | notify | rely | sleep | take | giveUp | worked | common =>
      exact ⟨Nat.le_refl _, .inl rfl⟩
  | create => exact ⟨Nat.le_succ _, .inl rfl⟩
  | end_ => exact ⟨Nat.le_refl _, .inr ⟨_, rfl, rfl, rfl⟩⟩

/-- The common functions do not touch the queue, and only a shutdown changes its flag. -/
theorem common_queue {pool : FixedSizePoolImpl Work} {call : Call Work}
    {point : Option (Point Work)} {ran : PoolSection Work}
    (move : FixedSizePoolImpl.CommonMove pool call point answer ran) :
    ran.shared.queue = pool.queue ∧ (ran.shared.shutdown = false → pool.shutdown = false) := by
  cases move with
  | stop => exact ⟨rfl, nofun⟩
  | waitEmpty | empty | already | wakeWorkers | wakeAdders | joinThreads => exact ⟨rfl, id⟩

end DynamicSizePoolImpl

section Steps

variable {pool : DynamicSizePoolImpl Work} {state next : DynamicState Client Work}
  {label : Label (Client ⊕ Nat) (DynamicCall Work)} {thread : Client ⊕ Nat}
  {call : DynamicCall Work} {point : Option (DynamicPoint Work)} {answer : Bool}
  {ran : DynamicSection Work}
  {phase : Client ⊕ Nat → Phase (DynamicCall Work) (DynamicPoint Work) Condition}

/-- A section takes nothing away from the other threads. -/
theorem Belongs.other {thread other : Client ⊕ Nat} {outer : DynamicCall Work}
    (belongs : Belongs pool other outer) (owns : Belongs pool thread call)
    (different : other ≠ thread) (move : DynamicMove pool call point answer ran) :
    Belongs ran.shared other outer := by
  cases other with
  | inl client => exact belongs
  | inr worker =>
      obtain ⟨isRun, created, running⟩ := belongs
      obtain ⟨more, same | ⟨ending, rfl, ends, _⟩⟩ := move.lifecycle
      · exact ⟨isRun, created.trans_le more, by rwa [same]⟩
      · refine ⟨isRun, created.trans_le more, ?_⟩
        cases thread with
        | inl client => exact absurd rfl (owns ending)
        | inr own =>
            obtain rfl : ending = own := by simpa using owns.1
            rw [ends, List.mem_cons, not_or]
            exact ⟨fun same => different (congrArg Sum.inr same), running⟩

/-- A thread takes only the turns that belong to it. -/
theorem Lives.owns (lives : Lives state)
    (begins : Begins state label thread call point answer)
    (scheduled : Scheduled state label) : Belongs state.shared thread call := by
  cases point with
  | none =>
      rw [begins.entered rfl] at scheduled
      cases thread with
      | inl client => exact scheduled
      | inr worker => exact scheduled
  | some point => exact lives.belongs thread call point begins.stands

/-- A thread outside the end of `addWork` does not attend to the queue unless it is a worker. -/
theorem not_attends (begins : Begins state label thread call point answer)
    (owns : Belongs state.shared thread call)
    (client : ∀ worker, call = .run worker → point = some (.exiting worker))
    (stands : point ≠ some .addNotify ∧ point ≠ some .addTest) : ¬ Attends state thread := by
  rintro (⟨worker, rfl, undecided⟩ | ⟨outer, inside | inside⟩)
  · refine undecided.stays call ?_
    rw [begins.stands, client worker owns.1]
    rfl
  · rw [begins.stands] at inside
    cases point with
    | none => cases inside
    | some point => exact stands.1 (by cases inside; rfl)
  · rw [begins.stands] at inside
    cases point with
    | none => cases inside
    | some point => exact stands.2 (by cases inside; rfl)

/-- Whether somebody attends to the queue depends only on the pool and on the positions. -/
theorem Attended.of_same (attended : Attended state) (shared : next.shared = state.shared)
    (position : next.position = state.position) : Attended next := by
  intro some_ running
  rw [shared] at some_ running
  obtain ⟨thread, attends⟩ := attended some_ running
  refine ⟨thread, ?_⟩
  rcases attends with ⟨worker, isWorker, created, ended, stays⟩ | stands
  · refine .inl ⟨worker, isWorker, ?_, ?_, ?_⟩
    · rwa [shared]
    · rwa [shared]
    · rwa [position]
  · refine .inr ?_
    rwa [position]

/-- A thread at the end of `addWork` is in a call of it. -/
theorem adds_of_fits (fits : AllFit state) {point : DynamicPoint Work}
    (stands : state.position thread = some (call, point))
    (isEnd : point = .addNotify ∨ point = .addTest) :
    ∃ work infinite, call = .addWork work infinite := by
  rcases (fits thread).of_position stands with leaves | ⟨condition, timed, waits⟩
  · cases leaves with
    | addNotify work infinite | addTest work infinite => exact ⟨some work, infinite, rfl⟩
    | working | nextWork | exiting | common => rcases isEnd with isEnd | isEnd <;> cases isEnd
  · cases waits <;> rcases isEnd with isEnd | isEnd <;> cases isEnd

variable [DecidableEq Client]

theorem Lives.turn (lives : Lives state) (owns : Belongs state.shared thread call)
    (move : DynamicMove state.shared call point answer ran)
    (delivered : Delivered ran.notices state.phase phase) :
    Lives (state.ran thread call ran phase) := by
  constructor
  · intro other outer here inside
    rw [State.ran_position delivered] at inside
    by_cases own : other = thread
    · subst own
      rw [Function.update_self] at inside
      have same : outer = call := by
        cases goes : ran.next <;> rw [goes] at inside <;> cases inside <;> rfl
      rw [same]
      obtain ⟨more, keeps | ⟨_, _, _, outside⟩⟩ := move.lifecycle
      · cases other with
        | inl client => exact owns
        | inr worker =>
            obtain ⟨isRun, created, running⟩ := owns
            refine ⟨isRun, created.trans_le more, ?_⟩
            show worker ∉ ran.shared.ended
            rwa [keeps]
      · cases outside.symm.trans inside
    · rw [Function.update_of_ne own] at inside
      exact (lives.belongs other outer here inside).other owns own move
  · intro worker member
    obtain ⟨more, keeps | ⟨ending, rfl, ends, _⟩⟩ := move.lifecycle
    · have before : worker ∈ state.shared.ended := by
        rw [← keeps]
        exact member
      exact (lives.ended worker before).trans_le more
    · have before : worker ∈ ending :: state.shared.ended := by
        rw [← ends]
        exact member
      rcases List.mem_cons.mp before with rfl | before
      · cases thread with
        | inl client => exact absurd rfl (owns worker)
        | inr own =>
            obtain rfl : worker = own := by simpa using owns.1
            exact owns.2.1.trans_le more
      · exact (lives.ended worker before).trans_le more

/-- Another thread still attends to the queue after a section. -/
theorem Attends.other {other : Client ⊕ Nat} (attends : Attends state other)
    (owns : Belongs state.shared thread call)
    (move : DynamicMove state.shared call point answer ran)
    (delivered : Delivered ran.notices state.phase phase) (different : other ≠ thread) :
    Attends (state.ran thread call ran phase) other := by
  have position : (state.ran thread call ran phase).position other = state.position other := by
    rw [State.ran_position delivered, Function.update_of_ne different]
  rcases attends with ⟨worker, rfl, undecided⟩ | stands
  · have belongs : Belongs state.shared (.inr worker : Client ⊕ Nat) (.run worker) :=
      ⟨rfl, undecided.created, undecided.running⟩
    obtain ⟨_, created, running⟩ := belongs.other owns different move
    refine .inl ⟨worker, rfl, created, running, ?_⟩
    rw [position]
    exact undecided.stays
  · refine .inr ?_
    rw [position]
    exact stands

/-- A worker that does not exit goes on attending. -/
theorem attends_of_worker {worker : Nat} {here : DynamicPoint Work} (isRun : call = .run worker)
    (owns : Belongs state.shared thread call) (delivered : Delivered ran.notices state.phase phase)
    (created : ran.shared.created = state.shared.created)
    (ended : ran.shared.ended = state.shared.ended)
    (goes : ran.next.position call = some (call, here)) (undecided : here ≠ .exiting worker) :
    Attends (state.ran thread call ran phase) thread := by
  subst isRun
  cases thread with
  | inl client => exact absurd rfl (owns worker)
  | inr own =>
      obtain rfl : worker = own := by simpa using owns.1
      refine .inl ⟨worker, rfl, ?_, ?_, ?_⟩
      · show worker < ran.shared.created
        rw [created]
        exact owns.2.1
      · show worker ∉ ran.shared.ended
        rw [ended]
        exact owns.2.2
      · intro outer
        rw [State.ran_position delivered, Function.update_self, goes]
        intro same
        exact undecided (Prod.mk.inj (Option.some.inj same)).2

/-- An `addWork` that has its test before it attends to the queue. -/
theorem attends_of_adder (delivered : Delivered ran.notices state.phase phase)
    (goes : ran.next.position call = some (call, .addNotify) ∨
      ran.next.position call = some (call, .addTest)) :
    Attends (state.ran thread call ran phase) thread := by
  refine .inr ⟨call, ?_⟩
  rw [State.ran_position delivered, Function.update_self]
  exact goes

/-- The worker that an `addWork` creates attends to the queue. -/
theorem attends_of_created (lives : Lives state) (owns : Belongs state.shared thread call)
    (client : ∀ worker, call ≠ .run worker) (delivered : Delivered ran.notices state.phase phase)
    (created : ran.shared.created = state.shared.created + 1)
    (ended : ran.shared.ended = state.shared.ended) :
    Attends (state.ran thread call ran phase) (.inr state.shared.created) := by
  have fresh : (.inr state.shared.created : Client ⊕ Nat) ≠ thread := by
    rintro rfl
    exact client _ owns.1
  refine .inl ⟨state.shared.created, rfl, ?_, ?_, ?_⟩
  · show state.shared.created < ran.shared.created
    rw [created]
    exact Nat.lt_succ_self _
  · show state.shared.created ∉ ran.shared.ended
    rw [ended]
    intro member
    exact Nat.lt_irrefl _ (lives.ended _ member)
  · intro outer inside
    rw [State.ran_position delivered, Function.update_of_ne fresh] at inside
    exact Nat.lt_irrefl _ (lives.belongs _ _ _ inside).2.1

/-- A section leaves somebody who attends to the queue, under the condition on its step. -/
theorem Attended.turn (attended : Attended state) (lives : Lives state)
    (begins : Begins state label thread call point answer)
    (owns : Belongs state.shared thread call)
    (move : DynamicMove state.shared call point answer ran)
    (leaves : LeavesAttended state label)
    (delivered : Delivered ran.notices state.phase phase) :
    Attended (state.ran thread call ran phase) := by
  have other {attendant : Client ⊕ Nat} (attends : Attends state attendant)
      (different : attendant ≠ thread) :
      ∃ attendant, Attends (state.ran thread call ran phase) attendant :=
    ⟨attendant, attends.other owns move delivered different⟩
  -- A thread that did not attend before leaves everybody who did.
  have stays (some_ : state.shared.queue ≠ []) (running : state.shared.shutdown = false)
      (client : ∀ worker, call = .run worker → point = some (.exiting worker))
      (stands : point ≠ some .addNotify ∧ point ≠ some .addTest) :
      ∃ attendant, Attends (state.ran thread call ran phase) attendant := by
    obtain ⟨attendant, attends⟩ := attended some_ running
    refine other attends ?_
    rintro rfl
    exact not_attends begins owns client stands attends
  intro some_ running
  cases move with
  | refuse stands => exact stays some_ running (fun _ isRun => by cases isRun) stands
  | waitFull stands => exact stays some_ running (fun _ isRun => by cases isRun) stands
  | push opened => exact ⟨thread, attends_of_adder delivered (.inl rfl)⟩
  | notify => exact ⟨thread, attends_of_adder delivered (.inr rfl)⟩
  | create found room => exact ⟨_, attends_of_created lives owns (by simp) delivered rfl rfl⟩
  | rely enough =>
      have full := enough.resolve_left some_
      obtain ⟨attendant, different, attends⟩ := leaves.atMaximum thread _
        (begins.resumed (Option.some_ne_none _)) begins.stands some_ running full
      exact other attends different
  | sleep empty on stands => exact absurd empty some_
  | take found on stands =>
      exact ⟨thread, attends_of_worker rfl owns delivered rfl rfl rfl (by simp)⟩
  | @giveUp worker _ _ why =>
      rcases why with stopped | ⟨_, late⟩
      · cases stopped.symm.trans running
      · obtain ⟨resumes, here, condition, expired⟩ := begins.expired late
        cases thread with
        | inl client => exact absurd rfl (owns worker)
        | inr own =>
            obtain ⟨attendant, different, attends⟩ :=
              leaves.expired own _ here condition resumes expired some_ running
            exact other attends different
  | worked => exact ⟨thread, attends_of_worker rfl owns delivered rfl rfl rfl (by simp)⟩
  | end_ => exact stays some_ running (fun _ same => by cases same; rfl) (by simp)
  | @common _ inner point _ inside isCommon move =>
      obtain ⟨queue, stops⟩ := common_queue move
      have before : state.shared.queue ≠ [] := by
        rw [← queue]
        exact some_
      refine stays before (stops running) ?_ ⟨?_, ?_⟩
      · rintro worker rfl
        cases isCommon
      · cases point <;> simp
      · cases point <;> simp

/-- What a run keeps whose steps leave somebody who attends to the queue. -/
structure Watched (state : DynamicState Client Work) : Prop where
  fits : AllFit state
  lives : Lives state
  attended : Attended state

theorem Watched.step {poolType : PoolType} {maxThreads maxQueueSize : Nat}
    (watched : Watched state)
    (step : (dynamicSystem poolType maxThreads maxQueueSize).step state label next)
    (leaves : LeavesAttended state label) : Watched next := by
  obtain ⟨step, scheduled⟩ := step
  have fits := step.fits program_keeps watched.fits
  have same (shared : next.shared = state.shared) (position : next.position = state.position) :
      Watched next := by
    refine ⟨fits, ⟨?_, ?_⟩, watched.attended.of_same shared position⟩
    · rw [position, shared]
      exact watched.lives.belongs
    · rw [shared]
      exact watched.lives.ended
  cases step with
  | @run label thread call ran phase turn delivered =>
      obtain ⟨point, answer, begins, move⟩ := dynamicTurn_move watched.fits turn
      have owns := watched.lives.owns begins scheduled
      exact ⟨fits, watched.lives.turn owns move delivered,
        watched.attended.turn watched.lives begins owns move leaves delivered⟩
  | rouse asleep => exact same rfl (State.wake_position (by rw [asleep]; rfl))
  | expire asleep => exact same rfl (State.wake_position (by rw [asleep]; rfl))

/-- When a running pool has work and no `addWork` is in progress, some worker has not decided to
exit. -/
def NotStranded (state : DynamicState Client Work) : Prop :=
  state.shared.queue ≠ [] → state.shared.shutdown = false →
    (∀ thread work infinite point, state.position thread ≠ some (.addWork work infinite, point)) →
      ∃ worker, Undecided state worker

/-- No work is stranded in a run whose steps leave somebody who attends to the queue. -/
theorem work_not_stranded {poolType : PoolType} {maxThreads maxQueueSize : Nat}
    {start : DynamicState Client Work}
    {steps : List (TransitionSystem.Transition (DynamicState Client Work)
      (Label (Client ⊕ Nat) (DynamicCall Work)))}
    (initial : (dynamicSystem poolType maxThreads maxQueueSize).initial start)
    (run : (dynamicSystem poolType maxThreads maxQueueSize).Run start steps)
    (leaves : ∀ step ∈ steps, LeavesAttended step.source step.label) :
    ∀ step ∈ steps, NotStranded step.target := by
  obtain rfl := initial
  have new : Watched
      (⟨.new poolType maxThreads maxQueueSize, fun _ => .idle, []⟩ : DynamicState Client Work) :=
    ⟨fun _ => trivial, ⟨nofun, nofun⟩, fun some_ => absurd rfl some_⟩
  have watched := run.invariant (fun _ _ _ => Watched.step) new leaves
  intro step member some_ running quiet
  obtain ⟨fits, lives, attended⟩ := watched step member
  obtain ⟨thread, ⟨worker, _, undecided⟩ | ⟨call, stands⟩⟩ := attended some_ running
  · exact ⟨worker, undecided⟩
  · rcases stands with stands | stands
    · obtain ⟨work, infinite, rfl⟩ := adds_of_fits fits stands (.inl rfl)
      exact absurd stands (quiet thread work infinite _)
    · obtain ⟨work, infinite, rfl⟩ := adds_of_fits fits stands (.inr rfl)
      exact absurd stands (quiet thread work infinite _)

end Steps

/-- A replay of one client and one worker in a pool for at most one thread. -/
def replayOne (labels : List (Label (Unit ⊕ Nat) (DynamicCall Nat))) :
    List (TransitionSystem.Transition (DynamicState Unit Nat)
      (Label (Unit ⊕ Nat) (DynamicCall Nat))) :=
  DynamicSizePoolImpl.program.replay [.inl (), .inr 0]
    ⟨.new .DYNAMIC_SIZE 1 0, fun _ => .idle, []⟩ labels

theorem replayOne_run {labels : List (Label (Unit ⊕ Nat) (DynamicCall Nat))}
    (scheduled : ∀ step ∈ replayOne labels, Scheduled step.source step.label) :
    (dynamicSystem .DYNAMIC_SIZE 1 0).Run ⟨.new .DYNAMIC_SIZE 1 0, fun _ => .idle, []⟩
      (replayOne labels) :=
  (Program.replay_run (fun _ _ => rfl) labels).restrict scheduled

/-- The client adds work, and its `addWork` creates the worker. -/
def firstWork : List (Label (Unit ⊕ Nat) (DynamicCall Nat)) :=
  [.enter (.inl ()) (.addWork (some 1) true), .resume (.inl ()), .resume (.inl ())]

theorem work_not_stranded_firstWork :
    NotStranded ((replayOne firstWork).getLast (by decide)).target := by
  have roomy : ∀ step ∈ replayOne firstWork,
      ¬ step.source.shared.maxThreads ≤ step.source.shared.threads.length := by decide
  have leaves : ∀ step ∈ replayOne firstWork, LeavesAttended step.source step.label := by
    intro step member
    constructor
    · intro _ _ _ _ _ _ full
      exact absurd full (roomy step member)
    · intro worker _ _ _ resumes
      have label := Program.replay_label firstWork step member
      rw [resumes] at label
      simp [firstWork] at label
  exact work_not_stranded rfl (replayOne_run (by decide)) leaves _ (List.getLast_mem _)

/-- The worker takes the first work, waits for more until its wait expires, and decides to exit.
Then the client adds work again. -/
def lateWork : List (Label (Unit ⊕ Nat) (DynamicCall Nat)) :=
  firstWork ++ [.enter (.inr 0) (.run 0), .resume (.inr 0), .resume (.inr 0), .expire (.inr 0),
    .resume (.inr 0), .enter (.inl ()) (.addWork (some 2) true), .resume (.inl ()),
    .resume (.inl ())]

def afterLateWork : DynamicState Unit Nat := ((replayOne lateWork).getLast (by decide)).target

theorem late_work_stranded :
    ¬ ∀ state : DynamicState Unit Nat, (dynamicSystem .DYNAMIC_SIZE 1 0).Reachable state →
      NotStranded state := by
  intro always
  have reached : (dynamicSystem .DYNAMIC_SIZE 1 0).Reachable afterLateWork :=
    (replayOne_run (by decide)).reachable (.initial rfl) _ (List.getLast_mem _)
  have created : afterLateWork.shared.created = 1 := rfl
  have quiet : ∀ thread work infinite point,
      afterLateWork.position thread ≠ some (.addWork work infinite, point) := by
    rintro (client | worker) work infinite point stands
    · cases stands
    · cases worker <;> cases stands
  obtain ⟨worker, undecided⟩ := always afterLateWork reached (by decide) rfl quiet
  have first : worker = 0 := by
    have early := undecided.created
    omega
  subst first
  exact undecided.stays (.run 0) rfl

end Blocxx.ThreadPool
