import Blocxx.Process.Process

/-!
This file proves that a child is neither signalled nor polled after its termination is reported.
-/

namespace Blocxx.Process

open Library Library.Interaction Library.Interaction.Program

/-- The event is a call for the process identifier. -/
def Event.isCall : Event → Bool
  | .pollStatus _ _ => true
  | .kill _ _ _ => true
  | _ => false

def Event.reportsTermination : Event → Bool
  | .pollStatus _ (.ok status) => status.terminated
  | _ => false

/-- No call comes after a report. -/
def Quiet (state : State) : Prop :=
  state.history.Pairwise fun earlier later => earlier.reportsTermination → ¬ later.isCall

def Reported (state : State) : Prop := ∃ event ∈ state.history, event.reportsTermination

/-- The member `m_status` tells whether termination is reported. -/
structure Cached (pid : ProcId) (state : State) : Prop where
  m_pid : state.m_pid = pid
  quiet : Quiet state
  reported : Reported state ↔ state.m_status.terminated
  reaper : state.reaper = none

section Events

variable {state : State} {event : Event} {pid : ProcId}

theorem quiet_happens :
    Quiet (state.happens event) ↔ Quiet state ∧ (Reported state → ¬ event.isCall) := by
  unfold Quiet Reported State.happens
  rw [List.pairwise_append]
  constructor
  · rintro ⟨before, -, across⟩
    refine ⟨before, ?_⟩
    rintro ⟨earlier, mem, reports⟩
    exact across earlier mem event (List.mem_singleton_self event) reports
  · rintro ⟨before, across⟩
    refine ⟨before, List.pairwise_singleton _ _, ?_⟩
    intro earlier mem later last reports
    rw [List.mem_singleton.mp last]
    exact across ⟨earlier, mem, reports⟩

theorem reported_happens :
    Reported (state.happens event) ↔ Reported state ∨ event.reportsTermination := by
  unfold Reported State.happens
  simp only [List.mem_append, List.mem_singleton]
  constructor
  · rintro ⟨reporter, mem | rfl, reports⟩
    · exact .inl ⟨reporter, mem, reports⟩
    · exact .inr reports
  · rintro (⟨reporter, mem, reports⟩ | reports)
    · exact ⟨reporter, .inl mem, reports⟩
    · exact ⟨event, .inr rfl, reports⟩

theorem Cached.happens (cached : Cached pid state)
    (allowed : event.isCall → ¬ state.m_status.terminated) (silent : ¬ event.reportsTermination) :
    Cached pid (state.happens event) := by
  refine ⟨cached.m_pid, quiet_happens.mpr ⟨cached.quiet, ?_⟩, ?_, cached.reaper⟩
  · intro reported called
    exact allowed called (cached.reported.mp reported)
  · rw [reported_happens]
    constructor
    · rintro (reported | reports)
      · exact cached.reported.mp reported
      · exact absurd reports silent
    · intro terminated
      exact .inl (cached.reported.mpr terminated)

/-- The members after the answer of `pollStatus` is assigned. -/
theorem Cached.polled (cached : Cached pid state) (running : ¬ state.m_status.terminated)
    (status : Status) :
    Cached pid { state.happens (.pollStatus state.m_pid (.ok status)) with m_status := status } := by
  have unreported : ¬ Reported state := by
    intro reported
    exact running (cached.reported.mp reported)
  refine ⟨cached.m_pid, quiet_happens.mpr ⟨cached.quiet, ?_⟩, ?_, cached.reaper⟩
  · intro reported
    exact absurd reported unreported
  · show Reported (state.happens _) ↔ _
    rw [reported_happens]
    constructor
    · rintro (reported | reports)
      · exact absurd reported unreported
      · exact reports
    · intro terminated
      exact .inr terminated

end Events

section Process

variable (impl : ProcessImpl) (fuel : Nat) {pid : ProcId}

/-- What a program knows of the process. -/
abbrev Known (pid : ProcId) (before : State → Prop) {Answer : Type} (program : Action Answer)
    (after : Answer → State → Prop) : Prop :=
  Keeps (Cached pid) before program after

theorem updateStatus_outcome (state : State) :
    (updateStatus impl).outcome state =
      match impl.pollStatus state.history state.m_pid with
      | .ok status =>
          (.ok status,
            { state.happens (.pollStatus state.m_pid (.ok status)) with m_status := status })
      | .error error =>
          (.error (.threw error), state.happens (.pollStatus state.m_pid (.error error))) := by
  show (Program.outcome _ _) = _
  unfold updateStatus
  rw [outcome_bind]
  show (match (pollStatus impl state.m_pid >>= _).outcome state with
    | reply => reply) = _
  rw [outcome_bind]
  unfold pollStatus Program.outcome Program.ask ExceptT.run StateT.run
  dsimp only
  cases impl.pollStatus state.history state.m_pid with
  | ok status => rfl
  | error error => rfl

theorem updateStatus_known : Known pid (fun state => ¬ state.m_status.terminated)
    (updateStatus impl) fun status state => status = state.m_status := by
  intro state cached running
  rw [updateStatus_outcome]
  cases impl.pollStatus state.history state.m_pid with
  | ok status =>
      refine ⟨cached.polled running status, ?_⟩
      intro answer returned
      cases returned
      rfl
  | error error =>
      refine ⟨cached.happens (fun _ => running) Bool.false_ne_true, ?_⟩
      intro answer returned
      cases returned

theorem processStatus_known : Known pid (fun _ => True) (processStatus impl)
    fun status state => status = state.m_status := by
  unfold processStatus
  apply Keeps.bind (.get fun state _ _ => rfl)
  intro process
  split
  next running =>
    apply (updateStatus_known impl).suffices_before
    rintro state - rfl terminated
    rw [terminated] at running
    cases running.2
  · apply Keeps.pure
    rintro state - rfl
    rfl

theorem expired_known {before : State → Prop} (stable : ∀ state answer, before state →
    before (state.happens (.expired answer))) :
    Known pid before (expired impl) fun _ => before := by
  apply Keeps.ask
  intro state cached here
  refine ⟨cached.happens ?_ Bool.false_ne_true, ?_⟩
  · intro called
    cases called
  · intro answer _
    exact stable state _ here

theorem terminatesWithin_known : Known pid (fun _ => True) (terminatesWithin impl fuel)
    fun terminated state => terminated = state.m_status.terminated := by
  refine Keeps.repeated (fun _ _ => True) ?_ fuel ()
  intro here
  apply Keeps.bind (expired_known impl fun _ _ _ => trivial)
  intro isExpired
  apply Keeps.bind (.get fun state _ _ => rfl)
  intro process
  split
  next running =>
    apply Keeps.bind
    · apply (updateStatus_known impl).suffices_before
      rintro state - rfl terminated
      rw [terminated] at running
      cases running.2
    · exact fun status => .pure fun _ _ _ => trivial
  · apply Keeps.pure
    rintro state - rfl
    rfl

theorem kill_known (killArg : ProcId) (sig : Int) :
    Known pid (fun state => ¬ state.m_status.terminated) (kill impl killArg sig)
      fun _ _ => True := by
  apply Keeps.ask
  intro state cached running
  refine ⟨cached.happens (fun _ => running) Bool.false_ne_true, ?_⟩
  intro _ _
  trivial

theorem killWait_known (sig : Int) (signame : String) (flag : ETerminationSelectionFlag) :
    Known pid (fun state => ¬ state.m_status.terminated) (killWait impl fuel sig signame flag)
      fun terminated state => terminated = state.m_status.terminated := by
  apply Keeps.bind (.get fun state _ running => running)
  intro process
  apply Keeps.bind (kill_known impl _ sig)
  intro errnum
  split
  · apply Keeps.bind (processStatus_known impl)
    intro status
    split
    next terminated =>
      apply Keeps.pure
      rintro state - rfl
      exact terminated.symm
    · exact .raise
  · exact terminatesWithin_known impl fuel

theorem upr_close_known (pipe : Pipe) :
    Known pid (fun _ => True) (upr_close impl pipe) fun _ _ => True := by
  apply Keeps.ask
  intro state cached _
  split
  · refine ⟨cached.happens ?_ Bool.false_ne_true, fun _ _ => trivial⟩
    intro called
    cases called
  · exact ⟨cached, fun _ _ => trivial⟩

theorem closeStreams_known :
    Known pid (fun _ => True) (closeStreams impl) fun _ _ => True := by
  apply Keeps.bind (upr_close_known impl .m_in)
  intro _
  apply Keeps.bind (upr_close_known impl .m_out)
  intro _
  exact upr_close_known impl .m_err

/-- A step that is left out answers that the process did not terminate. -/
theorem skipped_known : Known pid (fun state => ¬ state.m_status.terminated)
    (return false : Action Bool) fun terminated state => terminated = state.m_status.terminated := by
  apply Keeps.pure
  intro state _ running
  exact (Bool.eq_false_of_not_eq_true running).symm

theorem waitInitial_known (wait_initial : Timeout) :
    Known pid (fun state => ¬ state.m_status.terminated) (waitInitial impl fuel wait_initial)
      fun terminated state => terminated = state.m_status.terminated := by
  unfold waitInitial
  split
  · exact (terminatesWithin_known impl fuel).suffices_before fun _ _ _ => trivial
  · exact skipped_known

theorem waitClosed_known (wait_close : Timeout) :
    Known pid (fun state => ¬ state.m_status.terminated) (waitClosed impl fuel wait_close)
      fun terminated state => terminated = state.m_status.terminated := by
  unfold waitClosed
  split
  · apply Keeps.bind ((closeStreams_known impl).suffices_before fun _ _ _ => trivial)
    exact fun _ => terminatesWithin_known impl fuel
  · exact skipped_known

theorem waitTerm_known (wait_term : Timeout) (flag : ETerminationSelectionFlag) :
    Known pid (fun state => ¬ state.m_status.terminated) (waitTerm impl fuel wait_term flag)
      fun terminated state => terminated = state.m_status.terminated := by
  unfold waitTerm
  split
  · exact killWait_known impl fuel SIGTERM "SIGTERM" flag
  · exact skipped_known

/-- A step of `waitCloseTerm` is followed by the next one unless the process terminated. -/
theorem step_known {before after : State → Prop} {step : Action Bool} {next : Action Unit}
    (first : Known pid before step fun terminated state => terminated = state.m_status.terminated)
    (stops : ∀ state, state.m_status.terminated → after state)
    (rest : Known pid (fun state => ¬ state.m_status.terminated) next fun _ => after) :
    Known pid before (do if (← step) then return () else next) fun _ => after := by
  apply Keeps.bind first
  intro terminated
  split
  next yes =>
    apply Keeps.pure
    intro state _ same
    exact stops state (same.symm.trans yes)
  next no =>
    apply rest.suffices_before
    intro state _ same running
    exact no (same.trans running)

theorem waitCloseTerm_known (wait_initial wait_close wait_term : Timeout)
    (flag : ETerminationSelectionFlag) :
    Known pid (fun _ => True)
      (waitCloseTerm impl fuel wait_initial wait_close wait_term flag)
      fun _ state => state.m_pid < 0 ∨ state.m_status.terminated := by
  apply Keeps.bind (.get fun state _ _ => rfl)
  intro process
  split
  next negative =>
    apply Keeps.pure
    rintro state - rfl
    exact .inl negative
  · apply Keeps.bind ((processStatus_known impl).suffices_before fun _ _ _ => trivial)
    intro status
    split
    next terminated =>
      apply Keeps.pure
      rintro state - rfl
      exact .inr terminated
    next running =>
      split
      · exact .raise
      · have stops : ∀ state : State, state.m_status.terminated →
            state.m_pid < 0 ∨ state.m_status.terminated := fun _ => .inr
        have running_now (state : State) (_ : Cached pid state)
            (same : status = state.m_status) : ¬ state.m_status.terminated := same ▸ running
        refine Keeps.suffices_before ?_ running_now
        apply step_known (waitInitial_known impl fuel wait_initial) stops
        apply step_known (waitClosed_known impl fuel wait_close) stops
        apply step_known (waitTerm_known impl fuel wait_term flag) stops
        apply step_known (killWait_known impl fuel SIGKILL "SIGKILL" flag) stops
        exact .raise

end Process

section ZombieReaper

variable (impl : ProcessImpl) (fuel : Nat) {pid : ProcId}

theorem pollStatus_quiet (m_pid : ProcId) :
    Keeps Quiet (fun state => ¬ Reported state) (pollStatus impl m_pid)
      fun status state => Reported state ↔ status.terminated := by
  apply Keeps.ask
  intro state quiet unreported
  refine ⟨quiet_happens.mpr ⟨quiet, fun reported => absurd reported unreported⟩, ?_⟩
  intro status answered
  rw [reported_happens]
  dsimp only at answered
  rw [answered]
  constructor
  · rintro (reported | reports)
    · exact absurd reported unreported
    · exact reports
  · exact .inr

theorem kill_unreported (m_pid : ProcId) (sig : Int) :
    Keeps (fun state => Quiet state ∧ ¬ Reported state) (fun _ => True) (kill impl m_pid sig)
      fun _ state => ¬ Reported state := by
  apply Keeps.ask
  rintro state ⟨quiet, unreported⟩ -
  have still : ¬ Reported (state.happens (.kill m_pid sig (impl.kill state.history m_pid sig))) := by
    rw [reported_happens]
    rintro (reported | reports)
    · exact unreported reported
    · cases reports
  refine ⟨⟨quiet_happens.mpr ⟨quiet, fun reported => absurd reported unreported⟩, still⟩, ?_⟩
  intro _ _
  exact still

/-- The reaper goes on only while its last answer is not a termination. -/
theorem zombieReaperBody_quiet (m_pid : ProcId) (here : Status × Nat) :
    Keeps Quiet (fun state => Reported state ↔ here.1.terminated)
      (zombieReaperBody impl m_pid here)
      (Leaves (fun later state => Reported state ↔ later.1.terminated) fun _ _ => True) := by
  unfold zombieReaperBody
  split
  · exact .pure fun _ _ _ => trivial
  next running =>
    have signalled : Keeps Quiet (fun state => Reported state ↔ here.1.terminated)
        (handle (kill impl m_pid (if here.2 < MAX_ZOMBIE_POLL_ATTEMPTS then SIGTERM else SIGKILL))
          fun _ => return 0) fun _ state => ¬ Reported state := by
      apply Keeps.suffices_before
      · apply Keeps.handle (kill_unreported impl m_pid _) (fun _ both => both.1)
        exact fun _ => .pure fun _ _ both => both.2
      · intro state quiet same
        exact ⟨⟨quiet, fun reported => running (same.mp reported)⟩, trivial⟩
    · apply Keeps.bind signalled
      intro _
      apply Keeps.bind (pollStatus_quiet impl m_pid)
      exact fun status => .pure fun _ _ same => same

theorem zombieReaperRun_quiet (m_pid : ProcId) :
    Keeps Quiet (fun state => ¬ Reported state) (zombieReaperRun impl fuel m_pid)
      fun _ _ => True := by
  apply Keeps.bind (pollStatus_quiet impl m_pid)
  intro status
  refine Keeps.repeated (fun here state => Reported state ↔ here.1.terminated) ?_ fuel (status, 0)
  exact zombieReaperBody_quiet impl m_pid

end ZombieReaper

section Lifetime

variable (impl : ProcessImpl) (fuel : Nat) {pid : ProcId}

/-- The reaper is given a process only while its termination is not reported. -/
structure Handed (pid : ProcId) (state : State) : Prop where
  m_pid : state.m_pid = pid
  quiet : Quiet state
  reaper : state.reaper ≠ none → ¬ Reported state

theorem Cached.handed {state : State} (cached : Cached pid state) : Handed pid state :=
  ⟨cached.m_pid, cached.quiet, fun handed => absurd cached.reaper handed⟩

theorem preventZombie_handed :
    Keeps (Handed pid) (Cached pid) (preventZombie impl)
      fun _ state => Reported state ∨ state.reaper = some pid := by
  have read : Keeps (Handed pid) (Cached pid) (get : Action State)
      fun answer state => answer = state ∧ Cached pid state := .get fun _ _ cached => ⟨rfl, cached⟩
  apply Keeps.bind read
  intro process
  split
  next terminated =>
    apply Keeps.pure
    rintro state - ⟨rfl, cached⟩
    exact .inl (cached.reported.mpr terminated)
  next running =>
    have added : Keeps (Handed pid) (fun state => process = state ∧ Cached pid state)
        (addWork impl process.m_pid) fun _ state => Reported state ∨ state.reaper = some pid := by
      apply Keeps.ask
      rintro state - ⟨rfl, cached⟩
      have happened : Cached pid (process.happens (.addWork process.m_pid
          (impl.addWork process.history process.m_pid))) :=
        cached.happens (fun called => by cases called) Bool.false_ne_true
      refine ⟨⟨cached.m_pid, happened.quiet, ?_⟩, ?_⟩
      · rintro - reported
        exact running (happened.reported.mp reported)
      · intro _ _
        exact .inr (congrArg some cached.m_pid)
    apply Keeps.bind added
    exact fun _ => .pure fun _ _ done => done

theorem destructor_handed :
    Keeps (Handed pid) (Cached pid) (destructor impl fuel)
      fun _ state => 0 ≤ pid → Reported state ∨ state.reaper = some pid := by
  have read : Keeps (Handed pid) (Cached pid) (get : Action State)
      fun answer state => answer = state ∧ Cached pid state := .get fun _ _ cached => ⟨rfl, cached⟩
  apply Keeps.bind read
  intro process
  split
  next negative =>
    apply Keeps.pure
    rintro state - ⟨rfl, cached⟩ nonnegative
    rw [cached.m_pid] at negative
    exact absurd nonnegative (not_le.mpr negative)
  · have waited : Known pid (fun _ => True) (waitCloseTerm impl fuel ⟨.relative, 0⟩ ⟨.relative, 1⟩
        ⟨.relative, 5⟩ .terminateProcessGroup)
        fun _ state => 0 ≤ pid → Reported state ∨ state.reaper = some pid := by
      apply (waitCloseTerm_known impl fuel _ _ _ _).weaken fun _ _ _ => trivial
      rintro _ state cached (negative | terminated) nonnegative
      · rw [cached.m_pid] at negative
        exact absurd nonnegative (not_le.mpr negative)
      · exact .inl (cached.reported.mpr terminated)
    apply Keeps.suffices_before
    · apply Keeps.handle waited (fun _ => Cached.handed)
      intro _
      exact (preventZombie_handed impl).weaken (fun _ _ cached => cached) fun _ _ _ done _ => done
    · rintro state - ⟨rfl, cached⟩
      exact ⟨cached, trivial⟩

theorem perform_known (operation : Operation) :
    Known pid (fun _ => True) (perform impl fuel operation) fun _ _ => True := by
  cases operation with
  | processStatus =>
      apply Keeps.bind (processStatus_known impl)
      exact fun _ => .pure fun _ _ _ => trivial
  | waitCloseTerm wait_initial wait_close wait_term flag =>
      exact (waitCloseTerm_known impl fuel wait_initial wait_close wait_term flag).weaken
        (fun _ _ _ => trivial) fun _ _ _ _ => trivial

theorem callAll_known (operations : List Operation) :
    Known pid (fun _ => True) (callAll impl fuel operations) fun _ _ => True := by
  induction operations with
  | nil => exact .pure fun _ _ _ => trivial
  | cons operation operations ih =>
      apply Keeps.bind
      · apply Keeps.suffices_before
        · apply Keeps.handle (perform_known impl fuel operation) (fun _ kept => kept)
          exact fun _ => .pure fun _ _ _ => trivial
        · exact fun _ cached _ => ⟨cached, trivial⟩
      · exact fun _ => ih

theorem runReaper_quiet :
    Keeps Quiet (Handed pid) (runReaper impl fuel) fun _ _ => True := by
  have read : Keeps Quiet (Handed pid) (get : Action State)
      fun answer state => answer = state ∧ Handed pid state := .get fun _ _ handed => ⟨rfl, handed⟩
  apply Keeps.bind read
  intro process
  split
  · exact .pure fun _ _ _ => trivial
  next reaper m_pid given =>
    apply (zombieReaperRun_quiet impl fuel m_pid).suffices_before
    rintro state - ⟨rfl, handed⟩
    exact handed.reaper (by rw [given]; exact Option.some_ne_none _)

theorem lifetime_quiet (operations : List Operation) :
    Keeps Quiet (Cached pid) (lifetime impl fuel operations) fun _ _ => True := by
  apply Keeps.bind
  · apply Keeps.suffices_before ((callAll_known impl fuel operations).under fun _ => Cached.quiet)
    exact fun _ _ cached => ⟨cached, trivial⟩
  · intro _
    have destroyed : Keeps (Handed pid) (Cached pid) (destructor impl fuel)
        fun _ state => Handed pid state :=
      (destructor_handed impl fuel).weaken (fun _ _ cached => cached) fun _ _ handed _ => handed
    apply Keeps.bind
    · apply Keeps.suffices_before
      · apply Keeps.handle destroyed (fun _ => Handed.quiet)
        exact fun _ => .pure fun _ _ handed => handed
      · exact fun _ _ both => ⟨both.1.handed, both.1⟩
    · exact fun _ => runReaper_quiet impl fuel

theorem cached_construct (m_pipe : Pipe → Bool) (pid : ProcId) :
    Cached pid (construct m_pipe pid) := by
  refine ⟨rfl, .nil, ?_, rfl⟩
  constructor
  · rintro ⟨event, mem, -⟩
    cases mem
  · intro terminated
    cases terminated

/-- After any calls, whether or not the destructor and the reaper run too, no call for the process
comes after the report of its termination. A normal end of `waitCloseTerm` or of the destructor
tells what is known or done by then. -/
theorem reaped_never_called (m_pipe : Pipe → Bool) (pid : ProcId) (operations : List Operation) :
    let called := ((callAll impl fuel operations).outcome (construct m_pipe pid)).2
    Quiet called ∧ Quiet ((lifetime impl fuel operations).outcome (construct m_pipe pid)).2 ∧
      (∀ wait_initial wait_close wait_term terminationSelectionFlag,
        let ended := (waitCloseTerm impl fuel wait_initial wait_close wait_term
          terminationSelectionFlag).outcome called
        Quiet ended.2 ∧
          ∀ answer, ended.1 = .ok answer → ended.2.m_pid < 0 ∨ ended.2.m_status.terminated) ∧
      let ended := (destructor impl fuel).outcome called
      ∀ answer, ended.1 = .ok answer → 0 ≤ pid → Reported ended.2 ∨ ended.2.reaper = some pid := by
  have new := cached_construct m_pipe pid
  obtain ⟨called, -⟩ := callAll_known impl fuel operations (construct m_pipe pid) new trivial
  refine ⟨called.quiet, ?_, ?_, ?_⟩
  · exact (lifetime_quiet impl fuel operations (construct m_pipe pid) new.quiet new).1
  · intro wait_initial wait_close wait_term flag
    have known := waitCloseTerm_known impl fuel wait_initial wait_close wait_term flag _ called
      trivial
    exact ⟨known.1.quiet, known.2⟩
  · exact (destructor_handed impl fuel _ called.handed called).2

end Lifetime

end Blocxx.Process
