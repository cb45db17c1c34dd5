import Blocxx.SelectEngine.Table

/-!
This file proves which runs of `SelectEngine` invoke only callbacks that are registered.
-/

namespace Blocxx.SelectEngine

open Library SortedVectorMap Select

variable {Callback : Type} (grow : Nat → Nat)

/-- The table has the object for the event. -/
def Serves (engine : Engine Callback) (obj : Int) (event : EEventType) : Prop :=
  ∃ data, engine.used obj = some data ∧ includes data.eventType event = true

/-- The iterator is at the object, or at the end when the table does not have the object. -/
def Session.At (session : Session Callback) (obj : Int) (position : Nat) : Prop :=
  session.engine.m_table[position]? = (session.engine.used obj).map fun data => (obj, data)

theorem Session.Faithful.at_find {session : Session Callback} (faithful : session.Faithful)
    (obj : Int) : session.At obj (find descriptors session.engine.m_table obj) := by
  rw [Session.At]
  cases used : session.engine.used obj with
  | none => exact Option.map_eq_none_iff.mp used
  | some data => exact find_of_mem faithful.sorted ((used_eq_some_iff faithful.sorted).mp used)

section Selected

variable {session : Session Callback} {position : Nat} {obj : Int} {event : EEventType}
  {behaviour : Behaviour Callback}

theorem Session.allGood_of_performAll (calls : List (Call Callback))
    (good : (calls.foldl (Session.perform grow) session).AllGood) : session.AllGood := by
  induction calls generalizing session with
  | nil => exact good
  | cons call calls ih =>
      have before := ih good
      cases call with
      | addSelectableObject other cb eventType => exact (List.forall_mem_cons.mp before).2
      | removeSelectableObject other eventType => exact before
      | stop => exact before

theorem selected_absent (place : session.At obj position)
    (absent : session.engine.used obj = none) :
    Body.selected grow ⟨session, some position, false⟩ true event behaviour = none := by
  rw [Session.At, absent] at place
  simp only [Body.selected, place]
  rfl

/-- The session in which the invoked callback starts. -/
def Session.invoke (session : Session Callback) (obj : Int) (data : Data Callback)
    (event : EEventType) : Session Callback :=
  { session with
    events := .selected data.callback event (session.registered obj) :: session.events }

theorem selected_present {data : Data Callback} (place : session.At obj position)
    (present : session.engine.used obj = some data) :
    Body.selected grow ⟨session, some position, false⟩ true event behaviour =
      some
        { session := behaviour.calls.foldl (Session.perform grow) (session.invoke obj data event)
          iter :=
            if survives grow position session.engine behaviour.calls then some position else none
          threw := behaviour.throws } := by
  rw [Session.At, present] at place
  simp only [Body.selected, place]
  rfl

theorem allGood_invoke_iff (event : EEventType) {data : Data Callback} (faithful : session.Faithful)
    (present : session.engine.used obj = some data) :
    (session.invoke obj data event).AllGood ↔
      session.AllGood ∧ Serves session.engine obj event := by
  show (∀ e ∈ Event.selected data.callback event (session.registered obj) :: session.events,
    e.Good) ↔ _
  rw [List.forall_mem_cons, and_comm, ← faithful.used]
  apply and_congr_right
  intro _
  constructor
  · rintro ⟨found, registered, -, covers⟩
    exact ⟨found, registered, covers⟩
  · rintro ⟨found, registered, covers⟩
    rw [present] at registered
    cases registered
    exact ⟨data, present, rfl, covers⟩

/-- An invocation keeps the events good exactly when the table has the object for the event and
the additions of the callback repeat. -/
theorem selected_good_iff (event : EEventType) (behaviour : Behaviour Callback)
    (faithful : session.Faithful) (good : session.AllGood)
    (place : session.At obj position) :
    (∃ after, Body.selected grow ⟨session, some position, false⟩ true event behaviour =
        some after ∧ after.session.AllGood) ↔
      Serves session.engine obj event ∧ AllRepeat grow session.engine behaviour.calls := by
  cases present : session.engine.used obj with
  | none =>
      rw [selected_absent grow place present]
      constructor
      · rintro ⟨after, impossible, -⟩
        cases impossible
      · rintro ⟨⟨data, used, -⟩, -⟩
        rw [present] at used
        cases used
  | some data =>
      rw [selected_present grow place present]
      have invoked := allGood_invoke_iff event faithful present
      have performed : (behaviour.calls.foldl (Session.perform grow)
          (session.invoke obj data event)).AllGood ↔
            (session.invoke obj data event).AllGood ∧
              AllRepeat grow session.engine behaviour.calls :=
        Session.allGood_performAll_iff grow behaviour.calls faithful.sorted
      constructor
      · rintro ⟨after, same, afterGood⟩
        cases same
        have both := performed.mp afterGood
        exact ⟨(invoked.mp both.1).2, both.2⟩
      · rintro ⟨serves, repeats⟩
        exact ⟨_, rfl, performed.mpr ⟨invoked.mpr ⟨good, serves⟩, repeats⟩⟩

theorem selected_allGood_before {body after : Body Callback} {available : Bool}
    (run : body.selected grow available event behaviour = some after)
    (good : after.session.AllGood) : body.session.AllGood := by
  rw [Body.selected] at run
  split at run
  · cases run
    exact good
  · split at run
    · cases run
    · split at run
      · cases run
      · cases run
        exact (List.forall_mem_cons.mp (Session.allGood_of_performAll grow behaviour.calls good)).2

/-- An invocation with good events keeps the table equal to what is registered. -/
theorem selected_faithful {body after : Body Callback} {available : Bool}
    (faithful : body.session.Faithful)
    (run : body.selected grow available event behaviour = some after)
    (good : after.session.AllGood) : after.session.Faithful := by
  rw [Body.selected] at run
  split at run
  · cases run
    exact faithful
  · split at run
    · cases run
    · split at run
      · cases run
      · cases run
        have repeats := (Session.allGood_performAll_iff grow behaviour.calls (by exact
          faithful.sorted)).mp good
        exact Session.Faithful.performAll grow (by exact faithful) repeats.2

/-- After an invocation the iterator is still at the object exactly when all changes were behind
it. -/
theorem selected_after (faithful : session.Faithful) (place : session.At obj position)
    (repeats : AllRepeat grow session.engine behaviour.calls) {after : Body Callback}
    (run : Body.selected grow ⟨session, some position, false⟩ true event behaviour = some after) :
    after.threw = behaviour.throws ∧
      after.session.engine = behaviour.calls.foldl (Call.run grow) session.engine ∧
      (AllStayBehind grow obj session.engine behaviour.calls →
        after.iter = some position ∧ after.session.At obj position ∧
          after.session.engine.used obj = session.engine.used obj) ∧
      (¬ AllStayBehind grow obj session.engine behaviour.calls → after.iter = none) := by
  cases present : session.engine.used obj with
  | none =>
      rw [selected_absent grow place present] at run
      cases run
  | some data =>
      rw [selected_present grow place present] at run
      cases run
      have invoked : (session.invoke obj data event).Faithful := faithful
      have after := invoked.performAll grow repeats
      have engine := Session.performAll_engine grow behaviour.calls (session.invoke obj data event)
      have here : session.engine.m_table[position]? = some (obj, data) := by
        rw [place, present]
        rfl
      have valid := survives_iff grow behaviour.calls faithful.sorted here
      refine ⟨rfl, engine, ?_, ?_⟩
      · intro behind
        have stays := behind.getElem? grow behaviour.calls faithful.sorted here
        have used : (behaviour.calls.foldl (Session.perform grow)
            (session.invoke obj data event)).engine.used obj = some data := by
          rw [used_eq_some_iff after.sorted, engine]
          exact List.mem_of_getElem? stays
        refine ⟨if_pos (valid.mpr behind), ?_, used⟩
        rw [Session.At, used, engine]
        exact stays
      · intro notBehind
        exact if_neg (mt valid.mp notBehind)

end Selected

section Dispatch

/-- The table has the object for each event that its callback is invoked for, additions repeat, and
the changes between two invocations stay behind the object. -/
def DispatchSound (engine : Engine Callback) (selObj : SelectObject)
    (read write : Behaviour Callback) : Prop :=
  (selObj.readAvailable = true →
    Serves engine selObj.s E_READ_EVENT ∧ AllRepeat grow engine read.calls) ∧
  (selObj.writeAvailable = true → (selObj.readAvailable = true → read.throws = false) →
    Serves engine selObj.s E_WRITE_EVENT ∧
      (selObj.readAvailable = true → AllStayBehind grow selObj.s engine read.calls) ∧
      AllRepeat grow (if selObj.readAvailable = true then read.calls.foldl (Call.run grow) engine
        else engine) write.calls)

variable {session : Session Callback} {selObj : SelectObject} {read write : Behaviour Callback}

theorem selected_skip (body : Body Callback) (event : EEventType)
    (behaviour : Behaviour Callback) {available : Bool}
    (skips : available = false ∨ body.threw = true) :
    body.selected grow available event behaviour = some body := by
  rw [Body.selected, if_pos skips]

/-- The second invocation for an entry comes after the first one has changed the table. -/
theorem dispatch_both_iff (faithful : session.Faithful) (good : session.AllGood)
    (reads : selObj.readAvailable = true) (writes : selObj.writeAvailable = true)
    (continues : read.throws = false) :
    (∃ body, session.dispatch grow selObj read write = some body ∧ body.session.AllGood) ↔
      (Serves session.engine selObj.s E_READ_EVENT ∧
        AllRepeat grow session.engine read.calls) ∧
      Serves session.engine selObj.s E_WRITE_EVENT ∧
      AllStayBehind grow selObj.s session.engine read.calls ∧
      AllRepeat grow (read.calls.foldl (Call.run grow) session.engine) write.calls := by
  have place := faithful.at_find selObj.s
  have first := selected_good_iff grow E_READ_EVENT read faithful good place
  simp only [Session.dispatch, reads, writes, Option.bind_eq_some_iff]
  constructor
  · rintro ⟨body, ⟨middle, before, run⟩, bodyGood⟩
    have middleGood := selected_allGood_before grow run bodyGood
    have sound := first.mp ⟨middle, before, middleGood⟩
    have middleFaithful := selected_faithful grow faithful before middleGood
    obtain ⟨threw, engine, kept, lost⟩ := selected_after grow faithful place sound.2 before
    obtain ⟨middleSession, iter, threw'⟩ := middle
    simp only at middleFaithful threw engine kept lost middleGood
    subst threw
    rw [continues] at run
    by_cases behind : AllStayBehind grow selObj.s session.engine read.calls
    · obtain ⟨rfl, middlePlace, used⟩ := kept behind
      have second := (selected_good_iff grow E_WRITE_EVENT write
        middleFaithful middleGood middlePlace).mp ⟨body, run, bodyGood⟩
      rw [Serves, used, engine] at second
      exact ⟨sound, second.1, behind, second.2⟩
    · rw [lost behind] at run
      cases run
  · rintro ⟨sound, serves, behind, repeats⟩
    obtain ⟨middle, before, middleGood⟩ := first.mpr sound
    have middleFaithful := selected_faithful grow faithful before middleGood
    obtain ⟨threw, engine, kept, -⟩ := selected_after grow faithful place sound.2 before
    obtain ⟨sameIter, middlePlace, used⟩ := kept behind
    obtain ⟨middleSession, iter, threw'⟩ := middle
    simp only at middleFaithful threw engine sameIter middlePlace used middleGood
    subst threw sameIter
    have second := (selected_good_iff grow E_WRITE_EVENT write
      middleFaithful middleGood middlePlace).mpr
    rw [Serves, used, engine] at second
    obtain ⟨body, run, bodyGood⟩ := second ⟨serves, repeats⟩
    rw [continues] at before
    exact ⟨body, ⟨_, before, run⟩, bodyGood⟩

theorem selected_threw {session : Session Callback} {position : Nat} {event : EEventType}
    {behaviour : Behaviour Callback} {after : Body Callback}
    (run : Body.selected grow ⟨session, some position, false⟩ true event behaviour = some after) :
    after.threw = behaviour.throws := by
  simp only [Body.selected, Bool.true_eq_false, Bool.false_eq_true, or_self, if_false] at run
  split at run
  · cases run
  · cases run
    rfl

/-- A second part that changes nothing can be left out. -/
theorem bind_skip {Value : Type} {first : Option Value} {next : Value → Option Value}
    (skips : ∀ value, first = some value → next value = some value) : first.bind next = first := by
  cases first with
  | none => rfl
  | some value => exact skips value rfl

/-- The handling of an entry keeps the events good exactly under the condition. -/
theorem dispatch_good_iff (selObj : SelectObject) (read write : Behaviour Callback)
    (faithful : session.Faithful) (good : session.AllGood) :
    (∃ body, session.dispatch grow selObj read write = some body ∧ body.session.AllGood) ↔
      DispatchSound grow session.engine selObj read write := by
  have place := faithful.at_find selObj.s
  have only (event : EEventType) (behaviour : Behaviour Callback) :=
    selected_good_iff grow event behaviour faithful good place
  cases reads : selObj.readAvailable with
  | false =>
      simp only [DispatchSound, Session.dispatch, reads, Bool.false_eq_true, false_imp_iff,
        true_and, if_false, forall_true_left,
        selected_skip grow _ E_READ_EVENT read (Or.inl rfl), Option.bind_some]
      cases writes : selObj.writeAvailable with
      | false =>
          rw [selected_skip grow _ E_WRITE_EVENT write (Or.inl rfl)]
          simp [good]
      | true =>
          rw [only]
          simp
  | true =>
      by_cases second : selObj.writeAvailable = true ∧ read.throws = false
      · obtain ⟨writes, continues⟩ := second
        rw [dispatch_both_iff grow faithful good reads writes continues]
        simp [DispatchSound, reads, writes, continues]
      · have none : DispatchSound grow session.engine selObj read write ↔
            Serves session.engine selObj.s E_READ_EVENT ∧
              AllRepeat grow session.engine read.calls := by
          simp only [DispatchSound, reads, forall_true_left]
          apply and_iff_left
          intro writes continues
          exact absurd ⟨writes, continues⟩ second
        rw [none, ← only]
        simp only [Session.dispatch, reads]
        rw [bind_skip]
        intro middle before
        apply selected_skip
        by_contra neither
        rw [not_or, Bool.not_eq_false, Bool.not_eq_true] at neither
        refine second ⟨neither.1, ?_⟩
        rw [← selected_threw grow before]
        exact neither.2

/-- A good handling of an entry keeps the table equal to what is registered. -/
theorem dispatch_faithful {body : Body Callback} (faithful : session.Faithful)
    (run : session.dispatch grow selObj read write = some body) (good : body.session.AllGood) :
    body.session.Faithful := by
  obtain ⟨middle, before, after⟩ := Option.bind_eq_some_iff.mp run
  have middleGood := selected_allGood_before grow after good
  exact selected_faithful grow (selected_faithful grow faithful before middleGood) after good

end Dispatch

/-- Only callbacks that are registered for the event are invoked, through valid iterators, and an
addition is what is used after it. -/
def CallsOnlyLive (state : State Callback) : Prop :=
  state.point ≠ .undefinedBehaviour ∧ state.session.AllGood

/-- The calls on the engine are sound for its table before the step. -/
def Label.Sound (state : State Callback) : Label Callback → Prop
  | .call made => made.Repeats state.session.engine
  | .dispatch read write =>
      match state.point with
      | .innerLoop _ (selObj :: _) =>
          DispatchSound grow state.session.engine selObj read write
      | _ => True
  | _ => True

/-- The invariant of the sound steps. -/
def Sound (state : State Callback) : Prop := CallsOnlyLive state ∧ state.session.Faithful

theorem initial_sound {start : State Callback} (initial : Initial start) : Sound start := by
  obtain ⟨outside, noEvents, sorted, -, registered⟩ := initial
  refine ⟨⟨?_, ?_⟩, sorted, fun mapping => registered mapping.1 mapping.2⟩
  · rw [outside]
    exact Point.noConfusion
  · rw [Session.AllGood, noEvents]
    exact List.forall_mem_nil _

/-- An entry is handled at the inner loop only, when it is available. -/
theorem dispatch_enabled {state next : State Callback} {read write : Behaviour Callback}
    (taken : state.next grow (.dispatch read write) = some next) :
    ∃ selected selObj rest, state.point = .innerLoop selected (selObj :: rest) ∧
      0 < selected ∧ (selObj.readAvailable || selObj.writeAvailable) = true := by
  simp only [State.next] at taken
  split at taken
  · next selected selObj rest place =>
      split at taken
      · next enabled => exact ⟨selected, selObj, rest, place, enabled⟩
      · cases taken
  · cases taken

/-- A sound state stays sound exactly by a sound step. -/
theorem next_sound_iff {state next : State Callback} {label : Label Callback}
    (sound : Sound state) (taken : state.next grow label = some next) :
    (CallsOnlyLive next ↔ label.Sound grow state) ∧ (CallsOnlyLive next → Sound next) := by
  obtain ⟨⟨defined, good⟩, faithful⟩ := sound
  -- all steps but two leave the table and the events, and reach a defined point
  have quiet {same : Session Callback} {point : Point} (events : same.events = state.session.events)
      (table : same.engine.m_table = state.session.engine.m_table)
      (registered : same.registered = state.session.registered)
      (reached : point ≠ .undefinedBehaviour) : Sound ⟨same, point⟩ := by
    refine ⟨⟨reached, ?_⟩, ?_⟩
    · rw [Session.AllGood, events]
      exact good
    · rw [Session.Faithful, table, registered]
      exact faithful
  have settled {label : Label Callback} (free : label.Sound grow state) (reached : Sound next) :
      (CallsOnlyLive next ↔ label.Sound grow state) ∧ (CallsOnlyLive next → Sound next) :=
    ⟨iff_of_true reached.1 free, fun _ => reached⟩
  cases label with
  | call made =>
      cases place : state.point with
      | outside ended =>
          simp only [State.next, place, Option.some.injEq] at taken
          subst taken
          have performed := state.session.allGood_perform_iff grow faithful.sorted made
          have live : CallsOnlyLive ⟨state.session.perform grow made, state.point⟩ ↔
              made.Repeats state.session.engine := by
            rw [CallsOnlyLive, performed, and_iff_right defined, and_iff_right good]
          rw [place] at live
          refine ⟨live, fun good => ⟨good, faithful.perform grow (live.mp good)⟩⟩
      | _ => simp [State.next, place] at taken
  | go =>
      refine settled trivial ?_
      cases place : state.point with
      | outside ended =>
          simp only [State.next, place, Option.some.injEq] at taken
          subst taken
          exact quiet rfl rfl rfl Point.noConfusion
      | loopHead =>
          simp only [State.next, place, Option.some.injEq] at taken
          subst taken
          refine quiet rfl rfl rfl ?_
          split <;> exact Point.noConfusion
      | innerLoop selected rest =>
          have finished : Sound state.finishRound := by
            refine quiet rfl rfl rfl ?_
            split <;> exact Point.noConfusion
          cases rest with
          | nil =>
              simp only [State.next, place, Option.some.injEq] at taken
              subst taken
              exact finished
          | cons selObj rest =>
              simp only [State.next, place] at taken
              split at taken
              · cases taken
                exact finished
              · split at taken
                · cases taken
                · cases taken
                  exact quiet rfl rfl rfl Point.noConfusion
      | selecting selObjs => simp [State.next, place] at taken
      | undefinedBehaviour => simp [State.next, place] at taken
  | selectRW rc readAvailable writeAvailable wasError =>
      refine settled trivial ?_
      cases place : state.point with
      | selecting selObjs =>
          simp only [State.next, place, Option.some.injEq] at taken
          subst taken
          refine quiet rfl rfl rfl ?_
          split
          · exact Point.noConfusion
          · split <;> exact Point.noConfusion
      | _ => simp [State.next, place] at taken
  | dispatch read write =>
      obtain ⟨selected, selObj, rest, place, enabled⟩ := dispatch_enabled grow taken
      have handled := dispatch_good_iff grow selObj read write faithful good
      simp only [State.next, place, if_pos enabled] at taken
      simp only [Label.Sound, place]
      rw [← handled]
      cases run : state.session.dispatch grow selObj read write with
      | none =>
          simp only [run, Option.some.injEq] at taken
          subst taken
          constructor
          · constructor
            · intro live
              exact absurd rfl live.1
            · rintro ⟨body, impossible, -⟩
              cases impossible
          · intro live
            exact absurd rfl live.1
      | some body =>
          simp only [run, Option.some.injEq] at taken
          subst taken
          constructor
          · constructor
            · intro live
              exact ⟨body, rfl, live.2⟩
            · rintro ⟨same, equal, bodyGood⟩
              cases equal
              refine ⟨?_, bodyGood⟩
              split <;> exact Point.noConfusion
          · intro live
            exact ⟨live, dispatch_faithful grow faithful run live.2⟩

/-- A run of the engine invokes only live callbacks, through valid iterators, and uses what was
added last, exactly when each step is sound. -/
theorem callsOnlyLive_iff {start : State Callback} (initial : Initial start)
    {steps : List (TransitionSystem.Transition (State Callback) (Label Callback))}
    (run : (system grow).Run start steps) :
    (∀ step ∈ steps, CallsOnlyLive step.target) ↔
      ∀ step ∈ steps, step.label.Sound grow step.source := by
  refine run.property_iff_condition ?implies ?keep ?needed (initial_sound initial)
  case implies => exact fun state sound => sound.1
  case keep =>
    intro state label next sound taken met
    have both := next_sound_iff grow sound taken
    exact both.2 (both.1.mpr met)
  case needed =>
    intro state label next sound taken live
    exact (next_sound_iff grow sound taken).1.mp live

section Removal

/-- Two descriptors are registered for reading. -/
def twoReaders : State Nat where
  session :=
    { engine := ⟨[(3, ⟨0, E_READ_EVENT⟩), (5, ⟨1, E_READ_EVENT⟩)], 2, false⟩
      registered := fun obj =>
        if obj = 3 then some ⟨0, E_READ_EVENT⟩
        else if obj = 5 then some ⟨1, E_READ_EVENT⟩ else none
      events := [] }
  point := .outside none

theorem twoReaders_initial : Initial twoReaders := by
  refine ⟨rfl, rfl, by decide, by decide, ?_⟩
  intro obj data
  simp only [twoReaders, List.mem_cons, List.not_mem_nil, or_false, Prod.mk.injEq]
  split
  · next first => simp [first, eq_comm]
  · next notFirst =>
      split
      · next second => simp [second, eq_comm]
      · next notSecond => simp [notFirst, notSecond]

/-- Both descriptors are readable, and the first callback makes these calls. -/
def removal (calls : List (Call Nat)) : List (Label Nat) :=
  [.go, .go, .selectRW 2 (fun _ => true) (fun _ => false) (fun _ => false),
    .dispatch ⟨calls, false⟩ ⟨[], false⟩, .dispatch ⟨[], false⟩ ⟨[], false⟩]

theorem callsOnlyLive_iff_stop :
    (∀ step ∈ TransitionSystem.follow (State.next (2 * ·)) twoReaders (removal [.stop]),
        CallsOnlyLive step.target) ↔
      ∀ step ∈ TransitionSystem.follow (State.next (2 * ·)) twoReaders (removal [.stop]),
        step.label.Sound (2 * ·) step.source :=
  callsOnlyLive_iff (2 * ·) twoReaders_initial (TransitionSystem.follow_run _ _ _ _)

/-- The first callback removes the second object, which is still in the array. -/
theorem removed_not_callsOnlyLive :
    ¬ ∀ (grow : Nat → Nat) (start : State Nat)
        (steps : List (TransitionSystem.Transition (State Nat) (Label Nat))),
      Initial start → (system grow).Run start steps →
        ∀ step ∈ steps, CallsOnlyLive step.target := by
  intro all
  let labels := removal [.removeSelectableObject 5 E_READ_EVENT]
  have live := all (2 * ·) twoReaders _ twoReaders_initial
    (TransitionSystem.follow_run _ _ labels twoReaders)
  have reached : Point.undefinedBehaviour ∈
      (TransitionSystem.follow (State.next (2 * ·)) twoReaders labels).map
        fun step => step.target.point := by
    decide
  obtain ⟨step, mem, undefined⟩ := List.mem_map.mp reached
  exact (live step mem).1 undefined

end Removal

end Blocxx.SelectEngine
