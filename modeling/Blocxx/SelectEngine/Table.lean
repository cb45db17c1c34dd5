import Blocxx.SelectEngine.SelectEngine
import Blocxx.SortedVectorMap.Refinement

/-!
This file gives the table of a `SelectEngine` as the graph of what is registered, and the iterators
that the calls of a callback leave valid.
-/

namespace Blocxx.SelectEngine

open Library SortedVectorMap

variable {Callback : Type}

theorem equivalent_descriptors {a b : Int} : equivalent descriptors a b = true ↔ a = b := by
  rw [equivalent_iff]
  show decide (a < b) = false ∧ decide (b < a) = false ↔ a = b
  rw [decide_eq_false_iff_not, decide_eq_false_iff_not]
  omega

section Lookups

variable {engine : Engine Callback} (sorted : Sorted descriptors engine.m_table)

include sorted

theorem foundAt_iff (obj : Int) :
    foundAt descriptors engine.m_table obj (lowerBound descriptors engine.m_table obj) = true ↔
      ∃ data, (obj, data) ∈ engine.m_table := by
  rw [sorted.foundAt_iff]
  constructor
  · rintro ⟨⟨key, data⟩, mem, same⟩
    rw [equivalent_descriptors] at same
    exact ⟨data, same ▸ mem⟩
  · rintro ⟨data, mem⟩
    exact ⟨(obj, data), mem, equivalent_refl descriptors obj⟩

/-- An element stands at the place that `find` gives for its key. -/
theorem find_of_mem {obj : Int} {data : Data Callback} (mem : (obj, data) ∈ engine.m_table) :
    engine.m_table[find descriptors engine.m_table obj]? = some (obj, data) := by
  obtain ⟨index, here⟩ := List.mem_iff_getElem?.mp mem
  have place := sorted.lowerBound_self here
  rw [find, if_pos ((foundAt_iff sorted obj).mpr ⟨data, mem⟩), place, here]

theorem used_eq_some_iff {obj : Int} {data : Data Callback} :
    engine.used obj = some data ↔ (obj, data) ∈ engine.m_table := by
  constructor
  · intro used
    obtain ⟨⟨key, value⟩, here, rfl⟩ := Option.map_eq_some_iff.mp used
    by_cases found :
        foundAt descriptors engine.m_table obj (lowerBound descriptors engine.m_table obj) = true
    · obtain ⟨other, mem⟩ := (foundAt_iff sorted obj).mp found
      rw [find_of_mem sorted mem] at here
      cases here
      exact mem
    · rw [find, if_neg found, List.getElem?_eq_none le_rfl] at here
      cases here
  · intro mem
    rw [Engine.used, find_of_mem sorted mem]
    rfl

theorem foundAt_iff_used (obj : Int) :
    foundAt descriptors engine.m_table obj (lowerBound descriptors engine.m_table obj) = true ↔
      engine.used obj ≠ none := by
  rw [foundAt_iff sorted, Option.ne_none_iff_exists']
  simp only [used_eq_some_iff sorted]

/-- The places in front of the one for a key are those of the smaller keys. -/
theorem lt_lowerBound_iff {position : Nat} {element : Int × Data Callback} (obj : Int)
    (here : engine.m_table[position]? = some element) :
    position < lowerBound descriptors engine.m_table obj ↔ element.1 < obj := by
  rw [← (sorted.lowerBound_splits obj).2 position element here]
  exact decide_eq_true_iff

end Lookups

/-- The mappings of what is registered. -/
def graph (registered : Int → Option (Data Callback)) : Set (Int × Data Callback) :=
  {mapping | registered mapping.1 = some mapping.2}

/-- The table has exactly what is registered. -/
def Session.Faithful (session : Session Callback) : Prop :=
  Represents descriptors session.engine.m_table (graph session.registered)

theorem Session.Faithful.used {session : Session Callback} (faithful : session.Faithful)
    (obj : Int) : session.engine.used obj = session.registered obj := by
  apply Option.ext
  intro data
  exact (used_eq_some_iff faithful.sorted).trans (faithful.mem (obj, data)).symm

theorem maps_graph {registered : Int → Option (Data Callback)} {obj : Int} :
    Reference.Maps descriptors (graph registered) obj ↔ registered obj ≠ none := by
  rw [Option.ne_none_iff_exists']
  constructor
  · rintro ⟨⟨key, data⟩, mem, same⟩
    rw [equivalent_descriptors] at same
    subst same
    exact ⟨data, mem⟩
  · rintro ⟨data, here⟩
    exact ⟨(obj, data), here, equivalent_refl descriptors obj⟩

theorem insert_graph {registered : Int → Option (Data Callback)} {obj : Int}
    (absent : registered obj = none) (data : Data Callback) :
    Reference.insert descriptors (graph registered) (obj, data) =
      graph (Function.update registered obj (some data)) := by
  ext ⟨key, value⟩
  show registered key = some value ∨ ((key, value) = (obj, data) ∧ _) ↔
    Function.update registered obj (some data) key = some value
  rw [maps_graph, absent]
  by_cases same : key = obj
  · subst same
    rw [Function.update_self, absent]
    simp [eq_comm]
  · rw [Function.update_of_ne same]
    simp [same]

theorem erase_graph (registered : Int → Option (Data Callback)) (obj : Int) :
    Reference.erase descriptors (graph registered) obj =
      graph (Function.update registered obj none) := by
  ext ⟨key, value⟩
  show registered key = some value ∧ equivalent descriptors key obj = false ↔
    Function.update registered obj none key = some value
  rw [← Bool.not_eq_true, equivalent_descriptors]
  by_cases same : key = obj
  · subst same
    rw [Function.update_self]
    simp
  · rw [Function.update_of_ne same]
    simp [same]

section Calls

variable (grow : Nat → Nat)

theorem Call.run_sorted {engine : Engine Callback} (sorted : Sorted descriptors engine.m_table)
    (call : Call Callback) : Sorted descriptors (call.run grow engine).m_table := by
  have represents : Represents descriptors engine.m_table {m | m ∈ engine.m_table} :=
    ⟨sorted, fun _ => Iff.rfl⟩
  cases call with
  | addSelectableObject obj cb eventType => exact (represents.insert (obj, ⟨cb, eventType⟩)).sorted
  | removeSelectableObject obj eventType => exact (represents.erase obj).sorted
  | stop => exact sorted

/-- An addition leaves the data of an object that the table has already. -/
theorem used_addSelectableObject {engine : Engine Callback}
    (sorted : Sorted descriptors engine.m_table) (obj : Int) (cb : Callback)
    (eventType : EEventType) :
    (engine.addSelectableObject grow obj cb eventType).used obj =
      (engine.used obj).or (some ⟨cb, eventType⟩) := by
  have kept := Call.run_sorted grow sorted (.addSelectableObject obj cb eventType)
  have represents : Represents descriptors engine.m_table {m | m ∈ engine.m_table} :=
    ⟨sorted, fun _ => Iff.rfl⟩
  have after := represents.insert (obj, ⟨cb, eventType⟩)
  cases before : engine.used obj with
  | none =>
      have unmapped : ¬ Reference.Maps descriptors {m | m ∈ engine.m_table} obj := by
        rw [← represents.foundAt_iff, foundAt_iff_used sorted, before]
        exact fun different => different rfl
      refine (used_eq_some_iff kept).mpr ?_
      refine (after.mem _).mp ?_
      exact Or.inr ⟨rfl, unmapped⟩
  | some data =>
      refine (used_eq_some_iff kept).mpr ?_
      refine (after.mem _).mp ?_
      exact Or.inl ((used_eq_some_iff sorted).mp before)

/-- An addition is of an object that the table does not have, or it repeats the data. -/
def Call.Repeats (engine : Engine Callback) : Call Callback → Prop
  | .addSelectableObject obj cb eventType =>
      engine.used obj = none ∨ engine.used obj = some ⟨cb, eventType⟩
  | .removeSelectableObject _ _ => True
  | .stop => True

/-- Additions that repeat keep the table equal to what is registered. -/
theorem Session.Faithful.perform {session : Session Callback} (faithful : session.Faithful)
    {call : Call Callback} (repeats : call.Repeats session.engine) :
    (session.perform grow call).Faithful := by
  cases call with
  | addSelectableObject obj cb eventType =>
      have after := Represents.insert faithful (obj, ⟨cb, eventType⟩)
      rcases repeats with absent | same
      · rw [faithful.used] at absent
        rw [insert_graph absent] at after
        exact after
      · rw [faithful.used] at same
        have mapped : Reference.Maps descriptors (graph session.registered) obj := by
          rw [maps_graph, same]
          exact Option.some_ne_none _
        rw [Represents.insert_mapped mapped,
          ← Function.update_eq_self obj session.registered, same] at after
        exact after
  | removeSelectableObject obj eventType =>
      have after := Represents.erase faithful obj
      rw [erase_graph] at after
      exact after
  | stop => exact faithful

/-- The invocation is of what is registered, and an addition leaves what it was given. -/
def Event.Good : Event Callback → Prop
  | .added data used => used = some data
  | .selected callback event registered =>
      ∃ data, registered = some data ∧ data.callback = callback ∧
        includes data.eventType event = true

def Session.AllGood (session : Session Callback) : Prop := ∀ event ∈ session.events, event.Good

theorem Session.allGood_perform_iff {session : Session Callback}
    (sorted : Sorted descriptors session.engine.m_table) (call : Call Callback) :
    (session.perform grow call).AllGood ↔ session.AllGood ∧ call.Repeats session.engine := by
  cases call with
  | addSelectableObject obj cb eventType =>
      have used := used_addSelectableObject grow sorted obj cb eventType
      show (∀ event ∈ Event.added ⟨cb, eventType⟩
        ((session.engine.addSelectableObject grow obj cb eventType).used obj) ::
          session.events, event.Good) ↔ _
      rw [List.forall_mem_cons, and_comm]
      apply and_congr_right
      intro _
      show (session.engine.addSelectableObject grow obj cb eventType).used obj = _ ↔
        session.engine.used obj = none ∨ session.engine.used obj = _
      rw [used]
      cases session.engine.used obj <;> simp
  | removeSelectableObject obj eventType => exact (and_iff_left trivial).symm
  | stop => exact (and_iff_left trivial).symm

/-- All additions of the calls are of new objects or repeat the data. -/
def AllRepeat : Engine Callback → List (Call Callback) → Prop
  | _, [] => True
  | engine, call :: calls => call.Repeats engine ∧ AllRepeat (call.run grow engine) calls

theorem Session.perform_engine (session : Session Callback) (call : Call Callback) :
    (session.perform grow call).engine = call.run grow session.engine := by
  cases call with
  | addSelectableObject obj cb eventType => rfl
  | removeSelectableObject obj eventType => rfl
  | stop => rfl

theorem Session.performAll_engine (calls : List (Call Callback)) (session : Session Callback) :
    (calls.foldl (Session.perform grow) session).engine =
      calls.foldl (Call.run grow) session.engine := by
  induction calls generalizing session with
  | nil => rfl
  | cons call calls ih => rw [List.foldl_cons, List.foldl_cons, ih, session.perform_engine]

theorem Session.allGood_performAll_iff (calls : List (Call Callback)) {session : Session Callback}
    (sorted : Sorted descriptors session.engine.m_table) :
    (calls.foldl (Session.perform grow) session).AllGood ↔
      session.AllGood ∧ AllRepeat grow session.engine calls := by
  induction calls generalizing session with
  | nil => exact (and_iff_left trivial).symm
  | cons call calls ih =>
      have kept : Sorted descriptors (session.perform grow call).engine.m_table := by
        rw [session.perform_engine]
        exact Call.run_sorted grow sorted call
      rw [List.foldl_cons, ih kept, session.allGood_perform_iff grow sorted, and_assoc,
        session.perform_engine]
      rfl

theorem Session.Faithful.performAll {session : Session Callback} (faithful : session.Faithful)
    {calls : List (Call Callback)} (repeats : AllRepeat grow session.engine calls) :
    (calls.foldl (Session.perform grow) session).Faithful := by
  induction calls generalizing session with
  | nil => exact faithful
  | cons call calls ih =>
      apply ih (faithful.perform grow repeats.1)
      rw [session.perform_engine]
      exact repeats.2

/-- The call inserts and erases only behind the object, and the vector does not move. -/
def Call.StaysBehind (engine : Engine Callback) (obj : Int) : Call Callback → Prop
  | .addSelectableObject other _ _ =>
      engine.used other = none → obj < other ∧ engine.m_table.length ≠ engine.capacity
  | .removeSelectableObject other _ => engine.used other ≠ none → obj < other
  | .stop => True

def AllStayBehind (obj : Int) : Engine Callback → List (Call Callback) → Prop
  | _, [] => True
  | engine, call :: calls =>
      call.StaysBehind engine obj ∧ AllStayBehind obj (call.run grow engine) calls

theorem Call.invalidates_iff {engine : Engine Callback} {position : Nat} {obj : Int}
    {data : Data Callback} (sorted : Sorted descriptors engine.m_table)
    (here : engine.m_table[position]? = some (obj, data)) (call : Call Callback) :
    call.invalidates engine position = false ↔ call.StaysBehind engine obj := by
  cases call with
  | addSelectableObject other cb eventType =>
      have found := foundAt_iff_used sorted other
      have place := lt_lowerBound_iff sorted other here
      rw [Call.invalidates, Call.StaysBehind]
      cases used : engine.used other with
      | none =>
          rw [used, iff_false_right (fun different => different rfl), Bool.not_eq_true] at found
          rw [found, Bool.not_false, Bool.true_and, Bool.or_eq_false_iff, beq_eq_false_iff_ne,
            decide_eq_false_iff_not, not_le, place, and_comm]
          simp
      | some value =>
          rw [used, iff_true_right (Option.some_ne_none value)] at found
          rw [found]
          simp
  | removeSelectableObject other eventType =>
      have found := foundAt_iff_used sorted other
      have place := lt_lowerBound_iff sorted other here
      rw [Call.invalidates, Call.StaysBehind, ← found, Bool.and_eq_false_imp,
        decide_eq_false_iff_not, not_le, place]
  | stop => exact iff_of_true rfl trivial

theorem getElem?_insertAt_of_lt {vec : List (Int × Data Callback)} {i position : Nat}
    (x : Int × Data Callback) (front : position < i) {element : Int × Data Callback}
    (here : vec[position]? = some element) : (insertAt vec i x)[position]? = some element := by
  obtain ⟨inside, -⟩ := List.getElem?_eq_some_iff.mp here
  have taken : position < (vec.take i).length := by
    rw [List.length_take]
    omega
  rw [insertAt, List.getElem?_append_left taken, List.getElem?_take_of_lt front, here]

/-- An element in front of all changes stays where it is. -/
theorem Call.run_getElem? {engine : Engine Callback} {position : Nat} {obj : Int}
    {data : Data Callback} (sorted : Sorted descriptors engine.m_table)
    (here : engine.m_table[position]? = some (obj, data)) {call : Call Callback}
    (behind : call.StaysBehind engine obj) :
    (call.run grow engine).m_table[position]? = some (obj, data) := by
  cases call with
  | addSelectableObject other cb eventType =>
      have found := foundAt_iff_used sorted other
      show (insert descriptors engine.m_table (other, ⟨cb, eventType⟩)).1[position]? = _
      rw [SortedVectorMap.insert]
      split
      · exact here
      · next absent =>
          have unused := not_not.mp (mt found.mpr absent)
          have front := (lt_lowerBound_iff sorted other here).mpr (behind unused).1
          exact getElem?_insertAt_of_lt _ front here
  | removeSelectableObject other eventType =>
      have found := foundAt_iff_used sorted other
      show (erase descriptors engine.m_table other).1[position]? = _
      rw [SortedVectorMap.erase]
      split
      · next present =>
          have front := (lt_lowerBound_iff sorted other here).mpr (behind (found.mp present))
          rw [SortedVectorMap.eraseAt, List.getElem?_eraseIdx_of_lt front, here]
      · exact here
  | stop => exact here

theorem survives_iff {position : Nat} {obj : Int} {data : Data Callback}
    (calls : List (Call Callback)) {engine : Engine Callback}
    (sorted : Sorted descriptors engine.m_table)
    (here : engine.m_table[position]? = some (obj, data)) :
    survives grow position engine calls = true ↔ AllStayBehind grow obj engine calls := by
  induction calls generalizing engine with
  | nil => exact iff_of_true rfl trivial
  | cons call calls ih =>
      rw [survives, Bool.and_eq_true, Bool.not_eq_true', Call.invalidates_iff sorted here,
        AllStayBehind]
      apply and_congr_right
      intro behind
      exact ih (Call.run_sorted grow sorted call) (Call.run_getElem? grow sorted here behind)

theorem AllStayBehind.getElem? {position : Nat} {obj : Int} {data : Data Callback}
    (calls : List (Call Callback)) {engine : Engine Callback}
    (sorted : Sorted descriptors engine.m_table)
    (here : engine.m_table[position]? = some (obj, data))
    (behind : AllStayBehind grow obj engine calls) :
    (calls.foldl (Call.run grow) engine).m_table[position]? = some (obj, data) := by
  induction calls generalizing engine with
  | nil => exact here
  | cons call calls ih =>
      exact ih (Call.run_sorted grow sorted call)
        (Call.run_getElem? grow sorted here behind.1) behind.2

end Calls

end Blocxx.SelectEngine
