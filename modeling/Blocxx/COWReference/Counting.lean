import Blocxx.COWReference.Accounting
import Blocxx.COWReference.COWIntrusiveReference

/-!
This file proves that the use counts of `COWIntrusiveReference` are right in every interleaving.
-/

namespace Blocxx.COWIntrusiveReference
open CopyOnWrite Library

variable {Name Thread Obj Value : Type}

namespace Point

def usesTemporary : Point Name Thread Obj Value → Bool
  | swapTemporary _ => true
  | release (.inr _) => true
  | _ => false

/-- What the local variables of the thread tell. -/
def Facts (sharing : Sharing Thread (Slot Name Thread) Obj Value) (thread : Thread) :
    Point Name Thread Obj Value → Prop
  | construct target _ => sharing.holds (target.slot thread) = none
  | addRef target p value =>
      sharing.holds (target.slot thread) = none ∧ sharing.cell p = some (0, value)
  | copy target _ => sharing.holds (target.slot thread) = none
  | release (.inr owner) => owner = thread
  | clone name _ => ∃ p, sharing.holds (.inl name) = some p
  | decAndTest name p tmp _ => sharing.holds (.inl name) = some p ∧
      ∃ value, sharing.cell tmp = some (0, value) ∧ sharing.deep (.inl name) = some value
  | undo name p tmp _ => sharing.holds (.inl name) = none ∧ p ≠ tmp ∧
      ∃ value, sharing.cell p = some (0, value) ∧ sharing.deep (.inl name) = some value
  | discard name _ _ => ∃ p value, sharing.holds (.inl name) = some p ∧
      sharing.cell p = some (1, value)
  | adopt name tmp _ => sharing.holds (.inl name) = none ∧
      ∃ value, sharing.cell tmp = some (0, value) ∧ sharing.deep (.inl name) = some value
  | write name _ => ∃ p value, sharing.holds (.inl name) = some p ∧
      sharing.cell p = some (1, value)
  | _ => True

variable {point : Point Name Thread Obj Value} {thread other : Thread}
  {sharing after : Sharing Thread (Slot Name Thread) Obj Value} {mine : Slot Name Thread → Prop}

theorem inside_names {name : Name} (inside : point.insideClone = some name) :
    name ∈ point.names := by
  cases point with
  | undo other p tmp change =>
      cases inside
      exact List.mem_singleton_self name
  | adopt other tmp change =>
      cases inside
      exact List.mem_singleton_self name
  | _ => cases inside

theorem inside_holds {name : Name} (facts : Facts sharing thread point)
    (inside : point.insideClone = some name) : sharing.holds (.inl name) = none := by
  cases point with
  | undo other p tmp change =>
      cases inside
      exact facts.1
  | adopt other tmp change =>
      cases inside
      exact facts.1
  | _ => cases inside

/-- A step of another thread leaves the facts alone. -/
theorem Facts.frame (facts : Facts sharing other point) (different : other ≠ thread)
    (keeper : ∀ p, sharing.keeper p = some other ↔ point.keeps p)
    (frame : Sharing.Frame mine thread sharing after)
    (apart : ∀ slot, Uses point.names other slot → ¬ mine slot) : Facts after other point := by
  have holds (slot : Slot Name Thread) (uses : Uses point.names other slot) :
      after.holds slot = sharing.holds slot := frame.holds slot (apart slot uses)
  have deep (slot : Slot Name Thread) (uses : Uses point.names other slot) :
      after.deep slot = sharing.deep slot := frame.deep slot (apart slot uses)
  have kept (p : Obj) (keeps : point.keeps p) : after.cell p = sharing.cell p :=
    (frame.kept p other different ((keeper p).mpr keeps)).2
  have target (goal : Target Name) (names : goal.name ∈ point.names) :
      after.holds (goal.slot other) = sharing.holds (goal.slot other) :=
    holds _ (goal.uses_slot names other)
  have own (name : Name) (names : point.names = [name]) : Uses point.names other (.inl name) := by
    rw [names]
    exact List.mem_singleton_self name
  cases point with
  | construct goal value => exact (target goal (List.mem_singleton_self _)).trans facts
  | addRef goal p value =>
      obtain ⟨empty, live⟩ := facts
      exact ⟨(target goal (List.mem_singleton_self _)).trans empty, (kept p rfl).trans live⟩
  | copy goal rhs => exact (target goal List.mem_cons_self).trans facts
  | release slot =>
      cases slot with
      | inl name => trivial
      | inr owner => exact facts
  | clone name change =>
      obtain ⟨p, held⟩ := facts
      exact ⟨p, (holds _ (own name rfl)).trans held⟩
  | decAndTest name p tmp change =>
      obtain ⟨held, value, live, shown⟩ := facts
      have uses := own name rfl
      exact ⟨(holds _ uses).trans held, value, (kept tmp rfl).trans live,
        (deep _ uses).trans shown⟩
  | undo name p tmp change =>
      obtain ⟨empty, distinct, value, live, shown⟩ := facts
      have uses := own name rfl
      exact ⟨(holds _ uses).trans empty, distinct, value, (kept p (.inl rfl)).trans live,
        (deep _ uses).trans shown⟩
  | discard name tmp change =>
      obtain ⟨p, value, held, single⟩ := facts
      have uses := own name rfl
      exact ⟨p, value, (holds _ uses).trans held, frame.sole _ p value (apart _ uses) held single⟩
  | adopt name tmp change =>
      obtain ⟨empty, value, live, shown⟩ := facts
      have uses := own name rfl
      exact ⟨(holds _ uses).trans empty, value, (kept tmp rfl).trans live,
        (deep _ uses).trans shown⟩
  | write name change =>
      obtain ⟨p, value, held, single⟩ := facts
      have uses := own name rfl
      exact ⟨p, value, (holds _ uses).trans held, frame.sole _ p value (apart _ uses) held single⟩
  | _ => trivial

end Point

/-- The target of a constructor is the reference itself exactly when the constructor is the whole
operation. -/
theorem constructed_itself {target : Target Name}
    (unused : (Point.constructed target : Point Name Thread Obj Value).usesTemporary = false) :
    target = .itself target.name := by
  cases target with
  | itself _ => rfl
  | temporaryFor _ => cases unused

theorem constructed_names {target : Target Name} {name : Name}
    (member : name ∈ (Point.constructed target : Point Name Thread Obj Value).names) :
    name = target.name := by
  cases target with
  | itself _ => cases member
  | temporaryFor _ => exact List.mem_singleton.mp member

theorem constructed_keeps (target : Target Name) (p : Obj) :
    ¬ (Point.constructed target : Point Name Thread Obj Value).keeps p := by
  cases target <;> exact id

/-- The accounting of the references reads the points like this. -/
def protocol : Protocol Name Thread Obj Value (Point Name Thread Obj Value) where
  names := Point.names
  keeps point p := point.keeps p
  usesTemporary := Point.usesTemporary
  insideClone := Point.insideClone
  Facts sharing thread point := point.Facts sharing thread
  inside_names := Point.inside_names
  inside_holds := Point.inside_holds
  frame := Point.Facts.frame

variable [Fintype Name] [Fintype Thread] [DecidableEq Name] [DecidableEq Thread] [DecidableEq Obj]

/-- This is the invariant: the objects are the cells of an accounting. -/
structure Shared (state : State Name Thread Obj Value)
    (sharing : Sharing Thread (Slot Name Thread) Obj Value) : Prop where
  object : state.object = sharing.cell
  accounted : Accounted protocol state.m_pObj state.deep state.point sharing

variable {state next : State Name Thread Obj Value} {thread : Thread}
  {sharing after : Sharing Thread (Slot Name Thread) Obj Value}

/-- The step of the thread is defined and keeps the invariant. -/
def Proceeds (state : State Name Thread Obj Value) (thread : Thread) (fresh : Obj) : Prop :=
  ∃ next after, state.run thread fresh = some next ∧ Shared next after

namespace Shared

/-- A constructor has filled its slot. -/
theorem constructed (shared : Shared state sharing) {current : Point Name Thread Obj Value}
    (here : state.point thread = current) {target : Target Name} {p : Option Obj}
    {value : Option Value} {object : Obj → Option (Int × Value)}
    (names : target.name ∈ current.names)
    (effect : after.Sound ∧ Sharing.Frame (Uses current.names thread) thread sharing after)
    (holds : after.holds = Function.update sharing.holds (target.slot thread) p)
    (deepens : after.deep = Function.update sharing.deep (target.slot thread) value)
    (memory : object = after.cell) (null : p = none → value = none)
    (outside : current.insideClone = none) (unused : current.usesTemporary = false)
    (keepers : ∀ p, after.keeper p ≠ some thread) :
    Shared (((state.withObject object).set (target.slot thread) p value).goTo thread
      (.constructed target)) after := by
  refine ⟨memory, shared.accounted.constructed here names effect holds deepens null outside unused
    keepers (fun _ => constructed_names) (constructed_keeps target) constructed_itself ?_⟩
  cases target with
  | itself _ => trivial
  | temporaryFor _ => trivial

/-- A null pointer makes no object. -/
theorem construct_null (shared : Shared state sharing) {target : Target Name}
    (here : state.point thread = .construct target none) (fresh : Obj) :
    Proceeds state thread fresh := by
  have accounted := shared.accounted
  have names := List.mem_singleton_self target.name
  have empty : sharing.holds (target.slot thread) = none := accounted.factsAt here
  have nothing := accounted.deep_none here rfl (target.uses_slot names thread) empty
  refine ⟨_, sharing, by
    unfold State.run
    rw [here], ?_⟩
  apply shared.constructed here names ⟨accounted.sound, .refl _ _ _⟩ _ _ shared.object
    (fun _ => rfl) rfl rfl (accounted.no_keeper here (fun _ => id))
  · rw [← empty, Function.update_eq_self]
  · rw [← nothing, Function.update_eq_self]

theorem construct (shared : Shared state sharing) {target : Target Name} {value : Value}
    (here : state.point thread = .construct target (some value)) {fresh : Obj}
    (free : state.object fresh = none) : Proceeds state thread fresh := by
  have empty : sharing.holds (target.slot thread) = none := shared.accounted.factsAt here
  rw [shared.object] at free
  refine ⟨_, sharing.allocate thread fresh value, by
    unfold State.run
    rw [here], ⟨?_, ?_⟩⟩
  · show Function.update state.object fresh _ = _
    rw [shared.object]
    rfl
  · exact shared.accounted.allocated here free (fun _ => id) (fun _ => Iff.rfl) rfl (fun _ => id)
      (fun _ => rfl) ⟨empty, Function.update_self _ _ _⟩

/-- The first reference to a new object. -/
theorem addRef (shared : Shared state sharing) {target : Target Name} {p : Obj}
    {value : Value} (here : state.point thread = .addRef target p value) (fresh : Obj) :
    Proceeds state thread fresh := by
  have accounted := shared.accounted
  have names := List.mem_singleton_self target.name
  obtain ⟨empty, live⟩ := accounted.factsAt here
  have kept := accounted.keeper here rfl
  refine ⟨_, sharing.hold (target.slot thread) p 0 value, by
    unfold State.run
    rw [here]
    simp only [inc, shared.object, live]
    rfl, ?_⟩
  apply shared.constructed here names
    (accounted.sound.hold (target.uses_slot names thread) empty live (.inr kept)) rfl rfl rfl
    (fun null => by cases null) rfl rfl
  intro other keeps
  obtain ⟨-, impossible⟩ | ⟨apart, before⟩ := update_eq_some_iff.mp keeps
  · cases impossible
  · have same := (accounted.keepers thread other).mp before
    rw [here] at same
    exact apart same

theorem copy (shared : Shared state sharing) {target : Target Name} {rhs : Name}
    (here : state.point thread = .copy target rhs) (fresh : Obj) :
    Proceeds state thread fresh := by
  have accounted := shared.accounted
  have names : target.name ∈ [target.name, rhs] := List.mem_cons_self
  have uses := target.uses_slot names thread
  have source : Uses [target.name, rhs] thread (.inl rhs) :=
    List.mem_cons_of_mem _ (List.mem_singleton_self rhs)
  have empty : sharing.holds (target.slot thread) = none := accounted.factsAt here
  have unkept := accounted.no_keeper here (fun _ => id)
  obtain ⟨link, null⟩ := accounted.own here rfl source
  cases pointer : state.m_pObj (.inl rhs) with
  | none =>
      have nothing := accounted.deep_none here rfl uses empty
      refine ⟨_, sharing, by
        unfold State.run
        rw [here]
        simp only [pointer]
        rfl, ?_⟩
      apply shared.constructed here names ⟨accounted.sound, .refl _ _ _⟩ _ _
        shared.object (fun _ => null pointer) rfl rfl unkept
      · rw [← empty, Function.update_eq_self]
      · rw [null pointer, ← nothing, Function.update_eq_self]
  | some p =>
      have held : sharing.holds (.inl rhs) = some p := link.trans pointer
      obtain ⟨count, value, live, shown⟩ := accounted.sound.shown held
      refine ⟨_, sharing.hold (target.slot thread) p count value, by
        unfold State.run
        rw [here]
        simp only [pointer, inc, shared.object, live]
        rfl, ?_⟩
      apply shared.constructed here names
        (accounted.sound.hold uses empty live (.inl ⟨.inl rhs, source, held⟩)) rfl _ rfl
        (fun null => by cases null) rfl rfl
      · intro other keeps
        obtain ⟨-, impossible⟩ | ⟨-, before⟩ := update_eq_some_iff.mp keeps
        · cases impossible
        · exact unkept other before
      · rw [accounted.values, shown]
        rfl

theorem swapTemporary (shared : Shared state sharing) {name : Name}
    (here : state.point thread = .swapTemporary name) (fresh : Obj) :
    Proceeds state thread fresh := by
  refine ⟨_, sharing.exchange (.inr thread) (.inl name), by
    unfold State.run
    rw [here], ⟨?_, ?_⟩⟩
  · exact shared.object
  · exact shared.accounted.exchanged here rfl (List.mem_singleton_self name) rfl
      (fun _ member => by cases member) (fun _ => id) (fun _ => id) (fun used => by cases used) rfl

theorem swap (shared : Shared state sharing) {name rhs : Name}
    (here : state.point thread = .swap name rhs) (fresh : Obj) : Proceeds state thread fresh := by
  refine ⟨_, sharing.exchange (.inl name) (.inl rhs), by
    unfold State.run
    rw [here], ⟨?_, ?_⟩⟩
  · exact shared.object
  · refine shared.accounted.exchanged here List.mem_cons_self
      (List.mem_cons_of_mem _ (List.mem_singleton_self _)) rfl (fun _ member => by cases member)
      (fun _ => id) (fun _ => id) (fun _ => ?_) trivial
    show sharing.holds (Equiv.swap _ _ (.inr thread)) = none
    rw [Equiv.swap_apply_of_ne_of_ne Sum.inr_ne_inl Sum.inr_ne_inl]
    exact shared.accounted.noTemporary here rfl

/-- The last reference leaves the object to the thread, which deletes it. -/
theorem release (shared : Shared state sharing) {slot : Slot Name Thread}
    (here : state.point thread = .release slot) (fresh : Obj) : Proceeds state thread fresh := by
  have accounted := shared.accounted
  have uses : Uses (@Point.release Name Thread Obj Value slot).names thread slot := by
    cases slot with
    | inl name => exact List.mem_singleton_self name
    | inr owner => exact accounted.factsAt here
  have temporary : slot = .inr thread ∨
      (@Point.release Name Thread Obj Value slot).usesTemporary = false := by
    cases slot with
    | inl name => exact .inr rfl
    | inr owner => exact .inl (congrArg Sum.inr (accounted.factsAt here))
  obtain ⟨link, null⟩ := accounted.own here rfl uses
  cases pointer : state.m_pObj slot with
  | none =>
      have empty := link.trans pointer
      have nothing := accounted.deep_none here rfl uses empty
      refine ⟨_, sharing, by
        unfold State.run
        rw [here]
        simp only [pointer]
        rfl, ⟨?_, ?_⟩⟩
      · exact shared.object
      apply accounted.changeOutside here ⟨accounted.sound, .refl _ _ _⟩ _ _ uses (fun _ => rfl) rfl
        (fun _ member => by cases member)
      · exact fun p => iff_of_false (accounted.no_keeper here (fun _ => id) p) id
      · intro _
        rcases temporary with same | unused
        · rw [← same]
          exact empty
        · exact accounted.noTemporary here unused
      · trivial
      · rw [← empty, Function.update_eq_self]
      · rw [← nothing, Function.update_eq_self]
  | some p =>
      have held : sharing.holds slot = some p := link.trans pointer
      obtain ⟨count, value, live, -⟩ := accounted.sound.shown held
      refine ⟨_, sharing.leave thread slot p count value none, by
        unfold State.run
        rw [here]
        simp only [pointer, decAndTest, shared.object, live]
        rfl, ⟨rfl, ?_⟩⟩
      apply accounted.released here uses held live rfl (fun _ => id) _ _ temporary
      · split <;> trivial
      · intro name member
        split at member <;> cases member
      · intro other
        by_cases last : count = 1
        · subst last
          simp [protocol, Point.keeps]
        · have more : ¬ count - 1 = 0 := by omega
          simp [protocol, Point.keeps, last, more]

theorem delete (shared : Shared state sharing) {p : Obj}
    (here : state.point thread = .delete p) (fresh : Obj) : Proceeds state thread fresh := by
  have kept := shared.accounted.keeper here rfl
  obtain ⟨value, live⟩ := shared.accounted.sound.kept.mp ⟨thread, kept⟩
  refine ⟨_, sharing.free p, by
    unfold State.run
    rw [here]
    simp only [shared.object, live]
    rfl, ⟨rfl, ?_⟩⟩
  exact shared.accounted.freed here kept (fun _ => Iff.rfl) (fun _ => id) rfl
    (fun _ member => by cases member) (fun _ => rfl) trivial

/-- A count of one is the count of the only reference. -/
theorem unique (shared : Shared state sharing) {name : Name} {change : Value → Value}
    (here : state.point thread = .unique name change) (fresh : Obj) :
    Proceeds state thread fresh := by
  have accounted := shared.accounted
  have unkept := accounted.no_keeper here (fun _ => id)
  have effect : sharing.Sound ∧ Sharing.Frame (Uses [name] thread) thread sharing sharing :=
    ⟨accounted.sound, .refl _ _ _⟩
  obtain ⟨link, null⟩ := accounted.own here rfl (uses_singleton name thread)
  cases pointer : state.m_pObj (.inl name) with
  | none =>
      refine ⟨_, sharing, by
        unfold State.run
        rw [here]
        simp only [pointer]
        rfl, ⟨?_, ?_⟩⟩
      · exact shared.object
      · exact accounted.stay here effect rfl rfl rfl (fun _ member => by cases member)
          (fun p => iff_of_false (unkept p) id) (fun _ => rfl) trivial
  | some p =>
      have held := link.trans pointer
      obtain ⟨count, value, live, -⟩ := accounted.sound.shown held
      refine ⟨_, sharing, by
        unfold State.run
        rw [here]
        simp only [pointer, COWIntrusiveReference.unique, shared.object, live]
        rfl, ⟨?_, ?_⟩⟩
      · exact shared.object
      · apply accounted.stay here effect rfl rfl rfl
        · intro other member
          split at member <;> exact member
        · intro other
          apply iff_of_false (unkept other)
          split <;> exact id
        · intro _
          rfl
        · by_cases single : count = 1
          · simp only [single, decide_true, if_true]
            refine ⟨p, value, held, ?_⟩
            rw [live, single]
          · simp only [single, decide_false]
            exact ⟨p, held⟩

/-- The clone shows the value of the object at this step. -/
theorem clone (shared : Shared state sharing) {name : Name} {change : Value → Value}
    (here : state.point thread = .clone name change) {fresh : Obj}
    (free : state.object fresh = none) : Proceeds state thread fresh := by
  have accounted := shared.accounted
  obtain ⟨p, held⟩ := accounted.factsAt here
  have link := (accounted.own here rfl (uses_singleton name thread)).1
  obtain ⟨count, value, live, shown⟩ := accounted.sound.shown held
  rw [shared.object] at free
  refine ⟨_, sharing.allocate thread fresh value, by
    unfold State.run
    rw [here]
    simp only [← link, held, Option.bind_eq_bind, Option.bind_some, shared.object, live]
    rfl, ⟨rfl, ?_⟩⟩
  exact accounted.allocated here free (fun _ => id) (fun _ => Iff.rfl) rfl (fun _ => id)
    (fun _ => rfl) ⟨held, value, Function.update_self _ _ _, shown⟩

/-- The reference gives its object up. When it was the last one, the thread takes it back. -/
theorem decAndTest (shared : Shared state sharing) {name : Name} {p tmp : Obj}
    {change : Value → Value} (here : state.point thread = .decAndTest name p tmp change)
    (fresh : Obj) : Proceeds state thread fresh := by
  have accounted := shared.accounted
  obtain ⟨held, made, fromClone, shown⟩ := accounted.factsAt here
  have apart : p ≠ tmp := by
    rintro rfl
    exact accounted.sound.not_kept (accounted.keeper here rfl) held
  obtain ⟨count, value, live, shownToo⟩ := accounted.sound.shown held
  have same : made = value := Option.some.inj (shown.symm.trans shownToo)
  subst same
  refine ⟨_, sharing.leave thread (.inl name) p count made (some made), by
    unfold State.run
    rw [here]
    simp only [COWIntrusiveReference.decAndTest, shared.object, live]
    rfl, ⟨rfl, ?_⟩⟩
  have empty : Function.update sharing.holds (Sum.inl name) none (.inl name) = none :=
    Function.update_self _ _ _
  have kept : Function.update sharing.deep (Sum.inl name) (some made) (.inl name) = some made :=
    Function.update_self _ _ _
  by_cases last : count = 1
  · subst last
    exact accounted.givenUp here rfl held live rfl rfl apart rfl rfl
      (fun other => by simp [protocol, Point.keeps])
      ⟨empty, apart, made, Function.update_self _ _ _, kept⟩
  · have more : decide (count - 1 = 0) = false := decide_eq_false (by omega)
    show Accounted protocol state.m_pObj state.deep (Function.update state.point thread
      (if decide (count - 1 = 0) then _ else _)) _
    rw [more]
    refine accounted.givenUp here rfl held live rfl rfl apart rfl rfl
      (fun other => by simp [protocol, Point.keeps, last]) ⟨empty, made, ?_, kept⟩
    show Function.update sharing.cell p (some (count - 1, made)) tmp = some (0, made)
    rw [Function.update_of_ne apart.symm]
    exact fromClone

/-- The thread takes the object back. -/
theorem undo (shared : Shared state sharing) {name : Name} {p tmp : Obj}
    {change : Value → Value} (here : state.point thread = .undo name p tmp change)
    (fresh : Obj) : Proceeds state thread fresh := by
  obtain ⟨empty, apart, value, live, shown⟩ := shared.accounted.factsAt here
  have rest (other : Obj) : (other = p ∨ other = tmp) ∧ other ≠ p ↔ other = tmp := by
    constructor
    · rintro ⟨old | made, different⟩
      · exact absurd old different
      · exact made
    · intro made
      exact ⟨.inr made, fun old => apart (old.symm.trans made)⟩
  refine ⟨_, sharing.hold (.inl name) p 0 value, by
    unfold State.run
    rw [here]
    simp only [inc, shared.object, live]
    rfl, ⟨rfl, ?_⟩⟩
  exact shared.accounted.held here rfl rfl empty live (.inl rfl) shown rest rfl
    ⟨p, value, Function.update_self _ _ _, Function.update_self _ _ _⟩

theorem discard (shared : Shared state sharing) {name : Name} {tmp : Obj}
    {change : Value → Value} (here : state.point thread = .discard name tmp change)
    (fresh : Obj) : Proceeds state thread fresh := by
  have accounted := shared.accounted
  obtain ⟨p, value, held, single⟩ := accounted.factsAt here
  have kept := accounted.keeper here rfl
  obtain ⟨made, live⟩ := accounted.sound.kept.mp ⟨thread, kept⟩
  have apart : p ≠ tmp := by
    rintro rfl
    exact accounted.sound.not_kept kept held
  refine ⟨_, sharing.free tmp, by
    unfold State.run
    rw [here]
    simp only [shared.object, live]
    rfl, ⟨rfl, ?_⟩⟩
  exact accounted.freed here kept (fun _ => Iff.rfl) (fun _ => id) rfl (fun _ => id) (fun _ => rfl)
    ⟨p, value, held, (Function.update_of_ne apart _ _).trans single⟩

/-- The reference goes over to the clone. -/
theorem adopt (shared : Shared state sharing) {name : Name} {tmp : Obj}
    {change : Value → Value} (here : state.point thread = .adopt name tmp change)
    (fresh : Obj) : Proceeds state thread fresh := by
  obtain ⟨empty, value, live, shown⟩ := shared.accounted.factsAt here
  have rest (other : Obj) : other = tmp ∧ other ≠ tmp ↔ False :=
    iff_of_false (fun both => both.2 both.1) id
  refine ⟨_, sharing.hold (.inl name) tmp 0 value, by
    unfold State.run
    rw [here]
    simp only [inc, shared.object, live]
    rfl, ⟨rfl, ?_⟩⟩
  exact shared.accounted.held here rfl rfl empty live rfl shown rest rfl
    ⟨tmp, value, Function.update_self _ _ _, Function.update_self _ _ _⟩

/-- The caller changes an object without another reference. -/
theorem write (shared : Shared state sharing) {name : Name} {change : Value → Value}
    (here : state.point thread = .write name change) (fresh : Obj) :
    Proceeds state thread fresh := by
  have accounted := shared.accounted
  obtain ⟨p, value, held, single⟩ := accounted.factsAt here
  have link := (accounted.own here rfl (uses_singleton name thread)).1
  obtain ⟨_, _, live, shown⟩ := accounted.sound.shown held
  rw [single] at live
  cases live
  refine ⟨_, sharing.write (.inl name) p (change value), by
    unfold State.run
    rw [here]
    simp only [← link, held, Option.bind_eq_bind, Option.bind_some, shared.object, single,
      accounted.values, shown]
    rfl, ⟨rfl, ?_⟩⟩
  exact accounted.written here rfl held single rfl rfl (fun _ => id) (change value) rfl
    (fun _ => id) trivial

/-- No step of a thread in the middle of an operation touches a dead object, and each one keeps the
invariant. -/
theorem run (shared : Shared state sharing) {fresh : Obj} (busy : state.point thread ≠ .idle)
    (free : (state.point thread).allocates = true → state.object fresh = none) :
    Proceeds state thread fresh := by
  cases here : state.point thread with
  | idle => exact absurd here busy
  | construct target value =>
      cases value with
      | none => exact shared.construct_null here fresh
      | some value => exact shared.construct here (free (by rw [here]; rfl))
  | addRef target p value => exact shared.addRef here fresh
  | copy target rhs => exact shared.copy here fresh
  | swapTemporary name => exact shared.swapTemporary here fresh
  | swap name rhs => exact shared.swap here fresh
  | release slot => exact shared.release here fresh
  | delete p => exact shared.delete here fresh
  | unique name change => exact shared.unique here fresh
  | clone name change => exact shared.clone here (free (by rw [here]; rfl))
  | decAndTest name p tmp change => exact shared.decAndTest here fresh
  | undo name p tmp change => exact shared.undo here fresh
  | discard name tmp change => exact shared.discard here fresh
  | adopt name tmp change => exact shared.adopt here fresh
  | write name change => exact shared.write here fresh

omit [DecidableEq Name] in
/-- An operation begins with references that no other thread uses. -/
theorem begin (shared : Shared state sharing) {operation : Operation Name Value}
    (can : state.CanBegin thread operation) :
    Shared (state.goTo thread (.start operation)) sharing := by
  have accounted := shared.accounted
  have free : sharing.holds (.inr thread) = none := accounted.noTemporary can.idle rfl
  refine ⟨shared.object, accounted.begun can.idle rfl rfl (fun _ => id) ?_ ?_ ?_⟩
  · intro p
    cases operation <;> exact id
  · intro other different name member
    apply can.apart other different
    cases operation <;> exact member
  · cases operation with
    | construct target value =>
        cases target with
        | itself name => exact accounted.empty (can.empty name rfl)
        | temporaryFor _ => exact free
    | copy target rhs =>
        cases target with
        | itself name => exact accounted.empty (can.empty name rfl)
        | temporaryFor _ => exact free
    | swap _ _ => trivial
    | destroy _ => trivial
    | access _ _ => trivial

end Shared

/-- Every reachable state has an accounting of its references. -/
theorem shared_of_reachable (reached : system.Reachable state) :
    ∃ sharing, Shared state sharing := by
  induction reached with
  | @initial state start =>
      obtain ⟨object, m_pObj, deep, point⟩ := start
      refine ⟨⟨fun _ => none, fun _ => none, fun _ => none, fun _ => none⟩, object, ?_⟩
      rw [m_pObj, deep, point]
      exact .nothing _ rfl (fun _ => id) (fun _ _ => trivial)
  | @step state next label before taken ih =>
      obtain ⟨sharing, shared⟩ := ih
      cases label with
      | begin thread operation =>
          obtain ⟨can, rfl⟩ := taken
          exact ⟨sharing, shared.begin can⟩
      | run thread fresh =>
          obtain ⟨free, ran⟩ := taken
          have busy : state.point thread ≠ .idle := by
            intro idle
            unfold State.run at ran
            rw [idle] at ran
            cases ran
          obtain ⟨other, after, same, kept⟩ := shared.run busy free
          rw [ran] at same
          cases same
          exact ⟨after, kept⟩

end Blocxx.COWIntrusiveReference
