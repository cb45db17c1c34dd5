import Blocxx.COWReference.Accounting
import Blocxx.COWReference.COWReference
import Blocxx.Library.Custody

/-!
This file proves that the counts of `COWReference` are right in every interleaving, and that every
object belongs to one count.
-/

namespace Blocxx.COWReference
open CopyOnWrite Library

variable {Name Thread RC Obj Value : Type}

/-- The references of an assignment exist. -/
def Ready (holds : Slot Name Thread → Option RC) : Target Name → Prop
  | .itself _ => True
  | .temporaryFor name => ∃ rc, holds (.inl name) = some rc

namespace Point

def usesTemporary : Point Name Thread RC Obj Value → Bool
  | swapTemporary _ => true
  | decRef (.inr _) => true
  | _ => false

/-- What the point of a thread tells about the counts. -/
def Facts (sharing : Sharing Thread (Slot Name Thread) RC (Option Value)) (thread : Thread) :
    Point Name Thread RC Obj Value → Prop
  | construct target _ => sharing.holds (target.slot thread) = none ∧ Ready sharing.holds target
  | newRefCount target _ _ =>
      sharing.holds (target.slot thread) = none ∧ Ready sharing.holds target
  | copy target rhs => sharing.holds (target.slot thread) = none ∧ Ready sharing.holds target ∧
      ∃ rc, sharing.holds (.inl rhs) = some rc
  | swapTemporary name => ∃ rc, sharing.holds (.inl name) = some rc
  | decRef slot => (slot.isRight → slot = .inr thread) ∧ ∃ rc, sharing.holds slot = some rc
  | refCountGreaterThanOne name _ => ∃ rc value, sharing.holds (.inl name) = some rc ∧
      sharing.deep (.inl name) = some (some value)
  | clone name _ => ∃ rc value, sharing.holds (.inl name) = some rc ∧
      sharing.deep (.inl name) = some (some value)
  | decAndTest name _ _ => ∃ rc value, sharing.holds (.inl name) = some rc ∧
      sharing.deep (.inl name) = some (some value)
  | incRef name rc _ _ => sharing.holds (.inl name) = none ∧
      ∃ value, sharing.cell rc = some (0, some value) ∧
        sharing.deep (.inl name) = some (some value)
  | discard name _ _ => ∃ rc value, sharing.holds (.inl name) = some rc ∧
      sharing.cell rc = some (1, some value)
  | becomeUnique name _ _ => sharing.holds (.inl name) = none ∧
      ∃ value, sharing.deep (.inl name) = some (some value)
  | write name _ => ∃ rc value, sharing.holds (.inl name) = some rc ∧
      sharing.cell rc = some (1, some value)
  | _ => True

/-- What the point of a thread tells about the objects. -/
def Locals (custody : Custody Thread RC Obj Value) (deep : Slot Name Thread → Option (Option Value))
    (m_pRefCount : Slot Name Thread → Option RC) (m_pObj : Slot Name Thread → Option Obj) :
    Point Name Thread RC Obj Value → Prop
  | newRefCount _ ptr value => value = ptr.bind custody.thing
  | deleteRefCount rc ptr => custody.content rc = ptr
  | decAndTest name tmp _ => deep (.inl name) = some (custody.thing tmp)
  | incRef name rc _ _ =>
      m_pRefCount (.inl name) = some rc ∧ m_pObj (.inl name) = custody.content rc
  | becomeUnique name tmp _ => deep (.inl name) = some (custody.thing tmp)
  | _ => True

variable {point : Point Name Thread RC Obj Value} {thread other : Thread}
  {sharing after : Sharing Thread (Slot Name Thread) RC (Option Value)}
  {mine : Slot Name Thread → Prop}

theorem inside_names {name : Name} (inside : point.insideClone = some name) :
    name ∈ point.names := by
  cases point with
  | incRef other rc tmp change =>
      cases inside
      exact List.mem_singleton_self name
  | becomeUnique other tmp change =>
      cases inside
      exact List.mem_singleton_self name
  | _ => cases inside

theorem inside_holds {name : Name} (facts : Facts sharing thread point)
    (inside : point.insideClone = some name) : sharing.holds (.inl name) = none := by
  cases point with
  | incRef other rc tmp change =>
      cases inside
      exact facts.1
  | becomeUnique other tmp change =>
      cases inside
      exact facts.1
  | _ => cases inside

/-- A step of another thread leaves the facts alone. -/
theorem Facts.frame (facts : Facts sharing other point) (different : other ≠ thread)
    (keeper : ∀ rc, sharing.keeper rc = some other ↔ point.keeps rc)
    (frame : Sharing.Frame mine thread sharing after)
    (apart : ∀ slot, Uses point.names other slot → ¬ mine slot) : Facts after other point := by
  have holds (slot : Slot Name Thread) (uses : Uses point.names other slot) :
      after.holds slot = sharing.holds slot := frame.holds slot (apart slot uses)
  have deep (slot : Slot Name Thread) (uses : Uses point.names other slot) :
      after.deep slot = sharing.deep slot := frame.deep slot (apart slot uses)
  have target (goal : Target Name) (names : goal.name ∈ point.names)
      (before : sharing.holds (goal.slot other) = none ∧ Ready sharing.holds goal) :
      after.holds (goal.slot other) = none ∧ Ready after.holds goal := by
    refine ⟨(holds _ (goal.uses_slot names other)).trans before.1, ?_⟩
    cases goal with
    | itself _ => trivial
    | temporaryFor name =>
        obtain ⟨rc, held⟩ := before.2
        exact ⟨rc, (holds (.inl name) names).trans held⟩
  have own (name : Name) (names : point.names = [name]) : Uses point.names other (.inl name) := by
    rw [names]
    exact uses_singleton name other
  have shown (name : Name) (names : point.names = [name])
      (before : ∃ rc value, sharing.holds (.inl name) = some rc ∧
        sharing.deep (.inl name) = some (some value)) :
      ∃ rc value, after.holds (.inl name) = some rc ∧
        after.deep (.inl name) = some (some value) := by
    obtain ⟨rc, value, held, shows⟩ := before
    have uses := own name names
    exact ⟨rc, value, (holds _ uses).trans held, (deep _ uses).trans shows⟩
  have single (name : Name) (names : point.names = [name])
      (before : ∃ rc value, sharing.holds (.inl name) = some rc ∧
        sharing.cell rc = some (1, some value)) :
      ∃ rc value, after.holds (.inl name) = some rc ∧ after.cell rc = some (1, some value) := by
    obtain ⟨rc, value, held, single⟩ := before
    have uses := own name names
    exact ⟨rc, value, (holds _ uses).trans held,
      frame.sole _ rc (some value) (apart _ uses) held single⟩
  cases point with
  | construct goal value => exact target goal (List.mem_singleton_self _) facts
  | newRefCount goal ptr value => exact target goal (List.mem_singleton_self _) facts
  | copy goal rhs =>
      obtain ⟨empty, ready, rc, held⟩ := facts
      obtain ⟨emptyNow, readyNow⟩ := target goal List.mem_cons_self ⟨empty, ready⟩
      have uses : Uses [goal.name, rhs] other (.inl rhs) :=
        List.mem_cons_of_mem _ (List.mem_singleton_self rhs)
      exact ⟨emptyNow, readyNow, rc, (holds _ uses).trans held⟩
  | swapTemporary name =>
      obtain ⟨rc, held⟩ := facts
      exact ⟨rc, (holds _ (own name rfl)).trans held⟩
  | decRef slot =>
      obtain ⟨temporary, rc, held⟩ := facts
      refine ⟨temporary, rc, ?_⟩
      rw [← held]
      cases slot with
      | inl name => exact holds _ (own name rfl)
      | inr owner => exact holds _ (Sum.inr.inj (temporary rfl))
  | refCountGreaterThanOne name change => exact shown name rfl facts
  | clone name change => exact shown name rfl facts
  | decAndTest name tmp change => exact shown name rfl facts
  | incRef name rc tmp change =>
      obtain ⟨empty, value, live, shows⟩ := facts
      have uses := own name rfl
      exact ⟨(holds _ uses).trans empty, value,
        (frame.kept rc other different ((keeper rc).mpr rfl)).2.trans live,
        (deep _ uses).trans shows⟩
  | discard name tmp change => exact single name rfl facts
  | becomeUnique name tmp change =>
      obtain ⟨empty, value, shows⟩ := facts
      have uses := own name rfl
      exact ⟨(holds _ uses).trans empty, value, (deep _ uses).trans shows⟩
  | write name change => exact single name rfl facts
  | _ => trivial

/-- A step of another thread leaves the objects in the local variables alone. -/
theorem Locals.frame {custody custodyAfter : Custody Thread RC Obj Value}
    {shown shownAfter : RC → Option (Option Value)}
    {deep deepAfter : Slot Name Thread → Option (Option Value)}
    {m_pRefCount m_pRefCountAfter : Slot Name Thread → Option RC}
    {m_pObj m_pObjAfter : Slot Name Thread → Option Obj}
    (locals : Locals custody deep m_pRefCount m_pObj point) (different : other ≠ thread)
    (carrier : ∀ p, custody.owner p = some (.inr other) ↔ point.carries p)
    (kept : ∀ rc, point.keeps rc → shown rc ≠ none ∧ shownAfter rc ≠ none)
    (frame : Custody.Frame thread custody custodyAfter shown shownAfter)
    (deepSame : ∀ slot, Uses point.names other slot → deepAfter slot = deep slot)
    (countSame : ∀ slot, Uses point.names other slot → m_pRefCountAfter slot = m_pRefCount slot)
    (pointerSame : ∀ slot, Uses point.names other slot → m_pObjAfter slot = m_pObj slot) :
    Locals custodyAfter deepAfter m_pRefCountAfter m_pObjAfter point := by
  have thing (p : Obj) (carries : point.carries p) : custodyAfter.thing p = custody.thing p :=
    (frame.carried p other different ((carrier p).mpr carries)).2
  have content (rc : RC) (keeps : point.keeps rc) :
      custodyAfter.content rc = custody.content rc :=
    frame.content rc (kept rc keeps).1 (kept rc keeps).2
  cases point with
  | newRefCount target ptr value =>
      refine Eq.trans locals ?_
      cases ptr with
      | none => rfl
      | some p => exact (thing p rfl).symm
  | deleteRefCount rc ptr => exact (content rc rfl).trans locals
  | decAndTest name tmp change =>
      refine (deepSame _ (uses_singleton name other)).trans (Eq.trans locals ?_)
      rw [thing tmp rfl]
  | incRef name rc tmp change =>
      have uses := uses_singleton name other
      exact ⟨(countSame _ uses).trans locals.1,
        (pointerSame _ uses).trans (locals.2.trans (content rc rfl).symm)⟩
  | becomeUnique name tmp change =>
      refine (deepSame _ (uses_singleton name other)).trans (Eq.trans locals ?_)
      rw [thing tmp rfl]
  | _ => trivial

theorem constructed_itself {target : Target Name}
    (unused : (constructed target : Point Name Thread RC Obj Value).usesTemporary = false) :
    target = .itself target.name := by
  cases target with
  | itself _ => rfl
  | temporaryFor _ => cases unused

theorem constructed_names {target : Target Name} {name : Name}
    (member : name ∈ (constructed target : Point Name Thread RC Obj Value).names) :
    name = target.name := by
  cases target with
  | itself _ => cases member
  | temporaryFor _ => exact List.mem_singleton.mp member

end Point

/-- The accounting of the references reads the points like this. -/
def protocol : Protocol Name Thread RC (Option Value) (Point Name Thread RC Obj Value) where
  names := Point.names
  keeps point rc := point.keeps rc
  usesTemporary := Point.usesTemporary
  insideClone := Point.insideClone
  Facts sharing thread point := point.Facts sharing thread
  inside_names := Point.inside_names
  inside_holds := Point.inside_holds
  frame := Point.Facts.frame

variable [Fintype Name] [Fintype Thread] [DecidableEq Name] [DecidableEq Thread] [DecidableEq RC]
  [DecidableEq Obj]

/-- This is the invariant: the counts are the cells of an accounting, and they show the values of
the objects that they own. -/
structure Shared (state : State Name Thread RC Obj Value)
    (sharing : Sharing Thread (Slot Name Thread) RC (Option Value))
    (custody : Custody Thread RC Obj Value) : Prop where
  refCount : ∀ rc, state.refCount rc = (sharing.cell rc).map Prod.fst
  object : state.object = custody.thing
  accounted : Accounted protocol state.m_pRefCount state.deep state.point sharing
  guarded : custody.Sound sharing.values
  pointers : ∀ slot rc, sharing.holds slot = some rc → state.m_pObj slot = custody.content rc
  carriers : ∀ thread p, custody.owner p = some (.inr thread) ↔ (state.point thread).carries p
  locals : ∀ thread, (state.point thread).Locals custody state.deep state.m_pRefCount
    state.m_pObj

variable {state next : State Name Thread RC Obj Value} {thread : Thread}
  {sharing after : Sharing Thread (Slot Name Thread) RC (Option Value)}
  {custody custodyAfter : Custody Thread RC Obj Value}

namespace Shared

omit [DecidableEq Name] [DecidableEq Thread] [DecidableEq Obj] in
/-- A reference that stays at its count stays at the object of that count. -/
theorem pointer_stays (shared : Shared state sharing custody) {slot : Slot Name Thread} {rc : RC}
    (before : sharing.holds slot = some rc) (sound : after.Sound)
    (held : after.holds slot = some rc)
    (guard : Custody.Frame thread custody custodyAfter sharing.values after.values) :
    state.m_pObj slot = custodyAfter.content rc := by
  obtain ⟨_, _, live, -⟩ := shared.accounted.sound.shown before
  obtain ⟨_, _, liveNow, -⟩ := sound.shown held
  rw [shared.pointers slot rc before, guard.content rc]
  · simp [Sharing.values, live]
  · simp [Sharing.values, liveNow]

omit [DecidableEq Name] [DecidableEq Obj] in
/-- A step of one thread keeps the invariant when it keeps the part of that thread. -/
theorem advance (shared : Shared state sharing custody)
    {current new : Point Name Thread RC Obj Value} (here : state.point thread = current)
    (point : next.point = Function.update state.point thread new)
    (accounted : Accounted protocol next.m_pRefCount next.deep next.point after)
    (frame : Sharing.Frame (Uses current.names thread) thread sharing after)
    (guarded : custodyAfter.Sound after.values ∧
      Custody.Frame thread custody custodyAfter sharing.values after.values)
    (refCount : ∀ rc, next.refCount rc = (after.cell rc).map Prod.fst)
    (object : next.object = custodyAfter.thing)
    (others : ∀ slot, ¬ Uses current.names thread slot →
      next.m_pRefCount slot = state.m_pRefCount slot ∧ next.m_pObj slot = state.m_pObj slot)
    (pointers : ∀ slot rc, Uses current.names thread slot → after.holds slot = some rc →
      next.m_pObj slot = custodyAfter.content rc)
    (carriers : ∀ p, custodyAfter.owner p = some (.inr thread) ↔ new.carries p)
    (locals : new.Locals custodyAfter next.deep next.m_pRefCount next.m_pObj) :
    Shared next after custodyAfter := by
  obtain ⟨sound, guard⟩ := guarded
  subst here
  have here : next.point thread = new := by
    rw [point, Function.update_self]
  have elsewhere (other : Thread) (different : other ≠ thread) :
      next.point other = state.point other := by
    rw [point, Function.update_of_ne different]
  refine ⟨refCount, object, accounted, sound, ?_, ?_, ?_⟩
  · intro slot rc held
    by_cases mine : Uses (state.point thread).names thread slot
    · exact pointers slot rc mine held
    · have before := held
      rw [frame.holds slot mine] at before
      rw [(others slot mine).2]
      exact shared.pointer_stays before accounted.sound held guard
  · intro other p
    by_cases same : other = thread
    · subst same
      rw [here]
      exact carriers p
    · rw [elsewhere other same, ← shared.carriers other p]
      exact ⟨guard.notCarried p other same, fun carried => (guard.carried p other same carried).1⟩
  · intro other
    by_cases same : other = thread
    · subst same
      rw [here]
      exact locals
    · rw [elsewhere other same]
      have apart (slot : Slot Name Thread) (uses : Uses (state.point other).names other slot) :
          ¬ Uses (state.point thread).names thread slot :=
        shared.accounted.separate.not_uses same uses
      apply (shared.locals other).frame same (shared.carriers other) _ guard
      · intro slot uses
        rw [accounted.values, frame.deep slot (apart slot uses), shared.accounted.values]
      · intro slot uses
        exact (others slot (apart slot uses)).1
      · intro slot uses
        exact (others slot (apart slot uses)).2
      · intro rc keeps
        have kept := (shared.accounted.keepers other rc).mpr keeps
        obtain ⟨value, live⟩ := shared.accounted.sound.kept.mp ⟨other, kept⟩
        have liveNow := (frame.kept rc other same kept).2.trans live
        simp [Sharing.values, live, liveNow]

omit [DecidableEq Name] [DecidableEq Obj] in
/-- A step that changes no reference, no count and no value. -/
theorem stay (shared : Shared state sharing custody)
    {current new : Point Name Thread RC Obj Value} (here : state.point thread = current)
    {object : Obj → Option Value}
    (guarded : custodyAfter.Sound sharing.values ∧
      Custody.Frame thread custody custodyAfter sharing.values sharing.values)
    (memory : object = custodyAfter.thing)
    (content : custodyAfter.content = custody.content)
    (outside : current.insideClone = none) (fewer : ∀ name ∈ new.names, name ∈ current.names)
    (nothing : ∀ rc, ¬ current.keeps rc) (unkept : ∀ rc, ¬ new.keeps rc)
    (temporary : new.usesTemporary = false → current.usesTemporary = false)
    (facts : new.Facts sharing thread)
    (carriers : ∀ p, custodyAfter.owner p = some (.inr thread) ↔ new.carries p)
    (locals : new.Locals custodyAfter state.deep state.m_pRefCount state.m_pObj) :
    Shared ((state.withObject object).goTo thread new) sharing custodyAfter := by
  have accounted := shared.accounted
  have frame := Sharing.Frame.refl (Uses current.names thread) thread sharing
  refine shared.advance here rfl ?_ frame guarded shared.refCount memory
    (fun _ _ => ⟨rfl, rfl⟩) ?_ carriers locals
  · exact accounted.stay here ⟨accounted.sound, frame⟩ rfl rfl outside fewer
      (fun rc => iff_of_false (accounted.no_keeper here nothing rc) (unkept rc)) temporary facts
  · intro slot rc _ held
    rw [content]
    exact shared.pointers slot rc held

/-- The step of the thread is defined and keeps the invariant. -/
def Proceeds (state : State Name Thread RC Obj Value) (thread : Thread) (freshCount : RC)
    (fresh : Obj) : Prop :=
  ∃ next after custodyAfter, state.run thread freshCount fresh = some next ∧
    Shared next after custodyAfter

omit [DecidableEq Name] [DecidableEq Thread] [DecidableEq Obj] in
/-- The objects that a thread carries. -/
theorem carrier (shared : Shared state sharing custody)
    {current : Point Name Thread RC Obj Value} (here : state.point thread = current) (p : Obj) :
    custody.owner p = some (.inr thread) ↔ current.carries p := by
  subst here
  exact shared.carriers thread p

theorem construct (shared : Shared state sharing custody) {target : Target Name}
    {value : Option Value} (here : state.point thread = .construct target value) (freshCount : RC)
    {fresh : Obj} (free : value.isSome → state.object fresh = none) :
    Proceeds state thread freshCount fresh := by
  have facts := shared.accounted.factsAt here
  have before (p : Obj) := shared.carrier here p
  cases value with
  | none =>
      refine ⟨_, sharing, custody, by
        unfold State.run
        rw [here], ?_⟩
      refine shared.stay here ⟨shared.guarded, .refl _ _ _⟩ shared.object rfl rfl (fun _ => id)
        (fun _ => id) (fun _ => id) (fun _ => rfl) facts ?_ rfl
      intro p
      rw [before]
      exact iff_of_false id (fun impossible => by cases impossible)
  | some value =>
      have unused := free rfl
      rw [shared.object] at unused
      refine ⟨_, sharing, custody.make thread fresh value, by
        unfold State.run
        rw [here], ?_⟩
      refine shared.stay here (shared.guarded.make thread unused value) ?_ rfl rfl (fun _ => id)
        (fun _ => id) (fun _ => id) (fun _ => rfl) facts ?_ ?_
      · rw [shared.object]
        rfl
      · intro p
        show Function.update custody.owner fresh _ p = _ ↔ some fresh = some p
        rw [update_eq_some_iff, before]
        constructor
        · rintro (⟨same, -⟩ | ⟨-, impossible⟩)
          · rw [same]
          · exact absurd impossible id
        · intro same
          exact .inl ⟨(Option.some.inj same).symm, rfl⟩
      · show some value = Function.update custody.thing fresh (some value) fresh
        rw [Function.update_self]

omit [DecidableEq Name] [DecidableEq Thread] in
/-- A new count becomes the owner of the object. -/
theorem attached (shared : Shared state sharing custody) {rc : RC} (free : sharing.cell rc = none)
    {ptr : Option Obj} (carried : ∀ p, ptr = some p → custody.owner p = some (.inr thread)) :
    ∃ custodyAfter : Custody Thread RC Obj Value,
      (custodyAfter.Sound (Function.update sharing.values rc (some (ptr.bind custody.thing))) ∧
        Custody.Frame thread custody custodyAfter sharing.values
          (Function.update sharing.values rc (some (ptr.bind custody.thing)))) ∧
      custodyAfter.thing = custody.thing ∧ custodyAfter.content rc = ptr ∧
      ∀ p, custodyAfter.owner p = some (.inr thread) ↔
        custody.owner p = some (.inr thread) ∧ ptr ≠ some p := by
  have new : sharing.values rc = none := congrArg (Option.map Prod.snd) free
  cases ptr with
  | none =>
      refine ⟨custody, shared.guarded.attach_null thread new, rfl, shared.guarded.closed rc new, ?_⟩
      intro p
      exact ⟨fun owned => ⟨owned, fun impossible => by cases impossible⟩, And.left⟩
  | some p =>
      have owned := carried p rfl
      have live := shared.guarded.live p
      rw [owned] at live
      obtain ⟨value, shows⟩ := Option.isSome_iff_exists.mp live.symm
      refine ⟨custody.attach rc p, ?_, rfl, Function.update_self _ _ _, ?_⟩
      · rw [Option.bind_some, shows]
        exact shared.guarded.attach new owned shows
      · intro other
        show Function.update custody.owner p _ other = _ ↔ _
        rw [update_eq_some_iff]
        constructor
        · rintro (⟨-, impossible⟩ | ⟨apart, before⟩)
          · cases Option.some.inj impossible
          · exact ⟨before, fun same => apart (Option.some.inj same).symm⟩
        · rintro ⟨before, apart⟩
          exact .inr ⟨fun same => apart (congrArg some same.symm), before⟩

theorem counts_update {cells : RC → Option (Int × Option Value)} {counts : RC → Option Int}
    (before : ∀ rc, counts rc = (cells rc).map Prod.fst) (rc other : RC)
    (new : Option (Int × Option Value)) :
    Function.update counts rc (new.map Prod.fst) other =
      (Function.update cells rc new other).map Prod.fst := by
  by_cases same : other = rc
  · subst same
    simp only [Function.update_self]
  · simp only [Function.update_of_ne same]
    exact before other

/-- A constructor makes the first reference of a count. -/
theorem newRefCount (shared : Shared state sharing custody) {target : Target Name}
    {ptr : Option Obj} {value : Option Value}
    (here : state.point thread = .newRefCount target ptr value) {freshCount : RC}
    (free : state.refCount freshCount = none) (fresh : Obj) :
    Proceeds state thread freshCount fresh := by
  have accounted := shared.accounted
  have names := List.mem_singleton_self target.name
  have uses := target.uses_slot names thread
  obtain ⟨empty, ready⟩ := accounted.factsAt here
  have shows : value = ptr.bind custody.thing := by
    have locals := shared.locals thread
    rw [here] at locals
    exact locals
  have carried (p : Obj) : custody.owner p = some (.inr thread) ↔ ptr = some p :=
    shared.carrier here p
  have unused : sharing.cell freshCount = none := by
    rw [shared.refCount] at free
    exact Option.map_eq_none_iff.mp free
  obtain ⟨custodyAfter, guarded, thing, content, owner⟩ :=
    shared.attached unused fun p => (carried p).mpr
  subst shows
  refine ⟨_, sharing.create thread (target.slot thread) freshCount (ptr.bind custody.thing),
    custodyAfter, by
    unfold State.run
    rw [here], ?_⟩
  have effect := accounted.sound.create thread uses empty unused (ptr.bind custody.thing)
  apply shared.advance here rfl _ effect.2
  · rw [Sharing.values_create]
    exact guarded
  · intro rc
    rw [Sharing.create_cell]
    exact counts_update shared.refCount freshCount rc (some (1, ptr.bind custody.thing))
  · exact shared.object.trans thing.symm
  · intro slot notMine
    have apart : slot ≠ target.slot thread := by
      rintro rfl
      exact notMine uses
    exact ⟨Function.update_of_ne apart _ _, Function.update_of_ne apart _ _⟩
  · intro slot rc _ held
    have now : Function.update sharing.holds (target.slot thread) (some freshCount) slot =
        some rc := held
    show Function.update state.m_pObj (target.slot thread) ptr slot = custodyAfter.content rc
    by_cases same : slot = target.slot thread
    · subst same
      rw [Function.update_self] at now ⊢
      cases now
      exact content.symm
    · rw [Function.update_of_ne same] at now ⊢
      have before := now
      apply shared.pointer_stays before effect.1 held
      rw [Sharing.values_create]
      exact guarded.2
  · intro p
    rw [owner, carried]
    cases target <;> exact iff_of_false (fun both => both.2 both.1) id
  · cases target <;> trivial
  · refine accounted.constructed here names effect rfl rfl (fun impossible => by cases impossible)
      rfl rfl ?_ (fun _ => Point.constructed_names) ?_ Point.constructed_itself ?_
    · intro rc kept
      exact accounted.no_keeper here (fun _ => id) rc (Sharing.create_keeper.mp kept).2
    · intro rc
      cases target <;> exact id
    · cases target with
      | itself _ => trivial
      | temporaryFor name =>
          obtain ⟨rc, held⟩ := ready
          refine ⟨rc, ?_⟩
          show Function.update sharing.holds (.inr thread) (some freshCount) (.inl name) = some rc
          rw [Function.update_of_ne Sum.inl_ne_inr]
          exact held

omit [DecidableEq Name] [DecidableEq Thread] [DecidableEq Obj] in
/-- A change of the counts alone leaves the objects alone. -/
theorem unmoved (shared : Shared state sharing custody) (values : after.values = sharing.values) :
    custody.Sound after.values ∧
      Custody.Frame thread custody custody sharing.values after.values := by
  rw [values]
  exact ⟨shared.guarded, .refl _ _ _⟩

theorem copy (shared : Shared state sharing custody) {target : Target Name} {rhs : Name}
    (here : state.point thread = .copy target rhs) (freshCount : RC) (fresh : Obj) :
    Proceeds state thread freshCount fresh := by
  have accounted := shared.accounted
  have names : target.name ∈ [target.name, rhs] := List.mem_cons_self
  have uses := target.uses_slot names thread
  have source : Uses [target.name, rhs] thread (.inl rhs) :=
    List.mem_cons_of_mem _ (List.mem_singleton_self rhs)
  obtain ⟨empty, ready, rc, held⟩ := accounted.factsAt here
  have link := (accounted.own here rfl source).1
  obtain ⟨count, value, live, shown⟩ := accounted.sound.shown held
  have counted : state.refCount rc = some count := by
    rw [shared.refCount, live]
    rfl
  have effect : (sharing.hold (target.slot thread) rc count value).Sound ∧ Sharing.Frame
      (Uses [target.name, rhs] thread) thread sharing
      (sharing.hold (target.slot thread) rc count value) :=
    accounted.sound.hold uses empty live (.inl ⟨.inl rhs, source, held⟩)
  refine ⟨_, sharing.hold (target.slot thread) rc count value, custody, by
    unfold State.run
    rw [here]
    simp only [← link, held, Option.bind_eq_bind, Option.bind_some, inc, counted, Option.map_some]
    rfl, ?_⟩
  apply shared.advance here rfl _ effect.2
  · exact shared.unmoved (Sharing.values_hold live)
  · exact fun other =>
      counts_update shared.refCount rc other (some (count + 1, value))
  · exact shared.object
  · intro slot notMine
    have apart : slot ≠ target.slot thread := by
      rintro rfl
      exact notMine uses
    exact ⟨Function.update_of_ne apart _ _, Function.update_of_ne apart _ _⟩
  · intro slot other _ held'
    have now : Function.update sharing.holds (target.slot thread) (some rc) slot = some other :=
      held'
    show Function.update state.m_pObj (target.slot thread) _ slot = custody.content other
    by_cases same : slot = target.slot thread
    · subst same
      rw [Function.update_self] at now ⊢
      cases now
      exact shared.pointers _ rc held
    · rw [Function.update_of_ne same] at now ⊢
      exact shared.pointers slot other now
  · intro p
    rw [shared.carrier here]
    cases target <;> exact Iff.rfl
  · cases target <;> trivial
  · refine accounted.constructed here names effect rfl ?_ (fun impossible => by cases impossible)
      rfl rfl ?_ (fun _ => Point.constructed_names) ?_ Point.constructed_itself ?_
    · rw [accounted.values, shown]
      rfl
    · intro other kept
      obtain ⟨-, impossible⟩ | ⟨-, before⟩ := update_eq_some_iff.mp kept
      · cases impossible
      · exact accounted.no_keeper here (fun _ => id) other before
    · intro other
      cases target <;> exact id
    · cases target with
      | itself _ => trivial
      | temporaryFor name =>
          obtain ⟨other, before⟩ := ready
          refine ⟨other, ?_⟩
          show Function.update sharing.holds (.inr thread) (some rc) (.inl name) = some other
          rw [Function.update_of_ne Sum.inl_ne_inr]
          exact before

omit [DecidableEq Obj] in
/-- Two references of the thread are swapped. -/
theorem exchanged (shared : Shared state sharing custody)
    {current new : Point Name Thread RC Obj Value} (here : state.point thread = current)
    {one other : Slot Name Thread} (uses : Uses current.names thread one)
    (usesToo : Uses current.names thread other) (outside : current.insideClone = none)
    (fewer : ∀ name ∈ new.names, name ∈ current.names) (nothing : ∀ rc, ¬ current.keeps rc)
    (unkept : ∀ rc, ¬ new.keeps rc)
    (temporary : new.usesTemporary = false → (sharing.exchange one other).holds (.inr thread) = none)
    (facts : new.Facts (sharing.exchange one other) thread)
    (carriers : ∀ p, current.carries p ↔ new.carries p)
    (locals : new.Locals custody (state.deep ∘ Equiv.swap one other)
      (state.m_pRefCount ∘ Equiv.swap one other) (state.m_pObj ∘ Equiv.swap one other)) :
    Shared ((state.exchange one other).goTo thread new) (sharing.exchange one other) custody := by
  have effect := shared.accounted.sound.exchange thread uses usesToo
  apply shared.advance here rfl _ effect.2
  · exact shared.unmoved rfl
  · exact shared.refCount
  · exact shared.object
  · intro slot notMine
    show state.m_pRefCount (Equiv.swap one other slot) = _ ∧
      state.m_pObj (Equiv.swap one other slot) = _
    rw [Sharing.swap_elsewhere uses usesToo notMine]
    exact ⟨rfl, rfl⟩
  · intro slot rc _ held
    exact shared.pointers _ rc held
  · intro p
    rw [shared.carrier here]
    exact carriers p
  · exact locals
  · exact shared.accounted.exchanged here uses usesToo outside fewer nothing unkept temporary facts

theorem swapTemporary (shared : Shared state sharing custody) {name : Name}
    (here : state.point thread = .swapTemporary name) (freshCount : RC) (fresh : Obj) :
    Proceeds state thread freshCount fresh := by
  obtain ⟨rc, held⟩ := shared.accounted.factsAt here
  refine ⟨_, sharing.exchange (.inr thread) (.inl name), custody, by
    unfold State.run
    rw [here], ?_⟩
  refine shared.exchanged here rfl (uses_singleton name thread) rfl
    (fun _ member => by cases member) (fun _ => id) (fun _ => id) (fun used => by cases used) ?_
    (fun _ => Iff.rfl) trivial
  refine ⟨fun _ => rfl, rc, ?_⟩
  show sharing.holds (Equiv.swap _ _ _) = some rc
  rw [Equiv.swap_apply_left]
  exact held

theorem swap (shared : Shared state sharing custody) {name rhs : Name}
    (here : state.point thread = .swap name rhs) (freshCount : RC) (fresh : Obj) :
    Proceeds state thread freshCount fresh := by
  refine ⟨_, sharing.exchange (.inl name) (.inl rhs), custody, by
    unfold State.run
    rw [here], ?_⟩
  refine shared.exchanged here List.mem_cons_self
    (List.mem_cons_of_mem _ (List.mem_singleton_self _)) rfl (fun _ member => by cases member)
    (fun _ => id) (fun _ => id) (fun _ => ?_) trivial (fun _ => Iff.rfl) trivial
  show sharing.holds (Equiv.swap _ _ (.inr thread)) = none
  rw [Equiv.swap_apply_of_ne_of_ne Sum.inr_ne_inl Sum.inr_ne_inl]
  exact shared.accounted.noTemporary here rfl

omit [DecidableEq Name] [DecidableEq Thread] [DecidableEq Obj] in
theorem localsAt (shared : Shared state sharing custody)
    {current : Point Name Thread RC Obj Value} (here : state.point thread = current) :
    current.Locals custody state.deep state.m_pRefCount state.m_pObj := by
  subst here
  exact shared.locals thread

omit [DecidableEq Name] [DecidableEq Thread] [DecidableEq Obj] in
theorem counted (shared : Shared state sharing custody) {rc : RC} {count : Int}
    {value : Option Value} (live : sharing.cell rc = some (count, value)) :
    state.refCount rc = some count := by
  rw [shared.refCount, live]
  rfl

/-- The last reference leaves the count to the thread, which deletes it and then the object. -/
theorem decRef (shared : Shared state sharing custody) {slot : Slot Name Thread}
    (here : state.point thread = .decRef slot) (freshCount : RC) (fresh : Obj) :
    Proceeds state thread freshCount fresh := by
  have accounted := shared.accounted
  obtain ⟨own, rc, held⟩ := accounted.factsAt here
  have uses : Uses (@Point.decRef Name Thread RC Obj Value slot).names thread slot := by
    cases slot with
    | inl name => exact uses_singleton name thread
    | inr owner => exact Sum.inr.inj (own rfl)
  have temporary : slot = .inr thread ∨
      (@Point.decRef Name Thread RC Obj Value slot).usesTemporary = false := by
    cases slot with
    | inl name => exact .inr rfl
    | inr owner => exact .inl (own rfl)
  have link := (accounted.own here rfl uses).1
  obtain ⟨count, value, live, -⟩ := accounted.sound.shown held
  have effect := accounted.sound.leave thread uses held live none
  refine ⟨_, sharing.leave thread slot rc count value none, custody, by
    unfold State.run
    rw [here]
    simp only [← link, held, Option.bind_eq_bind, Option.bind_some,
      COWReference.decAndTest, shared.counted live, Option.map_some]
    rfl, ?_⟩
  apply shared.advance here rfl _ effect.2
  · exact shared.unmoved (Sharing.values_leave live)
  · exact fun other => counts_update shared.refCount rc other (some (count - 1, value))
  · exact shared.object
  · intro other notMine
    have apart : other ≠ slot := by
      rintro rfl
      exact notMine uses
    exact ⟨Function.update_of_ne apart _ _, Function.update_of_ne apart _ _⟩
  · intro other cell _ still
    have now : Function.update sharing.holds slot none other = some cell := still
    have apart : other ≠ slot := by
      rintro rfl
      rw [Function.update_self] at now
      cases now
    rw [Function.update_of_ne apart] at now
    exact (Function.update_of_ne apart _ _).trans (shared.pointers other cell now)
  · intro p
    rw [shared.carrier here]
    split <;> exact Iff.rfl
  · split
    · exact (shared.pointers slot rc held).symm
    · trivial
  · apply accounted.released here uses held live rfl (fun _ => id) _ _ temporary
    · split <;> trivial
    · intro name member
      split at member <;> cases member
    · intro other
      by_cases last : count = 1
      · subst last
        simp [protocol, Point.keeps]
      · have more : ¬ count - 1 = 0 := by omega
        simp [protocol, Point.keeps, last, more]

theorem deleteRefCount (shared : Shared state sharing custody) {rc : RC} {ptr : Option Obj}
    (here : state.point thread = .deleteRefCount rc ptr) (freshCount : RC) (fresh : Obj) :
    Proceeds state thread freshCount fresh := by
  have accounted := shared.accounted
  have kept := accounted.keeper here rfl
  have content : custody.content rc = ptr := shared.localsAt here
  obtain ⟨value, live⟩ := accounted.sound.kept.mp ⟨thread, kept⟩
  have effect := accounted.sound.free (Uses [] thread) kept
  refine ⟨_, sharing.free rc, custody.detach thread rc, by
    unfold State.run
    rw [here]
    simp only [shared.counted live]
    rfl, ?_⟩
  apply shared.advance here rfl _ effect.2
  · have values : (sharing.free rc).values = Function.update sharing.values rc none :=
      Sharing.values_update
    rw [values]
    exact shared.guarded.detach thread rc
  · exact fun other => counts_update shared.refCount rc other none
  · exact shared.object
  · exact fun _ _ => ⟨rfl, rfl⟩
  · intro slot other _ held
    have apart : other ≠ rc := by
      rintro rfl
      exact accounted.sound.not_kept kept held
    exact (shared.pointers slot other held).trans (Function.update_of_ne apart _ _).symm
  · intro p
    show (if custody.content rc = some p then _ else custody.owner p) = _ ↔ ptr = some p
    rw [content]
    by_cases same : ptr = some p
    · rw [if_pos same]
      exact iff_of_true rfl same
    · rw [if_neg same, shared.carrier here]
      exact iff_of_false id same
  · trivial
  · exact accounted.freed here kept (fun _ => Iff.rfl) (fun _ => id) rfl
      (fun _ member => by cases member) (fun _ => rfl) trivial

/-- The object goes away after its count. -/
theorem deleteObject (shared : Shared state sharing custody) {ptr : Option Obj}
    (here : state.point thread = .deleteObject ptr) (freshCount : RC) (fresh : Obj) :
    Proceeds state thread freshCount fresh := by
  cases ptr with
  | none =>
      refine ⟨_, sharing, custody, by
        unfold State.run
        rw [here], ?_⟩
      refine shared.stay here ⟨shared.guarded, .refl _ _ _⟩ shared.object rfl rfl
        (fun _ member => by cases member) (fun _ => id) (fun _ => id) (fun _ => rfl) trivial ?_
        trivial
      intro p
      rw [shared.carrier here]
      exact iff_of_false (fun impossible => by cases impossible) id
  | some p =>
      have carried := (shared.carrier here p).mpr rfl
      have live := shared.guarded.live p
      rw [carried, ← shared.object] at live
      obtain ⟨value, shows⟩ := Option.isSome_iff_exists.mp live.symm
      refine ⟨_, sharing, custody.drop p, by
        unfold State.run
        rw [here]
        simp only [shows]
        rfl, ?_⟩
      refine shared.stay here (shared.guarded.drop carried) ?_ rfl rfl
        (fun _ member => by cases member) (fun _ => id) (fun _ => id) (fun _ => rfl) trivial ?_
        trivial
      · rw [shared.object]
        rfl
      · intro other
        show Function.update custody.owner p none other = _ ↔ _
        rw [update_eq_some_iff, shared.carrier here]
        apply iff_of_false _ id
        rintro (⟨-, impossible⟩ | ⟨apart, same⟩)
        · cases impossible
        · exact apart (Option.some.inj same).symm

/-- A count that is not greater than one is the count of the only reference. -/
theorem refCountGreaterThanOne (shared : Shared state sharing custody) {name : Name}
    {change : Value → Value} (here : state.point thread = .refCountGreaterThanOne name change)
    (freshCount : RC) (fresh : Obj) : Proceeds state thread freshCount fresh := by
  have accounted := shared.accounted
  obtain ⟨rc, value, held, shows⟩ := accounted.factsAt here
  have link := (accounted.own here rfl (uses_singleton name thread)).1
  obtain ⟨count, content, live, shown⟩ := accounted.sound.shown held
  have same : some value = content := Option.some.inj (shows.symm.trans shown)
  subst same
  have positive := Sharing.uses_pos held
  have total := accounted.sound.count live
  refine ⟨_, sharing, custody, by
    unfold State.run
    rw [here]
    simp only [← link, held, Option.bind_eq_bind, Option.bind_some, shared.counted live]
    rfl, ?_⟩
  have carriers (p : Obj) : custody.owner p = some (.inr thread) ↔ False := shared.carrier here p
  have guarded : custody.Sound sharing.values ∧
      Custody.Frame thread custody custody sharing.values sharing.values :=
    ⟨shared.guarded, .refl _ _ _⟩
  by_cases more : count > 1
  · rw [if_pos more]
    exact shared.stay here guarded shared.object rfl rfl (fun _ => id) (fun _ => id) (fun _ => id)
      (fun _ => rfl) ⟨rc, value, held, shows⟩ carriers trivial
  · rw [if_neg more]
    have single : count = 1 := by omega
    rw [single] at live
    exact shared.stay here guarded shared.object rfl rfl (fun _ => id) (fun _ => id) (fun _ => id)
      (fun _ => rfl) ⟨rc, value, held, live⟩ carriers trivial

omit [DecidableEq Name] [DecidableEq Thread] [DecidableEq Obj] in
/-- A reference that is not null points to a live object with its value. -/
theorem pointee (shared : Shared state sharing custody) {slot : Slot Name Thread} {rc : RC}
    {value : Value} (held : sharing.holds slot = some rc)
    (shows : sharing.deep slot = some (some value)) :
    ∃ p, state.m_pObj slot = some p ∧ custody.content rc = some p ∧
      state.object p = some value := by
  obtain ⟨count, content, live, shown⟩ := shared.accounted.sound.shown held
  have same : some value = content := Option.some.inj (shows.symm.trans shown)
  subst same
  have value' := shared.guarded.value rc (some value) (congrArg (Option.map Prod.snd) live)
  have pointer := shared.pointers slot rc held
  cases inside : custody.content rc with
  | none =>
      rw [inside] at value'
      cases value'
  | some p =>
      rw [inside] at value' pointer
      rw [shared.object]
      exact ⟨p, pointer, rfl, value'.symm⟩

/-- The clone shows the value of the object at this step. -/
theorem clone (shared : Shared state sharing custody) {name : Name} {change : Value → Value}
    (here : state.point thread = .clone name change) (freshCount : RC) {fresh : Obj}
    (free : state.object fresh = none) : Proceeds state thread freshCount fresh := by
  obtain ⟨rc, value, held, shows⟩ := shared.accounted.factsAt here
  obtain ⟨p, pointer, -, live⟩ := shared.pointee held shows
  rw [shared.object] at free
  refine ⟨_, sharing, custody.make thread fresh value, by
    unfold State.run
    rw [here]
    simp only [pointer, Option.bind_eq_bind, Option.bind_some, live]
    rfl, ?_⟩
  refine shared.stay here (shared.guarded.make thread free value) ?_ rfl rfl (fun _ => id)
    (fun _ => id) (fun _ => id) (fun _ => rfl) ⟨rc, value, held, shows⟩ ?_ ?_
  · rw [shared.object]
    rfl
  · intro other
    show Function.update custody.owner fresh _ other = _ ↔ other = fresh
    rw [update_eq_some_iff, shared.carrier here]
    constructor
    · rintro (⟨same, -⟩ | ⟨-, impossible⟩)
      · exact same
      · exact absurd impossible id
    · intro same
      exact .inl ⟨same, rfl⟩
  · show state.deep (.inl name) = some (Function.update custody.thing fresh (some value) fresh)
    rw [Function.update_self, shared.accounted.values]
    exact shows

/-- The reference gives its count up. When it was the last one, the thread takes it back. -/
theorem decAndTest (shared : Shared state sharing custody) {name : Name} {tmp : Obj}
    {change : Value → Value} (here : state.point thread = .decAndTest name tmp change)
    (freshCount : RC) (fresh : Obj) : Proceeds state thread freshCount fresh := by
  have accounted := shared.accounted
  obtain ⟨rc, made, held, shows⟩ := accounted.factsAt here
  have fromClone : state.deep (.inl name) = some (custody.thing tmp) := shared.localsAt here
  have uses := uses_singleton name thread
  have link := (accounted.own here rfl uses).1
  obtain ⟨count, value, live, shown⟩ := accounted.sound.shown held
  have same : some made = value := Option.some.inj (shows.symm.trans shown)
  subst same
  have effect := accounted.sound.leave thread uses held live (some (some made))
  refine ⟨_, sharing.leave thread (.inl name) rc count (some made) (some (some made)), custody, by
    unfold State.run
    rw [here]
    simp only [← link, held, Option.bind_eq_bind, Option.bind_some,
      COWReference.decAndTest, shared.counted live, Option.map_some]
    rfl, ?_⟩
  have empty : Function.update sharing.holds (Sum.inl name) none (.inl name) = none :=
    Function.update_self _ _ _
  have kept : Function.update sharing.deep (Sum.inl name) (some (some made)) (.inl name) =
      some (some made) := Function.update_self _ _ _
  apply shared.advance here rfl _ effect.2
  · exact shared.unmoved (Sharing.values_leave live)
  · exact fun other => counts_update shared.refCount rc other (some (count - 1, some made))
  · exact shared.object
  · exact fun _ _ => ⟨rfl, rfl⟩
  · intro other cell _ still
    have now : Function.update sharing.holds (.inl name) none other = some cell := still
    have apart : other ≠ .inl name := by
      rintro rfl
      rw [Function.update_self] at now
      cases now
    rw [Function.update_of_ne apart] at now
    exact shared.pointers other cell now
  · intro p
    rw [shared.carrier here]
    split <;> exact Iff.rfl
  · split
    · exact ⟨link.symm.trans held, shared.pointers _ rc held⟩
    · exact fromClone
  · by_cases last : count = 1
    · subst last
      exact accounted.givenUp here rfl held live rfl rfl id rfl rfl
        (fun other => by simp [protocol, Point.keeps])
        ⟨empty, made, Function.update_self _ _ _, kept⟩
    · have more : decide (count - 1 = 0) = false := decide_eq_false (by omega)
      show Accounted protocol state.m_pRefCount state.deep (Function.update state.point thread
        (if decide (count - 1 = 0) then _ else _)) _
      rw [more]
      exact accounted.givenUp here rfl held live rfl rfl id rfl rfl
        (fun other => by simp [protocol, Point.keeps, last]) ⟨empty, made, kept⟩

/-- The thread takes the count back. -/
theorem incRef (shared : Shared state sharing custody) {name : Name} {rc : RC} {tmp : Obj}
    {change : Value → Value} (here : state.point thread = .incRef name rc tmp change)
    (freshCount : RC) (fresh : Obj) : Proceeds state thread freshCount fresh := by
  have accounted := shared.accounted
  obtain ⟨empty, value, live, shows⟩ := accounted.factsAt here
  obtain ⟨same, pointer⟩ := shared.localsAt here
  have unchanged : Function.update state.m_pRefCount (.inl name) (some rc) = state.m_pRefCount := by
    rw [← same, Function.update_eq_self]
  have effect : (sharing.hold (.inl name) rc 0 (some value)).Sound ∧ Sharing.Frame
      (Uses [name] thread) thread sharing (sharing.hold (.inl name) rc 0 (some value)) :=
    accounted.sound.hold (uses_singleton name thread) empty live
      (.inr (accounted.keeper here rfl))
  have rest (other : RC) : other = rc ∧ other ≠ rc ↔ False :=
    iff_of_false (fun both => both.2 both.1) id
  refine ⟨_, sharing.hold (.inl name) rc 0 (some value), custody, by
    unfold State.run
    rw [here]
    simp only [same, Option.bind_eq_bind, Option.bind_some, inc, shared.counted live,
      Option.map_some]
    rfl, ?_⟩
  apply shared.advance here rfl _ effect.2
  · exact shared.unmoved (Sharing.values_hold live)
  · exact fun other => counts_update shared.refCount rc other (some (0 + 1, some value))
  · exact shared.object
  · exact fun _ _ => ⟨rfl, rfl⟩
  · intro slot other _ held
    have now : Function.update sharing.holds (.inl name) (some rc) slot = some other := held
    by_cases here' : slot = .inl name
    · subst here'
      rw [Function.update_self] at now
      cases now
      exact pointer
    · rw [Function.update_of_ne here'] at now
      exact shared.pointers slot other now
  · intro p
    rw [shared.carrier here]
    exact Iff.rfl
  · trivial
  · show Accounted protocol state.m_pRefCount state.deep
      (Function.update state.point thread (.discard name tmp change)) _
    rw [← unchanged]
    exact accounted.held here rfl rfl empty live rfl shows rest rfl
      ⟨rc, value, Function.update_self _ _ _, Function.update_self _ _ _⟩

theorem discard (shared : Shared state sharing custody) {name : Name} {tmp : Obj}
    {change : Value → Value} (here : state.point thread = .discard name tmp change)
    (freshCount : RC) (fresh : Obj) : Proceeds state thread freshCount fresh := by
  have facts := shared.accounted.factsAt here
  have carried := (shared.carrier here tmp).mpr rfl
  have live := shared.guarded.live tmp
  rw [carried, ← shared.object] at live
  obtain ⟨value, shows⟩ := Option.isSome_iff_exists.mp live.symm
  refine ⟨_, sharing, custody.drop tmp, by
    unfold State.run
    rw [here]
    simp only [shows]
    rfl, ?_⟩
  refine shared.stay here (shared.guarded.drop carried) ?_ rfl rfl (fun _ => id) (fun _ => id)
    (fun _ => id) (fun _ => rfl) facts ?_ trivial
  · rw [shared.object]
    rfl
  · intro other
    show Function.update custody.owner tmp none other = _ ↔ _
    rw [update_eq_some_iff, shared.carrier here]
    apply iff_of_false _ id
    rintro (⟨-, impossible⟩ | ⟨apart, same⟩)
    · cases impossible
    · exact apart same

/-- The reference goes over to the clone with a count of its own. -/
theorem becomeUnique (shared : Shared state sharing custody) {name : Name} {tmp : Obj}
    {change : Value → Value} (here : state.point thread = .becomeUnique name tmp change)
    {freshCount : RC} (free : state.refCount freshCount = none) (fresh : Obj) :
    Proceeds state thread freshCount fresh := by
  have accounted := shared.accounted
  obtain ⟨empty, value, shows⟩ := accounted.factsAt here
  have fromClone : state.deep (.inl name) = some (custody.thing tmp) := shared.localsAt here
  have carried (p : Obj) : custody.owner p = some (.inr thread) ↔ p = tmp := shared.carrier here p
  have made : (some tmp).bind custody.thing = some value := by
    rw [accounted.values, shows] at fromClone
    exact (Option.some.inj fromClone).symm
  have unused : sharing.cell freshCount = none := by
    rw [shared.refCount] at free
    exact Option.map_eq_none_iff.mp free
  have carries (p : Obj) (same : some tmp = some p) : custody.owner p = some (.inr thread) :=
    (carried p).mpr (Option.some.inj same).symm
  obtain ⟨custodyAfter, guarded, thing, content, owner⟩ := shared.attached unused carries
  rw [made] at guarded
  have effect := accounted.sound.create thread (uses_singleton name thread) empty unused (some value)
  refine ⟨_, sharing.create thread (.inl name) freshCount (some value), custodyAfter, by
    unfold State.run
    rw [here], ?_⟩
  apply shared.advance here rfl _ effect.2
  · rw [Sharing.values_create]
    exact guarded
  · intro rc
    rw [Sharing.create_cell]
    exact counts_update shared.refCount freshCount rc (some (1, some value))
  · exact shared.object.trans thing.symm
  · intro slot notMine
    have apart : slot ≠ .inl name := by
      rintro rfl
      exact notMine (uses_singleton name thread)
    exact ⟨Function.update_of_ne apart _ _, Function.update_of_ne apart _ _⟩
  · intro slot rc _ held
    have now : Function.update sharing.holds (.inl name) (some freshCount) slot = some rc := held
    show Function.update state.m_pObj (.inl name) (some tmp) slot = custodyAfter.content rc
    by_cases same : slot = .inl name
    · subst same
      rw [Function.update_self] at now ⊢
      cases now
      exact content.symm
    · rw [Function.update_of_ne same] at now ⊢
      apply shared.pointer_stays now effect.1 held
      rw [Sharing.values_create]
      exact guarded.2
  · intro p
    rw [owner, carried]
    exact iff_of_false (fun both => both.2 (congrArg some both.1.symm)) id
  · trivial
  · refine accounted.created here rfl rfl empty unused shows (fun _ => id) (fun _ => id) rfl ?_
    refine ⟨freshCount, value, Function.update_self _ _ _, ?_⟩
    rw [Sharing.create_cell]
    exact Function.update_self _ _ _

/-- The caller changes an object without another reference. -/
theorem write (shared : Shared state sharing custody) {name : Name} {change : Value → Value}
    (here : state.point thread = .write name change) (freshCount : RC) (fresh : Obj) :
    Proceeds state thread freshCount fresh := by
  have accounted := shared.accounted
  obtain ⟨rc, value, held, single⟩ := accounted.factsAt here
  have shows : sharing.deep (.inl name) = some (some value) := by
    obtain ⟨_, _, live, shown⟩ := accounted.sound.shown held
    rw [single] at live
    cases live
    exact shown
  obtain ⟨p, pointer, content, live⟩ := shared.pointee held shows
  have effect := accounted.sound.write thread (uses_singleton name thread) held single
    (some (change value))
  refine ⟨_, sharing.write (.inl name) rc (some (change value)), custody.write p (change value), by
    unfold State.run
    rw [here]
    simp only [pointer, Option.bind_eq_bind, Option.bind_some, live, accounted.values, shows]
    rfl, ?_⟩
  apply shared.advance here rfl _ effect.2
  · have values : (sharing.write (.inl name) rc (some (change value))).values =
        Function.update sharing.values rc (some (some (change value))) := Sharing.values_update
    rw [values]
    exact shared.guarded.write thread content (change value)
  · intro other
    show state.refCount other = (Function.update sharing.cell rc _ other).map Prod.fst
    rw [← counts_update shared.refCount rc other (some (1, some (change value)))]
    by_cases same : other = rc
    · subst same
      rw [Function.update_self, shared.counted single]
      rfl
    · rw [Function.update_of_ne same]
  · show Function.update state.object p _ = Function.update custody.thing p _
    rw [shared.object]
  · exact fun _ _ => ⟨rfl, rfl⟩
  · intro slot other _ still
    exact shared.pointers slot other still
  · intro other
    exact (shared.carrier here other).trans Iff.rfl
  · trivial
  · exact accounted.written here rfl held single rfl rfl (fun _ => id) (some (change value)) rfl
      (fun _ => id) trivial

/-- No step of a thread in the middle of an operation touches a dead object or a dead count, and
each one keeps the invariant. -/
theorem run (shared : Shared state sharing custody) {freshCount : RC} {fresh : Obj}
    (busy : state.point thread ≠ .idle)
    (freeCount : (state.point thread).allocatesCount = true → state.refCount freshCount = none)
    (free : (state.point thread).allocates = true → state.object fresh = none) :
    Proceeds state thread freshCount fresh := by
  cases here : state.point thread with
  | idle => exact absurd here busy
  | construct target value =>
      apply shared.construct here
      intro some
      apply free
      rw [here]
      cases value with
      | none => cases some
      | some value => rfl
  | newRefCount target ptr value => exact shared.newRefCount here (freeCount (by rw [here]; rfl)) fresh
  | copy target rhs => exact shared.copy here freshCount fresh
  | swapTemporary name => exact shared.swapTemporary here freshCount fresh
  | swap name rhs => exact shared.swap here freshCount fresh
  | decRef slot => exact shared.decRef here freshCount fresh
  | deleteRefCount rc ptr => exact shared.deleteRefCount here freshCount fresh
  | deleteObject ptr => exact shared.deleteObject here freshCount fresh
  | refCountGreaterThanOne name change => exact shared.refCountGreaterThanOne here freshCount fresh
  | clone name change => exact shared.clone here freshCount (free (by rw [here]; rfl))
  | decAndTest name tmp change => exact shared.decAndTest here freshCount fresh
  | incRef name rc tmp change => exact shared.incRef here freshCount fresh
  | discard name tmp change => exact shared.discard here freshCount fresh
  | becomeUnique name tmp change =>
      exact shared.becomeUnique here (freeCount (by rw [here]; rfl)) fresh
  | write name change => exact shared.write here freshCount fresh

omit [DecidableEq Name] [DecidableEq Thread] [DecidableEq Obj] in
/-- A reference that exists is linked when no other thread uses it. -/
theorem present (shared : Shared state sharing custody) {operation : Operation Name Value}
    (idle : state.point thread = .idle)
    (apart : ∀ other, other ≠ thread → ∀ name ∈ operation.names,
      name ∉ (state.point other).names)
    {name : Name} (member : name ∈ operation.names) (exists' : state.m_pRefCount (.inl name) ≠ none) :
    ∃ rc, sharing.holds (.inl name) = some rc ∧ state.m_pRefCount (.inl name) = some rc := by
  obtain ⟨rc, pointer⟩ := Option.ne_none_iff_exists'.mp exists'
  rcases shared.accounted.linked (.inl name) with link | ⟨other, _, same, inside⟩
  · exact ⟨rc, link.1.trans pointer, pointer⟩
  · cases same
    exfalso
    have different : other ≠ thread := by
      rintro rfl
      rw [idle] at inside
      cases inside
    exact apart other different name member (Point.inside_names inside)

omit [DecidableEq Name] [DecidableEq Obj] in
/-- An operation begins with references that no other thread uses. -/
theorem begin (shared : Shared state sharing custody) {operation : Operation Name Value}
    (can : state.CanBegin thread operation) :
    Shared (state.goTo thread (.start operation)) sharing custody := by
  have accounted := shared.accounted
  have free : sharing.holds (.inr thread) = none := accounted.noTemporary can.idle rfl
  have frame := Sharing.Frame.refl (Uses (@Point.idle Name Thread RC Obj Value).names thread) thread
    sharing
  refine shared.advance can.idle rfl ?_ frame (shared.unmoved rfl) shared.refCount shared.object
    (fun _ _ => ⟨rfl, rfl⟩) (fun slot rc _ held => shared.pointers slot rc held) ?_ ?_
  · refine accounted.begun can.idle rfl rfl (fun _ => id) ?_ ?_ ?_
    · intro rc
      cases operation <;> exact id
    · intro other different name member
      apply can.apart other different
      cases operation <;> exact member
    · have present (name : Name) (member : name ∈ operation.names) (needed : name ∈ operation.needs) :
          ∃ rc, sharing.holds (.inl name) = some rc := by
        obtain ⟨rc, held, -⟩ := shared.present can.idle can.apart member (can.present name needed)
        exact ⟨rc, held⟩
      cases operation with
      | construct target value =>
          cases target with
          | itself name => exact ⟨accounted.empty (can.empty name rfl), trivial⟩
          | temporaryFor name =>
              exact ⟨free, present name (List.mem_singleton_self _) (List.mem_singleton_self _)⟩
      | copy target rhs =>
          cases target with
          | itself name =>
              exact ⟨accounted.empty (can.empty name rfl), trivial,
                present rhs (List.mem_cons_of_mem _ (List.mem_singleton_self _))
                  (List.mem_singleton_self _)⟩
          | temporaryFor name =>
              exact ⟨free, present name List.mem_cons_self List.mem_cons_self,
                present rhs (List.mem_cons_of_mem _ (List.mem_singleton_self _))
                  (List.mem_cons_of_mem _ (List.mem_singleton_self _))⟩
      | swap _ _ => trivial
      | destroy name =>
          exact ⟨(fun impossible => by cases impossible),
            present name (List.mem_singleton_self _) (List.mem_singleton_self _)⟩
      | access name change =>
          obtain ⟨rc, held⟩ := present name (List.mem_singleton_self _) (List.mem_singleton_self _)
          obtain ⟨count, value, live, shown⟩ := accounted.sound.shown held
          have notNull := can.notNull name change rfl
          rw [shared.pointers _ rc held] at notNull
          obtain ⟨p, inside⟩ := Option.ne_none_iff_exists'.mp notNull
          have shows := shared.guarded.value rc value (congrArg (Option.map Prod.snd) live)
          have alive := shared.guarded.live p
          rw [(shared.guarded.owned rc p).mp inside] at alive
          obtain ⟨content, thing⟩ := Option.isSome_iff_exists.mp alive.symm
          rw [inside, Option.bind_some, thing] at shows
          exact ⟨rc, content, held, by rw [shown, shows]⟩
  · intro p
    rw [shared.carrier can.idle]
    cases operation <;> exact Iff.rfl
  · cases operation <;> trivial

end Shared

/-- Every reachable state has an accounting of its references. -/
theorem shared_of_reachable (reached : system.Reachable state) :
    ∃ sharing custody, Shared state sharing custody := by
  induction reached with
  | @initial state start =>
      obtain ⟨refCount, object, m_pRefCount, m_pObj, deep, point⟩ := start
      refine ⟨⟨fun _ => none, fun _ => none, fun _ => none, fun _ => none⟩,
        ⟨fun _ => none, fun _ => none, fun _ => none⟩, ?_, object, ?_, ?_, ?_, ?_, ?_⟩
      · rw [refCount]
        exact fun _ => rfl
      · rw [m_pRefCount, deep, point]
        exact .nothing _ rfl (fun _ => id) (fun _ _ => trivial)
      · refine ⟨fun box thing => ?_, fun _ _ => rfl, fun box value impossible => ?_, fun _ => rfl⟩
        · exact iff_of_false (fun impossible => by cases impossible)
            (fun impossible => by cases impossible)
        · cases impossible
      · intro slot rc held
        cases held
      · rw [point]
        exact fun _ _ => iff_of_false (fun impossible => by cases impossible) id
      · rw [point]
        exact fun _ => trivial
  | @step state next label before taken ih =>
      obtain ⟨sharing, custody, shared⟩ := ih
      cases label with
      | begin thread operation =>
          obtain ⟨can, rfl⟩ := taken
          exact ⟨sharing, custody, shared.begin can⟩
      | run thread freshCount fresh =>
          obtain ⟨freeCount, free, ran⟩ := taken
          have busy : state.point thread ≠ .idle := by
            intro idle
            unfold State.run at ran
            rw [idle] at ran
            cases ran
          obtain ⟨other, after, custodyAfter, same, kept⟩ := shared.run busy freeCount free
          rw [ran] at same
          cases same
          exact ⟨after, custodyAfter, kept⟩

end Blocxx.COWReference
