import Blocxx.COWReference.Counting
import Blocxx.COWReference.RefCounting

/-!
This file proves that copy-on-write references behave as independent values.
-/

namespace Blocxx.COWIntrusiveReference
open CopyOnWrite Library

variable {Name Thread Obj Value : Type} [Fintype Name] [Fintype Thread] [DecidableEq Name]
  [DecidableEq Thread] [DecidableEq Obj]

/-- What holds in the middle of all operations. The counts are the numbers of references. Each
reference outside its clone step shows the value of a deep copy. No step touches a dead object.
The release of the last reference, and no other one, leads to the deletion. A live object without a
reference is in the hands of one thread. A thread that writes has the only reference. -/
structure Independent (state : State Name Thread Obj Value) : Prop where
  counted : ∀ p count value, state.object p = some (count, value) → count = state.references p
  live : ∀ slot p, referent Point.insideClone state.point state.m_pObj slot = some p →
    (state.object p).isSome
  shown : ∀ slot, insideClone Point.insideClone state.point slot = false →
    state.shows slot = state.deep slot
  defined : ∀ thread fresh, state.point thread ≠ .idle →
    ((state.point thread).allocates = true → state.object fresh = none) →
    (state.run thread fresh).isSome
  lastReference : ∀ thread slot p fresh next, state.point thread = .release slot →
    state.m_pObj slot = some p → state.run thread fresh = some next →
    (next.point thread = .delete p ↔ next.references p = 0)
  unreferenced : ∀ p, (∃ thread, (state.point thread).keeps p) ↔
    (state.object p).isSome ∧ state.references p = 0
  keptOnce : ∀ one other p, (state.point one).keeps p → (state.point other).keeps p → one = other
  exclusive : ∀ thread name change, state.point thread = .write name change →
    ∃ p, state.m_pObj (.inl name) = some p ∧
      ∀ slot, referent Point.insideClone state.point state.m_pObj slot = some p → slot = .inl name
  noRace : ∀ thread other name rhs change changeToo, state.point thread = .write name change →
    state.point other = .clone rhs changeToo → state.m_pObj (.inl rhs) ≠ state.m_pObj (.inl name)

variable {state next : State Name Thread Obj Value} {thread : Thread}
  {sharing after : Sharing Thread (Slot Name Thread) Obj Value}

namespace Shared

omit [DecidableEq Thread] in
theorem references (shared : Shared state sharing) (p : Obj) :
    state.references p = Sharing.uses sharing.holds p :=
  congrArg (census _) shared.accounted.referent

omit [DecidableEq Thread] in
theorem referent (shared : Shared state sharing) (slot : Slot Name Thread) :
    referent Point.insideClone state.point state.m_pObj slot = sharing.holds slot :=
  congrFun shared.accounted.referent slot

omit [DecidableEq Thread] in
/-- The objects in the hands of a thread are the live ones without a reference. -/
theorem unreferenced (shared : Shared state sharing) (p : Obj) :
    (∃ thread, (state.point thread).keeps p) ↔
      (state.object p).isSome ∧ state.references p = 0 := by
  have kept : (∃ thread, (state.point thread).keeps p) ↔
      ∃ thread, sharing.keeper p = some thread :=
    exists_congr fun thread => (shared.accounted.keepers thread p).symm
  rw [kept, shared.accounted.sound.kept, shared.references, shared.object]
  constructor
  · rintro ⟨value, live⟩
    have count := shared.accounted.sound.count live
    rw [live]
    exact ⟨rfl, by omega⟩
  · rintro ⟨live, none⟩
    obtain ⟨⟨count, value⟩, live⟩ := Option.isSome_iff_exists.mp live
    have counted := shared.accounted.sound.count live
    rw [none] at counted
    subst counted
    exact ⟨value, live⟩

/-- A thread that writes has the only reference to the object. -/
theorem exclusive (shared : Shared state sharing) {name : Name} {change : Value → Value}
    (here : state.point thread = .write name change) :
    ∃ p, state.m_pObj (.inl name) = some p ∧
      ∀ slot, sharing.holds slot = some p → slot = .inl name := by
  obtain ⟨p, value, held, single⟩ := shared.accounted.factsAt here
  have link := (shared.accounted.own here rfl (uses_singleton name thread)).1
  refine ⟨p, link.symm.trans held, ?_⟩
  intro slot holds
  by_contra different
  have two := Sharing.two_uses different holds held
  have one := shared.accounted.sound.count single
  omega

/-- The release of the last reference leads to the deletion. -/
theorem released (kept : Shared next after)
    {slot : Slot Name Thread} {p fresh : Obj} (here : state.point thread = .release slot)
    (pointer : state.m_pObj slot = some p) (ran : state.run thread fresh = some next)
    (none : next.references p = 0) : next.point thread = .delete p := by
  unfold State.run at ran
  rw [here] at ran
  simp only [pointer] at ran
  cases live : state.object p with
  | none =>
      simp only [COWIntrusiveReference.decAndTest, live] at ran
      cases ran
  | some object =>
      obtain ⟨count, value⟩ := object
      simp only [COWIntrusiveReference.decAndTest, live] at ran
      cases ran
      have counted := kept.accounted.sound.count
        ((congrFun kept.object p).symm.trans (Function.update_self _ _ _))
      rw [← kept.references, none] at counted
      have last : count - 1 = 0 := counted
      refine (Function.update_self _ _ _).trans ?_
      simp only [last, decide_true, if_true]

theorem independent (shared : Shared state sharing) : Independent state where
  counted p count value live := by
    rw [shared.object] at live
    rw [shared.references]
    exact shared.accounted.sound.count live
  live slot p refers := by
    rw [shared.referent] at refers
    obtain ⟨count, value, live, -⟩ := shared.accounted.sound.shown refers
    rw [shared.object, live]
    rfl
  shown slot outside := by
    obtain ⟨link, null⟩ := shared.accounted.linked_outside outside
    unfold State.shows
    cases pointer : state.m_pObj slot with
    | none => exact (null pointer).symm
    | some p =>
        obtain ⟨count, value, live, shown⟩ := shared.accounted.sound.shown (link.trans pointer)
        rw [shared.accounted.values, shown, shared.object, Option.bind_some, live]
        rfl
  defined thread fresh busy free := by
    obtain ⟨next, after, ran, -⟩ := shared.run busy free
    rw [ran]
    rfl
  lastReference thread slot p fresh next here pointer ran := by
    have busy : state.point thread ≠ .idle := by
      rw [here]
      exact fun impossible => by cases impossible
    have free : (state.point thread).allocates = true → state.object fresh = none := by
      rw [here]
      exact fun impossible => by cases impossible
    obtain ⟨_, after, same, kept⟩ := shared.run busy free
    rw [ran] at same
    cases same
    constructor
    · intro deletes
      exact ((kept.unreferenced p).mp ⟨thread, by rw [deletes]; exact rfl⟩).2
    · intro none
      exact kept.released here pointer ran none
  unreferenced := shared.unreferenced
  keptOnce one other p first second := by
    have kept := (shared.accounted.keepers one p).mpr first
    have keptToo := (shared.accounted.keepers other p).mpr second
    exact Option.some.inj (kept.symm.trans keptToo)
  exclusive thread name change here := by
    obtain ⟨p, pointer, only⟩ := shared.exclusive here
    refine ⟨p, pointer, ?_⟩
    intro slot refers
    rw [shared.referent] at refers
    exact only slot refers
  noRace thread other name rhs change changeToo here there same := by
    obtain ⟨p, pointer, only⟩ := shared.exclusive here
    have link := (shared.accounted.own there rfl (uses_singleton rhs other)).1
    have reference := only (.inl rhs) (link.trans (same.trans pointer))
    cases reference
    have different : other ≠ thread := by
      rintro rfl
      rw [here] at there
      cases there
    apply shared.accounted.separate other thread different name
    · rw [there]
      exact List.mem_singleton_self name
    · rw [here]
      exact List.mem_singleton_self name

end Shared

end Blocxx.COWIntrusiveReference

namespace Blocxx.COWReference
open CopyOnWrite Library

variable {Name Thread RC Obj Value : Type} [Fintype Name] [Fintype Thread] [DecidableEq Name]
  [DecidableEq Thread] [DecidableEq RC] [DecidableEq Obj]

/-- What holds in the middle of all operations. It is the same as for the intrusive references, and
each live object belongs to one live count or is in the hands of one thread. -/
structure Independent (state : State Name Thread RC Obj Value) : Prop where
  counted : ∀ rc count, state.refCount rc = some count → count = state.references rc
  live : ∀ slot rc, referent Point.insideClone state.point state.m_pRefCount slot = some rc →
    (state.refCount rc).isSome ∧ ∀ p, state.m_pObj slot = some p → (state.object p).isSome
  shown : ∀ slot, insideClone Point.insideClone state.point slot = false →
    (state.m_pRefCount slot).map (fun _ => state.shows slot) = state.deep slot
  defined : ∀ thread freshCount fresh, state.point thread ≠ .idle →
    ((state.point thread).allocatesCount = true → state.refCount freshCount = none) →
    ((state.point thread).allocates = true → state.object fresh = none) →
    (state.run thread freshCount fresh).isSome
  lastReference : ∀ thread slot rc freshCount fresh next, state.point thread = .decRef slot →
    state.m_pRefCount slot = some rc → state.run thread freshCount fresh = some next →
    (next.point thread = .deleteRefCount rc (state.m_pObj slot) ↔ next.references rc = 0)
  unreferenced : ∀ rc, (∃ thread, (state.point thread).keeps rc) ↔
    (state.refCount rc).isSome ∧ state.references rc = 0
  keptOnce : ∀ one other rc, (state.point one).keeps rc → (state.point other).keeps rc →
    one = other
  carried : ∀ thread p, (state.point thread).carries p → (state.object p).isSome ∧
    ∀ slot, referent Point.insideClone state.point state.m_pRefCount slot ≠ none →
      state.m_pObj slot ≠ some p
  carriedOnce : ∀ one other p, (state.point one).carries p → (state.point other).carries p →
    one = other
  owned : ∀ p, (state.object p).isSome → (∃ thread, (state.point thread).carries p) ∨
    (∃ slot, referent Point.insideClone state.point state.m_pRefCount slot ≠ none ∧
      state.m_pObj slot = some p) ∨
    ∃ thread rc, (state.point thread).keeps rc ∧
      (state.point thread = .deleteRefCount rc (some p) ∨
        ∃ name tmp change, state.point thread = .incRef name rc tmp change ∧
          state.m_pObj (.inl name) = some p)
  exclusive : ∀ thread name change, state.point thread = .write name change →
    ∃ p, state.m_pObj (.inl name) = some p ∧
      ∀ slot, referent Point.insideClone state.point state.m_pRefCount slot ≠ none →
        state.m_pObj slot = some p → slot = .inl name
  noRace : ∀ thread other name rhs change changeToo, state.point thread = .write name change →
    state.point other = .clone rhs changeToo → state.m_pObj (.inl rhs) ≠ state.m_pObj (.inl name)

variable {state next : State Name Thread RC Obj Value} {thread : Thread}
  {sharing after : Sharing Thread (Slot Name Thread) RC (Option Value)}
  {custody custodyAfter : Custody Thread RC Obj Value}

namespace Shared

omit [DecidableEq Thread] [DecidableEq Obj] in
theorem references (shared : Shared state sharing custody) (rc : RC) :
    state.references rc = Sharing.uses sharing.holds rc :=
  congrArg (census _) shared.accounted.referent

omit [DecidableEq Thread] [DecidableEq Obj] in
theorem referent (shared : Shared state sharing custody) (slot : Slot Name Thread) :
    referent Point.insideClone state.point state.m_pRefCount slot = sharing.holds slot :=
  congrFun shared.accounted.referent slot

omit [DecidableEq Thread] [DecidableEq Obj] in
/-- The counts in the hands of a thread are the live ones without a reference. -/
theorem unreferenced (shared : Shared state sharing custody) (rc : RC) :
    (∃ thread, (state.point thread).keeps rc) ↔
      (state.refCount rc).isSome ∧ state.references rc = 0 := by
  have kept : (∃ thread, (state.point thread).keeps rc) ↔
      ∃ thread, sharing.keeper rc = some thread :=
    exists_congr fun thread => (shared.accounted.keepers thread rc).symm
  rw [kept, shared.accounted.sound.kept, shared.references, shared.refCount]
  constructor
  · rintro ⟨value, live⟩
    have count := shared.accounted.sound.count live
    rw [live]
    exact ⟨rfl, by omega⟩
  · rintro ⟨live, none⟩
    rw [Option.isSome_map] at live
    obtain ⟨⟨count, value⟩, live⟩ := Option.isSome_iff_exists.mp live
    have counted := shared.accounted.sound.count live
    rw [none] at counted
    subst counted
    exact ⟨value, live⟩

omit [DecidableEq Obj] in
/-- A thread that writes has the only reference to the object. -/
theorem exclusive (shared : Shared state sharing custody) {name : Name} {change : Value → Value}
    (here : state.point thread = .write name change) :
    ∃ p, state.m_pObj (.inl name) = some p ∧
      ∀ slot, sharing.holds slot ≠ none → state.m_pObj slot = some p → slot = .inl name := by
  obtain ⟨rc, value, held, single⟩ := shared.accounted.factsAt here
  have shows : sharing.deep (.inl name) = some (some value) := by
    obtain ⟨_, _, live, shown⟩ := shared.accounted.sound.shown held
    rw [single] at live
    cases live
    exact shown
  obtain ⟨p, pointer, content, -⟩ := shared.pointee held shows
  refine ⟨p, pointer, ?_⟩
  intro slot holds pointerToo
  obtain ⟨other, holds⟩ := Option.ne_none_iff_exists'.mp holds
  -- One object has one count, so the other reference shares the count.
  have inside : custody.content other = some p := (shared.pointers slot other holds).symm.trans pointerToo
  rw [shared.guarded.owned] at inside content
  have same : other = rc := Sum.inl.inj (Option.some.inj (inside.symm.trans content))
  subst same
  by_contra different
  have two := Sharing.two_uses different holds held
  have one := shared.accounted.sound.count single
  omega

/-- The release of the last reference leads to the deletion. -/
theorem released (kept : Shared next after custodyAfter)
    {slot : Slot Name Thread} {rc freshCount : RC} {fresh : Obj}
    (here : state.point thread = .decRef slot) (pointer : state.m_pRefCount slot = some rc)
    (ran : state.run thread freshCount fresh = some next) (none : next.references rc = 0) :
    next.point thread = .deleteRefCount rc (state.m_pObj slot) := by
  unfold State.run at ran
  rw [here] at ran
  simp only [pointer, Option.bind_eq_bind, Option.bind_some] at ran
  cases live : state.refCount rc with
  | none =>
      simp only [COWReference.decAndTest, live] at ran
      cases ran
  | some count =>
      simp only [COWReference.decAndTest, live] at ran
      cases ran
      have now := (kept.refCount rc).symm.trans (Function.update_self _ _ _)
      obtain ⟨⟨total, value⟩, liveNow, same⟩ := Option.map_eq_some_iff.mp now
      have counted := kept.accounted.sound.count liveNow
      rw [← kept.references, none] at counted
      have last : count - 1 = 0 := same.symm.trans counted
      refine (Function.update_self _ _ _).trans ?_
      simp only [last, decide_true, if_true]

omit [DecidableEq Name] [DecidableEq Thread] [DecidableEq Obj] in
/-- A count in the hands of a thread still owns its object. -/
theorem keeps_content (shared : Shared state sharing custody) {rc : RC} {p : Obj}
    (keeps : (state.point thread).keeps rc) (inside : custody.content rc = some p) :
    state.point thread = .deleteRefCount rc (some p) ∨
      ∃ name tmp change, state.point thread = .incRef name rc tmp change ∧
        state.m_pObj (.inl name) = some p := by
  cases here : state.point thread with
  | deleteRefCount dead ptr =>
      have content : custody.content dead = ptr := shared.localsAt here
      rw [here] at keeps
      have same : rc = dead := keeps
      subst same
      rw [← content, inside]
      exact .inl rfl
  | incRef name old tmp change =>
      obtain ⟨-, pointer⟩ := shared.localsAt here
      rw [here] at keeps
      have same : rc = old := keeps
      subst same
      exact .inr ⟨name, tmp, change, rfl, pointer.trans inside⟩
  | _ =>
      rw [here] at keeps
      exact absurd keeps id

omit [DecidableEq Thread] [DecidableEq Obj] in
/-- A count that owns an object and is in no hands has a reference. -/
theorem holder (shared : Shared state sharing custody) {rc : RC} {p : Obj}
    (inside : custody.content rc = some p) (unused : ¬ ∃ thread, (state.point thread).keeps rc) :
    ∃ slot, sharing.holds slot = some rc := by
  have live : sharing.values rc ≠ none := by
    intro dead
    rw [shared.guarded.closed rc dead] at inside
    cases inside
  rw [shared.unreferenced, shared.references] at unused
  have counted : (state.refCount rc).isSome := by
    rw [shared.refCount, Option.isSome_map]
    unfold Sharing.values at live
    rw [ne_eq, Option.map_eq_none_iff, ← ne_eq, Option.ne_none_iff_isSome] at live
    exact live
  have positive : 0 < Sharing.uses sharing.holds rc := by
    by_contra none
    exact unused ⟨counted, by omega⟩
  obtain ⟨slot, held⟩ := census_pos.mp positive
  exact ⟨slot, of_decide_eq_true held⟩

theorem independent (shared : Shared state sharing custody) : Independent state where
  counted rc count live := by
    rw [shared.refCount] at live
    obtain ⟨⟨total, value⟩, cell, same⟩ := Option.map_eq_some_iff.mp live
    rw [shared.references, ← same]
    exact shared.accounted.sound.count cell
  live slot rc refers := by
    rw [shared.referent] at refers
    obtain ⟨count, value, live, -⟩ := shared.accounted.sound.shown refers
    refine ⟨by rw [shared.counted live]; rfl, ?_⟩
    intro p pointer
    rw [shared.pointers slot rc refers, shared.guarded.owned] at pointer
    rw [shared.object, ← shared.guarded.live, pointer]
    rfl
  shown slot outside := by
    obtain ⟨link, null⟩ := shared.accounted.linked_outside outside
    cases pointer : state.m_pRefCount slot with
    | none => exact (null pointer).symm
    | some rc =>
        have held := link.trans pointer
        obtain ⟨count, value, live, shown⟩ := shared.accounted.sound.shown held
        have values := shared.guarded.value rc value (congrArg (Option.map Prod.snd) live)
        rw [shared.accounted.values, shown, Option.map_some, State.shows,
          shared.pointers slot rc held, shared.object, ← values]
  defined thread freshCount fresh busy freeCount free := by
    obtain ⟨next, after, custodyAfter, ran, -⟩ := shared.run busy freeCount free
    rw [ran]
    rfl
  lastReference thread slot rc freshCount fresh next here pointer ran := by
    have busy : state.point thread ≠ .idle := by
      rw [here]
      exact fun impossible => by cases impossible
    have freeCount : (state.point thread).allocatesCount = true →
        state.refCount freshCount = none := by
      rw [here]
      exact fun impossible => by cases impossible
    have free : (state.point thread).allocates = true → state.object fresh = none := by
      rw [here]
      exact fun impossible => by cases impossible
    obtain ⟨_, after, custodyAfter, same, kept⟩ := shared.run busy freeCount free
    rw [ran] at same
    cases same
    constructor
    · intro deletes
      exact ((kept.unreferenced rc).mp ⟨thread, by rw [deletes]; exact rfl⟩).2
    · intro none
      exact kept.released here pointer ran none
  unreferenced := shared.unreferenced
  keptOnce one other rc first second := by
    have kept := (shared.accounted.keepers one rc).mpr first
    have keptToo := (shared.accounted.keepers other rc).mpr second
    exact Option.some.inj (kept.symm.trans keptToo)
  carried thread p carries := by
    have owner := (shared.carriers thread p).mpr carries
    refine ⟨by rw [shared.object, ← shared.guarded.live, owner]; rfl, ?_⟩
    intro slot refers pointer
    rw [shared.referent] at refers
    obtain ⟨rc, held⟩ := Option.ne_none_iff_exists'.mp refers
    rw [shared.pointers slot rc held, shared.guarded.owned, owner] at pointer
    cases Option.some.inj pointer
  carriedOnce one other p first second := by
    have owner := (shared.carriers one p).mpr first
    have ownerToo := (shared.carriers other p).mpr second
    exact Sum.inr.inj (Option.some.inj (owner.symm.trans ownerToo))
  owned p live := by
    rw [shared.object, ← shared.guarded.live] at live
    obtain ⟨owner, owned⟩ := Option.isSome_iff_exists.mp live
    cases owner with
    | inr thread => exact .inl ⟨thread, (shared.carriers thread p).mp owned⟩
    | inl rc =>
        right
        have inside := (shared.guarded.owned rc p).mpr owned
        by_cases unused : ∃ thread, (state.point thread).keeps rc
        · obtain ⟨thread, keeps⟩ := unused
          exact .inr ⟨thread, rc, keeps, shared.keeps_content keeps inside⟩
        · left
          obtain ⟨slot, held⟩ := shared.holder inside unused
          refine ⟨slot, ?_, (shared.pointers slot rc held).trans inside⟩
          rw [shared.referent, held]
          exact Option.some_ne_none rc
  exclusive thread name change here := by
    obtain ⟨p, pointer, only⟩ := shared.exclusive here
    refine ⟨p, pointer, ?_⟩
    intro slot refers
    rw [shared.referent] at refers
    exact only slot refers
  noRace thread other name rhs change changeToo here there same := by
    obtain ⟨p, pointer, only⟩ := shared.exclusive here
    obtain ⟨rc, value, held, -⟩ := shared.accounted.factsAt there
    have reference := only (.inl rhs) (by rw [held]; exact Option.some_ne_none rc)
      (same.trans pointer)
    cases reference
    have different : other ≠ thread := by
      rintro rfl
      rw [here] at there
      cases there
    apply shared.accounted.separate other thread different name
    · rw [there]
      exact List.mem_singleton_self name
    · rw [here]
      exact List.mem_singleton_self name

end Shared

end Blocxx.COWReference

namespace Blocxx.CopyOnWrite

end Blocxx.CopyOnWrite
