import Blocxx.COWReference.Operation
import Blocxx.Library.Sharing

/-!
This file accounts for the references of threads that run operations in atomic steps, whatever the
steps are.
-/

namespace Blocxx.CopyOnWrite
open Library

variable {Name Thread Cell Value Point : Type}

/-- What an accounting reads off the point of a thread: the references in use, the cells without a
reference in its local variables, whether its temporary exists, the reference that has given up its
cell and has not got one yet, and what the local variables tell. A step of another thread leaves
this alone. -/
structure Protocol (Name Thread Cell Value Point : Type) where
  names : Point → List Name
  keeps : Point → Cell → Prop
  usesTemporary : Point → Bool
  insideClone : Point → Option Name
  Facts : Sharing Thread (Slot Name Thread) Cell Value → Thread → Point → Prop
  inside_names : ∀ {point name}, insideClone point = some name → name ∈ names point
  inside_holds : ∀ {sharing thread point name}, Facts sharing thread point →
    insideClone point = some name → sharing.holds (.inl name) = none
  frame : ∀ {sharing after mine thread other point}, Facts sharing other point → other ≠ thread →
    (∀ cell, sharing.keeper cell = some other ↔ keeps point cell) →
    Sharing.Frame mine thread sharing after →
    (∀ slot, Uses (names point) other slot → ¬ mine slot) → Facts after other point

/-- The slot shows the cell and the deep value of the holder. -/
def Linked (pointer : Slot Name Thread → Option Cell) (deep : Slot Name Thread → Option Value)
    (sharing : Sharing Thread (Slot Name Thread) Cell Value) (slot : Slot Name Thread) : Prop :=
  sharing.holds slot = pointer slot ∧ (pointer slot = none → deep slot = none)

variable [Fintype Name] [Fintype Thread] [DecidableEq Name] [DecidableEq Thread] [DecidableEq Cell]

/-- This is the invariant of the references. -/
structure Accounted (protocol : Protocol Name Thread Cell Value Point)
    (pointer : Slot Name Thread → Option Cell) (deep : Slot Name Thread → Option Value)
    (point : Thread → Point) (sharing : Sharing Thread (Slot Name Thread) Cell Value) : Prop where
  sound : sharing.Sound
  values : deep = sharing.deep
  linked : ∀ slot, Linked pointer deep sharing slot ∨
    ∃ thread name, slot = .inl name ∧ protocol.insideClone (point thread) = some name
  keepers : ∀ thread cell, sharing.keeper cell = some thread ↔ protocol.keeps (point thread) cell
  temporary : ∀ thread, protocol.usesTemporary (point thread) = false →
    sharing.holds (.inr thread) = none
  facts : ∀ thread, protocol.Facts sharing thread (point thread)
  separate : Separate protocol.names point

variable {protocol : Protocol Name Thread Cell Value Point}
  {pointer pointers : Slot Name Thread → Option Cell}
  {deep deeper : Slot Name Thread → Option Value} {point : Thread → Point} {thread : Thread}
  {sharing after : Sharing Thread (Slot Name Thread) Cell Value} {current new : Point}

theorem update_eq_some_iff {Index Content : Type} [DecidableEq Index]
    {keeper : Index → Option Content} {place index : Index} {new : Option Content}
    {content : Content} : Function.update keeper place new index = some content ↔
      (index = place ∧ new = some content) ∨ (index ≠ place ∧ keeper index = some content) := by
  by_cases same : index = place
  · subst same
    simp
  · simp [same]

namespace Accounted

omit [DecidableEq Name] [DecidableEq Thread] in
/-- The local variables of the thread are kept. -/
theorem keeper (accounted : Accounted protocol pointer deep point sharing)
    (here : point thread = current) {cell : Cell} (keeps : protocol.keeps current cell) :
    sharing.keeper cell = some thread := by
  subst here
  exact (accounted.keepers thread cell).mpr keeps

omit [DecidableEq Name] [DecidableEq Thread] in
/-- A thread whose point keeps nothing keeps nothing. -/
theorem no_keeper (accounted : Accounted protocol pointer deep point sharing)
    (here : point thread = current) (nothing : ∀ cell, ¬ protocol.keeps current cell)
    (cell : Cell) : sharing.keeper cell ≠ some thread := by
  subst here
  exact fun kept => nothing cell ((accounted.keepers thread cell).mp kept)

omit [DecidableEq Name] [DecidableEq Thread] in
theorem factsAt (accounted : Accounted protocol pointer deep point sharing)
    (here : point thread = current) : protocol.Facts sharing thread current := by
  subst here
  exact accounted.facts thread

omit [DecidableEq Name] [DecidableEq Thread] in
theorem noTemporary (accounted : Accounted protocol pointer deep point sharing)
    (here : point thread = current) (unused : protocol.usesTemporary current = false) :
    sharing.holds (.inr thread) = none := by
  subst here
  exact accounted.temporary thread unused

omit [DecidableEq Name] [DecidableEq Thread] in
/-- The references in use are linked outside the clone step. -/
theorem own (accounted : Accounted protocol pointer deep point sharing)
    (here : point thread = current) (outside : protocol.insideClone current = none)
    {slot : Slot Name Thread} (uses : Uses (protocol.names current) thread slot) :
    Linked pointer deep sharing slot := by
  subst here
  rcases accounted.linked slot with link | ⟨other, name, same, inside⟩
  · exact link
  · exfalso
    subst same
    have different : other ≠ thread := by
      rintro rfl
      rw [outside] at inside
      cases inside
    exact accounted.separate other thread different name (protocol.inside_names inside) uses

omit [DecidableEq Name] [DecidableEq Thread] in
/-- A temporary is never in the middle of a clone step. -/
theorem linked_temporary (accounted : Accounted protocol pointer deep point sharing)
    (owner : Thread) : Linked pointer deep sharing (.inr owner) := by
  rcases accounted.linked (.inr owner) with link | ⟨_, _, impossible, _⟩
  · exact link
  · cases impossible

omit [DecidableEq Name] [DecidableEq Thread] in
/-- A null reference holds nothing. -/
theorem empty (accounted : Accounted protocol pointer deep point sharing) {name : Name}
    (null : pointer (.inl name) = none) : sharing.holds (.inl name) = none := by
  rcases accounted.linked (.inl name) with link | ⟨other, _, same, inside⟩
  · exact link.1.trans null
  · cases same
    exact protocol.inside_holds (accounted.facts other) inside

omit [DecidableEq Thread] in
/-- A slot is a reference to the cell that it holds. -/
theorem referent (accounted : Accounted protocol pointer deep point sharing) :
    referent protocol.insideClone point pointer = sharing.holds := by
  funext slot
  unfold CopyOnWrite.referent
  cases inside : insideClone protocol.insideClone point slot with
  | true =>
      cases slot with
      | inl name =>
          obtain ⟨thread, within⟩ := of_decide_eq_true inside
          exact (protocol.inside_holds (accounted.facts thread) within).symm
      | inr owner => cases inside
  | false =>
      rcases accounted.linked slot with link | ⟨thread, name, same, within⟩
      · exact link.1.symm
      · subst same
        exact absurd ⟨thread, within⟩ (of_decide_eq_false inside)

omit [DecidableEq Thread] in
/-- Outside the clone step the slot is linked. -/
theorem linked_outside (accounted : Accounted protocol pointer deep point sharing)
    {slot : Slot Name Thread} (outside : insideClone protocol.insideClone point slot = false) :
    Linked pointer deep sharing slot := by
  rcases accounted.linked slot with link | ⟨thread, name, same, within⟩
  · exact link
  · subst same
    exact absurd ⟨thread, within⟩ (of_decide_eq_false outside)

omit [DecidableEq Name] in
/-- A step of one thread keeps the accounting when it keeps the part of that thread. -/
theorem advance (accounted : Accounted protocol pointer deep point sharing)
    (here : point thread = current)
    (effect : after.Sound ∧
      Sharing.Frame (Uses (protocol.names current) thread) thread sharing after)
    (deepens : deeper = after.deep)
    (fewer : ∀ name ∈ protocol.names new, name ∈ protocol.names current)
    (others : ∀ slot, ¬ Uses (protocol.names current) thread slot → pointers slot = pointer slot)
    (linked : ∀ slot, Uses (protocol.names current) thread slot →
      Linked pointers deeper after slot ∨
        ∃ name, slot = .inl name ∧ protocol.insideClone new = some name)
    (keepers : ∀ cell, after.keeper cell = some thread ↔ protocol.keeps new cell)
    (temporary : protocol.usesTemporary new = false → after.holds (.inr thread) = none)
    (facts : protocol.Facts after thread new) :
    Accounted protocol pointers deeper (Function.update point thread new) after := by
  obtain ⟨sound, frame⟩ := effect
  subst here
  have elsewhere (other : Thread) (different : other ≠ thread) :
      Function.update point thread new other = point other :=
    Function.update_of_ne different _ _
  refine ⟨sound, deepens, ?_, ?_, ?_, ?_, accounted.separate.proceed fewer⟩
  · intro slot
    by_cases mine : Uses (protocol.names (point thread)) thread slot
    · rcases linked slot mine with link | ⟨name, same, inside⟩
      · exact .inl link
      · exact .inr ⟨thread, name, same, by rw [Function.update_self]; exact inside⟩
    · have link := accounted.linked slot
      unfold Linked at link ⊢
      rw [frame.holds slot mine, others slot mine, deepens, frame.deep slot mine, ← accounted.values]
      rcases link with link | ⟨other, name, same, inside⟩
      · exact .inl link
      · refine .inr ⟨other, name, same, ?_⟩
        rw [elsewhere other]
        · exact inside
        · rintro rfl
          subst same
          exact mine (protocol.inside_names inside)
  · intro other cell
    by_cases same : other = thread
    · subst same
      rw [Function.update_self]
      exact keepers cell
    · rw [elsewhere other same, ← accounted.keepers other cell]
      exact ⟨frame.notKept cell other same, fun kept => (frame.kept cell other same kept).1⟩
  · intro other unused
    by_cases same : other = thread
    · subst same
      rw [Function.update_self] at unused
      exact temporary unused
    · rw [elsewhere other same] at unused
      rw [frame.holds (.inr other) same]
      exact accounted.temporary other unused
  · intro other
    by_cases same : other = thread
    · subst same
      rw [Function.update_self]
      exact facts
    · rw [elsewhere other same]
      exact protocol.frame (accounted.facts other) same (accounted.keepers other) frame
        fun slot uses => accounted.separate.not_uses same uses

omit [DecidableEq Name] in
/-- A step that changes no slot. -/
theorem stay (accounted : Accounted protocol pointer deep point sharing)
    (here : point thread = current)
    (effect : after.Sound ∧
      Sharing.Frame (Uses (protocol.names current) thread) thread sharing after)
    (holds : after.holds = sharing.holds) (deepens : after.deep = sharing.deep)
    (outside : protocol.insideClone current = none)
    (fewer : ∀ name ∈ protocol.names new, name ∈ protocol.names current)
    (keepers : ∀ cell, after.keeper cell = some thread ↔ protocol.keeps new cell)
    (temporary : protocol.usesTemporary new = false → protocol.usesTemporary current = false)
    (facts : protocol.Facts after thread new) :
    Accounted protocol pointer deep (Function.update point thread new) after := by
  refine accounted.advance here effect (accounted.values.trans deepens.symm) fewer (fun _ _ => rfl) ?_
    keepers ?_ facts
  · intro slot uses
    have link := accounted.own here outside uses
    unfold Linked at link ⊢
    rw [holds]
    exact .inl link
  · intro unused
    rw [holds]
    exact accounted.noTemporary here (temporary unused)

/-- A step that changes one slot. -/
theorem change (accounted : Accounted protocol pointer deep point sharing)
    (here : point thread = current) {slot : Slot Name Thread} {cell : Option Cell}
    {value : Option Value}
    (effect : after.Sound ∧
      Sharing.Frame (Uses (protocol.names current) thread) thread sharing after)
    (holds : after.holds = Function.update sharing.holds slot cell)
    (deepens : after.deep = Function.update sharing.deep slot value)
    (uses : Uses (protocol.names current) thread slot) (null : cell = none → value = none)
    (links : ∀ other, Uses (protocol.names current) thread other → other ≠ slot →
      Linked pointer deep sharing other)
    (fewer : ∀ name ∈ protocol.names new, name ∈ protocol.names current)
    (keepers : ∀ cell, after.keeper cell = some thread ↔ protocol.keeps new cell)
    (temporary : protocol.usesTemporary new = false → after.holds (.inr thread) = none)
    (facts : protocol.Facts after thread new) :
    Accounted protocol (Function.update pointer slot cell) (Function.update deep slot value)
      (Function.update point thread new) after := by
  have deeper : Function.update deep slot value = after.deep := by
    rw [accounted.values, deepens]
  refine accounted.advance here effect deeper fewer ?_ ?_ keepers temporary facts
  · intro other notMine
    have apart : other ≠ slot := by
      rintro rfl
      exact notMine uses
    exact Function.update_of_ne apart _ _
  · intro other mine
    left
    unfold Linked
    rw [holds]
    by_cases same : other = slot
    · subst same
      simp only [Function.update_self]
      exact ⟨trivial, null⟩
    · simp only [Function.update_of_ne same]
      exact links other mine same

/-- A step that changes a slot of a thread outside the clone step, which keeps nothing. -/
theorem changeOutside (accounted : Accounted protocol pointer deep point sharing)
    (here : point thread = current) {slot : Slot Name Thread} {cell : Option Cell}
    {value : Option Value}
    (effect : after.Sound ∧
      Sharing.Frame (Uses (protocol.names current) thread) thread sharing after)
    (holds : after.holds = Function.update sharing.holds slot cell)
    (deepens : after.deep = Function.update sharing.deep slot value)
    (uses : Uses (protocol.names current) thread slot) (null : cell = none → value = none)
    (outside : protocol.insideClone current = none)
    (fewer : ∀ name ∈ protocol.names new, name ∈ protocol.names current)
    (keepers : ∀ cell, after.keeper cell = some thread ↔ protocol.keeps new cell)
    (temporary : protocol.usesTemporary new = false → after.holds (.inr thread) = none)
    (facts : protocol.Facts after thread new) :
    Accounted protocol (Function.update pointer slot cell) (Function.update deep slot value)
      (Function.update point thread new) after :=
  accounted.change here effect holds deepens uses null
    (fun _ used _ => accounted.own here outside used) fewer keepers temporary facts

omit [DecidableEq Name] in
/-- A new cell belongs to the thread. -/
theorem allocated (accounted : Accounted protocol pointer deep point sharing)
    (here : point thread = current) {fresh : Cell} {value : Value}
    (free : sharing.cell fresh = none) (nothing : ∀ cell, ¬ protocol.keeps current cell)
    (keeps : ∀ cell, protocol.keeps new cell ↔ cell = fresh)
    (outside : protocol.insideClone current = none)
    (fewer : ∀ name ∈ protocol.names new, name ∈ protocol.names current)
    (temporary : protocol.usesTemporary new = false → protocol.usesTemporary current = false)
    (facts : protocol.Facts (sharing.allocate thread fresh value) thread new) :
    Accounted protocol pointer deep (Function.update point thread new)
      (sharing.allocate thread fresh value) := by
  refine accounted.stay here (accounted.sound.allocate _ thread free value) rfl rfl outside fewer ?_
    temporary facts
  intro cell
  have before := accounted.no_keeper here nothing cell
  rw [keeps]
  show Function.update sharing.keeper fresh (some thread) cell = some thread ↔ cell = fresh
  rw [update_eq_some_iff]
  constructor
  · rintro (⟨same, -⟩ | ⟨-, kept⟩)
    · exact same
    · exact absurd kept before
  · intro same
    exact .inl ⟨same, rfl⟩

omit [DecidableEq Name] in
/-- The thread that keeps a cell frees it. -/
theorem freed (accounted : Accounted protocol pointer deep point sharing)
    (here : point thread = current) {cell : Cell} (kept : sharing.keeper cell = some thread)
    (alone : ∀ other, protocol.keeps current other ↔ other = cell)
    (nothing : ∀ other, ¬ protocol.keeps new other)
    (outside : protocol.insideClone current = none)
    (fewer : ∀ name ∈ protocol.names new, name ∈ protocol.names current)
    (temporary : protocol.usesTemporary new = false → protocol.usesTemporary current = false)
    (facts : protocol.Facts (sharing.free cell) thread new) :
    Accounted protocol pointer deep (Function.update point thread new) (sharing.free cell) := by
  refine accounted.stay here (accounted.sound.free _ kept) rfl rfl outside fewer ?_ temporary facts
  intro other
  apply iff_of_false _ (nothing other)
  intro keeps
  obtain ⟨-, impossible⟩ | ⟨apart, before⟩ := update_eq_some_iff.mp keeps
  · cases impossible
  · have same := (accounted.keepers thread other).mp before
    rw [here, alone] at same
    exact apart same

/-- Two slots of the thread are swapped. -/
theorem exchanged (accounted : Accounted protocol pointer deep point sharing)
    (here : point thread = current) {one other : Slot Name Thread}
    (uses : Uses (protocol.names current) thread one)
    (usesToo : Uses (protocol.names current) thread other)
    (outside : protocol.insideClone current = none)
    (fewer : ∀ name ∈ protocol.names new, name ∈ protocol.names current)
    (nothing : ∀ cell, ¬ protocol.keeps current cell) (unkept : ∀ cell, ¬ protocol.keeps new cell)
    (temporary : protocol.usesTemporary new = false →
      (sharing.exchange one other).holds (.inr thread) = none)
    (facts : protocol.Facts (sharing.exchange one other) thread new) :
    Accounted protocol (pointer ∘ Equiv.swap one other) (deep ∘ Equiv.swap one other)
      (Function.update point thread new) (sharing.exchange one other) := by
  refine accounted.advance here (accounted.sound.exchange thread uses usesToo) ?_ fewer ?_ ?_ ?_
    temporary facts
  · rw [accounted.values]
    rfl
  · intro slot notMine
    show pointer (Equiv.swap one other slot) = _
    rw [Sharing.swap_elsewhere uses usesToo notMine]
  · intro slot mine
    left
    exact accounted.own here outside (Sharing.swap_inside uses usesToo mine)
  · intro cell
    exact iff_of_false (accounted.no_keeper here nothing cell) (unkept cell)

/-- The clone step ends with a reference to a cell that shows its value. -/
theorem filled (accounted : Accounted protocol pointer deep point sharing)
    (here : point thread = current) {name : Name} {cell : Cell} {value : Value}
    (names : protocol.names current = [name])
    (unused : protocol.usesTemporary current = false)
    (effect : after.Sound ∧ Sharing.Frame (Uses [name] thread) thread sharing after)
    (holds : after.holds = Function.update sharing.holds (.inl name) (some cell))
    (deepens : after.deep = Function.update sharing.deep (.inl name) (some value))
    (shown : sharing.deep (.inl name) = some value)
    (keepers : ∀ cell, after.keeper cell = some thread ↔ protocol.keeps new cell)
    (same : protocol.names new = [name]) (facts : protocol.Facts after thread new) :
    Accounted protocol (Function.update pointer (.inl name) (some cell)) deep
      (Function.update point thread new) after := by
  have unchanged : Function.update deep (.inl name) (some value) = deep := by
    rw [← shown, ← accounted.values, Function.update_eq_self]
  rw [← unchanged]
  rw [← names] at effect
  apply accounted.change here effect holds deepens
  · rw [names]
    exact uses_singleton name thread
  · intro null
    cases null
  · intro slot used different
    cases slot with
    | inl other =>
        rw [names] at used
        exact absurd (congrArg Sum.inl (List.mem_singleton.mp used)) different
    | inr owner => exact accounted.linked_temporary owner
  · rw [same, names]
    exact fun _ => id
  · exact keepers
  · intro _
    rw [holds, Function.update_of_ne Sum.inr_ne_inl]
    exact accounted.noTemporary here unused
  · exact facts

/-- The thread keeps the cell before. -/
theorem held (accounted : Accounted protocol pointer deep point sharing)
    (here : point thread = current) {name : Name} {cell : Cell} {value : Value}
    (names : protocol.names current = [name])
    (unused : protocol.usesTemporary current = false)
    (empty : sharing.holds (.inl name) = none) (live : sharing.cell cell = some (0, value))
    (keeps : protocol.keeps current cell) (shown : sharing.deep (.inl name) = some value)
    (rest : ∀ other, protocol.keeps current other ∧ other ≠ cell ↔ protocol.keeps new other)
    (same : protocol.names new = [name])
    (facts : protocol.Facts (sharing.hold (.inl name) cell 0 value) thread new) :
    Accounted protocol (Function.update pointer (.inl name) (some cell)) deep
      (Function.update point thread new) (sharing.hold (.inl name) cell 0 value) := by
  have effect := accounted.sound.hold (uses_singleton name thread) empty
    live (.inr (accounted.keeper here keeps))
  refine accounted.filled here names unused effect rfl rfl shown ?_ same facts
  intro other
  rw [← rest, ← here, ← accounted.keepers]
  show Function.update sharing.keeper cell none other = some thread ↔ _
  rw [update_eq_some_iff]
  constructor
  · rintro (⟨-, impossible⟩ | ⟨different, kept⟩)
    · cases impossible
    · exact ⟨kept, different⟩
  · rintro ⟨kept, different⟩
    exact .inr ⟨different, kept⟩

/-- The cell is new. -/
theorem created (accounted : Accounted protocol pointer deep point sharing)
    (here : point thread = current) {name : Name} {cell : Cell} {value : Value}
    (names : protocol.names current = [name])
    (unused : protocol.usesTemporary current = false)
    (empty : sharing.holds (.inl name) = none) (free : sharing.cell cell = none)
    (shown : sharing.deep (.inl name) = some value)
    (nothing : ∀ cell, ¬ protocol.keeps current cell) (unkept : ∀ cell, ¬ protocol.keeps new cell)
    (same : protocol.names new = [name])
    (facts : protocol.Facts (sharing.create thread (.inl name) cell value) thread new) :
    Accounted protocol (Function.update pointer (.inl name) (some cell)) deep
      (Function.update point thread new) (sharing.create thread (.inl name) cell value) := by
  have effect := accounted.sound.create thread (uses_singleton name thread) empty free value
  refine accounted.filled here names unused effect rfl rfl shown ?_ same facts
  intro other
  rw [Sharing.create_keeper]
  exact iff_of_false (fun both => accounted.no_keeper here nothing other both.2) (unkept other)

omit [DecidableEq Name] [DecidableEq Thread] in
/-- A slot in use that holds nothing has no deep value. -/
theorem deep_none (accounted : Accounted protocol pointer deep point sharing)
    (here : point thread = current) (outside : protocol.insideClone current = none)
    {slot : Slot Name Thread} (uses : Uses (protocol.names current) thread slot)
    (empty : sharing.holds slot = none) : sharing.deep slot = none := by
  obtain ⟨link, null⟩ := accounted.own here outside uses
  rw [← accounted.values]
  exact null (link.symm.trans empty)

/-- A constructor has filled its slot. -/
theorem constructed (accounted : Accounted protocol pointer deep point sharing)
    (here : point thread = current) {target : Target Name} {cell : Option Cell}
    {value : Option Value} (names : target.name ∈ protocol.names current)
    (effect : after.Sound ∧
      Sharing.Frame (Uses (protocol.names current) thread) thread sharing after)
    (holds : after.holds = Function.update sharing.holds (target.slot thread) cell)
    (deepens : after.deep = Function.update sharing.deep (target.slot thread) value)
    (null : cell = none → value = none) (outside : protocol.insideClone current = none)
    (unused : protocol.usesTemporary current = false)
    (keepers : ∀ cell, after.keeper cell ≠ some thread)
    (fewer : ∀ name ∈ protocol.names new, name = target.name)
    (nothing : ∀ cell, ¬ protocol.keeps new cell)
    (temporary : protocol.usesTemporary new = false → target = .itself target.name)
    (facts : protocol.Facts after thread new) :
    Accounted protocol (Function.update pointer (target.slot thread) cell)
      (Function.update deep (target.slot thread) value) (Function.update point thread new) after := by
  apply accounted.changeOutside here effect holds deepens (target.uses_slot names thread) null
    outside
  · intro name member
    rw [fewer name member]
    exact names
  · intro other
    exact iff_of_false (keepers other) (nothing other)
  · intro free
    rw [holds, temporary free]
    exact (Function.update_of_ne Sum.inr_ne_inl _ _).trans (accounted.noTemporary here unused)
  · exact facts

/-- A reference goes away. The thread keeps the cell after the last one. -/
theorem released (accounted : Accounted protocol pointer deep point sharing)
    (here : point thread = current) {slot : Slot Name Thread} {cell : Cell} {count : Int}
    {value : Value} (uses : Uses (protocol.names current) thread slot)
    (held : sharing.holds slot = some cell) (live : sharing.cell cell = some (count, value))
    (outside : protocol.insideClone current = none)
    (nothing : ∀ cell, ¬ protocol.keeps current cell)
    (fewer : ∀ name ∈ protocol.names new, name ∈ protocol.names current)
    (keeps : ∀ other, protocol.keeps new other ↔ count = 1 ∧ other = cell)
    (temporary : slot = .inr thread ∨ protocol.usesTemporary current = false)
    (facts : protocol.Facts (sharing.leave thread slot cell count value none) thread new) :
    Accounted protocol (Function.update pointer slot none) (Function.update deep slot none)
      (Function.update point thread new) (sharing.leave thread slot cell count value none) := by
  apply accounted.changeOutside here (accounted.sound.leave thread uses held live none) rfl rfl uses
    (fun _ => rfl) outside fewer
  · intro other
    have unkept := accounted.no_keeper here nothing other
    rw [keeps, Sharing.keeper_leave]
    constructor
    · rintro (⟨last, same, -⟩ | ⟨kept, -⟩)
      · exact ⟨last, same⟩
      · exact absurd kept unkept
    · rintro ⟨last, same⟩
      exact .inl ⟨last, same, rfl⟩
  · intro _
    show Function.update sharing.holds slot none (.inr thread) = none
    rcases temporary with rfl | unused
    · exact Function.update_self _ _ _
    · by_cases same : .inr thread = slot
      · rw [same, Function.update_self]
      · rw [Function.update_of_ne same]
        exact accounted.noTemporary here unused
  · exact facts

/-- A reference gives its cell up in the clone step. -/
theorem givenUp (accounted : Accounted protocol pointer deep point sharing)
    (here : point thread = current) {name : Name} {cell : Cell} {count : Int} {value : Value}
    (names : protocol.names current = [name]) (held : sharing.holds (.inl name) = some cell)
    (live : sharing.cell cell = some (count, value))
    (outside : protocol.insideClone current = none)
    (unused : protocol.usesTemporary current = false)
    (unkept : ¬ protocol.keeps current cell) (same : protocol.names new = [name])
    (inside : protocol.insideClone new = some name)
    (keeps : ∀ other, protocol.keeps new other ↔
      (count = 1 ∧ other = cell) ∨ protocol.keeps current other)
    (facts : protocol.Facts (sharing.leave thread (.inl name) cell count value (some value)) thread
      new) :
    Accounted protocol pointer deep (Function.update point thread new)
      (sharing.leave thread (.inl name) cell count value (some value)) := by
  have uses : Uses (protocol.names current) thread (.inl name) := by
    rw [names]
    exact List.mem_singleton_self name
  have shown : sharing.deep (.inl name) = some value := by
    obtain ⟨_, content, liveToo, shown⟩ := accounted.sound.shown held
    rw [live] at liveToo
    cases liveToo
    exact shown
  have unchanged : deep = Function.update sharing.deep (.inl name) (some value) := by
    rw [← shown, Function.update_eq_self, accounted.values]
  refine accounted.advance here (accounted.sound.leave thread uses held live (some value)) unchanged
    ?_ (fun _ _ => rfl) ?_ ?_ ?_ facts
  · rw [same, names]
    exact fun _ => id
  · intro slot used
    by_cases here' : slot = .inl name
    · exact .inr ⟨name, here', inside⟩
    · obtain ⟨link, null⟩ := accounted.own here outside used
      exact .inl ⟨(Function.update_of_ne here' _ _).trans link, null⟩
  · intro other
    rw [keeps, Sharing.keeper_leave, accounted.keepers, here]
    constructor
    · rintro (⟨last, dead, -⟩ | ⟨kept, -⟩)
      · exact .inl ⟨last, dead⟩
      · exact .inr kept
    · rintro (⟨last, dead⟩ | kept)
      · exact .inl ⟨last, dead, rfl⟩
      · exact .inr ⟨kept, fun _ dead => unkept (dead ▸ kept)⟩
  · intro _
    show Function.update sharing.holds (.inl name) none (.inr thread) = none
    rw [Function.update_of_ne Sum.inr_ne_inl]
    exact accounted.noTemporary here unused

/-- The only reference changes the value. -/
theorem written (accounted : Accounted protocol pointer deep point sharing)
    (here : point thread = current) {name : Name} {cell : Cell} {old : Value}
    (names : protocol.names current = [name]) (held : sharing.holds (.inl name) = some cell)
    (single : sharing.cell cell = some (1, old)) (outside : protocol.insideClone current = none)
    (unused : protocol.usesTemporary current = false)
    (nothing : ∀ cell, ¬ protocol.keeps current cell) (value : Value)
    (done : protocol.names new = []) (unkept : ∀ cell, ¬ protocol.keeps new cell)
    (facts : protocol.Facts (sharing.write (.inl name) cell value) thread new) :
    Accounted protocol pointer (Function.update deep (.inl name) (some value))
      (Function.update point thread new) (sharing.write (.inl name) cell value) := by
  have uses : Uses (protocol.names current) thread (.inl name) := by
    rw [names]
    exact List.mem_singleton_self name
  have link := (accounted.own here outside uses).1
  have unchanged : Function.update pointer (.inl name) (some cell) = pointer := by
    rw [← held, link, Function.update_eq_self]
  rw [← unchanged]
  apply accounted.changeOutside here (accounted.sound.write thread uses held single value) _ rfl uses
    _ outside
  · rw [done]
    intro _ member
    cases member
  · exact fun other => iff_of_false (accounted.no_keeper here nothing other) (unkept other)
  · intro _
    exact accounted.noTemporary here unused
  · exact facts
  · rw [← held, Function.update_eq_self]
    rfl
  · intro null
    cases null

omit [DecidableEq Name] in
/-- An operation begins with references that no other thread uses. -/
theorem begun (accounted : Accounted protocol pointer deep point sharing)
    (here : point thread = current) (outside : protocol.insideClone current = none)
    (unused : protocol.usesTemporary current = false)
    (nothing : ∀ cell, ¬ protocol.keeps current cell) (unkept : ∀ cell, ¬ protocol.keeps new cell)
    (apart : ∀ other, other ≠ thread → ∀ name ∈ protocol.names new,
      name ∉ protocol.names (point other))
    (facts : protocol.Facts sharing thread new) :
    Accounted protocol pointer deep (Function.update point thread new) sharing := by
  subst here
  have elsewhere (other : Thread) (different : other ≠ thread) :
      Function.update point thread new other = point other :=
    Function.update_of_ne different _ _
  refine ⟨accounted.sound, accounted.values, ?_, ?_, ?_, ?_, accounted.separate.update apart⟩
  · intro slot
    rcases accounted.linked slot with link | ⟨other, name, same, inside⟩
    · exact .inl link
    · refine .inr ⟨other, name, same, ?_⟩
      rw [elsewhere other]
      · exact inside
      · rintro rfl
        rw [outside] at inside
        cases inside
  · intro other cell
    by_cases same : other = thread
    · subst same
      rw [Function.update_self]
      exact iff_of_false (accounted.no_keeper rfl nothing cell) (unkept cell)
    · rw [elsewhere other same]
      exact accounted.keepers other cell
  · intro other free
    by_cases same : other = thread
    · subst same
      exact accounted.temporary other unused
    · rw [elsewhere other same] at free
      exact accounted.temporary other free
  · intro other
    by_cases same : other = thread
    · subst same
      rw [Function.update_self]
      exact facts
    · rw [elsewhere other same]
      exact accounted.facts other

omit [DecidableEq Name] [DecidableEq Thread] in
/-- Without references every thread is idle. -/
theorem nothing (idle : Point) (names : protocol.names idle = [])
    (unkept : ∀ cell, ¬ protocol.keeps idle cell)
    (facts : ∀ (sharing : Sharing Thread (Slot Name Thread) Cell Value) (thread : Thread),
      protocol.Facts sharing thread idle) :
    Accounted protocol (fun _ => none) (fun _ => none) (fun _ => idle)
      ⟨fun _ => none, fun _ => none, fun _ => none, fun _ => none⟩ where
  sound := by
    refine ⟨fun live => ?_, fun held => ?_, fun {cell} => ?_⟩
    · cases live
    · cases held
    · apply iff_of_false
      · rintro ⟨thread, kept⟩
        cases kept
      · rintro ⟨value, live⟩
        cases live
  values := rfl
  linked := fun _ => .inl ⟨rfl, fun _ => rfl⟩
  keepers := fun _ cell => iff_of_false (fun kept => by cases kept) (unkept cell)
  temporary := fun _ _ => rfl
  facts := fun thread => facts _ thread
  separate := by
    intro one other _ name member
    rw [names] at member
    cases member

end Accounted

end Blocxx.CopyOnWrite
