import Blocxx.Library.Census

/-!
This file gives cells that slots share with use counts, and the changes that keep the counts right.
A cell without a holder is kept by exactly one thread.
-/

namespace Blocxx.Library

/-- The cells with their use counts and values, what each slot holds, the thread that keeps a cell
without a holder, and the value that each slot would have if every copy were deep. -/
structure Sharing (Thread Slot Cell Value : Type) where
  cell : Cell → Option (Int × Value)
  holds : Slot → Option Cell
  keeper : Cell → Option Thread
  deep : Slot → Option Value

namespace Sharing

variable {Thread Slot Cell Value : Type} [Fintype Slot] [DecidableEq Slot] [DecidableEq Cell]

/-- The number of slots that hold the cell. -/
def uses (holds : Slot → Option Cell) (cell : Cell) : Nat :=
  census (fun held : Option Cell => decide (held = some cell)) holds

variable {sharing after : Sharing Thread Slot Cell Value}

omit [DecidableEq Slot] in
theorem uses_pos {holds : Slot → Option Cell} {slot : Slot} {cell : Cell}
    (here : holds slot = some cell) : 0 < uses holds cell :=
  census_pos.mpr ⟨slot, decide_eq_true here⟩

theorem uses_update (holds : Slot → Option Cell) (slot : Slot) (new : Option Cell) (cell : Cell) :
    uses (Function.update holds slot new) cell + (decide (holds slot = some cell)).toNat =
      uses holds cell + (decide (new = some cell)).toNat :=
  census_update slot new

/-- A new holder of the cell. -/
theorem uses_gain {holds : Slot → Option Cell} {slot : Slot} (empty : holds slot = none)
    (cell other : Cell) : uses (Function.update holds slot (some cell)) other =
      uses holds other + if other = cell then 1 else 0 := by
  have change := uses_update holds slot (some cell) other
  rw [empty] at change
  by_cases same : other = cell
  · subst same
    simpa using change
  · simpa [same, Ne.symm same] using change

/-- A holder less of the cell. -/
theorem uses_lose {holds : Slot → Option Cell} {slot : Slot} {cell : Cell}
    (held : holds slot = some cell) (other : Cell) :
    uses (Function.update holds slot none) other + (if other = cell then 1 else 0) =
      uses holds other := by
  have change := uses_update holds slot none other
  rw [held] at change
  by_cases same : other = cell
  · subst same
    simpa using change
  · simpa [same, Ne.symm same] using change

/-- Two slots that hold the same cell are two uses. -/
theorem two_uses {holds : Slot → Option Cell} {one other : Slot} {cell : Cell}
    (different : one ≠ other) (first : holds one = some cell) (second : holds other = some cell) :
    1 < uses holds cell := by
  have less := uses_lose first cell
  have rest : Function.update holds one none other = some cell := by
    rw [Function.update_of_ne different.symm]
    exact second
  have positive := uses_pos rest
  rw [if_pos rfl] at less
  omega

theorem uses_swap (holds : Slot → Option Cell) (one other : Slot) (cell : Cell) :
    uses (holds ∘ Equiv.swap one other) cell = uses holds cell := by
  unfold uses census
  apply Finset.card_bij fun slot _ => Equiv.swap one other slot
  · intro slot member
    rw [Finset.mem_filter] at member ⊢
    exact ⟨Finset.mem_univ _, member.2⟩
  · intro first _ second _ same
    exact (Equiv.swap one other).injective same
  · intro slot member
    refine ⟨Equiv.swap one other slot, ?_, Equiv.swap_apply_self one other slot⟩
    rw [Finset.mem_filter] at member ⊢
    rw [Function.comp_apply, Equiv.swap_apply_self]
    exact ⟨Finset.mem_univ _, member.2⟩

omit [Fintype Slot] [DecidableEq Cell] in
/-- A swap of two slots of a set leaves the other slots alone. -/
theorem swap_elsewhere {mine : Slot → Prop} {one other slot : Slot} (own : mine one)
    (ownToo : mine other) (notMine : ¬ mine slot) : Equiv.swap one other slot = slot := by
  apply Equiv.swap_apply_of_ne_of_ne
  · rintro rfl
    exact notMine own
  · rintro rfl
    exact notMine ownToo

omit [Fintype Slot] [DecidableEq Cell] in
theorem swap_inside {mine : Slot → Prop} {one other slot : Slot} (own : mine one)
    (ownToo : mine other) (here : mine slot) : mine (Equiv.swap one other slot) := by
  rw [Equiv.swap_apply_def]
  split
  · exact ownToo
  · split
    · exact own
    · exact here

omit [Fintype Slot] [DecidableEq Cell] in
/-- A change of my slot leaves the other slots. -/
theorem update_elsewhere {Content : Type*} {mine : Slot → Prop} {slot other : Slot} (own : mine slot)
    (notMine : ¬ mine other) {contents : Slot → Content} {content : Content} :
    Function.update contents slot content other = contents other := by
  have apart : other ≠ slot := by
    rintro rfl
    exact notMine own
  exact Function.update_of_ne apart content contents

/-- The counts are the numbers of holders, held cells show the deep values, and exactly the cells
without a holder are kept. -/
structure Sound (sharing : Sharing Thread Slot Cell Value) : Prop where
  count : ∀ {cell count value}, sharing.cell cell = some (count, value) →
    count = uses sharing.holds cell
  shown : ∀ {slot cell}, sharing.holds slot = some cell →
    ∃ count value, sharing.cell cell = some (count, value) ∧ sharing.deep slot = some value
  kept : ∀ {cell}, (∃ thread, sharing.keeper cell = some thread) ↔
    ∃ value, sharing.cell cell = some (0, value)

/-- What a thread with these slots leaves alone: the other slots, the cells of the other keepers, and
a cell whose only holder is another slot. -/
structure Frame (mine : Slot → Prop) (thread : Thread)
    (before after : Sharing Thread Slot Cell Value) : Prop where
  holds : ∀ slot, ¬ mine slot → after.holds slot = before.holds slot
  deep : ∀ slot, ¬ mine slot → after.deep slot = before.deep slot
  kept : ∀ cell other, other ≠ thread → before.keeper cell = some other →
    after.keeper cell = some other ∧ after.cell cell = before.cell cell
  notKept : ∀ cell other, other ≠ thread → after.keeper cell = some other →
    before.keeper cell = some other
  sole : ∀ slot cell value, ¬ mine slot → before.holds slot = some cell →
    before.cell cell = some (1, value) → after.cell cell = some (1, value)

omit [Fintype Slot] [DecidableEq Slot] [DecidableEq Cell] in
theorem Frame.refl (mine : Slot → Prop) (thread : Thread)
    (sharing : Sharing Thread Slot Cell Value) : Frame mine thread sharing sharing :=
  ⟨fun _ _ => rfl, fun _ _ => rfl, fun _ _ _ kept => ⟨kept, rfl⟩, fun _ _ _ kept => kept,
    fun _ _ _ _ _ same => same⟩

omit [Fintype Slot] [DecidableEq Slot] [DecidableEq Cell] in
theorem Frame.trans {mine : Slot → Prop} {thread : Thread}
    {before middle after : Sharing Thread Slot Cell Value} (first : Frame mine thread before middle)
    (second : Frame mine thread middle after) : Frame mine thread before after where
  holds slot other := (second.holds slot other).trans (first.holds slot other)
  deep slot other := (second.deep slot other).trans (first.deep slot other)
  kept cell other different keeps := by
    obtain ⟨keepsMiddle, sameMiddle⟩ := first.kept cell other different keeps
    obtain ⟨keepsAfter, sameAfter⟩ := second.kept cell other different keepsMiddle
    exact ⟨keepsAfter, sameAfter.trans sameMiddle⟩
  notKept cell other different keeps :=
    first.notKept cell other different (second.notKept cell other different keeps)
  sole slot cell value other held single := by
    refine second.sole slot cell value other ?_ (first.sole slot cell value other held single)
    rw [first.holds slot other]
    exact held

omit [DecidableEq Slot] in
theorem Sound.not_free (sound : sharing.Sound) {slot : Slot} {cell : Cell}
    (free : sharing.cell cell = none) : sharing.holds slot ≠ some cell := by
  intro held
  obtain ⟨count, value, live, -⟩ := sound.shown held
  rw [free] at live
  cases live

omit [DecidableEq Slot] in
theorem Sound.not_kept (sound : sharing.Sound) {slot : Slot} {cell : Cell} {thread : Thread}
    (kept : sharing.keeper cell = some thread) : sharing.holds slot ≠ some cell := by
  intro held
  obtain ⟨value, live⟩ := sound.kept.mp ⟨thread, kept⟩
  have none := sound.count live
  have positive := uses_pos held
  omega

omit [DecidableEq Slot] in
theorem Sound.uses_free (sound : sharing.Sound) {cell : Cell} (free : sharing.cell cell = none) :
    uses sharing.holds cell = 0 := by
  by_contra positive
  obtain ⟨slot, held⟩ := census_pos.mp (Nat.pos_of_ne_zero positive)
  exact sound.not_free free (of_decide_eq_true held)

omit [DecidableEq Slot] in
theorem Sound.not_keeper (sound : sharing.Sound) {cell : Cell} {count : Int} {value : Value}
    (live : sharing.cell cell = some (count, value)) (used : count ≠ 0) (thread : Thread) :
    sharing.keeper cell ≠ some thread := by
  intro keeps
  obtain ⟨other, dead⟩ := sound.kept.mp ⟨thread, keeps⟩
  rw [live] at dead
  cases dead
  exact used rfl

omit [DecidableEq Slot] in
/-- A cell that gets another count shows the value that it had. -/
theorem Sound.shown_counted (sound : sharing.Sound) {cell held : Cell} {count : Int} {value : Value}
    (live : sharing.cell cell = some (count, value)) {slot : Slot}
    (holds : sharing.holds slot = some held) {after : Int} :
    ∃ number content,
      Function.update sharing.cell cell (some (after, value)) held = some (number, content) ∧
        sharing.deep slot = some content := by
  obtain ⟨number, content, before, shown⟩ := sound.shown holds
  by_cases same : held = cell
  · subst same
    rw [live] at before
    cases before
    exact ⟨after, value, Function.update_self _ _ _, shown⟩
  · exact ⟨number, content, (Function.update_of_ne same _ _).trans before, shown⟩

/-- The cell whose only holder is another slot is not the one that mine holds. -/
theorem Sound.sole_apart (sound : sharing.Sound) {mine : Slot → Prop} {slot other : Slot}
    {cell held : Cell} {value : Value} (own : mine slot) (holds : sharing.holds slot = some cell)
    (notMine : ¬ mine other) (holdsToo : sharing.holds other = some held)
    (single : sharing.cell held = some (1, value)) : held ≠ cell := by
  rintro rfl
  have apart : slot ≠ other := by
    rintro rfl
    exact notMine own
  have two := two_uses apart holds holdsToo
  have one := sound.count single
  omega

/-- A thread gets a cell without a holder. -/
def allocate (sharing : Sharing Thread Slot Cell Value) (thread : Thread) (cell : Cell)
    (value : Value) : Sharing Thread Slot Cell Value :=
  { sharing with
    cell := Function.update sharing.cell cell (some (0, value))
    keeper := Function.update sharing.keeper cell (some thread) }

omit [DecidableEq Slot] in
theorem Sound.allocate (sound : sharing.Sound) (mine : Slot → Prop) (thread : Thread)
    {cell : Cell} (free : sharing.cell cell = none) (value : Value) :
    (sharing.allocate thread cell value).Sound ∧
      Frame mine thread sharing (sharing.allocate thread cell value) := by
  refine ⟨⟨?_, ?_, ?_⟩, ⟨fun _ _ => rfl, fun _ _ => rfl, ?_, ?_, ?_⟩⟩
  · intro other count content live
    by_cases same : other = cell
    · subst same
      simp only [Sharing.allocate, Function.update_self] at live ⊢
      cases live
      rw [sound.uses_free free]
      rfl
    · simp only [Sharing.allocate, Function.update_of_ne same] at live ⊢
      exact sound.count live
  · intro slot other held
    have different : other ≠ cell := by
      rintro rfl
      exact sound.not_free free held
    obtain ⟨count, content, live, shown⟩ := sound.shown held
    refine ⟨count, content, ?_, shown⟩
    simp only [Sharing.allocate, Function.update_of_ne different]
    exact live
  · intro other
    by_cases same : other = cell
    · subst same
      simp only [Sharing.allocate, Function.update_self]
      exact iff_of_true ⟨thread, rfl⟩ ⟨value, rfl⟩
    · simp only [Sharing.allocate, Function.update_of_ne same]
      exact sound.kept
  · intro other keeper different keeps
    have apart : other ≠ cell := by
      rintro rfl
      obtain ⟨content, live⟩ := sound.kept.mp ⟨keeper, keeps⟩
      rw [free] at live
      cases live
    simp only [Sharing.allocate, Function.update_of_ne apart]
    exact ⟨keeps, trivial⟩
  · intro other keeper different keeps
    have apart : other ≠ cell := by
      rintro rfl
      simp only [Sharing.allocate, Function.update_self] at keeps
      exact different (Option.some.inj keeps).symm
    simp only [Sharing.allocate, Function.update_of_ne apart] at keeps
    exact keeps
  · intro slot other content _ held single
    have apart : other ≠ cell := by
      rintro rfl
      exact sound.not_free free held
    simp only [Sharing.allocate, Function.update_of_ne apart]
    exact single

/-- A slot becomes one more holder of the cell. -/
def hold (sharing : Sharing Thread Slot Cell Value) (slot : Slot) (cell : Cell) (count : Int)
    (value : Value) : Sharing Thread Slot Cell Value where
  cell := Function.update sharing.cell cell (some (count + 1, value))
  holds := Function.update sharing.holds slot (some cell)
  keeper := Function.update sharing.keeper cell none
  deep := Function.update sharing.deep slot (some value)

/-- The thread takes the cell from one of its own slots, or it keeps the cell. -/
theorem Sound.hold (sound : sharing.Sound) {mine : Slot → Prop} {thread : Thread} {slot : Slot}
    {cell : Cell} {count : Int} {value : Value} (own : mine slot)
    (empty : sharing.holds slot = none) (live : sharing.cell cell = some (count, value))
    (reached : (∃ source, mine source ∧ sharing.holds source = some cell) ∨
      sharing.keeper cell = some thread) :
    (sharing.hold slot cell count value).Sound ∧
      Frame mine thread sharing (sharing.hold slot cell count value) := by
  have counted := sound.count live
  have gain := uses_gain empty cell
  refine ⟨⟨?_, ?_, ?_⟩, ⟨?_, ?_, ?_, ?_, ?_⟩⟩
  · intro other number content now
    have more := gain other
    by_cases same : other = cell
    · subst same
      simp only [Sharing.hold, Function.update_self] at now ⊢
      cases now
      rw [more, if_pos rfl, counted]
      rfl
    · simp only [Sharing.hold, Function.update_of_ne same] at now ⊢
      rw [more, if_neg same, Nat.add_zero]
      exact sound.count now
  · intro other held now
    by_cases same : other = slot
    · subst same
      simp only [Sharing.hold, Function.update_self] at now ⊢
      cases now
      exact ⟨_, value, Function.update_self _ _ _, rfl⟩
    · simp only [Sharing.hold, Function.update_of_ne same] at now ⊢
      exact sound.shown_counted live now
  · intro other
    by_cases same : other = cell
    · subst same
      simp only [Sharing.hold, Function.update_self]
      refine iff_of_false (fun keeps => by obtain ⟨_, keeps⟩ := keeps; cases keeps) ?_
      rintro ⟨content, zero⟩
      have positive : count + 1 = 0 := congrArg Prod.fst (Option.some.inj zero)
      omega
    · simp only [Sharing.hold, Function.update_of_ne same]
      exact sound.kept
  · exact fun _ notMine => update_elsewhere own notMine
  · exact fun _ notMine => update_elsewhere own notMine
  · intro other keeper different keeps
    have apart : other ≠ cell := by
      rintro rfl
      rcases reached with ⟨source, -, held⟩ | kept
      · exact sound.not_kept keeps held
      · rw [kept] at keeps
        exact different (Option.some.inj keeps).symm
    simp only [Sharing.hold, Function.update_of_ne apart]
    exact ⟨keeps, trivial⟩
  · intro other keeper _ keeps
    have apart : other ≠ cell := by
      rintro rfl
      simp only [Sharing.hold, Function.update_self] at keeps
      cases keeps
    simp only [Sharing.hold, Function.update_of_ne apart] at keeps
    exact keeps
  · intro other held content notMine holds single
    have apart : held ≠ cell := by
      rcases reached with ⟨source, own, holdsToo⟩ | kept
      · exact sound.sole_apart own holdsToo notMine holds single
      · rintro rfl
        exact sound.not_kept kept holds
    simp only [Sharing.hold, Function.update_of_ne apart]
    exact single

/-- A slot becomes the first holder of a new cell. -/
def create (sharing : Sharing Thread Slot Cell Value) (thread : Thread) (slot : Slot) (cell : Cell)
    (value : Value) : Sharing Thread Slot Cell Value :=
  (sharing.allocate thread cell value).hold slot cell 0 value

theorem Sound.create (sound : sharing.Sound) {mine : Slot → Prop} (thread : Thread) {slot : Slot}
    {cell : Cell} (own : mine slot) (empty : sharing.holds slot = none)
    (free : sharing.cell cell = none) (value : Value) :
    (sharing.create thread slot cell value).Sound ∧
      Frame mine thread sharing (sharing.create thread slot cell value) := by
  obtain ⟨soundFirst, first⟩ := sound.allocate mine thread free value
  obtain ⟨soundSecond, second⟩ := soundFirst.hold own empty (Function.update_self _ _ _)
    (.inr (Function.update_self _ _ _))
  exact ⟨soundSecond, first.trans second⟩

omit [Fintype Slot] in
theorem create_cell {thread : Thread} {slot : Slot} {cell : Cell} {value : Value} :
    (sharing.create thread slot cell value).cell =
      Function.update sharing.cell cell (some (1, value)) :=
  Function.update_idem _ _ _

omit [Fintype Slot] in
/-- The thread does not keep the new cell. -/
theorem create_keeper {thread other : Thread} {slot : Slot} {cell here : Cell} {value : Value} :
    (sharing.create thread slot cell value).keeper here = some other ↔
      here ≠ cell ∧ sharing.keeper here = some other := by
  show Function.update (Function.update sharing.keeper cell _) cell none here = some other ↔ _
  rw [Function.update_idem]
  by_cases same : here = cell
  · simp [same]
  · simp [same]

/-- A slot is no holder any more. The thread keeps the cell after its last holder. -/
def leave (sharing : Sharing Thread Slot Cell Value) (thread : Thread) (slot : Slot) (cell : Cell)
    (count : Int) (value : Value) (deep : Option Value) : Sharing Thread Slot Cell Value where
  cell := Function.update sharing.cell cell (some (count - 1, value))
  holds := Function.update sharing.holds slot none
  keeper := if count = 1 then Function.update sharing.keeper cell (some thread) else sharing.keeper
  deep := Function.update sharing.deep slot deep

omit [Fintype Slot] in
theorem keeper_leave {thread other : Thread} {slot : Slot} {cell here : Cell} {count : Int}
    {value : Value} {deep : Option Value} :
    (sharing.leave thread slot cell count value deep).keeper here = some other ↔
      (count = 1 ∧ here = cell ∧ thread = other) ∨
        (sharing.keeper here = some other ∧ (count = 1 → here ≠ cell)) := by
  by_cases last : count = 1
  · simp only [leave, if_pos last]
    by_cases same : here = cell
    · subst same
      simp [last]
    · simp [last, same]
  · simp [leave, last]

theorem Sound.leave (sound : sharing.Sound) {mine : Slot → Prop} (thread : Thread) {slot : Slot}
    {cell : Cell} {count : Int} {value : Value} (own : mine slot)
    (held : sharing.holds slot = some cell) (live : sharing.cell cell = some (count, value))
    (deep : Option Value) :
    (sharing.leave thread slot cell count value deep).Sound ∧
      Frame mine thread sharing (sharing.leave thread slot cell count value deep) := by
  have counted := sound.count live
  have positive := uses_pos held
  have lose := uses_lose held
  have notKept := sound.not_keeper live (by omega)
  refine ⟨⟨?_, ?_, ?_⟩, ⟨?_, ?_, ?_, ?_, ?_⟩⟩
  · intro other number content now
    have less := lose other
    by_cases same : other = cell
    · subst same
      simp only [Sharing.leave, Function.update_self] at now ⊢
      cases now
      rw [if_pos rfl] at less
      omega
    · simp only [Sharing.leave, Function.update_of_ne same] at now ⊢
      rw [if_neg same, Nat.add_zero] at less
      rw [less]
      exact sound.count now
  · intro other held now
    have apart : other ≠ slot := by
      rintro rfl
      simp only [Sharing.leave, Function.update_self] at now
      cases now
    simp only [Sharing.leave, Function.update_of_ne apart] at now ⊢
    exact sound.shown_counted live now
  · intro other
    by_cases same : other = cell
    · subst same
      simp only [Sharing.leave, Function.update_self]
      by_cases last : count = 1
      · rw [if_pos last, Function.update_self]
        refine iff_of_true ⟨thread, rfl⟩ ⟨value, ?_⟩
        rw [last]
        rfl
      · rw [if_neg last]
        refine iff_of_false (fun keeps => ?_) ?_
        · obtain ⟨keeper, keeps⟩ := keeps
          exact notKept keeper keeps
        · rintro ⟨content, zero⟩
          have none : count - 1 = 0 := congrArg Prod.fst (Option.some.inj zero)
          omega
    · have keeper : (sharing.leave thread slot cell count value deep).keeper other =
          sharing.keeper other := by
        simp only [Sharing.leave]
        split
        · exact Function.update_of_ne same _ _
        · rfl
      rw [keeper]
      simp only [Sharing.leave, Function.update_of_ne same]
      exact sound.kept
  · exact fun _ notMine => update_elsewhere own notMine
  · exact fun _ notMine => update_elsewhere own notMine
  · intro other keeper different keeps
    have apart : other ≠ cell := by
      rintro rfl
      exact notKept keeper keeps
    refine ⟨?_, Function.update_of_ne apart _ _⟩
    simp only [Sharing.leave]
    split
    · rw [Function.update_of_ne apart]
      exact keeps
    · exact keeps
  · intro other keeper different keeps
    simp only [Sharing.leave] at keeps
    split at keeps
    · have apart : other ≠ cell := by
        rintro rfl
        rw [Function.update_self] at keeps
        exact different (Option.some.inj keeps).symm
      rw [Function.update_of_ne apart] at keeps
      exact keeps
    · exact keeps
  · intro other heldToo content notMine holds single
    have apart : heldToo ≠ cell := sound.sole_apart own held notMine holds single
    simp only [Sharing.leave, Function.update_of_ne apart]
    exact single

/-- The thread frees a cell that it keeps. -/
def free (sharing : Sharing Thread Slot Cell Value) (cell : Cell) :
    Sharing Thread Slot Cell Value :=
  { sharing with
    cell := Function.update sharing.cell cell none
    keeper := Function.update sharing.keeper cell none }

omit [DecidableEq Slot] in
theorem Sound.free (sound : sharing.Sound) (mine : Slot → Prop) {thread : Thread} {cell : Cell}
    (keeps : sharing.keeper cell = some thread) :
    (sharing.free cell).Sound ∧ Frame mine thread sharing (sharing.free cell) := by
  refine ⟨⟨?_, ?_, ?_⟩, ⟨fun _ _ => rfl, fun _ _ => rfl, ?_, ?_, ?_⟩⟩
  · intro other count value live
    have apart : other ≠ cell := by
      rintro rfl
      simp only [Sharing.free, Function.update_self] at live
      cases live
    simp only [Sharing.free, Function.update_of_ne apart] at live
    exact sound.count live
  · intro slot other held
    have apart : other ≠ cell := by
      rintro rfl
      exact sound.not_kept keeps held
    simp only [Sharing.free, Function.update_of_ne apart]
    exact sound.shown held
  · intro other
    by_cases same : other = cell
    · subst same
      simp only [Sharing.free, Function.update_self]
      exact iff_of_false (fun kept => by obtain ⟨_, kept⟩ := kept; cases kept)
        (fun live => by obtain ⟨_, live⟩ := live; cases live)
    · simp only [Sharing.free, Function.update_of_ne same]
      exact sound.kept
  · intro other keeper different kept
    have apart : other ≠ cell := by
      rintro rfl
      rw [keeps] at kept
      exact different (Option.some.inj kept).symm
    simp only [Sharing.free, Function.update_of_ne apart]
    exact ⟨kept, trivial⟩
  · intro other keeper _ kept
    have apart : other ≠ cell := by
      rintro rfl
      simp only [Sharing.free, Function.update_self] at kept
      cases kept
    simp only [Sharing.free, Function.update_of_ne apart] at kept
    exact kept
  · intro slot other value _ held single
    have apart : other ≠ cell := by
      rintro rfl
      exact sound.not_kept keeps held
    simp only [Sharing.free, Function.update_of_ne apart]
    exact single

/-- Two slots exchange what they hold. -/
def exchange (sharing : Sharing Thread Slot Cell Value) (one other : Slot) :
    Sharing Thread Slot Cell Value :=
  { sharing with
    holds := sharing.holds ∘ Equiv.swap one other
    deep := sharing.deep ∘ Equiv.swap one other }

theorem Sound.exchange (sound : sharing.Sound) {mine : Slot → Prop} (thread : Thread)
    {one other : Slot} (own : mine one) (ownToo : mine other) :
    (sharing.exchange one other).Sound ∧
      Frame mine thread sharing (sharing.exchange one other) := by
  refine ⟨⟨?_, ?_, sound.kept⟩, ⟨?_, ?_, fun _ _ _ kept => ⟨kept, rfl⟩, fun _ _ _ kept => kept,
    fun _ _ _ _ _ single => single⟩⟩
  · intro cell count value live
    rw [sound.count live]
    exact congrArg Nat.cast (uses_swap sharing.holds one other cell).symm
  · intro slot cell held
    exact sound.shown held
  · intro slot notMine
    simp only [Sharing.exchange, Function.comp_apply, swap_elsewhere own ownToo notMine]
  · intro slot notMine
    simp only [Sharing.exchange, Function.comp_apply, swap_elsewhere own ownToo notMine]

/-- The only holder of a cell changes the value. -/
def write (sharing : Sharing Thread Slot Cell Value) (slot : Slot) (cell : Cell) (value : Value) :
    Sharing Thread Slot Cell Value :=
  { sharing with
    cell := Function.update sharing.cell cell (some (1, value))
    deep := Function.update sharing.deep slot (some value) }

theorem Sound.write (sound : sharing.Sound) {mine : Slot → Prop} (thread : Thread) {slot : Slot}
    {cell : Cell} {old : Value} (own : mine slot) (held : sharing.holds slot = some cell)
    (single : sharing.cell cell = some (1, old)) (value : Value) :
    (sharing.write slot cell value).Sound ∧
      Frame mine thread sharing (sharing.write slot cell value) := by
  have counted := sound.count single
  have alone (other : Slot) (holds : sharing.holds other = some cell) : other = slot := by
    by_contra different
    have two := two_uses different holds held
    omega
  have notKept := sound.not_keeper single one_ne_zero
  refine ⟨⟨?_, ?_, ?_⟩, ⟨fun _ _ => rfl, ?_, ?_, fun _ _ _ kept => kept, ?_⟩⟩
  · intro other count content live
    by_cases same : other = cell
    · subst same
      simp only [Sharing.write, Function.update_self] at live
      cases live
      exact counted
    · simp only [Sharing.write, Function.update_of_ne same] at live
      exact sound.count live
  · intro other target holds
    by_cases same : other = slot
    · subst same
      have equal : target = cell := Option.some.inj (holds.symm.trans held)
      subst equal
      exact ⟨1, value, Function.update_self _ _ _, Function.update_self _ _ _⟩
    · have apart : target ≠ cell := by
        rintro rfl
        exact same (alone other holds)
      simp only [Sharing.write, Function.update_of_ne same, Function.update_of_ne apart]
      exact sound.shown holds
  · intro other
    by_cases same : other = cell
    · subst same
      simp only [Sharing.write, Function.update_self]
      refine iff_of_false (fun kept => ?_) (fun live => ?_)
      · obtain ⟨keeper, kept⟩ := kept
        exact notKept keeper kept
      · obtain ⟨_, live⟩ := live
        cases live
    · simp only [Sharing.write, Function.update_of_ne same]
      exact sound.kept
  · exact fun _ notMine => update_elsewhere own notMine
  · intro other keeper _ kept
    have apart : other ≠ cell := by
      rintro rfl
      exact notKept keeper kept
    exact ⟨kept, Function.update_of_ne apart _ _⟩
  · intro other target content notMine holds singleToo
    have apart : target ≠ cell := by
      rintro rfl
      exact notMine (alone other holds ▸ own)
    simp only [Sharing.write, Function.update_of_ne apart]
    exact singleToo

/-- The values of the live cells. -/
def values (sharing : Sharing Thread Slot Cell Value) (cell : Cell) : Option Value :=
  (sharing.cell cell).map Prod.snd

omit [Fintype Slot] [DecidableEq Slot] in
theorem values_update {cells : Cell → Option (Int × Value)} {cell : Cell}
    {new : Option (Int × Value)} :
    (fun other => (Function.update cells cell new other).map Prod.snd) =
      Function.update (fun other => (cells other).map Prod.snd) cell (new.map Prod.snd) := by
  funext other
  by_cases same : other = cell
  · subst same
    simp only [Function.update_self]
  · simp only [Function.update_of_ne same]

omit [Fintype Slot] in
/-- A change of the count leaves the values alone. -/
theorem values_hold {slot : Slot} {cell : Cell} {count : Int} {value : Value}
    (live : sharing.cell cell = some (count, value)) :
    (sharing.hold slot cell count value).values = sharing.values := by
  have same : sharing.values cell = some value := congrArg (Option.map Prod.snd) live
  show (fun other => (Function.update sharing.cell cell _ other).map Prod.snd) = _
  rw [values_update]
  exact (congrArg (Function.update sharing.values cell) same.symm).trans
    (Function.update_eq_self _ _)

omit [Fintype Slot] in
theorem values_leave {thread : Thread} {slot : Slot} {cell : Cell} {count : Int} {value : Value}
    {deep : Option Value} (live : sharing.cell cell = some (count, value)) :
    (sharing.leave thread slot cell count value deep).values = sharing.values := by
  have same : sharing.values cell = some value := congrArg (Option.map Prod.snd) live
  show (fun other => (Function.update sharing.cell cell _ other).map Prod.snd) = _
  rw [values_update]
  exact (congrArg (Function.update sharing.values cell) same.symm).trans
    (Function.update_eq_self _ _)

omit [Fintype Slot] in
theorem values_create {thread : Thread} {slot : Slot} {cell : Cell} {value : Value} :
    (sharing.create thread slot cell value).values =
      Function.update sharing.values cell (some value) := by
  show (fun other => ((sharing.create thread slot cell value).cell other).map Prod.snd) = _
  rw [create_cell]
  exact values_update

end Sharing

end Blocxx.Library
