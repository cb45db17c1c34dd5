import Mathlib.Tactic

/-!
This file gives things that lie in boxes or in the hands of threads, one owner for each thing, and
the changes that keep what the boxes show.
-/

namespace Blocxx.Library

/-- The live things with their values, what each box contains, and the owner of each thing. -/
structure Custody (Thread Box Thing Value : Type) where
  thing : Thing → Option Value
  content : Box → Option Thing
  owner : Thing → Option (Box ⊕ Thread)

namespace Custody

variable {Thread Box Thing Value : Type}

/-- A box shows the value of its content. Every live thing has one owner. -/
structure Sound (custody : Custody Thread Box Thing Value) (shown : Box → Option (Option Value)) :
    Prop where
  owned : ∀ box thing, custody.content box = some thing ↔ custody.owner thing = some (.inl box)
  closed : ∀ box, shown box = none → custody.content box = none
  value : ∀ box value, shown box = some value → value = (custody.content box).bind custody.thing
  live : ∀ thing, (custody.owner thing).isSome = (custody.thing thing).isSome

/-- What a thread leaves alone: the things of the others, and the contents of the boxes that stay. -/
structure Frame (thread : Thread) (before after : Custody Thread Box Thing Value)
    (shown shownAfter : Box → Option (Option Value)) : Prop where
  carried : ∀ thing other, other ≠ thread → before.owner thing = some (.inr other) →
    after.owner thing = some (.inr other) ∧ after.thing thing = before.thing thing
  content : ∀ box, shown box ≠ none → shownAfter box ≠ none →
    after.content box = before.content box
  notCarried : ∀ thing other, other ≠ thread → after.owner thing = some (.inr other) →
    before.owner thing = some (.inr other)

theorem Frame.refl (thread : Thread) (custody : Custody Thread Box Thing Value)
    (shown : Box → Option (Option Value)) : Frame thread custody custody shown shown :=
  ⟨fun _ _ _ carried => ⟨carried, rfl⟩, fun _ _ _ => rfl, fun _ _ _ carried => carried⟩

variable [DecidableEq Box] [DecidableEq Thing] {custody : Custody Thread Box Thing Value}
  {shown : Box → Option (Option Value)}

/-- A thread makes a thing. -/
def make (custody : Custody Thread Box Thing Value) (thread : Thread) (thing : Thing)
    (value : Value) : Custody Thread Box Thing Value :=
  { custody with
    thing := Function.update custody.thing thing (some value)
    owner := Function.update custody.owner thing (some (.inr thread)) }

omit [DecidableEq Box] [DecidableEq Thing] in
theorem Sound.unowned (sound : custody.Sound shown) {thing : Thing}
    (free : custody.thing thing = none) : custody.owner thing = none := by
  have live := sound.live thing
  rw [free] at live
  exact Option.isNone_iff_eq_none.mp (by simpa using live)

omit [DecidableEq Box] in
/-- A change of a thing does not change what the boxes without it contain. -/
theorem bind_update {box : Box} {thing : Thing} (outside : custody.content box ≠ some thing)
    (value : Option Value) :
    (custody.content box).bind (Function.update custody.thing thing value) =
      (custody.content box).bind custody.thing := by
  cases inside : custody.content box with
  | none => rfl
  | some other =>
      have apart : other ≠ thing := by
        rintro rfl
        exact outside inside
      exact Function.update_of_ne apart _ _

omit [DecidableEq Thing] in
/-- A box that is still closed after another one shows its content is closed before. -/
theorem Sound.closed_update (sound : custody.Sound shown) {box other : Box} {content : Option Value}
    (dead : Function.update shown box (some content) other = none) :
    other ≠ box ∧ custody.content other = none := by
  have apart : other ≠ box := by
    rintro rfl
    rw [Function.update_self] at dead
    cases dead
  rw [Function.update_of_ne apart] at dead
  exact ⟨apart, sound.closed other dead⟩

omit [DecidableEq Box] in
theorem Sound.make (sound : custody.Sound shown) (thread : Thread) {thing : Thing}
    (free : custody.thing thing = none) (value : Value) :
    (custody.make thread thing value).Sound shown ∧
      Frame thread custody (custody.make thread thing value) shown shown := by
  have unowned := sound.unowned free
  have outside (box : Box) : custody.content box ≠ some thing := by
    intro inside
    rw [sound.owned, unowned] at inside
    cases inside
  refine ⟨⟨?_, sound.closed, ?_, ?_⟩, ⟨?_, fun _ _ _ => rfl, ?_⟩⟩
  · intro box other
    by_cases same : other = thing
    · subst same
      simp only [Custody.make, Function.update_self]
      exact iff_of_false (outside box) (fun owned => by cases owned)
    · simp only [Custody.make, Function.update_of_ne same]
      exact sound.owned box other
  · intro box content shows
    exact (sound.value box content shows).trans (bind_update (outside box) _).symm
  · intro other
    by_cases same : other = thing
    · subst same
      simp only [Custody.make, Function.update_self, Option.isSome_some]
    · simp only [Custody.make, Function.update_of_ne same]
      exact sound.live other
  · intro other holder _ carried
    have apart : other ≠ thing := by
      rintro rfl
      rw [unowned] at carried
      cases carried
    simp only [Custody.make, Function.update_of_ne apart]
    exact ⟨carried, trivial⟩
  · intro other holder different carried
    have apart : other ≠ thing := by
      rintro rfl
      simp only [Custody.make, Function.update_self] at carried
      exact different (Sum.inr.inj (Option.some.inj carried)).symm
    simp only [Custody.make, Function.update_of_ne apart] at carried
    exact carried

/-- The thread puts a thing in a new box. -/
def attach (custody : Custody Thread Box Thing Value) (box : Box) (thing : Thing) :
    Custody Thread Box Thing Value :=
  { custody with
    content := Function.update custody.content box (some thing)
    owner := Function.update custody.owner thing (some (.inl box)) }

theorem Sound.attach (sound : custody.Sound shown) {thread : Thread} {box : Box} {thing : Thing}
    {value : Value} (new : shown box = none) (carried : custody.owner thing = some (.inr thread))
    (shows : custody.thing thing = some value) :
    (custody.attach box thing).Sound (Function.update shown box (some (some value))) ∧
      Frame thread custody (custody.attach box thing) shown
        (Function.update shown box (some (some value))) := by
  have closed := sound.closed box new
  refine ⟨⟨?_, ?_, ?_, ?_⟩, ⟨?_, ?_, ?_⟩⟩
  · intro other content
    by_cases same : content = thing
    · subst same
      simp only [Custody.attach, Function.update_self]
      by_cases here : other = box
      · subst here
        simp
      · simp only [Function.update_of_ne here, sound.owned, carried]
        simp [Ne.symm here]
    · simp only [Custody.attach, Function.update_of_ne same]
      by_cases here : other = box
      · subst here
        rw [Function.update_self, ← sound.owned, closed]
        simp [Ne.symm same]
      · rw [Function.update_of_ne here]
        exact sound.owned other content
  · intro other dead
    obtain ⟨apart, closed⟩ := sound.closed_update dead
    simp only [Custody.attach, Function.update_of_ne apart]
    exact closed
  · intro other content live
    by_cases here : other = box
    · subst here
      rw [Function.update_self] at live
      cases live
      simp only [Custody.attach, Function.update_self, Option.bind_some]
      exact shows.symm
    · rw [Function.update_of_ne here] at live
      simp only [Custody.attach, Function.update_of_ne here]
      exact sound.value other content live
  · intro other
    by_cases same : other = thing
    · subst same
      simp only [Custody.attach, Function.update_self, shows, Option.isSome_some]
    · simp only [Custody.attach, Function.update_of_ne same]
      exact sound.live other
  · intro other holder different held
    have apart : other ≠ thing := by
      rintro rfl
      rw [carried] at held
      exact different (Sum.inr.inj (Option.some.inj held)).symm
    simp only [Custody.attach, Function.update_of_ne apart]
    exact ⟨held, trivial⟩
  · intro other live _
    have apart : other ≠ box := by
      rintro rfl
      exact live new
    exact Function.update_of_ne apart _ _
  · intro other holder _ held
    have apart : other ≠ thing := by
      rintro rfl
      simp only [Custody.attach, Function.update_self] at held
      cases held
    simp only [Custody.attach, Function.update_of_ne apart] at held
    exact held

omit [DecidableEq Thing] in
/-- A new box without content. -/
theorem Sound.attach_null (sound : custody.Sound shown) (thread : Thread) {box : Box}
    (new : shown box = none) : custody.Sound (Function.update shown box (some none)) ∧
      Frame thread custody custody shown (Function.update shown box (some none)) := by
  refine ⟨⟨sound.owned, ?_, ?_, sound.live⟩,
    ⟨fun _ _ _ carried => ⟨carried, rfl⟩, fun _ _ _ => rfl, fun _ _ _ carried => carried⟩⟩
  · exact fun _ dead => (sound.closed_update dead).2
  · intro other content live
    by_cases here : other = box
    · subst here
      rw [Function.update_self] at live
      cases live
      rw [sound.closed other new]
      rfl
    · rw [Function.update_of_ne here] at live
      exact sound.value other content live

/-- The thread takes the content out of a box and throws the box away. -/
def detach (custody : Custody Thread Box Thing Value) (thread : Thread) (box : Box) :
    Custody Thread Box Thing Value :=
  { custody with
    content := Function.update custody.content box none
    owner := fun thing =>
      if custody.content box = some thing then some (.inr thread) else custody.owner thing }

theorem Sound.detach (sound : custody.Sound shown) (thread : Thread) (box : Box) :
    (custody.detach thread box).Sound (Function.update shown box none) ∧
      Frame thread custody (custody.detach thread box) shown (Function.update shown box none) := by
  refine ⟨⟨?_, ?_, ?_, ?_⟩, ⟨?_, ?_, ?_⟩⟩
  · intro other thing
    simp only [Custody.detach]
    by_cases here : other = box
    · subst here
      rw [Function.update_self]
      apply iff_of_false (fun impossible => by cases impossible)
      split
      · intro impossible
        cases Option.some.inj impossible
      · next outside =>
          rw [← sound.owned]
          exact outside
    · rw [Function.update_of_ne here, sound.owned]
      split
      · next inside =>
          rw [sound.owned] at inside
          rw [inside]
          apply iff_of_false
          · intro same
            exact here (Sum.inl.inj (Option.some.inj same)).symm
          · intro impossible
            cases Option.some.inj impossible
      · exact Iff.rfl
  · intro other dead
    simp only [Custody.detach]
    by_cases here : other = box
    · subst here
      exact Function.update_self _ _ _
    · rw [Function.update_of_ne here] at dead ⊢
      exact sound.closed other dead
  · intro other content live
    have apart : other ≠ box := by
      rintro rfl
      rw [Function.update_self] at live
      cases live
    rw [Function.update_of_ne apart] at live
    simp only [Custody.detach, Function.update_of_ne apart]
    exact sound.value other content live
  · intro thing
    simp only [Custody.detach]
    split
    · next inside =>
        rw [sound.owned] at inside
        rw [← sound.live, inside]
        rfl
    · exact sound.live thing
  · intro thing other _ carried
    have outside : ¬ custody.content box = some thing := by
      intro inside
      rw [sound.owned, carried] at inside
      cases Option.some.inj inside
    simp only [Custody.detach, if_neg outside]
    exact ⟨carried, trivial⟩
  · intro other _ live
    have apart : other ≠ box := by
      rintro rfl
      exact live (Function.update_self _ _ _)
    exact Function.update_of_ne apart _ _
  · intro thing other different carried
    simp only [Custody.detach] at carried
    split at carried
    · exact absurd (Sum.inr.inj (Option.some.inj carried)).symm different
    · exact carried

/-- The thread destroys a thing that it carries. -/
def drop (custody : Custody Thread Box Thing Value) (thing : Thing) :
    Custody Thread Box Thing Value :=
  { custody with
    thing := Function.update custody.thing thing none
    owner := Function.update custody.owner thing none }

omit [DecidableEq Box] in
theorem Sound.drop (sound : custody.Sound shown) {thread : Thread} {thing : Thing}
    (carried : custody.owner thing = some (.inr thread)) :
    (custody.drop thing).Sound shown ∧ Frame thread custody (custody.drop thing) shown shown := by
  have outside (box : Box) : custody.content box ≠ some thing := by
    intro inside
    rw [sound.owned, carried] at inside
    cases Option.some.inj inside
  refine ⟨⟨?_, sound.closed, ?_, ?_⟩, ⟨?_, fun _ _ _ => rfl, ?_⟩⟩
  · intro box other
    by_cases same : other = thing
    · subst same
      simp only [Custody.drop, Function.update_self]
      exact iff_of_false (outside box) (fun owned => by cases owned)
    · simp only [Custody.drop, Function.update_of_ne same]
      exact sound.owned box other
  · intro box content shows
    exact (sound.value box content shows).trans (bind_update (outside box) _).symm
  · intro other
    by_cases same : other = thing
    · subst same
      simp only [Custody.drop, Function.update_self, Option.isSome_none]
    · simp only [Custody.drop, Function.update_of_ne same]
      exact sound.live other
  · intro other holder different held
    have apart : other ≠ thing := by
      rintro rfl
      rw [carried] at held
      exact different (Sum.inr.inj (Option.some.inj held)).symm
    simp only [Custody.drop, Function.update_of_ne apart]
    exact ⟨held, trivial⟩
  · intro other holder _ held
    have apart : other ≠ thing := by
      rintro rfl
      simp only [Custody.drop, Function.update_self] at held
      cases held
    simp only [Custody.drop, Function.update_of_ne apart] at held
    exact held

/-- The content of a box changes its value. -/
def write (custody : Custody Thread Box Thing Value) (thing : Thing) (value : Value) :
    Custody Thread Box Thing Value :=
  { custody with thing := Function.update custody.thing thing (some value) }

theorem Sound.write (sound : custody.Sound shown) (thread : Thread) {box : Box} {thing : Thing}
    (inside : custody.content box = some thing) (value : Value) :
    (custody.write thing value).Sound (Function.update shown box (some (some value))) ∧
      Frame thread custody (custody.write thing value) shown
        (Function.update shown box (some (some value))) := by
  have owned := (sound.owned box thing).mp inside
  refine ⟨⟨sound.owned, ?_, ?_, ?_⟩, ⟨?_, fun _ _ _ => rfl, fun _ _ _ carried => carried⟩⟩
  · exact fun _ dead => (sound.closed_update dead).2
  · intro other content live
    show content = (custody.content other).bind (Function.update custody.thing thing (some value))
    by_cases here : other = box
    · subst here
      rw [Function.update_self] at live
      cases live
      rw [inside, Option.bind_some, Function.update_self]
    · rw [Function.update_of_ne here] at live
      have outside : custody.content other ≠ some thing := by
        intro within
        rw [sound.owned, owned] at within
        exact here (Sum.inl.inj (Option.some.inj within)).symm
      rw [bind_update outside]
      exact sound.value other content live
  · intro other
    by_cases same : other = thing
    · subst same
      simp only [Custody.write, Function.update_self, owned, Option.isSome_some]
    · simp only [Custody.write, Function.update_of_ne same]
      exact sound.live other
  · intro other holder _ carried
    have apart : other ≠ thing := by
      rintro rfl
      rw [owned] at carried
      cases Option.some.inj carried
    exact ⟨carried, Function.update_of_ne apart _ _⟩

end Custody

end Blocxx.Library
