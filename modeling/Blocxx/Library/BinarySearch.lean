import Mathlib.Data.Set.Card
import Mathlib.Tactic

/-!
This file gives the binary search for the partition point of a sequence and the count that it
finds.
-/

namespace Blocxx.Library.BinarySearch

variable {Element : Type*}

/-- The loop of the search. The elements from `first` on, this many, are undecided. -/
def search (before : Element → Bool) (sequence : List Element) : Nat → Nat → Nat → Nat
  | 0, first, _ => first
  | fuel + 1, first, count =>
      if count = 0 then first
      else
        let step := count / 2
        if (sequence[first + step]?).any before then
          search before sequence fuel (first + step + 1) (count - (step + 1))
        else search before sequence fuel first step

/-- The position of the first element that does not come before the sought place. -/
def partitionPoint (before : Element → Bool) (sequence : List Element) : Nat :=
  search before sequence sequence.length 0 sequence.length

/-- Exactly the elements in front of the position come before the sought place. -/
def Splits (before : Element → Bool) (sequence : List Element) (position : Nat) : Prop :=
  position ≤ sequence.length ∧
    ∀ index element, sequence[index]? = some element → (before element = true ↔ index < position)

variable {before : Element → Bool} {sequence : List Element}

theorem before_of_le (partitioned : sequence.Pairwise fun a b => before b = true → before a = true)
    {index other : Nat} {element later : Element} (order : index ≤ other)
    (here : sequence[index]? = some element) (there : sequence[other]? = some later)
    (comes : before later = true) : before element = true := by
  rcases order.eq_or_lt with rfl | order
  · rw [here] at there
    cases there
    exact comes
  · obtain ⟨inside, rfl⟩ := List.getElem?_eq_some_iff.mp here
    obtain ⟨insideLater, rfl⟩ := List.getElem?_eq_some_iff.mp there
    exact List.pairwise_iff_getElem.mp partitioned _ _ inside insideLater order comes

/-- The elements outside of the undecided ones are decided, so the search ends at the place. -/
theorem search_splits
    (partitioned : sequence.Pairwise fun a b => before b = true → before a = true) (fuel : Nat) :
    ∀ first count, count ≤ fuel → first + count ≤ sequence.length →
      (∀ index element, sequence[index]? = some element → index < first →
        before element = true) →
      (∀ index element, sequence[index]? = some element → first + count ≤ index →
        before element ≠ true) →
      Splits before sequence (search before sequence fuel first count) := by
  have done (first count : Nat) (none : count = 0) (inside : first + count ≤ sequence.length)
      (low : ∀ index element, sequence[index]? = some element → index < first →
        before element = true)
      (high : ∀ index element, sequence[index]? = some element → first + count ≤ index →
        before element ≠ true) : Splits before sequence first := by
    refine ⟨by omega, fun index element here => ⟨fun comes => ?_, low index element here⟩⟩
    by_contra behind
    exact high index element here (by omega) comes
  induction fuel with
  | zero =>
      intro first count enough inside low high
      exact done first count (by omega) inside low high
  | succ fuel ih =>
      intro first count enough inside low high
      rw [search]
      split
      · next empty => exact done first count empty inside low high
      · next undecided =>
          have middle : first + count / 2 < sequence.length := by omega
          have here := List.getElem?_eq_getElem middle
          dsimp only
          rw [here, Option.any_some]
          split
          · next comes =>
              refine ih _ _ (by omega) (by omega) ?_ ?_
              · intro index element found less
                exact before_of_le partitioned (by omega) found here comes
              · intro index element found more
                exact high index element found (by omega)
          · next stays =>
              refine ih _ _ (by omega) (by omega) low ?_
              intro index element found more comes
              exact stays (before_of_le partitioned more here found comes)

theorem partitionPoint_splits
    (partitioned : sequence.Pairwise fun a b => before b = true → before a = true) :
    Splits before sequence (partitionPoint before sequence) := by
  refine search_splits partitioned _ _ _ le_rfl (by omega) ?_ ?_
  · intro index element here less
    omega
  · intro index element here more
    obtain ⟨inside, -⟩ := List.getElem?_eq_some_iff.mp here
    omega

theorem Splits.before_of_mem_take {position : Nat} (splits : Splits before sequence position)
    {element : Element} (front : element ∈ sequence.take position) : before element = true := by
  obtain ⟨index, inside, rfl⟩ := List.mem_take_iff_getElem.mp front
  exact (splits.2 index _ (List.getElem?_eq_getElem (by omega))).mpr (by omega)

theorem Splits.not_before_of_mem_drop {position : Nat} (splits : Splits before sequence position)
    {element : Element} (behind : element ∈ sequence.drop position) : before element = false := by
  obtain ⟨index, inside, rfl⟩ := List.mem_drop_iff_getElem.mp behind
  rw [Nat.add_comm] at inside
  by_contra comes
  have less := (splits.2 _ _ (List.getElem?_eq_getElem inside)).mp
    (Bool.eq_true_of_not_eq_false comes)
  omega

theorem Splits.eq_countP {position : Nat} (splits : Splits before sequence position) :
    position = sequence.countP before := by
  have front : (sequence.take position).countP before = (sequence.take position).length :=
    List.countP_eq_length.mpr fun _ => splits.before_of_mem_take
  have behind : (sequence.drop position).countP before = 0 := by
    rw [List.countP_eq_zero]
    intro element mem
    rw [splits.not_before_of_mem_drop mem]
    exact Bool.false_ne_true
  calc position
      = (sequence.take position).countP before + (sequence.drop position).countP before := by
        rw [front, behind, List.length_take, Nat.min_eq_left splits.1, Nat.add_zero]
    _ = sequence.countP before := by
        rw [← List.countP_append, List.take_append_drop]

theorem Splits.map {Key : Type*} {key : Element → Key} {above : Key → Bool} {position : Nat}
    (splits : Splits before sequence position)
    (same : ∀ element, before element = above (key element)) :
    Splits above (sequence.map key) position := by
  refine ⟨splits.1.trans (List.length_map key).ge, fun index element here => ?_⟩
  rw [List.getElem?_map, Option.map_eq_some_iff] at here
  obtain ⟨element, here, rfl⟩ := here
  rw [← same]
  exact splits.2 index element here

/-- The place of the split is the number of elements that come before it. -/
theorem Splits.eq_ncard {position : Nat} (splits : Splits before sequence position)
    (distinct : sequence.Nodup) : position = {e | e ∈ sequence ∧ before e = true}.ncard := by
  classical
  have front : {e | e ∈ sequence ∧ before e = true} = ↑(sequence.filter before).toFinset := by
    ext element
    rw [List.coe_toFinset, Set.mem_ofPred_eq, Set.mem_ofPred_eq, List.mem_filter]
  rw [splits.eq_countP, List.countP_eq_length_filter, front, Set.ncard_coe_finset,
    List.toFinset_card_of_nodup (distinct.filter before)]

end Blocxx.Library.BinarySearch
