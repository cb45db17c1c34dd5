import Blocxx.Library.BinarySearch
import Mathlib.Data.Finset.Sort
import Mathlib.Data.List.Destutter

/-!
This file gives the changes of a vector that keep it the sorted sequence of a finite set.
-/

namespace Blocxx.Library.SortedSequence

open BinarySearch

variable {Element : Type*} [LinearOrder Element] {elements : Finset Element}

/-- The number of the elements below is the place of an element. -/
def rank (elements : Finset Element) (e : Element) : Nat := (elements.filter (· < e)).card

theorem sort_pairwise_lt (elements : Finset Element) : elements.sort.Pairwise (· < ·) :=
  (Finset.sortedLT_sort elements).pairwise

theorem eq_sort {sequence : List Element} (sorted : sequence.Pairwise (· < ·))
    (mem : ∀ e, e ∈ sequence ↔ e ∈ elements) : sequence = elements.sort := by
  apply sorted.sortedLT.eq_of_mem_iff (Finset.sortedLT_sort elements)
  intro e
  rw [mem, Finset.mem_sort]

theorem splits_eq_card {before : Element → Bool} {position : Nat}
    (splits : Splits before elements.sort position) :
    position = (elements.filter fun e => before e = true).card := by
  have distinct := (elements.sort_nodup (· ≤ ·)).filter before
  rw [splits.eq_countP, List.countP_eq_length_filter, ← List.toFinset_card_of_nodup distinct,
    List.toFinset_filter, Finset.sort_toFinset]

theorem splits_rank (elements : Finset Element) (e : Element) :
    Splits (fun other => decide (other < e)) elements.sort (rank elements e) := by
  have partitioned : elements.sort.Pairwise fun a b =>
      decide (b < e) = true → decide (a < e) = true := by
    apply (sort_pairwise_lt elements).imp
    intro a b less below
    rw [decide_eq_true_eq] at below ⊢
    exact less.trans below
  have splits := partitionPoint_splits partitioned
  have place := splits_eq_card splits
  simp only [decide_eq_true_eq] at place
  rw [rank, ← place]
  exact splits

theorem rank_of_getElem? {index : Nat} {e : Element} (here : elements.sort[index]? = some e) :
    rank elements e = index := by
  have splits := splits_rank elements e
  have behind : ¬ index < rank elements e := by
    intro front
    have below := (splits.2 index e here).mpr front
    exact lt_irrefl e (decide_eq_true_eq.mp below)
  by_contra different
  have order : rank elements e < index := by omega
  obtain ⟨inside, rfl⟩ := List.getElem?_eq_some_iff.mp here
  have less := List.pairwise_iff_getElem.mp (sort_pairwise_lt elements) _ _
    (order.trans inside) inside order
  have first := List.getElem?_eq_getElem (order.trans inside)
  exact lt_irrefl _ ((splits.2 _ _ first).mp (decide_eq_true less))

theorem getElem?_rank_iff {e : Element} :
    elements.sort[rank elements e]? = some e ↔ e ∈ elements := by
  rw [← Finset.mem_sort (· ≤ ·)]
  constructor
  · exact List.mem_of_getElem?
  · intro mem
    obtain ⟨index, here⟩ := List.mem_iff_getElem?.mp mem
    rw [rank_of_getElem? here]
    exact here

theorem lt_of_mem_take {e other : Element}
    (front : other ∈ elements.sort.take (rank elements e)) : other < e :=
  decide_eq_true_eq.mp ((splits_rank elements e).before_of_mem_take front)

theorem le_of_mem_drop {e other : Element}
    (behind : other ∈ elements.sort.drop (rank elements e)) : e ≤ other :=
  not_lt.mp (decide_eq_false_iff_not.mp ((splits_rank elements e).not_before_of_mem_drop behind))

/-- A new element goes to its rank. -/
theorem insert_sort {e : Element} (absent : e ∉ elements) :
    elements.sort.take (rank elements e) ++ e :: elements.sort.drop (rank elements e) =
      (insert e elements).sort := by
  have sorted := sort_pairwise_lt elements
  have above : ∀ other ∈ elements.sort.drop (rank elements e), e < other := by
    intro other behind
    apply (le_of_mem_drop behind).lt_of_ne
    rintro rfl
    exact absent ((Finset.mem_sort _).mp (List.mem_of_mem_drop behind))
  apply eq_sort
  · apply List.pairwise_append.mpr
    refine ⟨sorted.sublist (List.take_sublist _ _),
      List.pairwise_cons.mpr ⟨above, sorted.sublist (List.drop_sublist _ _)⟩, ?_⟩
    intro a front b behind
    rcases List.mem_cons.mp behind with rfl | behind
    · exact lt_of_mem_take front
    · exact (lt_of_mem_take front).trans (above b behind)
  · intro other
    have parts := List.mem_append (a := other) (s := elements.sort.take (rank elements e))
      (t := elements.sort.drop (rank elements e))
    rw [List.take_append_drop, Finset.mem_sort] at parts
    rw [List.mem_append, List.mem_cons, Finset.mem_insert, parts]
    tauto

/-- The elements that stay are those with a rank outside of the range. -/
theorem erase_sort {first last : Nat} (order : first ≤ last) :
    elements.sort.take first ++ elements.sort.drop last =
      (elements.filter fun e => rank elements e < first ∨ last ≤ rank elements e).sort := by
  apply eq_sort
  · have joined := (List.take_sublist_take_left (l := elements.sort) order).append_right
      (elements.sort.drop last)
    rw [List.take_append_drop] at joined
    exact (sort_pairwise_lt elements).sublist joined
  · intro e
    rw [List.mem_append, List.mem_take_iff_getElem, List.mem_drop_iff_getElem, Finset.mem_filter]
    constructor
    · rintro (⟨index, inside, rfl⟩ | ⟨index, inside, rfl⟩)
      · refine ⟨(Finset.mem_sort _).mp (List.getElem_mem _), .inl ?_⟩
        rw [rank_of_getElem? (List.getElem?_eq_getElem (by omega))]
        omega
      · refine ⟨(Finset.mem_sort _).mp (List.getElem_mem _), .inr ?_⟩
        rw [rank_of_getElem? (List.getElem?_eq_getElem (by omega))]
        omega
    · rintro ⟨mem, place⟩
      obtain ⟨inside, here⟩ := List.getElem?_eq_some_iff.mp (getElem?_rank_iff.mpr mem)
      rcases place with front | behind
      · exact .inl ⟨rank elements e, by omega, here⟩
      · refine .inr ⟨rank elements e - last, by omega, ?_⟩
        simp only [Nat.add_sub_cancel' behind]
        exact here

/-- The range of an element alone. -/
theorem filter_rank_eq_erase {e : Element} (mem : e ∈ elements) :
    (elements.filter fun other => rank elements other < rank elements e ∨
      rank elements e + 1 ≤ rank elements other) = elements.erase e := by
  ext other
  rw [Finset.mem_filter, Finset.mem_erase, and_comm]
  apply and_congr_left
  intro memOther
  have same : rank elements other = rank elements e ↔ other = e := by
    constructor
    · intro equal
      have here := getElem?_rank_iff.mpr memOther
      rw [equal, getElem?_rank_iff.mpr mem] at here
      exact (Option.some.inj here).symm
    · rintro rfl
      rfl
  rw [Ne, ← same]
  omega

/-- The first elements of the groups of equal ones. -/
theorem destutter_sort {sequence : List Element} (sorted : sequence.Pairwise (· ≤ ·)) :
    sequence.destutter (· ≠ ·) = sequence.toFinset.sort := by
  rw [sorted.destutter_eq_dedup]
  apply eq_sort
  · have ordered : sequence.dedup.Pairwise (· ≤ ·) := sorted.sublist sequence.dedup_sublist
    apply (ordered.and sequence.nodup_dedup).imp
    rintro a b ⟨le, different⟩
    exact le.lt_of_ne different
  · intro e
    rw [List.mem_dedup, List.mem_toFinset]

end Blocxx.Library.SortedSequence
