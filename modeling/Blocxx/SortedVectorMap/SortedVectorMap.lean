import Blocxx.Library.BinarySearch
import Blocxx.Library.TransitionSystem

/-!
This file embeds `SortedVectorMap` and proves that it agrees with a reference map, which is the set
of its mappings, for as long as no insertion with a position meets an equivalent key. The underlying
vector is the list of its pairs, and an iterator is its position. The comparison of two keys is any
strict weak order.
-/

namespace Blocxx.SortedVectorMap

open Library.BinarySearch

/-- The function object `Compare`. -/
structure Compare (Key : Type*) where
  less : Key → Key → Bool
  irrefl : ∀ k, less k k = false
  trans : ∀ k1 k2 k3, less k1 k2 = true → less k2 k3 = true → less k1 k3 = true
  equivalentTrans : ∀ k1 k2 k3, less k1 k2 = false → less k2 k1 = false → less k2 k3 = false →
    less k3 k2 = false → less k1 k3 = false ∧ less k3 k1 = false

variable {Key T : Type*} (compare : Compare Key)

def equivalent (x y : Key) : Bool := !compare.less x y && !compare.less y x

section Lookups

variable (vec : List (Key × T)) (x : Key)

/-- `lower_bound`, also the call of `std::lower_bound` in the other operations. -/
def lowerBound : Nat := partitionPoint (fun element => compare.less element.1 x) vec

def upperBound : Nat := partitionPoint (fun element => !compare.less x element.1) vec

def equalRange : Nat × Nat := (lowerBound compare vec x, upperBound compare vec x)

/-- The test `i != m_impl->end() && equivalent(i->first, x)`. -/
def foundAt (i : Nat) : Bool := (vec[i]?).any fun element => equivalent compare element.1 x

def find : Nat :=
  let pos := lowerBound compare vec x
  if foundAt compare vec x pos then pos else vec.length

/-- `std::binary_search`. -/
def binarySearch : Bool :=
  let first := lowerBound compare vec x
  (vec[first]?).any fun element => !compare.less x element.1

def count : Nat := if binarySearch compare vec x then 1 else 0

end Lookups

section Changes

/-- `insert` of the vector. -/
def insertAt (vec : List (Key × T)) (i : Nat) (x : Key × T) : List (Key × T) :=
  vec.take i ++ x :: vec.drop i

/-- `operator[]`, with the position of the element whose value the reference is. -/
def subscript [Inhabited T] (vec : List (Key × T)) (k : Key) : List (Key × T) × Nat :=
  let i := lowerBound compare vec k
  if foundAt compare vec k i then (vec, i) else (insertAt vec i (k, default), i)

/-- A write through the reference that `operator[]` gives. -/
def assign (vec : List (Key × T)) (i : Nat) (write : T → T) : List (Key × T) :=
  vec.modify i fun element => (element.1, write element.2)

/-- `insert` of a pair, with the iterator and the flag that it returns. -/
def insert (vec : List (Key × T)) (x : Key × T) : List (Key × T) × Nat × Bool :=
  let i := lowerBound compare vec x.1
  if foundAt compare vec x.1 i then (vec, i, false) else (insertAt vec i x, i, true)

/-- `insert` with a position, which is not used. -/
def insertHint (vec : List (Key × T)) (_ : Nat) (x : Key × T) : List (Key × T) × Nat :=
  let i := lowerBound compare vec x.1
  (insertAt vec i x, i)

/-- `erase` of a range of iterators. -/
def eraseRange (vec : List (Key × T)) (first last : Nat) : List (Key × T) × Nat :=
  (vec.take first ++ vec.drop last, first)

/-- `erase` of an iterator. -/
def eraseAt (vec : List (Key × T)) (position : Nat) : List (Key × T) × Nat :=
  (vec.eraseIdx position, position)

/-- `erase` of a key, with the number of the pairs that it removes. -/
def erase (vec : List (Key × T)) (x : Key) : List (Key × T) × Nat :=
  let i := lowerBound compare vec x
  if foundAt compare vec x i then ((eraseAt vec i).1, 1) else (vec, 0)

end Changes

end Blocxx.SortedVectorMap

namespace Blocxx.SortedVectorMap

open Library Library.BinarySearch

section Order

variable {Key : Type*} (compare : Compare Key)

/-- A key between two ordered ones is above the first or below the second. -/
theorem Compare.less_or_less {k1 k3 : Key} (less : compare.less k1 k3 = true) (k2 : Key) :
    compare.less k1 k2 = true ∨ compare.less k2 k3 = true := by
  by_contra neither
  rw [not_or, Bool.not_eq_true, Bool.not_eq_true] at neither
  have first : compare.less k2 k1 = false := by
    by_contra back
    have through := compare.trans k2 k1 k3 (Bool.eq_true_of_not_eq_false back) less
    rw [neither.2] at through
    cases through
  have second : compare.less k3 k2 = false := by
    by_contra back
    have through := compare.trans k1 k3 k2 less (Bool.eq_true_of_not_eq_false back)
    rw [neither.1] at through
    cases through
  have same := (compare.equivalentTrans k1 k2 k3 neither.1 first neither.2 second).1
  rw [less] at same
  cases same

theorem equivalent_iff {x y : Key} :
    equivalent compare x y = true ↔ compare.less x y = false ∧ compare.less y x = false := by
  rw [equivalent, Bool.and_eq_true, Bool.not_eq_true', Bool.not_eq_true']

theorem equivalent_refl (x : Key) : equivalent compare x x = true :=
  (equivalent_iff compare).mpr ⟨compare.irrefl x, compare.irrefl x⟩

end Order

/-! The reference map and its operations. An iterator is the number of the mappings before it. -/

namespace Reference

variable {Key T : Type*} (compare : Compare Key) (mappings : Set (Key × T))

def Maps (k : Key) : Prop := ∃ mapping ∈ mappings, equivalent compare mapping.1 k = true

noncomputable def size : Nat := mappings.ncard

noncomputable def lowerBound (k : Key) : Nat :=
  {mapping | mapping ∈ mappings ∧ compare.less mapping.1 k = true}.ncard

noncomputable def upperBound (k : Key) : Nat :=
  {mapping | mapping ∈ mappings ∧ (!compare.less k mapping.1) = true}.ncard

open Classical in
noncomputable def find (k : Key) : Nat :=
  if Maps compare mappings k then lowerBound compare mappings k else size mappings

open Classical in
noncomputable def count (k : Key) : Nat := if Maps compare mappings k then 1 else 0

/-- An insertion never replaces a mapping. -/
def insert (x : Key × T) : Set (Key × T) :=
  {mapping | mapping ∈ mappings ∨ (mapping = x ∧ ¬ Maps compare mappings x.1)}

def subscript [Inhabited T] (k : Key) (write : T → T) : Set (Key × T) :=
  (fun mapping => if equivalent compare mapping.1 k then (mapping.1, write mapping.2)
    else mapping) '' insert compare mappings (k, default)

def erase (k : Key) : Set (Key × T) :=
  {mapping | mapping ∈ mappings ∧ equivalent compare mapping.1 k = false}

def eraseRange (first last : Nat) : Set (Key × T) :=
  {mapping | mapping ∈ mappings ∧ (lowerBound compare mappings mapping.1 < first ∨
    last ≤ lowerBound compare mappings mapping.1)}

end Reference

variable {Key T : Type*} (compare : Compare Key)

/-- No two keys of a strictly sorted vector are equivalent. -/
def Sorted (vec : List (Key × T)) : Prop :=
  vec.Pairwise fun a b => compare.less a.1 b.1 = true

/-- The vector is sorted, and it shows the mappings in all of its lookups. -/
structure Agrees (vec : List (Key × T)) (mappings : Set (Key × T)) : Prop where
  sorted : Sorted compare vec
  distinct : vec.Pairwise fun a b => equivalent compare a.1 b.1 = false
  elements : ∀ position element, vec[position]? = some element ↔
    element ∈ mappings ∧ Reference.lowerBound compare mappings element.1 = position
  size : vec.length = Reference.size mappings
  find : ∀ x, find compare vec x = Reference.find compare mappings x
  count : ∀ x, count compare vec x = Reference.count compare mappings x
  lowerBound : ∀ x, lowerBound compare vec x = Reference.lowerBound compare mappings x
  upperBound : ∀ x, upperBound compare vec x = Reference.upperBound compare mappings x
  equalRange : ∀ x, equalRange compare vec x =
    (Reference.lowerBound compare mappings x, Reference.upperBound compare mappings x)

section Lookups

variable {compare} {vec : List (Key × T)}

theorem Sorted.nodup (sorted : Sorted compare vec) : vec.Nodup := by
  refine sorted.imp fun {a b} less same => ?_
  rw [same, compare.irrefl] at less
  cases less

theorem Sorted.distinct (sorted : Sorted compare vec) :
    vec.Pairwise fun a b => equivalent compare a.1 b.1 = false := by
  refine sorted.imp fun {a b} less => ?_
  rw [equivalent, less]
  rfl

theorem Sorted.lowerBound_splits (sorted : Sorted compare vec) (x : Key) :
    Splits (fun element => compare.less element.1 x) vec (lowerBound compare vec x) :=
  partitionPoint_splits (sorted.imp fun {a b} less below =>
    compare.trans a.1 b.1 x less below)

theorem Sorted.upperBound_splits (sorted : Sorted compare vec) (x : Key) :
    Splits (fun element => !compare.less x element.1) vec (upperBound compare vec x) := by
  refine partitionPoint_splits (sorted.imp fun {a b} less notAbove => ?_)
  rw [Bool.not_eq_true'] at notAbove ⊢
  by_contra above
  rw [compare.trans x a.1 b.1 (Bool.eq_true_of_not_eq_false above) less] at notAbove
  cases notAbove

theorem Sorted.less_of_lt (sorted : Sorted compare vec) {index other : Nat}
    {element later : Key × T} (order : index < other) (here : vec[index]? = some element)
    (there : vec[other]? = some later) : compare.less element.1 later.1 = true := by
  obtain ⟨inside, rfl⟩ := List.getElem?_eq_some_iff.mp here
  obtain ⟨insideLater, rfl⟩ := List.getElem?_eq_some_iff.mp there
  exact List.pairwise_iff_getElem.mp sorted _ _ inside insideLater order

/-- Only the element at the lower bound can have an equivalent key. -/
theorem Sorted.index_of_equivalent (sorted : Sorted compare vec) {x : Key} {index : Nat}
    {element : Key × T} (here : vec[index]? = some element)
    (same : equivalent compare element.1 x = true) : index = lowerBound compare vec x := by
  obtain ⟨notBelow, notAbove⟩ := (equivalent_iff compare).mp same
  have splits := sorted.lowerBound_splits x
  have behind : ¬ index < lowerBound compare vec x := by
    intro front
    have below : compare.less element.1 x = true := (splits.2 index element here).mpr front
    rw [notBelow] at below
    cases below
  by_contra different
  have order : lowerBound compare vec x < index := by omega
  obtain ⟨inside, -⟩ := List.getElem?_eq_some_iff.mp here
  have first := List.getElem?_eq_getElem (order.trans inside)
  -- the element at the bound is below this one, hence below the key
  have less := sorted.less_of_lt order first here
  rcases compare.less_or_less less x with below | above
  · exact lt_irrefl _ ((splits.2 _ _ first).mp below)
  · rw [notAbove] at above
    cases above

theorem Sorted.foundAt_iff (sorted : Sorted compare vec) (x : Key) :
    foundAt compare vec x (lowerBound compare vec x) = true ↔
      ∃ element ∈ vec, equivalent compare element.1 x = true := by
  rw [foundAt, Option.any_eq_true]
  constructor
  · rintro ⟨element, here, same⟩
    exact ⟨element, List.mem_of_getElem? here, same⟩
  · rintro ⟨element, mem, same⟩
    obtain ⟨index, here⟩ := List.mem_iff_getElem?.mp mem
    rw [sorted.index_of_equivalent here same] at here
    exact ⟨element, here, same⟩

/-- The binary search needs only one of the two comparisons at the lower bound. -/
theorem Sorted.binarySearch_eq (sorted : Sorted compare vec) (x : Key) :
    binarySearch compare vec x = foundAt compare vec x (lowerBound compare vec x) := by
  unfold binarySearch foundAt
  dsimp only
  cases here : vec[lowerBound compare vec x]? with
  | none => rfl
  | some element =>
      have notBelow : compare.less element.1 x = false := by
        by_contra below
        have front := (sorted.lowerBound_splits x).2 _ _ here
        exact lt_irrefl _ (front.mp (Bool.eq_true_of_not_eq_false below))
      simp only [Option.any_some, equivalent, notBelow, Bool.not_false, Bool.true_and]

theorem Sorted.lowerBound_self (sorted : Sorted compare vec) {index : Nat} {element : Key × T}
    (here : vec[index]? = some element) : lowerBound compare vec element.1 = index :=
  (sorted.index_of_equivalent here (equivalent_refl compare _)).symm

end Lookups

/-- The mappings are the elements of a sorted vector. -/
structure Represents (vec : List (Key × T)) (mappings : Set (Key × T)) : Prop where
  sorted : Sorted compare vec
  mem : ∀ mapping, mapping ∈ mappings ↔ mapping ∈ vec

section Representation

variable {compare} {vec : List (Key × T)} {mappings : Set (Key × T)}

theorem Represents.lowerBound (represents : Represents compare vec mappings) (x : Key) :
    lowerBound compare vec x = Reference.lowerBound compare mappings x := by
  rw [(represents.sorted.lowerBound_splits x).eq_ncard represents.sorted.nodup,
    Reference.lowerBound]
  simp only [represents.mem]

theorem Represents.upperBound (represents : Represents compare vec mappings) (x : Key) :
    upperBound compare vec x = Reference.upperBound compare mappings x := by
  rw [(represents.sorted.upperBound_splits x).eq_ncard represents.sorted.nodup,
    Reference.upperBound]
  simp only [represents.mem]

theorem Represents.size (represents : Represents compare vec mappings) :
    vec.length = Reference.size mappings := by
  classical
  have all : mappings = ↑vec.toFinset := by
    ext mapping
    rw [represents.mem, List.coe_toFinset]
    rfl
  rw [Reference.size, all, Set.ncard_coe_finset,
    List.toFinset_card_of_nodup represents.sorted.nodup]

theorem Represents.foundAt_iff (represents : Represents compare vec mappings) (x : Key) :
    foundAt compare vec x (SortedVectorMap.lowerBound compare vec x) = true ↔
      Reference.Maps compare mappings x := by
  rw [represents.sorted.foundAt_iff, Reference.Maps]
  simp only [represents.mem]

/-- All lookups of a vector that represents the mappings are those of the reference map. -/
theorem Represents.agrees (represents : Represents compare vec mappings) :
    Agrees compare vec mappings where
  sorted := represents.sorted
  distinct := represents.sorted.distinct
  elements := by
    intro position element
    rw [represents.mem, ← represents.lowerBound]
    constructor
    · intro here
      exact ⟨List.mem_of_getElem? here, represents.sorted.lowerBound_self here⟩
    · rintro ⟨mem, place⟩
      obtain ⟨index, here⟩ := List.mem_iff_getElem?.mp mem
      rw [← place, represents.sorted.lowerBound_self here]
      exact here
  size := represents.size
  find := by
    intro x
    have found := represents.foundAt_iff x
    rw [SortedVectorMap.find, Reference.find, ← represents.size, ← represents.lowerBound]
    by_cases maps : Reference.Maps compare mappings x
    · rw [if_pos (found.mpr maps), if_pos maps]
    · rw [if_neg (mt found.mp maps), if_neg maps]
  count := by
    intro x
    have found := represents.foundAt_iff x
    rw [SortedVectorMap.count, Reference.count, represents.sorted.binarySearch_eq]
    by_cases maps : Reference.Maps compare mappings x
    · rw [if_pos (found.mpr maps), if_pos maps]
    · rw [if_neg (mt found.mp maps), if_neg maps]
  lowerBound := represents.lowerBound
  upperBound := represents.upperBound
  equalRange := fun x => Prod.ext (represents.lowerBound x) (represents.upperBound x)

end Representation

end Blocxx.SortedVectorMap
