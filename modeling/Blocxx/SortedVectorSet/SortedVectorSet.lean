import Blocxx.SortedVectorMap.SortedVectorMap
import Mathlib.Data.List.Destutter
import Blocxx.Library.SortedSequence
import Mathlib.Order.Antisymmetrization

/-!
This file embeds `SortedVectorSet`. The underlying vector is the list of its elements, and an
iterator is its position. The comparison is any strict weak order, as in `SortedVectorMap`. The
reference set is the finite set of the classes of equivalent elements, and the lookups of its sorted
vector agree with it.
-/

namespace Blocxx.SortedVectorSet

open Library.BinarySearch SortedVectorMap

variable {T : Type*} (compare : Compare T)

section Lookups

variable (vec : List T) (x : T)

/-- `lower_bound`, also the call of `std::lower_bound` in the other operations. -/
def lowerBound : Nat := partitionPoint (fun element => compare.less element x) vec

def upperBound : Nat := partitionPoint (fun element => !compare.less x element) vec

def equalRange : Nat × Nat := (lowerBound compare vec x, upperBound compare vec x)

/-- The test `i != m_impl->end() && equivalent(*i, x)`. -/
def foundAt (i : Nat) : Bool := (vec[i]?).any fun element => equivalent compare element x

def find : Nat :=
  let pos := lowerBound compare vec x
  if foundAt compare vec x pos then pos else vec.length

/-- `std::binary_search`. -/
def binarySearch : Bool :=
  let first := lowerBound compare vec x
  (vec[first]?).any fun element => !compare.less x element

def count : Nat := if binarySearch compare vec x then 1 else 0

end Lookups

/-- `std::sort` with `Compare`. It may leave equivalent elements in any order. -/
structure StdSort where
  sort : List T → List T
  perm : ∀ vec, (sort vec).Perm vec
  sorted : ∀ vec, (sort vec).Pairwise fun a b => compare.less b a = false

section Changes

/-- `std::unique` and the `erase` of the rest: an element that is equivalent to the last one kept is
dropped. -/
def unique (vec : List T) : List T := vec.destutter fun a b => equivalent compare a b = false

variable {compare} (std : StdSort compare)

/-- The constructor from a range. -/
def construct (range : List T) : List T := unique compare (std.sort range)

/-- `insert` of a range. -/
def insertRange (vec range : List T) : List T := unique compare (std.sort (vec ++ range))

variable (compare)

/-- `insert` of one element, with the iterator and the flag that it returns. -/
def insert (vec : List T) (x : T) : List T × Nat × Bool :=
  let i := lowerBound compare vec x
  if foundAt compare vec x i then (vec, i, false)
  else (vec.take i ++ x :: vec.drop i, i, true)

/-- `insert` with a position, which is not used. -/
def insertHint (vec : List T) (_ : Nat) (x : T) : List T × Nat :=
  let inserted := insert compare vec x
  (inserted.1, inserted.2.1)

/-- `erase` of an iterator. -/
def eraseAt (vec : List T) (position : Nat) : List T × Nat := (vec.eraseIdx position, position)

/-- `erase` of an element, with the number of the elements that it removes. -/
def erase (vec : List T) (x : T) : List T × Nat :=
  let i := lowerBound compare vec x
  if foundAt compare vec x i then ((eraseAt vec i).1, 1) else (vec, 0)

/-- `erase` of a range of iterators. -/
def eraseRange (vec : List T) (first last : Nat) : List T × Nat :=
  (vec.take first ++ vec.drop last, first)

def clear (_ : List T) : List T := []

end Changes

end Blocxx.SortedVectorSet

namespace Blocxx.SortedVectorSet

open Library Library.BinarySearch Library.SortedSequence SortedVectorMap

variable {T : Type*} (compare : Compare T)

section Classes

/-- The elements with the order of `Compare`. -/
def Ordered (_ : Compare T) : Type _ := T

variable {compare} in
theorem less_false_trans {a b c : T} (first : compare.less b a = false)
    (second : compare.less c b = false) : compare.less c a = false := by
  by_contra less
  rcases compare.less_or_less (Bool.eq_true_of_not_eq_false less) b with below | above
  · rw [second] at below
    cases below
  · rw [first] at above
    cases above

variable {compare} in
theorem less_asymm {a b : T} (less : compare.less a b = true) : compare.less b a = false := by
  by_contra back
  have self := compare.trans a b a less (Bool.eq_true_of_not_eq_false back)
  rw [compare.irrefl] at self
  cases self

instance : Preorder (Ordered compare) where
  le a b := compare.less b a = false
  lt a b := compare.less a b = true
  le_refl := compare.irrefl
  le_trans _ _ _ := less_false_trans
  lt_iff_le_not_ge a b := by
    rw [Bool.not_eq_false]
    exact ⟨fun less => ⟨less_asymm less, less⟩, fun both => both.2⟩

instance : DecidableLE (Ordered compare) := fun a b =>
  inferInstanceAs (Decidable (compare.less b a = false))

instance : DecidableLT (Ordered compare) := fun a b =>
  inferInstanceAs (Decidable (compare.less a b = true))

instance : @Std.Total (Ordered compare) (· ≤ ·) where
  total a b := by
    show compare.less b a = false ∨ compare.less a b = false
    cases less : compare.less b a with
    | false => exact .inl rfl
    | true => exact .inr (less_asymm less)

/-- A class of equivalent elements. -/
abbrev Class : Type _ := Antisymmetrization (Ordered compare) (· ≤ ·)

/-- The class of an element. -/
def classOf (x : T) : Class compare := toAntisymmetrization (· ≤ ·) (x : Ordered compare)

variable {compare}

theorem classOf_lt {x y : T} :
    classOf compare x < classOf compare y ↔ compare.less x y = true := Iff.rfl

theorem classOf_le {x y : T} :
    classOf compare x ≤ classOf compare y ↔ compare.less y x = false := Iff.rfl

theorem classOf_eq {x y : T} :
    classOf compare x = classOf compare y ↔ equivalent compare x y = true := by
  rw [le_antisymm_iff, classOf_le, classOf_le, equivalent_iff, and_comm]

end Classes

/-! The reference set and its operations. An iterator is the number of the classes before it. -/

namespace Reference

variable {compare} (elements : Finset (Class compare)) (x : T)

def lowerBound : Nat := rank elements (classOf compare x)

def upperBound : Nat := (elements.filter (· ≤ classOf compare x)).card

def find : Nat :=
  if classOf compare x ∈ elements then lowerBound elements x else elements.card

def count : Nat := if classOf compare x ∈ elements then 1 else 0

def insert : Finset (Class compare) := Insert.insert (classOf compare x) elements

def insertRange (range : List T) : Finset (Class compare) :=
  elements ∪ (range.map (classOf compare)).toFinset

def erase : Finset (Class compare) := elements.erase (classOf compare x)

def eraseRange (first last : Nat) : Finset (Class compare) :=
  elements.filter fun e => rank elements e < first ∨ last ≤ rank elements e

end Reference

/-- The vector is strictly sorted, and it shows the set in all of its lookups. -/
structure Agrees (vec : List T) (elements : Finset (Class compare)) : Prop where
  sorted : vec.Pairwise fun a b => compare.less a b = true
  distinct : vec.Pairwise fun a b => equivalent compare a b = false
  classes : vec.map (classOf compare) = elements.sort
  size : vec.length = elements.card
  find : ∀ x, find compare vec x = Reference.find elements x
  count : ∀ x, count compare vec x = Reference.count elements x
  lowerBound : ∀ x, lowerBound compare vec x = Reference.lowerBound elements x
  upperBound : ∀ x, upperBound compare vec x = Reference.upperBound elements x
  equalRange : ∀ x, equalRange compare vec x =
    (Reference.lowerBound elements x, Reference.upperBound elements x)

/-- The classes of the vector are those of the set in their order. -/
def Represents (vec : List T) (elements : Finset (Class compare)) : Prop :=
  vec.map (classOf compare) = elements.sort

namespace Represents

variable {compare} {vec : List T} {elements : Finset (Class compare)}

theorem sorted (represents : Represents compare vec elements) :
    vec.Pairwise fun a b => compare.less a b = true := by
  have classes := sort_pairwise_lt elements
  rw [← show vec.map (classOf compare) = _ from represents, List.pairwise_map] at classes
  exact classes

theorem distinct (represents : Represents compare vec elements) :
    vec.Pairwise fun a b => equivalent compare a b = false := by
  apply represents.sorted.imp
  intro a b less
  rw [equivalent, less]
  rfl

theorem size (represents : Represents compare vec elements) : vec.length = elements.card := by
  rw [← List.length_map (classOf compare), show vec.map _ = _ from represents, Finset.length_sort]

/-- A partition point of the vector is one of the sorted classes. -/
theorem partitionPoint_eq (represents : Represents compare vec elements) {before : T → Bool}
    {below : Class compare → Prop} [DecidablePred below]
    (same : ∀ x, before x = true ↔ below (classOf compare x))
    (partitioned : ∀ a b, compare.less a b = true → before b = true → before a = true) :
    partitionPoint before vec = (elements.filter below).card := by
  have splits := partitionPoint_splits (represents.sorted.imp fun {a b} => partitioned a b)
  have decided (x : T) : before x = decide (below (classOf compare x)) := by
    rw [Bool.eq_iff_iff, decide_eq_true_eq]
    exact same x
  have classes : Splits (fun c => decide (below c)) (vec.map (classOf compare)) _ :=
    splits.map decided
  rw [show vec.map (classOf compare) = _ from represents] at classes
  have place := splits_eq_card classes
  simp only [decide_eq_true_eq] at place
  exact place

theorem lowerBound (represents : Represents compare vec elements) (x : T) :
    lowerBound compare vec x = Reference.lowerBound elements x := by
  have same (element : T) :
      compare.less element x = true ↔ classOf compare element < classOf compare x := classOf_lt.symm
  apply represents.partitionPoint_eq same
  intro a b less below
  exact compare.trans a b x less below

theorem upperBound (represents : Represents compare vec elements) (x : T) :
    upperBound compare vec x = Reference.upperBound elements x := by
  have same (element : T) :
      (!compare.less x element) = true ↔ classOf compare element ≤ classOf compare x := by
    rw [Bool.not_eq_true', classOf_le]
  apply represents.partitionPoint_eq same
  intro a b less notAbove
  rw [Bool.not_eq_true'] at notAbove ⊢
  exact less_false_trans (less_asymm less) notAbove

/-- The element at the lower bound decides whether the set has the class. -/
theorem foundAt_iff (represents : Represents compare vec elements) (x : T) :
    foundAt compare vec x (SortedVectorSet.lowerBound compare vec x) = true ↔
      classOf compare x ∈ elements := by
  rw [represents.lowerBound, Reference.lowerBound, ← getElem?_rank_iff,
    ← show vec.map (classOf compare) = _ from represents, List.getElem?_map,
    Option.map_eq_some_iff, foundAt, Option.any_eq_true]
  simp only [classOf_eq]

/-- The binary search needs only one of the two comparisons at the lower bound. -/
theorem binarySearch_eq (represents : Represents compare vec elements) (x : T) :
    binarySearch compare vec x =
      foundAt compare vec x (SortedVectorSet.lowerBound compare vec x) := by
  unfold binarySearch foundAt
  dsimp only
  cases here : vec[SortedVectorSet.lowerBound compare vec x]? with
  | none => rfl
  | some element =>
      have place := congrArg (·[SortedVectorSet.lowerBound compare vec x]?)
        (show vec.map (classOf compare) = _ from represents)
      rw [List.getElem?_map, here, represents.lowerBound] at place
      have notBelow : compare.less element x = false := by
        by_contra below
        have front := (splits_rank elements (classOf compare x)).2 _ _ place.symm
        exact lt_irrefl _ (front.mp (decide_eq_true (Bool.eq_true_of_not_eq_false below)))
      simp only [Option.any_some, equivalent, notBelow, Bool.not_false, Bool.true_and]

/-- All lookups of a vector that represents the set are those of the reference set. -/
theorem agrees (represents : Represents compare vec elements) : Agrees compare vec elements where
  sorted := represents.sorted
  distinct := represents.distinct
  classes := represents
  size := represents.size
  find := by
    intro x
    have found := represents.foundAt_iff x
    rw [SortedVectorSet.find, Reference.find, ← represents.size, ← represents.lowerBound]
    by_cases mem : classOf compare x ∈ elements
    · rw [if_pos (found.mpr mem), if_pos mem]
    · rw [if_neg (mt found.mp mem), if_neg mem]
  count := by
    intro x
    have found := represents.foundAt_iff x
    rw [SortedVectorSet.count, Reference.count, represents.binarySearch_eq]
    by_cases mem : classOf compare x ∈ elements
    · rw [if_pos (found.mpr mem), if_pos mem]
    · rw [if_neg (mt found.mp mem), if_neg mem]
  lowerBound := represents.lowerBound
  upperBound := represents.upperBound
  equalRange := fun x => Prod.ext (represents.lowerBound x) (represents.upperBound x)

end Represents

end Blocxx.SortedVectorSet
