import Blocxx.SortedVectorMap.Refinement
import Blocxx.SortedVectorSet.SortedVectorSet

/-!
This file proves that every order of the operations keeps every set equal to its reference set.
-/

namespace Blocxx.SortedVectorSet

open Library Library.SortedSequence
open SortedVectorMap (Compare equivalent natural)

variable {T : Type*} {compare : Compare T} {vec : List T} {elements : Finset (Class compare)}

/-- Sorting and dropping the equivalent neighbours leaves one element of each class. -/
theorem represents_unique (std : StdSort compare) (vec : List T) :
    Represents compare (unique compare (std.sort vec)) (vec.map (classOf compare)).toFinset := by
  have sorted : ((std.sort vec).map (classOf compare)).Pairwise (· ≤ ·) :=
    List.pairwise_map.mpr (std.sorted vec)
  have classes : ((std.sort vec).map (classOf compare)).toFinset =
      (vec.map (classOf compare)).toFinset :=
    List.toFinset_eq_of_perm _ _ ((std.perm vec).map _)
  have commutes : (unique compare (std.sort vec)).map (classOf compare) =
      ((std.sort vec).map (classOf compare)).destutter (· ≠ ·) := by
    apply List.map_destutter
    intro a _ b _
    rw [Ne, classOf_eq, Bool.not_eq_true]
  rw [Represents, commutes, destutter_sort sorted, classes]

namespace Represents

theorem construct (std : StdSort compare) (range : List T) :
    Represents compare (construct std range) (range.map (classOf compare)).toFinset :=
  represents_unique std range

theorem insertRange (represents : Represents compare vec elements) (std : StdSort compare)
    (range : List T) :
    Represents compare (insertRange std vec range) (Reference.insertRange elements range) := by
  have all := represents_unique std (vec ++ range)
  rw [List.map_append, show vec.map (classOf compare) = _ from represents, List.toFinset_append,
    Finset.sort_toFinset] at all
  exact all

theorem insert (represents : Represents compare vec elements) (x : T) :
    Represents compare (insert compare vec x).1 (Reference.insert elements x) := by
  have found := represents.foundAt_iff x
  rw [SortedVectorSet.insert, Reference.insert]
  by_cases mem : classOf compare x ∈ elements
  · rw [if_pos (found.mpr mem), Finset.insert_eq_of_mem mem]
    exact represents
  · rw [if_neg (mt found.mp mem), represents.lowerBound]
    show List.map _ _ = _
    rw [List.map_append, List.map_take, List.map_cons, List.map_drop,
      show vec.map (classOf compare) = _ from represents]
    exact insert_sort mem

/-- The insertion gives the place of the class and tells whether the class was new. -/
theorem insert_returned (represents : Represents compare vec elements) (x : T) :
    (SortedVectorSet.insert compare vec x).2.1 = Reference.lowerBound elements x ∧
      ((SortedVectorSet.insert compare vec x).2.2 = true ↔ classOf compare x ∉ elements) := by
  have found := represents.foundAt_iff x
  rw [SortedVectorSet.insert, ← represents.lowerBound]
  by_cases mem : classOf compare x ∈ elements
  · rw [if_pos (found.mpr mem)]
    exact ⟨rfl, iff_of_false Bool.false_ne_true (not_not.mpr mem)⟩
  · rw [if_neg (mt found.mp mem)]
    exact ⟨rfl, iff_of_true rfl mem⟩

theorem eraseRange (represents : Represents compare vec elements) {first last : Nat}
    (order : first ≤ last) :
    Represents compare (eraseRange vec first last).1
      (Reference.eraseRange elements first last) := by
  show List.map _ (vec.take first ++ vec.drop last) = _
  rw [List.map_append, List.map_take, List.map_drop,
    show vec.map (classOf compare) = _ from represents]
  exact erase_sort order

theorem eraseAt (represents : Represents compare vec elements) (position : Nat) :
    Represents compare (eraseAt vec position).1
      (Reference.eraseRange elements position (position + 1)) := by
  have range := represents.eraseRange (Nat.le_succ position)
  rw [SortedVectorSet.eraseAt, List.eraseIdx_eq_take_drop_succ]
  exact range

theorem erase (represents : Represents compare vec elements) (x : T) :
    Represents compare (erase compare vec x).1 (Reference.erase elements x) := by
  have found := represents.foundAt_iff x
  rw [SortedVectorSet.erase, Reference.erase]
  by_cases mem : classOf compare x ∈ elements
  · have range := represents.eraseAt (SortedVectorSet.lowerBound compare vec x)
    rw [represents.lowerBound] at range
    rw [if_pos (found.mpr mem), represents.lowerBound, ← filter_rank_eq_erase mem]
    exact range
  · rw [if_neg (mt found.mp mem), Finset.erase_eq_of_notMem mem]
    exact represents

/-- The number of the erased elements is the count before. -/
theorem erase_returned (represents : Represents compare vec elements) (x : T) :
    (SortedVectorSet.erase compare vec x).2 = Reference.count elements x := by
  have found := represents.foundAt_iff x
  rw [SortedVectorSet.erase, Reference.count]
  by_cases mem : classOf compare x ∈ elements
  · rw [if_pos (found.mpr mem), if_pos mem]
  · rw [if_neg (mt found.mp mem), if_neg mem]

theorem clear (vec : List T) : Represents compare (clear vec) ∅ := by
  rw [Represents, Finset.sort_empty]
  rfl

end Represents

/-- The operations that change one set. A position stands for an iterator. -/
inductive Operation (T : Type*) where
  | insert (x : T)
  | insertHint (position : Nat) (x : T)
  | insertRange (range : List T)
  | erase (x : T)
  | eraseAt (position : Nat)
  | eraseRange (first last : Nat)
  | clear

/-- The iterators of the operation belong to the vector. -/
def Operation.Valid (vec : List T) : Operation T → Prop
  | .insertHint position _ => position ≤ vec.length
  | .eraseAt position => position < vec.length
  | .eraseRange first last => first ≤ last ∧ last ≤ vec.length
  | _ => True

def Operation.apply (std : StdSort compare) (vec : List T) : Operation T → List T
  | .insert x => (SortedVectorSet.insert compare vec x).1
  | .insertHint position x => (SortedVectorSet.insertHint compare vec position x).1
  | .insertRange range => SortedVectorSet.insertRange std vec range
  | .erase x => (SortedVectorSet.erase compare vec x).1
  | .eraseAt position => (SortedVectorSet.eraseAt vec position).1
  | .eraseRange first last => (SortedVectorSet.eraseRange vec first last).1
  | .clear => SortedVectorSet.clear vec

/-- The same operation on the reference set. -/
def Operation.applyReference (elements : Finset (Class compare)) :
    Operation T → Finset (Class compare)
  | .insert x => Reference.insert elements x
  | .insertHint _ x => Reference.insert elements x
  | .insertRange range => Reference.insertRange elements range
  | .erase x => Reference.erase elements x
  | .eraseAt position => Reference.eraseRange elements position (position + 1)
  | .eraseRange first last => Reference.eraseRange elements first last
  | .clear => ∅

theorem Represents.apply (represents : Represents compare vec elements) (std : StdSort compare)
    {operation : Operation T} (valid : operation.Valid vec) :
    Represents compare (operation.apply std vec) (operation.applyReference elements) := by
  cases operation with
  | insert x => exact represents.insert x
  | insertHint position x => exact represents.insert x
  | insertRange range => exact represents.insertRange std range
  | erase x => exact represents.erase x
  | eraseAt position => exact represents.eraseAt position
  | eraseRange first last => exact represents.eraseRange valid.1
  | clear => exact .clear vec

section Runs

/-- The sets and their reference sets. -/
structure State (Name : Type*) {T : Type*} (compare : Compare T) where
  sets : Name → List T
  reference : Name → Finset (Class compare)

inductive Label (Name T : Type*) where
  | change (name : Name) (operation : Operation T)
  | swap (name other : Name)

variable {Name : Type*} [DecidableEq Name]

/-- The sets as they are constructed from these ranges. -/
def State.start (std : StdSort compare) (ranges : Name → List T) : State Name compare :=
  ⟨fun name => construct std (ranges name),
    fun name => ((ranges name).map (classOf compare)).toFinset⟩

def State.next (std : StdSort compare) (state : State Name compare) :
    Label Name T → State Name compare
  | .change name operation =>
      ⟨Function.update state.sets name (operation.apply std (state.sets name)),
        Function.update state.reference name (operation.applyReference (state.reference name))⟩
  | .swap name other =>
      ⟨state.sets ∘ Equiv.swap name other, state.reference ∘ Equiv.swap name other⟩

def Label.Valid (state : State Name compare) : Label Name T → Prop
  | .change name operation => operation.Valid (state.sets name)
  | .swap _ _ => True

/-- The sets are constructed from any ranges, and the operations come in any order. -/
def system (Name : Type*) [DecidableEq Name] (std : StdSort compare) :
    TransitionSystem (State Name compare) (Label Name T) where
  initial state := ∃ ranges, state = .start std ranges
  step state label next := label.Valid state ∧ next = state.next std label

/-- Every set represents its reference set. -/
def Faithful (state : State Name compare) : Prop :=
  ∀ name, Represents compare (state.sets name) (state.reference name)

theorem Faithful.next {state : State Name compare} (faithful : Faithful state)
    (std : StdSort compare) {label : Label Name T} (valid : label.Valid state) :
    Faithful (state.next std label) := by
  intro name
  cases label with
  | change changed operation =>
      by_cases same : name = changed
      · subst same
        simp only [State.next, Function.update_self]
        exact (faithful name).apply std valid
      · simp only [State.next, Function.update_of_ne same]
        exact faithful name
  | swap one other => exact faithful (Equiv.swap one other name)

theorem faithful_of_reachable {std : StdSort compare} {state : State Name compare}
    (reached : (system Name std).Reachable state) : Faithful state := by
  refine reached.invariant ?_ ?_
  · rintro _ ⟨ranges, rfl⟩ name
    exact .construct std (ranges name)
  · rintro state label _ - faithful ⟨valid, rfl⟩
    exact faithful.next std valid

/-- After any operations every set is sorted and agrees with its reference set. -/
theorem stays_set {std : StdSort compare} {state : State Name compare}
    (reached : (system Name std).Reachable state) (name : Name) :
    Agrees compare (state.sets name) (state.reference name) :=
  (faithful_of_reachable reached name).agrees

theorem reachable_next {std : StdSort compare} {state : State Name compare}
    (reached : (system Name std).Reachable state) (label : Label Name T)
    (valid : label.Valid state) : (system Name std).Reachable (state.next std label) :=
  reached.step ⟨valid, rfl⟩

theorem insertionSort_sorted (vec : List Nat) :
    (vec.insertionSort (· ≤ ·)).Pairwise fun a b => natural.less b a = false := by
  apply (List.pairwise_insertionSort (· ≤ ·) vec).imp
  intro a b le
  show decide (b < a) = false
  rw [decide_eq_false_iff_not]
  exact not_lt.mpr le

def insertionSort : StdSort natural where
  sort vec := vec.insertionSort (· ≤ ·)
  perm vec := List.perm_insertionSort (· ≤ ·) vec
  sorted := insertionSort_sorted

/-- Two sets after insertions with equivalent elements, an erasure and a swap. -/
def swapped : State Bool natural :=
  let next := State.next insertionSort
  let inserted := next (.start insertionSort fun _ => []) (.change true (.insert 5))
  let hinted := next inserted (.change true (.insertHint 0 5))
  let ranged := next hinted (.change true (.insertRange [7, 3, 5, 3]))
  next (next ranged (.change true (.erase 7))) (.swap true false)

theorem swapped_reachable : (system Bool insertionSort).Reachable swapped := by
  have start : (system Bool insertionSort).Reachable (.start insertionSort fun _ => []) :=
    .initial ⟨_, rfl⟩
  have inserted := reachable_next start (.change true (.insert 5)) trivial
  have hinted := reachable_next inserted (.change true (.insertHint 0 5)) (Nat.zero_le _)
  have ranged := reachable_next hinted (.change true (.insertRange [7, 3, 5, 3])) trivial
  have erased := reachable_next ranged (.change true (.erase 7)) trivial
  exact reachable_next erased (.swap true false) trivial

theorem stays_set_swapped :
    swapped.sets false = [3, 5] ∧ Agrees natural (swapped.sets false) (swapped.reference false) :=
  ⟨by decide, stays_set swapped_reachable false⟩

end Runs

end Blocxx.SortedVectorSet
