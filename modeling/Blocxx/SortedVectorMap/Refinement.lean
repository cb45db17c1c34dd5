import Blocxx.SortedVectorMap.SortedVectorMap

/-!
This file proves which runs of the operations keep every map equal to its reference map.
-/

namespace Blocxx.SortedVectorMap

open Library

variable {Key T : Type*} {compare : Compare Key} {vec : List (Key × T)} {mappings : Set (Key × T)}

/-- The insertion at the lower bound of a new key keeps the order. -/
theorem Sorted.insertAt (sorted : Sorted compare vec) {x : Key × T}
    (absent : ∀ element ∈ vec, equivalent compare element.1 x.1 = false) :
    Sorted compare (insertAt vec (lowerBound compare vec x.1) x) := by
  have splits := sorted.lowerBound_splits x.1
  have below : ∀ a ∈ vec.take (lowerBound compare vec x.1), compare.less a.1 x.1 = true :=
    fun _ => splits.before_of_mem_take
  have above : ∀ b ∈ vec.drop (lowerBound compare vec x.1), compare.less x.1 b.1 = true := by
    intro b mem
    have notBelow := splits.not_before_of_mem_drop mem
    have different := absent b (List.mem_of_mem_drop mem)
    rw [equivalent, notBelow] at different
    rwa [Bool.not_false, Bool.true_and, Bool.not_eq_false'] at different
  refine List.pairwise_append.mpr ⟨sorted.sublist (List.take_sublist _ _),
    List.pairwise_cons.mpr ⟨above, sorted.sublist (List.drop_sublist _ _)⟩, ?_⟩
  intro a inFront b behind
  rcases List.mem_cons.mp behind with rfl | behind
  · exact below a inFront
  · exact compare.trans _ _ _ (below a inFront) (above b behind)

theorem mem_insertAt {i : Nat} {x mapping : Key × T} :
    mapping ∈ insertAt vec i x ↔ mapping ∈ vec ∨ mapping = x := by
  have parts := List.mem_append (a := mapping) (s := vec.take i) (t := vec.drop i)
  rw [List.take_append_drop] at parts
  rw [SortedVectorMap.insertAt, List.mem_append, List.mem_cons, parts]
  tauto

namespace Represents

theorem absent (represents : Represents compare vec mappings) {k : Key}
    (unmapped : ¬ Reference.Maps compare mappings k) :
    ∀ element ∈ vec, equivalent compare element.1 k = false := by
  intro element mem
  by_contra same
  exact unmapped ⟨element, (represents.mem element).mpr mem, Bool.eq_true_of_not_eq_false same⟩

theorem insertAt (represents : Represents compare vec mappings) {x : Key × T}
    (unmapped : ¬ Reference.Maps compare mappings x.1) :
    Represents compare (insertAt vec (SortedVectorMap.lowerBound compare vec x.1) x)
      (Reference.insert compare mappings x) where
  sorted := represents.sorted.insertAt (represents.absent unmapped)
  mem := by
    intro mapping
    rw [mem_insertAt, ← represents.mem]
    show mapping ∈ mappings ∨ (mapping = x ∧ ¬ Reference.Maps compare mappings x.1) ↔ _
    rw [and_iff_left unmapped]

/-- A mapped key stays as it is. -/
theorem insert_mapped {x : Key × T} (mapped : Reference.Maps compare mappings x.1) :
    Reference.insert compare mappings x = mappings := by
  ext mapping
  show mapping ∈ mappings ∨ (mapping = x ∧ ¬ Reference.Maps compare mappings x.1) ↔ _
  rw [or_iff_left fun both => both.2 mapped]

theorem insert (represents : Represents compare vec mappings) (x : Key × T) :
    Represents compare (insert compare vec x).1 (Reference.insert compare mappings x) := by
  have found := represents.foundAt_iff x.1
  rw [SortedVectorMap.insert]
  by_cases maps : Reference.Maps compare mappings x.1
  · rw [if_pos (found.mpr maps), insert_mapped maps]
    exact represents
  · rw [if_neg (mt found.mp maps)]
    exact represents.insertAt maps

/-- The insertion of a pair gives the place of the key and tells whether the key was new. -/
theorem insert_returned (represents : Represents compare vec mappings) (x : Key × T) :
    (SortedVectorMap.insert compare vec x).2.1 = Reference.lowerBound compare mappings x.1 ∧
      ((SortedVectorMap.insert compare vec x).2.2 = true ↔
        ¬ Reference.Maps compare mappings x.1) := by
  have found := represents.foundAt_iff x.1
  rw [SortedVectorMap.insert, ← represents.lowerBound]
  by_cases maps : Reference.Maps compare mappings x.1
  · rw [if_pos (found.mpr maps)]
    exact ⟨rfl, iff_of_false Bool.false_ne_true (not_not.mpr maps)⟩
  · rw [if_neg (mt found.mp maps)]
    exact ⟨rfl, iff_of_true rfl maps⟩

/-- The insertion with a position is right for a new key only. -/
theorem insertHint (represents : Represents compare vec mappings) (position : Nat) {x : Key × T}
    (unmapped : ¬ Reference.Maps compare mappings x.1) :
    Represents compare (insertHint compare vec position x).1
      (Reference.insert compare mappings x) :=
  represents.insertAt unmapped

/-- The element at the position that `operator[]` gives is the one with an equivalent key. -/
theorem subscript [Inhabited T] (represents : Represents compare vec mappings) (k : Key) :
    Represents compare (subscript compare vec k).1 (Reference.insert compare mappings (k, default)) ∧
      ∃ element, (SortedVectorMap.subscript compare vec k).1[(SortedVectorMap.subscript
        compare vec k).2]? = some element ∧ equivalent compare element.1 k = true := by
  have found := represents.foundAt_iff k
  rw [SortedVectorMap.subscript]
  by_cases maps : Reference.Maps compare mappings k
  · rw [if_pos (found.mpr maps), insert_mapped maps]
    refine ⟨represents, ?_⟩
    have there := found.mpr maps
    rw [foundAt, Option.any_eq_true] at there
    exact there
  · rw [if_neg (mt found.mp maps)]
    refine ⟨represents.insertAt (x := (k, default)) maps, (k, default), ?_,
      equivalent_refl compare k⟩
    have inside := (represents.sorted.lowerBound_splits k).1
    have length : (vec.take (SortedVectorMap.lowerBound compare vec k)).length =
        SortedVectorMap.lowerBound compare vec k := by
      rw [List.length_take, Nat.min_eq_left inside]
    show (vec.take _ ++ (k, default) :: vec.drop _)[_]? = _
    rw [List.getElem?_append_right length.le, length, Nat.sub_self]
    rfl

/-- A write at the position of a key changes the value of its mapping. -/
theorem assign (represents : Represents compare vec mappings) {k : Key} {i : Nat}
    {element : Key × T} (here : vec[i]? = some element)
    (same : equivalent compare element.1 k = true) (write : T → T) :
    Represents compare (assign vec i write)
      ((fun mapping => if equivalent compare mapping.1 k then (mapping.1, write mapping.2)
        else mapping) '' mappings) := by
  have place := represents.sorted.index_of_equivalent here same
  have changed : SortedVectorMap.assign vec i write = vec.map fun mapping =>
      if equivalent compare mapping.1 k then (mapping.1, write mapping.2) else mapping := by
    refine List.ext_getElem? fun index => ?_
    rw [SortedVectorMap.assign, List.getElem?_modify, List.getElem?_map]
    by_cases at_i : i = index
    · subst at_i
      simp only [here, if_true, Option.map_some, Option.map_eq_map, same]
    · simp only [at_i, if_false, Option.map_eq_map]
      cases other : vec[index]? with
      | none => rfl
      | some mapping =>
          have different : ¬ equivalent compare mapping.1 k = true := by
            intro equal
            have placeToo := represents.sorted.index_of_equivalent other equal
            omega
          rw [Option.map_some, Option.map_some, if_neg different]
  have keys (mapping : Key × T) :
      (if equivalent compare mapping.1 k then (mapping.1, write mapping.2) else mapping).1 =
        mapping.1 := by
    split <;> rfl
  rw [changed]
  constructor
  · refine List.pairwise_map.mpr (represents.sorted.imp fun {a b} less => ?_)
    rw [keys, keys]
    exact less
  · intro mapping
    rw [List.mem_map, Set.mem_image]
    simp only [represents.mem]

theorem eraseRange (represents : Represents compare vec mappings) {first last : Nat}
    (order : first ≤ last) :
    Represents compare (eraseRange vec first last).1
      (Reference.eraseRange compare mappings first last) where
  sorted := by
    refine represents.sorted.sublist ?_
    have shorter := List.take_sublist_take_left (l := vec) order
    have joined := shorter.append_right (vec.drop last)
    rw [List.take_append_drop] at joined
    exact joined
  mem := by
    intro mapping
    show mapping ∈ mappings ∧ _ ↔ mapping ∈ vec.take first ++ vec.drop last
    rw [← represents.lowerBound, represents.mem, List.mem_append, List.mem_take_iff_getElem,
      List.mem_drop_iff_getElem]
    constructor
    · rintro ⟨mem, place⟩
      obtain ⟨index, inside, rfl⟩ := List.getElem_of_mem mem
      rw [represents.sorted.lowerBound_self (List.getElem?_eq_getElem inside)] at place
      rcases place with front | behind
      · exact .inl ⟨index, by omega, rfl⟩
      · refine .inr ⟨index - last, by omega, ?_⟩
        congr 1
        omega
    · rintro (⟨index, inside, rfl⟩ | ⟨index, inside, rfl⟩)
      · refine ⟨List.getElem_mem _, .inl ?_⟩
        rw [represents.sorted.lowerBound_self (List.getElem?_eq_getElem (by omega))]
        omega
      · refine ⟨List.getElem_mem _, .inr ?_⟩
        rw [represents.sorted.lowerBound_self (List.getElem?_eq_getElem (by omega))]
        omega

theorem eraseAt (represents : Represents compare vec mappings) (position : Nat) :
    Represents compare (eraseAt vec position).1
      (Reference.eraseRange compare mappings position (position + 1)) := by
  have range := represents.eraseRange (Nat.le_succ position)
  rw [SortedVectorMap.eraseAt, List.eraseIdx_eq_take_drop_succ]
  exact range

theorem erase (represents : Represents compare vec mappings) (k : Key) :
    Represents compare (erase compare vec k).1 (Reference.erase compare mappings k) := by
  have found := represents.foundAt_iff k
  rw [SortedVectorMap.erase]
  by_cases maps : Reference.Maps compare mappings k
  · rw [if_pos (found.mpr maps)]
    have range := represents.eraseAt (SortedVectorMap.lowerBound compare vec k)
    have there := found.mpr maps
    rw [foundAt, Option.any_eq_true] at there
    obtain ⟨element, here, same⟩ := there
    suffices sets : Reference.erase compare mappings k = Reference.eraseRange compare mappings
        (SortedVectorMap.lowerBound compare vec k)
        (SortedVectorMap.lowerBound compare vec k + 1) by
      rw [sets]
      exact range
    ext mapping
    show mapping ∈ mappings ∧ _ ↔ mapping ∈ mappings ∧ _
    refine and_congr_right fun mem => ?_
    obtain ⟨index, at_index⟩ := List.mem_iff_getElem?.mp ((represents.mem mapping).mp mem)
    rw [← represents.lowerBound, represents.sorted.lowerBound_self at_index]
    constructor
    · intro different
      by_contra neither
      have place : index = SortedVectorMap.lowerBound compare vec k := by omega
      rw [place, here] at at_index
      cases at_index
      rw [same] at different
      cases different
    · intro elsewhere
      by_contra equal
      have place := represents.sorted.index_of_equivalent at_index
        (Bool.eq_true_of_not_eq_false equal)
      omega
  · rw [if_neg (mt found.mp maps)]
    have sets : Reference.erase compare mappings k = mappings := by
      ext mapping
      show mapping ∈ mappings ∧ _ ↔ _
      exact and_iff_left_of_imp fun mem =>
        represents.absent maps mapping ((represents.mem mapping).mp mem)
    rw [sets]
    exact represents

/-- The number of the erased pairs is the count of the key before. -/
theorem erase_returned (represents : Represents compare vec mappings) (k : Key) :
    (SortedVectorMap.erase compare vec k).2 = Reference.count compare mappings k := by
  have found := represents.foundAt_iff k
  rw [SortedVectorMap.erase, Reference.count]
  by_cases maps : Reference.Maps compare mappings k
  · rw [if_pos (found.mpr maps), if_pos maps]
  · rw [if_neg (mt found.mp maps), if_neg maps]

theorem clear : Represents compare ([] : List (Key × T)) ∅ where
  sorted := .nil
  mem := fun mapping => iff_of_false (Set.notMem_empty mapping) List.not_mem_nil

end Represents

/-- The operations that change one map. A position stands for an iterator. -/
inductive Operation (Key T : Type*) where
  | subscript (k : Key) (write : T → T)
  | insert (x : Key × T)
  | insertHint (position : Nat) (x : Key × T)
  | erase (x : Key)
  | eraseAt (position : Nat)
  | eraseRange (first last : Nat)
  | clear

/-- The iterators of the operation belong to the vector. -/
def Operation.Valid (vec : List (Key × T)) : Operation Key T → Prop
  | .insertHint position _ => position ≤ vec.length
  | .eraseAt position => position < vec.length
  | .eraseRange first last => first ≤ last ∧ last ≤ vec.length
  | _ => True

section Runs

variable [Inhabited T] (compare) {Name : Type*} [DecidableEq Name]

def Operation.apply (vec : List (Key × T)) : Operation Key T → List (Key × T)
  | .subscript k write =>
      let element := SortedVectorMap.subscript compare vec k
      assign element.1 element.2 write
  | .insert x => (SortedVectorMap.insert compare vec x).1
  | .insertHint position x => (SortedVectorMap.insertHint compare vec position x).1
  | .erase x => (SortedVectorMap.erase compare vec x).1
  | .eraseAt position => (SortedVectorMap.eraseAt vec position).1
  | .eraseRange first last => (SortedVectorMap.eraseRange vec first last).1
  | .clear => []

/-- The same operation on the reference map. -/
def Operation.applyReference (mappings : Set (Key × T)) : Operation Key T → Set (Key × T)
  | .subscript k write => Reference.subscript compare mappings k write
  | .insert x => Reference.insert compare mappings x
  | .insertHint _ x => Reference.insert compare mappings x
  | .erase x => Reference.erase compare mappings x
  | .eraseAt position => Reference.eraseRange compare mappings position (position + 1)
  | .eraseRange first last => Reference.eraseRange compare mappings first last
  | .clear => ∅

/-- The condition on an insertion with a position: no key of the map is equivalent. -/
def Operation.Fresh (vec : List (Key × T)) : Operation Key T → Prop
  | .insertHint _ x => ∀ element ∈ vec, equivalent compare element.1 x.1 = false
  | _ => True

variable {compare}

theorem Represents.apply (represents : Represents compare vec mappings)
    {operation : Operation Key T} (valid : operation.Valid vec)
    (fresh : operation.Fresh compare vec) :
    Represents compare (operation.apply compare vec)
      (operation.applyReference compare mappings) := by
  cases operation with
  | subscript k write =>
      obtain ⟨inserted, element, here, same⟩ := represents.subscript k
      exact inserted.assign here same write
  | insert x => exact represents.insert x
  | insertHint position x =>
      refine represents.insertHint position ?_
      rintro ⟨mapping, mem, same⟩
      rw [fresh mapping ((represents.mem mapping).mp mem)] at same
      cases same
  | erase x => exact represents.erase x
  | eraseAt position => exact represents.eraseAt position
  | eraseRange first last => exact represents.eraseRange valid.1
  | clear => exact .clear

/-- An insertion with a position makes the map larger, the reference map keeps its size. -/
theorem Represents.fresh_of_agrees (represents : Represents compare vec mappings)
    {operation : Operation Key T}
    (agrees : Agrees compare (operation.apply compare vec)
      (operation.applyReference compare mappings)) : operation.Fresh compare vec := by
  cases operation with
  | insertHint position x =>
      refine represents.absent fun maps => ?_
      have size := agrees.size
      simp only [Operation.applyReference] at size
      rw [insert_mapped maps, ← represents.size] at size
      have larger : (SortedVectorMap.insertHint compare vec position x).1.length = vec.length + 1 := by
        rw [SortedVectorMap.insertHint, SortedVectorMap.insertAt, List.length_append, List.length_cons,
          ← Nat.add_assoc, ← List.length_append, List.take_append_drop]
      have same : (SortedVectorMap.insertHint compare vec position x).1.length = vec.length := size
      omega
  | subscript k write => trivial
  | insert x => trivial
  | erase x => trivial
  | eraseAt position => trivial
  | eraseRange first last => trivial
  | clear => trivial

/-- The maps and their reference maps. -/
structure State (Name Key T : Type*) where
  maps : Name → List (Key × T)
  reference : Name → Set (Key × T)

inductive Label (Name Key T : Type*) where
  | change (name : Name) (operation : Operation Key T)
  | swap (name other : Name)

variable (compare)

def State.next (state : State Name Key T) : Label Name Key T → State Name Key T
  | .change name operation =>
      ⟨Function.update state.maps name (operation.apply compare (state.maps name)),
        Function.update state.reference name
          (operation.applyReference compare (state.reference name))⟩
  | .swap name other =>
      ⟨state.maps ∘ Equiv.swap name other, state.reference ∘ Equiv.swap name other⟩

def Label.Valid (state : State Name Key T) : Label Name Key T → Prop
  | .change name operation => operation.Valid (state.maps name)
  | .swap _ _ => True

/-- Every map is empty at first, and the operations come in any order. -/
def system : TransitionSystem (State Name Key T) (Label Name Key T) where
  initial state := state = ⟨fun _ => [], fun _ => ∅⟩
  step state label next := label.Valid state ∧ next = state.next compare label

/-- Every map is sorted and agrees with its reference map. -/
def StaysMap (state : State Name Key T) : Prop :=
  ∀ name, Agrees compare (state.maps name) (state.reference name)

/-- Every map represents its reference map. -/
def Faithful (state : State Name Key T) : Prop :=
  ∀ name, Represents compare (state.maps name) (state.reference name)

/-- An insertion with a position meets no equivalent key. -/
def HintFresh (state : State Name Key T) : Label Name Key T → Prop
  | .change name operation => operation.Fresh compare (state.maps name)
  | .swap _ _ => True

variable {compare}

/-- A run keeps all maps sorted and equal to the reference maps exactly when no insertion with a
position is of a key that the map has already. -/
theorem staysMap_iff {start : State Name Key T} (initial : (system compare).initial start)
    {steps : List (TransitionSystem.Transition (State Name Key T) (Label Name Key T))}
    (run : (system compare).Run start steps) :
    (∀ step ∈ steps, StaysMap compare step.target) ↔
      ∀ step ∈ steps, HintFresh compare step.source step.label := by
  have begins : Faithful compare start := by
    intro name
    rw [show start = _ from initial]
    exact .clear
  refine run.property_iff_condition ?implies ?keep ?needed begins
  case implies =>
    intro state represents name
    exact (represents name).agrees
  case keep =>
    rintro state label next represents ⟨valid, rfl⟩ fresh name
    cases label with
    | change changed operation =>
        by_cases same : name = changed
        · subst same
          simp only [State.next, Function.update_self]
          exact (represents name).apply valid fresh
        · simp only [State.next, Function.update_of_ne same]
          exact represents name
    | swap one other => exact represents (Equiv.swap one other name)
  case needed =>
    rintro state label next represents ⟨valid, rfl⟩ stays
    cases label with
    | change changed operation =>
        have agrees := stays changed
        simp only [State.next, Function.update_self] at agrees
        exact (represents changed).fresh_of_agrees agrees
    | swap one other => trivial

theorem natural_irrefl (k : Nat) : decide (k < k) = false := by
  simp

theorem natural_trans (k1 k2 k3 : Nat) :
    decide (k1 < k2) = true → decide (k2 < k3) = true → decide (k1 < k3) = true := by
  simp only [decide_eq_true_eq]
  omega

theorem natural_equivalentTrans (k1 k2 k3 : Nat) :
    decide (k1 < k2) = false → decide (k2 < k1) = false → decide (k2 < k3) = false →
      decide (k3 < k2) = false → decide (k1 < k3) = false ∧ decide (k3 < k1) = false := by
  simp only [decide_eq_false_iff_not]
  omega

/-- The natural numbers with their order. -/
def natural : Compare Nat where
  less a b := decide (a < b)
  irrefl := natural_irrefl
  trans := natural_trans
  equivalentTrans := natural_equivalentTrans

/-- The state of one map after these operations. -/
def after (operations : List (Operation Nat Nat)) : State Unit Nat Nat :=
  operations.foldl (fun state operation => state.next natural (.change () operation))
    ⟨fun _ => [], fun _ => ∅⟩

def mapStep (before : List (Operation Nat Nat)) (operation : Operation Nat Nat) :
    TransitionSystem.Transition (State Unit Nat Nat) (Label Unit Nat Nat) :=
  ⟨after before, .change () operation, after (before ++ [operation])⟩

theorem mapStep_taken (before : List (Operation Nat Nat)) (operation : Operation Nat Nat)
    (valid : operation.Valid ((after before).maps ())) :
    (system natural).step (mapStep before operation).source (mapStep before operation).label
      (mapStep before operation).target := by
  refine ⟨valid, ?_⟩
  show after (before ++ [operation]) = _
  rw [after, List.foldl_append]
  rfl

theorem staysMap_iff_subscript :
    (∀ step ∈ [mapStep [] (.subscript 5 fun _ => 7)], StaysMap natural step.target) ↔
      ∀ step ∈ [mapStep [] (.subscript 5 fun _ => 7)],
        HintFresh natural step.source step.label :=
  staysMap_iff rfl (.cons (mapStep_taken [] (.subscript 5 fun _ => 7) trivial) (.nil _))

/-- The insertion of a key with a position, after its insertion as a pair, makes two pairs. -/
theorem hint_not_staysMap :
    ¬ ∀ (start : State Unit Nat Nat)
        (steps : List (TransitionSystem.Transition (State Unit Nat Nat) (Label Unit Nat Nat))),
      (system natural).initial start → (system natural).Run start steps →
        ∀ step ∈ steps, StaysMap natural step.target := by
  intro all
  have first := mapStep_taken [] (.insert (5, 7)) trivial
  have second := mapStep_taken [.insert (5, 7)] (.insertHint 0 (5, 8)) (Nat.zero_le _)
  have stays := all (after []) _ rfl (.cons first (.cons second (.nil _))) _
    (List.mem_cons_of_mem _ List.mem_cons_self) ()
  have sorted : [((5 : Nat), (8 : Nat)), (5, 7)].Pairwise fun a b =>
    natural.less a.1 b.1 = true := stays.sorted
  exact absurd sorted (by decide)

end Runs

end Blocxx.SortedVectorMap
