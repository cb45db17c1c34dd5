import Blocxx.LogMessagePatternFormatter.Converters

/-!
This file proves for which component names the converter prints the last segments.
-/

namespace Blocxx.LogMessagePatternFormatter

open Time CharString

/-- The last segments of a name with their dots, or the whole name when it has fewer. -/
def lastSegments (n : Nat) (name : Text) : Text :=
  ['.'].intercalate ((name.splitOn '.').drop ((name.splitOn '.').length - n))

/-- The search for the dots meets no dot in the first place before it has met enough, and it skips
no dot in the last place. -/
def DotsMet (n : Nat) (name : Text) : Prop :=
  (name.head? = some '.' → n ≤ name.count '.') ∧
    (1 < name.length ∧ name.getLast? = some '.' → name.count '.' < n)

instance (n : Nat) (name : Text) : Decidable (DotsMet n name) := by
  unfold DotsMet
  infer_instance

section Segments

variable {name : Text} {n : Nat}

theorem length_splitOn (name : Text) : (name.splitOn '.').length = name.count '.' + 1 := by
  induction name with
  | nil => rfl
  | cons c name ih =>
      rw [List.splitOn_cons_eq_if_modifyHead, List.count_cons]
      split
      · rw [List.length_cons, ih]
      · rw [List.length_modifyHead, ih]

theorem lastSegments_whole (few : name.count '.' < n) : lastSegments n name = name := by
  have none : (name.splitOn '.').length - n = 0 := by
    rw [length_splitOn]
    omega
  rw [lastSegments, none, List.drop_zero, List.intercalate_splitOn]

/-- The last segments begin behind the dot with one dot fewer behind it. -/
theorem lastSegments_behind {front back : Text} (dots : back.count '.' + 1 = n) :
    lastSegments n (front ++ '.' :: back) = back := by
  have split : (front ++ '.' :: back).splitOn '.' = front.splitOn '.' ++ back.splitOn '.' :=
    List.splitOn_append_cons_self front back
  have before : (front.splitOn '.' ++ back.splitOn '.').length - n =
      (front.splitOn '.').length := by
    rw [List.length_append, length_splitOn back]
    omega
  rw [lastSegments, split, before, List.drop_left, List.intercalate_splitOn]

theorem exists_segments (enough : n + 1 ≤ name.count '.') : ∃ front back,
    name = front ++ '.' :: back ∧ back.count '.' = n := by
  induction name with
  | nil => simp at enough
  | cons c name ih =>
      by_cases later : n + 1 ≤ name.count '.'
      · obtain ⟨front, back, rfl, dots⟩ := ih later
        exact ⟨c :: front, back, rfl, dots⟩
      · rw [List.count_cons] at enough
        split at enough
        · next dot =>
            obtain rfl := eq_of_beq dot
            exact ⟨[], name, rfl, by omega⟩
        · omega

theorem count_lastSegments (enough : n + 1 ≤ name.count '.') :
    (lastSegments (n + 1) name).count '.' = n := by
  obtain ⟨front, back, rfl, dots⟩ := exists_segments enough
  rw [lastSegments_behind (by omega), dots]

theorem lastSegments_suffix (n : Nat) (name : Text) : lastSegments (n + 1) name <:+ name := by
  by_cases enough : n + 1 ≤ name.count '.'
  · obtain ⟨front, back, rfl, dots⟩ := exists_segments enough
    rw [lastSegments_behind (by omega)]
    exact ⟨front ++ ['.'], by simp⟩
  · rw [lastSegments_whole (by omega)]

end Segments

section Search

variable {component : Text}

/-- The dots from an index on. -/
def dotsFrom (component : Text) (index : Nat) : Nat := (component.drop index).count '.'

theorem dotsFrom_dot {index : Nat} (dot : component[index]? = some '.') :
    dotsFrom component index = dotsFrom component (index + 1) + 1 := by
  obtain ⟨inside, same⟩ := List.getElem?_eq_some_iff.mp dot
  rw [dotsFrom, List.drop_eq_getElem_cons inside, same, List.count_cons_self, dotsFrom]

theorem dotsFrom_other {index : Nat} (other : component[index]? ≠ some '.') :
    dotsFrom component index = dotsFrom component (index + 1) := by
  by_cases inside : index < component.length
  · rw [List.getElem?_eq_getElem inside] at other
    rw [dotsFrom, List.drop_eq_getElem_cons inside, List.count_cons_of_ne (by simpa using other),
      dotsFrom]
  · rw [dotsFrom, dotsFrom, List.drop_eq_nil_of_le (by omega), List.drop_eq_nil_of_le (by omega)]

theorem dotsFrom_anti (component : Text) {index later : Nat} (less : index ≤ later) :
    dotsFrom component later ≤ dotsFrom component index := by
  obtain ⟨distance, rfl⟩ := Nat.exists_eq_add_of_le less
  rw [dotsFrom, dotsFrom, ← List.drop_drop]
  exact (List.drop_sublist _ _).count_le _

/-- The search finds the last dot below the bound. -/
theorem lastIndexBelow_spec {bound : Nat} (inside : bound ≤ component.length) :
    lastIndexBelow component '.' bound = -1 ∧
        dotsFrom component 0 = dotsFrom component bound ∨
      ∃ index : Nat, lastIndexBelow component '.' bound = index ∧ index < bound ∧
        component[index]? = some '.' ∧
        dotsFrom component index = dotsFrom component bound + 1 := by
  induction bound with
  | zero => exact .inl ⟨rfl, rfl⟩
  | succ bound ih =>
      have here : component.getD bound '\x00' = '.' ↔ component[bound]? = some '.' := by
        rw [List.getD_eq_getElem?_getD, List.getElem?_eq_getElem (by omega)]
        simp
      rw [lastIndexBelow]
      by_cases dot : component[bound]? = some '.'
      · rw [if_pos (here.mpr dot)]
        exact .inr ⟨bound, rfl, Nat.lt_succ_self bound, dot, dotsFrom_dot dot⟩
      · rw [if_neg (mt here.mp dot), ← dotsFrom_other dot]
        rcases ih (by omega) with none | ⟨index, found, less, rest⟩
        · exact .inl none
        · exact .inr ⟨index, found, Nat.lt_succ_of_lt less, rest⟩

/-- Below this bound goes the search that starts before the index. The index before the first one is
`npos`, from which the search goes through the whole name. -/
def boundBefore (component : Text) (index : Nat) : Nat :=
  if index = 0 then component.length else index

theorem lastIndexOf_before {index : Nat} (inside : index < component.length) :
    lastIndexOf component '.' ((index : Int) - 1) =
      lastIndexBelow component '.' (boundBefore component index) := by
  unfold lastIndexOf boundBefore
  dsimp only
  by_cases first : index = 0
  · have start : (0 : Int) ≤ component.length - 1 ∧ (component.length : Int) - 1 < component.length :=
      by omega
    have place : ((component.length : Int) - 1).toNat + 1 = component.length := by omega
    rw [if_pos (show (index : Int) - 1 = -1 by omega), if_pos first, if_pos start, place]
  · have start : (0 : Int) ≤ index - 1 ∧ (index : Int) - 1 < component.length := by omega
    have place : ((index : Int) - 1).toNat + 1 = index := by omega
    rw [if_neg (show (index : Int) - 1 ≠ -1 by omega), if_neg first, if_pos start, place]

/-- One iteration leaves the loop without a dot below the bound, or goes on from the last of them. -/
theorem componentEnd_succ {index : Nat} (inside : index < component.length) (n : Nat) :
    dotsFrom component 0 = dotsFrom component (boundBefore component index) ∧
        componentEnd component (n + 1) index = none ∨
      ∃ earlier : Nat, component[earlier]? = some '.' ∧
        dotsFrom component earlier = dotsFrom component (boundBefore component index) + 1 ∧
        componentEnd component (n + 1) index = componentEnd component n earlier := by
  have bounded : boundBefore component index ≤ component.length := by
    unfold boundBefore
    split <;> omega
  rw [componentEnd, lastIndexOf_before inside]
  rcases lastIndexBelow_spec bounded with ⟨none, same⟩ | ⟨earlier, found, -, dot, count⟩
  · exact .inl ⟨same, by rw [if_pos none]⟩
  · refine .inr ⟨earlier, dot, count, ?_⟩
    rw [found, if_neg (by omega)]

theorem componentEnd_add (component : Text) (m n : Nat) (last : Int) :
    componentEnd component (m + n) last =
      (componentEnd component m last).bind (componentEnd component n) := by
  induction m generalizing last with
  | zero => rw [Nat.zero_add, componentEnd, Option.bind_some]
  | succ m ih =>
      rw [Nat.succ_add, componentEnd, componentEnd]
      split
      · rfl
      · exact ih _

theorem inside_of_dot {index : Nat} (dot : component[index]? = some '.') :
    index < component.length :=
  (List.getElem?_eq_some_iff.mp dot).1

theorem boundBefore_pos {index : Nat} (after : index ≠ 0) : boundBefore component index = index :=
  if_neg after

/-- The loop ends at the dot of this number when there are as many before the dot it starts from. -/
theorem componentEnd_met {index n : Nat} (dot : component[index]? = some '.')
    (enough : dotsFrom component index + n ≤ dotsFrom component 0) : ∃ last : Nat,
      componentEnd component n index = some (last : Int) ∧ component[last]? = some '.' ∧
        dotsFrom component last = dotsFrom component index + n := by
  induction n generalizing index with
  | zero => exact ⟨index, rfl, dot, rfl⟩
  | succ n ih =>
      have after : index ≠ 0 := by
        rintro rfl
        omega
      rcases componentEnd_succ (inside_of_dot dot) n with ⟨same, -⟩ | ⟨earlier, dot', count, goes⟩
      · rw [boundBefore_pos after] at same
        omega
      · rw [boundBefore_pos after] at count
        obtain ⟨last, ends, lastDot, total⟩ := ih dot' (by omega)
        exact ⟨last, goes.trans ends, lastDot, by omega⟩

/-- The loop returns when the dots are too few and none is in the first place. -/
theorem componentEnd_few {index n : Nat} (first : component[0]? ≠ some '.')
    (dot : component[index]? = some '.')
    (few : dotsFrom component 0 < dotsFrom component index + n) :
    componentEnd component n index = none := by
  have total := dotsFrom_anti component (Nat.zero_le index)
  induction n generalizing index with
  | zero => omega
  | succ n ih =>
      have after : index ≠ 0 := by
        rintro rfl
        exact first dot
      rcases componentEnd_succ (inside_of_dot dot) n with ⟨-, none⟩ | ⟨earlier, dot', count, goes⟩
      · exact none
      · rw [boundBefore_pos after] at count
        rw [goes]
        exact ih dot' (by omega) (dotsFrom_anti component (Nat.zero_le earlier))

/-- A dot in the first place is found again and again. -/
theorem componentEnd_first {index n : Nat} (first : component[0]? = some '.')
    (inside : index < component.length) : ∃ last : Nat,
      componentEnd component n index = some (last : Int) ∧ last < component.length := by
  induction n generalizing index with
  | zero => exact ⟨index, rfl, inside⟩
  | succ n ih =>
      rcases componentEnd_succ inside n with ⟨same, -⟩ | ⟨earlier, dot, count, goes⟩
      · have begins := dotsFrom_dot first
        have positive : 0 < boundBefore component index := by
          unfold boundBefore
          split <;> omega
        have less := dotsFrom_anti component (show 0 + 1 ≤ _ from positive)
        omega
      · rw [goes]
        exact ih (inside_of_dot dot)

end Search

section Output

variable {name : Text} {n : Nat}

/-- What the converter prints, apart from the characters behind a zero. -/
def printed (n : Nat) (name : Text) : Text :=
  match componentEnd name n ((name.length : Int) - 1) with
  | none => name
  | some last => name.drop (last + 1).toNat

theorem componentConvert_printed (positive : 1 ≤ n) (name output : Text) :
    componentConvert n name output =
      output ++ strncpy (printed n name) (printed n name).length := by
  unfold componentConvert printed
  rw [if_neg (by omega), Int.toNat_natCast]
  dsimp only
  cases componentEnd name n ((name.length : Int) - 1) with
  | none => rfl
  | some last =>
      dsimp only
      have whole : substring name (last + 1).toNat ((name.length : Int) - (last + 1)).toNat =
          name.drop (last + 1).toNat := by
        rw [substring, List.take_of_length_le]
        rw [List.length_drop]
        omega
      rw [whole, appendString, append]

/-- The dots behind the characters that the first search looks at. -/
def skipped (name : Text) : Nat :=
  if 1 < name.length ∧ name.getLast? = some '.' then 1 else 0

theorem dotsFrom_last (filled : name ≠ []) :
    dotsFrom name (boundBefore name (name.length - 1)) = skipped name := by
  have positive := List.length_pos_of_ne_nil filled
  unfold boundBefore skipped
  by_cases single : name.length = 1
  · rw [if_pos (by omega), if_neg (by omega), dotsFrom, List.drop_length, List.count_nil]
  · have behind : dotsFrom name (name.length - 1 + 1) = 0 := by
      rw [dotsFrom, List.drop_eq_nil_of_le (by omega), List.count_nil]
    rw [if_neg (by omega), List.getLast?_eq_getElem?]
    by_cases dot : name[name.length - 1]? = some '.'
    · rw [if_pos ⟨by omega, dot⟩, dotsFrom_dot dot, behind]
    · rw [if_neg (fun both => dot both.2), dotsFrom_other dot, behind]

theorem printed_eq (filled : name ≠ []) {n : Nat} {ends : Option Int}
    (loop : componentEnd name n ((name.length - 1 : Nat) : Int) = ends) :
    printed n name = (ends.map fun last => name.drop (last + 1).toNat).getD name := by
  have positive := List.length_pos_of_ne_nil filled
  rw [printed, show (name.length : Int) - 1 = (name.length - 1 : Nat) by omega, loop]
  cases ends <;> rfl

theorem last_inside (filled : name ≠ []) : name.length - 1 < name.length :=
  Nat.sub_lt (List.length_pos_of_ne_nil filled) Nat.one_pos

theorem componentEnd_start (filled : name ≠ []) {m : Nat}
    (enough : skipped name + (m + 1) ≤ name.count '.') : ∃ last : Nat,
      componentEnd name (m + 1) ((name.length - 1 : Nat) : Int) = some (last : Int) ∧
        name[last]? = some '.' ∧ dotsFrom name last = skipped name + (m + 1) := by
  have total : dotsFrom name 0 = name.count '.' := rfl
  rcases componentEnd_succ (last_inside filled) m with ⟨same, -⟩ | ⟨earlier, dot, count, goes⟩
  · rw [dotsFrom_last filled] at same
    omega
  · rw [dotsFrom_last filled] at count
    obtain ⟨last, ends, lastDot, dots⟩ := componentEnd_met (n := m) dot (by omega)
    exact ⟨last, goes.trans ends, lastDot, by omega⟩

/-- Enough dots are met, and the dot in the last place is printed but not counted. -/
theorem printed_met (filled : name ≠ []) {m : Nat}
    (enough : skipped name + (m + 1) ≤ name.count '.') : ∃ front back,
      name = front ++ '.' :: back ∧ printed (m + 1) name = back ∧
        back.count '.' + 1 = skipped name + (m + 1) := by
  obtain ⟨last, ends, dot, dots⟩ := componentEnd_start filled enough
  obtain ⟨inside, same⟩ := List.getElem?_eq_some_iff.mp dot
  refine ⟨name.take last, name.drop (last + 1), ?_, printed_eq filled ends, ?_⟩
  · rw [← same, ← List.drop_eq_getElem_cons inside, List.take_append_drop]
  · exact (dotsFrom_dot dot).symm.trans dots

theorem printed_few (filled : name ≠ []) (first : name[0]? ≠ some '.') {m : Nat}
    (few : name.count '.' < skipped name + (m + 1)) : printed (m + 1) name = name := by
  have total : dotsFrom name 0 = name.count '.' := rfl
  have none : componentEnd name (m + 1) ((name.length - 1 : Nat) : Int) = none := by
    rcases componentEnd_succ (last_inside filled) m with ⟨-, none⟩ | ⟨earlier, dot, count, goes⟩
    · exact none
    · rw [dotsFrom_last filled] at count
      rw [goes]
      exact componentEnd_few first dot (by omega)
  exact printed_eq filled none

/-- The whole name is not printed when the first character is a dot. -/
theorem printed_first (filled : name ≠ []) (first : name[0]? = some '.') (n : Nat) :
    printed n name ≠ name := by
  obtain ⟨last, ends, inside⟩ := componentEnd_first (n := n) first (last_inside filled)
  rw [printed_eq filled ends]
  intro same
  have lengths := congrArg List.length same
  have shorter : (name.drop (last + 1)).length = name.length := lengths
  rw [List.length_drop] at shorter
  omega

/-- Behind the first dot the search meets the last one again. -/
theorem printed_wrapped (filled : name ≠ []) (first : name[0]? = some '.') (skips : skipped name = 1)
    {m : Nat} (all : name.count '.' = m + 2) : (printed (m + 2) name).count '.' = 0 := by
  have total : dotsFrom name 0 = name.count '.' := rfl
  obtain ⟨last, ends, dot, dots⟩ := componentEnd_start (m := m) filled (by omega)
  have start : last = 0 := by
    by_contra after
    have begins := dotsFrom_dot first
    have less := dotsFrom_anti name (show 0 + 1 ≤ last by omega)
    omega
  subst start
  have again : componentEnd name (m + 2) ((name.length - 1 : Nat) : Int) =
      componentEnd name 1 ((0 : Nat) : Int) := by
    rw [componentEnd_add name (m + 1) 1, ends, Option.bind_some]
  have finish : dotsFrom name (boundBefore name 0) = 0 := by
    rw [boundBefore, if_pos rfl, dotsFrom, List.drop_length, List.count_nil]
  rcases componentEnd_succ (inside_of_dot first) 0 with ⟨same, -⟩ | ⟨earlier, dot', count, goes⟩
  · omega
  · rw [printed_eq filled (again.trans goes)]
    have behind := dotsFrom_dot dot'
    show dotsFrom name (earlier + 1) = 0
    omega

/-- A dot in the last place makes the search print too much or too little. -/
theorem printed_skipped (filled : name ≠ []) (skips : skipped name = 1) {m : Nat}
    (enough : m + 1 ≤ name.count '.') : printed (m + 1) name ≠ lastSegments (m + 1) name := by
  intro same
  have dots := congrArg (List.count '.') same
  rw [count_lastSegments enough] at dots
  by_cases more : m + 2 ≤ name.count '.'
  · obtain ⟨front, back, -, prints, count⟩ := printed_met filled (m := m) (by omega)
    rw [prints] at dots
    omega
  · by_cases first : name[0]? = some '.'
    · have begins := dotsFrom_dot first
      have total : dotsFrom name 0 = name.count '.' := rfl
      have bound : 0 + 1 ≤ boundBefore name (name.length - 1) := by
        have positive := List.length_pos_of_ne_nil filled
        unfold boundBefore
        split <;> omega
      have less := dotsFrom_anti name bound
      rw [dotsFrom_last filled] at less
      obtain ⟨k, rfl⟩ : ∃ k, m = k + 1 := ⟨m - 1, by omega⟩
      rw [printed_wrapped filled first skips (by omega)] at dots
      omega
    · rw [printed_few filled first (by omega)] at dots
      omega

/-- The copy into the output apart, the last segments are printed under this condition. -/
theorem printed_iff (m : Nat) (name : Text) :
    printed (m + 1) name = lastSegments (m + 1) name ↔ DotsMet (m + 1) name := by
  by_cases filled : name = []
  · subst filled
    rw [lastSegments_whole (by simp)]
    refine iff_of_true rfl (And.intro (fun first => ?_) fun both => ?_)
    · cases first
    · exact absurd both.1 (Nat.not_lt_zero 1)
  · unfold DotsMet
    rw [List.head?_eq_getElem?]
    by_cases few : name.count '.' < m + 1
    · rw [lastSegments_whole few]
      by_cases first : name[0]? = some '.'
      · exact iff_of_false (printed_first filled first _) fun met => by
          have enough := met.1 first
          omega
      · exact iff_of_true (printed_few filled first (by omega))
          ⟨fun dot => absurd dot first, fun _ => few⟩
    · by_cases ends : 1 < name.length ∧ name.getLast? = some '.'
      · exact iff_of_false (printed_skipped filled (if_pos ends) (by omega)) fun met =>
          few (met.2 ends)
      · obtain ⟨front, back, split, prints, dots⟩ :=
          printed_met (m := m) filled (by rw [skipped, if_neg ends]; omega)
        rw [skipped, if_neg ends] at dots
        refine iff_of_true ?_ ⟨fun _ => by omega, fun both => absurd both ends⟩
        rw [prints, split, lastSegments_behind (by omega)]

theorem printed_suffix (n : Nat) (name : Text) : printed n name <:+ name := by
  unfold printed
  split
  · exact List.suffix_rfl
  · exact List.drop_suffix _ _

/-- The converter prints exactly the last segments of the names in which it meets the dots and copies
all characters. -/
theorem component_prints_iff (environment : Environment) (message : LogMessage) (output : Text)
    (formatting : Formatting) (precision : Int) (positive : 1 ≤ precision) :
    (Converter.component formatting precision).convert environment message output =
        output ++ lastSegments precision.toNat message.component ↔
      DotsMet precision.toNat message.component ∧
        ZerosLast (lastSegments precision.toNat message.component) := by
  obtain ⟨m, rfl⟩ : ∃ m : Nat, precision = (m + 1 : Nat) := ⟨precision.toNat - 1, by omega⟩
  show componentConvert _ message.component output = _ ↔ _
  rw [componentConvert_printed (Nat.succ_pos m), List.append_right_inj, Int.toNat_natCast,
    ← printed_iff]
  constructor
  · intro copied
    have length : (printed (m + 1) message.component).length =
        (lastSegments (m + 1) message.component).length := by
      rw [← copied, length_strncpy]
    have same : printed (m + 1) message.component = lastSegments (m + 1) message.component :=
      (List.suffix_of_suffix_length_le (printed_suffix _ _) (lastSegments_suffix _ _)
        length.le).eq_of_length length
    exact ⟨same, by rw [ZerosLast, ← same, copied, same]⟩
  · rintro ⟨same, whole⟩
    rw [same]
    exact whole

def ofComponent (component : Text) : LogMessage := ⟨component, [], [], none, 0, none⟩

theorem plain_printed :
    (Converter.component .none 2).convert .first (ofComponent "a.b.c".toList) [] =
      [] ++ lastSegments (2 : Int).toNat (ofComponent "a.b.c".toList).component :=
  (component_prints_iff .first (ofComponent "a.b.c".toList) [] .none 2 (by decide)).mpr
    ⟨by decide, by decide⟩

/-- The search does not look at a dot in the last place. -/
theorem dotted_not_printed :
    (Converter.component .none 1).convert .first (ofComponent "a.b.".toList) [] ≠
      [] ++ lastSegments (1 : Int).toNat (ofComponent "a.b.".toList).component := by
  decide

end Output

end Blocxx.LogMessagePatternFormatter
