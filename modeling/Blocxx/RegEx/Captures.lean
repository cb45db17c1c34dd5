import Blocxx.RegEx.RegEx
import Mathlib.Tactic.IntervalCases

/-!
This file proves when `substitute_caps` substitutes all references to captures at once.
-/

namespace Blocxx.RegEx

open Time CharString

/-- A reference to a capture with the number of the backslashes before it, or other text. -/
inductive Part where
  | plain (text : Text)
  | reference (quotes digit : Nat)
  deriving DecidableEq

/-- The reference to a capture: a backslash and the digit. -/
def capRef (digit : Nat) : Text := ['\\', digit.digitChar]

/-- The digit from 1 to 9 that a character is. -/
def digitOf (c : Char) : Option Nat := (List.range' 1 9).find? fun digit => digit.digitChar = c

/-- The parts of some backslashes and a text. The last backslash before a digit is the one of a
reference. -/
def parts : Nat → Text → List Part
  | quotes, [] => [.plain (List.replicate quotes '\\')]
  | quotes, c :: rest =>
      if c = '\\' then parts (quotes + 1) rest
      else
        match quotes, digitOf c with
        | before + 1, some digit => .reference before digit :: parts 0 rest
        | _, _ => .plain (List.replicate quotes '\\' ++ [c]) :: parts 0 rest

/-- What a part becomes when the references up to a digit are substituted. -/
def Part.expand (cap : Nat → Text) (upTo : Nat) : Part → Text
  | .plain text => text
  | .reference quotes digit =>
      if digit ≤ upTo then
        List.replicate (quotes / 2) '\\' ++ (if quotes % 2 = 0 then cap digit else capRef digit)
      else List.replicate quotes '\\' ++ capRef digit

def expand (cap : Nat → Text) (upTo : Nat) (whole : List Part) : Text :=
  whole.flatMap (·.expand cap upTo)

/-- The number of the backslashes before each reference with a digit. -/
def quotesOf (digit : Nat) (whole : List Part) : List Nat :=
  whole.filterMap fun
    | .plain _ => none
    | .reference quotes other => if other = digit then some quotes else none

/-- The number of the places where a text has a backslash and this digit. -/
def places (digit : Nat) : Text → Nat
  | [] => 0
  | c :: rest => (if (capRef digit).isPrefixOf (c :: rest) then 1 else 0) + places digit rest

/-- The number of the backslashes at the end of a text. -/
def trailing (text : Text) : Nat := (text.reverse.takeWhile (· = '\\')).length

variable {cap : Nat → Text} {digit quotes : Nat} {front rest text : Text} {whole : List Part}

section Text

/-- The character of a digit is neither a backslash nor a zero byte. -/
theorem digitChar_ne (digit : Nat) : digit.digitChar ≠ '\\' ∧ digit.digitChar ≠ '\x00' := by
  by_cases small : digit < 16
  · interval_cases digit <;> decide
  · rw [Nat.digitChar_eq_star.mpr (Nat.le_of_not_lt small)]
    decide

theorem places_eq_zero_iff : places digit text = 0 ↔ ¬ capRef digit <:+: text := by
  induction text with
  | nil => simp [places, capRef]
  | cons c rest ih =>
      rw [places, List.infix_cons_iff, not_or, ← ih, ← List.isPrefixOf_iff_prefix]
      split
      next starts => simp [starts]
      next other => simp [other]

/-- A backslash and a digit overlap no other ones. -/
theorem starts_append_reference (c : Char) (front rest : Text) :
    (capRef digit).isPrefixOf (c :: (front ++ (capRef digit ++ rest))) =
      (capRef digit).isPrefixOf (c :: front) := by
  cases front with
  | nil => simp [capRef, List.isPrefixOf, (digitChar_ne digit).1]
  | cons next front => simp [capRef, List.isPrefixOf]

theorem places_reference (front rest : Text) :
    places digit (front ++ (capRef digit ++ rest)) =
      places digit front + 1 + places digit rest := by
  induction front with
  | nil => simp [places, capRef, List.isPrefixOf, (digitChar_ne digit).1.symm]
  | cons c front ih =>
      rw [List.cons_append, places, ih, places, starts_append_reference]
      omega

theorem places_append_quotes (front : Text) (quotes : Nat) :
    places digit (front ++ List.replicate quotes '\\') = places digit front := by
  have quote := (digitChar_ne digit).1
  induction front with
  | nil =>
      rw [List.nil_append, places_eq_zero_iff.mpr, places]
      intro inside
      have member : digit.digitChar ∈ List.replicate quotes '\\' :=
        inside.subset (by simp [capRef])
      exact quote (List.eq_of_mem_replicate member)
  | cons c front ih =>
      rw [List.cons_append, places, ih, places]
      congr 2
      cases front with
      | nil =>
          cases quotes with
          | zero => rfl
          | succ quotes => simp [capRef, List.isPrefixOf, List.replicate_succ, quote]
      | cons next front => simp [capRef, List.isPrefixOf]

theorem trailing_append_quotes (front : Text) (quotes : Nat) :
    trailing (front ++ List.replicate quotes '\\') = trailing front + quotes := by
  induction quotes with
  | zero => simp
  | succ quotes ih =>
      rw [List.replicate_succ', ← List.append_assoc]
      unfold trailing at ih ⊢
      rw [List.reverse_append, List.reverse_singleton, List.singleton_append,
        List.takeWhile_cons_of_pos (by decide), List.length_cons, ih]
      rfl

theorem trailing_eq_zero_iff : trailing text = 0 ↔ text.getLast? ≠ some '\\' := by
  rw [trailing, ← List.head?_reverse, List.length_eq_zero_iff]
  cases text.reverse with
  | nil => simp
  | cons c rest => simp [List.takeWhile_cons]

theorem trailing_le_length (text : Text) : trailing text ≤ text.length := by
  have shorter := (List.takeWhile_sublist (· = '\\') (l := text.reverse)).length_le
  rwa [List.length_reverse] at shorter

end Text

section Pass

variable (unwritten : Nat → Char) {inserted done : Text}

/-- The numbers of the backslashes before the references that the loop of `substitute_caps` finds
for one capture. -/
def readQuotes (cap_ref cap res : Text) (fromIndex : Nat) : List Nat :=
  match _found : indexOf res cap_ref fromIndex with
  | none => []
  | some pos => countQuotes res pos :: readQuotes cap_ref cap
      (substituteAt unwritten cap res pos).1 (substituteAt unwritten cap res pos).2
termination_by res.length - fromIndex
decreasing_by
  have inside := indexOf_range _found
  have rest := substituteAt_rest unwritten cap res pos
  omega

/-- A text in which the loop has handled the reference behind it. -/
def handled (digit : Nat) (inserted before : Text) : Text :=
  if trailing before % 2 = 1 then
    before.take (before.length - (trailing before + 1) / 2) ++ capRef digit
  else before.take (before.length - trailing before / 2) ++ inserted

theorem concat_eq {str arg : Text} (strFree : '\x00' ∉ str) (argFree : '\x00' ∉ arg) :
    concat unwritten str arg = str ++ arg := by
  rw [concat, (cString_eq_iff str).mpr strFree, (cString_eq_iff arg).mpr argFree]
  split
  next none => rw [none, List.append_nil]
  · rw [← List.length_append, List.take_left]

theorem countQuotes_append (front rest : Text) :
    countQuotes (front ++ rest) front.length = trailing front := by
  rw [countQuotes, List.take_left, trailing]

theorem substituteAt_reference (free : '\x00' ∉ front ++ (capRef digit ++ rest))
    (inserts : trailing front % 2 = 0 → '\x00' ∉ inserted) :
    substituteAt unwritten inserted (front ++ (capRef digit ++ rest)) front.length =
      (handled digit inserted front ++ rest, (handled digit inserted front).length) := by
  have fewer := trailing_le_length front
  rw [List.mem_append, not_or, List.mem_append, not_or] at free
  obtain ⟨frontFree, refFree, restFree⟩ := free
  have taken (count : Nat) : substring (front ++ (capRef digit ++ rest)) 0 (front.length - count) =
      front.take (front.length - count) := by
    rw [substring, List.drop_zero, List.take_append_of_le_length (Nat.sub_le _ _)]
  have takenFree (count : Nat) : '\x00' ∉ front.take count :=
    fun member => frontFree (List.mem_of_mem_take member)
  unfold substituteAt handled
  rw [countQuotes_append]
  dsimp only
  split
  next odd =>
    have inside : ¬ front.length - (trailing front + 1) / 2 ≥
        (front ++ (capRef digit ++ rest)).length := by
      simp [capRef]
      omega
    rw [erase, if_neg inside, taken, Nat.sub_add_cancel (by omega), List.drop_left,
      concat_eq _ (takenFree _) (by simp [refFree, restFree]), List.append_assoc,
      List.length_append, List.length_take, Prod.mk.injEq]
    refine ⟨rfl, ?_⟩
    simp only [capRef, List.length_cons, List.length_nil]
    omega
  next even =>
    have behind : (front ++ (capRef digit ++ rest)).drop (front.length + 2) = rest := by
      rw [← List.drop_drop, List.drop_left]
      rfl
    have capFree := inserts (by omega)
    rw [taken, behind, concat_eq _ (takenFree _) capFree,
      concat_eq _ (by simp [takenFree, capFree]) restFree, List.length_append, List.length_take,
      Prod.mk.injEq]
    refine ⟨rfl, ?_⟩
    omega

theorem strstr_reference (none : places digit front = 0) :
    strstr (front ++ (capRef digit ++ rest)) (capRef digit) = some front.length := by
  induction front with
  | nil => simp [strstr.eq_def, capRef, List.isPrefixOf]
  | cons c front ih =>
      rw [places] at none
      have other : (capRef digit).isPrefixOf (c :: front) = false := by
        by_contra starts
        rw [Bool.not_eq_false] at starts
        simp [starts] at none
      rw [List.cons_append, strstr.eq_def, starts_append_reference, other]
      simp only [Bool.false_eq_true, if_false]
      rw [ih (by omega)]
      rfl

theorem strstr_none (none : places digit text = 0) : strstr text (capRef digit) = .none := by
  cases found : strstr text (capRef digit) with
  | none => rfl
  | some index =>
      obtain ⟨before, behind, rfl, -, -⟩ := strstr_eq_some (by simp [capRef]) found
      rw [List.append_assoc, places_reference] at none
      omega

theorem cString_capRef (digit : Nat) : cString (capRef digit) = capRef digit := by
  simp [cString, capRef, (digitChar_ne digit).2]

theorem indexOf_reference (done : Text) (free : '\x00' ∉ front ++ (capRef digit ++ rest))
    (none : places digit front = 0) :
    indexOf (done ++ (front ++ (capRef digit ++ rest))) (capRef digit) done.length =
      some (done ++ front).length := by
  have inside : done.length < (done ++ (front ++ (capRef digit ++ rest))).length := by
    simp [capRef]
  rw [indexOf, if_pos inside, List.drop_left, (cString_eq_iff _).mpr free, cString_capRef,
    strstr_reference none, List.length_append]
  rfl

theorem places_cString (none : places digit text = 0) : places digit (cString text) = 0 := by
  rw [places_eq_zero_iff] at none ⊢
  intro inside
  exact none (inside.trans (List.takeWhile_prefix _).isInfix)

theorem indexOf_none (none : places digit rest = 0) :
    indexOf (done ++ rest) (capRef digit) done.length = .none := by
  rw [indexOf]
  split
  · rw [List.drop_left, cString_capRef, strstr_none (places_cString none)]
    rfl
  · rfl

theorem substituteCap_none (none : places digit rest = 0) :
    substituteCap unwritten (capRef digit) inserted (done ++ rest) done.length = done ++ rest := by
  unfold substituteCap
  split
  · rfl
  next found => simp [indexOf_none none] at found

theorem readQuotes_none (none : places digit rest = 0) :
    readQuotes unwritten (capRef digit) inserted (done ++ rest) done.length = [] := by
  unfold readQuotes
  split
  · rfl
  next found => simp [indexOf_none none] at found

section Reference

variable (free : '\x00' ∉ done ++ (front ++ (capRef digit ++ rest)))
  (none : places digit front = 0)
include free none

theorem readQuotes_head (inserted : Text) : ∃ later,
    readQuotes unwritten (capRef digit) inserted (done ++ (front ++ (capRef digit ++ rest)))
      done.length = trailing (done ++ front) :: later := by
  have there := indexOf_reference done (fun member => free (List.mem_append_right done member)) none
  unfold readQuotes
  split
  next missing => simp [there] at missing
  next pos found =>
    obtain rfl := Option.some.inj (there.symm.trans found)
    rw [← List.append_assoc, countQuotes_append]
    exact ⟨_, rfl⟩

variable (inserts : trailing (done ++ front) % 2 = 0 → '\x00' ∉ inserted)
include inserts

theorem substituteCap_reference :
    substituteCap unwritten (capRef digit) inserted (done ++ (front ++ (capRef digit ++ rest)))
        done.length =
      substituteCap unwritten (capRef digit) inserted
        (handled digit inserted (done ++ front) ++ rest)
        (handled digit inserted (done ++ front)).length := by
  have there := indexOf_reference done (fun member => free (List.mem_append_right done member)) none
  conv_lhs => unfold substituteCap
  split
  next missing => simp [there] at missing
  next pos found =>
    obtain rfl := Option.some.inj (there.symm.trans found)
    rw [← List.append_assoc] at free ⊢
    rw [substituteAt_reference unwritten free inserts]

theorem readQuotes_reference :
    readQuotes unwritten (capRef digit) inserted (done ++ (front ++ (capRef digit ++ rest)))
        done.length =
      trailing (done ++ front) ::
        readQuotes unwritten (capRef digit) inserted
          (handled digit inserted (done ++ front) ++ rest)
          (handled digit inserted (done ++ front)).length := by
  have there := indexOf_reference done (fun member => free (List.mem_append_right done member)) none
  conv_lhs => unfold readQuotes
  split
  next missing => simp [there] at missing
  next pos found =>
    obtain rfl := Option.some.inj (there.symm.trans found)
    rw [← List.append_assoc] at free ⊢
    rw [countQuotes_append, substituteAt_reference unwritten free inserts]

end Reference

theorem exists_reference (some_ : places digit text ≠ 0) : ∃ front rest,
    text = front ++ (capRef digit ++ rest) ∧ places digit front = 0 := by
  cases found : strstr text (capRef digit) with
  | none => exact absurd (places_eq_zero_iff.mpr (strstr_eq_none found)) some_
  | some index =>
      obtain ⟨front, rest, rfl, -, outside⟩ := strstr_eq_some (by simp [capRef]) found
      exact ⟨front, rest, List.append_assoc .., places_eq_zero_iff.mpr outside⟩

theorem zero_notMem_handled (digit : Nat) (free : '\x00' ∉ front)
    (inserts : trailing front % 2 = 0 → '\x00' ∉ inserted) :
    '\x00' ∉ handled digit inserted front := by
  have takenFree (count : Nat) : '\x00' ∉ front.take count :=
    fun member => free (List.mem_of_mem_take member)
  unfold handled
  split
  · simp [takenFree, capRef, (digitChar_ne digit).2.symm]
  next even => simp [takenFree, inserts (by omega)]

/-- The loop finds every place, unless it inserts a zero byte. -/
theorem length_readQuotes (done rest : Text) (free : '\x00' ∉ done ++ rest)
    (inserts : '\x00' ∈ inserted → ∀ quotes ∈
      readQuotes unwritten (capRef digit) inserted (done ++ rest) done.length, quotes % 2 = 1) :
    (readQuotes unwritten (capRef digit) inserted (done ++ rest) done.length).length =
      places digit rest := by
  induction size : rest.length using Nat.strong_induction_on generalizing done rest with
  | _ size ih =>
      by_cases none : places digit rest = 0
      · rw [readQuotes_none unwritten none, none, List.length_nil]
      obtain ⟨front, rest, rfl, before⟩ := exists_reference none
      have even : trailing (done ++ front) % 2 = 0 → '\x00' ∉ inserted := by
        intro even member
        obtain ⟨later, reads⟩ := readQuotes_head unwritten free before inserted
        have odd := inserts member (trailing (done ++ front)) (by simp [reads])
        omega
      have parts := free
      rw [← List.append_assoc, List.mem_append, not_or, List.mem_append (s := capRef digit),
        not_or] at parts
      obtain ⟨frontFree, -, restFree⟩ := parts
      have handledFree := zero_notMem_handled digit frontFree even
      rw [readQuotes_reference unwritten free before even] at inserts ⊢
      rw [List.length_cons, ih rest.length (by rw [← size]; simp [capRef]; omega) _ _
        (by simp [handledFree, restFree])
        (fun member quotes reads => inserts member quotes (List.mem_cons_of_mem _ reads)) rfl,
        places_reference, before]
      omega

end Pass

section Parts

variable {part : Part} {k : Nat} {done : Text}

@[simp] theorem expand_nil (cap : Nat → Text) (upTo : Nat) : expand cap upTo [] = [] := rfl

@[simp] theorem expand_cons (cap : Nat → Text) (upTo : Nat) (part : Part) (whole : List Part) :
    expand cap upTo (part :: whole) = part.expand cap upTo ++ expand cap upTo whole := rfl

/-- The text before every reference with a digit does not end with a backslash. -/
def Unquoted (cap : Nat → Text) (digit : Nat) (done : Text) (whole : List Part) : Prop :=
  ∀ before quotes behind, whole = before ++ .reference quotes digit :: behind →
    trailing (done ++ expand cap digit before) = 0

theorem unquoted_reference : Unquoted cap digit done (.reference quotes digit :: whole) ↔
    trailing done = 0 ∧
      Unquoted cap digit (done ++ (Part.reference quotes digit).expand cap digit) whole := by
  constructor
  · intro clear
    constructor
    · simpa using clear [] quotes whole rfl
    · intro before quotes' behind same
      have all := clear (.reference quotes digit :: before) quotes' behind (by rw [same]; rfl)
      rwa [expand_cons, ← List.append_assoc] at all
  · intro clear before quotes' behind same
    cases before with
    | nil => simpa using clear.1
    | cons part before =>
        rw [List.cons_append, List.cons.injEq] at same
        obtain ⟨rfl, same⟩ := same
        rw [expand_cons, ← List.append_assoc]
        exact clear.2 before quotes' behind same

theorem unquoted_other (other : ∀ quotes, part ≠ .reference quotes digit) :
    Unquoted cap digit done (part :: whole) ↔
      Unquoted cap digit (done ++ part.expand cap digit) whole := by
  constructor
  · intro clear before quotes behind same
    have all := clear (part :: before) quotes behind (by rw [same]; rfl)
    rwa [expand_cons, ← List.append_assoc] at all
  · intro clear before quotes behind same
    cases before with
    | nil => exact absurd (List.cons.inj same).1 (other quotes)
    | cons first before =>
        rw [List.cons_append, List.cons.injEq] at same
        obtain ⟨rfl, same⟩ := same
        rw [expand_cons, ← List.append_assoc]
        exact clear before quotes behind same

theorem quotesOf_reference (quotes : Nat) (whole : List Part) :
    quotesOf digit (.reference quotes digit :: whole) = quotes :: quotesOf digit whole := by
  simp [quotesOf]

theorem quotesOf_other (other : ∀ quotes, part ≠ .reference quotes digit) :
    quotesOf digit (part :: whole) = quotesOf digit whole := by
  cases part with
  | plain text => rfl
  | reference quotes digit' =>
      have differs : digit' ≠ digit := fun same => other quotes (by rw [same])
      simp [quotesOf, differs]

theorem expand_other (other : ∀ quotes, part ≠ .reference quotes (k + 1)) :
    part.expand cap (k + 1) = part.expand cap k := by
  cases part with
  | plain text => rfl
  | reference quotes digit =>
      have differs : digit ≠ k + 1 := fun same => other quotes (by rw [same])
      have same : digit ≤ k + 1 ↔ digit ≤ k := by omega
      simp only [Part.expand, same]

theorem expand_reference (quotes : Nat) : (Part.reference quotes (k + 1)).expand cap k =
    List.replicate quotes '\\' ++ capRef (k + 1) := by
  simp [Part.expand]

/-- A reference is substituted if no more backslashes are before it than the string has. -/
theorem handled_reference (cap : Nat → Text) (k quotes : Nat) (clear : trailing done = 0) :
    handled (k + 1) (cap (k + 1)) (done ++ List.replicate quotes '\\') =
      done ++ (Part.reference quotes (k + 1)).expand cap (k + 1) := by
  have taken (count : Nat) (few : count ≤ quotes) :
      (done ++ List.replicate quotes '\\').take
        ((done ++ List.replicate quotes '\\').length - count) =
          done ++ List.replicate (quotes - count) '\\' := by
    rw [List.length_append, List.length_replicate, Nat.add_sub_assoc few, List.take_append,
      List.take_of_length_le (by omega), List.take_replicate]
    congr 2
    omega
  unfold handled
  rw [trailing_append_quotes, clear, Nat.zero_add, Part.expand, if_pos le_rfl]
  split
  next odd =>
    rw [taken _ (by omega), if_neg (by omega), List.append_assoc]
    congr 3
    omega
  next even =>
    rw [taken _ (by omega), if_pos (by omega), List.append_assoc]
    congr 3
    omega

theorem eq_reference_or (part : Part) (digit : Nat) :
    (∃ quotes, part = .reference quotes digit) ∨ ∀ quotes, part ≠ .reference quotes digit := by
  by_cases there : ∃ quotes, part = .reference quotes digit
  · exact .inl there
  · exact .inr fun quotes same => there ⟨quotes, same⟩

theorem append_expand_reference (front : Text) (quotes : Nat) (whole : List Part) :
    front ++ expand cap k (.reference quotes (k + 1) :: whole) =
      front ++ List.replicate quotes '\\' ++ (capRef (k + 1) ++ expand cap k whole) := by
  rw [expand_cons, expand_reference]
  simp only [List.append_assoc]

theorem length_quotesOf_le (cap : Nat → Text) (k : Nat) (front : Text) (whole : List Part) :
    (quotesOf (k + 1) whole).length ≤ places (k + 1) (front ++ expand cap k whole) := by
  induction whole generalizing front with
  | nil => exact Nat.zero_le _
  | cons part whole ih =>
      obtain ⟨quotes, rfl⟩ | other := eq_reference_or part (k + 1)
      · have behind := ih []
        rw [List.nil_append] at behind
        rw [quotesOf_reference, append_expand_reference, places_reference, List.length_cons]
        omega
      · rw [quotesOf_other other, expand_cons, ← List.append_assoc]
        exact ih _

/-- The pass for a digit reads the references as they are written exactly when the text before them
does not end with a backslash, and then it substitutes them. -/
theorem pass_iff (unwritten : Nat → Char) (done front : Text)
    (few : places (k + 1) (front ++ expand cap k whole) = (quotesOf (k + 1) whole).length)
    (free : quotesOf (k + 1) whole ≠ [] → '\x00' ∉ done ++ (front ++ expand cap k whole))
    (inserts : ∀ quotes ∈ quotesOf (k + 1) whole, quotes % 2 = 0 → '\x00' ∉ cap (k + 1)) :
    (readQuotes unwritten (capRef (k + 1)) (cap (k + 1)) (done ++ (front ++ expand cap k whole))
        done.length = quotesOf (k + 1) whole ↔ Unquoted cap (k + 1) (done ++ front) whole) ∧
      (Unquoted cap (k + 1) (done ++ front) whole →
        substituteCap unwritten (capRef (k + 1)) (cap (k + 1))
          (done ++ (front ++ expand cap k whole)) done.length =
            done ++ (front ++ expand cap (k + 1) whole)) := by
  induction whole generalizing done front with
  | nil =>
      have none : places (k + 1) (front ++ expand cap k []) = 0 := few
      have clear : Unquoted cap (k + 1) (done ++ front) [] := by
        intro before quotes behind same
        simp at same
      rw [readQuotes_none unwritten none, substituteCap_none unwritten none]
      exact ⟨⟨fun _ => clear, fun _ => rfl⟩, fun _ => rfl⟩
  | cons part whole ih =>
      obtain ⟨quotes, rfl⟩ | other := eq_reference_or part (k + 1)
      · rw [quotesOf_reference] at few free inserts ⊢
        rw [append_expand_reference] at few free ⊢
        rw [places_reference, List.length_cons] at few
        have more := length_quotesOf_le cap k [] whole
        rw [List.nil_append] at more
        have none : places (k + 1) (front ++ List.replicate quotes '\\') = 0 := by omega
        have there : trailing (done ++ (front ++ List.replicate quotes '\\')) =
            trailing (done ++ front) + quotes := by
          rw [← List.append_assoc, trailing_append_quotes]
        have zeroFree := free (List.cons_ne_nil _ _)
        rw [unquoted_reference]
        by_cases clear : trailing (done ++ front) = 0
        · rw [clear, Nat.zero_add] at there
          have even : trailing (done ++ (front ++ List.replicate quotes '\\')) % 2 = 0 →
              '\x00' ∉ cap (k + 1) := by
            rw [there]
            exact inserts quotes List.mem_cons_self
          have written := handled_reference cap k quotes clear
          rw [List.append_assoc done front (List.replicate _ _)] at written
          have behindFree : '\x00' ∉ done ++ front ++
              (Part.reference quotes (k + 1)).expand cap (k + 1) ++ expand cap k whole := by
            rw [← List.append_assoc, List.mem_append, not_or] at zeroFree
            rw [← written, List.mem_append, not_or]
            refine ⟨zero_notMem_handled _ zeroFree.1 even, fun member => zeroFree.2 ?_⟩
            exact List.mem_append_right _ member
          have behind := ih
            (done ++ front ++ (Part.reference quotes (k + 1)).expand cap (k + 1)) []
            (by rw [List.nil_append]; omega) (fun _ => behindFree)
            (fun quotes' member => inserts quotes' (List.mem_cons_of_mem _ member))
          rw [List.append_nil, List.nil_append, List.nil_append] at behind
          rw [readQuotes_reference unwritten zeroFree none even,
            substituteCap_reference unwritten zeroFree none even, there, written]
          simp only [List.cons.injEq, clear, true_and]
          rw [expand_cons, ← List.append_assoc, ← List.append_assoc]
          exact behind
        · obtain ⟨later, reads⟩ := readQuotes_head unwritten zeroFree none (cap (k + 1))
          rw [reads, there]
          refine ⟨⟨fun same => ?_, fun all => absurd all.1 clear⟩, fun all => absurd all.1 clear⟩
          have head := (List.cons.inj same).1
          omega
      · rw [quotesOf_other other] at few free inserts ⊢
        rw [unquoted_other other, expand_cons, expand_cons, expand_other other,
          ← List.append_assoc front, ← List.append_assoc front]
        rw [expand_cons, ← List.append_assoc front] at few free
        rw [List.append_assoc done]
        exact ih _ _ few free inserts

end Parts

section Replacement

variable {c : Char} {rep : Text} {k : Nat}

theorem digitOf_some (found : digitOf c = some digit) :
    digit.digitChar = c ∧ 1 ≤ digit ∧ digit ≤ 9 := by
  unfold digitOf at found
  have member := List.mem_of_find?_eq_some found
  have same := List.find?_some found
  rw [List.mem_range'_1] at member
  exact ⟨of_decide_eq_true same, member.1, by omega⟩

theorem digitOf_digitChar (positive : 1 ≤ digit) (small : digit ≤ 9) :
    digitOf digit.digitChar = some digit := by
  interval_cases digit <;> rfl

/-- The parts hold the whole string. -/
theorem expand_parts (cap : Nat → Text) (quotes : Nat) (text : Text) :
    expand cap 0 (parts quotes text) = List.replicate quotes '\\' ++ text := by
  fun_induction parts quotes text with
  | case1 quotes => simp [expand, Part.expand]
  | case2 quotes rest ih => rw [ih, List.replicate_succ', List.append_assoc]; rfl
  | case3 c rest other before digit found ih =>
      obtain ⟨rfl, positive, -⟩ := digitOf_some found
      rw [expand_cons, ih, Part.expand, if_neg (by omega), List.replicate_succ', capRef]
      simp
  | case4 quotes c rest other none ih =>
      rw [expand_cons, ih]
      simp [Part.expand]

theorem digit_of_mem_parts {start : Nat} (member : .reference quotes digit ∈ parts start text) :
    1 ≤ digit ∧ digit ≤ 9 := by
  fun_induction parts start text with
  | case1 start => simp at member
  | case2 start rest ih => exact ih member
  | case3 c rest other before found' found ih =>
      cases member with
      | head => exact (digitOf_some found).2
      | tail _ member => exact ih member
  | case4 start c rest other none ih =>
      cases member with
      | tail _ member => exact ih member

theorem places_quotes (quotes : Nat) (other : c ≠ '\\') (rest : Text) :
    places digit (List.replicate quotes '\\' ++ c :: rest) =
      (if quotes ≠ 0 ∧ c = digit.digitChar then 1 else 0) + places digit rest := by
  induction quotes with
  | zero => simp [places, capRef, List.isPrefixOf, other.symm]
  | succ quotes ih =>
      rw [List.replicate_succ, List.cons_append, places, ih]
      cases quotes with
      | zero => simp [capRef, List.isPrefixOf, eq_comm (a := c)]
      | succ quotes =>
          simp [capRef, List.isPrefixOf, List.replicate_succ, (digitChar_ne digit).1]

theorem places_parts (positive : 1 ≤ digit) (small : digit ≤ 9) (quotes : Nat) (text : Text) :
    places digit (List.replicate quotes '\\' ++ text) =
      (quotesOf digit (parts quotes text)).length := by
  fun_induction parts quotes text with
  | case1 quotes =>
      rw [List.append_nil, ← List.nil_append (List.replicate _ _), places_append_quotes]
      rfl
  | case2 quotes rest ih => rw [← ih, List.replicate_succ', List.append_assoc]; rfl
  | case3 c rest other before found' found ih =>
      obtain ⟨rfl, -⟩ := digitOf_some found
      rw [List.replicate_zero, List.nil_append] at ih
      rw [places_quotes _ other]
      by_cases same : found' = digit
      · subst same
        rw [quotesOf_reference, List.length_cons, ← ih, if_pos ⟨Nat.succ_ne_zero _, rfl⟩]
        exact Nat.add_comm _ _
      · have differs : found'.digitChar ≠ digit.digitChar := by
          intro equal
          rw [equal, digitOf_digitChar positive small] at found
          exact same (Option.some.inj found).symm
        rw [quotesOf_other (fun quotes => by simp [same]), ← ih,
          if_neg (fun both => differs both.2)]
        exact Nat.zero_add _
  | case4 quotes c rest other none ih =>
      have differs : ¬ (quotes ≠ 0 ∧ c = digit.digitChar) := by
        intro both
        obtain ⟨before, rfl⟩ := Nat.exists_eq_succ_of_ne_zero both.1
        exact none before digit rfl (by rw [both.2, digitOf_digitChar positive small])
      rw [places_quotes _ other, if_neg differs, Nat.zero_add]
      exact ih

theorem mem_quotesOf : quotes ∈ quotesOf digit whole ↔ .reference quotes digit ∈ whole := by
  unfold quotesOf
  rw [List.mem_filterMap]
  constructor
  · intro found
    obtain ⟨part, member, same⟩ := found
    cases part with
    | plain text => simp at same
    | reference quotes' digit' =>
        simp only [Option.ite_none_right_eq_some, Option.some.injEq] at same
        obtain ⟨rfl, rfl⟩ := same
        exact member
  · intro member
    exact ⟨_, member, by simp⟩

/-- No zero byte is in a replacement string with references or in a capture that it inserts. -/
def ZeroFree (cap : Nat → Text) (rep : Text) : Prop :=
  ∀ quotes digit, .reference quotes digit ∈ parts 0 rep →
    '\x00' ∉ rep ∧ (quotes % 2 = 0 → '\x00' ∉ cap digit)

theorem zero_notMem_expand (zeroFree : ZeroFree cap rep) (free : '\x00' ∉ rep) (upTo : Nat) :
    '\x00' ∉ expand cap upTo (parts 0 rep) := by
  have written := expand_parts cap 0 rep
  rw [List.replicate_zero, List.nil_append] at written
  rw [← written] at free
  unfold expand at free ⊢
  simp only [List.mem_flatMap, not_exists, not_and] at free ⊢
  intro part member
  cases part with
  | plain text => exact free _ member
  | reference quotes digit =>
      have inserts := (zeroFree quotes digit member).2
      have refFree : '\x00' ∉ capRef digit := by simp [capRef, (digitChar_ne digit).2.symm]
      rw [Part.expand]
      split
      · split
        next even => simp [inserts even]
        · simp [refFree]
      · simp [refFree]

/-- What the captures bring does not read as a reference, or as backslashes before one. -/
structure Undisturbed (cap : Nat → Text) (rep : Text) : Prop where
  quotes : ∀ before quotes digit behind,
    parts 0 rep = before ++ .reference quotes digit :: behind →
      (expand cap digit before).getLast? ≠ some '\\'
  references : ∀ k < 9, places (k + 1) (expand cap k (parts 0 rep)) = places (k + 1) rep

variable (unwritten : Nat → Char) (sub : List Match) (str : Text)

/-- The string of `substitute_caps` behind so many of its passes. -/
def substituted (rep : Text) : Nat → Text
  | 0 => rep
  | k + 1 =>
      substituteCap unwritten (capRef (k + 1)) (capture sub str (k + 1)) (substituted rep k) 0

/-- The result of `substitute_caps`, and the references that its passes find. -/
structure Simultaneous (rep : Text) : Prop where
  result : substitute_caps unwritten sub str rep = expand (capture sub str) 9 (parts 0 rep)
  reads : ∀ k < 9, readQuotes unwritten (capRef (k + 1)) (capture sub str (k + 1))
    (substituted unwritten sub str rep k) 0 = quotesOf (k + 1) (parts 0 rep)

variable {unwritten sub str} {cap : Nat → Text}

/-- The pass for a digit reads only the references of the string, since nothing reads as one. -/
def Clear (cap : Nat → Text) (rep : Text) (k : Nat) : Prop :=
  places (k + 1) (expand cap k (parts 0 rep)) = places (k + 1) rep ∧
    Unquoted cap (k + 1) [] (parts 0 rep)

theorem expand_rep (cap : Nat → Text) (rep : Text) : expand cap 0 (parts 0 rep) = rep :=
  expand_parts cap 0 rep

theorem expand_of_plain (plain : ∀ quotes digit, .reference quotes digit ∉ whole) :
    expand cap k whole = expand cap 0 whole := by
  induction whole with
  | nil => rfl
  | cons part whole ih =>
      rw [expand_cons, expand_cons, ih fun quotes digit member =>
        plain quotes digit (List.mem_cons_of_mem _ member)]
      cases part with
      | plain text => rfl
      | reference quotes digit => exact absurd List.mem_cons_self (plain quotes digit)

theorem length_quotesOf_parts (small : k < 9) (rep : Text) :
    (quotesOf (k + 1) (parts 0 rep)).length = places (k + 1) rep :=
  (places_parts (Nat.succ_pos k) small 0 rep).symm

theorem ZeroFree.inserts (zeroFree : ZeroFree cap rep) (digit : Nat) :
    ∀ quotes ∈ quotesOf digit (parts 0 rep), quotes % 2 = 0 → '\x00' ∉ cap digit := by
  intro quotes member
  exact (zeroFree quotes digit (mem_quotesOf.mp member)).2

theorem ZeroFree.expand_free (zeroFree : ZeroFree cap rep) (upTo : Nat) {digit : Nat}
    (some_ : quotesOf digit (parts 0 rep) ≠ []) : '\x00' ∉ expand cap upTo (parts 0 rep) := by
  obtain ⟨quotes, member⟩ := List.exists_mem_of_ne_nil _ some_
  exact zero_notMem_expand zeroFree (zeroFree quotes digit (mem_quotesOf.mp member)).1 upTo

section Passes

variable (zeroFree : ZeroFree (capture sub str) rep) (small : k < 9)
  (same : substituted unwritten sub str rep k = expand (capture sub str) k (parts 0 rep))
include zeroFree small same

theorem substituted_succ (clear : Clear (capture sub str) rep k) :
    substituted unwritten sub str rep (k + 1) =
      expand (capture sub str) (k + 1) (parts 0 rep) := by
  rw [substituted, same]
  exact (pass_iff unwritten [] []
    (clear.1.trans (length_quotesOf_parts small rep).symm) (zeroFree.expand_free k)
    (zeroFree.inserts (k + 1))).2 clear.2

theorem places_of_reads
    (reads : readQuotes unwritten (capRef (k + 1)) (capture sub str (k + 1))
      (substituted unwritten sub str rep k) 0 = quotesOf (k + 1) (parts 0 rep)) :
    places (k + 1) (expand (capture sub str) k (parts 0 rep)) = places (k + 1) rep := by
  by_cases some_ : ∃ quotes digit, .reference quotes digit ∈ parts 0 rep
  · obtain ⟨quotes, digit, member⟩ := some_
    have free := zero_notMem_expand zeroFree (zeroFree quotes digit member).1 k
    rw [same] at reads
    rw [← length_quotesOf_parts small rep, ← reads]
    refine (length_readQuotes unwritten [] _ free fun zero quotes member => ?_).symm
    by_contra even
    exact zeroFree.inserts (k + 1) quotes (reads ▸ member) (by omega) zero
  · rw [expand_of_plain (fun quotes digit member => some_ ⟨quotes, digit, member⟩), expand_rep]

theorem reads_iff :
    readQuotes unwritten (capRef (k + 1)) (capture sub str (k + 1))
        (substituted unwritten sub str rep k) 0 = quotesOf (k + 1) (parts 0 rep) ↔
      Clear (capture sub str) rep k := by
  have pass (few : places (k + 1) (expand (capture sub str) k (parts 0 rep)) =
      places (k + 1) rep) := pass_iff unwritten [] []
        (few.trans (length_quotesOf_parts small rep).symm) (zeroFree.expand_free k)
        (zeroFree.inserts (k + 1))
  constructor
  · intro reads
    have few := places_of_reads zeroFree small same reads
    rw [same] at reads
    exact ⟨few, (pass few).1.mp reads⟩
  · intro clear
    rw [same]
    exact (pass clear.1).1.mpr clear.2

end Passes

theorem substituted_eq (unwritten : Nat → Char) (zeroFree : ZeroFree (capture sub str) rep)
    (small : k ≤ 9) (clear : ∀ j < k, Clear (capture sub str) rep j) :
    substituted unwritten sub str rep k = expand (capture sub str) k (parts 0 rep) := by
  induction k with
  | zero => exact (expand_rep _ rep).symm
  | succ k ih =>
      have same := ih (by omega) fun j less => clear j (by omega)
      exact substituted_succ zeroFree small same (clear k k.lt_succ_self)

theorem substitute_caps_eq (rep : Text) :
    substitute_caps unwritten sub str rep = substituted unwritten sub str rep 9 := by
  rfl

/-- The nine passes substitute all references at once exactly when all of them are clear. -/
theorem simultaneous_iff_clear (zeroFree : ZeroFree (capture sub str) rep) :
    Simultaneous unwritten sub str rep ↔ ∀ k < 9, Clear (capture sub str) rep k := by
  constructor
  · intro all k
    induction k using Nat.strong_induction_on with
    | _ k ih =>
        intro small
        have same := substituted_eq unwritten zeroFree small.le
          fun j less => ih j less (by omega)
        exact (reads_iff zeroFree small same).mp (all.reads k small)
  · intro clear
    constructor
    · rw [substitute_caps_eq, substituted_eq unwritten zeroFree le_rfl clear]
    · intro k small
      have same := substituted_eq unwritten zeroFree small.le
        fun j less => clear j (by omega)
      exact (reads_iff zeroFree small same).mpr (clear k small)

theorem undisturbed_iff_clear :
    Undisturbed cap rep ↔ ∀ k < 9, Clear cap rep k := by
  constructor
  · intro undisturbed k small
    refine ⟨undisturbed.references k small, fun before quotes behind same => ?_⟩
    rw [List.nil_append, trailing_eq_zero_iff]
    exact undisturbed.quotes before quotes (k + 1) behind same
  · intro clear
    constructor
    · intro before quotes digit behind same
      have there : .reference quotes digit ∈ parts 0 rep := by simp [same]
      obtain ⟨positive, small⟩ := digit_of_mem_parts there
      obtain ⟨k, rfl⟩ := Nat.exists_eq_succ_of_ne_zero (Nat.ne_of_gt positive)
      have unquoted := (clear k (by omega)).2 before quotes behind same
      rwa [List.nil_append, trailing_eq_zero_iff] at unquoted
    · exact fun k small => (clear k small).1

section Lengths

variable {res inserted : Text} {fromIndex pos : Nat}

/-- The length that a reference with these backslashes gets. -/
def lengthWritten (inserted : Text) (quotes : Nat) : Nat :=
  quotes / 2 + if quotes % 2 = 0 then inserted.length else 2

theorem zero_notMem_of_length (text : Text) (same : text.length ≤ (cString text).length) :
    '\x00' ∉ text := by
  rw [← cString_eq_iff]
  exact (List.takeWhile_sublist _).eq_of_length_le same

/-- The place of a reference that is found, and the text that was searched before it. -/
theorem indexOf_place (found : indexOf res (capRef digit) fromIndex = some pos) :
    pos + 2 ≤ res.length ∧ '\x00' ∉ (res.drop fromIndex).take (pos + 2 - fromIndex) := by
  unfold indexOf at found
  split at found
  next inside =>
    obtain ⟨distance, there, rfl⟩ := Option.map_eq_some_iff.mp found
    rw [cString_capRef] at there
    obtain ⟨front, rest, searched, rfl, -⟩ := strstr_eq_some (by simp [capRef]) there
    have size : (front ++ capRef digit).length = fromIndex + front.length + 2 - fromIndex := by
      simp only [capRef, List.length_append, List.length_cons, List.length_nil]
      omega
    have starts : front ++ capRef digit <+: res.drop fromIndex :=
      (List.prefix_append _ rest).trans (searched ▸ List.takeWhile_prefix _)
    have short := starts.length_le
    rw [size, List.length_drop] at short
    refine ⟨by omega, ?_⟩
    rw [← size, ← List.prefix_iff_eq_take.mp starts]
    intro member
    apply zero_notMem_cString (res.drop fromIndex)
    rw [searched]
    exact List.mem_append_left rest member
  · cases found

/-- One substitution writes no more than it should, and less if it meets a zero byte. -/
theorem length_substituteAt (unwritten : Nat → Char) (inserted : Text)
    (found : indexOf res (capRef digit) fromIndex = some pos) :
    (substituteAt unwritten inserted res pos).1.length + (countQuotes res pos + 2) ≤
        res.length + lengthWritten inserted (countQuotes res pos) ∧
      ((substituteAt unwritten inserted res pos).1.length + (countQuotes res pos + 2) =
          res.length + lengthWritten inserted (countQuotes res pos) →
        '\x00' ∉ res.drop (pos + 2) ∧ (countQuotes res pos % 2 = 0 → '\x00' ∉ inserted)) := by
  have inside := (indexOf_place found).1
  have few := countQuotes_le res pos
  unfold substituteAt lengthWritten
  generalize countQuotes res pos = quotes at few ⊢
  dsimp only
  split
  next odd =>
    have behind := cString_length_le (res.drop pos)
    have size := List.length_drop (l := res) (i := pos)
    rw [if_neg (by omega), erase, if_neg (by omega), concat_length, substring, List.drop_zero,
      List.length_take, Nat.sub_add_cancel (by omega)]
    constructor
    · omega
    · intro same
      have free := zero_notMem_of_length (res.drop pos) (by omega)
      refine ⟨fun member => free ?_, fun even => absurd even (by omega)⟩
      rw [← List.drop_drop] at member
      exact List.mem_of_mem_drop member
  next even =>
    have behind := cString_length_le (res.drop (pos + 2))
    have size := List.length_drop (l := res) (i := pos + 2)
    have short := cString_length_le inserted
    rw [if_pos (by omega), concat_length, concat_length, substring, List.drop_zero,
      List.length_take]
    constructor
    · omega
    · intro same
      exact ⟨zero_notMem_of_length _ (by omega), fun _ => zero_notMem_of_length _ (by omega)⟩

theorem substituteCap_of_none {cap_ref : Text} (found : indexOf res cap_ref fromIndex = none) :
    substituteCap unwritten cap_ref inserted res fromIndex = res := by
  unfold substituteCap
  split
  · rfl
  next there => simp [found] at there

theorem substituteCap_of_some {cap_ref : Text} (found : indexOf res cap_ref fromIndex = some pos) :
    substituteCap unwritten cap_ref inserted res fromIndex =
      substituteCap unwritten cap_ref inserted (substituteAt unwritten inserted res pos).1
        (substituteAt unwritten inserted res pos).2 := by
  conv_lhs => unfold substituteCap
  split
  next missing => simp [found] at missing
  next there =>
    obtain rfl := Option.some.inj (found.symm.trans there)
    rfl

/-- What the references that are read took up, and what is written for them. -/
theorem length_substituteCap_le (unwritten : Nat → Char) (digit : Nat) (inserted res : Text)
    (fromIndex : Nat) :
    (substituteCap unwritten (capRef digit) inserted res fromIndex).length +
        ((readQuotes unwritten (capRef digit) inserted res fromIndex).map (· + 2)).sum ≤
      res.length + ((readQuotes unwritten (capRef digit) inserted res fromIndex).map
        (lengthWritten inserted)).sum := by
  fun_induction readQuotes unwritten (capRef digit) inserted res fromIndex with
  | case1 res fromIndex missing => rw [substituteCap_of_none missing]; rfl
  | case2 res fromIndex pos found ih =>
      have step := (length_substituteAt unwritten inserted found).1
      rw [substituteCap_of_some found]
      simp only [List.map_cons, List.sum_cons]
      omega

/-- A pass that writes all that it should has met no zero byte. -/
theorem zero_notMem_of_substituteCap (res : Text) (fromIndex : Nat)
    (same : (substituteCap unwritten (capRef digit) inserted res fromIndex).length +
        ((readQuotes unwritten (capRef digit) inserted res fromIndex).map (· + 2)).sum =
      res.length + ((readQuotes unwritten (capRef digit) inserted res fromIndex).map
        (lengthWritten inserted)).sum) :
    (∀ quotes ∈ readQuotes unwritten (capRef digit) inserted res fromIndex,
      quotes % 2 = 0 → '\x00' ∉ inserted) ∧
    (readQuotes unwritten (capRef digit) inserted res fromIndex ≠ [] →
      '\x00' ∉ res.drop fromIndex) := by
  fun_induction readQuotes unwritten (capRef digit) inserted res fromIndex with
  | case1 res fromIndex missing => simp
  | case2 res fromIndex pos found ih =>
      have step := length_substituteAt unwritten inserted found
      have later := length_substituteCap_le unwritten digit inserted
        (substituteAt unwritten inserted res pos).1
        (substituteAt unwritten inserted res pos).2
      rw [substituteCap_of_some found] at same
      simp only [List.map_cons, List.sum_cons] at same
      obtain ⟨behind, even⟩ := step.2 (by omega)
      constructor
      · intro quotes member
        cases member with
        | head => exact even
        | tail _ member => exact (ih (by omega)).1 quotes member
      · intro _ member
        have before := (indexOf_place found).2
        rw [← List.take_append_drop (pos + 2 - fromIndex) (res.drop fromIndex),
          List.mem_append, List.drop_drop] at member
        obtain inside | outside := member
        · exact before inside
        · have start := (indexOf_range found).2
          rw [Nat.add_sub_cancel' (by omega)] at outside
          exact behind outside

/-- The same change of the length for the string that the pass should give. -/
theorem length_expand (cap : Nat → Text) (k : Nat) (whole : List Part) :
    (expand cap (k + 1) whole).length + ((quotesOf (k + 1) whole).map (· + 2)).sum =
      (expand cap k whole).length +
        ((quotesOf (k + 1) whole).map (lengthWritten (cap (k + 1)))).sum := by
  induction whole with
  | nil => rfl
  | cons part whole ih =>
      obtain ⟨quotes, rfl⟩ | other := eq_reference_or part (k + 1)
      · have size : ((Part.reference quotes (k + 1)).expand cap (k + 1)).length =
            lengthWritten (cap (k + 1)) quotes := by
          rw [Part.expand, if_pos le_rfl, List.length_append, List.length_replicate, lengthWritten]
          split <;> rfl
        rw [quotesOf_reference, expand_cons, expand_cons, expand_reference]
        simp only [List.length_append, List.length_replicate, List.map_cons, List.sum_cons, size,
          capRef, List.length_cons, List.length_nil]
        omega
      · rw [quotesOf_other other, expand_cons, expand_cons, expand_other other, List.length_append,
          List.length_append]
        omega

section Reads

variable (all : Simultaneous unwritten sub str rep)
include all

theorem length_substituted_le (small : k ≤ 9) :
    (substituted unwritten sub str rep k).length ≤
      (expand (capture sub str) k (parts 0 rep)).length := by
  induction k with
  | zero => rw [expand_rep]; rfl
  | succ k ih =>
      have pass := length_substituteCap_le unwritten (k + 1) (capture sub str (k + 1))
        (substituted unwritten sub str rep k) 0
      have whole := length_expand (capture sub str) k (parts 0 rep)
      have before := ih (by omega)
      rw [all.reads k (by omega)] at pass
      rw [substituted]
      omega

/-- The length of the result is right, so that of the string is right behind every pass. -/
theorem length_substituted (small : k ≤ 9) :
    (substituted unwritten sub str rep k).length =
      (expand (capture sub str) k (parts 0 rep)).length := by
  induction small using Nat.decreasingInduction with
  | self => rw [← all.result, substitute_caps_eq]
  | of_succ k small ih =>
      have pass := length_substituteCap_le unwritten (k + 1) (capture sub str (k + 1))
        (substituted unwritten sub str rep k) 0
      have whole := length_expand (capture sub str) k (parts 0 rep)
      have before := length_substituted_le all small.le
      rw [all.reads k small] at pass
      rw [substituted] at ih
      omega

theorem zero_notMem_of_reads (small : k < 9) :
    (∀ quotes ∈ quotesOf (k + 1) (parts 0 rep), quotes % 2 = 0 →
      '\x00' ∉ capture sub str (k + 1)) ∧
    (quotesOf (k + 1) (parts 0 rep) ≠ [] → '\x00' ∉ substituted unwritten sub str rep k) := by
  have whole := length_expand (capture sub str) k (parts 0 rep)
  rw [← length_substituted all small, ← length_substituted all small.le, substituted,
    ← all.reads k small] at whole
  have free := zero_notMem_of_substituteCap _ _ whole
  rwa [all.reads k small, List.drop_zero] at free

end Reads

end Lengths

/-- Nothing is read before the pass for the lowest reference. -/
theorem substituted_eq_rep (none : ∀ j < k, quotesOf (j + 1) (parts 0 rep) = []) (small : k ≤ 9) :
    substituted unwritten sub str rep k = rep := by
  induction k with
  | zero => rfl
  | succ k ih =>
      have before := ih (fun j less => none j (by omega)) (by omega)
      have nowhere : places (k + 1) rep = 0 := by
        rw [← length_quotesOf_parts small rep, none k k.lt_succ_self, List.length_nil]
      rw [substituted, before]
      change substituteCap unwritten _ _ ([] ++ rep) ([] : Text).length = [] ++ rep
      exact substituteCap_none unwritten nowhere

/-- A simultaneous substitution meets no zero byte, since each one that it met would cost a part of
the string. -/
theorem Simultaneous.zeroFree (all : Simultaneous unwritten sub str rep) :
    ZeroFree (capture sub str) rep := by
  intro quotes digit member
  obtain ⟨positive, small⟩ := digit_of_mem_parts member
  obtain ⟨k, rfl⟩ := Nat.exists_eq_succ_of_ne_zero (Nat.ne_of_gt positive)
  have here := mem_quotesOf.mpr member
  have some_ : ∃ j, quotesOf (j + 1) (parts 0 rep) ≠ [] := ⟨k, List.ne_nil_of_mem here⟩
  have lowest : Nat.find some_ ≤ k := Nat.find_min' some_ (List.ne_nil_of_mem here)
  have free := (zero_notMem_of_reads all (by omega)).2 (Nat.find_spec some_)
  rw [substituted_eq_rep (fun j less => not_not.mp (Nat.find_min some_ less)) (by omega)] at free
  exact ⟨free, (zero_notMem_of_reads all small).1 quotes here⟩

/-- For every replacement string and all captures: the nine passes substitute the references of the
string at once, and read no others, exactly when no zero byte is met and the captures bring nothing
that reads as a reference. -/
theorem substitute_caps_simultaneous_iff (unwritten : Nat → Char) (sub : List Match)
    (str rep : Text) : Simultaneous unwritten sub str rep ↔
      ZeroFree (capture sub str) rep ∧ Undisturbed (capture sub str) rep := by
  constructor
  · intro all
    have zeroFree := all.zeroFree
    exact ⟨zeroFree, undisturbed_iff_clear.mpr ((simultaneous_iff_clear zeroFree).mp all)⟩
  · intro clear
    exact (simultaneous_iff_clear clear.1).mpr (undisturbed_iff_clear.mp clear.2)

theorem parts_first : parts 0 ['\\', '1'] = [.reference 0 1, .plain []] := by decide

theorem zeroFree_first (free : '\x00' ∉ cap 1) : ZeroFree cap ['\\', '1'] := by
  intro quotes digit member
  rw [parts_first] at member
  simp only [List.mem_cons, Part.reference.injEq, reduceCtorEq, List.not_mem_nil,
    or_false] at member
  obtain ⟨rfl, rfl⟩ := member
  exact ⟨by decide, fun _ => free⟩

/-- A reference to a capture that is the letter `a`. -/
theorem substitute_caps_letter :
    Simultaneous (fun _ => ' ') [⟨0, 1⟩, ⟨0, 1⟩] ['a'] ['\\', '1'] := by
  apply (substitute_caps_simultaneous_iff _ _ _ _).mpr
  constructor
  · exact zeroFree_first (by decide)
  constructor
  · intro before quotes digit behind same
    rw [parts_first] at same
    cases before with
    | nil => simp
    | cons first before =>
        have member : .reference quotes digit ∈ [Part.plain []] := by
          rw [(List.cons.inj same).2]
          simp
        simp at member
  · decide

/-- The passes behind do nothing with a text without references. -/
theorem substituted_stays {start : Nat} (unwritten : Nat → Char) (sub : List Match)
    (str rep : Text) (text : Text) (now : substituted unwritten sub str rep start = text)
    (none : ∀ j < 9, places (j + 1) text = 0) (behind : start ≤ k) (small : k ≤ 9) :
    substituted unwritten sub str rep k = text := by
  induction k, behind using Nat.le_induction with
  | base => exact now
  | succ k behind ih =>
      rw [substituted, ih (by omega)]
      change substituteCap unwritten _ _ ([] ++ text) ([] : Text).length = [] ++ text
      exact substituteCap_none unwritten (none k (by omega))

/-- A text that is only a reference becomes the capture. -/
theorem substituteCap_alone (unwritten : Nat → Char) (digit : Nat) {inserted : Text}
    (free : '\x00' ∉ inserted) :
    substituteCap unwritten (capRef digit) inserted (capRef digit) 0 = inserted := by
  have refFree : '\x00' ∉ capRef digit := by simp [capRef, (digitChar_ne digit).2.symm]
  have alone : substituteCap unwritten (capRef digit) inserted ([] ++ ([] ++ (capRef digit ++ [])))
      ([] : Text).length = substituteCap unwritten (capRef digit) inserted
        (handled digit inserted ([] ++ []) ++ []) (handled digit inserted ([] ++ [])).length :=
    substituteCap_reference unwritten (by simpa using refFree) rfl fun _ => free
  have becomes : handled digit inserted ([] ++ []) = inserted := by simp [handled, trailing]
  rw [becomes] at alone
  have stays : substituteCap unwritten (capRef digit) inserted (inserted ++ []) inserted.length =
      inserted ++ [] := substituteCap_none unwritten rfl
  rw [stays] at alone
  simpa using alone

/-- The first capture is the text `\2`, which the next pass takes for a reference. -/
theorem substitute_caps_takes_capture :
    ZeroFree (capture [⟨0, 3⟩, ⟨0, 2⟩, ⟨2, 3⟩] ['\\', '2', 'x']) ['\\', '1'] ∧
    substitute_caps (fun _ => ' ') [⟨0, 3⟩, ⟨0, 2⟩, ⟨2, 3⟩] ['\\', '2', 'x'] ['\\', '1'] = ['x'] ∧
    expand (capture [⟨0, 3⟩, ⟨0, 2⟩, ⟨2, 3⟩] ['\\', '2', 'x']) 9 (parts 0 ['\\', '1']) =
      ['\\', '2'] ∧
    ¬ Simultaneous (fun _ => ' ') [⟨0, 3⟩, ⟨0, 2⟩, ⟨2, 3⟩] ['\\', '2', 'x'] ['\\', '1'] := by
  have first : substituted (fun _ => ' ') [⟨0, 3⟩, ⟨0, 2⟩, ⟨2, 3⟩] ['\\', '2', 'x'] ['\\', '1'] 1 =
      ['\\', '2'] := substituteCap_alone _ 1 (by decide)
  have second : substituted (fun _ => ' ') [⟨0, 3⟩, ⟨0, 2⟩, ⟨2, 3⟩] ['\\', '2', 'x'] ['\\', '1'] 2 =
      ['x'] := by
    rw [substituted, first]
    exact substituteCap_alone _ 2 (by decide)
  have returned : substitute_caps (fun _ => ' ') [⟨0, 3⟩, ⟨0, 2⟩, ⟨2, 3⟩] ['\\', '2', 'x']
      ['\\', '1'] = ['x'] :=
    substituted_stays _ _ _ _ _ second (by decide) (by decide) le_rfl
  refine ⟨zeroFree_first (by decide), returned, by decide, fun all => ?_⟩
  have same := returned.symm.trans all.result
  revert same
  decide

end Replacement

end Blocxx.RegEx
