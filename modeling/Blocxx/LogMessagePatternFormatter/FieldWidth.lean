import Blocxx.LogMessagePatternFormatter.Specifier

/-!
This file proves for which specifiers and texts a field of a log message has its widths.
-/

namespace Blocxx.LogMessagePatternFormatter

open Time CharString Library

namespace Specifier

variable (specifier : Specifier)

def Ordered : Prop := ∀ lo ∈ specifier.lo, ∀ hi ∈ specifier.hi, lo ≤ hi

/-- The text is cut on the side that the dashes say. -/
def cut (hi : Int) (text : Text) : Text :=
  if specifier.left then text.take hi.toNat else text.drop (text.length - hi.toNat)

/-- A text gets the spaces for a text of the length on the side that the dashes say. -/
def pad (lo : Int) (length : Nat) (text : Text) : Text :=
  let spaces := List.replicate (lo.toNat - length) ' '
  if specifier.left then text ++ spaces else spaces ++ text

/-- The field of a text is as the specifier says. -/
structure FieldOf (text field : Text) : Prop where
  least : ∀ lo ∈ specifier.lo, lo ≤ field.length
  most : ∀ hi ∈ specifier.hi, field.length ≤ hi
  within : (∀ lo ∈ specifier.lo, lo ≤ text.length) → (∀ hi ∈ specifier.hi, text.length ≤ hi) →
    field = text
  padded : ∀ lo ∈ specifier.lo, text.length < lo → field = specifier.pad lo text.length text
  truncated : ∀ hi ∈ specifier.hi, hi < text.length → field = specifier.cut hi text

/-- The part of the text that the field shows. -/
def shown (text : Text) : Text :=
  match specifier.hi with
  | some hi => if hi < text.length then specifier.cut hi text else text
  | none => text

/-- The length of the text is held by an `int`, or the `int` that is left of it leads to the same
field. -/
def Held (text : Text) : Prop :=
  text.length < 2 ^ 31 ∨
    if specifier.hi = none then ∀ lo ∈ specifier.lo, lo ≤ wrap32 text.length
    else specifier.left ∧ ∀ hi ∈ specifier.hi, hi < wrap32 text.length

/-- The formatter brings the text to the widths of the specifier. -/
def Formats (text : Text) : Prop :=
  specifier.Fits ∧ (specifier.Ordered → specifier.Held text ∧
    (specifier.formatting.minWidth = NO_MIN_WIDTH ∧
      specifier.formatting.maxWidth = NO_MAX_WIDTH ∨ ZerosLast (specifier.shown text)))

end Specifier

/-- A specifier whose numerals fit gives the field of each text, and the others are rejected. -/
def Parser.Formats (equalsIgnoreCase : Text → Text → Bool) (pattern : Text) (parser : Parser)
    (specifier : Specifier) (environment : Environment) (message : LogMessage) (output : Text) :
    Prop :=
  (¬ specifier.Fits → parser.Rejects equalsIgnoreCase pattern) ∧
    (specifier.Fits → specifier.Ordered → ∃ converter,
      parser.Makes equalsIgnoreCase pattern converter ∧ ∃ field,
        converter.formatMessage environment message output = some (output ++ field) ∧
          specifier.FieldOf (converter.convert environment message []) field)

section Fields

variable {specifier : Specifier} {text field : Text}

theorem width_nonneg {digits : Text} (all : ∀ c ∈ digits, isDigit c = true) {width : Int}
    (given : width ∈ Specifier.width digits) : 0 ≤ width := by
  unfold Specifier.width at given
  split at given
  · cases given
  · obtain rfl := Option.some.inj given
    exact (digitsValue_bounds all).1

theorem length_cut (specifier : Specifier) {hi : Int} (positive : 0 ≤ hi) (less : hi < text.length) :
    ((specifier.cut hi text).length : Int) = hi := by
  unfold Specifier.cut
  split
  · rw [List.length_take]
    omega
  · rw [List.length_drop]
    omega

theorem length_pad (specifier : Specifier) (lo : Int) (length : Nat) (text : Text) :
    (specifier.pad lo length text).length = text.length + (lo.toNat - length) := by
  unfold Specifier.pad
  split
  · simp
  · simp [Nat.add_comm]

theorem pad_of_le {lo : Int} {length : Nat} (enough : lo ≤ length) (text : Text) :
    specifier.pad lo length text = text := by
  have none : lo.toNat - length = 0 := by omega
  simp [Specifier.pad, none]

theorem pad_inj {lo : Int} {length : Nat} {first second : Text} :
    specifier.pad lo length first = specifier.pad lo length second ↔ first = second := by
  unfold Specifier.pad
  split
  · exact List.append_left_inj _
  · exact List.append_right_inj _

theorem shown_of_lt {hi : Int} (given : specifier.hi = some hi) (less : hi < text.length) :
    specifier.shown text = specifier.cut hi text := by
  rw [Specifier.shown, given]
  exact if_pos less

theorem shown_of_le (enough : ∀ hi ∈ specifier.hi, (text.length : Int) ≤ hi) :
    specifier.shown text = text := by
  unfold Specifier.shown
  cases given : specifier.hi with
  | none => rfl
  | some hi => exact if_neg (not_lt.mpr (enough hi given))

theorem lo_le_of_long (ordered : specifier.Ordered) {hi : Int} (given : specifier.hi = some hi)
    {length : Nat} (long : hi < length) : specifier.lo.getD 0 ≤ length := by
  cases min : specifier.lo with
  | none => exact Int.natCast_nonneg _
  | some lo => exact (ordered lo min hi given).trans long.le

/-- The field is the shown part of the text with spaces. -/
theorem fieldOf_iff (ordered : specifier.Ordered) : specifier.FieldOf text field ↔
    field = specifier.pad (specifier.lo.getD 0) text.length (specifier.shown text) := by
  by_cases long : ∃ hi ∈ specifier.hi, hi < text.length
  · obtain ⟨hi, given, less⟩ := long
    rw [shown_of_lt given less, pad_of_le (lo_le_of_long ordered given less)]
    constructor
    · exact fun fieldOf => fieldOf.truncated hi given less
    · rintro rfl
      have length := length_cut specifier (width_nonneg specifier.maxDigits given) less
      have only {other : Int} (member : other ∈ specifier.hi) : other = hi :=
        Option.mem_unique member given
      exact {
        least := fun lo min => (ordered lo min hi given).trans length.ge
        most := fun other member => by rw [only member, length]
        within := fun _ most => absurd less (not_lt.mpr (most hi given))
        padded := fun lo min more => by
          have order := ordered lo min hi given
          omega
        truncated := fun other member _ => by rw [only member] }
  · push Not at long
    rw [shown_of_le long]
    constructor
    · intro fieldOf
      cases min : specifier.lo with
      | none =>
          rw [Option.getD_none, pad_of_le (Int.natCast_nonneg _)]
          exact fieldOf.within (fun lo member => by rw [min] at member; cases member) long
      | some lo =>
          by_cases short : (text.length : Int) < lo
          · exact fieldOf.padded lo min short
          · rw [Option.getD_some, pad_of_le (not_lt.mp short)]
            refine fieldOf.within (fun other member => ?_) long
            rw [Option.mem_unique member min]
            exact not_lt.mp short
    · rintro rfl
      have length := length_pad specifier (specifier.lo.getD 0) text.length text
      have only {lo : Int} (member : lo ∈ specifier.lo) : specifier.lo.getD 0 = lo := by
        rw [Option.mem_def.mp member, Option.getD_some]
      exact {
        least := fun lo member => by
          rw [only member] at length ⊢
          omega
        most := fun hi member => by
          have most := long hi member
          rw [length]
          cases min : specifier.lo with
          | none =>
              rw [Option.getD_none]
              omega
          | some lo =>
              have order := ordered lo min hi member
              rw [Option.getD_some]
              omega
        within := fun least _ => by
          refine pad_of_le ?_ text
          cases min : specifier.lo with
          | none => exact Int.natCast_nonneg _
          | some lo => exact least lo min
        padded := fun lo member _ => by rw [only member]
        truncated := fun hi member less => absurd less (not_lt.mpr (long hi member)) }

end Fields

section Formatted

variable {specifier : Specifier} {text output : Text}

theorem wrap32_width {digits : Text} (all : ∀ c ∈ digits, isDigit c = true)
    (fits : ∀ width ∈ Specifier.width digits, width < 2 ^ 31) (other : Int) :
    ((Specifier.width digits).map wrap32).getD other = (Specifier.width digits).getD other := by
  cases given : Specifier.width digits with
  | none => rfl
  | some width =>
      have positive := width_nonneg all given
      have small := fits width given
      exact wrap32_of_fits ⟨by omega, small⟩

theorem minWidth_eq (fits : specifier.Fits) :
    specifier.formatting.minWidth = specifier.lo.getD NO_MIN_WIDTH :=
  wrap32_width specifier.minDigits fits.1 _

theorem maxWidth_eq (fits : specifier.Fits) :
    specifier.formatting.maxWidth = specifier.hi.getD NO_MAX_WIDTH :=
  wrap32_width specifier.maxDigits fits.2 _

theorem leftJustify_iff :
    specifier.formatting.justification = .leftJustify ↔ specifier.left := by
  unfold Specifier.formatting Specifier.left
  by_cases none : specifier.dashes = 0 <;> simp [none]

/-- The bounds of the minimum width that the formatter uses. -/
theorem minWidth_cases (fits : specifier.Fits) :
    specifier.lo = none ∧ specifier.formatting.minWidth = -1 ∨
      ∃ lo, specifier.lo = some lo ∧ specifier.formatting.minWidth = lo ∧ 0 ≤ lo ∧ lo < 2 ^ 31 := by
  rw [minWidth_eq fits]
  cases given : specifier.lo with
  | none => exact .inl ⟨rfl, rfl⟩
  | some lo => exact .inr ⟨lo, rfl, rfl, width_nonneg specifier.minDigits given, fits.1 lo given⟩

theorem maxWidth_cases (fits : specifier.Fits) :
    specifier.hi = none ∧ specifier.formatting.maxWidth = 2 ^ 31 - 1 ∨
      ∃ hi, specifier.hi = some hi ∧ specifier.formatting.maxWidth = hi ∧ 0 ≤ hi ∧ hi < 2 ^ 31 := by
  rw [maxWidth_eq fits]
  cases given : specifier.hi with
  | none => exact .inl ⟨rfl, rfl⟩
  | some hi => exact .inr ⟨hi, rfl, rfl, width_nonneg specifier.maxDigits given, fits.2 hi given⟩

theorem size_of_nonneg {value : Int} (positive : 0 ≤ value) (small : value < 2 ^ 64) :
    size value = value.toNat := by
  rw [size, Int.emod_eq_of_lt positive small]

theorem spaces_of_nonneg {count : Int} (positive : 0 ≤ count) :
    spaces count = some (List.replicate count.toNat ' ') := if_pos positive

/-- A text that is longer than the maximum is cut. -/
theorem appendField_long (fits : specifier.Fits) {hi : Int} (given : specifier.hi = some hi)
    (small : text.length < 2 ^ 31) (long : hi < text.length) :
    specifier.formatting.appendField output text =
      some (appendString output (specifier.cut hi text)) := by
  have positive := width_nonneg specifier.maxDigits given
  have maxWidth : specifier.formatting.maxWidth = hi := by
    rw [maxWidth_eq fits, given, Option.getD_some]
  have len : wrap32 text.length = text.length := wrap32_of_fits ⟨by omega, by omega⟩
  have rest : wrap32 ((text.length : Int) - hi) = text.length - hi :=
    wrap32_of_fits ⟨by omega, by omega⟩
  unfold Formatting.appendField Specifier.cut
  dsimp only
  rw [if_neg (show text.length ≠ 0 by omega), len, maxWidth, if_pos long, rest,
    size_of_nonneg positive (by omega), size_of_nonneg (by omega) (by omega)]
  simp only [leftJustify_iff]
  split
  · rfl
  · rw [show ((text.length : Int) - hi).toNat = text.length - hi.toNat by omega]

/-- The other texts are copied and get their spaces. -/
theorem appendField_within (fits : specifier.Fits) (small : text.length < 2 ^ 31)
    (within : ∀ hi ∈ specifier.hi, (text.length : Int) ≤ hi) :
    specifier.formatting.appendField output text = some (output ++
      specifier.pad (specifier.lo.getD 0) text.length (strncpy text text.length)) := by
  have len : wrap32 text.length = text.length := wrap32_of_fits ⟨by omega, by omega⟩
  have most : ¬ (text.length : Int) > specifier.formatting.maxWidth := by
    rcases maxWidth_cases fits with ⟨-, max⟩ | ⟨hi, given, max, -⟩
    · omega
    · rw [max]
      exact not_lt.mpr (within hi given)
  unfold Formatting.appendField
  dsimp only
  rw [len, if_neg most]
  rcases minWidth_cases fits with ⟨none, min⟩ | ⟨lo, given, min, positive, fitsLo⟩
  · rw [min, none, Option.getD_none, pad_of_le (Int.natCast_nonneg _)]
    by_cases empty : text.length = 0
    · rw [if_pos empty, if_neg (by omega), empty]
      exact congrArg some (List.append_nil output).symm
    · rw [if_neg empty, if_neg (by omega)]
      rfl
  · rw [min, given, Option.getD_some]
    by_cases empty : text.length = 0
    · obtain rfl := List.length_eq_zero_iff.mp empty
      have padded : specifier.pad lo 0 (strncpy [] 0) = List.replicate lo.toNat ' ' := by
        simp [Specifier.pad, strncpy]
      rw [if_pos empty, List.length_nil, padded]
      split
      · rw [spaces_of_nonneg positive]
        rfl
      · rw [show lo.toNat = 0 by omega]
        exact congrArg some (List.append_nil output).symm
    · rw [if_neg empty]
      by_cases short : (text.length : Int) < lo
      · have count : wrap32 (lo - text.length) = lo - text.length :=
          wrap32_of_fits ⟨by omega, by omega⟩
        rw [if_pos short, count, spaces_of_nonneg (by omega),
          show (lo - text.length).toNat = lo.toNat - text.length by omega]
        simp only [leftJustify_iff, Specifier.pad]
        split <;> simp [appendString, append]
      · rw [if_neg short, pad_of_le (not_lt.mp short)]
        rfl

/-- A text whose length an `int` holds is copied and brought to its widths. -/
theorem appendField_small (fits : specifier.Fits) (ordered : specifier.Ordered)
    (small : text.length < 2 ^ 31) :
    specifier.formatting.appendField output text = some (output ++
      specifier.pad (specifier.lo.getD 0) text.length
        (strncpy (specifier.shown text) (specifier.shown text).length)) := by
  by_cases long : ∃ hi ∈ specifier.hi, hi < text.length
  · obtain ⟨hi, given, less⟩ := long
    rw [appendField_long fits given small less, shown_of_lt given less,
      pad_of_le (lo_le_of_long ordered given less)]
    rfl
  · push Not at long
    rw [appendField_within fits small long, shown_of_le long]

/-- The length of a text that an `int` does not hold is another number there. -/
theorem wrap32_large (large : 2 ^ 31 ≤ text.length) :
    wrap32 text.length < text.length ∧ -2 ^ 31 ≤ wrap32 text.length ∧
      wrap32 text.length < 2 ^ 31 := by
  simp only [wrap32, Int.bmod_def]
  omega

/-- A text that gets spaces becomes longer by their number. -/
theorem padded_length {field : Text} {count : Int} {left : Prop} [Decidable left]
    (made : (if left then (spaces count).map (appendString output text ++ ·)
      else (spaces count).map fun pad => appendString (output ++ pad) text) =
        some (output ++ field)) :
    0 ≤ count ∧ field.length = text.length + count.toNat := by
  by_cases positive : 0 ≤ count
  · refine ⟨positive, ?_⟩
    rw [spaces_of_nonneg positive] at made
    split at made
    · have lengths := congrArg List.length (Option.some.inj made)
      simp only [appendString, append, List.length_append, length_strncpy,
        List.length_replicate] at lengths
      omega
    · have lengths := congrArg List.length (Option.some.inj made)
      simp only [appendString, append, List.length_append, length_strncpy,
        List.length_replicate] at lengths
      omega
  · rw [spaces, if_neg positive] at made
    split at made <;> cases made

theorem appendString_length {field : Text} (made : some (appendString output text) =
    some (output ++ field)) : field.length = text.length := by
  have same := List.append_cancel_left (Option.some.inj made)
  rw [← same, length_strncpy]

/-- A text longer than an `int` counts is brought to the widths or to a wrong length. -/
theorem appendField_large (fits : specifier.Fits) (large : 2 ^ 31 ≤ text.length)
    (bounded : ¬ (specifier.formatting.minWidth = NO_MIN_WIDTH ∧
      specifier.formatting.maxWidth = NO_MAX_WIDTH)) :
    specifier.formatting.appendField output text =
        some (output ++ strncpy (specifier.shown text) (specifier.shown text).length) ∧
      specifier.Held text ∨
    (∀ field, specifier.formatting.appendField output text = some (output ++ field) →
      field.length ≠ (specifier.shown text).length) ∧ ¬ specifier.Held text := by
  obtain ⟨less, low, high⟩ := wrap32_large large
  have long : ¬ text.length < 2 ^ 31 := by omega
  unfold Formatting.appendField Specifier.Held
  dsimp only
  rw [if_neg (show text.length ≠ 0 by omega)]
  rcases maxWidth_cases fits with ⟨noHi, max⟩ | ⟨hi, given, max, positive, small⟩
  · rcases minWidth_cases fits with ⟨-, min⟩ | ⟨lo, given, min, positive, small⟩
    · exact absurd ⟨min, max⟩ bounded
    · rw [max, min, if_pos noHi, given, if_neg (by omega), shown_of_le (by simp [noHi])]
      by_cases short : wrap32 text.length < lo
      · rw [if_pos short]
        refine .inr ⟨fun field made => ?_, ?_⟩
        · have count : 0 < wrap32 (lo - wrap32 text.length) ∨
              wrap32 (lo - wrap32 text.length) < 0 := by
            generalize wrap32 text.length = k at short low
            simp only [wrap32, Int.bmod_def]
            omega
          obtain ⟨positive, length⟩ := padded_length made
          omega
        · rintro (held | held)
          · exact long held
          · exact absurd (held lo rfl) (not_le.mpr short)
      · rw [if_neg short]
        exact .inl ⟨rfl, .inr fun other member => by
          rw [← Option.some.inj member]
          exact not_lt.mp short⟩
  · have longer : hi < text.length := by omega
    rw [max, given, if_neg (Option.some_ne_none hi), shown_of_lt given longer]
    have length := length_cut specifier positive longer
    by_cases more : wrap32 text.length > hi
    · rw [if_pos more]
      simp only [leftJustify_iff]
      by_cases left : specifier.left
      · rw [if_pos left, size_of_nonneg positive (by omega), Specifier.cut, if_pos left]
        exact .inl ⟨rfl, .inr ⟨left, fun other member => by
          rw [← Option.some.inj member]
          exact more⟩⟩
      · rw [if_neg left]
        refine .inr ⟨fun field made => ?_, fun held => held.elim long fun both => left both.1⟩
        have rest : wrap32 (wrap32 text.length - hi) = wrap32 text.length - hi :=
          wrap32_of_fits ⟨by omega, by omega⟩
        have made := appendString_length made
        rw [rest, size_of_nonneg (by omega) (by omega), List.length_drop] at made
        omega
    · rw [if_neg more]
      refine .inr ⟨fun field made => ?_, ?_⟩
      · split at made
        · obtain ⟨-, longField⟩ := padded_length made
          omega
        · have sameLength := appendString_length made
          omega
      · rintro (held | held)
        · exact long held
        · exact more (held.2 hi rfl)

/-- The shown part is copied as it is only when it has its zeros last. -/
theorem copied_iff {field : Text} {lo : Int} {length : Nat} :
    some (output ++ specifier.pad lo length (strncpy text text.length)) = some (output ++ field) ∧
        field = specifier.pad lo length text ↔
      field = specifier.pad lo length text ∧ ZerosLast text := by
  constructor
  · rintro ⟨made, rfl⟩
    exact ⟨rfl, pad_inj.mp (List.append_cancel_left (Option.some.inj made))⟩
  · rintro ⟨rfl, whole⟩
    rw [whole]
    exact ⟨rfl, rfl⟩

theorem pad_large {length : Nat} (fits : specifier.Fits) (large : 2 ^ 31 ≤ length) (text : Text) :
    specifier.pad (specifier.lo.getD 0) length text = text := by
  refine pad_of_le ?_ text
  rcases minWidth_cases fits with ⟨none, -⟩ | ⟨lo, given, -, -, small⟩
  · rw [none]
    exact Int.natCast_nonneg _
  · rw [given, Option.getD_some]
    omega

/-- A text is brought to its widths exactly when its length is held and its zeros are last. -/
theorem appendField_iff (fits : specifier.Fits) (ordered : specifier.Ordered)
    (bounded : ¬ (specifier.formatting.minWidth = NO_MIN_WIDTH ∧
      specifier.formatting.maxWidth = NO_MAX_WIDTH)) :
    (∃ field, specifier.formatting.appendField output text = some (output ++ field) ∧
        specifier.FieldOf text field) ↔
      specifier.Held text ∧ ZerosLast (specifier.shown text) := by
  simp only [fieldOf_iff ordered]
  by_cases small : text.length < 2 ^ 31
  · simp only [appendField_small fits ordered small, copied_iff, exists_eq_left]
    exact (and_iff_right (.inl small)).symm
  · have large : 2 ^ 31 ≤ text.length := by omega
    simp only [pad_large fits large]
    rcases @appendField_large specifier text output fits large bounded with
      ⟨made, held⟩ | ⟨never, notHeld⟩
    · rw [made]
      constructor
      · rintro ⟨field, same, rfl⟩
        exact ⟨held, List.append_cancel_left (Option.some.inj same)⟩
      · rintro ⟨-, whole⟩
        exact ⟨_, by rw [whole], rfl⟩
    · constructor
      · rintro ⟨field, made, rfl⟩
        exact absurd rfl (never _ made)
      · exact fun both => absurd both.1 notHeld

/-- Without widths that the formatter sees, the text is appended as it is. -/
theorem unbounded_iff (fits : specifier.Fits) (ordered : specifier.Ordered)
    (min : specifier.formatting.minWidth = NO_MIN_WIDTH)
    (max : specifier.formatting.maxWidth = NO_MAX_WIDTH) :
    specifier.FieldOf text text ↔ specifier.Held text := by
  have noLo : specifier.lo = none := by
    rcases minWidth_cases fits with ⟨none, -⟩ | ⟨lo, -, given, positive, -⟩
    · exact none
    · rw [given] at min
      exact absurd min (by unfold NO_MIN_WIDTH; omega)
  rw [fieldOf_iff ordered, noLo, Option.getD_none, pad_of_le (Int.natCast_nonneg _)]
  unfold Specifier.Held
  rcases maxWidth_cases fits with ⟨noHi, -⟩ | ⟨hi, given, value, positive, -⟩
  · rw [shown_of_le (by simp [noHi]), if_pos noHi, noLo]
    simp
  · have limit : hi = 2 ^ 31 - 1 := value.symm.trans max
    rw [given, if_neg (Option.some_ne_none hi)]
    by_cases small : text.length < 2 ^ 31
    · rw [shown_of_le (by simp [given]; omega)]
      exact iff_of_true rfl (.inl small)
    · have longer : hi < text.length := by omega
      have high := (wrap32_large (show 2 ^ 31 ≤ text.length by omega)).2.2
      rw [shown_of_lt given longer]
      refine iff_of_false (fun same => ?_) ?_
      · have length := length_cut specifier positive longer
        rw [← same] at length
        omega
      · rintro (held | held)
        · exact small held
        · have more := held.2 hi rfl
          omega

end Formatted

section Specifiers

variable {equalsIgnoreCase : Text → Text → Bool} {pattern : Text} {parser : Parser}
  {specifier : Specifier}

theorem converterFor_formatting {formatting : Formatting} {i next : Nat} {c : Char}
    {converter : Converter}
    (made : converterFor equalsIgnoreCase pattern formatting i c = .ok (converter, next)) :
    converter.formatting = formatting := by
  unfold converterFor at made
  split_ifs at made with component date
  · obtain ⟨⟨precision, after⟩, -, same⟩ := bind_eq_ok.mp made
    obtain ⟨rfl, -⟩ := Prod.mk.inj (Except.ok.inj same)
    rfl
  · obtain ⟨rfl, -⟩ := Prod.mk.inj (Except.ok.inj made)
    rfl
  · cases plain : plainConverter formatting c with
    | none =>
        rw [plain] at made
        cases made
    | some other =>
        rw [plain] at made
        obtain ⟨rfl, -⟩ := Prod.mk.inj (Except.ok.inj made)
        exact (plainConverter_cases formatting other plain).2

/-- A converter with the widths of the specifier formats its text. -/
theorem formatMessage_iff {converter : Converter} (fits : specifier.Fits)
    (ordered : specifier.Ordered) (formatting : converter.formatting = specifier.formatting)
    (environment : Environment) (message : LogMessage) (output : Text) :
    (∃ field, converter.formatMessage environment message output = some (output ++ field) ∧
        specifier.FieldOf (converter.convert environment message []) field) ↔
      specifier.Held (converter.convert environment message []) ∧
        (specifier.formatting.minWidth = NO_MIN_WIDTH ∧
            specifier.formatting.maxWidth = NO_MAX_WIDTH ∨
          ZerosLast (specifier.shown (converter.convert environment message []))) := by
  unfold Converter.formatMessage
  dsimp only
  rw [formatting]
  by_cases unbounded : specifier.formatting.minWidth = NO_MIN_WIDTH ∧
      specifier.formatting.maxWidth = NO_MAX_WIDTH
  · rw [if_pos unbounded, Converter.convert_eq, and_iff_left (.inl unbounded),
      ← unbounded_iff fits ordered unbounded.1 unbounded.2]
    constructor
    · rintro ⟨field, made, fieldOf⟩
      obtain rfl := List.append_cancel_left (Option.some.inj made)
      exact fieldOf
    · exact fun fieldOf => ⟨_, rfl, fieldOf⟩
  · rw [if_neg unbounded, appendField_iff fits ordered unbounded, or_iff_right unbounded]

/-- A specifier gives the field of a text exactly when its numerals fit, the length of the text is
held, and what is shown of it is copied as it is. -/
theorem formats_iff (equalsIgnoreCase : Text → Text → Bool) (pattern : Text) (parser : Parser)
    (specifier : Specifier) (environment : Environment) (message : LogMessage) (output : Text)
    (starts : parser.At pattern specifier)
    (supported : Supported equalsIgnoreCase pattern (parser.i + specifier.text.length)
      specifier.conversion) : ∃ converter,
    parser.Makes equalsIgnoreCase pattern converter ∧
      (parser.Formats equalsIgnoreCase pattern specifier environment message output ↔
        specifier.Formats (converter.convert environment message [])) := by
  obtain ⟨converter, next, made, makes⟩ := makes_of_supported starts supported
  have formatting := converterFor_formatting made
  refine ⟨converter, makes, ?_⟩
  constructor
  · rintro ⟨rejects, formats⟩
    have fits : specifier.Fits := by
      by_contra unfit
      exact (rejects unfit).1 converter makes
    refine ⟨fits, fun ordered => ?_⟩
    obtain ⟨other, makesOther, formatted⟩ := formats fits ordered
    obtain rfl := makes.unique makesOther
    exact (formatMessage_iff fits ordered formatting environment message output).mp formatted
  · rintro ⟨fits, held⟩
    refine ⟨fun unfit => absurd fits unfit, fun _ ordered => ⟨converter, makes, ?_⟩⟩
    exact (formatMessage_iff fits ordered formatting environment message output).mpr (held ordered)

def ofMessage (message : Text) : LogMessage := ⟨[], [], message, none, 0, none⟩

/-- The specifier of a message of at least five characters. -/
def five : Specifier :=
  ⟨0, ['5'], List.all_eq_true.mp rfl, [], List.all_eq_true.mp rfl, 'm'⟩

theorem five_formats : ∃ converter,
    Parser.start.Makes (fun text other => text == other) ['%', '5', 'm'] converter ∧
      (Parser.start.Formats (fun text other => text == other) ['%', '5', 'm'] five .first
          (ofMessage ['h', 'i']) [] ↔
        five.Formats (converter.convert .first (ofMessage ['h', 'i']) [])) :=
  formats_iff (fun text other => text == other) ['%', '5', 'm'] .start five .first
    (ofMessage ['h', 'i']) [] ⟨rfl, [], rfl⟩ fun formatting => ⟨.message formatting, 3, rfl⟩

/-- A specifier whose minimum width is five modulo the numbers of an `int`. -/
def wrappedFive : Specifier :=
  ⟨0, "4294967301".toList, List.all_eq_true.mp (by decide), [], List.all_eq_true.mp rfl, 'm'⟩

/-- The numeral is no `int`, and the parser takes it for another number. -/
theorem wrappedFive_not_formats :
    ¬ Parser.start.Formats (fun text other => text == other) "%4294967301m".toList wrappedFive .first
      (ofMessage ['h', 'i']) [] := by
  rintro ⟨rejects, -⟩
  have unfit : ¬ wrappedFive.Fits := fun fits =>
    absurd (fits.1 4294967301 (by decide)) (by decide)
  have starts : Parser.start.At "%4294967301m".toList wrappedFive := ⟨rfl, [], by decide⟩
  obtain ⟨converter, next, -, makes⟩ :=
    @makes_of_supported (fun text other => text == other) _ _ _ starts fun formatting =>
      ⟨.message formatting, 12, rfl⟩
  exact (rejects unfit).1 converter makes

end Specifiers

end Blocxx.LogMessagePatternFormatter
