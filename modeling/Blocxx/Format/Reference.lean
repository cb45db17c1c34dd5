import Blocxx.Format.Format
import Blocxx.DateTime.WrittenFields

/-!
This file gives the grammar of the format strings and the expansion that it documents, and proves
that `processFormatSpecifier` accepts exactly the specifiers of the grammar whose numbers fit.
-/

namespace Blocxx.Format

open Time

def Digits (text : Text) : Prop := text ≠ [] ∧ ∀ c ∈ text, isDigit c = true

/-- The grammar has `-` and the tests have `+` as well. -/
def Sign (text : Text) : Prop := text = [] ∨ text = ['-'] ∨ text = ['+']

def SignedDigits (text : Text) : Prop :=
  ∃ sign digits, Sign sign ∧ Digits digits ∧ text = sign ++ digits

def Width (text : Text) : Prop := text = [] ∨ SignedDigits text

def Precision (text : Text) : Prop := text = [] ∨ ∃ number, SignedDigits number ∧ text = '.' :: number

def Base (text : Text) : Prop := text = [] ∨ text = ['x'] ∨ text = ['X'] ∨ text = ['o']

def BaseFlag (text : Text) : Prop := text = [] ∨ text = ['!']

def Modifiers (text : Text) : Prop :=
  ∃ width precision base flag, Width width ∧ Precision precision ∧ Base base ∧ BaseFlag flag ∧
    text = width ++ (precision ++ (base ++ flag))

/-- What stands behind the number of the argument. -/
def Suffix (text : Text) : Prop := text = [] ∨ ∃ modifiers, Modifiers modifiers ∧ text = ':' :: modifiers

/-- The text is a specifier that names the argument `k`. -/
inductive Specifies : Text → Nat → Prop
  | digit {c : Char} (is : isDigit c = true) : Specifies ['%', c] (c.toNat - '0'.toNat)
  | braces {digits suffix : Text} (number : Digits digits) (tail : Suffix suffix) :
      Specifies ('%' :: '<' :: (digits ++ (suffix ++ ['>']))) (digitsValue digits).toNat

/-- A percent sign that starts no escape and no specifier. -/
def Malformed (text : Text) : Prop :=
  ∃ rest, text = '%' :: rest ∧ rest.head? ≠ some '%' ∧
    ∀ specifier k after, Specifies specifier k → text ≠ specifier ++ after

/-- A specifier is kept with the format from its percent sign on. -/
inductive Item where
  | char (c : Char)
  | argument (text : Text) (k : Nat)

inductive Ending where
  | complete
  | missing (specifier : Text) (text : Text) (k : Nat)
  | malformed (text : Text)

/-- The reading of a format string for this number of arguments. It ends at the first specifier
that names no argument and at the first malformed one. -/
inductive Reads (count : Nat) : Text → List Item → Ending → Prop
  | nil : Reads count [] [] .complete
  | char {c : Char} {rest : Text} {items : List Item} {ending : Ending} (literal : c ≠ '%')
      (tail : Reads count rest items ending) : Reads count (c :: rest) (.char c :: items) ending
  | percent {rest : Text} {items : List Item} {ending : Ending}
      (tail : Reads count rest items ending) :
      Reads count ('%' :: '%' :: rest) (.char '%' :: items) ending
  | argument {specifier rest : Text} {k : Nat} {items : List Item} {ending : Ending}
      (names : Specifies specifier k) (inside : 1 ≤ k ∧ k ≤ count)
      (tail : Reads count rest items ending) :
      Reads count (specifier ++ rest) (.argument (specifier ++ rest) k :: items) ending
  | missing {specifier rest : Text} {k : Nat} (names : Specifies specifier k)
      (outside : ¬ (1 ≤ k ∧ k ≤ count)) :
      Reads count (specifier ++ rest) [] (.missing specifier (specifier ++ rest) k)
  | malformed {text : Text} (wrong : Malformed text) : Reads count text [] (.malformed text)

def Item.piece : Item → Piece
  | .char c => .char c
  | .argument _ k => .argument k

def parameterError (count k : Nat) : Text :=
  if k > count then tooLarge k count else tooSmall k 1

def report (lead : List Piece) (excerpt : Text) : List Piece :=
  lead ++ [.message stars, .message (formatError excerpt), .message ['\n']]

/-- A number that names no argument is reported with its value. -/
def parameterReport (count k : Nat) : List Piece :=
  [.message stars, .message (parameterError count k)]

/-- The report at the end of an expansion. The one of a malformed specifier shows its beginning, and
its number may be reported too. -/
def Reports (count : Nat) (reports : List Piece) : Ending → Prop
  | .complete => reports = []
  | .missing specifier _ k => reports = report (parameterReport count k) specifier
  | .malformed text => ∃ lead excerpt, excerpt ≠ [] ∧ excerpt <+: text ∧
      (lead = [] ∨ ∃ k, lead = parameterReport count k) ∧ reports = report lead excerpt

/-- The expansion that the grammar documents. -/
def Reference (count : Nat) (format : Text) (pieces : List Piece) : Prop :=
  ∃ items ending reports, Reads count format items ending ∧ Reports count reports ending ∧
    pieces = items.map Item.piece ++ reports

/-- The result is the documented expansion, and all of its text is returned. -/
def Substitutes (ca : Text) (args : List Text) : Prop :=
  ∃ oss, Formats ca args (.ok oss) ∧ Reference args.length (cString ca) oss.pieces ∧
    oss.toString args = (oss.pieces.map (Piece.text args)).flatten

/-! The numbers of a specifier. -/

def afterNumber (str : Text) : Text :=
  if numberDigits str = [] then str else str.drop (signLength str + (numberDigits str).length)

/-- The numbers behind the colon. -/
def modifierNumbers (str : Text) : List Text :=
  numberDigits str :: if (afterNumber str).head? = some '.' then
    [numberDigits (afterNumber str).tail] else []

/-- The numbers that the scan of a specifier meets, from the brace on. -/
def scannedNumbers (str : Text) : List Text :=
  numberDigits str.tail :: if (afterNumber str.tail).head? = some ':' then
    modifierNumbers (afterNumber str.tail).tail else []

/-- The numbers of the specifier at this percent sign are values of an `int`. -/
def NumbersFit (text : Text) : Prop :=
  text.tail.head? = some '<' → ∀ digits ∈ scannedNumbers text.tail, digitsValue digits ≤ INT_MAX

def Item.Fits : Item → Prop
  | .char _ => True
  | .argument text _ => NumbersFit text

def Ending.Fits : Ending → Prop
  | .complete => True
  | .missing _ text _ => NumbersFit text
  | .malformed text => NumbersFit text

/-- The zero byte does not occur in an argument that is put. -/
def Item.ZeroFree (args : List Text) : Item → Prop
  | .char _ => True
  | .argument _ k => '\x00' ∉ args.getD (k - 1) []

/-- The numbers of the specifiers are values of an `int`, the named arguments have no zero byte, and
an expansion with a report has less than 48 arguments. -/
def Suited (ca : Text) (args : List Text) : Prop :=
  ∃ items ending, Reads args.length (cString ca) items ending ∧
    (∀ item ∈ items, item.Fits) ∧ ending.Fits ∧ (∀ item ∈ items, item.ZeroFree args) ∧
    (ending = .complete ∨ args.length < 48)

theorem digit_ne {c other : Char} (is : isDigit c = true) (differs : isDigit other = false) :
    c ≠ other := by
  rintro rfl
  rw [is] at differs
  cases differs

/-- A sign in front of digits is the one that the scan skips. -/
theorem signLength_signed {sign digits : Text} (isSign : Sign sign) (isDigits : Digits digits)
    (rest : Text) : signLength (sign ++ (digits ++ rest)) = sign.length := by
  obtain ⟨first, others, rfl⟩ := List.exists_cons_of_ne_nil isDigits.1
  have is := isDigits.2 first List.mem_cons_self
  rcases isSign with rfl | rfl | rfl
  · refine if_neg ?_
    rintro (minus | plus)
    · exact digit_ne is (by decide) (Option.some.inj minus)
    · exact digit_ne is (by decide) (Option.some.inj plus)
  · rfl
  · rfl

theorem numberDigits_signed {sign digits rest : Text} (isSign : Sign sign)
    (isDigits : Digits digits) (ends : ∀ c, rest.head? = some c → isDigit c = false) :
    numberDigits (sign ++ (digits ++ rest)) = digits := by
  rw [numberDigits, signLength_signed isSign isDigits, List.drop_left,
    List.takeWhile_append_of_pos isDigits.2]
  cases rest with
  | nil => exact List.append_nil digits
  | cons c rest =>
      have stop := ends c rfl
      rw [List.takeWhile_cons_of_neg (by rw [stop]; exact Bool.false_ne_true), List.append_nil]

theorem afterNumber_signed {sign digits rest : Text} (isSign : Sign sign)
    (isDigits : Digits digits) (ends : ∀ c, rest.head? = some c → isDigit c = false) :
    afterNumber (sign ++ (digits ++ rest)) = rest := by
  have read := numberDigits_signed isSign isDigits ends
  rw [afterNumber, read, if_neg isDigits.1, signLength_signed isSign isDigits,
    ← List.length_append, ← List.append_assoc, List.drop_left]

/-- No number starts with this text. -/
theorem numberDigits_none {str : Text}
    (other : ∀ c, str.head? = some c → isDigit c = false ∧ c ≠ '-' ∧ c ≠ '+') :
    numberDigits str = [] := by
  cases str with
  | nil => rfl
  | cons c rest =>
      obtain ⟨stop, notMinus, notPlus⟩ := other c rfl
      have unsigned : signLength (c :: rest) = 0 := by
        refine if_neg ?_
        rintro (minus | plus)
        · exact notMinus (Option.some.inj minus)
        · exact notPlus (Option.some.inj plus)
      rw [numberDigits, unsigned, List.drop_zero,
        List.takeWhile_cons_of_neg (by rw [stop]; exact Bool.false_ne_true)]

theorem digits_takeWhile (str : Text) : ∀ c ∈ str.takeWhile isDigit, isDigit c = true :=
  fun _ mem => List.mem_takeWhile_imp mem

theorem digits_append (text : Text) :
    text.takeWhile isDigit ++ text.drop (text.takeWhile isDigit).length = text := by
  have split := @List.takeWhile_append_dropWhile _ isDigit text
  have rest := @List.drop_left _ (text.takeWhile isDigit) (text.dropWhile isDigit)
  rw [split] at rest
  rw [rest, split]

/-- What the scan reads is a number with an optional sign. -/
theorem afterNumber_eq (str : Text) :
    (numberDigits str = [] ∧ afterNumber str = str) ∨
      ∃ sign, Sign sign ∧ Digits (numberDigits str) ∧
        str = sign ++ (numberDigits str ++ afterNumber str) ∧
        signLength str = sign.length := by
  by_cases empty : numberDigits str = []
  · exact .inl ⟨empty, if_pos empty⟩
  · right
    have joined : numberDigits str ++ afterNumber str = str.drop (signLength str) := by
      rw [afterNumber, if_neg empty, ← List.drop_drop]
      exact digits_append _
    refine ⟨str.take (signLength str), ?_, ⟨empty, digits_takeWhile _⟩, ?_, ?_⟩
    · cases str with
      | nil => exact absurd rfl empty
      | cons first others =>
          unfold signLength
          split
          · next signed =>
              rcases signed with minus | plus
              · exact .inr (.inl (by rw [Option.some.inj minus]; rfl))
              · exact .inr (.inr (by rw [Option.some.inj plus]; rfl))
          · exact .inl List.take_zero
    · rw [joined, List.take_append_drop]
    · cases str with
      | nil => exact absurd rfl empty
      | cons first others =>
          unfold signLength
          split <;> rfl

/-- The scan of a number that fits. -/
theorem scanNumber_ok {str : Text} (fits : digitsValue (numberDigits str) ≤ INT_MAX) :
    ∃ number, scanNumber str = .ok number ∧
      (number = none ↔ numberDigits str = []) ∧
      str.drop ((number.map Number.length).getD 0) = afterNumber str ∧
      ∀ found, number = some found →
        (found.sign = 0 ↔ signLength str = 0) ∧
          (found.sign = 0 → found.result = digitsValue (numberDigits str)) := by
  by_cases empty : numberDigits str = []
  · refine ⟨none, by rw [scanNumber]; exact if_pos empty, iff_of_true rfl empty, ?_,
      fun found other => by cases other⟩
    rw [afterNumber, if_pos empty]
    rfl
  · have small : ¬ digitsValue (numberDigits str) > INT_MAX := not_lt.mpr fits
    refine ⟨_, by rw [scanNumber]; exact (if_neg empty).trans (if_neg small),
      iff_of_false (Option.some_ne_none _) empty, ?_, ?_⟩
    · rw [afterNumber, if_neg empty]
      rfl
    · rintro found ⟨⟩
      dsimp only
      unfold signLength
      by_cases minus : str.head? = some '-'
      · simp [minus]
      · by_cases plus : str.head? = some '+'
        · simp [plus]
        · simp [minus, plus]

theorem scanNumber_overflow {str : Text} (large : ¬ digitsValue (numberDigits str) ≤ INT_MAX) :
    scanNumber str = .error .signedOverflow := by
  have some : numberDigits str ≠ [] := by
    intro none
    rw [none] at large
    exact large (by decide)
  rw [scanNumber]
  exact (if_neg some).trans (if_pos (not_le.mp large))

/-! What the scan of the modifiers leaves. -/

def afterPrecision (str : Text) : Text :=
  if str.head? = some '.' ∧ numberDigits str.tail ≠ [] then afterNumber str.tail else str

def afterBase (str : Text) : Text :=
  if str.head? = some 'x' ∨ str.head? = some 'X' ∨ str.head? = some 'o' then str.tail else str

def afterFlag (str : Text) : Text := if str.head? = some '!' then str.tail else str

def afterModifiers (str : Text) : Text :=
  afterFlag (afterBase (afterPrecision (afterNumber str)))

theorem scanWidth_ok {str : Text} (flags : Flags)
    (fits : digitsValue (numberDigits str) ≤ INT_MAX) :
    ∃ length later, scanWidth str flags = .ok (length, later) ∧
      str.drop length = afterNumber str := by
  obtain ⟨number, scan, -, rest, -⟩ := scanNumber_ok fits
  rw [scanWidth, scan]
  cases number with
  | none => exact ⟨_, _, rfl, rest⟩
  | some number => exact ⟨_, _, rfl, rest⟩

theorem scanPrecision_ok {str : Text} (flags : Flags)
    (fits : str.head? = some '.' → digitsValue (numberDigits str.tail) ≤ INT_MAX) :
    ∃ length later, scanPrecision str flags = .ok (length, later) ∧
      str.drop length = afterPrecision str := by
  rw [scanPrecision]
  by_cases dot : str.head? = some '.'
  · obtain ⟨number, scan, nothing, rest, -⟩ := scanNumber_ok (fits dot)
    rw [if_pos dot, scan]
    cases number with
    | none =>
        refine ⟨_, _, rfl, ?_⟩
        rw [afterPrecision, if_neg fun both => both.2 (nothing.mp rfl)]
        rfl
    | some number =>
        refine ⟨_, _, rfl, ?_⟩
        have digits : numberDigits str.tail ≠ [] := fun empty => by cases nothing.mpr empty
        rw [afterPrecision, if_pos ⟨dot, digits⟩, ← rest, List.drop_tail, Nat.add_comm 1]
        rfl
  · rw [if_neg dot]
    refine ⟨_, _, rfl, ?_⟩
    rw [afterPrecision, if_neg fun both => dot both.1]
    rfl

theorem scanBase_drop (str : Text) (flags : Flags) :
    str.drop (scanBase str flags).1 = afterBase str := by
  unfold scanBase afterBase
  by_cases lower : str.head? = some 'x'
  · rw [if_pos lower, if_pos (.inl lower), List.drop_one]
  · by_cases upper : str.head? = some 'X'
    · rw [if_neg lower, if_pos upper, if_pos (.inr (.inl upper)), List.drop_one]
    · by_cases octal : str.head? = some 'o'
      · rw [if_neg lower, if_neg upper, if_pos octal, if_pos (.inr (.inr octal)), List.drop_one]
      · rw [if_neg lower, if_neg upper, if_neg octal,
          if_neg fun any => any.elim lower fun any => any.elim upper octal]
        rfl

theorem scanShowbase_drop (str : Text) (flags : Flags) :
    str.drop (scanShowbase str flags).1 = afterFlag str := by
  unfold scanShowbase afterFlag
  split
  · exact List.drop_one
  · rfl

theorem scanModifiers_ok {str : Text} (flags : Flags)
    (fits : ∀ digits ∈ modifierNumbers str, digitsValue digits ≤ INT_MAX) :
    ∃ length later, scanModifiers str flags = .ok (length, later) ∧
      str.drop length = afterModifiers str := by
  have width := fits _ List.mem_cons_self
  obtain ⟨first, flagsWidth, scanFirst, restFirst⟩ := scanWidth_ok flags width
  have precision : (afterNumber str).head? = some '.' →
      digitsValue (numberDigits (afterNumber str).tail) ≤ INT_MAX := by
    intro dot
    refine fits _ (List.mem_cons_of_mem _ ?_)
    rw [if_pos dot]
    exact List.mem_singleton_self _
  obtain ⟨second, flagsPrecision, scanSecond, restSecond⟩ :=
    scanPrecision_ok flagsWidth precision
  generalize found : scanBase (afterPrecision (afterNumber str)) flagsPrecision = base
  have restBase := scanBase_drop (afterPrecision (afterNumber str)) flagsPrecision
  rw [found] at restBase
  have restFlag := scanShowbase_drop (afterBase (afterPrecision (afterNumber str))) base.2
  generalize last : scanShowbase (afterBase (afterPrecision (afterNumber str))) base.2 = showbase
    at restFlag
  refine ⟨first + second + base.1 + showbase.1, showbase.2, ?_, ?_⟩
  · simp only [scanModifiers, scanFirst, bind, Except.bind, restFirst, scanSecond, restSecond,
      found, restBase, last]
    rfl
  · rw [← List.drop_drop, ← List.drop_drop, ← List.drop_drop, restFirst, restSecond, restBase,
      restFlag]
    rfl

theorem scanModifiers_overflow {str : Text} (flags : Flags)
    (large : ¬ ∀ digits ∈ modifierNumbers str, digitsValue digits ≤ INT_MAX) :
    scanModifiers str flags = .error .signedOverflow := by
  by_cases width : digitsValue (numberDigits str) ≤ INT_MAX
  · obtain ⟨first, flagsWidth, scanFirst, restFirst⟩ := scanWidth_ok flags width
    have precision : (afterNumber str).head? = some '.' ∧
        ¬ digitsValue (numberDigits (afterNumber str).tail) ≤ INT_MAX := by
      by_contra both
      refine large fun digits mem => ?_
      rcases List.mem_cons.mp mem with rfl | mem
      · exact width
      · by_cases dot : (afterNumber str).head? = some '.'
        · rw [if_pos dot, List.mem_singleton] at mem
          rw [mem]
          by_contra larger
          exact both ⟨dot, larger⟩
        · rw [if_neg dot] at mem
          cases mem
    simp only [scanModifiers, scanFirst, bind, Except.bind, restFirst, scanPrecision,
      if_pos precision.1, scanNumber_overflow precision.2]
  · simp only [scanModifiers, scanWidth, scanNumber_overflow width, bind, Except.bind]

/-- What the scan leaves from the brace on, the number of the argument apart. -/
def afterSuffix (str : Text) : Text :=
  if str.head? = some ':' then afterModifiers str.tail else str

/-- The numbers of the part behind the number of the argument. -/
def suffixNumbers (str : Text) : List Text :=
  if str.head? = some ':' then modifierNumbers str.tail else []

theorem scanSuffix_ok {str : Text} (flags : Flags)
    (fits : ∀ digits ∈ suffixNumbers str, digitsValue digits ≤ INT_MAX) :
    ∃ length later, scanSuffix str flags = .ok (length, later) ∧
      str.drop length = afterSuffix str := by
  rw [scanSuffix, afterSuffix]
  by_cases colon : str.head? = some ':'
  · rw [suffixNumbers, if_pos colon] at fits
    obtain ⟨length, later, scan, rest⟩ := scanModifiers_ok flags fits
    rw [if_pos colon, if_pos colon, scan]
    refine ⟨1 + length, later, rfl, ?_⟩
    rw [← List.drop_drop, List.drop_one, rest]
  · rw [if_neg colon, if_neg colon]
    exact ⟨0, flags, rfl, rfl⟩

theorem scanSuffix_overflow {str : Text} (flags : Flags)
    (large : ¬ ∀ digits ∈ suffixNumbers str, digitsValue digits ≤ INT_MAX) :
    scanSuffix str flags = .error .signedOverflow := by
  rw [scanSuffix]
  by_cases colon : str.head? = some ':'
  · rw [suffixNumbers, if_pos colon] at large
    rw [if_pos colon, scanModifiers_overflow flags large]
    rfl
  · rw [suffixNumbers, if_neg colon] at large
    exact absurd (fun digits mem => by cases mem) large

theorem toSizeT_of_fits {value : Int} (positive : 0 ≤ value) (small : value ≤ INT_MAX) :
    toSizeT value = value.toNat := by
  have wide : value < 2 ^ 64 := lt_of_le_of_lt small (by decide)
  rw [toSizeT, Int.emod_eq_of_lt positive wide]

/-- The function succeeds when an unsigned number, modifiers and the brace follow. -/
theorem processFormatSpecifier_ok {others : Text} (argnum : Nat) (flags : Flags)
    (fits : ∀ digits ∈ scannedNumbers (BRACE_OPEN :: others), digitsValue digits ≤ INT_MAX) :
    ∃ specifier, processFormatSpecifier (BRACE_OPEN :: others) argnum flags = .ok specifier ∧
      (specifier.retval = true ↔ (numberDigits others ≠ [] ∧ signLength others = 0) ∧
        (afterSuffix (afterNumber others)).head? = some BRACE_CLOSE) ∧
      (specifier.retval = true →
        specifier.argnum = (digitsValue (numberDigits others)).toNat ∧
          (BRACE_OPEN :: others).drop specifier.length =
            (afterSuffix (afterNumber others)).tail ∧
          specifier.length ≤ (BRACE_OPEN :: others).length) := by
  have first : digitsValue (numberDigits others) ≤ INT_MAX := fits _ List.mem_cons_self
  obtain ⟨number, scan, nothing, rest, found⟩ := scanNumber_ok first
  have here : (BRACE_OPEN :: others).drop (1 + (number.map Number.length).getD 0) =
      afterNumber others := by
    rw [Nat.add_comm, List.drop_succ_cons]
    exact rest
  have suffix : ∀ digits ∈ suffixNumbers (afterNumber others), digitsValue digits ≤ INT_MAX :=
    fun digits mem => fits digits (List.mem_cons_of_mem _ mem)
  obtain ⟨length, later, scanRest, last⟩ := scanSuffix_ok flags suffix
  have accepted : (number.isSome && !(number.any fun number => decide (number.sign ≠ 0))) = true ↔
      numberDigits others ≠ [] ∧ signLength others = 0 := by
    cases number with
    | none => exact iff_of_false Bool.false_ne_true fun both => both.1 (nothing.mp rfl)
    | some number =>
        have digits : numberDigits others ≠ [] := fun empty => by cases nothing.mpr empty
        rw [and_iff_right digits, ← (found number rfl).1]
        simp
  have value (ok : numberDigits others ≠ [] ∧ signLength others = 0) :
      (number.map fun number => toSizeT number.result).getD argnum =
        (digitsValue (numberDigits others)).toNat := by
    cases number with
    | none => exact absurd (nothing.mp rfl) ok.1
    | some number =>
        obtain ⟨unsigned, plain⟩ := found number rfl
        have bounds := digitsValue_bounds (digits_takeWhile (others.drop (signLength others)))
        show toSizeT number.result = _
        rw [plain (unsigned.mpr ok.2)]
        exact toSizeT_of_fits bounds.1 first
  simp only [processFormatSpecifier, List.head?_cons, if_true, List.tail_cons, scan, bind,
    Except.bind, here, scanRest]
  rw [← List.drop_drop, here, last]
  by_cases close : (afterSuffix (afterNumber others)).head? = some BRACE_CLOSE
  · rw [if_pos close]
    refine ⟨_, rfl, accepted.trans (and_iff_left close).symm,
      fun ok => ⟨value (accepted.mp ok), ?_, ?_⟩⟩
    · dsimp only
      rw [← List.drop_drop, ← List.drop_drop, here, last, List.drop_one]
    · by_contra longer
      dsimp only at longer
      rw [← last, ← here, List.drop_drop, List.drop_eq_nil_of_le (by omega)] at close
      cases close
  · rw [if_neg close]
    exact ⟨_, rfl, iff_of_false Bool.false_ne_true fun both => close both.2,
      fun ok => by cases ok⟩

theorem processFormatSpecifier_overflow {others : Text} (argnum : Nat) (flags : Flags)
    (large : ¬ ∀ digits ∈ scannedNumbers (BRACE_OPEN :: others), digitsValue digits ≤ INT_MAX) :
    processFormatSpecifier (BRACE_OPEN :: others) argnum flags = .error .signedOverflow := by
  by_cases first : digitsValue (numberDigits others) ≤ INT_MAX
  · obtain ⟨number, scan, nothing, rest, found⟩ := scanNumber_ok first
    have here : (BRACE_OPEN :: others).drop (1 + (number.map Number.length).getD 0) =
        afterNumber others := by
      rw [Nat.add_comm, List.drop_succ_cons]
      exact rest
    have suffix : ¬ ∀ digits ∈ suffixNumbers (afterNumber others),
        digitsValue digits ≤ INT_MAX := by
      intro all
      refine large fun digits mem => ?_
      rcases List.mem_cons.mp mem with rfl | mem
      · exact first
      · exact all digits mem
    simp only [processFormatSpecifier, List.head?_cons, if_true, List.tail_cons, scan, bind,
      Except.bind, here, scanSuffix_overflow flags suffix]
  · simp only [processFormatSpecifier, List.head?_cons, if_true, List.tail_cons,
      scanNumber_overflow first, bind, Except.bind]

/-! The accepted texts are the specifiers of the grammar. -/

theorem afterPrecision_eq (str : Text) :
    ∃ precision, Precision precision ∧ str = precision ++ afterPrecision str := by
  unfold afterPrecision
  split
  · next number =>
      obtain ⟨rest, rfl⟩ : ∃ rest, str = '.' :: rest := by
        cases str with
        | nil => cases number.1
        | cons c rest => exact ⟨rest, by rw [Option.some.inj number.1]⟩
      obtain ⟨nothing, -⟩ | ⟨sign, isSign, digits, same, -⟩ := afterNumber_eq rest
      · exact absurd nothing number.2
      · refine ⟨'.' :: (sign ++ numberDigits rest),
          .inr ⟨_, ⟨sign, _, isSign, digits, rfl⟩, rfl⟩, ?_⟩
        rw [List.cons_append, List.append_assoc, List.tail_cons, ← same]
  · exact ⟨[], .inl rfl, rfl⟩

theorem cons_of_head {str : Text} {c : Char} (head : str.head? = some c) :
    str = [c] ++ str.tail := by
  cases str with
  | nil => cases head
  | cons first rest =>
      rw [Option.some.inj head]
      rfl

theorem afterBase_eq (str : Text) : ∃ base, Base base ∧ str = base ++ afterBase str := by
  unfold afterBase
  split
  · next any =>
      rcases any with lower | upper | octal
      · exact ⟨['x'], .inr (.inl rfl), cons_of_head lower⟩
      · exact ⟨['X'], .inr (.inr (.inl rfl)), cons_of_head upper⟩
      · exact ⟨['o'], .inr (.inr (.inr rfl)), cons_of_head octal⟩
  · exact ⟨[], .inl rfl, rfl⟩

theorem afterFlag_eq (str : Text) : ∃ flag, BaseFlag flag ∧ str = flag ++ afterFlag str := by
  unfold afterFlag
  split
  · next mark => exact ⟨['!'], .inr rfl, cons_of_head mark⟩
  · exact ⟨[], .inl rfl, rfl⟩

theorem afterModifiers_eq (str : Text) :
    ∃ modifiers, Modifiers modifiers ∧ str = modifiers ++ afterModifiers str := by
  have number : ∃ width, Width width ∧ str = width ++ afterNumber str := by
    obtain ⟨-, same⟩ | ⟨sign, isSign, digits, same, -⟩ := afterNumber_eq str
    · exact ⟨[], .inl rfl, by rw [same]; rfl⟩
    · refine ⟨sign ++ numberDigits str, .inr ⟨sign, _, isSign, digits, rfl⟩, ?_⟩
      rw [List.append_assoc, ← same]
  obtain ⟨width, isWidth, sameWidth⟩ := number
  obtain ⟨precision, isPrecision, samePrecision⟩ := afterPrecision_eq (afterNumber str)
  obtain ⟨base, isBase, sameBase⟩ := afterBase_eq (afterPrecision (afterNumber str))
  obtain ⟨flag, isFlag, sameFlag⟩ := afterFlag_eq (afterBase (afterPrecision (afterNumber str)))
  refine ⟨_, ⟨width, precision, base, flag, isWidth, isPrecision, isBase, isFlag, rfl⟩, ?_⟩
  rw [List.append_assoc, List.append_assoc, List.append_assoc, afterModifiers, ← sameFlag,
    ← sameBase, ← samePrecision, ← sameWidth]

theorem afterSuffix_eq (str : Text) : ∃ suffix, Suffix suffix ∧ str = suffix ++ afterSuffix str := by
  unfold afterSuffix
  split
  · next colon =>
      obtain ⟨modifiers, isModifiers, same⟩ := afterModifiers_eq str.tail
      refine ⟨':' :: modifiers, .inr ⟨modifiers, isModifiers, rfl⟩, ?_⟩
      rw [List.cons_append, ← same]
      exact cons_of_head colon
  · exact ⟨[], .inl rfl, rfl⟩

/-- An accepted text starts with a specifier of the grammar. -/
theorem specifies_of_accepted {others : Text}
    (accepted : (numberDigits others ≠ [] ∧ signLength others = 0) ∧
      (afterSuffix (afterNumber others)).head? = some BRACE_CLOSE) :
    ∃ specifier, Specifies specifier (digitsValue (numberDigits others)).toNat ∧
      '%' :: BRACE_OPEN :: others =
        specifier ++ (afterSuffix (afterNumber others)).tail := by
  obtain ⟨⟨number, unsigned⟩, close⟩ := accepted
  obtain ⟨nothing, -⟩ | ⟨sign, isSign, digits, same, length⟩ := afterNumber_eq others
  · exact absurd nothing number
  · rw [unsigned] at length
    have plain : sign = [] := List.length_eq_zero_iff.mp length.symm
    obtain ⟨suffix, isSuffix, sameSuffix⟩ := afterSuffix_eq (afterNumber others)
    refine ⟨_, .braces digits isSuffix, ?_⟩
    rw [plain, List.nil_append, sameSuffix, cons_of_head close] at same
    rw [List.cons_append, List.cons_append, List.append_assoc, List.append_assoc]
    exact congrArg (fun text => '%' :: '<' :: text) same

section Closed

variable (after : Text)

theorem afterFlag_append {flag : Text} (isFlag : BaseFlag flag) :
    afterFlag (flag ++ BRACE_CLOSE :: after) = BRACE_CLOSE :: after := by
  rcases isFlag with rfl | rfl
  · exact if_neg (by simp [BRACE_CLOSE])
  · exact if_pos rfl

theorem afterBase_append {base flag : Text} (isBase : Base base) (isFlag : BaseFlag flag) :
    afterBase (base ++ (flag ++ BRACE_CLOSE :: after)) = flag ++ BRACE_CLOSE :: after := by
  rcases isBase with rfl | rfl | rfl | rfl
  · refine if_neg ?_
    rcases isFlag with rfl | rfl <;> simp [BRACE_CLOSE]
  · exact if_pos (.inl rfl)
  · exact if_pos (.inr (.inl rfl))
  · exact if_pos (.inr (.inr rfl))

/-- What follows a number in a specifier is no digit and no sign. -/
def Stops (text : Text) : Prop :=
  ∀ c, text.head? = some c → isDigit c = false ∧ c ≠ '-' ∧ c ≠ '+'

theorem stops_cons {c : Char} (stop : isDigit c = false ∧ c ≠ '-' ∧ c ≠ '+') (rest : Text) :
    Stops (c :: rest) := by
  rintro _ ⟨⟩
  exact stop

theorem stops_base {base flag : Text} (isBase : Base base) (isFlag : BaseFlag flag) :
    Stops (base ++ (flag ++ BRACE_CLOSE :: after)) := by
  rcases isBase with rfl | rfl | rfl | rfl
  · rcases isFlag with rfl | rfl
    · exact stops_cons (by decide) _
    · exact stops_cons (by decide) _
  all_goals exact stops_cons (by decide) _

theorem stops_precision {precision rest : Text} (isPrecision : Precision precision)
    (stops : Stops rest) : Stops (precision ++ rest) := by
  rcases isPrecision with rfl | ⟨number, -, rfl⟩
  · exact stops
  · exact stops_cons (by decide) _

theorem afterPrecision_append {precision base flag : Text} (isPrecision : Precision precision)
    (isBase : Base base) (isFlag : BaseFlag flag) :
    afterPrecision (precision ++ (base ++ (flag ++ BRACE_CLOSE :: after))) =
      base ++ (flag ++ BRACE_CLOSE :: after) := by
  have stops := stops_base after isBase isFlag
  generalize rest_eq : base ++ (flag ++ BRACE_CLOSE :: after) = rest at stops ⊢
  rcases isPrecision with rfl | ⟨number, ⟨sign, digits, isSign, isDigits, rfl⟩, rfl⟩
  · refine if_neg fun both => ?_
    rw [← rest_eq] at both
    rcases isBase with rfl | rfl | rfl | rfl
    · rcases isFlag with rfl | rfl
      · exact absurd both.1 (by simp [BRACE_CLOSE])
      · exact absurd both.1 (by simp)
    all_goals exact absurd both.1 (by simp)
  · rw [List.cons_append, List.append_assoc]
    have ends (c : Char) (head : rest.head? = some c) := (stops c head).1
    have read := numberDigits_signed isSign isDigits ends
    rw [afterPrecision, List.tail_cons, if_pos ⟨rfl, by rw [read]; exact isDigits.1⟩,
      afterNumber_signed isSign isDigits ends]

theorem afterModifiers_append {modifiers : Text} (isModifiers : Modifiers modifiers) :
    afterModifiers (modifiers ++ BRACE_CLOSE :: after) = BRACE_CLOSE :: after := by
  obtain ⟨width, precision, base, flag, isWidth, isPrecision, isBase, isFlag, rfl⟩ := isModifiers
  have stops := stops_precision isPrecision (stops_base after isBase isFlag)
  have number : afterNumber
      (width ++ (precision ++ (base ++ (flag ++ BRACE_CLOSE :: after)))) =
      precision ++ (base ++ (flag ++ BRACE_CLOSE :: after)) := by
    rcases isWidth with rfl | ⟨sign, digits, isSign, isDigits, rfl⟩
    · exact if_pos (numberDigits_none stops)
    · rw [List.append_assoc]
      exact afterNumber_signed isSign isDigits fun c head => (stops c head).1
  rw [List.append_assoc, List.append_assoc, List.append_assoc, afterModifiers, number,
    afterPrecision_append after isPrecision isBase isFlag, afterBase_append after isBase isFlag,
    afterFlag_append after isFlag]

theorem afterSuffix_append {suffix : Text} (isSuffix : Suffix suffix) :
    afterSuffix (suffix ++ BRACE_CLOSE :: after) = BRACE_CLOSE :: after := by
  rcases isSuffix with rfl | ⟨modifiers, isModifiers, rfl⟩
  · exact if_neg (by simp [BRACE_CLOSE])
  · rw [List.cons_append, afterSuffix, List.tail_cons, List.head?_cons, if_pos rfl,
      afterModifiers_append after isModifiers]

theorem stops_suffix {suffix : Text} (isSuffix : Suffix suffix) :
    Stops (suffix ++ BRACE_CLOSE :: after) := by
  rcases isSuffix with rfl | ⟨modifiers, -, rfl⟩
  · exact stops_cons (by decide) _
  · exact stops_cons (by decide) _

/-- A specifier of the grammar is accepted as a whole. -/
theorem accepted_of_specifies {digits suffix : Text} (number : Digits digits)
    (isSuffix : Suffix suffix) :
    ((numberDigits (digits ++ (suffix ++ BRACE_CLOSE :: after)) ≠ [] ∧
      signLength (digits ++ (suffix ++ BRACE_CLOSE :: after)) = 0) ∧
      afterSuffix (afterNumber (digits ++ (suffix ++ BRACE_CLOSE :: after))) =
        BRACE_CLOSE :: after) ∧
      numberDigits (digits ++ (suffix ++ BRACE_CLOSE :: after)) = digits := by
  have ends (c : Char) (head : (suffix ++ BRACE_CLOSE :: after).head? = some c) :=
    (stops_suffix after isSuffix c head).1
  have read := numberDigits_signed (.inl rfl : Sign []) number ends
  have rest := afterNumber_signed (.inl rfl : Sign []) number ends
  have unsigned := signLength_signed (.inl rfl : Sign []) number
    (suffix ++ BRACE_CLOSE :: after)
  rw [List.nil_append] at read rest unsigned
  refine ⟨⟨⟨?_, unsigned⟩, ?_⟩, read⟩
  · rw [read]
    exact number.1
  · rw [rest, afterSuffix_append after isSuffix]

end Closed

end Blocxx.Format
