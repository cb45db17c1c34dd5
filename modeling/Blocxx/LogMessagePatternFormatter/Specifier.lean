import Blocxx.DateTime.Calendar
import Blocxx.DateTime.WrittenFields
import Blocxx.LogMessagePatternFormatter.Converters
import Blocxx.LogMessagePatternFormatter.Termination

/-!
This file proves what the parser makes of a specifier of a log message pattern.
-/

namespace Blocxx.LogMessagePatternFormatter

open Time Library Library.Loop

/-- A specifier up to its conversion character. A width without digits is not given. -/
structure Specifier where
  dashes : Nat
  minWidth : Text
  minDigits : ∀ c ∈ minWidth, isDigit c = true
  maxWidth : Text
  maxDigits : ∀ c ∈ maxWidth, isDigit c = true
  conversion : Char

namespace Specifier

variable (specifier : Specifier)

def text : Text :=
  '%' :: (List.replicate specifier.dashes '-' ++ specifier.minWidth ++
    (if specifier.maxWidth = [] then [] else '.' :: specifier.maxWidth) ++ [specifier.conversion])

/-- The number that the digits of a width stand for. -/
def width (digits : Text) : Option Int := if digits = [] then none else some (digitsValue digits)

def lo : Option Int := width specifier.minWidth

def hi : Option Int := width specifier.maxWidth

def left : Prop := specifier.dashes ≠ 0

instance : Decidable specifier.left := inferInstanceAs (Decidable (_ ≠ _))

/-- The numerals are values of an `int`. -/
def Fits : Prop := (∀ lo ∈ specifier.lo, lo < 2 ^ 31) ∧ ∀ hi ∈ specifier.hi, hi < 2 ^ 31

/-- What the parser stores for the specifier. -/
def formatting : Formatting where
  minWidth := (specifier.lo.map wrap32).getD NO_MIN_WIDTH
  maxWidth := (specifier.hi.map wrap32).getD NO_MAX_WIDTH
  justification := if specifier.dashes = 0 then .rightJustify else .leftJustify

end Specifier

section Parse

variable (equalsIgnoreCase : Text → Text → Bool) (pattern : Text)

/-- The parser comes from the start of a specifier to the place behind it and appends only this
converter for it. -/
def Parser.Makes (parser : Parser) (converter : Converter) : Prop :=
  ∃ next, Visits (parseIteration equalsIgnoreCase pattern) parser
    ⟨next, .literalState, [], .none, parser.pushLiteral ++ [converter]⟩

/-- The parser throws and makes no converter of the specifier. -/
def Parser.Rejects (parser : Parser) : Prop :=
  (∀ converter, ¬ parser.Makes equalsIgnoreCase pattern converter) ∧
    ∃ exception, Returns (parseIteration equalsIgnoreCase pattern) parser (.error exception)

/-- The parser is at the start of the specifier. -/
structure Parser.At (parser : Parser) (specifier : Specifier) : Prop where
  state : parser.state = .literalState
  split : ∃ rest, pattern.drop parser.i = specifier.text ++ rest

/-- The character is a conversion with its option, if it has one. -/
def Supported (i : Nat) (c : Char) : Prop :=
  ∀ formatting, ∃ converter next,
    converterFor equalsIgnoreCase pattern formatting i c = .ok (converter, next)

end Parse

section Characters

variable {equalsIgnoreCase : Text → Text → Bool} {pattern : Text} {parser : Parser} {c : Char}
  {rest : Text}

theorem charAt_split (split : pattern.drop parser.i = c :: rest) :
    parser.i < pattern.length ∧ charAt pattern parser.i = c ∧
      pattern.drop (parser.i + 1) = rest := by
  have inside : parser.i < pattern.length := by
    by_contra outside
    rw [List.drop_eq_nil_of_le (by omega)] at split
    cases split
  rw [List.drop_eq_getElem_cons inside] at split
  obtain ⟨here, behind⟩ := List.cons.inj split
  refine ⟨inside, ?_, behind⟩
  rw [charAt, List.getD_eq_getElem?_getD, List.getElem?_eq_getElem inside, here, Option.getD_some]

theorem parseIteration_char (split : pattern.drop parser.i = c :: rest) {later : Parser}
    (parses : parseChar equalsIgnoreCase pattern { parser with i := parser.i + 1 } c = .ok later) :
    parseIteration equalsIgnoreCase pattern parser = .next later := by
  obtain ⟨inside, here, -⟩ := charAt_split split
  rw [parseIteration, if_pos inside, here, parses]

/-- The characters of `plainConverter`. -/
def plainConversions : Text := ['F', 'l', 'L', 'M', 'm', 'e', 'p', 'r', 't', 'P']

/-- One branch of `plainConverter`. -/
theorem plain_branch {letter : Char} {letters : Text} {formatting : Formatting} {first : Converter}
    {rest : Option Converter} (here : first.formatting = formatting)
    (later : ∀ converter ∈ rest, c ∈ letters ∧ converter.formatting = formatting) :
    ∀ converter ∈ (if c = letter then some first else rest),
      c ∈ letter :: letters ∧ converter.formatting = formatting := by
  intro converter member
  split at member
  · next same =>
      rw [← Option.mem_some.mp member]
      exact ⟨List.mem_cons.mpr (.inl same), here⟩
  · obtain ⟨conversion, kept⟩ := later converter member
    exact ⟨List.mem_cons_of_mem _ conversion, kept⟩

theorem plainConverter_cases (formatting : Formatting) :
    ∀ converter ∈ plainConverter formatting c,
      c ∈ plainConversions ∧ converter.formatting = formatting := by
  unfold plainConverter
  repeat apply plain_branch rfl
  intro converter none_
  cases none_

/-- A conversion is none of the other characters of a specifier. -/
theorem plain_of_supported {i : Nat} (supported : Supported equalsIgnoreCase pattern i c) :
    (isDigit c = false ∧ c ≠ '-' ∧ c ≠ '.') ∧ c ≠ '%' ∧ c ≠ 'n' := by
  obtain ⟨converter, next, ok⟩ := supported .none
  unfold converterFor at ok
  split_ifs at ok with component date
  · subst component
    decide
  · subst date
    decide
  · cases plain : plainConverter .none c with
    | none =>
        rw [plain] at ok
        cases ok
    | some converter =>
        have letters : plainConversions.all (fun c =>
            (isDigit c = false ∧ c ≠ '-' ∧ c ≠ '.') ∧ c ≠ '%' ∧ c ≠ 'n') = true := by decide
        exact of_decide_eq_true
          (List.all_eq_true.mp letters c (plainConverter_cases .none converter plain).1)

theorem drop_behind {i : Nat} {front : Text} (split : pattern.drop i = front ++ rest) :
    pattern.drop (i + front.length) = rest := by
  rw [← List.drop_drop, split, List.drop_left]

end Characters

section Widths

/-- One digit more of a width. -/
def nextDigit (width : Int) (c : Char) : Int := wrap32 (width * 10 + digitOf c)

/-- The digits are accumulated modulo the size of an `int`. -/
theorem foldl_nextDigit (digits : Text) (value : Int) :
    digits.foldl nextDigit (wrap32 value) =
      wrap32 (digits.foldl (fun value c => value * 10 + digitOf c) value) := by
  induction digits generalizing value with
  | nil => rfl
  | cons c digits ih =>
      have step : nextDigit (wrap32 value) c = wrap32 (value * 10 + digitOf c) := by
        have congruent : wrap32 value ≡ value [ZMOD (2 ^ 32 : Nat)] := Int.bmod_emod
        have same : (wrap32 value * 10 + digitOf c) % (2 ^ 32 : Nat) =
            (value * 10 + digitOf c) % (2 ^ 32 : Nat) :=
          (congruent.mul_right 10).add_right (digitOf c)
        show (wrap32 value * 10 + digitOf c).bmod (2 ^ 32) = (value * 10 + digitOf c).bmod (2 ^ 32)
        rw [← Int.emod_bmod, same, Int.emod_bmod]
      rw [List.foldl_cons, List.foldl_cons, step, ih]

theorem digitOf_bounds {c : Char} (digit : isDigit c = true) : 0 ≤ digitOf c ∧ digitOf c < 10 := by
  have bounds := @digitsValue_bounds [c] (by simpa using digit)
  simpa [digitsValue, digitOf] using bounds

/-- The parser starts with the first digit. -/
theorem foldl_first {first : Char} {digits : Text} (digit : isDigit first = true) :
    digits.foldl nextDigit (digitOf first) = wrap32 (digitsValue (first :: digits)) := by
  have bounds := digitOf_bounds digit
  have small : wrap32 (digitOf first) = digitOf first :=
    wrap32_of_fits ⟨by omega, by omega⟩
  have start : digitsValue (first :: digits) =
      digits.foldl (fun value c => value * 10 + digitOf c) (0 * 10 + digitOf first) := rfl
  rw [← small, foldl_nextDigit, start, zero_mul, zero_add]

end Widths

section Steps

variable {equalsIgnoreCase : Text → Text → Bool} {pattern : Text} {parser : Parser} {rest : Text}

/-- The parser after the characters of a specifier that it has read. -/
def Parser.reads (parser : Parser) (read : Text) (state : EParserState) (formatting : Formatting) :
    Parser :=
  { parser with
    i := parser.i + read.length
    literal := parser.literal ++ read
    state := state
    formatting := formatting }

theorem reads_reads (parser : Parser) (first second : Text) (state later : EParserState)
    (formatting other : Formatting) :
    (parser.reads first state formatting).reads second later other =
      parser.reads (first ++ second) later other := by
  simp [Parser.reads, Nat.add_assoc]

theorem reads_nil (parser : Parser) : parser.reads [] parser.state parser.formatting = parser := by
  simp [Parser.reads]

/-- The digits of a width are read in one state. -/
theorem visits_digits (parser : Parser) {state : EParserState} (get : Formatting → Int)
    (set : Formatting → Int → Formatting)
    (set_get : ∀ formatting, set formatting (get formatting) = formatting)
    (get_set : ∀ formatting width, get (set formatting width) = width)
    (set_set : ∀ formatting width other, set (set formatting width) other = set formatting other)
    (one : ∀ (parser : Parser) (c : Char), parser.state = state → isDigit c = true →
      parseChar equalsIgnoreCase pattern { parser with i := parser.i + 1 } c =
        .ok (parser.reads [c] state (set parser.formatting (nextDigit (get parser.formatting) c))))
    {digits : Text} (all : ∀ c ∈ digits, isDigit c = true) (here : parser.state = state)
    (split : pattern.drop parser.i = digits ++ rest) :
    Visits (parseIteration equalsIgnoreCase pattern) parser
      (parser.reads digits state
        (set parser.formatting (digits.foldl nextDigit (get parser.formatting)))) := by
  induction digits generalizing parser with
  | nil =>
      have same := reads_nil parser
      rw [here] at same
      rw [List.foldl_nil, set_get, same]
      exact .start
  | cons c digits ih =>
      have goes := parseIteration_char split (one parser c here (all c List.mem_cons_self))
      have visits := ih (parser.reads [c] state
          (set parser.formatting (nextDigit (get parser.formatting) c)))
        (fun other member => all other (List.mem_cons_of_mem _ member)) rfl
        (charAt_split split).2.2
      rw [reads_reads, show (parser.reads [c] state (set parser.formatting
        (nextDigit (get parser.formatting) c))).formatting = set parser.formatting
          (nextDigit (get parser.formatting) c) from rfl, get_set, set_set] at visits
      exact .trans (.next .start goes) visits

/-- The dashes before the widths. -/
theorem visits_dashes (dashes : Nat) (state : parser.state = .converterState)
    (split : pattern.drop parser.i = List.replicate dashes '-' ++ rest) :
    Visits (parseIteration equalsIgnoreCase pattern) parser
      (parser.reads (List.replicate dashes '-') .converterState { parser.formatting with
        justification :=
          if dashes = 0 then parser.formatting.justification else .leftJustify }) := by
  induction dashes generalizing parser with
  | zero =>
      have same := reads_nil parser
      rw [state] at same
      rw [if_pos rfl, List.replicate_zero, same]
      exact .start
  | succ dashes ih =>
      have goes : parseIteration equalsIgnoreCase pattern parser =
          .next (parser.reads ['-'] .converterState { parser.formatting with
            justification := .leftJustify }) := by
        refine parseIteration_char split ?_
        simp [parseChar, parseConverter, state, Parser.reads]
      have visits := @ih (parser.reads ['-'] .converterState { parser.formatting with
        justification := .leftJustify }) rfl (charAt_split split).2.2
      rw [reads_reads] at visits
      have last : (if dashes = 0 then EJustificationFlag.leftJustify else .leftJustify) =
          if dashes + 1 = 0 then parser.formatting.justification else .leftJustify := by
        rw [ite_self, if_neg (Nat.succ_ne_zero dashes)]
      rw [← last]
      exact .trans (.next .start goes) visits

/-- The minimum width, if it is given. -/
theorem visits_minWidth {digits : Text} (all : ∀ c ∈ digits, isDigit c = true)
    (state : parser.state = .converterState) (split : pattern.drop parser.i = digits ++ rest) :
    Visits (parseIteration equalsIgnoreCase pattern) parser
      (parser.reads digits (if digits = [] then .converterState else .minState)
        { parser.formatting with
          minWidth := ((Specifier.width digits).map wrap32).getD parser.formatting.minWidth }) := by
  cases digits with
  | nil =>
      have same := reads_nil parser
      rw [state] at same
      rw [if_pos rfl]
      show Visits _ parser (parser.reads [] .converterState parser.formatting)
      rw [same]
      exact .start
  | cons c digits =>
      have digit := all c List.mem_cons_self
      have goes : parseIteration equalsIgnoreCase pattern parser =
          .next (parser.reads [c] .minState { parser.formatting with
            minWidth := digitOf c }) := by
        refine parseIteration_char split ?_
        obtain ⟨noMinus, noDot⟩ : c ≠ '-' ∧ c ≠ '.' := by
          constructor <;> rintro rfl <;> exact absurd digit (by decide)
        simp [parseChar, parseConverter, state, digit, noMinus, noDot, Parser.reads]
      have visits := @visits_digits equalsIgnoreCase pattern rest
        (parser.reads [c] .minState { parser.formatting with minWidth := digitOf c }) .minState
        Formatting.minWidth (fun formatting width => { formatting with minWidth := width })
        (fun _ => rfl) (fun _ _ => rfl) (fun _ _ _ => rfl)
        (fun parser c state digit => by
          simp [parseChar, parseMin, state, digit, Parser.reads, nextDigit])
        digits (fun other member => all other (List.mem_cons_of_mem _ member)) rfl
        (charAt_split split).2.2
      rw [reads_reads] at visits
      have value : (Specifier.width (c :: digits)).map wrap32 =
          some (digits.foldl nextDigit (digitOf c)) := by
        rw [foldl_first digit]
        rfl
      rw [if_neg (List.cons_ne_nil c digits), value]
      exact .trans (.next .start goes) visits

/-- The maximum width behind its dot, if it is given. -/
theorem visits_maxWidth {digits : Text} (all : ∀ c ∈ digits, isDigit c = true)
    (state : parser.state ∈ [EParserState.converterState, .minState])
    (split : pattern.drop parser.i = (if digits = [] then [] else '.' :: digits) ++ rest) :
    Visits (parseIteration equalsIgnoreCase pattern) parser
      (parser.reads (if digits = [] then [] else '.' :: digits)
        (if digits = [] then parser.state else .maxState)
        { parser.formatting with
          maxWidth := ((Specifier.width digits).map wrap32).getD parser.formatting.maxWidth }) := by
  cases digits with
  | nil =>
      rw [if_pos rfl, if_pos rfl]
      show Visits _ parser (parser.reads [] parser.state parser.formatting)
      rw [reads_nil parser]
      exact .start
  | cons c digits =>
      have digit := all c List.mem_cons_self
      have given := List.cons_ne_nil c digits
      rw [if_neg given] at split
      have dot : parseIteration equalsIgnoreCase pattern parser =
          .next (parser.reads ['.'] .dotState parser.formatting) := by
        refine parseIteration_char split ?_
        have isState : parser.state = .converterState ∨ parser.state = .minState := by
          simpa using state
        rcases isState with here | here
        · simp [parseChar, parseConverter, here, Parser.reads]
        · simp [parseChar, parseMin, here, Parser.reads, show isDigit '.' = false by decide]
      have behind := (charAt_split split).2.2
      have first : parseIteration equalsIgnoreCase pattern
          (parser.reads ['.'] .dotState parser.formatting) =
            .next (parser.reads ['.', c] .maxState { parser.formatting with
              maxWidth := digitOf c }) := by
        refine parseIteration_char behind ?_
        simp [parseChar, parseDot, digit, Parser.reads]
      have visits := @visits_digits equalsIgnoreCase pattern rest
        (parser.reads ['.', c] .maxState { parser.formatting with maxWidth := digitOf c }) .maxState
        Formatting.maxWidth (fun formatting width => { formatting with maxWidth := width })
        (fun _ => rfl) (fun _ _ => rfl) (fun _ _ _ => rfl)
        (fun parser c state digit => by
          simp [parseChar, parseMax, state, digit, Parser.reads, nextDigit])
        digits (fun other member => all other (List.mem_cons_of_mem _ member)) rfl
        (@charAt_split pattern (parser.reads ['.'] .dotState parser.formatting) c _ behind).2.2
      rw [reads_reads] at visits
      have value : (Specifier.width (c :: digits)).map wrap32 =
          some (digits.foldl nextDigit (digitOf c)) := by
        rw [foldl_first digit]
        rfl
      rw [if_neg given, if_neg given, value]
      exact .trans (.next (.next .start dot) first) visits

end Steps

section Specifiers

variable {equalsIgnoreCase : Text → Text → Bool} {pattern : Text} {parser : Parser}
  {specifier : Specifier}

/-- The parser behind the percent sign. -/
def Parser.percent (parser : Parser) : Parser :=
  ⟨parser.i + 1, .converterState, ['%'], .none, parser.pushLiteral⟩

theorem parseIteration_percent {c : Char} {rest : Text} (state : parser.state = .literalState)
    (split : pattern.drop parser.i = '%' :: c :: rest) (noPercent : c ≠ '%') (noNewline : c ≠ 'n') :
    parseIteration equalsIgnoreCase pattern parser = .next parser.percent := by
  refine parseIteration_char split ?_
  have behind := (charAt_split split).2.2
  obtain ⟨inside, here, -⟩ := @charAt_split pattern { parser with i := parser.i + 1 } c rest behind
  dsimp only at inside here
  have more : parser.i + 1 ≠ pattern.length := by omega
  simp [parseChar, parseLiteral, state, more, here, noPercent, noNewline, Parser.percent,
    Parser.pushLiteral]

/-- The characters before the conversion character. -/
def Specifier.body (specifier : Specifier) : Text :=
  List.replicate specifier.dashes '-' ++ specifier.minWidth ++
    (if specifier.maxWidth = [] then [] else '.' :: specifier.maxWidth)

theorem text_eq (specifier : Specifier) :
    specifier.text = '%' :: (specifier.body ++ [specifier.conversion]) := rfl

theorem body_escapes {c : Char} (member : c ∈ specifier.body) : c ≠ '%' ∧ c ≠ 'n' := by
  have digits (digit : isDigit c = true) : c ≠ '%' ∧ c ≠ 'n' := by
    constructor <;> rintro rfl <;> exact absurd digit (by decide)
  rw [Specifier.body, List.mem_append, List.mem_append] at member
  rcases member with (dash | min) | max
  · rw [List.eq_of_mem_replicate dash]
    decide
  · exact digits (specifier.minDigits c min)
  · split at max
    · cases max
    · rcases List.mem_cons.mp max with rfl | max
      · decide
      · exact digits (specifier.maxDigits c max)

/-- The parser before the conversion character. -/
theorem visits_conversion {rest : Text} (state : parser.state = .literalState)
    (plain : specifier.conversion ≠ '%' ∧ specifier.conversion ≠ 'n')
    (split : pattern.drop parser.i = specifier.text ++ rest) : ∃ state,
      state ∈ [EParserState.converterState, .minState, .maxState] ∧
      Visits (parseIteration equalsIgnoreCase pattern) parser
        (parser.percent.reads specifier.body state specifier.formatting) := by
  have behind : pattern.drop (parser.i + 1) = specifier.body ++ specifier.conversion :: rest := by
    have whole : pattern.drop parser.i =
        '%' :: (specifier.body ++ specifier.conversion :: rest) := by
      rw [split, text_eq]
      simp
    exact (charAt_split whole).2.2
  have percent : parseIteration equalsIgnoreCase pattern parser = .next parser.percent := by
    cases body : specifier.body with
    | nil =>
        refine @parseIteration_percent _ _ _ specifier.conversion rest state ?_ plain.1 plain.2
        rw [split, text_eq, body]
        rfl
    | cons c read =>
        have other := @body_escapes specifier c (by rw [body]; exact List.mem_cons_self)
        refine @parseIteration_percent _ _ _ c (read ++ specifier.conversion :: rest) state ?_ other.1
          other.2
        rw [split, text_eq, body]
        simp
  rw [Specifier.body, List.append_assoc, List.append_assoc] at behind
  have dashes := @visits_dashes equalsIgnoreCase pattern parser.percent _ specifier.dashes rfl behind
  have dashed := drop_behind behind
  have min := @visits_minWidth equalsIgnoreCase pattern
    (parser.percent.reads (List.replicate specifier.dashes '-') .converterState
      { Formatting.none with
        justification := if specifier.dashes = 0 then .rightJustify else .leftJustify })
    _ specifier.minWidth specifier.minDigits rfl dashed
  rw [reads_reads] at min
  have max := @visits_maxWidth equalsIgnoreCase pattern
    (parser.percent.reads (List.replicate specifier.dashes '-' ++ specifier.minWidth)
      (if specifier.minWidth = [] then .converterState else .minState)
      ⟨(specifier.lo.map wrap32).getD NO_MIN_WIDTH, NO_MAX_WIDTH,
        if specifier.dashes = 0 then .rightJustify else .leftJustify⟩)
    _ specifier.maxWidth specifier.maxDigits (by
      show (if specifier.minWidth = [] then EParserState.converterState else .minState) ∈ _
      split <;> simp) (by
      have widths := drop_behind dashed
      rw [Nat.add_assoc, ← List.length_append] at widths
      exact widths)
  rw [reads_reads] at max
  refine ⟨if specifier.maxWidth = [] then
      if specifier.minWidth = [] then .converterState else .minState else .maxState, ?_, ?_⟩
  · split_ifs <;> simp
  · exact .trans (.next .start percent) (.trans dashes (.trans min max))

/-- The parser makes a converter of each specifier, whatever its numerals are. -/
theorem makes_of_supported (starts : parser.At pattern specifier)
    (supported : Supported equalsIgnoreCase pattern (parser.i + specifier.text.length)
      specifier.conversion) : ∃ converter next,
      converterFor equalsIgnoreCase pattern specifier.formatting
        (parser.i + specifier.text.length) specifier.conversion = .ok (converter, next) ∧
      parser.Makes equalsIgnoreCase pattern converter := by
  obtain ⟨rest, split⟩ := starts.split
  obtain ⟨plain, escapes⟩ := plain_of_supported supported
  obtain ⟨state, ends, visits⟩ :=
    @visits_conversion equalsIgnoreCase _ _ _ _ starts.state escapes split
  obtain ⟨converter, next, made⟩ := supported specifier.formatting
  refine ⟨converter, next, made, next, .next visits ?_⟩
  have length : specifier.text.length = specifier.body.length + 2 := by
    rw [text_eq]
    simp
  have behind : pattern.drop (parser.i + (specifier.body.length + 1)) =
      specifier.conversion :: rest := by
    refine @drop_behind pattern _ parser.i ('%' :: specifier.body) ?_
    rw [split, text_eq]
    simp
  refine @parseIteration_char _ _ _ specifier.conversion rest ?_ _ ?_
  · rw [← behind]
    congr 1
    show parser.i + 1 + specifier.body.length = _
    omega
  · rw [parseChar_conversion ends plain, finalizeConverter]
    have place : parser.i + 1 + specifier.body.length + 1 = parser.i + specifier.text.length := by
      omega
    show (converterFor equalsIgnoreCase pattern specifier.formatting
      (parser.i + 1 + specifier.body.length + 1) specifier.conversion).bind _ = _
    rw [place, made]
    rfl

/-- No iteration takes a converter away. -/
theorem parseIteration_converters {later : Parser}
    (goes : parseIteration equalsIgnoreCase pattern parser = .next later) :
    parser.converters <+: later.converters := by
  have inside := (parseIteration_moved goes).1
  have parsed := @parseChar_prepend equalsIgnoreCase pattern
    { parser with i := parser.i + 1, converters := [] } parser.converters (charAt pattern parser.i)
  have whole : Parser.prepend parser.converters
      { parser with i := parser.i + 1, converters := [] } = { parser with i := parser.i + 1 } := by
    simp [Parser.prepend]
  rw [whole] at parsed
  rw [parseIteration, if_pos inside, parsed] at goes
  cases result : parseChar equalsIgnoreCase pattern
      { parser with i := parser.i + 1, converters := [] } (charAt pattern parser.i) with
  | error exception =>
      rw [result] at goes
      cases goes
  | ok after =>
      rw [result] at goes
      obtain rfl := Iteration.next.inj goes
      exact List.prefix_append _ _

theorem visits_converters {later : Parser}
    (visits : Visits (parseIteration equalsIgnoreCase pattern) parser later) :
    parser.converters <+: later.converters := by
  induction visits with
  | start => exact List.prefix_rfl
  | next before goes ih => exact ih.trans (parseIteration_converters goes)

/-- The converter of a specifier is only one. -/
theorem Parser.Makes.unique {first second : Converter}
    (one : parser.Makes equalsIgnoreCase pattern first)
    (other : parser.Makes equalsIgnoreCase pattern second) : first = second := by
  obtain ⟨_, visits⟩ := one
  obtain ⟨_, visitsToo⟩ := other
  rcases visits.linear visitsToo with ahead | behind
  · have same := (visits_converters ahead).eq_of_length (by simp)
    exact List.singleton_inj.mp (List.append_cancel_left same)
  · have same := (visits_converters behind).eq_of_length (by simp)
    exact (List.singleton_inj.mp (List.append_cancel_left same)).symm

end Specifiers

end Blocxx.LogMessagePatternFormatter
