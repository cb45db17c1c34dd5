import Blocxx.LogMessagePatternFormatter.Parser

/-!
This file proves which log message patterns the parser comes to the end of.
-/

namespace Blocxx.LogMessagePatternFormatter

open Time Library Library.Loop

/-- There is a brace at the index, and no brace closes it. -/
def BraceUnclosed (pattern : Text) (i : Nat) : Prop :=
  i < pattern.length ∧ charAt pattern i = '{' ∧ indexOf pattern '}' i = none

/-- The parser is at a conversion character whose option is not closed. -/
def OptionUnclosed (pattern : Text) (parser : Parser) : Prop :=
  parser.i < pattern.length ∧
    parser.state ∈ [EParserState.converterState, .minState, .maxState] ∧
    charAt pattern parser.i ∈ ['c', 'd'] ∧ BraceUnclosed pattern (parser.i + 1)

/-- The pattern ends between a percent sign and its conversion character. -/
def SpecifierUnclosed (pattern : Text) (parser : Parser) : Prop :=
  parser.state = .literalState ∧ parser.i + 1 = pattern.length ∧
      charAt pattern parser.i = '%' ∨
    parser.state ≠ .literalState ∧ parser.i = pattern.length

/-- The rest of the pattern is no precision, which the parser throws for. -/
def PrecisionRefused (pattern : Text) (parser : Parser) : Prop :=
  charAt pattern parser.i = 'c' ∧ pattern.drop (parser.i + 2) ≠ [] ∧
    toUInt32 (pattern.drop (parser.i + 2)) = none

theorem indexOf_range {text : Text} {ch : Char} {fromIndex index : Nat}
    (found : indexOf text ch fromIndex = some index) : fromIndex ≤ index ∧ index < text.length := by
  unfold indexOf at found
  dsimp only at found
  split at found
  · next member =>
      obtain rfl := Option.some.inj found
      have within := List.idxOf_lt_length_of_mem member
      have shorter : (cString (text.drop fromIndex)).length ≤ (text.drop fromIndex).length :=
        (List.takeWhile_sublist _).length_le
      rw [List.length_drop] at shorter
      omega
  · cases found

/-- The index stays where it is or goes behind the closing brace, or back to the start. -/
theorem getOption_range {pattern : Text} {i : Nat} (inside : i ≤ pattern.length) :
    BraceUnclosed pattern i ∧ getOption pattern i = (pattern.drop (i + 1), 0) ∨
      ¬ BraceUnclosed pattern i ∧ i ≤ (getOption pattern i).2 ∧
        (getOption pattern i).2 ≤ pattern.length := by
  unfold getOption BraceUnclosed
  by_cases brace : i < pattern.length ∧ charAt pattern i = '{'
  · rw [if_pos brace]
    cases found : indexOf pattern '}' i with
    | none => exact .inl ⟨⟨brace.1, brace.2, rfl⟩, rfl⟩
    | some last =>
        obtain ⟨low, high⟩ := indexOf_range found
        refine .inr ⟨fun unclosed => Option.some_ne_none _ unclosed.2.2, ?_⟩
        dsimp only
        split <;> dsimp only <;> omega
  · rw [if_neg brace]
    exact .inr ⟨fun unclosed => brace ⟨unclosed.1, unclosed.2.1⟩, le_rfl, inside⟩

/-- How far the parser is after a character that it was past. -/
inductive Moved (pattern : Text) (c : Char) (parser later : Parser) : Prop
  | forward (least : parser.i ≤ later.i) (most : later.i ≤ pattern.length)
  | restarted (state : parser.state ∈ [EParserState.converterState, .minState, .maxState])
      (conversion : c ∈ ['c', 'd']) (unclosed : BraceUnclosed pattern parser.i)
      (converters : List Converter) (reset : later = { Parser.start with converters := converters })

section Characters

variable {equalsIgnoreCase : Text → Text → Bool} {pattern : Text} {parser later : Parser} {c : Char}

theorem getPrecision_range {i next : Nat} {precision : Int} (inside : i ≤ pattern.length)
    (ok : getPrecision pattern i = .ok (precision, next)) :
    BraceUnclosed pattern i ∧ next = 0 ∨ i ≤ next ∧ next ≤ pattern.length := by
  unfold getPrecision at ok
  have range := getOption_range inside
  generalize getOption pattern i = option at ok range
  have same : next = option.2 := by
    dsimp only at ok
    split at ok
    · exact (Prod.mk.inj (Except.ok.inj ok)).2.symm
    · split at ok
      · exact (Prod.mk.inj (Except.ok.inj ok)).2.symm
      · cases ok
  rw [same]
  rcases range with ⟨unclosed, rfl⟩ | ⟨-, range⟩
  · exact .inl ⟨unclosed, rfl⟩
  · exact .inr range

theorem converterFor_range {formatting : Formatting} {i next : Nat} {converter : Converter}
    (inside : i ≤ pattern.length)
    (ok : converterFor equalsIgnoreCase pattern formatting i c = .ok (converter, next)) :
    c ∈ ['c', 'd'] ∧ BraceUnclosed pattern i ∧ next = 0 ∨ i ≤ next ∧ next ≤ pattern.length := by
  unfold converterFor at ok
  split at ok
  · next component =>
      obtain ⟨⟨precision, after⟩, read, made⟩ := bind_eq_ok.mp ok
      obtain ⟨-, rfl⟩ := Prod.mk.inj (Except.ok.inj made)
      rcases getPrecision_range inside read with ⟨unclosed, rfl⟩ | range
      · exact .inl ⟨by simp [component], unclosed, rfl⟩
      · exact .inr range
  · split at ok
    · next date =>
        have range := getOption_range inside
        generalize getOption pattern i = option at ok range
        obtain ⟨-, rfl⟩ := Prod.mk.inj (Except.ok.inj ok)
        rcases range with ⟨unclosed, rfl⟩ | ⟨-, range⟩
        · exact .inl ⟨by simp [date], unclosed, rfl⟩
        · exact .inr range
    · cases plain : plainConverter formatting c with
      | none =>
          rw [plain] at ok
          cases ok
      | some converter =>
          rw [plain] at ok
          obtain ⟨-, rfl⟩ := Prod.mk.inj (Except.ok.inj ok)
          exact .inr ⟨le_rfl, inside⟩

theorem finalizeConverter_moved
    (state : parser.state ∈ [EParserState.converterState, .minState, .maxState])
    (inside : parser.i ≤ pattern.length)
    (ok : finalizeConverter equalsIgnoreCase pattern parser c = .ok later) :
    Moved pattern c parser later := by
  obtain ⟨⟨converter, next⟩, read, made⟩ := bind_eq_ok.mp ok
  obtain rfl := Except.ok.inj made
  rcases converterFor_range inside read with ⟨conversion, unclosed, rfl⟩ | ⟨least, most⟩
  · exact .restarted state conversion unclosed _ rfl
  · exact .forward least most

/-- The digits come last, so nothing is read behind the text. -/
theorem strtolHex_length (text : Text) : (strtolHex text).length ≤ text.length := by
  have shorter : (cString text).length ≤ text.length := (List.takeWhile_sublist _).length_le
  unfold strtolHex
  dsimp only
  by_cases none : hexDigits (cString text) = []
  · rw [if_pos none]
    exact Nat.zero_le _
  · rw [if_neg none]
    have positive := List.length_pos_of_ne_nil none
    have within : (hexDigits (cString text)).length ≤
        ((cString text).drop (hexDigitsStart (cString text))).length :=
      (List.takeWhile_sublist _).length_le
    rw [List.length_drop] at within
    dsimp only
    omega

theorem escape_moved (inside : parser.i < pattern.length) :
    parser.i ≤ (escape pattern parser).i ∧ (escape pattern parser).i ≤ pattern.length := by
  have digits : (strtolHex (pattern.drop (parser.i + 1))).length ≤
      (pattern.drop (parser.i + 1)).length :=
    strtolHex_length _
  rw [List.length_drop] at digits
  unfold escape
  dsimp only
  split_ifs <;> dsimp only <;> omega

theorem parseLiteral_moved (inside : parser.i ≤ pattern.length) :
    parser.i ≤ (parseLiteral pattern parser c).i ∧
      (parseLiteral pattern parser c).i ≤ pattern.length := by
  unfold parseLiteral
  by_cases last : parser.i = pattern.length
  · rw [if_pos last]
    exact ⟨le_rfl, inside⟩
  · rw [if_neg last]
    have escaped := @escape_moved pattern parser (by omega)
    split_ifs
    · dsimp only
      omega
    · dsimp only
      omega
    · exact ⟨le_rfl, inside⟩
    · exact escaped
    · exact ⟨le_rfl, inside⟩

/-- A character moves the parser forward, but for an option that is not closed. -/
theorem parseChar_moved (inside : parser.i ≤ pattern.length)
    (ok : parseChar equalsIgnoreCase pattern parser c = .ok later) :
    Moved pattern c parser later := by
  -- The characters of a specifier other than the conversion character stay behind the index.
  have stays {next : Parser}
      (ok : (Except.ok next : Except LogMessagePatternFormatterException Parser) = .ok later)
      (same : next.i = parser.i) : Moved pattern c parser later := by
    obtain rfl := Except.ok.inj ok
    exact .forward same.ge (same ▸ inside)
  have finalized {literal : Text}
      (state : parser.state ∈ [EParserState.converterState, .minState, .maxState])
      (ok : finalizeConverter equalsIgnoreCase pattern { parser with literal := literal } c =
        .ok later) : Moved pattern c parser later := by
    have moved := @finalizeConverter_moved _ _ { parser with literal := literal } _ _ state inside ok
    cases moved with
    | forward least most => exact .forward least most
    | restarted state conversion unclosed converters reset =>
        exact .restarted state conversion unclosed converters reset
  unfold parseChar at ok
  cases state : parser.state with
  | literalState =>
      rw [state] at ok
      obtain rfl := Except.ok.inj ok
      obtain ⟨least, most⟩ := @parseLiteral_moved pattern parser c inside
      exact .forward least most
  | converterState =>
      rw [state] at ok
      dsimp only [parseConverter] at ok
      split at ok
      · exact stays ok rfl
      · split at ok
        · exact stays ok rfl
        · split at ok
          · exact stays ok rfl
          · exact finalized (by simp [state]) ok
  | dotState =>
      rw [state] at ok
      dsimp only [parseDot] at ok
      generalize invalidPattern _ _ _ _ = exception at ok
      split at ok
      · exact stays ok rfl
      · cases ok
  | minState =>
      rw [state] at ok
      dsimp only [parseMin] at ok
      split at ok
      · exact stays ok rfl
      · split at ok
        · exact stays ok rfl
        · exact finalized (by simp [state]) ok
  | maxState =>
      rw [state] at ok
      dsimp only [parseMax] at ok
      split at ok
      · exact stays ok rfl
      · exact finalized (by simp [state]) ok

/-- In these states the other characters end the specifier. -/
theorem parseChar_conversion
    (state : parser.state ∈ [EParserState.converterState, .minState, .maxState])
    (plain : isDigit c = false ∧ c ≠ '-' ∧ c ≠ '.') :
    parseChar equalsIgnoreCase pattern parser c =
      finalizeConverter equalsIgnoreCase pattern
        { parser with literal := parser.literal ++ [c] } c := by
  obtain ⟨noDigit, noMinus, noDot⟩ := plain
  unfold parseChar
  cases here : parser.state with
  | literalState => simp [here] at state
  | dotState => simp [here] at state
  | converterState => simp [parseConverter, here, noDigit, noMinus, noDot]
  | minState => simp [parseMin, here, noDigit, noDot]
  | maxState => simp [parseMax, here, noDigit]

/-- A conversion character whose option is not closed restarts the parser unless it throws. -/
theorem parseChar_unclosed
    (state : parser.state ∈ [EParserState.converterState, .minState, .maxState])
    (conversion : c ∈ ['c', 'd']) (unclosed : BraceUnclosed pattern parser.i) :
    (¬ (c = 'c' ∧ pattern.drop (parser.i + 1) ≠ [] ∧
        toUInt32 (pattern.drop (parser.i + 1)) = none) ∧
      ∃ converters, parseChar equalsIgnoreCase pattern parser c =
        .ok { Parser.start with converters := converters }) ∨
    (c = 'c' ∧ pattern.drop (parser.i + 1) ≠ [] ∧
        toUInt32 (pattern.drop (parser.i + 1)) = none) ∧
      ∃ exception, parseChar equalsIgnoreCase pattern parser c = .error exception := by
  have option : getOption pattern parser.i = (pattern.drop (parser.i + 1), 0) := by
    rcases getOption_range unclosed.1.le with ⟨-, option⟩ | ⟨closed, -⟩
    · exact option
    · exact absurd unclosed closed
  have isConversion : c = 'c' ∨ c = 'd' := by simpa using conversion
  have plain : isDigit c = false ∧ c ≠ '-' ∧ c ≠ '.' := by
    rcases isConversion with rfl | rfl <;> decide
  rw [parseChar_conversion state plain]
  unfold finalizeConverter converterFor
  rcases isConversion with rfl | rfl
  · rw [if_pos rfl, getPrecision, option]
    dsimp only
    by_cases none : pattern.drop (parser.i + 1) = []
    · rw [if_pos none]
      exact .inl ⟨fun refused => refused.2.1 none, _, rfl⟩
    · rw [if_neg none]
      cases number : toUInt32 (pattern.drop (parser.i + 1)) with
      | none => exact .inr ⟨⟨rfl, none, rfl⟩, _, rfl⟩
      | some value => exact .inl ⟨fun refused => Option.some_ne_none _ refused.2.2, _, rfl⟩
  · rw [if_neg (by decide), if_pos rfl, option]
    exact .inl ⟨fun refused => absurd refused.1 (by decide), _, rfl⟩

end Characters

section Runs

variable (equalsIgnoreCase : Text → Text → Bool) (pattern : Text)

/-- The states at the head of the loop of `parse`. -/
def Reached (parser : Parser) : Prop :=
  Visits (parseIteration equalsIgnoreCase pattern) .start parser

/-- Nothing is left open that the parser does not throw for. -/
def Closed : Prop :=
  ∀ parser, Reached equalsIgnoreCase pattern parser →
    ¬ SpecifierUnclosed pattern parser ∧
      (OptionUnclosed pattern parser → PrecisionRefused pattern parser)

/-- The parser returns, goes forward in each iteration, and throws for what is not closed. -/
structure Finishes : Prop where
  returns : ∃ result, Returns (parseIteration equalsIgnoreCase pattern) .start result
  forward (parser later : Parser) (reached : Reached equalsIgnoreCase pattern parser)
    (goes : parseIteration equalsIgnoreCase pattern parser = .next later) : parser.i < later.i
  reported (parser : Parser) (reached : Reached equalsIgnoreCase pattern parser)
    (unclosed : OptionUnclosed pattern parser ∨ SpecifierUnclosed pattern parser) :
    ∃ exception, parseIteration equalsIgnoreCase pattern parser = .stop (.error exception)

variable {equalsIgnoreCase pattern} {parser later : Parser}

/-- An iteration goes forward inside of the pattern, or restarts at an option not closed. -/
theorem parseIteration_moved
    (goes : parseIteration equalsIgnoreCase pattern parser = .next later) :
    parser.i < pattern.length ∧ (parser.i < later.i ∧ later.i ≤ pattern.length ∨
      OptionUnclosed pattern parser ∧ later.i = 0) := by
  unfold parseIteration at goes
  split at goes
  · next inside =>
      refine ⟨inside, ?_⟩
      cases parsed : parseChar equalsIgnoreCase pattern { parser with i := parser.i + 1 }
        (charAt pattern parser.i) with
      | error exception =>
          rw [parsed] at goes
          cases goes
      | ok next =>
          rw [parsed] at goes
          obtain rfl := Iteration.next.inj goes
          cases parseChar_moved (show parser.i + 1 ≤ pattern.length from inside) parsed with
          | forward least most => exact .inl ⟨least, most⟩
          | restarted state conversion unclosed converters reset =>
              rw [reset]
              exact .inr ⟨⟨inside, state, conversion, unclosed⟩, rfl⟩
  · cases goes

/-- At an option not closed the parser throws or restarts with more converters. -/
theorem parseIteration_unclosed (unclosed : OptionUnclosed pattern parser) :
    (¬ PrecisionRefused pattern parser ∧ ∃ converters,
      parseIteration equalsIgnoreCase pattern parser =
        .next { Parser.start with converters := converters }) ∨
      PrecisionRefused pattern parser ∧ ∃ exception,
        parseIteration equalsIgnoreCase pattern parser = .stop (.error exception) := by
  obtain ⟨inside, state, conversion, brace⟩ := unclosed
  unfold parseIteration PrecisionRefused
  rw [if_pos inside]
  rcases @parseChar_unclosed equalsIgnoreCase pattern { parser with i := parser.i + 1 } _ state
    conversion brace with ⟨accepted, converters, parsed⟩ | ⟨refused, exception, parsed⟩
  · rw [parsed]
    exact .inl ⟨accepted, converters, rfl⟩
  · rw [parsed]
    exact .inr ⟨refused, exception, rfl⟩

/-- The end of the pattern is never an error. -/
theorem parseIteration_specifier (unclosed : SpecifierUnclosed pattern parser)
    (exception : LogMessagePatternFormatterException) :
    parseIteration equalsIgnoreCase pattern parser ≠ .stop (.error exception) := by
  unfold parseIteration
  rcases unclosed with ⟨state, last, percent⟩ | ⟨state, ended⟩
  · rw [if_pos (by omega), parseChar, state]
    simp
  · rw [if_neg (by omega)]
    simp

/-- Each iteration goes forward when the parser throws for the options that are not closed. -/
theorem parseIteration_forward
    (refused : OptionUnclosed pattern parser → PrecisionRefused pattern parser)
    (goes : parseIteration equalsIgnoreCase pattern parser = .next later) :
    parser.i < later.i := by
  rcases (parseIteration_moved goes).2 with ⟨less, -⟩ | ⟨unclosed, -⟩
  · exact less
  · rcases parseIteration_unclosed unclosed with ⟨accepted, -⟩ | ⟨-, exception, stops⟩
    · exact absurd (refused unclosed) accepted
    · rw [stops] at goes
      cases goes

theorem returns_of_refused
    (refused : ∀ parser, Reached equalsIgnoreCase pattern parser →
      OptionUnclosed pattern parser → PrecisionRefused pattern parser) :
    ∃ result, Returns (parseIteration equalsIgnoreCase pattern) .start result :=
  returns_of_decreasing (fun parser => pattern.length - parser.i) fun parser later reached goes => by
    have less := parseIteration_forward (refused parser reached) goes
    have inside := (parseIteration_moved goes).1
    omega

/-- The parser does all this exactly for the patterns in which nothing is left open. -/
theorem finishes_iff (equalsIgnoreCase : Text → Text → Bool) (pattern : Text) :
    Finishes equalsIgnoreCase pattern ↔ Closed equalsIgnoreCase pattern := by
  constructor
  · intro finishes parser reached
    refine ⟨fun unclosed => ?_, fun unclosed => ?_⟩
    · obtain ⟨exception, stops⟩ := finishes.reported parser reached (.inr unclosed)
      exact parseIteration_specifier unclosed exception stops
    · rcases parseIteration_unclosed unclosed with ⟨-, converters, goes⟩ | ⟨refused, -⟩
      · exact absurd (finishes.forward parser _ reached goes) (Nat.not_lt_zero _)
      · exact refused
  · intro closed
    exact {
      returns := returns_of_refused fun parser reached => (closed parser reached).2
      forward := fun parser _ reached => parseIteration_forward (closed parser reached).2
      reported := fun parser reached unclosed => by
        rcases unclosed with option | specifier
        · rcases parseIteration_unclosed option with ⟨accepted, -⟩ | ⟨-, throws⟩
          · exact absurd ((closed parser reached).2 option) accepted
          · exact throws
        · exact absurd specifier (closed parser reached).1 }

end Runs

section Divergence

variable {equalsIgnoreCase : Text → Text → Bool} {pattern : Text} {parser later : Parser}

/-- The parser with converters that were there before. No branch looks at them. -/
def Parser.prepend (earlier : List Converter) (parser : Parser) : Parser :=
  { parser with converters := earlier ++ parser.converters }

theorem escape_prepend (earlier : List Converter) :
    escape pattern (parser.prepend earlier) = (escape pattern parser).prepend earlier := by
  unfold escape
  simp only [apply_ite (Parser.prepend earlier)]
  rfl

theorem pushLiteral_prepend (earlier : List Converter) :
    (parser.prepend earlier).pushLiteral = earlier ++ parser.pushLiteral := by
  unfold Parser.pushLiteral
  rw [apply_ite (earlier ++ ·), ← List.append_assoc]
  rfl

theorem parseLiteral_prepend (earlier : List Converter) (c : Char) :
    parseLiteral pattern (parser.prepend earlier) c =
      (parseLiteral pattern parser c).prepend earlier := by
  unfold parseLiteral
  rw [pushLiteral_prepend, escape_prepend]
  simp only [apply_ite (Parser.prepend earlier)]
  rfl

theorem finalizeConverter_prepend (earlier : List Converter) (c : Char) :
    finalizeConverter equalsIgnoreCase pattern (parser.prepend earlier) c =
      (finalizeConverter equalsIgnoreCase pattern parser c).map (Parser.prepend earlier) := by
  unfold finalizeConverter Parser.prepend
  dsimp only
  cases converterFor equalsIgnoreCase pattern parser.formatting parser.i c with
  | error exception => rfl
  | ok pair => simp [bind, Except.bind, Except.map, pure, Except.pure]

theorem parseChar_prepend (earlier : List Converter) (c : Char) :
    parseChar equalsIgnoreCase pattern (parser.prepend earlier) c =
      (parseChar equalsIgnoreCase pattern parser c).map (Parser.prepend earlier) := by
  have finalized (literal : Text) :
      finalizeConverter equalsIgnoreCase pattern
          { parser.prepend earlier with literal := literal } c =
        (finalizeConverter equalsIgnoreCase pattern { parser with literal := literal } c).map
          (Parser.prepend earlier) :=
    @finalizeConverter_prepend _ _ { parser with literal := literal } earlier c
  have same : (parser.prepend earlier).state = parser.state := rfl
  unfold parseChar
  rw [same]
  cases parser.state with
  | literalState => exact congrArg Except.ok (parseLiteral_prepend earlier c)
  | converterState =>
      dsimp only [parseConverter]
      split_ifs
      · rfl
      · rfl
      · rfl
      · exact finalized _
  | dotState =>
      dsimp only [parseDot]
      split_ifs
      · rfl
      · rfl
  | minState =>
      dsimp only [parseMin]
      split_ifs
      · rfl
      · rfl
      · exact finalized _
  | maxState =>
      dsimp only [parseMax]
      split_ifs
      · rfl
      · exact finalized _

theorem parseIteration_prepend (earlier : List Converter)
    (goes : parseIteration equalsIgnoreCase pattern parser = .next later) :
    parseIteration equalsIgnoreCase pattern (parser.prepend earlier) =
      .next (later.prepend earlier) := by
  have parsed := @parseChar_prepend equalsIgnoreCase pattern { parser with i := parser.i + 1 }
    earlier (charAt pattern parser.i)
  have inside := (parseIteration_moved goes).1
  unfold parseIteration at goes ⊢
  rw [if_pos inside] at goes
  rw [if_pos (show (parser.prepend earlier).i < pattern.length from inside)]
  have next : parseChar equalsIgnoreCase pattern
      { parser.prepend earlier with i := (parser.prepend earlier).i + 1 }
      (charAt pattern (parser.prepend earlier).i) =
        (parseChar equalsIgnoreCase pattern { parser with i := parser.i + 1 }
          (charAt pattern parser.i)).map (Parser.prepend earlier) := parsed
  rw [next]
  cases result : parseChar equalsIgnoreCase pattern { parser with i := parser.i + 1 }
      (charAt pattern parser.i) with
  | error exception =>
      rw [result] at goes
      cases goes
  | ok after =>
      rw [result] at goes
      obtain rfl := Iteration.next.inj goes
      rfl

theorem visits_prepend (earlier : List Converter)
    (reached : Reached equalsIgnoreCase pattern parser) :
    Visits (parseIteration equalsIgnoreCase pattern) (Parser.start.prepend earlier)
      (parser.prepend earlier) := by
  unfold Reached at reached
  induction reached with
  | start => exact .start
  | next before goes ih => exact .next ih (parseIteration_prepend earlier goes)

/-- The parser does not return when it restarts, since it comes to the same character again. -/
theorem not_returns (reached : Reached equalsIgnoreCase pattern parser)
    (unclosed : OptionUnclosed pattern parser) (accepted : ¬ PrecisionRefused pattern parser)
    (result : Except LogMessagePatternFormatterException (List Converter)) :
    ¬ Returns (parseIteration equalsIgnoreCase pattern) .start result := by
  rcases parseIteration_unclosed unclosed with ⟨-, converters, goes⟩ | ⟨refused, -⟩
  · have again (state : Parser) (here : ∃ earlier, state = Parser.start.prepend earlier) :
        ∃ last later, Visits (parseIteration equalsIgnoreCase pattern) state last ∧
          parseIteration equalsIgnoreCase pattern last = .next later ∧
            ∃ earlier, later = Parser.start.prepend earlier := by
      obtain ⟨earlier, rfl⟩ := here
      refine ⟨_, _, visits_prepend earlier reached, parseIteration_prepend earlier goes,
        earlier ++ converters, ?_⟩
      simp [Parser.prepend, Parser.start]
    exact not_returns_of_recurrence again ⟨[], rfl⟩ result
  · exact absurd refused accepted

/-- The pattern of a date whose option is not closed. -/
def unclosedDate : Text := ['%', 'd', '{']

/-- The option of the date is not closed, and the parser appends dates for ever. -/
theorem dateOption_not_finishes :
    ¬ Finishes (fun text other => text == other) unclosedDate ∧
      ¬ ∃ result,
        Returns (parseIteration (fun text other => text == other) unclosedDate) .start result := by
  have reached : Reached (fun text other => text == other) unclosedDate
      ⟨1, .converterState, ['%'], .none, []⟩ :=
    .next .start rfl
  have unclosed : OptionUnclosed unclosedDate ⟨1, .converterState, ['%'], .none, []⟩ := by
    unfold OptionUnclosed BraceUnclosed
    decide
  have accepted : ¬ PrecisionRefused unclosedDate ⟨1, .converterState, ['%'], .none, []⟩ :=
    fun refused => absurd refused.1 (by decide)
  have never : ¬ ∃ result,
      Returns (parseIteration (fun text other => text == other) unclosedDate) .start result :=
    fun returns => returns.elim (not_returns reached unclosed accepted)
  exact ⟨fun finishes => never finishes.returns, never⟩

end Divergence

end Blocxx.LogMessagePatternFormatter
