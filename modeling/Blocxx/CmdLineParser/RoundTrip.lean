import Blocxx.CmdLineParser.CmdLineParser
import Blocxx.Library.Operation

/-!
This file proves that a parsed command line has the options and the arguments it was written from.
-/

namespace Blocxx.CmdLineParsers
open Library

/-- The options of a parser that were all verified. -/
structure CmdLineParser.Verified (parser : CmdLineParser) : Prop where
  long : parser.m_options.Pairwise fun first second =>
    second.longopt ≠ [] → first.longopt ≠ second.longopt
  short : parser.m_options.Pairwise fun first second =>
    second.shortopt ≠ noShortopt → first.shortopt ≠ second.shortopt
  apart : parser.ambiguityExists = true → ∀ first ∈ parser.m_options,
    ∀ second ∈ parser.m_options, second.shortopt ≠ noShortopt →
      first.longopt ≠ [second.shortopt]
  defaults : ∀ option ∈ parser.m_options, option.argtype = .optionalArg →
    option.haveDefaultValue = true

variable {parser loaded : CmdLineParser} {option : ParserOption}

theorem reject_eq_ok {wrong : Prop} [Decidable wrong] {errorText : Text} {answer : Unit} :
    CmdLineParser.reject wrong errorText = .ok answer ↔ ¬ wrong := by
  unfold CmdLineParser.reject
  by_cases bad : wrong
  · simp [bad]
  · simp [bad]

theorem findLong_isSome {name : Text} :
    (parser.findLong name).isSome = true ↔ ∃ other ∈ parser.m_options, name = other.longopt := by
  simp [CmdLineParser.findLong]

theorem findShort_isSome {letter : Char} :
    (parser.findShort letter).isSome = true ↔
      ∃ other ∈ parser.m_options, letter = other.shortopt := by
  simp [CmdLineParser.findShort]

/-- The checks that matter to parsing. -/
theorem verifyOptionValidity_ok (verifies : parser.verifyOptionValidity option = .ok ()) :
    (option.longopt ≠ [] → ∀ other ∈ parser.m_options, other.longopt ≠ option.longopt) ∧
    (option.shortopt ≠ noShortopt →
      ∀ other ∈ parser.m_options, other.shortopt ≠ option.shortopt) ∧
    (parser.ambiguityExists = true → ∀ other ∈ parser.m_options,
      (other.shortopt ≠ noShortopt → option.longopt ≠ [other.shortopt]) ∧
        (option.shortopt ≠ noShortopt → other.longopt ≠ [option.shortopt])) ∧
    (parser.ambiguityExists = true → option.shortopt ≠ noShortopt →
      option.longopt ≠ [option.shortopt]) ∧
    (option.argtype = .optionalArg → option.haveDefaultValue = true) := by
  unfold CmdLineParser.verifyOptionValidity at verifies
  simp only [bind_eq_ok, reject_eq_ok, findLong_isSome, findShort_isSome] at verifies
  obtain ⟨_, _, _, _, _, long, _, letter, _, short, _, name, _, own, default⟩ := verifies
  refine ⟨?_, ?_, ?_, ?_, ?_⟩
  · intro named other member same
    exact long ⟨named, other, member, same.symm⟩
  · intro named other member same
    exact short ⟨named, other, member, same.symm⟩
  · intro ambiguous other member
    refine ⟨?_, ?_⟩
    · intro named same
      exact letter ⟨by simp [same], ambiguous, by simp [same], other, member, by simp [same]⟩
    · intro named same
      exact name ⟨named, ambiguous, other, member, same.symm⟩
  · intro ambiguous named same
    exact own ⟨named, ambiguous, same⟩
  · intro optional
    by_contra none
    exact default ⟨optional, by simpa using none⟩

theorem CmdLineParser.Verified.addOptionWithID (verified : parser.Verified)
    (adds : parser.addOptionWithID option = .ok loaded) : loaded.Verified := by
  rw [CmdLineParser.addOptionWithID, bind_eq_ok] at adds
  obtain ⟨_, verifies, ends⟩ := adds
  obtain rfl := Except.ok.inj ends
  obtain ⟨long, short, apart, own, default⟩ := verifyOptionValidity_ok verifies
  exact {
    long := by
      rw [List.pairwise_append]
      refine ⟨verified.long, List.pairwise_singleton _ _, ?_⟩
      intro first old second new named
      rw [List.mem_singleton] at new
      subst new
      exact long named first old
    short := by
      rw [List.pairwise_append]
      refine ⟨verified.short, List.pairwise_singleton _ _, ?_⟩
      intro first old second new named
      rw [List.mem_singleton] at new
      subst new
      exact short named first old
    apart := by
      intro ambiguous first firstMember second secondMember named
      rw [List.mem_append, List.mem_singleton] at firstMember secondMember
      rcases firstMember with firstOld | rfl
      · rcases secondMember with secondOld | rfl
        · exact verified.apart ambiguous first firstOld second secondOld named
        · exact (apart ambiguous first firstOld).2 named
      · rcases secondMember with secondOld | rfl
        · exact (apart ambiguous second secondOld).1 named
        · exact own ambiguous named
    defaults := by
      intro other member optional
      rw [List.mem_append, List.mem_singleton] at member
      rcases member with old | rfl
      · exact verified.defaults other old optional
      · exact default optional }

/-- The options of a table that was added without an exception are verified. -/
theorem CmdLineParser.Verified.addOptions (verified : parser.Verified) (table : List ParserOption)
    (adds : parser.addOptions table = .ok loaded) : loaded.Verified := by
  induction table generalizing parser with
  | nil =>
      obtain rfl := Except.ok.inj adds
      exact verified
  | cons option rest ih =>
      rw [CmdLineParser.addOptions, List.foldlM_cons, bind_eq_ok] at adds
      obtain ⟨between, first, later⟩ := adds
      exact ih (verified.addOptionWithID first) later

/-- An element that no earlier one equals is the first one found. -/
theorem find_eq_some {Element : Type} {elements : List Element} {wanted : Element → Bool}
    {element : Element} (member : element ∈ elements) (found : wanted element = true)
    (distinct : elements.Pairwise fun first second =>
      second = element → wanted first = false) : elements.find? wanted = some element := by
  obtain ⟨before, after, rfl⟩ := List.append_of_mem member
  rw [List.pairwise_append] at distinct
  obtain ⟨-, -, earlier⟩ := distinct
  rw [List.find?_eq_some_iff_append]
  refine ⟨found, before, after, rfl, ?_⟩
  intro first old
  rw [earlier first old element List.mem_cons_self rfl]
  rfl

theorem CmdLineParser.Verified.findLong (verified : parser.Verified)
    (member : option ∈ parser.m_options) (named : option.longopt ≠ []) :
    parser.findLong option.longopt = some option := by
  apply find_eq_some member
  · simp
  · apply verified.long.imp
    rintro first second different rfl
    simpa using (different named).symm

theorem CmdLineParser.Verified.findShort (verified : parser.Verified)
    (member : option ∈ parser.m_options) (named : option.shortopt ≠ noShortopt) :
    parser.findShort option.shortopt = some option := by
  apply find_eq_some member
  · simp
  · apply verified.short.imp
    rintro first second different rfl
    simpa using (different named).symm

/-- No short option hides a long option of one letter. -/
theorem CmdLineParser.Verified.findShort_none (verified : parser.Verified)
    (ambiguous : parser.ambiguityExists = true) (member : option ∈ parser.m_options)
    {letter : Char} (single : option.longopt = [letter]) (isLetter : letter ≠ noShortopt) :
    parser.findShort letter = none := by
  rw [CmdLineParser.findShort, List.find?_eq_none]
  intro other otherMember same
  obtain rfl : letter = other.shortopt := by simpa using same
  exact verified.apart ambiguous option member other otherMember isLetter single

/-- The ways to write the name of an option. -/
inductive Spelling where
  | long
  | short
  deriving DecidableEq

/-- The parts of a command line. A value is attached to its option, separated from a short option
by the value separator, or the next argument. -/
inductive Item where
  | nonOption (argument : Text)
  | alone (option : ParserOption) (spelling : Spelling)
  | attached (option : ParserOption) (spelling : Spelling) (value : Text)
  | separated (option : ParserOption) (value : Text)
  | detached (option : ParserOption) (spelling : Spelling) (value : Text)

namespace CmdLineParser

variable (parser : CmdLineParser)

def spell (option : ParserOption) : Spelling → Text
  | .long => parser.longName option
  | .short => parser.shortName option

/-- The arguments that a part is written as. -/
def render : Item → List Text
  | .nonOption argument => [argument]
  | .alone option spelling => [parser.spell option spelling]
  | .attached option .long value =>
      [parser.longName option ++ parser.m_valueSeparator :: value]
  | .attached option .short value => [parser.shortName option ++ value]
  | .separated option value => [parser.shortName option ++ parser.m_valueSeparator :: value]
  | .detached option spelling value => [parser.spell option spelling, value]

end CmdLineParser

/-- The option that a part gives, with the values that it adds. -/
def Item.given : Item → Option (Int × List Text)
  | .nonOption _ => none
  | .alone option _ =>
      some (option.id, if option.argtype = .noArg then [] else [option.defaultValue])
  | .attached option _ value => some (option.id, [value])
  | .separated option value => some (option.id, [value])
  | .detached option _ value => some (option.id, [value])

/-- The values that a part adds to an option. -/
def Item.valuesOf (id : Int) (item : Item) : List Text :=
  match item.given with
  | some (given, values) => if given = id then values else []
  | none => []

def Item.nonOptions : Item → List Text
  | .nonOption argument => [argument]
  | _ => []

/-- Parsing succeeds and gives each option its values, and the other arguments, in order. -/
def RoundTrips (parser : CmdLineParser) (allowNonOptionArgs : EAllowNonOptionArgsFlag)
    (program : Text) (items : List Item) : Prop :=
  ∃ parsed, parser.parse (program :: items.flatMap parser.render) allowNonOptionArgs = .ok parsed ∧
    (∀ id, parsed.getOptionValueList id = items.flatMap (Item.valuesOf id)) ∧
      parsed.nonOptionArgs = items.flatMap Item.nonOptions

/-- The name can be told from the rest of an argument. -/
def Spelled (parser : CmdLineParser) (option : ParserOption) : Spelling → Prop
  | .long => option.longopt ≠ [] ∧ noShortopt ∉ option.longopt ∧
      parser.m_valueSeparator ∉ parser.longName option
  | .short => option.shortopt ≠ noShortopt ∧
      parser.m_valueSeparator ∉ parser.shortName option ∧
        (parser.m_longOptionPrefix <+: parser.shortName option → parser.ambiguityExists = true)

/-- Nothing in front of the separator but a prefix, or no prefix at all. -/
def IsNonOption (parser : CmdLineParser) (argument : Text) : Prop :=
  let part := parser.optionPart argument
  (¬ parser.m_longOptionPrefix <+: part ∧ part.head? ≠ some parser.m_shortOptionPrefix) ∨
    part = parser.m_longOptionPrefix ∨
      (part = [parser.m_shortOptionPrefix] ∧ parser.m_longOptionPrefix ≠ [])

/-- A part is read as it was written. The argument after it matters only for an optional value
that is left out. -/
def Fits (parser : CmdLineParser) (allowNonOptionArgs : EAllowNonOptionArgsFlag)
    (following : Option Text) : Item → Prop
  | .nonOption argument =>
      allowNonOptionArgs = .nonOptionArgsAllowed ∧ IsNonOption parser argument
  | .alone option spelling =>
      option ∈ parser.m_options ∧ Spelled parser option spelling ∧
        (option.argtype = .noArg ∨ option.argtype = .optionalArg ∧
          ∀ argument ∈ following, parser.useNext argument = false)
  | .attached option .long _ =>
      option ∈ parser.m_options ∧ Spelled parser option .long ∧ option.argtype ≠ .noArg
  | .attached option .short value =>
      option ∈ parser.m_options ∧ Spelled parser option .short ∧ option.argtype ≠ .noArg ∧
        value ≠ [] ∧ value.head? ≠ some parser.m_valueSeparator ∧
          ¬ parser.m_longOptionPrefix <+: parser.optionPart (parser.shortName option ++ value)
  | .separated option _ =>
      option ∈ parser.m_options ∧ Spelled parser option .short ∧ option.argtype ≠ .noArg
  | .detached option spelling value =>
      option ∈ parser.m_options ∧ Spelled parser option spelling ∧ option.argtype ≠ .noArg ∧
        parser.useNext value = true

def WellFormed (parser : CmdLineParser) (allowNonOptionArgs : EAllowNonOptionArgsFlag) :
    List Item → Prop
  | [] => True
  | item :: later =>
      Fits parser allowNonOptionArgs (later.flatMap parser.render).head? item ∧
        WellFormed parser allowNonOptionArgs later

section Split

variable {name value : Text}

/-- What follows the name of an option in its argument. -/
def CmdLineParser.tail (parser : CmdLineParser) : Option Text → Text
  | none => []
  | some value => parser.m_valueSeparator :: value

/-- A name without the separator is the part in front of it. -/
theorem optionPart_append (clean : parser.m_valueSeparator ∉ name) (attached : Option Text) :
    parser.optionPart (name ++ parser.tail attached) = name ∧
      ((name ++ parser.tail attached).dropWhile (· ≠ parser.m_valueSeparator)).drop 1 =
        attached.getD [] ∧
          (parser.m_valueSeparator ∈ name ++ parser.tail attached ↔ attached.isSome = true) := by
  have inside : ∀ letter ∈ name, decide (letter ≠ parser.m_valueSeparator) = true := by
    intro letter member
    have different : letter ≠ parser.m_valueSeparator := fun same => clean (same ▸ member)
    simpa using different
  rw [CmdLineParser.optionPart, List.takeWhile_append_of_pos inside,
    List.dropWhile_append_of_pos inside]
  cases attached with
  | none => simp [CmdLineParser.tail, clean]
  | some value => simp [CmdLineParser.tail]

variable (parser) in
/-- The third letter of a short option with a tail is the separator. -/
theorem splitShort_append (attached : Option Text) (first second : Char)
    (baseOption value : Text) (valueAttached : Bool) :
    parser.splitShort ([first, second] ++ parser.tail attached) baseOption value valueAttached =
      ⟨.short, baseOption, value, valueAttached⟩ := by
  rw [CmdLineParser.splitShort, if_neg]
  rintro ⟨long, different⟩
  cases attached with
  | none => simp [CmdLineParser.tail] at long
  | some value => simp [CmdLineParser.tail] at different

theorem ambiguityExists_iff :
    parser.ambiguityExists = true ↔ parser.m_longOptionPrefix = [parser.m_shortOptionPrefix] := by
  simp [CmdLineParser.ambiguityExists]

/-- The type that a long option is read as. -/
def longType (parser : CmdLineParser) (option : ParserOption) : EOptionType :=
  if option.longopt.length = 1 ∧ parser.ambiguityExists then .short else .long

theorem splitArgument_long (spelled : Spelled parser option .long) (attached : Option Text) :
    parser.splitArgument (parser.longName option ++ parser.tail attached) =
      ⟨longType parser option, option.longopt, attached.getD [], attached.isSome⟩ := by
  obtain ⟨named, _, clean⟩ := spelled
  obtain ⟨part, value, given⟩ := optionPart_append clean attached
  rw [CmdLineParser.splitArgument]
  have starts : parser.m_longOptionPrefix <+: parser.longName option := List.prefix_append _ _
  simp only [part, value, given, Bool.decide_eq_true]
  rw [if_pos starts]
  by_cases ambiguous : parser.ambiguityExists = true
  · have single := ambiguityExists_iff.mp ambiguous
    by_cases one : option.longopt.length = 1
    · obtain ⟨letter, letters⟩ := List.length_eq_one_iff.mp one
      have two : parser.longName option = [parser.m_shortOptionPrefix, letter] := by
        rw [CmdLineParser.longName, single, letters]
        rfl
      rw [two, if_pos ⟨rfl, ambiguous⟩, splitShort_append parser attached, longType,
        if_pos ⟨one, ambiguous⟩, letters]
      rfl
    · rw [if_neg, longType, if_neg (fun both => one both.1), CmdLineParser.longName, List.drop_left]
      rintro ⟨two, _⟩
      rw [CmdLineParser.longName, single, List.length_append, List.length_singleton] at two
      omega
  · rw [if_neg (fun both => ambiguous both.2), longType, if_neg (fun both => ambiguous both.2),
      CmdLineParser.longName, List.drop_left]

theorem splitArgument_short (spelled : Spelled parser option .short) (attached : Option Text) :
    parser.splitArgument (parser.shortName option ++ parser.tail attached) =
      ⟨.short, [option.shortopt], attached.getD [], attached.isSome⟩ := by
  obtain ⟨_, clean, apart⟩ := spelled
  obtain ⟨part, value, given⟩ := optionPart_append clean attached
  have starts : (parser.shortName option).head? = some parser.m_shortOptionPrefix := rfl
  have short := splitShort_append parser attached parser.m_shortOptionPrefix option.shortopt
  rw [CmdLineParser.splitArgument]
  simp only [part, value, given, Bool.decide_eq_true]
  by_cases long : parser.m_longOptionPrefix <+: parser.shortName option
  · rw [if_pos long, if_pos ⟨rfl, apart long⟩]
    exact short _ _ _
  · rw [if_neg long, if_pos starts]
    exact short _ _ _

/-- A value behind a short option that is not the separator is its value. -/
theorem splitArgument_attached (given : value ≠ [])
    (first : value.head? ≠ some parser.m_valueSeparator)
    (spelled : Spelled parser option .short)
    (notLong : ¬ parser.m_longOptionPrefix <+:
      parser.optionPart (parser.shortName option ++ value)) :
    parser.splitArgument (parser.shortName option ++ value) =
      ⟨.short, [option.shortopt], value, true⟩ := by
  obtain ⟨letter, letters, rfl⟩ := List.exists_cons_of_ne_nil given
  obtain ⟨_, clean, _⟩ := spelled
  rw [CmdLineParser.shortName, List.mem_cons, List.mem_singleton, not_or] at clean
  have part : parser.optionPart (parser.shortName option ++ letter :: letters) =
      parser.m_shortOptionPrefix :: option.shortopt ::
        parser.optionPart (letter :: letters) := by
    simp [CmdLineParser.optionPart, CmdLineParser.shortName, Ne.symm clean.1, Ne.symm clean.2]
  have third : (parser.shortName option ++ letter :: letters)[2]? = some letter := rfl
  rw [CmdLineParser.splitArgument]
  rw [part] at notLong ⊢
  rw [if_neg notLong, if_pos List.head?_cons, CmdLineParser.splitShort, if_pos]
  · rfl
  · refine ⟨by simp [CmdLineParser.shortName], ?_⟩
    rw [third]
    exact first

end Split

/-- The search finds the option that is spelled. -/
theorem findOption_long (verified : parser.Verified) (member : option ∈ parser.m_options)
    (spelled : Spelled parser option .long) (value : Text) (valueAttached : Bool) :
    parser.findOption ⟨longType parser option, option.longopt, value, valueAttached⟩ =
      some option := by
  obtain ⟨named, isText, _⟩ := spelled
  have found := verified.findLong member named
  rw [CmdLineParser.findOption, longType]
  by_cases hidden : option.longopt.length = 1 ∧ parser.ambiguityExists = true
  · obtain ⟨letter, letters⟩ := List.length_eq_one_iff.mp hidden.1
    have isLetter : letter ≠ noShortopt := by
      rintro rfl
      exact isText (by simp [letters])
    have notShort := verified.findShort_none hidden.2 member letters isLetter
    rw [if_pos hidden]
    simp only [letters, List.headD_cons, notShort, hidden.2, if_true]
    rw [← letters]
    exact found
  · rw [if_neg hidden]
    exact found

theorem findOption_short (verified : parser.Verified) (member : option ∈ parser.m_options)
    (spelled : Spelled parser option .short) (value : Text) (valueAttached : Bool) :
    parser.findOption ⟨.short, [option.shortopt], value, valueAttached⟩ = some option := by
  have found := verified.findShort member spelled.1
  simp only [CmdLineParser.findOption, List.headD_cons, found]

/-- The split of an argument leads to the option and to its attached value. -/
structure Names (parser : CmdLineParser) (option : ParserOption) (attached : Option Text)
    (split : Split) : Prop where
  isOption : ¬ (split.optionType = .invalid ∨ split.baseOption = [])
  found : parser.findOption split = some option
  value : ∀ value ∈ attached, split.value = value
  valueAttached : split.valueAttached = attached.isSome

theorem splitArgument_names (verified : parser.Verified) (member : option ∈ parser.m_options)
    {spelling : Spelling} (spelled : Spelled parser option spelling) (attached : Option Text) :
    Names parser option attached
      (parser.splitArgument (parser.spell option spelling ++ parser.tail attached)) := by
  have value : ∀ value ∈ attached, attached.getD [] = value := by
    rintro value rfl
    rfl
  cases spelling with
  | long =>
      rw [CmdLineParser.spell, splitArgument_long spelled attached]
      exact {
        isOption := by
          rw [not_or]
          refine ⟨?_, spelled.1⟩
          dsimp only
          rw [longType]
          split <;> decide
        found := findOption_long verified member spelled _ _
        value := value
        valueAttached := rfl }
  | short =>
      rw [CmdLineParser.spell, splitArgument_short spelled attached]
      exact {
        isOption := by simp
        found := findOption_short verified member spelled _ _
        value := value
        valueAttached := rfl }

/-- An argument that is no option has no base option. -/
theorem splitArgument_nonOption {argument : Text} (isNonOption : IsNonOption parser argument) :
    (parser.splitArgument argument).optionType = .invalid ∨
      (parser.splitArgument argument).baseOption = [] := by
  have short (baseOption value : Text) (valueAttached : Bool) :
      (parser.splitShort argument baseOption value valueAttached).baseOption = baseOption := by
    rw [CmdLineParser.splitShort]
    split <;> rfl
  rw [CmdLineParser.splitArgument]
  rcases isNonOption with ⟨notLong, notShort⟩ | same | ⟨same, given⟩
  · rw [if_neg notLong, if_neg notShort]
    exact .inl rfl
  · rw [same, if_pos List.prefix_rfl, if_neg]
    · exact .inr (List.drop_length)
    · rintro ⟨two, ambiguous⟩
      rw [ambiguityExists_iff.mp ambiguous] at two
      cases two
  · right
    rw [same]
    split
    · split
      · exact short _ _ _
      · apply List.drop_of_length_le
        exact List.length_pos_of_ne_nil given
    · rw [if_pos List.head?_cons]
      exact short _ _ _

/-- The results after a part of the command line. -/
def Item.record (item : Item) (parsed : Parsed) : Parsed :=
  match item with
  | .nonOption argument => parsed.pushNonOption argument
  | .alone option _ =>
      if option.argtype = .noArg then parsed.touch option.id
      else parsed.push option.id option.defaultValue
  | .attached option _ value => parsed.push option.id value
  | .separated option value => parsed.push option.id value
  | .detached option _ value => parsed.push option.id value

section Parse

variable {allowNonOptionArgs : EAllowNonOptionArgsFlag} {argument : Text} {parsed : Parsed}

theorem parse_flag (names : Names parser option none (parser.splitArgument argument))
    (flag : option.argtype = .noArg) (rest : List Text) :
    parser.parseArguments allowNonOptionArgs (argument :: rest) parsed =
      parser.parseArguments allowNonOptionArgs rest (parsed.touch option.id) := by
  have notAttached : (parser.splitArgument argument).valueAttached = false := names.valueAttached
  rw [CmdLineParser.parseArguments.eq_def]
  dsimp only
  rw [if_neg names.isOption, names.found]
  dsimp only
  rw [if_pos flag, notAttached]
  rfl

theorem parse_attached {value : Text}
    (names : Names parser option (some value) (parser.splitArgument argument))
    (takes : option.argtype ≠ .noArg) (rest : List Text) :
    parser.parseArguments allowNonOptionArgs (argument :: rest) parsed =
      parser.parseArguments allowNonOptionArgs rest (parsed.push option.id value) := by
  have attached : (parser.splitArgument argument).valueAttached = true := names.valueAttached
  rw [CmdLineParser.parseArguments.eq_def]
  dsimp only
  rw [if_neg names.isOption, names.found]
  dsimp only
  rw [if_neg takes, if_pos attached, names.value value rfl]

theorem parse_next (names : Names parser option none (parser.splitArgument argument))
    (takes : option.argtype ≠ .noArg) {value : Text} (isValue : parser.useNext value = true)
    (rest : List Text) :
    parser.parseArguments allowNonOptionArgs (argument :: value :: rest) parsed =
      parser.parseArguments allowNonOptionArgs rest (parsed.push option.id value) := by
  have notAttached : ¬ (parser.splitArgument argument).valueAttached = true := by
    rw [names.valueAttached]
    decide
  rw [CmdLineParser.parseArguments.eq_def]
  dsimp only
  rw [if_neg names.isOption, names.found]
  dsimp only
  rw [if_neg takes, if_neg notAttached, if_pos isValue]

theorem parse_default (verified : parser.Verified) (member : option ∈ parser.m_options)
    (names : Names parser option none (parser.splitArgument argument))
    (optional : option.argtype = .optionalArg) {rest : List Text}
    (noValue : ∀ following ∈ rest.head?, parser.useNext following = false) :
    parser.parseArguments allowNonOptionArgs (argument :: rest) parsed =
      parser.parseArguments allowNonOptionArgs rest
        (parsed.push option.id option.defaultValue) := by
  have notAttached : ¬ (parser.splitArgument argument).valueAttached = true := by
    rw [names.valueAttached]
    decide
  have takes : option.argtype ≠ .noArg := by
    rw [optional]
    decide
  have default (text : Text) : CmdLineParser.requireDefault option text =
      .ok option.defaultValue := by
    rw [CmdLineParser.requireDefault, if_pos ⟨optional, verified.defaults option member optional⟩]
  rw [CmdLineParser.parseArguments.eq_def]
  dsimp only
  rw [if_neg names.isOption, names.found]
  dsimp only
  rw [if_neg takes, if_neg notAttached, default]
  cases rest with
  | nil => rfl
  | cons following later =>
      have refused : ¬ parser.useNext following = true := by
        rw [noValue following rfl]
        decide
      dsimp only
      rw [if_neg refused]

variable {rest : List Text}

/-- A part that fits is read back. -/
theorem parse_item (verified : parser.Verified) {item : Item}
    (fits : Fits parser allowNonOptionArgs rest.head? item) :
    parser.parseArguments allowNonOptionArgs (parser.render item ++ rest) parsed =
      parser.parseArguments allowNonOptionArgs rest (item.record parsed) := by
  cases item with
  | nonOption argument =>
      obtain ⟨rfl, isNonOption⟩ := fits
      rw [CmdLineParser.render, List.singleton_append, CmdLineParser.parseArguments.eq_def]
      dsimp only
      rw [if_pos (splitArgument_nonOption isNonOption)]
      rfl
  | alone option spelling =>
      obtain ⟨member, spelled, flag | ⟨optional, noValue⟩⟩ := fits
      · have names := splitArgument_names verified member spelled none
        rw [CmdLineParser.tail, List.append_nil] at names
        rw [CmdLineParser.render, List.singleton_append, parse_flag names flag, Item.record,
          if_pos flag]
      · have names := splitArgument_names verified member spelled none
        have takes : option.argtype ≠ .noArg := by
          rw [optional]
          decide
        rw [CmdLineParser.tail, List.append_nil] at names
        rw [CmdLineParser.render, List.singleton_append,
          parse_default verified member names optional noValue, Item.record, if_neg takes]
  | attached option spelling value =>
      cases spelling with
      | long =>
          obtain ⟨member, spelled, takes⟩ := fits
          exact parse_attached (splitArgument_names verified member spelled (some value)) takes rest
      | short =>
          obtain ⟨member, spelled, takes, given, first, notLong⟩ := fits
          have names : Names parser option (some value)
              (parser.splitArgument (parser.shortName option ++ value)) := by
            rw [splitArgument_attached given first spelled notLong]
            exact {
              isOption := by simp
              found := findOption_short verified member spelled _ _
              value := by simp
              valueAttached := rfl }
          exact parse_attached names takes rest
  | separated option value =>
      obtain ⟨member, spelled, takes⟩ := fits
      exact parse_attached (splitArgument_names verified member spelled (some value)) takes rest
  | detached option spelling value =>
      obtain ⟨member, spelled, takes, isValue⟩ := fits
      have names := splitArgument_names verified member spelled none
      rw [CmdLineParser.tail, List.append_nil] at names
      exact parse_next names takes isValue rest

/-- A command line that is written well is read part by part. -/
theorem parse_items (verified : parser.Verified) (items : List Item) : ∀ parsed,
    WellFormed parser allowNonOptionArgs items →
      parser.parseArguments allowNonOptionArgs (items.flatMap parser.render) parsed =
        .ok (items.foldl (fun parsed item => item.record parsed) parsed) := by
  induction items with
  | nil => exact fun parsed _ => rfl
  | cons item later ih =>
      rintro parsed ⟨fits, wellFormed⟩
      rw [List.flatMap_cons, parse_item verified fits, List.foldl_cons]
      exact ih _ wellFormed

end Parse

section Results

variable (parsed : Parsed) (id other : Int)

theorem getOptionValueList_touch :
    (parsed.touch other).getOptionValueList id = parsed.getOptionValueList id := by
  by_cases same : id = other
  · subst same
    cases found : parsed.parsedOptions id with
    | none => simp [Parsed.getOptionValueList, Parsed.touch, Parsed.subscript, found]
    | some values => simp [Parsed.getOptionValueList, Parsed.touch, Parsed.subscript, found]
  · simp [Parsed.getOptionValueList, Parsed.touch, same]

theorem getOptionValueList_push (value : Text) :
    (parsed.push other value).getOptionValueList id =
      parsed.getOptionValueList id ++ if other = id then [value] else [] := by
  by_cases same : id = other
  · subst same
    cases found : parsed.parsedOptions id with
    | none => simp [Parsed.getOptionValueList, Parsed.push, Parsed.subscript, found]
    | some values => simp [Parsed.getOptionValueList, Parsed.push, Parsed.subscript, found]
  · simp [Parsed.getOptionValueList, Parsed.push, same, Ne.symm same]

/-- A part adds its values. -/
theorem getOptionValueList_record (item : Item) :
    (item.record parsed).getOptionValueList id =
      parsed.getOptionValueList id ++ item.valuesOf id := by
  cases item with
  | nonOption argument => exact (List.append_nil _).symm
  | alone option spelling =>
      rw [Item.record, Item.valuesOf, Item.given]
      split
      · rw [getOptionValueList_touch]
        simp
      · exact getOptionValueList_push parsed id option.id option.defaultValue
  | attached option spelling value => exact getOptionValueList_push parsed id option.id value
  | separated option value => exact getOptionValueList_push parsed id option.id value
  | detached option spelling value => exact getOptionValueList_push parsed id option.id value

theorem nonOptionArgs_record (item : Item) :
    (item.record parsed).nonOptionArgs = parsed.nonOptionArgs ++ item.nonOptions := by
  cases item with
  | nonOption argument => rfl
  | alone option spelling =>
      rw [Item.record]
      split <;> exact (List.append_nil _).symm
  | attached | separated | detached => exact (List.append_nil _).symm

/-- All parts together add their values and their arguments in order. -/
theorem foldl_record (items : List Item) : ∀ parsed : Parsed,
    (∀ id, (items.foldl (fun parsed item => item.record parsed) parsed).getOptionValueList id =
      parsed.getOptionValueList id ++ items.flatMap (Item.valuesOf id)) ∧
    (items.foldl (fun parsed item => item.record parsed) parsed).nonOptionArgs =
      parsed.nonOptionArgs ++ items.flatMap Item.nonOptions := by
  induction items with
  | nil => simp
  | cons item later ih =>
      intro parsed
      obtain ⟨values, arguments⟩ := ih (item.record parsed)
      constructor
      · intro id
        rw [List.foldl_cons, values, getOptionValueList_record, List.append_assoc,
          List.flatMap_cons]
      · rw [List.foldl_cons, arguments, nonOptionArgs_record, List.append_assoc,
          List.flatMap_cons]

end Results

/-- A parser without options has nothing to verify. -/
theorem CmdLineParser.Verified.none (parser : CmdLineParser) (empty : parser.m_options = []) :
    parser.Verified where
  long := by simp [empty]
  short := by simp [empty]
  apart := by simp [empty]
  defaults := by simp [empty]

/-- Every well-formed command line for a verified table of options is parsed back. -/
theorem command_line_round_trips (parser loaded : CmdLineParser) (table : List ParserOption)
    (allowNonOptionArgs : EAllowNonOptionArgsFlag) (program : Text) (items : List Item)
    (empty : parser.m_options = []) (adds : parser.addOptions table = .ok loaded)
    (wellFormed : WellFormed loaded allowNonOptionArgs items) :
    RoundTrips loaded allowNonOptionArgs program items := by
  have verified : loaded.Verified :=
    (CmdLineParser.Verified.none parser empty).addOptions table adds
  obtain ⟨values, arguments⟩ := foldl_record items .clear
  refine ⟨items.foldl (fun parsed item => item.record parsed) .clear, ?_, ?_, ?_⟩
  · rw [CmdLineParser.parse, parse_items verified items .clear wellFormed]
    rfl
  · intro id
    rw [values id]
    rfl
  · rw [arguments]
    rfl

/-- An option that needs a value, one that takes none, and one whose value is optional. -/
def fileOption : ParserOption := ⟨1, 'f', "file".toList, .requiredArg, false, []⟩

def verboseOption : ParserOption := ⟨2, 'v', "verbose".toList, .noArg, false, []⟩

def levelOption : ParserOption := ⟨3, 'l', "level".toList, .optionalArg, true, "1".toList⟩

def exampleTable : List ParserOption := [fileOption, verboseOption, levelOption]

/-- The parser with the default prefixes. -/
def dashes : CmdLineParser := ⟨exampleTable, '-', "--".toList, '='⟩

def slashes : CmdLineParser := ⟨exampleTable, '/', "/".toList, ':'⟩

/-- The value separator occurs in the prefixes. -/
def hyphens : CmdLineParser := ⟨exampleTable, '-', "--".toList, '-'⟩

/-- Short options that are the separator and a prefix. -/
def equalsOption : ParserOption := ⟨4, '=', [], .requiredArg, false, []⟩

def hyphenOption : ParserOption := ⟨5, '-', [], .requiredArg, false, []⟩

def marks : CmdLineParser := ⟨[equalsOption, hyphenOption], '-', "--".toList, '='⟩

theorem command_line_round_trips_dashes :
    RoundTrips dashes .nonOptionArgsAllowed "prog".toList
      [.detached fileOption .short "a=b".toList, .alone verboseOption .long,
        .nonOption "-".toList] := by
  have wellFormed : WellFormed dashes .nonOptionArgsAllowed
      [.detached fileOption .short "a=b".toList, .alone verboseOption .long,
        .nonOption "-".toList] := by
    simp only [WellFormed, Fits, Spelled, IsNonOption]
    decide
  exact command_line_round_trips { dashes with m_options := [] } dashes exampleTable
    .nonOptionArgsAllowed "prog".toList _ rfl (by decide) wellFormed

/-- The option of a part is in the table and has the name that is written. -/
def FromTable (parser : CmdLineParser) : Item → Prop
  | .nonOption _ => True
  | .separated option _ => option ∈ parser.m_options ∧ option.shortopt ≠ noShortopt
  | .alone option spelling | .attached option spelling _ | .detached option spelling _ =>
      option ∈ parser.m_options ∧
        (spelling = .long ∧ option.longopt ≠ [] ∨ spelling = .short ∧ option.shortopt ≠ noShortopt)

/-- A command line from the table that is not parsed back. -/
def IsMisread (parser : CmdLineParser) (items : List Item) : Prop :=
  (∀ item ∈ items, FromTable parser item) ∧
    ¬ RoundTrips parser .nonOptionArgsAllowed "prog".toList items

theorem isMisread_of_fails {items : List Item} (fromTable : ∀ item ∈ items, FromTable parser item)
    (fails : (parser.parse ("prog".toList :: items.flatMap parser.render)
      .nonOptionArgsAllowed).toOption.isNone = true) : IsMisread parser items := by
  refine ⟨fromTable, ?_⟩
  rintro ⟨parsed, parses, _⟩
  rw [parses] at fails
  cases fails

theorem isMisread_of_differs {items : List Item}
    (fromTable : ∀ item ∈ items, FromTable parser item) (id : Int)
    (differs : (parser.parse ("prog".toList :: items.flatMap parser.render)
      .nonOptionArgsAllowed).toOption.map (·.getOptionValueList id) ≠
        some (items.flatMap (Item.valuesOf id))) : IsMisread parser items := by
  refine ⟨fromTable, ?_⟩
  rintro ⟨parsed, parses, values, _⟩
  rw [parses] at differs
  exact differs (congrArg some (values id))

/-- The parser has accepted its table. -/
def IsLoaded (parser : CmdLineParser) : Prop :=
  ({ parser with m_options := [] } : CmdLineParser).addOptions parser.m_options = .ok parser

/-- A value that looks like an option, an argument that does, an optional value that is left out in
front of an argument, a value of an option that takes none, three values behind a short option, a
separator in a prefix, and two odd short options are misread. -/
theorem command_lines_misread :
    (IsLoaded dashes ∧ IsLoaded slashes ∧ IsLoaded hyphens ∧ IsLoaded marks) ∧
    IsMisread dashes [.detached fileOption .short "-5".toList] ∧
    IsMisread dashes [.nonOption "-5".toList] ∧
    IsMisread dashes [.alone levelOption .short, .nonOption "x".toList] ∧
    IsMisread dashes [.attached verboseOption .long "x".toList] ∧
    IsMisread dashes [.attached fileOption .short []] ∧
    IsMisread dashes [.attached fileOption .short "=x".toList] ∧
    IsMisread slashes [.attached fileOption .short "x".toList] ∧
    IsMisread hyphens [.attached fileOption .long "x".toList] ∧
    IsMisread marks [.detached equalsOption .short "x".toList] ∧
    IsMisread marks [.detached hyphenOption .short "x".toList] := by
  refine ⟨⟨rfl, rfl, rfl, rfl⟩, ?_, ?_, ?_, ?_, ?_, ?_, ?_, ?_, ?_, ?_⟩
  · exact isMisread_of_fails (by simp [FromTable]; decide) (by decide +kernel)
  · exact isMisread_of_fails (by simp [FromTable]) (by decide +kernel)
  · exact isMisread_of_differs (by simp [FromTable]; decide) 3 (by decide +kernel)
  · exact isMisread_of_fails (by simp [FromTable]; decide) (by decide +kernel)
  · exact isMisread_of_fails (by simp [FromTable]; decide) (by decide +kernel)
  · exact isMisread_of_differs (by simp [FromTable]; decide) 1 (by decide +kernel)
  · exact isMisread_of_fails (by simp [FromTable]; decide) (by decide +kernel)
  · exact isMisread_of_differs (by simp [FromTable]; decide) 1 (by decide +kernel)
  · exact isMisread_of_differs (by simp [FromTable]; decide) 4 (by decide +kernel)
  · exact isMisread_of_differs (by simp [FromTable]; decide) 5 (by decide +kernel)

end Blocxx.CmdLineParsers
