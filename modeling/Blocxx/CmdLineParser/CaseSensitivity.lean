import Blocxx.CmdLineParser.CmdLineParser
import Blocxx.Library.Operation

/-!
This file embeds `CmdLineParser` with both case flags and with the results that parsing writes while
it reads the arguments. `String::equalsIgnoreCase` is a parameter.
-/

namespace Blocxx.CmdLineParsers
open Library

inductive ECaseSensitivityFlag where
  | caseSensitive
  | caseInsensitive
  deriving DecidableEq

namespace Parsed

def isSet (parsed : Parsed) (id : Int) : Bool := (parsed.parsedOptions id).isSome

def getOptionValue (parsed : Parsed) (id : Int) (defaultValue : Text) : Text :=
  (parsed.getOptionValueList id).getLastD defaultValue

end Parsed

structure FlaggedParser extends CmdLineParser where
  m_caseSensitivity : ECaseSensitivityFlag
  deriving DecidableEq

/-- The comparison on strings of ASCII characters. -/
def asciiEqualsIgnoreCase (first second : Text) : Bool :=
  first.map Char.toUpper = second.map Char.toUpper

namespace FlaggedParser

section Lookup

variable (equalsIgnoreCase : Text → Text → Bool) (parser : FlaggedParser)

def longOptIs (longOpt : Text) (x : ParserOption) : Bool :=
  match parser.m_caseSensitivity with
  | .caseSensitive => longOpt = x.longopt
  | .caseInsensitive => equalsIgnoreCase longOpt x.longopt

/-- The function `toupper` is that of the default locale. -/
def shortOptIs (shortOpt : Char) (x : ParserOption) : Bool :=
  match parser.m_caseSensitivity with
  | .caseSensitive => shortOpt = x.shortopt
  | .caseInsensitive => shortOpt.toUpper = x.shortopt.toUpper

def findLong (longOpt : Text) : Option ParserOption :=
  parser.m_options.find? (parser.longOptIs equalsIgnoreCase longOpt)

def findShort (shortOpt : Char) : Option ParserOption :=
  parser.m_options.find? (parser.shortOptIs shortOpt)

def verifyOptionValidity (opt : ParserOption) : Except CmdLineParserException Unit := do
  CmdLineParser.reject (opt.argtype ≠ .grouping ∧ opt.longopt = [] ∧ opt.shortopt = noShortopt)
    "Both long and short options cannot be empty".toList
  CmdLineParser.reject
    (opt.argtype = .grouping ∧ (opt.longopt ≠ [] ∨ opt.shortopt ≠ noShortopt))
    "Grouping options cannot have long or short option values".toList
  CmdLineParser.reject
    (opt.longopt ≠ [] ∧ (parser.findLong equalsIgnoreCase opt.longopt).isSome)
    ("Long option \"".toList ++ parser.longName opt ++ "\" is already in use".toList)
  CmdLineParser.reject (opt.longopt ≠ [] ∧ parser.ambiguityExists ∧ opt.longopt.length = 1 ∧
      (parser.findShort (opt.longopt.headD noShortopt)).isSome)
    ("Long \"".toList ++ parser.longName opt ++ "\" conflicts with a short option".toList)
  CmdLineParser.reject (opt.shortopt ≠ noShortopt ∧ (parser.findShort opt.shortopt).isSome)
    ("Short option \"".toList ++ parser.shortName opt ++ "\" is already in use".toList)
  CmdLineParser.reject (opt.shortopt ≠ noShortopt ∧ parser.ambiguityExists ∧
      (parser.findLong equalsIgnoreCase [opt.shortopt]).isSome)
    ("Short option \"".toList ++ parser.shortName opt ++ "\" conflicts with a long option".toList)
  -- An option is compared with itself without the flag.
  CmdLineParser.reject
    (opt.shortopt ≠ noShortopt ∧ parser.ambiguityExists ∧ opt.longopt = [opt.shortopt])
    ("Short option \"".toList ++ parser.shortName opt ++
      "\" conflicts its own long option \"".toList ++ parser.m_longOptionPrefix ++
      [opt.shortopt] ++ "\"".toList)
  CmdLineParser.reject (opt.argtype = .optionalArg ∧ opt.haveDefaultValue = false)
    ("Argument \"".toList ++
      (if opt.longopt = [] then parser.shortName opt else parser.longName opt) ++
      "\" must have default value to be optional".toList)

def addOptionWithID (opt : ParserOption) : Except CmdLineParserException FlaggedParser := do
  parser.verifyOptionValidity equalsIgnoreCase opt
  return { parser with m_options := parser.m_options ++ [opt] }

def addOptions (table : List ParserOption) : Except CmdLineParserException FlaggedParser :=
  table.foldlM (addOptionWithID equalsIgnoreCase) parser

/-- The search of `parseCmdLine` for the option of an argument. -/
def findOption (split : Split) : Option ParserOption :=
  match split.optionType with
  | .long => parser.findLong equalsIgnoreCase split.baseOption
  | _ =>
      match parser.findShort (split.baseOption.headD noShortopt) with
      | some theOpt => some theOpt
      | none =>
          if parser.ambiguityExists then parser.findLong equalsIgnoreCase split.baseOption
          else none

/-- The search of `getOptionID`. -/
def findNamed (option : Text) : Option ParserOption :=
  if parser.m_longOptionPrefix <+: option then
    if parser.m_longOptionPrefix.length < option.length then
      match parser.findLong equalsIgnoreCase
          (option.drop parser.m_longOptionPrefix.length) with
      | some theOpt => some theOpt
      | none =>
          if parser.ambiguityExists ∧ option.length = 2 then
            parser.findShort (option.getD 1 noShortopt)
          else none
    else none
  else if option.head? = some parser.m_shortOptionPrefix then
    if option.length = 2 then parser.findShort (option.getD 1 noShortopt) else none
  else if 1 < option.length then parser.findLong equalsIgnoreCase option
  else if option.length = 1 then parser.findShort (option.headD noShortopt)
  else none

def getOptionID (option : Text) : Except CmdLineParserException Int :=
  if option = [] then .error ⟨"<empty option>".toList, .missingOption⟩
  else
    match parser.findNamed equalsIgnoreCase option with
    | none => .error ⟨"Invalid option \"".toList ++ option ++ "\"".toList, .invalidOption⟩
    | some theOpt => .ok theOpt.id

end Lookup

section Parsing

variable (equalsIgnoreCase : Text → Text → Bool) (parser : FlaggedParser)
  (allowNonOptionArgs : EAllowNonOptionArgsFlag)

/-- The loop of `parseCmdLine` writes the results as it reads. -/
def parseArguments : List Text → Operation CmdLineParserException Parsed Unit
  | [] => pure ()
  | argAsSupplied :: rest =>
      let split := parser.splitArgument argAsSupplied
      if split.optionType = .invalid ∨ split.baseOption = [] then
        match allowNonOptionArgs with
        | .nonOptionArgsInvalid =>
            throw ⟨"Invalid non-option argument \"".toList ++ argAsSupplied ++ "\"".toList,
              .invalidNonOptionArg⟩
        | .nonOptionArgsAllowed => do
            modify (·.pushNonOption argAsSupplied)
            parseArguments rest
      else
        let optionWithoutValue := parser.optionWithoutValue split
        match parser.findOption equalsIgnoreCase split with
        | none =>
            throw ⟨"Option \"".toList ++ optionWithoutValue ++ "\" is not defined".toList,
              .invalidOption⟩
        | some theOpt =>
            if theOpt.argtype = .noArg then
              if split.valueAttached then
                throw ⟨"Option \"".toList ++ optionWithoutValue ++
                  "\" does not take a value".toList, .invalidOption⟩
              else do
                modify (·.touch theOpt.id)
                parseArguments rest
            else if split.valueAttached then do
              modify (·.push theOpt.id split.value)
              parseArguments rest
            else
              match rest with
              | [] => do
                  let value ← .lift (CmdLineParser.requireDefault theOpt optionWithoutValue)
                  modify (·.push theOpt.id value)
              | nextArgString :: later =>
                  if parser.useNext nextArgString then do
                    modify (·.push theOpt.id nextArgString)
                    parseArguments later
                  else do
                    let value ← .lift (CmdLineParser.requireDefault theOpt optionWithoutValue)
                    modify (·.push theOpt.id value)
                    parseArguments (nextArgString :: later)

/-- The results of an earlier call are cleared first. The program name is left out. -/
def parseCmdLine (arguments : List Text) : Operation CmdLineParserException Parsed Unit := do
  modify fun _ => .clear
  parser.parseArguments equalsIgnoreCase allowNonOptionArgs arguments

def parse (arguments : List Text) : Operation Failure Parsed Unit :=
  match arguments with
  | [] => throw .assertion
  | _ :: rest =>
      (parser.parseCmdLine equalsIgnoreCase allowNonOptionArgs rest).adapt .thrown

section Calls

variable (program : Text) (rest : List Text) (before : Parsed)

/-- A call answers as the loop does behind the program name, with cleared results. -/
theorem outcome_parse :
    (parser.parse equalsIgnoreCase allowNonOptionArgs (program :: rest)).outcome before =
      ((parser.parseArguments equalsIgnoreCase allowNonOptionArgs rest).outcome .clear).mapError
        .thrown := by
  rw [parse, Operation.outcome_adapt, parseCmdLine, Operation.outcome_bind,
    Operation.outcome_modify, Operation.after_modify]
  rfl

theorem after_parse :
    (parser.parse equalsIgnoreCase allowNonOptionArgs (program :: rest)).after before =
      (parser.parseArguments equalsIgnoreCase allowNonOptionArgs rest).after .clear := by
  rw [parse, Operation.after_adapt, parseCmdLine, Operation.after_bind, Operation.outcome_modify,
    Operation.after_modify]

end Calls

end Parsing

section Sensitive

variable (equalsIgnoreCase : Text → Text → Bool) (parser : FlaggedParser)

/-- With the case, the searches are the ones of the case-sensitive parser. -/
theorem findLong_caseSensitive (sensitive : parser.m_caseSensitivity = .caseSensitive) :
    parser.findLong equalsIgnoreCase = parser.toCmdLineParser.findLong := by
  funext name
  rw [findLong, CmdLineParser.findLong]
  congr 1
  funext option
  rw [longOptIs, sensitive]

theorem findShort_caseSensitive (sensitive : parser.m_caseSensitivity = .caseSensitive) :
    parser.findShort = parser.toCmdLineParser.findShort := by
  funext letter
  rw [findShort, CmdLineParser.findShort]
  congr 1
  funext option
  rw [shortOptIs, sensitive]

theorem verifyOptionValidity_caseSensitive
    (sensitive : parser.m_caseSensitivity = .caseSensitive) :
    parser.verifyOptionValidity equalsIgnoreCase = parser.toCmdLineParser.verifyOptionValidity := by
  funext option
  rw [verifyOptionValidity, CmdLineParser.verifyOptionValidity,
    findLong_caseSensitive equalsIgnoreCase parser sensitive,
    findShort_caseSensitive parser sensitive]

theorem findOption_caseSensitive (sensitive : parser.m_caseSensitivity = .caseSensitive) :
    parser.findOption equalsIgnoreCase = parser.toCmdLineParser.findOption := by
  have long := findLong_caseSensitive equalsIgnoreCase parser sensitive
  have short := findShort_caseSensitive parser sensitive
  funext ⟨optionType, baseOption, value, valueAttached⟩
  cases optionType with
  | long => exact congrFun long baseOption
  | invalid | short =>
      cases found : parser.toCmdLineParser.findShort (baseOption.headD noShortopt) with
      | some theOpt => simp only [findOption, CmdLineParser.findOption, short, found]
      | none => simp only [findOption, CmdLineParser.findOption, short, found, long]

/-- With the case, a table is accepted as by the case-sensitive parser. -/
theorem addOptions_caseSensitive (sensitive : parser.m_caseSensitivity = .caseSensitive)
    (table : List ParserOption) :
    parser.addOptions equalsIgnoreCase table =
      (parser.toCmdLineParser.addOptions table).map fun loaded =>
        { parser with toCmdLineParser := loaded } := by
  induction table generalizing parser with
  | nil => rfl
  | cons option rest ih =>
      rw [addOptions, CmdLineParser.addOptions, List.foldlM_cons, List.foldlM_cons,
        addOptionWithID, CmdLineParser.addOptionWithID,
        verifyOptionValidity_caseSensitive equalsIgnoreCase parser sensitive]
      cases parser.toCmdLineParser.verifyOptionValidity option with
      | error exception => rfl
      | ok answer => exact ih { parser with m_options := parser.m_options ++ [option] } sensitive

/-- What an operation throws, or the results behind it. -/
def ending {Thrown : Type} (operation : Operation Thrown Parsed Unit) (parsed : Parsed) :
    Except Thrown Parsed :=
  (operation.outcome parsed).map fun _ => operation.after parsed

theorem parseArguments_caseSensitive (sensitive : parser.m_caseSensitivity = .caseSensitive)
    (allowNonOptionArgs : EAllowNonOptionArgsFlag) (arguments : List Text) (parsed : Parsed) :
    ending (parser.parseArguments equalsIgnoreCase allowNonOptionArgs arguments) parsed =
      parser.toCmdLineParser.parseArguments allowNonOptionArgs arguments parsed := by
  fun_induction CmdLineParser.parseArguments parser.toCmdLineParser allowNonOptionArgs arguments
    parsed
  all_goals rw [parseArguments.eq_def]
  all_goals try simp only [findOption_caseSensitive equalsIgnoreCase parser sensitive]
  next => rfl
  next argument rest parsed split nonOption invalid =>
    rw [if_pos nonOption, invalid]
    rfl
  next argument rest parsed split nonOption allowed ih =>
    rw [if_pos nonOption]
    subst allowed
    exact ih
  next argument rest parsed split option name undefined =>
    rw [if_neg option, undefined]
    rfl
  next argument rest parsed split option name theOpt found flag attached =>
    rw [if_neg option, found]
    simp only
    rw [if_pos flag, if_pos attached]
    rfl
  next argument rest parsed split option theOpt found flag alone ih =>
    rw [if_neg option, found]
    simp only
    rw [if_pos flag, if_neg alone]
    exact ih
  next argument rest parsed split option theOpt found takes attached ih =>
    rw [if_neg option, found]
    simp only
    rw [if_neg takes, if_pos attached]
    exact ih
  next argument parsed split option name theOpt found takes alone exception missing =>
    rw [if_neg option, found]
    simp only
    rw [if_neg takes, if_neg alone, missing]
    rfl
  next argument parsed split option name theOpt found takes alone value default =>
    rw [if_neg option, found]
    simp only
    rw [if_neg takes, if_neg alone, default]
    rfl
  next argument parsed split option theOpt found takes alone next later isValue ih =>
    rw [if_neg option, found]
    simp only
    rw [if_neg takes, if_neg alone, if_pos isValue]
    exact ih
  next argument parsed split option name theOpt found takes alone next later notValue exception
      missing =>
    rw [if_neg option, found]
    simp only
    rw [if_neg takes, if_neg alone, if_neg notValue, missing]
    rfl
  next argument parsed split option name theOpt found takes alone next later notValue value default
      ih =>
    rw [if_neg option, found]
    simp only
    rw [if_neg takes, if_neg alone, if_neg notValue, default]
    exact ih

/-- With the case, a call ends as that of the case-sensitive parser, whatever was parsed before. -/
theorem parse_caseSensitive (sensitive : parser.m_caseSensitivity = .caseSensitive)
    (allowNonOptionArgs : EAllowNonOptionArgsFlag) (arguments : List Text) (before : Parsed) :
    ending (parser.parse equalsIgnoreCase allowNonOptionArgs arguments) before =
      parser.toCmdLineParser.parse arguments allowNonOptionArgs := by
  cases arguments with
  | nil => rfl
  | cons program rest =>
      rw [CmdLineParser.parse, ← parseArguments_caseSensitive equalsIgnoreCase parser sensitive,
        ending, ending, outcome_parse, after_parse]
      cases (parser.parseArguments equalsIgnoreCase allowNonOptionArgs rest).outcome .clear with
      | error exception => rfl
      | ok answer => rfl

end Sensitive
end FlaggedParser

end Blocxx.CmdLineParsers
