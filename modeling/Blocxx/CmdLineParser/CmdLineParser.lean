import Mathlib.Tactic

/-!
This file embeds the case-sensitive `CmdLineParser`. The map from the ids to the values is the
function that the `SortedVectorMap` represents.
-/

namespace Blocxx.CmdLineParsers

/-- A string without a terminator inside. -/
abbrev Text := List Char

/-- The short option `'\0'` of an option that has none. -/
def noShortopt : Char := Char.ofNat 0

inductive EArgumentTypeFlag where
  | noArg
  | requiredArg
  | optionalArg
  | grouping
  deriving DecidableEq

inductive EErrorCodes where
  | invalidOption
  | missingArgument
  | invalidNonOptionArg
  | missingOption
  deriving DecidableEq

structure CmdLineParserException where
  message : Text
  code : EErrorCodes
  deriving DecidableEq

inductive EAllowNonOptionArgsFlag where
  | nonOptionArgsAllowed
  | nonOptionArgsInvalid
  deriving DecidableEq

/-- A failed `BLOCXX_ASSERT` throws as well. -/
inductive Failure where
  | assertion
  | thrown (exception : CmdLineParserException)
  deriving DecidableEq

/-- The fields of `ParserOptionImpl` that parsing reads. -/
structure ParserOption where
  id : Int
  shortopt : Char
  longopt : Text
  argtype : EArgumentTypeFlag
  haveDefaultValue : Bool
  defaultValue : Text
  deriving DecidableEq

inductive EOptionType where
  | invalid
  | short
  | long
  deriving DecidableEq

/-- The output parameters and the result of `splitArgument`. -/
structure Split where
  optionType : EOptionType
  baseOption : Text
  value : Text
  valueAttached : Bool
  deriving DecidableEq

/-- The results of parsing. -/
structure Parsed where
  parsedOptions : Int → Option (List Text)
  nonOptionArgs : List Text

namespace Parsed

def clear : Parsed := ⟨fun _ => none, []⟩

/-- A use of `parsedOptions[id]` puts an empty array there if there is none. -/
def subscript (parsed : Parsed) (id : Int) : List Text := (parsed.parsedOptions id).getD []

def touch (parsed : Parsed) (id : Int) : Parsed :=
  { parsed with
    parsedOptions := Function.update parsed.parsedOptions id (some (parsed.subscript id)) }

def push (parsed : Parsed) (id : Int) (value : Text) : Parsed :=
  { parsed with
    parsedOptions :=
      Function.update parsed.parsedOptions id (some (parsed.subscript id ++ [value])) }

def pushNonOption (parsed : Parsed) (argument : Text) : Parsed :=
  { parsed with nonOptionArgs := parsed.nonOptionArgs ++ [argument] }

def getOptionValueList (parsed : Parsed) (id : Int) : List Text :=
  match parsed.parsedOptions id with
  | some values => values
  | none => []

end Parsed

structure CmdLineParser where
  m_options : List ParserOption
  m_shortOptionPrefix : Char
  m_longOptionPrefix : Text
  m_valueSeparator : Char
  deriving DecidableEq

namespace CmdLineParser

variable (parser : CmdLineParser)

/-- The long and the short options start with the same single letter. -/
def ambiguityExists : Bool := parser.m_longOptionPrefix = [parser.m_shortOptionPrefix]

/-- The search with `longOptIs`. -/
def findLong (longOpt : Text) : Option ParserOption :=
  parser.m_options.find? fun x => longOpt = x.longopt

/-- The search with `shortOptIs`. -/
def findShort (shortOpt : Char) : Option ParserOption :=
  parser.m_options.find? fun x => shortOpt = x.shortopt

/-- A failed check of an option throws. -/
def reject (wrong : Prop) [Decidable wrong] (errorText : Text) :
    Except CmdLineParserException Unit :=
  if wrong then .error ⟨errorText, .invalidOption⟩ else .ok ()

def longName (opt : ParserOption) : Text := parser.m_longOptionPrefix ++ opt.longopt

def shortName (opt : ParserOption) : Text := [parser.m_shortOptionPrefix, opt.shortopt]

def verifyOptionValidity (opt : ParserOption) : Except CmdLineParserException Unit := do
  reject (opt.argtype ≠ .grouping ∧ opt.longopt = [] ∧ opt.shortopt = noShortopt)
    "Both long and short options cannot be empty".toList
  reject (opt.argtype = .grouping ∧ (opt.longopt ≠ [] ∨ opt.shortopt ≠ noShortopt))
    "Grouping options cannot have long or short option values".toList
  reject (opt.longopt ≠ [] ∧ (parser.findLong opt.longopt).isSome)
    ("Long option \"".toList ++ parser.longName opt ++ "\" is already in use".toList)
  reject (opt.longopt ≠ [] ∧ parser.ambiguityExists ∧ opt.longopt.length = 1 ∧
      (parser.findShort (opt.longopt.headD noShortopt)).isSome)
    ("Long \"".toList ++ parser.longName opt ++ "\" conflicts with a short option".toList)
  reject (opt.shortopt ≠ noShortopt ∧ (parser.findShort opt.shortopt).isSome)
    ("Short option \"".toList ++ parser.shortName opt ++ "\" is already in use".toList)
  reject (opt.shortopt ≠ noShortopt ∧ parser.ambiguityExists ∧
      (parser.findLong [opt.shortopt]).isSome)
    ("Short option \"".toList ++ parser.shortName opt ++ "\" conflicts with a long option".toList)
  reject (opt.shortopt ≠ noShortopt ∧ parser.ambiguityExists ∧ opt.longopt = [opt.shortopt])
    ("Short option \"".toList ++ parser.shortName opt ++
      "\" conflicts its own long option \"".toList ++ parser.m_longOptionPrefix ++
      [opt.shortopt] ++ "\"".toList)
  reject (opt.argtype = .optionalArg ∧ opt.haveDefaultValue = false)
    ("Argument \"".toList ++
      (if opt.longopt = [] then parser.shortName opt else parser.longName opt) ++
      "\" must have default value to be optional".toList)

/-- The functions that add one option verify it first. -/
def addOptionWithID (opt : ParserOption) : Except CmdLineParserException CmdLineParser := do
  parser.verifyOptionValidity opt
  return { parser with m_options := parser.m_options ++ [opt] }

/-- The functions that add options add them one after the other. -/
def addOptions (table : List ParserOption) : Except CmdLineParserException CmdLineParser :=
  table.foldlM addOptionWithID parser

/-- The part of an argument in front of the first value separator. -/
def optionPart (option : Text) : Text := option.takeWhile (· ≠ parser.m_valueSeparator)

/-- The end of `splitArgument` for a short option. -/
def splitShort (option baseOption value : Text) (valueAttached : Bool) : Split :=
  if 2 < option.length ∧ option[2]? ≠ some parser.m_valueSeparator then
    ⟨.short, baseOption, option.drop 2, true⟩
  else ⟨.short, baseOption, value, valueAttached⟩

def splitArgument (option : Text) : Split :=
  let valueAttached := parser.m_valueSeparator ∈ option
  let value := (option.dropWhile (· ≠ parser.m_valueSeparator)).drop 1
  let optionWithoutValue := parser.optionPart option
  if parser.m_longOptionPrefix <+: optionWithoutValue then
    if optionWithoutValue.length = 2 ∧ parser.ambiguityExists then
      parser.splitShort option ((optionWithoutValue.drop 1).take 1) value valueAttached
    else ⟨.long, optionWithoutValue.drop parser.m_longOptionPrefix.length, value, valueAttached⟩
  else if optionWithoutValue.head? = some parser.m_shortOptionPrefix then
    parser.splitShort option ((optionWithoutValue.drop 1).take 1) value valueAttached
  else ⟨.invalid, [], value, valueAttached⟩

/-- The search of `parseCmdLine` for the option of an argument. -/
def findOption (split : Split) : Option ParserOption :=
  match split.optionType with
  | .long => parser.findLong split.baseOption
  | _ =>
      match parser.findShort (split.baseOption.headD noShortopt) with
      | some theOpt => some theOpt
      | none => if parser.ambiguityExists then parser.findLong split.baseOption else none

def optionWithoutValue (split : Split) : Text :=
  if split.optionType = .short then parser.m_shortOptionPrefix :: split.baseOption.take 1
  else parser.m_longOptionPrefix ++ split.baseOption

/-- The test of the argument after an option that needs a value. -/
def useNext (nextArgString : Text) : Bool :=
  nextArgString = [parser.m_shortOptionPrefix] ∨
    (¬ parser.m_longOptionPrefix <+: nextArgString ∧
      nextArgString.head? ≠ some parser.m_shortOptionPrefix)

/-- The value of an option without one, when a default is required. -/
def requireDefault (theOpt : ParserOption) (optionWithoutValue : Text) :
    Except CmdLineParserException Text :=
  if theOpt.argtype = .optionalArg ∧ theOpt.haveDefaultValue then .ok theOpt.defaultValue
  else .error ⟨optionWithoutValue, .missingArgument⟩

/-- The loop of `parseCmdLine` over the arguments after the program name. -/
def parseArguments (allowNonOptionArgs : EAllowNonOptionArgsFlag) :
    List Text → Parsed → Except CmdLineParserException Parsed
  | [], parsed => .ok parsed
  | argAsSupplied :: rest, parsed =>
      let split := parser.splitArgument argAsSupplied
      if split.optionType = .invalid ∨ split.baseOption = [] then
        match allowNonOptionArgs with
        | .nonOptionArgsInvalid =>
            .error ⟨"Invalid non-option argument \"".toList ++ argAsSupplied ++ "\"".toList,
              .invalidNonOptionArg⟩
        | .nonOptionArgsAllowed =>
            parseArguments allowNonOptionArgs rest (parsed.pushNonOption argAsSupplied)
      else
        let optionWithoutValue := parser.optionWithoutValue split
        match parser.findOption split with
        | none =>
            .error ⟨"Option \"".toList ++ optionWithoutValue ++ "\" is not defined".toList,
              .invalidOption⟩
        | some theOpt =>
            if theOpt.argtype = .noArg then
              if split.valueAttached then
                .error ⟨"Option \"".toList ++ optionWithoutValue ++
                  "\" does not take a value".toList, .invalidOption⟩
              else parseArguments allowNonOptionArgs rest (parsed.touch theOpt.id)
            else if split.valueAttached then
              parseArguments allowNonOptionArgs rest (parsed.push theOpt.id split.value)
            else
              match rest with
              | [] =>
                  match requireDefault theOpt optionWithoutValue with
                  | .error exception => .error exception
                  | .ok value => .ok (parsed.push theOpt.id value)
              | nextArgString :: later =>
                  if parser.useNext nextArgString then
                    parseArguments allowNonOptionArgs later (parsed.push theOpt.id nextArgString)
                  else
                    match requireDefault theOpt optionWithoutValue with
                    | .error exception => .error exception
                    | .ok value =>
                        parseArguments allowNonOptionArgs (nextArgString :: later)
                          (parsed.push theOpt.id value)

/-- The function `parse` skips the program name. -/
def parse (arguments : List Text) (allowNonOptionArgs : EAllowNonOptionArgsFlag) :
    Except Failure Parsed :=
  match arguments with
  | [] => .error .assertion
  | _ :: rest =>
      (parser.parseArguments allowNonOptionArgs rest .clear).mapError .thrown

end CmdLineParser

end Blocxx.CmdLineParsers
