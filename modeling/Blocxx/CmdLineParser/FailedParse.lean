import Blocxx.CmdLineParser.CaseSensitivity
import Blocxx.CmdLineParser.RoundTrip

/-!
This file proves when a failed `parse` leaves the results of the parser as they were.
-/

namespace Blocxx.CmdLineParsers
open Library

/-- The member functions tell the results before and behind a call apart. -/
def SameReports (before after : Parsed) : Prop :=
  (∀ id, after.isSet id = before.isSet id) ∧
    (∀ id, after.getOptionValueList id = before.getOptionValueList id) ∧
      (∀ id defaultValue,
        after.getOptionValue id defaultValue = before.getOptionValue id defaultValue) ∧
        after.nonOptionArgs = before.nonOptionArgs

theorem sameReports_iff {before after : Parsed} : SameReports before after ↔ after = before := by
  constructor
  · rintro ⟨set, values, -, arguments⟩
    obtain ⟨parsedOptions, nonOptionArgs⟩ := before
    obtain ⟨parsedOptions', nonOptionArgs'⟩ := after
    obtain rfl : nonOptionArgs' = nonOptionArgs := arguments
    congr 1
    funext id
    have isSet := set id
    have valueList := values id
    simp only [Parsed.isSet, Parsed.getOptionValueList] at isSet valueList
    cases old : parsedOptions id with
    | none =>
        cases new : parsedOptions' id with
        | none => rfl
        | some list => simp [old, new] at isSet
    | some list =>
        cases new : parsedOptions' id with
        | none => simp [old, new] at isSet
        | some list' => simpa [old, new] using valueList
  · rintro rfl
    exact ⟨fun _ => rfl, fun _ => rfl, fun _ _ => rfl, rfl⟩

/-- What an accepted argument adds to the results. -/
inductive Record where
  | nonOption (argument : Text)
  | touch (id : Int)
  | push (id : Int) (value : Text)

def Record.store (parsed : Parsed) : Record → Parsed
  | .nonOption argument => parsed.pushNonOption argument
  | .touch id => parsed.touch id
  | .push id value => parsed.push id value

namespace FlaggedParser

variable (equalsIgnoreCase : Text → Text → Bool) (parser : FlaggedParser)
  (allowNonOptionArgs : EAllowNonOptionArgsFlag)

/-- The argument is not an option, or only a prefix. -/
def NonOption (argument : Text) : Prop :=
  (parser.splitArgument argument).optionType = .invalid ∨
    (parser.splitArgument argument).baseOption = []

/-- The argument names an option of the table. -/
def Names (argument : Text) (option : ParserOption) : Prop :=
  ¬ parser.NonOption argument ∧
    parser.findOption equalsIgnoreCase (parser.splitArgument argument) = some option

/-- There is no next argument that can be a value. -/
def NoNext (rest : List Text) : Prop := ∀ argument ∈ rest.head?, parser.useNext argument = false

/-- The value that is recorded without one on the command line. -/
def HasDefault (option : ParserOption) : Prop :=
  option.argtype = .optionalArg ∧ option.haveDefaultValue = true

/-- The first argument, and the next one if it is the value, are accepted. -/
inductive Takes : List Text → Record → List Text → Prop
  | nonOption {argument : Text} {rest : List Text} (isNonOption : parser.NonOption argument)
      (allowed : allowNonOptionArgs = .nonOptionArgsAllowed) :
      Takes (argument :: rest) (.nonOption argument) rest
  | flag {argument : Text} {rest : List Text} {option : ParserOption}
      (names : parser.Names equalsIgnoreCase argument option) (noArg : option.argtype = .noArg)
      (alone : (parser.splitArgument argument).valueAttached = false) :
      Takes (argument :: rest) (.touch option.id) rest
  | attached {argument : Text} {rest : List Text} {option : ParserOption}
      (names : parser.Names equalsIgnoreCase argument option) (takes : option.argtype ≠ .noArg)
      (attached : (parser.splitArgument argument).valueAttached = true) :
      Takes (argument :: rest) (.push option.id (parser.splitArgument argument).value) rest
  | next {argument value : Text} {rest : List Text} {option : ParserOption}
      (names : parser.Names equalsIgnoreCase argument option) (takes : option.argtype ≠ .noArg)
      (alone : (parser.splitArgument argument).valueAttached = false)
      (isValue : parser.useNext value = true) :
      Takes (argument :: value :: rest) (.push option.id value) rest
  | default {argument : Text} {rest : List Text} {option : ParserOption}
      (names : parser.Names equalsIgnoreCase argument option) (takes : option.argtype ≠ .noArg)
      (alone : (parser.splitArgument argument).valueAttached = false)
      (noNext : parser.NoNext rest) (hasDefault : HasDefault option) :
      Takes (argument :: rest) (.push option.id option.defaultValue) rest

/-- The first argument is an error. -/
inductive Rejected : List Text → Prop
  | nonOption {argument : Text} {rest : List Text} (isNonOption : parser.NonOption argument)
      (invalid : allowNonOptionArgs = .nonOptionArgsInvalid) : Rejected (argument :: rest)
  | undefined {argument : Text} {rest : List Text} (isOption : ¬ parser.NonOption argument)
      (notFound :
        parser.findOption equalsIgnoreCase (parser.splitArgument argument) = none) :
      Rejected (argument :: rest)
  | valueAttached {argument : Text} {rest : List Text} {option : ParserOption}
      (names : parser.Names equalsIgnoreCase argument option) (noArg : option.argtype = .noArg)
      (attached : (parser.splitArgument argument).valueAttached = true) :
      Rejected (argument :: rest)
  | missing {argument : Text} {rest : List Text} {option : ParserOption}
      (names : parser.Names equalsIgnoreCase argument option) (takes : option.argtype ≠ .noArg)
      (alone : (parser.splitArgument argument).valueAttached = false)
      (noNext : parser.NoNext rest) (noDefault : ¬ HasDefault option) :
      Rejected (argument :: rest)

/-- The arguments in front of the rest are accepted, one after the other. -/
inductive Accepts : List Text → List Record → List Text → Prop
  | nil (arguments : List Text) : Accepts arguments [] arguments
  | cons {arguments later rest : List Text} {record : Record} {records : List Record}
      (takes : parser.Takes equalsIgnoreCase allowNonOptionArgs arguments record later)
      (accepts : Accepts later records rest) : Accepts arguments (record :: records) rest

variable {equalsIgnoreCase parser allowNonOptionArgs}
variable {arguments later rest : List Text} {record : Record} {records : List Record}
  {argument : Text} {option : ParserOption}

theorem requireDefault_hasDefault (hasDefault : HasDefault option) (name : Text) :
    CmdLineParser.requireDefault option name = .ok option.defaultValue :=
  if_pos hasDefault

theorem requireDefault_noDefault (noDefault : ¬ HasDefault option) (name : Text) :
    CmdLineParser.requireDefault option name = .error ⟨name, .missingArgument⟩ :=
  if_neg noDefault

variable (equalsIgnoreCase parser allowNonOptionArgs) in
/-- The end of the loop body, for an option that needs a value and has none attached. -/
def readValue (option : ParserOption) (name : Text) :
    List Text → Operation CmdLineParserException Parsed Unit
  | [] => do
      let value ← .lift (CmdLineParser.requireDefault option name)
      modify (·.push option.id value)
  | nextArgString :: later =>
      if parser.useNext nextArgString then do
        modify (·.push option.id nextArgString)
        parser.parseArguments equalsIgnoreCase allowNonOptionArgs later
      else do
        let value ← .lift (CmdLineParser.requireDefault option name)
        modify (·.push option.id value)
        parser.parseArguments equalsIgnoreCase allowNonOptionArgs (nextArgString :: later)

theorem Names.parseArguments (names : parser.Names equalsIgnoreCase argument option) :
    parser.parseArguments equalsIgnoreCase allowNonOptionArgs (argument :: rest) =
      if option.argtype = .noArg then
        if (parser.splitArgument argument).valueAttached then
          throw ⟨"Option \"".toList ++
            parser.optionWithoutValue (parser.splitArgument argument) ++
              "\" does not take a value".toList, .invalidOption⟩
        else do
          modify (·.touch option.id)
          parser.parseArguments equalsIgnoreCase allowNonOptionArgs rest
      else if (parser.splitArgument argument).valueAttached then do
        modify (·.push option.id (parser.splitArgument argument).value)
        parser.parseArguments equalsIgnoreCase allowNonOptionArgs rest
      else
        parser.readValue equalsIgnoreCase allowNonOptionArgs option
          (parser.optionWithoutValue (parser.splitArgument argument)) rest := by
  obtain ⟨isOption, found⟩ := names
  rw [NonOption] at isOption
  rw [FlaggedParser.parseArguments.eq_def]
  simp only
  rw [if_neg isOption, found]
  cases rest with
  | nil => rfl
  | cons following later => rfl

/-- An accepted argument is recorded, and the loop goes on behind it. -/
theorem Takes.parseArguments
    (takes : parser.Takes equalsIgnoreCase allowNonOptionArgs arguments record rest)
    (parsed : Parsed) :
    (parser.parseArguments equalsIgnoreCase allowNonOptionArgs arguments).outcome parsed =
        (parser.parseArguments equalsIgnoreCase allowNonOptionArgs rest).outcome
          (record.store parsed) ∧
      (parser.parseArguments equalsIgnoreCase allowNonOptionArgs arguments).after parsed =
        (parser.parseArguments equalsIgnoreCase allowNonOptionArgs rest).after
          (record.store parsed) := by
  cases takes with
  | nonOption isNonOption allowed =>
      subst allowed
      rw [NonOption] at isNonOption
      rw [FlaggedParser.parseArguments.eq_def]
      simp only
      rw [if_pos isNonOption]
      exact ⟨rfl, rfl⟩
  | flag names noArg alone =>
      rw [names.parseArguments, if_pos noArg, if_neg (by simp [alone])]
      exact ⟨rfl, rfl⟩
  | attached names takes attached =>
      rw [names.parseArguments, if_neg takes, if_pos attached]
      exact ⟨rfl, rfl⟩
  | next names takes alone isValue =>
      rw [names.parseArguments, if_neg takes, if_neg (by simp [alone]), readValue, if_pos isValue]
      exact ⟨rfl, rfl⟩
  | default names takes alone noNext hasDefault =>
      rw [names.parseArguments, if_neg takes, if_neg (by simp [alone])]
      cases rest with
      | nil =>
          rw [readValue, requireDefault_hasDefault hasDefault]
          exact ⟨rfl, rfl⟩
      | cons following later =>
          rw [readValue, if_neg (by simp [noNext following rfl]),
            requireDefault_hasDefault hasDefault]
          exact ⟨rfl, rfl⟩

/-- A rejected argument throws, and what was recorded stays. -/
theorem Rejected.parseArguments
    (rejected : parser.Rejected equalsIgnoreCase allowNonOptionArgs arguments)
    (parsed : Parsed) :
    (∃ exception, (parser.parseArguments equalsIgnoreCase allowNonOptionArgs arguments).outcome
        parsed = .error exception) ∧
      (parser.parseArguments equalsIgnoreCase allowNonOptionArgs arguments).after parsed =
        parsed := by
  cases rejected with
  | nonOption isNonOption invalid =>
      subst invalid
      rw [NonOption] at isNonOption
      rw [FlaggedParser.parseArguments.eq_def]
      simp only
      rw [if_pos isNonOption]
      exact ⟨⟨_, rfl⟩, rfl⟩
  | undefined isOption notFound =>
      rw [NonOption] at isOption
      rw [FlaggedParser.parseArguments.eq_def]
      simp only
      rw [if_neg isOption, notFound]
      exact ⟨⟨_, rfl⟩, rfl⟩
  | valueAttached names noArg attached =>
      rw [names.parseArguments, if_pos noArg, if_pos attached]
      exact ⟨⟨_, rfl⟩, rfl⟩
  | missing names takes alone noNext noDefault =>
      rename_i _ rest _
      rw [names.parseArguments, if_neg takes, if_neg (by simp [alone])]
      cases rest with
      | nil =>
          rw [readValue, requireDefault_noDefault noDefault]
          exact ⟨⟨_, rfl⟩, rfl⟩
      | cons following later =>
          rw [readValue, if_neg (by simp [noNext following rfl]),
            requireDefault_noDefault noDefault]
          exact ⟨⟨_, rfl⟩, rfl⟩

/-- The results are those of the records when the loop reaches the rest. -/
theorem Accepts.parseArguments
    (accepts : parser.Accepts equalsIgnoreCase allowNonOptionArgs arguments records rest) :
    ∀ parsed, (parser.parseArguments equalsIgnoreCase allowNonOptionArgs arguments).outcome parsed =
        (parser.parseArguments equalsIgnoreCase allowNonOptionArgs rest).outcome
          (records.foldl Record.store parsed) ∧
      (parser.parseArguments equalsIgnoreCase allowNonOptionArgs arguments).after parsed =
        (parser.parseArguments equalsIgnoreCase allowNonOptionArgs rest).after
          (records.foldl Record.store parsed) := by
  induction accepts with
  | nil arguments => exact fun parsed => ⟨rfl, rfl⟩
  | cons takes accepts ih =>
      intro parsed
      obtain ⟨outcome, after⟩ := takes.parseArguments parsed
      obtain ⟨later, results⟩ := ih (Record.store parsed _)
      exact ⟨outcome.trans later, after.trans results⟩

/-- What was recorded in front of a rejected argument is left in the results. -/
theorem Accepts.throws
    (accepts : parser.Accepts equalsIgnoreCase allowNonOptionArgs arguments records rest)
    (rejected : parser.Rejected equalsIgnoreCase allowNonOptionArgs rest) (parsed : Parsed) :
    (∃ exception, (parser.parseArguments equalsIgnoreCase allowNonOptionArgs arguments).outcome
        parsed = .error exception) ∧
      (parser.parseArguments equalsIgnoreCase allowNonOptionArgs arguments).after parsed =
        records.foldl Record.store parsed := by
  obtain ⟨outcome, after⟩ := accepts.parseArguments parsed
  obtain ⟨throws, stays⟩ := rejected.parseArguments (records.foldl Record.store parsed)
  exact ⟨outcome ▸ throws, after.trans stays⟩

variable (equalsIgnoreCase parser allowNonOptionArgs)

/-- Every argument is accepted or rejected. -/
theorem takes_or_rejected (argument : Text) (rest : List Text) :
    (∃ record later, later.length ≤ rest.length ∧
      parser.Takes equalsIgnoreCase allowNonOptionArgs (argument :: rest) record later) ∨
      parser.Rejected equalsIgnoreCase allowNonOptionArgs (argument :: rest) := by
  by_cases isNonOption : parser.NonOption argument
  · cases allow : allowNonOptionArgs with
    | nonOptionArgsAllowed => exact .inl ⟨_, rest, le_rfl, .nonOption isNonOption rfl⟩
    | nonOptionArgsInvalid => exact .inr (.nonOption isNonOption rfl)
  cases found : parser.findOption equalsIgnoreCase (parser.splitArgument argument) with
  | none => exact .inr (.undefined isNonOption found)
  | some option =>
      have names : parser.Names equalsIgnoreCase argument option := ⟨isNonOption, found⟩
      by_cases noArg : option.argtype = .noArg
      · cases attached : (parser.splitArgument argument).valueAttached with
        | false => exact .inl ⟨_, rest, le_rfl, .flag names noArg attached⟩
        | true => exact .inr (.valueAttached names noArg attached)
      cases attached : (parser.splitArgument argument).valueAttached with
      | true => exact .inl ⟨_, rest, le_rfl, .attached names noArg attached⟩
      | false =>
          by_cases noNext : parser.NoNext rest
          · by_cases hasDefault : HasDefault option
            · exact .inl ⟨_, rest, le_rfl, .default names noArg attached noNext hasDefault⟩
            · exact .inr (.missing names noArg attached noNext hasDefault)
          · cases rest with
            | nil => exact absurd (by simp [NoNext]) noNext
            | cons value later =>
                have isValue : parser.useNext value = true := by simpa [NoNext] using noNext
                exact .inl ⟨_, later, Nat.le_succ _, .next names noArg attached isValue⟩

/-- A command line is accepted to its end, or up to an argument that is rejected. -/
theorem accepts_or_rejected (bound : Nat) : ∀ arguments : List Text, arguments.length ≤ bound →
    (∃ records, parser.Accepts equalsIgnoreCase allowNonOptionArgs arguments records []) ∨
      ∃ records rest, parser.Accepts equalsIgnoreCase allowNonOptionArgs arguments records rest ∧
        parser.Rejected equalsIgnoreCase allowNonOptionArgs rest := by
  -- The induction is on a bound, because an option and its value are two arguments.
  induction bound with
  | zero =>
      intro arguments short
      obtain rfl := List.length_eq_zero_iff.mp (Nat.le_zero.mp short)
      exact .inl ⟨[], .nil []⟩
  | succ bound ih =>
      intro arguments short
      cases arguments with
      | nil => exact .inl ⟨[], .nil []⟩
      | cons argument rest =>
          rw [List.length_cons] at short
          rcases takes_or_rejected equalsIgnoreCase parser allowNonOptionArgs argument rest with
            ⟨record, later, less, takes⟩ | rejected
          · rcases ih later (by omega) with ⟨records, accepts⟩ | ⟨records, last, accepts, rejected⟩
            · exact .inl ⟨record :: records, .cons takes accepts⟩
            · exact .inr ⟨record :: records, last, .cons takes accepts, rejected⟩
          · exact .inr ⟨[], argument :: rest, .nil _, rejected⟩

/-- A call that throws `CmdLineParserException` leaves the reports as they were. -/
def LeavesUnchanged (arguments : List Text) (before : Parsed) : Prop :=
  ∀ exception, (parser.parse equalsIgnoreCase allowNonOptionArgs arguments).outcome before =
      .error (.thrown exception) →
    SameReports before
      ((parser.parse equalsIgnoreCase allowNonOptionArgs arguments).after before)

/-- What the arguments in front of a rejected one record was there before. -/
def AlreadyRecorded (arguments : List Text) (before : Parsed) : Prop :=
  ∀ records rest, parser.Accepts equalsIgnoreCase allowNonOptionArgs arguments.tail records rest →
    parser.Rejected equalsIgnoreCase allowNonOptionArgs rest →
      before = records.foldl Record.store .clear

/-- A failed call leaves the reports exactly when it records what was there. -/
theorem leavesUnchanged_iff (arguments : List Text) (before : Parsed) :
    parser.LeavesUnchanged equalsIgnoreCase allowNonOptionArgs arguments before ↔
      parser.AlreadyRecorded equalsIgnoreCase allowNonOptionArgs arguments before := by
  cases arguments with
  | nil =>
      constructor
      · rintro - records rest accepts rejected
        cases accepts with
        | nil => cases rejected
        | cons takes accepts => cases takes
      · intro _ exception thrown
        exact absurd (Except.error.inj thrown) nofun
  | cons program arguments =>
      have outcome :=
        outcome_parse equalsIgnoreCase parser allowNonOptionArgs program arguments before
      have after :=
        after_parse equalsIgnoreCase parser allowNonOptionArgs program arguments before
      constructor
      · intro unchanged records rest accepts rejected
        obtain ⟨⟨exception, throws⟩, results⟩ := accepts.throws rejected .clear
        have same := unchanged exception (outcome.trans (congrArg _ throws))
        rw [sameReports_iff] at same
        exact same.symm.trans (after.trans results)
      · intro already exception thrown
        rw [sameReports_iff, after]
        rcases accepts_or_rejected equalsIgnoreCase parser allowNonOptionArgs _ arguments le_rfl
          with ⟨records, accepts⟩ | ⟨records, rest, accepts, rejected⟩
        · have returns := (accepts.parseArguments .clear).1
          exact absurd ((outcome.trans (congrArg _ returns)).symm.trans thrown) nofun
        · obtain ⟨-, results⟩ := accepts.throws rejected .clear
          exact results.trans (already records rest accepts rejected).symm

end FlaggedParser

def flaggedDashes : FlaggedParser := { dashes with m_caseSensitivity := .caseSensitive }

def verboseParsed : Parsed :=
  (flaggedDashes.parse asciiEqualsIgnoreCase .nonOptionArgsAllowed
    ["prog".toList, "-v".toList]).after .clear

/-- The command line `prog --unknown` after `prog -v`. -/
theorem undefinedOption_clears :
    ¬ flaggedDashes.LeavesUnchanged asciiEqualsIgnoreCase .nonOptionArgsAllowed
      ["prog".toList, "--unknown".toList] verboseParsed := by
  intro unchanged
  have same := (unchanged ⟨"Option \"--unknown\" is not defined".toList, .invalidOption⟩
    (by decide +kernel)).1 2
  exact absurd same (by decide +kernel)

end Blocxx.CmdLineParsers
