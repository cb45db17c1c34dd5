import Blocxx.DateTime.Parse
import Blocxx.Library.Loop
import Blocxx.Library.Operation

/-!
This file embeds the parser of the log message patterns. Characters are single bytes.
-/

namespace Blocxx.LogMessagePatternFormatter

open Time Library.Loop

inductive EJustificationFlag where
  | rightJustify
  | leftJustify
  deriving DecidableEq

def NO_MIN_WIDTH : Int := -1

def NO_MAX_WIDTH : Int := 2 ^ 31 - 1

structure Formatting where
  minWidth : Int
  maxWidth : Int
  justification : EJustificationFlag
  deriving DecidableEq

/-- The constructor of `Formatting`. -/
def Formatting.none : Formatting := ⟨NO_MIN_WIDTH, NO_MAX_WIDTH, .rightJustify⟩

/-- The converters with the data that their constructors store. -/
inductive Converter where
  | literal (literal : Text)
  | component (formatting : Formatting) (precision : Int)
  | date (formatting : Formatting) (format : Text)
  | fileLocation (formatting : Formatting)
  | fullLocation (formatting : Formatting)
  | lineLocation (formatting : Formatting)
  | methodLocation (formatting : Formatting)
  | message (formatting : Formatting)
  | xmlMessage (formatting : Formatting)
  | category (formatting : Formatting)
  | relativeTime (formatting : Formatting)
  | thread (formatting : Formatting)
  | pid (formatting : Formatting)
  deriving DecidableEq

inductive EErrorCodes where
  | noDigitAfterDot
  | precisionNotAnInteger
  | unsupportedConversion
  deriving DecidableEq

structure LogMessagePatternFormatterException where
  message : Text
  code : EErrorCodes
  deriving DecidableEq

inductive EParserState where
  | literalState
  | converterState
  | dotState
  | minState
  | maxState
  deriving DecidableEq

/-- The fields of the parser, and the converters that `parse` has appended. -/
structure Parser where
  i : Nat
  state : EParserState
  literal : Text
  formatting : Formatting
  converters : List Converter
  deriving DecidableEq

def Parser.start : Parser := ⟨0, .literalState, [], .none, []⟩

/-- A C++ character constant of the value. -/
def charOf (value : Int) : Char := Char.ofNat (value % 256).toNat

def CHAR_MAX : Int := 127

def LONG_MAX : Int := 2 ^ 63 - 1

def hexDigitValue (c : Char) : Option Nat :=
  if '0' ≤ c ∧ c ≤ '9' then some (c.toNat - '0'.toNat)
  else if 'a' ≤ c ∧ c ≤ 'f' then some (c.toNat - 'a'.toNat + 10)
  else if 'A' ≤ c ∧ c ≤ 'F' then some (c.toNat - 'A'.toNat + 10)
  else none

/-- The characters before the digits of a number of base 16: spaces, a sign, and a mark. -/
def hexDigitsStart (str : Text) : Nat :=
  let spaces := (str.takeWhile isSpace).length
  let signs := if (str.drop spaces).head? ∈ [some '-', some '+'] then 1 else 0
  let unsigned := str.drop (spaces + signs)
  let marks :=
    if unsigned.head? = some '0' ∧ unsigned.tail.head? ∈ [some 'x', some 'X'] ∧
        (unsigned.tail.tail.head?.bind hexDigitValue).isSome then 2
    else 0
  spaces + signs + marks

def hexDigits (str : Text) : Text :=
  (str.drop (hexDigitsStart str)).takeWhile fun c => (hexDigitValue c).isSome

/-- What `strtol` of base 16 returns, how many characters it reads, and whether it sets `errno`. -/
structure Strtol where
  value : Int
  length : Nat
  rangeError : Bool

def strtolHex (text : Text) : Strtol :=
  let str := cString text
  let magnitude : Int :=
    (hexDigits str).foldl (fun value digit => value * 16 + ((hexDigitValue digit).getD 0 : Nat)) 0
  let value := if (str.dropWhile isSpace).head? = some '-' then -magnitude else magnitude
  if hexDigits str = [] then ⟨0, 0, false⟩
  else
    ⟨max (-LONG_MAX - 1) (min value LONG_MAX), hexDigitsStart str + (hexDigits str).length,
      decide (value < -LONG_MAX - 1 ∨ LONG_MAX < value)⟩

/-- `String::toUInt32`, which calls `strtoul`. No answer is a `StringConversionException`. -/
def toUInt32 (text : Text) : Option Int :=
  if text = [] then none
  else if cString text = [] then some 0
  else
    let unspaced := (cString text).dropWhile isSpace
    let negative : Bool := unspaced.head? = some '-'
    let unsigned := if negative ∨ unspaced.head? = some '+' then unspaced.tail else unspaced
    let magnitude := digitsValue (unsigned.takeWhile isDigit)
    let value := if negative then -magnitude % 2 ^ 64 else magnitude
    if unsigned.takeWhile isDigit = [] ∨ unsigned.dropWhile isDigit ≠ [] then none
    else if magnitude > 2 ^ 64 - 1 ∨ value > 2 ^ 32 - 1 then none
    else some value

/-- `String::indexOf` of a character. No answer is `npos`. -/
def indexOf (text : Text) (ch : Char) (fromIndex : Nat) : Option Nat :=
  let rest := cString (text.drop fromIndex)
  if ch ∈ rest then some (fromIndex + rest.idxOf ch) else none

/-- The constructor of `DateConverter` escapes the first `%Q`. -/
def escapeMillis : Text → Text
  | '%' :: 'Q' :: rest => '%' :: '%' :: 'Q' :: rest
  | '\x00' :: rest => '\x00' :: rest
  | c :: rest => c :: escapeMillis rest
  | [] => []

def ISO8601_PATTERN : Text := "%Y-%m-%d %H:%M:%S,%Q".toList

def ABSOLUTE_PATTERN : Text := "%H:%M:%S,%Q".toList

def DATE_PATTERN : Text := "%d %b %Y %H:%M:%S,%Q".toList

/-- The converters without an option. -/
def plainConverter (formatting : Formatting) (c : Char) : Option Converter :=
  if c = 'F' then some (.fileLocation formatting)
  else if c = 'l' then some (.fullLocation formatting)
  else if c = 'L' then some (.lineLocation formatting)
  else if c = 'M' then some (.methodLocation formatting)
  else if c = 'm' then some (.message formatting)
  else if c = 'e' then some (.xmlMessage formatting)
  else if c = 'p' then some (.category formatting)
  else if c = 'r' then some (.relativeTime formatting)
  else if c = 't' then some (.thread formatting)
  else if c = 'P' then some (.pid formatting)
  else none

section Parse

-- The comparison is that of `UTF8Utils`.
variable (equalsIgnoreCase : Text → Text → Bool) (pattern : Text)

/-- The characters of the pattern and the zero after them. -/
def charAt (ndx : Nat) : Char := pattern.getD ndx '\x00'

def invalidPattern (i : Nat) (reason : Text) (code : EErrorCodes) :
    LogMessagePatternFormatterException :=
  ⟨cString ("Invalid pattern \"".toList ++ pattern ++ "\" in position ".toList ++
    (toString i).toList ++ ". ".toList ++ reason), code⟩

/-- The contents of braces at the index, and the index after them. The sum of `npos` and one is
zero. -/
def getOption (i : Nat) : Text × Nat :=
  if i < pattern.length ∧ charAt pattern i = '{' then
    match indexOf pattern '}' i with
    | some last =>
        if last > i then (substring pattern (i + 1) (last - (i + 1)), last + 1) else ([], i)
    | none => (pattern.drop (i + 1), 0)
  else ([], i)

def getPrecision (i : Nat) : Except LogMessagePatternFormatterException (Int × Nat) :=
  let (opt, i) := getOption pattern i
  if opt = [] then .ok (0, i)
  else
    match toUInt32 opt with
    | some rv => .ok (wrap32 rv, i)
    | none => .error (invalidPattern pattern i
        ("A positive integer is required for precision option (".toList ++ opt ++ ").".toList)
        .precisionNotAnInteger)

def dateFormat (dateOpt : Text) : Text :=
  let format := if dateOpt = [] then "ISO8601".toList else dateOpt
  if equalsIgnoreCase format "ISO8601".toList then ISO8601_PATTERN
  else if equalsIgnoreCase format "ABSOLUTE".toList then ABSOLUTE_PATTERN
  else if equalsIgnoreCase format "DATE".toList then DATE_PATTERN
  else format

/-- The converter of the conversion character, and the index after its option. -/
def converterFor (formatting : Formatting) (i : Nat) (c : Char) :
    Except LogMessagePatternFormatterException (Converter × Nat) :=
  if c = 'c' then do
    let (precision, i) ← getPrecision pattern i
    return (.component formatting precision, i)
  else if c = 'd' then
    let (dateOpt, i) := getOption pattern i
    .ok (.date formatting (escapeMillis (dateFormat equalsIgnoreCase dateOpt)), i)
  else
    match plainConverter formatting c with
    | some converter => .ok (converter, i)
    | none => .error (invalidPattern pattern i
        ("Unsupported conversion (".toList ++ [c] ++ ").".toList) .unsupportedConversion)

/-- The call of `finalizeConverter` and the `push_back` of its converter. -/
def finalizeConverter (parser : Parser) (c : Char) :
    Except LogMessagePatternFormatterException Parser := do
  let (converter, i) ← converterFor equalsIgnoreCase pattern parser.formatting parser.i c
  return ⟨i, .literalState, [], .none, parser.converters ++ [converter]⟩

def Parser.pushLiteral (parser : Parser) : List Converter :=
  if parser.literal.length > 0 then parser.converters ++ [.literal parser.literal]
  else parser.converters

/-- The escapes after a backslash. -/
def escape (parser : Parser) : Parser :=
  let append (text : Text) (count : Nat) : Parser :=
    { parser with literal := parser.literal ++ text, i := parser.i + count }
  let next := charAt pattern parser.i
  if next = 'n' then append ['\n'] 1
  else if next = '\\' then append ['\\'] 1
  else if next = 'r' then append ['\r'] 1
  else if next = 't' then append ['\t'] 1
  else if next = 'x' then
    let number := strtolHex (pattern.drop (parser.i + 1))
    let hexNumber := wrap32 number.value
    if parser.i + 1 > pattern.length then append ['\\', 'x'] 1
    else if number.length = 0 ∨ number.rangeError ∨ hexNumber > CHAR_MAX then
      append ['\\', 'x'] 1
    else append [charOf hexNumber] (number.length + 1)
  else append ['\\'] 0

/-- The cases of the states. The index is already past the character. -/
def parseLiteral (parser : Parser) (c : Char) : Parser :=
  if parser.i = pattern.length then { parser with literal := parser.literal ++ [c] }
  else if c = '%' then
    if charAt pattern parser.i = '%' then
      { parser with literal := parser.literal ++ [c], i := parser.i + 1 }
    else if charAt pattern parser.i = 'n' then
      { parser with literal := parser.literal ++ ['\n'], i := parser.i + 1 }
    else
      { parser with
        converters := parser.pushLiteral
        literal := [c]
        state := .converterState
        formatting := .none }
  else if c = '\\' then escape pattern parser
  else { parser with literal := parser.literal ++ [c] }

def digitOf (c : Char) : Int := (c.toNat - '0'.toNat : Nat)

def parseConverter (parser : Parser) (c : Char) :
    Except LogMessagePatternFormatterException Parser :=
  let parser := { parser with literal := parser.literal ++ [c] }
  if c = '-' then
    .ok { parser with formatting := { parser.formatting with justification := .leftJustify } }
  else if c = '.' then .ok { parser with state := .dotState }
  else if isDigit c then
    .ok { parser with
      formatting := { parser.formatting with minWidth := digitOf c }
      state := .minState }
  else finalizeConverter equalsIgnoreCase pattern parser c

def parseMin (parser : Parser) (c : Char) : Except LogMessagePatternFormatterException Parser :=
  let parser := { parser with literal := parser.literal ++ [c] }
  if isDigit c then
    .ok { parser with
      formatting :=
        { parser.formatting with
          minWidth := wrap32 (parser.formatting.minWidth * 10 + digitOf c) } }
  else if c = '.' then .ok { parser with state := .dotState }
  else finalizeConverter equalsIgnoreCase pattern parser c

def parseDot (parser : Parser) (c : Char) : Except LogMessagePatternFormatterException Parser :=
  let parser := { parser with literal := parser.literal ++ [c] }
  if isDigit c then
    .ok { parser with
      formatting := { parser.formatting with maxWidth := digitOf c }
      state := .maxState }
  else .error (invalidPattern pattern parser.i
    ("Was expecting a digit, instead got char ".toList ++ [c] ++ ".".toList) .noDigitAfterDot)

def parseMax (parser : Parser) (c : Char) : Except LogMessagePatternFormatterException Parser :=
  let parser := { parser with literal := parser.literal ++ [c] }
  if isDigit c then
    .ok { parser with
      formatting :=
        { parser.formatting with
          maxWidth := wrap32 (parser.formatting.maxWidth * 10 + digitOf c) } }
  else finalizeConverter equalsIgnoreCase pattern parser c

def parseChar (parser : Parser) (c : Char) : Except LogMessagePatternFormatterException Parser :=
  match parser.state with
  | .literalState => .ok (parseLiteral pattern parser c)
  | .converterState => parseConverter equalsIgnoreCase pattern parser c
  | .minState => parseMin equalsIgnoreCase pattern parser c
  | .dotState => parseDot pattern parser c
  | .maxState => parseMax equalsIgnoreCase pattern parser c

/-- One iteration of the loop of `parse`, or the code after the loop. -/
def parseIteration (parser : Parser) :
    Iteration Parser (Except LogMessagePatternFormatterException (List Converter)) :=
  if parser.i < pattern.length then
    match parseChar equalsIgnoreCase pattern { parser with i := parser.i + 1 }
      (charAt pattern parser.i) with
    | .ok later => .next later
    | .error exception => .stop (.error exception)
  else .stop (.ok parser.pushLiteral)

end Parse

end Blocxx.LogMessagePatternFormatter
