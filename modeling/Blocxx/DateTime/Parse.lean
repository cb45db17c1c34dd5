import Blocxx.DateTime.DateTime

/-!
This file embeds the `DateTime` constructor that reads a string. Characters are single bytes.
-/

namespace Blocxx.Time

abbrev Text := List Char

/-- What a C function sees of a string. -/
def cString (text : Text) : Text := text.takeWhile (· ≠ '\x00')

def isSpace (c : Char) : Bool := c ∈ [' ', '\t', '\n', '\x0b', '\x0c', '\r']

def isDigit (c : Char) : Bool := '0' ≤ c ∧ c ≤ '9'

/-- The number that decimal digits stand for. -/
def digitsValue (digits : Text) : Int :=
  digits.foldl (fun value digit => value * 10 + (digit.toNat - '0'.toNat : Nat)) 0

/-- `String::toInt32`, which calls `strtol`. No answer is a `StringConversionException`. -/
def toInt32 (text : Text) : Option Int :=
  if text = [] then none
  else if cString text = [] then some 0
  else
    let unspaced := (cString text).dropWhile isSpace
    let negative : Bool := unspaced.head? = some '-'
    let unsigned := if negative ∨ unspaced.head? = some '+' then unspaced.tail else unspaced
    let value := if negative then -digitsValue (unsigned.takeWhile isDigit)
      else digitsValue (unsigned.takeWhile isDigit)
    if unsigned.takeWhile isDigit = [] ∨ unsigned.dropWhile isDigit ≠ [] then none
    else if value < -2 ^ 31 ∨ value > 2 ^ 31 - 1 then none
    else some value

def substring (text : Text) (beginIndex len : Nat) : Text := (text.drop beginIndex).take len

/-- `String::tokenize` without delimiters and empty tokens. -/
def tokenize (text delims : Text) : List Text :=
  ((cString text).splitOnP (· ∈ delims)).filter (· ≠ [])

def defaultDelims : Text := [' ', '\n', '\r', '\t', '\x0b']

/-- The fields that `VALIDATE_RANGES` checks, and then adjusts or stores. -/
structure Parsed where
  year : Int
  month : Int
  day : Int
  hour : Int
  minute : Int
  second : Int
  microseconds : Int

def validateRanges (parsed : Parsed) (str : String) : Except DateTimeException Unit := do
  validateRange parsed.year DATETIME_MINIMUM_YEAR DATETIME_MAXIMUM_YEAR str
  validateRange parsed.month 1 12 str
  validateRange parsed.day 1 31 str
  validateRange parsed.hour 0 23 str
  validateRange parsed.minute 0 59 str
  validateRange parsed.second 0 60 str
  validateRange parsed.microseconds 0 (MICROSECONDS_PER_SECOND - 1) str

def Parsed.fields (parsed : Parsed) (timeOffset : ETimeOffset) : DateTime.Fields :=
  ⟨parsed.year, parsed.month, parsed.day, parsed.hour, parsed.minute, parsed.second,
    UInt32.ofInt parsed.microseconds, timeOffset⟩

/-- A day of the week starts with one of these. -/
def isDOWValid (str : Text) : Bool :=
  String.ofList (str.take 3) ∈ ["Sun", "Sat", "Mon", "Tue", "Thu", "Wed", "Fri"]

def isLongDOWValid (s : Text) : Bool :=
  String.ofList s ∈
    ["Sunday", "Monday", "Tuesday", "Wednesday", "Thursday", "Friday", "Saturday"]

/-- The number of the month from 1, or -1. -/
def decodeShortMonth (str : Text) : Int :=
  ([("Jan", 1), ("Jun", 6), ("Jul", 7), ("Feb", 2), ("Mar", 3), ("May", 5), ("Apr", 4), ("Aug", 8),
    ("Sep", 9), ("Oct", 10), ("Nov", 11), ("Dec", 12)].lookup
      (String.ofList (str.take 3))).getD (-1)

def decodeLongMonth (str : Text) : Int :=
  ([("January", 1), ("February", 2), ("March", 3), ("April", 4), ("May", 5), ("June", 6),
    ("July", 7), ("August", 8), ("September", 9), ("October", 10), ("November", 11),
    ("December", 12)].lookup (String.ofList str)).getD (-1)

def LOCAL_TIME_OFFSET : Int := -24

/-- The military letters, the names of the zones, and their hours from UTC. -/
def timeZones : List (String × Int) :=
  [("Y", -12), ("X", -11), ("W", -10), ("V", -9), ("U", -8), ("T", -7), ("S", -6), ("R", -5),
    ("Q", -4), ("P", -3), ("O", -2), ("N", -1), ("Z", 0), ("A", 1), ("B", 2), ("C", 3), ("D", 4),
    ("E", 5), ("F", 6), ("G", 7), ("H", 8), ("I", 9), ("K", 10), ("L", 11), ("M", 12),
    ("J", LOCAL_TIME_OFFSET), ("UTC", 0), ("GMT", 0), ("BST", 1), ("IST", 1), ("WET", 0),
    ("WEST", 1), ("CET", 1), ("CEST", 2), ("EET", 2), ("EEST", 3), ("MSK", 3), ("MSD", 4),
    ("AST", -4), ("ADT", -3), ("EST", -5), ("EDT", -4), ("ET", -5), ("CST", -6), ("CDT", -5),
    ("CT", -6), ("MST", -7), ("MDT", -6), ("MT", -7), ("PST", -8), ("PDT", -7), ("PT", -8),
    ("HST", -10), ("AKST", -9), ("AKDT", -8), ("WST", 8)]

def getTimeZoneOffset (timezone : Text) : Option Int := timeZones.lookup (String.ofList timezone)

def getDaysPerMonth (year month : Int) : Int :=
  if 1 ≤ month ∧ month ≤ 12 then
    daysInMonthArr.getD (month - 1).toNat 0 +
      (if month = 2 ∧ year.tmod 4 = 0 ∧ (year.tmod 100 ≠ 0 ∨ year.tmod 400 = 0) then 1 else 0)
  else 0

/-- The change from local time to UTC, by at most one day. -/
def adjustTimeForTimeZone (timezone_offset : Int) (parsed : Parsed) : Parsed :=
  let hour := parsed.hour - timezone_offset
  if timezone_offset < 0 then
    let (day, hour) := if hour > 23 then (parsed.day + 1, hour - 24) else (parsed.day, hour)
    let (month, day) := if day > getDaysPerMonth parsed.year parsed.month then
      (parsed.month + 1, 1) else (parsed.month, day)
    let (year, month) := if month > 12 then (parsed.year + 1, month - 12) else (parsed.year, month)
    { parsed with year := year, month := month, day := day, hour := hour }
  else if timezone_offset > 0 then
    let (day, hour) := if hour < 0 then (parsed.day - 1, hour + 24) else (parsed.day, hour)
    let (month, day) := if day < 1 then
      (parsed.month - 1, day + getDaysPerMonth parsed.year (parsed.month - 1))
      else (parsed.month, day)
    let (year, month) := if month < 1 then (parsed.year - 1, month + 12) else (parsed.year, month)
    { parsed with year := year, month := month, day := day, hour := hour }
  else parsed

/-- The numbers of the CIM format before the offset from UTC. -/
def cimNumbers (strNoAsterisks : Text) : Option Parsed := do
  let year ← toInt32 (substring strNoAsterisks 0 4)
  let month ← toInt32 (substring strNoAsterisks 4 2)
  let day ← toInt32 (substring strNoAsterisks 6 2)
  let hour ← toInt32 (substring strNoAsterisks 8 2)
  let minute ← toInt32 (substring strNoAsterisks 10 2)
  let second ← toInt32 (substring strNoAsterisks 12 2)
  let microseconds ← toInt32 (substring strNoAsterisks 15 6)
  return ⟨year, month, day, hour, minute, second, microseconds⟩

/-- The CIM format. No answer means that the string is read in the general way. -/
def readCIM (str : Text) : Except DateTimeException (Option DateTime.Fields) :=
  if str.length = 25 ∧ str.getD 14 ' ' = '.' ∧ (str.getD 21 ' ' = '+' ∨ str.getD 21 ' ' = '-') then
    let strNoAsterisks := str.map fun c => if c = '*' then '0' else c
    match cimNumbers strNoAsterisks with
    | none => .ok none
    | some parsed => do
        validateRanges parsed (String.ofList str)
        match toInt32 (substring strNoAsterisks 22 3) with
        | none => return none
        | some utc =>
            let offset := if str.getD 21 ' ' = '+' then 0 - utc else utc
            let shifted : Parsed := { parsed with minute := parsed.minute + offset }
            return some (shifted.fields .utcTime)
  else .ok none

/-- What the tokens of a date have given so far. Empty texts are not set. -/
structure Tokens where
  weekday : Text
  day : Text
  time : Text
  timezone_number : Int
  month_number : Int
  year : Text

def Tokens.unset : Tokens := ⟨[], [], [], LOCAL_TIME_OFFSET - 1, -1, []⟩

def quoted (text : Text) : String := "\"" ++ String.ofList text ++ "\""

/-- One iteration of the loop over the tokens. -/
def takeToken (str : Text) (found : Tokens) (token : Text) : Except DateTimeException Tokens :=
  if isDOWValid token then
    if found.weekday ≠ [] then
      .error (badDateTime ("Multiple weekdays in time string " ++ quoted str))
    else if token.length > 3 ∧ isLongDOWValid token = false then
      .error (badDateTime ("bad day of week: " ++ quoted token ++ " in " ++ quoted str))
    else .ok { found with weekday := token }
  else if found.month_number = -1 ∧ decodeShortMonth token ≠ -1 then
    if token.length > 3 then
      if decodeLongMonth token = -1 then
        .error (badDateTime ("Invalid long month: " ++ quoted token ++ " in " ++ quoted str))
      else .ok { found with month_number := decodeLongMonth token }
    else .ok { found with month_number := decodeShortMonth token }
  else if found.time = [] ∧ ':' ∈ token then .ok { found with time := token }
  else if found.day = [] ∧ isDigit (token.headD '\x00') then .ok { found with day := token }
  else if found.year = [] ∧ isDigit (token.headD '\x00') then .ok { found with year := token }
  else
    let offset :=
      if found.timezone_number ≤ LOCAL_TIME_OFFSET ∧ 1 ≤ token.length ∧ token.length ≤ 4 then
        getTimeZoneOffset token
      else none
    match offset with
    | some timezone_number => .ok { found with timezone_number := timezone_number }
    | none =>
        .error (badDateTime ("Unexpected token " ++ quoted token ++ " in " ++ quoted str))

/-- The seconds may be missing. -/
def freeFormNumbers (found : Tokens) (time_fields : List Text) : Option Parsed := do
  let year ← toInt32 found.year
  let day ← toInt32 found.day
  let hour ← toInt32 (time_fields.getD 0 [])
  let minute ← toInt32 (time_fields.getD 1 [])
  let second ← if time_fields.length = 3 then toInt32 (time_fields.getD 2 []) else some 0
  return ⟨year, found.month_number, day, hour, minute, second, 0⟩

/-- The part of the free form after the loop over the tokens. -/
def readFields (str : Text) (found : Tokens) : Except DateTimeException DateTime.Fields :=
  if found.month_number ≥ 1 ∧ found.day ≠ [] ∧ found.time ≠ [] ∧ found.year ≠ [] then
    let time_fields := tokenize found.time [':']
    if time_fields.length < 2 ∨ time_fields.length > 3 then
      .error (badDateTime
        ("Invalid time in string " ++ quoted found.time ++ " from " ++ quoted str))
    else
      match freeFormNumbers found time_fields with
      | none => .error (badDateTime (String.ofList str))
      | some parsed => do
          validateRanges parsed (String.ofList str)
          if found.timezone_number ≤ LOCAL_TIME_OFFSET then return parsed.fields .localTime
          else
            let adjusted := adjustTimeForTimeZone found.timezone_number parsed
            validateRanges adjusted (String.ofList str)
            return adjusted.fields .utcTime
  else .error (badDateTime ("Missing date fields: " ++ String.ofList str))

def readFreeForm (str : Text) : Except DateTimeException DateTime.Fields :=
  if str = [] then .error (badDateTime (String.ofList str))
  else do
    let found ← (tokenize str defaultDelims).foldlM (takeToken str) .unset
    readFields str found

/-- The arguments that the constructor passes to `set`. -/
def parse (str : Text) : Except DateTimeException DateTime.Fields := do
  match ← readCIM str with
  | some fields => return fields
  | none => readFreeForm str

/-- The constructor from a string. -/
def DateTime.ofString (library : CLibrary) (str : Text) : Except DateTimeException DateTime := do
  let fields ← parse str
  DateTime.set library fields

end Blocxx.Time
