import Blocxx.DateTime.Parse
import Blocxx.Library.Loop

/-!
This file embeds `Format` for arguments of type `String`. Characters are single bytes, and the
stream remembers which argument or message each of its pieces is.
-/

namespace Blocxx.Format

open Time Library.Loop

inductive Piece where
  | char (c : Char)
  | message (text : Text)
  | argument (k : Nat)
  deriving DecidableEq

/-- The flags of `std::ios` that a specifier sets. -/
inductive Fmtflag where
  | left
  | showpos
  | showpoint
  | fixed
  | dec
  | hex
  | oct
  | uppercase
  | showbase
  | boolalpha
  deriving DecidableEq

structure Flags where
  flags : List Fmtflag
  width : Int
  precision : Int
  fill : Char
  savedprecision : Int
  savedwidth : Int
  savedfill : Char

/-- The constructor of `Flags`. -/
def Flags.new : Flags := ⟨[], 0, -1, ' ', 0, 0, ' '⟩

def Flags.set (flags : Flags) (more : List Fmtflag) : Flags :=
  { flags with flags := flags.flags ++ more }

structure OStringStream where
  pieces : List Piece
  fmtflags : List Fmtflag
  width : Int
  precision : Int
  fill : Char

def OStringStream.new : OStringStream := ⟨[], [.dec], 0, 6, ' '⟩

/-- A formatted insertion of a piece with this many characters. It uses up the width. -/
def OStringStream.insert (oss : OStringStream) (piece : Piece) (length : Nat) : OStringStream :=
  let padding := List.replicate (oss.width - length).toNat (.char oss.fill)
  { oss with
    pieces := oss.pieces ++
      if .left ∈ oss.fmtflags then piece :: padding else padding ++ [piece]
    width := 0 }

def OStringStream.insertChar (oss : OStringStream) (c : Char) : OStringStream :=
  oss.insert (.char c) 1

def OStringStream.insertText (oss : OStringStream) (text : Text) : OStringStream :=
  oss.insert (.message text) text.length

/-- `operator<<` for a `String`, an unformatted output. -/
def OStringStream.write (oss : OStringStream) (k : Nat) : OStringStream :=
  { oss with pieces := oss.pieces ++ [.argument k] }

/-- The manipulators `std::dec`, `std::hex` and `std::oct`. -/
def OStringStream.base (oss : OStringStream) (flag : Fmtflag) : OStringStream :=
  { oss with fmtflags := oss.fmtflags.filter (· ∉ [.dec, .hex, .oct]) ++ [flag] }

def useFlags (o : OStringStream) (flags : Flags) : OStringStream × Flags :=
  let saved := { flags with
    savedprecision := o.precision, savedwidth := o.width, savedfill := o.fill }
  let filtered := flags.flags.filter (· ∉ [.hex, .oct])
  let o := { o with fmtflags := o.fmtflags ++ filtered }
  let o := if .hex ∈ flags.flags then o.base .hex else o
  let o := if .oct ∈ flags.flags then o.base .oct else o
  ({ o with
    width := flags.width
    precision := if flags.precision ≥ 0 then flags.precision else o.precision
    fill := flags.fill }, saved)

def clearFlags (o : OStringStream) (flags : Flags) : OStringStream :=
  let o := if .hex ∈ flags.flags ∨ .oct ∈ flags.flags then o.base .dec else o
  { o with
    fmtflags := o.fmtflags.filter (· ∉ flags.flags)
    precision := flags.savedprecision
    width := flags.savedwidth
    fill := flags.savedfill }

/-- `put` for a `String`. -/
def put (oss : OStringStream) (k : Nat) (flags : Flags) : OStringStream :=
  let used := useFlags oss flags
  clearFlags (used.1.write k) used.2

/-- The language does not define the overflow of a signed number. -/
inductive Undefined where
  | signedOverflow
  deriving DecidableEq

def INT_MAX : Int := 2 ^ 31 - 1

/-- The answers of `scanNumber`, and how far it moves the offset. -/
structure Number where
  result : Int
  sign : Int
  leadingZero : Bool
  length : Nat

def signLength (str : Text) : Nat :=
  if str.head? = some '-' ∨ str.head? = some '+' then 1 else 0

/-- The digits that `scanNumber` reads. -/
def numberDigits (str : Text) : Text := (str.drop (signLength str)).takeWhile isDigit

/-- The function reads the text from the offset on. -/
def scanNumber (str : Text) : Except Undefined (Option Number) :=
  let sign := if str.head? = some '-' then -1 else if str.head? = some '+' then 1 else 0
  let digits := numberDigits str
  let c := digitsValue digits
  if digits = [] then .ok none
  else if c > INT_MAX then .error .signedOverflow
  else .ok (some ⟨if sign < 0 then -c else c, sign,
    (str.drop (signLength str)).head? = some '0', signLength str + digits.length⟩)

/-- The width of a specifier. The functions return how far they move the offset. -/
def scanWidth (str : Text) (flags : Flags) : Except Undefined (Nat × Flags) := do
  match ← scanNumber str with
  | none => return (0, flags)
  | some number =>
      let flags :=
        if number.sign = -1 then flags.set [.left]
        else if number.sign = 1 then flags.set [.showpos]
        else flags
      let flags :=
        if number.leadingZero ∧ number.sign ≠ -1 then { flags with fill := '0' } else flags
      let width := if number.sign = -1 then -number.result else number.result
      return (number.length, { flags with width := width })

def scanPrecision (str : Text) (flags : Flags) : Except Undefined (Nat × Flags) := do
  if str.head? = some '.' then
    match ← scanNumber str.tail with
    | none => return (0, flags)
    | some number =>
        return (1 + number.length,
          { flags.set [.showpoint, .fixed] with precision := number.result })
  else return (0, flags)

def scanBase (str : Text) (flags : Flags) : Nat × Flags :=
  if str.head? = some 'x' then (1, flags.set [.hex])
  else if str.head? = some 'X' then (1, flags.set [.hex, .uppercase])
  else if str.head? = some 'o' then (1, flags.set [.oct])
  else (0, flags)

def scanShowbase (str : Text) (flags : Flags) : Nat × Flags :=
  if str.head? = some '!' then (1, flags.set [.showbase, .boolalpha]) else (0, flags)

/-- The modifiers behind the colon. -/
def scanModifiers (str : Text) (flags : Flags) : Except Undefined (Nat × Flags) := do
  let width ← scanWidth str flags
  let str := str.drop width.1
  let precision ← scanPrecision str width.2
  let str := str.drop precision.1
  let base := scanBase str precision.2
  let showbase := scanShowbase (str.drop base.1) base.2
  return (width.1 + precision.1 + base.1 + showbase.1, showbase.2)

/-- The part between the number of the argument and the brace. -/
def scanSuffix (str : Text) (flags : Flags) : Except Undefined (Nat × Flags) :=
  if str.head? = some ':' then
    (scanModifiers str.tail flags).map fun result => (1 + result.1, result.2)
  else .ok (0, flags)

/-- `size_t(-1)`. -/
def npos : Nat := 2 ^ 64 - 1

def toSizeT (value : Int) : Nat := (value % 2 ^ 64).toNat

/-- The answers of `processFormatSpecifier`, and how far it moves the offset. -/
structure Specifier where
  retval : Bool
  length : Nat
  argnum : Nat
  flags : Flags

def BRACE_OPEN : Char := '<'

def BRACE_CLOSE : Char := '>'

/-- The function reads the text from the offset on. -/
def processFormatSpecifier (str : Text) (argnum : Nat) (flags : Flags) :
    Except Undefined Specifier := do
  if str.head? = some BRACE_OPEN then
    let number ← scanNumber str.tail
    let signed := number.any fun number => decide (number.sign ≠ 0)
    let argnum := (number.map fun number => toSizeT number.result).getD argnum
    let offset := 1 + (number.map Number.length).getD 0
    let modifiers ← scanSuffix (str.drop offset) flags
    let offset := offset + modifiers.1
    let retval := number.isSome && !signed
    if (str.drop offset).head? = some BRACE_CLOSE then
      return ⟨retval, offset + 1, argnum, modifiers.2⟩
    else return ⟨false, offset, argnum, modifiers.2⟩
  else return ⟨true, 0, argnum, flags⟩

def tooLarge (c maxArg : Nat) : Text :=
  "Parameter specifier ".toList ++ (toString c).toList ++ " is too large (>".toList ++
    (toString maxArg).toList ++ ")".toList

def tooSmall (c minArg : Nat) : Text :=
  "Parameter specifier ".toList ++ (toString c).toList ++ " must be >= ".toList ++
    (toString minArg).toList

def formatError (text : Text) : Text :=
  "Error in format string at \"".toList ++ text ++ "\"".toList

def stars : Text := "\n*** ".toList

/-- The argument to put, what is left of the format, the flags, and the stream. -/
structure Processed where
  c : Nat
  str : Text
  flags : Flags
  oss : OStringStream

section Process

variable (minArg maxArg : Nat)

/-- What `process` does after its loop. The text starts at the last percent sign, and `i` is the
distance from there. -/
def finish (text : Text) (i : Nat) (err : Bool) (c : Nat) (flags : Flags)
    (oss : OStringStream) : Processed :=
  let error :=
    if i ≤ text.length ∧ c ≠ npos then
      if c > maxArg then some (tooLarge c maxArg)
      else if c < minArg then some (tooSmall c minArg)
      else none
    else none
  let oss := (error.map fun error => (oss.insertText stars).insertText error).getD oss
  if err ∨ error.isSome then
    ⟨'0'.toNat, [], flags,
      ((oss.insertText stars).insertText (formatError (text.take (max i 1)))).insertText ['\n']⟩
  else ⟨c, text.drop i, flags, oss⟩

/-- The loop of `process` and what comes after it. The list is the format from the position of the
loop on. -/
def process : Text → Flags → OStringStream → Except Undefined Processed
  | [], flags, oss => .ok ⟨npos, [], flags, oss⟩
  | first :: rest, flags, oss =>
      if first ≠ '%' then process rest flags (oss.insertChar first)
      else
        match rest with
        | [] => .ok (finish minArg maxArg ['%'] 1 true npos flags oss)
        | second :: others =>
            if second = '%' then process others flags (oss.insertChar '%')
            else if second = BRACE_OPEN then
              match processFormatSpecifier (second :: others) npos flags with
              | .error undefined => .error undefined
              | .ok specifier =>
                  let text := '%' :: second :: others
                  if specifier.retval = false then
                    .ok (finish minArg maxArg text (specifier.length + 2) true specifier.argnum
                      specifier.flags oss)
                  else if specifier.argnum = npos then
                    -- the loop goes on behind a number that looks like no number
                    process ((second :: others).drop specifier.length) specifier.flags oss
                  else
                    .ok (finish minArg maxArg text (specifier.length + 1) false specifier.argnum
                      specifier.flags oss)
            else if isDigit second then
              .ok (finish minArg maxArg ('%' :: second :: others) 2 false
                (second.toNat - '0'.toNat) flags oss)
            else .ok (finish minArg maxArg ('%' :: second :: others) 2 true npos flags oss)
  termination_by text => text.length
  decreasing_by
    all_goals simp only [List.length_cons, List.length_drop]
    all_goals omega

end Process

/-- The conversion of a `size_t` to an `int`. -/
def toInt (c : Nat) : Int := Int.bmod c (2 ^ 32)

/-- `putArgs` for the arguments from this position on. -/
def putArgs (n : Int) (flags : Flags) (position : Nat) : List Text → OStringStream → OStringStream
  | [], oss => oss
  | _ :: args, oss =>
      if n = 1 then put oss position flags else putArgs (n - 1) flags (position + 1) args oss

/-- One iteration of the loop of the constructor. -/
def expand (args : List Text) (state : Text × OStringStream) :
    Iteration (Text × OStringStream) (Except Undefined OStringStream) :=
  if state.1 = [] then .stop (.ok state.2)
  else
    match process 1 args.length state.1 .new state.2 with
    | .error undefined => .stop (.error undefined)
    | .ok processed =>
        .next (processed.str, putArgs (toInt processed.c) processed.flags 1 args processed.oss)

/-- The constructor stops with this stream or with undefined behaviour. -/
def Formats (ca : Text) (args : List Text) (result : Except Undefined OStringStream) : Prop :=
  Returns (expand args) (cString ca, .new) result

def Piece.text (args : List Text) : Piece → Text
  | .char c => [c]
  | .message text => text
  | .argument k => args.getD (k - 1) []

/-- `toString`, which goes through a C string. -/
def OStringStream.toString (oss : OStringStream) (args : List Text) : Text :=
  cString (oss.pieces.map (Piece.text args)).flatten

end Blocxx.Format
