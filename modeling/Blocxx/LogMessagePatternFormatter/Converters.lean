import Blocxx.LogMessagePatternFormatter.Parser
import Blocxx.RegEx.RegEx

/-!
This file embeds the converters of the log message patterns. A `StringBuffer` is the text in it.
-/

namespace Blocxx.LogMessagePatternFormatter

open Time CharString

/-- The pointers to a file name and a method name may be null. -/
structure LogMessage where
  component : Text
  category : Text
  message : Text
  filename : Option Text
  fileline : Int
  methodname : Option Text

/-- What the converters ask the system for. The function `strftime` is that for the local time and a
buffer of 255 characters. -/
structure Environment where
  strftime : Text → Text
  microsecond : UInt32
  relativeTime : UInt64
  currentThread : UInt64
  getpid : Int

/-- The first process of a system that has just started. -/
def Environment.first : Environment := ⟨fun _ => [], 0, 0, 0, 1⟩

section StringBuffers

/-- Zeros fill the place of what is behind the first zero. -/
def strncpy (str : Text) (len : Nat) : Text := (cString str ++ List.replicate len '\x00').take len

def append (output str : Text) (len : Nat) : Text := output ++ strncpy str len

def appendString (output arg : Text) : Text := append output arg arg.length

def appendCString (output str : Text) : Text := output ++ cString str

/-- The conversion of an `int` to `size_t`. -/
def size (value : Int) : Nat := (value % 2 ^ 64).toNat

/-- A text is copied as it is when only zeros are behind its first zero. -/
def ZerosLast (text : Text) : Prop := strncpy text text.length = text

instance (text : Text) : Decidable (ZerosLast text) := by
  unfold ZerosLast
  infer_instance

@[simp] theorem length_strncpy (str : Text) (len : Nat) : (strncpy str len).length = len := by
  rw [strncpy, List.length_take, List.length_append, List.length_replicate]
  omega

theorem appendString_eq (output arg : Text) :
    appendString output arg = output ++ appendString [] arg := rfl

theorem appendCString_eq (output str : Text) :
    appendCString output str = output ++ appendCString [] str := rfl

/-- The characters before a zero are copied. -/
theorem strncpy_front {front : Text} (free : '\x00' ∉ front) (rest : Text) :
    strncpy (front ++ rest) front.length = front := by
  have whole : cString (front ++ rest) = front ++ cString rest := by
    rw [cString, List.takeWhile_append_of_pos, cString]
    intro c member
    simpa using ne_of_mem_of_not_mem member free
  rw [strncpy, whole, List.append_assoc, List.take_left]

theorem zerosLast_of_free {text : Text} (free : '\x00' ∉ text) : ZerosLast text := by
  have copied := strncpy_front free []
  rwa [List.append_nil] at copied

end StringBuffers

def CDATA_START : Text := ['<', '!', '[', 'C', 'D', 'A', 'T', 'A', '[']

def CDATA_END : Text := [']', ']', '>']

def CDATA_PSEUDO_END : Text := [']', ']', '&', 'g', 't', ';']

def CDATA_EMBEDDED_END : Text := CDATA_END ++ CDATA_PSEUDO_END ++ CDATA_START

/-- The loop of `XMLMessageConverter::convert`. -/
def embedEnds (msg output : Text) (start last : Nat) : Text :=
  let output := append output (msg.drop start) (last - start) ++ CDATA_EMBEDDED_END
  let start := last + CDATA_END.length
  if start < msg.length then
    match _found : RegEx.indexOf msg CDATA_END start with
    | some next => embedEnds msg output start next
    | none => output
  else output
termination_by msg.length - last
decreasing_by
  obtain ⟨-, less⟩ := RegEx.indexOf_range _found
  have ends : CDATA_END.length = 3 := rfl
  omega

def xmlMessageConvert (msg output : Text) : Text :=
  let output := output ++ CDATA_START
  let output :=
    if msg = [] then output
    else
      match RegEx.indexOf msg CDATA_END 0 with
      | none => appendString output msg
      | some last => embedEnds msg output 0 last
  output ++ CDATA_END

/-- The loop of `String::lastIndexOf` of a character. The index `npos` is minus one. -/
def lastIndexBelow (text : Text) (ch : Char) : Nat → Int
  | 0 => -1
  | i + 1 => if text.getD i '\x00' = ch then i else lastIndexBelow text ch i

/-- An index is a `size_t`, and those from `2 ^ 63` on are written as negative numbers here. -/
def lastIndexOf (text : Text) (ch : Char) (fromIndex : Int) : Int :=
  let fromIndex := if fromIndex = -1 then (text.length : Int) - 1 else fromIndex
  if 0 ≤ fromIndex ∧ fromIndex < text.length then lastIndexBelow text ch (fromIndex.toNat + 1)
  else -1

/-- The loop of `ComponentConverter::convert`. No index is the `return` from the loop. -/
def componentEnd (component : Text) : Nat → Int → Option Int
  | 0, last => some last
  | i + 1, last =>
      let last := lastIndexOf component '.' (last - 1)
      if last = -1 then none else componentEnd component i last

def componentConvert (precision : Int) (component output : Text) : Text :=
  if precision ≤ 0 then appendString output component
  else
    let len : Int := component.length
    match componentEnd component precision.toNat (len - 1) with
    | none => appendString output component
    | some last =>
        appendString output (substring component (last + 1).toNat (len - (last + 1)).toNat)

def decimal {Number : Type} [ToString Number] (number : Number) : Text := (toString number).toList

def dateConvert (environment : Environment) (format output : Text) : Text :=
  let buf := cString (environment.strftime (cString format))
  match RegEx.strstr buf "%Q".toList with
  | some p =>
      let strMillis := decimal (environment.microsecond / 1000)
      let zeros := if strMillis.length = 1 then "00" else if strMillis.length = 2 then "0" else ""
      output ++ buf.take p ++ zeros.toList ++ strMillis ++ buf.drop (p + 2)
  | none => output ++ buf

/-- The virtual function `convert`. -/
def Converter.convert (environment : Environment) (message : LogMessage) (output : Text) :
    Converter → Text
  | .literal m_literal => appendString output m_literal
  | .component _ precision => componentConvert precision message.component output
  | .date _ format => dateConvert environment format output
  | .fileLocation _ => (message.filename.map (appendCString output)).getD output
  | .fullLocation _ =>
      (message.filename.map fun filename =>
        appendCString output filename ++ ['('] ++ decimal message.fileline ++ [')']).getD output
  | .lineLocation _ => output ++ decimal message.fileline
  | .methodLocation _ => (message.methodname.map (appendCString output)).getD output
  | .message _ => appendString output message.message
  | .xmlMessage _ => xmlMessageConvert message.message output
  | .category _ => appendString output message.category
  | .relativeTime _ => output ++ decimal environment.relativeTime
  | .thread _ => output ++ decimal environment.currentThread
  | .pid _ => output ++ decimal environment.getpid

/-- The field `m_formatting`. -/
def Converter.formatting : Converter → Formatting
  | .literal _ => .none
  | .component formatting _ | .date formatting _ | .fileLocation formatting
  | .fullLocation formatting | .lineLocation formatting | .methodLocation formatting
  | .message formatting | .xmlMessage formatting | .category formatting
  | .relativeTime formatting | .thread formatting | .pid formatting => formatting

/-- A vector of spaces. Its constructor throws for a negative number, which is a large `size_t`. -/
def spaces (count : Int) : Option Text :=
  if 0 ≤ count then some (List.replicate count.toNat ' ') else none

/-- The part of `formatMessage` that brings the text of a converter to its width. -/
def Formatting.appendField (formatting : Formatting) (output buf : Text) : Option Text :=
  let leftJustify := formatting.justification = .leftJustify
  if buf.length = 0 then
    if formatting.minWidth > 0 then (spaces formatting.minWidth).map (output ++ ·) else some output
  else
    let len := wrap32 buf.length
    if len > formatting.maxWidth then
      if leftJustify then some (appendString output (buf.take (size formatting.maxWidth)))
      else some (appendString output (buf.drop (size (wrap32 (len - formatting.maxWidth)))))
    else if len < formatting.minWidth then
      let pad := spaces (wrap32 (formatting.minWidth - len))
      if leftJustify then pad.map (appendString output buf ++ ·)
      else pad.map fun pad => appendString (output ++ pad) buf
    else some (appendString output buf)

/-- No answer is an exception. -/
def Converter.formatMessage (environment : Environment) (message : LogMessage) (output : Text)
    (converter : Converter) : Option Text :=
  let formatting := converter.formatting
  if formatting.minWidth = NO_MIN_WIDTH ∧ formatting.maxWidth = NO_MAX_WIDTH then
    some (converter.convert environment message output)
  else formatting.appendField output (converter.convert environment message [])

def formatMessage (environment : Environment) (message : LogMessage)
    (m_patternConverters : List Converter) (output : Text) : Option Text :=
  m_patternConverters.foldlM (Converter.formatMessage environment message) output

section Append

theorem embedEnds_append (msg output first : Text) (start last : Nat) :
    embedEnds msg (first ++ output) start last = first ++ embedEnds msg output start last := by
  fun_induction embedEnds msg output start last with
  | @case1 output start last copied behind inside next found ih =>
      rw [embedEnds, if_pos inside]
      split
      · next same =>
          obtain rfl := Option.some.inj (found.symm.trans same)
          rw [← ih]
          simp [copied, append, behind]
      · next none => cases found.symm.trans none
  | @case2 output start last copied behind inside found =>
      rw [embedEnds, if_pos inside]
      split
      · next same => cases found.symm.trans same
      · simp [copied, append]
  | @case3 output start last copied behind outside =>
      rw [embedEnds, if_neg outside]
      simp [copied, append]

theorem xmlMessageConvert_eq (msg output : Text) :
    xmlMessageConvert msg output = output ++ xmlMessageConvert msg [] := by
  unfold xmlMessageConvert
  dsimp only
  split
  · simp
  · split
    · simp [appendString, append]
    · rw [embedEnds_append, List.append_assoc, List.nil_append]

theorem componentConvert_eq (precision : Int) (component output : Text) :
    componentConvert precision component output =
      output ++ componentConvert precision component [] := by
  unfold componentConvert
  split
  · exact appendString_eq output component
  · dsimp only
    split
    · exact appendString_eq output component
    · exact appendString_eq output _

theorem dateConvert_eq (environment : Environment) (format output : Text) :
    dateConvert environment format output = output ++ dateConvert environment format [] := by
  unfold dateConvert
  dsimp only
  split <;> simp

/-- A converter writes its text behind what is in the buffer. -/
theorem Converter.convert_eq (environment : Environment) (message : LogMessage) (output : Text)
    (converter : Converter) :
    converter.convert environment message output =
      output ++ converter.convert environment message [] := by
  cases converter with
  | literal m_literal => exact appendString_eq output m_literal
  | component formatting precision => exact componentConvert_eq precision _ output
  | date formatting format => exact dateConvert_eq environment format output
  | fileLocation formatting =>
      dsimp only [Converter.convert]
      cases message.filename with
      | none => exact (List.append_nil output).symm
      | some filename => exact appendCString_eq output filename
  | fullLocation formatting =>
      dsimp only [Converter.convert]
      cases message.filename with
      | none => exact (List.append_nil output).symm
      | some filename => simp [appendCString]
  | lineLocation formatting => rfl
  | methodLocation formatting =>
      dsimp only [Converter.convert]
      cases message.methodname with
      | none => exact (List.append_nil output).symm
      | some methodname => exact appendCString_eq output methodname
  | message formatting => exact appendString_eq output _
  | xmlMessage formatting => exact xmlMessageConvert_eq _ output
  | category formatting => exact appendString_eq output _
  | relativeTime formatting => rfl
  | thread formatting => rfl
  | pid formatting => rfl

end Append

end Blocxx.LogMessagePatternFormatter
