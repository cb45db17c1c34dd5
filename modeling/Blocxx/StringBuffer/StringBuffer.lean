import Blocxx.Library.CMemory
import Blocxx.Library.TransitionSystem
import Mathlib.Data.List.DropRight

/-!
This file embeds `StringBuffer`. An operation has no result when it reads or writes memory that it
may not.
-/

namespace Blocxx.StringBuffers

open Library Library.Memory

/-- A value of `size_t`. -/
def size (value : Nat) : Nat := value % 2 ^ 64

/-- The difference of two values of `size_t`. -/
def difference (first second : Nat) : Nat := (first + 2 ^ 64 - second) % 2 ^ 64

def isspace (c : UInt8) : Bool := c = 32 || (9 ≤ c && c ≤ 13)

/-- The bytes of a block of memory, which has a zero behind them. -/
structure Text where
  bytes : List UInt8
  fits : bytes.length + 1 < 2 ^ 64

/-- The object with its block, which has `m_allocated` cells while the invariant holds. -/
structure StringBuffer where
  m_len : Nat
  m_allocated : Nat
  m_bfr : Memory

/-- A pointer argument. It points outside of the buffer or to a position in it. -/
inductive Pointer where
  | outside (text : Text)
  | inside (offset : Nat)

namespace StringBuffer

/-- The constructor from the size of the first allocation. -/
def ofSize (allocSize : UInt64) : StringBuffer :=
  let m_allocated := if allocSize.toNat > 0 then allocSize.toNat else 128
  ⟨0, m_allocated, store (allocate m_allocated) 0 [0]⟩

variable (buffer : StringBuffer)

def write (position : Nat) (bytes : List UInt8) : Option StringBuffer :=
  if position + bytes.length ≤ buffer.m_bfr.length then
    some { buffer with m_bfr := store buffer.m_bfr position bytes }
  else none

/-- The call of `memmove` to the start of the block. -/
def move (position count : Nat) : Option StringBuffer :=
  if position + count ≤ buffer.m_bfr.length then
    some { buffer with
      m_bfr := (buffer.m_bfr.drop position).take count ++ buffer.m_bfr.drop count }
  else none

def grows (len : Nat) : Bool := len > difference buffer.m_allocated (buffer.m_len + 1)

def checkAvail (len : Nat) : Option StringBuffer :=
  if buffer.grows len then
    let toalloc := size (buffer.m_allocated * 2 + len)
    if buffer.m_len ≤ buffer.m_bfr.length ∧ buffer.m_len ≤ toalloc then
      some { buffer with
        m_allocated := toalloc
        m_bfr := buffer.m_bfr.take buffer.m_len ++ allocate (toalloc - buffer.m_len) }
    else none
  else some buffer

/-- The memory that the pointer points to. -/
def at_ : Pointer → Memory
  | .outside text => text.bytes.map some ++ [some 0]
  | .inside offset => buffer.m_bfr.drop offset

/-- The cells at the pointer are not freed by `checkAvail` and none of them is written. -/
def Copies (avail cells : Nat) : Pointer → Prop
  | .outside _ => True
  | .inside offset => buffer.grows avail = false ∧ offset + cells ≤ buffer.m_len

instance (avail cells : Nat) (str : Pointer) : Decidable (buffer.Copies avail cells str) := by
  unfold Copies
  split <;> infer_instance

def appendChar (c : UInt8) : Option StringBuffer := do
  let buffer ← buffer.checkAvail 1
  let buffer ← buffer.write buffer.m_len [c]
  let m_len := size (buffer.m_len + 1)
  { buffer with m_len := m_len }.write m_len [0]

/-- The function `append` of a C string. -/
def appendCString (str : Pointer) : Option StringBuffer :=
  let string := cString (buffer.at_ str)
  let avail := size (string.length + 1)
  if buffer.Copies avail (string.length + 1) str then do
    let buffer ← buffer.checkAvail avail
    let buffer ← buffer.write buffer.m_len (string ++ [0])
    return { buffer with m_len := size (buffer.m_len + string.length) }
  else none

/-- The function `append` of a pointer and a length. -/
def append (str : Pointer) (len : Nat) : Option StringBuffer :=
  let avail := size (len + 1)
  if buffer.Copies avail len str then do
    let bytes := strncpy (buffer.at_ str) len
    let buffer ← buffer.checkAvail avail
    let buffer ← buffer.write buffer.m_len bytes
    let m_len := size (buffer.m_len + len)
    { buffer with m_len := m_len }.write m_len [0]
  else none

def appendString (arg : Text) : Option StringBuffer :=
  buffer.append (.outside arg) arg.bytes.length

/-- The function `append` of another buffer with these bytes, or of this one. -/
def appendStringBuffer : Option Text → Option StringBuffer
  | some arg => buffer.append (.outside arg) arg.bytes.length
  | none => buffer.append (.inside 0) buffer.m_len

/-- The constructor from a C string or a `String` of this length. -/
def ofString (arg : Text) (m_len : Nat) : Option StringBuffer :=
  let m_allocated := size (m_len + 128)
  write ⟨m_len, m_allocated, allocate m_allocated⟩ 0
    (cString (arg.bytes.map some ++ [some 0]) ++ [0])

/-- The copy constructor. -/
def copy : Option StringBuffer :=
  if buffer.m_len + 1 ≤ buffer.m_bfr.length ∧ buffer.m_len + 1 ≤ buffer.m_allocated then
    some { buffer with
      m_bfr := buffer.m_bfr.take (buffer.m_len + 1) ++
        allocate (buffer.m_allocated - (buffer.m_len + 1)) }
  else none

def reset : Option StringBuffer := { buffer with m_len := 0 }.write 0 [0]

def truncate (index : Nat) : Option StringBuffer :=
  if index < buffer.m_len then { buffer with m_len := index }.write index [0] else some buffer

def chop : Option StringBuffer :=
  if buffer.m_len ≠ 0 then buffer.truncate (buffer.m_len - 1) else some buffer

/-- The character in a cell meets the test. -/
def test (position : Nat) (char : UInt8 → Bool) : Bool :=
  (buffer.m_bfr.getD position none).any char

/-- The loop of `trim` at the end of the bytes, with the length as its counter. -/
def trimEnd (buffer : StringBuffer) : Nat → Option StringBuffer
  | 0 => some buffer
  | m_len + 1 =>
      if buffer.test m_len isspace then
        ({ buffer with m_len := m_len }.write m_len [0]).bind fun buffer => buffer.trimEnd m_len
      else some buffer

/-- The distance that the pointer `p` of `trim` goes. -/
def leading : Nat :=
  (buffer.m_bfr.takeWhile (Option.any fun c => c ≠ 0 && isspace c)).length

def trim : Option StringBuffer := do
  let buffer ← buffer.trimEnd buffer.m_len
  if buffer.m_len ≠ 0 then
    let p := buffer.leading
    if buffer.test p (· ≠ 0) && p > 0 then
      let m_len := difference buffer.m_len p
      { buffer with m_len := m_len }.move p (m_len + 1)
    else return buffer
  else return buffer

end StringBuffer

inductive Label where
  | appendChar (c : UInt8)
  | appendCString (str : Pointer)
  | append (str : Pointer) (len : Nat)
  | appendString (arg : Text)
  | appendStringBuffer (arg : Option Text)
  | assignCString (arg : Text)
  | assignString (arg : Text)
  | copy
  | reset
  | truncate (index : Nat)
  | chop
  | trim
  | releaseString

/-- An object without a buffer has met memory that it may not use. The reference is the bytes that
the same operations build, and after `releaseString` the buffer is the one of the `String`. -/
structure State where
  buffer : Option StringBuffer
  reference : List UInt8
  released : Bool

/-- The bytes that the pointer points to, by the reference. -/
def Pointer.bytes (reference : List UInt8) : Pointer → List UInt8
  | .outside text => text.bytes
  | .inside offset => reference.drop offset

/-- The caller has as many bytes at the pointer. -/
def Pointer.Has (str : Pointer) (reference : List UInt8) (len : Nat) : Prop :=
  match str with
  | .outside text => len ≤ text.bytes.length
  | .inside offset => offset + len ≤ reference.length

instance (str : Pointer) (reference : List UInt8) (len : Nat) :
    Decidable (str.Has reference len) := by
  unfold Pointer.Has
  split <;> infer_instance

/-- What an operation means for the reference. -/
def Label.apply (reference : List UInt8) : Label → List UInt8
  | .appendChar c => reference ++ [c]
  | .appendCString str => reference ++ (str.bytes reference).takeWhile (· ≠ 0)
  | .append str len => reference ++ (str.bytes reference).take len
  | .appendString arg => reference ++ arg.bytes
  | .appendStringBuffer (some arg) => reference ++ arg.bytes
  | .appendStringBuffer none => reference ++ reference
  | .assignCString arg => arg.bytes.takeWhile (· ≠ 0)
  | .assignString arg => arg.bytes
  | .copy | .releaseString => reference
  | .reset => []
  | .truncate index => reference.take index
  | .chop => reference.dropLast
  | .trim => (reference.rdropWhile isspace).dropWhile isspace

/-- What an operation does to the buffer. -/
def Label.run (buffer : StringBuffer) : Label → Option StringBuffer
  | .appendChar c => buffer.appendChar c
  | .appendCString str => buffer.appendCString str
  | .append str len => buffer.append str len
  | .appendString arg => buffer.appendString arg
  | .appendStringBuffer arg => buffer.appendStringBuffer arg
  | .assignCString arg => StringBuffer.ofString arg (arg.bytes.takeWhile (· ≠ 0)).length
  | .assignString arg => StringBuffer.ofString arg arg.bytes.length
  | .copy => buffer.copy
  | .reset => buffer.reset
  | .truncate index => buffer.truncate index
  | .chop => buffer.chop
  | .trim => buffer.trim
  | .releaseString => some buffer

/-- The caller gives pointers to bytes that are there. -/
def Label.Given (reference : List UInt8) : Label → Prop
  | .appendCString str => str.Has reference 0
  | .append str len => str.Has reference len
  | _ => True

instance (reference : List UInt8) (label : Label) : Decidable (label.Given reference) := by
  unfold Label.Given
  split <;> infer_instance

def Label.isRelease : Label → Bool
  | .releaseString => true
  | _ => false

/-- No operation may follow `releaseString`. -/
def State.next (state : State) (label : Label) : Option State :=
  if state.released = false ∧ label.Given state.reference then
    state.buffer.map fun buffer =>
      ⟨label.run buffer, label.apply state.reference, label.isRelease⟩
  else none

def start (allocSize : UInt64) : State := ⟨some (.ofSize allocSize), [], false⟩

def system : TransitionSystem State Label :=
  .computed (fun state => ∃ allocSize, state = start allocSize) State.next

end Blocxx.StringBuffers
