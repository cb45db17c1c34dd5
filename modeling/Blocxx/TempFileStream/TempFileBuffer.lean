import Mathlib.Tactic

/-!
This file embeds `TempFileBuffer` with the calls of `std::streambuf` that lead to it. A pointer is
its distance from `m_buffer`.
-/

namespace Blocxx.TempFileStream

abbrev Bytes := List UInt8

/-- A file that reads and writes in full. -/
structure File where
  bytes : Bytes
  offset : Nat
  deriving DecidableEq

namespace File

def read (file : File) (numberOfBytes : Nat) : Bytes × File :=
  let bfr := (file.bytes.drop file.offset).take numberOfBytes
  (bfr, { file with offset := file.offset + bfr.length })

/-- A write behind the end of the file fills the gap with zeros. -/
def write (file : File) (bfr : Bytes) : File where
  bytes := if bfr = [] then file.bytes
    else file.bytes.take file.offset ++ List.replicate (file.offset - file.bytes.length) 0 ++ bfr ++
      file.bytes.drop (file.offset + bfr.length)
  offset := file.offset + bfr.length

def seek (file : File) (offset : Nat) : File := { file with offset := offset }

def tell (file : File) : Nat := file.offset

def size (file : File) : Nat := file.bytes.length

end File

/-- The value of a count that is stored in an `int`. -/
def toInt (count : Nat) : Int := Int.bmod count (2 ^ 32)

/-- The value of an `int` that is passed as a `size_t`. -/
def toSize (count : Int) : Nat := (count % 2 ^ 64).toNat

/-- The put area is null or all of `m_buffer`, and the get area is null or starts at `m_buffer`.
The get pointer comes with the end of its area. -/
structure TempFileBuffer where
  m_bufSize : Nat
  m_buffer : Bytes
  m_tempFile : Option File
  m_readPos : Nat
  m_writePos : Nat
  m_isEOF : Bool
  pptr : Option Nat
  gptr : Option (Nat × Nat)
  deriving DecidableEq

namespace TempFileBuffer

/-- The constructor. The memory is what the new array holds. -/
def new {bufSize : Nat} (memory : Vector UInt8 bufSize) : TempFileBuffer where
  m_bufSize := bufSize
  m_buffer := memory.toList
  m_tempFile := none
  m_readPos := 0
  m_writePos := 0
  m_isEOF := false
  pptr := some 0
  gptr := none

variable (b : TempFileBuffer)

/-- The file is created by the first call. -/
def buffer_to_device (n : Int) : Int × TempFileBuffer :=
  let file := b.m_tempFile.getD ⟨[], 0⟩
  (toInt (toSize n), { b with m_tempFile := some (file.write (b.m_buffer.take (toSize n))) })

def buffer_out : Int × TempFileBuffer :=
  let cnt := toInt (b.pptr.getD 0)
  let (retval, out) := b.buffer_to_device cnt
  (retval, { out with pptr := some 0 })

/-- A return value of at most 0 is the end of the file. -/
def buffer_from_device (n : Int) : Int × TempFileBuffer :=
  match b.m_tempFile with
  | none => (-1, b)
  | some file =>
      let (bfr, after) := file.read (toSize n)
      (toInt bfr.length,
        { b with m_tempFile := some after, m_buffer := bfr ++ b.m_buffer.drop bfr.length })

def buffer_in : Int × TempFileBuffer :=
  let (retval, filled) := b.buffer_from_device (toInt b.m_bufSize)
  if retval ≤ 0 then (-1, { filled with gptr := none, m_isEOF := true })
  else (retval, { filled with gptr := some (0, retval.toNat) })

/-- `sputc` where the put area has room. -/
def store (c : UInt8) (p : Nat) : Option UInt8 × TempFileBuffer :=
  (some c, { b with m_buffer := b.m_buffer.set p c, pptr := some (p + 1) })

/-- `overflow` of a full put area. The area is empty after it, and `sputc` stores there. -/
def overflowFull (c : UInt8) : Option UInt8 × TempFileBuffer :=
  let (retval, out) := b.buffer_out
  if retval < 0 then (none, out) else out.store c 0

/-- The part of `overflow` that switches from input to output. -/
def switchToOutput : TempFileBuffer :=
  match b.m_tempFile with
  | none =>
      { b with
        pptr := some (toInt b.m_writePos).toNat
        m_readPos := (b.gptr.map Prod.fst).getD 0
        gptr := none }
  | some file =>
      { b with
        m_readPos := file.tell - (b.gptr.map fun get => get.2 - get.1).getD 0
        m_tempFile := some (file.seek b.m_writePos)
        pptr := some 0
        gptr := none }

/-- `overflow` with the call of `sputc` at its end. No answer is EOF. -/
def overflow (c : UInt8) : Option UInt8 × TempFileBuffer :=
  match b.pptr with
  | some _ => b.overflowFull c
  | none =>
      let p := b.switchToOutput.pptr.getD 0
      if p < b.m_bufSize then b.switchToOutput.store c p else b.switchToOutput.overflowFull c

def sputc (c : UInt8) : Option UInt8 × TempFileBuffer :=
  match b.pptr with
  | some p => if p < b.m_bufSize then b.store c p else b.overflow c
  | none => b.overflow c

/-- The loop of `xsputn`, which counts the characters until EOF. -/
def putAll (b : TempFileBuffer) : Bytes → Nat × TempFileBuffer
  | [] => (0, b)
  | c :: rest =>
      match b.sputc c with
      | (none, after) => (0, after)
      | (some _, after) =>
          let (count, last) := after.putAll rest
          (count + 1, last)

def xsputn (s : Bytes) : Nat × TempFileBuffer :=
  match b.pptr with
  | some p =>
      if s.length < b.m_bufSize - p then
        (s.length, { b with
          m_buffer := b.m_buffer.take p ++ s ++ b.m_buffer.drop (p + s.length)
          pptr := some (p + toInt s.length).toNat })
      else b.putAll s
  | none => b.putAll s

/-- The character at the get pointer. -/
def current : UInt8 := b.m_buffer.getD (b.gptr.map Prod.fst |>.getD 0) 0

/-- The part of `underflow` that switches from output to input with a file. -/
def switchToInput : TempFileBuffer :=
  let out := b.buffer_out.2
  { out with
    m_writePos := (out.m_tempFile.map File.tell).getD 0
    m_tempFile := out.m_tempFile.map fun file => file.seek out.m_readPos }

/-- No answer is EOF. The branch without a file does not ask whether there is a character. -/
def underflow : Option UInt8 × TempFileBuffer :=
  if b.m_isEOF then (none, b)
  else
    match b.gptr, b.m_tempFile with
    | some _, _ =>
        let (retval, filled) := b.buffer_in
        if retval < 0 then (none, filled) else (some filled.current, filled)
    | none, some _ =>
        let (retval, filled) := b.switchToInput.buffer_in
        if retval < 0 then (none, filled)
        else (some filled.current, { filled with pptr := none })
    | none, none =>
        let input : TempFileBuffer := { b with
          m_writePos := b.pptr.getD 0
          gptr := some (b.m_readPos, b.pptr.getD 0)
          pptr := none }
        (some input.current, input)

def gbump (count : Nat) : TempFileBuffer :=
  { b with gptr := b.gptr.map fun get => (get.1 + count, get.2) }

/-- `uflow` of the library. -/
def uflow : Option UInt8 × TempFileBuffer :=
  match b.underflow with
  | (none, after) => (none, after)
  | (some c, after) => (some c, after.gbump 1)

/-- The read of one character. -/
def sbumpc : Option UInt8 × TempFileBuffer :=
  match b.gptr with
  | some (g, e) => if g < e then (some b.current, b.gbump 1) else b.uflow
  | none => b.uflow

/-- `xsgetn` of the library, with the characters that are left to read twice, once to bound the
loop. There is no answer when the get pointer is behind its area, since the copy of a negative
count is undefined. -/
def xsgetn (b : TempFileBuffer) : Nat → Nat → Option (Bytes × TempFileBuffer)
  | 0, _ => some ([], b)
  | _ + 1, 0 => some ([], b)
  | bound + 1, remaining + 1 =>
      let (g, e) := b.gptr.getD (0, 0)
      if e < g then none
      else
        let len := min (e - g) (remaining + 1)
        let taken := (b.m_buffer.drop g).take len
        if len = remaining + 1 then some (taken, b.gbump len)
        else
          match (b.gbump len).uflow with
          | (none, after) => some (taken, after)
          | (some c, after) =>
              (after.xsgetn bound (remaining - len)).map fun more =>
                (taken ++ c :: more.1, more.2)

def sgetn (n : Nat) : Option (Bytes × TempFileBuffer) := b.xsgetn n n

def getSize : Nat :=
  match b.gptr, b.m_tempFile with
  | some (_, e), none => e
  | _, _ => (b.m_tempFile.map File.size).getD b.m_writePos + b.pptr.getD 0

def rewind : TempFileBuffer :=
  match b.m_tempFile with
  | some _ =>
      let out : TempFileBuffer := match b.pptr with
        | some p => ({ b with m_writePos := b.m_writePos + p } : TempFileBuffer).buffer_out.2
        | none => b
      { out with
        m_readPos := 0
        m_tempFile := out.m_tempFile.map fun file => file.seek 0
        gptr := some (0, 0)
        pptr := none
        m_isEOF := false }
  | none =>
      let writePos := match b.pptr, b.gptr with
        | some p, _ => p
        | none, some (_, e) => e
        | none, none => b.m_writePos
      { b with
        m_readPos := 0
        m_writePos := writePos
        gptr := some (0, writePos)
        pptr := none
        m_isEOF := false }

def reset : TempFileBuffer :=
  { b with
    m_tempFile := none
    m_readPos := 0
    m_writePos := 0
    m_isEOF := false
    gptr := none
    pptr := some 0 }

end TempFileBuffer

end Blocxx.TempFileStream
