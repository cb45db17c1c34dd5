import Blocxx.Library.Loop

/-!
This file embeds the code point codec of `UTF8Utils.cpp`.
-/

namespace Blocxx.UTF8Utils
open Library

/-- The length of a sequence by its leading byte. Zero marks a byte that leads no sequence. -/
def sequenceLengthTable : List Nat :=
  List.replicate 128 1 ++ List.replicate 64 0 ++ [0, 0] ++ List.replicate 30 2 ++
    List.replicate 16 3 ++ List.replicate 5 4 ++ List.replicate 11 0

def sequenceLength (c0 : UInt8) : Nat := sequenceLengthTable.getD c0.toNat 0

inductive Fault where
  | assertion
  | outOfBounds
  deriving DecidableEq

/-- A pointer into a string is the list of the bytes before the terminator, which is zero. -/
def readByte (p : List UInt8) (index : Nat) : Except Fault UInt8 :=
  if index < p.length then .ok (p.getD index 0)
  else if index = p.length then .ok 0
  else .error .outOfBounds

def bad : UInt32 := 0xFFFFFFFF

/-- `UTF8toUCS4` reads the later bytes only after the earlier ones are not the terminator. -/
def utf8ToUcs4 (utf8char : List UInt8) : Except Fault UInt32 := do
  let b0 ← readByte utf8char 0
  if b0 = 0 then throw .assertion
  let c0 := b0.toUInt32
  match sequenceLength b0 with
  | 1 => return c0
  | 2 =>
      let c1 ← readByte utf8char 1
      if c1 = 0 then return bad
      return ((c0 &&& 0x1f) <<< 6) ||| (c1.toUInt32 &&& 0x3f)
  | 3 =>
      let c1 ← readByte utf8char 1
      if c1 = 0 then return bad
      let c2 ← readByte utf8char 2
      if c2 = 0 then return bad
      return ((c0 &&& 0x0f) <<< 12) ||| ((c1.toUInt32 &&& 0x3f) <<< 6) ||| (c2.toUInt32 &&& 0x3f)
  | 4 =>
      let c1 ← readByte utf8char 1
      if c1 = 0 then return bad
      let c2 ← readByte utf8char 2
      if c2 = 0 then return bad
      let c3 ← readByte utf8char 3
      if c3 = 0 then return bad
      return ((c0 &&& 0x03) <<< 18) ||| ((c1.toUInt32 &&& 0x3f) <<< 12) |||
        ((c2.toUInt32 &&& 0x3f) <<< 6) ||| (c3.toUInt32 &&& 0x3f)
  | _ => return bad

/-- The cast of the marker bits and the payload of one byte. -/
def marked (marker payload : UInt32) : UInt8 := (marker ||| payload).toUInt8

/-- The bytes that `UCS4toUTF8` appends. -/
def ucs4ToUtf8 (ucs4char : UInt32) : List UInt8 :=
  if ucs4char < 0x80 then [ucs4char.toUInt8]
  else if ucs4char < 0x800 then
    [marked 0xc0 (ucs4char >>> 6), marked 0x80 (ucs4char &&& 0x3f)]
  else if ucs4char < 0x10000 then
    [marked 0xe0 (ucs4char >>> 12), marked 0x80 ((ucs4char >>> 6) &&& 0x3f),
      marked 0x80 (ucs4char &&& 0x3f)]
  else
    [marked 0xf0 (ucs4char >>> 18), marked 0x80 ((ucs4char >>> 12) &&& 0x3f),
      marked 0x80 ((ucs4char >>> 6) &&& 0x3f), marked 0x80 (ucs4char &&& 0x3f)]

/-- A pointer may move up to the terminator. -/
def advance (p : List UInt8) (count : Nat) : Except Fault (List UInt8) :=
  if count ≤ p.length then .ok (p.drop count) else .error .outOfBounds

/-- The rest of a string and the code points that were read. -/
structure Cursor where
  p : List UInt8
  points : List UInt32

/-- One character is decoded and skipped by the length that the table gives for its first byte. -/
def decodeCharacter (cursor : Cursor) : Except Fault Cursor := do
  let ucs4char ← utf8ToUcs4 cursor.p
  let c0 ← readByte cursor.p 0
  let rest ← advance cursor.p (sequenceLength c0)
  return ⟨rest, cursor.points ++ [ucs4char]⟩

/-- A string is decoded character by character up to its terminator. -/
def decodeBody (cursor : Cursor) : Loop.Iteration Cursor (Except Fault (List UInt32)) :=
  if cursor.p.headD 0 = 0 then .stop (.ok cursor.points)
  else
    match decodeCharacter cursor with
    | .ok later => .next later
    | .error fault => .stop (.error fault)

end Blocxx.UTF8Utils
