import Mathlib.Tactic

/-!
This file embeds `BaseStreamBuffer`, over the virtual functions of its derived classes, and proves
what its put area and its get area keep of the bytes.
-/

namespace Blocxx.StreamBuffer

abbrev Bytes := List UInt8

/-- The value that is no character. -/
def EOF : Int := -1

/-- The value of a character, which is never `EOF`. -/
def toIntType (c : UInt8) : Int := c.toNat

/-- The conversion of an `int` to `char`. -/
def toChar (c : Int) : UInt8 := UInt8.ofNat (c % 256).toNat

inductive EDirectionFlag where
  | E_IN
  | E_OUT
  | E_IN_OUT
  deriving DecidableEq

/-- The stream buffer with what its derived class works on. The written bytes of the put area stand
from `pbase` to `pptr`, and the bytes of the get area that are left from `gptr` to `egptr`. -/
structure BaseStreamBuffer (Device : Type) where
  direction : EDirectionFlag
  m_bufSize : Nat
  written : Bytes
  left : Bytes
  device : Device
  fits : written.length ≤ if direction = .E_IN then 0 else m_bufSize

/-- The virtual functions of a derived class. A call without a result does not return. When no bytes
can be read, the result of `buffer_from_device` has none either. -/
structure Derived (Device : Type) where
  buffer_to_device : Device → Bytes → Option (Int × Device)
  buffer_from_device : Device → Nat → Option (Option Bytes × Device)

namespace BaseStreamBuffer

variable {Device : Type}

/-- The constructor. -/
def new (direction : EDirectionFlag) (bufSize : Nat) (device : Device) :
    BaseStreamBuffer Device where
  direction := direction
  m_bufSize := bufSize
  written := []
  left := []
  device := device
  fits := Nat.zero_le _

section Embedding

variable (derived : Derived Device) (b : BaseStreamBuffer Device)

/-- The distance from `pbase` to `epptr`. A buffer for input only has no put area. -/
def putSize : Nat := if b.direction = .E_IN then 0 else b.m_bufSize

/-- The calls of `memcpy` and `pbump` behind the written bytes. -/
def bump (s : Bytes) (inside : b.written.length + s.length ≤ b.putSize) :
    BaseStreamBuffer Device :=
  { b with
    written := b.written ++ s
    fits := by
      rw [List.length_append]
      exact inside }

/-- The put area is empty and the device is another one. -/
def emptied (device : Device) : BaseStreamBuffer Device :=
  { b with
    written := []
    device := device
    fits := Nat.zero_le _ }

/-- The count of the bytes is an `int`. A larger one would take the pointer out of the area. -/
def buffer_out : Option (Int × BaseStreamBuffer Device) :=
  if b.written.length < 2 ^ 31 then
    (derived.buffer_to_device b.device b.written).map fun result =>
      (result.1, b.emptied result.2)
  else none

def sync : Option (Int × BaseStreamBuffer Device) := b.buffer_out derived

/-- The function with the `sputc` that it calls. -/
def overflow (sputc : BaseStreamBuffer Device → UInt8 → Option (Int × BaseStreamBuffer Device))
    (c : Int) : Option (Int × BaseStreamBuffer Device) :=
  (b.buffer_out derived).bind fun result =>
    if result.1 < 0 then some (EOF, result.2)
    else if c ≠ EOF then sputc result.2 (toChar c)
    else some (c, result.2)

/-- The functions `sputc` and `overflow` call each other at most this many times. -/
def sputc : Nat → BaseStreamBuffer Device → UInt8 → Option (Int × BaseStreamBuffer Device)
  | fuel, b, c =>
      if room : b.written.length + [c].length ≤ b.putSize then some (toIntType c, b.bump [c] room)
      else
        match fuel with
        | 0 => none
        | fuel + 1 => b.overflow derived (sputc fuel) (toIntType c)

/-- The loop of `xsputn` from its counter on. -/
def putEach (fuel : Nat) : Bytes → Nat → BaseStreamBuffer Device →
    Option (Nat × BaseStreamBuffer Device)
  | [], i, b => some (i, b)
  | c :: s, i, b =>
      (sputc derived fuel b c).bind fun result =>
        if result.1 = EOF then some (i, result.2) else putEach fuel s (i + 1) result.2

/-- The block goes into the put area when it leaves some room there. The argument of `pbump` is an
`int`. -/
def xsputn (fuel : Nat) (s : Bytes) : Option (Nat × BaseStreamBuffer Device) :=
  if small : s.length < b.putSize - b.written.length then
    if s.length < 2 ^ 31 then some (s.length, b.bump s (by omega)) else none
  else putEach derived fuel s 0 b

/-- A result that is not positive leaves no get area. There is none without an input buffer. -/
def buffer_in : Option (Int × BaseStreamBuffer Device) :=
  if b.direction = .E_OUT then none
  else
    (derived.buffer_from_device b.device b.m_bufSize).map fun result =>
      match result.1 with
      | some (c :: rest) =>
          ((c :: rest).length, { b with left := c :: rest, device := result.2 })
      | _ => (-1, { b with left := [], device := result.2 })

/-- The character at `gptr`. -/
def underflow : Option (Int × BaseStreamBuffer Device) :=
  match b.left with
  | c :: _ => some (toIntType c, b)
  | [] =>
      (b.buffer_in derived).map fun result =>
        if result.1 < 0 then (EOF, result.2)
        else (result.2.left.head?.elim EOF toIntType, result.2)

/-- The functions of `std::streambuf`, which call `underflow` when the get area is empty. -/
def sgetc : Option (Int × BaseStreamBuffer Device) :=
  match b.left with
  | c :: _ => some (toIntType c, b)
  | [] => b.underflow derived

def sbumpc : Option (Int × BaseStreamBuffer Device) :=
  match b.left with
  | c :: rest => some (toIntType c, { b with left := rest })
  | [] =>
      (b.underflow derived).map fun result =>
        if result.1 = EOF then result
        else (result.1, { result.2 with left := result.2.left.tail })

/-- The bytes are read as by repeated calls of `sbumpc`. -/
def sgetn (derived : Derived Device) : Nat → BaseStreamBuffer Device →
    Option (Bytes × BaseStreamBuffer Device)
  | 0, b => some ([], b)
  | n + 1, b =>
      (b.sbumpc derived).bind fun result =>
        if result.1 = EOF then some ([], result.2)
        else (sgetn derived n result.2).map fun rest => (toChar result.1 :: rest.1, rest.2)

end Embedding

end BaseStreamBuffer

theorem toChar_toIntType (c : UInt8) : toChar (toIntType c) = c := by
  have small := c.toNat_lt
  rw [toChar, toIntType, Int.emod_eq_of_lt (by omega) (by omega), Int.toNat_natCast,
    UInt8.ofNat_toNat]

/-- No character is taken for `EOF`. -/
theorem toIntType_ne_EOF (c : UInt8) : toIntType c ≠ EOF := by
  rw [toIntType, EOF]
  omega

namespace BaseStreamBuffer

variable {Device : Type} {derived : Derived Device} {b after : BaseStreamBuffer Device}
  {means : Device → Bytes → Prop} {allowed : Bytes → Prop} {limit : Nat} {bytes : Bytes}

section PutArea

/-- The device takes all bytes of a put area that is not larger than the limit, as long as the whole
of its bytes is allowed. -/
def Delivers (derived : Derived Device) (means : Device → Bytes → Prop) (allowed : Bytes → Prop)
    (limit : Nat) : Prop :=
  ∀ device received s, means device received → allowed (received ++ s) → s.length ≤ limit →
    ∃ after, derived.buffer_to_device device s = some (0, after) ∧ means after (received ++ s)

/-- The bytes of the device and those of the put area are these, in this order. -/
def Carries (means : Device → Bytes → Prop) (b : BaseStreamBuffer Device) (bytes : Bytes) : Prop :=
  ∃ received, means b.device received ∧ bytes = received ++ b.written

/-- With this number of bytes more, the count of the put area is an `int`. -/
def Counted (b : BaseStreamBuffer Device) (more : Nat) : Prop :=
  b.putSize < 2 ^ 31 ∨ b.written.length + more < 2 ^ 31

instance (b : BaseStreamBuffer Device) (more : Nat) : Decidable (Counted b more) :=
  inferInstanceAs (Decidable (_ ∨ _))

/-- The calls on the put area leave the rest as it is. -/
structure KeptGet (b after : BaseStreamBuffer Device) : Prop where
  direction : after.direction = b.direction
  m_bufSize : after.m_bufSize = b.m_bufSize
  left : after.left = b.left

theorem KeptGet.refl (b : BaseStreamBuffer Device) : KeptGet b b := ⟨rfl, rfl, rfl⟩

theorem KeptGet.trans {last : BaseStreamBuffer Device} (first : KeptGet b after)
    (second : KeptGet after last) : KeptGet b last :=
  ⟨second.direction.trans first.direction, second.m_bufSize.trans first.m_bufSize,
    second.left.trans first.left⟩

theorem KeptGet.putSize (kept : KeptGet b after) : after.putSize = b.putSize := by
  rw [BaseStreamBuffer.putSize, BaseStreamBuffer.putSize, kept.direction, kept.m_bufSize]

theorem length_written_le (b : BaseStreamBuffer Device) : b.written.length ≤ b.putSize := b.fits

theorem Counted.length_lt {more : Nat} (counted : Counted b more) : b.written.length < 2 ^ 31 := by
  have fits := b.length_written_le
  rcases counted with small | few
  · omega
  · omega

/-- A flush empties the put area. -/
theorem buffer_out_spec (delivers : Delivers derived means allowed limit) (size : b.putSize ≤ limit)
    (carries : Carries means b bytes) (fine : allowed bytes)
    (counted : b.written.length < 2 ^ 31) :
    ∃ device, b.buffer_out derived = some (0, b.emptied device) ∧ means device bytes := by
  obtain ⟨received, holds, rfl⟩ := carries
  obtain ⟨device, wrote, means_⟩ := delivers b.device received b.written holds fine
    (b.length_written_le.trans size)
  refine ⟨device, ?_, means_⟩
  rw [buffer_out, if_pos counted, wrote]
  rfl

/-- What a call on the put area leaves when it accepts these bytes. -/
structure Accepts (means : Device → Bytes → Prop) (b : BaseStreamBuffer Device) (bytes s : Bytes)
    (after : BaseStreamBuffer Device) : Prop where
  carries : Carries means after (bytes ++ s)
  kept : KeptGet b after
  length : after.written.length ≤ b.written.length + s.length

theorem accepts_bump (carries : Carries means b bytes) {s : Bytes}
    (inside : b.written.length + s.length ≤ b.putSize) :
    Accepts means b bytes s (b.bump s inside) where
  carries := by
    obtain ⟨received, holds, rfl⟩ := carries
    exact ⟨received, holds, List.append_assoc received b.written s⟩
  kept := ⟨rfl, rfl, rfl⟩
  length := by
    rw [bump, List.length_append]

theorem sputc_room {fuel : Nat} {c : UInt8}
    (inside : b.written.length + [c].length ≤ b.putSize) :
    sputc derived fuel b c = some (toIntType c, b.bump [c] inside) := by
  cases fuel with
  | zero => exact dif_pos inside
  | succ fuel => exact dif_pos inside

theorem sputc_full {fuel : Nat} {c : UInt8}
    (full : ¬ b.written.length + [c].length ≤ b.putSize) :
    sputc derived (fuel + 1) b c = b.overflow derived (sputc derived fuel) (toIntType c) :=
  dif_neg full

/-- A character is stored, after a flush when the put area is full. -/
theorem sputc_spec (delivers : Delivers derived means allowed limit) (size : b.putSize ≤ limit)
    (carries : Carries means b bytes) {c : UInt8} (fine : allowed bytes) (room : 0 < b.putSize)
    (counted : Counted b 1) {fuel : Nat} (enough : 0 < fuel) :
    ∃ after, sputc derived fuel b c = some (toIntType c, after) ∧
      Accepts means b bytes [c] after := by
  by_cases inside : b.written.length + [c].length ≤ b.putSize
  · exact ⟨_, sputc_room inside, accepts_bump carries inside⟩
  · obtain ⟨fuel, rfl⟩ : ∃ rest, fuel = rest + 1 := ⟨fuel - 1, by omega⟩
    obtain ⟨device, flushed, holds⟩ := buffer_out_spec delivers size carries fine counted.length_lt
    have empty : Carries means (b.emptied device) bytes := ⟨bytes, holds, (List.append_nil _).symm⟩
    have stores : (b.emptied device).written.length + [c].length ≤ (b.emptied device).putSize := by
      show 0 + 1 ≤ b.putSize
      omega
    have stored := accepts_bump empty stores
    refine ⟨_, ?_, stored.carries, ⟨rfl, rfl, rfl⟩, ?_⟩
    · rw [sputc_full inside, overflow, flushed, Option.bind_some, if_neg (lt_irrefl 0),
        if_pos (toIntType_ne_EOF c), toChar_toIntType, sputc_room stores]
    · have short := stored.length
      have none_ : (b.emptied device).written.length = 0 := rfl
      omega

/-- The loop of `xsputn` stores one character after the other. -/
theorem putEach_spec (delivers : Delivers derived means allowed limit) (size : b.putSize ≤ limit)
    (prefixes : ∀ first second, allowed (first ++ second) → allowed first)
    (s : Bytes) (i : Nat) (carries : Carries means b bytes) (fine : allowed (bytes ++ s))
    (room : 0 < b.putSize) (counted : Counted b s.length) {fuel : Nat} (enough : 0 < fuel) :
    ∃ after, putEach derived fuel s i b = some (i + s.length, after) ∧
      Accepts means b bytes s after := by
  induction s generalizing i b bytes with
  | nil =>
      refine ⟨b, rfl, ?_, .refl b, le_rfl⟩
      rwa [List.append_nil]
  | cons c s ih =>
      have one : Counted b 1 := by
        rw [List.length_cons] at counted
        exact counted.imp id fun few => by omega
      obtain ⟨next, put, stored⟩ :=
        @sputc_spec _ _ b _ _ _ _ delivers size carries c (prefixes _ _ fine) room one _ enough
      have fine : allowed (bytes ++ [c] ++ s) := by rwa [List.append_assoc]
      have same := stored.kept.putSize
      have short := stored.length
      rw [List.length_cons] at counted
      rw [List.length_singleton] at short
      have counted : Counted next s.length := by
        unfold Counted at counted ⊢
        omega
      obtain ⟨after, puts, rest⟩ :=
        ih (same.le.trans size) (i + 1) stored.carries fine (by omega) counted
      refine ⟨after, ?_, ?_, stored.kept.trans rest.kept, ?_⟩
      · rw [putEach, put, Option.bind_some, if_neg (toIntType_ne_EOF c), puts, List.length_cons]
        congr 2
        omega
      · have carried := rest.carries
        rwa [List.append_assoc] at carried
      · have longer := rest.length
        rw [List.length_cons]
        omega

/-- Both paths of `xsputn` accept the whole block. -/
theorem xsputn_spec (delivers : Delivers derived means allowed limit) (size : b.putSize ≤ limit)
    (prefixes : ∀ first second, allowed (first ++ second) → allowed first)
    {s : Bytes} (carries : Carries means b bytes) (fine : allowed (bytes ++ s))
    (room : 0 < b.putSize ∨ s = []) (counted : Counted b s.length) {fuel : Nat}
    (enough : 0 < fuel) :
    ∃ after, xsputn derived b fuel s = some (s.length, after) ∧ Accepts means b bytes s after := by
  rw [xsputn]
  by_cases small : s.length < b.putSize - b.written.length
  · have short : s.length < 2 ^ 31 := by
      unfold Counted at counted
      omega
    rw [dif_pos small, if_pos short]
    exact ⟨_, rfl, accepts_bump carries _⟩
  · rw [dif_neg small]
    rcases room with room | rfl
    · have puts := putEach_spec delivers size prefixes s 0 carries fine room counted enough
      rwa [Nat.zero_add] at puts
    · refine ⟨b, rfl, ?_, .refl b, le_rfl⟩
      rwa [List.append_nil]

end PutArea

section GetArea

/-- The value of the first character, or `EOF` when there is none. -/
def firstValue (bytes : Bytes) : Int := bytes.head?.elim EOF toIntType

/-- The device gives its bytes in non-empty chunks, and at its end it gives none. -/
def Supplies (derived : Derived Device) (means : Device → Bytes → Prop) : Prop :=
  ∀ device rest n, means device rest → 0 < n →
    ∃ chunk after, derived.buffer_from_device device n = some (chunk, after) ∧
      ∃ tail, rest = chunk.getD [] ++ tail ∧ means after tail ∧ (chunk.getD [] = [] → rest = [])

/-- The bytes of the get area and those that the device still has are these, in this order. -/
def Pending (means : Device → Bytes → Prop) (b : BaseStreamBuffer Device) (bytes : Bytes) : Prop :=
  ∃ rest, means b.device rest ∧ bytes = b.left ++ rest

/-- The calls on the get area leave the rest as it is. -/
structure KeptPut (b after : BaseStreamBuffer Device) : Prop where
  direction : after.direction = b.direction
  m_bufSize : after.m_bufSize = b.m_bufSize
  written : after.written = b.written

theorem KeptPut.refl (b : BaseStreamBuffer Device) : KeptPut b b := ⟨rfl, rfl, rfl⟩

theorem KeptPut.trans {last : BaseStreamBuffer Device} (first : KeptPut b after)
    (second : KeptPut after last) : KeptPut b last :=
  ⟨second.direction.trans first.direction, second.m_bufSize.trans first.m_bufSize,
    second.written.trans first.written⟩

/-- The buffer has an input buffer that is not empty. -/
structure Readable (b : BaseStreamBuffer Device) : Prop where
  direction : b.direction ≠ .E_OUT
  room : 0 < b.m_bufSize

theorem Readable.of_kept (readable : Readable b) (kept : KeptPut b after) : Readable after :=
  ⟨kept.direction ▸ readable.direction, kept.m_bufSize ▸ readable.room⟩

/-- A successful call leaves its first character at `gptr`, and only the end of the device is
answered with `EOF`. -/
theorem underflow_spec (supplies : Supplies derived means) (readable : Readable b)
    (pending : Pending means b bytes) :
    ∃ after, b.underflow derived = some (firstValue bytes, after) ∧
      Pending means after bytes ∧ KeptPut b after ∧ after.left.head? = bytes.head? := by
  obtain ⟨rest, holds, rfl⟩ := pending
  rw [underflow]
  cases left : b.left with
  | cons c tail => exact ⟨b, rfl, ⟨rest, holds, by rw [left]⟩, .refl b, by rw [left]; rfl⟩
  | nil =>
      obtain ⟨chunk, device, read, tail, split, means_, ends⟩ :=
        supplies b.device rest b.m_bufSize holds readable.room
      rw [buffer_in, if_neg readable.direction, read]
      cases given : chunk.getD [] with
      | nil =>
          obtain rfl := ends given
          rw [given, List.nil_append] at split
          subst split
          have none_ : chunk = none ∨ chunk = some [] := by
            cases chunk with
            | none => exact .inl rfl
            | some bytes => exact .inr (congrArg some given)
          rcases none_ with rfl | rfl
          · exact ⟨_, rfl, ⟨[], means_, rfl⟩, ⟨rfl, rfl, rfl⟩, rfl⟩
          · exact ⟨_, rfl, ⟨[], means_, rfl⟩, ⟨rfl, rfl, rfl⟩, rfl⟩
      | cons c bytes =>
          obtain rfl : chunk = some (c :: bytes) := by
            cases chunk with
            | none => cases given
            | some bytes => exact congrArg some given
          subst split
          refine ⟨{ b with left := c :: bytes, device := device }, ?_, ⟨tail, means_, rfl⟩,
            ⟨rfl, rfl, rfl⟩, rfl⟩
          dsimp only [Option.map_some]
          rw [if_neg (by omega)]
          rfl

theorem sgetc_spec (supplies : Supplies derived means) (readable : Readable b)
    (pending : Pending means b bytes) :
    ∃ after, b.sgetc derived = some (firstValue bytes, after) ∧
      Pending means after bytes ∧ KeptPut b after := by
  cases left : b.left with
  | cons c tail =>
      obtain ⟨rest, holds, rfl⟩ := pending
      rw [sgetc, left]
      exact ⟨b, rfl, ⟨rest, holds, by rw [left]⟩, .refl b⟩
  | nil =>
      obtain ⟨after, gave, still, kept, -⟩ := underflow_spec supplies readable pending
      rw [sgetc, left]
      exact ⟨after, gave, still, kept⟩

/-- One character is taken from the front. -/
theorem sbumpc_spec (supplies : Supplies derived means) (readable : Readable b)
    (pending : Pending means b bytes) :
    ∃ after, b.sbumpc derived = some (firstValue bytes, after) ∧
      Pending means after bytes.tail ∧ KeptPut b after := by
  cases left : b.left with
  | cons c tail =>
      obtain ⟨rest, holds, rfl⟩ := pending
      rw [sbumpc, left]
      exact ⟨_, rfl, ⟨rest, holds, rfl⟩, ⟨rfl, rfl, rfl⟩⟩
  | nil =>
      obtain ⟨after, gave, still, kept, head⟩ := underflow_spec supplies readable pending
      rw [sbumpc, left, gave]
      cases bytes with
      | nil => exact ⟨after, rfl, still, kept⟩
      | cons c bytes =>
          obtain ⟨rest, holds, split⟩ := still
          obtain ⟨tail, front⟩ : ∃ tail, after.left = c :: tail := by
            cases front : after.left with
            | nil =>
                rw [front] at head
                cases head
            | cons first tail =>
                rw [front] at head
                exact ⟨tail, by rw [Option.some.inj head]⟩
          rw [front, List.cons_append, List.cons.injEq] at split
          refine ⟨{ after with left := after.left.tail }, ?_, ⟨rest, holds, ?_⟩,
            ⟨kept.direction, kept.m_bufSize, kept.written⟩⟩
          · rw [Option.map_some]
            exact congrArg some (if_neg (toIntType_ne_EOF c))
          · show bytes = after.left.tail ++ rest
            rw [front]
            exact split.2

/-- A block is read up to the end of the device. -/
theorem sgetn_spec (supplies : Supplies derived means) (n : Nat) (readable : Readable b)
    (pending : Pending means b bytes) :
    ∃ after, sgetn derived n b = some (bytes.take n, after) ∧
      Pending means after (bytes.drop n) ∧ KeptPut b after := by
  induction n generalizing b bytes with
  | zero => exact ⟨b, rfl, pending, .refl b⟩
  | succ n ih =>
      obtain ⟨next, gave, still, kept⟩ := sbumpc_spec supplies readable pending
      rw [sgetn, gave, Option.bind_some]
      cases bytes with
      | nil => exact ⟨next, rfl, still, kept⟩
      | cons c bytes =>
          obtain ⟨after, gets, rest, keeps⟩ := ih (readable.of_kept kept) still
          refine ⟨after, ?_, rest, kept.trans keeps⟩
          refine (if_neg (toIntType_ne_EOF c)).trans ?_
          rw [gets, Option.map_some]
          exact congrArg (fun c => some (c :: bytes.take n, after)) (toChar_toIntType c)

end GetArea

end BaseStreamBuffer

/-- A call on the put area. -/
inductive PutCall where
  | sputc (c : UInt8)
  | sputn (s : Bytes)
  | sync
  deriving DecidableEq

/-- A call on the get area. -/
inductive GetCall where
  | sgetc
  | sbumpc
  | sgetn (n : Nat)

/-- What a call on the get area answers. -/
inductive GetAnswer where
  | value (c : Int)
  | block (s : Bytes)
  deriving DecidableEq

section Calls

variable {Device : Type} (derived : Derived Device) (fuel : Nat) (b : BaseStreamBuffer Device)

def PutCall.run : PutCall → Option (Int × BaseStreamBuffer Device)
  | .sputc c => BaseStreamBuffer.sputc derived fuel b c
  | .sputn s => (b.xsputn derived fuel s).map fun result => ((result.1 : Int), result.2)
  | .sync => b.sync derived

def PutCall.bytes : PutCall → Bytes
  | .sputc c => [c]
  | .sputn s => s
  | .sync => []

/-- The answer of success. -/
def PutCall.success : PutCall → Int
  | .sputc c => toIntType c
  | .sputn s => s.length
  | .sync => 0

/-- The answers of a sequence of calls and the buffer behind it. -/
def putCalls (b : BaseStreamBuffer Device) :
    List PutCall → Option (List Int × BaseStreamBuffer Device)
  | [] => some ([], b)
  | call :: calls =>
      (call.run derived fuel b).bind fun result =>
        (putCalls result.2 calls).map fun rest => (result.1 :: rest.1, rest.2)

def GetCall.run : GetCall → Option (GetAnswer × BaseStreamBuffer Device)
  | .sgetc => (b.sgetc derived).map fun result => (.value result.1, result.2)
  | .sbumpc => (b.sbumpc derived).map fun result => (.value result.1, result.2)
  | .sgetn n => (BaseStreamBuffer.sgetn derived n b).map fun result => (.block result.1, result.2)

/-- The answers of a sequence of calls and the buffer behind it. -/
def getCalls (b : BaseStreamBuffer Device) :
    List GetCall → Option (List GetAnswer × BaseStreamBuffer Device)
  | [] => some ([], b)
  | call :: calls =>
      (call.run derived b).bind fun result =>
        (getCalls result.2 calls).map fun rest => (result.1 :: rest.1, rest.2)

end Calls

/-- The answer from the bytes that have not been delivered yet. -/
def GetCall.answer (bytes : Bytes) : GetCall → GetAnswer
  | .sgetc | .sbumpc => .value (BaseStreamBuffer.firstValue bytes)
  | .sgetn n => .block (bytes.take n)

/-- The number of bytes that the call takes. -/
def GetCall.taken : GetCall → Nat
  | .sgetc => 0
  | .sbumpc => 1
  | .sgetn n => n

/-- The answers of a plain sequence of bytes. -/
def expected (bytes : Bytes) : List GetCall → List GetAnswer
  | [] => []
  | call :: calls => call.answer bytes :: expected (bytes.drop call.taken) calls

section Runs

open BaseStreamBuffer

variable {Device : Type} {derived : Derived Device} {b : BaseStreamBuffer Device}
  {means : Device → Bytes → Prop} {allowed : Bytes → Prop} {limit fuel : Nat} {bytes : Bytes}

/-- A call on the put area succeeds and accepts its bytes. -/
theorem PutCall.run_spec (call : PutCall) (delivers : Delivers derived means allowed limit)
    (size : b.putSize ≤ limit) (prefixes : ∀ first second, allowed (first ++ second) → allowed first)
    (carries : Carries means b bytes) (fine : allowed (bytes ++ call.bytes)) (room : 0 < b.putSize)
    (counted : Counted b call.bytes.length) (enough : 0 < fuel) :
    ∃ after, call.run derived fuel b = some (call.success, after) ∧
      Accepts means b bytes call.bytes after ∧ (call = .sync → after.written = []) := by
  cases call with
  | sputc c =>
      obtain ⟨after, put, accepts⟩ :=
        sputc_spec delivers size carries (prefixes _ _ fine) room counted enough
      exact ⟨after, put, accepts, nofun⟩
  | sputn s =>
      obtain ⟨after, put, accepts⟩ :=
        xsputn_spec delivers size prefixes carries fine (.inl room) counted enough
      exact ⟨after, congrArg (Option.map _) put, accepts, nofun⟩
  | sync =>
      obtain ⟨device, flushed, holds⟩ :=
        buffer_out_spec delivers size carries (prefixes _ _ fine) counted.length_lt
      refine ⟨_, flushed, ⟨⟨bytes, holds, rfl⟩, ⟨rfl, rfl, rfl⟩, Nat.zero_le _⟩, fun _ => rfl⟩

/-- All calls of a sequence succeed, and what they accept stands behind the bytes before. -/
theorem putCalls_spec (calls : List PutCall) (delivers : Delivers derived means allowed limit)
    (size : b.putSize ≤ limit) (prefixes : ∀ first second, allowed (first ++ second) → allowed first)
    (carries : Carries means b bytes) (fine : allowed (bytes ++ calls.flatMap PutCall.bytes))
    (room : 0 < b.putSize) (int : b.putSize < 2 ^ 31) (enough : 0 < fuel) :
    ∃ after, putCalls derived fuel b calls = some (calls.map PutCall.success, after) ∧
      Carries means after (bytes ++ calls.flatMap PutCall.bytes) ∧ KeptGet b after ∧
      (calls.getLast? = some .sync → after.written = []) := by
  induction calls generalizing b bytes with
  | nil => exact ⟨b, rfl, by rwa [List.flatMap_nil, List.append_nil], .refl b, nofun⟩
  | cons call calls ih =>
      rw [List.flatMap_cons, ← List.append_assoc] at fine ⊢
      obtain ⟨next, ran, accepts, flushed⟩ := call.run_spec delivers size prefixes carries
        (prefixes _ _ fine) room (.inl int) enough
      have same := accepts.kept.putSize
      obtain ⟨after, runs, carried, kept, last⟩ := ih (same.le.trans size) accepts.carries fine
        (same ▸ room) (same ▸ int)
      refine ⟨after, ?_, carried, accepts.kept.trans kept, ?_⟩
      · rw [putCalls, ran, Option.bind_some, runs]
        rfl
      · cases calls with
        | nil =>
            obtain rfl := (Prod.mk.inj (Option.some.inj runs)).2
            exact fun ends => flushed (Option.some.inj ends)
        | cons other calls => exact last

theorem GetCall.run_spec (call : GetCall) (supplies : Supplies derived means)
    (readable : Readable b) (pending : Pending means b bytes) :
    ∃ after, call.run derived b = some (call.answer bytes, after) ∧
      Pending means after (bytes.drop call.taken) ∧ KeptPut b after := by
  cases call with
  | sgetc =>
      obtain ⟨after, gave, rest, kept⟩ := sgetc_spec supplies readable pending
      exact ⟨after, congrArg (Option.map _) gave, rest, kept⟩
  | sbumpc =>
      obtain ⟨after, gave, rest, kept⟩ := sbumpc_spec supplies readable pending
      rw [← List.drop_one] at rest
      exact ⟨after, congrArg (Option.map _) gave, rest, kept⟩
  | sgetn n =>
      obtain ⟨after, gave, rest, kept⟩ := sgetn_spec supplies n readable pending
      exact ⟨after, congrArg (Option.map _) gave, rest, kept⟩

/-- A sequence of calls delivers the bytes of the device in their order. -/
theorem getCalls_spec (calls : List GetCall) (supplies : Supplies derived means)
    (readable : Readable b) (pending : Pending means b bytes) :
    ∃ after, getCalls derived b calls = some (expected bytes calls, after) ∧
      Pending means after (bytes.drop (calls.map GetCall.taken).sum) ∧ KeptPut b after := by
  induction calls generalizing b bytes with
  | nil => exact ⟨b, rfl, pending, .refl b⟩
  | cons call calls ih =>
      obtain ⟨next, ran, rest, kept⟩ := call.run_spec supplies readable pending
      obtain ⟨after, runs, still, keeps⟩ := ih (readable.of_kept kept) rest
      refine ⟨after, ?_, ?_, kept.trans keeps⟩
      · rw [getCalls, ran, Option.bind_some, runs]
        rfl
      · rw [List.map_cons, List.sum_cons]
        rwa [List.drop_drop] at still

end Runs

end Blocxx.StreamBuffer
