import Blocxx.Library.ByteStream

/-!
This file embeds the readers and writers of `BinarySerialization` and of `String`. A `String` is
the list of its bytes, and one without a buffer is empty. The readers take exactly the bytes that
the writers put, on every stream that is a queue of bytes.
-/

namespace Blocxx.BinarySerialization

open Library

/-- The exceptions. Behaviour that the language leaves undefined is one of the failures. -/
inductive Failure where
  | IOException (message : String)
  | BadSignatureException (message : String)
  | EnumerationException (message : String)
  | undefinedBehaviour
  deriving DecidableEq

abbrev Bytes := List UInt8

variable {State : Type}

/-- An action on a `streambuf`. -/
abbrev Action (State Answer : Type) := StateT State (Except Failure) Answer

section Readers

variable (strm : ByteStream Failure State)

/-- The block `write`. -/
def write (dataOut : Bytes) : Action State Unit := do
  let cnt ← fun state => strm.sputn dataOut state
  if cnt ≠ dataOut.length then throw (.IOException "Failed writing data")

/-- The block `read`. -/
def read (dataInLen : Nat) : Action State Bytes := do
  let dataIn ← fun state => strm.sgetn dataInLen state
  if dataIn.length ≠ dataInLen then throw (.IOException "Failed reading data")
  return dataIn

/-- The overload of `read` for a `UInt8`. -/
def readByte : Action State UInt8 := do
  return (← read strm 1).headD 0

/-- The lowest bytes of the length, the highest of them first. -/
def netlen : Nat → UInt32 → Bytes
  | 0, _ => []
  | lenlen + 1, len => netlen lenlen (len >>> 8) ++ [(len &&& 0xff).toUInt8]

def lengthOfLength (len : UInt32) : UInt8 :=
  if len < (1 : UInt32) <<< 8 then 1
  else if len < (1 : UInt32) <<< 16 then 2
  else if len < (1 : UInt32) <<< 24 then 3
  else 4

def writeLen (len : UInt32) : Action State Unit :=
  if len < 128 then write strm [len.toUInt8]
  else do
    let lenlen := lengthOfLength len
    write strm [lenlen ||| 0x80]
    write strm (netlen lenlen.toNat len)

/-- One iteration of the loop of `readLen`. -/
def appendOctet (len : UInt32) (octet : UInt8) : UInt32 := len <<< 8 ||| octet.toUInt32

def readLen : Action State UInt32 := do
  let lc ← readByte strm
  if lc &&& 0x80 ≠ 0 then
    let noctets := lc &&& 0x7f
    if noctets > 4 then
      throw (.IOException ("Failed reading data: length length (" ++ toString noctets.toNat ++
        ") is too large (> 4)"))
    let octets ← read strm noctets.toNat
    return octets.foldl appendOctet 0
  else return lc.toUInt32

def verifySignature (validSig : UInt8) : Action State Unit := do
  let val ← readByte strm
  if val ≠ validSig then
    throw (.BadSignatureException ("Received invalid signature. Got: " ++ toString val.toNat ++
      " Expected: " ++ toString validSig.toNat))

/-- `String::writeObject`. -/
def writeObject (str : Bytes) : Action State Unit := do
  let len := UInt32.ofNat str.length
  writeLen strm len
  if len ≠ 0 then write strm (str.take len.toNat)

/-- `String::readObject`. The buffer has `len + 1` bytes, a sum of 32 bits, and the read and the
last zero need all of them. -/
def readObject : Action State Bytes := do
  let len ← readLen strm
  if (len + 1).toNat ≤ len.toNat then throw .undefinedBehaviour
  read strm len.toNat

def BINSIG_STRARRAY : UInt8 := 107

/-- The loop of `writeArray`. -/
def writeElements : List Bytes → Action State Unit
  | [] => return
  | str :: rest => do
      writeObject strm str
      writeElements rest

def writeArray (a : List Bytes) : Action State Unit := do
  let len := UInt32.ofNat a.length
  writeLen strm len
  writeElements strm (a.take len.toNat)

/-- The loop of `readArray`, with the number of elements that are left. -/
def readElements : Nat → Action State (List Bytes)
  | 0 => return []
  | left + 1 => do
      let x ← readObject strm
      return x :: (← readElements left)

def readArray : Action State (List Bytes) := do
  let len ← readLen strm
  readElements strm len.toNat

def writeStringArray (stra : List Bytes) : Action State Unit := do
  write strm [BINSIG_STRARRAY]
  writeArray strm stra

def readStringArray : Action State (List Bytes) := do
  verifySignature strm BINSIG_STRARRAY
  readArray strm

end Readers

end Blocxx.BinarySerialization

namespace Blocxx.BinarySerialization

open Library Library.ByteStream

section Length

/-- The bytes that `writeLen` puts. -/
def encodeLen (len : UInt32) : Bytes :=
  if len < 128 then [len.toUInt8]
  else (lengthOfLength len ||| 0x80) :: netlen (lengthOfLength len).toNat len

theorem netlen_length (lenlen : Nat) (len : UInt32) : (netlen lenlen len).length = lenlen := by
  induction lenlen generalizing len with
  | zero => rfl
  | succ lenlen ih => rw [netlen, List.length_append, ih, List.length_singleton]

/-- The low byte and the rest make up the length. -/
theorem shift_or_low (len : UInt32) :
    (len >>> 8) <<< 8 ||| ((len &&& 0xff).toUInt8).toUInt32 = len := by
  have bound := len.toNat_lt
  have low : (len &&& 0xff).toUInt8.toUInt32.toNat = len.toNat % 256 := by
    have mask : (0xff : UInt32).toNat = 2 ^ 8 - 1 := rfl
    rw [UInt8.toNat_toUInt32, UInt32.toNat_toUInt8, UInt32.toNat_and, mask,
      Nat.and_two_pow_sub_one_eq_mod]
    omega
  have high : ((len >>> 8) <<< 8).toNat = 2 ^ 8 * (len.toNat / 256) := by
    rw [UInt32.toNat_shiftLeft, UInt32.toNat_shiftRight]
    simp only [UInt32.reduceToNat, Nat.reduceMod, Nat.shiftRight_eq_div_pow, Nat.shiftLeft_eq]
    omega
  apply UInt32.toNat_inj.mp
  rw [UInt32.toNat_or, low, high, ← Nat.two_pow_add_eq_or_of_lt (by omega)]
  omega

/-- The loop of `readLen` puts the bytes together again. -/
theorem foldl_netlen {lenlen : Nat} {len : UInt32} (fits : len.toNat < 2 ^ (8 * lenlen)) :
    (netlen lenlen len).foldl appendOctet 0 = len := by
  induction lenlen generalizing len with
  | zero =>
      have isZero : len.toNat = (0 : UInt32).toNat := by simpa using fits
      exact (UInt32.toNat_inj.mp isZero).symm
  | succ lenlen ih =>
      have shifted : (len >>> 8).toNat < 2 ^ (8 * lenlen) := by
        rw [UInt32.toNat_shiftRight]
        simp only [UInt32.reduceToNat, Nat.reduceMod, Nat.shiftRight_eq_div_pow]
        rw [Nat.div_lt_iff_lt_mul (by decide), ← Nat.pow_add]
        exact fits
      rw [netlen, List.foldl_append, ih shifted]
      exact shift_or_low len

/-- The length of the length is enough for the length. -/
theorem lengthOfLength_spec (len : UInt32) :
    lengthOfLength len ∈ [1, 2, 3, 4] ∧ len.toNat < 2 ^ (8 * (lengthOfLength len).toNat) := by
  have bound := len.toNat_lt
  have shifted : ((1 : UInt32) <<< 8).toNat = 2 ^ 8 ∧ ((1 : UInt32) <<< 16).toNat = 2 ^ 16 ∧
      ((1 : UInt32) <<< 24).toNat = 2 ^ 24 := by
    decide
  unfold lengthOfLength
  simp only [UInt32.lt_iff_toNat_lt, shifted]
  split
  · next small => exact ⟨by decide, small⟩
  split
  · next small => exact ⟨by decide, small⟩
  split
  · next small => exact ⟨by decide, small⟩
  · exact ⟨by decide, bound⟩

/-- The first byte of a long length tells that it is long and how long. -/
theorem marker_spec {lenlen : UInt8} (one : lenlen ∈ [1, 2, 3, 4]) :
    (lenlen ||| 0x80) &&& 0x80 ≠ 0 ∧ (lenlen ||| 0x80) &&& 0x7f = lenlen ∧ ¬ lenlen > 4 := by
  simp only [List.mem_cons, List.not_mem_nil, or_false] at one
  rcases one with rfl | rfl | rfl | rfl <;> decide

/-- A short length is one byte without the mark. -/
theorem short_spec {len : UInt32} (short : len < 128) :
    len.toUInt8 &&& 0x80 = 0 ∧ len.toUInt8.toUInt32 = len := by
  rw [UInt32.lt_iff_toNat_lt] at short
  have bound : len.toNat < 128 := short
  have same : len.toUInt8.toNat = len.toNat := by
    rw [UInt32.toNat_toUInt8]
    omega
  constructor
  · have table : ∀ value : Fin 128, UInt8.ofNat value.val &&& 0x80 = 0 := by decide
    have isByte : len.toUInt8 = UInt8.ofNat len.toNat := by
      apply UInt8.toNat_inj.mp
      rw [same, UInt8.toNat_ofNat']
      omega
    rw [isByte]
    exact table ⟨len.toNat, bound⟩
  · apply UInt32.toNat_inj.mp
    rw [UInt8.toNat_toUInt32, same]

end Length

section Streams

variable {State : Type} {strm : ByteStream Failure State} {holds : State → Bytes → Prop}

theorem write_writes (queue : IsQueue strm holds) (data : Bytes) :
    Writes holds (write strm data) data := by
  intro state bytes held
  obtain ⟨next, put, heldNext⟩ := queue.put data held
  refine ⟨next, ?_, heldNext⟩
  simp only [write, StateT.run, bind, StateT.bind, put, Except.bind]
  rw [if_neg (not_not.mpr rfl)]
  rfl

theorem read_reads (queue : IsQueue strm holds) (data : Bytes) :
    Reads holds (read strm data.length) data data := by
  intro state rest held
  obtain ⟨next, get, heldNext⟩ := queue.get held
  refine ⟨next, ?_, heldNext⟩
  simp only [read, StateT.run, bind, StateT.bind, get, Except.bind]
  rw [if_neg (not_not.mpr rfl)]
  rfl

theorem readByte_reads (queue : IsQueue strm holds) (byte : UInt8) :
    Reads holds (readByte strm) [byte] byte := by
  have mapped := (read_reads queue [byte]).map fun dataIn : Bytes => dataIn.headD 0
  exact mapped

theorem writeLen_writes (queue : IsQueue strm holds) (len : UInt32) :
    Writes holds (writeLen strm len) (encodeLen len) := by
  unfold writeLen encodeLen
  split
  · exact write_writes queue _
  · exact (write_writes queue [_]).bind (write_writes queue _)

theorem readLen_reads (queue : IsQueue strm holds) (len : UInt32) :
    Reads holds (readLen strm) (encodeLen len) len := by
  unfold readLen encodeLen
  split
  · next short =>
      obtain ⟨unmarked, same⟩ := short_spec short
      show Reads holds _ ([len.toUInt8] ++ []) len
      refine (readByte_reads queue _).bind ?_
      rw [unmarked, if_neg (not_not.mpr rfl), same]
      exact .nothing len
  · obtain ⟨few, fits⟩ := lengthOfLength_spec len
    obtain ⟨marked, octets, notLarge⟩ := marker_spec few
    have count := netlen_length (lengthOfLength len).toNat len
    show Reads holds _ ([lengthOfLength len ||| 0x80] ++ netlen (lengthOfLength len).toNat len) len
    refine (readByte_reads queue _).bind ?_
    rw [if_pos marked]
    dsimp only
    rw [octets, if_neg notLarge]
    have block : Reads holds (read strm _) _ _ :=
      read_reads queue (netlen (lengthOfLength len).toNat len)
    rw [count] at block
    have joined := block.map fun octets : Bytes => octets.foldl appendOctet 0
    rwa [foldl_netlen fits] at joined

/-- The bytes that `writeObject` puts. -/
def encodeObject (str : Bytes) : Bytes := encodeLen (UInt32.ofNat str.length) ++ str

theorem writeObject_writes (queue : IsQueue strm holds) {str : Bytes}
    (fits : str.length < 2 ^ 32) : Writes holds (writeObject strm str) (encodeObject str) := by
  have count : (UInt32.ofNat str.length).toNat = str.length := by
    rw [UInt32.toNat_ofNat']
    omega
  refine (writeLen_writes queue _).bind ?_
  split
  · rw [count, List.take_length]
    exact write_writes queue str
  · next zero =>
      have empty : str.length = 0 := by
        rw [← count, not_not.mp zero]
        rfl
      rw [List.length_eq_zero_iff.mp empty]
      exact .nothing

/-- The sum that sizes the buffer of `readObject` wraps for the longest string only. -/
theorem bufferSize_eq {str : Bytes} (fits : str.length < 2 ^ 32) :
    (UInt32.ofNat str.length).toNat = str.length ∧
      (UInt32.ofNat str.length + 1).toNat = (str.length + 1) % 2 ^ 32 := by
  have count : (UInt32.ofNat str.length).toNat = str.length := by
    rw [UInt32.toNat_ofNat']
    omega
  refine ⟨count, ?_⟩
  rw [UInt32.toNat_add, count]
  rfl

theorem readObject_reads (queue : IsQueue strm holds) {str : Bytes}
    (fits : str.length < 2 ^ 32 - 1) : Reads holds (readObject strm) (encodeObject str) str := by
  obtain ⟨count, size⟩ := bufferSize_eq (by omega : str.length < 2 ^ 32)
  refine (readLen_reads queue _).bind ?_
  rw [if_neg (by omega), count]
  exact read_reads queue str

/-- The buffer of the longest string has no bytes. -/
theorem readObject_fails (queue : IsQueue strm holds) {str : Bytes}
    (longest : str.length = 2 ^ 32 - 1) : Fails holds (readObject strm) (encodeObject str) := by
  obtain ⟨count, size⟩ := bufferSize_eq (by omega : str.length < 2 ^ 32)
  refine (readLen_reads queue _).bind_fails ?_
  rw [if_pos (by omega)]
  intro state rest held
  exact ⟨_, rfl⟩

theorem verifySignature_reads (queue : IsQueue strm holds) (validSig : UInt8) :
    Reads holds (verifySignature strm validSig) [validSig] () := by
  show Reads holds _ ([validSig] ++ []) ()
  refine (readByte_reads queue validSig).bind ?_
  rw [if_neg (not_not.mpr rfl)]
  exact .nothing ()

/-- The bytes of the elements of an array. -/
def encodeElements (a : List Bytes) : Bytes := (a.map encodeObject).flatten

theorem writeElements_writes (queue : IsQueue strm holds) {a : List Bytes}
    (fits : ∀ str ∈ a, str.length < 2 ^ 32) :
    Writes holds (writeElements strm a) (encodeElements a) := by
  induction a with
  | nil => exact .nothing
  | cons str rest ih =>
      obtain ⟨first, later⟩ := List.forall_mem_cons.mp fits
      exact (writeObject_writes queue first).bind (ih later)

/-- The count is written as the length of the array, and all elements follow. -/
theorem count_eq {a : List Bytes} (fits : a.length < 2 ^ 32) :
    (UInt32.ofNat a.length).toNat = a.length := by
  rw [UInt32.toNat_ofNat']
  omega

/-- The bytes that `writeStringArray` puts. -/
def encodeStringArray (stra : List Bytes) : Bytes :=
  [BINSIG_STRARRAY] ++ (encodeLen (UInt32.ofNat stra.length) ++ encodeElements stra)

theorem writeStringArray_writes (queue : IsQueue strm holds) {stra : List Bytes}
    (count : stra.length < 2 ^ 32) (fits : ∀ str ∈ stra, str.length < 2 ^ 32) :
    Writes holds (writeStringArray strm stra) (encodeStringArray stra) := by
  refine (write_writes queue _).bind ((writeLen_writes queue _).bind ?_)
  rw [count_eq count, List.take_length]
  exact writeElements_writes queue fits

/-- One element is read, and then the loop goes on. -/
theorem readElements_reads (queue : IsQueue strm holds) {a : List Bytes}
    (fits : ∀ str ∈ a, str.length < 2 ^ 32 - 1) :
    Reads holds (readElements strm a.length) (encodeElements a) a := by
  induction a with
  | nil => exact .nothing []
  | cons str rest ih =>
      obtain ⟨first, later⟩ := List.forall_mem_cons.mp fits
      exact (readObject_reads queue first).bind ((ih later).map (str :: ·))

/-- The loop stops at the first of the longest strings. -/
theorem readElements_fails (queue : IsQueue strm holds) {a : List Bytes}
    (fits : ∀ str ∈ a, str.length < 2 ^ 32) (longest : ∃ str ∈ a, str.length = 2 ^ 32 - 1) :
    Fails holds (readElements strm a.length) (encodeElements a) := by
  induction a with
  | nil =>
      obtain ⟨_, member, -⟩ := longest
      cases member
  | cons str rest ih =>
      obtain ⟨first, later⟩ := List.forall_mem_cons.mp fits
      by_cases here : str.length = 2 ^ 32 - 1
      · exact (readObject_fails queue here).bind
      · have found : ∃ str ∈ rest, str.length = 2 ^ 32 - 1 := by
          obtain ⟨other, member, isLongest⟩ := longest
          rcases List.mem_cons.mp member with rfl | inRest
          · exact absurd isLongest here
          · exact ⟨other, inRest, isLongest⟩
        exact (readObject_reads queue (by omega)).bind_fails ((ih later found).map (str :: ·))

theorem readStringArray_reads (queue : IsQueue strm holds) {stra : List Bytes}
    (count : stra.length < 2 ^ 32) (fits : ∀ str ∈ stra, str.length < 2 ^ 32 - 1) :
    Reads holds (readStringArray strm) (encodeStringArray stra) stra := by
  refine (verifySignature_reads queue _).bind ((readLen_reads queue _).bind ?_)
  rw [count_eq count]
  exact readElements_reads queue fits

theorem readStringArray_fails (queue : IsQueue strm holds) {stra : List Bytes}
    (count : stra.length < 2 ^ 32) (fits : ∀ str ∈ stra, str.length < 2 ^ 32)
    (longest : ∃ str ∈ stra, str.length = 2 ^ 32 - 1) :
    Fails holds (readStringArray strm) (encodeStringArray stra) := by
  refine (verifySignature_reads queue _).bind_fails ((readLen_reads queue _).bind_fails ?_)
  rw [count_eq count]
  exact readElements_fails queue fits longest

end Streams

section Sequences

/-- A value that one write puts on the stream. -/
inductive Item where
  | len (len : UInt32)
  | object (str : Bytes)
  | stringArray (stra : List Bytes)
  deriving DecidableEq

/-- A reader is chosen by the kind of the value, before the value is known. -/
inductive Kind where
  | len
  | object
  | stringArray

def Item.kind : Item → Kind
  | .len _ => .len
  | .object _ => .object
  | .stringArray _ => .stringArray

variable {State : Type} (strm : ByteStream Failure State)

def writeItem : Item → Action State Unit
  | .len len => writeLen strm len
  | .object str => writeObject strm str
  | .stringArray stra => writeStringArray strm stra

def readItem : Kind → Action State Item
  | .len => do return .len (← readLen strm)
  | .object => do return .object (← readObject strm)
  | .stringArray => do return .stringArray (← readStringArray strm)

def writeItems : List Item → Action State Unit
  | [] => return
  | item :: rest => do
      writeItem strm item
      writeItems rest

def readItems : List Kind → Action State (List Item)
  | [] => return []
  | kind :: rest => do
      let item ← readItem strm kind
      return item :: (← readItems rest)

/-- The strings of the value. -/
def Item.strings : Item → List Bytes
  | .len _ => []
  | .object str => [str]
  | .stringArray stra => stra

/-- The lengths are those of a `UInt32`. -/
structure Item.Fits (item : Item) : Prop where
  count : item.strings.length < 2 ^ 32
  lengths : ∀ str ∈ item.strings, str.length < 2 ^ 32

/-- No string has the greatest length of a `UInt32`. -/
def Item.Short (item : Item) : Prop := ∀ str ∈ item.strings, str.length ≠ 2 ^ 32 - 1

def Item.encode : Item → Bytes
  | .len value => encodeLen value
  | .object str => encodeObject str
  | .stringArray stra => encodeStringArray stra

variable {strm} {holds : State → Bytes → Prop}

theorem writeItem_writes (queue : IsQueue strm holds) {item : Item} (fits : item.Fits) :
    Writes holds (writeItem strm item) item.encode := by
  obtain ⟨count, lengths⟩ := fits
  cases item with
  | len len => exact writeLen_writes queue len
  | object str => exact writeObject_writes queue (lengths str List.mem_cons_self)
  | stringArray stra => exact writeStringArray_writes queue count lengths

theorem readItem_reads (queue : IsQueue strm holds) {item : Item} (fits : item.Fits)
    (short : item.Short) : Reads holds (readItem strm item.kind) item.encode item := by
  obtain ⟨count, lengths⟩ := fits
  have shorter : ∀ str ∈ item.strings, str.length < 2 ^ 32 - 1 := by
    intro str member
    have bound := lengths str member
    have notLongest := short str member
    omega
  cases item with
  | len len => exact (readLen_reads queue len).map Item.len
  | object str => exact (readObject_reads queue (shorter str List.mem_cons_self)).map Item.object
  | stringArray stra => exact (readStringArray_reads queue count shorter).map Item.stringArray

theorem readItem_fails (queue : IsQueue strm holds) {item : Item} (fits : item.Fits)
    (longest : ∃ str ∈ item.strings, str.length = 2 ^ 32 - 1) :
    Fails holds (readItem strm item.kind) item.encode := by
  obtain ⟨count, lengths⟩ := fits
  cases item with
  | len len =>
      obtain ⟨_, member, -⟩ := longest
      cases member
  | object str =>
      obtain ⟨_, member, isLongest⟩ := longest
      obtain rfl := List.mem_singleton.mp member
      exact (readObject_fails queue isLongest).map Item.object
  | stringArray stra =>
      exact (readStringArray_fails queue count lengths longest).map Item.stringArray

theorem writeItems_writes (queue : IsQueue strm holds) {items : List Item}
    (fits : ∀ item ∈ items, item.Fits) :
    Writes holds (writeItems strm items) (items.map Item.encode).flatten := by
  induction items with
  | nil => exact .nothing
  | cons item rest ih =>
      obtain ⟨first, later⟩ := List.forall_mem_cons.mp fits
      exact (writeItem_writes queue first).bind (ih later)

theorem readItems_reads (queue : IsQueue strm holds) {items : List Item}
    (fits : ∀ item ∈ items, item.Fits) (short : ∀ item ∈ items, item.Short) :
    Reads holds (readItems strm (items.map Item.kind)) (items.map Item.encode).flatten items := by
  induction items with
  | nil => exact .nothing []
  | cons item rest ih =>
      obtain ⟨first, later⟩ := List.forall_mem_cons.mp fits
      obtain ⟨firstShort, laterShort⟩ := List.forall_mem_cons.mp short
      exact (readItem_reads queue first firstShort).bind ((ih later laterShort).map (item :: ·))

/-- The readers stop at the first value with one of the longest strings. -/
theorem readItems_fails (queue : IsQueue strm holds) {items : List Item}
    (fits : ∀ item ∈ items, item.Fits) (long : ¬ ∀ item ∈ items, item.Short) :
    Fails holds (readItems strm (items.map Item.kind)) (items.map Item.encode).flatten := by
  induction items with
  | nil => exact absurd (by simp) long
  | cons item rest ih =>
      obtain ⟨first, later⟩ := List.forall_mem_cons.mp fits
      by_cases firstShort : item.Short
      · have longLater : ¬ ∀ other ∈ rest, other.Short :=
          fun laterShort => long (List.forall_mem_cons.mpr ⟨firstShort, laterShort⟩)
        exact (readItem_reads queue first firstShort).bind_fails
          ((ih later longLater).map (item :: ·))
      · unfold Item.Short at firstShort
        push Not at firstShort
        exact (readItem_fails queue first firstShort).bind

/-- The writes go to an empty stream, other bytes follow them, and the same sequence of reads gives
the values back and leaves the other bytes. -/
def RoundTrips (items : List Item) (rest : Bytes) : Prop :=
  ∃ written, (writeItems queue items).run [] = .ok ((), written) ∧
    (readItems queue (items.map Item.kind)).run (written ++ rest) = .ok (items, rest)

theorem RoundTrips.of_short {items : List Item} {rest : Bytes} (fits : ∀ item ∈ items, item.Fits)
    (short : ∀ item ∈ items, item.Short) : RoundTrips items rest := by
  obtain ⟨written, ran, isWritten⟩ := writeItems_writes queue_isQueue fits [] [] rfl
  rw [List.nil_append] at isWritten
  subst isWritten
  obtain ⟨left, read, isLeft⟩ := readItems_reads queue_isQueue fits short _ rest rfl
  subst isLeft
  exact ⟨_, ran, read⟩

/-- The readers fail on what the writers put. -/
theorem RoundTrips.not_of_long {items : List Item} {rest : Bytes}
    (fits : ∀ item ∈ items, item.Fits) (long : ¬ ∀ item ∈ items, item.Short) :
    ¬ RoundTrips items rest := by
  rintro ⟨other, ranOther, read⟩
  obtain ⟨written, ran, isWritten⟩ := writeItems_writes queue_isQueue fits [] [] rfl
  rw [List.nil_append] at isWritten
  subst isWritten
  have same := ran.symm.trans ranOther
  rw [Except.ok.injEq, Prod.mk.injEq] at same
  obtain ⟨failure, threw⟩ := readItems_fails queue_isQueue fits long _ rest rfl
  rw [same.2, read] at threw
  cases threw

/-- A sequence of values comes back exactly when no string has the greatest length of a
`UInt32`. -/
theorem itemsRoundTrip_iff (items : List Item) (fits : ∀ item ∈ items, item.Fits) (rest : Bytes) :
    RoundTrips items rest ↔ ∀ item ∈ items, item.Short := by
  constructor
  · intro trips
    by_contra long
    exact RoundTrips.not_of_long fits long trips
  · exact RoundTrips.of_short fits

/-- Both codings of a length, a string, and an array with an empty string. -/
def someItems : List Item :=
  [.len 127, .len 128, .object [72, 105], .stringArray [[97], []]]

theorem itemsRoundTrip_iff_someItems :
    RoundTrips someItems [7] ↔ ∀ item ∈ someItems, item.Short :=
  itemsRoundTrip_iff someItems (by
    simp only [someItems, List.forall_mem_cons]
    exact ⟨⟨by decide, by decide⟩, ⟨by decide, by decide⟩, ⟨by decide, by decide⟩,
      ⟨by decide, by decide⟩, by simp⟩) [7]

/-- A string of four gigabytes less one byte is below the bound, and it does not come back. -/
theorem longest_not_roundTrips :
    (Item.object (List.replicate (2 ^ 32 - 1) 97)).Fits ∧
      ¬ RoundTrips [.object (List.replicate (2 ^ 32 - 1) 97)] [] := by
  obtain ⟨str, isStr⟩ : ∃ str, List.replicate (2 ^ 32 - 1) (97 : UInt8) = str := ⟨_, rfl⟩
  have length : str.length = 2 ^ 32 - 1 := by rw [← isStr, List.length_replicate]
  rw [isStr]
  have fits : (Item.object str).Fits := by
    refine ⟨by simp [Item.strings], ?_⟩
    intro other member
    obtain rfl := List.mem_singleton.mp member
    rw [length]
    decide
  refine ⟨fits, RoundTrips.not_of_long (List.forall_mem_singleton.mpr fits) ?_⟩
  intro short
  exact short _ List.mem_cons_self _ List.mem_cons_self length

end Sequences

end Blocxx.BinarySerialization
