import Blocxx.Library.Operation
import Blocxx.String.String
import Blocxx.UUID.UUID

/-!
This file embeds the text form of `UUID` and proves which strings are texts of a UUID.
-/

namespace Blocxx.UUIDText

open Strings UUIDGenerator

/-- The character at an index of the array that `c_str` gives. A cell that no write has reached
holds any character. -/
def c_strAt (unwritten : Nat → UInt8) (str : CowString) (index : Nat) : UInt8 :=
  ((memory str)[index]?.join).getD (unwritten index)

/-- The functions on characters are those of the C locale. -/
def isdigit (c : UInt8) : Bool := 0x30 ≤ c && c ≤ 0x39

def isxdigit (c : UInt8) : Bool := isdigit c || 0x41 ≤ c && c ≤ 0x46 || 0x61 ≤ c && c ≤ 0x66

def toupper (c : UInt8) : UInt8 := if 0x61 ≤ c ∧ c ≤ 0x7A then c - 0x20 else c

def tolower (c : UInt8) : UInt8 := if 0x41 ≤ c ∧ c ≤ 0x5A then c + 0x20 else c

def decodeHex (c : UInt8) : UInt8 := if isdigit c then c - 0x30 else toupper c - 0x41 + 0xA

/-- The message is the format with the string in it. -/
structure UUIDException where
  format : String
  uuidStr : CowString

def invalid (uuidStr : CowString) : UUIDException := ⟨"Invalid UUID: %1", uuidStr⟩

def fromHexStr (c1 c2 : UInt8) (uuidStr : CowString) : Except UUIDException UInt8 :=
  if !isxdigit c1 || !isxdigit c2 then .error (invalid uuidStr)
  else .ok ((decodeHex c1 <<< 4) ||| decodeHex c2)

def toHexHi (c : UInt8) : UInt8 :=
  let t := c >>> 4
  if 10 ≤ t then t - 10 + 0x61 else t + 0x30

def toHexLow (c : UInt8) : UInt8 :=
  let t := c &&& 0xF
  if 10 ≤ t then t - 10 + 0x61 else t + 0x30

def hyphen : UInt8 := 0x2D

/-- The constructor from a string. -/
def construct (unwritten : Nat → UInt8) (uuidStr : CowString) : Except UUIDException UUID := do
  let s := c_strAt unwritten uuidStr
  if length uuidStr ≠ 36 ∨ s 8 ≠ hyphen ∨ s 13 ≠ hyphen ∨ s 18 ≠ hyphen ∨ s 23 ≠ hyphen then
    throw (invalid uuidStr)
  let m_uuid0 ← fromHexStr (s 0) (s 1) uuidStr
  let m_uuid1 ← fromHexStr (s 2) (s 3) uuidStr
  let m_uuid2 ← fromHexStr (s 4) (s 5) uuidStr
  let m_uuid3 ← fromHexStr (s 6) (s 7) uuidStr
  let m_uuid4 ← fromHexStr (s 9) (s 10) uuidStr
  let m_uuid5 ← fromHexStr (s 11) (s 12) uuidStr
  let m_uuid6 ← fromHexStr (s 14) (s 15) uuidStr
  let m_uuid7 ← fromHexStr (s 16) (s 17) uuidStr
  let m_uuid8 ← fromHexStr (s 19) (s 20) uuidStr
  let m_uuid9 ← fromHexStr (s 21) (s 22) uuidStr
  let m_uuid10 ← fromHexStr (s 24) (s 25) uuidStr
  let m_uuid11 ← fromHexStr (s 26) (s 27) uuidStr
  let m_uuid12 ← fromHexStr (s 28) (s 29) uuidStr
  let m_uuid13 ← fromHexStr (s 30) (s 31) uuidStr
  let m_uuid14 ← fromHexStr (s 32) (s 33) uuidStr
  let m_uuid15 ← fromHexStr (s 34) (s 35) uuidStr
  return ⟨[m_uuid0, m_uuid1, m_uuid2, m_uuid3, m_uuid4, m_uuid5, m_uuid6, m_uuid7, m_uuid8,
    m_uuid9, m_uuid10, m_uuid11, m_uuid12, m_uuid13, m_uuid14, m_uuid15], rfl⟩

/-- The characters that `toString` puts into its buffer in front of the zero. -/
def buf (m_uuid : Fin 16 → UInt8) : List UInt8 :=
  [toHexHi (m_uuid 0), toHexLow (m_uuid 0),
    toHexHi (m_uuid 1), toHexLow (m_uuid 1),
    toHexHi (m_uuid 2), toHexLow (m_uuid 2),
    toHexHi (m_uuid 3), toHexLow (m_uuid 3),
    hyphen,
    toHexHi (m_uuid 4), toHexLow (m_uuid 4),
    toHexHi (m_uuid 5), toHexLow (m_uuid 5),
    hyphen,
    toHexHi (m_uuid 6), toHexLow (m_uuid 6),
    toHexHi (m_uuid 7), toHexLow (m_uuid 7),
    hyphen,
    toHexHi (m_uuid 8), toHexLow (m_uuid 8),
    toHexHi (m_uuid 9), toHexLow (m_uuid 9),
    hyphen,
    toHexHi (m_uuid 10), toHexLow (m_uuid 10),
    toHexHi (m_uuid 11), toHexLow (m_uuid 11),
    toHexHi (m_uuid 12), toHexLow (m_uuid 12),
    toHexHi (m_uuid 13), toHexLow (m_uuid 13),
    toHexHi (m_uuid 14), toHexLow (m_uuid 14),
    toHexHi (m_uuid 15), toHexLow (m_uuid 15)]

def byteAt (uuid : UUID) (index : Fin 16) : UInt8 := uuid.m_uuid.get (index.cast uuid.size.symm)

def toString (uuid : UUID) : CowString := ofBytes (some (buf (byteAt uuid)))

/-- The operator `==`. -/
def equal (x y : UUID) : Bool := x.m_uuid == y.m_uuid

/-- The string has 36 characters, of which those at the four places are hyphens and the other ones
hexadecimal digits. -/
def WellFormed (unwritten : Nat → UInt8) (uuidStr : CowString) : Prop :=
  length uuidStr = 36 ∧ ∀ index < 36,
    if index ∈ [8, 13, 18, 23] then c_strAt unwritten uuidStr index = hyphen
    else isxdigit (c_strAt unwritten uuidStr index) = true

/-- The places of the two digits of each byte. -/
def digits : List (Nat × Nat) :=
  [(0, 1), (2, 3), (4, 5), (6, 7), (9, 10), (11, 12), (14, 15), (16, 17), (19, 20), (21, 22),
    (24, 25), (26, 27), (28, 29), (30, 31), (32, 33), (34, 35)]

/-- The byte with these digits. -/
def octet (s : Nat → UInt8) (place : Nat × Nat) : UInt8 :=
  (decodeHex (s place.1) <<< 4) ||| decodeHex (s place.2)

theorem fromHexStr_eq_ok {c1 c2 byte : UInt8} {uuidStr : CowString} :
    fromHexStr c1 c2 uuidStr = .ok byte ↔
      isxdigit c1 = true ∧ isxdigit c2 = true ∧ (decodeHex c1 <<< 4) ||| decodeHex c2 = byte := by
  rw [fromHexStr]
  cases isxdigit c1 <;> cases isxdigit c2 <;> simp

/-- The constructor accepts a string with hyphens and digits at their places. -/
theorem construct_eq_ok {unwritten : Nat → UInt8} {uuidStr : CowString} {uuid : UUID} :
    construct unwritten uuidStr = .ok uuid ↔
      length uuidStr = 36 ∧
      (∀ index ∈ [8, 13, 18, 23], c_strAt unwritten uuidStr index = hyphen) ∧
      (∀ place ∈ digits, isxdigit (c_strAt unwritten uuidStr place.1) = true ∧
        isxdigit (c_strAt unwritten uuidStr place.2) = true) ∧
      digits.map (octet (c_strAt unwritten uuidStr)) = uuid.m_uuid := by
  obtain ⟨m_uuid, size⟩ := uuid
  simp only [construct, digits, List.forall_mem_cons, List.not_mem_nil, false_implies, implies_true,
    and_true, List.map_cons, List.map_nil, octet]
  generalize c_strAt unwritten uuidStr = s
  split
  · next refused =>
      constructor
      · intro accepted
        cases accepted
      · rintro ⟨long, ⟨first, second, third, fourth⟩, -⟩
        simp [long, first, second, third, fourth] at refused
  · next hyphens =>
      simp only [not_or, not_not] at hyphens
      simp only [hyphens, Library.bind_eq_ok, fromHexStr_eq_ok, and_assoc, exists_and_left,
        exists_eq_left', pure, Except.pure, Except.ok.injEq, UUID.mk.injEq, true_and]

theorem digit_place :
    ∀ index < 36, index ∉ [8, 13, 18, 23] →
      ∃ place ∈ digits, index = place.1 ∨ index = place.2 := by
  decide

theorem digit_inside : ∀ place ∈ digits, (place.1 < 36 ∧ place.1 ∉ [8, 13, 18, 23]) ∧
    (place.2 < 36 ∧ place.2 ∉ [8, 13, 18, 23]) := by
  decide

variable {unwritten : Nat → UInt8} {uuidStr : CowString} {uuid : UUID}

/-- The digits of the format are those that the constructor reads. -/
theorem wellFormed_iff : WellFormed unwritten uuidStr ↔
    length uuidStr = 36 ∧
      (∀ index ∈ [8, 13, 18, 23], c_strAt unwritten uuidStr index = hyphen) ∧
      (∀ place ∈ digits, isxdigit (c_strAt unwritten uuidStr place.1) = true ∧
        isxdigit (c_strAt unwritten uuidStr place.2) = true) := by
  apply and_congr_right
  intro _
  constructor
  · intro format
    constructor
    · intro index member
      have places : ∀ index ∈ [8, 13, 18, 23], index < 36 := by decide
      have inside := places index member
      simpa only [member, if_true] using format index inside
    · intro place member
      obtain ⟨⟨first, notFirst⟩, second, notSecond⟩ := digit_inside place member
      have high := format place.1 first
      have low := format place.2 second
      rw [if_neg notFirst] at high
      rw [if_neg notSecond] at low
      exact ⟨high, low⟩
  · rintro ⟨hyphens, read⟩ index inside
    split
    · next member => exact hyphens index member
    · next digit =>
        obtain ⟨place, member, rfl | rfl⟩ := digit_place index inside digit
        · exact (read place member).1
        · exact (read place member).2

theorem forall_byte {P : UInt8 → Prop} (all : ∀ n < 256, P (UInt8.ofNat n)) (c : UInt8) : P c := by
  rw [← UInt8.ofNat_toNat (x := c)]
  exact all c.toNat c.toNat_lt

/-- The digit that is written for a value. -/
def written (t : UInt8) : UInt8 := if 10 ≤ t then t - 10 + 0x61 else t + 0x30

/-- The digit of a value is the one that was read, in lower case. -/
theorem written_decodeHex (c : UInt8) :
    isxdigit c = true → decodeHex c < 16 ∧ written (decodeHex c) = tolower c := by
  revert c
  apply forall_byte
  decide +kernel

theorem halves {high low : UInt8} (highFits : high < 16) (lowFits : low < 16) :
    ((high <<< 4) ||| low) >>> 4 = high ∧ ((high <<< 4) ||| low) &&& 0xF = low := by
  have all : ∀ i < 16, ∀ j < 16,
      ((UInt8.ofNat i <<< 4) ||| UInt8.ofNat j) >>> 4 = UInt8.ofNat i ∧
        ((UInt8.ofNat i <<< 4) ||| UInt8.ofNat j) &&& 0xF = UInt8.ofNat j := by
    decide +kernel
  have both := all high.toNat (UInt8.lt_iff_toNat_lt.mp highFits) low.toNat
    (UInt8.lt_iff_toNat_lt.mp lowFits)
  rwa [UInt8.ofNat_toNat, UInt8.ofNat_toNat] at both

/-- The digits of a byte that was read are the ones that were read, in lower case. -/
theorem toHex_octet {s : Nat → UInt8} {place : Nat × Nat}
    (read : isxdigit (s place.1) = true ∧ isxdigit (s place.2) = true) :
    toHexHi (octet s place) = tolower (s place.1) ∧
      toHexLow (octet s place) = tolower (s place.2) := by
  obtain ⟨highFits, high⟩ := written_decodeHex _ read.1
  obtain ⟨lowFits, low⟩ := written_decodeHex _ read.2
  obtain ⟨first, second⟩ := halves highFits lowFits
  constructor
  · rw [← high, ← first]
    rfl
  · rw [← low, ← second]
    rfl

/-- The digits of a byte read as this byte. -/
theorem fromHexStr_toHex (c : UInt8) :
    isxdigit (toHexHi c) = true ∧ isxdigit (toHexLow c) = true ∧
      (decodeHex (toHexHi c) <<< 4) ||| decodeHex (toHexLow c) = c := by
  revert c
  apply forall_byte
  decide +kernel

/-- The buffer has the digits of each byte where the constructor reads them. -/
theorem buf_digits (m_uuid : Fin 16 → UInt8) {n : Nat} (inside : n < digits.length)
    (within : n < 16) :
    (buf m_uuid)[digits[n].1]? = some (toHexHi (m_uuid ⟨n, within⟩)) ∧
      (buf m_uuid)[digits[n].2]? = some (toHexLow (m_uuid ⟨n, within⟩)) := by
  interval_cases n <;> exact ⟨rfl, rfl⟩

theorem buf_hyphens (m_uuid : Fin 16 → UInt8) :
    ∀ index ∈ [8, 13, 18, 23], (buf m_uuid)[index]? = some hyphen := by
  simp [buf]

theorem c_strAt_ofBytes {bytes : List UInt8} {index : Nat} {c : UInt8}
    (inside : bytes[index]? = some c) : c_strAt unwritten (ofBytes (some bytes)) index = c := by
  obtain ⟨below, rfl⟩ := List.getElem?_eq_some_iff.mp inside
  have cell : (memory (ofBytes (some bytes)))[index]? = some (some bytes[index]) := by
    show (bytes.map some ++ [some 0])[index]? = _
    rw [List.getElem?_append_left (by simpa using below), List.getElem?_map, inside]
    rfl
  rw [c_strAt, cell]
  rfl

/-- A byte that was read has its digits written at the places they were read from. -/
theorem buf_construct (constructed : construct unwritten uuidStr = .ok uuid) :
    buf (byteAt uuid) =
      (List.range 36).map fun index => tolower (c_strAt unwritten uuidStr index) := by
  obtain ⟨-, hyphens, read, bytes⟩ := construct_eq_ok.mp constructed
  have byte (n : Nat) (inside : n < digits.length) :
      byteAt uuid ⟨n, inside⟩ = octet (c_strAt unwritten uuidStr) digits[n] := by
    simp only [byteAt, ← bytes, List.get_eq_getElem, List.getElem_map]
    rfl
  apply List.ext_getElem?
  intro index
  by_cases inside : index < 36
  · rw [List.getElem?_map, List.getElem?_range inside, Option.map_some]
    by_cases member : index ∈ [8, 13, 18, 23]
    · rw [buf_hyphens _ index member, hyphens index member]
      rfl
    · obtain ⟨place, isDigit, same⟩ := digit_place index inside member
      obtain ⟨n, within, rfl⟩ := List.mem_iff_getElem.mp isDigit
      obtain ⟨high, low⟩ := toHex_octet (read _ isDigit)
      obtain ⟨highPlace, lowPlace⟩ := buf_digits (byteAt uuid) within within
      rw [byte n within] at highPlace lowPlace
      cases same with
      | inl same => rw [same, highPlace, high]
      | inr same => rw [same, lowPlace, low]
  · rw [List.getElem?_eq_none (show (buf _).length ≤ index from not_lt.mp inside),
      List.getElem?_eq_none (by simpa using inside)]

theorem octet_toString (uuid : UUID) {n : Nat} (inside : n < digits.length) (within : n < 16) :
    octet (c_strAt unwritten (toString uuid)) digits[n] = byteAt uuid ⟨n, within⟩ := by
  obtain ⟨high, low⟩ := buf_digits (byteAt uuid) inside within
  obtain ⟨-, -, byte⟩ := fromHexStr_toHex (byteAt uuid ⟨n, within⟩)
  rw [octet, toString, c_strAt_ofBytes high, c_strAt_ofBytes low, byte]

/-- The text of a UUID is read as this UUID. -/
theorem construct_toString (unwritten : Nat → UInt8) (uuid : UUID) :
    construct unwritten (toString uuid) = .ok uuid := by
  apply construct_eq_ok.mpr
  refine ⟨rfl, ?_, ?_, ?_⟩
  · intro index member
    exact c_strAt_ofBytes (buf_hyphens (byteAt uuid) index member)
  · intro place member
    obtain ⟨n, within, rfl⟩ := List.mem_iff_getElem.mp member
    obtain ⟨high, low⟩ := buf_digits (byteAt uuid) within within
    obtain ⟨highDigit, lowDigit, -⟩ := fromHexStr_toHex (byteAt uuid ⟨n, within⟩)
    rw [toString, c_strAt_ofBytes high, c_strAt_ofBytes low]
    exact ⟨highDigit, lowDigit⟩
  · apply List.ext_getElem
    · rw [uuid.size]
      rfl
    · intro n inside within
      rw [uuid.size] at within
      rw [List.getElem_map]
      exact octet_toString uuid within within

/-- A string is accepted exactly when it has the format of a UUID, and the UUID is printed as the
string in lower case. A UUID is equal to the one that its text gives. -/
theorem construct_iff_wellFormed :
    (∀ unwritten uuidStr,
      ((∃ uuid, construct unwritten uuidStr = .ok uuid) ↔ WellFormed unwritten uuidStr) ∧
      ∀ uuid, construct unwritten uuidStr = .ok uuid → toString uuid = ofBytes (some
        ((List.range 36).map fun index => tolower (c_strAt unwritten uuidStr index)))) ∧
    ∀ unwritten uuid, ∃ read, construct unwritten (toString uuid) = .ok read ∧
      equal read uuid = true := by
  constructor
  · intro unwritten uuidStr
    constructor
    · rw [wellFormed_iff]
      constructor
      · rintro ⟨uuid, constructed⟩
        obtain ⟨long, hyphens, read, -⟩ := construct_eq_ok.mp constructed
        exact ⟨long, hyphens, read⟩
      · rintro ⟨long, hyphens, read⟩
        exact ⟨⟨digits.map (octet (c_strAt unwritten uuidStr)), rfl⟩,
          construct_eq_ok.mpr ⟨long, hyphens, read, rfl⟩⟩
    · intro uuid constructed
      rw [toString, buf_construct constructed]
  · intro unwritten uuid
    exact ⟨uuid, construct_toString unwritten uuid, beq_self_eq_true uuid.m_uuid⟩

end Blocxx.UUIDText
