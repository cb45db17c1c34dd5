import Blocxx.Library.Strtol
import Blocxx.String.Whole

/-!
This file embeds the conversions of `String` to integers, and proves for which strings they accept
exactly the decimal numerals of the values of their type.
-/

namespace Blocxx.Strings

open Library Library.Memory Library.Strtol BinarySerialization

/-- The message is the format with the text and the type in it. -/
structure StringConversionException where
  format : String
  str : Bytes
  type : String
  deriving DecidableEq

def throwStringConversion (str : Bytes) (type : String) : Except StringConversionException Int :=
  .error ⟨"Unable to convert \"%1\" into %2", str, type⟩

/-- The memory at `data()` is read as a C string. A `fp` answers for the string and the base. -/
def doConvertToIntType (T FPRT : IntType) (m_buf : CowString) (type : String)
    (fp : Bytes → Nat → Conversion) (base : Nat) : Except StringConversionException Int :=
  match m_buf with
  | some buffer =>
      if buffer.object.m_len > 0 then
        let data := cString buffer.object.m_buf
        let v := fp data base
        let rv := T.cast v.value
        if v.endptr ≠ [] ∨ v.erange ∨ FPRT.cast rv ≠ v.value then throwStringConversion data type
        else .ok rv
      else throwStringConversion [] type
  | none => throwStringConversion [] type

section Conversions

-- The size of `long`.
variable (longBits : Nat)

def convertToUIntType (T : IntType) (m_buf : CowString) (msg : String) (base : Nat) :
    Except StringConversionException Int :=
  doConvertToIntType T ⟨false, longBits⟩ m_buf msg (strtoul longBits) base

def convertToIntType (T : IntType) (m_buf : CowString) (msg : String) (base : Nat) :
    Except StringConversionException Int :=
  doConvertToIntType T ⟨true, longBits⟩ m_buf msg (strtol longBits) base

/-- A `long long` has 64 bits. -/
def convertToUInt64Type (T : IntType) (m_buf : CowString) (msg : String) (base : Nat) :
    Except StringConversionException Int :=
  doConvertToIntType T ⟨false, 64⟩ m_buf msg (strtoul 64) base

def convertToInt64Type (T : IntType) (m_buf : CowString) (msg : String) (base : Nat) :
    Except StringConversionException Int :=
  doConvertToIntType T ⟨true, 64⟩ m_buf msg (strtol 64) base

def toUInt8 (m_buf : CowString) (base : Nat) : Except StringConversionException Int :=
  convertToUIntType longBits ⟨false, 8⟩ m_buf "UInt8" base

def toInt8 (m_buf : CowString) (base : Nat) : Except StringConversionException Int :=
  convertToIntType longBits ⟨true, 8⟩ m_buf "Int8" base

def toUInt16 (m_buf : CowString) (base : Nat) : Except StringConversionException Int :=
  convertToUIntType longBits ⟨false, 16⟩ m_buf "UInt16" base

def toInt16 (m_buf : CowString) (base : Nat) : Except StringConversionException Int :=
  convertToIntType longBits ⟨true, 16⟩ m_buf "Int16" base

def toUInt32 (m_buf : CowString) (base : Nat) : Except StringConversionException Int :=
  convertToUIntType longBits ⟨false, 32⟩ m_buf "UInt32" base

def toInt32 (m_buf : CowString) (base : Nat) : Except StringConversionException Int :=
  convertToIntType longBits ⟨true, 32⟩ m_buf "Int32" base

def toUInt64 (m_buf : CowString) (base : Nat) : Except StringConversionException Int :=
  convertToUInt64Type ⟨false, 64⟩ m_buf "UInt64" base

def toInt64 (m_buf : CowString) (base : Nat) : Except StringConversionException Int :=
  convertToInt64Type ⟨true, 64⟩ m_buf "Int64" base

/-- The conversions to the integer types of a fixed size. -/
inductive Target where
  | uint8
  | int8
  | uint16
  | int16
  | uint32
  | int32
  | uint64
  | int64
  deriving DecidableEq

def Target.convert : Target → CowString → Nat → Except StringConversionException Int
  | .uint8 => toUInt8 longBits
  | .int8 => toInt8 longBits
  | .uint16 => toUInt16 longBits
  | .int16 => toInt16 longBits
  | .uint32 => toUInt32 longBits
  | .int32 => toInt32 longBits
  | .uint64 => toUInt64
  | .int64 => toInt64

/-- The type that a conversion returns. -/
def Target.type : Target → IntType
  | .uint8 => ⟨false, 8⟩
  | .int8 => ⟨true, 8⟩
  | .uint16 => ⟨false, 16⟩
  | .int16 => ⟨true, 16⟩
  | .uint32 => ⟨false, 32⟩
  | .int32 => ⟨true, 32⟩
  | .uint64 => ⟨false, 64⟩
  | .int64 => ⟨true, 64⟩

/-- The type that the C function of a conversion returns has this size. -/
def Target.width (target : Target) : Nat :=
  if target.type.bits = 64 then 64 else longBits

/-- The conversion returns exactly the values of its type that the string is a numeral of, and
otherwise throws. -/
def ConvertsExactly (target : Target) (s : Whole) : Prop :=
  (∀ v, target.convert longBits s.str 10 = .ok v ↔
    Denotes s.bytes v ∧ target.type.Represents v) ∧
  ((¬ ∃ v, Denotes s.bytes v ∧ target.type.Represents v) →
    ∃ exception, target.convert longBits s.str 10 = .error exception)

/-- The negative number is a value of the unsigned type after it wraps around in the type of the C
function. -/
def Target.Wraps (target : Target) (number : Int) : Prop :=
  target.type.signed = false ∧ -2 ^ target.width longBits < number ∧ number < 0 ∧
    target.type.Represents (number + 2 ^ target.width longBits)

/-- The text in front of the first zero byte. -/
def beforeZero (s : Whole) : Bytes := s.bytes.takeWhile (· ≠ 0)

/-- No numeral wraps around, and a zero byte does not hide what stands behind it. -/
structure Examined (target : Target) (s : Whole) : Prop where
  unwrapped : ∀ number, Denotes (beforeZero s) number → ¬ target.Wraps longBits number
  visible : 0 ∈ s.bytes → beforeZero s ≠ [] ∧
    ∀ number, Denotes (beforeZero s) number → ¬ target.type.Represents number

end Conversions

theorem doConvertToIntType_ok (T FPRT : IntType) (s : Whole) (type : String)
    (fp : Bytes → Nat → Conversion) (base : Nat) (v : Int) :
    doConvertToIntType T FPRT s.str type fp base = .ok v ↔
      s.bytes ≠ [] ∧ ∃ value, (fp (beforeZero s) base).Whole value ∧
        FPRT.cast (T.cast value) = value ∧ v = T.cast value := by
  rcases s.cases with ⟨null, empty⟩ | ⟨uses, buffer⟩
  · rw [null, empty]
    exact iff_of_false nofun fun other => other.1 rfl
  · have data : cString (ByteBuf.ofBlock s.bytes).m_buf = beforeZero s := cString_ofBlock s.bytes
    rw [buffer]
    unfold doConvertToIntType
    dsimp only
    rw [data]
    show (if s.bytes.length > 0 then _ else _) = _ ↔ _
    split
    · next nonempty =>
        rw [and_iff_right (List.length_pos_iff.mp nonempty)]
        unfold Conversion.Whole throwStringConversion
        generalize fp (beforeZero s) base = read
        split
        · next rejected =>
            refine iff_of_false nofun ?_
            rintro ⟨value, ⟨rest, range, rfl⟩, same, -⟩
            rw [rest, range] at rejected
            simp [same] at rejected
        · next accepted =>
            simp only [not_or, not_not, Bool.not_eq_true] at accepted
            rw [Except.ok.injEq]
            constructor
            · rintro rfl
              exact ⟨_, ⟨accepted.1, accepted.2.1, rfl⟩, accepted.2.2, rfl⟩
            · rintro ⟨value, ⟨-, -, rfl⟩, -, rfl⟩
              rfl
    · next empty => exact iff_of_false nofun fun other => empty (List.length_pos_iff.mpr other.1)

theorem zero_represents (type : IntType) : type.Represents 0 := by
  have half : (0 : Int) < 2 ^ (type.bits - 1) := by positivity
  have size : (0 : Int) < 2 ^ type.bits := by positivity
  unfold IntType.Represents IntType.min IntType.max
  cases type.signed with
  | true =>
      simp only [if_true]
      omega
  | false =>
      simp only [Bool.false_eq_true, if_false]
      omega

/-- A value survives the cast to a narrower type and back exactly when the type has it. -/
theorem cast_cast_eq_iff (narrow wide : IntType) (same : narrow.signed = wide.signed)
    (positive : 0 < narrow.bits) (covers : narrow.bits ≤ wide.bits) (value : Int) :
    wide.cast (narrow.cast value) = value ↔ narrow.Represents value := by
  have inside := (narrow.represents_cast positive value).widen _ wide same covers
  rw [wide.cast_of_represents (by omega) inside, narrow.cast_eq_iff positive]

theorem convertSigned_ok {T : IntType} (signed : T.signed = true) (positive : 0 < T.bits)
    {width : Nat} (covers : T.bits ≤ width) (s : Whole) (type : String) (v : Int) :
    doConvertToIntType T ⟨true, width⟩ s.str type (strtol width) 10 = .ok v ↔
      s.bytes ≠ [] ∧ (beforeZero s = [] ∧ v = 0 ∨
        Denotes (beforeZero s) v ∧ T.Represents v) := by
  rw [doConvertToIntType_ok, and_congr_right_iff]
  intro nonempty
  simp only [strtol_whole, cast_cast_eq_iff T ⟨true, width⟩ signed positive covers]
  constructor
  · rintro ⟨value, read, represents, rfl⟩
    rw [T.cast_of_represents positive represents]
    exact read.imp_right fun denotes => ⟨denotes.1, represents⟩
  · intro read
    have represents : T.Represents v := by
      rcases read with ⟨-, rfl⟩ | ⟨-, represents⟩
      · exact zero_represents _
      · exact represents
    have wider : IntType.Represents ⟨true, width⟩ v := represents.widen T ⟨true, width⟩ signed covers
    exact ⟨v, read.imp_right fun denotes => ⟨denotes.1, wider⟩, represents,
      (T.cast_of_represents positive represents).symm⟩

/-- The numerals of an unsigned conversion stand for their residues in the type of `strtoul`. -/
theorem convertUnsigned_ok {T : IntType} (unsigned : T.signed = false) (positive : 0 < T.bits)
    {width : Nat} (covers : T.bits ≤ width) (s : Whole) (type : String) (v : Int) :
    doConvertToIntType T ⟨false, width⟩ s.str type (strtoul width) 10 = .ok v ↔
      s.bytes ≠ [] ∧ (beforeZero s = [] ∧ v = 0 ∨ ∃ number, Denotes (beforeZero s) number ∧
        number.natAbs < 2 ^ width ∧ v = number % 2 ^ width ∧
          T.Represents v) := by
  rw [doConvertToIntType_ok, and_congr_right_iff]
  intro nonempty
  simp only [strtoul_whole, cast_cast_eq_iff T ⟨false, width⟩ unsigned positive covers]
  constructor
  · rintro ⟨value, read, represents, rfl⟩
    rw [T.cast_of_represents positive represents]
    exact read.imp_right fun ⟨number, denotes, small, same⟩ =>
      ⟨number, denotes, small, same, represents⟩
  · intro read
    have represents : T.Represents v := by
      rcases read with ⟨-, rfl⟩ | ⟨-, -, -, -, represents⟩
      · exact zero_represents _
      · exact represents
    exact ⟨v, read.imp_right fun ⟨number, denotes, small, same, _⟩ =>
      ⟨number, denotes, small, same⟩, represents,
      (T.cast_of_represents positive represents).symm⟩

/-- The residue of a number that fits is the number, or the number wrapped around. -/
theorem residue_iff {T : IntType} (unsigned : T.signed = false) {width : Nat}
    (covers : T.bits ≤ width) (number v : Int) :
    number.natAbs < 2 ^ width ∧ v = number % 2 ^ width ∧ T.Represents v ↔
      v = number ∧ T.Represents number ∨
      (-2 ^ width < number ∧ number < 0 ∧
        T.Represents (number + 2 ^ width)) ∧ v = number + 2 ^ width := by
  have powers : (2 ^ T.bits : Int) ≤ 2 ^ width := pow_le_pow_right₀ (by norm_num) covers
  have small : number.natAbs < 2 ^ width ↔ -2 ^ width < number ∧ number < 2 ^ width := by
    zify
    exact abs_lt
  have range (value : Int) :
      T.Represents value ↔ 0 ≤ value ∧ value ≤ 2 ^ T.bits - 1 := by
    rw [IntType.Represents, IntType.min, IntType.max, unsigned]
    rfl
  rw [small, range, range, range]
  by_cases negative : number < 0
  · constructor
    · rintro ⟨⟨low, -⟩, rfl, represents⟩
      have residue : number % 2 ^ width = number + 2 ^ width := by
        rw [← Int.add_emod_right, Int.emod_eq_of_lt (by omega) (by omega)]
      rw [residue] at represents ⊢
      exact .inr ⟨⟨low, negative, represents⟩, rfl⟩
    · rintro (⟨rfl, represents⟩ | ⟨⟨low, -, represents⟩, rfl⟩)
      · omega
      · have residue : number % 2 ^ width = number + 2 ^ width := by
          rw [← Int.add_emod_right, Int.emod_eq_of_lt (by omega) (by omega)]
        exact ⟨⟨low, by omega⟩, residue.symm, represents⟩
  · constructor
    · rintro ⟨⟨-, high⟩, rfl, represents⟩
      rw [Int.emod_eq_of_lt (by omega) high] at represents ⊢
      exact .inl ⟨rfl, represents⟩
    · rintro (⟨rfl, represents⟩ | ⟨⟨-, below, -⟩, -⟩)
      · exact ⟨⟨by omega, by omega⟩, (Int.emod_eq_of_lt (by omega) (by omega)).symm, represents⟩
      · exact absurd below negative

/-- The values that a conversion accepts. -/
def Target.Accepts (longBits : Nat) (target : Target) (s : Whole) (v : Int) : Prop :=
  s.bytes ≠ [] ∧ (beforeZero s = [] ∧ v = 0 ∨ ∃ number, Denotes (beforeZero s) number ∧
    (v = number ∧ target.type.Represents number ∨
      target.Wraps longBits number ∧ v = number + 2 ^ target.width longBits))

theorem signed_accepts {target : Target} (signed : target.type.signed = true) (longBits : Nat)
    (s : Whole) (v : Int) :
    target.Accepts longBits s v ↔ s.bytes ≠ [] ∧
      (beforeZero s = [] ∧ v = 0 ∨ Denotes (beforeZero s) v ∧ target.type.Represents v) := by
  have unwrapped (number : Int) : ¬ target.Wraps longBits number := by
    intro wraps
    exact Bool.noConfusion (signed.symm.trans wraps.1)
  unfold Target.Accepts
  constructor
  · rintro ⟨nonempty, empty | ⟨number, denotes, ⟨rfl, represents⟩ | wraps⟩⟩
    · exact ⟨nonempty, .inl empty⟩
    · exact ⟨nonempty, .inr ⟨denotes, represents⟩⟩
    · exact absurd wraps.1 (unwrapped number)
  · rintro ⟨nonempty, empty | ⟨denotes, represents⟩⟩
    · exact ⟨nonempty, .inl empty⟩
    · exact ⟨nonempty, .inr ⟨v, denotes, .inl ⟨rfl, represents⟩⟩⟩

theorem unsigned_accepts {target : Target} (unsigned : target.type.signed = false)
    {longBits : Nat} (covers : target.type.bits ≤ target.width longBits) (s : Whole) (v : Int) :
    target.Accepts longBits s v ↔ s.bytes ≠ [] ∧ (beforeZero s = [] ∧ v = 0 ∨
      ∃ number, Denotes (beforeZero s) number ∧ number.natAbs < 2 ^ target.width longBits ∧
        v = number % 2 ^ target.width longBits ∧ target.type.Represents v) := by
  unfold Target.Accepts Target.Wraps
  simp only [residue_iff unsigned covers, unsigned, true_and]

/-- `long` has at least 32 bits, so the C function of each conversion covers its type. -/
theorem Target.covers {longBits : Nat} (wide : 32 ≤ longBits) (target : Target) :
    target.type.bits ≤ target.width longBits := by
  cases target <;> simp [Target.type, Target.width] <;> omega

theorem Target.positive (target : Target) : 0 < target.type.bits := by
  cases target <;> decide

/-- A conversion calls `strtol` or `strtoul` for its type. -/
theorem convert_cases (longBits : Nat) (target : Target) :
    (target.type.signed = true ∧ ∃ type, ∀ m_buf base, target.convert longBits m_buf base =
      doConvertToIntType target.type ⟨true, target.width longBits⟩ m_buf type
        (strtol (target.width longBits)) base) ∨
    (target.type.signed = false ∧ ∃ type, ∀ m_buf base, target.convert longBits m_buf base =
      doConvertToIntType target.type ⟨false, target.width longBits⟩ m_buf type
        (strtoul (target.width longBits)) base) := by
  cases target with
  | uint8 | uint16 | uint32 | uint64 => exact .inr ⟨rfl, _, fun _ _ => rfl⟩
  | int8 | int16 | int32 | int64 => exact .inl ⟨rfl, _, fun _ _ => rfl⟩

theorem convert_ok_iff {longBits : Nat} (wide : 32 ≤ longBits) (target : Target) (s : Whole)
    (v : Int) : target.convert longBits s.str 10 = .ok v ↔ target.Accepts longBits s v := by
  have covers := target.covers wide
  rcases convert_cases longBits target with ⟨signed, type, same⟩ | ⟨unsigned, type, same⟩
  · rw [same, convertSigned_ok signed target.positive covers, signed_accepts signed]
  · rw [same, convertUnsigned_ok unsigned target.positive covers, unsigned_accepts unsigned covers]

theorem beforeZero_eq {s : Whole} (nonzero : (0 : UInt8) ∉ s.bytes) : beforeZero s = s.bytes :=
  takeWhile_nonzero nonzero

/-- What a conversion accepts beyond the numerals of its values. -/
theorem Examined.accepts_iff {longBits : Nat} {target : Target} {s : Whole}
    (examined : Examined longBits target s) (v : Int) :
    target.Accepts longBits s v ↔ Denotes s.bytes v ∧ target.type.Represents v := by
  by_cases zero : (0 : UInt8) ∈ s.bytes
  · obtain ⟨nonempty, hidden⟩ := examined.visible zero
    refine iff_of_false ?_ fun other => other.1.zero_notMem zero
    rintro ⟨-, ⟨empty, -⟩ | ⟨number, denotes, ⟨-, represents⟩ | ⟨wraps, -⟩⟩⟩
    · exact nonempty empty
    · exact hidden number denotes represents
    · exact examined.unwrapped number denotes wraps
  · have whole := beforeZero_eq zero
    have unwrapped := examined.unwrapped
    unfold Target.Accepts
    rw [whole] at unwrapped ⊢
    constructor
    · rintro ⟨nonempty, ⟨empty, -⟩ | ⟨number, denotes, ⟨rfl, represents⟩ | ⟨wraps, -⟩⟩⟩
      · exact absurd empty nonempty
      · exact ⟨denotes, represents⟩
      · exact absurd wraps (unwrapped number denotes)
    · rintro ⟨denotes, represents⟩
      exact ⟨denotes.nonempty, .inr ⟨v, denotes, .inl ⟨rfl, represents⟩⟩⟩

theorem examined_of_accepts {longBits : Nat} {target : Target} {s : Whole}
    (accepts : ∀ v, target.Accepts longBits s v ↔ Denotes s.bytes v ∧ target.type.Represents v) :
    Examined longBits target s where
  unwrapped number denotes wraps := by
    have nonempty : s.bytes ≠ [] := fun empty =>
      denotes.nonempty (by rw [beforeZero, empty, List.takeWhile_nil])
    obtain ⟨whole, -⟩ := (accepts _).mp ⟨nonempty, .inr ⟨number, denotes, .inr ⟨wraps, rfl⟩⟩⟩
    rw [beforeZero_eq whole.zero_notMem] at denotes
    have size : (0 : Int) < 2 ^ target.width longBits := by positivity
    have same := denotes.unique whole
    omega
  visible zero := by
    have nonempty : s.bytes ≠ [] := fun empty => List.not_mem_nil (empty ▸ zero)
    constructor
    · intro empty
      obtain ⟨whole, -⟩ := (accepts 0).mp ⟨nonempty, .inl ⟨empty, rfl⟩⟩
      exact whole.zero_notMem zero
    · intro number denotes represents
      obtain ⟨whole, -⟩ := (accepts number).mp
        ⟨nonempty, .inr ⟨number, denotes, .inl ⟨rfl, represents⟩⟩⟩
      exact whole.zero_notMem zero

/-- The conversions accept exactly the numerals of their values when no numeral wraps around and no
zero byte hides the rest of the string. -/
theorem convertsExactly_iff {longBits : Nat} (wide : 32 ≤ longBits) (target : Target) (s : Whole) :
    ConvertsExactly longBits target s ↔ Examined longBits target s := by
  constructor
  · rintro ⟨accepts, -⟩
    exact examined_of_accepts fun v => (convert_ok_iff wide target s v).symm.trans (accepts v)
  · intro examined
    have accepts (v : Int) := (convert_ok_iff wide target s v).trans (examined.accepts_iff v)
    refine ⟨accepts, fun rejected => ?_⟩
    cases answer : target.convert longBits s.str 10 with
    | error exception => exact ⟨exception, rfl⟩
    | ok v => exact absurd ⟨v, (accepts v).mp answer⟩ rejected

/-- The string of these bytes. -/
def ofText (bytes : Bytes) (fits : bytes.length + 1 < 2 ^ 64) : Whole :=
  ⟨ofBytes (some bytes), bytes, rfl, fits⟩

/-- The text `-18446744073709551615`. -/
def wrapped : Whole :=
  ofText ("-18446744073709551615".toList.map fun c => UInt8.ofNat c.toNat) (by decide)

theorem wrapped_converted :
    toUInt8 64 wrapped.str 10 = .ok 1 ∧ ¬ ConvertsExactly 64 .uint8 wrapped := by
  have accepted : toUInt8 64 wrapped.str 10 = .ok 1 := by decide +kernel
  refine ⟨accepted, fun exactly => ?_⟩
  obtain ⟨denotes, -⟩ := (exactly.1 1).mp accepted
  exact absurd denotes (by decide +kernel)

/-- The text `42`. -/
def answer : Whole := ofText [52, 50] (by decide)

theorem answer_examined : Examined 64 .uint8 answer where
  unwrapped number denotes wraps := by
    have same := denotes.unique (show Denotes (beforeZero answer) 42 by decide)
    rw [same] at wraps
    exact absurd wraps.2.2.1 (by decide)
  visible zero := absurd zero (by decide)

theorem answer_converts : 32 ≤ 64 ∧ ConvertsExactly 64 .uint8 answer :=
  ⟨by decide, (convertsExactly_iff (by decide) .uint8 answer).mpr answer_examined⟩

end Blocxx.Strings
