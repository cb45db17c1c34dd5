import Blocxx.Library.Codec
import Blocxx.Library.Loop
import Mathlib.Data.List.TakeWhile
import Mathlib.Data.UInt

/-!
This file embeds the conversions of `IConv` and settles when they keep every unit of their output.
The functions of the C library are parameters. A unit is a byte, or a `wchar_t` of a wide string,
whose encodings emit whole units.
-/

namespace Blocxx.IConv

open Library Codec

structure StringConversionException where
  message : String

/-- A descriptor converts an input into an array with room for so many units. -/
abbrev Iconv (CodeUnit : Type) := List UInt8 → Nat → Call CodeUnit

/-- What a conversion returns or throws. No answer is a write outside of its array. -/
abbrev Outcome (CodeUnit : Type) := Option (Except StringConversionException (List CodeUnit))

/-- The refusals are `E2BIG`, `EILSEQ` and `EINVAL`. -/
def mayThrowStringConversionException : Refusal → Option StringConversionException
  | .full => none
  | .invalid => some ⟨"Invalid character or multibyte sequence in the input"⟩
  | .incomplete => some ⟨"Incomplete multibyte sequence in the input"⟩

/-- The bytes of a `wchar_t`. -/
def wcharBytes (c : UInt32) : List UInt8 :=
  [c.toUInt8, (c >>> 8).toUInt8, (c >>> 16).toUInt8, (c >>> 24).toUInt8]

section Embedding

variable {CodeUnit : Type} [Zero CodeUnit] [DecidableEq CodeUnit]

/-- What is left of the input, and the string of the units. -/
structure Progress (CodeUnit : Type) where
  sptr : List UInt8
  out : List CodeUnit

/-- The array after the call has written from its start and the terminator was written at `optr`. -/
def obuf (size : Nat) (emitted : List CodeUnit) : Option (List (Option CodeUnit)) :=
  if emitted.length < size then
    some (emitted.map some ++ some 0 :: List.replicate (size - emitted.length - 1) none)
  else none

/-- The units in front of the first zero. -/
def terminated : List (Option CodeUnit) → List CodeUnit
  | some unit :: rest => if unit = 0 then [] else unit :: terminated rest
  | _ => []

/-- One iteration. The call has room for one unit less than the array. -/
def body (iconv : Iconv CodeUnit) (size : Nat) (state : Progress CodeUnit) :
    Loop.Iteration (Progress CodeUnit) (Outcome CodeUnit) :=
  if state.sptr = [] then .stop (some (.ok state.out))
  else
    let call := iconv state.sptr (size - 1)
    match call.refusal.bind mayThrowStringConversionException with
    | some exception => .stop (some (.error exception))
    | none =>
        match obuf size call.emitted with
        | some obuf => .next ⟨state.sptr.drop call.consumed, state.out ++ terminated obuf⟩
        | none => .stop none

/-- The rest of each conversion after the encodings, the array and the input are known. -/
def converted (iconv_open : String → String → Option (Iconv CodeUnit))
    (fromEncoding toEncoding : String) (size : Nat) (input : List UInt8) (fuel : Nat) :
    Option (Outcome CodeUnit) :=
  if input = [] then some (some (.ok []))
  else
    match iconv_open toEncoding fromEncoding with
    | some iconv => Loop.run (body iconv size) fuel ⟨input, []⟩
    | none =>
        some (some (.error
          ⟨"Unable to convert from \"" ++ fromEncoding ++ "\" to \"" ++ toEncoding ++ "\""⟩))

variable (iconv_open : String → String → Option (Iconv UInt8))
  (iconv_open_wide : String → String → Option (Iconv UInt32)) (enc : String)

/-- The string is a null pointer or a block of bytes. -/
def fromByteString (str : Option (List UInt8)) : Nat → Option (Outcome UInt8) :=
  converted iconv_open enc "UTF-8" 4097 (str.getD [])

def fromWideString (str : List UInt32) : Nat → Option (Outcome UInt8) :=
  converted iconv_open enc "UTF-8" 4097 (str.flatMap wcharBytes)

def toByteString (utf8 : List UInt8) : Nat → Option (Outcome UInt8) :=
  converted iconv_open "UTF-8" enc 4097 utf8

def toWideString (utf8 : List UInt8) : Nat → Option (Outcome UInt32) :=
  converted iconv_open_wide "UTF-8" enc 1025 utf8

end Embedding

section Contract

variable {CodeUnit : Type}

/-- The descriptors convert as their codecs do. -/
def Behaves (iconv_open : String → String → Option (Iconv CodeUnit))
    (codec : String → String → Codec CodeUnit) (size : Nat) : Prop :=
  ∀ toEncoding fromEncoding iconv, iconv_open toEncoding fromEncoding = some iconv →
    ∀ input, (codec toEncoding fromEncoding).Answers (size - 1) input (iconv input (size - 1))

/-- The conversion ends, and it returns all units or throws. -/
def Right (codec : Codec CodeUnit) (input : List UInt8)
    (answer : Nat → Option (Outcome CodeUnit)) : Prop :=
  ∃ fuel outcome, answer fuel = some (some outcome) ∧
    ((∃ out, outcome = .ok out ∧ codec.Complete input out) ∨
      ∃ exception, outcome = .error exception)

/-- The input has no conversion with a zero unit, or there is no descriptor. -/
def NoZero [Zero CodeUnit] (iconv : Option (Iconv CodeUnit)) (codec : Codec CodeUnit)
    (input : List UInt8) : Prop :=
  iconv ≠ none → ∀ out, codec.Complete input out → 0 ∉ out

/-- The text comes back from its bytes in the encoding, which are all there. -/
def RoundTrips (iconv_open : String → String → Option (Iconv UInt8))
    (codec : Codec UInt8) (enc : String) (s : List UInt8) : Prop :=
  ∃ fuel bytes, toByteString iconv_open enc s fuel = some (some (.ok bytes)) ∧
    codec.Complete s bytes ∧ ∃ more, fromByteString iconv_open enc (some bytes) more =
      some (some (.ok s))

end Contract

section Loops

variable {CodeUnit : Type} [Zero CodeUnit] [DecidableEq CodeUnit] {codec : Codec CodeUnit}
  {input : List UInt8} {size : Nat}

theorem terminated_written (emitted : List CodeUnit) (rest : List (Option CodeUnit)) :
    terminated (emitted.map some ++ some 0 :: rest) = emitted.takeWhile (· ≠ 0) := by
  induction emitted with
  | nil => exact if_pos rfl
  | cons unit emitted ih =>
      rw [List.map_cons, List.cons_append, terminated, ih]
      by_cases zero : unit = 0
      · rw [if_pos zero, List.takeWhile_cons_of_neg (by simpa using zero)]
      · rw [if_neg zero, List.takeWhile_cons_of_pos (by simpa using zero)]

theorem zero_notMem_takeWhile (emitted : List CodeUnit) : 0 ∉ emitted.takeWhile (· ≠ 0) := by
  intro mem
  simpa using List.mem_takeWhile_imp mem

theorem takeWhile_of_notMem {emitted : List CodeUnit} (free : 0 ∉ emitted) :
    emitted.takeWhile (· ≠ 0) = emitted := by
  rw [List.takeWhile_eq_self_iff]
  intro unit mem
  have different : unit ≠ 0 := fun zero => free (zero ▸ mem)
  simpa using different

/-- The invariant: a part of the input is converted, and its units are there when none is zero. -/
def Converted (codec : Codec CodeUnit) (input : List UInt8) (state : Progress CodeUnit) : Prop :=
  ∃ count units, codec.Consumes input count units ∧ state.sptr = input.drop count ∧
    0 ∉ state.out ∧ (0 ∉ units → state.out = units)

/-- What a conversion ends with. -/
def Ends (codec : Codec CodeUnit) (input : List UInt8) (opens : Prop)
    (outcome : Outcome CodeUnit) : Prop :=
  (∃ out units, outcome = some (.ok out) ∧ codec.Complete input units ∧ 0 ∉ out ∧
      (0 ∉ units → out = units)) ∨
    ∃ exception, outcome = some (.error exception) ∧
      (opens → ∀ units, ¬ codec.Complete input units)

/-- The next iteration has the units of the call that it needs. -/
theorem Converted.next {state : Progress CodeUnit} (converted : Converted codec input state)
    {call : Call CodeUnit} (consumed : codec.Consumes state.sptr call.consumed call.emitted) :
    Converted codec input
      ⟨state.sptr.drop call.consumed, state.out ++ call.emitted.takeWhile (· ≠ 0)⟩ := by
  obtain ⟨count, units, before, left, free, same⟩ := converted
  rw [left] at consumed
  refine ⟨count + call.consumed, units ++ call.emitted, before.trans consumed, ?_, ?_, ?_⟩
  · rw [left, List.drop_drop]
  · rw [List.mem_append, not_or]
    exact ⟨free, zero_notMem_takeWhile _⟩
  · rw [List.mem_append, not_or]
    rintro ⟨unitsFree, emittedFree⟩
    rw [same unitsFree, takeWhile_of_notMem emittedFree]

omit [DecidableEq CodeUnit] in
/-- At the end of the input all of it is converted. -/
theorem Converted.ends {state : Progress CodeUnit} (converted : Converted codec input state)
    (empty : state.sptr = []) : Ends codec input True (some (.ok state.out)) := by
  obtain ⟨count, units, before, left, free, same⟩ := converted
  rw [empty, eq_comm, List.drop_eq_nil_iff] at left
  have all : count = input.length := le_antisymm before.le left
  refine .inl ⟨state.out, units, rfl, ?_, free, same⟩
  rw [Complete, ← all]
  exact before

omit [DecidableEq CodeUnit] in
/-- Where a call finds no character, the input has no conversion. -/
theorem Converted.throws {state : Progress CodeUnit} (converted : Converted codec input state)
    {call : Call CodeUnit} (consumed : codec.Consumes state.sptr call.consumed call.emitted)
    (stuck : call.consumed < state.sptr.length ∧
      codec.next (state.sptr.drop call.consumed) = none)
    (exception : StringConversionException) : Ends codec input True (some (.error exception)) := by
  obtain ⟨count, units, before, left, -, -⟩ := converted
  rw [left] at consumed stuck
  rw [List.length_drop, List.drop_drop] at stuck
  refine .inr ⟨exception, rfl, fun _ => ?_⟩
  exact (before.trans consumed).not_complete (by omega) stuck.2

/-- A call that does not throw gives the next iteration, which has less of the input left. -/
theorem body_next {iconv : Iconv CodeUnit} (positive : 0 < size) {state : Progress CodeUnit}
    (some_left : state.sptr ≠ []) (answers : codec.Answers (size - 1) state.sptr
      (iconv state.sptr (size - 1)))
    (goes : (iconv state.sptr (size - 1)).refusal.bind mayThrowStringConversionException = none) :
    body iconv size state =
      .next ⟨state.sptr.drop (iconv state.sptr (size - 1)).consumed,
        state.out ++ (iconv state.sptr (size - 1)).emitted.takeWhile (· ≠ 0)⟩ := by
  have fits := answers.fits
  unfold body
  rw [if_neg some_left]
  dsimp only
  rw [goes, obuf, if_pos (by omega)]
  dsimp only
  rw [terminated_written]

theorem Converted.body {iconv : Iconv CodeUnit} (positive : 0 < size)
    (answers : ∀ input, codec.Answers (size - 1) input (iconv input (size - 1)))
    {state : Progress CodeUnit} (converted : Converted codec input state) :
    (∃ later, body iconv size state = .next later ∧ Converted codec input later ∧
        later.sptr.length < state.sptr.length) ∨
      ∃ outcome, body iconv size state = .stop outcome ∧ Ends codec input True outcome := by
  by_cases empty : state.sptr = []
  · right
    exact ⟨_, if_pos empty, converted.ends empty⟩
  have answers := answers state.sptr
  have advances (some_consumed : 0 < (iconv state.sptr (size - 1)).consumed) :
      (state.sptr.drop (iconv state.sptr (size - 1)).consumed).length < state.sptr.length := by
    have positive := List.length_pos_iff.mpr empty
    rw [List.length_drop]
    omega
  have throws (refusal : Refusal) (is : (iconv state.sptr (size - 1)).refusal = some refusal)
      (exception : StringConversionException)
      (thrown : mayThrowStringConversionException refusal = some exception) :
      IConv.body iconv size state = .stop (some (.error exception)) := by
    unfold IConv.body
    rw [if_neg empty]
    dsimp only
    rw [is, Option.bind_some, thrown]
  cases stops : (iconv state.sptr (size - 1)).refusal with
  | none =>
      left
      refine ⟨_, body_next positive empty answers (by rw [stops]; rfl),
        converted.next answers.converts, advances ?_⟩
      rw [answers.done stops]
      exact List.length_pos_iff.mpr empty
  | some refusal =>
      cases refusal with
      | full =>
          left
          exact ⟨_, body_next positive empty answers (by rw [stops]; rfl),
            converted.next answers.converts, advances (answers.full stops)⟩
      | invalid =>
          right
          exact ⟨_, throws _ stops _ rfl,
            converted.throws answers.converts (answers.stuck (.inl stops)) _⟩
      | incomplete =>
          right
          exact ⟨_, throws _ stops _ rfl,
            converted.throws answers.converts (answers.stuck (.inr stops)) _⟩

/-- Every conversion ends and writes only inside of its array. -/
theorem converted_ends {iconv_open : String → String → Option (Iconv CodeUnit)}
    {codecs : String → String → Codec CodeUnit} (positive : 0 < size)
    (behaves : Behaves iconv_open codecs size) (fromEncoding toEncoding : String)
    (input : List UInt8) :
    ∃ fuel outcome, converted iconv_open fromEncoding toEncoding size input fuel = some outcome ∧
      Ends (codecs toEncoding fromEncoding) input (iconv_open toEncoding fromEncoding ≠ none)
        outcome := by
  by_cases empty : input = []
  · subst empty
    exact ⟨0, _, if_pos rfl, .inl ⟨[], [], rfl, complete_nil _, List.not_mem_nil, fun _ => rfl⟩⟩
  unfold converted
  cases opens : iconv_open toEncoding fromEncoding with
  | none =>
      refine ⟨0, _, if_neg empty, .inr ⟨_, rfl, ?_⟩⟩
      exact fun no => absurd rfl no
  | some iconv =>
      have answers := behaves toEncoding fromEncoding iconv opens
      obtain ⟨outcome, ⟨fuel, runs⟩, ends⟩ :=
        @Loop.returns_of_invariant _ _ (body iconv size)
          (Converted (codecs toEncoding fromEncoding) input)
          (Ends (codecs toEncoding fromEncoding) input True) (fun state => state.sptr.length)
          (by
            intro state later converted goes
            rcases converted.body positive answers with ⟨next, goesOn, rest⟩ | ⟨_, stops, -⟩
            · cases goesOn.symm.trans goes
              exact rest
            · cases stops.symm.trans goes)
          (by
            intro state outcome converted stops
            rcases converted.body positive answers with ⟨_, goes, -⟩ | ⟨result, is, ends⟩
            · cases goes.symm.trans stops
            · cases is.symm.trans stops
              exact ends)
          ⟨input, []⟩ ⟨0, [], .nil input, rfl, List.not_mem_nil, fun _ => rfl⟩
      refine ⟨fuel, outcome, (if_neg empty).trans runs, ?_⟩
      rcases ends with whole | ⟨exception, throws, never⟩
      · exact .inl whole
      · exact .inr ⟨exception, throws, fun _ => never trivial⟩

/-- A conversion has one outcome. -/
theorem converted_unique {iconv_open : String → String → Option (Iconv CodeUnit)}
    {fromEncoding toEncoding : String} {fuel more : Nat} {first second : Outcome CodeUnit}
    (one : converted iconv_open fromEncoding toEncoding size input fuel = some first)
    (other : converted iconv_open fromEncoding toEncoding size input more = some second) :
    first = second := by
  unfold converted at one other
  split at one
  next empty =>
    rw [if_pos empty] at other
    exact Option.some.inj (one.symm.trans other)
  next some_left =>
    rw [if_neg some_left] at other
    cases opens : iconv_open toEncoding fromEncoding with
    | none =>
        rw [opens] at one other
        exact Option.some.inj (one.symm.trans other)
    | some iconv =>
        rw [opens] at one other
        exact Loop.Returns.unique ⟨fuel, one⟩ ⟨more, other⟩

/-- A conversion returns all units or throws exactly when no unit is zero. -/
theorem right_iff {iconv_open : String → String → Option (Iconv CodeUnit)}
    {codecs : String → String → Codec CodeUnit} (positive : 0 < size)
    (behaves : Behaves iconv_open codecs size) (fromEncoding toEncoding : String)
    (input : List UInt8) :
    Right (codecs toEncoding fromEncoding) input
        (converted iconv_open fromEncoding toEncoding size input) ↔
      NoZero (iconv_open toEncoding fromEncoding) (codecs toEncoding fromEncoding) input := by
  obtain ⟨fuel, outcome, runs, ends⟩ :=
    converted_ends positive behaves fromEncoding toEncoding input
  constructor
  · rintro ⟨more, result, answers, right⟩ opens units complete
    obtain rfl := converted_unique runs answers
    rcases ends with ⟨out, all, is, whole, free, -⟩ | ⟨exception, throws, never⟩
    · cases is
      rcases right with ⟨same, returns, wholeToo⟩ | ⟨exception, throws⟩
      · cases returns
        rwa [complete.unique wholeToo]
      · cases throws
    · exact absurd complete (never opens units)
  · intro noZero
    rcases ends with ⟨out, units, rfl, whole, -, same⟩ | ⟨exception, rfl, -⟩
    · refine ⟨fuel, .ok out, runs, .inl ⟨out, rfl, ?_⟩⟩
      have free : 0 ∉ units := by
        by_cases empty : input = []
        · subst empty
          rw [whole.unique (complete_nil _)]
          exact List.not_mem_nil
        · apply noZero ?_ units whole
          intro closed
          rw [converted, if_neg empty, closed] at runs
          cases runs
      rwa [same free]
    · exact ⟨fuel, .error exception, runs, .inr ⟨exception, rfl⟩⟩

/-- What a conversion returns for an input with a conversion without zeros. -/
theorem converted_complete {iconv_open : String → String → Option (Iconv CodeUnit)}
    {codecs : String → String → Codec CodeUnit} (positive : 0 < size)
    (behaves : Behaves iconv_open codecs size) {fromEncoding toEncoding : String}
    {units : List CodeUnit} (opens : iconv_open toEncoding fromEncoding ≠ none)
    (complete : (codecs toEncoding fromEncoding).Complete input units) (free : 0 ∉ units) :
    ∃ fuel, converted iconv_open fromEncoding toEncoding size input fuel =
      some (some (.ok units)) := by
  obtain ⟨fuel, outcome, runs, ends⟩ :=
    converted_ends positive behaves fromEncoding toEncoding input
  rcases ends with ⟨out, all, rfl, whole, -, same⟩ | ⟨exception, rfl, never⟩
  · obtain rfl := whole.unique complete
    refine ⟨fuel, ?_⟩
    rw [runs, same free]
  · exact absurd complete (never opens units)

end Loops

/-- For every input all conversions end, write inside of their arrays, and return all units or throw,
exactly when no unit is zero. A text that an encoding can represent comes back from its bytes, which
are all there, exactly when no byte is zero. -/
theorem conversions_right_iff {iconv_open : String → String → Option (Iconv UInt8)}
    {iconv_open_wide : String → String → Option (Iconv UInt32)}
    {codec : String → String → Codec UInt8} {wideCodec : String → String → Codec UInt32}
    (behaves : Behaves iconv_open codec 4097) (wide : Behaves iconv_open_wide wideCodec 1025)
    (enc : String) :
    (∀ str : Option (List UInt8),
      Right (codec "UTF-8" enc) (str.getD []) (fromByteString iconv_open enc str) ↔
        NoZero (iconv_open "UTF-8" enc) (codec "UTF-8" enc) (str.getD [])) ∧
    (∀ str : List UInt32,
      Right (codec "UTF-8" enc) (str.flatMap wcharBytes) (fromWideString iconv_open enc str) ↔
        NoZero (iconv_open "UTF-8" enc) (codec "UTF-8" enc) (str.flatMap wcharBytes)) ∧
    (∀ utf8 : List UInt8,
      Right (codec enc "UTF-8") utf8 (toByteString iconv_open enc utf8) ↔
        NoZero (iconv_open enc "UTF-8") (codec enc "UTF-8") utf8) ∧
    (∀ utf8 : List UInt8,
      Right (wideCodec enc "UTF-8") utf8 (toWideString iconv_open_wide enc utf8) ↔
        NoZero (iconv_open_wide enc "UTF-8") (wideCodec enc "UTF-8") utf8) ∧
    ∀ s bytes : List UInt8, 0 ∉ s → iconv_open enc "UTF-8" ≠ none →
      iconv_open "UTF-8" enc ≠ none → (codec enc "UTF-8").Complete s bytes →
      (codec "UTF-8" enc).Complete bytes s →
      (RoundTrips iconv_open (codec enc "UTF-8") enc s ↔ 0 ∉ bytes) := by
  refine ⟨?_, ?_, ?_, ?_, ?_⟩
  · intro str
    exact right_iff (by decide) behaves enc "UTF-8" _
  · intro str
    exact right_iff (by decide) behaves enc "UTF-8" _
  · intro utf8
    exact right_iff (by decide) behaves "UTF-8" enc utf8
  · intro utf8
    exact right_iff (by decide) wide "UTF-8" enc utf8
  · intro s bytes free opens opensBack complete back
    constructor
    · rintro ⟨fuel, out, runs, whole, -⟩
      obtain rfl := complete.unique whole
      have right := (right_iff (by decide) behaves "UTF-8" enc s).mp
        ⟨fuel, .ok bytes, runs, .inl ⟨bytes, rfl, whole⟩⟩
      exact right opens bytes whole
    · intro bytesFree
      obtain ⟨fuel, runs⟩ := converted_complete (by decide) behaves opens complete bytesFree
      exact ⟨fuel, bytes, runs, complete,
        converted_complete (by decide) behaves opensBack back free⟩

section Examples

variable {CodeUnit : Type}

/-- The codec that has these units for each character of ASCII and no other character. -/
def asciiCodec (units : UInt8 → List CodeUnit) : Codec CodeUnit where
  next input :=
    match input with
    | [] => none
    | byte :: _ => if byte < 128 then some (1, units byte) else none
  consumes input count out first := by
    cases input with
    | nil => cases first
    | cons byte rest =>
        dsimp only at first
        split at first
        · cases first
          exact ⟨Nat.one_pos, Nat.succ_pos _⟩
        · cases first

def UTF_8 : Codec UInt8 := asciiCodec fun byte => [byte]

def UTF_16LE : Codec UInt8 := asciiCodec fun byte => [byte, 0]

def WCHAR_T : Codec UInt32 := asciiCodec fun byte => [byte.toUInt32]

theorem behaves_ascii {units : UInt8 → List CodeUnit} {size : Nat}
    (small : ∀ byte, (units byte).length ≤ size - 1) :
    Behaves (fun _ _ => some (asciiCodec units).greedy) (fun _ _ => asciiCodec units) size := by
  intro toEncoding fromEncoding iconv opens input
  cases opens
  apply greedy_answers
  intro input count out first
  cases input with
  | nil => cases first
  | cons byte rest =>
      have first : (if byte < 128 then some (1, units byte) else none) = some (count, out) := first
      split at first
      · cases first
        exact small byte
      · cases first

theorem ascii_complete (units : UInt8 → List CodeUnit) {input : List UInt8}
    (ascii : ∀ byte ∈ input, byte < 128) :
    (asciiCodec units).Complete input (input.flatMap units) := by
  induction input with
  | nil => exact complete_nil _
  | cons byte rest ih =>
      rw [List.forall_mem_cons] at ascii
      have first : (asciiCodec units).next (byte :: rest) = some (1, units byte) :=
        if_pos ascii.1
      have whole := Consumes.char first (ih ascii.2)
      rwa [Nat.add_comm] at whole

theorem conversions_ascii :
    RoundTrips (fun _ _ => some UTF_8.greedy) UTF_8 "ASCII" [97, 98] := by
  have behaves : Behaves (fun _ _ => some UTF_8.greedy) (fun _ _ => UTF_8) 4097 :=
    behaves_ascii fun _ => by simp
  have wide : Behaves (fun _ _ => some WCHAR_T.greedy) (fun _ _ => WCHAR_T) 1025 :=
    behaves_ascii fun _ => by simp
  have complete : UTF_8.Complete [97, 98] [97, 98] := ascii_complete _ (by simp)
  obtain ⟨-, -, -, -, roundTrips⟩ := conversions_right_iff behaves wide "ASCII"
  apply (roundTrips [97, 98] [97, 98] (by decide) ?_ ?_ complete complete).mpr
  · decide
  · exact Option.some_ne_none _
  · exact Option.some_ne_none _

/-- The text `ab` loses all bytes but the first one in UTF-16LE. -/
theorem conversions_lose_zeros :
    Behaves (fun _ _ => some UTF_16LE.greedy) (fun _ _ => UTF_16LE) 4097 ∧
      ¬ Right UTF_16LE [97, 98]
        (toByteString (fun _ _ => some UTF_16LE.greedy) "UTF-16LE" [97, 98]) := by
  refine ⟨behaves_ascii fun _ => by simp, ?_⟩
  rintro ⟨fuel, outcome, runs, right⟩
  have loses : toByteString (fun _ _ => some UTF_16LE.greedy) "UTF-16LE" [97, 98] 2 =
      some (some (.ok [97])) := rfl
  cases converted_unique runs loses
  rcases right with ⟨out, returns, complete⟩ | ⟨exception, throws⟩
  · cases returns
    have whole : UTF_16LE.Complete [97, 98] [97, 0, 98, 0] := ascii_complete _ (by simp)
    cases complete.unique whole
  · cases throws

end Examples

end Blocxx.IConv
