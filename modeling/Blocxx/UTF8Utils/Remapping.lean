import Blocxx.Library.Operation
import Blocxx.UTF8Utils.InPlace

/-!
This file finds the strings whose case is mapped by `transformInPlace`, or by `transform` on what
`transformInPlace` leaves when it gives up.
-/

namespace Blocxx.UTF8Utils
open Library

deriving instance DecidableEq for Token

/-- What the tables promise for the mapping of their characters. -/
structure MapsCase (transformer : UInt32 → UInt32) : Prop where
  grows : NeverGrows transformer
  again : ∀ ucs4char, transformer (transformer ucs4char) = transformer ucs4char
  nonzero : ∀ ucs4char, ucs4char ≠ 0 → transformer ucs4char ≠ 0
  small : ∀ ucs4char : UInt32, ucs4char.toNat < 0x100000 →
    (transformer ucs4char).toNat < 0x100000

/-- The set of the mapped characters, as the bits of a number. -/
def codePoints (mappings : List CaseMapping) : Nat :=
  mappings.foldr (fun element bits => 1 <<< element.codePoint.toNat ||| bits) 0

theorem testBit_codePoints {mappings : List CaseMapping} {element : CaseMapping}
    (member : element ∈ mappings) :
    (codePoints mappings).testBit element.codePoint.toNat = true := by
  induction mappings with
  | nil => cases member
  | cons first rest ih =>
      rw [codePoints, List.foldr_cons, Nat.testBit_or, ← codePoints]
      rcases List.mem_cons.mp member with rfl | later
      · simp
      · rw [ih later, Bool.or_true]

theorem mapsCase_transformer {mappings : List CaseMapping}
    (grows : NeverGrows (transformer mappings))
    (apart : ∀ element ∈ mappings, (codePoints mappings).testBit element.mapping.toNat = false)
    (inside : ∀ element ∈ mappings, element.mapping ≠ 0 ∧ element.mapping < 0x100000) :
    MapsCase (transformer mappings) where
  grows := grows
  again ucs4char := by
    rcases transformer_cases mappings ucs4char with same | ⟨element, member, -, mapped⟩
    · rw [same, same]
    · rw [mapped]
      rcases transformer_cases mappings element.mapping with same | ⟨other, there, chain, -⟩
      · exact same
      · have bit := testBit_codePoints there
        rw [chain, apart element member] at bit
        cases bit
  nonzero ucs4char nonzero := by
    rcases transformer_cases mappings ucs4char with same | ⟨element, member, -, mapped⟩
    · rwa [same]
    · rw [mapped]
      exact (inside element member).1
  small ucs4char small := by
    rcases transformer_cases mappings ucs4char with same | ⟨element, member, -, mapped⟩
    · rwa [same]
    · rw [mapped]
      exact UInt32.lt_iff_toNat_lt.mp (inside element member).2

theorem mapsCase_lower : MapsCase (transformer lowerMappings) := by
  refine mapsCase_transformer neverGrows_lower ?_ ?_
  · decide +kernel
  · decide +kernel

theorem mapsCase_upper : MapsCase (transformer upperMappings) := by
  refine mapsCase_transformer neverGrows_upper ?_ ?_
  · decide +kernel
  · decide +kernel

section Decode

variable {c0 : UInt8} {rest : List UInt8}

/-- A sequence with all of its bytes is decoded to a number below the last plane. -/
theorem decode_complete (nonzero : 0 ∉ c0 :: rest) (leads : sequenceLength c0 ≠ 0)
    (complete : sequenceLength c0 ≤ rest.length + 1) :
    ∃ c, utf8ToUcs4 (c0 :: rest) = .ok c ∧ c.toNat < 0x100000 := by
  have most := sequenceLength_le c0
  simp only [List.mem_cons, not_or] at nonzero
  obtain one | two | three | four : sequenceLength c0 = 1 ∨ sequenceLength c0 = 2 ∨
      sequenceLength c0 = 3 ∨ sequenceLength c0 = 4 := by
    omega
  · have bound := c0.toNat_lt
    refine ⟨_, utf8ToUcs4_one one (Ne.symm nonzero.1), ?_⟩
    rw [UInt8.toNat_toUInt32]
    omega
  · obtain ⟨c1, rest, rfl⟩ := List.exists_cons_of_length_pos (show 0 < rest.length by omega)
    simp only [List.mem_cons, not_or] at nonzero
    obtain ⟨c, decodes, value⟩ := utf8ToUcs4_two two (Ne.symm nonzero.2.1)
    exact ⟨c, decodes, by omega⟩
  · obtain ⟨c1, rest, rfl⟩ := List.exists_cons_of_length_pos (show 0 < rest.length by omega)
    rw [List.length_cons] at complete
    obtain ⟨c2, rest, rfl⟩ := List.exists_cons_of_length_pos (show 0 < rest.length by omega)
    simp only [List.mem_cons, not_or] at nonzero
    obtain ⟨c, decodes, value⟩ :=
      utf8ToUcs4_three three (Ne.symm nonzero.2.1) (Ne.symm nonzero.2.2.1)
    exact ⟨c, decodes, by omega⟩
  · obtain ⟨c1, rest, rfl⟩ := List.exists_cons_of_length_pos (show 0 < rest.length by omega)
    rw [List.length_cons] at complete
    obtain ⟨c2, rest, rfl⟩ := List.exists_cons_of_length_pos (show 0 < rest.length by omega)
    rw [List.length_cons] at complete
    obtain ⟨c3, rest, rfl⟩ := List.exists_cons_of_length_pos (show 0 < rest.length by omega)
    simp only [List.mem_cons, not_or] at nonzero
    obtain ⟨c, decodes, value⟩ := utf8ToUcs4_four four (Ne.symm nonzero.2.1)
      (Ne.symm nonzero.2.2.1) (Ne.symm nonzero.2.2.2.1)
    exact ⟨c, decodes, by omega⟩

/-- A bad byte leads no sequence, or the string ends inside of its sequence. -/
def LeadsNothing (c0 : UInt8) (rest : List UInt8) : Prop :=
  sequenceLength c0 = 0 ∨ rest.length + 1 < sequenceLength c0

theorem decode_bad (nonzero : 0 ∉ c0 :: rest) (undecodable : utf8ToUcs4 (c0 :: rest) = .ok bad) :
    LeadsNothing c0 rest := by
  by_contra leads
  rw [LeadsNothing, not_or, not_lt] at leads
  obtain ⟨c, decodes, small⟩ := decode_complete nonzero leads.1 leads.2
  exact ne_bad small (Except.ok.inj (decodes.symm.trans undecodable))

theorem LeadsNothing.decodes (nothing : LeadsNothing c0 rest) (nonzero : c0 ≠ 0) :
    utf8ToUcs4 (c0 :: rest) = .ok bad := by
  rcases nothing with zero | short
  · exact decode_zero nonzero zero
  · exact decode_short nonzero short

theorem decode_small (nonzero : 0 ∉ c0 :: rest) {ucs4char : UInt32}
    (decodes : utf8ToUcs4 (c0 :: rest) = .ok ucs4char) (decodable : ucs4char ≠ bad) :
    ucs4char.toNat < 0x100000 := by
  have first : c0 ≠ 0 := by
    rintro rfl
    exact nonzero List.mem_cons_self
  by_cases nothing : LeadsNothing c0 rest
  · exact absurd (Except.ok.inj (decodes.symm.trans (nothing.decodes first))) decodable
  · rw [LeadsNothing, not_or, not_lt] at nothing
    obtain ⟨c, decodes', small⟩ := decode_complete nonzero nothing.1 nothing.2
    rwa [Except.ok.inj (decodes.symm.trans decodes')]

end Decode

/-- The result of `transform`. -/
def mapped (transformer : UInt32 → UInt32) (input : List UInt8) : List UInt8 :=
  images (tokens transformer input)

section Mapped

variable {transformer : UInt32 → UInt32} {input : List UInt8} {later : List Token}

/-- The rules give the result of `transform`. -/
theorem Scans.mapped_eq (scans : Scans transformer input later) (free : 0 ∉ input) :
    mapped transformer input = images later := by
  have one := copy_returns (scans_scan transformer input.length input free le_rfl) []
  have other := copy_returns scans []
  exact Except.ok.inj (Loop.Returns.unique one other)

/-- A mapped character is mapped to itself. -/
theorem mapped_character {ucs4char : UInt32} (nonzero : ucs4char ≠ 0)
    (small : ucs4char.toNat < 0x100000) (fixed : transformer ucs4char = ucs4char)
    {rest : List UInt8} (free : 0 ∉ rest) :
    mapped transformer (ucs4ToUtf8 ucs4char ++ rest) =
      ucs4ToUtf8 ucs4char ++ mapped transformer rest := by
  have positive : 0 < ucs4char.toNat := by
    rw [Nat.pos_iff_ne_zero]
    intro zero
    exact nonzero (UInt32.toNat_inj.mp zero)
  have encoded := ucs4ToUtf8_encodes (show ucs4char.toNat < 0x110000 by omega)
  obtain ⟨lead, head, length⟩ := encoded.length
  obtain ⟨c, decodes, value⟩ := encoded.decode positive rest
  obtain rfl : c = ucs4char := UInt32.toNat_inj.mp (by omega)
  obtain ⟨more, bytes⟩ := List.head?_eq_some_iff.mp head
  have unterminated := encoded.free positive
  have long := length_ucs4ToUtf8 c
  rw [bytes] at decodes length unterminated long
  rw [List.cons_append] at decodes
  have scans := scans_scan transformer rest.length rest free le_rfl
  have whole : 0 ∉ lead :: (more ++ rest) := by
    rw [← List.cons_append, List.mem_append, not_or]
    exact ⟨unterminated, free⟩
  have leadNonzero : lead ≠ 0 := fun zero => unterminated (zero ▸ List.mem_cons_self)
  have character := Scans.character leadNonzero decodes (ne_bad small) length long.ge scans
  rw [bytes, List.cons_append, character.mapped_eq whole, images, List.flatMap_cons]
  dsimp only
  rw [fixed, bytes]
  rfl

/-- A bad byte stays in front of as many bytes. -/
theorem mapped_invalid {c0 : UInt8} {rest : List UInt8} (nonzero : c0 ≠ 0)
    (nothing : LeadsNothing c0 rest) (free : 0 ∉ rest) :
    mapped transformer (c0 :: rest) = c0 :: mapped transformer rest := by
  have scans := scans_scan transformer rest.length rest free le_rfl
  have whole : 0 ∉ c0 :: rest := by
    rw [List.mem_cons, not_or]
    exact ⟨Ne.symm nonzero, free⟩
  rw [(Scans.invalid nonzero (nothing.decodes nonzero) scans).mapped_eq whole]
  rfl

end Mapped

section Length

theorem InPlace.write_length {state : InPlace} {bytes buffer : List UInt8}
    (writes : state.write bytes = .ok buffer) : buffer.length = state.buffer.length := by
  unfold InPlace.write at writes
  split at writes
  · next inside =>
      obtain rfl := Except.ok.inj writes
      rw [List.length_append, List.length_append, List.length_take, List.length_drop]
      omega
  · cases writes

/-- The buffer behind an iteration. -/
def bufferOf : Loop.Iteration InPlace (Bool × List UInt8) → List UInt8
  | .next later => later.buffer
  | .stop answer => answer.2

/-- An iteration keeps the size of the buffer. -/
theorem inPlaceIteration_length {transformer : UInt32 → UInt32} {state : InPlace}
    {result : Loop.Iteration InPlace (Bool × List UInt8)}
    (goes : inPlaceIteration transformer state = .ok result) :
    (bufferOf result).length = state.buffer.length := by
  unfold inPlaceIteration at goes
  obtain ⟨c0, -, goes⟩ := bind_eq_ok.mp goes
  split at goes
  · obtain ⟨buffer, writes, ends⟩ := bind_eq_ok.mp goes
    obtain rfl := Except.ok.inj ends
    exact InPlace.write_length writes
  · obtain ⟨ucs4char, -, goes⟩ := bind_eq_ok.mp goes
    split at goes
    · obtain rfl := Except.ok.inj goes
      rfl
    · dsimp only at goes
      split at goes
      · obtain rfl := Except.ok.inj goes
        rfl
      · obtain ⟨buffer, writes, steps⟩ := bind_eq_ok.mp goes
        obtain rfl := Except.ok.inj steps
        exact InPlace.write_length writes

theorem inPlaceBody_next {transformer : UInt32 → UInt32} {state later : InPlace}
    (goes : inPlaceBody transformer state = .next later) :
    later.buffer.length = state.buffer.length := by
  unfold inPlaceBody at goes
  cases iteration : inPlaceIteration transformer state with
  | error fault =>
      rw [iteration] at goes
      cases goes
  | ok result =>
      have length := inPlaceIteration_length iteration
      rw [iteration] at goes
      cases result with
      | next other =>
          obtain rfl := Loop.Iteration.next.inj goes
          exact length
      | stop answer => cases goes

theorem inPlaceBody_stop {transformer : UInt32 → UInt32} {state : InPlace} {ok : Bool}
    {buffer : List UInt8} (stops : inPlaceBody transformer state = .stop (.ok (ok, buffer))) :
    buffer.length = state.buffer.length := by
  unfold inPlaceBody at stops
  cases iteration : inPlaceIteration transformer state with
  | error fault =>
      rw [iteration] at stops
      cases stops
  | ok result =>
      have length := inPlaceIteration_length iteration
      rw [iteration] at stops
      cases result with
      | next other => cases stops
      | stop answer =>
          obtain rfl := Except.ok.inj (Loop.Iteration.stop.inj stops)
          exact length

theorem inPlace_length {transformer : UInt32 → UInt32} {state : InPlace} {ok : Bool}
    {buffer : List UInt8}
    (returns : Loop.Returns (inPlaceBody transformer) state (.ok (ok, buffer))) :
    buffer.length = state.buffer.length := by
  obtain ⟨fuel, runs⟩ := returns
  induction fuel generalizing state with
  | zero => cases runs
  | succ fuel ih =>
      rw [Loop.run] at runs
      cases goes : inPlaceBody transformer state with
      | next later =>
          rw [goes] at runs
          exact (ih runs).trans (inPlaceBody_next goes)
      | stop result =>
          rw [goes] at runs
          obtain rfl := Option.some.inj runs
          exact inPlaceBody_stop goes

end Length

/-- What the call in place leaves. Behind the first character that becomes shorter it gives up at a
character, or it moves bytes that are not mapped. -/
def Outcome (written : List UInt8) : List Token → Bool → List UInt8 → Prop
  | [], ok, buffer => ok = true ∧ buffer = written ++ [0]
  | token :: later, ok, buffer =>
      if token.image.length < token.source.length then
        (ok = true ↔ ∀ other ∈ later, other.decodable = false) ∧
          (ok = false → buffer = written ++ token.image ++
            (token.source.drop token.image.length ++ sources later ++ [0]))
      else Outcome (written ++ token.image) later ok buffer

section Outcome

variable {transformer : UInt32 → UInt32} {input : List UInt8} {later : List Token}

/-- Behind its read position the loop gives up at a character. -/
theorem behind_stops (scans : Scans transformer input later) : 0 ∉ input →
    (∃ other ∈ later, other.decodable = true) → ∀ written gap : List UInt8, gap ≠ [] →
      Loop.Returns (inPlaceBody transformer)
        ⟨written ++ gap ++ (input ++ [0]), (written ++ gap).length, written.length⟩
        (.ok (false, written ++ gap ++ (input ++ [0]))) := by
  induction scans with
  | done =>
      rintro _ ⟨other, member, _⟩
      cases member
  | @invalid c0 rest later first undecodable scans ih =>
      rintro nonzero ⟨other, member, decodable⟩ written gap behind
      have there : ∃ other ∈ later, other.decodable = true := by
        rcases List.mem_cons.mp member with rfl | after
        · cases decodable
        · exact ⟨other, after, decodable⟩
      obtain ⟨byte, more, rfl⟩ := List.exists_cons_of_ne_nil behind
      have goes := inPlace_invalid transformer nonzero undecodable
        (written ++ byte :: more) written.length
      have returns := ih (fun member => nonzero (List.mem_cons_of_mem c0 member)) there
        (written ++ [byte]) (more ++ [c0]) (by simp)
      refine .next goes ?_
      simpa [Nat.add_assoc] using returns
  | @character c0 more rest later ucs4char first decodes decodable length shortest scans ih =>
      intro nonzero _ written gap behind
      have lower : written.length < (written ++ gap).length := by
        rw [List.length_append]
        have positive := List.length_pos_of_ne_nil behind
        omega
      exact .stop (inPlace_behind nonzero decodes decodable (written ++ gap) lower)

/-- Behind its read position the loop leaves the buffer alone when it gives up. -/
theorem behind_outcome (scans : Scans transformer input later) (free : 0 ∉ input)
    (written : List UInt8) {gap : List UInt8} (behind : gap ≠ []) :
    ∃ ok buffer, Loop.Returns (inPlaceBody transformer)
        ⟨written ++ gap ++ (input ++ [0]), (written ++ gap).length, written.length⟩
        (.ok (ok, buffer)) ∧
      (ok = true ↔ ∀ other ∈ later, other.decodable = false) ∧
      (ok = false → buffer = written ++ gap ++ (input ++ [0])) ∧ 0 ∈ buffer := by
  by_cases there : ∃ other ∈ later, other.decodable = true
  · refine ⟨false, _, behind_stops scans free there written gap behind, ?_, fun _ => rfl, ?_⟩
    · obtain ⟨other, member, decodable⟩ := there
      refine iff_of_false Bool.false_ne_true fun undecodable => ?_
      exact absurd (undecodable other member) (by rw [decodable]; decide)
    · simp
  · obtain ⟨ok, buffer, returns, passes, moved⟩ := behind_returns scans free written gap behind
    have undecodable : ∀ other ∈ later, other.decodable = false := by
      intro other member
      rw [← Bool.not_eq_true]
      exact fun decodable => there ⟨other, member, decodable⟩
    have done := passes.mpr undecodable
    obtain ⟨tail, ends⟩ := moved done
    refine ⟨ok, buffer, returns, passes, ?_, ?_⟩
    · rw [done]
      exact fun impossible => absurd impossible (by decide)
    · rw [ends]
      simp

/-- The call in place leaves this outcome, and there is a terminator in its buffer. -/
theorem inPlace_outcome (grows : NeverGrows transformer) (scans : Scans transformer input later) :
    0 ∉ input → ∀ written : List UInt8, ∃ ok buffer, Loop.Returns (inPlaceBody transformer)
        ⟨written ++ (input ++ [0]), written.length, written.length⟩ (.ok (ok, buffer)) ∧
      Outcome written later ok buffer ∧ 0 ∈ buffer := by
  induction scans with
  | done =>
      intro _ written
      exact ⟨true, written ++ [0], .stop (inPlace_end transformer written []), ⟨rfl, rfl⟩,
        List.mem_append_right _ List.mem_cons_self⟩
  | @invalid c0 rest later first undecodable scans ih =>
      intro nonzero written
      have goes := inPlace_invalid transformer nonzero undecodable written written.length
      obtain ⟨ok, buffer, returns, outcome, ends⟩ :=
        ih (fun member => nonzero (List.mem_cons_of_mem c0 member)) (written ++ [c0])
      refine ⟨ok, buffer, .next goes ?_, ?_, ends⟩
      · simpa using returns
      · rw [Outcome, if_neg (lt_irrefl _)]
        exact outcome
  | @character c0 more rest later ucs4char first decodes decodable length shortest scans ih =>
      intro nonzero written
      have free : 0 ∉ rest := fun member =>
        nonzero (List.mem_cons_of_mem c0 (List.mem_append_right more member))
      have imageLength := length_ucs4ToUtf8 (transformer ucs4char)
      have short : utf8CharLen (transformer ucs4char) ≤ more.length + 1 :=
        (grows ucs4char).trans shortest
      rcases short.lt_or_eq with shorter | same
      · have goes := inPlace_shorter nonzero decodes decodable length shorter written
        have behind : (c0 :: more).drop (utf8CharLen (transformer ucs4char)) ≠ [] := by
          rw [Ne, List.drop_eq_nil_iff, List.length_cons]
          omega
        obtain ⟨ok, buffer, returns, stops, keeps, ends⟩ :=
          behind_outcome scans free (written ++ ucs4ToUtf8 (transformer ucs4char)) behind
        refine ⟨ok, buffer, .next goes returns, ?_, ends⟩
        simp only [Outcome, imageLength, List.length_cons, if_pos shorter, scans.sources_eq]
        simp only [List.append_assoc] at keeps ⊢
        exact ⟨stops, keeps⟩
      · have goes := inPlace_same nonzero decodes decodable length same written
        obtain ⟨ok, buffer, returns, outcome, ends⟩ :=
          ih free (written ++ ucs4ToUtf8 (transformer ucs4char))
        refine ⟨ok, buffer, .next goes returns, ?_, ends⟩
        simp only [Outcome, imageLength, List.length_cons]
        rw [if_neg (by omega)]
        exact outcome

end Outcome

/-- The mapping keeps these bytes in front of as many others. -/
def Stable (transformer : UInt32 → UInt32) (written : List UInt8) (size : Nat) : Prop :=
  ∀ after : List UInt8, 0 ∉ after → after.length = size →
    mapped transformer (written ++ after) = written ++ mapped transformer after

/-- The text that the caller is left with is this one. When the call gives up, the copying function
maps the bytes in the buffer. -/
def Kept (transformer : UInt32 → UInt32) (goal : List UInt8) (length : Nat) (ok : Bool)
    (buffer : List UInt8) : Prop :=
  0 ∉ goal ∧
    if ok then buffer.takeWhile (· ≠ 0) = goal ∧ goal.length = length
    else mapped transformer (buffer.takeWhile (· ≠ 0)) = goal

/-- No character becomes shorter, or a character follows the first one that does, and the bytes
which that one leaves and the bytes behind it have the mapping of the bytes behind it. -/
def Remaps (transformer : UInt32 → UInt32) : List Token → Prop
  | [] => True
  | token :: later =>
      if token.image.length < token.source.length then
        (∃ other ∈ later, other.decodable = true) ∧ 0 ∉ token.image ++ images later ∧
          mapped transformer (token.source.drop token.image.length ++ sources later) =
            images later
      else Remaps transformer later

section Remaps

variable {transformer : UInt32 → UInt32} {input written : List UInt8} {later : List Token}

theorem Stable.invalid {c0 : UInt8} {rest : List UInt8}
    (stable : Stable transformer written (rest.length + 1)) (nonzero : c0 ≠ 0)
    (nothing : LeadsNothing c0 rest) : Stable transformer (written ++ [c0]) rest.length := by
  intro after free size
  have leads : LeadsNothing c0 after := by
    rw [LeadsNothing, size]
    exact nothing
  have whole : 0 ∉ c0 :: after := by
    rw [List.mem_cons, not_or]
    exact ⟨Ne.symm nonzero, free⟩
  calc mapped transformer (written ++ [c0] ++ after)
      = mapped transformer (written ++ c0 :: after) := by rw [List.append_assoc]; rfl
    _ = written ++ mapped transformer (c0 :: after) := by
        rw [stable _ whole (by rw [List.length_cons, size])]
    _ = written ++ c0 :: mapped transformer after := by rw [mapped_invalid nonzero leads free]
    _ = written ++ [c0] ++ mapped transformer after := by rw [List.append_assoc]; rfl

theorem ucs4ToUtf8_free {ucs4char : UInt32} (nonzero : ucs4char ≠ 0)
    (small : ucs4char.toNat < 0x100000) : 0 ∉ ucs4ToUtf8 ucs4char := by
  have positive : 0 < ucs4char.toNat := by
    rw [Nat.pos_iff_ne_zero]
    intro zero
    exact nonzero (UInt32.toNat_inj.mp zero)
  exact (ucs4ToUtf8_encodes (by omega)).free positive

theorem Stable.character {ucs4char : UInt32} {size : Nat}
    (stable : Stable transformer written ((ucs4ToUtf8 ucs4char).length + size))
    (nonzero : ucs4char ≠ 0) (small : ucs4char.toNat < 0x100000)
    (fixed : transformer ucs4char = ucs4char) :
    Stable transformer (written ++ ucs4ToUtf8 ucs4char) size := by
  intro after free length
  have whole : 0 ∉ ucs4ToUtf8 ucs4char ++ after := by
    rw [List.mem_append, not_or]
    exact ⟨ucs4ToUtf8_free nonzero small, free⟩
  rw [List.append_assoc, stable _ whole (by rw [List.length_append, length]),
    mapped_character nonzero small fixed free, List.append_assoc]

/-- A character that does not become shorter is not mapped to the terminator. -/
theorem same_nonzero (maps : MapsCase transformer) {c0 : UInt8} {more rest : List UInt8}
    {ucs4char : UInt32} (nonzero : c0 ≠ 0)
    (decodes : utf8ToUcs4 (c0 :: (more ++ rest)) = .ok ucs4char)
    (length : sequenceLength c0 = more.length + 1)
    (same : utf8CharLen (transformer ucs4char) = more.length + 1) :
    transformer ucs4char ≠ 0 := by
  intro zero
  rw [zero] at same
  have single : 1 = more.length + 1 := same
  rw [← single] at length
  obtain rfl := Except.ok.inj ((utf8ToUcs4_one length nonzero).symm.trans decodes)
  refine maps.nonzero c0.toUInt32 (fun zero => nonzero ?_) zero
  exact UInt8.toUInt32_inj.mp zero

theorem Scans.images_length_le (grows : NeverGrows transformer)
    (scans : Scans transformer input later) : (images later).length ≤ input.length := by
  induction scans with
  | done => exact le_rfl
  | invalid nonzero undecodable scans ih =>
      rw [images, List.flatMap_cons, ← images]
      exact Nat.add_le_add_right ih 1
  | @character c0 more rest later ucs4char nonzero decodes decodable length shortest scans ih =>
      have short := (grows ucs4char).trans shortest
      have imageLength := length_ucs4ToUtf8 (transformer ucs4char)
      rw [images, List.flatMap_cons, ← images]
      simp only [List.length_append, List.length_cons]
      omega

/-- The bytes in front of the terminator. -/
theorem takeWhile_terminated (free : 0 ∉ input) : (input ++ [0]).takeWhile (· ≠ 0) = input :=
  (string_at free : (InPlace.mk ([] ++ (input ++ [0])) 0 0).string = input)

/-- Where a character becomes shorter, the call must give up, and the bytes in the buffer must have
the mapping of the string. -/
theorem shorter_kept_iff (grows : NeverGrows transformer) (scans : Scans transformer input later)
    {image gap : List UInt8} (left : gap ≠ []) (free : 0 ∉ gap ++ input)
    (unterminated : 0 ∉ written)
    (stable : 0 ∉ image → Stable transformer (written ++ image) (gap ++ input).length) {ok : Bool}
    {buffer : List UInt8} (stops : ok = true ↔ ∀ other ∈ later, other.decodable = false)
    (keeps : ok = false → buffer = written ++ image ++ (gap ++ input ++ [0])) :
    Kept transformer (written ++ (image ++ images later))
        (written.length + (image.length + (gap ++ input).length)) ok buffer ↔
      (∃ other ∈ later, other.decodable = true) ∧ 0 ∉ image ++ images later ∧
        mapped transformer (gap ++ input) = images later := by
  have goalFree : 0 ∉ written ++ (image ++ images later) ↔ 0 ∉ image ++ images later := by
    rw [List.mem_append, not_or, and_iff_right unterminated]
  cases ok with
  | true =>
      refine iff_of_false ?_ ?_
      · rintro ⟨_, agrees⟩
        rw [if_pos rfl] at agrees
        have shorter := scans.images_length_le grows
        have positive := List.length_pos_of_ne_nil left
        have total := agrees.2
        simp only [List.length_append] at total
        omega
      · rintro ⟨⟨other, member, decodable⟩, _⟩
        rw [stops.mp rfl other member] at decodable
        cases decodable
  | false =>
      have there : ∃ other ∈ later, other.decodable = true := by
        by_contra none
        refine Bool.false_ne_true (stops.mpr fun other member => ?_)
        rw [← Bool.not_eq_true]
        exact fun decodable => none ⟨other, member, decodable⟩
      rw [and_iff_right there, Kept, goalFree, if_neg Bool.false_ne_true, keeps rfl]
      refine and_congr_right fun imagesFree => ?_
      have imageFree : 0 ∉ image := fun member =>
        imagesFree (List.mem_append_left _ member)
      have whole : 0 ∉ written ++ image ++ (gap ++ input) := by
        simp only [List.mem_append, not_or] at free ⊢
        exact ⟨⟨unterminated, imageFree⟩, free⟩
      rw [← List.append_assoc, takeWhile_terminated whole, stable imageFree _ free rfl,
        ← List.append_assoc written, List.append_cancel_left_eq]

/-- The first character that becomes shorter decides. -/
theorem kept_character_iff (maps : MapsCase transformer) {c0 : UInt8} {more : List UInt8}
    (nonzero : 0 ∉ c0 :: (more ++ input)) {ucs4char : UInt32}
    (decodes : utf8ToUcs4 (c0 :: (more ++ input)) = .ok ucs4char) (decodable : ucs4char ≠ bad)
    (shorter : utf8CharLen (transformer ucs4char) < more.length + 1)
    (scans : Scans transformer input later) (unterminated : 0 ∉ written)
    (stable : Stable transformer written (c0 :: (more ++ input)).length) {ok : Bool}
    {buffer : List UInt8}
    (outcome : Outcome written (⟨c0 :: more, ucs4ToUtf8 (transformer ucs4char), true⟩ :: later) ok
      buffer) :
    Kept transformer
        (written ++ images (⟨c0 :: more, ucs4ToUtf8 (transformer ucs4char), true⟩ :: later))
        (written.length + (c0 :: (more ++ input)).length) ok buffer ↔
      Remaps transformer (⟨c0 :: more, ucs4ToUtf8 (transformer ucs4char), true⟩ :: later) := by
  have imageLength := length_ucs4ToUtf8 (transformer ucs4char)
  have imagesCons : images (⟨c0 :: more, ucs4ToUtf8 (transformer ucs4char), true⟩ :: later) =
      ucs4ToUtf8 (transformer ucs4char) ++ images later := rfl
  have size : (c0 :: (more ++ input)).length = (ucs4ToUtf8 (transformer ucs4char)).length +
      ((c0 :: more).drop (utf8CharLen (transformer ucs4char)) ++ input).length := by
    simp only [imageLength, List.length_cons, List.length_append, List.length_drop]
    omega
  have left : (c0 :: more).drop (utf8CharLen (transformer ucs4char)) ≠ [] := by
    rw [Ne, List.drop_eq_nil_iff, List.length_cons]
    omega
  have leftFree : 0 ∉ (c0 :: more).drop (utf8CharLen (transformer ucs4char)) ++ input := by
    intro member
    refine nonzero ?_
    rw [← List.cons_append]
    rcases List.mem_append.mp member with inside | behind
    · exact List.mem_append_left _ (List.drop_subset _ _ inside)
    · exact List.mem_append_right _ behind
  have stays : 0 ∉ ucs4ToUtf8 (transformer ucs4char) →
      Stable transformer (written ++ ucs4ToUtf8 (transformer ucs4char))
        ((c0 :: more).drop (utf8CharLen (transformer ucs4char)) ++ input).length := by
    intro imageFree
    rw [size] at stable
    refine stable.character ?_ (maps.small ucs4char (decode_small nonzero decodes decodable))
      (maps.again ucs4char)
    intro zero
    rw [zero] at imageFree
    exact imageFree List.mem_cons_self
  simp only [Outcome, imageLength, List.length_cons, if_pos shorter, scans.sources_eq] at outcome
  have agrees :=
    shorter_kept_iff maps.grows scans left leftFree unterminated stays outcome.1 outcome.2
  rw [size, imagesCons]
  simp only [Remaps, imageLength, List.length_cons, if_pos shorter, scans.sources_eq] at agrees ⊢
  exact agrees

/-- The text is kept exactly when the tokens allow it. -/
theorem kept_iff (maps : MapsCase transformer) (scans : Scans transformer input later) :
    0 ∉ input → ∀ written : List UInt8, 0 ∉ written →
      Stable transformer written input.length → ∀ {ok : Bool} {buffer : List UInt8},
      Outcome written later ok buffer →
        (Kept transformer (written ++ images later) (written.length + input.length) ok buffer ↔
          Remaps transformer later) := by
  induction scans with
  | done =>
      rintro _ written unterminated _ ok buffer ⟨rfl, rfl⟩
      refine iff_of_true ⟨?_, ?_⟩ trivial
      · simpa [images] using unterminated
      · rw [if_pos rfl, takeWhile_terminated unterminated]
        simp [images]
  | @invalid c0 rest later first undecodable scans ih =>
      intro nonzero written unterminated stable ok buffer outcome
      have free : 0 ∉ rest := fun member => nonzero (List.mem_cons_of_mem c0 member)
      have nothing := decode_bad nonzero undecodable
      have longer : 0 ∉ written ++ [c0] := by
        rw [List.mem_append, not_or, List.mem_singleton]
        exact ⟨unterminated, Ne.symm first⟩
      rw [Outcome, if_neg (lt_irrefl _)] at outcome
      have agrees := ih free (written ++ [c0]) longer (stable.invalid first nothing) outcome
      have total : written.length + (c0 :: rest).length =
          (written ++ [c0]).length + rest.length := by
        simp only [List.length_cons, List.length_append, List.length_nil]
        omega
      have imagesCons : written ++ images (⟨[c0], [c0], false⟩ :: later) =
          written ++ [c0] ++ images later := by
        rw [List.append_assoc]
        rfl
      rw [Remaps, if_neg (lt_irrefl _), ← agrees, total, imagesCons]
  | @character c0 more rest later ucs4char first decodes decodable length shortest scans ih =>
      intro nonzero written unterminated stable ok buffer outcome
      have free : 0 ∉ rest := fun member =>
        nonzero (List.mem_cons_of_mem c0 (List.mem_append_right more member))
      have imageLength := length_ucs4ToUtf8 (transformer ucs4char)
      have short : utf8CharLen (transformer ucs4char) ≤ more.length + 1 :=
        (maps.grows ucs4char).trans shortest
      rcases short.lt_or_eq with shorter | same
      · exact kept_character_iff maps nonzero decodes decodable shorter scans unterminated stable
          outcome
      · have mappedNonzero := same_nonzero maps first decodes length same
        have mappedSmall := maps.small ucs4char (decode_small nonzero decodes decodable)
        have unterminatedImage := ucs4ToUtf8_free mappedNonzero mappedSmall
        have longer : 0 ∉ written ++ ucs4ToUtf8 (transformer ucs4char) := by
          rw [List.mem_append, not_or]
          exact ⟨unterminated, unterminatedImage⟩
        have size : (c0 :: (more ++ rest)).length =
            (ucs4ToUtf8 (transformer ucs4char)).length + rest.length := by
          rw [imageLength, same, List.length_cons, List.length_append]
          omega
        rw [size] at stable
        simp only [Outcome, imageLength, List.length_cons, same, lt_irrefl, if_false] at outcome
        have agrees := ih free (written ++ ucs4ToUtf8 (transformer ucs4char)) longer
          (stable.character mappedNonzero mappedSmall (maps.again ucs4char)) outcome
        have total : written.length + (c0 :: (more ++ rest)).length =
            (written ++ ucs4ToUtf8 (transformer ucs4char)).length + rest.length := by
          rw [size, List.length_append, Nat.add_assoc]
        have remaps : Remaps transformer
            (⟨c0 :: more, ucs4ToUtf8 (transformer ucs4char), true⟩ :: later) ↔
              Remaps transformer later := by
          simp only [Remaps, imageLength, List.length_cons, same, lt_irrefl, if_false]
        have imagesCons :
            written ++ images (⟨c0 :: more, ucs4ToUtf8 (transformer ucs4char), true⟩ :: later) =
              written ++ ucs4ToUtf8 (transformer ucs4char) ++ images later := by
          rw [List.append_assoc]
          rfl
        rw [remaps, ← agrees, total, imagesCons]

end Remaps

end Blocxx.UTF8Utils
