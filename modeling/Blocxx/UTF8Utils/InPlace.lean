import Blocxx.UTF8Utils.Codec
import Blocxx.UTF8Utils.CaseMapping

/-!
This file finds the strings whose case `transformInPlace` maps like `transform`.
-/

namespace Blocxx.UTF8Utils
open Library

/-- What one iteration of the loops reads, what it writes, and whether it decodes a character. -/
structure Token where
  source : List UInt8
  image : List UInt8
  decodable : Bool

/-- The tokens at the start of the string, at most this many. -/
def scan (transformer : UInt32 → UInt32) : Nat → List UInt8 → List Token
  | 0, _ => []
  | _ + 1, [] => []
  | count + 1, c0 :: rest =>
      match utf8ToUcs4 (c0 :: rest) with
      | .error _ => []
      | .ok ucs4char =>
          if ucs4char = bad then ⟨[c0], [c0], false⟩ :: scan transformer count rest
          else
            ⟨(c0 :: rest).take (sequenceLength c0), ucs4ToUtf8 (transformer ucs4char), true⟩ ::
              scan transformer count ((c0 :: rest).drop (sequenceLength c0))

def tokens (transformer : UInt32 → UInt32) (input : List UInt8) : List Token :=
  scan transformer input.length input

/-- The bytes of the tokens. -/
def sources (tokens : List Token) : List UInt8 := tokens.flatMap Token.source

/-- The mapped bytes of the tokens. -/
def images (tokens : List Token) : List UInt8 := tokens.flatMap Token.image

/-- Behind the first character that becomes shorter no byte starts a character, and these bytes
stay the same when they are moved to the place where the shorter character ends. -/
def Fits : List Token → Prop
  | [] => True
  | token :: later =>
      if token.image.length < token.source.length then
        (∀ other ∈ later, other.decodable = false) ∧
          sources later <+: token.source.drop token.image.length ++ sources later
      else Fits later

/-- The rules of `scan` on a string without terminators. -/
inductive Scans (transformer : UInt32 → UInt32) : List UInt8 → List Token → Prop
  | done : Scans transformer [] []
  | invalid {c0 : UInt8} {rest : List UInt8} {later : List Token} (nonzero : c0 ≠ 0)
      (undecodable : utf8ToUcs4 (c0 :: rest) = .ok bad) (scans : Scans transformer rest later) :
      Scans transformer (c0 :: rest) (⟨[c0], [c0], false⟩ :: later)
  | character {c0 : UInt8} {more rest : List UInt8} {later : List Token} {ucs4char : UInt32}
      (nonzero : c0 ≠ 0) (decodes : utf8ToUcs4 (c0 :: (more ++ rest)) = .ok ucs4char)
      (decodable : ucs4char ≠ bad) (length : sequenceLength c0 = more.length + 1)
      (shortest : utf8CharLen ucs4char ≤ more.length + 1)
      (scans : Scans transformer rest later) :
      Scans transformer (c0 :: (more ++ rest))
        (⟨c0 :: more, ucs4ToUtf8 (transformer ucs4char), true⟩ :: later)

theorem utf8CharLen_le {ucs4char : UInt32} {length : Nat}
    (small : 1 ≤ length ∧ ucs4char.toNat < 0x80 ∨ 2 ≤ length ∧ ucs4char.toNat < 0x800 ∨
      3 ≤ length ∧ ucs4char.toNat < 0x10000 ∨ 4 ≤ length) : utf8CharLen ucs4char ≤ length := by
  simp only [utf8CharLen, UInt32.lt_iff_toNat_lt, UInt32.reduceToNat]
  split
  · omega
  · split
    · omega
    · split <;> omega

theorem ne_bad {ucs4char : UInt32} (small : ucs4char.toNat < 0x100000) : ucs4char ≠ bad := by
  rintro rfl
  exact absurd small (by decide)

/-- The first bytes of a string are a character. -/
def StartsCharacter (c0 : UInt8) (rest : List UInt8) : Prop :=
  ∃ more after ucs4char, rest = more ++ after ∧ sequenceLength c0 = more.length + 1 ∧
    utf8ToUcs4 (c0 :: rest) = .ok ucs4char ∧ ucs4char ≠ bad ∧
      utf8CharLen ucs4char ≤ more.length + 1

section Decode

variable {c0 : UInt8} {rest : List UInt8}

theorem sequenceLength_le (c0 : UInt8) : sequenceLength c0 ≤ 4 := by
  rw [sequenceLength_eq]
  split
  · decide
  · split
    · decide
    · split
      · decide
      · split
        · decide
        · split <;> decide

theorem decode_zero (nonzero : c0 ≠ 0) (lead : sequenceLength c0 = 0) :
    utf8ToUcs4 (c0 :: rest) = .ok bad := by
  simp [utf8ToUcs4, lead, nonzero, bind, Except.bind, pure, Except.pure]

theorem decode_one (nonzero : c0 ≠ 0) (lead : sequenceLength c0 = 1) : StartsCharacter c0 rest := by
  have ascii : c0.toUInt32.toNat < 0x80 := by
    rw [sequenceLength_eq] at lead
    rw [UInt8.toNat_toUInt32]
    by_contra large
    rw [if_neg large] at lead
    split at lead
    · cases lead
    · split at lead
      · cases lead
      · split at lead
        · cases lead
        · split at lead <;> cases lead
  refine ⟨[], rest, c0.toUInt32, rfl, lead, utf8ToUcs4_one lead nonzero, ne_bad (by omega), ?_⟩
  exact utf8CharLen_le (.inl ⟨le_rfl, ascii⟩)

/-- A string that ends inside of its first character is bad. -/
theorem decode_short (nonzero : c0 ≠ 0) (short : rest.length + 1 < sequenceLength c0) :
    utf8ToUcs4 (c0 :: rest) = .ok bad := by
  have most := sequenceLength_le c0
  obtain two | three | four :
      sequenceLength c0 = 2 ∨ sequenceLength c0 = 3 ∨ sequenceLength c0 = 4 := by
    omega
  · obtain rfl : rest = [] := List.eq_nil_of_length_eq_zero (by omega)
    simp [utf8ToUcs4, two, nonzero, readByte, bind, Except.bind, pure, Except.pure]
  · rcases rest with _ | ⟨c1, _ | ⟨c2, after⟩⟩
    · simp [utf8ToUcs4, three, nonzero, readByte, bind, Except.bind, pure, Except.pure]
    · simp [utf8ToUcs4, three, nonzero, readByte, bind, Except.bind, pure, Except.pure]
    · simp only [List.length_cons] at short
      omega
  · rcases rest with _ | ⟨c1, _ | ⟨c2, _ | ⟨c3, after⟩⟩⟩
    · simp [utf8ToUcs4, four, nonzero, readByte, bind, Except.bind, pure, Except.pure]
    · simp [utf8ToUcs4, four, nonzero, readByte, bind, Except.bind, pure, Except.pure]
    · simp [utf8ToUcs4, four, nonzero, readByte, bind, Except.bind, pure, Except.pure]
    · simp only [List.length_cons] at short
      omega

theorem decode_two (nonzero : 0 ∉ c0 :: rest) (lead : sequenceLength c0 = 2) :
    utf8ToUcs4 (c0 :: rest) = .ok bad ∨ StartsCharacter c0 rest := by
  have first : c0 ≠ 0 := lead_ne_zero lead (by decide)
  match rest with
  | [] => exact .inl (decode_short first (by simp [lead]))
  | c1 :: after =>
      simp only [List.mem_cons, not_or] at nonzero
      obtain ⟨c, decodes, value⟩ := utf8ToUcs4_two lead (Ne.symm nonzero.2.1)
      refine .inr ⟨[c1], after, c, rfl, lead, decodes, ne_bad (by omega), ?_⟩
      exact utf8CharLen_le (.inr (.inl ⟨le_rfl, by omega⟩))

theorem decode_three (nonzero : 0 ∉ c0 :: rest) (lead : sequenceLength c0 = 3) :
    utf8ToUcs4 (c0 :: rest) = .ok bad ∨ StartsCharacter c0 rest := by
  have first : c0 ≠ 0 := lead_ne_zero lead (by decide)
  simp only [List.mem_cons, not_or] at nonzero
  match rest with
  | [] => exact .inl (decode_short first (by simp [lead]))
  | [c1] => exact .inl (decode_short first (by simp [lead]))
  | c1 :: c2 :: after =>
      simp only [List.mem_cons, not_or] at nonzero
      obtain ⟨c, decodes, value⟩ :=
        utf8ToUcs4_three lead (Ne.symm nonzero.2.1) (Ne.symm nonzero.2.2.1)
      refine .inr ⟨[c1, c2], after, c, rfl, lead, decodes, ne_bad (by omega), ?_⟩
      exact utf8CharLen_le (.inr (.inr (.inl ⟨le_rfl, by omega⟩)))

theorem decode_four (nonzero : 0 ∉ c0 :: rest) (lead : sequenceLength c0 = 4) :
    utf8ToUcs4 (c0 :: rest) = .ok bad ∨ StartsCharacter c0 rest := by
  have first : c0 ≠ 0 := lead_ne_zero lead (by decide)
  simp only [List.mem_cons, not_or] at nonzero
  match rest with
  | [] => exact .inl (decode_short first (by simp [lead]))
  | [c1] => exact .inl (decode_short first (by simp [lead]))
  | [c1, c2] => exact .inl (decode_short first (by simp [lead]))
  | c1 :: c2 :: c3 :: after =>
      simp only [List.mem_cons, not_or] at nonzero
      obtain ⟨c, decodes, value⟩ := utf8ToUcs4_four lead (Ne.symm nonzero.2.1)
        (Ne.symm nonzero.2.2.1) (Ne.symm nonzero.2.2.2.1)
      refine .inr ⟨[c1, c2, c3], after, c, rfl, lead, decodes, ne_bad (by omega), ?_⟩
      exact utf8CharLen_le (.inr (.inr (.inr le_rfl)))

/-- The first bytes of a string start a character, or the decoder calls them bad. -/
theorem decode_cases (nonzero : 0 ∉ c0 :: rest) :
    utf8ToUcs4 (c0 :: rest) = .ok bad ∨ StartsCharacter c0 rest := by
  have first : c0 ≠ 0 := by
    rintro rfl
    exact nonzero List.mem_cons_self
  have short := sequenceLength_le c0
  obtain zero | one | two | three | four : sequenceLength c0 = 0 ∨ sequenceLength c0 = 1 ∨
      sequenceLength c0 = 2 ∨ sequenceLength c0 = 3 ∨ sequenceLength c0 = 4 := by
    omega
  · exact .inl (decode_zero first zero)
  · exact .inr (decode_one first one)
  · exact decode_two nonzero two
  · exact decode_three nonzero three
  · exact decode_four nonzero four

end Decode

section Loops

variable {transformer : UInt32 → UInt32} {input : List UInt8} {later : List Token}

/-- The scan of a string follows the rules. -/
theorem scans_scan (transformer : UInt32 → UInt32) (count : Nat) : ∀ input : List UInt8,
    0 ∉ input → input.length ≤ count →
      Scans transformer input (scan transformer count input) := by
  induction count with
  | zero =>
      intro input _ short
      obtain rfl : input = [] := List.eq_nil_of_length_eq_zero (by omega)
      exact .done
  | succ count ih =>
      intro input nonzero short
      cases input with
      | nil => exact .done
      | cons c0 rest =>
          have first : c0 ≠ 0 := by
            rintro rfl
            exact nonzero List.mem_cons_self
          rw [List.length_cons] at short
          rw [scan]
          rcases decode_cases nonzero with
            undecodable | ⟨more, after, ucs4char, rfl, length, decodes, decodable, shortest⟩
          · have free : 0 ∉ rest := fun member => nonzero (List.mem_cons_of_mem c0 member)
            have scans := ih rest free (by omega)
            rw [undecodable]
            dsimp only
            rw [if_pos rfl]
            exact .invalid first undecodable scans
          · rw [List.length_append] at short
            have free : 0 ∉ after := by
              intro member
              exact nonzero (List.mem_cons_of_mem c0 (List.mem_append_right more member))
            have scans := ih after free (by omega)
            rw [decodes]
            dsimp only
            rw [if_neg decodable, length, List.take_succ_cons, List.drop_succ_cons,
              List.take_left, List.drop_left]
            exact .character first decodes decodable length shortest scans

theorem Scans.sources_eq (scans : Scans transformer input later) : sources later = input := by
  induction scans with
  | done => rfl
  | invalid nonzero undecodable scans ih =>
      rw [sources, List.flatMap_cons, ← sources, ih]
      rfl
  | character nonzero decodes decodable length shortest scans ih =>
      rw [sources, List.flatMap_cons, ← sources, ih]
      rfl

/-- `transform` returns the images of the tokens. -/
theorem copy_returns (scans : Scans transformer input later) : ∀ rval,
    Loop.Returns (copyBody transformer) ⟨input, rval⟩ (.ok (rval ++ images later)) := by
  induction scans with
  | done =>
      intro rval
      rw [images, List.flatMap_nil, List.append_nil]
      exact .stop rfl
  | @invalid c0 rest later nonzero undecodable scans ih =>
      intro rval
      have goes : copyBody transformer ⟨c0 :: rest, rval⟩ = .next ⟨rest, rval ++ [c0]⟩ := by
        simp [copyBody, copyIteration, undecodable, nonzero, advance, orFault, bind, Except.bind,
          pure, Except.pure]
      have returns := ih (rval ++ [c0])
      rw [List.append_assoc] at returns
      exact .next goes returns
  | @character c0 more rest later ucs4char nonzero decodes decodable length shortest scans ih =>
      intro rval
      have goes : copyBody transformer ⟨c0 :: (more ++ rest), rval⟩ =
          .next ⟨rest, rval ++ ucs4ToUtf8 (transformer ucs4char)⟩ := by
        simp [copyBody, copyIteration, decodes, decodable, nonzero, advance, length, orFault, bind,
          Except.bind, pure, Except.pure]
      have returns := ih (rval ++ ucs4ToUtf8 (transformer ucs4char))
      rw [List.append_assoc] at returns
      exact .next goes returns

/-- Where nothing is decoded, nothing is changed. -/
theorem Scans.images_eq (scans : Scans transformer input later)
    (undecodable : ∀ other ∈ later, other.decodable = false) : images later = input := by
  induction scans with
  | done => rfl
  | invalid nonzero bad scans ih =>
      rw [images, List.flatMap_cons, ← images,
        ih fun other member => undecodable other (List.mem_cons_of_mem _ member)]
      rfl
  | character => cases undecodable _ List.mem_cons_self

section Buffer

variable {written gap front rest bytes : List UInt8} {c0 : UInt8} {position : Nat}

theorem read_at : (InPlace.mk (front ++ c0 :: rest) front.length position).read = .ok c0 := by
  simp [InPlace.read]

theorem string_at (nonzero : 0 ∉ input) :
    (InPlace.mk (front ++ (input ++ [0])) front.length position).string = input := by
  have inside : ∀ byte ∈ input, decide (byte ≠ 0) = true := by
    intro byte member
    have different : byte ≠ 0 := fun zero => nonzero (zero ▸ member)
    simpa using different
  rw [InPlace.string, List.drop_left, List.takeWhile_append_of_pos inside,
    List.takeWhile_cons_of_neg (by simp), List.append_nil]

theorem write_at (room : bytes.length ≤ rest.length) :
    (InPlace.mk (written ++ rest) position written.length).write bytes =
      .ok (written ++ (bytes ++ rest.drop bytes.length)) := by
  have inside : written.length + bytes.length ≤ (written ++ rest).length := by
    rw [List.length_append]
    exact Nat.add_le_add_left room written.length
  have behind : (written ++ rest).drop (written.length + bytes.length) =
      rest.drop bytes.length := by
    rw [List.drop_append, List.drop_of_length_le (Nat.le_add_right _ _), List.nil_append,
      Nat.add_sub_cancel_left]
  rw [InPlace.write, if_pos inside, List.take_left, behind]

variable (transformer) in
/-- At the terminator the terminator of the result is written. -/
theorem inPlace_end (written gap : List UInt8) :
    inPlaceBody transformer
        ⟨written ++ (gap ++ [0]), written.length + gap.length, written.length⟩ =
      .stop (.ok (true, written ++ (0 :: (gap ++ [0]).drop 1))) := by
  have reads : (InPlace.mk (written ++ (gap ++ [0])) (written.length + gap.length)
      written.length).read = .ok 0 := by
    rw [← List.append_assoc, ← List.length_append]
    exact read_at
  have writes : (InPlace.mk (written ++ (gap ++ [0])) (written.length + gap.length)
      written.length).write [0] = .ok (written ++ ([0] ++ (gap ++ [0]).drop 1)) :=
    write_at (by simp)
  simp only [inPlaceBody, inPlaceIteration, reads, writes, bind, Except.bind, pure, Except.pure,
    orFault, if_true, List.singleton_append]

variable (transformer) in
/-- A bad byte is stepped over. -/
theorem inPlace_invalid (nonzero : 0 ∉ c0 :: rest)
    (undecodable : utf8ToUcs4 (c0 :: rest) = .ok bad) (front : List UInt8) (output : Nat) :
    inPlaceBody transformer ⟨front ++ (c0 :: rest ++ [0]), front.length, output⟩ =
      .next ⟨front ++ (c0 :: rest ++ [0]), front.length + 1, output + 1⟩ := by
  have first : c0 ≠ 0 := by
    rintro rfl
    exact nonzero List.mem_cons_self
  have reads : (InPlace.mk (front ++ (c0 :: rest ++ [0])) front.length output).read = .ok c0 :=
    read_at
  simp only [inPlaceBody, inPlaceIteration, reads, string_at nonzero, undecodable, first, bind,
    Except.bind, pure, Except.pure, orFault, if_true, if_false]

/-- A character behind a shorter one ends the loop. -/
theorem inPlace_behind (nonzero : 0 ∉ c0 :: rest) {ucs4char : UInt32}
    (decodes : utf8ToUcs4 (c0 :: rest) = .ok ucs4char) (decodable : ucs4char ≠ bad)
    (front : List UInt8) {output : Nat} (behind : output < front.length) :
    inPlaceBody transformer ⟨front ++ (c0 :: rest ++ [0]), front.length, output⟩ =
      .stop (.ok (false, front ++ (c0 :: rest ++ [0]))) := by
  have first : c0 ≠ 0 := by
    rintro rfl
    exact nonzero List.mem_cons_self
  have reads : (InPlace.mk (front ++ (c0 :: rest ++ [0])) front.length output).read = .ok c0 :=
    read_at
  simp only [inPlaceBody, inPlaceIteration, reads, string_at nonzero, decodes, decodable, first,
    behind, bind, Except.bind, pure, Except.pure, orFault, if_true, if_false]

/-- A character at the place of its image is overwritten by it. -/
theorem inPlace_character {more : List UInt8} (nonzero : 0 ∉ c0 :: (more ++ rest))
    {ucs4char : UInt32} (decodes : utf8ToUcs4 (c0 :: (more ++ rest)) = .ok ucs4char)
    (decodable : ucs4char ≠ bad) (length : sequenceLength c0 = more.length + 1)
    (short : utf8CharLen (transformer ucs4char) ≤ more.length + 1) (written : List UInt8) :
    inPlaceBody transformer
        ⟨written ++ (c0 :: (more ++ rest) ++ [0]), written.length, written.length⟩ =
      .next ⟨written ++ ucs4ToUtf8 (transformer ucs4char) ++
          ((c0 :: more).drop (utf8CharLen (transformer ucs4char)) ++ (rest ++ [0])),
        written.length + (more.length + 1),
        written.length + utf8CharLen (transformer ucs4char)⟩ := by
  have first : c0 ≠ 0 := by
    rintro rfl
    exact nonzero List.mem_cons_self
  have imageLength := length_ucs4ToUtf8 (transformer ucs4char)
  have reads : (InPlace.mk (written ++ (c0 :: (more ++ rest) ++ [0])) written.length
      written.length).read = .ok c0 := read_at
  have writes : (InPlace.mk (written ++ (c0 :: (more ++ rest) ++ [0])) written.length
      written.length).write (ucs4ToUtf8 (transformer ucs4char)) = .ok (written ++
        (ucs4ToUtf8 (transformer ucs4char) ++
          (c0 :: (more ++ rest) ++ [0]).drop (ucs4ToUtf8 (transformer ucs4char)).length)) := by
    apply write_at
    simp only [List.cons_append, List.length_cons, List.length_append]
    omega
  have keeps : (c0 :: (more ++ rest) ++ [0]).drop (utf8CharLen (transformer ucs4char)) =
      (c0 :: more).drop (utf8CharLen (transformer ucs4char)) ++ (rest ++ [0]) := by
    have parts : c0 :: (more ++ rest) ++ [0] = (c0 :: more) ++ (rest ++ [0]) := by simp
    rw [parts, List.drop_append_of_le_length (by simpa using short)]
  rw [imageLength, keeps] at writes
  simp only [inPlaceBody, inPlaceIteration, reads, string_at nonzero, decodes, decodable, first,
    writes, length, gt_iff_lt, lt_irrefl, bind, Except.bind, pure, Except.pure, orFault, if_false,
    List.append_assoc]

/-- Behind a character that becomes shorter the loop reads in front of the place that it writes. -/
theorem inPlace_shorter {more : List UInt8} (nonzero : 0 ∉ c0 :: (more ++ rest))
    {ucs4char : UInt32} (decodes : utf8ToUcs4 (c0 :: (more ++ rest)) = .ok ucs4char)
    (decodable : ucs4char ≠ bad) (length : sequenceLength c0 = more.length + 1)
    (shorter : utf8CharLen (transformer ucs4char) < more.length + 1) (written : List UInt8) :
    inPlaceBody transformer
        ⟨written ++ (c0 :: (more ++ rest) ++ [0]), written.length, written.length⟩ =
      .next ⟨written ++ ucs4ToUtf8 (transformer ucs4char) ++
          (c0 :: more).drop (utf8CharLen (transformer ucs4char)) ++ (rest ++ [0]),
        (written ++ ucs4ToUtf8 (transformer ucs4char) ++
          (c0 :: more).drop (utf8CharLen (transformer ucs4char))).length,
        (written ++ ucs4ToUtf8 (transformer ucs4char)).length⟩ := by
  have imageLength := length_ucs4ToUtf8 (transformer ucs4char)
  have position : (written ++ ucs4ToUtf8 (transformer ucs4char) ++
      (c0 :: more).drop (utf8CharLen (transformer ucs4char))).length =
        written.length + (more.length + 1) := by
    simp only [List.length_append, List.length_drop, List.length_cons, imageLength]
    omega
  have end_ : (written ++ ucs4ToUtf8 (transformer ucs4char)).length =
      written.length + utf8CharLen (transformer ucs4char) := by
    rw [List.length_append, imageLength]
  rw [position, end_, List.append_assoc (written ++ _)]
  exact inPlace_character nonzero decodes decodable length shorter.le written

/-- A character that keeps its size is replaced. -/
theorem inPlace_same {more : List UInt8} (nonzero : 0 ∉ c0 :: (more ++ rest))
    {ucs4char : UInt32} (decodes : utf8ToUcs4 (c0 :: (more ++ rest)) = .ok ucs4char)
    (decodable : ucs4char ≠ bad) (length : sequenceLength c0 = more.length + 1)
    (same : utf8CharLen (transformer ucs4char) = more.length + 1) (written : List UInt8) :
    inPlaceBody transformer
        ⟨written ++ (c0 :: (more ++ rest) ++ [0]), written.length, written.length⟩ =
      .next ⟨written ++ ucs4ToUtf8 (transformer ucs4char) ++ (rest ++ [0]),
        (written ++ ucs4ToUtf8 (transformer ucs4char)).length,
        (written ++ ucs4ToUtf8 (transformer ucs4char)).length⟩ := by
  have goes := inPlace_character nonzero decodes decodable length same.le written
  have end_ : (written ++ ucs4ToUtf8 (transformer ucs4char)).length =
      written.length + (more.length + 1) := by
    rw [List.length_append, length_ucs4ToUtf8, same]
  have noGap : (c0 :: more).drop (utf8CharLen (transformer ucs4char)) = [] := by
    rw [List.drop_eq_nil_iff, List.length_cons, same]
  rw [noGap, List.nil_append, same] at goes
  rw [end_]
  exact goes

end Buffer

/-- Behind its read position the loop steps over bad bytes up to the first character. -/
theorem behind_returns (scans : Scans transformer input later) : 0 ∉ input →
    ∀ written gap : List UInt8, gap ≠ [] → ∃ ok buffer, Loop.Returns (inPlaceBody transformer)
        ⟨written ++ gap ++ (input ++ [0]), (written ++ gap).length, written.length⟩
        (.ok (ok, buffer)) ∧
      (ok = true ↔ ∀ other ∈ later, other.decodable = false) ∧
      (ok = true →
        ∃ rest, buffer = written ++ ((gap ++ input).take input.length ++ 0 :: rest)) := by
  induction scans with
  | done =>
      intro _ written gap _
      refine ⟨true, written ++ (0 :: (gap ++ [0]).drop 1), ?_, by simp, ?_⟩
      · rw [List.append_assoc, List.nil_append, List.length_append]
        exact .stop (inPlace_end transformer written gap)
      · intro _
        exact ⟨(gap ++ [0]).drop 1, by simp⟩
  | @invalid c0 rest later first undecodable scans ih =>
      intro nonzero written gap behind
      obtain ⟨byte, more, rfl⟩ := List.exists_cons_of_ne_nil behind
      have goes := inPlace_invalid transformer nonzero undecodable
        (written ++ byte :: more) written.length
      obtain ⟨ok, buffer, returns, passes, moved⟩ :=
        ih (fun member => nonzero (List.mem_cons_of_mem c0 member)) (written ++ [byte])
          (more ++ [c0]) (by simp)
      refine ⟨ok, buffer, .next goes ?_, ?_, ?_⟩
      · simpa [Nat.add_assoc] using returns
      · rw [passes]
        simp
      · intro done
        obtain ⟨tail, same⟩ := moved done
        refine ⟨tail, ?_⟩
        simpa using same
  | @character c0 more rest later ucs4char first decodes decodable length shortest scans ih =>
      intro nonzero written gap behind
      have lower : written.length < (written ++ gap).length := by
        rw [List.length_append]
        have some := List.length_pos_of_ne_nil behind
        omega
      refine ⟨false, _, .stop (inPlace_behind nonzero decodes decodable (written ++ gap) lower),
        ?_, ?_⟩
      · simp
      · intro impossible
        cases impossible

/-- The moved bytes are the old ones exactly when these repeat themselves. -/
theorem moved_iff (gap rest tail : List UInt8) :
    (∃ other, (gap ++ rest).take rest.length ++ 0 :: tail = rest ++ 0 :: other) ↔
      rest <+: gap ++ rest := by
  have length : ((gap ++ rest).take rest.length).length = rest.length := by
    rw [List.length_take, List.length_append]
    omega
  rw [List.prefix_iff_eq_take]
  constructor
  · rintro ⟨other, same⟩
    exact (List.append_inj same length).1.symm
  · intro same
    exact ⟨tail, by rw [← same]⟩

/-- The call returns true and leaves the images exactly when the tokens fit. -/
theorem inPlace_returns (grows : NeverGrows transformer) (scans : Scans transformer input later) :
    0 ∉ input → ∀ written : List UInt8, ∃ ok buffer, Loop.Returns (inPlaceBody transformer)
        ⟨written ++ (input ++ [0]), written.length, written.length⟩ (.ok (ok, buffer)) ∧
      ((ok = true ∧ ∃ rest, buffer = written ++ (images later ++ 0 :: rest)) ↔ Fits later) := by
  induction scans with
  | done =>
      intro _ written
      refine ⟨true, written ++ [0], .stop (inPlace_end transformer written []), ?_⟩
      simp [Fits, images]
  | @invalid c0 rest later first undecodable scans ih =>
      intro nonzero written
      have goes := inPlace_invalid transformer nonzero undecodable written
        written.length
      obtain ⟨ok, buffer, returns, agrees⟩ :=
        ih (fun member => nonzero (List.mem_cons_of_mem c0 member)) (written ++ [c0])
      refine ⟨ok, buffer, .next goes ?_, ?_⟩
      · simpa using returns
      · have same : Fits (⟨[c0], [c0], false⟩ :: later) ↔ Fits later := by
          rw [Fits, if_neg (lt_irrefl _)]
        rw [same, ← agrees]
        simp [images]
  | @character c0 more rest later ucs4char first decodes decodable length shortest scans ih =>
      intro nonzero written
      have free : 0 ∉ rest := fun member =>
        nonzero (List.mem_cons_of_mem c0 (List.mem_append_right more member))
      have imageLength := length_ucs4ToUtf8 (transformer ucs4char)
      have short : utf8CharLen (transformer ucs4char) ≤ more.length + 1 :=
        (grows ucs4char).trans shortest
      have imagesCons : images (⟨c0 :: more, ucs4ToUtf8 (transformer ucs4char), true⟩ :: later) =
          ucs4ToUtf8 (transformer ucs4char) ++ images later := rfl
      rw [imagesCons, Fits, imageLength, List.length_cons]
      rcases short.lt_or_eq with shorter | same
      · have goes := inPlace_shorter nonzero decodes decodable length shorter written
        have behind : (c0 :: more).drop (utf8CharLen (transformer ucs4char)) ≠ [] := by
          rw [Ne, List.drop_eq_nil_iff, List.length_cons]
          omega
        obtain ⟨ok, buffer, returns, passes, moved⟩ := behind_returns scans free
          (written ++ ucs4ToUtf8 (transformer ucs4char)) _ behind
        refine ⟨ok, buffer, .next goes returns, ?_⟩
        rw [if_pos shorter, ← passes, scans.sources_eq]
        apply and_congr_right
        intro done
        obtain ⟨tail, ends⟩ := moved done
        rw [scans.images_eq (passes.mp done), ends, ← moved_iff _ rest tail]
        simp only [List.append_assoc, List.append_cancel_left_eq]
      · have goes := inPlace_same nonzero decodes decodable length same written
        obtain ⟨ok, buffer, returns, agrees⟩ :=
          ih free (written ++ ucs4ToUtf8 (transformer ucs4char))
        refine ⟨ok, buffer, .next goes returns, ?_⟩
        rw [if_neg (by omega), ← agrees]
        simp only [List.append_assoc]

end Loops

/-- The call in place returns true and leaves the string of the other function with a terminator.
A read or a write behind the terminator of the input would be a fault. -/
def InPlaceAgrees (copying : Nat → List UInt8 → Option (Except Fault (List UInt8)))
    (inPlace : Nat → List UInt8 → Option (Except Fault (Bool × List UInt8)))
    (input : List UInt8) : Prop :=
  ∃ fuel result rest, copying fuel input = some (.ok result) ∧
    inPlace fuel input = some (.ok (true, result ++ 0 :: rest))

/-- The two functions agree exactly when the tokens of the input fit. -/
theorem inPlaceAgrees_iff {transformer : UInt32 → UInt32} (grows : NeverGrows transformer)
    {input : List UInt8} (free : 0 ∉ input) :
    InPlaceAgrees (transform · · transformer) (transformInPlace · · transformer) input ↔
      Fits (tokens transformer input) := by
  have scans : Scans transformer input (tokens transformer input) :=
    scans_scan transformer input.length input free le_rfl
  obtain ⟨first, copies⟩ := copy_returns scans []
  obtain ⟨ok, buffer, ⟨second, maps⟩, agrees⟩ := inPlace_returns grows scans free []
  simp only [List.nil_append, List.length_nil] at copies maps agrees
  rw [← agrees]
  constructor
  · rintro ⟨fuel, result, rest, copied, mapped⟩
    obtain rfl : result = _ := Except.ok.inj (Loop.Returns.unique ⟨fuel, copied⟩ ⟨first, copies⟩)
    have same := Except.ok.inj (Loop.Returns.unique ⟨second, maps⟩ ⟨fuel, mapped⟩)
    obtain ⟨rfl, rfl⟩ := Prod.mk.inj same
    exact ⟨rfl, rest, rfl⟩
  · rintro ⟨rfl, rest, rfl⟩
    refine ⟨max first second, images (tokens transformer input), rest, ?_, ?_⟩
    · exact Loop.run_mono (le_max_left first second) copies
    · exact Loop.run_mono (le_max_right first second) maps

/-- Case mapping in place agrees with the copying functions exactly when the tokens fit. -/
theorem case_mapping_in_place_iff (input : List UInt8) (free : 0 ∉ input) :
    (InPlaceAgrees toLowerCase toLowerCaseInPlace input ↔
        Fits (tokens (transformer lowerMappings) input)) ∧
      (InPlaceAgrees toUpperCase toUpperCaseInPlace input ↔
        Fits (tokens (transformer upperMappings) input)) :=
  ⟨inPlaceAgrees_iff neverGrows_lower free, inPlaceAgrees_iff neverGrows_upper free⟩

theorem case_mapping_in_place_iff_letter :
    (InPlaceAgrees toLowerCase toLowerCaseInPlace [0x41] ↔
        Fits (tokens (transformer lowerMappings) [0x41])) ∧
      (InPlaceAgrees toUpperCase toUpperCaseInPlace [0x41] ↔
        Fits (tokens (transformer upperMappings) [0x41])) :=
  case_mapping_in_place_iff [0x41] (by decide)

/-- The Kelvin sign becomes shorter, and the call gives up at the letter behind it. -/
theorem kelvin_not_in_place :
    ¬ InPlaceAgrees toLowerCase toLowerCaseInPlace [0xE2, 0x84, 0xAA, 0x78] := by
  rintro ⟨fuel, result, rest, _, mapped⟩
  have stops : toLowerCaseInPlace 3 [0xE2, 0x84, 0xAA, 0x78] =
      some (.ok (false, [0x6B, 0x84, 0xAA, 0x78, 0])) := by
    decide +kernel
  have same := Loop.Returns.unique ⟨fuel, mapped⟩ ⟨3, stops⟩
  cases same

end Blocxx.UTF8Utils
