import Blocxx.RegEx.Termination

/-!
This file proves when `split` of the regular expressions keeps everything around the separators.
-/

namespace Blocxx.RegEx

open Time CharString Library.Loop

/-- The matches from an offset on. Each is searched from the end of the one before. -/
inductive Chain (find : Nat → Option Match) : Nat → List Match → Prop
  | none {off : Nat} (last : find off = none) : Chain find off []
  | found {off : Nat} {whole : Match} {rest : List Match} (first : find off = some whole)
      (behind : Chain find whole.rm_eo.toNat rest) : Chain find off (whole :: rest)

/-- The substrings before, between and behind the matches. -/
def pieces (str : Text) : Nat → List Match → List Text
  | off, [] => [str.drop off]
  | off, whole :: rest =>
      substring str off (whole.rm_so.toNat - off) :: pieces str whole.rm_eo.toNat rest

def separators (str : Text) (found : List Match) : List Text :=
  found.map fun whole => substring str whole.rm_so.toNat (whole.rm_eo.toNat - whole.rm_so.toNat)

/-- The pieces with the separators between them. -/
def interleave : List Text → List Text → Text
  | piece :: rest, separator :: separators => piece ++ separator ++ interleave rest separators
  | rest, _ => rest.flatten

/-- The results of `split` for these matches of the string. -/
structure Lossless (splits : Bool → Except RegExException (List Text) → Prop) (str : Text)
    (found : List Match) : Prop where
  all : splits true (.ok (pieces str 0 found))
  count : (pieces str 0 found).length = found.length + 1
  interleaved : interleave (pieces str 0 found) (separators str found) = str
  nonEmpty : splits false (.ok ((pieces str 0 found).filter (· ≠ [])))

/-- No match ends at the end of the string. -/
def EndsBefore (str : Text) (found : List Match) : Prop :=
  ∀ whole ∈ found.getLast?, whole.rm_eo.toNat ≠ str.length

/-- What the search of a string finds behind an offset is not empty and in the string. -/
def FindsNonEmpty (str : Text) (find : Nat → Option Match) : Prop :=
  ∀ off whole, off ≤ str.length → find off = some whole →
    off ≤ whole.rm_so ∧ whole.rm_so < whole.rm_eo ∧ whole.rm_eo ≤ str.length

/-- The calls of `execute` answer what the search finds. -/
structure Engine.Answers (engine : Engine) (str : Text) (find : Nat → Option Match) : Prop where
  found : ∀ off whole, off ≤ str.length → find off = some whole →
    ∃ done others, engine.splitExecute str off = .ok done ∧ done.isMatch = true ∧
      done.rsub = whole :: others
  none : ∀ off, off ≤ str.length → find off = none →
    ∃ done, engine.splitExecute str off = .ok done ∧ done.isMatch = false ∧
      done.m_ecode = engine.noMatch

variable {engine : Engine} {str : Text} {find : Nat → Option Match} {off : Nat}
  {found : List Match}

/-- The matches of a string are there, since each takes some of it. -/
theorem exists_chain (nonEmpty : FindsNonEmpty str find) (inside : off ≤ str.length) :
    ∃ found, Chain find off found := by
  induction left : str.length - off using Nat.strong_induction_on generalizing off with
  | _ left ih =>
      cases first : find off with
      | none => exact ⟨[], .none first⟩
      | some whole =>
          obtain ⟨behind, some_, ends⟩ := nonEmpty off whole inside first
          obtain ⟨rest, chain⟩ := ih (str.length - whole.rm_eo.toNat) (by omega) (by omega) rfl
          exact ⟨whole :: rest, .found first chain⟩

/-- Nothing is found at the end of the string. -/
theorem Chain.eq_nil (nonEmpty : FindsNonEmpty str find) (chain : Chain find off found)
    (atEnd : off = str.length) : found = [] := by
  cases chain with
  | none last => rfl
  | found first behind =>
      obtain ⟨above, some_, ends⟩ := nonEmpty _ _ atEnd.le first
      omega

/-- The pieces that the loop writes. It stops behind a match at the end of the string. -/
def written (str : Text) : Nat → List Match → List Text
  | off, [] => [str.drop off]
  | off, whole :: rest => substring str off (whole.rm_so.toNat - off) ::
      if str.length > whole.rm_eo.toNat then written str whole.rm_eo.toNat rest else []

def kept (empty : Bool) (parts : List Text) : List Text :=
  if empty then parts else parts.filter (· ≠ [])

theorem kept_cons (empty : Bool) (piece : Text) (rest : List Text) :
    kept empty (piece :: rest) =
      (if empty ∨ piece ≠ [] then [piece] else []) ++ kept empty rest := by
  cases empty with
  | true => simp [kept]
  | false => by_cases none : piece = [] <;> simp [kept, none]

@[simp] theorem kept_nil (empty : Bool) : kept empty [] = [] := by
  cases empty <;> rfl

/-- A piece is added unless it is empty and these are left out. -/
theorem append_kept (empty : Bool) (ssub : List Text) (piece : Text) (rest : List Text) :
    (if empty ∨ piece ≠ [] then ssub ++ [piece] else ssub) ++ kept empty rest =
      ssub ++ kept empty (piece :: rest) := by
  rw [kept_cons]
  split
  · rw [List.append_assoc]
  · rfl

theorem substring_ne_nil {first last : Nat} (inside : last ≤ str.length) :
    substring str first (last - first) ≠ [] ↔ last > first := by
  rw [substring, ← List.length_pos_iff, List.length_take, List.length_drop]
  omega

/-- The loop adds the pieces to those that it has. -/
theorem splitBody_returns (answers : engine.Answers str find) (nonEmpty : FindsNonEmpty str find)
    (empty : Bool) (inside : off ≤ str.length) (chain : Chain find off found) (ssub : List Text) :
    Returns (engine.splitBody str empty) ⟨ssub, off⟩
      (.ok (ssub ++ kept empty (written str off found))) := by
  induction chain generalizing ssub with
  | @none off last =>
      obtain ⟨done, ran, noMatch, code⟩ := answers.none off inside last
      apply Returns.stop
      rw [Engine.splitBody, ran]
      dsimp only
      rw [noMatch, if_neg Bool.false_ne_true, if_pos code, written, ← append_kept, kept_nil,
        List.append_nil]
  | @found off whole rest first behind ih =>
      obtain ⟨done, others, ran, isMatch, captures⟩ := answers.found off whole inside first
      obtain ⟨above, some_, ends⟩ := nonEmpty off whole inside first
      have positive : ¬ (whole.rm_so < 0 ∨ whole.rm_eo < 0) := by omega
      have piece : (empty = true ∨ whole.rm_so.toNat > off) ↔
          (empty = true ∨ substring str off (whole.rm_so.toNat - off) ≠ []) := by
        rw [substring_ne_nil (by omega)]
      by_cases more : str.length > whole.rm_eo.toNat
      · have goes : engine.splitBody str empty ⟨ssub, off⟩ = .next
            ⟨if empty ∨ substring str off (whole.rm_so.toNat - off) ≠ [] then
              ssub ++ [substring str off (whole.rm_so.toNat - off)] else ssub,
              whole.rm_eo.toNat⟩ := by
          rw [Engine.splitBody, ran]
          simp only [isMatch, captures, positive, more, piece, if_true, if_false]
        have rest := ih (by omega) (if empty ∨ substring str off (whole.rm_so.toNat - off) ≠ [] then
          ssub ++ [substring str off (whole.rm_so.toNat - off)] else ssub)
        rw [append_kept] at rest
        rw [written, if_pos more]
        exact .next goes rest
      · apply Returns.stop
        rw [written, if_neg more, ← append_kept, kept_nil, List.append_nil, Engine.splitBody, ran]
        simp only [isMatch, captures, positive, more, piece, if_true, if_false]

/-- A match before the end of the string does not matter for the last one. -/
theorem endsBefore_cons {whole : Match} (more : str.length > whole.rm_eo.toNat) :
    EndsBefore str (whole :: found) ↔ EndsBefore str found := by
  cases found with
  | nil =>
      have before : whole.rm_eo.toNat ≠ str.length := by omega
      simp [EndsBefore, before]
  | cons next rest => simp [EndsBefore, List.getLast?_cons_cons]

theorem written_of_endsBefore (nonEmpty : FindsNonEmpty str find) (inside : off ≤ str.length)
    (chain : Chain find off found) (before : EndsBefore str found) :
    written str off found = pieces str off found := by
  induction chain with
  | none last => rfl
  | @found off whole rest first behind ih =>
      obtain ⟨above, some_, ends⟩ := nonEmpty off whole inside first
      by_cases more : str.length > whole.rm_eo.toNat
      · rw [written, if_pos more, ih (by omega) ((endsBefore_cons more).mp before), pieces]
      · have atEnd : whole.rm_eo.toNat = str.length := by omega
        obtain rfl := behind.eq_nil nonEmpty atEnd
        exact absurd atEnd (before whole rfl)

/-- The empty piece behind a match at the end of the string is left out. -/
theorem pieces_of_endsAt (nonEmpty : FindsNonEmpty str find) (inside : off ≤ str.length)
    (chain : Chain find off found) (ends : ¬ EndsBefore str found) :
    pieces str off found = written str off found ++ [[]] := by
  induction chain with
  | none last => exact absurd (fun whole member => by cases member) ends
  | @found off whole rest first behind ih =>
      obtain ⟨above, some_, within⟩ := nonEmpty off whole inside first
      by_cases more : str.length > whole.rm_eo.toNat
      · rw [pieces, written, if_pos more, ih (by omega) (mt (endsBefore_cons more).mpr ends),
          List.cons_append]
      · have atEnd : whole.rm_eo.toNat = str.length := by omega
        obtain rfl := behind.eq_nil nonEmpty atEnd
        rw [pieces, written, if_neg more, pieces, atEnd, List.drop_length]
        rfl

theorem pieces_length (str : Text) (off : Nat) (found : List Match) :
    (pieces str off found).length = found.length + 1 := by
  induction found generalizing off with
  | nil => rfl
  | cons whole rest ih => rw [pieces, List.length_cons, ih, List.length_cons]

theorem substring_append_drop {first last : Nat} (ordered : first ≤ last) :
    substring str first (last - first) ++ str.drop last = str.drop first := by
  have rest : str.drop last = (str.drop first).drop (last - first) := by
    rw [List.drop_drop, Nat.add_sub_cancel' ordered]
  rw [rest, substring, List.take_append_drop]

theorem interleave_pieces (nonEmpty : FindsNonEmpty str find) (inside : off ≤ str.length)
    (chain : Chain find off found) :
    interleave (pieces str off found) (separators str found) = str.drop off := by
  induction chain with
  | none last => simp [pieces, separators, interleave]
  | @found off whole rest first behind ih =>
      obtain ⟨above, some_, ends⟩ := nonEmpty off whole inside first
      show substring str off (whole.rm_so.toNat - off) ++
        substring str whole.rm_so.toNat (whole.rm_eo.toNat - whole.rm_so.toNat) ++
          interleave (pieces str whole.rm_eo.toNat rest) (separators str rest) = _
      rw [ih (by omega), List.append_assoc, substring_append_drop (by omega),
        substring_append_drop (by omega)]

/-- The pieces are kept exactly when no match ends at the end of the string. -/
theorem lossless_iff (answers : engine.Answers str find) (nonEmpty : FindsNonEmpty str find)
    (chain : Chain find 0 found) :
    Lossless (engine.Splits str) str found ↔ EndsBefore str found := by
  have returns (empty : Bool) :=
    splitBody_returns answers nonEmpty empty (Nat.zero_le _) chain []
  constructor
  · intro lossless
    by_contra ends
    have same := (returns true).unique lossless.all
    rw [pieces_of_endsAt nonEmpty (Nat.zero_le _) chain ends] at same
    simp [kept] at same
  · intro before
    have same := written_of_endsBefore nonEmpty (Nat.zero_le _) chain before
    rw [same] at returns
    constructor
    · exact returns true
    · exact pieces_length str 0 found
    · rw [interleave_pieces nonEmpty (Nat.zero_le _) chain, List.drop_zero]
    · exact returns false

theorem exists_lossless_iff {splits : Bool → Except RegExException (List Text) → Prop}
    (answers : engine.Answers str find) (nonEmpty : FindsNonEmpty str find)
    (same : ∀ empty result, splits empty result ↔ engine.Splits str empty result) :
    ∃ found, Chain find 0 found ∧ (Lossless splits str found ↔ EndsBefore str found) := by
  obtain ⟨found, chain⟩ := exists_chain nonEmpty (Nat.zero_le _)
  have equal : splits = engine.Splits str := by
    funext empty result
    exact propext (same empty result)
  rw [equal]
  exact ⟨found, chain, lossless_iff answers nonEmpty chain⟩

section Classes

/-- The match that `regexec` finds in the string from an offset on. -/
def PosixRegEx.firstMatch (regex : PosixRegEx) (str : Text) (off : Nat) : Option Match :=
  let answer := regex.regexec (cString (str.drop off)) 1
  if answer.1 = REG_NOERROR then some ⟨(answer.2 0).rm_so + off, (answer.2 0).rm_eo + off⟩ else none

/-- The expression is compiled to report what it matches, and `regexec` does not fail. -/
structure PosixRegEx.Searches (regex : PosixRegEx) : Prop where
  compiled : regex.compiled = true
  captures : regex.nosub = false
  decides : ∀ text, (regex.regexec text 1).1 = REG_NOERROR ∨ (regex.regexec text 1).1 = REG_NOMATCH

theorem PosixRegEx.answers {regex : PosixRegEx} (searches : regex.Searches) (str : Text) :
    regex.engine.Answers str (regex.firstMatch str) := by
  constructor
  · intro off whole inside first
    simp only [PosixRegEx.firstMatch] at first
    split at first
    · next code =>
        obtain ⟨above, ordered, -⟩ := regex.regexec_within _ _ code
        obtain rfl := Option.some.inj first
        refine ⟨⟨true, [_], REG_NOERROR, []⟩, [], ?_, rfl, rfl⟩
        have shown : ¬ (((regex.regexec (cString (str.drop off)) 1).2 0).rm_so < 0 ∨
            ((regex.regexec (cString (str.drop off)) 1).2 0).rm_eo < 0) := by omega
        simp [PosixRegEx.engine, PosixRegEx.execute, searches.compiled, searches.captures,
          not_lt.mpr inside, code, shown]
    · cases first
  · intro off inside none
    simp only [PosixRegEx.firstMatch] at none
    split at none
    · cases none
    · next code =>
        have noMatch := (searches.decides _).resolve_left code
        refine ⟨⟨false, [], REG_NOMATCH, regex.regerror REG_NOMATCH⟩, ?_, rfl, rfl⟩
        simp [PosixRegEx.engine, PosixRegEx.execute, searches.compiled, not_lt.mpr inside, noMatch,
          REG_NOMATCH, REG_NOERROR]

/-- The number of the pairs that `execute` asks for by default. -/
def pairs (captureCount : Int) : Nat := if captureCount > 0 then captureCount.toNat + 1 else 1

/-- The match that `pcre_exec` finds in the string from an offset on. -/
def PerlRegEx.firstMatch (regex : PerlRegEx) (captureCount : Int) (str : Text) (off : Nat) :
    Option Match :=
  let answer := regex.pcre_exec str off (pairs captureCount)
  if answer.1 > 0 then some (answer.2 0) else none

/-- The expression is compiled, and neither `pcre_fullinfo` nor `pcre_exec` fails. -/
structure PerlRegEx.Searches (regex : PerlRegEx) (captureCount : Int) : Prop where
  compiled : regex.compiled = true
  counted : regex.captureCount = some captureCount
  decides : ∀ text off, 0 < (regex.pcre_exec text off (pairs captureCount)).1 ∨
    (regex.pcre_exec text off (pairs captureCount)).1 = PCRE_ERROR_NOMATCH

theorem pairs_pos (captureCount : Int) : 0 < pairs captureCount := by
  unfold pairs
  split
  · exact Nat.succ_pos _
  · exact Nat.one_pos

theorem PerlRegEx.execute_default {regex : PerlRegEx} {captureCount : Int}
    (compiled : regex.compiled = true) (counted : regex.captureCount = some captureCount)
    {str : Text} {off : Nat} (inside : off ≤ str.length) :
    regex.execute str off 0 = .ok (regex.search str off (pairs captureCount)) := by
  simp [PerlRegEx.execute, compiled, counted, not_lt.mpr inside, INT_MAX, pairs]

theorem PerlRegEx.search_found {regex : PerlRegEx} {str : Text} {off count : Nat}
    (code : (regex.pcre_exec str off (count + 1)).1 > 0) : ∃ others,
      (regex.search str off (count + 1)).rsub =
        (regex.pcre_exec str off (count + 1)).2 0 :: others := by
  rw [PerlRegEx.search]
  simp only [code, if_true, List.range_succ_eq_map, List.map_cons]
  rw [if_neg (by push_cast; omega)]
  exact ⟨_, rfl⟩

theorem PerlRegEx.answers {regex : PerlRegEx} {captureCount : Int}
    (searches : regex.Searches captureCount) (str : Text) :
    regex.engine.Answers str (regex.firstMatch captureCount str) := by
  have ran {off : Nat} (inside : off ≤ str.length) :
      regex.engine.splitExecute str off = .ok (regex.search str off (pairs captureCount)) :=
    regex.execute_default searches.compiled searches.counted inside
  obtain ⟨count, same⟩ := Nat.exists_eq_succ_of_ne_zero (pairs_pos captureCount).ne'
  constructor
  · intro off whole inside first
    simp only [PerlRegEx.firstMatch] at first
    split at first
    · next code =>
        obtain rfl := Option.some.inj first
        rw [same] at code
        obtain ⟨others, captures⟩ := PerlRegEx.search_found code
        refine ⟨_, others, ran inside, ?_, ?_⟩
        · simp [PerlRegEx.search, same, code]
        · rw [same, captures]
    · cases first
  · intro off inside none
    simp only [PerlRegEx.firstMatch] at none
    split at none
    · cases none
    · next code =>
        refine ⟨_, ran inside, ?_, ?_⟩
        · simp [PerlRegEx.search, code]
        · simp only [PerlRegEx.search, code, if_false]
          exact (searches.decides str off).resolve_left code

/-- The matches lie in the string, and none of them is empty. -/
theorem PosixRegEx.findsNonEmpty {regex : PosixRegEx} {str : Text}
    (nonEmpty : ∀ off whole, regex.firstMatch str off = some whole → whole.rm_so < whole.rm_eo) :
    FindsNonEmpty str (regex.firstMatch str) := by
  intro off whole inside first
  have some_ := nonEmpty off whole first
  simp only [PosixRegEx.firstMatch] at first
  split at first
  · next code =>
      obtain ⟨above, ordered, ends⟩ := regex.regexec_within _ _ code
      have short := cString_length_le (str.drop off)
      rw [List.length_drop] at short
      obtain rfl := Option.some.inj first
      dsimp only at *
      omega
  · cases first

theorem PerlRegEx.findsNonEmpty {regex : PerlRegEx} {captureCount : Int} {str : Text}
    (nonEmpty : ∀ off whole, regex.firstMatch captureCount str off = some whole →
      whole.rm_so < whole.rm_eo) :
    FindsNonEmpty str (regex.firstMatch captureCount str) := by
  intro off whole inside first
  have some_ := nonEmpty off whole first
  simp only [PerlRegEx.firstMatch] at first
  split at first
  · next code =>
      obtain ⟨above, ordered, ends⟩ := regex.pcre_exec_within _ _ _ code
      obtain rfl := Option.some.inj first
      exact ⟨above, some_, ends⟩
  · cases first

/-- For both classes, every string and every matcher that finds no empty match: the pieces between
the matches are all kept exactly when no match ends at the end of the string. -/
theorem split_lossless_iff (str : Text) :
    (∀ regex : PosixRegEx, regex.Searches →
      (∀ off whole, regex.firstMatch str off = some whole → whole.rm_so < whole.rm_eo) →
      ∃ found, Chain (regex.firstMatch str) 0 found ∧
        (Lossless (regex.Splits str) str found ↔ EndsBefore str found)) ∧
    ∀ (regex : PerlRegEx) (captureCount : Int), regex.Searches captureCount →
      (∀ off whole, regex.firstMatch captureCount str off = some whole →
        whole.rm_so < whole.rm_eo) →
      ∃ found, Chain (regex.firstMatch captureCount str) 0 found ∧
        (Lossless (regex.Splits str) str found ↔ EndsBefore str found) := by
  constructor
  · intro regex searches nonEmpty
    apply exists_lossless_iff (regex.answers searches str) (regex.findsNonEmpty nonEmpty)
    simp [PosixRegEx.Splits, searches.compiled]
  · intro regex captureCount searches nonEmpty
    apply exists_lossless_iff (regex.answers searches str) (regex.findsNonEmpty nonEmpty)
    simp [PerlRegEx.Splits, searches.compiled]

end Classes

section Comma

/-- The pattern `,` of one comma. -/
def comma : PosixRegEx where
  compiled := true
  nosub := false
  re_nsub := 0
  regexec text _ :=
    if ',' ∈ text then
      (REG_NOERROR, fun n => if n = 0 then ⟨text.idxOf ',', text.idxOf ',' + 1⟩ else ⟨-1, -1⟩)
    else (REG_NOMATCH, fun _ => ⟨-1, -1⟩)
  regerror _ := []
  regexec_within text count found := by
    split at found
    · next member =>
        have inside := List.idxOf_lt_length_of_mem member
        rw [if_pos member]
        show Match.Within 0 text.length ⟨text.idxOf ',', text.idxOf ',' + 1⟩
        exact ⟨Int.natCast_nonneg _, by dsimp only; omega, by dsimp only; omega⟩
    · cases found

theorem comma_searches : comma.Searches := by
  refine ⟨rfl, rfl, fun text => ?_⟩
  simp only [comma]
  split
  · exact .inl rfl
  · exact .inr rfl

/-- `a,b` is split at the comma, which takes some of it. -/
theorem split_comma_keeps : ∃ found, Chain (comma.firstMatch ['a', ',', 'b']) 0 found ∧
    (Lossless (comma.Splits ['a', ',', 'b']) ['a', ',', 'b'] found ↔
      EndsBefore ['a', ',', 'b'] found) := by
  apply (split_lossless_iff ['a', ',', 'b']).1 comma comma_searches
  intro off whole first
  simp only [PosixRegEx.firstMatch] at first
  split at first
  · next code =>
      obtain rfl := Option.some.inj first
      simp only [comma] at code ⊢
      split at code
      · next member => simp [member]
      · cases code
  · cases first

/-- The empty piece behind the comma of `a,` is left out. -/
theorem split_comma_drops : comma.Searches ∧
    Chain (comma.firstMatch ['a', ',']) 0 [⟨1, 2⟩] ∧
    comma.Splits ['a', ','] true (.ok [['a']]) ∧
    ¬ Lossless (comma.Splits ['a', ',']) ['a', ','] [⟨1, 2⟩] := by
  have chain : Chain (comma.firstMatch ['a', ',']) 0 [⟨1, 2⟩] := .found rfl (.none rfl)
  have splits : comma.Splits ['a', ','] true (.ok [['a']]) := .stop rfl
  refine ⟨comma_searches, chain, splits, fun lossless => ?_⟩
  have same := splits.unique lossless.all
  simp [pieces] at same

end Comma

end Blocxx.RegEx
