import Blocxx.String.Trim
import Mathlib.Data.List.Forall2

/-!
This file embeds `String::tokenize` with the buffer that it fills, and proves which strings its
tokens give back.
-/

namespace Blocxx.Strings

open Library Library.Memory BinarySerialization

inductive EReturnDelimitersFlag where
  | E_DISCARD_DELIMITERS
  | E_RETURN_DELIMITERS
  deriving DecidableEq

inductive EEmptyTokenReturnFlag where
  | E_SKIP_EMPTY_TOKENS
  | E_RETURN_EMPTY_TOKENS
  deriving DecidableEq

open EReturnDelimitersFlag EEmptyTokenReturnFlag

/-- The constructor from a character. -/
def ofChar (c : UInt8) : CowString := if c ≠ 0 then ofBytes (some [c]) else none

/-- The variables of the loop. -/
structure Tokens where
  ra : List CowString
  data : Memory
  i : Nat
  last_was_delim : Bool

/-- The token in the buffer ends. -/
def Tokens.finishToken (tokens : Tokens) : Option Tokens := do
  if (← tokens.data.byteAt 0) ≠ 0 then
    return { tokens with
      ra := tokens.ra ++ [← ofCString tokens.data]
      data := ← tokens.data.writeByte 0 0 }
  return tokens

section Embedding

variable (delims : CString) (returnDelimitersAsTokens : EReturnDelimitersFlag)
  (returnEmptyTokens : EEmptyTokenReturnFlag)

/-- The empty token between two delimiters. -/
def Tokens.emptyToken (tokens : Tokens) : List CowString :=
  if returnEmptyTokens = E_RETURN_EMPTY_TOKENS ∧ tokens.last_was_delim = true then [none] else []

/-- One step of the loop. It has no result when the index `i` is not an `int` any more. -/
def Tokens.step (tokens : Tokens) (c : UInt8) : Option Tokens := do
  if c ∈ delims.bytes then
    let tokens ← tokens.finishToken
    let delimiter := if returnDelimitersAsTokens = E_RETURN_DELIMITERS then [ofChar c] else []
    return { tokens with
      ra := tokens.ra ++ tokens.emptyToken returnEmptyTokens ++ delimiter
      i := 0
      last_was_delim := true }
  else if tokens.i + 1 < 2 ^ 31 then
    let data ← tokens.data.writeByte tokens.i c
    return { tokens with
      data := ← data.writeByte (tokens.i + 1) 0
      i := tokens.i + 1
      last_was_delim := false }
  else none

/-- What follows the loop. -/
def Tokens.finish (tokens : Tokens) : Option (List CowString) := do
  if (← tokens.data.byteAt 0) ≠ 0 then
    return tokens.ra ++ [← ofCString tokens.data]
  return tokens.ra ++ tokens.emptyToken returnEmptyTokens

def tokenize (str : CowString) (delims : Option CString)
    (returnDelimitersAsTokens : EReturnDelimitersFlag)
    (returnEmptyTokens : EEmptyTokenReturnFlag) : Option (List CowString) :=
  if length str = 0 then some []
  else
    match delims with
    | none => some [copy str]
    | some delims => do
        let data ← (allocate (length str + 1)).writeByte 0 0
        let start : Tokens := { ra := [], data, i := 0, last_was_delim := false }
        let tokens ← (cString (memory str)).foldlM
          (Tokens.step delims returnDelimitersAsTokens returnEmptyTokens) start
        tokens.finish returnEmptyTokens

/-- The tokens of the rest of a string behind the run of characters that are in the buffer. -/
def tokensFrom (run : Bytes) (last_was_delim : Bool) : Bytes → List Bytes
  | [] =>
      if run ≠ [] then [run]
      else if returnEmptyTokens = E_RETURN_EMPTY_TOKENS ∧ last_was_delim = true then [[]] else []
  | c :: rest =>
      if c ∈ delims.bytes then
        (if run ≠ [] then [run] else []) ++
          (if returnEmptyTokens = E_RETURN_EMPTY_TOKENS ∧ last_was_delim = true then [[]] else []) ++
          (if returnDelimitersAsTokens = E_RETURN_DELIMITERS then [[c]] else []) ++
          tokensFrom [] true rest
      else tokensFrom (run ++ [c]) false rest

end Embedding

/-- The buffer has the current run, in front of enough room for the rest of the string. -/
structure Holds (tokens : Tokens) (run : Bytes) (room : Nat) : Prop where
  data : ∃ rest, tokens.data = run.map some ++ some 0 :: rest ∧ room ≤ rest.length
  i : tokens.i = run.length
  free : (0 : UInt8) ∉ run

theorem Holds.less {tokens : Tokens} {run : Bytes} {room : Nat}
    (holds : Holds tokens run (room + 1)) : Holds tokens run room := by
  obtain ⟨⟨rest, same, enough⟩, index, free⟩ := holds
  exact ⟨⟨rest, same, Nat.le_of_succ_le enough⟩, index, free⟩

section Steps

variable {delims : CString} {returnDelimitersAsTokens : EReturnDelimitersFlag}
  {returnEmptyTokens : EEmptyTokenReturnFlag}

theorem byteAt_zero (run : Bytes) (rest : Memory) :
    byteAt (run.map some ++ some 0 :: rest) 0 = some (run.headD 0) := by
  cases run <;> rfl

theorem headD_ne_zero {run : Bytes} (free : (0 : UInt8) ∉ run) : run.headD 0 ≠ 0 ↔ run ≠ [] := by
  cases run with
  | nil => exact iff_of_false (not_not.mpr rfl) (not_not.mpr rfl)
  | cons c run =>
      rw [List.mem_cons, not_or] at free
      exact iff_of_true (Ne.symm free.1) (List.cons_ne_nil c run)

theorem ofCString_run {run : Bytes} (free : (0 : UInt8) ∉ run) (rest : Memory) :
    ofCString (run.map some ++ some 0 :: rest) = some (ofBytes (some run)) := by
  rw [ofCString_terminated (terminated_written run rest), cString_append free]

/-- The end of a token appends the run and empties the buffer. -/
theorem finishToken_spec {tokens : Tokens} {run : Bytes} {room : Nat}
    (holds : Holds tokens run room) {shown : List Bytes}
    (shows : List.Forall₂ Shows tokens.ra shown) :
    ∃ ra data, tokens.finishToken = some { tokens with ra, data } ∧
      List.Forall₂ Shows ra (shown ++ if run ≠ [] then [run] else []) ∧
      ∃ rest, data = some 0 :: rest ∧ room ≤ rest.length := by
  obtain ⟨⟨rest, same, enough⟩, -, free⟩ := holds
  unfold Tokens.finishToken
  rw [same, byteAt_zero]
  by_cases empty : run = []
  · subst empty
    refine ⟨tokens.ra, tokens.data, rfl, ?_, rest, same, enough⟩
    rw [if_neg (not_not.mpr rfl), List.append_nil]
    exact shows
  · obtain ⟨c, others, rfl⟩ := List.exists_cons_of_ne_nil empty
    refine ⟨tokens.ra ++ [ofBytes (some (c :: others))],
      some 0 :: (others.map some ++ some 0 :: rest), ?_, ?_, _, rfl, ?_⟩
    · show (if (c :: others).headD 0 ≠ 0 then _ else _) = _
      rw [if_pos ((headD_ne_zero free).mpr empty), ofCString_run free]
      rfl
    · rw [if_pos empty]
      exact List.rel_append shows (.cons (shows_ofBytes _) .nil)
    · rw [List.length_append, List.length_cons]
      omega

/-- A delimiter ends the run. -/
theorem step_delimiter {tokens : Tokens} {run : Bytes} {room : Nat} (holds : Holds tokens run room)
    {shown : List Bytes} (shows : List.Forall₂ Shows tokens.ra shown) {c : UInt8}
    (nonzero : c ≠ 0) (mem : c ∈ delims.bytes) :
    ∃ tokens', Tokens.step delims returnDelimitersAsTokens returnEmptyTokens tokens c =
        some tokens' ∧ Holds tokens' [] room ∧ tokens'.last_was_delim = true ∧
      List.Forall₂ Shows tokens'.ra (shown ++ ((if run ≠ [] then [run] else []) ++
        (if returnEmptyTokens = E_RETURN_EMPTY_TOKENS ∧ tokens.last_was_delim = true then [[]]
          else []) ++
        (if returnDelimitersAsTokens = E_RETURN_DELIMITERS then [[c]] else []))) := by
  obtain ⟨ra, data, finished, appended, rest, same, enough⟩ := finishToken_spec holds shows
  unfold Tokens.step
  rw [if_pos mem, finished]
  refine ⟨_, rfl, ⟨⟨rest, same, enough⟩, rfl, List.not_mem_nil⟩, rfl, ?_⟩
  rw [← List.append_assoc, ← List.append_assoc]
  refine List.rel_append (List.rel_append appended ?_) ?_
  · unfold Tokens.emptyToken
    dsimp only
    split
    · exact .cons (shows_null.mpr rfl) .nil
    · exact .nil
  · split
    · rw [ofChar, if_pos nonzero]
      exact .cons (shows_ofBytes _) .nil
    · exact .nil

/-- Another character goes on with the run, while its index is an `int`. -/
theorem step_character {tokens : Tokens} {run : Bytes} {room : Nat}
    (holds : Holds tokens run (room + 1)) {c : UInt8} (nonzero : c ≠ 0)
    (other : c ∉ delims.bytes) (short : run.length + 1 < 2 ^ 31) :
    ∃ tokens', Tokens.step delims returnDelimitersAsTokens returnEmptyTokens tokens c =
        some tokens' ∧ Holds tokens' (run ++ [c]) room ∧ tokens'.last_was_delim = false ∧
      tokens'.ra = tokens.ra := by
  obtain ⟨⟨rest, same, enough⟩, index, free⟩ := holds
  obtain ⟨cell, others, rfl⟩ := List.exists_cons_of_length_pos (Nat.lt_of_lt_of_le
    (Nat.succ_pos room) enough)
  have first : writeByte (run.map some ++ some 0 :: cell :: others) run.length c =
      some (run.map some ++ some c :: cell :: others) := by
    rw [writeByte, if_pos (by simp)]
    simp
  have second : writeByte (run.map some ++ some c :: cell :: others) (run.length + 1) 0 =
      some (run.map some ++ some c :: some 0 :: others) := by
    rw [writeByte, if_pos (by simp)]
    simp
  unfold Tokens.step
  rw [if_neg other, index, if_pos short, same]
  show ∃ tokens', (writeByte _ _ _ >>= fun data => _) = some tokens' ∧ _
  rw [first]
  show ∃ tokens', (writeByte _ _ _ >>= fun data => _) = some tokens' ∧ _
  rw [second]
  refine ⟨_, rfl, ⟨⟨others, ?_, ?_⟩, ?_, ?_⟩, rfl, rfl⟩
  · rw [List.map_append, List.append_assoc]
    rfl
  · rw [List.length_cons] at enough
    omega
  · rw [List.length_append, List.length_singleton]
  · rw [List.mem_append, List.mem_singleton, not_or]
    exact ⟨free, Ne.symm nonzero⟩

theorem step_overflow {tokens : Tokens} {run : Bytes} {room : Nat} (holds : Holds tokens run room)
    {c : UInt8} (other : c ∉ delims.bytes) (long : ¬ run.length + 1 < 2 ^ 31) :
    Tokens.step delims returnDelimitersAsTokens returnEmptyTokens tokens c = none := by
  unfold Tokens.step
  rw [if_neg other, holds.i, if_neg long]

variable (delims) in
/-- The end of the string ends the run. -/
theorem finish_spec {tokens : Tokens} {run : Bytes} {room : Nat} (holds : Holds tokens run room)
    {shown : List Bytes} (shows : List.Forall₂ Shows tokens.ra shown) :
    ∃ result, tokens.finish returnEmptyTokens = some result ∧
      List.Forall₂ Shows result (shown ++ tokensFrom delims returnDelimitersAsTokens
        returnEmptyTokens run tokens.last_was_delim []) := by
  obtain ⟨⟨rest, same, -⟩, -, free⟩ := holds
  unfold Tokens.finish tokensFrom
  rw [same, byteAt_zero]
  by_cases empty : run = []
  · subst empty
    refine ⟨_, rfl, List.rel_append shows ?_⟩
    rw [if_neg (not_not.mpr rfl)]
    unfold Tokens.emptyToken
    split
    · exact .cons (shows_null.mpr rfl) .nil
    · exact .nil
  · refine ⟨tokens.ra ++ [ofBytes (some run)], ?_, ?_⟩
    · show (if run.headD 0 ≠ 0 then _ else _) = _
      rw [if_pos ((headD_ne_zero free).mpr empty), ofCString_run free]
      rfl
    · rw [if_pos empty]
      exact List.rel_append shows (.cons (shows_ofBytes _) .nil)

end Steps

def isDelim (delims : Bytes) (c : UInt8) : Bool := decide (c ∈ delims)

/-- The runs of characters that are no delimiters have fewer characters than an `int` counts. -/
def RunsFit (delims s : Bytes) : Prop :=
  ∀ run ∈ s.splitOnP (isDelim delims), run.length < 2 ^ 31

section Runs

variable {delims run rest : Bytes} {c : UInt8}

theorem isDelim_false : isDelim delims c = false ↔ c ∉ delims :=
  decide_eq_false_iff_not

/-- A delimiter ends the first run. -/
theorem splitOnP_delimiter (inside : ∀ c ∈ run, c ∉ delims) (mem : c ∈ delims) :
    (run ++ c :: rest).splitOnP (isDelim delims) = run :: rest.splitOnP (isDelim delims) :=
  List.splitOnP_append_cons_of_forall_mem
    (fun other here => isDelim_false.mpr (inside other here)) c (decide_eq_true mem) rest

theorem splitOnP_run (inside : ∀ c ∈ run, c ∉ delims) :
    run.splitOnP (isDelim delims) = [run] :=
  List.splitOnP_eq_singleton fun other here => isDelim_false.mpr (inside other here)

theorem runsFit_delimiter (inside : ∀ c ∈ run, c ∉ delims) (mem : c ∈ delims) :
    RunsFit delims (run ++ c :: rest) ↔ run.length < 2 ^ 31 ∧ RunsFit delims rest := by
  rw [RunsFit, splitOnP_delimiter inside mem, List.forall_mem_cons]
  rfl

theorem runsFit_run (inside : ∀ c ∈ run, c ∉ delims) :
    RunsFit delims run ↔ run.length < 2 ^ 31 := by
  rw [RunsFit, splitOnP_run inside, List.forall_mem_singleton]

theorem inside_append (inside : ∀ c ∈ run, c ∉ delims) (other : c ∉ delims) :
    ∀ d ∈ run ++ [c], d ∉ delims := by
  intro d here
  rcases List.mem_append.mp here with before | last
  · exact inside d before
  · rwa [List.mem_singleton.mp last]

/-- The current run is a part of the first one. -/
theorem RunsFit.short (fits : RunsFit delims (run ++ rest))
    (inside : ∀ c ∈ run, c ∉ delims) : run.length < 2 ^ 31 := by
  induction rest generalizing run with
  | nil =>
      rw [List.append_nil] at fits
      exact (runsFit_run inside).mp fits
  | cons c rest ih =>
      by_cases mem : c ∈ delims
      · exact ((runsFit_delimiter inside mem).mp fits).1
      · rw [List.append_cons] at fits
        have longer := ih fits (inside_append inside mem)
        rw [List.length_append] at longer
        omega

end Runs

section Loop

variable {delims : CString} {returnDelimitersAsTokens : EReturnDelimitersFlag}
  {returnEmptyTokens : EEmptyTokenReturnFlag} {s run : Bytes} {tokens : Tokens}

variable (returnDelimitersAsTokens returnEmptyTokens) in
/-- The loop over short runs gives the tokens of the rest of the string. -/
theorem loop_spec (free : (0 : UInt8) ∉ s) (holds : Holds tokens run s.length)
    (inside : ∀ c ∈ run, c ∉ delims.bytes) (fits : RunsFit delims.bytes (run ++ s))
    {shown : List Bytes} (shows : List.Forall₂ Shows tokens.ra shown) :
    ∃ tokens' result, s.foldlM (Tokens.step delims returnDelimitersAsTokens returnEmptyTokens)
        tokens = some tokens' ∧ tokens'.finish returnEmptyTokens = some result ∧
      List.Forall₂ Shows result (shown ++ tokensFrom delims returnDelimitersAsTokens
        returnEmptyTokens run tokens.last_was_delim s) := by
  induction s generalizing tokens run shown with
  | nil =>
      obtain ⟨result, finished, all⟩ := finish_spec delims holds shows
      exact ⟨tokens, result, rfl, finished, all⟩
  | cons c s ih =>
      rw [List.mem_cons, not_or] at free
      by_cases mem : c ∈ delims.bytes
      · obtain ⟨next, stepped, holds', last, shows'⟩ :=
          step_delimiter holds shows (Ne.symm free.1) mem
        obtain ⟨tokens', result, looped, finished, all⟩ := ih free.2 holds'.less
          (fun _ here => absurd here List.not_mem_nil)
          ((runsFit_delimiter inside mem).mp fits).2 shows'
        refine ⟨tokens', result, ?_, finished, ?_⟩
        · rw [List.foldlM_cons, stepped]
          exact looped
        · rw [tokensFrom, if_pos mem]
          rw [last, List.append_assoc] at all
          exact all
      · rw [List.append_cons] at fits
        have longer := fits.short (inside_append inside mem)
        rw [List.length_append, List.length_singleton] at longer
        obtain ⟨next, stepped, holds', last, same⟩ :=
          step_character holds (Ne.symm free.1) mem longer
        obtain ⟨tokens', result, looped, finished, all⟩ :=
          ih free.2 holds' (inside_append inside mem) fits (same ▸ shows)
        refine ⟨tokens', result, ?_, finished, ?_⟩
        · rw [List.foldlM_cons, stepped]
          exact looped
        · rw [tokensFrom, if_neg mem]
          rw [last] at all
          exact all

variable (returnDelimitersAsTokens returnEmptyTokens) in
/-- The loop over a run that an `int` does not count has no result. -/
theorem loop_overflow (free : (0 : UInt8) ∉ s) (holds : Holds tokens run s.length)
    (inside : ∀ c ∈ run, c ∉ delims.bytes) (short : run.length < 2 ^ 31)
    (long : ¬ RunsFit delims.bytes (run ++ s)) {shown : List Bytes}
    (shows : List.Forall₂ Shows tokens.ra shown) :
    s.foldlM (Tokens.step delims returnDelimitersAsTokens returnEmptyTokens) tokens = none := by
  induction s generalizing tokens run shown with
  | nil =>
      rw [List.append_nil, runsFit_run inside] at long
      exact absurd short long
  | cons c s ih =>
      rw [List.mem_cons, not_or] at free
      rw [List.foldlM_cons]
      by_cases mem : c ∈ delims.bytes
      · rw [runsFit_delimiter inside mem, and_iff_right short] at long
        obtain ⟨next, stepped, holds', -, shows'⟩ :=
          step_delimiter holds shows (Ne.symm free.1) mem
        rw [stepped]
        exact ih free.2 holds'.less (fun _ here => absurd here List.not_mem_nil)
          (Nat.two_pow_pos 31) long shows'
      · by_cases longer : run.length + 1 < 2 ^ 31
        · obtain ⟨next, stepped, holds', -, same⟩ :=
            step_character holds (Ne.symm free.1) mem longer
          rw [List.append_cons] at long
          rw [stepped]
          exact ih free.2 holds' (inside_append inside mem)
            (by rwa [List.length_append, List.length_singleton]) long (same ▸ shows)
        · rw [step_overflow holds mem longer]
          rfl

end Loop

section Laws

variable {delims : CString} {returnDelimitersAsTokens : EReturnDelimitersFlag}
  {returnEmptyTokens : EEmptyTokenReturnFlag} {run : Bytes} {last_was_delim : Bool}

/-- With the delimiters, the tokens are the string. -/
theorem tokensFrom_flatten (s : Bytes) :
    (tokensFrom delims E_RETURN_DELIMITERS E_SKIP_EMPTY_TOKENS run last_was_delim s).flatten =
      run ++ s := by
  have whole (run : Bytes) : (if run ≠ [] then [run] else []).flatten = run := by
    split
    · exact List.flatten_singleton
    · next empty => exact (not_not.mp empty).symm
  induction s generalizing run last_was_delim with
  | nil =>
      rw [tokensFrom, List.append_nil]
      simp only [reduceCtorEq, false_and, if_false]
      exact whole run
  | cons c s ih =>
      rw [tokensFrom]
      by_cases mem : c ∈ delims.bytes
      · rw [if_pos mem]
        simp only [reduceCtorEq, false_and, if_false, if_true, List.append_nil]
        rw [List.flatten_append, List.flatten_append, whole, ih, List.flatten_singleton,
          List.append_assoc]
        rfl
      · rw [if_neg mem, ih, List.append_assoc]
        rfl

/-- Without the delimiters and the empty tokens, the tokens are the runs. -/
theorem tokensFrom_runs (inside : ∀ c ∈ run, c ∉ delims.bytes) (s : Bytes) :
    tokensFrom delims E_DISCARD_DELIMITERS E_SKIP_EMPTY_TOKENS run last_was_delim s =
      ((run ++ s).splitOnP (isDelim delims.bytes)).filter (· ≠ []) := by
  have kept (run : Bytes) (rest : List Bytes) : (run :: rest).filter (· ≠ []) =
      (if run ≠ [] then [run] else []) ++ rest.filter (· ≠ []) := by
    rw [List.filter_cons]
    by_cases empty : run = []
    · simp [empty]
    · simp [empty]
  induction s generalizing run last_was_delim with
  | nil =>
      rw [tokensFrom, List.append_nil, splitOnP_run inside, kept, List.filter_nil, List.append_nil]
      simp only [reduceCtorEq, false_and, if_false]
  | cons c s ih =>
      rw [tokensFrom]
      by_cases mem : c ∈ delims.bytes
      · rw [if_pos mem, splitOnP_delimiter inside mem, kept,
          ih fun _ here => absurd here List.not_mem_nil]
        simp only [reduceCtorEq, false_and, if_false, List.append_nil, List.nil_append]
      · rw [if_neg mem, ih (inside_append inside mem), ← List.append_cons]

/-- With the empty tokens, the tokens behind a delimiter or a character are all pieces. -/
theorem tokensFrom_pieces (inside : ∀ c ∈ run, c ∉ delims.bytes)
    (started : if last_was_delim = true then run = [] else run ≠ []) (s : Bytes) :
    tokensFrom delims E_DISCARD_DELIMITERS E_RETURN_EMPTY_TOKENS run last_was_delim s =
      (run ++ s).splitOnP (isDelim delims.bytes) := by
  have one : (if run ≠ [] then [run] else []) ++ (if last_was_delim = true then [[]] else []) =
      [run] := by
    cases last_was_delim with
    | true =>
        rw [if_pos rfl] at started
        rw [started]
        rfl
    | false =>
        rw [if_neg Bool.false_ne_true] at started
        rw [if_pos started]
        rfl
  induction s generalizing run last_was_delim with
  | nil =>
      rw [tokensFrom, List.append_nil, splitOnP_run inside, ← one]
      by_cases empty : run = []
      · simp [empty]
      · cases last_was_delim with
        | true => exact absurd started empty
        | false => simp [empty]
  | cons c s ih =>
      rw [tokensFrom]
      by_cases mem : c ∈ delims.bytes
      · rw [if_pos mem, splitOnP_delimiter inside mem]
        simp only [reduceCtorEq, true_and, if_false, List.append_nil]
        rw [one, ih (fun _ here => absurd here List.not_mem_nil) (by rw [if_pos rfl]) rfl]
        rfl
      · rw [if_neg mem, List.append_cons run c s]
        have filled : run ++ [c] ≠ [] := List.append_ne_nil_of_right_ne_nil _ (List.cons_ne_nil c [])
        refine ih (inside_append inside mem) ?_ ?_
        · rw [if_neg Bool.false_ne_true]
          exact filled
        · rw [if_pos filled]
          rfl

end Laws

/-- The tokens are strings of these bytes, which obey this law. -/
def Tokenizes (s : Whole) (delims : Option CString)
    (returnDelimitersAsTokens : EReturnDelimitersFlag) (returnEmptyTokens : EEmptyTokenReturnFlag)
    (law : List Bytes → Prop) : Prop :=
  ∃ result shown,
    tokenize s.str delims returnDelimitersAsTokens returnEmptyTokens = some result ∧
      List.Forall₂ Shows result shown ∧ law shown

/-- An `int` counts the characters of each run, where the function looks for runs. -/
def Counts (delims : Option CString) (s : Bytes) : Prop :=
  delims = none ∨ RunsFit (bytesOf delims) s

section Exact

variable {s : Whole} {returnDelimitersAsTokens : EReturnDelimitersFlag}
  {returnEmptyTokens : EEmptyTokenReturnFlag} {law : List Bytes → Prop}

/-- The strings of an array have one sequence of bytes each. -/
theorem shown_unique {result : List CowString} {first second : List Bytes}
    (one : List.Forall₂ Shows result first) (other : List.Forall₂ Shows result second) :
    first = second := by
  induction one generalizing second with
  | nil =>
      cases other
      rfl
  | cons shows _ ih =>
      cases other with
      | cons shows' rest => rw [shows.unique shows', ih rest]

/-- The tokens of a string whose runs are counted obey a law exactly when those of the embedding
over its bytes do. -/
theorem tokenizes_iff (free : (0 : UInt8) ∉ s.bytes) (filled : s.bytes ≠ []) (delims : CString) :
    Tokenizes s (some delims) returnDelimitersAsTokens returnEmptyTokens law ↔
      RunsFit delims.bytes s.bytes ∧ law (tokensFrom delims returnDelimitersAsTokens
        returnEmptyTokens [] false s.bytes) := by
  have sized : length s.str ≠ 0 := by
    rw [s.length_eq]
    exact mt List.length_eq_zero_iff.mp filled
  have text : cString (memory s.str) = s.bytes := by
    rw [s.block]
    exact cString_append free []
  have nowhere : ∀ c ∈ ([] : Bytes), c ∉ delims.bytes := fun _ here => absurd here List.not_mem_nil
  obtain ⟨start, same⟩ : ∃ start : Tokens, start =
      { ra := [], data := some 0 :: allocate s.bytes.length, i := 0, last_was_delim := false } :=
    ⟨_, rfl⟩
  have holds : Holds start [] s.bytes.length := by
    rw [same]
    exact ⟨⟨allocate s.bytes.length, rfl, List.length_replicate.ge⟩, rfl, List.not_mem_nil⟩
  have shows : List.Forall₂ Shows start.ra [] := by
    rw [same]
    exact .nil
  have run : tokenize s.str (some delims) returnDelimitersAsTokens returnEmptyTokens =
      s.bytes.foldlM (Tokens.step delims returnDelimitersAsTokens returnEmptyTokens) start >>=
        Tokens.finish returnEmptyTokens := by
    unfold tokenize
    rw [if_neg sized, text, s.length_eq, same]
    rfl
  unfold Tokenizes
  rw [run]
  by_cases fits : RunsFit delims.bytes s.bytes
  · obtain ⟨tokens', result, looped, finished, all⟩ := loop_spec returnDelimitersAsTokens
      returnEmptyTokens free holds nowhere fits shows
    rw [same, List.nil_append] at all
    rw [looped, Option.bind_eq_bind, Option.bind_some, finished, and_iff_right fits]
    constructor
    · rintro ⟨result', shown, run, shows', obeyed⟩
      obtain rfl := Option.some.inj run
      rwa [shown_unique all shows']
    · intro obeyed
      exact ⟨result, _, rfl, all, obeyed⟩
  · rw [loop_overflow returnDelimitersAsTokens returnEmptyTokens free holds nowhere
      (Nat.two_pow_pos 31) fits shows]
    refine iff_of_false ?_ fun both => fits both.1
    rintro ⟨result, shown, run, _⟩
    cases run

/-- Without a set of delimiters, the string is the token. -/
theorem tokenizes_null (filled : s.bytes ≠ []) :
    Tokenizes s none returnDelimitersAsTokens returnEmptyTokens law ↔ law [s.bytes] := by
  have sized : length s.str ≠ 0 := by
    rw [s.length_eq]
    exact mt List.length_eq_zero_iff.mp filled
  have shows : Shows (copy s.str) s.bytes := by
    have whole := s.shows
    cases str : s.str with
    | none => rwa [str] at whole
    | some m_buf => rwa [str] at whole
  have all : List.Forall₂ Shows [copy s.str] [s.bytes] := .cons shows .nil
  unfold Tokenizes tokenize
  rw [if_neg sized]
  constructor
  · rintro ⟨result, shown, run, shows', obeyed⟩
    obtain rfl := Option.some.inj run
    rwa [shown_unique all shows']
  · intro obeyed
    exact ⟨_, _, rfl, all, obeyed⟩

theorem tokenizes_empty (empty : s.bytes = []) (delims : Option CString) :
    Tokenizes s delims returnDelimitersAsTokens returnEmptyTokens law ↔ law [] := by
  have null : length s.str = 0 := by
    rw [s.length_eq, empty]
    rfl
  unfold Tokenizes tokenize
  rw [if_pos null]
  constructor
  · rintro ⟨result, shown, run, shows, obeyed⟩
    obtain rfl := Option.some.inj run
    rwa [shown_unique .nil shows]
  · intro obeyed
    exact ⟨_, _, rfl, .nil, obeyed⟩

theorem counts_nil (delims : Option CString) : Counts delims [] := by
  right
  rw [RunsFit, List.splitOnP_nil, List.forall_mem_singleton]
  exact Nat.two_pow_pos 31

theorem counts_some {delims : CString} {s : Bytes} :
    Counts (some delims) s ↔ RunsFit delims.bytes s :=
  or_iff_right (Option.some_ne_none delims)

/-- With the delimiters, the concatenation of the tokens is the string. -/
theorem flatten_iff (free : (0 : UInt8) ∉ s.bytes) (delims : Option CString) :
    Tokenizes s delims E_RETURN_DELIMITERS E_SKIP_EMPTY_TOKENS
      (fun tokens => tokens.flatten = s.bytes) ↔ Counts delims s.bytes := by
  by_cases filled : s.bytes = []
  · rw [tokenizes_empty filled, filled]
    exact iff_of_true rfl (counts_nil delims)
  cases delims with
  | none =>
      rw [tokenizes_null filled]
      exact iff_of_true List.flatten_singleton (.inl rfl)
  | some delims =>
      rw [tokenizes_iff free filled, counts_some]
      exact and_iff_left (tokensFrom_flatten s.bytes)

/-- Without the delimiters, the tokens are the runs of characters that are no delimiters. -/
theorem runs_iff (free : (0 : UInt8) ∉ s.bytes) (delims : Option CString) :
    Tokenizes s delims E_DISCARD_DELIMITERS E_SKIP_EMPTY_TOKENS
      (fun tokens => tokens = (s.bytes.splitOnP (isDelim (bytesOf delims))).filter (· ≠ [])) ↔
      Counts delims s.bytes := by
  have nowhere (delims : Bytes) : ∀ c ∈ ([] : Bytes), c ∉ delims :=
    fun _ here => absurd here List.not_mem_nil
  by_cases filled : s.bytes = []
  · rw [tokenizes_empty filled, filled]
    exact iff_of_true rfl (counts_nil delims)
  cases delims with
  | none =>
      rw [tokenizes_null filled]
      have whole : s.bytes.splitOnP (isDelim []) = [s.bytes] :=
        splitOnP_run fun _ _ => List.not_mem_nil
      refine iff_of_true ?_ (.inl rfl)
      show [s.bytes] = (s.bytes.splitOnP (isDelim [])).filter (· ≠ [])
      rw [whole, List.filter_singleton, decide_eq_true filled, cond_true]
  | some delims =>
      rw [tokenizes_iff free filled, counts_some]
      exact and_iff_left (tokensFrom_runs (nowhere delims.bytes) s.bytes)

/-- With the empty tokens, joining the tokens gives back a string that does not begin with the
delimiter. -/
theorem joined_iff (free : (0 : UInt8) ∉ s.bytes) (filled : s.bytes ≠ []) {delims : Option CString}
    {d : UInt8} (only : ∀ c, c ∈ bytesOf delims ↔ c = d) :
    Tokenizes s delims E_DISCARD_DELIMITERS E_RETURN_EMPTY_TOKENS
      (fun tokens => [d].intercalate tokens = s.bytes) ↔
      Counts delims s.bytes ∧ s.bytes.head? ≠ some d := by
  cases delims with
  | none => exact absurd ((only d).mpr rfl) List.not_mem_nil
  | some delims =>
      have only : ∀ c, c ∈ delims.bytes ↔ c = d := only
      have split (s : Bytes) : s.splitOnP (isDelim delims.bytes) = s.splitOn d := by
        rw [List.splitOn_eq_splitOnP]
        congr 1
        funext c
        rw [Bool.eq_iff_iff, beq_iff_eq, isDelim, decide_eq_true_iff]
        exact only c
      rw [tokenizes_iff free filled, counts_some]
      refine and_congr_right fun _ => ?_
      obtain ⟨c, rest, same⟩ := List.exists_cons_of_ne_nil filled
      have begins : (c :: rest).head? ≠ some d ↔ c ≠ d := by simp
      rw [same, begins, tokensFrom]
      by_cases first : c = d
      · rw [if_pos ((only c).mpr first)]
        refine iff_of_false ?_ (not_not.mpr first)
        show [d].intercalate (tokensFrom delims _ _ [] true rest) ≠ c :: rest
        rw [tokensFrom_pieces (fun _ here => absurd here List.not_mem_nil) (by rw [if_pos rfl]),
          List.nil_append, split, List.intercalate_splitOn]
        exact (List.cons_ne_self c rest).symm
      · rw [if_neg (mt (only c).mp first), List.nil_append]
        refine iff_of_true ?_ first
        rw [tokensFrom_pieces, split, List.intercalate_splitOn]
        · rfl
        · intro other here
          rw [List.mem_singleton.mp here]
          exact mt (only c).mp first
        · rw [if_neg Bool.false_ne_true]
          exact List.cons_ne_nil c []

end Exact

/-- The tokens give the string back exactly where an `int` counts their characters. With the empty
tokens, a delimiter at the beginning of the string is lost. -/
theorem tokenize_iff (s : Whole) (free : (0 : UInt8) ∉ s.bytes) (delims : Option CString) :
    (Tokenizes s delims E_RETURN_DELIMITERS E_SKIP_EMPTY_TOKENS
        (fun tokens => tokens.flatten = s.bytes) ↔ Counts delims s.bytes) ∧
      (Tokenizes s delims E_DISCARD_DELIMITERS E_SKIP_EMPTY_TOKENS
        (fun tokens => tokens = (s.bytes.splitOnP (isDelim (bytesOf delims))).filter (· ≠ [])) ↔
          Counts delims s.bytes) ∧
      ∀ d, (∀ c, c ∈ bytesOf delims ↔ c = d) → s.bytes ≠ [] →
        (Tokenizes s delims E_DISCARD_DELIMITERS E_RETURN_EMPTY_TOKENS
          (fun tokens => [d].intercalate tokens = s.bytes) ↔
            Counts delims s.bytes ∧ s.bytes.head? ≠ some d) :=
  ⟨flatten_iff free delims, runs_iff free delims, fun _ only filled => joined_iff free filled only⟩

def dotLetter : Whole where
  str := ofBytes (some [46, 97])
  bytes := [46, 97]
  block := rfl
  fits := by decide

def dot : CString := ⟨[46], by decide⟩

theorem tokenize_dotLetter :
    Tokenizes dotLetter (some dot) E_DISCARD_DELIMITERS E_RETURN_EMPTY_TOKENS
        (fun tokens => [46].intercalate tokens = dotLetter.bytes) ↔
      Counts (some dot) dotLetter.bytes ∧ dotLetter.bytes.head? ≠ some 46 :=
  (tokenize_iff dotLetter (by decide) (some dot)).2.2 46 (fun _ => List.mem_singleton) (by decide)

/-- The empty token in front of the first delimiter is missing. -/
theorem dotLetter_not_joined :
    ¬ ∀ (s : Whole) (_ : (0 : UInt8) ∉ s.bytes) (delims : Option CString),
      Tokenizes s delims E_RETURN_DELIMITERS E_SKIP_EMPTY_TOKENS
          (fun tokens => tokens.flatten = s.bytes) ∧
        Tokenizes s delims E_DISCARD_DELIMITERS E_SKIP_EMPTY_TOKENS
          (fun tokens => tokens = (s.bytes.splitOnP (isDelim (bytesOf delims))).filter (· ≠ [])) ∧
        ∀ d, (∀ c, c ∈ bytesOf delims ↔ c = d) → s.bytes ≠ [] →
          Tokenizes s delims E_DISCARD_DELIMITERS E_RETURN_EMPTY_TOKENS
            (fun tokens => [d].intercalate tokens = s.bytes) := by
  intro all
  have only : ∀ c : UInt8, c ∈ bytesOf (some dot) ↔ c = 46 := fun _ => List.mem_singleton
  have joined := (all dotLetter (by decide) (some dot)).2.2 46 only (by decide)
  exact ((joined_iff (by decide) (by decide) only).mp joined).2 rfl

end Blocxx.Strings
