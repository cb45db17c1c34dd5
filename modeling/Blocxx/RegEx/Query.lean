import Blocxx.RegEx.Split

/-!
This file embeds `match`, `capture` and `grep` of the regular expressions and proves when they agree
with `execute`.
-/

namespace Blocxx.RegEx

open Time CharString

section Functions

/-- What `match` does with the result code of the matcher. -/
def decided (isMatch : Int → Bool) (noMatch : Int) (errorString : Int → Text) (m_ecode : Int) :
    Except RegExException Bool :=
  if isMatch m_ecode then .ok true
  else if m_ecode = noMatch then .ok false
  else .error (.execute (errorString m_ecode) m_ecode)

/-- The loop of `grep` with the result code of the matcher for a string. -/
def grepLoop (isMatch : Int → Bool) (noMatch : Int) (errorString : Int → Text)
    (exec : Text → Int) (src out : List Text) : Except RegExException (List Text) :=
  match src with
  | [] => .ok out
  | s :: src =>
      let ret := exec s
      if isMatch ret then grepLoop isMatch noMatch errorString exec src (out ++ [s])
      else if ret ≠ noMatch then .error (.execute (errorString ret) ret)
      else grepLoop isMatch noMatch errorString exec src out

/-- The string that `capture` adds for an offset pair. -/
def captured (str : Text) (found : Match) : Text :=
  if found.rm_so ≥ 0 ∧ found.rm_eo ≥ 0 then
    substring str found.rm_so.toNat (found.rm_eo - found.rm_so).toNat
  else []

/-- What `capture` does with the answer of `execute`. -/
def capturing (noMatch : Int) (str : Text) (execute : Except RegExException Executed) :
    Except RegExException (List Text) :=
  match execute with
  | .error exception => .error exception
  | .ok done =>
      if done.isMatch then
        if done.rsub = [] then .error nonCapturing else .ok (done.rsub.map (captured str))
      else if done.m_ecode ≠ noMatch then .error (.execute done.m_error done.m_ecode)
      else .ok []

def PosixRegEx.capture (regex : PosixRegEx) (str : Text) (index count : Nat) :
    Except RegExException (List Text) :=
  if !regex.compiled then .error notCompiled
  else capturing REG_NOMATCH str (regex.execute str index count)

def PosixRegEx.grep (regex : PosixRegEx) (src : List Text) : Except RegExException (List Text) :=
  if !regex.compiled then .error notCompiled
  else
    grepLoop (· = REG_NOERROR) REG_NOMATCH regex.regerror
      (fun s => (regex.regexec (cString s) 0).1) src []

/-- `PosixRegEx::match`. -/
def PosixRegEx.matches (regex : PosixRegEx) (str : Text) (index : Nat) :
    Except RegExException Bool :=
  if !regex.compiled then .error notCompiled
  else if index > str.length then .error (outOfBounds str.length index)
  else
    decided (· = REG_NOERROR) REG_NOMATCH regex.regerror
      (regex.regexec (cString (str.drop index)) 0).1

/-- The search of the overload of `execute` that answers the offsets in one array. -/
def PerlRegEx.searchVector (regex : PerlRegEx) (str : Text) (index count : Nat) :
    Bool × List Int :=
  let answer := regex.pcre_exec str index count
  if answer.1 > 0 then
    let vsub (i : Nat) := if i % 2 = 0 then (answer.2 (i / 2)).rm_so else (answer.2 (i / 2)).rm_eo
    (true, (List.range (count * 2)).map fun i : Nat =>
      if (i : Int) ≥ answer.1 * 2 then -1 else vsub i)
  else (false, [])

def PerlRegEx.executeVector (regex : PerlRegEx) (str : Text) (index count : Nat) :
    Except RegExException (Bool × List Int) :=
  if !regex.compiled then .error notCompiled
  else if count ≥ INT_MAX / 3 then .error (.assertion "Match count limit exceeded")
  else if index > str.length then
    .error (.outOfBounds
      s!"String index out of bounds (length = {str.length}, index = {index})")
  else if count = 0 then
    match regex.captureCount with
    | none => .ok (false, [])
    | some cnt => .ok (regex.searchVector str index (if cnt > 0 then cnt.toNat + 1 else 1))
  else .ok (regex.searchVector str index count)

def PerlRegEx.capture (regex : PerlRegEx) (str : Text) (index count : Nat) :
    Except RegExException (List Text) :=
  if !regex.compiled then .error notCompiled
  else capturing PCRE_ERROR_NOMATCH str (regex.execute str index count)

def PerlRegEx.grep (regex : PerlRegEx) (src : List Text) : Except RegExException (List Text) :=
  if !regex.compiled then .error notCompiled
  else
    grepLoop (· ≥ 0) PCRE_ERROR_NOMATCH getError (fun s => (regex.pcre_exec s 0 0).1) src []

/-- `PerlRegEx::match`. The search starts at the start of the string, not at the index. -/
def PerlRegEx.matches (regex : PerlRegEx) (str : Text) (index : Nat) :
    Except RegExException Bool :=
  if !regex.compiled then .error notCompiled
  else if index > str.length then
    .error (.outOfBounds
      s!"String index out of bounds.length = {str.length}, index = {index}")
  else decided (· ≥ 0) PCRE_ERROR_NOMATCH getError (regex.pcre_exec str 0 0).1

end Functions

/-- The text between the offsets of a pair. A pair that took no part denotes the empty text. -/
def Match.text (str : Text) (found : Match) : Text :=
  if found.rm_so < 0 ∨ found.rm_eo < 0 then []
  else (str.take found.rm_eo.toNat).drop found.rm_so.toNat

/-- `match` and `capture` answer what `execute` finds. -/
structure Agree (isMatch : Except RegExException Bool) (execute : Except RegExException Executed)
    (capture : Except RegExException (List Text)) (str : Text) : Prop where
  execute_iff : isMatch = .ok true ↔ ∃ done, execute = .ok done ∧ done.isMatch = true
  capture_iff : isMatch = .ok true ↔ ∃ texts, capture = .ok texts ∧ texts ≠ []
  texts : ∀ done, execute = .ok done → done.isMatch = true →
    capture = .ok (done.rsub.map (·.text str))

/-- `grep` answers the strings that match, unless the first failing `match` throws. -/
structure Greps (isMatch : Text → Except RegExException Bool) (src : List Text)
    (grep : Except RegExException (List Text)) : Prop where
  returns : (∀ s ∈ src, ∃ found, isMatch s = .ok found) →
    grep = .ok (src.filter fun s => (isMatch s).toOption = some true)
  throws : ∀ before s behind exception, src = before ++ s :: behind →
    (∀ t ∈ before, ∃ found, isMatch t = .ok found) → isMatch s = .error exception →
      grep = .error exception

section Agreement

variable {isMatch : Int → Bool} {noMatch : Int} {errorString : Int → Text}

theorem decided_eq_true {m_ecode : Int} :
    decided isMatch noMatch errorString m_ecode = .ok true ↔ isMatch m_ecode = true := by
  unfold decided
  split
  next found => simp [found]
  next other =>
    split
    · simp [other]
    · simp [other]

/-- The loop takes a string that matches, leaves one that does not, and throws what `match` throws
for it. -/
theorem grepLoop_cons (exec : Text → Int) (s : Text) (src out : List Text) :
    grepLoop isMatch noMatch errorString exec (s :: src) out =
      (decided isMatch noMatch errorString (exec s)).bind fun found =>
        grepLoop isMatch noMatch errorString exec src (if found then out ++ [s] else out) := by
  rw [grepLoop, decided]
  split
  · rfl
  · split
    · rfl
    next none => rw [if_pos (not_not.mp none)]; rfl

theorem grepLoop_greps (exec : Text → Int) (src : List Text) :
    Greps (fun s => decided isMatch noMatch errorString (exec s)) src
      (grepLoop isMatch noMatch errorString exec src []) := by
  constructor
  · suffices all : ∀ out, (∀ s ∈ src, ∃ found,
        decided isMatch noMatch errorString (exec s) = .ok found) →
        grepLoop isMatch noMatch errorString exec src out = .ok (out ++ src.filter fun s =>
          (decided isMatch noMatch errorString (exec s)).toOption = some true) by
      exact all []
    induction src with
    | nil =>
        intro out decides
        rw [grepLoop, List.filter_nil, List.append_nil]
    | cons s src ih =>
        intro out decides
        obtain ⟨found, first⟩ := decides s List.mem_cons_self
        rw [grepLoop_cons, first]
        change grepLoop _ _ _ _ _ _ = _
        rw [ih _ fun t member => decides t (List.mem_cons_of_mem s member), List.filter_cons, first]
        cases found <;> simp [Except.toOption]
  · suffices all : ∀ out before s behind exception, src = before ++ s :: behind →
        (∀ t ∈ before, ∃ found, decided isMatch noMatch errorString (exec t) = .ok found) →
        decided isMatch noMatch errorString (exec s) = .error exception →
        grepLoop isMatch noMatch errorString exec src out = .error exception by
      exact all []
    intro out before s behind exception same decides throws
    subst same
    induction before generalizing out with
    | nil =>
        rw [List.nil_append, grepLoop_cons, throws]
        rfl
    | cons t before ih =>
        obtain ⟨found, first⟩ := decides t List.mem_cons_self
        rw [List.cons_append, grepLoop_cons, first]
        exact ih _ fun u member => decides u (List.mem_cons_of_mem t member)

theorem captured_eq_text (str : Text) (found : Match) : captured str found = found.text str := by
  unfold captured Match.text
  by_cases part : found.rm_so < 0 ∨ found.rm_eo < 0
  · rw [if_pos part, if_neg (by omega)]
  · rw [if_neg part, if_pos (by omega), substring, List.drop_take]
    congr 1
    omega

/-- `capture` answers what an `execute` with offset pairs finds. -/
theorem agree_iff {found : Except RegExException Bool} {str : Text}
    {execute : Except RegExException Executed} {done : Executed} (ran : execute = .ok done)
    (pairs : done.isMatch = true → done.rsub ≠ []) :
    Agree found execute (capturing noMatch str execute) str ↔
      (found = .ok true ↔ done.isMatch = true) := by
  subst ran
  have only : (∃ other, Except.ok done = (.ok other : Except RegExException Executed) ∧
      other.isMatch = true) ↔ done.isMatch = true := by simp
  have texts (isMatch : done.isMatch = true) :
      capturing noMatch str (.ok done) = .ok (done.rsub.map (·.text str)) := by
    rw [capturing, if_pos isMatch, if_neg (pairs isMatch)]
    exact congrArg _ (List.map_congr_left fun pair _ => captured_eq_text str pair)
  have some_ : (∃ texts, capturing noMatch str (.ok done) = .ok texts ∧ texts ≠ []) ↔
      done.isMatch = true := by
    constructor
    · intro matched
      obtain ⟨answer, ran, some_⟩ := matched
      by_contra other
      rw [capturing, if_neg other] at ran
      split at ran
      · cases ran
      · cases ran
        exact some_ rfl
    · intro isMatch
      exact ⟨_, texts isMatch, mt List.map_eq_nil_iff.mp (pairs isMatch)⟩
  constructor
  · exact fun agree => agree.execute_iff.trans only
  · intro same
    refine ⟨same.trans only.symm, same.trans some_.symm, fun other ran isMatch => ?_⟩
    obtain rfl := Except.ok.inj ran
    exact texts isMatch

end Agreement

section Classes

/-- The expression is compiled to report what it matches, and the result code of `regexec` does not
depend on the length of the vector. -/
structure PosixRegEx.Documented (regex : PosixRegEx) : Prop where
  compiled : regex.compiled = true
  captures : regex.nosub = false
  code : ∀ text count other, (regex.regexec text count).1 = (regex.regexec text other).1

/-- The expression is compiled, `pcre_fullinfo` counts its captures, and `pcre_exec` answers a
positive code exactly when it finds a match without a vector. -/
structure PerlRegEx.Documented (regex : PerlRegEx) (captureCount : Int) : Prop where
  compiled : regex.compiled = true
  counted : regex.captureCount = some captureCount
  code : ∀ text index,
    0 ≤ (regex.pcre_exec text index 0).1 ↔ 0 < (regex.pcre_exec text index (pairs captureCount)).1

variable {str : Text} {index : Nat}

theorem PosixRegEx.execute_answers {regex : PosixRegEx} (documented : regex.Documented)
    (inside : index ≤ str.length) : ∃ done, regex.execute str index 0 = .ok done ∧
      (done.isMatch = true ↔ (regex.regexec (cString (str.drop index)) 0).1 = REG_NOERROR) ∧
      (done.isMatch = true → done.rsub ≠ []) := by
  rw [PosixRegEx.execute, documented.compiled, documented.captures,
    documented.code _ 0 (regex.re_nsub + 1)]
  by_cases found : (regex.regexec (cString (str.drop index)) (regex.re_nsub + 1)).1 = REG_NOERROR
  · simp [not_lt.mpr inside, found]
  · simp [not_lt.mpr inside, found]

theorem PosixRegEx.agree {regex : PosixRegEx} (documented : regex.Documented)
    (inside : index ≤ str.length) :
    Agree (regex.matches str index) (regex.execute str index 0) (regex.capture str index 0)
      str := by
  obtain ⟨done, ran, isMatch, pairs⟩ := PosixRegEx.execute_answers documented inside
  have answer : regex.matches str index = decided (· = REG_NOERROR) REG_NOMATCH regex.regerror
      (regex.regexec (cString (str.drop index)) 0).1 := by
    simp [PosixRegEx.matches, documented.compiled, not_lt.mpr inside]
  have captures : regex.capture str index 0 =
      capturing REG_NOMATCH str (regex.execute str index 0) := by
    simp [PosixRegEx.capture, documented.compiled]
  rw [captures, agree_iff ran pairs, answer, decided_eq_true, decide_eq_true_eq, isMatch]

theorem PosixRegEx.greps {regex : PosixRegEx} (documented : regex.Documented) (src : List Text) :
    Greps (fun s => regex.matches s 0) src (regex.grep src) := by
  have answer (s : Text) : regex.matches s 0 = decided (· = REG_NOERROR) REG_NOMATCH regex.regerror
      (regex.regexec (cString s) 0).1 := by
    simp [PosixRegEx.matches, documented.compiled]
  simp only [answer, PosixRegEx.grep, documented.compiled, Bool.not_true, Bool.false_eq_true,
    if_false]
  exact grepLoop_greps _ src

variable {captureCount : Int}

/-- A search of the matcher without a vector finds something. -/
def PerlRegEx.Finds (regex : PerlRegEx) (str : Text) (index : Nat) : Prop :=
  0 ≤ (regex.pcre_exec str index 0).1

theorem PerlRegEx.execute_answers {regex : PerlRegEx} (documented : regex.Documented captureCount)
    (inside : index ≤ str.length) : ∃ done, regex.execute str index 0 = .ok done ∧
      (done.isMatch = true ↔ regex.Finds str index) ∧ (done.isMatch = true → done.rsub ≠ []) := by
  refine ⟨_, PerlRegEx.execute_default documented.compiled documented.counted inside, ?_, ?_⟩
  · rw [PerlRegEx.Finds, documented.code, PerlRegEx.search]
    split <;> simp_all
  · obtain ⟨count, same⟩ := Nat.exists_eq_succ_of_ne_zero (pairs_pos captureCount).ne'
    rw [same]
    intro isMatch
    have code : (regex.pcre_exec str index (count + 1)).1 > 0 := by
      by_contra other
      simp [PerlRegEx.search, other] at isMatch
    obtain ⟨others, captures⟩ := PerlRegEx.search_found code
    rw [captures]
    exact List.cons_ne_nil _ _

/-- `match` searches from the start of the string. -/
theorem PerlRegEx.matches_iff {regex : PerlRegEx} (compiled : regex.compiled = true)
    (inside : index ≤ str.length) : regex.matches str index = .ok true ↔ regex.Finds str 0 := by
  have answer : regex.matches str index = decided (· ≥ 0) PCRE_ERROR_NOMATCH getError
      (regex.pcre_exec str 0 0).1 := by
    simp [PerlRegEx.matches, compiled, not_lt.mpr inside]
  rw [answer, decided_eq_true, decide_eq_true_eq, PerlRegEx.Finds]

theorem PerlRegEx.agree_iff {regex : PerlRegEx} (documented : regex.Documented captureCount)
    (inside : index ≤ str.length) :
    Agree (regex.matches str index) (regex.execute str index 0) (regex.capture str index 0) str ↔
      (regex.Finds str 0 ↔ regex.Finds str index) := by
  obtain ⟨done, ran, isMatch, pairs⟩ := PerlRegEx.execute_answers documented inside
  have captures : regex.capture str index 0 =
      capturing PCRE_ERROR_NOMATCH str (regex.execute str index 0) := by
    simp [PerlRegEx.capture, documented.compiled]
  rw [captures, RegEx.agree_iff ran pairs, PerlRegEx.matches_iff documented.compiled inside,
    isMatch]

theorem PerlRegEx.greps {regex : PerlRegEx} (documented : regex.Documented captureCount)
    (src : List Text) : Greps (fun s => regex.matches s 0) src (regex.grep src) := by
  have answer (s : Text) : regex.matches s 0 = decided (· ≥ 0) PCRE_ERROR_NOMATCH getError
      (regex.pcre_exec s 0 0).1 := by
    simp [PerlRegEx.matches, documented.compiled]
  simp only [answer, PerlRegEx.grep, documented.compiled, Bool.not_true, Bool.false_eq_true,
    if_false]
  exact grepLoop_greps _ src
/-- The offsets of the pairs, one behind the other. -/
def offsets (rsub : List Match) : List Int :=
  rsub.flatMap fun found => [found.rm_so, found.rm_eo]

theorem offsets_map_range (pair : Nat → Match) (count : Nat) :
    offsets ((List.range count).map pair) = (List.range (count * 2)).map fun i =>
      if i % 2 = 0 then (pair (i / 2)).rm_so else (pair (i / 2)).rm_eo := by
  induction count with
  | zero => rfl
  | succ count ih =>
      have odd : (count * 2 + 1) % 2 = 1 := by omega
      have half : (count * 2 + 1) / 2 = count := by omega
      rw [Nat.succ_mul, List.range_succ, List.range_succ, List.range_succ, List.map_append,
        List.map_append, List.map_append, ← ih, offsets, List.flatMap_append]
      simp [offsets, odd, half]

theorem PerlRegEx.searchVector_eq (regex : PerlRegEx) (str : Text) (index count : Nat) :
    regex.searchVector str index count =
      ((regex.search str index count).isMatch, offsets (regex.search str index count).rsub) := by
  rw [PerlRegEx.searchVector, PerlRegEx.search]
  generalize regex.pcre_exec str index count = answer
  dsimp only
  split
  · rw [offsets_map_range, Prod.mk.injEq]
    refine ⟨rfl, List.map_congr_left fun i _ => ?_⟩
    have behind : (i : Int) ≥ answer.1 * 2 ↔ ((i / 2 : Nat) : Int) ≥ answer.1 := by omega
    by_cases more : ((i / 2 : Nat) : Int) ≥ answer.1
    · rw [if_pos (behind.mpr more), if_pos more, ite_self]
    · rw [if_neg (mt behind.mp more), if_neg more]
  · rfl

/-- The two overloads of `execute` answer the same. -/
theorem PerlRegEx.executeVector_eq {regex : PerlRegEx} {count : Nat} {done : Executed}
    (ran : regex.execute str index count = .ok done) :
    regex.executeVector str index count = .ok (done.isMatch, offsets done.rsub) := by
  rw [PerlRegEx.execute] at ran
  rw [PerlRegEx.executeVector]
  split at ran
  · cases ran
  next compiled =>
    rw [if_neg compiled]
    split at ran
    · cases ran
    next small =>
      rw [if_neg small]
      split at ran
      · cases ran
      next inside =>
        rw [if_neg inside]
        simp only [PerlRegEx.searchVector_eq]
        split at ran
        next default =>
          rw [if_pos default]
          cases counted : regex.captureCount with
          | none =>
              simp only [counted] at ran
              rw [← Except.ok.inj ran]
              rfl
          | some cnt =>
              simp only [counted] at ran
              rw [← Except.ok.inj ran]
        next given => rw [← Except.ok.inj ran, if_neg given]

/-- `match`, `execute`, `capture` and `grep` agree for both classes, but `match` of a `PerlRegEx`
does with the others exactly when a search from the start of the string finds a match just as one
from the index does. -/
theorem queries_agree_iff (str : Text) (index : Nat) (src : List Text)
    (inside : index ≤ str.length) :
    (∀ regex : PosixRegEx, regex.Documented →
      Agree (regex.matches str index) (regex.execute str index 0) (regex.capture str index 0) str ∧
      Greps (fun s => regex.matches s 0) src (regex.grep src)) ∧
    ∀ (regex : PerlRegEx) (captureCount : Int), regex.Documented captureCount →
      (Agree (regex.matches str index) (regex.execute str index 0) (regex.capture str index 0)
        str ↔ (regex.Finds str 0 ↔ regex.Finds str index)) ∧
      (∀ done, regex.execute str index 0 = .ok done →
        regex.executeVector str index 0 = .ok (done.isMatch, offsets done.rsub)) ∧
      Greps (fun s => regex.matches s 0) src (regex.grep src) := by
  constructor
  · intro regex documented
    exact ⟨PosixRegEx.agree documented inside, PosixRegEx.greps documented src⟩
  · intro regex captureCount documented
    refine ⟨PerlRegEx.agree_iff documented inside, ?_, PerlRegEx.greps documented src⟩
    exact fun done ran => PerlRegEx.executeVector_eq ran

end Classes

section Letter

/-- The pattern `a`. -/
def letter : PerlRegEx where
  compiled := true
  m_ecode := 0
  captureCount := some 0
  pcre_exec text index count :=
    if 'a' ∈ text.drop index then
      let start := index + (text.drop index).idxOf 'a'
      (if count = 0 then 0 else 1, fun n => if n = 0 then ⟨start, start + 1⟩ else ⟨-1, -1⟩)
    else (PCRE_ERROR_NOMATCH, fun _ => ⟨-1, -1⟩)
  pcre_exec_within text index count found := by
    split at found
    next member =>
      have inside := List.idxOf_lt_length_of_mem member
      rw [List.length_drop] at inside
      rw [if_pos member]
      show Match.Within index text.length ⟨(index + (text.drop index).idxOf 'a' : Nat),
        (index + (text.drop index).idxOf 'a' : Nat) + 1⟩
      exact ⟨by dsimp only; omega, by dsimp only; omega, by dsimp only; omega⟩
    · cases found

theorem letter_documented : letter.Documented 0 := by
  refine ⟨rfl, rfl, fun text index => ?_⟩
  simp only [letter]
  split
  · simp [pairs]
  · decide

/-- A search from the start of the string. -/
theorem letter_agrees : Agree (letter.matches ['a', 'b'] 0) (letter.execute ['a', 'b'] 0 0)
    (letter.capture ['a', 'b'] 0 0) ['a', 'b'] :=
  ((queries_agree_iff ['a', 'b'] 0 [] (by decide)).2 letter 0 letter_documented).1.mpr Iff.rfl

/-- The only `a` of `ab` is before the index 1. -/
theorem letter_matches_before : letter.Documented 0 ∧ letter.matches ['a', 'b'] 1 = .ok true ∧
    (∃ done, letter.execute ['a', 'b'] 1 0 = .ok done ∧ done.isMatch = false) ∧
    letter.capture ['a', 'b'] 1 0 = .ok [] ∧
    ¬ Agree (letter.matches ['a', 'b'] 1) (letter.execute ['a', 'b'] 1 0)
      (letter.capture ['a', 'b'] 1 0) ['a', 'b'] := by
  have captures : letter.capture ['a', 'b'] 1 0 = .ok [] := rfl
  refine ⟨letter_documented, rfl, ⟨_, rfl, rfl⟩, captures, fun agree => ?_⟩
  obtain ⟨texts, ran, some_⟩ := agree.capture_iff.mp rfl
  rw [captures] at ran
  exact some_ (Except.ok.inj ran).symm

end Letter

end Blocxx.RegEx
