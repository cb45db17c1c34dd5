import Blocxx.Library.Loop
import Blocxx.String.Text

/-!
This file embeds `replace` and `split` of `PosixRegEx` and `PerlRegEx`. Characters are single
bytes, and a compiled pattern is the function that `regexec` or `pcre_exec` computes for it.
-/

namespace Blocxx.RegEx

open Time CharString Library.Loop

section StringOperations

def strstr (haystack needle : Text) : Option Nat :=
  if needle.isPrefixOf haystack then some 0
  else
    match haystack with
    | [] => none
    | _ :: rest => (strstr rest needle).map (· + 1)

/-- `String::indexOf`. No answer is `npos`. -/
def indexOf (str arg : Text) (fromIndex : Nat) : Option Nat :=
  if fromIndex < str.length then
    (strstr (cString (str.drop fromIndex)) (cString arg)).map (fromIndex + ·)
  else none

def erase (unwritten : Nat → Char) (str : Text) (idx len : Nat) : Text :=
  if idx ≥ str.length then str
  else concat unwritten (substring str 0 idx) (str.drop (idx + len))

/-- A search without an answer is one for a string that is nowhere in the other. -/
theorem strstr_eq_none {haystack needle : Text} (none : strstr haystack needle = none) :
    ¬ needle <:+: haystack := by
  induction haystack with
  | nil =>
      unfold strstr at none
      split at none
      · cases none
      · next other =>
          intro inside
          exact other (by simp [List.infix_nil.mp inside])
  | cons c rest ih =>
      unfold strstr at none
      split at none
      · cases none
      · next other =>
          rw [List.infix_cons_iff]
          rintro (starts | inside)
          · exact other (List.isPrefixOf_iff_prefix.mpr starts)
          · exact ih (Option.map_eq_none_iff.mp none) inside

/-- A search finds the first place where the string is. -/
theorem strstr_eq_some {haystack needle : Text} (notEmpty : needle ≠ []) {index : Nat}
    (found : strstr haystack needle = some index) : ∃ front rest,
      haystack = front ++ needle ++ rest ∧ front.length = index ∧ ¬ needle <:+: front := by
  induction haystack generalizing index with
  | nil =>
      unfold strstr at found
      split at found
      · next starts =>
          exact absurd (List.prefix_nil.mp (List.isPrefixOf_iff_prefix.mp starts)) notEmpty
      · cases found
  | cons c haystack ih =>
      unfold strstr at found
      split at found
      · next starts =>
          obtain ⟨rest, same⟩ := List.isPrefixOf_iff_prefix.mp starts
          obtain rfl := Option.some.inj found
          exact ⟨[], rest, same.symm, rfl, fun inside => notEmpty (List.infix_nil.mp inside)⟩
      · next other =>
          obtain ⟨index, later, rfl⟩ := Option.map_eq_some_iff.mp found
          obtain ⟨front, rest, rfl, rfl, outside⟩ := ih later
          refine ⟨c :: front, rest, rfl, rfl, ?_⟩
          rw [List.infix_cons_iff]
          rintro (starts | inside)
          · refine other (List.isPrefixOf_iff_prefix.mpr ?_)
            rw [List.append_assoc]
            exact starts.trans (List.prefix_append (c :: front) _)
          · exact outside inside

/-- The backslashes directly before a position. -/
def countQuotes (res : Text) (pos : Nat) : Nat :=
  ((res.take pos).reverse.takeWhile (· = '\\')).length

theorem indexOf_range {str arg : Text} {fromIndex pos : Nat}
    (found : indexOf str arg fromIndex = some pos) :
    fromIndex < str.length ∧ fromIndex ≤ pos := by
  unfold indexOf at found
  split at found
  next inside =>
    refine ⟨inside, ?_⟩
    obtain ⟨distance, -, rfl⟩ := Option.map_eq_some_iff.mp found
    exact Nat.le_add_right _ _
  · cases found

end StringOperations

/-- `regmatch_t` and `match_t`. -/
structure Match where
  rm_so : Int
  rm_eo : Int
  deriving DecidableEq

/-- The match of a search from an offset in a string of a length. -/
def Match.Within (offset length : Nat) (found : Match) : Prop :=
  offset ≤ found.rm_so ∧ found.rm_so ≤ found.rm_eo ∧ found.rm_eo ≤ length

section SubstituteCaps

variable (unwritten : Nat → Char)

/-- What the loop of `substitute_caps` does with a reference that it has found. It answers the
string and the index at which it looks for the next one. -/
def substituteAt (cap res : Text) (pos : Nat) : Text × Nat :=
  let quotes := countQuotes res pos
  if quotes % 2 = 1 then
    let quotes := (quotes + 1) / 2
    (erase unwritten res (pos - quotes) quotes, pos + 2 - quotes)
  else
    let quotes := quotes / 2
    (concat unwritten (concat unwritten (substring res 0 (pos - quotes)) cap) (res.drop (pos + 2)),
      pos + cap.length - quotes)

theorem countQuotes_le (res : Text) (pos : Nat) : countQuotes res pos ≤ pos := by
  have shorter := (List.takeWhile_sublist (· = '\\') (l := (res.take pos).reverse)).length_le
  rw [List.length_reverse, List.length_take] at shorter
  exact shorter.trans (Nat.min_le_left _ _)

/-- Less of the string is left behind the next index than behind the reference. -/
theorem substituteAt_rest (cap res : Text) (pos : Nat) :
    (substituteAt unwritten cap res pos).1.length - (substituteAt unwritten cap res pos).2 ≤
      res.length - (pos + 1) := by
  have few := countQuotes_le res pos
  unfold substituteAt
  dsimp only
  split
  · unfold erase
    split
    · show res.length - _ ≤ _
      omega
    · have rest := cString_length_le (res.drop (pos - (countQuotes res pos + 1) / 2 +
        (countQuotes res pos + 1) / 2))
      rw [List.length_drop] at rest
      show (concat unwritten (substring res 0 _) _).length - _ ≤ _
      rw [concat_length, substring, List.drop_zero, List.length_take]
      omega
  · have rest := cString_length_le (res.drop (pos + 2))
    have short := cString_length_le cap
    rw [List.length_drop] at rest
    show (concat unwritten (concat unwritten (substring res 0 _) cap) _).length - _ ≤ _
    rw [concat_length, concat_length, substring, List.drop_zero, List.length_take]
    omega

/-- The loop of `substitute_caps` for one reference. -/
def substituteCap (cap_ref cap res : Text) (fromIndex : Nat) : Text :=
  match _found : indexOf res cap_ref fromIndex with
  | none => res
  | some pos =>
      substituteCap cap_ref cap (substituteAt unwritten cap res pos).1
        (substituteAt unwritten cap res pos).2
termination_by res.length - fromIndex
decreasing_by
  have inside := indexOf_range _found
  have rest := substituteAt_rest unwritten cap res pos
  omega

/-- The text that a capture stands for. -/
def capture (sub : List Match) (str : Text) (i : Nat) : Text :=
  match sub[i]? with
  | some found =>
      if found.rm_so ≥ 0 ∧ found.rm_eo ≥ 0 then
        substring str found.rm_so.toNat (found.rm_eo - found.rm_so).toNat
      else []
  | none => []

def substitute_caps (sub : List Match) (str rep : Text) : Text :=
  [(1, "\\1"), (2, "\\2"), (3, "\\3"), (4, "\\4"), (5, "\\5"), (6, "\\6"), (7, "\\7"), (8, "\\8"),
    (9, "\\9")].foldl
    (fun res cap_ref => substituteCap unwritten cap_ref.2.toList (capture sub str cap_ref.1) res 0)
    rep

end SubstituteCaps

inductive RegExException where
  | compile (message : String)
  | assertion (message : String)
  | outOfBounds (message : String)
  | execute (errorString : Text) (code : Int)

/-- What `execute` answers, and what it leaves in the object. -/
structure Executed where
  isMatch : Bool
  rsub : List Match
  m_ecode : Int
  m_error : Text

def notCompiled : RegExException := .compile "Regular expression is not compiled"

def nonCapturing : RegExException := .compile "Non-capturing regular expression"

def outOfBounds (length index : Nat) : RegExException :=
  .outOfBounds s!"String index out of bounds (length = {length}, index = {index})."

/-- The part in which the two classes differ. -/
structure Engine where
  replaceExecute : Text → Nat → Except RegExException Executed
  splitExecute : Text → Nat → Except RegExException Executed
  noMatch : Int

/-- The local variables of `replace`. -/
structure Replacing where
  out : Text
  off : Nat

/-- The string after a match is replaced, and the offset behind the replacement. -/
def Replacing.replaced (unwritten : Nat → Char) (rep : Text) (state : Replacing)
    (rsub : List Match) (whole : Match) : Replacing :=
  let res := substitute_caps unwritten rsub state.out rep
  ⟨concat unwritten (concat unwritten (substring state.out 0 whole.rm_so.toNat) res)
      (state.out.drop whole.rm_eo.toNat),
    whole.rm_so.toNat + res.length⟩

/-- The body of the loop of `replace`. -/
def Engine.replaceBody (engine : Engine) (unwritten : Nat → Char) (rep : Text)
    (isGlobal : Bool) (state : Replacing) : Iteration Replacing (Except RegExException Text) :=
  match engine.replaceExecute state.out state.off with
  | .error exception => .stop (.error exception)
  | .ok done =>
      if done.isMatch then
        match done.rsub with
        | [] => .stop (.error nonCapturing)
        | whole :: _ =>
            if whole.rm_so < 0 ∨ whole.rm_eo < 0 then .stop (.error nonCapturing)
            else
              let later := state.replaced unwritten rep done.rsub whole
              if isGlobal ∧ later.out.length > later.off then .next later
              else .stop (.ok later.out)
      else if done.m_ecode = engine.noMatch then .stop (.ok state.out)
      else .stop (.error (.execute done.m_error done.m_ecode))

/-- The local variables of `split`. -/
structure Splitting where
  ssub : List Text
  off : Nat

/-- The body of the loop of `split`. -/
def Engine.splitBody (engine : Engine) (str : Text) (empty : Bool) (state : Splitting) :
    Iteration Splitting (Except RegExException (List Text)) :=
  match engine.splitExecute str state.off with
  | .error exception => .stop (.error exception)
  | .ok done =>
      if done.isMatch then
        match done.rsub with
        | [] => .stop (.error nonCapturing)
        | whole :: _ =>
            if whole.rm_so < 0 ∨ whole.rm_eo < 0 then .stop (.error nonCapturing)
            else
              let ssub :=
                if empty ∨ whole.rm_so.toNat > state.off then
                  state.ssub ++ [substring str state.off (whole.rm_so.toNat - state.off)]
                else state.ssub
              let off := whole.rm_eo.toNat
              if str.length > off then .next ⟨ssub, off⟩ else .stop (.ok ssub)
      else if done.m_ecode = engine.noMatch then
        let tmp := str.drop state.off
        .stop (.ok (if empty ∨ tmp ≠ [] then state.ssub ++ [tmp] else state.ssub))
      else .stop (.error (.execute done.m_error done.m_ecode))

def REG_NOERROR : Int := 0

def REG_NOMATCH : Int := 1

/-- A `PosixRegEx` with the flags of one call. -/
structure PosixRegEx where
  compiled : Bool
  /-- The pattern is compiled with `REG_NOSUB`. -/
  nosub : Bool
  re_nsub : Nat
  /-- The code and the vector that `regexec` answers for a C string and a count. -/
  regexec : Text → Nat → Int × (Nat → Match)
  regerror : Int → Text
  regexec_within : ∀ text count, (regexec text count).1 = REG_NOERROR →
    ((regexec text count).2 0).Within 0 text.length

def PosixRegEx.execute (regex : PosixRegEx) (str : Text) (index count : Nat) :
    Except RegExException Executed :=
  if !regex.compiled then .error notCompiled
  else if index > str.length then .error (outOfBounds str.length index)
  else
    let count := if count = 0 then regex.re_nsub + 1 else count
    let answer := regex.regexec (cString (str.drop index)) count
    if answer.1 = REG_NOERROR then
      if regex.nosub then .ok ⟨true, [], answer.1, []⟩
      else
        let sub := (List.range count).map fun n =>
          let found := answer.2 n
          if found.rm_so < 0 ∨ found.rm_eo < 0 then found
          else ⟨found.rm_so + index, found.rm_eo + index⟩
        .ok ⟨true, sub, answer.1, []⟩
    else .ok ⟨false, [], answer.1, regex.regerror answer.1⟩

def PosixRegEx.engine (regex : PosixRegEx) : Engine where
  replaceExecute str off := regex.execute str off 0
  splitExecute str off := regex.execute str off 1
  noMatch := REG_NOMATCH

def PCRE_ERROR_NOMATCH : Int := -1

/-- The documented values of the error codes of `pcre_exec`. -/
def pcreErrors : List (Int × String) :=
  [(0, "match vector to small"), (PCRE_ERROR_NOMATCH, "match failed"), (-2, "invalid argument"),
    (-3, "unrecognized option"), (-4, "invalid magic number"),
    (-5, "unknown item in the compiled pattern"), (-6, "failed to allocate memory"),
    (-7, "failed to retrieve substring"), (-8, "recursion or backtracking limit reached"),
    (-9, "callout failure"), (-10, "invalid UTF-8 byte sequence found"),
    (-11, "not a UTF-8 character at specified index"), (-12, "partial match"),
    (-13, "pattern item not supported for partial matching"),
    (-14, "unexpected internal error occurred"), (-15, "invalid (negative) match vector count")]

def getError (errcode : Int) : Text :=
  ((pcreErrors.lookup errcode).getD "unknown error code").toList

/-- A `PerlRegEx` with the flags of one call. -/
structure PerlRegEx where
  compiled : Bool
  m_ecode : Int
  /-- The number of captures that `pcre_fullinfo` answers, unless it fails. -/
  captureCount : Option Int
  /-- The code and the vector that `pcre_exec` answers for a string, an offset and a count. -/
  pcre_exec : Text → Nat → Nat → Int × (Nat → Match)
  pcre_exec_within : ∀ text index count, 0 < (pcre_exec text index count).1 →
    ((pcre_exec text index count).2 0).Within index text.length

def INT_MAX : Nat := 2 ^ 31 - 1

/-- The search of `execute` with a count that is not zero. -/
def PerlRegEx.search (regex : PerlRegEx) (str : Text) (index count : Nat) : Executed :=
  let answer := regex.pcre_exec str index count
  if answer.1 > 0 then
    let sub := (List.range count).map fun i : Nat =>
      if (i : Int) ≥ answer.1 then ⟨-1, -1⟩ else answer.2 i
    ⟨true, sub, answer.1, []⟩
  else ⟨false, [], answer.1, getError answer.1⟩

def PerlRegEx.execute (regex : PerlRegEx) (str : Text) (index count : Nat) :
    Except RegExException Executed :=
  if !regex.compiled then .error notCompiled
  else if count ≥ INT_MAX / 3 then .error (.assertion "Match count limit exceeded")
  else if index > str.length then .error (outOfBounds str.length index)
  else if count = 0 then
    match regex.captureCount with
    | none => .ok ⟨false, [], regex.m_ecode, getError regex.m_ecode⟩
    | some cnt => .ok (regex.search str index (if cnt > 0 then cnt.toNat + 1 else 1))
  else .ok (regex.search str index count)

def PerlRegEx.engine (regex : PerlRegEx) : Engine where
  replaceExecute str off := regex.execute str off 0
  splitExecute str off := regex.execute str off 0
  noMatch := PCRE_ERROR_NOMATCH

/-- A call of `replace` on a compiled pattern returns this string or throws this exception. -/
def Engine.Replaces (engine : Engine) (unwritten : Nat → Char) (str rep : Text) (isGlobal : Bool)
    (result : Except RegExException Text) : Prop :=
  Returns (engine.replaceBody unwritten rep isGlobal) ⟨str, 0⟩ result

/-- A call of `split` on a compiled pattern returns these strings or throws this exception. -/
def Engine.Splits (engine : Engine) (str : Text) (empty : Bool)
    (result : Except RegExException (List Text)) : Prop :=
  Returns (engine.splitBody str empty) ⟨[], 0⟩ result

/-- `PosixRegEx::replace` returns or throws this. -/
def PosixRegEx.Replaces (regex : PosixRegEx) (unwritten : Nat → Char) (str rep : Text)
    (isGlobal : Bool) (result : Except RegExException Text) : Prop :=
  if !regex.compiled then result = .error notCompiled
  else regex.engine.Replaces unwritten str rep isGlobal result

/-- `PosixRegEx::split` returns or throws this. -/
def PosixRegEx.Splits (regex : PosixRegEx) (str : Text) (empty : Bool)
    (result : Except RegExException (List Text)) : Prop :=
  if !regex.compiled then result = .error notCompiled else regex.engine.Splits str empty result

/-- `PerlRegEx::replace` returns or throws this. -/
def PerlRegEx.Replaces (regex : PerlRegEx) (unwritten : Nat → Char) (str rep : Text)
    (isGlobal : Bool) (result : Except RegExException Text) : Prop :=
  if !regex.compiled then result = .error notCompiled
  else regex.engine.Replaces unwritten str rep isGlobal result

/-- `PerlRegEx::split` returns or throws this. -/
def PerlRegEx.Splits (regex : PerlRegEx) (str : Text) (empty : Bool)
    (result : Except RegExException (List Text)) : Prop :=
  if !regex.compiled then result = .error notCompiled else regex.engine.Splits str empty result

end Blocxx.RegEx
