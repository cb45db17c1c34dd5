import Blocxx.RegEx.RegEx

/-!
This file proves when `replace` and `split` of the regular expressions return.
-/

namespace Blocxx.RegEx

open Time CharString Library.Loop Relation

/-- A search from an offset finds a match with these captures. -/
def Finds (execute : Text → Nat → Except RegExException Executed) (str : Text) (off : Nat)
    (rsub : List Match) (whole : Match) : Prop :=
  ∃ done others, execute str off = .ok done ∧ done.isMatch = true ∧ done.rsub = rsub ∧
    rsub = whole :: others

/-- Every match lies in the string behind the offset of its search. -/
def Bounded (execute : Text → Nat → Except RegExException Executed) : Prop :=
  ∀ str off rsub whole, Finds execute str off rsub whole → whole.Within off str.length

section Replace

variable (engine : Engine) (unwritten : Nat → Char) (rep : Text)

/-- A match is replaced, and something is left of the string behind it. -/
def ReplacesOnce (state later : Replacing) : Prop :=
  ∃ rsub whole, Finds engine.replaceExecute state.out state.off rsub whole ∧
    later = state.replaced unwritten rep rsub whole ∧ later.off < later.out.length

/-- The match is empty and at the offset itself, and something is left behind its replacement. -/
def ReplacesNothing (state : Replacing) : Prop :=
  ∃ rsub, Finds engine.replaceExecute state.out state.off rsub ⟨state.off, state.off⟩ ∧
    (state.replaced unwritten rep rsub ⟨state.off, state.off⟩).off <
      (state.replaced unwritten rep rsub ⟨state.off, state.off⟩).out.length

/-- After every replacement there is a search that does not only find nothing at its offset. -/
def KeepsReplacing (str : Text) : Prop :=
  ∀ state, ReflTransGen (ReplacesOnce engine unwritten rep) ⟨str, 0⟩ state →
    ∃ later, ReflTransGen (ReplacesOnce engine unwritten rep) state later ∧
      ¬ ReplacesNothing engine unwritten rep later

variable {engine unwritten rep}

/-- A replacement leaves at most what was behind the match. -/
theorem replaced_rest (unwritten : Nat → Char) (rep : Text) {state : Replacing}
    (rsub : List Match) {whole : Match}
    (within : whole.Within state.off state.out.length) :
    (state.replaced unwritten rep rsub whole).out.length -
        (state.replaced unwritten rep rsub whole).off ≤
      state.out.length - whole.rm_eo.toNat := by
  obtain ⟨behind, ordered, inside⟩ := within
  have rest := cString_length_le (state.out.drop whole.rm_eo.toNat)
  have short := cString_length_le (substitute_caps unwritten rsub state.out rep)
  rw [List.length_drop] at rest
  unfold Replacing.replaced
  dsimp only
  rw [concat_length, concat_length, substring, List.drop_zero, List.length_take]
  omega

theorem Match.Within.eq_empty {offset length : Nat} {whole : Match}
    (within : whole.Within offset length) (ends : whole.rm_eo.toNat ≤ offset) :
    whole = ⟨offset, offset⟩ := by
  obtain ⟨behind, ordered, inside⟩ := within
  obtain ⟨rm_so, rm_eo⟩ := whole
  dsimp only at behind ordered ends
  rw [Match.mk.injEq]
  omega

theorem replaceBody_next_iff (bounded : Bounded engine.replaceExecute) {state later : Replacing} :
    engine.replaceBody unwritten rep true state = .next later ↔
      ReplacesOnce engine unwritten rep state later := by
  unfold Engine.replaceBody ReplacesOnce Finds
  constructor
  · intro goes
    cases ran : engine.replaceExecute state.out state.off with
    | error exception =>
        rw [ran] at goes
        cases goes
    | ok done =>
        rw [ran] at goes
        dsimp only at goes
        split at goes
        next found =>
          cases captures : done.rsub with
          | nil =>
              rw [captures] at goes
              cases goes
          | cons whole others =>
              rw [captures] at goes
              dsimp only at goes
              split at goes
              · cases goes
              split at goes
              next left =>
                cases goes
                exact ⟨whole :: others, whole, ⟨done, others, rfl, found, captures, rfl⟩, rfl,
                  left.2⟩
              · cases goes
        · split at goes
          · cases goes
          · cases goes
  · rintro ⟨rsub, whole, ⟨done, others, ran, found, rfl, captures⟩, rfl, left⟩
    have within := bounded _ _ _ _ ⟨done, others, ran, found, rfl, captures⟩
    obtain ⟨behind, ordered, inside⟩ := within
    rw [ran]
    dsimp only
    rw [if_pos found, captures]
    dsimp only
    rw [if_neg (by omega), if_pos ⟨rfl, by rw [← captures]; exact left⟩]

theorem visits_replace_iff (bounded : Bounded engine.replaceExecute) {start state : Replacing} :
    Visits (engine.replaceBody unwritten rep true) start state ↔
      ReflTransGen (ReplacesOnce engine unwritten rep) start state := by
  constructor
  · intro visits
    induction visits with
    | start => exact .refl
    | next before goes ih => exact ih.tail ((replaceBody_next_iff bounded).mp goes)
  · intro reaches
    induction reaches with
    | refl => exact .start
    | tail before goes ih => exact .next ih ((replaceBody_next_iff bounded).mpr goes)

theorem replaces_iff (bounded : Bounded engine.replaceExecute) (str : Text) :
    (∃ result, engine.Replaces unwritten str rep true result) ↔
      KeepsReplacing engine unwritten rep str := by
  unfold Engine.Replaces KeepsReplacing
  rw [returns_iff_not_idle (fun state => state.out.length - state.off)
    (ReplacesNothing engine unwritten rep)]
  · simp only [visits_replace_iff bounded]
  · rintro state - ⟨rsub, finds, left⟩
    exact ⟨_, (replaceBody_next_iff bounded).mpr ⟨rsub, _, finds, rfl, left⟩⟩
  · intro state later _ goes
    obtain ⟨rsub, whole, finds, rfl, left⟩ := (replaceBody_next_iff bounded).mp goes
    have within := bounded _ _ _ _ finds
    have rest := replaced_rest unwritten rep rsub within
    obtain ⟨behind, ordered, inside⟩ := within
    omega
  · intro state later _ goes moves
    obtain ⟨rsub, whole, finds, rfl, left⟩ := (replaceBody_next_iff bounded).mp goes
    have within := bounded _ _ _ _ finds
    have rest := replaced_rest unwritten rep rsub within
    have ahead : state.off < whole.rm_eo.toNat := by
      by_contra stays
      obtain rfl := within.eq_empty (Nat.le_of_not_lt stays)
      exact moves ⟨rsub, finds, left⟩
    omega

end Replace

section Split

variable (engine : Engine) (str : Text)

/-- A separator is found behind an offset, and something is left of the string behind it. -/
def SplitsOnce (off later : Nat) : Prop :=
  ∃ rsub whole, Finds engine.splitExecute str off rsub whole ∧ later = whole.rm_eo.toNat ∧
    later < str.length

/-- No search finds an empty separator at its own offset before the end of the string. -/
def KeepsSplitting : Prop :=
  ∀ off, ReflTransGen (SplitsOnce engine str) 0 off → off < str.length →
    ∀ rsub, ¬ Finds engine.splitExecute str off rsub ⟨off, off⟩

variable {engine str} {empty : Bool}

theorem splitBody_next (bounded : Bounded engine.splitExecute) (state : Splitting) {off : Nat}
    (splits : SplitsOnce engine str state.off off) :
    ∃ ssub, engine.splitBody str empty state = .next ⟨ssub, off⟩ := by
  obtain ⟨rsub, whole, ⟨done, others, ran, found, rfl, captures⟩, rfl, left⟩ := splits
  obtain ⟨behind, ordered, inside⟩ := bounded _ _ _ _ ⟨done, others, ran, found, rfl, captures⟩
  unfold Engine.splitBody
  rw [ran]
  dsimp only
  rw [if_pos found, captures]
  dsimp only
  rw [if_neg (by omega), if_pos left]
  exact ⟨_, rfl⟩

theorem splitsOnce_of_next {state later : Splitting}
    (goes : engine.splitBody str empty state = .next later) :
    SplitsOnce engine str state.off later.off := by
  unfold Engine.splitBody at goes
  cases ran : engine.splitExecute str state.off with
  | error exception =>
      rw [ran] at goes
      cases goes
  | ok done =>
      rw [ran] at goes
      dsimp only at goes
      split at goes
      next found =>
        cases captures : done.rsub with
        | nil =>
            rw [captures] at goes
            cases goes
        | cons whole others =>
            rw [captures] at goes
            dsimp only at goes
            split at goes
            · cases goes
            split at goes
            next left =>
              cases goes
              exact ⟨_, whole, ⟨done, others, ran, found, captures, rfl⟩, rfl, left⟩
            · cases goes
      · split at goes
        · cases goes
        · cases goes

theorem splitsOnce_of_visits {start state : Splitting}
    (visits : Visits (engine.splitBody str empty) start state) :
    ReflTransGen (SplitsOnce engine str) start.off state.off := by
  induction visits with
  | start => exact .refl
  | next before goes ih => exact ih.tail (splitsOnce_of_next goes)

theorem visits_of_splitsOnce (bounded : Bounded engine.splitExecute) (start : Splitting)
    {off : Nat} (reaches : ReflTransGen (SplitsOnce engine str) start.off off) :
    ∃ ssub, Visits (engine.splitBody str empty) start ⟨ssub, off⟩ := by
  induction reaches with
  | refl => exact ⟨start.ssub, .start⟩
  | tail before splits ih =>
      obtain ⟨ssub, visits⟩ := ih
      obtain ⟨longer, goes⟩ := splitBody_next bounded ⟨ssub, _⟩ splits
      exact ⟨longer, .next visits goes⟩

/-- The offset is the same after an empty separator at the offset itself. -/
theorem splitsOnce_empty {off later : Nat} {rsub : List Match}
    (finds : Finds engine.splitExecute str off rsub ⟨off, off⟩)
    (splits : SplitsOnce engine str off later) : later = off := by
  obtain ⟨done, others, ran, -, same, captures⟩ := finds
  obtain ⟨rsub', whole, ⟨done', others', ran', -, same', captures'⟩, rfl, -⟩ := splits
  rw [ran] at ran'
  cases ran'
  rw [same] at same'
  rw [← same', captures] at captures'
  cases captures'
  exact Int.toNat_natCast off

theorem splits_iff (bounded : Bounded engine.splitExecute) :
    (∃ result, engine.Splits str empty result) ↔ KeepsSplitting engine str := by
  unfold Engine.Splits
  rw [returns_iff_not_idle (fun state => str.length - state.off) (fun state =>
    state.off < str.length ∧ ∃ rsub, Finds engine.splitExecute str state.off rsub
      ⟨state.off, state.off⟩)]
  · constructor
    · intro busy off reaches before rsub finds
      obtain ⟨ssub, visits⟩ := visits_of_splitsOnce bounded ⟨[], 0⟩ reaches
      obtain ⟨later, visitsLater, moves⟩ := busy ⟨ssub, off⟩ visits
      have same : later.off = off := by
        clear moves
        induction visitsLater with
        | start => rfl
        | next _ goes ih =>
            have splits := splitsOnce_of_next goes
            rw [ih] at splits
            exact splitsOnce_empty finds splits
      rw [same] at moves
      exact moves ⟨before, rsub, finds⟩
    · intro keeps state visits
      refine ⟨state, .start, ?_⟩
      rintro ⟨before, rsub, finds⟩
      exact keeps state.off (splitsOnce_of_visits visits) before rsub finds
  · rintro state - ⟨before, rsub, finds⟩
    obtain ⟨ssub, goes⟩ := splitBody_next bounded state
      ⟨rsub, _, finds, (Int.toNat_natCast state.off).symm, before⟩
    exact ⟨_, goes⟩
  · intro state later _ goes
    obtain ⟨rsub, whole, finds, ends, left⟩ := splitsOnce_of_next goes
    obtain ⟨behind, ordered, inside⟩ := bounded _ _ _ _ finds
    omega
  · intro state later _ goes moves
    obtain ⟨rsub, whole, finds, ends, left⟩ := splitsOnce_of_next goes
    have within := bounded _ _ _ _ finds
    have ahead : state.off < whole.rm_eo.toNat := by
      by_contra stays
      obtain rfl := within.eq_empty (Nat.le_of_not_lt stays)
      rw [Int.toNat_natCast] at ends
      exact moves ⟨ends ▸ left, rsub, finds⟩
    omega

end Split

section Posix

theorem PosixRegEx.execute_bounded (regex : PosixRegEx) (count : Nat) :
    Bounded fun str off => regex.execute str off count := by
  rintro str off rsub whole ⟨done, others, ran, found, rfl, captures⟩
  unfold PosixRegEx.execute at ran
  dsimp only at ran
  have counted : 0 < if count = 0 then regex.re_nsub + 1 else count := by
    split
    · omega
    · omega
  generalize (if count = 0 then regex.re_nsub + 1 else count) = total at ran counted
  split at ran
  · cases ran
  split at ran
  · cases ran
  split at ran
  next matched =>
    obtain ⟨behind, ordered, ends⟩ := regex.regexec_within _ _ matched
    have length := cString_length_le (str.drop off)
    rw [List.length_drop] at length
    split at ran
    · cases ran
      cases captures
    · cases ran
      obtain ⟨total, rfl⟩ := Nat.exists_eq_add_of_lt counted
      dsimp only at captures
      rw [Nat.zero_add, List.range_succ_eq_map, List.map_cons] at captures
      obtain ⟨first, -⟩ := List.cons.inj captures
      rw [Nat.zero_add] at behind ordered ends
      rw [← first, if_neg (by omega)]
      exact ⟨by dsimp only; omega, by dsimp only; omega, by dsimp only; omega⟩
  · cases ran
    cases found

end Posix

section Perl

theorem PerlRegEx.search_bounded (regex : PerlRegEx) {str : Text} {off count : Nat}
    (some_count : 0 < count) {whole : Match} {others : List Match}
    (found : (regex.search str off count).isMatch = true)
    (captures : (regex.search str off count).rsub = whole :: others) :
    whole.Within off str.length := by
  unfold PerlRegEx.search at found captures
  dsimp only at found captures
  split at found
  next matched =>
    rw [if_pos matched] at captures
    have within := regex.pcre_exec_within _ _ _ matched
    cases count with
    | zero => cases some_count
    | succ count =>
        rw [List.range_succ_eq_map, List.map_cons] at captures
        obtain ⟨first, -⟩ := List.cons.inj captures
        rw [← first, if_neg (by push_cast; omega)]
        exact within
  · cases found

theorem PerlRegEx.execute_bounded (regex : PerlRegEx) (count : Nat) :
    Bounded fun str off => regex.execute str off count := by
  rintro str off rsub whole ⟨done, others, ran, found, rfl, captures⟩
  unfold PerlRegEx.execute at ran
  dsimp only at ran
  split at ran
  · cases ran
  split at ran
  · cases ran
  split at ran
  · cases ran
  split at ran
  · cases known : regex.captureCount with
    | none =>
        rw [known] at ran
        cases ran
        cases found
    | some cnt =>
        rw [known] at ran
        cases ran
        refine regex.search_bounded ?_ found captures
        split
        · omega
        · omega
  next some_count =>
    cases ran
    exact regex.search_bounded (Nat.pos_of_ne_zero some_count) found captures

end Perl

/-- A call on a pattern that is not compiled throws. -/
theorem unless_not_compiled {Result : Type} {compiled : Bool}
    {Finishes : Except RegExException Result → Prop} {Keeps : Prop}
    (finishes : (∃ result, Finishes result) ↔ Keeps) :
    (∃ result, if !compiled then result = .error notCompiled else Finishes result) ↔
      (compiled → Keeps) := by
  cases compiled with
  | false =>
      constructor
      · intro _ impossible
        cases impossible
      · intro _
        exact ⟨_, rfl⟩
  | true =>
      rw [← finishes]
      constructor
      · intro done _
        exact done
      · intro done
        exact done rfl

/-- The results of all four functions for every matcher. They finish exactly when no search before
the end of the string goes on finding an empty match at its own offset. -/
theorem finish_iff (posix : PosixRegEx) (perl : PerlRegEx) (unwritten : Nat → Char)
    (str rep : Text) (empty : Bool) :
    ((∃ result, posix.Replaces unwritten str rep true result) ↔
        (posix.compiled → KeepsReplacing posix.engine unwritten rep str)) ∧
      ((∃ result, posix.Splits str empty result) ↔
        (posix.compiled → KeepsSplitting posix.engine str)) ∧
      ((∃ result, perl.Replaces unwritten str rep true result) ↔
        (perl.compiled → KeepsReplacing perl.engine unwritten rep str)) ∧
      ((∃ result, perl.Splits str empty result) ↔
        (perl.compiled → KeepsSplitting perl.engine str)) := by
  refine ⟨?_, ?_, ?_, ?_⟩
  · exact unless_not_compiled (replaces_iff (posix.execute_bounded 0) str)
  · exact unless_not_compiled (splits_iff (posix.execute_bounded 1))
  · exact unless_not_compiled (replaces_iff (perl.execute_bounded 0) str)
  · exact unless_not_compiled (splits_iff (perl.execute_bounded 0))

section Star

/-- The characters `x` at the start of a string. -/
def leading (text : Text) : Nat := (text.takeWhile (· = 'x')).length

theorem leading_le (text : Text) : leading text ≤ text.length :=
  (List.takeWhile_sublist _).length_le

/-- The pattern `x*` without captures. -/
def posixStar : PosixRegEx where
  compiled := true
  nosub := false
  re_nsub := 0
  regexec text _ := (REG_NOERROR, fun n => if n = 0 then ⟨0, leading text⟩ else ⟨-1, -1⟩)
  regerror _ := []
  regexec_within text count _ := by
    have short := leading_le text
    exact ⟨le_rfl, Int.natCast_nonneg _, Int.ofNat_le.mpr short⟩

/-- The pattern `x*` without captures. -/
def perlStar : PerlRegEx where
  compiled := true
  m_ecode := 0
  captureCount := some 0
  pcre_exec text index _ :=
    if index ≤ text.length then
      (1, fun n => if n = 0 then ⟨index, index + leading (text.drop index)⟩ else ⟨-1, -1⟩)
    else (PCRE_ERROR_NOMATCH, fun _ => ⟨-1, -1⟩)
  pcre_exec_within text index count found := by
    split at found
    next inside =>
      have short := leading_le (text.drop index)
      rw [List.length_drop] at short
      rw [if_pos inside]
      show Match.Within index text.length ⟨index, index + leading (text.drop index)⟩
      exact ⟨le_rfl, by dsimp only; omega, by dsimp only; omega⟩
    · cases found

theorem substitute_caps_nil (unwritten : Nat → Char) (sub : List Match) (str : Text) :
    substitute_caps unwritten sub str [] = [] := by
  have none (cap_ref cap : Text) : substituteCap unwritten cap_ref cap [] 0 = [] := by
    rw [substituteCap]
    rfl
  unfold substitute_caps
  simp only [List.foldl_cons, List.foldl_nil, none]

/-- The loop of `replace` comes back to its first state. -/
theorem replaceBody_star (engine : Engine) (done : Executed) (others : List Match)
    (ran : engine.replaceExecute ['a', 'b'] 0 = .ok done) (found : done.isMatch = true)
    (captures : done.rsub = ⟨0, 0⟩ :: others) :
    engine.replaceBody (fun _ => '\x00') [] true ⟨['a', 'b'], 0⟩ = .next ⟨['a', 'b'], 0⟩ := by
  unfold Engine.replaceBody
  rw [ran]
  dsimp only
  rw [if_pos found, captures]
  dsimp only
  rw [Replacing.replaced, substitute_caps_nil]
  rfl

theorem not_returns_of_idle {State Result : Type} {body : State → Iteration State Result}
    {state : State} (idle : body state = .next state) (result : Result) :
    ¬ Returns body state result := by
  apply @not_returns_of_recurrence _ _ _ (· = state) ?_ state rfl
  rintro here rfl
  exact ⟨here, here, .start, idle, rfl⟩

/-- The pattern `x*` neither replaces its matches in `ab` by nothing nor splits `ab`. -/
theorem star_never_finishes :
    (∀ result, ¬ posixStar.Replaces (fun _ => '\x00') ['a', 'b'] [] true result) ∧
      (∀ result, ¬ posixStar.Splits ['a', 'b'] false result) ∧
      (∀ result, ¬ perlStar.Replaces (fun _ => '\x00') ['a', 'b'] [] true result) ∧
      ∀ result, ¬ perlStar.Splits ['a', 'b'] false result := by
  refine ⟨?_, ?_, ?_, ?_⟩
  · exact not_returns_of_idle (replaceBody_star _ _ _ rfl rfl rfl)
  · exact not_returns_of_idle rfl
  · exact not_returns_of_idle (replaceBody_star _ _ _ rfl rfl rfl)
  · exact not_returns_of_idle rfl

end Star

end Blocxx.RegEx
