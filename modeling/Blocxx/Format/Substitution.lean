import Blocxx.Format.Reference
import Blocxx.String.Text

/-!
This file proves when `Format` computes the documented expansion.
-/

namespace Blocxx.Format

open Time CharString Library.Loop

section Stream

variable {oss : OStringStream}

theorem insert_plain (plain : oss.width = 0) (piece : Piece) (length : Nat) :
    (oss.insert piece length).pieces = oss.pieces ++ [piece] ∧
      (oss.insert piece length).width = 0 := by
  have none : (oss.width - length).toNat = 0 := by omega
  refine ⟨?_, rfl⟩
  rw [OStringStream.insert, none]
  dsimp only
  split <;> rfl

/-- A put argument is one piece, whatever its flags are. -/
theorem put_plain (plain : oss.width = 0) (k : Nat) (flags : Flags) :
    (put oss k flags).pieces = oss.pieces ++ [.argument k] ∧ (put oss k flags).width = 0 := by
  refine ⟨?_, plain⟩
  unfold put clearFlags useFlags OStringStream.write
  dsimp only
  split <;> split <;> split <;> rfl

end Stream

theorem putArgs_none {n : Int} (few : n ≤ 0) (flags : Flags) (args : List Text) :
    ∀ (position : Nat) (oss : OStringStream), putArgs n flags position args oss = oss := by
  induction args generalizing n with
  | nil => exact fun position oss => rfl
  | cons t args ih =>
      intro position oss
      rw [putArgs, if_neg (by omega)]
      exact ih (by omega) _ _

theorem putArgs_beyond (flags : Flags) (args : List Text) :
    ∀ {n : Int}, (args.length : Int) < n → ∀ (position : Nat) (oss : OStringStream),
      putArgs n flags position args oss = oss := by
  induction args with
  | nil => exact fun _ position oss => rfl
  | cons t args ih =>
      intro n more position oss
      rw [List.length_cons] at more
      rw [putArgs, if_neg (by omega)]
      exact ih (by omega) _ _

theorem putArgs_inside (flags : Flags) (args : List Text) :
    ∀ {k : Nat}, 1 ≤ k → k ≤ args.length → ∀ (position : Nat) (oss : OStringStream),
      putArgs k flags position args oss = put oss (position + k - 1) flags := by
  induction args with
  | nil =>
      intro k positive inside
      rw [List.length_nil] at inside
      omega
  | cons t args ih =>
      intro k positive inside position oss
      rw [List.length_cons] at inside
      by_cases one : k = 1
      · rw [putArgs, if_pos (by omega), one]
        rfl
      · obtain ⟨rest, rfl⟩ : ∃ rest, k = rest + 1 := ⟨k - 1, by omega⟩
        have less : ((rest + 1 : Nat) : Int) - 1 = (rest : Nat) := by omega
        rw [putArgs, if_neg (by omega), less, ih (by omega) (by omega)]
        congr 1
        omega

theorem toInt_of_small {c : Nat} (small : (c : Int) ≤ INT_MAX) : toInt c = c := by
  have bound : INT_MAX = 2147483647 := by decide
  rw [bound] at small
  refine Int.bmod_eq_of_le ?_ ?_
  · norm_num
  · norm_num
    omega

/-- What the stream has after an argument of the given number. -/
theorem putArgs_named {args : List Text} {oss : OStringStream} (plain : oss.width = 0) {k : Nat}
    (small : (k : Int) ≤ INT_MAX) (inside : 1 ≤ k ∧ k ≤ args.length) (flags : Flags) :
    (putArgs (toInt k) flags 1 args oss).pieces = oss.pieces ++ [.argument k] ∧
      (putArgs (toInt k) flags 1 args oss).width = 0 := by
  rw [toInt_of_small small, putArgs_inside flags args inside.1 inside.2, Nat.add_sub_cancel_left]
  exact put_plain plain k flags

/-- The argument that the return value of a failure puts. -/
def extra (count : Nat) : Ending → List Piece
  | .complete => []
  | _ => if 48 ≤ count then [.argument 48] else []

theorem putArgs_failed {args : List Text} {oss : OStringStream} (plain : oss.width = 0)
    (flags : Flags) :
    (putArgs (toInt '0'.toNat) flags 1 args oss).pieces =
      oss.pieces ++ if 48 ≤ args.length then [.argument 48] else [] := by
  have code : toInt '0'.toNat = ((48 : Nat) : Int) := by decide
  rw [code]
  by_cases many : 48 ≤ args.length
  · rw [if_pos many, putArgs_inside flags args (by decide) many]
    exact (put_plain plain 48 flags).1
  · rw [if_neg many, putArgs_beyond flags args (by omega), List.append_nil]

section Finish

variable {count : Nat} {oss : OStringStream}

theorem report_plain (plain : oss.width = 0) (text : Text) :
    (((oss.insertText stars).insertText (formatError text)).insertText ['\n']).pieces =
        oss.pieces ++ report [] text ∧
      (((oss.insertText stars).insertText (formatError text)).insertText ['\n']).width = 0 := by
  obtain ⟨first, one⟩ := insert_plain plain (.message stars) stars.length
  obtain ⟨second, two⟩ := insert_plain one (.message (formatError text)) (formatError text).length
  obtain ⟨third, three⟩ := insert_plain two (.message ['\n']) ['\n'].length
  refine ⟨?_, three⟩
  simp only [OStringStream.insertText] at third ⊢
  rw [third, second, first, List.append_assoc, List.append_assoc]
  rfl

theorem parameter_plain (plain : oss.width = 0) (k : Nat) :
    ((oss.insertText stars).insertText (parameterError count k)).pieces =
        oss.pieces ++ parameterReport count k ∧
      ((oss.insertText stars).insertText (parameterError count k)).width = 0 := by
  obtain ⟨first, one⟩ := insert_plain plain (.message stars) stars.length
  obtain ⟨second, two⟩ :=
    insert_plain one (.message (parameterError count k)) (parameterError count k).length
  refine ⟨?_, two⟩
  simp only [OStringStream.insertText] at second ⊢
  rw [second, first, List.append_assoc]
  rfl

/-- The step after the loop for a number outside of the arguments. -/
theorem finish_outside (plain : oss.width = 0) {text : Text} {i : Nat} (inside : i ≤ text.length)
    (err : Bool) {c : Nat} (number : c ≠ npos) (outside : ¬ (1 ≤ c ∧ c ≤ count)) (flags : Flags) :
    ∃ last, finish 1 count text i err c flags oss = ⟨'0'.toNat, [], flags, last⟩ ∧
      last.pieces = oss.pieces ++ report (parameterReport count c) (text.take (max i 1)) ∧
      last.width = 0 := by
  have error : (if i ≤ text.length ∧ c ≠ npos then
      if c > count then some (tooLarge c count)
      else if c < 1 then some (tooSmall c 1) else none else none) =
      some (parameterError count c) := by
    rw [if_pos ⟨inside, number⟩, parameterError]
    by_cases more : c > count
    · rw [if_pos more, if_pos more]
    · rw [if_neg more, if_neg more, if_pos (by omega)]
  obtain ⟨first, one⟩ := @parameter_plain count oss plain c
  obtain ⟨second, two⟩ := report_plain one (text.take (max i 1))
  refine ⟨_, ?_, ?_, two⟩
  · rw [finish, error]
    exact if_pos (.inr rfl)
  · rw [second, first, List.append_assoc]
    rfl

/-- The step after the loop for a number that names an argument. -/
theorem finish_inside {c : Nat} (inside : 1 ≤ c ∧ c ≤ count) (text : Text) (i : Nat)
    (flags : Flags) : finish 1 count text i false c flags oss = ⟨c, text.drop i, flags, oss⟩ := by
  have none : (if i ≤ text.length ∧ c ≠ npos then
      if c > count then some (tooLarge c count)
      else if c < 1 then some (tooSmall c 1) else none else none) = none := by
    rw [if_neg (not_lt.mpr inside.2), if_neg (not_lt.mpr inside.1), ite_self]
  rw [finish, none]
  exact if_neg (by simp)

/-- The step after the loop for a malformed specifier. -/
theorem finish_malformed (plain : oss.width = 0) (text : Text) (i : Nat) (c : Nat)
    (flags : Flags) :
    ∃ last lead, finish 1 count text i true c flags oss = ⟨'0'.toNat, [], flags, last⟩ ∧
      (lead = [] ∨ ∃ k, lead = parameterReport count k) ∧
      last.pieces = oss.pieces ++ report lead (text.take (max i 1)) ∧ last.width = 0 := by
  by_cases wrong : (i ≤ text.length ∧ c ≠ npos) ∧ ¬ (1 ≤ c ∧ c ≤ count)
  · obtain ⟨last, done, pieces, width⟩ :=
      finish_outside plain wrong.1.1 true wrong.1.2 wrong.2 flags
    exact ⟨last, _, done, .inr ⟨c, rfl⟩, pieces, width⟩
  · have error : (if i ≤ text.length ∧ c ≠ npos then
        if c > count then some (tooLarge c count)
        else if c < 1 then some (tooSmall c 1) else none else none) = none := by
      by_cases number : i ≤ text.length ∧ c ≠ npos
      · have inside : 1 ≤ c ∧ c ≤ count := not_not.mp fun outside => wrong ⟨number, outside⟩
        rw [if_neg (not_lt.mpr inside.2), if_neg (not_lt.mpr inside.1), ite_self]
      · rw [if_neg number]
    obtain ⟨pieces, width⟩ := report_plain plain (text.take (max i 1))
    refine ⟨_, [], ?_, .inl rfl, pieces, width⟩
    rw [finish, error]
    exact if_pos (.inl rfl)

end Finish

section Process

variable {count : Nat}

/-- A specifier that fits is scanned as a whole. -/
theorem process_specifier {specifier : Text} {k : Nat} (names : Specifies specifier k)
    (rest : Text) (flags : Flags) (oss : OStringStream) (fits : NumbersFit (specifier ++ rest)) :
    (k : Int) ≤ INT_MAX ∧ ∃ later, process 1 count (specifier ++ rest) flags oss =
      .ok (finish 1 count (specifier ++ rest) specifier.length false k later oss) := by
  cases names with
  | @digit c is =>
      have notPercent : c ≠ '%' := digit_ne is (by decide)
      have notBrace : c ≠ BRACE_OPEN := digit_ne is (by decide)
      have bound := of_decide_eq_true is
      refine ⟨?_, flags, ?_⟩
      · have most : c.toNat ≤ '9'.toNat := bound.2
        have nine : '9'.toNat = 57 := rfl
        have largest : INT_MAX = 2147483647 := by decide
        omega
      · show process 1 count ('%' :: c :: rest) flags oss = _
        rw [process, if_neg (not_not.mpr rfl)]
        dsimp only
        rw [if_neg notPercent, if_neg notBrace, if_pos is]
        rfl
  | @braces digits suffix number tail =>
      have shape : '%' :: '<' :: (digits ++ (suffix ++ ['>'])) ++ rest =
          '%' :: BRACE_OPEN :: (digits ++ (suffix ++ BRACE_CLOSE :: rest)) := by
        simp [BRACE_OPEN, BRACE_CLOSE]
      rw [shape] at fits ⊢
      have small := fits rfl
      obtain ⟨⟨accepted, closed⟩, read⟩ := accepted_of_specifies rest number tail
      obtain ⟨found, scan, succeeds, values⟩ := processFormatSpecifier_ok npos flags small
      have ok := succeeds.mpr ⟨accepted, by rw [closed]; rfl⟩
      obtain ⟨named, dropped, inside⟩ := values ok
      rw [read] at named
      have value : digitsValue digits ≤ INT_MAX := by
        have first := small _ List.mem_cons_self
        rw [List.tail_cons, List.tail_cons, read] at first
        exact first
      have bounds := digitsValue_bounds number.2
      have largest : INT_MAX = 2147483647 := by decide
      refine ⟨by omega, found.flags, ?_⟩
      have length : found.length + 1 = ('%' :: '<' :: (digits ++ (suffix ++ ['>']))).length := by
        have lengths := congrArg List.length dropped
        rw [closed, List.tail_cons, List.length_drop] at lengths
        simp only [List.length_cons, List.length_append, List.length_nil] at lengths inside ⊢
        omega
      have notNone : found.argnum ≠ npos := by
        rw [named]
        unfold npos
        omega
      rw [process, if_neg (not_not.mpr rfl)]
      dsimp only
      rw [if_neg (by decide), if_pos rfl, scan]
      dsimp only
      rw [if_neg (by rw [ok]; decide), if_neg notNone, length, named]

/-- A malformed specifier that fits stops the loop with an error. -/
theorem process_malformed {text : Text} (wrong : Malformed text) (flags : Flags)
    (oss : OStringStream) (fits : NumbersFit text) :
    ∃ i c later, process 1 count text flags oss =
      .ok (finish 1 count text i true c later oss) := by
  obtain ⟨rest, rfl, notPercent, none⟩ := wrong
  rw [process.eq_def]
  dsimp only
  rw [if_neg (not_not.mpr rfl)]
  cases rest with
  | nil => exact ⟨1, npos, flags, rfl⟩
  | cons second others =>
      dsimp only
      rw [if_neg fun same => notPercent (congrArg some same)]
      by_cases brace : second = BRACE_OPEN
      · subst brace
        obtain ⟨found, scan, succeeds, values⟩ := processFormatSpecifier_ok npos flags (fits rfl)
        have fails : found.retval = false := by
          by_contra ok
          obtain ⟨specifier, names, same⟩ :=
            specifies_of_accepted (succeeds.mp (Bool.eq_true_of_not_eq_false ok))
          exact none _ _ _ names same
        rw [if_pos rfl, scan]
        dsimp only
        rw [if_pos fails]
        exact ⟨_, _, _, rfl⟩
      · rw [if_neg brace]
        by_cases is : isDigit second = true
        · exact absurd rfl (none _ _ others (.digit is))
        · rw [if_neg is]
          exact ⟨2, npos, flags, rfl⟩

theorem process_overflow {text : Text} (starts : text.head? = some '%') (flags : Flags)
    (oss : OStringStream) (large : ¬ NumbersFit text) :
    process 1 count text flags oss = .error .signedOverflow := by
  rw [NumbersFit, Classical.not_imp] at large
  obtain ⟨rest, rfl⟩ : ∃ rest, text = '%' :: BRACE_OPEN :: rest :=
    ⟨text.tail.tail, by
      have brace := cons_of_head large.1
      rw [cons_of_head starts, brace]
      rfl⟩
  rw [process, if_neg (not_not.mpr rfl)]
  dsimp only
  rw [if_neg (by decide), if_pos rfl, processFormatSpecifier_overflow npos flags large.2]

end Process

section Run

variable {args : List Text}

/-- The loop comes to the same end when `process` does the same for the rest. -/
theorem returns_skip {text rest : Text} {oss later : OStringStream} (nonempty : text ≠ [])
    (same : process 1 args.length text .new oss = process 1 args.length rest .new later)
    {result : Except Undefined OStringStream} (returns : Returns (expand args) (rest, later) result) :
    Returns (expand args) (text, oss) result := by
  by_cases done : rest = []
  · subst done
    refine Returns.next ?_ returns
    have ends : process 1 args.length ([] : Text) .new later = .ok ⟨npos, [], .new, later⟩ := by
      rw [process]
    have none : toInt npos = -1 := by decide
    rw [expand, if_neg nonempty]
    dsimp only
    rw [same, ends]
    dsimp only
    rw [none, putArgs_none (by decide)]
  · refine Returns.of_same ?_ returns
    rw [expand, expand, if_neg nonempty, if_neg done]
    dsimp only
    rw [same]

theorem expand_processed {text : Text} {oss : OStringStream} (nonempty : text ≠ [])
    {processed : Processed} (done : process 1 args.length text .new oss = .ok processed) :
    expand args (text, oss) = .next (processed.str,
      putArgs (toInt processed.c) processed.flags 1 args processed.oss) := by
  rw [expand, if_neg nonempty]
  dsimp only
  rw [done]

theorem returns_overflow {text : Text} {oss : OStringStream} (starts : text.head? = some '%')
    (large : ¬ NumbersFit text) :
    Returns (expand args) (text, oss) (.error .signedOverflow) := by
  have nonempty : text ≠ [] := by
    rintro rfl
    cases starts
  refine Returns.stop ?_
  rw [expand, if_neg nonempty]
  dsimp only
  rw [process_overflow starts _ _ large]

/-- A failure is the last thing that the loop comes to. -/
theorem returns_failed {text : Text} {oss last : OStringStream} (nonempty : text ≠ [])
    {flags : Flags} (plain : last.width = 0)
    (done : process 1 args.length text .new oss = .ok ⟨'0'.toNat, [], flags, last⟩) :
    ∃ result, Returns (expand args) (text, oss) (.ok result) ∧
      result.pieces = last.pieces ++ if 48 ≤ args.length then [.argument 48] else [] := by
  refine ⟨_, Returns.next (expand_processed nonempty done) (Returns.stop ?_),
    putArgs_failed plain flags⟩
  exact if_pos rfl

theorem Specifies.head {specifier : Text} {k : Nat} (names : Specifies specifier k)
    (rest : Text) : (specifier ++ rest).head? = some '%' := by
  cases names <;> rfl

theorem ne_nil_of_head {text : Text} {c : Char} (head : text.head? = some c) : text ≠ [] := by
  rintro rfl
  cases head

/-- The run of the loop on a format whose reading is known. -/
theorem returns_of_reads {format : Text} {items : List Item} {ending : Ending}
    (reads : Reads args.length format items ending) :
    ∀ oss : OStringStream, oss.width = 0 →
      (((∀ item ∈ items, item.Fits) ∧ ending.Fits) →
        ∃ last reports, Returns (expand args) (format, oss) (.ok last) ∧
          Reports args.length reports ending ∧
          last.pieces = oss.pieces ++
            (items.map Item.piece ++ (reports ++ extra args.length ending))) ∧
      (¬ ((∀ item ∈ items, item.Fits) ∧ ending.Fits) →
        Returns (expand args) (format, oss) (.error .signedOverflow)) := by
  induction reads with
  | nil =>
      intro oss plain
      refine ⟨fun _ => ⟨oss, [], Returns.stop (if_pos rfl), rfl, ?_⟩, fun large => ?_⟩
      · exact (List.append_nil _).symm
      · exact absurd ⟨List.forall_mem_nil _, trivial⟩ large
  | @char c rest items ending literal tail ih =>
      intro oss plain
      obtain ⟨pieces, width⟩ := insert_plain plain (.char c) 1
      obtain ⟨fits, large⟩ := ih (oss.insertChar c) width
      have same : process 1 args.length (c :: rest) .new oss =
          process 1 args.length rest .new (oss.insertChar c) := by
        rw [process.eq_def]
        exact if_pos literal
      have literalFits : (Item.char c).Fits := trivial
      rw [List.forall_mem_cons, and_iff_right literalFits]
      refine ⟨fun small => ?_, fun exceeds =>
        returns_skip (List.cons_ne_nil c rest) same (large exceeds)⟩
      obtain ⟨last, reports, returns, reported, result⟩ := fits small
      refine ⟨last, reports, returns_skip (List.cons_ne_nil c rest) same returns, reported, ?_⟩
      rw [result, OStringStream.insertChar, pieces, List.append_assoc]
      rfl
  | @percent rest items ending tail ih =>
      intro oss plain
      obtain ⟨pieces, width⟩ := insert_plain plain (.char '%') 1
      obtain ⟨fits, large⟩ := ih (oss.insertChar '%') width
      have same : process 1 args.length ('%' :: '%' :: rest) .new oss =
          process 1 args.length rest .new (oss.insertChar '%') := by
        rw [process.eq_def]
        dsimp only
        rw [if_neg (not_not.mpr rfl), if_pos rfl]
      have literalFits : (Item.char '%').Fits := trivial
      rw [List.forall_mem_cons, and_iff_right literalFits]
      refine ⟨fun small => ?_, fun exceeds =>
        returns_skip (List.cons_ne_nil _ _) same (large exceeds)⟩
      obtain ⟨last, reports, returns, reported, result⟩ := fits small
      refine ⟨last, reports, returns_skip (List.cons_ne_nil _ _) same returns, reported, ?_⟩
      rw [result, OStringStream.insertChar, pieces, List.append_assoc]
      rfl
  | @argument specifier rest k items ending names inside tail ih =>
      intro oss plain
      have starts := names.head rest
      have nonempty := ne_nil_of_head starts
      rw [List.forall_mem_cons]
      by_cases here : NumbersFit (specifier ++ rest)
      · obtain ⟨small, later, done⟩ := process_specifier names rest .new oss here
        rw [finish_inside inside, List.drop_left] at done
        obtain ⟨pieces, width⟩ := putArgs_named plain small inside later
        have next := expand_processed nonempty done
        obtain ⟨fits, large⟩ := ih _ width
        refine ⟨fun all => ?_, fun exceeds => ?_⟩
        · obtain ⟨last, reports, returns, reported, result⟩ := fits ⟨all.1.2, all.2⟩
          refine ⟨last, reports, Returns.next next returns, reported, ?_⟩
          rw [result, pieces, List.append_assoc]
          rfl
        · exact Returns.next next (large fun all => exceeds ⟨⟨here, all.1⟩, all.2⟩)
      · exact ⟨fun all => absurd all.1.1 here, fun _ => returns_overflow starts here⟩
  | @missing specifier rest k names outside =>
      intro oss plain
      have starts := names.head rest
      have nonempty := ne_nil_of_head starts
      by_cases here : NumbersFit (specifier ++ rest)
      · refine ⟨fun _ => ?_, fun exceeds => absurd ⟨List.forall_mem_nil _, here⟩ exceeds⟩
        obtain ⟨small, later, done⟩ := process_specifier names rest .new oss here
        have number : k ≠ npos := by
          have largest : INT_MAX = 2147483647 := by decide
          unfold npos
          omega
        have length : specifier.length ≤ (specifier ++ rest).length := by
          rw [List.length_append]
          omega
        have positive : max specifier.length 1 = specifier.length := by
          cases names <;> exact max_eq_left (Nat.succ_pos _)
        obtain ⟨last, finished, pieces, width⟩ :=
          finish_outside plain length false number outside later
        rw [positive, List.take_left] at pieces
        rw [finished] at done
        obtain ⟨result, returns, final⟩ := returns_failed nonempty width done
        refine ⟨result, _, returns, rfl, ?_⟩
        rw [final, pieces, List.append_assoc]
        rfl
      · exact ⟨fun all => absurd all.2 here, fun _ => returns_overflow starts here⟩
  | @malformed text wrong =>
      intro oss plain
      have starts : text.head? = some '%' := by
        obtain ⟨rest, rfl, -⟩ := wrong
        rfl
      have nonempty := ne_nil_of_head starts
      by_cases here : NumbersFit text
      · refine ⟨fun _ => ?_, fun exceeds => absurd ⟨List.forall_mem_nil _, here⟩ exceeds⟩
        obtain ⟨i, c, later, done⟩ := process_malformed wrong .new oss here
        obtain ⟨last, lead, finished, led, pieces, width⟩ :=
          finish_malformed plain text i c later
        rw [finished] at done
        obtain ⟨result, returns, final⟩ := returns_failed nonempty width done
        refine ⟨result, _, returns, ⟨lead, text.take (max i 1), ?_, List.take_prefix _ _, led, rfl⟩,
          ?_⟩
        · obtain ⟨first, others, rfl⟩ := List.exists_cons_of_ne_nil nonempty
          obtain ⟨less, eq⟩ : ∃ less, max i 1 = less + 1 := ⟨max i 1 - 1, by omega⟩
          rw [eq]
          exact List.cons_ne_nil _ _
        · rw [final, pieces, List.append_assoc]
          rfl
      · exact ⟨fun all => absurd all.2 here, fun _ => returns_overflow starts here⟩

end Run

/-- Every format string has a reading. -/
theorem exists_reading (count : Nat) (format : Text) :
    ∃ items ending, Reads count format items ending := by
  induction bound : format.length using Nat.strong_induction_on generalizing format with
  | h size ih =>
      cases format with
      | nil => exact ⟨_, _, .nil⟩
      | cons c rest =>
          rw [List.length_cons] at bound
          by_cases literal : c = '%'
          · subst literal
            by_cases escaped : rest.head? = some '%'
            · rw [cons_of_head escaped] at bound ⊢
              have shorter : rest.tail.length < size := by
                rw [List.length_append, List.length_singleton] at bound
                omega
              obtain ⟨items, ending, reads⟩ := ih rest.tail.length shorter rest.tail rfl
              exact ⟨_, _, .percent reads⟩
            · by_cases named : ∃ specifier k after, Specifies specifier k ∧
                  '%' :: rest = specifier ++ after
              · obtain ⟨specifier, k, after, names, same⟩ := named
                by_cases inside : 1 ≤ k ∧ k ≤ count
                · have shorter : after.length < size := by
                    have lengths := congrArg List.length same
                    have positive : 0 < specifier.length := by cases names <;> exact Nat.succ_pos _
                    rw [List.length_cons, List.length_append] at lengths
                    omega
                  obtain ⟨items, ending, reads⟩ := ih after.length shorter after rfl
                  rw [same]
                  exact ⟨_, _, .argument names inside reads⟩
                · rw [same]
                  exact ⟨_, _, .missing names inside⟩
              · refine ⟨_, _, .malformed ⟨rest, rfl, escaped, ?_⟩⟩
                intro specifier k after names same
                exact named ⟨specifier, k, after, names, same⟩
          · obtain ⟨items, ending, reads⟩ := ih rest.length (by omega) rest rfl
            exact ⟨_, _, .char literal reads⟩

/-- `Format` stops for every format string and all arguments. -/
theorem format_stops (ca : Text) (args : List Text) : ∃ result, Formats ca args result := by
  obtain ⟨items, ending, reads⟩ := exists_reading args.length (cString ca)
  obtain ⟨fits, large⟩ := returns_of_reads reads .new rfl
  by_cases all : (∀ item ∈ items, item.Fits) ∧ ending.Fits
  · obtain ⟨last, reports, returns, -⟩ := fits all
    exact ⟨_, returns⟩
  · exact ⟨_, large all⟩

section ZeroFree

theorem zero_notMem_number (n : Nat) : '\x00' ∉ (toString n).toList := by
  rw [show toString n = String.ofList (Nat.toDigits 10 n) from rfl, String.toList_ofList]
  intro mem
  exact absurd (Nat.isDigit_of_mem_toDigits (by decide) (by decide) mem) (by decide)

theorem zero_notMem_parameterError (count k : Nat) : '\x00' ∉ parameterError count k := by
  have first := zero_notMem_number k
  have second := zero_notMem_number count
  have start : '\x00' ∉ "Parameter specifier ".toList := by decide
  have large : '\x00' ∉ " is too large (>".toList := by decide
  have small : '\x00' ∉ " must be >= ".toList := by decide
  have close : '\x00' ∉ ")".toList := by decide
  have one := zero_notMem_number 1
  unfold parameterError
  split
  · have before := List.not_mem_append (List.not_mem_append start first) large
    exact List.not_mem_append (List.not_mem_append before second) close
  · exact List.not_mem_append (List.not_mem_append (List.not_mem_append start first) small) one

theorem report_zeroFree {count : Nat} {lead : List Piece} {excerpt : Text} (args : List Text)
    (led : lead = [] ∨ ∃ k, lead = parameterReport count k) (free : '\x00' ∉ excerpt) :
    ∀ piece ∈ report lead excerpt, '\x00' ∉ piece.text args := by
  have starsFree : '\x00' ∉ stars := by decide
  have lineFree : '\x00' ∉ ['\n'] := by decide
  have start : '\x00' ∉ "Error in format string at \"".toList := by decide
  have close : '\x00' ∉ "\"".toList := by decide
  have errorFree : '\x00' ∉ formatError excerpt :=
    List.not_mem_append (List.not_mem_append start free) close
  intro piece mem
  rcases List.mem_append.mp mem with leading | message
  · rcases led with rfl | ⟨k, rfl⟩
    · cases leading
    · simp only [parameterReport, List.mem_cons, List.not_mem_nil, or_false] at leading
      rcases leading with rfl | rfl
      · exact starsFree
      · exact zero_notMem_parameterError count k
  · simp only [List.mem_cons, List.not_mem_nil, or_false] at message
    rcases message with rfl | rfl | rfl
    · exact starsFree
    · exact errorFree
    · exact lineFree

/-- Only the named arguments can bring a zero byte into the expansion. -/
theorem Reads.zeroFree {count : Nat} {format : Text} {items : List Item} {ending : Ending}
    (reads : Reads count format items ending) (args : List Text) (free : '\x00' ∉ format) :
    (∀ item ∈ items, ('\x00' ∉ item.piece.text args ↔ item.ZeroFree args)) ∧
      ∀ reports, Reports count reports ending → ∀ piece ∈ reports, '\x00' ∉ piece.text args := by
  induction reads with
  | nil =>
      refine ⟨List.forall_mem_nil _, ?_⟩
      rintro reports rfl
      exact List.forall_mem_nil _
  | @char c rest items ending literal tail ih =>
      rw [List.mem_cons, not_or] at free
      obtain ⟨items_free, reports_free⟩ := ih free.2
      refine ⟨List.forall_mem_cons.mpr ⟨iff_of_true ?_ trivial, items_free⟩, reports_free⟩
      exact fun mem => free.1 (List.mem_singleton.mp mem)
  | @percent rest items ending tail ih =>
      rw [List.mem_cons, List.mem_cons, not_or, not_or] at free
      obtain ⟨items_free, reports_free⟩ := ih free.2.2
      refine ⟨List.forall_mem_cons.mpr ⟨iff_of_true ?_ trivial, items_free⟩, reports_free⟩
      exact fun mem => free.1 (List.mem_singleton.mp mem)
  | @argument specifier rest k items ending names inside tail ih =>
      rw [List.mem_append, not_or] at free
      obtain ⟨items_free, reports_free⟩ := ih free.2
      exact ⟨List.forall_mem_cons.mpr ⟨Iff.rfl, items_free⟩, reports_free⟩
  | @missing specifier rest k names outside =>
      rw [List.mem_append, not_or] at free
      refine ⟨List.forall_mem_nil _, ?_⟩
      rintro reports rfl
      exact report_zeroFree args (.inr ⟨k, rfl⟩) free.1
  | @malformed text wrong =>
      refine ⟨List.forall_mem_nil _, ?_⟩
      rintro reports ⟨lead, excerpt, -, start, led, rfl⟩
      exact report_zeroFree args led fun mem => free (start.subset mem)

end ZeroFree

/-- A report ends with a message, not with an argument. -/
theorem Reports.extra_nil {count : Nat} {reports others : List Piece} {ending : Ending}
    (reported : Reports count reports ending) (same : reports = others ++ extra count ending) :
    ending = .complete ∨ count < 48 := by
  by_contra both
  rw [not_or, not_lt] at both
  have put : extra count ending = [.argument 48] := by
    cases ending with
    | complete => exact absurd rfl both.1
    | missing specifier text k => exact if_pos both.2
    | malformed text => exact if_pos both.2
  have last : reports.getLast? = some (.message ['\n']) := by
    cases ending with
    | complete => exact absurd rfl both.1
    | missing specifier text k =>
        rw [show reports = _ from reported, report]
        simp
    | malformed text =>
        obtain ⟨lead, excerpt, -, -, -, rfl⟩ := reported
        rw [report]
        simp
  rw [same, put, List.getLast?_concat] at last
  cases last

theorem extra_of_few {count : Nat} {ending : Ending} (few : ending = .complete ∨ count < 48) :
    extra count ending = [] := by
  cases ending with
  | complete => rfl
  | missing specifier text k => exact if_neg (not_le.mpr (few.resolve_left (by simp)))
  | malformed text => exact if_neg (not_le.mpr (few.resolve_left (by simp)))

/-- The whole expansion has no zero byte when the named arguments have none. -/
theorem zero_notMem_expansion {args : List Text} {format : Text} {items : List Item}
    {ending : Ending} (reads : Reads args.length format items ending) (free : '\x00' ∉ format)
    {reports : List Piece} (reported : Reports args.length reports ending) :
    '\x00' ∉ ((items.map Item.piece ++ reports).map (Piece.text args)).flatten ↔
      ∀ item ∈ items, item.ZeroFree args := by
  obtain ⟨items_free, reports_free⟩ := reads.zeroFree args free
  constructor
  · intro absent item mem
    refine (items_free item mem).mp fun zero => absent ?_
    exact List.mem_flatten.mpr ⟨_, List.mem_map_of_mem
      (List.mem_append_left _ (List.mem_map_of_mem mem)), zero⟩
  · intro all zero
    obtain ⟨text, mem, inside⟩ := List.mem_flatten.mp zero
    obtain ⟨piece, inPieces, rfl⟩ := List.mem_map.mp mem
    rcases List.mem_append.mp inPieces with inItems | inReports
    · obtain ⟨item, itemMem, rfl⟩ := List.mem_map.mp inItems
      exact (items_free item itemMem).mpr (all item itemMem) inside
    · exact reports_free reports reported piece inReports inside

/-- `Format` computes the documented expansion exactly when the numbers of the specifiers fit into an
`int`, no named argument has a zero byte, and a failure has less than 48 arguments. -/
theorem substitutes_iff (ca : Text) (args : List Text) :
    Substitutes ca args ↔ Suited ca args := by
  have free := zero_notMem_cString ca
  constructor
  · rintro ⟨oss, formats, ⟨items, ending, reports, reads, reported, pieces⟩, whole⟩
    obtain ⟨fits, large⟩ := returns_of_reads reads .new rfl
    have small : (∀ item ∈ items, item.Fits) ∧ ending.Fits := by
      by_contra exceeds
      cases formats.unique (large exceeds)
    obtain ⟨last, others, returns, -, result⟩ := fits small
    obtain rfl : oss = last := Except.ok.inj (formats.unique returns)
    rw [pieces] at result
    have same : reports = others ++ extra args.length ending :=
      List.append_cancel_left (result.trans (List.nil_append _))
    rw [OStringStream.toString, pieces] at whole
    have absent := (cString_eq_iff _).mp whole
    exact ⟨items, ending, reads, small.1, small.2,
      (zero_notMem_expansion reads free reported).mp absent, reported.extra_nil same⟩
  · rintro ⟨items, ending, reads, itemsFit, endingFits, zeroFree, few⟩
    obtain ⟨last, reports, returns, reported, result⟩ :=
      (returns_of_reads reads .new rfl).1 ⟨itemsFit, endingFits⟩
    rw [extra_of_few few, List.append_nil] at result
    have pieces : last.pieces = items.map Item.piece ++ reports :=
      result.trans (List.nil_append _)
    refine ⟨last, returns, ⟨items, ending, reports, reads, reported, pieces⟩, ?_⟩
    rw [OStringStream.toString, pieces]
    exact (cString_eq_iff _).mpr ((zero_notMem_expansion reads free reported).mpr zeroFree)

def longNumeral : Text := "%<4294967297>".toList

/-- The number of the specifier overflows, although no argument has it. -/
theorem longNumeral_not_substitutes :
    ¬ ∀ (ca : Text) (args : List Text), Substitutes ca args := by
  intro all
  obtain ⟨oss, formats, -⟩ := all longNumeral [['a']]
  have large : ¬ NumbersFit (cString longNumeral) := by
    intro fits
    exact absurd (fits (by decide)) (by decide)
  have overflows : Formats longNumeral [['a']] (.error .signedOverflow) :=
    returns_overflow (by decide) large
  cases formats.unique overflows

end Blocxx.Format
