import Blocxx.Library.Loop
import Mathlib.Data.Int.CardIntervalMod
import Mathlib.Data.Set.Card

/-!
This file gives calls that draw raw values until they accept one, and what makes their results
uniform.
-/

namespace Blocxx.Library.Rejection

open Loop

/-- The draws of the stream may fail. The call answers with its result and the number of its
draws. -/
abbrev Sampler (Failure Raw Result : Type) :=
  (Nat → Except Failure Raw) → Nat → ExceptT Failure Option (Result × Nat)

variable {Failure Raw Result Changed : Type}

/-- With enough fuel the call gives this result. -/
def Returns (call : Sampler Failure Raw Result) (raw : Nat → Except Failure Raw) (result : Result)
    (draws : Nat) : Prop :=
  ∃ fuel, call raw fuel = some (.ok (result, draws))

/-- A first draw of this raw value ends the call with the result. -/
def Accepts (call : Sampler Failure Raw Result) (rn : Raw) (result : Result) : Prop :=
  Returns call (fun _ => .ok rn) result 1

/-- The first accepted raw value decides the result, and all the values come from equally many raw
values out of at least half of them. -/
structure Uniform (call : Sampler Failure Raw Result) (values : Set Result) : Prop where
  returns : ∀ raw result draws, Returns call raw result draws ↔
    ∃ last rn, draws = last + 1 ∧ raw last = .ok rn ∧ Accepts call rn result ∧
      ∀ earlier < last, ∃ other, raw earlier = .ok other ∧ ∀ result, ¬ Accepts call other result
  within : ∀ rn result, Accepts call rn result → result ∈ values
  half : Nat.card Raw ≤ 2 * {rn | ∃ result, Accepts call rn result}.ncard
  share : ∃ share, 0 < share ∧ ∀ result ∈ values, {rn | Accepts call rn result}.ncard = share

/-- The call draws until the function gives a result. -/
def Follows (call : Sampler Failure Raw Result) (value : Raw → Option Result) : Prop :=
  ∀ raw result draws, Returns call raw result draws ↔
    ∃ last rn, draws = last + 1 ∧ raw last = .ok rn ∧ value rn = some result ∧
      ∀ earlier < last, ∃ other, raw earlier = .ok other ∧ value other = none

namespace Follows

variable {call : Sampler Failure Raw Result} {value : Raw → Option Result}

theorem accepts_iff (follows : Follows call value) {rn : Raw} {result : Result} :
    Accepts call rn result ↔ value rn = some result := by
  rw [Accepts, follows]
  constructor
  · rintro ⟨last, drawn, -, same, gives, -⟩
    cases same
    exact gives
  · intro gives
    exact ⟨0, rn, rfl, rfl, gives, fun earlier before => absurd before (Nat.not_lt_zero _)⟩

/-- The counts of the function decide whether the call is uniform. -/
theorem uniform (follows : Follows call value) {values : Set Result}
    (within : ∀ rn result, value rn = some result → result ∈ values)
    (half : Nat.card Raw ≤ 2 * {rn | (value rn).isSome}.ncard)
    (share : ∃ share, 0 < share ∧ ∀ result ∈ values, {rn | value rn = some result}.ncard = share) :
    Uniform call values where
  returns := by
    intro raw result draws
    simp only [follows.accepts_iff, ← Option.eq_none_iff_forall_ne_some]
    exact follows raw result draws
  within := by
    intro rn result accepts
    exact within rn result (follows.accepts_iff.mp accepts)
  half := by
    simp only [follows.accepts_iff, ← Option.isSome_iff_exists]
    exact half
  share := by
    simp only [follows.accepts_iff]
    exact share

theorem map (follows : Follows call value) (change : Result → Changed) :
    Follows (fun raw fuel => (fun answer => (change answer.1, answer.2)) <$> call raw fuel)
      (fun rn => (value rn).map change) := by
  intro raw result draws
  have changed : Returns (fun raw fuel => (fun answer => (change answer.1, answer.2)) <$>
      call raw fuel) raw result draws ↔
      ∃ before, Returns call raw before draws ∧ change before = result := by
    constructor
    · rintro ⟨fuel, gives⟩
      dsimp only at gives
      cases answered : call raw fuel with
      | none =>
          rw [answered] at gives
          cases gives
      | some outcome =>
          rw [answered] at gives
          cases outcome with
          | error failure => cases gives
          | ok answer =>
              cases gives
              exact ⟨answer.1, ⟨fuel, answered⟩, rfl⟩
    · rintro ⟨before, ⟨fuel, gives⟩, rfl⟩
      refine ⟨fuel, ?_⟩
      dsimp only
      rw [gives]
      rfl
  rw [changed]
  simp only [follows raw, Option.map_eq_some_iff, Option.map_eq_none_iff]
  constructor
  · rintro ⟨before, ⟨last, rn, count, drawn, gives, rejected⟩, same⟩
    exact ⟨last, rn, count, drawn, ⟨before, gives, same⟩, rejected⟩
  · rintro ⟨last, rn, count, drawn, ⟨before, gives, same⟩, rejected⟩
    exact ⟨before, ⟨last, rn, count, drawn, gives, rejected⟩, same⟩

end Follows

/-- One draw is accepted whatever it is. -/
def once : Sampler Failure Raw Raw := fun raw _ => some ((raw 0).map fun rn => (rn, 1))

theorem follows_once : Follows (once : Sampler Failure Raw Raw) some := by
  intro raw result draws
  constructor
  · rintro ⟨fuel, gives⟩
    have drawn := Option.some.inj gives
    cases first : raw 0 with
    | error failure =>
        rw [first] at drawn
        cases drawn
    | ok rn =>
        rw [first] at drawn
        cases drawn
        exact ⟨0, _, rfl, first, rfl, fun earlier before => absurd before (Nat.not_lt_zero _)⟩
  · rintro ⟨last, rn, rfl, drawn, same, rejected⟩
    cases last with
    | zero =>
        cases same
        refine ⟨0, ?_⟩
        rw [once, drawn]
        rfl
    | succ last =>
        obtain ⟨other, -, none_⟩ := rejected 0 (Nat.succ_pos _)
        cases none_

section Loops

variable {body : (Nat → Except Failure Raw) → Nat → Iteration Nat (Except Failure (Result × Nat))}
  {value : Raw → Option Result}

/-- A loop whose iterations draw until the function gives a result. -/
structure Draws (body : (Nat → Except Failure Raw) → Nat →
    Iteration Nat (Except Failure (Result × Nat))) (value : Raw → Option Result) : Prop where
  fails : ∀ raw used failure, raw used = .error failure → body raw used = .stop (.error failure)
  accepts : ∀ raw used rn result, raw used = .ok rn → value rn = some result →
    body raw used = .stop (.ok (result, used + 1))
  rejects : ∀ raw used rn, raw used = .ok rn → value rn = none → body raw used = .next (used + 1)

/-- A loop that has used some draws stops at the first later one that the function accepts. -/
theorem Draws.run_eq (draws : Draws body value) {raw : Nat → Except Failure Raw} {result : Result}
    {count : Nat} (fuel : Nat) : ∀ used, run (body raw) fuel used = some (.ok (result, count)) →
      ∃ last rn, used ≤ last ∧ count = last + 1 ∧ raw last = .ok rn ∧ value rn = some result ∧
        ∀ earlier < last, used ≤ earlier → ∃ other, raw earlier = .ok other ∧
          value other = none := by
  induction fuel with
  | zero =>
      intro used runs
      cases runs
  | succ fuel ih =>
      intro used runs
      rw [run] at runs
      cases drawn : raw used with
      | error failure =>
          rw [draws.fails raw used failure drawn] at runs
          cases runs
      | ok rn =>
          cases gives : value rn with
          | some answer =>
              rw [draws.accepts raw used rn answer drawn gives] at runs
              cases runs
              exact ⟨used, rn, le_rfl, rfl, drawn, gives, fun earlier before after =>
                absurd before (Nat.not_lt.mpr after)⟩
          | none =>
              rw [draws.rejects raw used rn drawn gives] at runs
              obtain ⟨last, final, order, same, drawnLast, givesLast, rejected⟩ :=
                ih (used + 1) runs
              refine ⟨last, final, by omega, same, drawnLast, givesLast, ?_⟩
              intro earlier before after
              rcases Nat.eq_or_lt_of_le after with here | later
              · rw [← here]
                exact ⟨rn, drawn, gives⟩
              · exact rejected earlier before later

theorem Draws.follows (draws : Draws body value) :
    Follows (fun raw fuel => run (body raw) fuel 0) value := by
  intro raw result count
  constructor
  · rintro ⟨fuel, runs⟩
    obtain ⟨last, rn, -, same, drawn, gives, rejected⟩ := draws.run_eq fuel 0 runs
    exact ⟨last, rn, same, drawn, gives, fun earlier before =>
      rejected earlier before (Nat.zero_le _)⟩
  · rintro ⟨last, rn, rfl, drawn, gives, rejected⟩
    -- from the last draw back to the first one
    have fromHere (rest : Nat) : ∀ used, used + rest = last →
        Loop.Returns (body raw) used (.ok (result, last + 1)) := by
      induction rest with
      | zero =>
          intro used here
          rw [Nat.add_zero] at here
          rw [here]
          exact .stop (draws.accepts raw last rn result drawn gives)
      | succ rest ih =>
          intro used here
          obtain ⟨other, drawnOther, none_⟩ := rejected used (by omega)
          exact .next (draws.rejects raw used other drawnOther none_) (ih (used + 1) (by omega))
    exact fromHere last 0 (Nat.zero_add last)

end Loops

/-- Below a multiple of a number all residues are equally frequent. -/
theorem ncard_residue {n share r : Nat} (below : r < n) :
    {x | x < n * share ∧ x % n = r}.ncard = share := by
  have positive : 0 < n := by omega
  have counted := Nat.count_modEq_card (n * share) positive r
  rw [Nat.mul_mod_right, if_neg (Nat.not_lt_zero _), Nat.mul_div_cancel_left share positive,
    Nat.count_eq_card_filter_range, ← Set.ncard_coe_finset, Nat.add_zero] at counted
  refine Eq.trans ?_ counted
  congr 1
  ext x
  rw [Finset.coe_filter]
  simp only [Set.mem_ofPred_eq, Finset.mem_range, Nat.ModEq, Nat.mod_eq_of_lt below]

end Blocxx.Library.Rejection
