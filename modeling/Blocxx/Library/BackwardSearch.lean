import Mathlib.Order.Bounds.Basic
import Mathlib.Tactic

/-!
This file gives the search for the last position that meets a test. The test may fail to answer, and
then the search does.
-/

namespace Blocxx.Library.BackwardSearch

/-- The search through the positions below this one, from the last to the first. -/
def lastBelow (test : Nat → Option Bool) : Nat → Option (Option Nat)
  | 0 => some none
  | position + 1 =>
      match test position with
      | none => none
      | some true => some (some position)
      | some false => lastBelow test position

/-- The last position below the bound with the property, or none when there is no such position. -/
def IsLast (property : Nat → Prop) (bound : Nat) : Option Nat → Prop
  | none => ∀ position < bound, ¬ property position
  | some position => IsGreatest {other | other < bound ∧ property other} position

/-- A property of the bound below which the search goes on does not matter. -/
theorem IsLast.succ {property : Nat → Prop} {bound : Nat} {result : Option Nat}
    (last : IsLast property bound result) (not : ¬ property bound) :
    IsLast property (bound + 1) result := by
  cases result with
  | none =>
      intro position below here
      rcases Nat.lt_succ_iff_lt_or_eq.mp below with less | rfl
      · exact last position less here
      · exact not here
  | some position =>
      refine ⟨⟨Nat.lt_succ_of_lt last.1.1, last.1.2⟩, ?_⟩
      rintro other ⟨below, here⟩
      rcases Nat.lt_succ_iff_lt_or_eq.mp below with less | rfl
      · exact last.2 ⟨less, here⟩
      · exact absurd here not

/-- A search whose tests all answer finds the last position. -/
theorem lastBelow_spec {test : Nat → Option Bool} {property : Nat → Prop} {bound : Nat}
    (answers : ∀ position < bound, ∃ answer, test position = some answer ∧
      (answer = true ↔ property position)) :
    ∃ result, lastBelow test bound = some result ∧ IsLast property bound result := by
  induction bound with
  | zero => exact ⟨none, rfl, fun position below => absurd below (Nat.not_lt_zero position)⟩
  | succ bound ih =>
      obtain ⟨answer, tested, meets⟩ := answers bound (Nat.lt_succ_self bound)
      cases answer with
      | true =>
          refine ⟨some bound, by rw [lastBelow, tested], ?_⟩
          exact ⟨⟨Nat.lt_succ_self bound, meets.mp rfl⟩, fun other ⟨below, _⟩ =>
            Nat.lt_succ_iff.mp below⟩
      | false =>
          obtain ⟨result, found, last⟩ :=
            ih fun position below => answers position (Nat.lt_succ_of_lt below)
          refine ⟨result, by rw [lastBelow, tested, found], last.succ ?_⟩
          intro here
          exact absurd (meets.mpr here) Bool.false_ne_true

end Blocxx.Library.BackwardSearch
