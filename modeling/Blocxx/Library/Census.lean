import Mathlib.Tactic

/-!
This file counts the threads whose values meet a test.
-/

namespace Blocxx.Library

variable {Thread Value : Type} [Fintype Thread]

/-- How many threads have a value that meets the test. -/
def census (test : Value → Bool) (value : Thread → Value) : Nat :=
  (Finset.univ.filter fun thread => test (value thread) = true).card

variable {test : Value → Bool} {value : Thread → Value}

theorem census_pos : 0 < census test value ↔ ∃ thread, test (value thread) = true := by
  unfold census
  rw [Finset.card_pos]
  constructor
  · rintro ⟨thread, member⟩
    exact ⟨thread, (Finset.mem_filter.mp member).2⟩
  · rintro ⟨thread, meets⟩
    exact ⟨thread, Finset.mem_filter.mpr ⟨Finset.mem_univ thread, meets⟩⟩

theorem census_eq_zero : census test value = 0 ↔ ∀ thread, test (value thread) = false := by
  unfold census
  rw [Finset.card_eq_zero, Finset.filter_eq_empty_iff]
  constructor
  · intro nobody thread
    exact Bool.eq_false_of_not_eq_true (nobody (Finset.mem_univ thread))
  · intro nobody thread _
    rw [nobody thread]
    exact Bool.false_ne_true

/-- Each thread is counted. -/
theorem le_census (thread : Thread) : (test (value thread)).toNat ≤ census test value := by
  cases meets : test (value thread) with
  | true => exact census_pos.mpr ⟨thread, meets⟩
  | false => exact Nat.zero_le _

theorem census_eq_card : census test value = Fintype.card Thread ↔
    ∀ thread, test (value thread) = true := by
  unfold census
  rw [Finset.card_eq_iff_eq_univ, Finset.filter_eq_self]
  exact ⟨fun all thread => all thread (Finset.mem_univ thread), fun all thread _ => all thread⟩

/-- A census of a stricter test counts no more threads. -/
theorem census_le {stricter : Value → Bool} {Other : Type} {other : Thread → Other}
    {weaker : Other → Bool}
    (implied : ∀ thread, stricter (value thread) = true → weaker (other thread) = true) :
    census stricter value ≤ census weaker other := by
  apply Finset.card_le_card
  intro thread member
  obtain ⟨inside, meets⟩ := Finset.mem_filter.mp member
  exact Finset.mem_filter.mpr ⟨inside, implied thread meets⟩

/-- One thread with a new value changes the census by its own part. -/
theorem census_update [DecidableEq Thread] (thread : Thread) (new : Value) :
    census test (Function.update value thread new) + (test (value thread)).toNat =
      census test value + (test new).toNat := by
  have split (values : Thread → Value) : census test values =
      ((Finset.univ.erase thread).filter fun other => test (values other) = true).card +
        (test (values thread)).toNat := by
    unfold census
    rw [← Finset.insert_erase (Finset.mem_univ thread), Finset.filter_insert,
      Finset.erase_insert (Finset.notMem_erase thread _)]
    split
    · next meets =>
        rw [Finset.card_insert_of_notMem, meets]
        · rfl
        · intro member
          exact Finset.notMem_erase thread _ (Finset.mem_filter.mp member).1
    · next fails =>
        rw [Bool.eq_false_of_not_eq_true fails]
        rfl
  have others : ((Finset.univ.erase thread).filter
      fun other => test (Function.update value thread new other) = true) =
      (Finset.univ.erase thread).filter fun other => test (value other) = true := by
    apply Finset.filter_congr
    intro other member
    rw [Function.update_of_ne (Finset.ne_of_mem_erase member)]
  rw [split (Function.update value thread new), split value, others, Function.update_self]
  omega

end Blocxx.Library
