import Blocxx.Library.Loop
import Blocxx.StringBuffer.Bytes

/-!
This file embeds `UnnamedPipe::readAll` and settles when its `String` has all bytes that were sent.
-/

namespace Blocxx.UnnamedPipe

open Library Library.Loop Library.Memory StringBuffers

section Embedding

variable {Pipe : Type} (read : Pipe → Nat → List UInt8 × Pipe)

/-- The characters in the buffer with the zero behind them. -/
def terminated (bytes : List UInt8) (inside : bytes.length < 1024) : Text :=
  ⟨bytes, Nat.lt_trans (Nat.succ_lt_succ inside) (by decide)⟩

/-- One iteration of `readAll`. The buffer of 1024 characters is appended as a C string. -/
def readIteration : Pipe × StringBuffer → Iteration (Pipe × StringBuffer) (Option StringBuffer)
  | (pipe, retval) =>
      let result := read pipe 1023
      if inside : result.1.length < 1024 then
        (retval.appendCString (.outside (terminated result.1 inside))).elim (.stop none)
          fun retval =>
            if result.1.length > 0 then .next (result.2, retval) else .stop (some retval)
      else .stop none

/-- The function returns with this buffer, whose block the `String` takes. -/
def ReadAll (pipe : Pipe) (retval : StringBuffer) : Prop :=
  Returns (readIteration read) (pipe, .ofSize 128) (some retval)

/-- The `String` that takes the block has this length and these bytes. -/
def Releases (retval : StringBuffer) (bytes : List UInt8) : Prop :=
  retval.m_len = bytes.length ∧ retval.m_bfr.take bytes.length = bytes.map some

/-- Each read gives a non-empty part of what remains, of at most the size asked for, and nothing
only when nothing remains and the other end is closed. -/
def GivesParts (remaining : Pipe → List UInt8) : Prop :=
  ∀ pipe n, 0 < n → (read pipe n).1.length ≤ n ∧
    remaining pipe = (read pipe n).1 ++ remaining (read pipe n).2 ∧
    ((read pipe n).1 = [] → remaining pipe = [])

end Embedding

variable {Pipe : Type} {read : Pipe → Nat → List UInt8 × Pipe} {remaining : Pipe → List UInt8}

theorem releases_of_holds {retval : StringBuffer} {bytes : List UInt8}
    (holds : Holds retval bytes) : Releases retval bytes := by
  obtain ⟨rest, cells⟩ := holds.cells
  refine ⟨holds.length, ?_⟩
  rw [cells, List.take_append_of_le_length (by rw [List.length_map]), List.take_of_length_le
    (by rw [List.length_map])]

/-- The loop returns, and it keeps all bytes that remain when none of them is zero, and fewer
otherwise. -/
theorem GivesParts.returns (gives : GivesParts read remaining) (pipe : Pipe)
    {retval : StringBuffer} {got : List UInt8} (holds : Holds retval got)
    (small : got.length + (remaining pipe).length + 1 < 2 ^ 62) :
    ∃ after kept, Returns (readIteration read) (pipe, retval) (some after) ∧
      Holds after (got ++ kept) ∧ (0 ∉ remaining pipe → kept = remaining pipe) ∧
      (0 ∈ remaining pipe → kept.length < (remaining pipe).length) := by
  induction length : (remaining pipe).length using Nat.strong_induction_on
    generalizing pipe retval got with
  | h bound ih =>
      obtain ⟨short, split, ends⟩ := gives pipe 1023 (by decide)
      have lengths := congrArg List.length split
      rw [List.length_append] at lengths
      have inside : (read pipe 1023).1.length < 1024 := by omega
      obtain ⟨next, appended, has⟩ :=
        holds.appendCString_small (terminated (read pipe 1023).1 inside) (by
          show got.length + (read pipe 1023).1.length + 1 < 2 ^ 62
          omega)
      have has : Holds next (got ++ (read pipe 1023).1.takeWhile (· ≠ 0)) := has
      have body : readIteration read (pipe, retval) =
          if (read pipe 1023).1.length > 0 then .next ((read pipe 1023).2, next)
          else .stop (some next) :=
        (dif_pos inside).trans (by rw [appended]; rfl)
      have kept := (List.takeWhile_prefix (· ≠ 0) (l := (read pipe 1023).1)).length_le
      by_cases empty : (read pipe 1023).1 = []
      · refine ⟨next, [], .stop ?_, ?_, ?_, ?_⟩
        · rw [body, if_neg (by rw [empty]; exact lt_irrefl 0)]
        · rw [empty] at has
          exact has
        · exact fun _ => (ends empty).symm
        · intro zero
          rw [ends empty] at zero
          exact absurd zero List.not_mem_nil
      · have positive := List.length_pos_of_ne_nil empty
        obtain ⟨after, tail, returns, all, whole, less⟩ := ih _ (by omega)
          (read pipe 1023).2 has (by rw [List.length_append]; omega) rfl
        refine ⟨after, (read pipe 1023).1.takeWhile (· ≠ 0) ++ tail, .next ?_ returns, ?_, ?_, ?_⟩
        · rw [body, if_pos positive]
        · rwa [List.append_assoc] at all
        · intro free
          rw [split, List.mem_append, not_or] at free
          rw [takeWhile_nonzero free.1, whole free.2]
          exact split.symm
        · intro zero
          rw [split, List.mem_append] at zero
          rw [List.length_append]
          have most : tail.length ≤ (remaining (read pipe 1023).2).length := by
            by_cases later : 0 ∈ remaining (read pipe 1023).2
            · exact (less later).le
            · rw [whole later]
          rcases zero with here | later
          · have fewer := length_takeWhile_nonzero_lt here
            omega
          · have fewer := less later
            omega

/-- `readAll` terminates, and it returns exactly the bytes that were sent when none of them is
zero. -/
theorem readAll_iff (gives : GivesParts read remaining) (pipe : Pipe)
    (small : (remaining pipe).length + 1 < 2 ^ 62) :
    (∃ retval, ReadAll read pipe retval) ∧
    ((∃ retval, ReadAll read pipe retval ∧ Releases retval (remaining pipe)) ↔
      0 ∉ remaining pipe) := by
  obtain ⟨retval, kept, returns, holds, whole, less⟩ :=
    gives.returns pipe (holds_ofSize 128) (by rw [List.length_nil]; omega)
  refine ⟨⟨retval, returns⟩, ?_, ?_⟩
  · rintro ⟨other, alsoReturns, length, -⟩ zero
    obtain rfl := Option.some.inj (returns.unique alsoReturns)
    have fewer := less zero
    have same := holds.length
    rw [List.nil_append] at same
    omega
  · intro free
    rw [List.nil_append, whole free] at holds
    exact ⟨retval, returns, releases_of_holds holds⟩

/-- A pipe whose bytes are read two at a time. -/
def twoAtATime (pipe : List UInt8) (n : Nat) : List UInt8 × List UInt8 :=
  (pipe.take (min 2 n), pipe.drop (min 2 n))

theorem twoAtATime_gives : GivesParts twoAtATime id := by
  intro pipe n positive
  refine ⟨?_, (List.take_append_drop _ _).symm, ?_⟩
  · rw [twoAtATime, List.length_take]
    omega
  · rw [twoAtATime, List.take_eq_nil_iff]
    rintro (zero | empty)
    · omega
    · exact empty

theorem readAll_letters :
    ∃ retval, ReadAll twoAtATime [97, 98, 99] retval ∧ Releases retval [97, 98, 99] :=
  (readAll_iff twoAtATime_gives [97, 98, 99] (by decide)).2.mpr (by decide)

/-- The byte behind a zero is lost. -/
theorem readAll_zero :
    ¬ ∃ retval, ReadAll twoAtATime [97, 0, 98] retval ∧ Releases retval [97, 0, 98] := by
  rintro ⟨retval, returns, length, -⟩
  have runs : (run (readIteration twoAtATime) 3 ([97, 0, 98], .ofSize 128)).map
      (Option.map StringBuffer.m_len) = some (some 2) := by decide +kernel
  obtain ⟨other, is, two⟩ := Option.map_eq_some_iff.mp runs
  obtain rfl := Returns.unique ⟨3, is⟩ returns
  rw [Option.map_some, Option.some.injEq, length] at two
  exact absurd two (by decide)

end Blocxx.UnnamedPipe
