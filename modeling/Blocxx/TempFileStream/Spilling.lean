import Blocxx.TempFileStream.Queue

/-!
This file proves that the size of a `TempFileBuffer` does not show in its answers, as long as no
call meets one of the defects of the two modes.
-/

namespace Blocxx.TempFileStream

/-- The calls on a buffer. -/
inductive Operation where
  | transfer (transfer : Transfer)
  | getSize
  | rewind
  deriving DecidableEq

def TempFileBuffer.call (b : TempFileBuffer) : Operation → Answer × TempFileBuffer
  | .transfer t => b.transfer t
  | .getSize => (.count b.getSize, b)
  | .rewind => (.done, b.rewind)

/-- How many bytes the call writes. -/
def Operation.length : Operation → Nat
  | .transfer t => t.length
  | .getSize | .rewind => 0

def results (b : TempFileBuffer) : List Operation → List Answer
  | [] => []
  | operation :: rest => (b.call operation).1 :: results (b.call operation).2 rest

/-- How many bytes the calls write. -/
def bytesWritten (operations : List Operation) : Nat := (operations.map Operation.length).sum

/-- The call is safe for both buffers, and their sizes are counted in the same way. -/
def Operation.Invisible (first second : TempFileBuffer) : Operation → Prop
  | .transfer t => t.Safe first ∧ t.Safe second
  | .getSize => first.Miscounts ↔ second.Miscounts
  | .rewind => True

instance (first second : TempFileBuffer) (operation : Operation) :
    Decidable (operation.Invisible first second) := by
  cases operation <;> unfold Operation.Invisible <;> infer_instance

/-- Each call of the run meets its condition in the two states before it. -/
def Invisible (first second : TempFileBuffer) : List Operation → Prop
  | [] => True
  | operation :: rest => operation.Invisible first second ∧
      Invisible (first.call operation).2 (second.call operation).2 rest

instance decidableInvisible : (operations : List Operation) → (first second : TempFileBuffer) →
    Decidable (Invisible first second operations)
  | [], _, _ => isTrue trivial
  | operation :: rest, first, second =>
      have := decidableInvisible rest (first.call operation).2 (second.call operation).2
      inferInstanceAs (Decidable (_ ∧ _))

/-- The contents after the call. -/
def Contents.call (a : Contents) : Operation → Contents
  | .transfer t => (a.transfer t).2
  | .getSize => a
  | .rewind => a.rewind

theorem Contents.length_call (a : Contents) (operation : Operation) :
    (a.call operation).written.length = a.written.length + operation.length := by
  cases operation with
  | transfer transfer => exact a.length_transfer transfer
  | getSize => rfl
  | rewind => rfl

variable {firstSize secondSize : Nat}

/-- Two buffers with the same contents give the same answer and have the same contents again. -/
theorem call_invisible {first second : TempFileBuffer} {a : Contents} {operation : Operation}
    (followsFirst : Follows firstSize first a) (followsSecond : Follows secondSize second a)
    (smallFirst : Counted firstSize (a.written.length + operation.length))
    (smallSecond : Counted secondSize (a.written.length + operation.length))
    (invisible : operation.Invisible first second) :
    (first.call operation).1 = (second.call operation).1 ∧
      Follows firstSize (first.call operation).2 (a.call operation) ∧
      Follows secondSize (second.call operation).2 (a.call operation) := by
  cases operation with
  | transfer transfer =>
      obtain ⟨answerFirst, nextFirst, -⟩ := transfer_follows followsFirst invisible.1 smallFirst
      obtain ⟨answerSecond, nextSecond, -⟩ := transfer_follows followsSecond invisible.2 smallSecond
      exact ⟨answerFirst.trans answerSecond.symm, nextFirst, nextSecond⟩
  | getSize =>
      refine ⟨?_, followsFirst, followsSecond⟩
      have sameCount : first.getSize = second.getSize := by
        rw [getSize_eq followsFirst.tracks, getSize_eq followsSecond.tracks]
        congr 1
        by_cases twice : first.Miscounts
        · rw [if_pos twice, if_pos (invisible.mp twice)]
        · rw [if_neg twice, if_neg (mt invisible.mpr twice)]
      exact congrArg Answer.count sameCount
  | rewind =>
      exact ⟨rfl, rewind_follows followsFirst.tracks, rewind_follows followsSecond.tracks⟩

/-- The run lemma, from any common contents. -/
theorem results_eq (operations : List Operation) : ∀ {first second : TempFileBuffer}
    {a : Contents}, Follows firstSize first a → Follows secondSize second a →
      Counted firstSize (a.written.length + bytesWritten operations) →
      Counted secondSize (a.written.length + bytesWritten operations) →
      Invisible first second operations → results first operations = results second operations := by
  induction operations with
  | nil =>
      intro first second a _ _ _ _ _
      rfl
  | cons operation rest ih =>
      intro first second a followsFirst followsSecond smallFirst smallSecond invisible
      have total : bytesWritten (operation :: rest) = operation.length + bytesWritten rest := by
        simp [bytesWritten]
      rw [total] at smallFirst smallSecond
      have here {size : Nat}
          (small : Counted size (a.written.length + (operation.length + bytesWritten rest))) :
          Counted size (a.written.length + operation.length) ∧
            Counted size ((a.call operation).written.length + bytesWritten rest) := by
        rw [a.length_call, Nat.add_assoc]
        unfold Counted at small ⊢
        omega
      obtain ⟨answer, nextFirst, nextSecond⟩ := call_invisible followsFirst followsSecond
        (here smallFirst).1 (here smallSecond).1 invisible.1
      rw [results, results, answer,
        ih nextFirst nextSecond (here smallFirst).2 (here smallSecond).2 invisible.2]

/-- Two new buffers of any sizes give the same results in a run whose calls meet the condition. -/
theorem spilling_invisible (firstSize secondSize : Nat) (firstPositive : 1 ≤ firstSize)
    (secondPositive : 1 ≤ secondSize) (firstMemory : Vector UInt8 firstSize)
    (secondMemory : Vector UInt8 secondSize) (operations : List Operation)
    (firstSmall : Counted firstSize (bytesWritten operations))
    (secondSmall : Counted secondSize (bytesWritten operations))
    (invisible : Invisible (.new firstMemory) (.new secondMemory) operations) :
    results (.new firstMemory) operations = results (.new secondMemory) operations := by
  have behind : Contents.empty.Behind := fun _ _ some_ => absurd rfl some_
  have start {size : Nat} (small : Counted size (bytesWritten operations)) :
      Counted size (Contents.empty.written.length + bytesWritten operations) := by
    show Counted size (0 + bytesWritten operations)
    rwa [Nat.zero_add]
  exact results_eq operations ⟨Tracks.new firstPositive firstMemory, behind⟩
    ⟨Tracks.new secondPositive secondMemory, behind⟩ (start firstSmall) (start secondSmall)
    invisible

/-- Writes, reads, sizes, and a rewind, in memory for one size and through a file for the other. -/
def mixedCalls : List Operation :=
  [.transfer (.sputn [1, 2, 3]), .getSize, .transfer (.sgetn 2), .transfer .sbumpc, .rewind,
    .getSize, .transfer (.sgetn 5)]

theorem spilling_invisible_mixedCalls :
    results (.new #v[0, 0]) mixedCalls = results (.new #v[0, 0, 0, 0, 0]) mixedCalls :=
  spilling_invisible 2 5 (by decide) (by decide) #v[0, 0] #v[0, 0, 0, 0, 0] mixedCalls
    (.inl (by decide)) (.inl (by decide)) (by decide)

/-- After the rewind of the spilled buffer its next byte overwrites the second one, and the buffer
in memory counts its bytes twice after the turn from reading to writing. -/
theorem spilling_shows :
    results (.new #v[0])
        [.transfer (.sputn [1, 2]), .rewind, .transfer (.sputc 3), .rewind, .transfer (.sgetn 3)] ≠
      results (.new #v[0, 0, 0, 0])
        [.transfer (.sputn [1, 2]), .rewind, .transfer (.sputc 3), .rewind,
          .transfer (.sgetn 3)] ∧
      results (.new #v[0]) [.transfer (.sputn [1, 2]), .transfer .sbumpc, .transfer (.sputc 3),
          .getSize] ≠
        results (.new #v[0, 0, 0, 0]) [.transfer (.sputn [1, 2]), .transfer .sbumpc,
          .transfer (.sputc 3), .getSize] := by
  decide

end Blocxx.TempFileStream
