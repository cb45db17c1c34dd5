import Mathlib.Tactic

/-!
This file gives stateless codecs, which convert their input character by character, and converters
that answer a call with as much of the conversion as has room.
-/

namespace Blocxx.Library

/-- A codec converts the first character of an input. It tells how many bytes this character has. -/
structure Codec (CodeUnit : Type) where
  next : List UInt8 → Option (Nat × List CodeUnit)
  consumes : ∀ input count units, next input = some (count, units) →
    0 < count ∧ count ≤ input.length

namespace Codec

/-- Why a call has stopped in front of the end of its input. -/
inductive Refusal where
  | full
  | invalid
  | incomplete
  deriving DecidableEq

/-- What a call has consumed and emitted. -/
structure Call (CodeUnit : Type) where
  consumed : Nat
  emitted : List CodeUnit
  refusal : Option Refusal

variable {CodeUnit : Type}

/-- The first bytes of the input are characters that are converted to these units. -/
inductive Consumes (codec : Codec CodeUnit) : List UInt8 → Nat → List CodeUnit → Prop
  | nil (input : List UInt8) : Consumes codec input 0 []
  | char {input : List UInt8} {count rest : Nat} {units more : List CodeUnit}
      (first : codec.next input = some (count, units))
      (tail : Consumes codec (input.drop count) rest more) :
      Consumes codec input (count + rest) (units ++ more)

/-- The whole input is converted to these units. -/
def Complete (codec : Codec CodeUnit) (input : List UInt8) (units : List CodeUnit) : Prop :=
  codec.Consumes input input.length units

/-- A call that has room for so many units converts a part of the input. It stops at the end, in
front of a place without a character, or because there is no room. -/
structure Converting (codec : Codec CodeUnit) (room : Nat) (input : List UInt8)
    (call : Call CodeUnit) : Prop where
  converts : codec.Consumes input call.consumed call.emitted
  fits : call.emitted.length ≤ room
  done : call.refusal = none → call.consumed = input.length
  stuck : call.refusal = some .invalid ∨ call.refusal = some .incomplete →
    call.consumed < input.length ∧ codec.next (input.drop call.consumed) = none

/-- A call without more room has converted a character at least. -/
structure Answers (codec : Codec CodeUnit) (room : Nat) (input : List UInt8) (call : Call CodeUnit) :
    Prop extends Converting codec room input call where
  full : call.refusal = some .full → 0 < call.consumed

/-- The loop of `greedy`. Each iteration consumes a byte at least. -/
def greedyFrom (codec : Codec CodeUnit) : Nat → Nat → List UInt8 → Call CodeUnit
  | 0, _, _ => ⟨0, [], none⟩
  | fuel + 1, room, input =>
      if input = [] then ⟨0, [], none⟩
      else
        match codec.next input with
        | none => ⟨0, [], some .invalid⟩
        | some (count, units) =>
            if units.length ≤ room then
              let rest := greedyFrom codec fuel (room - units.length) (input.drop count)
              ⟨count + rest.consumed, units ++ rest.emitted, rest.refusal⟩
            else ⟨0, [], some .full⟩

/-- The call that converts as many characters as have room. -/
def greedy (codec : Codec CodeUnit) (input : List UInt8) (room : Nat) : Call CodeUnit :=
  codec.greedyFrom input.length room input

variable {codec : Codec CodeUnit} {input : List UInt8} {count : Nat} {units : List CodeUnit}

theorem Consumes.le (consumed : codec.Consumes input count units) : count ≤ input.length := by
  induction consumed with
  | nil => exact Nat.zero_le _
  | @char input count rest units more first tail ih =>
      have inside := (codec.consumes input count units first).2
      rw [List.length_drop] at ih
      omega

theorem Consumes.trans {more : Nat} {behind : List CodeUnit}
    (consumed : codec.Consumes input count units)
    (rest : codec.Consumes (input.drop count) more behind) :
    codec.Consumes input (count + more) (units ++ behind) := by
  induction consumed with
  | nil =>
      rw [Nat.zero_add]
      exact rest
  | @char input count before units others first tail ih =>
      rw [Nat.add_assoc, List.append_assoc]
      rw [← List.drop_drop] at rest
      exact .char first (ih rest)

/-- Of two conversions of one input the longer one goes on where the shorter one ends. -/
theorem Consumes.split {longer : Nat} {whole : List CodeUnit}
    (consumed : codec.Consumes input count units) (all : codec.Consumes input longer whole)
    (order : count ≤ longer) :
    ∃ rest, codec.Consumes (input.drop count) (longer - count) rest ∧ whole = units ++ rest := by
  induction consumed generalizing longer whole with
  | nil => exact ⟨whole, all, rfl⟩
  | @char input count before units others first tail ih =>
      have positive := (codec.consumes input count units first).1
      cases all with
      | nil => omega
      | @char _ countToo behind unitsToo more firstToo tailToo =>
          rw [first] at firstToo
          cases firstToo
          obtain ⟨rest, goes, same⟩ := ih tailToo (by omega)
          refine ⟨rest, ?_, by rw [same, List.append_assoc]⟩
          rw [← List.drop_drop, Nat.add_sub_add_left]
          exact goes

theorem Complete.unique {first second : List CodeUnit} (one : codec.Complete input first)
    (other : codec.Complete input second) : first = second := by
  obtain ⟨rest, goes, same⟩ := one.split other le_rfl
  rw [Nat.sub_self] at goes
  generalize zero : 0 = nothing at goes
  cases goes with
  | nil => rw [same, List.append_nil]
  | char start tail =>
      have positive := (codec.consumes _ _ _ start).1
      omega

/-- Where there is no character, nothing converts the whole input. -/
theorem Consumes.not_complete (consumed : codec.Consumes input count units)
    (before : count < input.length) (stuck : codec.next (input.drop count) = none)
    (whole : List CodeUnit) : ¬ codec.Complete input whole := by
  intro complete
  obtain ⟨rest, goes, -⟩ := consumed.split complete before.le
  generalize left : input.length - count = more at goes
  cases goes with
  | nil => omega
  | char start tail =>
      rw [stuck] at start
      cases start

theorem complete_nil (codec : Codec CodeUnit) : codec.Complete [] [] := .nil []

theorem converting_nothing {room : Nat} {refusal : Option Refusal}
    (done : refusal = none → input = [])
    (stuck : refusal = some .invalid ∨ refusal = some .incomplete →
      input ≠ [] ∧ codec.next input = none) : codec.Converting room input ⟨0, [], refusal⟩ where
  converts := .nil input
  fits := Nat.zero_le _
  done := fun ends => (List.length_eq_zero_iff.mpr (done ends)).symm
  stuck := fun stops => ⟨List.length_pos_iff.mpr (stuck stops).1, (stuck stops).2⟩

theorem greedyFrom_converting (codec : Codec CodeUnit) {fuel : Nat} (room : Nat) {input : List UInt8}
    (enough : input.length ≤ fuel) :
    codec.Converting room input (codec.greedyFrom fuel room input) := by
  induction fuel generalizing room input with
  | zero =>
      have empty : input = [] := List.length_eq_zero_iff.mp (Nat.le_zero.mp enough)
      exact converting_nothing (fun _ => empty) (by simp)
  | succ fuel ih =>
      rw [greedyFrom]
      split
      next empty => exact converting_nothing (fun _ => empty) (by simp)
      next some_left =>
        split
        next none_ => exact converting_nothing (by simp) fun _ => ⟨some_left, none_⟩
        next count units first =>
          obtain ⟨one, inside⟩ := codec.consumes input count units first
          have length : (input.drop count).length = input.length - count := List.length_drop
          split
          next room_left =>
            obtain ⟨converts, fits, done, stuck⟩ := ih (room - units.length)
              (show (input.drop count).length ≤ fuel by omega)
            refine ⟨.char first converts, ?_, ?_, ?_⟩
            · rw [List.length_append]
              omega
            · intro ends
              have all := done ends
              show count + _ = _
              omega
            · intro stops
              obtain ⟨before, nothing⟩ := stuck stops
              rw [List.drop_drop] at nothing
              refine ⟨?_, nothing⟩
              show count + _ < _
              omega
          · exact converting_nothing (by simp) (by simp)

/-- The greedy calls answer when there is room for each character. -/
theorem greedy_answers (codec : Codec CodeUnit) {room : Nat}
    (small : ∀ input count units, codec.next input = some (count, units) → units.length ≤ room)
    (input : List UInt8) : codec.Answers room input (codec.greedy input room) := by
  refine ⟨codec.greedyFrom_converting room le_rfl, ?_⟩
  intro stops
  unfold greedy at stops ⊢
  cases input with
  | nil => cases stops
  | cons byte bytes =>
      rw [List.length_cons, greedyFrom, if_neg (List.cons_ne_nil byte bytes)] at stops ⊢
      cases first : codec.next (byte :: bytes) with
      | none =>
          rw [first] at stops
          cases stops
      | some result =>
          obtain ⟨count, units⟩ := result
          have one := (codec.consumes _ count units first).1
          dsimp only
          rw [if_pos (small _ count units first)]
          exact Nat.add_pos_left one _

end Codec

end Blocxx.Library
