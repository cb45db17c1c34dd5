import Mathlib.Tactic

/-!
This file embeds `MersenneTwisterRandomNumber` and proves that its numbers follow the recurrence.
-/

namespace Blocxx.MersenneTwister

/-- The value of an expression of the type `size_t`. -/
def sizeT (value : Int) : Nat := (value % 2 ^ 64).toNat

def STATE_SIZE : Nat := 624

/-- The members of the class. The array holds any words before `setSeed` has run. -/
structure MersenneTwisterRandomNumber where
  m_state : Vector UInt32 STATE_SIZE
  m_stateUsed : Nat

/-- An array has no element outside. -/
def load {size : Nat} (words : Vector UInt32 size) (index : Nat) : Option UInt32 := words[index]?

def store {size : Nat} (words : Vector UInt32 size) (index : Nat) (word : UInt32) :
    Option (Vector UInt32 size) :=
  if inside : index < size then some (words.set index word) else none

/-- A loop whose index runs from one bound up to the other one. -/
def forLoop {State : Type} (first bound : Nat) (body : State → Nat → Option State) (state : State) :
    Option State :=
  (List.range' first (bound - first)).foldlM body state

/-- The body of the loop of the assignment operator. -/
def copyWord (old m_state : Vector UInt32 STATE_SIZE) (i : Nat) :
    Option (Vector UInt32 STATE_SIZE) := do
  store m_state i (← load old i)

/-- The assignment operator. -/
def assign (this old : MersenneTwisterRandomNumber) : Option MersenneTwisterRandomNumber := do
  let m_state ← forLoop 0 STATE_SIZE (copyWord old.m_state) this.m_state
  return ⟨m_state, old.m_stateUsed⟩

/-- The body of the loop of `setSeed`. The product has the type `unsigned long`. -/
def seedWord (m_state : Vector UInt32 STATE_SIZE) (m_stateUsed : Nat) :
    Option (Vector UInt32 STATE_SIZE) := do
  let last ← load m_state (m_stateUsed - 1)
  let product := (1812433253 : UInt64) * (last ^^^ (last >>> 30)).toUInt64
  store m_state m_stateUsed (product + UInt64.ofNat m_stateUsed).toUInt32

def setSeed (seed : UInt32) (this : MersenneTwisterRandomNumber) :
    Option MersenneTwisterRandomNumber := do
  let m_state ← store this.m_state 0 seed
  let m_state ← forLoop 1 STATE_SIZE seedWord m_state
  return ⟨m_state, STATE_SIZE⟩

def MERS_M : Nat := 397
def MERS_R : UInt32 := 31
def MERS_U : UInt32 := 11
def MERS_S : UInt32 := 7
def MERS_T : UInt32 := 15
def MERS_L : UInt32 := 18
def MERS_A : UInt32 := 0x9908B0DF
def MERS_B : UInt32 := 0x9D2C5680
def MERS_C : UInt32 := 0xEFC60000

def LOWER_MASK : UInt32 := (1 <<< MERS_R) - 1
def UPPER_MASK : UInt32 := 0xFFFFFFFF <<< MERS_R
def mag01 : Vector UInt32 2 := #v[0, MERS_A]

/-- The body of the loops that generate the words. The indices are those of the word, of the one
after it and of the one that is mixed in. -/
def generate (m_state : Vector UInt32 STATE_SIZE) (kk next mixed : Nat) :
    Option (Vector UInt32 STATE_SIZE) := do
  let y := ((← load m_state kk) &&& UPPER_MASK) ||| ((← load m_state next) &&& LOWER_MASK)
  store m_state kk ((← load m_state mixed) ^^^ (y >>> 1) ^^^ (← load mag01 (y &&& 1).toNat))

/-- `getNextNumber` generates `STATE_SIZE` words at one time. -/
def generateAll (m_state : Vector UInt32 STATE_SIZE) : Option (Vector UInt32 STATE_SIZE) := do
  let m_state ← forLoop 0 (STATE_SIZE - MERS_M)
    (fun m_state kk => generate m_state kk (kk + 1) (kk + MERS_M)) m_state
  let m_state ← forLoop (STATE_SIZE - MERS_M) (STATE_SIZE - 1)
    -- the difference of the sizes wraps, and so does the sum
    (fun m_state kk => generate m_state kk (kk + 1)
      (sizeT (kk + sizeT (MERS_M - STATE_SIZE)))) m_state
  generate m_state (STATE_SIZE - 1) 0 (MERS_M - 1)

def temper (y : UInt32) : UInt32 :=
  let y := y ^^^ (y >>> MERS_U)
  let y := y ^^^ ((y <<< MERS_S) &&& MERS_B)
  let y := y ^^^ ((y <<< MERS_T) &&& MERS_C)
  y ^^^ (y >>> MERS_L)

/-- The `double` that is nearest to an integer. A tie goes to the even one. -/
def nearest (exact : Nat) : Nat :=
  let unit := 2 ^ (exact.log2 - 52)
  let below := exact / unit
  let rest := exact % unit
  if unit < 2 * rest ∨ unit = 2 * rest ∧ below % 2 = 1 then (below + 1) * unit else below * unit

/-- The number of `[0, 1)` with these binary digits times the count of the numbers. -/
def scale (y maxNumber : UInt32) : UInt32 :=
  .ofNat (nearest (y.toNat * (maxNumber + 1).toNat) / 2 ^ 32)

def getMaxNumber : UInt32 := 0xFFFFFFFF

def getNextNumber (maxNumber : UInt32) (this : MersenneTwisterRandomNumber) :
    Option (UInt32 × MersenneTwisterRandomNumber) := do
  let this ← if STATE_SIZE ≤ this.m_stateUsed then do pure ⟨← generateAll this.m_state, 0⟩
    else pure this
  let y := temper (← load this.m_state this.m_stateUsed)
  let y := if maxNumber = getMaxNumber then y else scale y maxNumber
  return (y, ⟨this.m_state, this.m_stateUsed + 1⟩)

/-- As many calls of `getNextNumber` with the default maximum. -/
def getNextNumbers : Nat → MersenneTwisterRandomNumber →
    Option (List UInt32 × MersenneTwisterRandomNumber)
  | 0, this => some ([], this)
  | count + 1, this => do
      let (numbers, this) ← getNextNumbers count this
      let (number, this) ← getNextNumber getMaxNumber this
      return (numbers ++ [number], this)

/-- The top bit of one word and the low 31 bits of the other one. -/
def joined (high low : UInt32) : UInt32 :=
  ⟨high.toBitVec.extractLsb' 31 1 ++ low.toBitVec.extractLsb' 0 31⟩

/-- The mixed word changed by the joined one. -/
def twist (mixed y : UInt32) : UInt32 :=
  mixed ^^^ (y >>> 1) ^^^ (if y.toNat % 2 = 1 then MERS_A else 0)

/-- The words of the unbounded sequence that starts with these. -/
def x (first : Vector UInt32 STATE_SIZE) (n : Nat) : UInt32 :=
  if start : n < STATE_SIZE then first[n]
  else twist (x first (n - STATE_SIZE + MERS_M))
    (joined (x first (n - STATE_SIZE)) (x first (n - STATE_SIZE + 1)))
termination_by n
decreasing_by all_goals simp only [STATE_SIZE, MERS_M] at *; omega

theorem joined_eq (high low : UInt32) :
    (high &&& UPPER_MASK) ||| (low &&& LOWER_MASK) = joined high low := by
  apply UInt32.toBitVec_inj.mp
  apply BitVec.eq_of_getLsbD_eq
  intro i inside
  have upper : ∀ i < 32, UPPER_MASK.toBitVec.getLsbD i = decide (i = 31) := by decide
  have lower : ∀ i < 32, LOWER_MASK.toBitVec.getLsbD i = decide (i < 31) := by decide
  rw [UInt32.toBitVec_or, UInt32.toBitVec_and, UInt32.toBitVec_and, BitVec.getLsbD_or,
    BitVec.getLsbD_and, BitVec.getLsbD_and, upper i inside, lower i inside]
  show _ = (high.toBitVec.extractLsb' 31 1 ++ low.toBitVec.extractLsb' 0 31).getLsbD i
  rw [BitVec.getLsbD_append, BitVec.getLsbD_extractLsb', BitVec.getLsbD_extractLsb']
  by_cases top : i = 31
  · simp [top]
  · have below : i < 31 := by omega
    simp [top, below]

theorem load_mag01 (y : UInt32) :
    load mag01 (y &&& 1).toNat = some (if y.toNat % 2 = 1 then MERS_A else 0) := by
  have low : (y &&& 1).toNat = y.toNat % 2 := by
    rw [UInt32.toNat_and]
    exact Nat.and_one_is_mod _
  rw [low]
  obtain even | odd := Nat.mod_two_eq_zero_or_one y.toNat
  · rw [even]
    rfl
  · rw [odd]
    rfl

/-- The recurrence. -/
theorem x_add (first : Vector UInt32 STATE_SIZE) (i : Nat) :
    x first (i + STATE_SIZE) =
      twist (x first (i + MERS_M)) (joined (x first i) (x first (i + 1))) := by
  rw [x, dif_neg (by omega), Nat.add_sub_cancel]

theorem x_start (first : Vector UInt32 STATE_SIZE) {i : Nat} (inside : i < STATE_SIZE) :
    x first i = first[i] := by
  rw [x, dif_pos inside]

/-- What one iteration keeps holds after the loop. -/
theorem forLoop_rule {State : Type} {first bound : Nat} {body : State → Nat → Option State}
    (holds : Nat → State → Prop) (order : first ≤ bound)
    (step : ∀ i state, first ≤ i → i < bound → holds i state →
      ∃ later, body state i = some later ∧ holds (i + 1) later)
    {state : State} (initial : holds first state) :
    ∃ final, forLoop first bound body state = some final ∧ holds bound final := by
  obtain ⟨count, rfl⟩ := Nat.exists_eq_add_of_le order
  rw [forLoop, Nat.add_sub_cancel_left]
  induction count generalizing first state with
  | zero => exact ⟨state, rfl, initial⟩
  | succ count ih =>
      obtain ⟨later, runs, kept⟩ := step first state le_rfl (by omega) initial
      obtain ⟨final, rest, done⟩ := ih kept (Nat.le_add_right _ _)
        fun i state above below => step i state (by omega) (by omega)
      refine ⟨final, ?_, ?_⟩
      · rw [List.range'_succ, List.foldlM_cons, runs]
        exact rest
      · rwa [Nat.add_right_comm] at done

/-- The rounding adds at most one part of 2^52. -/
theorem nearest_le (exact : Nat) : 2 ^ 52 * nearest exact ≤ 2 ^ 52 * exact + exact := by
  by_cases small : exact.log2 < 52
  · have unit : exact.log2 - 52 = 0 := by omega
    have same : nearest exact = exact := by
      simp [nearest, unit, Nat.mod_one]
    omega
  · have fits : 2 ^ 52 * 2 ^ (exact.log2 - 52) ≤ exact := by
      rw [← pow_add, Nat.add_sub_cancel' (not_lt.mp small)]
      apply Nat.log2_self_le
      intro zero
      simp [zero] at small
    have below := Nat.div_mul_le_self exact (2 ^ (exact.log2 - 52))
    have up : nearest exact ≤ exact + 2 ^ (exact.log2 - 52) := by
      simp only [nearest]
      split <;> grind
    omega

/-- A scaled number is not more than the maximum. -/
theorem scale_le {y maxNumber : UInt32} (notAll : maxNumber ≠ getMaxNumber) :
    (scale y maxNumber).toNat ≤ maxNumber.toNat := by
  have count : (maxNumber + 1).toNat = maxNumber.toNat + 1 := by
    have notLast : maxNumber.toNat ≠ 0xFFFFFFFF := fun last => notAll (UInt32.toNat_inj.mp last)
    have below := maxNumber.toNat_lt
    rw [UInt32.toNat_add, Nat.mod_eq_of_lt]
    · rfl
    · show maxNumber.toNat + 1 < _
      omega
  have digits := Nat.mul_le_mul_right (maxNumber.toNat + 1) (Nat.le_sub_one_of_lt y.toNat_lt)
  have rounded := nearest_le (y.toNat * (maxNumber.toNat + 1))
  have quotient : nearest (y.toNat * (maxNumber.toNat + 1)) / 2 ^ 32 < maxNumber.toNat + 1 := by
    rw [Nat.div_lt_iff_lt_mul (by decide)]
    omega
  have below := maxNumber.toNat_lt
  rw [scale, count, UInt32.toNat_ofNat', Nat.mod_eq_of_lt (by omega)]
  exact Nat.le_of_lt_succ quotient

theorem temper_or_scale_le (y maxNumber : UInt32) :
    (if maxNumber = getMaxNumber then temper y else scale (temper y) maxNumber).toNat ≤
      maxNumber.toNat := by
  split
  · next all =>
      rw [all]
      exact Nat.le_of_lt_succ (temper y).toNat_lt
  · next notAll => exact scale_le notAll

/-- The product is rounded, and the number is still not more than the maximum. -/
theorem getNextNumber_le {maxNumber number : UInt32} {this later : MersenneTwisterRandomNumber}
    (calls : getNextNumber maxNumber this = some (number, later)) :
    number.toNat ≤ maxNumber.toNat := by
  by_cases exhausted : STATE_SIZE ≤ this.m_stateUsed
  · simp only [getNextNumber, exhausted, if_true, Option.bind_eq_bind, Option.bind_eq_some_iff,
      Option.pure_def, Option.some.injEq, Prod.mk.injEq] at calls
    obtain ⟨_, _, _, _, y, _, rfl, _⟩ := calls
    exact temper_or_scale_le y maxNumber
  · simp only [getNextNumber, exhausted, if_false, Option.bind_eq_bind, Option.bind_eq_some_iff,
      Option.pure_def, Option.some.injEq, Prod.mk.injEq] at calls
    obtain ⟨_, _, y, _, rfl, _⟩ := calls
    exact temper_or_scale_le y maxNumber

theorem getNextNumber_le_six : (scale (temper 1) 6).toNat ≤ (6 : UInt32).toNat :=
  @getNextNumber_le 6 _ ⟨.replicate STATE_SIZE 1, 0⟩ _ rfl

variable {first m_state : Vector UInt32 STATE_SIZE} {base : Nat}

/-- The words below the index are those of the next block and the other ones those of this one. -/
def Generated (first : Vector UInt32 STATE_SIZE) (base kk : Nat)
    (m_state : Vector UInt32 STATE_SIZE) : Prop :=
  ∀ i (inside : i < STATE_SIZE),
    m_state[i] = if i < kk then x first (base + i + STATE_SIZE) else x first (base + i)

theorem load_eq {size : Nat} {words : Vector UInt32 size} {index : Nat} (inside : index < size) :
    load words index = some words[index] := by
  simp [load, inside]

/-- The iteration finds the words that the recurrence names. -/
theorem generate_eq {kk next mixed : Nat} (inside : kk < STATE_SIZE)
    (generated : Generated first base kk m_state)
    (nextIs : load m_state next = some (x first (base + kk + 1)))
    (mixedIs : load m_state mixed = some (x first (base + kk + MERS_M))) :
    ∃ later, generate m_state kk next mixed = some later ∧
      Generated first base (kk + 1) later := by
  have own : load m_state kk = some (x first (base + kk)) := by
    rw [load_eq inside, generated kk inside, if_neg (lt_irrefl kk)]
  refine ⟨m_state.set kk (x first (base + kk + STATE_SIZE)), ?_, ?_⟩
  · simp only [generate, own, nextIs, mixedIs, load_mag01, joined_eq, store, inside,
      Option.bind_eq_bind, Option.bind_some]
    rw [x_add]
    rfl
  · intro i within
    rw [Vector.getElem_set, generated i within]
    grind

/-- The index that wraps is the one of the word that the first loop has put there. -/
theorem sizeT_wraps {kk : Nat} (low : STATE_SIZE - MERS_M ≤ kk) (high : kk < STATE_SIZE) :
    sizeT (kk + sizeT (MERS_M - STATE_SIZE)) = kk - (STATE_SIZE - MERS_M) := by
  have difference : sizeT (MERS_M - STATE_SIZE) = 2 ^ 64 - 227 := by decide
  rw [difference]
  simp only [sizeT, STATE_SIZE, MERS_M] at *
  omega

/-- The index is one of a word that its iteration has not reached. -/
theorem Generated.load_old {kk i : Nat} (generated : Generated first base kk m_state)
    (old : kk ≤ i) (inside : i < STATE_SIZE) : load m_state i = some (x first (base + i)) := by
  rw [load_eq inside, generated i inside, if_neg (by omega)]

theorem Generated.load_new {kk i : Nat} (generated : Generated first base kk m_state)
    (new : i < kk) (inside : i < STATE_SIZE) :
    load m_state i = some (x first (base + i + STATE_SIZE)) := by
  rw [load_eq inside, generated i inside, if_pos new]

/-- The word that is mixed in is an old one. -/
theorem firstLoop_step {kk : Nat} (below : kk < STATE_SIZE - MERS_M)
    (generated : Generated first base kk m_state) :
    ∃ later, generate m_state kk (kk + 1) (kk + MERS_M) = some later ∧
      Generated first base (kk + 1) later := by
  simp only [STATE_SIZE, MERS_M] at below
  apply generate_eq (by simp only [STATE_SIZE]; omega) generated
  · exact generated.load_old (Nat.le_succ kk) (by simp only [STATE_SIZE]; omega)
  · rw [add_assoc]
    exact generated.load_old (Nat.le_add_right kk _) (by simp only [STATE_SIZE, MERS_M]; omega)

/-- The word that is mixed in is a new one. -/
theorem secondLoop_step {kk : Nat} (above : STATE_SIZE - MERS_M ≤ kk) (below : kk < STATE_SIZE - 1)
    (generated : Generated first base kk m_state) :
    ∃ later, generate m_state kk (kk + 1) (sizeT (kk + sizeT (MERS_M - STATE_SIZE))) = some later ∧
      Generated first base (kk + 1) later := by
  rw [sizeT_wraps above (by omega)]
  simp only [STATE_SIZE, MERS_M] at above below ⊢
  apply generate_eq (by simp only [STATE_SIZE]; omega) generated
  · exact generated.load_old (Nat.le_succ kk) (by simp only [STATE_SIZE]; omega)
  · have same : base + (kk - 227) + STATE_SIZE = base + kk + MERS_M := by
      simp only [STATE_SIZE, MERS_M]
      omega
    rw [← same]
    exact generated.load_new (by omega) (by simp only [STATE_SIZE]; omega)

/-- The words around the end of the block are the first ones of the next block. -/
theorem lastStep (generated : Generated first base (STATE_SIZE - 1) m_state) :
    ∃ later, generate m_state (STATE_SIZE - 1) 0 (MERS_M - 1) = some later ∧
      Generated first base STATE_SIZE later := by
  apply generate_eq (by decide) generated
  · rw [generated.load_new (by decide) (by decide)]
    rfl
  · exact generated.load_new (by decide) (by decide)

/-- The loops and the last step put the next block in the place of this one. -/
theorem generateAll_eq (block : Generated first base 0 m_state) :
    ∃ next, generateAll m_state = some next ∧ Generated first (base + STATE_SIZE) 0 next := by
  obtain ⟨half, firstLoop, halfGenerated⟩ := forLoop_rule (Generated first base) (Nat.zero_le _)
    (fun kk m_state _ below generated => firstLoop_step below generated) block
  obtain ⟨most, secondLoop, mostGenerated⟩ := forLoop_rule (Generated first base)
    (show STATE_SIZE - MERS_M ≤ STATE_SIZE - 1 by decide)
    (fun kk m_state above below generated => secondLoop_step above below generated) halfGenerated
  obtain ⟨next, last, whole⟩ := lastStep mostGenerated
  refine ⟨next, ?_, ?_⟩
  · rw [generateAll, firstLoop, Option.bind_eq_bind, Option.bind_some, secondLoop,
      Option.bind_some, last]
  · intro i inside
    rw [whole i inside, if_pos inside, if_neg (Nat.not_lt_zero i), Nat.add_right_comm]

variable {this : MersenneTwisterRandomNumber} {count : Nat}

/-- The array is a block of the sequence, and this many of its words have been used. -/
structure HasReturned (first : Vector UInt32 STATE_SIZE) (count : Nat)
    (this : MersenneTwisterRandomNumber) : Prop where
  used : this.m_stateUsed ≤ STATE_SIZE
  block : ∃ base, Generated first base 0 this.m_state ∧ base + this.m_stateUsed = count + STATE_SIZE

/-- A call gives the next number. -/
theorem getNextNumber_step (returned : HasReturned first count this) :
    ∃ later, getNextNumber getMaxNumber this = some (temper (x first (count + STATE_SIZE)), later) ∧
      HasReturned first (count + 1) later := by
  obtain ⟨used, base, block, position⟩ := returned
  by_cases exhausted : STATE_SIZE ≤ this.m_stateUsed
  · obtain ⟨next, generates, nextBlock⟩ := generateAll_eq block
    have word := nextBlock.load_old le_rfl (show 0 < STATE_SIZE by decide)
    have same : base + STATE_SIZE + 0 = count + STATE_SIZE := by omega
    rw [same] at word
    refine ⟨⟨next, 1⟩, ?_, show 1 ≤ STATE_SIZE by decide, base + STATE_SIZE, nextBlock, ?_⟩
    · simp only [getNextNumber, exhausted, generates, if_true, Option.bind_eq_bind,
        Option.bind_some, Option.pure_def, word]
    · show base + STATE_SIZE + 1 = _
      omega
  · have word := block.load_old (Nat.zero_le _) (not_le.mp exhausted)
    refine ⟨⟨this.m_state, this.m_stateUsed + 1⟩, ?_, not_le.mp exhausted, base, block, ?_⟩
    · simp only [getNextNumber, exhausted, word, if_false, if_true, Option.bind_eq_bind,
        Option.bind_some, Option.pure_def, position]
    · show base + (this.m_stateUsed + 1) = _
      omega

/-- The calls give the next numbers. -/
theorem getNextNumbers_run (returned : HasReturned first count this) (more : Nat) :
    ∃ later, getNextNumbers more this = some
        ((List.range more).map fun k => temper (x first (count + k + STATE_SIZE)), later) ∧
      HasReturned first (count + more) later := by
  induction more with
  | zero => exact ⟨this, rfl, returned⟩
  | succ more ih =>
      obtain ⟨middle, runs, soFar⟩ := ih
      obtain ⟨later, calls, next⟩ := getNextNumber_step soFar
      refine ⟨later, ?_, next⟩
      simp only [getNextNumbers, runs, calls, Option.bind_eq_bind, Option.bind_some,
        Option.pure_def, List.range_succ, List.map_append, List.map_cons, List.map_nil]

/-- The loop of `setSeed` stays in the array. -/
theorem seedWord_inside {m_state : Vector UInt32 STATE_SIZE} {used : Nat} (above : 1 ≤ used)
    (below : used < STATE_SIZE) : ∃ later, seedWord m_state used = some later := by
  rw [seedWord, load_eq (show used - 1 < STATE_SIZE by omega)]
  exact ⟨_, dif_pos below⟩

/-- `setSeed` writes a block from its first word on. -/
theorem setSeed_eq (seed : UInt32) (this : MersenneTwisterRandomNumber) :
    ∃ seeded, setSeed seed this = some seeded ∧ HasReturned seeded.m_state 0 seeded := by
  have inside : 0 < STATE_SIZE := by decide
  have step (used : Nat) (m_state : Vector UInt32 STATE_SIZE) (above : 1 ≤ used)
      (below : used < STATE_SIZE) (_ : True) :
      ∃ later, seedWord m_state used = some later ∧ True := by
    obtain ⟨later, writes⟩ := seedWord_inside above below
    exact ⟨later, writes, trivial⟩
  obtain ⟨m_state, loop, -⟩ := forLoop_rule (fun _ _ => True) (by decide) step
    (show (fun _ _ => True) 1 (this.m_state.set 0 seed) from trivial)
  refine ⟨⟨m_state, STATE_SIZE⟩, ?_, le_rfl, 0, ?_, rfl⟩
  · rw [setSeed, store, dif_pos inside, Option.bind_eq_bind, Option.bind_some, loop]
    rfl
  · intro i within
    rw [if_neg (Nat.not_lt_zero i), Nat.zero_add, x_start m_state within]

/-- The words below the index are those of the other array. -/
def Copied (old : Vector UInt32 STATE_SIZE) (i : Nat) (m_state : Vector UInt32 STATE_SIZE) : Prop :=
  ∀ j (inside : j < STATE_SIZE), j < i → m_state[j] = old[j]

theorem copyWord_step {old m_state : Vector UInt32 STATE_SIZE} {i : Nat} (below : i < STATE_SIZE)
    (soFar : Copied old i m_state) :
    ∃ later, copyWord old m_state i = some later ∧ Copied old (i + 1) later := by
  rw [copyWord, load_eq below]
  refine ⟨m_state.set i old[i], dif_pos below, ?_⟩
  intro j inside reached
  rw [Vector.getElem_set]
  split
  · next same => simp only [same]
  · exact soFar j inside (by omega)

/-- The copy has the members of the original. -/
theorem assign_eq (this old : MersenneTwisterRandomNumber) : assign this old = some old := by
  obtain ⟨m_state, loop, copied⟩ := forLoop_rule (Copied old.m_state) (Nat.zero_le STATE_SIZE)
    (fun i m_state _ below soFar => copyWord_step below soFar)
    (show Copied old.m_state 0 this.m_state from fun j _ none => absurd none (Nat.not_lt_zero j))
  have same : m_state = old.m_state := by
    apply Vector.ext
    intro j inside
    exact copied j inside inside
  rw [assign, loop, same]
  rfl

/-- From every seed the numbers are the tempered words of the recurrence, no index is outside of the
array, and a copy that is made after any calls goes on with the numbers of the original. -/
theorem getNextNumbers_recurrence (seed : UInt32) (this : MersenneTwisterRandomNumber) :
    ∃ seeded, setSeed seed this = some seeded ∧ ∀ count, ∃ original,
      getNextNumbers count seeded = some
        ((List.range count).map fun k => temper (x seeded.m_state (k + STATE_SIZE)), original) ∧
      ∀ other, ∃ copy, assign other original = some copy ∧ ∀ more, ∃ later,
        getNextNumbers more copy = some ((List.range more).map fun k =>
          temper (x seeded.m_state (count + k + STATE_SIZE)), later) ∧
        getNextNumbers more original = getNextNumbers more copy := by
  obtain ⟨seeded, sets, fresh⟩ := setSeed_eq seed this
  refine ⟨seeded, sets, ?_⟩
  intro count
  obtain ⟨original, runs, soFar⟩ := getNextNumbers_run fresh count
  simp only [Nat.zero_add] at runs soFar
  refine ⟨original, runs, ?_⟩
  intro other
  refine ⟨original, assign_eq other original, ?_⟩
  intro more
  obtain ⟨later, goesOn, -⟩ := getNextNumbers_run soFar more
  exact ⟨later, goesOn, rfl⟩

end Blocxx.MersenneTwister
