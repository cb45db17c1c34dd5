import Blocxx.DateTime.TmUtils
import Blocxx.Exec.Exec
import Blocxx.String.Whole
import Blocxx.String.WholeBytes

/-!
This file embeds `StringOutputGatherer` on the bytes of its strings and proves when its limit is
exact.
-/

namespace Blocxx.Exec

open Library Library.Memory BinarySerialization Strings

section Gatherer

/-- A string after a call of `doHandleData`, and whether it threw `ExecBufferFullException`. -/
structure Gathered where
  full : Bool
  output : CowString

def BLOCXX_MIN (x y : Nat) : Nat := if x < y then x else y

theorem cString_nonzero (data : Bytes) : (0 : UInt8) ∉ data.takeWhile (· ≠ 0) := by
  intro member
  have other := List.mem_takeWhile_imp member
  simp at other

/-- The statement `output += String(data, dataLen)`. It appends a C string. -/
def append (output : CowString) (data : Bytes) : CowString :=
  concat output (some ⟨data.takeWhile (· ≠ 0), cString_nonzero data⟩)

/-- The number of bytes to copy of a chunk that does not fit. The room is a difference of two
`size_t`, and the minimum of it and the size is narrowed to an `int`. -/
def lentocopy (m_outputLimit : Int32) (length dataLen : Nat) : Int :=
  Time.wrap32 (BLOCXX_MIN ((m_outputLimit.toInt - length) % 2 ^ 64).toNat dataLen)

/-- `doHandleData` with the string of the source. -/
def doHandleData (m_outputLimit : Int32) (output : CowString) (data : Bytes) : Gathered :=
  if m_outputLimit.toInt ≥ 0 ∧
      (length output + data.length) % 2 ^ 64 > m_outputLimit.toInt.toNat then
    let lentocopy := lentocopy m_outputLimit (length output) data.length
    ⟨true, if lentocopy ≥ 0 then append output (data.take lentocopy.toNat) else output⟩
  else ⟨false, append output data⟩

/-- The string after it was handed some chunks. Nothing is handed after the exception. -/
def gather (m_outputLimit : Int32) (output : CowString) (chunks : List Bytes) : Gathered :=
  chunks.foldl
    (fun here data => if here.full then here else doHandleData m_outputLimit here.output data)
    ⟨false, output⟩

end Gatherer

section Limit

variable (outputLimit : Int32) (initial : Bytes)

def Fits (bytes : Bytes) : Prop := outputLimit.toInt < 0 ∨ bytes.length ≤ outputLimit.toInt

/-- The longer one of some contents and the first bytes of others that fit. -/
def longer (bytes : Bytes) : Bytes :=
  if (bytes.take outputLimit.toInt.toNat).length ≤ initial.length then initial
  else bytes.take outputLimit.toInt.toNat

/-- The string has the contents and the chunks while they fit, and the first bytes of them after the
exception. -/
structure Exact (chunks : List Bytes) (gathered : Gathered) : Prop where
  fits : chunks = [] ∨ Fits outputLimit (initial ++ chunks.flatten) →
    gathered.full = false ∧ Shows gathered.output (initial ++ chunks.flatten)
  full : ¬ (chunks = [] ∨ Fits outputLimit (initial ++ chunks.flatten)) →
    gathered.full = true ∧
      Shows gathered.output (longer outputLimit initial (initial ++ chunks.flatten))
  limited : 0 ≤ outputLimit.toInt →
    length gathered.output ≤ max initial.length outputLimit.toInt.toNat

/-- Nothing is appended, or there is no zero byte on either side. -/
def Joins (bytes part : Bytes) : Prop := part = [] ∨ (0 : UInt8) ∉ bytes ∧ (0 : UInt8) ∉ part

/-- The size of the chunk is not a positive `int`, or its first byte is zero. -/
def CopiesNothing (data : Bytes) : Prop :=
  Time.wrap32 data.length ≤ 0 ∨ data.head? = some 0

/-- The condition for a chunk that is handed after these bytes. -/
structure Gathers (bytes data : Bytes) : Prop where
  fits : Fits outputLimit (bytes ++ data) → Joins bytes data
  room : ¬ Fits outputLimit (bytes ++ data) → bytes.length ≤ outputLimit.toInt →
    Joins bytes (data.take (outputLimit.toInt.toNat - bytes.length))
  initially : ¬ Fits outputLimit bytes → CopiesNothing data

/-- The condition for every chunk up to the first one that does not fit. -/
def Gatherable (chunks : List Bytes) : Prop :=
  ∀ front data behind, chunks = front ++ data :: behind →
    front = [] ∨ Fits outputLimit (initial ++ front.flatten) →
      Gathers outputLimit (initial ++ front.flatten) data

end Limit

variable {outputLimit : Int32} {str : CowString} {initial bytes data : Bytes}

section Append

/-- The C string of a string ends at its first zero byte. -/
theorem text_of_shows (shows : Shows str bytes) : text str = bytes.takeWhile (· ≠ 0) := by
  cases str with
  | none =>
      have none : bytes = [] := List.length_eq_zero_iff.mp shows.1.symm
      rw [none]
      rfl
  | some m_buf =>
      have same : m_buf.object.m_buf =
          bytes.map some ++ m_buf.object.m_buf.drop m_buf.object.m_len := by
        conv_lhs => rw [← List.take_append_drop m_buf.object.m_len m_buf.object.m_buf]
        exact congrArg (· ++ _) shows.2
      apply (cString_getWriteLock m_buf).trans
      by_cases zero : (0 : UInt8) ∈ bytes
      · obtain ⟨before, after, rfl, nonzero⟩ := List.eq_append_cons_of_mem zero
        rw [takeWhile_zero nonzero, same, List.map_append, List.map_cons, List.append_assoc,
          List.cons_append, cString_append nonzero]
      · have size : (m_buf.object.m_buf.drop m_buf.object.m_len).length = 1 := by
          rw [List.length_drop, m_buf.object.sized, Nat.add_sub_cancel_left]
        obtain ⟨cell, last⟩ := List.length_eq_one_iff.mp size
        obtain ⟨rest, terminated⟩ := m_buf.object.terminated
        have there : some 0 ∈ m_buf.object.m_buf := by
          rw [terminated]
          exact List.mem_append_right _ List.mem_cons_self
        rw [same, last, List.mem_append, List.mem_singleton] at there
        obtain inside | rfl := there
        · exact absurd (List.mem_map_of_injective (Option.some_injective _) |>.mp inside) zero
        · rw [same, last, cString_append zero, takeWhile_nonzero zero]

theorem append_length (output : CowString) (data : Bytes) :
    length (append output data) = length output + (data.takeWhile (· ≠ 0)).length := by
  unfold append concat
  dsimp only
  split
  next none => rw [none, List.length_nil, Nat.add_zero]
  · rfl

/-- A chunk is appended as it is exactly when no zero byte is on either side. -/
theorem append_shows_iff (shows : Shows str bytes) (part : Bytes) :
    Shows (append str part) (bytes ++ part) ↔ Joins bytes part := by
  have sized := append_length str part
  by_cases zero : (0 : UInt8) ∈ part
  · -- the C string is shorter than the chunk
    obtain ⟨before, after, rfl, nonzero⟩ := List.eq_append_cons_of_mem zero
    constructor
    · intro same
      have lengths := same.1
      rw [sized, takeWhile_zero nonzero, shows.1] at lengths
      simp only [List.length_append, List.length_cons] at lengths
      omega
    · intro joins
      obtain none | free := joins
      · simp at none
      · exact absurd zero free.2
  · by_cases none : part = []
    · subst none
      have same : append str [] = str := concat_empty rfl
      rw [same, List.append_nil]
      exact iff_of_true shows (.inl rfl)
    · have whole : append str part = concat str (some ⟨part, zero⟩) := by
        simp only [append, takeWhile_nonzero zero]
      rw [whole, Joins, or_iff_right none, and_iff_left zero]
      exact concat_shows_iff shows.1 (text_of_shows shows) none

/-- A string stays as it is exactly when the chunk has no C string. -/
theorem append_unchanged_iff (shows : Shows str bytes) (part : Bytes) :
    Shows (append str part) bytes ↔ part.takeWhile (· ≠ 0) = [] := by
  constructor
  · intro same
    have lengths := same.1
    rw [append_length, shows.1] at lengths
    exact List.length_eq_zero_iff.mp (by omega)
  · intro none
    have same : append str part = str := concat_empty none
    rw [same]
    exact shows

end Append

section Chunk

theorem longer_initial (initially : initial.length ≤ outputLimit.toInt) (rest : Bytes) :
    longer outputLimit initial (initial ++ rest) =
      (initial ++ rest).take outputLimit.toInt.toNat := by
  unfold longer
  split
  next short =>
    rw [List.length_take, List.length_append] at short
    have none : rest.take (outputLimit.toInt.toNat - initial.length) = [] := by
      rw [← List.length_eq_zero_iff, List.length_take]
      omega
    rw [List.take_append, List.take_of_length_le (by omega), none, List.append_nil]
  · rfl

theorem not_fits_iff : ¬ Fits outputLimit bytes ↔
    0 ≤ outputLimit.toInt ∧ outputLimit.toInt < bytes.length := by
  rw [Fits, not_or, not_lt, not_le]

/-- A chunk that fits is appended. -/
theorem doHandleData_fits (shows : Shows str bytes) (fits : Fits outputLimit (bytes ++ data)) :
    doHandleData outputLimit str data = ⟨false, append str data⟩ := by
  rw [doHandleData, if_neg]
  rw [Fits, List.length_append] at fits
  rw [shows.1]
  omega

/-- The first bytes of a chunk that does not fit are appended. -/
theorem doHandleData_room (shows : Shows str bytes) (fits : ¬ Fits outputLimit (bytes ++ data))
    (small : data.length < 2 ^ 63) (room : bytes.length ≤ outputLimit.toInt) :
    doHandleData outputLimit str data =
      ⟨true, append str (data.take (outputLimit.toInt.toNat - bytes.length))⟩ := by
  have limit := outputLimit.toInt_lt
  rw [not_fits_iff, List.length_append] at fits
  have copied : lentocopy outputLimit bytes.length data.length =
      (outputLimit.toInt.toNat - bytes.length : Nat) := by
    rw [lentocopy, BLOCXX_MIN, if_pos (by omega), Time.wrap32, Int.bmod_def]
    omega
  rw [doHandleData, shows.1, copied, if_pos (by omega)]
  simp

/-- A chunk is appended to a string that is longer than the limit. -/
theorem doHandleData_over (shows : Shows str bytes) (over_ : ¬ Fits outputLimit bytes)
    (short : bytes.length < 2 ^ 63) (small : data.length < 2 ^ 63) :
    doHandleData outputLimit str data = ⟨true, if Time.wrap32 data.length ≥ 0 then
      append str (data.take (Time.wrap32 data.length).toNat) else str⟩ := by
  rw [not_fits_iff] at over_
  have copied : lentocopy outputLimit bytes.length data.length = Time.wrap32 data.length := by
    rw [lentocopy, BLOCXX_MIN, if_neg (by omega)]
  rw [doHandleData, shows.1, copied, if_pos (by omega)]

theorem longer_over (over_ : outputLimit.toInt < initial.length) (rest : Bytes) :
    longer outputLimit initial rest = initial := by
  rw [longer, if_pos]
  rw [List.length_take]
  omega

/-- The part of the chunk that is copied has no C string. -/
theorem copiesNothing_iff (data : Bytes) :
    CopiesNothing data ↔ (data.take (Time.wrap32 data.length).toNat).takeWhile (· ≠ 0) = [] := by
  unfold CopiesNothing
  by_cases none : Time.wrap32 data.length ≤ 0
  · rw [Int.toNat_of_nonpos none, List.take_zero]
    exact iff_of_true (.inl none) rfl
  · obtain ⟨count, positive⟩ := Nat.exists_eq_succ_of_ne_zero
      (show (Time.wrap32 data.length).toNat ≠ 0 by omega)
    rw [positive, or_iff_right none]
    cases data with
    | nil => simp [Time.wrap32] at none
    | cons byte data => simp

/-- What the code makes of one chunk is right exactly when the condition holds. -/
theorem gathers_iff (shows : Shows str bytes)
    (short : ¬ Fits outputLimit bytes → bytes.length < 2 ^ 63)
    (small : data.length < 2 ^ 63) : Gathers outputLimit bytes data ↔
      (Fits outputLimit (bytes ++ data) →
        Shows (doHandleData outputLimit str data).output (bytes ++ data)) ∧
      (¬ Fits outputLimit (bytes ++ data) → Shows (doHandleData outputLimit str data).output
        (longer outputLimit bytes (bytes ++ data))) := by
  by_cases fits : Fits outputLimit (bytes ++ data)
  · have before : Fits outputLimit bytes := by
      rw [Fits, List.length_append] at fits
      rw [Fits]
      omega
    rw [doHandleData_fits shows fits, append_shows_iff shows]
    constructor
    · exact fun gathers => ⟨gathers.fits, fun other => absurd fits other⟩
    · intro right
      exact ⟨right.1, fun other => absurd fits other, fun other => absurd before other⟩
  · have limits := not_fits_iff.mp fits
    by_cases room : bytes.length ≤ outputLimit.toInt
    · have before : Fits outputLimit bytes := .inr room
      have first : longer outputLimit bytes (bytes ++ data) =
          bytes ++ data.take (outputLimit.toInt.toNat - bytes.length) := by
        rw [longer_initial room, List.take_append, List.take_of_length_le (by omega)]
      rw [doHandleData_room shows fits small room, first, append_shows_iff shows]
      constructor
      · exact fun gathers => ⟨fun other => absurd other fits, fun _ => gathers.room fits room⟩
      · intro right
        exact ⟨fun other => absurd other fits, fun _ _ => right.2 fits,
          fun other => absurd before other⟩
    · have over_ : ¬ Fits outputLimit bytes := not_fits_iff.mpr ⟨limits.1, not_le.mp room⟩
      have same : Shows (if Time.wrap32 data.length ≥ 0 then
          append str (data.take (Time.wrap32 data.length).toNat) else str) bytes ↔
            CopiesNothing data := by
        split
        · rw [append_unchanged_iff shows, copiesNothing_iff]
        next negative => exact iff_of_true shows (.inl (by omega))
      rw [doHandleData_over shows over_ (short over_) small, longer_over (not_le.mp room), same]
      constructor
      · exact fun gathers => ⟨fun other => absurd other fits, fun _ => gathers.initially over_⟩
      · intro right
        exact ⟨fun other => absurd other fits, fun _ inside => absurd inside room,
          fun _ => right.2 fits⟩

theorem doHandleData_full (shows : Shows str bytes)
    (short : ¬ Fits outputLimit bytes → bytes.length < 2 ^ 63)
    (small : data.length < 2 ^ 63) :
    (doHandleData outputLimit str data).full = true ↔ ¬ Fits outputLimit (bytes ++ data) := by
  by_cases fits : Fits outputLimit (bytes ++ data)
  · rw [doHandleData_fits shows fits]
    simp [fits]
  · have limits := not_fits_iff.mp fits
    by_cases room : bytes.length ≤ outputLimit.toInt
    · rw [doHandleData_room shows fits small room]
      simp [fits]
    · have over_ : ¬ Fits outputLimit bytes := not_fits_iff.mpr ⟨limits.1, not_le.mp room⟩
      rw [doHandleData_over shows over_ (short over_) small]
      simp [fits]

end Chunk

section Run

variable {chunks front : List Bytes}

theorem gather_concat (outputLimit : Int32) (str : CowString) (front : List Bytes) (data : Bytes) :
    gather outputLimit str (front ++ [data]) =
      if (gather outputLimit str front).full then gather outputLimit str front
      else doHandleData outputLimit (gather outputLimit str front).output data := by
  rw [gather, List.foldl_append]
  rfl

theorem length_longer_le (outputLimit : Int32) (initial bytes : Bytes) :
    (longer outputLimit initial bytes).length ≤ max initial.length outputLimit.toInt.toNat := by
  unfold longer
  split
  · exact le_max_left _ _
  · exact (List.length_take_le _ _).trans (le_max_right _ _)

/-- The contents before the first chunk that does not fit are as good as the initial ones. -/
theorem longer_started (started : front = [] ∨ Fits outputLimit (initial ++ front.flatten))
    (fits : ¬ Fits outputLimit (initial ++ front.flatten ++ data)) :
    longer outputLimit initial (initial ++ front.flatten ++ data) =
      longer outputLimit (initial ++ front.flatten) (initial ++ front.flatten ++ data) := by
  obtain rfl | before := started
  · rw [List.flatten_nil, List.append_nil]
  · have limits := not_fits_iff.mp fits
    have room : (initial ++ front.flatten).length ≤ outputLimit.toInt :=
      before.resolve_left (by omega)
    rw [longer_initial room, List.append_assoc, longer_initial]
    rw [List.length_append] at room
    omega

theorem flatten_concat (initial : Bytes) (front : List Bytes) (data : Bytes) :
    initial ++ (front ++ [data]).flatten = initial ++ front.flatten ++ data := by
  rw [List.flatten_append, List.flatten_singleton, List.append_assoc]

section Started

variable (short : initial.length < 2 ^ 63)
  (started : front = [] ∨ Fits outputLimit (initial ++ front.flatten))
include short started

theorem short_started (over_ : ¬ Fits outputLimit (initial ++ front.flatten)) :
    (initial ++ front.flatten).length < 2 ^ 63 := by
  obtain rfl | before := started
  · simpa using short
  · exact absurd before over_

/-- One more chunk keeps the limit exact exactly when the condition holds for it. -/
theorem exact_concat_iff (small : data.length < 2 ^ 63)
    (exact_ : Exact outputLimit initial front (gather outputLimit str front)) :
    Exact outputLimit initial (front ++ [data]) (gather outputLimit str (front ++ [data])) ↔
      Gathers outputLimit (initial ++ front.flatten) data := by
  obtain ⟨running, shows⟩ := exact_.fits started
  have full := doHandleData_full shows (short_started short started) small
  rw [gather_concat, running, if_neg Bool.false_ne_true,
    gathers_iff shows (short_started short started) small]
  have some_ : front ++ [data] ≠ [] := by simp
  constructor
  · intro next
    constructor
    · intro fits
      rw [← flatten_concat] at fits ⊢
      exact (next.fits (.inr fits)).2
    · intro fits
      rw [← longer_started started fits, ← flatten_concat]
      rw [← flatten_concat] at fits
      exact (next.full (not_or.mpr ⟨some_, fits⟩)).2
  · intro right
    constructor
    · intro fits
      have fits := fits.resolve_left some_
      rw [flatten_concat] at fits ⊢
      exact ⟨by rw [← Bool.not_eq_true, full, not_not]; exact fits, right.1 fits⟩
    · intro fits
      have fits := (not_or.mp fits).2
      rw [flatten_concat] at fits ⊢
      rw [longer_started started fits]
      exact ⟨full.mpr fits, right.2 fits⟩
    · intro limit
      by_cases fits : Fits outputLimit (initial ++ front.flatten ++ data)
      · rw [(right.1 fits).1]
        have inside := fits.resolve_left (by omega)
        omega
      · rw [(right.2 fits).1, ← longer_started started fits]
        exact length_longer_le _ _ _

end Started

/-- Nothing changes after the exception. -/
theorem exact_concat_of_full
    (over_ : ¬ (front = [] ∨ Fits outputLimit (initial ++ front.flatten)))
    (exact_ : Exact outputLimit initial front (gather outputLimit str front)) :
    Exact outputLimit initial (front ++ [data]) (gather outputLimit str (front ++ [data])) := by
  obtain ⟨full, shows⟩ := exact_.full over_
  have limits := not_fits_iff.mp (not_or.mp over_).2
  have still : ¬ Fits outputLimit (initial ++ (front ++ [data]).flatten) := by
    rw [not_fits_iff, flatten_concat, List.length_append]
    omega
  rw [gather_concat, if_pos full]
  constructor
  · intro fits
    exact absurd (fits.resolve_left (by simp)) still
  · intro _
    refine ⟨full, ?_⟩
    have same : longer outputLimit initial (initial ++ (front ++ [data]).flatten) =
        longer outputLimit initial (initial ++ front.flatten) := by
      rw [longer, longer, flatten_concat, List.take_append_of_le_length (by omega)]
    rwa [same]
  · exact exact_.limited

theorem exact_nil (shows : Shows str initial) :
    Exact outputLimit initial [] (gather outputLimit str []) := by
  constructor
  · intro _
    rw [List.flatten_nil, List.append_nil]
    exact ⟨rfl, shows⟩
  · exact fun other => absurd (.inl rfl) other
  · intro _
    exact shows.1.le.trans (le_max_left _ _)

/-- Without zero bytes only initial contents that are too long break the condition. -/
theorem gatherable_of_nonzero (initially : Fits outputLimit initial)
    (nonzero : (0 : UInt8) ∉ initial ++ chunks.flatten) :
    Gatherable outputLimit initial chunks := by
  intro front data behind same started
  simp only [same, List.flatten_append, List.flatten_cons, ← List.append_assoc, List.mem_append,
    not_or] at nonzero
  obtain ⟨⟨outside, inside⟩, -⟩ := nonzero
  have before : (0 : UInt8) ∉ initial ++ front.flatten := by simp [outside]
  constructor
  · exact fun _ => .inr ⟨before, inside⟩
  · exact fun _ _ => .inr ⟨before, fun copied => inside (List.mem_of_mem_take copied)⟩
  · intro over_
    obtain rfl | fits := started
    · rw [List.flatten_nil, List.append_nil] at over_
      exact absurd initially over_
    · exact absurd fits over_

/-- For every limit, all initial contents and every sequence of chunks: the limit is exact after
every chunk if and only if the condition holds for each of them. -/
theorem gather_exact_iff (outputLimit : Int32) (str : CowString) (initial : Bytes)
    (chunks : List Bytes) (shows : Shows str initial) (short : initial.length < 2 ^ 63)
    (small : ∀ data ∈ chunks, data.length < 2 ^ 63) :
    (∀ front behind, chunks = front ++ behind →
      Exact outputLimit initial front (gather outputLimit str front)) ↔
      Gatherable outputLimit initial chunks := by
  constructor
  · intro all front data behind same started
    have size := small data (by simp [same])
    exact (exact_concat_iff short started size (all front (data :: behind) same)).mp
      (all (front ++ [data]) behind (by simp [same]))
  · intro gatherable front
    induction front using List.reverseRecOn with
    | nil =>
        intro _ _
        exact exact_nil shows
    | append_singleton front data ih =>
        intro behind same
        rw [List.append_assoc, List.singleton_append] at same
        have before := ih (data :: behind) same
        by_cases started : front = [] ∨ Fits outputLimit (initial ++ front.flatten)
        · have size := small data (by simp [same])
          exact (exact_concat_iff short started size before).mpr
            (gatherable front data behind same started)
        · exact exact_concat_of_full started before

theorem gather_exact_iff_five : Exact 5 [97, 98] [[100, 101], [102, 103]]
    (gather 5 (ofBytes (some [97, 98])) [[100, 101], [102, 103]]) :=
  (gather_exact_iff 5 (ofBytes (some [97, 98])) [97, 98] [[100, 101], [102, 103]]
    (shows_ofBytes _) (by decide) (by decide)).mpr
      (gatherable_of_nonzero (.inr (by decide)) (by decide)) [[100, 101], [102, 103]] [] rfl

/-- The contents `abcde` are longer than the limit, and the chunk `xy` is appended to them. -/
theorem gather_over_limit : Shows (ofBytes (some [97, 98, 99, 100, 101])) [97, 98, 99, 100, 101] ∧
    (gather 3 (ofBytes (some [97, 98, 99, 100, 101])) [[120, 121]]).full = true ∧
    Shows (gather 3 (ofBytes (some [97, 98, 99, 100, 101])) [[120, 121]]).output
      [97, 98, 99, 100, 101, 120, 121] ∧
    ¬ Exact 3 [97, 98, 99, 100, 101] [[120, 121]]
      (gather 3 (ofBytes (some [97, 98, 99, 100, 101])) [[120, 121]]) := by
  have shows := shows_ofBytes [97, 98, 99, 100, 101]
  have over_ : ¬ Fits 3 [97, 98, 99, 100, 101] := not_fits_iff.mpr (by decide)
  have thrown : gather 3 (ofBytes (some [97, 98, 99, 100, 101])) [[120, 121]] =
      ⟨true, append (ofBytes (some [97, 98, 99, 100, 101])) [120, 121]⟩ := by
    rw [gather, List.foldl_cons, List.foldl_nil, if_neg Bool.false_ne_true,
      doHandleData_over shows over_ (by decide) (by decide)]
    rfl
  have all := (append_shows_iff shows [120, 121]).mpr (.inr (by decide))
  rw [thrown]
  refine ⟨shows, rfl, all, ?_⟩
  intro exact_
  have limited := exact_.limited (by decide)
  rw [all.1] at limited
  exact absurd limited (by decide)

end Run

section Sources

/-- The strings of the constructor with two of them. -/
structure Outputs where
  full : Bool
  strings : EOutputSource → CowString

/-- `doHandleData` for one of two strings. -/
def doHandleSource (m_outputLimit : Int32) (outputs : Outputs) (outputSource : EOutputSource)
    (data : Bytes) : Outputs :=
  let gathered := doHandleData m_outputLimit (outputs.strings outputSource) data
  ⟨gathered.full, Function.update outputs.strings outputSource gathered.output⟩

def gatherSources (m_outputLimit : Int32) (strings : EOutputSource → CowString)
    (chunks : List (EOutputSource × Bytes)) : Outputs :=
  chunks.foldl
    (fun here chunk => if here.full then here
      else doHandleSource m_outputLimit here chunk.1 chunk.2) ⟨false, strings⟩

/-- The chunks of one source. -/
def handed (source : EOutputSource) (chunks : List (EOutputSource × Bytes)) : List Bytes :=
  (chunks.filter (·.1 = source)).map Prod.snd

theorem handed_concat (source : EOutputSource) (chunks : List (EOutputSource × Bytes))
    (chunk : EOutputSource × Bytes) : handed source (chunks ++ [chunk]) =
      if chunk.1 = source then handed source chunks ++ [chunk.2] else handed source chunks := by
  rw [handed, List.filter_append, List.map_append]
  split
  next same => simp [handed, same]
  next other => simp [handed, other]

end Sources

end Blocxx.Exec
