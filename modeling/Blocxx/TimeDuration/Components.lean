import Blocxx.DateTime.Arithmetic
import Blocxx.DateTime.Calendar
import Blocxx.Format.Substitution
import Blocxx.TimeDuration.TimeDuration

/-!
This file proves for which durations the components are in their ranges and add up to the
microseconds, and that the text of these is a time.
-/

namespace Blocxx.Time

open Format

/-- A field of this many digits with a value below the bound. -/
structure IsField (width : Nat) (bound : Int) (text : Text) : Prop where
  digits : ∀ c ∈ text, isDigit c = true
  width : text.length = width
  value : digitsValue text < bound

/-- The text is hours, minutes, seconds and microseconds. -/
def IsTime (text : Text) : Prop :=
  ∃ sign hours minutes seconds microseconds,
    text = sign ++ (hours ++ ':' :: (minutes ++ ':' :: (seconds ++ '.' :: microseconds))) ∧
    (sign = [] ∨ sign = ['-']) ∧ Digits hours ∧ IsField 2 60 minutes ∧ IsField 2 60 seconds ∧
    IsField 6 1000000 microseconds

namespace TimeDuration

/-- What the documentation guarantees for the components. -/
structure Decomposes (td : TimeDuration) : Prop where
  hour : 0 ≤ td.hourInDay ∧ td.hourInDay ≤ 23
  minute : 0 ≤ td.minuteInHour ∧ td.minuteInHour ≤ 59
  second : 0 ≤ td.secondInMinute ∧ td.secondInMinute ≤ 59
  microsecond : 0 ≤ td.microsecondInSecond ∧ td.microsecondInSecond ≤ 999999
  total : (((td.relativeDays * 24 + td.hourInDay) * 60 + td.minuteInHour) * 60 +
    td.secondInMinute) * 1000000 + td.microsecondInSecond = td.m_microseconds
  shown : ∃ text, td.ShowsDefault text ∧ IsTime text

section Counts

variable {td : TimeDuration}

theorem tdiv_opposite {count : Int} (nonnegative : 0 ≤ count) (size : Int) :
    (-count).tdiv size = -(count / size) := by
  rw [Int.neg_tdiv, Int.tdiv_eq_ediv_of_nonneg nonnegative]

/-- The counts of a negative duration are those of its length, with a minus sign. -/
theorem counts_negative (negative : td.m_microseconds < 0) :
    td.completeSeconds = -(-td.m_microseconds / 1000000) ∧
    td.completeMinutes = -(-td.m_microseconds / 1000000 / 60) ∧
    td.completeHours = -(-td.m_microseconds / 1000000 / 60 / 60) ∧
    td.completeDays = -(-td.m_microseconds / 1000000 / 60 / 60 / 24) := by
  have seconds : td.completeSeconds = -(-td.m_microseconds / 1000000) := by
    rw [completeSeconds, ← tdiv_opposite (by omega), neg_neg]
  have minutes : td.completeMinutes = -(-td.m_microseconds / 1000000 / 60) := by
    rw [completeMinutes, seconds, tdiv_opposite (by omega)]
  have hours : td.completeHours = -(-td.m_microseconds / 1000000 / 60 / 60) := by
    rw [completeHours, minutes, tdiv_opposite (by omega)]
  exact ⟨seconds, minutes, hours, by rw [completeDays, hours, tdiv_opposite (by omega)]⟩

theorem counts_nonnegative (nonnegative : 0 ≤ td.m_microseconds) :
    td.completeSeconds = td.m_microseconds / 1000000 ∧
    td.completeMinutes = td.m_microseconds / 1000000 / 60 ∧
    td.completeHours = td.m_microseconds / 1000000 / 60 / 60 ∧
    td.completeDays = td.m_microseconds / 1000000 / 60 / 60 / 24 := by
  have seconds : td.completeSeconds = td.m_microseconds / 1000000 :=
    Int.tdiv_eq_ediv_of_nonneg nonnegative
  have minutes : td.completeMinutes = td.m_microseconds / 1000000 / 60 := by
    rw [completeMinutes, seconds, Int.tdiv_eq_ediv_of_nonneg (by omega)]
  have hours : td.completeHours = td.m_microseconds / 1000000 / 60 / 60 := by
    rw [completeHours, minutes, Int.tdiv_eq_ediv_of_nonneg (by omega)]
  exact ⟨seconds, minutes, hours, by
    rw [completeDays, hours, Int.tdiv_eq_ediv_of_nonneg (by omega)]⟩

/-- A component below the next unit, for a count rounded toward zero. -/
theorem inNext_negative (negative : td.m_microseconds < 0) {count size : Int}
    (nonnegative : 0 ≤ count) (positive : 0 < size) (small : size < 1000) :
    td.inNext (-count) size = size - 1 - count % size := by
  have low := Int.emod_nonneg count positive.ne'
  have high := Int.emod_lt_of_pos count positive
  unfold inNext
  rw [if_pos negative, neg_neg, Int.tmod_eq_emod_of_nonneg nonnegative,
    wrap32_of_fits ⟨by omega, by omega⟩]
  omega

theorem inNext_nonnegative (nonnegative : 0 ≤ td.m_microseconds) {count size : Int}
    (positive : 0 ≤ count) (low : 0 < size) (small : size < 1000) :
    td.inNext count size = count % size := by
  have least := Int.emod_nonneg count low.ne'
  have most := Int.emod_lt_of_pos count low
  unfold inNext
  rw [if_neg nonnegative.not_gt, Int.tmod_eq_emod_of_nonneg positive,
    wrap32_of_fits ⟨by omega, by omega⟩]

end Counts

/-- All the claims on the numbers except for the range of the microseconds. -/
structure Adds (td : TimeDuration) (rest : Int) : Prop where
  hour : 0 ≤ td.hourInDay ∧ td.hourInDay ≤ 23
  minute : 0 ≤ td.minuteInHour ∧ td.minuteInHour ≤ 59
  second : 0 ≤ td.secondInMinute ∧ td.secondInMinute ≤ 59
  total : (((td.relativeDays * 24 + td.hourInDay) * 60 + td.minuteInHour) * 60 +
    td.secondInMinute) * 1000000 + rest = td.m_microseconds

/-- The components above the microseconds are right for the rest that is taken from a second. -/
theorem adds_nonnegative {td : TimeDuration} (stored : td.Stored)
    (nonnegative : 0 ≤ td.m_microseconds) : td.Adds (td.m_microseconds % 1000000) := by
  obtain ⟨seconds, minutes, hours, days⟩ := counts_nonnegative nonnegative
  obtain ⟨low, high⟩ := stored
  have fits : FitsInt td.completeDays := by
    rw [days]
    simp only [FitsInt]
    omega
  have relative : td.relativeDays = td.m_microseconds / 1000000 / 60 / 60 / 24 := by
    rw [relativeDays, if_neg nonnegative.not_gt, wrap32_of_fits fits, days]
  have hour : td.hourInDay = td.m_microseconds / 1000000 / 60 / 60 % 24 := by
    rw [hourInDay, hours, inNext_nonnegative nonnegative (by omega) (by decide) (by decide)]
  have minute : td.minuteInHour = td.m_microseconds / 1000000 / 60 % 60 := by
    rw [minuteInHour, minutes, inNext_nonnegative nonnegative (by omega) (by decide) (by decide)]
  have second : td.secondInMinute = td.m_microseconds / 1000000 % 60 := by
    rw [secondInMinute, seconds, inNext_nonnegative nonnegative (by omega) (by decide) (by decide)]
  constructor
  · omega
  · omega
  · omega
  · rw [relative, hour, minute, second]
    omega

theorem adds_negative {td : TimeDuration} (stored : td.Stored)
    (negative : td.m_microseconds < 0) :
    td.Adds (1000000 - -td.m_microseconds % 1000000) := by
  obtain ⟨seconds, minutes, hours, days⟩ := counts_negative negative
  obtain ⟨low, high⟩ := stored
  have fits : FitsInt (td.completeDays - 1) := by
    rw [days]
    simp only [FitsInt]
    omega
  have relative : td.relativeDays = -(-td.m_microseconds / 1000000 / 60 / 60 / 24) - 1 := by
    rw [relativeDays, if_pos negative, wrap32_of_fits fits, days]
  have hour : td.hourInDay = 24 - 1 - -td.m_microseconds / 1000000 / 60 / 60 % 24 := by
    rw [hourInDay, hours, inNext_negative negative (by omega) (by decide) (by decide)]
  have minute : td.minuteInHour = 60 - 1 - -td.m_microseconds / 1000000 / 60 % 60 := by
    rw [minuteInHour, minutes, inNext_negative negative (by omega) (by decide) (by decide)]
  have second : td.secondInMinute = 60 - 1 - -td.m_microseconds / 1000000 % 60 := by
    rw [secondInMinute, seconds, inNext_negative negative (by omega) (by decide) (by decide)]
  constructor
  · omega
  · omega
  · omega
  · rw [relative, hour, minute, second]
    omega

section Microseconds

variable {td : TimeDuration} (stored : td.Stored)

theorem microsecondInSecond_nonnegative (nonnegative : 0 ≤ td.m_microseconds) :
    td.microsecondInSecond = td.m_microseconds % 1000000 := by
  rw [microsecondInSecond, if_neg nonnegative.not_gt, MICROSECONDS_PER_SECOND,
    Int.tmod_eq_emod_of_nonneg nonnegative]

include stored

theorem microsecondInSecond_negative (negative : td.m_microseconds < 0)
    (opposite : td.m_microseconds ≠ -2 ^ 63) :
    td.microsecondInSecond = 1000000 - -td.m_microseconds % 1000000 := by
  obtain ⟨low, high⟩ := stored
  have whole : wrap64 (-td.m_microseconds) = -td.m_microseconds := by
    simp only [wrap64, Int.bmod_def]
    omega
  rw [microsecondInSecond, if_pos negative, whole, MICROSECONDS_PER_SECOND,
    Int.tmod_eq_emod_of_nonneg (by omega), wrap32_of_fits ⟨by omega, by omega⟩]

/-- The microseconds of a negative duration are in their range unless it is whole seconds. -/
theorem microsecond_range_iff :
    (0 ≤ td.microsecondInSecond ∧ td.microsecondInSecond ≤ 999999) ↔
      0 ≤ td.m_microseconds ∨
        (td.m_microseconds ≠ -2 ^ 63 ∧ ¬ 1000000 ∣ td.m_microseconds) := by
  by_cases nonnegative : 0 ≤ td.m_microseconds
  · refine iff_of_true ?_ (.inl nonnegative)
    rw [microsecondInSecond_nonnegative nonnegative]
    omega
  · rw [or_iff_right nonnegative]
    by_cases opposite : td.m_microseconds = -2 ^ 63
    · have least : td.microsecondInSecond = 1775808 := by
        rw [microsecondInSecond, opposite]
        decide
      rw [least]
      exact iff_of_false (by decide) fun other => other.1 opposite
    · rw [and_iff_right opposite,
        microsecondInSecond_negative stored (not_le.mp nonnegative) opposite]
      omega

end Microseconds

end TimeDuration

section Texts

theorem isDigit_of_mem_toString {n : Nat} {c : Char} (mem : c ∈ (toString n).toList) :
    isDigit c = true := by
  rw [Nat.toString_eq_ofList_toDigits, String.toList_ofList] at mem
  have digit := Nat.isDigit_of_mem_toDigits (by decide) (by decide) mem
  rw [Char.isDigit, Bool.and_eq_true, decide_eq_true_iff, decide_eq_true_iff] at digit
  exact decide_eq_true digit

theorem digitsValue_eq (digits : Text) : digitsValue digits = Nat.ofDigitChars 10 digits 0 := by
  have fold : ∀ value : Nat, digits.foldl
      (fun (value : Int) digit => value * 10 + (digit.toNat - '0'.toNat : Nat)) value =
        Nat.ofDigitChars 10 digits value := by
    induction digits with
    | nil =>
        intro value
        rfl
    | cons c rest ih =>
        intro value
        rw [List.foldl_cons, Nat.ofDigitChars_cons, ← ih]
        congr 1
        push_cast
        ring
  exact fold 0

theorem digitsValue_toString (n : Nat) : digitsValue (toString n).toList = n := by
  rw [digitsValue_eq, Nat.toString_eq_ofList_toDigits, String.toList_ofList,
    Nat.ofDigitChars_ten_toDigits]

/-- A number below the bound fills its field. -/
theorem padNumber_isField {val bound : Int} {width : Nat} (nonnegative : 0 ≤ val)
    (below : val < bound) (positive : 0 < width) (fits : bound ≤ 10 ^ width) :
    IsField width bound (padNumber val width) := by
  have short : (toString val.natAbs).toList.length ≤ width := by
    rw [Nat.toString_eq_ofList_toDigits, String.toList_ofList,
      Nat.length_toDigits_le_iff (by decide) positive]
    zify
    rw [abs_of_nonneg nonnegative]
    exact below.trans_le fits
  have text : padNumber val width =
      List.replicate (width - (toString val.natAbs).toList.length) '0' ++
        (toString val.natAbs).toList := by
    rw [padNumber, if_neg nonnegative.not_gt, decimal, if_neg nonnegative.not_gt, padOnLeft]
    split
    · next full => rw [Nat.sub_eq_zero_of_le full, List.replicate_zero, List.nil_append]
    · rfl
  rw [text]
  constructor
  · intro c mem
    rcases List.mem_append.mp mem with fill | digit
    · rw [List.eq_of_mem_replicate fill]
      rfl
    · exact isDigit_of_mem_toString digit
  · rw [List.length_append, List.length_replicate]
    omega
  · have value : digitsValue (List.replicate (width - (toString val.natAbs).toList.length) '0' ++
        (toString val.natAbs).toList) = val.natAbs := by
      rw [← digitsValue_toString val.natAbs, digitsValue_eq, digitsValue_eq,
        Nat.ofDigitChars_append, Nat.ofDigitChars_replicate_zero, mul_zero]
    rw [value]
    omega

/-- The text of an integer is an optional minus sign and digits. -/
theorem decimal_eq (value : Int) : ∃ sign digits, decimal value = sign ++ digits ∧
    (sign = [] ∨ sign = ['-']) ∧ Digits digits := by
  have digits : Digits (toString value.natAbs).toList := by
    refine ⟨?_, fun c => isDigit_of_mem_toString⟩
    rw [Nat.toString_eq_ofList_toDigits, String.toList_ofList]
    exact Nat.toDigits_ne_nil
  unfold decimal
  split
  · exact ⟨['-'], _, rfl, .inr rfl, digits⟩
  · exact ⟨[], _, rfl, .inl rfl, digits⟩

theorem digits_free {digits : Text} (all : ∀ c ∈ digits, isDigit c = true) :
    '\x00' ∉ digits :=
  fun mem => absurd (all _ mem) (by decide)

/-- The text of a time is a C string. -/
theorem IsTime.zero_notMem {text : Text} (isTime : IsTime text) : '\x00' ∉ text := by
  obtain ⟨sign, hours, minutes, seconds, microseconds, rfl, isSign, isHours, isMinutes, isSeconds,
    isMicroseconds⟩ := isTime
  have signFree : '\x00' ∉ sign := by
    rcases isSign with rfl | rfl
    · exact List.not_mem_nil
    · decide
  have plain {c : Char} (other : c ≠ '\x00') {rest : Text} (free : '\x00' ∉ rest) :
      '\x00' ∉ c :: rest :=
    List.not_mem_cons_of_ne_of_not_mem other.symm free
  have short := plain (by decide : '.' ≠ '\x00') (digits_free isMicroseconds.digits)
  have tail := plain (by decide : ':' ≠ '\x00')
    (List.not_mem_append (digits_free isSeconds.digits) short)
  have rest := plain (by decide : ':' ≠ '\x00')
    (List.not_mem_append (digits_free isMinutes.digits) tail)
  exact List.not_mem_append signFree (List.not_mem_append (digits_free isHours.2) rest)

end Texts

namespace TimeDuration

/-- The reading of the default format. -/
def defaultItems : List Item :=
  [.argument "%6:%3:%5".toList 6, .char ':', .argument "%3:%5".toList 3, .char ':',
    .argument "%5".toList 5]

theorem reads_default : Reads 9 defaultFormat defaultItems .complete := by
  have five : Reads 9 ("%5".toList ++ []) [.argument ("%5".toList ++ []) 5] .complete :=
    .argument (.digit rfl) (by decide) .nil
  have three : Reads 9 ("%3".toList ++ ":%5".toList)
      (.argument ("%3".toList ++ ":%5".toList) 3 :: [.char ':', .argument "%5".toList 5])
      .complete :=
    .argument (.digit rfl) (by decide) (.char (by decide) five)
  have six : Reads 9 ("%6".toList ++ ":%3:%5".toList)
      (.argument ("%6".toList ++ ":%3:%5".toList) 6 :: .char ':' ::
        .argument "%3:%5".toList 3 :: [.char ':', .argument "%5".toList 5]) .complete :=
    .argument (.digit rfl) (by decide) (.char (by decide) three)
  exact six

/-- The default format shows its three arguments with colons between them. -/
theorem shows_default {td : TimeDuration} (plain : td.m_special = .notSpecial)
    {hours minutes seconds : Text} (sixth : td.formatArguments.getD 5 [] = hours)
    (third : td.formatArguments.getD 2 [] = minutes)
    (fifth : td.formatArguments.getD 4 [] = seconds)
    (free : '\x00' ∉ hours ++ (':' :: (minutes ++ ':' :: seconds))) :
    td.ShowsDefault (hours ++ (':' :: (minutes ++ ':' :: seconds))) := by
  have reads : Reads td.formatArguments.length defaultFormat defaultItems .complete :=
    reads_default
  have format : cString defaultFormat = defaultFormat := by decide
  have fits : ∀ item ∈ defaultItems, item.Fits := by
    intro item mem
    simp only [defaultItems, List.mem_cons, List.not_mem_nil, or_false] at mem
    rcases mem with rfl | rfl | rfl | rfl | rfl
    · exact fun brace => absurd brace (by decide)
    · trivial
    · exact fun brace => absurd brace (by decide)
    · trivial
    · exact fun brace => absurd brace (by decide)
  obtain ⟨last, reports, returns, rfl, pieces⟩ := (returns_of_reads reads .new rfl).1 ⟨fits, trivial⟩
  have text : (last.pieces.map (Piece.text td.formatArguments)).flatten =
      hours ++ (':' :: (minutes ++ ':' :: seconds)) := by
    rw [pieces]
    show (([Piece.argument 6, .char ':', .argument 3, .char ':', .argument 5] : List Piece).map
      (Piece.text td.formatArguments)).flatten = _
    simp only [List.map_cons, List.map_nil, Piece.text]
    rw [sixth, third, fifth]
    simp
  unfold ShowsDefault Shows
  rw [if_pos plain]
  refine ⟨last, ?_, ?_⟩
  · rw [Formats, format]
    exact returns
  · rw [OStringStream.toString, text]
    exact ((CharString.cString_eq_iff _).mpr free).symm

/-- Components in their ranges are shown as a time. -/
theorem shown_of_ranges {td : TimeDuration} (plain : td.m_special = .notSpecial)
    (minute : 0 ≤ td.minuteInHour ∧ td.minuteInHour ≤ 59)
    (second : 0 ≤ td.secondInMinute ∧ td.secondInMinute ≤ 59)
    (microsecond : 0 ≤ td.microsecondInSecond ∧ td.microsecondInSecond ≤ 999999) :
    ∃ text, td.ShowsDefault text ∧ IsTime text := by
  obtain ⟨sign, digits, hours, isSign, isDigits⟩ :=
    decimal_eq (td.completeHours + if td.m_microseconds < 0 then -1 else 0)
  have minutes : IsField 2 60 (padNumber td.minuteInHour 2) :=
    padNumber_isField minute.1 (by omega) (by decide) (by decide)
  have seconds : IsField 2 60 (padNumber td.secondInMinute 2) :=
    padNumber_isField second.1 (by omega) (by decide) (by decide)
  have microseconds : IsField 6 1000000 (padNumber td.microsecondInSecond 6) :=
    padNumber_isField microsecond.1 (by omega) (by decide) (by decide)
  have isTime : IsTime ((sign ++ digits) ++ (':' :: (padNumber td.minuteInHour 2 ++
      ':' :: (padNumber td.secondInMinute 2 ++ '.' :: padNumber td.microsecondInSecond 6)))) :=
    ⟨sign, digits, _, _, _, List.append_assoc _ _ _, isSign, isDigits, minutes, seconds,
      microseconds⟩
  exact ⟨_, shows_default plain hours rfl rfl isTime.zero_notMem, isTime⟩

/-- The components decompose a duration exactly when it is not a negative number of whole seconds,
and not the least number of an `Int64`. -/
theorem decomposes_iff {td : TimeDuration} (plain : td.m_special = .notSpecial)
    (stored : td.Stored) :
    td.Decomposes ↔ 0 ≤ td.m_microseconds ∨
      (td.m_microseconds ≠ -2 ^ 63 ∧ ¬ 1000000 ∣ td.m_microseconds) := by
  rw [← microsecond_range_iff stored]
  constructor
  · intro decomposes
    exact decomposes.microsecond
  · intro microsecond
    have adds : td.Adds td.microsecondInSecond := by
      by_cases nonnegative : 0 ≤ td.m_microseconds
      · rw [microsecondInSecond_nonnegative nonnegative]
        exact adds_nonnegative stored nonnegative
      · have opposite := ((microsecond_range_iff stored).mp microsecond).resolve_left nonnegative
        rw [microsecondInSecond_negative stored (not_le.mp nonnegative) opposite.1]
        exact adds_negative stored (not_le.mp nonnegative)
    exact {
      hour := adds.hour
      minute := adds.minute
      second := adds.second
      microsecond := microsecond
      total := adds.total
      shown := shown_of_ranges plain adds.minute adds.second microsecond }

/-- A negative duration with a fraction of a second. -/
theorem decomposes_halfSecond : (ofMicroseconds (-500000)).Decomposes :=
  (decomposes_iff rfl ⟨by decide, by decide⟩).mpr (by decide)

/-- One second below zero has a million microseconds in its second. -/
theorem minusSecond_not_decomposes : ¬ (ofMicroseconds (-1000000)).Decomposes := by
  intro decomposes
  exact absurd decomposes.microsecond (by decide)

end TimeDuration

end Blocxx.Time
