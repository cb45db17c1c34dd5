import Blocxx.LogMessagePatternFormatter.Converters

/-!
This file proves what an XML reader reads from the output of the converter of XML messages.
-/

namespace Blocxx.LogMessagePatternFormatter

open Time CharString

/-- An XML reader reads these data from sections of characters and escaped terminators. -/
inductive Reads : Text → Text → Prop
  | done : Reads [] []
  | cdata (content : Text) (free : ¬ CDATA_END <:+: content) {text data : Text}
      (rest : Reads text data) :
      Reads (CDATA_START ++ content ++ CDATA_END ++ text) (content ++ data)
  | pseudoEnd {text data : Text} (rest : Reads text data) :
      Reads (CDATA_PSEUDO_END ++ text) (CDATA_END ++ data)

/-- The sections of characters without a terminator, and nothing between them. -/
def Sections (text message : Text) : Prop :=
  ∃ contents : List Text, (∀ content ∈ contents, ¬ CDATA_END <:+: content) ∧
    text = (contents.map fun content => CDATA_START ++ content ++ CDATA_END).flatten ∧
    contents.flatten = message

/-- A section is open at the end of the text. The data are those before the section. -/
def Opened (text data : Text) : Prop :=
  ∀ content more moreData, ¬ CDATA_END <:+: content → Reads more moreData →
    Reads (text ++ content ++ CDATA_END ++ more) (data ++ content ++ moreData)

section Terminators

/-- Two terminators do not overlap. -/
theorem end_overlap {front more rest : Text}
    (same : CDATA_END ++ more = front ++ CDATA_END ++ rest) :
    front = [] ∨ ∃ between, front = CDATA_END ++ between := by
  rcases front with _ | ⟨a, _ | ⟨b, _ | ⟨c, between⟩⟩⟩
  · exact .inl rfl
  · simp [CDATA_END] at same
  · simp [CDATA_END] at same
  · obtain ⟨rfl, rfl, rfl, -⟩ : a = ']' ∧ b = ']' ∧ c = '>' ∧ _ := by
      simpa [CDATA_END, eq_comm] using same
    exact .inr ⟨between, rfl⟩

/-- A terminator of a text is in the part of the text that contains all of them. -/
theorem end_inside {kept lost front rest : Text} (free : ¬ CDATA_END <:+: lost)
    (same : kept ++ CDATA_END ++ lost = front ++ CDATA_END ++ rest) :
    front ++ CDATA_END <+: kept ++ CDATA_END := by
  rcases List.append_eq_append_iff.mp
    (show kept ++ (CDATA_END ++ lost) = front ++ (CDATA_END ++ rest) by simpa using same) with
    ⟨between, rfl, ends⟩ | ⟨between, rfl, ends⟩
  · rcases end_overlap (by rw [ends, List.append_assoc]) with rfl | ⟨more, rfl⟩
    · rw [List.append_nil]
    · refine absurd ⟨more, rest, ?_⟩ free
      simpa using ends.symm
  · rcases end_overlap (by rw [ends, List.append_assoc]) with rfl | ⟨more, rfl⟩
    · rw [List.append_nil]
    · exact ⟨more ++ CDATA_END, by simp⟩

theorem indexOf_end_some {msg : Text} {start last : Nat}
    (found : RegEx.indexOf msg CDATA_END start = some last) : ∃ front rest,
      msg.drop start = front ++ CDATA_END ++ rest ∧ last = start + front.length ∧
        '\x00' ∉ front ∧ ¬ CDATA_END <:+: front := by
  unfold RegEx.indexOf at found
  split at found
  · obtain ⟨distance, finds, rfl⟩ := Option.map_eq_some_iff.mp found
    obtain ⟨front, rest, shown, rfl, free⟩ := RegEx.strstr_eq_some (by decide) finds
    have whole : msg.drop start =
        cString (msg.drop start) ++ (msg.drop start).dropWhile (· ≠ '\x00') :=
      List.takeWhile_append_dropWhile.symm
    rw [shown] at whole
    have nonzero := zero_notMem_cString (msg.drop start)
    rw [shown] at nonzero
    refine ⟨front, _, whole.trans (List.append_assoc _ _ _), rfl, ?_, free⟩
    exact fun member => nonzero (by simp [member])
  · cases found

theorem indexOf_end_none {msg : Text} {start : Nat} (inside : start < msg.length)
    (none : RegEx.indexOf msg CDATA_END start = none) :
    ¬ CDATA_END <:+: cString (msg.drop start) := by
  rw [RegEx.indexOf, if_pos inside] at none
  exact RegEx.strstr_eq_none (Option.map_eq_none_iff.mp none)

end Terminators

section Readers

theorem reads_cases {text data : Text} (reads : Reads text data) :
    text = [] ∧ data = [] ∨
      (∃ content more moreData, ¬ CDATA_END <:+: content ∧ Reads more moreData ∧
        text = CDATA_START ++ content ++ CDATA_END ++ more ∧ data = content ++ moreData) ∨
      ∃ more moreData, Reads more moreData ∧ text = CDATA_PSEUDO_END ++ more ∧
        data = CDATA_END ++ moreData := by
  cases reads with
  | done => exact .inl ⟨rfl, rfl⟩
  | cdata content free rest => exact .inr (.inl ⟨content, _, _, free, rest, rfl, rfl⟩)
  | pseudoEnd rest => exact .inr (.inr ⟨_, _, rest, rfl, rfl⟩)

/-- The first terminator ends a section. -/
theorem section_unique {first second more rest : Text} (firstFree : ¬ CDATA_END <:+: first)
    (secondFree : ¬ CDATA_END <:+: second)
    (same : first ++ CDATA_END ++ more = second ++ CDATA_END ++ rest) :
    first = second ∧ more = rest := by
  rcases List.append_eq_append_iff.mp
    (show first ++ (CDATA_END ++ more) = second ++ (CDATA_END ++ rest) by simpa using same) with
    ⟨between, rfl, ends⟩ | ⟨between, rfl, ends⟩
  · rcases end_overlap (by rw [ends, List.append_assoc]) with rfl | ⟨inside, rfl⟩
    · exact ⟨(List.append_nil first).symm, List.append_cancel_left ends⟩
    · exact absurd ⟨first, inside, List.append_assoc _ _ _⟩ secondFree
  · rcases end_overlap (by rw [ends, List.append_assoc]) with rfl | ⟨inside, rfl⟩
    · exact ⟨List.append_nil second, (List.append_cancel_left ends).symm⟩
    · exact absurd ⟨second, inside, List.append_assoc _ _ _⟩ firstFree

/-- A reader reads only these data. -/
theorem Reads.unique {text first second : Text} (one : Reads text first)
    (other : Reads text second) : first = second := by
  induction one generalizing second with
  | done =>
      rcases reads_cases other with
        ⟨-, rfl⟩ | ⟨content, more, moreData, -, -, same, -⟩ | ⟨more, moreData, -, same, -⟩
      · rfl
      · simp [CDATA_START] at same
      · simp [CDATA_PSEUDO_END] at same
  | cdata content free rest ih =>
      rcases reads_cases other with
        ⟨same, -⟩ | ⟨content', more, moreData, free', reads, same, rfl⟩ | ⟨more, moreData, -, same, -⟩
      · simp [CDATA_START] at same
      · simp only [List.append_assoc] at same
        have sections := List.append_cancel_left same
        simp only [← List.append_assoc] at sections
        obtain ⟨rfl, rfl⟩ := section_unique free free' sections
        rw [ih reads]
      · simp [CDATA_START, CDATA_PSEUDO_END] at same
  | pseudoEnd rest ih =>
      rcases reads_cases other with
        ⟨same, -⟩ | ⟨content, more, moreData, -, -, same, -⟩ | ⟨more, moreData, reads, same, rfl⟩
      · simp [CDATA_PSEUDO_END] at same
      · simp [CDATA_START, CDATA_PSEUDO_END] at same
      · obtain rfl := List.append_cancel_left same
        rw [ih reads]

end Readers

section Loop

variable {msg output data : Text}

/-- The next iteration starts behind the terminator. -/
theorem embed_behind {start last : Nat} {front rest : Text}
    (split : msg.drop start = front ++ CDATA_END ++ rest) (place : last = start + front.length) :
    msg.drop (last + CDATA_END.length) = rest := by
  have behind : last + CDATA_END.length = start + (front ++ CDATA_END).length := by
    rw [place, List.length_append, Nat.add_assoc]
  rw [behind, ← List.drop_drop, split, List.drop_left]

/-- One iteration copies what is before the terminator and opens the next section. -/
theorem Opened.embed (opened : Opened output data) {start last : Nat} {front rest : Text}
    (split : msg.drop start = front ++ CDATA_END ++ rest) (place : last = start + front.length)
    (nonzero : '\x00' ∉ front) (free : ¬ CDATA_END <:+: front) :
    Opened (append output (msg.drop start) (last - start) ++ CDATA_EMBEDDED_END)
      (data ++ front ++ CDATA_END) := by
  have copies : append output (msg.drop start) (last - start) = output ++ front := by
    rw [append, split, place, Nat.add_sub_cancel_left, List.append_assoc, strncpy_front nonzero]
  intro next more moreData nextFree reads
  have later := opened front _ _ free (.pseudoEnd (.cdata next nextFree reads))
  rw [copies]
  simpa [CDATA_EMBEDDED_END] using later

/-- The loop goes on behind the terminator that it embeds. What is behind the last one is not in the
section that is open after the loop. -/
theorem embedEnds_opened {start last : Nat} {front rest : Text} (opened : Opened output data)
    (split : msg.drop start = front ++ CDATA_END ++ rest) (place : last = start + front.length)
    (nonzero : '\x00' ∉ front) (free : ¬ CDATA_END <:+: front) : ∃ kept lost,
      msg.drop start = kept ++ CDATA_END ++ lost ∧ ¬ CDATA_END <:+: cString lost ∧
        Opened (embedEnds msg output start last) (data ++ kept ++ CDATA_END) := by
  fun_induction embedEnds msg output start last generalizing data front rest with
  | @case1 output start last copied behind inside next found ih =>
      have embedded := opened.embed split place nonzero free
      obtain ⟨front', rest', split', place', nonzero', free'⟩ := indexOf_end_some found
      obtain ⟨kept, lost, keeps, clean, ends⟩ := ih embedded split' place' nonzero' free'
      refine ⟨front ++ CDATA_END ++ kept, lost, ?_, clean, ?_⟩
      · rw [split, ← embed_behind split place, keeps]
        simp
      · simpa using ends
  | @case2 output start last copied behind inside found =>
      refine ⟨front, rest, split, ?_, opened.embed split place nonzero free⟩
      rw [← embed_behind split place]
      exact indexOf_end_none inside found
  | @case3 output start last copied behind outside =>
      refine ⟨front, rest, split, ?_, opened.embed split place nonzero free⟩
      rw [← embed_behind split place, List.drop_eq_nil_of_le (Nat.le_of_not_lt outside)]
      decide

end Loop

section Output

/-- The padding of `strncpy` contains no terminator. -/
theorem end_strncpy {str : Text} {len : Nat} (free : ¬ CDATA_END <:+: cString str) :
    ¬ CDATA_END <:+: strncpy str len := by
  intro inside
  obtain ⟨front, rest, same⟩ := inside.trans (List.take_prefix len _).isInfix
  rcases List.append_eq_append_iff.mp same with ⟨between, whole, -⟩ | ⟨between, whole, zeros⟩
  · exact free ⟨front, between, whole.symm⟩
  · rcases List.eq_nil_or_concat between with rfl | ⟨most, c, rfl⟩
    · rw [List.append_nil] at whole
      exact free ⟨front, [], by rw [List.append_nil, whole]⟩
    · have zero : c = '\x00' := List.eq_of_mem_replicate (by rw [zeros]; simp)
      have last : (front ++ CDATA_END).getLast? = some c := by
        rw [whole]
        simp
      rw [zero] at last
      simp [CDATA_END] at last

theorem reads_section {content : Text} (free : ¬ CDATA_END <:+: content) :
    Reads (CDATA_START ++ content ++ CDATA_END) content := by
  simpa using Reads.cdata content free .done

/-- A text that is kept up to a terminator and lost behind it has its last terminator there. -/
theorem kept_contains {kept lost : Text} (clean : ¬ CDATA_END <:+: cString lost)
    (nonzero : '\x00' ∉ kept ++ CDATA_END ++ lost) :
    (∀ front rest, kept ++ CDATA_END ++ lost = front ++ CDATA_END ++ rest →
      front ++ CDATA_END <+: kept ++ CDATA_END) ∧
    ((CDATA_END <:+: kept ++ CDATA_END ++ lost → CDATA_END <:+ kept ++ CDATA_END ++ lost) →
      kept ++ CDATA_END = kept ++ CDATA_END ++ lost) := by
  have free : ¬ CDATA_END <:+: lost := by
    rwa [(cString_eq_iff lost).mpr fun member => nonzero (by simp [member])] at clean
  refine ⟨fun front rest same => end_inside free same, fun ends => ?_⟩
  obtain ⟨front, same⟩ := ends ⟨kept, lost, rfl⟩
  have inside := @end_inside kept lost front [] free (by rw [same, List.append_nil])
  rw [same] at inside
  exact (List.IsPrefix.eq_of_length_le (List.prefix_append _ lost) inside.length_le)

/-- The output is read as data that contain the message up to its last terminator. -/
theorem xmlMessage_reads (environment : Environment) (message : LogMessage) (output : Text)
    (formatting : Formatting) : ∃ text data,
    (Converter.xmlMessage formatting).convert environment message output = output ++ text ∧
      Reads text data ∧
      ('\x00' ∉ message.message →
        (∀ front rest, message.message = front ++ CDATA_END ++ rest →
          front ++ CDATA_END <+: data) ∧
        ((CDATA_END <:+: message.message → CDATA_END <:+ message.message) →
          data = message.message)) := by
  show ∃ text data, xmlMessageConvert message.message output = output ++ text ∧ _
  generalize message.message = msg
  unfold xmlMessageConvert
  dsimp only
  by_cases empty : msg = []
  · rw [if_pos empty, empty, List.append_assoc]
    refine ⟨_, [], rfl, reads_section (by decide), fun _ => ⟨?_, fun _ => rfl⟩⟩
    intro front rest same
    simp [CDATA_END] at same
  · rw [if_neg empty]
    cases found : RegEx.indexOf msg CDATA_END 0 with
    | none =>
        have clean := indexOf_end_none (List.length_pos_of_ne_nil empty) found
        rw [List.drop_zero] at clean
        refine ⟨CDATA_START ++ strncpy msg msg.length ++ CDATA_END, _, ?_,
          reads_section (end_strncpy clean), ?_⟩
        · simp [appendString, append]
        · intro nonzero
          rw [(cString_eq_iff msg).mpr nonzero] at clean
          refine ⟨?_, fun _ => zerosLast_of_free nonzero⟩
          intro front rest same
          exact absurd ⟨front, rest, same.symm⟩ clean
    | some last =>
        have opened : Opened CDATA_START [] := fun content more moreData free reads => by
          simpa using Reads.cdata content free reads
        obtain ⟨front, rest, split, place, nonzero, free⟩ := indexOf_end_some found
        obtain ⟨kept, lost, keeps, clean, ends⟩ :=
          embedEnds_opened opened split place nonzero free
        refine ⟨embedEnds msg CDATA_START 0 last ++ CDATA_END, kept ++ CDATA_END, ?_, ?_, ?_⟩
        · dsimp only
          rw [embedEnds_append, List.append_assoc]
        · simpa using ends [] [] [] (by decide) .done
        · rw [List.drop_zero] at keeps
          rw [keeps]
          exact kept_contains clean

theorem length_sections (contents : List Text) :
    (contents.map fun content => CDATA_START ++ content ++ CDATA_END).flatten.length =
      12 * contents.length + contents.flatten.length := by
  induction contents with
  | nil => rfl
  | cons content contents ih =>
      have start : CDATA_START.length = 9 := rfl
      have ends : CDATA_END.length = 3 := rfl
      simp only [List.map_cons, List.flatten_cons, List.length_append, List.length_cons] at ih ⊢
      omega

/-- A message that is a terminator. -/
def terminator : LogMessage := ⟨[], [], CDATA_END, none, 0, none⟩

/-- The escaped terminator between two sections belongs to none of them. -/
theorem terminator_not_sections :
    ¬ Sections ((Converter.xmlMessage .none).convert .first terminator []) terminator.message := by
  rintro ⟨contents, -, same, whole⟩
  have output : (Converter.xmlMessage .none).convert .first terminator [] =
      CDATA_START ++ CDATA_EMBEDDED_END ++ CDATA_END := by
    have found : RegEx.indexOf CDATA_END CDATA_END 0 = some 0 := by decide
    show xmlMessageConvert CDATA_END [] = _
    unfold xmlMessageConvert
    dsimp only
    rw [if_neg (show CDATA_END ≠ [] by decide), found]
    dsimp only
    rw [embedEnds, if_neg (show ¬ 0 + CDATA_END.length < CDATA_END.length by decide)]
    rfl
  have lengths := length_sections contents
  rw [← same, whole, output] at lengths
  have long : (CDATA_START ++ CDATA_EMBEDDED_END ++ CDATA_END).length = 30 := by decide
  have short : terminator.message.length = 3 := rfl
  omega

end Output

end Blocxx.LogMessagePatternFormatter
