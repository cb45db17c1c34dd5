import Mathlib.Tactic

/-!
This file cuts a text at blanks into its words and says when the words of one text are those of
another one, with long words broken into several.
-/

namespace Blocxx.Library.Words

variable {Letter : Type*} {blank : Letter → Bool} {limit : Nat}

/-- The non-empty parts between the blanks. -/
def words (blank : Letter → Bool) (text : List Letter) : List (List Letter) :=
  (text.splitOnP blank).filter fun word => !word.isEmpty

@[simp] theorem words_nil : words blank [] = [] := by
  simp [words]

/-- A blank separates the words in front of it from those behind it. -/
theorem words_blank {letter : Letter} (isBlank : blank letter = true) (first second : List Letter) :
    words blank (first ++ letter :: second) = words blank first ++ words blank second := by
  rw [words, List.splitOnP_append_cons first second isBlank, List.filter_append]
  rfl

theorem words_cons {letter : Letter} (isBlank : blank letter = true) (text : List Letter) :
    words blank (letter :: text) = words blank text := by
  simpa using words_blank isBlank [] text

/-- Blanks in front of a text change no word. -/
theorem words_blanks {blanks : List Letter} (areBlank : ∀ letter ∈ blanks, blank letter = true)
    (text : List Letter) : words blank (blanks ++ text) = words blank text := by
  induction blanks with
  | nil => rfl
  | cons letter rest ih =>
      rw [List.cons_append, words_cons (areBlank letter List.mem_cons_self)]
      exact ih fun other member => areBlank other (List.mem_cons_of_mem _ member)

/-- A text without blanks is one word. -/
theorem words_single {word : List Letter} (notEmpty : word ≠ [])
    (letters : ∀ letter ∈ word, blank letter = false) : words blank word = [word] := by
  rw [words, List.splitOnP_eq_singleton letters]
  simp [notEmpty]

/-- The text is empty or starts with a blank. -/
def StartsBlank (blank : Letter → Bool) (text : List Letter) : Prop :=
  ∀ letter ∈ text.head?, blank letter = true

/-- The text is empty or ends with a blank. -/
def EndsBlank (blank : Letter → Bool) (text : List Letter) : Prop :=
  ∀ letter ∈ text.getLast?, blank letter = true

theorem words_append_startsBlank (first : List Letter) {second : List Letter}
    (starts : StartsBlank blank second) :
    words blank (first ++ second) = words blank first ++ words blank second := by
  cases second with
  | nil => simp
  | cons letter rest =>
      have isBlank := starts letter rfl
      rw [words_blank isBlank, words_cons isBlank]

theorem words_append_endsBlank {first : List Letter} (ends : EndsBlank blank first)
    (second : List Letter) :
    words blank (first ++ second) = words blank first ++ words blank second := by
  induction first using List.reverseRecOn with
  | nil => simp
  | append_singleton front letter _ =>
      have isBlank := ends letter (by simp)
      rw [List.append_assoc, List.singleton_append, words_blank isBlank, words_blank isBlank]
      simp

variable (blank) in
/-- A text is a part that ends with a blank and the letters behind it. -/
theorem exists_last_word (text : List Letter) : ∃ front word, text = front ++ word ∧
    EndsBlank blank front ∧ ∀ letter ∈ word, blank letter = false := by
  induction text using List.reverseRecOn with
  | nil => exact ⟨[], [], rfl, by simp [EndsBlank], by simp⟩
  | append_singleton text letter ih =>
      cases isBlank : blank letter with
      | true => exact ⟨text ++ [letter], [], by simp, by simp [EndsBlank, isBlank], by simp⟩
      | false =>
          obtain ⟨front, word, rfl, ends, letters⟩ := ih
          refine ⟨front, word ++ [letter], by simp, ends, ?_⟩
          intro other member
          rw [List.mem_append, List.mem_singleton] at member
          rcases member with old | rfl
          · exact letters other old
          · exact isBlank

variable (blank) in
/-- A text is its first letters and a part that starts with a blank. -/
theorem exists_first_word (text : List Letter) : ∃ word rest, text = word ++ rest ∧
    StartsBlank blank rest ∧ ∀ letter ∈ word, blank letter = false := by
  induction text with
  | nil => exact ⟨[], [], rfl, by simp [StartsBlank], by simp⟩
  | cons letter text ih =>
      cases isBlank : blank letter with
      | true => exact ⟨[], letter :: text, rfl, by simp [StartsBlank, isBlank], by simp⟩
      | false =>
          obtain ⟨word, rest, rfl, starts, letters⟩ := ih
          refine ⟨letter :: word, rest, rfl, starts, ?_⟩
          intro other member
          rcases List.mem_cons.mp member with rfl | old
          · exact isBlank
          · exact letters other old

/-- The pieces are the words in order. Only words over the limit are broken. -/
inductive Breaks (limit : Nat) : List (List Letter) → List (List Letter) → Prop
  | nil : Breaks limit [] []
  | cons {word : List Letter} {parts words pieces : List (List Letter)}
      (whole : parts.flatten = word) (short : word.length ≤ limit → parts = [word])
      (rest : Breaks limit words pieces) : Breaks limit (word :: words) (parts ++ pieces)

namespace Breaks

variable {words pieces later more : List (List Letter)}

theorem refl (words : List (List Letter)) : Breaks limit words words := by
  induction words with
  | nil => exact .nil
  | cons word rest ih =>
      show Breaks limit (word :: rest) ([word] ++ rest)
      exact .cons (by simp) (fun _ => rfl) ih

theorem append (first : Breaks limit words pieces) (second : Breaks limit later more) :
    Breaks limit (words ++ later) (pieces ++ more) := by
  induction first with
  | nil => exact second
  | cons whole short rest ih =>
      rw [List.append_assoc, List.cons_append]
      exact .cons whole short ih

theorem flatten (breaks : Breaks limit words pieces) : pieces.flatten = words.flatten := by
  induction breaks with
  | nil => rfl
  | cons whole short rest ih => rw [List.flatten_append, List.flatten_cons, whole, ih]

/-- The pieces of two lists of words are those of the first and those of the second. -/
theorem split (breaks : Breaks limit (words ++ later) pieces) : ∃ first second,
    pieces = first ++ second ∧ Breaks limit words first ∧ Breaks limit later second := by
  induction words generalizing pieces with
  | nil => exact ⟨[], pieces, rfl, .nil, breaks⟩
  | cons word rest ih =>
      cases breaks with
      | cons whole short broken =>
          obtain ⟨first, second, rfl, one, other⟩ := ih broken
          exact ⟨_ ++ first, second, (List.append_assoc _ _ _).symm, .cons whole short one, other⟩

/-- A short word is one piece. -/
theorem single {word : List Letter} (breaks : Breaks limit [word] pieces)
    (short : word.length ≤ limit) : pieces = [word] := by
  cases breaks with
  | cons whole whenShort rest =>
      cases rest with
      | nil => rw [whenShort short]; rfl

theorem trans (first : Breaks limit words pieces) (second : Breaks limit pieces more) :
    Breaks limit words more := by
  induction first generalizing more with
  | nil => exact second
  | cons whole short rest ih =>
      obtain ⟨parts, others, rfl, broken, later⟩ := second.split
      refine .cons (broken.flatten.trans whole) ?_ (ih later)
      intro fits
      obtain rfl := short fits
      exact broken.single fits

end Breaks

/-- A cut in a word over the limit. -/
theorem breaks_word {first second : List Letter} (tooLong : limit < first.length + second.length)
    (firstLetters : ∀ letter ∈ first, blank letter = false)
    (secondLetters : ∀ letter ∈ second, blank letter = false) :
    Breaks limit (words blank (first ++ second)) (words blank first ++ words blank second) := by
  by_cases noFirst : first = []
  · subst noFirst
    simpa using Breaks.refl (words blank second)
  by_cases noSecond : second = []
  · subst noSecond
    simpa using Breaks.refl (words blank first)
  have letters : ∀ letter ∈ first ++ second, blank letter = false := by
    intro letter member
    rcases List.mem_append.mp member with old | new
    · exact firstLetters letter old
    · exact secondLetters letter new
  rw [words_single (by simp [noFirst]) letters, words_single noFirst firstLetters,
    words_single noSecond secondLetters]
  show Breaks limit [first ++ second] ([first, second] ++ [])
  refine .cons (by simp) ?_ .nil
  intro fits
  rw [List.length_append] at fits
  omega

/-- A cut behind enough letters breaks at most one word, and that over the limit. -/
theorem breaks_cut {front run : List Letter} (letters : ∀ letter ∈ run, blank letter = false)
    (long : limit ≤ run.length) (behind : List Letter) :
    Breaks limit (words blank (front ++ run ++ behind))
      (words blank (front ++ run) ++ words blank behind) := by
  obtain ⟨start, tail, rfl, ends, tailLetters⟩ := exists_last_word blank front
  obtain ⟨head, rest, rfl, starts, headLetters⟩ := exists_first_word blank behind
  have inside : ∀ letter ∈ tail ++ run, blank letter = false := by
    intro letter member
    rcases List.mem_append.mp member with old | new
    · exact tailLetters letter old
    · exact letters letter new
  have before : words blank (start ++ tail ++ run) =
      words blank start ++ words blank (tail ++ run) := by
    rw [List.append_assoc, words_append_endsBlank ends]
  have after : words blank (start ++ tail ++ run ++ (head ++ rest)) =
      words blank start ++ (words blank (tail ++ run ++ head) ++ words blank rest) := by
    rw [← words_append_startsBlank _ starts, ← words_append_endsBlank ends]
    simp
  have assoc : words blank start ++ words blank (tail ++ run) ++
      (words blank head ++ words blank rest) = words blank start ++
        ((words blank (tail ++ run) ++ words blank head) ++ words blank rest) := by
    simp only [List.append_assoc]
  rw [before, after, words_append_startsBlank _ starts, assoc]
  refine (Breaks.refl _).append (Breaks.append ?_ (Breaks.refl _))
  cases head with
  | nil => simpa using Breaks.refl _
  | cons letter head =>
      apply breaks_word _ inside headLetters
      rw [List.length_append, List.length_cons]
      omega

end Blocxx.Library.Words
