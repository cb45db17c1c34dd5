import Mathlib.Tactic

/-!
This file cuts a text at a separator into its non-empty pieces.
-/

namespace Blocxx.Library.Pieces

variable {Letter : Type*} [DecidableEq Letter] {separator : Letter}

/-- A piece is not empty and has no separator. -/
def IsPiece (separator : Letter) (piece : List Letter) : Prop :=
  piece ≠ [] ∧ separator ∉ piece

/-- These are the non-empty pieces between the separators. -/
def pieces (separator : Letter) (text : List Letter) : List (List Letter) :=
  (text.splitOn separator).filter (· ≠ [])

/-- Each piece is followed by one separator. -/
def terminated (separator : Letter) (parts : List (List Letter)) : List Letter :=
  parts.flatMap (· ++ [separator])

/-- Each piece is preceded by one separator. -/
def preceded (separator : Letter) (parts : List (List Letter)) : List Letter :=
  parts.flatMap (separator :: ·)

@[simp] theorem pieces_nil : pieces separator [] = [] := by
  simp [pieces]

@[simp] theorem pieces_separator (text : List Letter) :
    pieces separator (separator :: text) = pieces separator text := by
  simp [pieces, List.splitOn_cons_eq_if_modifyHead]

/-- A letter before a separator or before the end is a piece of its own. -/
theorem pieces_last {letter : Letter} (different : letter ≠ separator) (text : List Letter)
    (ends : text = [] ∨ text.head? = some separator) :
    pieces separator (letter :: text) = [letter] :: pieces separator text := by
  cases text with
  | nil => simp [pieces, List.splitOn_cons_eq_if_modifyHead, different]
  | cons first rest =>
      obtain rfl : first = separator := by simpa using ends
      simp [pieces, List.splitOn_cons_eq_if_modifyHead, different]

/-- A letter before another letter belongs to the piece of that letter. -/
theorem pieces_inside {letter first : Letter} (different : letter ≠ separator)
    (inside : first ≠ separator) (text : List Letter) :
    ∃ piece more, pieces separator (first :: text) = piece :: more ∧
      pieces separator (letter :: first :: text) = (letter :: piece) :: more := by
  obtain ⟨head, tail, split⟩ := List.exists_cons_of_ne_nil (List.splitOn_ne_nil separator text)
  refine ⟨first :: head, tail.filter (· ≠ []), ?_, ?_⟩
  · simp [pieces, List.splitOn_cons_eq_if_modifyHead, inside, split]
  · simp [pieces, List.splitOn_cons_eq_if_modifyHead, different, inside, split]

/-- A text that starts with another letter has a piece. -/
theorem pieces_eq_nil {text : List Letter} (inside : text.head? ≠ some separator) :
    pieces separator text = [] ↔ text = [] := by
  match text with
  | [] => simp
  | [letter] =>
      rw [pieces_last (by simpa using inside) [] (.inl rfl)]
      simp
  | letter :: first :: rest =>
      have different : letter ≠ separator := by simpa using inside
      by_cases same : first = separator
      · rw [pieces_last different _ (.inr (by simp [same]))]
        simp
      · obtain ⟨piece, more, _, after⟩ := pieces_inside different same rest
        simp [after]

/-- Every member of `pieces` is a piece. -/
theorem isPiece_of_mem {text piece : List Letter} (member : piece ∈ pieces separator text) :
    IsPiece separator piece := by
  induction text generalizing piece with
  | nil => simp at member
  | cons letter rest ih =>
      by_cases same : letter = separator
      · subst same
        rw [pieces_separator] at member
        exact ih member
      · cases rest with
        | nil =>
            rw [pieces_last same [] (.inl rfl), pieces_nil, List.mem_singleton] at member
            subst member
            exact ⟨by simp, by simpa using Ne.symm same⟩
        | cons first text =>
            by_cases other : first = separator
            · rw [pieces_last same _ (.inr (by simp [other])), List.mem_cons] at member
              rcases member with rfl | later
              · exact ⟨by simp, by simpa using Ne.symm same⟩
              · exact ih later
            · obtain ⟨head, more, before, after⟩ := pieces_inside same other text
              rw [before] at ih
              rw [after, List.mem_cons] at member
              rcases member with rfl | later
              · have piece := ih (List.mem_cons_self)
                exact ⟨by simp, by simpa [Ne.symm same] using piece.2⟩
              · exact ih (List.mem_cons_of_mem _ later)

/-- Separators in front of a text change no piece. -/
theorem pieces_dropWhile (text : List Letter) :
    pieces separator (text.dropWhile (· = separator)) = pieces separator text := by
  induction text with
  | nil => rfl
  | cons first rest ih =>
      by_cases same : first = separator
      · subst same
        rw [List.dropWhile_cons_of_pos (by simp), pieces_separator, ih]
      · rw [List.dropWhile_cons_of_neg (by simpa using same)]

theorem dropWhile_head (text : List Letter) :
    (text.dropWhile (· = separator)).head? ≠ some separator := by
  induction text with
  | nil => simp
  | cons first rest ih =>
      by_cases same : first = separator
      · rwa [List.dropWhile_cons_of_pos (by simpa using same)]
      · rw [List.dropWhile_cons_of_neg (by simpa using same)]
        simpa using same

/-- The first piece of a terminated text ends at the first separator. -/
theorem takeWhile_piece {piece : List Letter} (isPiece : IsPiece separator piece)
    (rest : List Letter) :
    (piece ++ separator :: rest).takeWhile (· ≠ separator) = piece ∧
      (piece ++ separator :: rest).dropWhile (· ≠ separator) = separator :: rest := by
  have inside : ∀ letter ∈ piece, decide (letter ≠ separator) = true := by
    intro letter member
    have different : letter ≠ separator := fun same => isPiece.2 (same ▸ member)
    simpa using different
  constructor
  · rw [List.takeWhile_append_of_pos inside, List.takeWhile_cons_of_neg (by simp), List.append_nil]
  · rw [List.dropWhile_append_of_pos inside, List.dropWhile_cons_of_neg (by simp)]

/-- This function puts a letter in front of a text unless it is a separator before another
separator. The Boolean says whether the text starts with a separator. -/
def squeeze (separator : Letter) (letter : Letter) (text : List Letter × Bool) :
    List Letter × Bool :=
  if letter = separator then
    (if text.2 then text.1 else letter :: text.1, true)
  else (letter :: text.1, false)

/-- Squeezing a text in front of a separator leaves its pieces, each with one separator. -/
theorem foldr_squeeze (text below : List Letter) :
    (text = [] ∨ text.head? = some separator →
      text.foldr (squeeze separator) (separator :: below, true) =
        (separator :: (terminated separator (pieces separator text) ++ below), true)) ∧
    (¬ (text = [] ∨ text.head? = some separator) →
      text.foldr (squeeze separator) (separator :: below, true) =
        (terminated separator (pieces separator text) ++ below, false)) := by
  induction text with
  | nil => simp [terminated]
  | cons letter rest ih =>
      obtain ⟨atEnd, inside⟩ := ih
      by_cases same : letter = separator
      · subst same
        refine ⟨fun _ => ?_, fun other => absurd (.inr rfl) other⟩
        rw [List.foldr_cons, pieces_separator]
        by_cases ends : rest = [] ∨ rest.head? = some letter
        · rw [atEnd ends]
          simp [squeeze]
        · rw [inside ends]
          simp [squeeze]
      · refine ⟨fun other => absurd other (by simpa using same), fun _ => ?_⟩
        rw [List.foldr_cons]
        by_cases ends : rest = [] ∨ rest.head? = some separator
        · rw [atEnd ends, pieces_last same rest ends]
          simp [squeeze, same, terminated]
        · rw [inside ends]
          cases rest with
          | nil => exact absurd (.inl rfl) ends
          | cons first more =>
              have different : first ≠ separator := fun equal => ends (.inr (by simp [equal]))
              obtain ⟨piece, others, before, after⟩ := pieces_inside same different more
              rw [before, after]
              simp [squeeze, same, terminated]

/-- A terminated text does not start with a separator. -/
theorem terminated_dropWhile {parts : List (List Letter)}
    (isPiece : ∀ part ∈ parts, IsPiece separator part) :
    (terminated separator parts).dropWhile (· = separator) = terminated separator parts := by
  cases parts with
  | nil => rfl
  | cons part rest =>
      obtain ⟨notEmpty, clean⟩ := isPiece part List.mem_cons_self
      obtain ⟨first, more, rfl⟩ := List.exists_cons_of_ne_nil notEmpty
      have different : first ≠ separator := fun same => clean (by simp [same])
      simp [terminated, different]

omit [DecidableEq Letter] in
theorem terminated_append (parts more : List (List Letter)) :
    terminated separator (parts ++ more) =
      terminated separator parts ++ terminated separator more :=
  List.flatMap_append

omit [DecidableEq Letter] in
theorem preceded_concat (parts : List (List Letter)) (last : List Letter) :
    preceded separator (parts ++ [last]) = preceded separator parts ++ separator :: last := by
  simp [preceded]

/-- A piece in front of a separator or of the end is the first piece. -/
theorem pieces_append {piece : List Letter} (isPiece : IsPiece separator piece)
    (text : List Letter) (ends : text = [] ∨ text.head? = some separator) :
    pieces separator (piece ++ text) = piece :: pieces separator text := by
  have inside : ∀ letter ∈ piece, (letter == separator) = false := by
    intro letter member
    have different : letter ≠ separator := fun same => isPiece.2 (same ▸ member)
    simpa using different
  cases text with
  | nil =>
      rw [List.append_nil, pieces, List.splitOn_eq_splitOnP, List.splitOnP_eq_singleton inside]
      simp [isPiece.1]
  | cons first rest =>
      obtain rfl : first = separator := by simpa using ends
      rw [pieces_separator, pieces, List.splitOn_eq_splitOnP,
        List.splitOnP_append_cons_of_forall_mem inside first (by simp), pieces,
        List.splitOn_eq_splitOnP]
      simp [isPiece.1]

/-- A preceded text in front of a separator or of the end keeps the pieces it was made of. -/
theorem pieces_preceded_append {parts : List (List Letter)}
    (isPiece : ∀ part ∈ parts, IsPiece separator part) (text : List Letter)
    (ends : text = [] ∨ text.head? = some separator) :
    pieces separator (preceded separator parts ++ text) = parts ++ pieces separator text := by
  induction parts with
  | nil => simp [preceded]
  | cons part rest ih =>
      have later : pieces separator (preceded separator rest ++ text) =
          rest ++ pieces separator text :=
        ih fun piece member => isPiece piece (List.mem_cons_of_mem part member)
      have between : preceded separator rest ++ text = [] ∨
          (preceded separator rest ++ text).head? = some separator := by
        cases rest with
        | nil => exact ends
        | cons first more => exact .inr rfl
      have first : preceded separator (part :: rest) ++ text =
          separator :: (part ++ (preceded separator rest ++ text)) := by
        simp [preceded]
      rw [first, pieces_separator, pieces_append (isPiece part List.mem_cons_self) _ between,
        later, List.cons_append]

/-- The pieces of a preceded text are the pieces that it was made of. -/
theorem pieces_preceded {parts : List (List Letter)}
    (isPiece : ∀ part ∈ parts, IsPiece separator part) :
    pieces separator (preceded separator parts) = parts := by
  have alone := pieces_preceded_append isPiece [] (.inl rfl)
  rwa [List.append_nil, pieces_nil, List.append_nil] at alone

end Blocxx.Library.Pieces
