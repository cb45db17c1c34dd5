import Blocxx.CmdLineParser.CaseSensitivity
import Blocxx.Library.BackwardSearch
import Blocxx.Library.Loop
import Blocxx.CmdLineParser.Lookup
import Blocxx.Library.Pieces
import Blocxx.Library.Words

/-!
This file embeds `CmdLineParser::getUsage`, and proves that the usage of a table ends, keeps to its
width and has the words of every option in order. The fuel bounds the iterations of the loop that
wraps the line of one option.
-/

namespace Blocxx.CmdLineParsers
open Library

inductive EOptionVisibilityTypeFlag where
  | visible
  | notVisible
  deriving DecidableEq

inductive EUsageVisibilityFlag where
  | showVisible
  | showAll
  deriving DecidableEq

/-- The fields of `ParserOptionImpl` with those that only the usage reads. -/
structure DescribedOption extends ParserOption where
  description : Text
  visibility : EOptionVisibilityTypeFlag
  deriving DecidableEq

def npos : Nat := 2 ^ 64 - 1

/-- The function `String::indexOf` of a character, from the start of the string. -/
def indexOf (s : Text) (ch : Char) : Nat := if ch ∈ s then s.idxOf ch else npos

/-- The function `String::lastIndexOf` of a character. An index behind the string finds nothing. -/
def lastIndexOf (s : Text) (ch : Char) (fromIndex : Nat) : Nat :=
  let fromIndex := if fromIndex = npos then s.length - 1 else fromIndex
  if fromIndex < s.length then
    match BackwardSearch.lastBelow (fun i => some (s[i]? = some ch)) (fromIndex + 1) with
    | some (some i) => i
    | _ => npos
  else npos

/-- The function `String::substring`. -/
def substring (s : Text) (beginIndex len : Nat) : Text :=
  if len = npos then s.drop beginIndex else (s.drop beginIndex).take len

def numOptionColumns : Nat := 28

def optionSpaces : Text := List.replicate numOptionColumns ' '

def initialIndent : Text := "  ".toList

/-- The cut index and the index at which the next line begins. -/
def cutLine (curLineStr : Text) (maxColumns : UInt32) : Nat × Nat :=
  let newlineIdx := indexOf curLineStr '\n'
  let lastSpaceIdx := lastIndexOf curLineStr ' ' maxColumns.toNat
  if newlineIdx ≤ maxColumns.toNat then (newlineIdx, newlineIdx + 1)
  else if numOptionColumns < lastSpaceIdx then (lastSpaceIdx, (lastSpaceIdx + 1) % 2 ^ 64)
  else (maxColumns.toNat, maxColumns.toNat)

/-- The loop that wraps a line. The state is the usage and the rest of the line. -/
def wrapBody (argtype : EArgumentTypeFlag) (maxColumns : UInt32) :
    Text × Text → Loop.Iteration (Text × Text) (Text × Text)
  | (usage, curLine) =>
      if maxColumns.toNat < curLine.length ∨ indexOf curLine '\n' ≠ npos then
        let (cutIdx, nextLineBeginIdx) := cutLine curLine maxColumns
        let spaces := if argtype = .grouping then initialIndent else optionSpaces
        .next (usage ++ (substring curLine 0 cutIdx ++ ['\n']),
          spaces ++ substring curLine nextLineBeginIdx npos)
      else .stop (usage, curLine)

namespace DescribedOption

variable (option : DescribedOption)

/-- The mark of an option with an argument. -/
def argumentMark : Text :=
  match option.argtype with
  | .requiredArg => " <arg>".toList
  | .optionalArg => " [arg]".toList
  | _ => []

/-- The part of the line behind the description. -/
def defaultNote : Text :=
  if option.haveDefaultValue then
    let quote := if ' ' ∈ option.defaultValue then ['"'] else []
    " (default is ".toList ++ (quote ++ option.defaultValue ++ quote) ++ [')']
  else []

def isShown (visibility : EUsageVisibilityFlag) : Bool :=
  ¬ (option.visibility = .notVisible ∧ visibility ≠ .showAll)

def groupingNewline : Text := if option.argtype = .grouping then ['\n'] else []

end DescribedOption

namespace CmdLineParser

variable (parser : CmdLineParser) (option : DescribedOption)

/-- The names of an option and the mark of its argument. -/
def usageNames : Text :=
  (if option.shortopt ≠ noShortopt then
    parser.shortName option.toParserOption ++ (if option.longopt ≠ [] then ", ".toList else [])
  else []) ++
  (if option.longopt ≠ [] then parser.longName option.toParserOption else []) ++
  option.argumentMark

/-- The spaces up to the description, which are at least one. -/
def usagePadding (curLine : Text) : Text :=
  if option.argtype = .grouping then []
  else
    let bufferlen :=
      if numOptionColumns - 1 ≤ curLine.length then 1 else numOptionColumns - curLine.length
    substring optionSpaces 0 bufferlen

/-- The line of an option before it is wrapped. -/
def usageLine : Text :=
  let curLine := initialIndent ++ parser.usageNames option
  curLine ++ usagePadding option curLine ++ option.description ++ option.defaultNote

/-- One iteration over the options. -/
def appendUsage (maxColumns : UInt32) (visibility : EUsageVisibilityFlag) (fuel : Nat)
    (usage : Text) : Option Text :=
  if option.isShown visibility then do
    let (usage, curLine) ← Loop.run (wrapBody option.argtype maxColumns) fuel
      (usage ++ option.groupingNewline, parser.usageLine option)
    return usage ++ (curLine ++ ['\n']) ++ option.groupingNewline
  else some usage

def getUsage (options : List DescribedOption) (maxColumns : UInt32)
    (visibility : EUsageVisibilityFlag) (fuel : Nat) : Option Text :=
  options.foldlM (fun usage option => parser.appendUsage option maxColumns visibility fuel usage)
    "Options:\n".toList

end CmdLineParser

end Blocxx.CmdLineParsers

namespace Blocxx.CmdLineParsers
open Library Words

/-- The characters at which a line of the usage may be cut. -/
def isBlank (letter : Char) : Bool := letter = ' ' || letter = '\n'

variable {line text rest curLine usage : Text} {ch : Char} {maxColumns : UInt32}

theorem indexOf_eq (clean : ch ∉ line) (rest : Text) :
    indexOf (line ++ ch :: rest) ch = line.length := by
  rw [indexOf, if_pos (by simp), List.idxOf_append_of_notMem clean, List.idxOf_cons_self,
    Nat.add_zero]

theorem indexOf_none (missing : ch ∉ line) : indexOf line ch = npos := if_neg missing

/-- The last index up to one inside the string is found, if there is any. -/
theorem lastIndexOf_spec {fromIndex : Nat} (inside : fromIndex < text.length)
    (isIndex : fromIndex ≠ npos) :
    (lastIndexOf text ch fromIndex = npos ∧ ∀ i ≤ fromIndex, text[i]? ≠ some ch) ∨
      ∃ i ≤ fromIndex, lastIndexOf text ch fromIndex = i ∧ text[i]? = some ch ∧
        ∀ j, i < j → j ≤ fromIndex → text[j]? ≠ some ch := by
  have answers : ∀ i < fromIndex + 1, ∃ answer, some (decide (text[i]? = some ch)) = some answer ∧
      (answer = true ↔ text[i]? = some ch) := fun i _ => ⟨_, rfl, decide_eq_true_iff⟩
  obtain ⟨result, found, last⟩ := BackwardSearch.lastBelow_spec answers
  rw [lastIndexOf, if_neg isIndex, if_pos inside, found]
  cases result with
  | none => exact .inl ⟨rfl, fun i less => last i (Nat.lt_succ_of_le less)⟩
  | some i =>
      refine .inr ⟨i, Nat.le_of_lt_succ last.1.1, rfl, last.1.2, ?_⟩
      intro j greater less isHere
      exact absurd (last.2 ⟨Nat.lt_succ_of_le less, isHere⟩) (Nat.not_le_of_lt greater)

/-- The ways to cut a line: at a line break, at a space behind the option column, or behind enough
letters. -/
inductive Cut (maxColumns : UInt32) : Text → Nat × Nat → Prop
  | newline {line rest : Text} (clean : '\n' ∉ line) (fits : line.length ≤ maxColumns.toNat) :
      Cut maxColumns (line ++ '\n' :: rest) (line.length, line.length + 1)
  | space {line rest : Text} (clean : '\n' ∉ line) (fits : line.length ≤ maxColumns.toNat)
      (behind : numOptionColumns < line.length) :
      Cut maxColumns (line ++ ' ' :: rest) (line.length, line.length + 1)
  | middle {front run rest : Text} (clean : '\n' ∉ front ++ run)
      (full : (front ++ run).length = maxColumns.toNat)
      (letters : ∀ letter ∈ run, isBlank letter = false)
      (long : maxColumns.toNat - (numOptionColumns + 1) ≤ run.length) :
      Cut maxColumns (front ++ run ++ rest) (maxColumns.toNat, maxColumns.toNat)

theorem cut_space {i : Nat} (less : i ≤ maxColumns.toNat) (behind : numOptionColumns < i)
    (isSpace : curLine[i]? = some ' ') (clean : '\n' ∉ curLine.take (maxColumns.toNat + 1)) :
    Cut maxColumns curLine (i, (i + 1) % 2 ^ 64) := by
  obtain ⟨inside, here⟩ := List.getElem?_eq_some_iff.mp isSpace
  have parts : curLine = curLine.take i ++ ' ' :: curLine.drop (i + 1) := by
    rw [← here, List.getElem_cons_drop, List.take_append_drop]
  have isLength : (curLine.take i).length = i := List.length_take_of_le inside.le
  have small := maxColumns.toNat_lt
  have noWrap : (i + 1) % 2 ^ 64 = i + 1 := Nat.mod_eq_of_lt (by omega)
  have cut : Cut maxColumns (curLine.take i ++ ' ' :: curLine.drop (i + 1))
      ((curLine.take i).length, (curLine.take i).length + 1) := by
    apply Cut.space
    · intro member
      exact clean ((List.take_sublist_take_left (by omega)).subset member)
    · rw [isLength]
      exact less
    · rw [isLength]
      exact behind
  rw [← parts, isLength] at cut
  rw [noWrap]
  exact cut

theorem cut_middle (wide : numOptionColumns < maxColumns.toNat)
    (long : maxColumns.toNat < curLine.length)
    (clean : '\n' ∉ curLine.take (maxColumns.toNat + 1))
    (noSpace : ∀ j, numOptionColumns < j → j ≤ maxColumns.toNat → curLine[j]? ≠ some ' ') :
    Cut maxColumns curLine (maxColumns.toNat, maxColumns.toNat) := by
  obtain ⟨front, run, rest, rfl, frontLength, runLength⟩ : ∃ front run rest,
      curLine = front ++ run ++ rest ∧ front.length = numOptionColumns + 1 ∧
        run.length = maxColumns.toNat - (numOptionColumns + 1) := by
    refine ⟨curLine.take (numOptionColumns + 1), (curLine.drop (numOptionColumns + 1)).take
      (maxColumns.toNat - (numOptionColumns + 1)), (curLine.drop (numOptionColumns + 1)).drop
        (maxColumns.toNat - (numOptionColumns + 1)), ?_, ?_, ?_⟩
    · rw [List.append_assoc, List.take_append_drop, List.take_append_drop]
    · rw [List.length_take]
      omega
    · rw [List.length_take, List.length_drop]
      omega
  have full : (front ++ run).length = maxColumns.toNat := by
    rw [List.length_append]
    omega
  have noBreak : '\n' ∉ front ++ run := by
    intro member
    rw [List.take_append, List.take_of_length_le (by omega)] at clean
    exact clean (List.mem_append_left _ member)
  refine .middle noBreak full ?_ runLength.ge
  intro letter member
  obtain ⟨k, less, here⟩ := List.mem_iff_getElem.mp member
  have place : (front ++ run ++ rest)[numOptionColumns + 1 + k]? = some letter := by
    rw [List.append_assoc, List.getElem?_append_right (by omega), frontLength,
      Nat.add_sub_cancel_left, List.getElem?_append_left less, List.getElem?_eq_getElem less, here]
  have notSpace := noSpace (numOptionColumns + 1 + k) (by omega) (by omega)
  rw [place] at notSpace
  have notBreak : letter ≠ '\n' := by
    rintro rfl
    exact noBreak (List.mem_append_right _ member)
  simpa [isBlank, notBreak] using notSpace

/-- A line that is too long, or has a line break, is cut in one of these ways. -/
theorem cutLine_cut (wide : numOptionColumns < maxColumns.toNat)
    (starts : curLine.head? = some ' ')
    (goes : maxColumns.toNat < curLine.length ∨ indexOf curLine '\n' ≠ npos) :
    Cut maxColumns curLine (cutLine curLine maxColumns) := by
  have bounded : maxColumns.toNat < npos := by
    have := maxColumns.toNat_lt
    unfold npos
    omega
  rw [cutLine]
  by_cases breaks : indexOf curLine '\n' ≤ maxColumns.toNat
  · rw [if_pos breaks]
    by_cases member : '\n' ∈ curLine
    · obtain ⟨line, rest, rfl, clean⟩ := List.eq_append_cons_of_mem member
      rw [indexOf_eq clean] at breaks ⊢
      exact .newline clean breaks
    · rw [indexOf_none member] at breaks
      omega
  rw [if_neg breaks]
  have later : '\n' ∈ curLine → ∃ line rest, curLine = line ++ '\n' :: rest ∧
      maxColumns.toNat < line.length ∧ '\n' ∉ line := by
    intro member
    obtain ⟨line, rest, rfl, clean⟩ := List.eq_append_cons_of_mem member
    rw [indexOf_eq clean, not_le] at breaks
    exact ⟨line, rest, rfl, breaks, clean⟩
  have long : maxColumns.toNat < curLine.length := by
    rcases goes with long | hasBreak
    · exact long
    · have member : '\n' ∈ curLine := by
        by_contra missing
        exact hasBreak (indexOf_none missing)
      obtain ⟨line, rest, rfl, long, -⟩ := later member
      rw [List.length_append]
      omega
  have clean : '\n' ∉ curLine.take (maxColumns.toNat + 1) := by
    intro member
    obtain ⟨line, rest, rfl, long, clean⟩ := later (List.mem_of_mem_take member)
    rw [List.take_append_of_le_length long] at member
    exact clean (List.mem_of_mem_take member)
  rcases lastIndexOf_spec long bounded.ne with ⟨-, none⟩ | ⟨i, less, found, isSpace, last⟩
  · -- The line starts with a space.
    rw [List.head?_eq_getElem?] at starts
    exact absurd starts (none 0 (Nat.zero_le _))
  · rw [found]
    by_cases behind : numOptionColumns < i
    · rw [if_pos behind]
      exact cut_space less behind isSpace clean
    · rw [if_neg behind]
      exact cut_middle wide long clean fun j greater less =>
        last j (by omega) less

/-- Words up to this length are never cut. -/
def wordLimit (maxColumns : UInt32) : Nat := maxColumns.toNat - (numOptionColumns + 1)

/-- A line break weighs as much as the spaces in front of the next line. -/
def weight (text : Text) : Nat := numOptionColumns * text.count '\n' + text.length

theorem weight_append (first second : Text) :
    weight (first ++ second) = weight first + weight second := by
  simp only [weight, List.count_append, List.length_append, Nat.mul_add]
  omega

theorem weight_of_clean (clean : '\n' ∉ line) : weight line = line.length := by
  rw [weight, List.count_eq_zero_of_not_mem clean, Nat.mul_zero, Nat.zero_add]

theorem substring_front (fits : line.length ≤ maxColumns.toNat) (rest : Text) :
    substring (line ++ rest) 0 line.length = line := by
  have small := maxColumns.toNat_lt
  rw [substring, if_neg (by unfold npos; omega), List.drop_zero, List.take_left]

theorem substring_rest (line rest : Text) : substring (line ++ rest) line.length npos = rest := by
  rw [substring, if_pos rfl, List.drop_left]

/-- A cut gives a line that fits and a rest that weighs less, and the words of both. -/
theorem Cut.parts (wide : numOptionColumns < maxColumns.toNat) {cut : Nat × Nat}
    (cuts : Cut maxColumns curLine cut) : ∃ line rest, substring curLine 0 cut.1 = line ∧
      substring curLine cut.2 npos = rest ∧ '\n' ∉ line ∧ line.length ≤ maxColumns.toNat ∧
        numOptionColumns + weight rest < weight curLine ∧
          Breaks (wordLimit maxColumns) (words isBlank curLine)
            (words isBlank line ++ words isBlank rest) := by
  cases cuts with
  | @newline line rest clean fits =>
      refine ⟨line, rest, substring_front fits _, ?_, clean, fits, ?_, ?_⟩
      · simpa using substring_rest (line ++ ['\n']) rest
      · rw [weight_append, ← List.singleton_append, weight_append]
        have one : weight ['\n'] = numOptionColumns + 1 := rfl
        omega
      · rw [words_blank rfl]
        exact .refl _
  | @space line rest clean fits behind =>
      refine ⟨line, rest, substring_front fits _, ?_, clean, fits, ?_, ?_⟩
      · simpa using substring_rest (line ++ [' ']) rest
      · rw [weight_append, ← List.singleton_append, weight_append, weight_of_clean clean]
        omega
      · rw [words_blank rfl]
        exact .refl _
  | @middle front run rest clean full letters long =>
      refine ⟨front ++ run, rest, ?_, ?_, clean, full.le, ?_, breaks_cut letters long rest⟩
      · rw [← full]
        exact substring_front full.le rest
      · rw [← full]
        exact substring_rest (front ++ run) rest
      · rw [weight_append, weight_of_clean clean, full]
        omega

/-- The usage so far is lines that fit, each with its line break. -/
structure Written (maxColumns : UInt32) (usage : Text) : Prop where
  ends : ∃ before, usage = before ++ ['\n']
  fits : ∀ line ∈ usage.splitOn '\n', line.length ≤ maxColumns.toNat

namespace Written

variable (written : Written maxColumns usage)
include written

theorem append_line (clean : '\n' ∉ line) (fits : line.length ≤ maxColumns.toNat) :
    Written maxColumns (usage ++ (line ++ ['\n'])) := by
  obtain ⟨before, rfl⟩ := written.ends
  have old := written.fits
  refine ⟨⟨before ++ ['\n'] ++ line, by simp⟩, ?_⟩
  have split : (before ++ ['\n'] ++ (line ++ ['\n'])).splitOn '\n' =
      before.splitOn '\n' ++ ([line] ++ [[]]) := by
    rw [List.append_assoc, List.singleton_append, List.splitOn_append_cons_self,
      List.splitOn_append_cons_self, List.splitOn_eq_singleton clean, List.splitOn_nil]
  rw [List.splitOn_append_cons_self] at old
  rw [split]
  intro part member
  rcases List.mem_append.mp member with before | last
  · exact old part (List.mem_append_left _ before)
  · rcases List.mem_cons.mp last with rfl | empty
    · exact fits
    · obtain rfl := List.mem_singleton.mp empty
      exact Nat.zero_le _

theorem words_append (text : Text) :
    words isBlank (usage ++ text) = words isBlank usage ++ words isBlank text := by
  obtain ⟨before, rfl⟩ := written.ends
  apply words_append_endsBlank
  intro letter last
  obtain rfl : '\n' = letter := by simpa using last
  rfl

theorem words_line (line : Text) : words isBlank (usage ++ (line ++ ['\n'])) =
    words isBlank usage ++ words isBlank line := by
  rw [written.words_append, words_blank rfl, words_nil, List.append_nil]

/-- The line break around a grouping adds an empty line. -/
theorem groupingNewline (option : DescribedOption) :
    Written maxColumns (usage ++ option.groupingNewline) ∧
      words isBlank (usage ++ option.groupingNewline) = words isBlank usage := by
  rw [DescribedOption.groupingNewline]
  split
  next =>
    refine ⟨?_, ?_⟩
    · show Written maxColumns (usage ++ ([] ++ ['\n']))
      exact written.append_line List.not_mem_nil (Nat.zero_le _)
    · exact (written.words_line []).trans (List.append_nil _)
  next =>
    rw [List.append_nil]
    exact ⟨written, rfl⟩

end Written

/-- The loop has written whole lines, and it has the words of the line it started with. -/
structure Wrapping (maxColumns : UInt32) (all : List Text) (state : Text × Text) : Prop where
  written : Written maxColumns state.1
  starts : state.2.head? = some ' '
  broken : Breaks (wordLimit maxColumns) all
    (words isBlank state.1 ++ words isBlank state.2)

variable {argtype : EArgumentTypeFlag} {all : List Text} {state later result : Text × Text}

theorem replicate_space {count : Nat} (positive : 0 < count) :
    (List.replicate count ' ').head? = some ' ' ∧ weight (List.replicate count ' ') = count ∧
      ∀ letter ∈ List.replicate count ' ', isBlank letter = true := by
  have isSpace : ∀ letter ∈ List.replicate count ' ', letter = ' ' := fun _ =>
    List.eq_of_mem_replicate
  refine ⟨by rw [List.head?_replicate, if_neg positive.ne'], ?_, ?_⟩
  · rw [weight_of_clean, List.length_replicate]
    intro member
    cases isSpace _ member
  · intro letter member
    rw [isSpace letter member]
    rfl

theorem initialIndent_eq : initialIndent = List.replicate 2 ' ' := rfl

/-- The spaces in front of the next line. -/
theorem spaces_blank (argtype : EArgumentTypeFlag) :
    let spaces := if argtype = .grouping then initialIndent else optionSpaces
    spaces.head? = some ' ' ∧ weight spaces ≤ numOptionColumns ∧
      ∀ letter ∈ spaces, isBlank letter = true := by
  by_cases grouping : argtype = .grouping
  · rw [if_pos grouping, initialIndent_eq]
    obtain ⟨head, isWeight, blanks⟩ := replicate_space Nat.two_pos
    exact ⟨head, isWeight.trans_le (by unfold numOptionColumns; omega), blanks⟩
  · rw [if_neg grouping, optionSpaces]
    obtain ⟨head, isWeight, blanks⟩ :=
      @replicate_space numOptionColumns (by unfold numOptionColumns; omega)
    exact ⟨head, isWeight.le, blanks⟩

theorem Wrapping.step (wide : numOptionColumns < maxColumns.toNat)
    (wrapping : Wrapping maxColumns all state)
    (goes : wrapBody argtype maxColumns state = .next later) :
    Wrapping maxColumns all later ∧ weight later.2 < weight state.2 := by
  obtain ⟨usage, curLine⟩ := state
  obtain ⟨written, starts, broken⟩ := wrapping
  rw [wrapBody] at goes
  split at goes
  next tooLong =>
    have cut := cutLine_cut wide starts tooLong
    generalize cutLine curLine maxColumns = indexes at goes cut
    obtain ⟨line, rest, cuts, begins, clean, fits, lighter, breaks⟩ := cut.parts wide
    obtain ⟨head, light, blank⟩ := spaces_blank argtype
    obtain rfl := Loop.Iteration.next.inj goes
    simp only [cuts, begins]
    refine ⟨⟨written.append_line clean fits, ?_, ?_⟩, ?_⟩
    · simp [head]
    · rw [written.words_line, words_blanks blank, List.append_assoc]
      exact broken.trans ((Breaks.refl _).append breaks)
    · rw [weight_append]
      dsimp only at lighter ⊢
      omega
  next => cases goes

theorem Wrapping.stop (wrapping : Wrapping maxColumns all state)
    (stops : wrapBody argtype maxColumns state = .stop result) :
    Wrapping maxColumns all result ∧ '\n' ∉ result.2 ∧ result.2.length ≤ maxColumns.toNat := by
  obtain ⟨usage, curLine⟩ := state
  rw [wrapBody] at stops
  split at stops
  next => cases stops
  next short =>
    rw [not_or, not_lt, not_not] at short
    obtain rfl := Loop.Iteration.stop.inj stops
    refine ⟨wrapping, ?_, short.1⟩
    intro member
    obtain ⟨line, rest, same, clean⟩ := List.eq_append_cons_of_mem member
    have isIndex := indexOf_eq clean rest
    have inside : line.length < curLine.length := by
      simp only at same
      rw [same, List.length_append, List.length_cons]
      omega
    have small := maxColumns.toNat_lt
    rw [← same, short.2] at isIndex
    unfold npos at isIndex
    omega

variable (argtype) in
/-- The loop ends, with the usage and a last line that fits. -/
theorem Wrapping.returns (wide : numOptionColumns < maxColumns.toNat)
    (wrapping : Wrapping maxColumns all state) : ∃ result,
      Loop.Returns (wrapBody argtype maxColumns) state result ∧
        Wrapping maxColumns all result ∧ '\n' ∉ result.2 ∧
          result.2.length ≤ maxColumns.toNat :=
  Loop.returns_of_invariant (fun state => weight state.2)
    (fun _ _ wrapping goes => wrapping.step wide goes)
    (fun _ _ wrapping stops => wrapping.stop stops) wrapping

section Options

variable (parser : CmdLineParser) {option : DescribedOption} {visibility : EUsageVisibilityFlag}

/-- A shown option adds lines that fit and the words of its line. -/
theorem appendUsage_shown (wide : numOptionColumns < maxColumns.toNat)
    (shown : option.isShown visibility = true) (written : Written maxColumns usage)
    (broken : Breaks (wordLimit maxColumns) all (words isBlank usage)) :
    ∃ text, (∃ enough, ∀ fuel, enough ≤ fuel →
        parser.appendUsage option maxColumns visibility fuel usage = some text) ∧
      Written maxColumns text ∧
        Breaks (wordLimit maxColumns) (all ++ words isBlank (parser.usageLine option))
          (words isBlank text) := by
  obtain ⟨begun, same⟩ := written.groupingNewline option
  have wrapping : Wrapping maxColumns (all ++ words isBlank (parser.usageLine option))
      (usage ++ option.groupingNewline, parser.usageLine option) := {
    written := begun
    starts := rfl
    broken := by
      rw [same]
      exact broken.append (.refl _) }
  obtain ⟨⟨wrapped, curLine⟩, ⟨enough, runs⟩, ⟨lines, _, pieces⟩, clean, fits⟩ :=
    wrapping.returns option.argtype wide
  obtain ⟨ended, unchanged⟩ := (lines.append_line clean fits).groupingNewline option
  refine ⟨wrapped ++ (curLine ++ ['\n']) ++ option.groupingNewline, ⟨enough, ?_⟩, ended, ?_⟩
  · intro fuel more
    rw [CmdLineParser.appendUsage, if_pos shown, Loop.run_mono more runs]
    rfl
  · rw [unchanged, lines.words_line]
    exact pieces

/-- The usage of some options ends, with lines that fit and the words of the shown ones. -/
theorem foldlM_appendUsage (wide : numOptionColumns < maxColumns.toNat)
    (options : List DescribedOption) : ∀ usage all, Written maxColumns usage →
      Breaks (wordLimit maxColumns) all (words isBlank usage) →
      ∃ text, (∃ enough, ∀ fuel, enough ≤ fuel → options.foldlM (fun usage option =>
          parser.appendUsage option maxColumns visibility fuel usage) usage = some text) ∧
        Written maxColumns text ∧
          Breaks (wordLimit maxColumns)
            (all ++ (options.filter fun option => option.isShown visibility).flatMap fun option =>
              words isBlank (parser.usageLine option))
            (words isBlank text) := by
  induction options with
  | nil =>
      intro usage all written broken
      refine ⟨usage, ⟨0, fun _ _ => rfl⟩, written, ?_⟩
      simpa using broken
  | cons option rest ih =>
      intro usage all written broken
      cases shown : option.isShown visibility with
      | true =>
          obtain ⟨between, ⟨first, appends⟩, lines, pieces⟩ :=
            appendUsage_shown parser wide shown written broken
          obtain ⟨text, ⟨second, goes⟩, ended, morePieces⟩ := ih between _ lines pieces
          refine ⟨text, ⟨max first second, ?_⟩, ended, ?_⟩
          · intro fuel more
            rw [List.foldlM_cons, appends fuel (le_of_max_le_left more)]
            exact goes fuel (le_of_max_le_right more)
          · rw [List.filter_cons, if_pos shown, List.flatMap_cons, ← List.append_assoc]
            exact morePieces
      | false =>
          obtain ⟨text, ⟨enough, goes⟩, ended, pieces⟩ := ih usage all written broken
          refine ⟨text, ⟨enough, ?_⟩, ended, ?_⟩
          · intro fuel more
            rw [List.foldlM_cons, CmdLineParser.appendUsage, if_neg (by simp [shown])]
            exact goes fuel more
          · rw [List.filter_cons, if_neg (by simp [shown])]
            exact pieces

variable (option) in
/-- The words of the names, of the description and of the default of an option. -/
def CmdLineParser.usageWords : List Text :=
  words isBlank (parser.usageNames option) ++
    (words isBlank option.description ++ words isBlank option.defaultNote)

variable (option) in
theorem defaultNote_startsBlank : StartsBlank isBlank option.defaultNote := by
  intro letter first
  rw [DescribedOption.defaultNote] at first
  split at first
  next =>
    obtain rfl : ' ' = letter := Option.some.inj first
    rfl
  next => cases first

/-- An option that is not a grouping has at least one space in front of its description. -/
theorem usagePadding_blank (isOption : option.argtype ≠ .grouping) (names : Text) :
    (CmdLineParser.usagePadding option names).head? = some ' ' ∧
      ∀ letter ∈ CmdLineParser.usagePadding option names, isBlank letter = true := by
  obtain ⟨count, positive, same⟩ : ∃ count, 0 < count ∧
      CmdLineParser.usagePadding option names = List.replicate count ' ' := by
    rw [CmdLineParser.usagePadding, if_neg isOption]
    split
    next => exact ⟨1, Nat.one_pos, rfl⟩
    next short =>
      refine ⟨numOptionColumns - names.length, by omega, ?_⟩
      rw [substring, if_neg (by unfold npos numOptionColumns; omega), List.drop_zero,
        optionSpaces, List.take_replicate, Nat.min_eq_left (Nat.sub_le _ _)]
  obtain ⟨starts, -, blanks⟩ := replicate_space positive
  rw [same]
  exact ⟨starts, blanks⟩

/-- The parts of a line are separated by spaces. -/
theorem usageLine_words (nameless : option.argtype = .grouping →
      option.longopt = [] ∧ option.shortopt = noShortopt) :
    words isBlank (parser.usageLine option) = parser.usageWords option := by
  have indent : ∀ letter ∈ initialIndent, isBlank letter = true := by
    rw [initialIndent_eq]
    exact (replicate_space Nat.two_pos).2.2
  have note := defaultNote_startsBlank option
  rw [CmdLineParser.usageLine, CmdLineParser.usageWords, words_append_startsBlank _ note,
    ← List.append_assoc (words isBlank _)]
  congr 1
  by_cases grouping : option.argtype = .grouping
  · obtain ⟨noLong, noShort⟩ := nameless grouping
    have noNames : parser.usageNames option = [] := by
      simp [CmdLineParser.usageNames, noLong, noShort, DescribedOption.argumentMark, grouping]
    rw [noNames, CmdLineParser.usagePadding, if_pos grouping, words_nil, List.append_nil,
      List.append_nil, words_blanks indent, List.nil_append]
  · obtain ⟨starts, blanks⟩ :=
      usagePadding_blank grouping (initialIndent ++ parser.usageNames option)
    have behind : StartsBlank isBlank (CmdLineParser.usagePadding option
        (initialIndent ++ parser.usageNames option) ++ option.description) := by
      intro letter first
      rw [List.head?_append, starts] at first
      obtain rfl : ' ' = letter := Option.some.inj first
      rfl
    rw [List.append_assoc, words_append_startsBlank _ behind, words_blanks blanks,
      words_blanks indent]

end Options

/-- The usage ends, no line of it is longer than the width, and its words are the ones of the shown
options in order, of which only those longer than the limit are broken. -/
def WrapsWithin (parser : CmdLineParser) (options : List DescribedOption) (maxColumns : UInt32)
    (visibility : EUsageVisibilityFlag) : Prop :=
  ∃ text, (∃ enough, ∀ fuel, enough ≤ fuel →
      parser.getUsage options maxColumns visibility fuel = some text) ∧
    (∀ line ∈ text.splitOn '\n', line.length ≤ maxColumns.toNat) ∧
      Breaks (wordLimit maxColumns) ("Options:".toList ::
        (options.filter fun option => option.isShown visibility).flatMap parser.usageWords)
          (words isBlank text)

/-- A grouping that is verified has no names. -/
theorem addOptions_nameless {equalsIgnoreCase : Text → Text → Bool}
    {parser loaded : FlaggedParser} (table : List ParserOption)
    (adds : parser.addOptions equalsIgnoreCase table = .ok loaded) :
    ∀ option ∈ table, option.argtype = .grouping →
      option.longopt = [] ∧ option.shortopt = noShortopt := by
  induction table generalizing parser with
  | nil => exact fun option member => absurd member List.not_mem_nil
  | cons first rest ih =>
      rw [FlaggedParser.addOptions, List.foldlM_cons, bind_eq_ok] at adds
      obtain ⟨between, adds, later⟩ := adds
      intro option member grouping
      rcases List.mem_cons.mp member with rfl | old
      · rw [FlaggedParser.addOptionWithID, bind_eq_ok] at adds
        obtain ⟨_, verifies, _⟩ := adds
        unfold FlaggedParser.verifyOptionValidity at verifies
        simp only [bind_eq_ok, reject_eq_ok] at verifies
        obtain ⟨_, _, _, names, _⟩ := verifies
        exact ⟨by by_contra long; exact names ⟨grouping, .inl long⟩,
          by by_contra short; exact names ⟨grouping, .inr short⟩⟩
      · exact ih later option old grouping

/-- The usage of every table wraps within every width behind the option column. -/
theorem getUsage_wraps (equalsIgnoreCase : Text → Text → Bool) (parser : FlaggedParser)
    (accepted : FlaggedParser.Accepted equalsIgnoreCase parser) (options : List DescribedOption)
    (described : options.map (·.toParserOption) = parser.m_options)
    (maxColumns : UInt32) (wide : numOptionColumns < maxColumns.toNat)
    (visibility : EUsageVisibilityFlag) :
    WrapsWithin parser.toCmdLineParser options maxColumns visibility := by
  have begun : Written maxColumns "Options:\n".toList := by
    have split : "Options:\n".toList.splitOn '\n' = ["Options:".toList, []] := by decide
    refine ⟨⟨"Options:".toList, rfl⟩, ?_⟩
    rw [split]
    intro line member
    have short : line.length ≤ numOptionColumns := by
      rcases List.mem_pair.mp member with rfl | rfl <;> decide
    exact short.trans wide.le
  obtain ⟨text, ends, written, pieces⟩ := foldlM_appendUsage parser.toCmdLineParser wide options
    _ ["Options:".toList] begun (.refl _)
  refine ⟨text, ends, written.fits, ?_⟩
  have same : ((options.filter fun option => option.isShown visibility).flatMap fun option =>
      words isBlank (parser.usageLine option)) =
        (options.filter fun option => option.isShown visibility).flatMap parser.usageWords := by
    apply List.flatMap_congr
    intro option member
    have inTable : option.toParserOption ∈ parser.m_options := by
      rw [← described]
      exact List.mem_map_of_mem (List.mem_of_mem_filter member)
    exact usageLine_words parser.toCmdLineParser
      (addOptions_nameless _ accepted option.toParserOption inTable)
  rw [← same]
  exact pieces

/-- An option with a word that is longer than twelve columns. -/
def longWordOption : DescribedOption :=
  { fileOption with description := "abcdefghijklmnop".toList, visibility := .visible }

/-- The parser with the default prefixes and without the case, for some options. -/
def describedDashes (options : List DescribedOption) : FlaggedParser :=
  { FlaggedParser.caselessDashes with m_options := options.map (·.toParserOption) }

theorem longWord_wraps :
    WrapsWithin (describedDashes [longWordOption]).toCmdLineParser [longWordOption] 40
      .showVisible :=
  getUsage_wraps asciiEqualsIgnoreCase (describedDashes [longWordOption])
    (by unfold FlaggedParser.Accepted; decide +kernel) [longWordOption] rfl 40 (by decide)
    .showVisible

section Narrow

variable {parser : CmdLineParser} {option : DescribedOption}

theorem usageLine_length (isOption : option.argtype ≠ .grouping) :
    numOptionColumns ≤ (parser.usageLine option).length := by
  have padded : numOptionColumns ≤ (initialIndent ++ parser.usageNames option).length +
      (CmdLineParser.usagePadding option (initialIndent ++ parser.usageNames option)).length := by
    rw [CmdLineParser.usagePadding, if_neg isOption]
    have all : (substring optionSpaces 0 1).length = 1 := rfl
    split
    next long =>
      rw [all]
      unfold numOptionColumns at *
      omega
    next short =>
      rw [substring, if_neg (by unfold npos numOptionColumns; omega), List.drop_zero,
        List.length_take, optionSpaces, List.length_replicate]
      omega
  rw [CmdLineParser.usageLine, List.length_append, List.length_append, List.length_append]
  omega

/-- In fewer columns than the names of the options have, the loop comes back to a line that is too
long. -/
theorem getUsage_narrow (narrow : maxColumns.toNat < numOptionColumns)
    {visibility : EUsageVisibilityFlag} {options : List DescribedOption}
    (member : option ∈ options) (isOption : option.argtype ≠ .grouping)
    (shown : option.isShown visibility = true) (fuel : Nat) :
    parser.getUsage options maxColumns visibility fuel = none := by
  have never (state : Text × Text) (long : numOptionColumns ≤ state.2.length) :
      Loop.run (wrapBody option.argtype maxColumns) fuel state = none := by
    rw [Option.eq_none_iff_forall_ne_some]
    intro result runs
    apply @Loop.not_returns_of_recurrence _ _ _
      (fun state : Text × Text => numOptionColumns ≤ state.2.length) ?_ _ long result ⟨fuel, runs⟩
    rintro ⟨usage, curLine⟩ again
    refine ⟨_, _, .start, if_pos (.inl (by dsimp only at again; omega)), ?_⟩
    rw [if_neg isOption, List.length_append]
    exact Nat.le_add_right_of_le (by decide)
  obtain ⟨before, after, rfl⟩ := List.append_of_mem member
  rw [CmdLineParser.getUsage, List.foldlM_append]
  cases front : before.foldlM (fun usage option =>
      parser.appendUsage option maxColumns visibility fuel usage) "Options:\n".toList with
  | none => rfl
  | some usage =>
      rw [Option.bind_eq_bind, Option.bind_some, List.foldlM_cons, CmdLineParser.appendUsage,
        if_pos shown, never _ (usageLine_length isOption)]
      rfl

theorem getUsage_narrow_longWord :
    (describedDashes [longWordOption]).toCmdLineParser.getUsage [longWordOption] 10 .showVisible
      100 = none :=
  getUsage_narrow (by decide) (List.mem_singleton_self _) (by decide) (by decide) 100

end Narrow

section Fuel

variable {parser : CmdLineParser} {visibility : EUsageVisibilityFlag} {enough more : Nat}
  {text : Text}

/-- More fuel does not change the usage. -/
theorem appendUsage_mono (le : enough ≤ more) {option : DescribedOption}
    (appends : parser.appendUsage option maxColumns visibility enough usage = some text) :
    parser.appendUsage option maxColumns visibility more usage = some text := by
  rw [CmdLineParser.appendUsage] at appends ⊢
  split at appends
  next shown =>
    rw [if_pos shown]
    obtain ⟨result, runs, ends⟩ := Option.bind_eq_some_iff.mp appends
    exact Option.bind_eq_some_iff.mpr ⟨result, Loop.run_mono le runs, ends⟩
  next hidden =>
    rw [if_neg hidden]
    exact appends

theorem foldlM_appendUsage_mono (le : enough ≤ more) (options : List DescribedOption) :
    ∀ usage, options.foldlM (fun usage option =>
        parser.appendUsage option maxColumns visibility enough usage) usage = some text →
      options.foldlM (fun usage option =>
        parser.appendUsage option maxColumns visibility more usage) usage = some text := by
  induction options with
  | nil => exact fun _ same => same
  | cons option rest ih =>
      intro usage runs
      rw [List.foldlM_cons] at runs ⊢
      obtain ⟨between, appends, later⟩ := Option.bind_eq_some_iff.mp runs
      exact Option.bind_eq_some_iff.mpr ⟨between, appendUsage_mono le appends, ih between later⟩

end Fuel

/-- The usage ends, and every word of every description is in it. -/
def ShowsWords (parser : CmdLineParser) (options : List DescribedOption) (maxColumns : UInt32)
    (visibility : EUsageVisibilityFlag) : Prop :=
  ∃ text, (∃ enough, ∀ fuel, enough ≤ fuel →
      parser.getUsage options maxColumns visibility fuel = some text) ∧
    ∀ option ∈ options, ∀ word ∈ words isBlank option.description, word <:+: text

theorem not_showsWords {parser : CmdLineParser} {option : DescribedOption}
    {visibility : EUsageVisibilityFlag} (word : Text) (fuel : Nat)
    (member : word ∈ words isBlank option.description)
    (missing : (parser.getUsage [option] maxColumns visibility fuel).map
      (fun text => decide (word <:+: text)) = some false) :
    ¬ ShowsWords parser [option] maxColumns visibility := by
  rintro ⟨text, ⟨enough, ends⟩, shows⟩
  obtain ⟨other, runs, lacks⟩ := Option.map_eq_some_iff.mp missing
  have same := (foldlM_appendUsage_mono (le_max_right enough fuel) [option] _ runs).symm.trans
    (ends (max enough fuel) (le_max_left enough fuel))
  obtain rfl := Option.some.inj same
  exact of_decide_eq_false lacks (shows option List.mem_cons_self word member)

/-- An option with names of 28 columns. -/
def longNameOption : DescribedOption :=
  { verboseOption with
    shortopt := noShortopt
    longopt := "abcdefghijklmnopqrstuvwx".toList
    description := "ABCDEFGHIJKL".toList
    visibility := .visible }

def hiddenOption : DescribedOption :=
  { verboseOption with description := "hidden".toList, visibility := .notVisible }

/-- In 40 columns a word of 16 letters is cut, and one of 12 letters behind names of 28 columns. A
hidden option is left out. -/
theorem words_cut :
    (FlaggedParser.Accepted asciiEqualsIgnoreCase (describedDashes [longWordOption]) ∧
      ¬ ShowsWords (describedDashes [longWordOption]).toCmdLineParser [longWordOption] 40
        .showVisible) ∧
    (FlaggedParser.Accepted asciiEqualsIgnoreCase (describedDashes [longNameOption]) ∧
      ¬ ShowsWords (describedDashes [longNameOption]).toCmdLineParser [longNameOption] 40
        .showVisible) ∧
    (FlaggedParser.Accepted asciiEqualsIgnoreCase (describedDashes [hiddenOption]) ∧
      ¬ ShowsWords (describedDashes [hiddenOption]).toCmdLineParser [hiddenOption] 40
        .showVisible) := by
  refine ⟨⟨by unfold FlaggedParser.Accepted; decide +kernel, ?_⟩,
    ⟨by unfold FlaggedParser.Accepted; decide +kernel, ?_⟩,
    ⟨by unfold FlaggedParser.Accepted; decide +kernel, ?_⟩⟩
  · exact not_showsWords "abcdefghijklmnop".toList 3 (by decide +kernel) (by decide +kernel)
  · exact not_showsWords "ABCDEFGHIJKL".toList 3 (by decide +kernel) (by decide +kernel)
  · exact not_showsWords "hidden".toList 1 (by decide +kernel) (by decide +kernel)

end Blocxx.CmdLineParsers
