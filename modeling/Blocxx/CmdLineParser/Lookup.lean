import Blocxx.CmdLineParser.CaseSensitivity
import Blocxx.CmdLineParser.RoundTrip

/-!
This file proves when each name in a verified table of options is the name of one option only, for
parsing and for `getOptionID`.
-/

namespace Blocxx.CmdLineParsers
open Library

/-- A comparison that ignores the case, on single characters as `toupper` does. -/
structure IgnoresCase (equalsIgnoreCase : Text → Text → Bool) : Prop where
  refl : ∀ text, equalsIgnoreCase text text = true
  single : ∀ first second : Char,
    equalsIgnoreCase [first] [second] = true ↔ first.toUpper = second.toUpper

def HasName (option : ParserOption) : Spelling → Prop
  | .long => option.longopt ≠ []
  | .short => option.shortopt ≠ noShortopt

instance (option : ParserOption) : DecidablePred (HasName option)
  | .long => inferInstanceAs (Decidable (option.longopt ≠ []))
  | .short => inferInstanceAs (Decidable (option.shortopt ≠ noShortopt))

/-- The name without its prefix. -/
def ParserOption.bareName (option : ParserOption) : Spelling → Text
  | .long => option.longopt
  | .short => [option.shortopt]

namespace FlaggedParser

variable (equalsIgnoreCase : Text → Text → Bool) (parser : FlaggedParser)

/-- The argument is a name of the option, with the long or with the short prefix. -/
def isNamed (typed : Text) (x : ParserOption) : Bool :=
  (parser.m_longOptionPrefix.isPrefixOf typed &&
    typed.drop parser.m_longOptionPrefix.length ≠ [] &&
      parser.longOptIs equalsIgnoreCase (typed.drop parser.m_longOptionPrefix.length) x) ||
  (typed = [parser.m_shortOptionPrefix, typed.getD 1 noShortopt] &&
    typed.getD 1 noShortopt ≠ noShortopt && parser.shortOptIs (typed.getD 1 noShortopt) x)

/-- The argument is read as this name, it is a name of no other option, and both searches find the
option. -/
structure Identifies (typed name : Text) (option : ParserOption) : Prop where
  read : (parser.splitArgument typed).baseOption = name
  alone : (parser.splitArgument typed).valueAttached = false
  only : parser.m_options.filter (parser.isNamed equalsIgnoreCase typed) = [option]
  parsed : parser.findOption equalsIgnoreCase (parser.splitArgument typed) = some option
  named : parser.findNamed equalsIgnoreCase typed = some option
  id : parser.getOptionID equalsIgnoreCase typed = .ok option.id

/-- Every name of the table identifies its option, and every option but a grouping has a name. -/
structure Unambiguous : Prop where
  identifies : ∀ option ∈ parser.m_options, ∀ spelling, HasName option spelling →
    parser.Identifies equalsIgnoreCase (parser.spell option spelling) (option.bareName spelling)
      option
  reachable : ∀ option ∈ parser.m_options, option.argtype ≠ .grouping →
    ∃ spelling, HasName option spelling

/-- What the checks of a table leave out. -/
structure Separate : Prop where
  spelled : ∀ option ∈ parser.m_options, ∀ spelling, HasName option spelling →
    Spelled parser.toCmdLineParser option spelling
  long : parser.m_options.Pairwise fun first second =>
    first.longopt ≠ [] → parser.longOptIs equalsIgnoreCase first.longopt second = false
  letters : parser.ambiguityExists = true → ∀ option ∈ parser.m_options,
    option.shortopt ≠ noShortopt → ∀ other ∈ parser.m_options, other.longopt.length ≠ 1 →
      parser.longOptIs equalsIgnoreCase [option.shortopt] other = true → other = option

/-- An option was checked against one in front of it. -/
structure Checked (first second : ParserOption) : Prop where
  long : second.longopt ≠ [] → parser.longOptIs equalsIgnoreCase second.longopt first = false
  short : second.shortopt ≠ noShortopt → parser.shortOptIs second.shortopt first = false
  letter : parser.ambiguityExists = true → ∀ letter, second.longopt = [letter] →
    parser.shortOptIs letter first = false
  name : parser.ambiguityExists = true → second.shortopt ≠ noShortopt →
    parser.longOptIs equalsIgnoreCase [second.shortopt] first = false

/-- The options of a parser that were all verified. -/
structure Verified : Prop where
  checked : parser.m_options.Pairwise (parser.Checked equalsIgnoreCase)
  reachable : ∀ option ∈ parser.m_options, option.argtype ≠ .grouping →
    ∃ spelling, HasName option spelling

variable {equalsIgnoreCase parser}
variable {loaded : FlaggedParser} {option other : ParserOption} {typed : Text}

theorem findLong_isSome {name : Text} :
    (parser.findLong equalsIgnoreCase name).isSome = true ↔
      ∃ x ∈ parser.m_options, parser.longOptIs equalsIgnoreCase name x = true := by
  simp [findLong]

theorem findShort_isSome {letter : Char} :
    (parser.findShort letter).isSome = true ↔
      ∃ x ∈ parser.m_options, parser.shortOptIs letter x = true := by
  simp [findShort]

/-- The checks of an option against the options in front of it. -/
theorem verifyOptionValidity_ok
    (verifies : parser.verifyOptionValidity equalsIgnoreCase option = .ok ()) :
    (option.argtype ≠ .grouping → ∃ spelling, HasName option spelling) ∧
      ∀ first ∈ parser.m_options, parser.Checked equalsIgnoreCase first option := by
  unfold verifyOptionValidity at verifies
  simp only [bind_eq_ok, reject_eq_ok, findLong_isSome, findShort_isSome] at verifies
  obtain ⟨_, nameless, _, _, _, long, _, letter, _, short, _, name, _⟩ := verifies
  refine ⟨?_, fun first member => ⟨?_, ?_, ?_, ?_⟩⟩
  · intro isOption
    by_cases named : option.longopt = []
    · exact ⟨.short, fun none => nameless ⟨isOption, named, none⟩⟩
    · exact ⟨.long, named⟩
  · intro named
    by_contra same
    exact long ⟨named, first, member, by simpa using same⟩
  · intro named
    by_contra same
    exact short ⟨named, first, member, by simpa using same⟩
  · intro ambiguous single isSingle
    by_contra same
    exact letter ⟨by simp [isSingle], ambiguous, by simp [isSingle], first, member,
      by simpa [isSingle] using same⟩
  · intro ambiguous named
    by_contra same
    exact name ⟨named, ambiguous, first, member, by simpa using same⟩

theorem Verified.addOptionWithID (verified : parser.Verified equalsIgnoreCase)
    (adds : parser.addOptionWithID equalsIgnoreCase option = .ok loaded) :
    loaded.Verified equalsIgnoreCase := by
  rw [FlaggedParser.addOptionWithID, bind_eq_ok] at adds
  obtain ⟨_, verifies, ends⟩ := adds
  obtain rfl := Except.ok.inj ends
  obtain ⟨named, checks⟩ := verifyOptionValidity_ok verifies
  constructor
  · rw [List.pairwise_append]
    refine ⟨?_, List.pairwise_singleton _ _, ?_⟩
    · exact verified.checked.imp fun checked =>
        ⟨checked.long, checked.short, checked.letter, checked.name⟩
    · intro first member second new
      rw [List.mem_singleton] at new
      subst new
      obtain ⟨long, short, letter, name⟩ := checks first member
      exact ⟨long, short, letter, name⟩
  · intro other member
    rw [List.mem_append, List.mem_singleton] at member
    rcases member with old | rfl
    · exact verified.reachable other old
    · exact named

/-- The options of a table that was added without an exception are verified. -/
theorem Verified.addOptions (verified : parser.Verified equalsIgnoreCase)
    (table : List ParserOption) (adds : parser.addOptions equalsIgnoreCase table = .ok loaded) :
    loaded.Verified equalsIgnoreCase := by
  induction table generalizing parser with
  | nil =>
      obtain rfl := Except.ok.inj adds
      exact verified
  | cons option rest ih =>
      rw [FlaggedParser.addOptions, List.foldlM_cons, bind_eq_ok] at adds
      obtain ⟨between, first, later⟩ := adds
      exact ih (verified.addOptionWithID first) later

theorem Verified.none (empty : parser.m_options = []) : parser.Verified equalsIgnoreCase where
  checked := by simp [empty]
  reachable := by simp [empty]

/-- The loaded options are those of the table. -/
theorem addOptions_options (table : List ParserOption)
    (adds : parser.addOptions equalsIgnoreCase table = .ok loaded) :
    loaded.m_options = parser.m_options ++ table := by
  induction table generalizing parser with
  | nil =>
      obtain rfl := Except.ok.inj adds
      exact (List.append_nil _).symm
  | cons option rest ih =>
      rw [FlaggedParser.addOptions, List.foldlM_cons, bind_eq_ok] at adds
      obtain ⟨between, first, later⟩ := adds
      rw [FlaggedParser.addOptionWithID, bind_eq_ok] at first
      obtain ⟨_, _, ends⟩ := first
      obtain rfl := Except.ok.inj ends
      rw [ih later]
      simp

section Matching

variable {name : Text} {letter : Char}

theorem longOptIs_self (ignores : IgnoresCase equalsIgnoreCase) :
    parser.longOptIs equalsIgnoreCase option.longopt option = true := by
  unfold longOptIs
  split
  · simp
  · exact ignores.refl _

theorem shortOptIs_self : parser.shortOptIs option.shortopt option = true := by
  unfold shortOptIs
  split <;> simp

/-- Two short options are compared the same way around. -/
theorem shortOptIs_comm : parser.shortOptIs option.shortopt other =
    parser.shortOptIs other.shortopt option := by
  unfold shortOptIs
  split <;> simp [eq_comm]

/-- A code from 97 to 122 that is moved down by 32 is not zero. -/
theorem moved_ne_zero {code moved : UInt32} (low : 97 ≤ code) (high : code ≤ 122)
    (moves : code + 4294967264 = moved) : moved ≠ 0 := by
  rintro rfl
  have sum := congrArg UInt32.toNat moves
  rw [UInt32.le_iff_toNat_le] at low high
  rw [UInt32.toNat_add] at sum
  change 97 ≤ code.toNat at low
  change code.toNat ≤ 122 at high
  change (code.toNat + 4294967264) % 4294967296 = 0 at sum
  omega

theorem toUpper_ne_noShortopt (isLetter : letter ≠ noShortopt) :
    letter.toUpper ≠ noShortopt.toUpper := by
  have zero : noShortopt.toUpper = noShortopt := by decide
  rw [zero]
  unfold Char.toUpper
  split
  next lower =>
    intro same
    have zeroCode := Char.ext_iff.mp same
    exact moved_ne_zero lower.1 lower.2 rfl zeroCode
  next => exact isLetter

/-- A letter is not the missing short option. -/
theorem shortOptIs_noShortopt (isLetter : letter ≠ noShortopt)
    (missing : option.shortopt = noShortopt) : parser.shortOptIs letter option = false := by
  unfold shortOptIs
  rw [missing]
  split
  · simp [isLetter]
  · simp [toUpper_ne_noShortopt isLetter]

/-- A long option of one letter is compared as a short one. -/
theorem longOptIs_letter (ignores : IgnoresCase equalsIgnoreCase)
    (single : option.longopt = [letter]) :
    parser.longOptIs equalsIgnoreCase [other.shortopt] option = parser.shortOptIs letter other := by
  unfold longOptIs shortOptIs
  split
  · simp [single, eq_comm]
  · rw [single, Bool.eq_iff_iff, ignores.single]
    simp [eq_comm]

theorem isNamed_iff : parser.isNamed equalsIgnoreCase typed option = true ↔
    (∃ name, name ≠ [] ∧ typed = parser.m_longOptionPrefix ++ name ∧
      parser.longOptIs equalsIgnoreCase name option = true) ∨
    ∃ letter, letter ≠ noShortopt ∧ typed = [parser.m_shortOptionPrefix, letter] ∧
      parser.shortOptIs letter option = true := by
  rw [isNamed, Bool.or_eq_true, Bool.and_eq_true, Bool.and_eq_true, List.isPrefixOf_iff_prefix]
  apply or_congr
  · constructor
    · rintro ⟨⟨⟨name, rfl⟩, named⟩, is⟩
      rw [List.drop_left] at named is
      exact ⟨name, by simpa using named, rfl, is⟩
    · rintro ⟨name, named, rfl, is⟩
      rw [List.drop_left]
      exact ⟨⟨List.prefix_append _ _, by simpa using named⟩, is⟩
  · rw [Bool.and_eq_true, Bool.and_eq_true, decide_eq_true_eq]
    constructor
    · rintro ⟨⟨short, isLetter⟩, is⟩
      exact ⟨_, by simpa using isLetter, short, is⟩
    · rintro ⟨letter, isLetter, rfl, is⟩
      exact ⟨⟨rfl, by simpa using isLetter⟩, is⟩

theorem isNamed_long (named : name ≠ [])
    (is : parser.longOptIs equalsIgnoreCase name option = true) :
    parser.isNamed equalsIgnoreCase (parser.m_longOptionPrefix ++ name) option = true :=
  isNamed_iff.mpr (.inl ⟨name, named, rfl, is⟩)

theorem isNamed_short (isLetter : letter ≠ noShortopt)
    (is : parser.shortOptIs letter option = true) :
    parser.isNamed equalsIgnoreCase [parser.m_shortOptionPrefix, letter] option = true :=
  isNamed_iff.mpr (.inr ⟨letter, isLetter, rfl, is⟩)

end Matching

section Identification

/-- An element that no other one equals is the only one that is left. -/
theorem filter_eq_singleton {Element : Type} {elements : List Element} {wanted : Element → Bool}
    {element : Element} (member : element ∈ elements) (holds : wanted element = true)
    (others : elements.Pairwise fun first second =>
      (second = element → wanted first = false) ∧ (first = element → wanted second = false)) :
    elements.filter wanted = [element] := by
  obtain ⟨before, after, rfl⟩ := List.append_of_mem member
  rw [List.pairwise_append, List.pairwise_cons] at others
  obtain ⟨-, ⟨later, -⟩, earlier⟩ := others
  have none : before.filter wanted = [] := by
    rw [List.filter_eq_nil_iff]
    intro first old
    rw [(earlier first old element List.mem_cons_self).1 rfl]
    exact Bool.false_ne_true
  have none' : after.filter wanted = [] := by
    rw [List.filter_eq_nil_iff]
    intro second new
    rw [(later second new).2 rfl]
    exact Bool.false_ne_true
  rw [List.filter_append, none, List.filter_cons_of_pos holds, none', List.nil_append]

variable {name : Text} {letter : Char}

/-- A long name that is also a short option is a single letter behind the same prefix. -/
theorem single_of_isNamed (separate : parser.Separate equalsIgnoreCase)
    (member : option ∈ parser.m_options) (isLetter : letter ≠ noShortopt)
    (is : parser.shortOptIs letter option = true) (named : name ≠ [])
    (typed : parser.m_longOptionPrefix ++ name = [parser.m_shortOptionPrefix, letter]) :
    parser.ambiguityExists = true ∧ name = [letter] ∧ option.shortopt ≠ noShortopt := by
  have hasName : option.shortopt ≠ noShortopt := by
    intro missing
    rw [shortOptIs_noShortopt isLetter missing] at is
    exact Bool.false_ne_true is
  obtain ⟨-, -, apart⟩ := separate.spelled option member .short hasName
  cases long : parser.m_longOptionPrefix with
  | nil =>
      have ambiguous := apart (by rw [long]; exact List.nil_prefix)
      rw [ambiguityExists_iff, long] at ambiguous
      cases ambiguous
  | cons first rest =>
      rw [long, List.cons_append, List.cons.injEq, List.append_eq_singleton_iff] at typed
      obtain ⟨rfl, ⟨rfl, single⟩ | ⟨-, none⟩⟩ := typed
      · exact ⟨ambiguityExists_iff.mpr long, single, hasName⟩
      · exact absurd none named

theorem filter_long (ignores : IgnoresCase equalsIgnoreCase)
    (verified : parser.Verified equalsIgnoreCase) (separate : parser.Separate equalsIgnoreCase)
    (member : option ∈ parser.m_options) (named : option.longopt ≠ []) :
    parser.m_options.filter (parser.isNamed equalsIgnoreCase (parser.longName option)) =
      [option] := by
  apply filter_eq_singleton member
  · exact isNamed_long named (longOptIs_self ignores)
  · apply (verified.checked.and separate.long).imp_of_mem
    intro first second firstMember secondMember ⟨checked, later⟩
    constructor
    · rintro rfl
      rw [Bool.eq_false_iff]
      intro other
      rcases isNamed_iff.mp other with ⟨name, -, same, is⟩ | ⟨letter, isLetter, same, is⟩
      · obtain rfl := List.append_cancel_left same
        exact Bool.false_ne_true ((checked.long named).symm.trans is)
      · obtain ⟨ambiguous, single, -⟩ :=
          single_of_isNamed separate firstMember isLetter is named same
        exact Bool.false_ne_true ((checked.letter ambiguous letter single).symm.trans is)
    · rintro rfl
      rw [Bool.eq_false_iff]
      intro other
      rcases isNamed_iff.mp other with ⟨name, -, same, is⟩ | ⟨letter, isLetter, same, is⟩
      · obtain rfl := List.append_cancel_left same
        exact Bool.false_ne_true ((later named).symm.trans is)
      · obtain ⟨ambiguous, single, hasName⟩ :=
          single_of_isNamed separate secondMember isLetter is named same
        have apart := checked.name ambiguous hasName
        rw [longOptIs_letter ignores single, is] at apart
        cases apart

theorem filter_short (ignores : IgnoresCase equalsIgnoreCase)
    (verified : parser.Verified equalsIgnoreCase) (separate : parser.Separate equalsIgnoreCase)
    (member : option ∈ parser.m_options) (named : option.shortopt ≠ noShortopt) :
    parser.m_options.filter (parser.isNamed equalsIgnoreCase (parser.shortName option)) =
      [option] := by
  apply filter_eq_singleton member
  · exact isNamed_short named shortOptIs_self
  · apply verified.checked.imp_of_mem
    intro first second firstMember secondMember checked
    constructor
    · rintro rfl
      rw [Bool.eq_false_iff]
      intro other
      rcases isNamed_iff.mp other with ⟨name, hasName, same, is⟩ | ⟨letter, isLetter, same, is⟩
      · obtain ⟨ambiguous, rfl, -⟩ :=
          single_of_isNamed separate member named shortOptIs_self hasName same.symm
        exact Bool.false_ne_true ((checked.name ambiguous named).symm.trans is)
      · obtain rfl : second.shortopt = letter := by simpa [CmdLineParser.shortName] using same
        exact Bool.false_ne_true ((checked.short named).symm.trans is)
    · rintro rfl
      rw [Bool.eq_false_iff]
      intro other
      rcases isNamed_iff.mp other with ⟨name, hasName, same, is⟩ | ⟨letter, isLetter, same, is⟩
      · obtain ⟨ambiguous, rfl, -⟩ :=
          single_of_isNamed separate member named shortOptIs_self hasName same.symm
        by_cases one : second.longopt.length = 1
        · obtain ⟨letter, single⟩ := List.length_eq_one_iff.mp one
          have apart := checked.letter ambiguous letter single
          rw [← longOptIs_letter ignores single, is] at apart
          cases apart
        · obtain rfl := separate.letters ambiguous first member named second secondMember one is
          exact Bool.false_ne_true ((checked.short named).symm.trans shortOptIs_self)
      · obtain rfl : first.shortopt = letter := by simpa [CmdLineParser.shortName] using same
        have hasName : second.shortopt ≠ noShortopt := by
          intro missing
          rw [shortOptIs_noShortopt isLetter missing] at is
          exact Bool.false_ne_true is
        have apart := checked.short hasName
        rw [shortOptIs_comm, is] at apart
        cases apart

theorem eq_of_only
    (only : parser.m_options.filter (parser.isNamed equalsIgnoreCase typed) = [option])
    (member : other ∈ parser.m_options)
    (isNamed : parser.isNamed equalsIgnoreCase typed other = true) : other = option := by
  have kept := List.mem_filter.mpr ⟨member, isNamed⟩
  rw [only] at kept
  exact List.mem_singleton.mp kept

/-- A search for a long name ends at the only option with that name. -/
theorem findLong_only (only : parser.m_options.filter (parser.isNamed equalsIgnoreCase
      (parser.m_longOptionPrefix ++ name)) = [option]) (named : name ≠ [])
    (found : parser.findLong equalsIgnoreCase name = some other) : other = option :=
  eq_of_only only (List.mem_of_find?_eq_some found) (isNamed_long named (List.find?_some found))

theorem findShort_only (only : parser.m_options.filter (parser.isNamed equalsIgnoreCase
      [parser.m_shortOptionPrefix, letter]) = [option]) (isLetter : letter ≠ noShortopt)
    (found : parser.findShort letter = some other) : other = option :=
  eq_of_only only (List.mem_of_find?_eq_some found)
    (isNamed_short isLetter (List.find?_some found))

theorem findLong_self (ignores : IgnoresCase equalsIgnoreCase)
    (member : option ∈ parser.m_options) (named : option.longopt ≠ [])
    (only : parser.m_options.filter (parser.isNamed equalsIgnoreCase (parser.longName option)) =
      [option]) : parser.findLong equalsIgnoreCase option.longopt = some option := by
  obtain ⟨other, found⟩ := Option.isSome_iff_exists.mp
    (findLong_isSome.mpr ⟨option, member, longOptIs_self ignores⟩)
  rw [found, findLong_only only named found]

theorem findShort_self (member : option ∈ parser.m_options)
    (named : option.shortopt ≠ noShortopt)
    (only : parser.m_options.filter (parser.isNamed equalsIgnoreCase (parser.shortName option)) =
      [option]) : parser.findShort option.shortopt = some option := by
  obtain ⟨other, found⟩ := Option.isSome_iff_exists.mp
    (findShort_isSome.mpr ⟨option, member, shortOptIs_self⟩)
  rw [found, findShort_only only named found]

theorem getOptionID_of_findNamed (typed : Text) (given : typed ≠ [])
    (found : parser.findNamed equalsIgnoreCase typed = some option) :
    parser.getOptionID equalsIgnoreCase typed = .ok option.id := by
  rw [getOptionID, if_neg given, found]

theorem Separate.identifies_long (separate : parser.Separate equalsIgnoreCase)
    (ignores : IgnoresCase equalsIgnoreCase) (verified : parser.Verified equalsIgnoreCase)
    (member : option ∈ parser.m_options) (named : option.longopt ≠ []) :
    parser.Identifies equalsIgnoreCase (parser.longName option) option.longopt option := by
  have only := filter_long ignores verified separate member named
  have found := findLong_self ignores member named only
  have spelled := separate.spelled option member .long named
  have split := splitArgument_long spelled none
  rw [CmdLineParser.tail, List.append_nil] at split
  have search : parser.findNamed equalsIgnoreCase (parser.longName option) = some option := by
    have starts : parser.m_longOptionPrefix <+: parser.longName option := List.prefix_append _ _
    have longer : parser.m_longOptionPrefix.length < (parser.longName option).length := by
      rw [CmdLineParser.longName, List.length_append]
      exact Nat.lt_add_of_pos_right (List.length_pos_of_ne_nil named)
    rw [findNamed, if_pos starts, if_pos longer, CmdLineParser.longName, List.drop_left, found]
  exact {
    read := by rw [split]
    alone := by rw [split]; rfl
    only := only
    parsed := by
      rw [split, findOption, longType]
      by_cases single : option.longopt.length = 1 ∧ parser.ambiguityExists = true
      · obtain ⟨letter, letters⟩ := List.length_eq_one_iff.mp single.1
        have isLetter : letter ≠ noShortopt := by
          rintro rfl
          exact spelled.2.1 (by simp [letters])
        rw [if_pos single]
        simp only [letters, List.headD_cons, single.2, if_true]
        cases short : parser.findShort letter with
        | none => rw [← letters]; exact found
        | some other =>
            rw [CmdLineParser.longName, letters, ambiguityExists_iff.mp single.2] at only
            rw [findShort_only only isLetter short]
      · rw [if_neg single]
        exact found
    named := search
    id := getOptionID_of_findNamed _ (by simp [CmdLineParser.longName, named]) search }

theorem Separate.identifies_short (separate : parser.Separate equalsIgnoreCase)
    (ignores : IgnoresCase equalsIgnoreCase) (verified : parser.Verified equalsIgnoreCase)
    (member : option ∈ parser.m_options) (named : option.shortopt ≠ noShortopt) :
    parser.Identifies equalsIgnoreCase (parser.shortName option) [option.shortopt] option := by
  have only := filter_short ignores verified separate member named
  have found := findShort_self member named only
  have spelled := separate.spelled option member .short named
  have split := splitArgument_short spelled none
  rw [CmdLineParser.tail, List.append_nil] at split
  have search : parser.findNamed equalsIgnoreCase (parser.shortName option) = some option := by
    rw [findNamed]
    by_cases starts : parser.m_longOptionPrefix <+: parser.shortName option
    · have ambiguous := spelled.2.2 starts
      have long := ambiguityExists_iff.mp ambiguous
      rw [CmdLineParser.shortName] at only starts ⊢
      rw [if_pos starts, if_pos (by simp [long]), long]
      cases hidden : parser.findLong equalsIgnoreCase [option.shortopt] with
      | none =>
          simp only [List.length_singleton, List.drop_one, List.tail_cons, hidden]
          rw [if_pos ⟨ambiguous, rfl⟩]
          exact found
      | some other =>
          simp only [List.length_singleton, List.drop_one, List.tail_cons, hidden]
          rw [findLong_only (by rw [long]; exact only) (by simp) hidden]
    · have switch : (parser.shortName option).head? = some parser.m_shortOptionPrefix := rfl
      have two : (parser.shortName option).length = 2 := rfl
      rw [if_neg starts, if_pos switch, if_pos two]
      exact found
  exact {
    read := by rw [split]
    alone := by rw [split]; rfl
    only := only
    parsed := by
      rw [split, findOption]
      simp only [List.headD_cons, found]
    named := search
    id := getOptionID_of_findNamed _ (List.cons_ne_nil _ _) search }

/-- An argument without an attached value has no separator. -/
theorem not_mem_of_alone (alone : (parser.splitArgument typed).valueAttached = false) :
    parser.m_valueSeparator ∉ typed := by
  intro member
  have short (baseOption value : Text) :
      (parser.splitShort typed baseOption value true).valueAttached = true := by
    rw [CmdLineParser.splitShort]
    split <;> rfl
  rw [CmdLineParser.splitArgument] at alone
  simp only [member, decide_true] at alone
  split at alone
  next =>
    split at alone
    next => exact Bool.false_ne_true (alone.symm.trans (short _ _))
    next => cases alone
  next =>
    split at alone
    next => exact Bool.false_ne_true (alone.symm.trans (short _ _))
    next => cases alone

/-- A short name that is read by its letter starts with the long prefix only if that is the short
one. -/
theorem ambiguous_of_read (alone : (parser.splitArgument (parser.shortName option)).valueAttached =
      false)
    (read : (parser.splitArgument (parser.shortName option)).baseOption = [option.shortopt])
    (starts : parser.m_longOptionPrefix <+: parser.shortName option) :
    parser.ambiguityExists = true := by
  by_contra apart
  obtain ⟨part, -, -⟩ := optionPart_append (not_mem_of_alone alone) none
  rw [CmdLineParser.tail, List.append_nil] at part
  rw [CmdLineParser.splitArgument] at read
  simp only [part] at read
  rw [if_pos starts, if_neg (fun both => apart both.2)] at read
  obtain ⟨rest, name⟩ := starts
  rw [← name, List.drop_left] at read
  subst read
  have same : parser.m_longOptionPrefix ++ [option.shortopt] =
      [parser.m_shortOptionPrefix] ++ [option.shortopt] := name
  exact apart (ambiguityExists_iff.mpr (List.append_cancel_right same))

theorem Unambiguous.separate (unambiguous : parser.Unambiguous equalsIgnoreCase)
    (ignores : IgnoresCase equalsIgnoreCase)
    (terminated : ∀ option ∈ parser.m_options, noShortopt ∉ option.longopt) :
    parser.Separate equalsIgnoreCase := by
  constructor
  · intro option member spelling named
    have identifies := unambiguous.identifies option member spelling named
    have clean := not_mem_of_alone identifies.alone
    cases spelling with
    | long => exact ⟨named, terminated option member, clean⟩
    | short => exact ⟨named, clean, ambiguous_of_read identifies.alone identifies.read⟩
  · rw [List.pairwise_iff_forall_sublist]
    intro first second both named
    have only := (unambiguous.identifies first (both.subset List.mem_cons_self) .long named).only
    rw [Bool.eq_false_iff]
    intro is
    have isFirst : parser.isNamed equalsIgnoreCase (parser.longName first) first = true :=
      isNamed_long named (longOptIs_self ignores)
    have isSecond : parser.isNamed equalsIgnoreCase (parser.longName first) second = true :=
      isNamed_long named is
    have kept := (both.filter
      (parser.isNamed equalsIgnoreCase (parser.longName first))).length_le
    rw [List.filter_cons_of_pos isFirst, List.filter_cons_of_pos isSecond] at kept
    rw [CmdLineParser.spell] at only
    rw [only] at kept
    simp at kept
  · intro ambiguous option member named other otherMember _ is
    have identifies := unambiguous.identifies option member .short named
    have isOther := isNamed_long (List.cons_ne_nil _ _) is
    rw [ambiguityExists_iff.mp ambiguous] at isOther
    exact eq_of_only identifies.only otherMember isOther

end Identification

/-- A verified table is unambiguous exactly when no name has the separator in it, a short name
starts with the long prefix only if that is the short one, no long name matches a later one, and no
short option matches a long name of another length. -/
theorem unambiguous_iff (equalsIgnoreCase : Text → Text → Bool)
    (ignores : IgnoresCase equalsIgnoreCase) (parser loaded : FlaggedParser)
    (table : List ParserOption) (empty : parser.m_options = [])
    (terminated : ∀ option ∈ table, noShortopt ∉ option.longopt)
    (adds : parser.addOptions equalsIgnoreCase table = .ok loaded) :
    loaded.Unambiguous equalsIgnoreCase ↔ loaded.Separate equalsIgnoreCase := by
  have verified : loaded.Verified equalsIgnoreCase := (Verified.none empty).addOptions table adds
  have options : loaded.m_options = table := by
    rw [addOptions_options table adds, empty, List.nil_append]
  constructor
  · intro unambiguous
    exact unambiguous.separate ignores (by rw [options]; exact terminated)
  · intro separate
    refine ⟨?_, verified.reachable⟩
    intro option member spelling named
    cases spelling with
    | long => exact separate.identifies_long ignores verified member named
    | short => exact separate.identifies_short ignores verified member named

theorem asciiEqualsIgnoreCase_ignoresCase : IgnoresCase asciiEqualsIgnoreCase where
  refl _ := by simp [asciiEqualsIgnoreCase]
  single _ _ := by simp [asciiEqualsIgnoreCase]

/-- The table of the default prefixes, without the case. -/
def caselessDashes : FlaggedParser := { dashes with m_caseSensitivity := .caseInsensitive }

theorem caselessDashes_separate : caselessDashes.Separate asciiEqualsIgnoreCase where
  spelled := by
    intro option member spelling named
    simp only [caselessDashes, dashes, exampleTable, List.mem_cons, List.not_mem_nil,
      or_false] at member
    rcases member with rfl | rfl | rfl
    all_goals cases spelling
    all_goals exact ⟨by decide, by decide, by decide⟩
  long := by decide +kernel
  letters := fun ambiguous => absurd ambiguous (by decide)

theorem caselessDashes_unambiguous : caselessDashes.Unambiguous asciiEqualsIgnoreCase :=
  (unambiguous_iff asciiEqualsIgnoreCase asciiEqualsIgnoreCase_ignoresCase
    { caselessDashes with m_options := [] } caselessDashes exampleTable rfl (by decide)
    (by decide +kernel)).mpr caselessDashes_separate

/-- The Kelvin sign in UTF-8. -/
def kelvinSign : Text := [Char.ofNat 0xE2, Char.ofNat 0x84, Char.ofNat 0xAA]

/-- The comparison on ASCII characters and the Kelvin sign, which is equal to `k`. -/
def kelvinEqualsIgnoreCase (first second : Text) : Bool :=
  asciiEqualsIgnoreCase first second || (first = ['k'] && second = kelvinSign) ||
    (first = kelvinSign && second = ['k'])

theorem kelvinEqualsIgnoreCase_ignoresCase : IgnoresCase kelvinEqualsIgnoreCase where
  refl text := by simp [kelvinEqualsIgnoreCase, asciiEqualsIgnoreCase]
  single first second := by
    simp [kelvinEqualsIgnoreCase, asciiEqualsIgnoreCase, kelvinSign]

def kOption : ParserOption := ⟨1, 'k', [], .noArg, false, []⟩

def kelvinOption : ParserOption := ⟨2, noShortopt, kelvinSign, .noArg, false, []⟩

/-- The short and the long options have the same prefix. -/
def kelvins : FlaggedParser :=
  { m_options := [kOption, kelvinOption], m_shortOptionPrefix := '-',
    m_longOptionPrefix := ['-'], m_valueSeparator := '=',
    m_caseSensitivity := .caseInsensitive }

def separatorOption : ParserOption := ⟨3, noShortopt, "a=b".toList, .noArg, false, []⟩

/-- The value separator occurs in a name. -/
def separators : FlaggedParser :=
  { m_options := [separatorOption], m_shortOptionPrefix := '-',
    m_longOptionPrefix := "--".toList, m_valueSeparator := '=',
    m_caseSensitivity := .caseSensitive }

/-- A table is accepted when it is added to a parser without options. -/
def Accepted (equalsIgnoreCase : Text → Text → Bool) (loaded : FlaggedParser) : Prop :=
  ({ loaded with m_options := [] } : FlaggedParser).addOptions equalsIgnoreCase
    loaded.m_options = .ok loaded

/-- For `-k`, parsing finds the short option and `getOptionID` the Kelvin sign. The long option
`a=b` is read as `a` with a value. -/
theorem accepted_ambiguous :
    IgnoresCase kelvinEqualsIgnoreCase ∧
    (Accepted kelvinEqualsIgnoreCase kelvins ∧ ¬ kelvins.Unambiguous kelvinEqualsIgnoreCase) ∧
      (Accepted kelvinEqualsIgnoreCase separators ∧
        ¬ separators.Unambiguous kelvinEqualsIgnoreCase) := by
  refine ⟨kelvinEqualsIgnoreCase_ignoresCase, ⟨by unfold Accepted; decide +kernel, ?_⟩,
    ⟨by unfold Accepted; decide +kernel, ?_⟩⟩
  · intro unambiguous
    have identifies := unambiguous.identifies kOption (by decide) .short (by decide)
    exact absurd identifies.named (by decide +kernel)
  · intro unambiguous
    have identifies := unambiguous.identifies separatorOption (by decide) .long (by decide)
    exact absurd identifies.alone (by decide +kernel)

end FlaggedParser

end Blocxx.CmdLineParsers
