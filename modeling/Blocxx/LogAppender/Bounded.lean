import Mathlib.Data.UInt
import Blocxx.LogAppender.Appenders

/-!
This file proves when the log files of the two appenders stay below their limit.
-/

namespace Blocxx.LogAppender

open Time

section Messages

variable {State Message : Type} (step : State → Message → Option State)
  (property : State → Message → State → Prop)

/-- The property holds of every message, as long as the file operations succeed. -/
def EachMessage : State → List Message → Prop
  | _, [] => True
  | state, message :: messages =>
      ∀ next, step state message = some next →
        property state message next ∧ EachMessage next messages

/-- All file operations succeed. -/
def Succeeds : State → List Message → Prop
  | _, [] => True
  | state, message :: messages => ∃ next, step state message = some next ∧ Succeeds next messages

variable {step property}

theorem eachMessage_of_invariant (Kept : State → Prop)
    (keep : ∀ state message next, Kept state → step state message = some next →
      property state message next ∧ Kept next) (messages : List Message) :
    ∀ state, Kept state → EachMessage step property state messages := by
  induction messages with
  | nil => exact fun _ _ => trivial
  | cons message messages ih =>
      intro state kept next stepped
      obtain ⟨holds, keptNext⟩ := keep state message next kept stepped
      exact ⟨holds, ih next keptNext⟩

/-- A file that only grows has the property until it has a bad size. -/
theorem eachMessage_iff_not_bad (size : Message → Nat) (Sized : Nat → State → Prop)
    (Bad : Nat → Prop) (upward : ∀ less more, less ≤ more → Bad less → Bad more)
    (good : ∀ bytes state message next, Sized bytes state → step state message = some next →
      ¬ Bad (bytes + size message) →
        property state message next ∧ Sized (bytes + size message) next)
    (bad : ∀ bytes state message next, Sized bytes state → step state message = some next →
      Bad (bytes + size message) → ¬ property state message next) (messages : List Message) :
    ∀ bytes state, Sized bytes state → Succeeds step state messages →
      (EachMessage step property state messages ↔
        messages = [] ∨ ¬ Bad (bytes + (messages.map size).sum)) := by
  induction messages with
  | nil => exact fun _ _ _ _ => ⟨fun _ => .inl rfl, fun _ => trivial⟩
  | cons message messages ih =>
      rintro bytes state sized ⟨next, stepped, succeeds⟩
      rw [List.map_cons, List.sum_cons, ← Nat.add_assoc]
      by_cases reached : Bad (bytes + size message)
      · constructor
        · intro each
          exact absurd (each next stepped).1 (bad bytes state message next sized stepped reached)
        · rintro (impossible | never)
          · cases impossible
          · exact absurd (upward _ _ (Nat.le_add_right _ _) reached) never
      · obtain ⟨holds, sizedNext⟩ := good bytes state message next sized stepped reached
        have rest := ih _ next sizedNext succeeds
        constructor
        · intro each
          right
          rcases rest.mp (each next stepped).2 with rfl | never
          · exact reached
          · exact never
        · rintro (impossible | never)
          · cases impossible
          · intro other steppedToo
            rw [stepped] at steppedToo
            cases steppedToo
            exact ⟨holds, rest.mpr (.inr never)⟩

end Messages

/-- The log is not the former file with the line at its end. -/
def Rotated (before after : FileSystem) (line : Text) : Prop :=
  ¬ (after.directory 0 = before.directory 0 ∧ after.contentAt 0 = before.contentAt 0 ++ line)

/-- The log is smaller than the limit, and the message caused a rotation exactly when the log with
its line has reached the limit. -/
def StaysBounded (limit : Nat) (before after : FileSystem) (line : Text) : Prop :=
  ((after.contentAt 0).length < limit ∨ limit = 0 ∧ after.contentAt 0 = []) ∧
    (Rotated before after line ↔ limit ≤ (before.contentAt 0).length + line.length)

theorem rotated_of_shorter {before after : FileSystem} {line : Text}
    (shorter : (after.contentAt 0).length < (before.contentAt 0).length + line.length) :
    Rotated before after line := by
  rintro ⟨-, same⟩
  rw [same, List.length_append] at shorter
  exact Nat.lt_irrefl _ shorter

/-- An appended line is no rotation. -/
theorem contentAt_write {fs written : FileSystem} {inode : Inode} {line : Text}
    (named : fs.directory 0 = some inode) (writes : fs.write inode line = some written) :
    written.directory = fs.directory ∧ written.contentAt 0 = fs.contentAt 0 ++ line := by
  obtain ⟨-, rfl⟩ := FileSystem.write_eq_some writes
  refine ⟨rfl, ?_⟩
  rw [FileSystem.contentAt_named (show (fs.setContent _ _).directory 0 = some inode from named),
    FileSystem.contentAt_named named, FileSystem.setContent_self]

section FileAppender

/-- The stream is open on the log, which has this size. -/
structure FileAppender.Sized (maxFileSize : UInt64) (bytes : Nat)
    (state : FileAppender × FileSystem) : Prop where
  m_maxFileSize : state.1.m_maxFileSize = maxFileSize
  m_log : ∃ inode, state.1.m_log = some inode ∧ state.2.directory 0 = some inode
  size : (state.2.contentAt 0).length = bytes

theorem FileAppender.truncateLog_sized (appender : FileAppender) (fs : FileSystem) :
    FileAppender.Sized appender.m_maxFileSize 0 (appender.truncateLog fs) := by
  have named : (appender.truncateLog fs).2.directory 0 =
      some (fs.openForAppendOrCreateFile 0).1 := fs.openForAppendOrCreateFile_directory 0
  refine ⟨rfl, ⟨_, rfl, named⟩, ?_⟩
  have read : (appender.truncateLog fs).2.contentAt 0 = [] := by
    rw [FileSystem.contentAt_named named]
    exact FileSystem.setContent_self _ _ _
  rw [read]
  rfl

theorem FileAppender.rollOver_sized (appender : FileAppender) (fs : FileSystem) {m_log : Inode}
    (named : fs.directory 0 = some m_log) {next : FileAppender × FileSystem}
    (rolls : appender.rollOver fs m_log = some next) :
    FileAppender.Sized appender.m_maxFileSize 0 next := by
  unfold FileAppender.rollOver at rolls
  split at rolls
  next positive =>
    dsimp only at rolls
    rw [if_pos (FileSystem.rolled positive named).1] at rolls
    cases rolls
    exact appender.truncateLog_sized _
  · cases rolls
    exact appender.truncateLog_sized _

/-- The line that a message adds to the log. -/
def fileLine (formattedMessage : Text) : Text := formattedMessage ++ ['\n']

/-- A call for one message. -/
def FileAppender.call (state : FileAppender × FileSystem) (formattedMessage : Text) :
    Option (FileAppender × FileSystem) :=
  state.1.doProcessLogMessage state.2 formattedMessage

/-- The log grows by the line, or it is rolled over and empty. -/
theorem FileAppender.call_cases {maxFileSize : UInt64} (limited : maxFileSize ≠ NO_MAX_LOG_SIZE)
    {bytes : Nat} {state next : FileAppender × FileSystem} {message : Text}
    (sized : FileAppender.Sized maxFileSize bytes state)
    (called : FileAppender.call state message = some next) :
    bytes + (fileLine message).length ≤ OFF_MAX ∧
      if streampos (maxFileSize * 1024) ≤ (bytes + (fileLine message).length : Nat) then
        FileAppender.Sized maxFileSize 0 next ∧ Rotated state.2 next.2 (fileLine message)
      else
        FileAppender.Sized maxFileSize (bytes + (fileLine message).length) next ∧
          ¬ Rotated state.2 next.2 (fileLine message) := by
  obtain ⟨same, ⟨inode, opened, named⟩, size⟩ := sized
  unfold FileAppender.call FileAppender.doProcessLogMessage at called
  rw [named] at called
  dsimp only at called
  rw [opened] at called
  dsimp only at called
  cases writes : state.2.write inode (fileLine message) with
  | none =>
      rw [fileLine] at writes
      rw [writes] at called
      cases called
  | some written =>
      obtain ⟨fits, grown⟩ := FileSystem.write_eq_some writes
      obtain ⟨sameDirectory, content⟩ := contentAt_write named writes
      have namedStill : written.directory 0 = some inode := by rw [sameDirectory, named]
      have total : (written.contentAt 0).length = bytes + (fileLine message).length := by
        rw [content, List.length_append, size]
      have fileSize : written.size inode = bytes + (fileLine message).length := by
        rw [← total, FileSystem.contentAt_named namedStill, FileSystem.size]
      rw [fileLine] at writes
      rw [writes] at called
      dsimp only at called
      rw [same, fileSize] at called
      rw [FileSystem.size, ← FileSystem.contentAt_named named, size] at fits
      refine ⟨fits, ?_⟩
      split at called
      next reached =>
        rw [if_pos reached.2]
        have rolled := state.1.rollOver_sized written namedStill called
        rw [same] at rolled
        refine ⟨rolled, rotated_of_shorter ?_⟩
        rw [rolled.size, fileLine, List.length_append, List.length_singleton]
        omega
      next below =>
        rw [if_neg fun reached => below ⟨limited, reached⟩]
        cases called
        exact ⟨⟨same, ⟨inode, opened, namedStill⟩, total⟩,
          fun rotated => rotated ⟨congrFun sameDirectory 0, content⟩⟩

/-- The limit as a mathematical integer. -/
def limitOf (maxFileSize : UInt64) : Nat := maxFileSize.toNat * 1024

/-- The sizes of the lines together. -/
def totalLines (messages : List Text) : Nat :=
  (messages.map fun message => (fileLine message).length).sum

theorem FileAppender.bounded_small {maxFileSize : UInt64}
    (limited : maxFileSize ≠ NO_MAX_LOG_SIZE) (small : limitOf maxFileSize < 2 ^ 63)
    (messages : List Text) {state : FileAppender × FileSystem}
    (sized : FileAppender.Sized maxFileSize 0 state) :
    EachMessage FileAppender.call (fun state message next =>
      StaysBounded (limitOf maxFileSize) state.2 next.2 (fileLine message)) state messages := by
  have positive : 0 < limitOf maxFileSize := Nat.mul_pos (limited_pos limited) (by decide)
  apply eachMessage_of_invariant fun state =>
    ∃ bytes < limitOf maxFileSize, FileAppender.Sized maxFileSize bytes state
  · rintro state message next ⟨bytes, less, sized⟩ called
    obtain ⟨fits, cases⟩ := FileAppender.call_cases limited sized called
    rw [streampos_small small] at cases
    unfold StaysBounded
    rw [sized.size]
    unfold limitOf at less ⊢
    split at cases
    next reached =>
      refine ⟨⟨.inl ?_, fun _ => by exact_mod_cast reached, fun _ => cases.2⟩, 0, positive, cases.1⟩
      rw [cases.1.size]
      exact positive
    next below =>
      have under : bytes + (fileLine message).length < maxFileSize.toNat * 1024 := by
        by_contra above
        exact below (by exact_mod_cast Nat.le_of_not_lt above)
      refine ⟨⟨.inl ?_, fun rotated => absurd rotated cases.2, fun reached => ?_⟩, _, under, cases.1⟩
      · rw [cases.1.size]
        exact under
      · exact absurd reached (Nat.not_le.mpr under)
  · exact ⟨0, positive, sized⟩

theorem FileAppender.bounded_large {maxFileSize : UInt64}
    (limited : maxFileSize ≠ NO_MAX_LOG_SIZE) (large : ¬ limitOf maxFileSize < 2 ^ 63)
    (messages : List Text) {state : FileAppender × FileSystem}
    (sized : FileAppender.Sized maxFileSize 0 state)
    (succeeds : Succeeds FileAppender.call state messages) :
    EachMessage FileAppender.call (fun state message next =>
        StaysBounded (limitOf maxFileSize) state.2 next.2 (fileLine message)) state messages ↔
      messages = [] ∨ ¬ streampos (maxFileSize * 1024) ≤ (totalLines messages : Nat) := by
  rw [← Nat.zero_add (totalLines messages)]
  refine eachMessage_iff_not_bad (fun message => (fileLine message).length)
    (FileAppender.Sized maxFileSize)
    (fun bytes => streampos (maxFileSize * 1024) ≤ (bytes : Nat)) ?_ ?_ ?_ messages 0 state
    sized succeeds
  · intro less more order reached
    omega
  · intro bytes state message next sized called below
    obtain ⟨fits, cases⟩ := FileAppender.call_cases limited sized called
    rw [if_neg below] at cases
    refine ⟨⟨.inl ?_, fun rotated => absurd rotated cases.2, fun reached => ?_⟩, cases.1⟩
    · rw [cases.1.size]
      unfold OFF_MAX at fits
      omega
    · rw [sized.size] at reached
      unfold OFF_MAX at fits
      omega
  · rintro bytes state message next sized called reached ⟨-, exactly⟩
    obtain ⟨fits, cases⟩ := FileAppender.call_cases limited sized called
    rw [if_pos reached] at cases
    have beyond := exactly.mp cases.2
    rw [sized.size] at beyond
    unfold OFF_MAX at fits
    omega

end FileAppender

section MultiProcessFileAppender

/-- The file is open on the log, which has this size. -/
structure MultiProcessFileAppender.Sized (maxFileSize : UInt64) (maxBackupIndex bytes : Nat)
    (state : MultiProcessFileAppender × FileSystem) : Prop where
  m_maxFileSize : state.1.m_maxFileSize = kbytesToBytes maxFileSize
  m_maxBackupIndex : state.1.m_maxBackupIndex = maxBackupIndex
  m_log : ∃ inode, state.1.m_log = some inode ∧ state.2.directory 0 = some inode
  size : (state.2.contentAt 0).length = bytes
  below : bytes < limitOf maxFileSize ∧ bytes ≤ OFF_MAX

/-- A message and the bytes that its block has before it is written. -/
structure Message where
  formattedMessage : Text
  unwritten : Nat → Char

def Message.line (message : Message) : Text :=
  messageLine message.unwritten message.formattedMessage

/-- A call for one message. -/
def MultiProcessFileAppender.call (state : MultiProcessFileAppender × FileSystem)
    (message : Message) : Option (MultiProcessFileAppender × FileSystem) :=
  state.1.doProcessLogMessage state.2 message.unwritten message.formattedMessage

theorem MultiProcessFileAppender.Sized.size_eq {maxFileSize : UInt64} {maxBackupIndex bytes : Nat}
    {state : MultiProcessFileAppender × FileSystem}
    (sized : MultiProcessFileAppender.Sized maxFileSize maxBackupIndex bytes state) {inode : Inode}
    (named : state.2.directory 0 = some inode) : state.2.size inode = bytes := by
  rw [FileSystem.size, ← FileSystem.contentAt_named named, sized.size]

/-- A log below the limit is not opened again. -/
theorem MultiProcessFileAppender.currentLog_sized {maxFileSize : UInt64}
    (limited : maxFileSize ≠ NO_MAX_LOG_SIZE) {maxBackupIndex bytes : Nat}
    {state : MultiProcessFileAppender × FileSystem}
    (sized : MultiProcessFileAppender.Sized maxFileSize maxBackupIndex bytes state) {inode : Inode}
    (named : state.2.directory 0 = some inode) :
    state.1.currentLog state.2 inode = (inode, state.2) := by
  obtain ⟨below, small⟩ := sized.below
  unfold OFF_MAX at small
  unfold limitOf at below
  rw [MultiProcessFileAppender.currentLog, sized.m_maxFileSize, sized.size_eq named,
    kbytesToBytes_toNat limited, if_neg (by omega)]

theorem MultiProcessFileAppender.call_succeeds {maxFileSize : UInt64}
    (limited : maxFileSize ≠ NO_MAX_LOG_SIZE) {maxBackupIndex bytes : Nat}
    {state : MultiProcessFileAppender × FileSystem} {message : Message}
    (sized : MultiProcessFileAppender.Sized maxFileSize maxBackupIndex bytes state)
    (fits : bytes + message.line.length ≤ OFF_MAX) :
    ∃ next, MultiProcessFileAppender.call state message = some next := by
  obtain ⟨inode, opened, named⟩ := sized.m_log
  have writes : state.2.write inode (messageLine message.unwritten message.formattedMessage) =
      some (state.2.setContent inode (state.2.content inode ++ message.line)) := by
    rw [Message.line] at fits ⊢
    rw [FileSystem.write, sized.size_eq named, if_pos fits]
  unfold MultiProcessFileAppender.call MultiProcessFileAppender.doProcessLogMessage
  rw [opened]
  dsimp only
  rw [MultiProcessFileAppender.currentLog_sized limited sized named, writes]
  dsimp only
  split
  · exact ⟨_, rfl⟩
  · exact ⟨_, rfl⟩

/-- The log grows by the line, and then it is rolled over if there is a backup file. -/
theorem MultiProcessFileAppender.call_cases {maxFileSize : UInt64}
    (limited : maxFileSize ≠ NO_MAX_LOG_SIZE) {maxBackupIndex bytes : Nat}
    {state next : MultiProcessFileAppender × FileSystem} {message : Message}
    (sized : MultiProcessFileAppender.Sized maxFileSize maxBackupIndex bytes state)
    (called : MultiProcessFileAppender.call state message = some next) :
    if limitOf maxFileSize ≤ bytes + message.line.length then
      if 0 < maxBackupIndex then
        MultiProcessFileAppender.Sized maxFileSize maxBackupIndex 0 next ∧
          Rotated state.2 next.2 message.line
      else (next.2.contentAt 0).length = bytes + message.line.length
    else
      MultiProcessFileAppender.Sized maxFileSize maxBackupIndex (bytes + message.line.length) next ∧
        ¬ Rotated state.2 next.2 message.line := by
  have current {inode : Inode} (named : state.2.directory 0 = some inode) :=
    MultiProcessFileAppender.currentLog_sized limited sized named
  have size_inode {inode : Inode} (named : state.2.directory 0 = some inode) :=
    sized.size_eq named
  obtain ⟨sameLimit, sameIndex, ⟨inode, opened, named⟩, size, below, small⟩ := sized
  have converted := kbytesToBytes_toNat limited
  unfold MultiProcessFileAppender.call MultiProcessFileAppender.doProcessLogMessage at called
  rw [opened] at called
  dsimp only at called
  rw [current named] at called
  cases writes : state.2.write inode message.line with
  | none =>
      rw [Message.line] at writes
      rw [writes] at called
      cases called
  | some written =>
      obtain ⟨fits, -⟩ := FileSystem.write_eq_some writes
      obtain ⟨sameDirectory, content⟩ := contentAt_write named writes
      have namedStill : written.directory 0 = some inode := by rw [sameDirectory, named]
      have total : (written.contentAt 0).length = bytes + message.line.length := by
        rw [content, List.length_append, size]
      rw [size_inode named] at fits
      rw [Message.line] at writes
      rw [writes] at called
      dsimp only at called
      rw [size_inode named, sameLimit, converted] at called
      change (if bytes + message.line.length ≥ _ then _ else _) = _ at called
      unfold limitOf
      unfold OFF_MAX at fits
      split at called
      next reached =>
        rw [if_pos (by omega)]
        cases called
        by_cases positive : 0 < maxBackupIndex
        · obtain ⟨appender, -, contents, directory⟩ :=
            state.1.rollOver_backup (sameIndex ▸ positive) namedStill
          have newLog := directory 0
          rw [if_pos rfl] at newLog
          have read : (state.1.rollOver written).2.contentAt 0 = [] := by
            rw [FileSystem.contentAt_named newLog, contents, Function.update_self]
          rw [if_pos positive]
          refine ⟨⟨?_, ?_, ⟨written.nextInode, ?_, newLog⟩, ?_, ?_, ?_⟩, rotated_of_shorter ?_⟩
          · rw [appender]
            exact sameLimit
          · rw [appender]
            exact sameIndex
          · rw [appender]
          · rw [read]
            rfl
          · exact Nat.mul_pos (limited_pos limited) (by decide)
          · exact Nat.zero_le _
          · rw [read, Message.line, messageLine_length]
            exact Nat.succ_pos _
        · rw [if_neg positive, state.1.rollOver_none (sameIndex ▸ positive) namedStill]
          exact total
      next under =>
        rw [if_neg (by omega)]
        cases called
        refine ⟨⟨rfl, sameIndex, ⟨inode, rfl, namedStill⟩, total, ?_, ?_⟩,
          fun rotated => rotated ⟨congrFun sameDirectory 0, content⟩⟩
        · unfold limitOf
          omega
        · unfold OFF_MAX
          omega

/-- The sizes of the lines together. -/
def totalMessages (messages : List Message) : Nat :=
  (messages.map fun message => message.line.length).sum

theorem MultiProcessFileAppender.bounded_backup {maxFileSize : UInt64}
    (limited : maxFileSize ≠ NO_MAX_LOG_SIZE) {maxBackupIndex : Nat}
    (positive : 0 < maxBackupIndex) (messages : List Message)
    {state : MultiProcessFileAppender × FileSystem}
    (sized : MultiProcessFileAppender.Sized maxFileSize maxBackupIndex 0 state) :
    EachMessage MultiProcessFileAppender.call (fun state message next =>
      StaysBounded (limitOf maxFileSize) state.2 next.2 message.line) state messages := by
  apply eachMessage_of_invariant fun state =>
    ∃ bytes, MultiProcessFileAppender.Sized maxFileSize maxBackupIndex bytes state
  · rintro state message next ⟨bytes, sized⟩ called
    have cases := MultiProcessFileAppender.call_cases limited sized called
    unfold StaysBounded
    rw [sized.size]
    split at cases
    next reached =>
      refine ⟨⟨.inl ?_, fun _ => reached, fun _ => cases.2⟩, 0, cases.1⟩
      rw [cases.1.size]
      exact cases.1.below.1
    next under =>
      refine ⟨⟨.inl ?_, fun rotated => absurd rotated cases.2, fun reached => absurd reached under⟩,
        _, cases.1⟩
      rw [cases.1.size]
      exact cases.1.below.1
  · exact ⟨0, sized⟩

theorem MultiProcessFileAppender.bounded_none {maxFileSize : UInt64}
    (limited : maxFileSize ≠ NO_MAX_LOG_SIZE) (messages : List Message)
    {state : MultiProcessFileAppender × FileSystem}
    (sized : MultiProcessFileAppender.Sized maxFileSize 0 0 state)
    (succeeds : Succeeds MultiProcessFileAppender.call state messages) :
    EachMessage MultiProcessFileAppender.call (fun state message next =>
        StaysBounded (limitOf maxFileSize) state.2 next.2 message.line) state messages ↔
      messages = [] ∨ ¬ limitOf maxFileSize ≤ totalMessages messages := by
  have positive : 0 < limitOf maxFileSize := Nat.mul_pos (limited_pos limited) (by decide)
  rw [← Nat.zero_add (totalMessages messages)]
  refine eachMessage_iff_not_bad (fun message => message.line.length)
    (MultiProcessFileAppender.Sized maxFileSize 0) (fun bytes => limitOf maxFileSize ≤ bytes)
    ?_ ?_ ?_ messages 0 state sized succeeds
  · intro less more order reached
    exact reached.trans order
  · intro bytes state message next sized called under
    have cases := MultiProcessFileAppender.call_cases limited sized called
    rw [if_neg under] at cases
    refine ⟨⟨.inl ?_, fun rotated => absurd rotated cases.2, fun reached => ?_⟩, cases.1⟩
    · rw [cases.1.size]
      exact cases.1.below.1
    · rw [sized.size] at reached
      exact absurd reached under
  · rintro bytes state message next sized called reached ⟨small, -⟩
    have cases := MultiProcessFileAppender.call_cases limited sized called
    rw [if_pos reached, if_neg (Nat.lt_irrefl 0)] at cases
    rw [cases] at small
    rcases small with small | ⟨zero, -⟩
    · omega
    · omega

end MultiProcessFileAppender

section Start

variable {fs : FileSystem} {maxFileSize : UInt64}

theorem openForAppendOrCreateFile_empty (emptyLog : fs.contentAt 0 = []) :
    (fs.openForAppendOrCreateFile 0).2.contentAt 0 = [] := by
  cases named : fs.directory 0 with
  | some inode =>
      rw [FileSystem.openForAppendOrCreateFile_named named]
      exact emptyLog
  | none =>
      rw [FileSystem.openForAppendOrCreateFile_new named,
        FileSystem.contentAt_named (fs.create_directory 0)]
      exact Function.update_self _ _ _

theorem FileAppender.construct_sized (emptyLog : fs.contentAt 0 = []) (filename : Text)
    (maxBackupIndex : Nat) :
    FileAppender.Sized maxFileSize 0
      (FileAppender.construct filename maxFileSize maxBackupIndex fs) := by
  refine ⟨rfl, ⟨_, rfl, fs.openForAppendOrCreateFile_directory 0⟩, ?_⟩
  exact congrArg List.length (openForAppendOrCreateFile_empty emptyLog)

theorem MultiProcessFileAppender.construct_sized (limited : maxFileSize ≠ NO_MAX_LOG_SIZE)
    (emptyLog : fs.contentAt 0 = []) (maxBackupIndex : Nat) :
    MultiProcessFileAppender.Sized maxFileSize maxBackupIndex 0
      (MultiProcessFileAppender.construct maxFileSize maxBackupIndex fs) := by
  refine ⟨rfl, rfl, ⟨_, rfl, fs.openForAppendOrCreateFile_directory 0⟩, ?_, ?_, Nat.zero_le _⟩
  · exact congrArg List.length (openForAppendOrCreateFile_empty emptyLog)
  · exact Nat.mul_pos (limited_pos limited) (by decide)

end Start

/-- The log of a `FileAppender` stays bounded exactly when its limit fits into a signed number of
64 bits, or the log never reaches the wrapped limit. The log of a `MultiProcessFileAppender` does
exactly when there are backup files, or the log never reaches the limit. -/
theorem log_bounded_iff (fs : FileSystem) (emptyLog : fs.contentAt 0 = []) (filename : Text)
    (maxFileSize : UInt64) (limited : maxFileSize ≠ NO_MAX_LOG_SIZE) (maxBackupIndex : Nat)
    (texts : List Text) (messages : List Message) :
    (Succeeds FileAppender.call (FileAppender.construct filename maxFileSize maxBackupIndex fs)
        texts →
      (EachMessage FileAppender.call (fun state message next =>
          StaysBounded (limitOf maxFileSize) state.2 next.2 (fileLine message))
          (FileAppender.construct filename maxFileSize maxBackupIndex fs) texts ↔
        limitOf maxFileSize < 2 ^ 63 ∨ texts = [] ∨
          ¬ streampos (maxFileSize * 1024) ≤ (totalLines texts : Nat))) ∧
      (Succeeds MultiProcessFileAppender.call
          (MultiProcessFileAppender.construct maxFileSize maxBackupIndex fs) messages →
        (EachMessage MultiProcessFileAppender.call (fun state message next =>
            StaysBounded (limitOf maxFileSize) state.2 next.2 message.line)
            (MultiProcessFileAppender.construct maxFileSize maxBackupIndex fs) messages ↔
          0 < maxBackupIndex ∨ totalMessages messages < limitOf maxFileSize)) := by
  have positive : 0 < limitOf maxFileSize := Nat.mul_pos (limited_pos limited) (by decide)
  constructor
  · intro succeeds
    have sized : FileAppender.Sized maxFileSize 0 _ :=
      FileAppender.construct_sized emptyLog filename maxBackupIndex
    by_cases small : limitOf maxFileSize < 2 ^ 63
    · exact ⟨fun _ => .inl small, fun _ => FileAppender.bounded_small limited small texts sized⟩
    · rw [FileAppender.bounded_large limited small texts sized succeeds]
      exact ⟨.inr, fun holds => holds.resolve_left small⟩
  · intro succeeds
    have sized := MultiProcessFileAppender.construct_sized limited emptyLog maxBackupIndex
    by_cases backups : 0 < maxBackupIndex
    · exact ⟨fun _ => .inl backups,
        fun _ => MultiProcessFileAppender.bounded_backup limited backups messages sized⟩
    · obtain rfl := Nat.eq_zero_of_not_pos backups
      rw [MultiProcessFileAppender.bounded_none limited messages sized succeeds, Nat.not_le]
      constructor
      · rintro (rfl | below)
        · exact .inr positive
        · exact .inr below
      · rintro (impossible | below)
        · cases impossible
        · exact .inr below

theorem log_bounded_iff_one :
    let messages : List Message := [⟨['a'], fun _ => ' '⟩]
    Succeeds FileAppender.call (FileAppender.construct ['f'] 1 0 FileSystem.empty) [['a']] ∧
      Succeeds MultiProcessFileAppender.call
        (MultiProcessFileAppender.construct 1 0 FileSystem.empty) messages ∧
      EachMessage FileAppender.call (fun state message next =>
        StaysBounded (limitOf 1) state.2 next.2 (fileLine message))
        (FileAppender.construct ['f'] 1 0 FileSystem.empty) [['a']] ∧
      EachMessage MultiProcessFileAppender.call (fun state message next =>
        StaysBounded (limitOf 1) state.2 next.2 message.line)
        (MultiProcessFileAppender.construct 1 0 FileSystem.empty) messages := by
  intro messages
  have bounded := log_bounded_iff FileSystem.empty rfl ['f'] 1 (by decide) 0 [['a']] messages
  have first : Succeeds FileAppender.call (FileAppender.construct ['f'] 1 0 FileSystem.empty)
      [['a']] := ⟨_, rfl, trivial⟩
  have second : Succeeds MultiProcessFileAppender.call
      (MultiProcessFileAppender.construct 1 0 FileSystem.empty) messages := ⟨_, rfl, trivial⟩
  exact ⟨first, second, (bounded.1 first).mpr (.inl (by decide)),
    (bounded.2 second).mpr (.inr (by decide))⟩

/-- A limit of `2 ^ 63` bytes truncates the log at the first message, and a log of 1024 bytes
without backup files stays at its limit of 1024 bytes. -/
theorem log_not_bounded :
    let text : Text := List.replicate 1023 'a'
    (Succeeds FileAppender.call (FileAppender.construct ['f'] (2 ^ 53) 0 FileSystem.empty)
        [['a']] ∧
      ¬ EachMessage FileAppender.call (fun state message next =>
        StaysBounded (limitOf (2 ^ 53)) state.2 next.2 (fileLine message))
        (FileAppender.construct ['f'] (2 ^ 53) 0 FileSystem.empty) [['a']]) ∧
      Succeeds MultiProcessFileAppender.call
        (MultiProcessFileAppender.construct 1 0 FileSystem.empty) [⟨text, fun _ => ' '⟩] ∧
      ¬ EachMessage MultiProcessFileAppender.call (fun state message next =>
        StaysBounded (limitOf 1) state.2 next.2 message.line)
        (MultiProcessFileAppender.construct 1 0 FileSystem.empty) [⟨text, fun _ => ' '⟩] := by
  intro text
  have first : Succeeds FileAppender.call
      (FileAppender.construct ['f'] (2 ^ 53) 0 FileSystem.empty) [['a']] := ⟨_, rfl, trivial⟩
  have size : (Message.line ⟨text, fun _ => ' '⟩).length = 1024 := by
    rw [Message.line, messageLine_length, List.length_replicate]
  have second : Succeeds MultiProcessFileAppender.call
      (MultiProcessFileAppender.construct 1 0 FileSystem.empty) [⟨text, fun _ => ' '⟩] := by
    have sized : MultiProcessFileAppender.Sized 1 0 0
        (MultiProcessFileAppender.construct 1 0 FileSystem.empty) :=
      MultiProcessFileAppender.construct_sized (by decide) rfl 0
    obtain ⟨next, called⟩ := MultiProcessFileAppender.call_succeeds (by decide) sized
      (by rw [size]; decide)
    exact ⟨next, called, trivial⟩
  refine ⟨⟨first, ?_⟩, second, ?_⟩
  · rw [FileAppender.bounded_large (by decide) (by decide) _
      (FileAppender.construct_sized rfl ['f'] 0) first]
    rintro (impossible | below)
    · cases impossible
    · exact below (by decide)
  · rw [MultiProcessFileAppender.bounded_none (by decide) _
      (MultiProcessFileAppender.construct_sized (by decide) rfl 0) second]
    rintro (impossible | below)
    · cases impossible
    · apply below
      rw [totalMessages, List.map_singleton, List.sum_singleton, size]
      decide

end Blocxx.LogAppender
