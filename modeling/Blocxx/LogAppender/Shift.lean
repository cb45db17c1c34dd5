import Blocxx.LogAppender.Rotation

/-!
This file proves what a rotation does to the log and to each of its backup files.
-/

namespace Blocxx.LogAppender

open Time

/-- A log with this line becomes the first backup file, each backup file gets the next number, and
only the one with the last number is lost. The new log is a new empty file. -/
structure Shifts (maxBackupIndex : Nat) (fs after : FileSystem) (line : Text) : Prop where
  log : ∃ inode, after.directory 0 = some inode ∧ after.content inode = [] ∧
    ∀ name, fs.directory name ≠ some inode
  first : after.directory 1 ≠ none ∧ after.contentAt 1 = fs.contentAt 0 ++ line ∧
    ∀ inode, fs.directory 0 = some inode → after.directory 1 = some inode
  backups : ∀ name, 0 < name → name < maxBackupIndex →
    after.directory (name + 1) = fs.directory name
  others : ∀ name, maxBackupIndex < name → after.directory name = fs.directory name
  contents : ∀ name inode, name ≠ 0 → fs.directory name = some inode →
    after.content inode = fs.content inode
  lost : ∀ name inode, name ≠ maxBackupIndex → fs.directory name = some inode →
    ∃ other, after.directory other = some inode

/-- The appender and the files when the log exists. It is opened again when it does not. -/
def FileAppender.reopened (appender : FileAppender) (fs : FileSystem) :
    FileAppender × FileSystem :=
  match fs.directory 0 with
  | some _ => (appender, fs)
  | none => appender.openLog fs

/-- The open file reaches the limit with the line. -/
def FileAppender.Rotates (appender : FileAppender) (fs : FileSystem) (line : Text) : Prop :=
  appender.m_maxFileSize ≠ NO_MAX_LOG_SIZE ∧
    ∃ m_log, (appender.reopened fs).1.m_log = some m_log ∧
      streampos (appender.m_maxFileSize * 1024) ≤
        ((appender.reopened fs).2.size m_log + line.length : Nat)

/-- The open file is the log, if there is a log. -/
def FileAppender.Current (appender : FileAppender) (fs : FileSystem) : Prop :=
  ∀ m_log, appender.m_log = some m_log → fs.directory 0 = none ∨ fs.directory 0 = some m_log

/-- The file that is written to reaches the limit with the line. -/
def MultiProcessFileAppender.Rotates (appender : MultiProcessFileAppender) (fs : FileSystem)
    (line : Text) : Prop :=
  ∃ m_log, appender.m_log = some m_log ∧
    appender.m_maxFileSize.toNat ≤
      (appender.currentLog fs m_log).2.size (appender.currentLog fs m_log).1 + line.length

/-- The open file is the log, or its size tells that the log has to be opened again. -/
def MultiProcessFileAppender.Current (appender : MultiProcessFileAppender) (fs : FileSystem) :
    Prop :=
  ∀ m_log, appender.m_log = some m_log →
    fs.directory 0 = some m_log ∨ appender.m_maxFileSize.toNat ≤ fs.size m_log

section Files

variable {fs opened : FileSystem} {inode : Inode}

/-- The log is open. A log that was missing is empty, and the other files are as before. -/
structure Opened (fs opened : FileSystem) (inode : Inode) : Prop where
  named : opened.directory 0 = some inode
  same : ∀ log, fs.directory 0 = some log → log = inode
  text : opened.content inode = fs.contentAt 0
  others : ∀ name, name ≠ 0 → opened.directory name = fs.directory name
  contents : ∀ name other, fs.directory name = some other →
    opened.content other = fs.content other
  nextInode : fs.nextInode ≤ opened.nextInode

theorem opened_of_named (named : fs.directory 0 = some inode) : Opened fs fs inode := by
  refine ⟨named, ?_, (FileSystem.contentAt_named named).symm, fun _ _ => rfl, fun _ _ _ => rfl,
    le_rfl⟩
  intro log isLog
  rw [named] at isLog
  exact (Option.some.inj isLog).symm

theorem opened_log_named (fs : FileSystem) :
    Opened fs (fs.openForAppendOrCreateFile 0).2 (fs.openForAppendOrCreateFile 0).1 := by
  cases named : fs.directory 0 with
  | some inode =>
      rw [FileSystem.openForAppendOrCreateFile_named named]
      exact opened_of_named named
  | none =>
      rw [FileSystem.openForAppendOrCreateFile_new named]
      refine ⟨fs.create_directory 0, ?_, ?_, ?_, ?_, Nat.le_succ _⟩
      · intro log isLog
        rw [named] at isLog
        cases isLog
      · rw [FileSystem.contentAt_free named]
        exact Function.update_self _ _ _
      · intro name other
        exact Function.update_of_ne other _ _
      · intro name other isNamed
        exact Function.update_of_ne (fs.below name other isNamed).ne _ _

/-- The line is written to the open log, and the files are rotated. -/
theorem Opened.shifts (open_ : Opened fs opened inode) {maxBackupIndex : Nat}
    (positive : 0 < maxBackupIndex) {line : Text} {written after : FileSystem}
    (wrote : written = opened.setContent inode (opened.content inode ++ line))
    (content : after.content = Function.update written.content written.nextInode [])
    (directory : ∀ name, after.directory name =
      if name = 0 then some written.nextInode
      else if name ≤ maxBackupIndex then written.directory (name - 1)
      else written.directory name) :
    Shifts maxBackupIndex fs after line := by
  subst wrote
  have used (name : Nat) (other : Inode) (named : fs.directory name = some other) :
      other ≠ opened.nextInode := ((fs.below name other named).trans_le open_.nextInode).ne
  have old : inode ≠ opened.nextInode := (opened.below 0 inode open_.named).ne
  have log : after.directory 0 = some opened.nextInode := (directory 0).trans (if_pos rfl)
  have first : after.directory 1 = some inode := by
    rw [directory, if_neg Nat.one_ne_zero, if_pos (Nat.succ_le_of_lt positive)]
    exact open_.named
  have backups (name : Nat) (above : 0 < name) (below : name < maxBackupIndex) :
      after.directory (name + 1) = fs.directory name := by
    rw [directory, if_neg (Nat.succ_ne_zero name), if_pos (Nat.succ_le_of_lt below)]
    exact open_.others name above.ne'
  have others (name : Nat) (above : maxBackupIndex < name) :
      after.directory name = fs.directory name := by
    have other : name ≠ 0 := Nat.ne_zero_of_lt above
    rw [directory, if_neg other, if_neg above.not_ge]
    exact open_.others name other
  have isFirst (isLog : Inode) (named : fs.directory 0 = some isLog) :
      after.directory 1 = some isLog := by rw [first, open_.same isLog named]
  refine ⟨⟨_, log, ?_, ?_⟩, ⟨?_, ?_, isFirst⟩, backups, others, ?_, ?_⟩
  · rw [content]
    exact Function.update_self _ _ _
  · intro name named
    exact used name _ named rfl
  · rw [first]
    exact Option.some_ne_none _
  · rw [FileSystem.contentAt_named first, content]
    refine (Function.update_of_ne old _ _).trans ?_
    rw [FileSystem.setContent_self, open_.text]
  · intro name other notLog named
    have here : opened.directory name = some other := (open_.others name notLog).trans named
    have different : other ≠ inode := by
      rintro rfl
      exact notLog (opened.distinct _ _ _ here open_.named)
    rw [content]
    refine (Function.update_of_ne (used name other named) _ _).trans ?_
    refine (Function.update_of_ne different _ _).trans ?_
    exact open_.contents name other named
  · intro name other notLast named
    rcases Nat.eq_zero_or_pos name with zero | above
    · rw [zero] at named
      exact ⟨1, isFirst other named⟩
    rcases Nat.lt_or_gt_of_ne notLast with below | behind
    · exact ⟨name + 1, (backups name above below).trans named⟩
    · exact ⟨name, (others name behind).trans named⟩

end Files

section FileAppender

variable {appender : FileAppender} {fs : FileSystem}

/-- The open file is the log after the log was opened again. -/
theorem FileAppender.Current.reopened (current : appender.Current fs) {m_log : Inode}
    (opened : (appender.reopened fs).1.m_log = some m_log) :
    Opened fs (appender.reopened fs).2 m_log ∧
      (appender.reopened fs).1.m_maxBackupIndex = appender.m_maxBackupIndex ∧
      (appender.reopened fs).1.m_maxFileSize = appender.m_maxFileSize := by
  unfold FileAppender.reopened at opened ⊢
  cases named : fs.directory 0 with
  | some log =>
      rw [named] at opened
      rcases current m_log opened with missing | isLog
      · cases named.symm.trans missing
      · exact ⟨opened_of_named isLog, rfl, rfl⟩
  | none =>
      rw [named] at opened
      cases opened
      exact ⟨opened_log_named fs, rfl, rfl⟩

/-- The log becomes the first backup file, and the stream has a new empty log open. -/
theorem FileAppender.rollOver_backup (appender : FileAppender)
    (positive : 0 < appender.m_maxBackupIndex) {m_log : Inode}
    (named : fs.directory 0 = some m_log) :
    ∃ after, appender.rollOver fs m_log = some after ∧
      after.1.m_log = some fs.nextInode ∧
      after.2.content = Function.update fs.content fs.nextInode [] ∧
      ∀ name, after.2.directory name =
        if name = 0 then some fs.nextInode
        else if name ≤ appender.m_maxBackupIndex then fs.directory (name - 1)
        else fs.directory name := by
  obtain ⟨renamed, fresh, -, contents, directory⟩ := FileSystem.rolled positive named
  refine ⟨appender.truncateLog ((fs.makeRoom appender.m_maxBackupIndex).renameFile 0 1).2, ?_, ?_,
    ?_, directory⟩
  · unfold FileAppender.rollOver
    rw [if_pos positive]
    dsimp only
    rw [if_pos renamed]
  · exact congrArg some fresh
  · show Function.update _ _ _ = _
    rw [fresh, contents, Function.update_idem]

/-- What a call does after the log was opened again. -/
theorem FileAppender.doProcessLogMessage_eq (appender : FileAppender) (fs : FileSystem)
    (formattedMessage : Text) :
    appender.doProcessLogMessage fs formattedMessage =
      match (appender.reopened fs).1.m_log with
      | none => some (appender.reopened fs)
      | some m_log =>
          match (appender.reopened fs).2.write m_log (formattedMessage ++ ['\n']) with
          | none => none
          | some written =>
              if (appender.reopened fs).1.m_maxFileSize ≠ NO_MAX_LOG_SIZE ∧
                  (written.size m_log : Int) ≥
                    streampos ((appender.reopened fs).1.m_maxFileSize * 1024) then
                (appender.reopened fs).1.rollOver written m_log
              else some ((appender.reopened fs).1, written) := rfl

/-- The call keeps the open file the log. A log that reaches the limit is rotated. -/
theorem FileAppender.Current.call (current : appender.Current fs)
    (positive : 0 < appender.m_maxBackupIndex) {formattedMessage : Text}
    {after : FileAppender × FileSystem}
    (called : appender.doProcessLogMessage fs formattedMessage = some after) :
    after.1.Current after.2 ∧
      (appender.Rotates fs (formattedMessage ++ ['\n']) →
        Shifts appender.m_maxBackupIndex fs after.2 (formattedMessage ++ ['\n'])) := by
  rw [appender.doProcessLogMessage_eq] at called
  cases isOpen : (appender.reopened fs).1.m_log with
  | none =>
      rw [isOpen] at called
      cases called
      constructor
      · intro m_log opened
        cases isOpen.symm.trans opened
      · rintro ⟨-, m_log, opened, -⟩
        cases isOpen.symm.trans opened
  | some m_log =>
      obtain ⟨opened, index, size⟩ := current.reopened isOpen
      rw [isOpen] at called
      dsimp only at called
      cases writes : (appender.reopened fs).2.write m_log (formattedMessage ++ ['\n']) with
      | none =>
          rw [writes] at called
          cases called
      | some written =>
          rw [writes] at called
          obtain ⟨-, wrote⟩ := FileSystem.write_eq_some writes
          have length : written.size m_log =
              (appender.reopened fs).2.size m_log + (formattedMessage ++ ['\n']).length := by
            rw [wrote, FileSystem.size, FileSystem.setContent_self, List.length_append,
              FileSystem.size]
          have named : written.directory 0 = some m_log := by
            rw [wrote]
            exact opened.named
          dsimp only at called
          rw [length, size] at called
          split at called
          · obtain ⟨rolled, does, fresh, content, directory⟩ :=
              (appender.reopened fs).1.rollOver_backup (by rwa [index]) named
            rw [does] at called
            cases called
            have log := directory 0
            rw [if_pos rfl] at log
            rw [index] at directory
            constructor
            · intro m_log opened
              rw [fresh] at opened
              exact .inr (log.trans opened)
            · exact fun _ => opened.shifts positive wrote content directory
          next below =>
            cases called
            constructor
            · intro other opened
              rw [isOpen] at opened
              exact .inr (named.trans opened)
            · rintro ⟨limited, other, isOther, full⟩
              cases isOpen.symm.trans isOther
              exact absurd ⟨limited, full⟩ below

end FileAppender

section MultiProcessFileAppender

variable {appender : MultiProcessFileAppender} {fs : FileSystem}

theorem MultiProcessFileAppender.Current.currentLog (current : appender.Current fs) {m_log : Inode}
    (isOpen : appender.m_log = some m_log) :
    Opened fs (appender.currentLog fs m_log).2 (appender.currentLog fs m_log).1 := by
  unfold MultiProcessFileAppender.currentLog
  split
  · exact opened_log_named fs
  next below => exact opened_of_named ((current m_log isOpen).resolve_right below)

/-- The call keeps the open file current. A log that reaches the limit is rotated. -/
theorem MultiProcessFileAppender.Current.call (current : appender.Current fs)
    (positive : 0 < appender.m_maxBackupIndex) {unwritten : Nat → Char} {formattedMessage : Text}
    {after : MultiProcessFileAppender × FileSystem}
    (called : appender.doProcessLogMessage fs unwritten formattedMessage = some after) :
    after.1.Current after.2 ∧
      (appender.Rotates fs (messageLine unwritten formattedMessage) →
        Shifts appender.m_maxBackupIndex fs after.2 (messageLine unwritten formattedMessage)) := by
  unfold MultiProcessFileAppender.doProcessLogMessage at called
  cases isOpen : appender.m_log with
  | none =>
      rw [isOpen] at called
      cases called
      constructor
      · intro m_log opened
        cases isOpen.symm.trans opened
      · rintro ⟨m_log, opened, -⟩
        cases isOpen.symm.trans opened
  | some m_log =>
      have opened := current.currentLog isOpen
      rw [isOpen] at called
      dsimp only at called
      cases writes : (appender.currentLog fs m_log).2.write (appender.currentLog fs m_log).1
          (messageLine unwritten formattedMessage) with
      | none =>
          rw [writes] at called
          cases called
      | some written =>
          obtain ⟨-, wrote⟩ := FileSystem.write_eq_some writes
          have named : written.directory 0 = some (appender.currentLog fs m_log).1 := by
            rw [wrote]
            exact opened.named
          rw [writes] at called
          dsimp only at called
          split at called
          · obtain ⟨rolled, -, content, directory⟩ := appender.rollOver_backup positive named
            cases called
            constructor
            · intro other isOther
              rw [rolled] at isOther
              exact .inl (((directory 0).trans (if_pos rfl)).trans isOther)
            · exact fun _ => opened.shifts positive wrote content directory
          next below =>
            cases called
            constructor
            · exact fun other isOther => .inl (named.trans isOther)
            · rintro ⟨other, isOther, full⟩
              cases isOpen.symm.trans isOther
              exact absurd full below

end MultiProcessFileAppender

/-- While an appender has the log open, each call keeps this, and each rotation shifts the files. -/
theorem rotation_shifts (fs : FileSystem) (formattedMessage : Text) :
    (∀ (appender : FileAppender) (after : FileAppender × FileSystem),
      0 < appender.m_maxBackupIndex → appender.Current fs →
        appender.doProcessLogMessage fs formattedMessage = some after →
        after.1.Current after.2 ∧
          (appender.Rotates fs (formattedMessage ++ ['\n']) →
            Shifts appender.m_maxBackupIndex fs after.2 (formattedMessage ++ ['\n']))) ∧
      ∀ (appender : MultiProcessFileAppender) (after : MultiProcessFileAppender × FileSystem)
        (unwritten : Nat → Char), 0 < appender.m_maxBackupIndex → appender.Current fs →
        appender.doProcessLogMessage fs unwritten formattedMessage = some after →
        after.1.Current after.2 ∧
          (appender.Rotates fs (messageLine unwritten formattedMessage) →
            Shifts appender.m_maxBackupIndex fs after.2
              (messageLine unwritten formattedMessage)) := by
  constructor
  · intro appender after positive current called
    exact current.call positive called
  · intro appender after unwritten positive current called
    exact current.call positive called

/-- A message that fills a log of one kilobyte. -/
def fullMessage : Text := List.replicate 1023 'x'

theorem rotation_shifts_full :
    let start := FileAppender.construct ['l'] 1 2 .empty
    ∃ after, start.1.doProcessLogMessage start.2 fullMessage = some after ∧
      Shifts 2 start.2 after.2 (fullMessage ++ ['\n']) := by
  intro start
  have returns : (start.1.doProcessLogMessage start.2 fullMessage).isSome := by decide +kernel
  obtain ⟨after, called⟩ := Option.isSome_iff_exists.mp returns
  refine ⟨after, called, ?_⟩
  have current : start.1.Current start.2 := by
    intro m_log isOpen
    cases isOpen
    exact .inr (FileSystem.openForAppendOrCreateFile_directory _ 0)
  apply ((rotation_shifts start.2 fullMessage).1 start.1 after (by decide) current called).2
  exact ⟨by decide, 0, rfl, by decide +kernel⟩

/-- The log was removed while the process had it open, and no new log replaces it. -/
theorem rotation_stops :
    ¬ ∀ (appender : MultiProcessFileAppender) (fs : FileSystem) (unwritten : Nat → Char)
      (formattedMessage : Text) (after : MultiProcessFileAppender × FileSystem),
      0 < appender.m_maxBackupIndex →
        appender.doProcessLogMessage fs unwritten formattedMessage = some after →
        appender.Rotates fs (messageLine unwritten formattedMessage) →
        Shifts appender.m_maxBackupIndex fs after.2 (messageLine unwritten formattedMessage) := by
  intro shifts
  let start := MultiProcessFileAppender.construct 1 1 .empty
  let called := start.1.doProcessLogMessage (start.2.removeFile 0) (fun _ => 'x') fullMessage
  have gone : called.map (fun after => after.2.directory 0) = some none := by decide +kernel
  obtain ⟨after, returns, none_⟩ := Option.map_eq_some_iff.mp gone
  obtain ⟨⟨inode, log, -⟩, -⟩ :=
    shifts start.1 (start.2.removeFile 0) (fun _ => 'x') fullMessage after (by decide) returns
      ⟨0, rfl, by decide +kernel⟩
  cases none_.symm.trans log

end Blocxx.LogAppender
