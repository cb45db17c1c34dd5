import Blocxx.LogAppender.FileSystem

/-!
This file embeds `FileAppender` and `MultiProcessFileAppender` for calls whose file operations
succeed. What a stream has not flushed counts as written.
-/

namespace Blocxx.LogAppender

open Time CharString

def NO_MAX_LOG_SIZE : UInt64 := 0

section FileAppender

structure FileAppender where
  m_filename : Text
  m_maxFileSize : UInt64
  m_maxBackupIndex : Nat
  /-- The file of the stream, unless the stream failed. -/
  m_log : Option Inode

/-- `static_cast<std::streampos>`. -/
def streampos (value : UInt64) : Int := value.toInt64.toInt

/-- The stream opens the file with the name of the log in append mode. -/
def FileAppender.openLog (appender : FileAppender) (fs : FileSystem) :
    FileAppender × FileSystem :=
  let opened := fs.openForAppendOrCreateFile 0
  ({ appender with m_log := some opened.1 }, opened.2)

/-- The constructor. -/
def FileAppender.construct (filename : Text) (maxFileSize : UInt64) (maxBackupIndex : Nat)
    (fs : FileSystem) : FileAppender × FileSystem :=
  FileAppender.openLog ⟨filename, maxFileSize, maxBackupIndex, none⟩ fs

/-- The log is opened again and truncated. -/
def FileAppender.truncateLog (appender : FileAppender) (fs : FileSystem) :
    FileAppender × FileSystem :=
  let opened := fs.openForAppendOrCreateFile 0
  ({ appender with m_log := some opened.1 }, opened.2.setContent opened.1 [])

/-- The text that is logged before the stream is closed. -/
def FileAppender.failedToRename (appender : FileAppender) : Text :=
  "FileAppender::doProcessLogMessage(): Failed to rename ".toList ++ appender.m_filename ++
    " to ".toList ++ appender.m_filename ++ ".1! Logging to this file STOPPED!\n".toList

def FileAppender.rollOver (appender : FileAppender) (fs : FileSystem) (m_log : Inode) :
    Option (FileAppender × FileSystem) :=
  if appender.m_maxBackupIndex > 0 then
    let renamed := (fs.makeRoom appender.m_maxBackupIndex).renameFile 0 1
    if renamed.1 then some (appender.truncateLog renamed.2)
    else
      (renamed.2.write m_log appender.failedToRename).map fun fs =>
        ({ appender with m_log := none }, fs)
  else some (appender.truncateLog fs)

/-- No answer is a file operation that fails. -/
def FileAppender.doProcessLogMessage (appender : FileAppender) (fs : FileSystem)
    (formattedMessage : Text) : Option (FileAppender × FileSystem) :=
  -- an external rotator may have removed the file
  let reopened :=
    match fs.directory 0 with
    | some _ => (appender, fs)
    | none => appender.openLog fs
  let appender := reopened.1
  match appender.m_log with
  | none => some reopened
  | some m_log =>
      match reopened.2.write m_log (formattedMessage ++ ['\n']) with
      | none => none
      | some written =>
          if appender.m_maxFileSize ≠ NO_MAX_LOG_SIZE ∧
              (written.size m_log : Int) ≥ streampos (appender.m_maxFileSize * 1024) then
            appender.rollOver written m_log
          else some (appender, written)

end FileAppender

section MultiProcessFileAppender

structure MultiProcessFileAppender where
  m_maxFileSize : UInt64
  m_maxBackupIndex : Nat
  /-- The open file, unless the handle is invalid. -/
  m_log : Option Inode

def kbytesToBytes (max_size : UInt64) : UInt64 :=
  let oneK : UInt64 := 1024
  let biggest : UInt64 := -1
  if max_size = NO_MAX_LOG_SIZE then biggest
  else if max_size > biggest / oneK then biggest
  else max_size * oneK

def MultiProcessFileAppender.openLog (appender : MultiProcessFileAppender) (fs : FileSystem) :
    MultiProcessFileAppender × FileSystem :=
  let f := fs.openForAppendOrCreateFile 0
  ({ appender with m_log := some f.1 }, f.2)

/-- The constructor. -/
def MultiProcessFileAppender.construct (maxFileSize : UInt64) (maxBackupIndex : Nat)
    (fs : FileSystem) : MultiProcessFileAppender × FileSystem :=
  MultiProcessFileAppender.openLog ⟨kbytesToBytes maxFileSize, maxBackupIndex, none⟩ fs

/-- The file that a message is written to. The log is opened again when it has been rotated. -/
def MultiProcessFileAppender.currentLog (appender : MultiProcessFileAppender) (fs : FileSystem)
    (m_log : Inode) : Inode × FileSystem :=
  if fs.size m_log ≥ appender.m_maxFileSize.toNat then fs.openForAppendOrCreateFile 0
  else (m_log, fs)

def MultiProcessFileAppender.rollOver (appender : MultiProcessFileAppender) (fs : FileSystem) :
    MultiProcessFileAppender × FileSystem :=
  if appender.m_maxBackupIndex > 0 then
    let renamed := (fs.makeRoom appender.m_maxBackupIndex).renameFile 0 1
    if renamed.1 then appender.openLog renamed.2
    else ({ appender with m_log := none }, renamed.2)
  else appender.openLog fs

/-- The text that is written for a message. -/
def messageLine (unwritten : Nat → Char) (formattedMessage : Text) : Text :=
  concat unwritten formattedMessage ['\n']

/-- The process holds the lock file. No answer is a file operation that fails. -/
def MultiProcessFileAppender.doProcessLogMessage (appender : MultiProcessFileAppender)
    (fs : FileSystem) (unwritten : Nat → Char) (formattedMessage : Text) :
    Option (MultiProcessFileAppender × FileSystem) :=
  match appender.m_log with
  | none => some (appender, fs)
  | some m_log =>
      let log := appender.currentLog fs m_log
      let s := messageLine unwritten formattedMessage
      match log.2.write log.1 s with
      | none => none
      | some written =>
          if log.2.size log.1 + s.length ≥ appender.m_maxFileSize.toNat then
            some (appender.rollOver written)
          else some ({ appender with m_log := some log.1 }, written)

/-- The log becomes the first backup file, and the process has a new empty log open. -/
theorem MultiProcessFileAppender.rollOver_backup (appender : MultiProcessFileAppender)
    {fs : FileSystem} (positive : 0 < appender.m_maxBackupIndex) {inode : Inode}
    (named : fs.directory 0 = some inode) :
    (appender.rollOver fs).1 = { appender with m_log := some fs.nextInode } ∧
      (appender.rollOver fs).2.nextInode = fs.nextInode + 1 ∧
      (appender.rollOver fs).2.content = Function.update fs.content fs.nextInode [] ∧
      ∀ name, (appender.rollOver fs).2.directory name =
        if name = 0 then some fs.nextInode
        else if name ≤ appender.m_maxBackupIndex then fs.directory (name - 1)
        else fs.directory name := by
  obtain ⟨renamed, fresh, later, contents, directory⟩ := FileSystem.rolled positive named
  unfold MultiProcessFileAppender.rollOver
  rw [if_pos positive]
  dsimp only
  rw [if_pos renamed]
  refine ⟨?_, later, contents, directory⟩
  rw [MultiProcessFileAppender.openLog, fresh]

/-- Without backup files the log stays as it is. -/
theorem MultiProcessFileAppender.rollOver_none (appender : MultiProcessFileAppender)
    {fs : FileSystem} (none_kept : ¬ 0 < appender.m_maxBackupIndex) {inode : Inode}
    (named : fs.directory 0 = some inode) : (appender.rollOver fs).2 = fs := by
  unfold MultiProcessFileAppender.rollOver
  rw [if_neg none_kept, MultiProcessFileAppender.openLog,
    FileSystem.openForAppendOrCreateFile_named named]

end MultiProcessFileAppender

theorem messageLine_length (unwritten : Nat → Char) (formattedMessage : Text) :
    (messageLine unwritten formattedMessage).length = formattedMessage.length + 1 := by
  unfold messageLine
  rw [concat_length]
  rfl

theorem kbytesToBytes_toNat {max_size : UInt64} (limited : max_size ≠ NO_MAX_LOG_SIZE) :
    (kbytesToBytes max_size).toNat = min (max_size.toNat * 1024) (2 ^ 64 - 1) := by
  have biggest : ((-1 : UInt64) / 1024).toNat = 2 ^ 54 - 1 := by decide
  have bounded := max_size.toNat_lt
  unfold kbytesToBytes
  dsimp only
  rw [if_neg limited]
  split
  next large =>
    have above := UInt64.lt_iff_toNat_lt.mp large
    rw [biggest] at above
    show 2 ^ 64 - 1 = _
    omega
  next small =>
    have below := mt UInt64.lt_iff_toNat_lt.mpr small
    rw [biggest] at below
    rw [UInt64.toNat_mul]
    show max_size.toNat * 1024 % 2 ^ 64 = _
    omega

theorem limited_pos {max_size : UInt64} (limited : max_size ≠ NO_MAX_LOG_SIZE) :
    0 < max_size.toNat :=
  Nat.pos_of_ne_zero fun zero => limited (UInt64.toNat_inj.mp zero)

theorem kbytesToBytes_pos (max_size : UInt64) : 0 < (kbytesToBytes max_size).toNat := by
  by_cases limited : max_size = NO_MAX_LOG_SIZE
  · rw [limited]
    decide
  · have positive := limited_pos limited
    rw [kbytesToBytes_toNat limited]
    omega

/-- A limit below `2 ^ 63` bytes is converted without change. -/
theorem streampos_small {max_size : UInt64} (small : max_size.toNat * 1024 < 2 ^ 63) :
    streampos (max_size * 1024) = max_size.toNat * 1024 := by
  show (max_size * 1024).toBitVec.toInt = _
  have product : (max_size * 1024).toBitVec.toNat = max_size.toNat * 1024 := by
    rw [UInt64.toNat_toBitVec, UInt64.toNat_mul]
    show max_size.toNat * 1024 % 2 ^ 64 = _
    omega
  rw [BitVec.toInt_eq_toNat_of_lt (by omega), product]
  push_cast
  rfl

end Blocxx.LogAppender
