import Blocxx.String.Text

/-!
This file models the files of one log and embeds the file operations of the appenders. The name 0
is the name of the log, and the name `k` is the name of its backup file with the number `k`.
-/

namespace Blocxx.LogAppender

open Time

abbrev Inode := Nat

/-- The names and the contents of the files. An inode without a name is still open or was removed,
and no inode is used twice. -/
structure FileSystem where
  directory : Nat → Option Inode
  content : Inode → Text
  nextInode : Inode
  below : ∀ name inode, directory name = some inode → inode < nextInode
  distinct : ∀ first second inode, directory first = some inode → directory second = some inode →
    first = second

/-- The largest offset of a file. -/
def OFF_MAX : Nat := 2 ^ 63 - 1

namespace FileSystem

variable (fs : FileSystem)

def empty : FileSystem where
  directory _ := none
  content _ := []
  nextInode := 0
  below _ _ named := by cases named
  distinct _ _ _ named _ := by cases named

def size (inode : Inode) : Nat := (fs.content inode).length

/-- The content of the file with a name. -/
def contentAt (name : Nat) : Text :=
  match fs.directory name with
  | some inode => fs.content inode
  | none => []

/-- A name gets a new empty file. -/
def create (name : Nat) : FileSystem where
  directory := Function.update fs.directory name (some fs.nextInode)
  content := Function.update fs.content fs.nextInode []
  nextInode := fs.nextInode + 1
  below other inode named := by
    by_cases same : other = name
    · rw [same, Function.update_self] at named
      cases named
      exact Nat.lt_succ_self _
    · rw [Function.update_of_ne same] at named
      exact (fs.below other inode named).trans (Nat.lt_succ_self _)
  distinct first second inode one other := by
    by_cases same : first = name
    · by_cases sameToo : second = name
      · rw [same, sameToo]
      · rw [same, Function.update_self] at one
        rw [Function.update_of_ne sameToo] at other
        cases one
        exact absurd (fs.below second _ other) (Nat.lt_irrefl _)
    · rw [Function.update_of_ne same] at one
      by_cases sameToo : second = name
      · rw [sameToo, Function.update_self] at other
        cases other
        exact absurd (fs.below first _ one) (Nat.lt_irrefl _)
      · rw [Function.update_of_ne sameToo] at other
        exact fs.distinct first second inode one other

def openForAppendOrCreateFile (name : Nat) : Inode × FileSystem :=
  match fs.directory name with
  | some inode => (inode, fs)
  | none => (fs.nextInode, fs.create name)

/-- The file has this content from now on. -/
def setContent (inode : Inode) (text : Text) : FileSystem :=
  { fs with content := Function.update fs.content inode text }

/-- A write at the end of a file. No answer is a failure. -/
def write (inode : Inode) (text : Text) : Option FileSystem :=
  if fs.size inode + text.length ≤ OFF_MAX then
    some (fs.setContent inode (fs.content inode ++ text))
  else none

def removeFile (name : Nat) : FileSystem where
  directory := Function.update fs.directory name none
  content := fs.content
  nextInode := fs.nextInode
  below other inode named := by
    by_cases same : other = name
    · rw [same, Function.update_self] at named
      cases named
    · rw [Function.update_of_ne same] at named
      exact fs.below other inode named
  distinct first second inode one other := by
    by_cases same : first = name
    · rw [same, Function.update_self] at one
      cases one
    · by_cases sameToo : second = name
      · rw [sameToo, Function.update_self] at other
        cases other
      · rw [Function.update_of_ne same] at one
        rw [Function.update_of_ne sameToo] at other
        exact fs.distinct first second inode one other

/-- The file with the old name has the new one, and a file with the new name loses it. -/
def move (oldName newName : Nat) : FileSystem where
  directory := Function.update (Function.update fs.directory newName (fs.directory oldName))
    oldName none
  content := fs.content
  nextInode := fs.nextInode
  below other inode named := by
    by_cases old : other = oldName
    · rw [old, Function.update_self] at named
      cases named
    · rw [Function.update_of_ne old] at named
      by_cases new : other = newName
      · rw [new, Function.update_self] at named
        exact fs.below oldName inode named
      · rw [Function.update_of_ne new] at named
        exact fs.below other inode named
  distinct first second inode one other := by
    by_cases old : first = oldName
    · rw [old, Function.update_self] at one
      cases one
    by_cases oldToo : second = oldName
    · rw [oldToo, Function.update_self] at other
      cases other
    rw [Function.update_of_ne old] at one
    rw [Function.update_of_ne oldToo] at other
    by_cases new : first = newName
    · by_cases newToo : second = newName
      · rw [new, newToo]
      · rw [new, Function.update_self] at one
        rw [Function.update_of_ne newToo] at other
        exact absurd (fs.distinct _ _ _ other one) oldToo
    · rw [Function.update_of_ne new] at one
      by_cases newToo : second = newName
      · rw [newToo, Function.update_self] at other
        exact absurd (fs.distinct _ _ _ one other) old
      · rw [Function.update_of_ne newToo] at other
        exact fs.distinct first second inode one other

/-- It fails when there is no file with the old name. -/
def renameFile (oldName newName : Nat) : Bool × FileSystem :=
  match fs.directory oldName with
  | some _ => (true, fs.move oldName newName)
  | none => (false, fs)

/-- The loop that renames the backup files from this number down to 1. -/
def incrementBackups : Nat → FileSystem → FileSystem
  | 0, fs => fs
  | i + 1, fs => incrementBackups i (fs.renameFile (i + 1) (i + 2)).2

/-- The oldest backup file is removed, and the numbers of the others are incremented. -/
def makeRoom (maxBackupIndex : Nat) : FileSystem :=
  incrementBackups (maxBackupIndex - 1) (fs.removeFile maxBackupIndex)

section Lemmas

variable {fs}

theorem openForAppendOrCreateFile_named {name : Nat} {inode : Inode}
    (named : fs.directory name = some inode) :
    fs.openForAppendOrCreateFile name = (inode, fs) := by
  rw [openForAppendOrCreateFile, named]

theorem openForAppendOrCreateFile_new {name : Nat} (unnamed : fs.directory name = none) :
    fs.openForAppendOrCreateFile name = (fs.nextInode, fs.create name) := by
  rw [openForAppendOrCreateFile, unnamed]

theorem create_directory (fs : FileSystem) (name : Nat) :
    (fs.create name).directory name = some fs.nextInode := by
  rw [create]
  exact Function.update_self _ _ _

/-- The opened file has the name. -/
theorem openForAppendOrCreateFile_directory (fs : FileSystem) (name : Nat) :
    (fs.openForAppendOrCreateFile name).2.directory name =
      some (fs.openForAppendOrCreateFile name).1 := by
  cases named : fs.directory name with
  | some inode =>
      rw [openForAppendOrCreateFile_named named]
      exact named
  | none =>
      rw [openForAppendOrCreateFile_new named]
      exact fs.create_directory name

theorem write_eq_some {inode : Inode} {text : Text} {written : FileSystem}
    (succeeds : fs.write inode text = some written) :
    fs.size inode + text.length ≤ OFF_MAX ∧
      written = fs.setContent inode (fs.content inode ++ text) := by
  unfold write at succeeds
  split at succeeds
  next fits => exact ⟨fits, (Option.some.inj succeeds).symm⟩
  · cases succeeds

theorem contentAt_free {name : Nat} (free : fs.directory name = none) :
    fs.contentAt name = [] := by
  rw [contentAt, free]

theorem contentAt_named {name : Nat} {inode : Inode} (named : fs.directory name = some inode) :
    fs.contentAt name = fs.content inode := by
  rw [contentAt, named]

theorem setContent_self (fs : FileSystem) (inode : Inode) (text : Text) :
    (fs.setContent inode text).content inode = text := Function.update_self _ _ _

theorem renameFile_vacant {oldName newName : Nat} (vacant : fs.directory newName = none) :
    (fs.renameFile oldName newName).2.directory =
      Function.update (Function.update fs.directory newName (fs.directory oldName)) oldName none := by
  cases named : fs.directory oldName with
  | some inode =>
      rw [renameFile, named]
      show Function.update (Function.update fs.directory newName (fs.directory oldName)) oldName
        none = _
      rw [named]
  | none =>
      have newSame : Function.update fs.directory newName none = fs.directory := by
        rw [← vacant, Function.update_eq_self]
      have oldSame : Function.update fs.directory oldName none = fs.directory := by
        rw [← named, Function.update_eq_self]
      rw [renameFile, named, newSame, oldSame]

theorem renameFile_content (fs : FileSystem) (oldName newName : Nat) :
    (fs.renameFile oldName newName).2.content = fs.content ∧
      (fs.renameFile oldName newName).2.nextInode = fs.nextInode := by
  unfold renameFile
  split
  · exact ⟨rfl, rfl⟩
  · exact ⟨rfl, rfl⟩

theorem incrementBackups_content (i : Nat) : ∀ fs : FileSystem,
    (incrementBackups i fs).content = fs.content ∧
      (incrementBackups i fs).nextInode = fs.nextInode := by
  induction i with
  | zero => exact fun fs => ⟨rfl, rfl⟩
  | succ i ih =>
      intro fs
      have renamed := fs.renameFile_content (i + 1) (i + 2)
      have rest := ih (fs.renameFile (i + 1) (i + 2)).2
      exact ⟨rest.1.trans renamed.1, rest.2.trans renamed.2⟩

/-- The names after the loop when the name behind the last one is free. -/
theorem incrementBackups_directory (i : Nat) : ∀ fs : FileSystem, fs.directory (i + 1) = none →
    ∀ name, (incrementBackups i fs).directory name =
      if name = 1 then none
      else if 2 ≤ name ∧ name ≤ i + 1 then fs.directory (name - 1) else fs.directory name := by
  induction i with
  | zero =>
      intro fs vacant name
      show fs.directory name = _
      by_cases first : name = 1
      · rw [if_pos first, first]
        exact vacant
      · rw [if_neg first, if_neg (by omega)]
  | succ i ih =>
      intro fs vacant name
      have renamed := @renameFile_vacant fs (i + 1) _ vacant
      rw [incrementBackups, ih _ (by rw [renamed, Function.update_self]), renamed]
      by_cases first : name = 1
      · rw [if_pos first, if_pos first]
      rw [if_neg first, if_neg first]
      by_cases last : name = i + 2
      · rw [if_neg (by omega), if_pos (by omega), Function.update_of_ne (by omega), last,
          Function.update_self]
        rfl
      · by_cases inside : 2 ≤ name ∧ name ≤ i + 1
        · rw [if_pos inside, if_pos (by omega), Function.update_of_ne (by omega),
            Function.update_of_ne (by omega)]
        · rw [if_neg inside, if_neg (by omega), Function.update_of_ne (by omega),
            Function.update_of_ne last]

/-- The backup files after room is made for one more. -/
theorem makeRoom_directory (fs : FileSystem) {maxBackupIndex : Nat} (positive : 0 < maxBackupIndex)
    (name : Nat) :
    (fs.makeRoom maxBackupIndex).directory name =
      if name = 1 then none
      else if 2 ≤ name ∧ name ≤ maxBackupIndex then fs.directory (name - 1)
      else fs.directory name := by
  have removed : (fs.removeFile maxBackupIndex).directory =
      Function.update fs.directory maxBackupIndex none := rfl
  have last : maxBackupIndex - 1 + 1 = maxBackupIndex := by omega
  rw [makeRoom, incrementBackups_directory, removed]
  · rw [last]
    by_cases first : name = 1
    · rw [if_pos first, if_pos first]
    rw [if_neg first, if_neg first]
    by_cases inside : 2 ≤ name ∧ name ≤ maxBackupIndex
    · rw [if_pos inside, if_pos inside, Function.update_of_ne (by omega)]
    · rw [if_neg inside, if_neg inside, Function.update_of_ne (by omega)]
  · rw [last, removed, Function.update_self]

theorem makeRoom_content (fs : FileSystem) (maxBackupIndex : Nat) :
    (fs.makeRoom maxBackupIndex).content = fs.content ∧
      (fs.makeRoom maxBackupIndex).nextInode = fs.nextInode :=
  incrementBackups_content _ _

/-- The files after the log got the number 1 and a new log was opened. -/
theorem rolled {fs : FileSystem} {maxBackupIndex : Nat} (positive : 0 < maxBackupIndex)
    {inode : Inode} (named : fs.directory 0 = some inode) :
    ((fs.makeRoom maxBackupIndex).renameFile 0 1).1 = true ∧
      let opened := ((fs.makeRoom maxBackupIndex).renameFile 0 1).2.openForAppendOrCreateFile 0
      opened.1 = fs.nextInode ∧ opened.2.nextInode = fs.nextInode + 1 ∧
        opened.2.content = Function.update fs.content fs.nextInode [] ∧
        ∀ name, opened.2.directory name =
          if name = 0 then some fs.nextInode
          else if name ≤ maxBackupIndex then fs.directory (name - 1) else fs.directory name := by
  have room := fs.makeRoom_directory positive
  have first : (fs.makeRoom maxBackupIndex).directory 0 = some inode := by
    rw [room, if_neg (by omega), if_neg (by omega)]
    exact named
  have vacant : (fs.makeRoom maxBackupIndex).directory 1 = none := by
    rw [room, if_pos rfl]
  have renamed := @renameFile_vacant _ 0 _ vacant
  have unnamed : ((fs.makeRoom maxBackupIndex).renameFile 0 1).2.directory 0 = none := by
    rw [renamed, Function.update_self]
  have contents := (fs.makeRoom maxBackupIndex).renameFile_content 0 1
  rw [(fs.makeRoom_content _).1, (fs.makeRoom_content _).2] at contents
  refine ⟨by rw [renameFile, first], ?_⟩
  dsimp only
  rw [openForAppendOrCreateFile_new unnamed]
  refine ⟨contents.2, congrArg (· + 1) contents.2, ?_, ?_⟩
  · show Function.update _ _ _ = _
    rw [contents.1, contents.2]
  · intro name
    show Function.update _ _ _ name = _
    rw [contents.2, renamed]
    by_cases new : name = 0
    · rw [new, Function.update_self, if_pos rfl]
    rw [Function.update_of_ne new, Function.update_of_ne new, if_neg new]
    by_cases one : name = 1
    · rw [one, Function.update_self, if_pos (by omega), first, named]
    rw [Function.update_of_ne one, room, if_neg one]
    by_cases inside : name ≤ maxBackupIndex
    · rw [if_pos inside, if_pos (by omega)]
    · rw [if_neg inside, if_neg (by omega)]

end Lemmas

end FileSystem

end Blocxx.LogAppender
