import Blocxx.Library.TransitionSystem
import Blocxx.LogAppender.Appenders

/-!
This file proves that processes that share a log lose only its oldest files.
-/

namespace Blocxx.LogAppender

open Time Library

/-- Where a message went: the file, and the file with the name of the log at the write. -/
structure Placement where
  inode : Option Inode
  named : Option Inode
  line : Text

/-- The files, the appender of each process, and all messages in the order of the lock. -/
structure Logging where
  fs : FileSystem
  appender : Nat → Option MultiProcessFileAppender
  history : List Placement

def Logging.empty : Logging := ⟨.empty, fun _ => none, []⟩

inductive Action where
  | construct (process : Nat)
  | destroy (process : Nat)
  | message (process : Nat) (formattedMessage : Text) (unwritten : Nat → Char)

/-- Where the appender writes its next message. -/
def MultiProcessFileAppender.placement (appender : MultiProcessFileAppender) (fs : FileSystem)
    (line : Text) : Placement :=
  match appender.m_log with
  | none => ⟨none, fs.directory 0, line⟩
  | some m_log =>
      let log := appender.currentLog fs m_log
      ⟨some log.1, log.2.directory 0, line⟩

/-- The processes use the same limit and the same number of backup files. -/
def logging (maxFileSize : UInt64) (maxBackupIndex : Nat) : TransitionSystem Logging Action where
  initial state := state = .empty
  step state action next :=
    match action with
    | .construct process =>
        let constructed := MultiProcessFileAppender.construct maxFileSize maxBackupIndex state.fs
        next = ⟨constructed.2, Function.update state.appender process (some constructed.1),
          state.history⟩
    | .destroy process =>
        next = { state with appender := Function.update state.appender process none }
    | .message process formattedMessage unwritten =>
        ∃ appender after, state.appender process = some appender ∧
          appender.doProcessLogMessage state.fs unwritten formattedMessage = some after ∧
          next = ⟨after.2, Function.update state.appender process (some after.1),
            state.history ++
              [appender.placement state.fs (messageLine unwritten formattedMessage)]⟩

section Chain

/-- The contents of the backup files from this number down and of the log, in this order. -/
def FileSystem.chain (fs : FileSystem) : Nat → Text
  | 0 => fs.contentAt 0
  | name + 1 => fs.contentAt (name + 1) ++ fs.chain name

def lines (placements : List Placement) : Text := placements.flatMap Placement.line

/-- The messages of the files from this number down, in this order. -/
def gather (file : Nat → List Placement) : Nat → List Placement
  | 0 => file 0
  | name + 1 => file (name + 1) ++ gather file name

/-- The messages that are kept, by the file that holds them, come after the lost ones. -/
structure Kept (maxBackupIndex : Nat) (fs : FileSystem) (history lost : List Placement)
    (file : Nat → List Placement) : Prop where
  history : history = lost ++ gather file maxBackupIndex
  content : ∀ name ≤ maxBackupIndex, fs.contentAt name = lines (file name)
  inode : ∀ name ≤ maxBackupIndex, ∀ placement ∈ file name, placement.inode = fs.directory name
  gone : ∀ placement ∈ lost, ∀ name ≤ maxBackupIndex, placement.inode ≠ fs.directory name
  numbered : ∀ name < maxBackupIndex, fs.directory (name + 1) ≠ none → fs.directory name ≠ none
  full : lost ≠ [] → ∀ name ≤ maxBackupIndex, fs.directory name ≠ none

theorem lines_append (first second : List Placement) :
    lines (first ++ second) = lines first ++ lines second := List.flatMap_append

theorem Kept.chain {maxBackupIndex : Nat} {fs : FileSystem} {history lost : List Placement}
    {file : Nat → List Placement} (kept : Kept maxBackupIndex fs history lost file) :
    ∀ name ≤ maxBackupIndex, fs.chain name = lines (gather file name) := by
  intro name
  induction name with
  | zero => exact fun inside => kept.content 0 inside
  | succ name ih =>
      intro inside
      rw [FileSystem.chain, gather, lines_append, ih (by omega), kept.content _ inside]

theorem mem_gather {file : Nat → List Placement} {placement : Placement} {name : Nat}
    (mem : placement ∈ file name) (top : Nat) (inside : name ≤ top) :
    placement ∈ gather file top := by
  induction top with
  | zero =>
      obtain rfl := Nat.le_zero.mp inside
      exact mem
  | succ top ih =>
      rw [gather, List.mem_append]
      rcases Nat.lt_or_eq_of_le inside with less | rfl
      · exact .inr (ih (Nat.le_of_lt_succ less))
      · exact .inl mem

theorem of_mem_gather {file : Nat → List Placement} {placement : Placement} {top : Nat}
    (mem : placement ∈ gather file top) : ∃ name ≤ top, placement ∈ file name := by
  induction top with
  | zero => exact ⟨0, le_rfl, mem⟩
  | succ top ih =>
      rcases List.mem_append.mp mem with mem | mem
      · exact ⟨top + 1, le_rfl, mem⟩
      · obtain ⟨name, inside, mem⟩ := ih mem
        exact ⟨name, Nat.le_succ_of_le inside, mem⟩

theorem Kept.mem_history {maxBackupIndex : Nat} {fs : FileSystem}
    {history lost : List Placement} {file : Nat → List Placement}
    (kept : Kept maxBackupIndex fs history lost file) {placement : Placement} {name : Nat}
    (inside : name ≤ maxBackupIndex) (mem : placement ∈ file name) : placement ∈ history := by
  rw [kept.history, List.mem_append]
  exact .inr (mem_gather mem _ inside)

/-- The messages of each file are one number higher. -/
def shift (file : Nat → List Placement) : Nat → List Placement
  | 0 => []
  | name + 1 => file name

theorem gather_shift (file : Nat → List Placement) (name : Nat) :
    gather (shift file) (name + 1) = gather file name := by
  induction name with
  | zero => exact List.append_nil _
  | succ name ih =>
      rw [gather, ih]
      rfl

theorem gather_nil (name : Nat) : gather (fun _ => []) name = [] := by
  induction name with
  | zero => rfl
  | succ name ih => rw [gather, ih, List.nil_append]

theorem gather_append (file : Nat → List Placement) (placement : Placement) (name : Nat) :
    gather (Function.update file 0 (file 0 ++ [placement])) name =
      gather file name ++ [placement] := by
  induction name with
  | zero => exact Function.update_self _ _ _
  | succ name ih =>
      rw [gather, gather, ih, Function.update_of_ne (Nat.succ_ne_zero name), List.append_assoc]

end Chain

section Steps

variable {limit maxBackupIndex : Nat} {fs later : FileSystem} {history : List Placement}

/-- Every message went to the file with the name of the log, and the kept files hold the messages
behind the lost ones. -/
structure Filed (maxBackupIndex : Nat) (fs : FileSystem) (history : List Placement) : Prop where
  placed : ∀ placement ∈ history, ∃ inode, placement.inode = some inode ∧
    placement.named = some inode ∧ inode < fs.nextInode
  kept : ∃ lost file, Kept maxBackupIndex fs history lost file

/-- The log is smaller than the limit. -/
def Small (limit : Nat) (fs : FileSystem) : Prop :=
  ∀ inode, fs.directory 0 = some inode → fs.size inode < limit

/-- An open file is the log, or it was rotated and its size tells so. -/
def Detectable (limit : Nat) (fs : FileSystem) (inode : Inode) : Prop :=
  inode < fs.nextInode ∧ (fs.directory 0 = some inode ∨ limit ≤ fs.size inode)

/-- Files only grow, and the log gets another name only when it has reached the limit. -/
structure Extends (limit : Nat) (fs later : FileSystem) : Prop where
  nextInode : fs.nextInode ≤ later.nextInode
  size : ∀ inode < fs.nextInode, fs.size inode ≤ later.size inode
  directory : ∀ inode, fs.directory 0 = some inode →
    later.directory 0 = some inode ∨ limit ≤ later.size inode

theorem Extends.refl (limit : Nat) (fs : FileSystem) : Extends limit fs fs :=
  ⟨le_rfl, fun _ _ => le_rfl, fun _ named => .inl named⟩

theorem Extends.detectable (extended : Extends limit fs later) {inode : Inode}
    (detectable : Detectable limit fs inode) : Detectable limit later inode := by
  obtain ⟨used, named | full⟩ := detectable
  · exact ⟨used.trans_le extended.nextInode, extended.directory inode named⟩
  · exact ⟨used.trans_le extended.nextInode, .inr (full.trans (extended.size inode used))⟩

theorem Extends.trans {last : FileSystem} (first : Extends limit fs later)
    (second : Extends limit later last) : Extends limit fs last := by
  refine ⟨first.nextInode.trans second.nextInode, ?_, ?_⟩
  · intro inode used
    exact (first.size inode used).trans (second.size inode (used.trans_le first.nextInode))
  · intro inode named
    exact (second.detectable (first.detectable ⟨fs.below 0 inode named, .inl named⟩)).2

/-- A log that is created is empty, and it holds no message yet. -/
theorem Filed.create (filed : Filed maxBackupIndex fs history) (unnamed : fs.directory 0 = none) :
    Filed maxBackupIndex (fs.create 0) history := by
  obtain ⟨placed, lost, file, kept⟩ := filed
  have old (name : Nat) (other : name ≠ 0) :
      (fs.create 0).directory name = fs.directory name := Function.update_of_ne other _ _
  have new := fs.create_directory 0
  have nothing : file 0 = [] := by
    apply List.eq_nil_iff_forall_not_mem.mpr
    intro placement mem
    obtain ⟨inode, went, -⟩ := placed placement (kept.mem_history (Nat.zero_le _) mem)
    rw [kept.inode 0 (Nat.zero_le _) placement mem, unnamed] at went
    cases went
  refine ⟨?_, lost, file, kept.history, ?_, ?_, ?_, ?_, ?_⟩
  · intro placement mem
    obtain ⟨inode, went, named, used⟩ := placed placement mem
    exact ⟨inode, went, named, used.trans (Nat.lt_succ_self _)⟩
  · intro name inside
    by_cases log : name = 0
    · rw [log, nothing, FileSystem.contentAt_named new]
      exact Function.update_self _ _ _
    · rw [← kept.content name inside, FileSystem.contentAt, FileSystem.contentAt, old name log]
      cases named : fs.directory name with
      | none => rfl
      | some inode => exact Function.update_of_ne (fs.below name inode named).ne _ _
  · intro name inside placement mem
    by_cases log : name = 0
    · rw [log, nothing] at mem
      cases mem
    · rw [old name log]
      exact kept.inode name inside placement mem
  · intro placement mem name inside
    by_cases log : name = 0
    · have here : placement ∈ history := by
        rw [kept.history]
        exact List.mem_append_left _ mem
      obtain ⟨inode, went, -, used⟩ := placed placement here
      rw [log, new, went]
      intro same
      exact used.ne (Option.some.inj same)
    · rw [old name log]
      exact kept.gone placement mem name inside
  · intro name inside present
    by_cases log : name = 0
    · rw [log, new]
      exact Option.some_ne_none _
    · rw [old _ (Nat.succ_ne_zero name)] at present
      rw [old name log]
      exact kept.numbered name inside present
  · intro some_lost name inside
    by_cases log : name = 0
    · rw [log, new]
      exact Option.some_ne_none _
    · rw [old name log]
      exact kept.full some_lost name inside

theorem extends_create (limit : Nat) (unnamed : fs.directory 0 = none) :
    Extends limit fs (fs.create 0) := by
  refine ⟨Nat.le_succ _, ?_, ?_⟩
  · intro inode used
    have same : (fs.create 0).content inode = fs.content inode :=
      Function.update_of_ne used.ne _ _
    rw [FileSystem.size, FileSystem.size, same]
  · intro inode named
    rw [unnamed] at named
    cases named

/-- The file that is opened under the name of the log is the log, and it is small. -/
theorem opened_log (positive : 0 < limit) (filed : Filed maxBackupIndex fs history)
    (small : Small limit fs) :
    Filed maxBackupIndex (fs.openForAppendOrCreateFile 0).2 history ∧
      Small limit (fs.openForAppendOrCreateFile 0).2 ∧
      Extends limit fs (fs.openForAppendOrCreateFile 0).2 := by
  cases named : fs.directory 0 with
  | some inode =>
      rw [FileSystem.openForAppendOrCreateFile_named named]
      exact ⟨filed, small, .refl limit fs⟩
  | none =>
      rw [FileSystem.openForAppendOrCreateFile_new named]
      refine ⟨filed.create named, ?_, extends_create limit named⟩
      intro inode isLog
      rw [fs.create_directory 0] at isLog
      cases isLog
      have read : (fs.create 0).content fs.nextInode = [] := Function.update_self _ _ _
      rw [FileSystem.size, read]
      exact positive

/-- The size test finds out whether the open file is still the log. -/
theorem currentLog_log {appender : MultiProcessFileAppender}
    (positive : 0 < appender.m_maxFileSize.toNat) (filed : Filed maxBackupIndex fs history)
    (small : Small appender.m_maxFileSize.toNat fs) {m_log : Inode}
    (detectable : Detectable appender.m_maxFileSize.toNat fs m_log) :
    (appender.currentLog fs m_log).2.directory 0 = some (appender.currentLog fs m_log).1 ∧
      Filed maxBackupIndex (appender.currentLog fs m_log).2 history ∧
      Small appender.m_maxFileSize.toNat (appender.currentLog fs m_log).2 ∧
      Extends appender.m_maxFileSize.toNat fs (appender.currentLog fs m_log).2 := by
  unfold MultiProcessFileAppender.currentLog
  split
  · exact ⟨fs.openForAppendOrCreateFile_directory 0, opened_log positive filed small⟩
  next below =>
    exact ⟨detectable.2.resolve_right below, filed, small, .refl _ fs⟩

/-- A line that is written to the log is the last message of the log. -/
theorem Filed.write (filed : Filed maxBackupIndex fs history) {inode : Inode}
    (named : fs.directory 0 = some inode) (line : Text) :
    Filed maxBackupIndex (fs.setContent inode (fs.content inode ++ line))
      (history ++ [⟨some inode, some inode, line⟩]) := by
  obtain ⟨placed, lost, file, kept⟩ := filed
  refine ⟨?_, lost, Function.update file 0 (file 0 ++ [⟨some inode, some inode, line⟩]), ?_, ?_, ?_,
    kept.gone, kept.numbered, kept.full⟩
  · intro placement mem
    rcases List.mem_append.mp mem with mem | last
    · exact placed placement mem
    · rw [List.mem_singleton.mp last]
      exact ⟨inode, rfl, rfl, fs.below 0 inode named⟩
  · rw [gather_append, kept.history, List.append_assoc]
  · intro name inside
    by_cases log : name = 0
    · rw [log, Function.update_self, lines_append, ← kept.content 0 (Nat.zero_le _),
        FileSystem.contentAt_named named,
        FileSystem.contentAt_named (show (fs.setContent _ _).directory 0 = some inode from named),
        FileSystem.setContent_self]
      exact congrArg _ (List.append_nil line).symm
    · rw [Function.update_of_ne log, ← kept.content name inside]
      cases other : fs.directory name with
      | none =>
          rw [FileSystem.contentAt_free other]
          exact FileSystem.contentAt_free other
      | some different =>
          rw [FileSystem.contentAt_named other]
          have still : (fs.setContent inode (fs.content inode ++ line)).directory name =
              some different := other
          rw [FileSystem.contentAt_named still]
          apply Function.update_of_ne
          rintro rfl
          exact log (fs.distinct _ _ _ other named)
  · intro name inside placement mem
    show placement.inode = fs.directory name
    by_cases log : name = 0
    · rw [log, Function.update_self, List.mem_append, List.mem_singleton] at mem
      rw [log, named]
      rcases mem with mem | rfl
      · rw [← named]
        exact kept.inode 0 (Nat.zero_le _) placement mem
      · rfl
    · rw [Function.update_of_ne log] at mem
      exact kept.inode name inside placement mem

theorem extends_write (limit : Nat) (inode : Inode) (line : Text) :
    Extends limit fs (fs.setContent inode (fs.content inode ++ line)) := by
  refine ⟨le_rfl, ?_, fun other named => .inl named⟩
  intro other used
  by_cases same : other = inode
  · rw [same, FileSystem.size, FileSystem.size, FileSystem.setContent_self, List.length_append]
    exact Nat.le_add_right _ _
  · have read : (fs.setContent inode (fs.content inode ++ line)).content other =
        fs.content other := Function.update_of_ne same _ _
    rw [FileSystem.size, FileSystem.size, read]

/-- The numbers below one that is in use are in use. -/
theorem Kept.present_below {lost : List Placement} {file : Nat → List Placement}
    (kept : Kept maxBackupIndex fs history lost file) (last : fs.directory maxBackupIndex ≠ none)
    (steps : Nat) (inside : steps ≤ maxBackupIndex) :
    fs.directory (maxBackupIndex - steps) ≠ none := by
  induction steps with
  | zero => exact last
  | succ steps ih =>
      apply kept.numbered _ (by omega)
      have next : maxBackupIndex - (steps + 1) + 1 = maxBackupIndex - steps := by omega
      rw [next]
      exact ih (by omega)

/-- The files are renamed, the messages of the oldest one are lost, and the new log is empty. -/
theorem Filed.roll (filed : Filed maxBackupIndex fs history) (positive : 0 < maxBackupIndex)
    (nextInode : later.nextInode = fs.nextInode + 1)
    (content : later.content = Function.update fs.content fs.nextInode [])
    (directory : ∀ name, later.directory name =
      if name = 0 then some fs.nextInode
      else if name ≤ maxBackupIndex then fs.directory (name - 1) else fs.directory name) :
    Filed maxBackupIndex later history := by
  obtain ⟨placed, lost, file, kept⟩ := filed
  obtain ⟨number, rfl⟩ := Nat.exists_eq_add_of_lt positive
  rw [Nat.zero_add] at *
  have new : later.directory 0 = some fs.nextInode := by rw [directory, if_pos rfl]
  have old (name : Nat) (inside : name + 1 ≤ number + 1) :
      later.directory (name + 1) = fs.directory name := by
    rw [directory, if_neg (Nat.succ_ne_zero name), if_pos inside, Nat.add_sub_cancel]
  have lost_placed {placement : Placement} (mem : placement ∈ lost ++ file (number + 1)) :
      ∃ inode, placement.inode = some inode ∧ inode < fs.nextInode := by
    have here : placement ∈ history := by
      rw [kept.history, gather, ← List.append_assoc]
      exact List.mem_append_left _ mem
    obtain ⟨inode, went, -, used⟩ := placed placement here
    exact ⟨inode, went, used⟩
  refine ⟨?_, lost ++ file (number + 1), shift file, ?_, ?_, ?_, ?_, ?_, ?_⟩
  · intro placement mem
    obtain ⟨inode, went, named, used⟩ := placed placement mem
    rw [nextInode]
    exact ⟨inode, went, named, Nat.lt_succ_of_lt used⟩
  · rw [gather_shift, List.append_assoc, kept.history, gather]
  · intro name inside
    cases name with
    | zero =>
        rw [FileSystem.contentAt_named new, content, Function.update_self]
        rfl
    | succ name =>
        rw [shift, ← kept.content name (by omega), FileSystem.contentAt, FileSystem.contentAt,
          old name inside, content]
        cases other : fs.directory name with
        | none => rfl
        | some different => exact Function.update_of_ne (fs.below _ _ other).ne _ _
  · intro name inside placement mem
    cases name with
    | zero => cases mem
    | succ name =>
        rw [old name inside]
        exact kept.inode name (by omega) placement mem
  · intro placement mem name inside
    obtain ⟨went, isInode, used⟩ := lost_placed mem
    cases name with
    | zero =>
        rw [new, isInode]
        intro same
        exact used.ne (Option.some.inj same)
    | succ name =>
        rw [old name inside]
        rcases List.mem_append.mp mem with mem | mem
        · exact kept.gone placement mem name (by omega)
        · intro same
          have last := kept.inode (number + 1) le_rfl placement mem
          rw [isInode] at same last
          have equal := fs.distinct _ _ _ same.symm last.symm
          omega
  · intro name inside present
    cases name with
    | zero =>
        rw [new]
        exact Option.some_ne_none _
    | succ name =>
        rw [old _ (by omega)] at present
        rw [old _ (by omega)]
        exact kept.numbered name (by omega) present
  · intro some_lost name inside
    have last : fs.directory (number + 1) ≠ none := by
      by_cases before : lost = []
      · obtain ⟨placement, mem⟩ := List.exists_mem_of_ne_nil _ some_lost
        obtain ⟨went, isInode, -⟩ := lost_placed mem
        rw [before, List.nil_append] at mem
        rw [← kept.inode _ le_rfl placement mem, isInode]
        exact Option.some_ne_none _
      · exact kept.full before _ le_rfl
    cases name with
    | zero =>
        rw [new]
        exact Option.some_ne_none _
    | succ name =>
        rw [old name inside]
        have present := kept.present_below last (number + 1 - name) (by omega)
        rwa [show number + 1 - (number + 1 - name) = name by omega] at present

theorem extends_roll {inode : Inode} (named : fs.directory 0 = some inode)
    (full : limit ≤ fs.size inode) (nextInode : later.nextInode = fs.nextInode + 1)
    (content : later.content = Function.update fs.content fs.nextInode []) :
    Extends limit fs later := by
  have same (other : Inode) (used : other < fs.nextInode) : later.size other = fs.size other := by
    rw [FileSystem.size, content, Function.update_of_ne used.ne, FileSystem.size]
  refine ⟨nextInode ▸ Nat.le_succ _, fun other used => (same other used).ge, ?_⟩
  intro other isLog
  rw [named] at isLog
  cases isLog
  rw [same inode (fs.below 0 inode named)]
  exact .inr full

end Steps

section Runs

/-- The appender is configured like the others, and its file is the log or detectably rotated. -/
structure Attached (maxFileSize : UInt64) (maxBackupIndex : Nat) (fs : FileSystem)
    (appender : MultiProcessFileAppender) : Prop where
  m_maxFileSize : appender.m_maxFileSize = kbytesToBytes maxFileSize
  m_maxBackupIndex : appender.m_maxBackupIndex = maxBackupIndex
  m_log : ∃ inode, appender.m_log = some inode ∧
    Detectable (kbytesToBytes maxFileSize).toNat fs inode

/-- What holds between the calls. -/
structure Rotating (maxFileSize : UInt64) (maxBackupIndex : Nat) (state : Logging) : Prop where
  attached : ∀ process appender, state.appender process = some appender →
    Attached maxFileSize maxBackupIndex state.fs appender
  small : Small (kbytesToBytes maxFileSize).toNat state.fs
  filed : Filed maxBackupIndex state.fs state.history

variable {maxFileSize : UInt64} {maxBackupIndex : Nat}

theorem rotating_empty : Rotating maxFileSize maxBackupIndex .empty := by
  refine ⟨?_, ?_, ?_, [], fun _ => [], ?_, ?_, ?_, ?_, ?_, ?_⟩
  · intro process appender present
    cases present
  · intro inode named
    cases named
  · intro placement mem
    cases mem
  · rw [gather_nil]
    rfl
  · exact fun _ _ => rfl
  · intro name _ placement mem
    cases mem
  · intro placement mem
    cases mem
  · intro name _ present
    exact absurd rfl present
  · intro impossible
    exact absurd rfl impossible

/-- The other appenders stay attached when files only grow and the log is renamed when full. -/
theorem Rotating.attached_update {state : Logging}
    (rotating : Rotating maxFileSize maxBackupIndex state) {later : FileSystem}
    (extended : Extends (kbytesToBytes maxFileSize).toNat state.fs later)
    {process : Nat} {changed : Option MultiProcessFileAppender}
    (attached : ∀ appender, changed = some appender →
      Attached maxFileSize maxBackupIndex later appender) (other : Nat)
    (appender : MultiProcessFileAppender)
    (present : Function.update state.appender process changed other = some appender) :
    Attached maxFileSize maxBackupIndex later appender := by
  by_cases same : other = process
  · rw [same, Function.update_self] at present
    exact attached appender present
  · rw [Function.update_of_ne same] at present
    obtain ⟨m_maxFileSize, m_maxBackupIndex, inode, opened, detectable⟩ :=
      rotating.attached other appender present
    exact ⟨m_maxFileSize, m_maxBackupIndex, inode, opened, extended.detectable detectable⟩

/-- A message goes to the log. It stays there, or the log is rolled over. -/
theorem Rotating.message (positive : 0 < maxBackupIndex) {state : Logging}
    (rotating : Rotating maxFileSize maxBackupIndex state)
    {appender : MultiProcessFileAppender}
    (attached : Attached maxFileSize maxBackupIndex state.fs appender) {text : Text}
    {unwritten : Nat → Char} {after : MultiProcessFileAppender × FileSystem}
    (called : appender.doProcessLogMessage state.fs unwritten text = some after) :
    Extends (kbytesToBytes maxFileSize).toNat state.fs after.2 ∧
      Attached maxFileSize maxBackupIndex after.2 after.1 ∧
      Small (kbytesToBytes maxFileSize).toNat after.2 ∧
      Filed maxBackupIndex after.2
        (state.history ++ [appender.placement state.fs (messageLine unwritten text)]) := by
  obtain ⟨m_maxFileSize, m_maxBackupIndex, inode, opened, detectable⟩ := attached
  have small := rotating.small
  have limit_pos := kbytesToBytes_pos maxFileSize
  rw [← m_maxFileSize] at detectable small limit_pos ⊢
  obtain ⟨named, filed, smallLog, extended⟩ :=
    currentLog_log limit_pos rotating.filed small detectable
  unfold MultiProcessFileAppender.doProcessLogMessage at called
  unfold MultiProcessFileAppender.placement
  rw [opened] at called ⊢
  dsimp only at called ⊢
  generalize appender.currentLog state.fs inode = log at *
  generalize messageLine unwritten text = line at *
  rw [named]
  cases writes : log.2.write log.1 line with
  | none =>
      rw [writes] at called
      cases called
  | some written =>
      rw [writes] at called
      dsimp only at called
      obtain ⟨-, rfl⟩ := FileSystem.write_eq_some writes
      have filedLine := filed.write named line
      have extendedLine := extended.trans (extends_write _ log.1 line)
      have size : (log.2.setContent log.1 (log.2.content log.1 ++ line)).size log.1 =
          log.2.size log.1 + line.length := by
        rw [FileSystem.size, FileSystem.setContent_self, List.length_append, FileSystem.size]
      have namedStill : (log.2.setContent log.1 (log.2.content log.1 ++ line)).directory 0 =
          some log.1 := named
      generalize log.2.setContent log.1 (log.2.content log.1 ++ line) = written at *
      split at called
      next full =>
        cases called
        obtain ⟨rolled, nextInode, content, directory⟩ :=
          appender.rollOver_backup (m_maxBackupIndex ▸ positive) namedStill
        rw [m_maxBackupIndex] at directory
        have new := directory 0
        rw [if_pos rfl] at new
        refine ⟨extendedLine.trans (extends_roll namedStill (size ▸ full) nextInode content), ?_, ?_,
          filedLine.roll positive nextInode content directory⟩
        · rw [rolled]
          exact ⟨m_maxFileSize, m_maxBackupIndex, _, rfl, nextInode ▸ Nat.lt_succ_self _, .inl new⟩
        · intro isLog namedLog
          rw [new] at namedLog
          cases namedLog
          rw [FileSystem.size, content, Function.update_self]
          exact limit_pos
      next below =>
        cases called
        refine ⟨extendedLine, ⟨m_maxFileSize, m_maxBackupIndex, log.1, rfl,
          written.below 0 _ namedStill, .inl namedStill⟩, ?_, filedLine⟩
        intro isLog namedLog
        rw [namedStill] at namedLog
        cases namedLog
        rw [size]
        exact Nat.lt_of_not_le below

theorem Rotating.step (positive : 0 < maxBackupIndex) {state next : Logging} {action : Action}
    (rotating : Rotating maxFileSize maxBackupIndex state)
    (taken : (logging maxFileSize maxBackupIndex).step state action next) :
    Rotating maxFileSize maxBackupIndex next := by
  cases action with
  | construct process =>
      obtain rfl := taken
      obtain ⟨filed, small, extended⟩ :=
        opened_log (kbytesToBytes_pos maxFileSize) rotating.filed rotating.small
      have named := state.fs.openForAppendOrCreateFile_directory 0
      refine ⟨rotating.attached_update extended ?_, small, filed⟩
      intro appender constructed
      cases constructed
      exact ⟨rfl, rfl, _, rfl, FileSystem.below _ 0 _ named, .inl named⟩
  | destroy process =>
      obtain rfl := taken
      refine ⟨rotating.attached_update (.refl _ _) ?_, rotating.small, rotating.filed⟩
      intro appender impossible
      cases impossible
  | message process text unwritten =>
      obtain ⟨appender, after, present, called, rfl⟩ := taken
      obtain ⟨extended, attached, small, filed⟩ :=
        rotating.message positive (rotating.attached process appender present) called
      refine ⟨rotating.attached_update extended ?_, small, filed⟩
      intro appender same
      cases same
      exact attached

theorem rotating_of_reachable (positive : 0 < maxBackupIndex) {state : Logging}
    (reached : (logging maxFileSize maxBackupIndex).Reachable state) :
    Rotating maxFileSize maxBackupIndex state := by
  apply reached.invariant
  · rintro state rfl
    exact rotating_empty
  · intro state action next _ rotating taken
    exact rotating.step positive taken

end Runs

end Blocxx.LogAppender
