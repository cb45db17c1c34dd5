import Blocxx.Library.TransitionSystem
import Blocxx.StreamBuffer.BaseStreamBuffer

/-!
This file embeds `FileBuf` over the files of the C library, and settles when each file gets the bytes
that were accepted while it was open.
-/

namespace Blocxx.StreamBuffer

open Library

/-- A pointer to a `FILE`, which is not null. -/
abbrev FILE := Nat

/-- The bytes that can be read, the number of those that are, and the bytes that were written. -/
structure File where
  contents : Bytes
  position : Nat
  received : Bytes
  closed : Bool

/-- The member `m_file`, which may be null, and the files of the process. -/
structure Stdio where
  m_file : Option FILE
  files : FILE → File

namespace Stdio

variable (stdio : Stdio)

/-- A change of the file at this pointer. -/
def change (fp : FILE) (changed : File → File) : Stdio :=
  { stdio with files := Function.update stdio.files fp (changed (stdio.files fp)) }

/-- The pointer that a function of the C library gets, if it is neither null nor closed. -/
def usable : Option FILE :=
  stdio.m_file.bind fun fp => if (stdio.files fp).closed then none else some fp

def fwrite (s : Bytes) : Option (Nat × Stdio) :=
  stdio.usable.map fun fp =>
    (s.length, stdio.change fp fun file => { file with received := file.received ++ s })

def fread (n : Nat) : Option (Bytes × Stdio) :=
  stdio.usable.map fun fp =>
    let read := ((stdio.files fp).contents.drop (stdio.files fp).position).take n
    (read, stdio.change fp fun file => { file with position := file.position + read.length })

/-- The file at the pointer is closed. -/
def shut (fp : FILE) : Stdio := stdio.change fp fun file => { file with closed := true }

def fclose : Option Stdio := stdio.usable.map stdio.shut

def isOpen : Bool := stdio.m_file.isSome

/-- The virtual functions of `FileBuf`, when no file has an error. -/
def derived : Derived Stdio where
  buffer_to_device stdio s :=
    (stdio.fwrite s).map fun result => (if result.1 = s.length then 0 else -1, result.2)
  buffer_from_device stdio n :=
    if stdio.isOpen then
      (stdio.fread n).map fun result =>
        (if result.1.length ≠ n ∧ result.1 = [] then none else some result.1, result.2)
    else some (none, stdio)

end Stdio

abbrev FileBuf := BaseStreamBuffer Stdio

namespace FileBuf

/-- The constructor, when these files exist. -/
def new (files : FILE → File) : FileBuf := BaseStreamBuffer.new .E_IN_OUT 256 ⟨none, files⟩

/-- The function `open`. It returns null when a file is open already, and `this` otherwise. -/
def openFile (b : FileBuf) (fp : FILE) : Bool × FileBuf :=
  if b.device.isOpen then (false, b)
  else (true, { b with device := { b.device with m_file := some fp } })

/-- The function `close`, which looks at no result of `fclose` and always returns `this`. -/
def close (b : FileBuf) : Option (Bool × FileBuf) :=
  if b.device.isOpen then
    b.device.fclose.map fun stdio => (true, { b with device := { stdio with m_file := none } })
  else some (true, { b with device := { b.device with m_file := none } })

/-- What a file that is open is used for. -/
inductive Use where
  | reading
  | writing
  deriving DecidableEq

/-- A call and, for `close`, what `fclose` answers when it is called. -/
inductive Label where
  | openFile (fp : FILE)
  | put (call : PutCall)
  | sgetc
  | sbumpc
  | close (fclose : Int)
  deriving DecidableEq

/-- What a call answers: whether it is `this`, or a value. -/
inductive Answer where
  | pointer (isThis : Bool)
  | value (c : Int)

/-- Without a buffer a null or closed pointer has gone to the C library. Besides the buffer, the
state has for each file the bytes that were accepted and delivered while it was open, the file that
the get area was read from, the use of the open file, and the last answer. -/
structure State where
  buffer : Option FileBuf
  accepted : FILE → Bytes
  delivered : FILE → Bytes
  source : Option FILE
  use : Option Use
  answer : Answer

/-- The bytes that the call has accepted when it answers this value. -/
def acceptedBytes (value : Int) : PutCall → Bytes
  | .sputc c => if value = EOF then [] else [c]
  | .sputn s => s.take value.toNat
  | .sync => []

/-- The bytes go to the record of the open file, if there is one. -/
def record (m_file : Option FILE) (records : FILE → Bytes) (s : Bytes) : FILE → Bytes :=
  m_file.elim records fun fp => Function.update records fp (records fp ++ s)

/-- The caller gives a file that is not closed, and it uses an open one for one purpose. -/
def Label.Given (b : FileBuf) (use : Option Use) : Label → Prop
  | .openFile fp => (b.device.files fp).closed = false
  | .put .sync => True
  | .put _ => b.device.isOpen = true → use ≠ some .reading
  | .sgetc | .sbumpc => b.device.isOpen = true → use ≠ some .writing
  | .close _ => True

instance (b : FileBuf) (use : Option Use) (label : Label) : Decidable (label.Given b use) := by
  unfold Label.Given
  split <;> infer_instance

namespace State

variable (state : State)

/-- The use of the open file is settled by its first call. -/
def used (b : FileBuf) (use : Use) : Option Use := if b.device.isOpen then some use else state.use

def afterOpen (b : FileBuf) (fp : FILE) : State :=
  let result := b.openFile fp
  { state with
    buffer := some result.2
    use := if result.1 then none else state.use
    answer := .pointer result.1 }

def afterPut (b : FileBuf) (call : PutCall) : State :=
  match call.run Stdio.derived 1 b with
  | some result =>
      { state with
        buffer := some result.2
        accepted := record b.device.m_file state.accepted (acceptedBytes result.1 call)
        use := if call = .sync then state.use else state.used b .writing
        answer := .value result.1 }
  | none => { state with buffer := none }

/-- The state after a call that delivers these many characters, one or none. -/
def afterGet (b : FileBuf) (result : Option (Int × FileBuf)) (taken : Nat) : State :=
  match result with
  | some result =>
      { state with
        buffer := some result.2
        delivered := record b.device.m_file state.delivered
          (if result.1 = EOF then [] else [toChar result.1].take taken)
        source := if b.left = [] then b.device.m_file else state.source
        use := state.used b .reading
        answer := .value result.1 }
  | none => { state with buffer := none }

def afterClose (b : FileBuf) : State :=
  match b.close with
  | some result =>
      { state with
        buffer := some result.2
        use := none
        answer := .pointer result.1 }
  | none => { state with buffer := none }

def after (b : FileBuf) : Label → State
  | .openFile fp => state.afterOpen b fp
  | .put call => state.afterPut b call
  | .sgetc => state.afterGet b (b.sgetc Stdio.derived) 0
  | .sbumpc => state.afterGet b (b.sbumpc Stdio.derived) 1
  | .close _ => state.afterClose b

def next (label : Label) : Option State :=
  state.buffer.bind fun b => if label.Given b state.use then some (state.after b label) else none

end State

/-- The start, when these files exist. -/
def start (files : FILE → File) : State :=
  ⟨some (new files), fun _ => [], fun _ => [], none, none, .pointer false⟩

def system : TransitionSystem State Label :=
  .computed (fun state => ∃ files, (∀ fp, (files fp).position = 0 ∧ (files fp).received = []) ∧
    state = start files) State.next

/-- The call has not used a null or closed pointer, each file has received bytes that were accepted
while it was open, in their order, and delivered its own bytes, and `close` answers and flushes as
documented. -/
structure Fulfils (state : State) (label : Label) (next : State) (b after : FileBuf) : Prop where
  before : state.buffer = some b
  behind : next.buffer = some after
  received : ∀ fp, (after.device.files fp).received <+: next.accepted fp
  delivered : ∀ fp, next.delivered fp <+: (after.device.files fp).contents
  peeked : ∀ fp c, label = .sgetc → b.device.m_file = some fp →
    next.answer = .value (toIntType c) →
      state.delivered fp ++ [c] <+: (after.device.files fp).contents
  flushed : ∀ fp fclose, label = .close fclose → b.device.m_file = some fp →
    (after.device.files fp).received = next.accepted fp
  closes : ∀ fclose, label = .close fclose →
    (next.answer = .pointer false ↔ b.device.m_file = none ∨ fclose ≠ 0)

def DoesRight (state : State) (label : Label) (next : State) : Prop :=
  ∃ b after, Fulfils state label next b after

/-- The call does not meet what the buffer keeps from one file to the next. -/
def Label.Harmless (b : FileBuf) (source : Option FILE) : Label → Prop
  | .openFile _ => True
  | .put .sync => b.device.isOpen = true
  | .put call => b.device.isOpen = true ∨ call.bytes = []
  | .sgetc | .sbumpc => b.device.isOpen = true → b.left = [] ∨ source = b.device.m_file
  | .close fclose => b.device.isOpen = true ∧ b.written = [] ∧ fclose = 0

instance (b : FileBuf) (source : Option FILE) (label : Label) :
    Decidable (label.Harmless b source) := by
  unfold Label.Harmless
  split <;> infer_instance

def Condition (state : State) (label : Label) : Prop :=
  ∀ b ∈ state.buffer, label.Harmless b state.source

instance (state : State) (label : Label) : Decidable (Condition state label) := by
  unfold Condition
  infer_instance

/-- The invariant while all calls are harmless. -/
structure Sound (b : FileBuf) (state : State) : Prop where
  buffer : state.buffer = some b
  direction : b.direction = .E_IN_OUT
  size : b.m_bufSize = 256
  idle : b.device.m_file = none → b.written = []
  opened : ∀ fp, b.device.m_file = some fp → (b.device.files fp).closed = false ∧
    state.accepted fp = (b.device.files fp).received ++ b.written
  others : ∀ fp, b.device.m_file ≠ some fp → state.accepted fp = (b.device.files fp).received
  delivered : ∀ fp, state.delivered fp <+: (b.device.files fp).contents
  current : ∀ fp, b.device.m_file = some fp → state.source = some fp →
    (b.device.files fp).contents =
      state.delivered fp ++
        (b.left ++ (b.device.files fp).contents.drop (b.device.files fp).position)
  unread : ∀ fp, (b.device.files fp).closed = false → state.source ≠ some fp →
    (b.device.files fp).position = 0 ∧ state.delivered fp = []
  source : ∀ fp, state.source = some fp →
    b.device.m_file = some fp ∨ (b.device.files fp).closed = true

theorem Sound.received {b : FileBuf} {state : State} (sound : Sound b state) (fp : FILE) :
    (b.device.files fp).received <+: state.accepted fp := by
  by_cases open_ : b.device.m_file = some fp
  · rw [(sound.opened fp open_).2]
    exact List.prefix_append _ _
  · rw [sound.others fp open_]

theorem sound_start {files : FILE → File}
    (fresh : ∀ fp, (files fp).position = 0 ∧ (files fp).received = []) :
    Sound (new files) (start files) where
  buffer := rfl
  direction := rfl
  size := rfl
  idle _ := rfl
  opened := nofun
  others fp _ := (fresh fp).2.symm
  delivered _ := List.nil_prefix
  current := nofun
  unread fp _ _ := ⟨(fresh fp).1, rfl⟩
  source := nofun

end FileBuf

namespace Stdio

variable {stdio : Stdio} {fp other : FILE}

theorem change_self (changed : File → File) :
    (stdio.change fp changed).files fp = changed (stdio.files fp) := Function.update_self ..

theorem change_of_ne (different : other ≠ fp) (changed : File → File) :
    (stdio.change fp changed).files other = stdio.files other := Function.update_of_ne different ..

/-- The second change goes on from the first one. -/
theorem change_change (first second : File → File) :
    (stdio.change fp first).change fp second = stdio.change fp fun file => second (first file) := by
  unfold change
  dsimp only
  rw [Function.update_idem, Function.update_self]

theorem change_id (same : File) (is : stdio.files fp = same) :
    stdio.change fp (fun _ => same) = stdio := by
  unfold change
  rw [← is, Function.update_eq_self]

theorem usable_of_open (named : stdio.m_file = some fp) (still : (stdio.files fp).closed = false) :
    stdio.usable = some fp := by
  rw [usable, named, Option.bind_some, still]
  rfl

/-- The file at the pointer has received these bytes. -/
def wrote (stdio : Stdio) (fp : FILE) (received : Bytes) : Stdio :=
  stdio.change fp fun file => { file with received := received }

/-- The file at the pointer is read up to this position. -/
def readTo (stdio : Stdio) (fp : FILE) (position : Nat) : Stdio :=
  stdio.change fp fun file => { file with position := position }

section Frame

variable (stdio) (fp other)

/-- A change keeps the fields of all files that it keeps in its own one. -/
theorem change_keeps {Field : Type} (field : File → Field) {changed : File → File}
    (keeps : ∀ file, field (changed file) = field file) :
    field ((stdio.change fp changed).files other) = field (stdio.files other) := by
  rcases eq_or_ne other fp with rfl | different
  · rw [change_self, keeps]
  · rw [change_of_ne different]

theorem contents_wrote (received : Bytes) :
    ((stdio.wrote fp received).files other).contents = (stdio.files other).contents :=
  change_keeps stdio fp other File.contents fun _ => rfl

theorem position_wrote (received : Bytes) :
    ((stdio.wrote fp received).files other).position = (stdio.files other).position :=
  change_keeps stdio fp other File.position fun _ => rfl

theorem closed_wrote (received : Bytes) :
    ((stdio.wrote fp received).files other).closed = (stdio.files other).closed :=
  change_keeps stdio fp other File.closed fun _ => rfl

theorem contents_readTo (position : Nat) :
    ((stdio.readTo fp position).files other).contents = (stdio.files other).contents :=
  change_keeps stdio fp other File.contents fun _ => rfl

theorem received_readTo (position : Nat) :
    ((stdio.readTo fp position).files other).received = (stdio.files other).received :=
  change_keeps stdio fp other File.received fun _ => rfl

theorem closed_readTo (position : Nat) :
    ((stdio.readTo fp position).files other).closed = (stdio.files other).closed :=
  change_keeps stdio fp other File.closed fun _ => rfl

theorem contents_shut :
    ((stdio.shut fp).files other).contents = (stdio.files other).contents :=
  change_keeps stdio fp other File.contents fun _ => rfl

theorem received_shut :
    ((stdio.shut fp).files other).received = (stdio.files other).received :=
  change_keeps stdio fp other File.received fun _ => rfl

theorem closed_shut : ((stdio.shut fp).files fp).closed = true := by rw [shut, change_self]

theorem shut_of_ne {other : FILE} (different : other ≠ fp) :
    (stdio.shut fp).files other = stdio.files other := change_of_ne different _

end Frame

theorem wrote_received : stdio.wrote fp (stdio.files fp).received = stdio := change_id _ rfl

theorem readTo_position : stdio.readTo fp (stdio.files fp).position = stdio := change_id _ rfl

section Open

variable (named : stdio.m_file = some fp) (still : (stdio.files fp).closed = false)

include named still

theorem fwrite_wrote (received s : Bytes) : (stdio.wrote fp received).fwrite s =
    some (s.length, stdio.wrote fp (received ++ s)) := by
  have usable : (stdio.wrote fp received).usable = some fp :=
    @usable_of_open (stdio.wrote fp received) fp named
      ((congrArg File.closed (change_self _)).trans still)
  rw [fwrite, usable, Option.map_some, wrote, change_change]
  rfl

theorem fread_readTo (position n : Nat) : (stdio.readTo fp position).fread n =
    let read := ((stdio.files fp).contents.drop position).take n
    some (read, stdio.readTo fp (position + read.length)) := by
  have usable : (stdio.readTo fp position).usable = some fp :=
    @usable_of_open (stdio.readTo fp position) fp named
      ((congrArg File.closed (change_self _)).trans still)
  have file : (stdio.readTo fp position).files fp =
      { stdio.files fp with position := position } := change_self _
  rw [fread, usable, Option.map_some, file]
  dsimp only
  rw [readTo, change_change]
  rfl

/-- An open file takes all bytes. -/
theorem delivers (limit : Nat) :
    BaseStreamBuffer.Delivers derived (fun device bytes => device = stdio.wrote fp bytes)
      (fun _ => True) limit := by
  rintro _ received s rfl - -
  refine ⟨_, ?_, rfl⟩
  show ((stdio.wrote fp received).fwrite s).map _ = _
  rw [fwrite_wrote named still, Option.map_some, if_pos rfl]

/-- An open file gives its bytes in non-empty chunks. -/
theorem supplies :
    BaseStreamBuffer.Supplies derived fun device bytes =>
      ∃ position, device = stdio.readTo fp position ∧
        bytes = (stdio.files fp).contents.drop position := by
  rintro _ _ n ⟨position, rfl, rfl⟩ positive
  let rest := (stdio.files fp).contents.drop position
  have isOpen : (stdio.readTo fp position).isOpen = true := by
    show stdio.m_file.isSome = true
    rw [named]
    rfl
  have given : (if (rest.take n).length ≠ n ∧ rest.take n = [] then none
      else some (rest.take n)).getD [] = rest.take n := by
    split
    · next short => exact short.2.symm
    · rfl
  refine ⟨if (rest.take n).length ≠ n ∧ rest.take n = [] then none else some (rest.take n),
    stdio.readTo fp (position + (rest.take n).length), ?_, rest.drop (rest.take n).length, ?_, ?_,
    ?_⟩
  · show (if (stdio.readTo fp position).isOpen then _ else _) = _
    rw [if_pos isOpen, fread_readTo named still]
    rfl
  · rw [given]
    exact (List.prefix_iff_eq_append.mp (List.take_prefix n rest)).symm
  · exact ⟨_, rfl, List.drop_drop⟩
  · rw [given, List.take_eq_nil_iff]
    rintro (zero | empty)
    · omega
    · exact empty

end Open

end Stdio

namespace FileBuf

open BaseStreamBuffer

variable {b : FileBuf} {state : State} {fp : FILE}

theorem record_none (records : FILE → Bytes) (s : Bytes) : record none records s = records := rfl

theorem record_self (records : FILE → Bytes) (s : Bytes) :
    record (some fp) records s fp = records fp ++ s := Function.update_self ..

theorem record_of_ne {other : FILE} (different : other ≠ fp) (records : FILE → Bytes) (s : Bytes) :
    record (some fp) records s other = records other := Function.update_of_ne different ..

/-- A successful call has accepted its bytes. -/
theorem acceptedBytes_success (call : PutCall) : acceptedBytes call.success call = call.bytes := by
  cases call with
  | sputc c =>
      rw [acceptedBytes, PutCall.success, if_neg (toIntType_ne_EOF c)]
      rfl
  | sputn s => exact List.take_length
  | sync => rfl

theorem Sound.putSize (sound : Sound b state) : b.putSize = 256 := by
  rw [BaseStreamBuffer.putSize, sound.direction, sound.size]
  rfl

theorem named_of_isOpen (isOpen : b.device.isOpen = true) :
    ∃ fp, b.device.m_file = some fp := Option.isSome_iff_exists.mp isOpen

theorem isOpen_of_named (named : b.device.m_file = some fp) : b.device.isOpen = true := by
  rw [Stdio.isOpen, named]
  rfl

/-- While a file is open, a call on the put area succeeds, and the file and the put area have the
accepted bytes. -/
theorem Sound.put_open (sound : Sound b state) (named : b.device.m_file = some fp)
    (call : PutCall) :
    ∃ after, call.run Stdio.derived 1 b = some (call.success, after) ∧ KeptGet b after ∧
      ∃ received, after.device = b.device.wrote fp received ∧
        state.accepted fp ++ call.bytes = received ++ after.written := by
  obtain ⟨still, accepted⟩ := sound.opened fp named
  have size := sound.putSize
  have carries : Carries (fun device bytes => device = b.device.wrote fp bytes) b
      (state.accepted fp) := ⟨_, Stdio.wrote_received.symm, accepted⟩
  obtain ⟨after, runs, accepts, -⟩ :=
    call.run_spec (Stdio.delivers named still 256) size.le (fun _ _ _ => trivial) carries trivial
      (by omega) (.inl (by omega)) Nat.one_pos
  obtain ⟨received, device, split⟩ := accepts.carries
  exact ⟨after, runs, accepts.kept, received, device, split⟩

/-- A call that neither peeks nor closes. -/
theorem Sound.fulfils {after : FileBuf} {next : State} {label : Label} (before : Sound b state)
    (sound : Sound after next) (noPeek : label ≠ .sgetc)
    (noClose : ∀ fclose, label ≠ .close fclose) : Fulfils state label next b after where
  before := before.buffer
  behind := sound.buffer
  received := sound.received
  delivered := sound.delivered
  peeked _ _ is := absurd is noPeek
  flushed _ fclose is := absurd is (noClose fclose)
  closes fclose is := absurd is (noClose fclose)

theorem bump_nil (inside : b.written.length + ([] : Bytes).length ≤ b.putSize) :
    b.bump [] inside = b := by
  cases b
  simp only [bump, List.append_nil]

/-- A harmless call that finds no open file puts nothing. -/
theorem Sound.put_idle (sound : Sound b state) (idle : b.device.m_file = none) {call : PutCall}
    (harmless : (Label.put call).Harmless b state.source) :
    call = .sputn [] ∧ call.run Stdio.derived 1 b = some (0, b) := by
  have closed : ¬ b.device.isOpen = true := by
    rw [Stdio.isOpen, idle]
    exact Bool.false_ne_true
  have size := sound.putSize
  have empty := sound.idle idle
  cases call with
  | sputc c => exact absurd (harmless.resolve_left closed) (List.cons_ne_nil c [])
  | sync => exact absurd harmless closed
  | sputn s =>
      obtain rfl : s = [] := harmless.resolve_left closed
      have small : ([] : Bytes).length < b.putSize - b.written.length := by
        rw [size, empty]
        decide
      refine ⟨rfl, ?_⟩
      rw [PutCall.run, xsputn, dif_pos small, if_pos (by decide), bump_nil]
      rfl

/-- The step of a call on the put area. -/
theorem Sound.put (sound : Sound b state) (call : PutCall)
    (harmless : (Label.put call).Harmless b state.source) :
    ∃ after, Sound after (state.afterPut b call) ∧
      Fulfils state (.put call) (state.afterPut b call) b after := by
  rw [State.afterPut]
  cases named : b.device.m_file with
  | none =>
      obtain ⟨rfl, runs⟩ := sound.put_idle named harmless
      rw [runs]
      refine ⟨b, ?_, sound.fulfils ?_ nofun nofun⟩
      all_goals
        exact ⟨rfl, sound.direction, sound.size, sound.idle, sound.opened, sound.others,
          sound.delivered, sound.current, sound.unread, sound.source⟩
  | some fp =>
      obtain ⟨after, runs, kept, received, device, split⟩ := sound.put_open named call
      rw [runs]
      dsimp only
      rw [acceptedBytes_success]
      have m_file : after.device.m_file = some fp := device ▸ named
      have next : Sound after { state with
          buffer := some after
          accepted := record (some fp) state.accepted call.bytes
          use := if call = .sync then state.use else state.used b .writing
          answer := .value call.success } :=
        { buffer := rfl
          direction := kept.direction.trans sound.direction
          size := kept.m_bufSize.trans sound.size
          idle := fun idle => absurd (m_file.symm.trans idle) nofun
          opened := by
            intro other open_
            obtain rfl := Option.some.inj (m_file.symm.trans open_)
            refine ⟨?_, ?_⟩
            · rw [device, Stdio.closed_wrote]
              exact (sound.opened fp named).1
            · show record (some fp) state.accepted call.bytes fp = _
              rw [record_self, split, device, Stdio.wrote, Stdio.change_self]
          others := by
            intro other closed
            have different : other ≠ fp := fun same => closed (same ▸ m_file)
            show record (some fp) state.accepted call.bytes other = _
            rw [record_of_ne different, device, Stdio.wrote, Stdio.change_of_ne different]
            exact sound.others other fun open_ =>
              different (Option.some.inj (open_.symm.trans named))
          delivered := by
            intro other
            rw [device, Stdio.contents_wrote]
            exact sound.delivered other
          current := by
            intro other open_ read
            obtain rfl := Option.some.inj (m_file.symm.trans open_)
            rw [device, Stdio.contents_wrote, Stdio.position_wrote, kept.left]
            exact sound.current fp named read
          unread := by
            intro other still unread
            rw [device, Stdio.closed_wrote] at still
            rw [device, Stdio.position_wrote]
            exact sound.unread other still unread
          source := by
            intro other read
            rw [m_file, device, Stdio.closed_wrote, ← named]
            exact sound.source other read }
      exact ⟨after, next, sound.fulfils next nofun nofun⟩

/-- The bytes that a call delivers are those that it takes. -/
theorem taken_bytes (bytes : Bytes) {taken : Nat} (few : taken ≤ 1) :
    (if firstValue bytes = EOF then [] else [toChar (firstValue bytes)].take taken) =
      bytes.take taken := by
  cases bytes with
  | nil =>
      rw [List.take_nil]
      exact if_pos rfl
  | cons c bytes =>
      have value : firstValue (c :: bytes) = toIntType c := rfl
      rw [value, if_neg (toIntType_ne_EOF c), toChar_toIntType]
      interval_cases taken
      · rfl
      · rfl

/-- The functions of the get area, by what they take. -/
def Gets (b : FileBuf) (result : Option (Int × FileBuf)) (taken : Nat) : Prop :=
  ∀ means bytes, Supplies Stdio.derived means → Pending means b bytes →
    ∃ after, result = some (firstValue bytes, after) ∧ Pending means after (bytes.drop taken) ∧
      KeptPut b after

theorem Sound.readable (sound : Sound b state) : Readable b where
  direction := by
    rw [sound.direction]
    decide
  room := by
    rw [sound.size]
    decide

theorem Sound.gets_sgetc (sound : Sound b state) : Gets b (b.sgetc Stdio.derived) 0 :=
  fun _ _ supplies pending => sgetc_spec supplies sound.readable pending

theorem Sound.gets_sbumpc (sound : Sound b state) : Gets b (b.sbumpc Stdio.derived) 1 := by
  intro means bytes supplies pending
  rw [List.drop_one]
  exact sbumpc_spec supplies sound.readable pending

/-- What is left of the open file, when the get area has no bytes of another one. -/
theorem Sound.contents (sound : Sound b state) (named : b.device.m_file = some fp)
    (clean : b.left = [] ∨ state.source = some fp) :
    (b.device.files fp).contents = state.delivered fp ++
      (b.left ++ (b.device.files fp).contents.drop (b.device.files fp).position) := by
  by_cases read : state.source = some fp
  · exact sound.current fp named read
  · obtain ⟨position, none_⟩ := sound.unread fp (sound.opened fp named).1 read
    rw [position, none_, clean.resolve_right read]
    rfl

/-- Without a file the get area gives what it has. -/
theorem get_idle (idle : b.device.m_file = none)
    {result : Option (Int × FileBuf)} {taken : Nat} (gets : Gets b result taken) :
    ∃ after, result = some (firstValue b.left, after) ∧ after.device = b.device ∧
      KeptPut b after := by
  have supplies : Supplies Stdio.derived fun device bytes => device = b.device ∧ bytes = [] := by
    rintro _ _ n ⟨rfl, rfl⟩ -
    refine ⟨none, b.device, ?_, [], rfl, ⟨rfl, rfl⟩, fun _ => rfl⟩
    show (if b.device.isOpen = true then _ else _) = _
    rw [Stdio.isOpen, idle]
    rfl
  obtain ⟨after, gave, ⟨_, ⟨device, -⟩, -⟩, kept⟩ :=
    gets _ b.left supplies ⟨[], ⟨rfl, rfl⟩, (List.append_nil _).symm⟩
  exact ⟨after, gave, device, kept⟩

/-- An open file gives the bytes that follow those of the get area. -/
theorem Sound.get_open (sound : Sound b state) (named : b.device.m_file = some fp)
    {result : Option (Int × FileBuf)} {taken : Nat} (gets : Gets b result taken) :
    let bytes := b.left ++ (b.device.files fp).contents.drop (b.device.files fp).position
    ∃ after position, result = some (firstValue bytes, after) ∧
      after.device = b.device.readTo fp position ∧
      bytes.drop taken = after.left ++ (b.device.files fp).contents.drop position ∧
      KeptPut b after := by
  obtain ⟨after, gave, ⟨_, ⟨position, device, rfl⟩, split⟩, kept⟩ :=
    gets _ _ (Stdio.supplies named (sound.opened fp named).1)
      ⟨_, ⟨_, Stdio.readTo_position.symm, rfl⟩, rfl⟩
  exact ⟨after, position, gave, device, split, kept⟩

/-- The step of a call on the get area. -/
theorem Sound.get (sound : Sound b state) {label : Label}
    (noClose : ∀ fclose, label ≠ .close fclose) {result : Option (Int × FileBuf)} {taken : Nat}
    (few : taken ≤ 1) (gets : Gets b result taken)
    (harmless : b.device.isOpen = true → b.left = [] ∨ state.source = b.device.m_file) :
    ∃ after, Sound after (state.afterGet b result taken) ∧
      Fulfils state label (state.afterGet b result taken) b after := by
  cases named : b.device.m_file with
  | none =>
      obtain ⟨after, rfl, device, kept⟩ := get_idle named gets
      have m_file : after.device.m_file = none := device ▸ named
      let next := state.afterGet b (some (firstValue b.left, after)) taken
      have records : next.delivered = state.delivered := by
        show record b.device.m_file state.delivered _ = _
        rw [named, record_none]
      have source (other : FILE) (read : next.source = some other) :
          state.source = some other := by
        have read : (if b.left = [] then b.device.m_file else state.source) = some other := read
        split at read
        · exact absurd (named.symm.trans read) nofun
        · exact read
      have keeps : Sound after next :=
        { buffer := rfl
          direction := kept.direction.trans sound.direction
          size := kept.m_bufSize.trans sound.size
          idle := fun _ => kept.written.trans (sound.idle named)
          opened := fun other open_ => absurd (m_file.symm.trans open_) nofun
          others := by
            intro other _
            rw [device]
            exact sound.others other (by rw [named]; exact nofun)
          delivered := by
            intro other
            rw [records, device]
            exact sound.delivered other
          current := fun other open_ => absurd (m_file.symm.trans open_) nofun
          unread := by
            intro other still _
            rw [device] at still
            rw [records, device]
            refine sound.unread other still fun read => ?_
            rcases sound.source other read with open_ | closed
            · exact absurd (named.symm.trans open_) nofun
            · exact absurd (still.symm.trans closed) nofun
          source := by
            intro other read
            rw [device]
            exact sound.source other (source other read) }
      exact ⟨after, keeps,
        { before := sound.buffer
          behind := rfl
          received := keeps.received
          delivered := keeps.delivered
          peeked := fun other _ _ open_ => absurd (named.symm.trans open_) nofun
          flushed := fun _ fclose is => absurd is (noClose fclose)
          closes := fun fclose is => absurd is (noClose fclose) }⟩
  | some fp =>
      obtain ⟨after, position, rfl, device, split, kept⟩ := sound.get_open named gets
      have clean := harmless (isOpen_of_named named)
      rw [named] at clean
      have whole := sound.contents named clean
      have m_file : after.device.m_file = some fp := device ▸ named
      generalize pending : b.left ++ (b.device.files fp).contents.drop
        (b.device.files fp).position = bytes at split whole
      let next := state.afterGet b (some (firstValue bytes, after)) taken
      have source : next.source = some fp := by
        show (if b.left = [] then b.device.m_file else state.source) = some fp
        rw [named]
        split
        · rfl
        · next filled => exact clean.resolve_left filled
      have records : next.delivered = record (some fp) state.delivered (bytes.take taken) := by
        show record b.device.m_file state.delivered _ = _
        rw [named, taken_bytes bytes few]
      have rest : (b.device.files fp).contents =
          (state.delivered fp ++ bytes.take taken) ++ (after.left ++
            (b.device.files fp).contents.drop position) := by
        rw [← split, List.append_assoc, List.take_append_drop]
        exact whole
      have keeps : Sound after next :=
        { buffer := rfl
          direction := kept.direction.trans sound.direction
          size := kept.m_bufSize.trans sound.size
          idle := fun idle => absurd (m_file.symm.trans idle) nofun
          opened := by
            intro other open_
            obtain rfl := Option.some.inj (m_file.symm.trans open_)
            rw [device, Stdio.closed_readTo, Stdio.received_readTo, kept.written]
            exact sound.opened fp named
          others := by
            intro other closed
            rw [device, Stdio.received_readTo]
            exact sound.others other (by rwa [m_file, ← named] at closed)
          delivered := by
            intro other
            rw [records, device, Stdio.contents_readTo]
            rcases eq_or_ne other fp with rfl | different
            · rw [record_self, rest]
              exact List.prefix_append _ _
            · rw [record_of_ne different]
              exact sound.delivered other
          current := by
            intro other open_ _
            obtain rfl := Option.some.inj (m_file.symm.trans open_)
            rw [records, record_self, device, Stdio.contents_readTo, Stdio.readTo,
              Stdio.change_self]
            exact rest
          unread := by
            intro other still unread
            have different : other ≠ fp := fun same => unread (same ▸ source)
            rw [device, Stdio.closed_readTo] at still
            rw [records, record_of_ne different, device, Stdio.readTo,
              Stdio.change_of_ne different]
            refine sound.unread other still fun read => ?_
            rcases sound.source other read with open_ | closed
            · exact different (Option.some.inj (open_.symm.trans named))
            · exact absurd (still.symm.trans closed) nofun
          source := by
            intro other read
            rw [m_file]
            exact .inl (source.symm.trans read) }
      refine ⟨after, keeps,
        { before := sound.buffer
          behind := rfl
          received := keeps.received
          delivered := keeps.delivered
          peeked := ?_
          flushed := fun _ fclose is => absurd is (noClose fclose)
          closes := fun fclose is => absurd is (noClose fclose) }⟩
      intro other c _ open_ answer
      obtain rfl := Option.some.inj (named.symm.trans open_)
      rw [device, Stdio.contents_readTo, whole]
      cases bytes with
      | nil => exact absurd (Answer.value.inj answer).symm (toIntType_ne_EOF c)
      | cons first bytes =>
          have same : toIntType first = toIntType c := Answer.value.inj answer
          rw [← toChar_toIntType c, ← same, toChar_toIntType, List.append_cons _ first bytes]
          exact List.prefix_append _ _

/-- The step of `open`. The put area is empty when no file is open. -/
theorem Sound.open_ (sound : Sound b state) (fp : FILE)
    (still : (b.device.files fp).closed = false) :
    ∃ after, Sound after (state.afterOpen b fp) ∧
      Fulfils state (.openFile fp) (state.afterOpen b fp) b after := by
  rw [State.afterOpen, openFile]
  cases named : b.device.m_file with
  | some other =>
      rw [if_pos (isOpen_of_named named)]
      refine ⟨b, ?_, sound.fulfils ?_ nofun nofun⟩
      all_goals
        exact ⟨rfl, sound.direction, sound.size, sound.idle, sound.opened, sound.others,
          sound.delivered, sound.current, sound.unread, sound.source⟩
  | none =>
      have closed : ¬ b.device.isOpen = true := by
        rw [Stdio.isOpen, named]
        exact Bool.false_ne_true
      rw [if_neg closed]
      dsimp only
      have noFile (other : FILE) : b.device.m_file ≠ some other := by
        rw [named]
        exact nofun
      have source (other : FILE) (read : state.source = some other) :
          (b.device.files other).closed = true :=
        (sound.source other read).resolve_left (noFile other)
      have next : Sound { b with device := { b.device with m_file := some fp } }
          { state with
            buffer := some { b with device := { b.device with m_file := some fp } }
            use := if true = true then none else state.use
            answer := .pointer true } :=
        { buffer := rfl
          direction := sound.direction
          size := sound.size
          idle := nofun
          opened := by
            intro other open_
            obtain rfl := Option.some.inj open_
            refine ⟨still, ?_⟩
            show state.accepted fp = (b.device.files fp).received ++ b.written
            rw [sound.idle named, List.append_nil]
            exact sound.others fp (noFile fp)
          others := fun other _ => sound.others other (noFile other)
          delivered := sound.delivered
          current := by
            intro other open_ read
            obtain rfl := Option.some.inj open_
            exact absurd (still.symm.trans (source fp read)) nofun
          unread := sound.unread
          source := fun other read => .inr (source other read) }
      exact ⟨_, next, sound.fulfils next nofun nofun⟩

/-- The step of a `close` that finds an empty put area. -/
theorem Sound.close (sound : Sound b state) {fclose : Int}
    (harmless : (Label.close fclose).Harmless b state.source) :
    ∃ after, Sound after (state.afterClose b) ∧
      Fulfils state (.close fclose) (state.afterClose b) b after := by
  obtain ⟨isOpen, empty, closes⟩ := harmless
  obtain ⟨fp, named⟩ := named_of_isOpen isOpen
  obtain ⟨still, accepted⟩ := sound.opened fp named
  rw [empty, List.append_nil] at accepted
  let after : FileBuf := { b with device := { b.device.shut fp with m_file := none } }
  have closed : FileBuf.close b = some (true, after) := by
    rw [FileBuf.close, if_pos isOpen, Stdio.fclose, Stdio.usable_of_open named still]
    rfl
  have complete (other : FILE) : (after.device.files other).received = state.accepted other := by
    refine (b.device.received_shut fp other).trans ?_
    rcases eq_or_ne other fp with rfl | different
    · exact accepted.symm
    · exact (sound.others other fun open_ =>
        different (Option.some.inj (open_.symm.trans named))).symm
  rw [State.afterClose, closed]
  have next : Sound after
      { state with buffer := some after, use := none, answer := .pointer true } :=
    { buffer := rfl
      direction := sound.direction
      size := sound.size
      idle := fun _ => empty
      opened := nofun
      others := fun other _ => (complete other).symm
      delivered := by
        intro other
        rw [show (after.device.files other).contents = _ from b.device.contents_shut fp other]
        exact sound.delivered other
      current := nofun
      unread := by
        intro other open_ unread
        have different : other ≠ fp := by
          rintro rfl
          exact absurd (open_.symm.trans (b.device.closed_shut other)) nofun
        have same : after.device.files other = b.device.files other :=
          b.device.shut_of_ne fp different
        rw [same] at open_ ⊢
        exact sound.unread other open_ unread
      source := by
        intro other read
        right
        rcases eq_or_ne other fp with rfl | different
        · exact b.device.closed_shut other
        · rw [show after.device.files other = b.device.files other from
            b.device.shut_of_ne fp different]
          exact (sound.source other read).resolve_left fun open_ =>
            different (Option.some.inj (open_.symm.trans named)) }
  exact ⟨after, next,
    { before := sound.buffer
      behind := rfl
      received := next.received
      delivered := next.delivered
      peeked := nofun
      flushed := fun other _ _ _ => complete other
      closes := by
        intro value is
        obtain rfl := Label.close.inj is
        refine iff_of_false nofun ?_
        rintro (none_ | fails)
        · exact absurd (named.symm.trans none_) nofun
        · exact fails closes }⟩

/-- A harmless call does right and keeps the invariant. -/
theorem Sound.step (sound : Sound b state) {label : Label} {next : State}
    (taken : state.next label = some next) (harmless : Condition state label) :
    (∃ after, Sound after next) ∧ DoesRight state label next := by
  have harmless := harmless b sound.buffer
  rw [State.next, sound.buffer, Option.bind_some] at taken
  split at taken
  · next given =>
      obtain rfl := Option.some.inj taken
      have right : ∃ after, Sound after (state.after b label) ∧
          Fulfils state label (state.after b label) b after := by
        cases label with
        | openFile fp => exact sound.open_ fp given
        | put call => exact sound.put call harmless
        | sgetc =>
            exact @Sound.get _ _ sound .sgetc nofun _ _ (Nat.zero_le _) sound.gets_sgetc harmless
        | sbumpc =>
            exact @Sound.get _ _ sound .sbumpc nofun _ _ le_rfl sound.gets_sbumpc harmless
        | close fclose => exact sound.close harmless
      obtain ⟨after, keeps, fulfils⟩ := right
      exact ⟨⟨after, keeps⟩, b, after, fulfils⟩
  · cases taken

/-- In a run of harmless calls each call does right. -/
theorem run_doesRight {files : FILE → File}
    (fresh : ∀ fp, (files fp).position = 0 ∧ (files fp).received = [])
    {steps : List (TransitionSystem.Transition State Label)}
    (run : system.Run (start files) steps)
    (harmless : ∀ step ∈ steps, Condition step.source step.label) :
    ∀ step ∈ steps, DoesRight step.source step.label step.target := by
  have keep (state : State) (label : Label) (next : State) (sound : ∃ b, Sound b state)
      (taken : system.step state label next) (met : Condition state label) :
      (∃ b, Sound b next) ∧ DoesRight state label next := by
    obtain ⟨b, sound⟩ := sound
    exact sound.step taken met
  exact run.forall_of_condition keep ⟨_, sound_start fresh⟩ harmless

/-- Files that have these bytes. -/
def unread (contents : Bytes) : FILE → File := fun _ => ⟨contents, 0, [], false⟩

/-- Two bytes are written and flushed before the file is closed, and two of another one are read. -/
def careful : List Label :=
  [.openFile 0, .put (.sputc 104), .put (.sputn [255, 0]), .put .sync, .close 0,
    .openFile 1, .sgetc, .sbumpc, .sbumpc, .close 0]

theorem careful_doesRight :
    (TransitionSystem.follow State.next (start (unread [255, 7])) careful).length =
        careful.length ∧
      ∀ step ∈ TransitionSystem.follow State.next (start (unread [255, 7])) careful,
        DoesRight step.source step.label step.target := by
  constructor
  · decide
  · apply run_doesRight (fun _ => ⟨rfl, rfl⟩) (TransitionSystem.follow_run _ _ _ _)
    decide

/-- A byte is put and the file is closed. -/
def hasty : List Label := [.openFile 0, .put (.sputc 104), .close 0]

/-- The function `close` returns `this`, and the file never gets the byte. -/
theorem hasty_loses : ¬ ∀ step ∈ TransitionSystem.follow State.next (start (unread [])) hasty,
    DoesRight step.source step.label step.target := by
  intro right
  have flushed : ∀ step ∈ TransitionSystem.follow State.next (start (unread [])) hasty,
      step.label = .close 0 → ∀ b ∈ step.source.buffer, b.device.m_file = some 0 →
        ∀ after ∈ step.target.buffer,
          (after.device.files 0).received = step.target.accepted 0 := by
    intro step taken closes b before named after behind
    obtain ⟨_, _, fulfils⟩ := right step taken
    obtain rfl := Option.some.inj (fulfils.before.symm.trans before)
    obtain rfl := Option.some.inj (fulfils.behind.symm.trans behind)
    exact fulfils.flushed 0 0 closes named
  revert flushed
  decide

end FileBuf

end Blocxx.StreamBuffer
