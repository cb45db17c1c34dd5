import Mathlib.Tactic

/-!
This file embeds the generator of `UUID.cpp` on POSIX, and finds the clock readings for which the
generated UUIDs are pairwise different.
-/

namespace Blocxx.UUIDGenerator

/-- The answer of `gettimeofday`. -/
structure Timeval where
  tv_sec : Int64
  tv_usec : Int64

/-- The hundreds of nanoseconds since October 15, 1582. -/
def getSystemTime (tp : Timeval) : UInt64 :=
  tp.tv_sec.toUInt64 * (10000000 : UInt64) + (tp.tv_usec * 10).toUInt64 +
    ((0x01B21DD2 : UInt64) <<< 32) + (0x13814000 : UInt64)

structure UuidNode where
  nodeId : List UInt8
  size : nodeId.length = 6
  deriving DecidableEq

structure UuidState where
  timestamp : UInt64
  nodeId : UuidNode
  clockSequence : UInt16

/-- The static state of the generator. -/
structure Globals where
  gState : UuidState
  timeLast : UInt64
  uuidsThisTick : UInt16
  currentTimeInited : Bool
  nodeId : UuidNode
  nodeIdInitDone : Bool

def UuidNode.zero : UuidNode := ⟨List.replicate 6 0, rfl⟩

/-- Static storage starts with zeros. -/
def Globals.zero : Globals where
  gState := ⟨0, .zero, 0⟩
  timeLast := 0
  uuidsThisTick := 0
  currentTimeInited := false
  nodeId := .zero
  nodeIdInitDone := false

/-- What the system answers during one construction. Only the first construction uses the first
reading and the random bytes. -/
structure Call where
  firstReading : Timeval
  reading : Timeval
  random : UuidNode

def getCurrentTime (globals : Globals) (call : Call) : UInt64 × Globals :=
  let inited : Globals :=
    if globals.currentTimeInited then globals
    else { globals with
      timeLast := getSystemTime call.firstReading
      uuidsThisTick := 0
      currentTimeInited := true }
  let timeNow := getSystemTime call.reading
  let counted : Globals :=
    if inited.timeLast ≠ timeNow then { inited with uuidsThisTick := 0, timeLast := timeNow }
    else { inited with uuidsThisTick := inited.uuidsThisTick + 1 }
  (timeNow + counted.uuidsThisTick.toUInt64, counted)

/-- The multicast bit is set. -/
def UuidNode.multicast (node : UuidNode) : UuidNode :=
  ⟨node.nodeId.modify 0 (0x80 ||| ·), by rw [List.length_modify, node.size]⟩

def getNodeIdentifier (globals : Globals) (call : Call) : UuidNode × Globals :=
  let inited : Globals :=
    if globals.nodeIdInitDone then globals
    else { globals with nodeId := call.random.multicast, nodeIdInitDone := true }
  (inited.nodeId, inited)

structure UUID where
  m_uuid : List UInt8
  size : m_uuid.length = 16
  deriving DecidableEq

/-- The code that stuffs the fields into the UUID. -/
def stuff (timestamp : UInt64) (clockseq : UInt16) (node : UuidNode) : UUID :=
  let timeLow := (timestamp &&& (0xFFFFFFFF : UInt64)).toUInt32
  let timeMid := ((timestamp >>> 32) &&& (0xFFFF : UInt64)).toUInt16.toUInt32
  let timeHiAndVersion :=
    (((timestamp >>> 48) &&& (0x0FFF : UInt64)) ||| ((1 : UInt64) <<< 12)).toUInt16.toUInt32
  { m_uuid :=
      [(timeLow >>> 8 >>> 8 >>> 8).toUInt8, (timeLow >>> 8 >>> 8).toUInt8,
        (timeLow >>> 8).toUInt8, timeLow.toUInt8, (timeMid >>> 8).toUInt8, timeMid.toUInt8,
        (timeHiAndVersion >>> 8).toUInt8, timeHiAndVersion.toUInt8,
        (((clockseq &&& (0x3F00 : UInt16)) >>> 8) ||| (0x80 : UInt16)).toUInt8,
        (clockseq &&& (0xFF : UInt16)).toUInt8] ++
          node.nodeId
    size := by rw [List.length_append, node.size]; rfl }

/-- The local timestamp and the UUID of one construction. -/
structure Generated where
  timestamp : UInt64
  uuid : UUID

/-- The default constructor. It saves the old timestamp again. -/
def new (globals : Globals) (call : Call) : Generated × Globals :=
  let timed := getCurrentTime globals call
  let identified := getNodeIdentifier timed.2 call
  let timestamp := timed.1
  let node := identified.1
  let last_time := identified.2.gState.timestamp
  let clockseq :=
    if timestamp < last_time then identified.2.gState.clockSequence + 1
    else identified.2.gState.clockSequence
  let last_node := identified.2.gState.nodeId
  (⟨timestamp, stuff timestamp clockseq node⟩,
    { identified.2 with gState := ⟨last_time, last_node, clockseq⟩ })

/-- The constructions of one process in order. -/
def generate : Globals → List Call → List Generated
  | _, [] => []
  | globals, call :: rest => (new globals call).1 :: generate (new globals call).2 rest

/-- The clock sequence that is written into a UUID. -/
def UUID.clockSequence (uuid : UUID) : UInt8 × UInt8 :=
  (uuid.m_uuid.getD 8 0, uuid.m_uuid.getD 9 0)

/-- The UUIDs are pairwise different, and a timestamp that is not greater than an earlier one comes
with another clock sequence. -/
def Unique (produced : List Generated) : Prop :=
  produced.Pairwise fun earlier later => earlier.uuid ≠ later.uuid ∧
    (later.timestamp ≤ earlier.timestamp →
      later.uuid.clockSequence ≠ earlier.uuid.clockSequence)

/-- One reading of a construction and the number of equal readings directly before it. -/
structure Served where
  reading : UInt64
  repeats : Nat

/-- The count starts again at each new reading. -/
def count (timeLast : UInt64) (repeats : Nat) (timeNow : UInt64) : Nat :=
  if timeLast = timeNow then repeats + 1 else 0

def serve (timeLast : UInt64) (repeats : Nat) : List UInt64 → List Served
  | [] => []
  | timeNow :: rest =>
      ⟨timeNow, count timeLast repeats timeNow⟩ ::
        serve timeNow (count timeLast repeats timeNow) rest

/-- The readings of a process. The first construction reads the clock twice. -/
def served : List Call → List Served
  | [] => []
  | first :: rest =>
      serve (getSystemTime first.firstReading) 0
        ((first :: rest).map fun call => getSystemTime call.reading)

/-- A reading serves fewer UUIDs than there are clock units before the next greater reading and
before the end of the 60 bits of a UUID time. -/
structure Paced (readings : List Served) : Prop where
  next : readings.IsChain fun earlier later => earlier.reading < later.reading →
    earlier.reading.toNat + earlier.repeats < later.reading.toNat
  era : ∀ reading ∈ readings, reading.reading.toNat + reading.repeats < 2 ^ 60

/-- The clock never steps back, and no reading is read more than `2 ^ 16` times in a row. -/
structure Steady (readings : List Served) : Prop where
  forward : readings.IsChain fun earlier later => earlier.reading ≤ later.reading
  short : ∀ reading ∈ readings, reading.repeats < 2 ^ 16

section Time

/-- The number that the time bytes of a UUID stand for. -/
def UUID.time (uuid : UUID) : Nat :=
  let byte (index : Nat) := (uuid.m_uuid.getD index 0).toNat
  byte 3 + byte 2 * 2 ^ 8 + byte 1 * 2 ^ 16 + byte 0 * 2 ^ 24 + byte 5 * 2 ^ 32 +
    byte 4 * 2 ^ 40 + byte 7 * 2 ^ 48 + byte 6 % 2 ^ 4 * 2 ^ 56

variable (timestamp : UInt64)

theorem timeLow_toNat :
    (timestamp &&& (0xFFFFFFFF : UInt64)).toUInt32.toNat = timestamp.toNat % 2 ^ 32 := by
  have mask : (0xFFFFFFFF : UInt64).toNat = 2 ^ 32 - 1 := by decide
  rw [UInt64.toNat_toUInt32, UInt64.toNat_and, mask, Nat.and_two_pow_sub_one_eq_mod, Nat.mod_mod]

theorem timeMid_toNat :
    ((timestamp >>> 32) &&& (0xFFFF : UInt64)).toUInt16.toUInt32.toNat =
      timestamp.toNat / 2 ^ 32 % 2 ^ 16 := by
  have mask : (0xFFFF : UInt64).toNat = 2 ^ 16 - 1 := by decide
  have shift : (32 : UInt64).toNat % 64 = 32 := by decide
  rw [UInt16.toNat_toUInt32, UInt64.toNat_toUInt16, UInt64.toNat_and, UInt64.toNat_shiftRight, mask,
    Nat.and_two_pow_sub_one_eq_mod, shift, Nat.shiftRight_eq_div_pow, Nat.mod_mod]

/-- The version is above the twelve high bits of the time. -/
theorem timeHiAndVersion_toNat :
    (((timestamp >>> 48) &&& (0x0FFF : UInt64)) ||| ((1 : UInt64) <<< 12)).toUInt16.toUInt32.toNat =
      timestamp.toNat / 2 ^ 48 % 2 ^ 12 + 2 ^ 12 := by
  have mask : (0x0FFF : UInt64).toNat = 2 ^ 12 - 1 := by decide
  have shift : (48 : UInt64).toNat % 64 = 48 := by decide
  have version : ((1 : UInt64) <<< 12).toNat = 2 ^ 12 * 1 := by decide
  have short : timestamp.toNat / 2 ^ 48 % 2 ^ 12 < 2 ^ 12 := Nat.mod_lt _ (by decide)
  rw [UInt16.toNat_toUInt32, UInt64.toNat_toUInt16, UInt64.toNat_or, UInt64.toNat_and,
    UInt64.toNat_shiftRight, mask, Nat.and_two_pow_sub_one_eq_mod, shift, version,
    Nat.shiftRight_eq_div_pow, Nat.or_comm, ← Nat.two_pow_add_eq_or_of_lt short]
  omega

theorem byte_toNat (field : UInt32) : field.toUInt8.toNat = field.toNat % 256 := by
  rw [UInt32.toNat_toUInt8]

theorem shift_toNat (field : UInt32) : (field >>> 8).toNat = field.toNat / 256 := by
  have shift : (8 : UInt32).toNat % 32 = 8 := by decide
  rw [UInt32.toNat_shiftRight, shift, Nat.shiftRight_eq_div_pow]

/-- A UUID keeps the low 60 bits of its timestamp. -/
theorem stuff_time (clockseq : UInt16) (node : UuidNode) :
    (stuff timestamp clockseq node).time = timestamp.toNat % 2 ^ 60 := by
  have bound := timestamp.toNat_lt
  simp only [UUID.time, stuff, List.cons_append, List.getD_cons_zero, List.getD_cons_succ,
    byte_toNat, shift_toNat, timeLow_toNat, timeMid_toNat, timeHiAndVersion_toNat]
  omega

end Time

/-- The count of a reading is kept in sixteen bits. -/
def Served.timestamp (served : Served) : UInt64 :=
  served.reading + (UInt16.ofNat served.repeats).toUInt64

/-- The saved timestamp never leaves zero, and so the clock sequence never changes. -/
structure Tracks (globals : Globals) (timeLast : UInt64) (repeats : Nat) : Prop where
  inited : globals.currentTimeInited = true
  last : globals.timeLast = timeLast
  ticks : globals.uuidsThisTick = UInt16.ofNat repeats
  saved : globals.gState.timestamp = 0
  sequence : globals.gState.clockSequence = 0

section Generate

variable {globals : Globals} {timeLast : UInt64} {repeats : Nat}

theorem Tracks.getCurrentTime (tracks : Tracks globals timeLast repeats) (call : Call) :
    Tracks (getCurrentTime globals call).2 (getSystemTime call.reading)
        (count timeLast repeats (getSystemTime call.reading)) ∧
      (getCurrentTime globals call).1 = Served.timestamp ⟨getSystemTime call.reading,
        count timeLast repeats (getSystemTime call.reading)⟩ := by
  obtain ⟨inited, rfl, ticks, saved, sequence⟩ := tracks
  by_cases same : globals.timeLast = getSystemTime call.reading
  · have more : globals.uuidsThisTick + 1 = UInt16.ofNat (repeats + 1) := by
      rw [ticks, UInt16.ofNat_add]
      rfl
    refine ⟨?_, ?_⟩
    · exact {
        inited := by simp [UUIDGenerator.getCurrentTime, inited, same]
        last := by simp [UUIDGenerator.getCurrentTime, inited, same]
        ticks := by simp [UUIDGenerator.getCurrentTime, inited, same, count, more]
        saved := by simp [UUIDGenerator.getCurrentTime, inited, same, saved]
        sequence := by simp [UUIDGenerator.getCurrentTime, inited, same, sequence] }
    · simp [UUIDGenerator.getCurrentTime, inited, same, count, more, Served.timestamp]
  · refine ⟨?_, ?_⟩
    · exact {
        inited := by simp [UUIDGenerator.getCurrentTime, inited, same]
        last := by simp [UUIDGenerator.getCurrentTime, inited, same]
        ticks := by simp [UUIDGenerator.getCurrentTime, inited, same, count]
        saved := by simp [UUIDGenerator.getCurrentTime, inited, same, saved]
        sequence := by simp [UUIDGenerator.getCurrentTime, inited, same, sequence] }
    · simp [UUIDGenerator.getCurrentTime, inited, same, count, Served.timestamp]

/-- The node does not matter for the time. -/
theorem Tracks.getNodeIdentifier (tracks : Tracks globals timeLast repeats) (call : Call) :
    Tracks (getNodeIdentifier globals call).2 timeLast repeats := by
  unfold UUIDGenerator.getNodeIdentifier
  split
  · exact tracks
  · exact ⟨tracks.inited, tracks.last, tracks.ticks, tracks.saved, tracks.sequence⟩

/-- One construction writes the clock sequence zero. -/
theorem Tracks.new (tracks : Tracks globals timeLast repeats) (call : Call) :
    Tracks (new globals call).2 (getSystemTime call.reading)
        (count timeLast repeats (getSystemTime call.reading)) ∧
      (new globals call).1.timestamp = Served.timestamp ⟨getSystemTime call.reading,
        count timeLast repeats (getSystemTime call.reading)⟩ ∧
      ∃ node, (new globals call).1.uuid = stuff (new globals call).1.timestamp 0 node := by
  obtain ⟨timed, timestamp⟩ := tracks.getCurrentTime call
  have identified := timed.getNodeIdentifier call
  have notBack (time : UInt64) : ¬ time < 0 := by simp
  refine ⟨?_, ?_, ?_⟩
  · exact {
      inited := by simp only [UUIDGenerator.new, identified.inited]
      last := by simp only [UUIDGenerator.new, identified.last]
      ticks := by simp only [UUIDGenerator.new, identified.ticks]
      saved := by simp only [UUIDGenerator.new, identified.saved]
      sequence := by
        simp only [UUIDGenerator.new, identified.saved, identified.sequence, if_neg (notBack _)] }
  · simp only [UUIDGenerator.new, timestamp]
  · refine
      ⟨(UUIDGenerator.getNodeIdentifier (UUIDGenerator.getCurrentTime globals call).2 call).1, ?_⟩
    simp only [UUIDGenerator.new, identified.saved, identified.sequence, if_neg (notBack _)]

theorem Tracks.generate (calls : List Call) : ∀ {globals : Globals} {timeLast : UInt64}
    {repeats : Nat}, Tracks globals timeLast repeats →
      (UUIDGenerator.generate globals calls).map Generated.timestamp =
          (serve timeLast repeats (calls.map fun call => getSystemTime call.reading)).map
            Served.timestamp ∧
        ∀ generated ∈ UUIDGenerator.generate globals calls,
          ∃ node, generated.uuid = stuff generated.timestamp 0 node := by
  induction calls with
  | nil =>
      intro globals timeLast repeats _
      simp [UUIDGenerator.generate, serve]
  | cons call rest ih =>
      intro globals timeLast repeats tracks
      obtain ⟨later, timestamp, stuffed⟩ := tracks.new call
      obtain ⟨timestamps, allStuffed⟩ := ih later
      refine ⟨?_, ?_⟩
      · simp only [UUIDGenerator.generate, List.map_cons, serve, timestamp, timestamps]
      · rw [UUIDGenerator.generate, List.forall_mem_cons]
        exact ⟨stuffed, allStuffed⟩

end Generate

/-- The first construction finds its own first reading as the last one. -/
def started (first : Call) : Globals :=
  { Globals.zero with timeLast := getSystemTime first.firstReading, currentTimeInited := true }

theorem generate_zero (calls : List Call) :
    (generate .zero calls).map Generated.timestamp = (served calls).map Served.timestamp ∧
      ∀ generated ∈ generate .zero calls,
        ∃ node, generated.uuid = stuff generated.timestamp 0 node := by
  cases calls with
  | nil => simp [generate, served]
  | cons first rest =>
      have tracks : Tracks (started first) (getSystemTime first.firstReading) 0 :=
        ⟨rfl, rfl, rfl, rfl, rfl⟩
      have same : generate .zero (first :: rest) = generate (started first) (first :: rest) := by
        simp [generate, new, getCurrentTime, started, Globals.zero]
      rw [same]
      exact tracks.generate (first :: rest)

/-- The clock sequence does not depend on the time or the node. -/
theorem stuff_clockSequence (timestamp : UInt64) (node : UuidNode) :
    (stuff timestamp 0 node).clockSequence = (0x80, 0) := rfl

/-- The timestamp of a paced reading does not wrap. -/
theorem Served.timestamp_toNat {served : Served}
    (fits : served.reading.toNat + served.repeats < 2 ^ 60) :
    served.timestamp.toNat = served.reading.toNat + served.repeats % 2 ^ 16 := by
  rw [Served.timestamp, UInt64.toNat_add, UInt16.toNat_toUInt64, UInt16.toNat_ofNat']
  omega

/-- Different timestamps make different UUIDs, and nothing else does. -/
theorem unique_iff_timestamps {produced : List Generated}
    (stuffed : ∀ generated ∈ produced, ∃ node, generated.uuid = stuff generated.timestamp 0 node)
    (era : ∀ generated ∈ produced, generated.timestamp.toNat < 2 ^ 60) :
    Unique produced ↔ (produced.map Generated.timestamp).Pairwise (· < ·) := by
  rw [List.pairwise_map]
  apply List.Pairwise.iff_of_mem
  intro earlier later earlierMember laterMember
  obtain ⟨node, isEarlier⟩ := stuffed earlier earlierMember
  obtain ⟨nodeLater, isLater⟩ := stuffed later laterMember
  constructor
  · rintro ⟨_, otherSequence⟩
    rw [← UInt64.not_le]
    intro notGreater
    apply otherSequence notGreater
    rw [isEarlier, isLater, stuff_clockSequence, stuff_clockSequence]
  · intro less
    refine ⟨?_, fun notGreater => absurd notGreater (UInt64.not_le.mpr less)⟩
    intro same
    have times := congrArg UUID.time same
    rw [isEarlier, isLater, stuff_time, stuff_time, Nat.mod_eq_of_lt (era earlier earlierMember),
      Nat.mod_eq_of_lt (era later laterMember)] at times
    exact absurd times (Nat.ne_of_lt (UInt64.lt_iff_toNat_lt.mp less))

/-- The timestamp grows from one paced reading to the next exactly when the clock does not step
back and the count still fits. -/
theorem timestamp_lt_iff {reading timeNow : UInt64} {repeats : Nat}
    (short : repeats < 2 ^ 16) (fits : reading.toNat + repeats < 2 ^ 60)
    (fitsNext : timeNow.toNat + count reading repeats timeNow < 2 ^ 60)
    (pace : reading < timeNow → reading.toNat + repeats < timeNow.toNat) :
    Served.timestamp ⟨reading, repeats⟩ <
        Served.timestamp ⟨timeNow, count reading repeats timeNow⟩ ↔
      reading ≤ timeNow ∧ count reading repeats timeNow < 2 ^ 16 := by
  rw [UInt64.lt_iff_toNat_lt, Served.timestamp_toNat fits, Served.timestamp_toNat fitsNext,
    UInt64.le_iff_toNat_le]
  rw [UInt64.lt_iff_toNat_lt] at pace
  dsimp only
  unfold count
  by_cases same : reading = timeNow
  · rw [if_pos same, same]
    omega
  · rw [if_neg same]
    have different : reading.toNat ≠ timeNow.toNat := mt UInt64.toNat_inj.mp same
    omega

/-- The step lemma carries over to all readings after one whose count fits. -/
theorem chain_iff (readings : List UInt64) : ∀ {reading : UInt64} {repeats : Nat},
    repeats < 2 ^ 16 → Paced (⟨reading, repeats⟩ :: serve reading repeats readings) →
      ((⟨reading, repeats⟩ :: serve reading repeats readings).IsChain
          (fun earlier later => earlier.timestamp < later.timestamp) ↔
        Steady (⟨reading, repeats⟩ :: serve reading repeats readings)) := by
  induction readings with
  | nil =>
      intro reading repeats short _
      simp only [serve, List.isChain_singleton, true_iff]
      exact ⟨.singleton _, by simpa using short⟩
  | cons timeNow rest ih =>
      intro reading repeats short paced
      rw [serve] at paced ⊢
      obtain ⟨pace, next⟩ := List.isChain_cons_cons.mp paced.next
      have fits := paced.era _ List.mem_cons_self
      have era := (List.forall_mem_cons.mp paced.era).2
      have step := timestamp_lt_iff short fits (era _ List.mem_cons_self) pace
      rw [List.isChain_cons_cons, step]
      constructor
      · rintro ⟨⟨forward, counted⟩, chain⟩
        have later := (ih counted ⟨next, era⟩).mp chain
        exact ⟨List.isChain_cons_cons.mpr ⟨forward, later.forward⟩,
          List.forall_mem_cons.mpr ⟨short, later.short⟩⟩
      · intro steady
        obtain ⟨forward, forwardLater⟩ := List.isChain_cons_cons.mp steady.forward
        have shortLater := (List.forall_mem_cons.mp steady.short).2
        have counted := shortLater _ List.mem_cons_self
        exact ⟨⟨forward, counted⟩, (ih counted ⟨next, era⟩).mpr ⟨forwardLater, shortLater⟩⟩

/-- Under the pace of the claim the UUIDs of a process are unique exactly for a steady clock. -/
theorem uuid_unique_iff (calls : List Call) (paced : Paced (served calls)) :
    Unique (generate .zero calls) ↔ Steady (served calls) := by
  obtain ⟨timestamps, stuffed⟩ := generate_zero calls
  have era : ∀ generated ∈ generate .zero calls, generated.timestamp.toNat < 2 ^ 60 := by
    intro generated member
    have inMap := List.mem_map_of_mem (f := Generated.timestamp) member
    rw [timestamps] at inMap
    obtain ⟨reading, inServed, same⟩ := List.mem_map.mp inMap
    have fits := paced.era reading inServed
    rw [← same, Served.timestamp_toNat fits]
    omega
  rw [unique_iff_timestamps stuffed era, timestamps, ← List.isChain_iff_pairwise,
    List.isChain_map]
  cases calls with
  | nil => exact ⟨fun _ => ⟨.nil, by simp [served]⟩, fun _ => .nil⟩
  | cons first rest =>
      have short : count (getSystemTime first.firstReading) 0 (getSystemTime first.reading) <
          2 ^ 16 := by
        unfold count
        split <;> decide
      exact chain_iff _ short paced

/-- A construction at this number of microseconds after the epoch. -/
def Call.atMicrosecond (tv_usec : Int64) : Call := ⟨⟨0, 0⟩, ⟨0, tv_usec⟩, .zero⟩

theorem uuid_unique_iff_twoCalls :
    Unique (generate .zero [.atMicrosecond 10, .atMicrosecond 10]) ↔
      Steady (served [.atMicrosecond 10, .atMicrosecond 10]) :=
  uuid_unique_iff [.atMicrosecond 10, .atMicrosecond 10] ⟨by decide, by decide⟩

/-- The clock steps back by one microsecond and then comes to an earlier reading again. -/
theorem backStep_not_unique :
    Paced (served [.atMicrosecond 10, .atMicrosecond 9, .atMicrosecond 10]) ∧
      ¬ Unique (generate .zero [.atMicrosecond 10, .atMicrosecond 9, .atMicrosecond 10]) := by
  refine ⟨⟨by decide, by decide⟩, ?_⟩
  intro unique
  have different := (List.pairwise_cons.mp unique).1
  exact (different _ (List.mem_cons_of_mem _ List.mem_cons_self)).1 (by decide)

end Blocxx.UUIDGenerator
