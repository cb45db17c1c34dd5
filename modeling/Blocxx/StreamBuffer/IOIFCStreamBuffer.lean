import Blocxx.Library.Loop
import Blocxx.StreamBuffer.BaseStreamBuffer

/-!
This file embeds `IOIFCStreamBuffer` and proves that it neither loses nor reorders bytes.
-/

namespace Blocxx.StreamBuffer

open Library

/-- The device of the caller, and what `pubsync` of a tied buffer does. A read or write that fails
with -1 has no bytes or no count. -/
structure IOIFC (Device : Type) where
  read : Device → Nat → Option Bytes × Device
  write : Device → Bytes → Option Nat × Device
  m_tied_buf : Option (Device → Device)

namespace IOIFC

variable {Device : Type} (m_dev : IOIFC Device)

/-- The loop of `buffer_to_device`. Its state is the rest of the bytes. -/
def writeSome : Bytes × Device → Loop.Iteration (Bytes × Device) (Int × Device)
  | ([], device) => .stop (0, device)
  | (c :: s, device) =>
      match m_dev.write device (c :: s) with
      | (some cnt, after) => .next ((c :: s).drop cnt, after)
      | (none, after) => .stop (-1, after)

/-- The virtual functions of `IOIFCStreamBuffer`, whose loop runs at most this many times. -/
def derived (fuel : Nat) : Derived Device where
  buffer_to_device device s := Loop.run m_dev.writeSome fuel (s, device)
  buffer_from_device device n :=
    some (m_dev.read (m_dev.m_tied_buf.elim device fun pubsync => pubsync device) n)

/-- Each write accepts some non-empty prefix, and these are the bytes accepted so far. -/
def AcceptsPrefixes (received : Device → Bytes) : Prop :=
  ∀ device s, s ≠ [] → ∃ cnt after, m_dev.write device s = (some cnt, after) ∧ 0 < cnt ∧
    cnt ≤ s.length ∧ received after = received device ++ s.take cnt

/-- Each read gives some non-empty chunk of the bytes that remain, until none do. The tied buffer
takes none of them. -/
structure GivesChunks (remaining : Device → Bytes) : Prop where
  read : ∀ device n, 0 < n → ∃ chunk after, m_dev.read device n = (chunk, after) ∧
    (chunk.getD []).length ≤ n ∧ remaining device = chunk.getD [] ++ remaining after ∧
    (chunk.getD [] = [] → remaining device = [])
  tied : ∀ pubsync ∈ m_dev.m_tied_buf, ∀ device, remaining (pubsync device) = remaining device

variable {m_dev} {received remaining : Device → Bytes}

/-- The loop writes all bytes, in at most one iteration for each of them. -/
theorem AcceptsPrefixes.writeSome (accepts : m_dev.AcceptsPrefixes received) (fuel : Nat)
    (s : Bytes) (device : Device) (enough : s.length < fuel) :
    ∃ after, Loop.run m_dev.writeSome fuel (s, device) = some (0, after) ∧
      received after = received device ++ s := by
  induction fuel generalizing s device with
  | zero => exact absurd enough (Nat.not_lt_zero _)
  | succ fuel ih =>
      cases s with
      | nil => exact ⟨device, rfl, (List.append_nil _).symm⟩
      | cons c s =>
          obtain ⟨cnt, next, wrote, positive, -, has⟩ :=
            accepts device (c :: s) (List.cons_ne_nil c s)
          rw [List.length_cons] at enough
          obtain ⟨after, writes, rest⟩ := ih ((c :: s).drop cnt) next (by
            rw [List.length_drop, List.length_cons]
            omega)
          refine ⟨after, ?_, ?_⟩
          · rw [Loop.run, IOIFC.writeSome, wrote]
            exact writes
          · rw [rest, has, List.append_assoc, List.take_append_drop]

theorem AcceptsPrefixes.delivers (accepts : m_dev.AcceptsPrefixes received) {fuel limit : Nat}
    (enough : limit < fuel) :
    BaseStreamBuffer.Delivers (m_dev.derived fuel) (fun device bytes => received device = bytes)
      (fun _ => True) limit := by
  rintro device _ s rfl - small
  exact accepts.writeSome fuel s device (by omega)

theorem GivesChunks.supplies (gives : m_dev.GivesChunks remaining) (fuel : Nat) :
    BaseStreamBuffer.Supplies (m_dev.derived fuel) fun device bytes =>
      remaining device = bytes := by
  rintro device _ n rfl positive
  have tied : remaining (m_dev.m_tied_buf.elim device fun pubsync => pubsync device) =
      remaining device := by
    cases tied : m_dev.m_tied_buf with
    | none => rfl
    | some pubsync => exact gives.tied pubsync tied device
  obtain ⟨chunk, after, read, -, split, ends⟩ := gives.read _ n positive
  rw [tied] at split ends
  exact ⟨chunk, after, congrArg some read, _, split, rfl, ends⟩

end IOIFC

/-- `EOF` is the first value of no bytes only. -/
theorem firstValue_eq_EOF {bytes : Bytes} (ends : BaseStreamBuffer.firstValue bytes = EOF) :
    bytes = [] := by
  cases bytes with
  | nil => rfl
  | cons c bytes => exact absurd ends (toIntType_ne_EOF c)

/-- Behind a call that answers `EOF` no bytes are left. -/
theorem drop_of_expected_EOF (calls : List GetCall) (bytes : Bytes)
    (ends : (expected bytes calls).getLast? = some (.value EOF)) :
    bytes.drop (calls.map GetCall.taken).sum = [] := by
  induction calls generalizing bytes with
  | nil => cases ends
  | cons call calls ih =>
      rw [List.map_cons, List.sum_cons, ← List.drop_drop]
      cases calls with
      | cons other calls => exact ih _ ends
      | nil =>
          have answer := Option.some.inj ends
          have empty : bytes = [] := by
            cases call with
            | sgetc => exact firstValue_eq_EOF (GetAnswer.value.inj answer)
            | sbumpc => exact firstValue_eq_EOF (GetAnswer.value.inj answer)
            | sgetn n => cases answer
          rw [empty, List.drop_nil, List.drop_nil]

/-- The put area and the get area keep the bytes in their order, for every buffer that an
`IOIFCStreamBuffer` can have. -/
theorem IOIFC.bytes_kept {Device : Type} (m_dev : IOIFC Device) {bufSize fuel : Nat}
    (positive : 0 < bufSize) (int : bufSize < 2 ^ 31) (enough : bufSize < fuel) :
    (∀ received : Device → Bytes, m_dev.AcceptsPrefixes received →
      ∀ b : BaseStreamBuffer Device, b.m_bufSize = bufSize → b.direction ≠ .E_IN →
      ∀ calls : List PutCall, ∃ after,
        putCalls (m_dev.derived fuel) fuel b calls = some (calls.map PutCall.success, after) ∧
        received after.device ++ after.written =
          received b.device ++ b.written ++ calls.flatMap PutCall.bytes ∧
        (calls.getLast? = some .sync → after.written = [])) ∧
    (∀ remaining : Device → Bytes, m_dev.GivesChunks remaining →
      ∀ b : BaseStreamBuffer Device, b.m_bufSize = bufSize → b.direction ≠ .E_OUT →
      ∀ calls : List GetCall, ∃ after,
        getCalls (m_dev.derived fuel) b calls =
          some (expected (b.left ++ remaining b.device) calls, after) ∧
        after.left ++ remaining after.device =
          (b.left ++ remaining b.device).drop (calls.map GetCall.taken).sum ∧
        ((expected (b.left ++ remaining b.device) calls).getLast? = some (.value EOF) →
          remaining after.device = [])) := by
  constructor
  · intro received accepts b size direction calls
    have whole : b.putSize = bufSize := by rw [BaseStreamBuffer.putSize, if_neg direction, size]
    obtain ⟨after, runs, ⟨bytes, rfl, split⟩, -, flushed⟩ :=
      @putCalls_spec _ _ b _ _ _ _ _ calls (accepts.delivers enough) whole.le
        (fun _ _ _ => trivial) ⟨_, rfl, rfl⟩ trivial (whole ▸ positive) (whole ▸ int)
        (show 0 < fuel by omega)
    exact ⟨after, runs, split.symm, flushed⟩
  · intro remaining gives b size direction calls
    obtain ⟨after, runs, ⟨bytes, rfl, split⟩, -⟩ :=
      getCalls_spec calls (gives.supplies fuel) ⟨direction, size ▸ positive⟩ ⟨_, rfl, rfl⟩
    refine ⟨after, runs, split.symm, fun ends => ?_⟩
    rw [drop_of_expected_EOF calls _ ends] at split
    exact (List.append_eq_nil_iff.mp split.symm).2

/-- A device that takes two bytes at most and gives three at most. -/
def slowDevice : IOIFC (Bytes × Bytes) where
  read device n :=
    if device.2 = [] then (none, device)
    else (some (device.2.take (min 3 n)), (device.1, device.2.drop (min 3 n)))
  write device s := (some (min 2 s.length), (device.1 ++ s.take 2, device.2))
  m_tied_buf := none

theorem slowDevice_accepts : slowDevice.AcceptsPrefixes Prod.fst := by
  intro device s nonempty
  have positive := List.length_pos_of_ne_nil nonempty
  refine ⟨min 2 s.length, _, rfl, by omega, by omega, ?_⟩
  show device.1 ++ s.take 2 = device.1 ++ s.take (min 2 s.length)
  rcases Nat.le_total 2 s.length with long | short
  · rw [Nat.min_eq_left long]
  · rw [Nat.min_eq_right short, List.take_of_length_le short, List.take_length]

theorem slowDevice_gives : slowDevice.GivesChunks Prod.snd where
  read device n positive := by
    by_cases none_ : device.2 = []
    · exact ⟨none, device, if_pos none_, Nat.zero_le _, rfl, fun _ => none_⟩
    · refine ⟨_, _, if_neg none_, ?_, ?_, ?_⟩
      · rw [Option.getD_some, List.length_take]
        omega
      · exact (List.take_append_drop _ _).symm
      · rw [Option.getD_some, List.take_eq_nil_iff]
        rintro (zero | empty)
        · omega
        · exact empty
  tied := nofun

theorem slowDevice_keeps :
    (∃ after, putCalls (slowDevice.derived 3) 3 (.new .E_IN_OUT 2 ([], []))
        [.sputc 255, .sputn [1, 0, 255, 2, 3], .sync] = some ([255, 5, 0], after) ∧
      after.device.1 ++ after.written = [255, 1, 0, 255, 2, 3] ∧ after.written = []) ∧
    ∃ after, getCalls (slowDevice.derived 3) (.new .E_IN_OUT 2 ([], [7, 255, 0, 255]))
        [.sgetc, .sbumpc, .sgetn 5, .sgetc] =
          some ([.value 7, .value 7, .block [255, 0, 255], .value (-1)], after) ∧
      after.device.2 = [] := by
  have kept := slowDevice.bytes_kept (show 0 < 2 by decide) (by decide) (show 2 < 3 by decide)
  constructor
  · obtain ⟨after, runs, same, flushed⟩ := kept.1 _ slowDevice_accepts
      (.new .E_IN_OUT 2 ([], [])) rfl (by decide) [.sputc 255, .sputn [1, 0, 255, 2, 3], .sync]
    exact ⟨after, runs, same, flushed rfl⟩
  · obtain ⟨after, runs, -, ends⟩ := kept.2 _ slowDevice_gives
      (.new .E_IN_OUT 2 ([], [7, 255, 0, 255])) rfl (by decide) [.sgetc, .sbumpc, .sgetn 5, .sgetc]
    exact ⟨after, runs, ends rfl⟩

end Blocxx.StreamBuffer
