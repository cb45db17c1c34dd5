import Blocxx.Select.Select

/-!
This file proves when the back ends of `selectRW` agree with its documentation and with each other.
-/

namespace Blocxx.Select

section Counting

variable {Entry : Type}

/-- Two counts are equal exactly when they count the same entries, if one counts less. -/
theorem countP_eq_countP_iff {less more : Entry → Bool} (implies : ∀ entry, less entry → more entry)
    (entries : List Entry) :
    entries.countP more = entries.countP less ↔
      ∀ entry ∈ entries, more entry → less entry := by
  induction entries with
  | nil => simp
  | cons entry entries ih =>
      have fewer : entries.countP less ≤ entries.countP more :=
        List.countP_mono_left fun entry _ => implies entry
      rw [List.countP_cons, List.countP_cons, List.forall_mem_cons, ← ih]
      by_cases counted : less entry
      · rw [if_pos counted, if_pos (implies entry counted)]
        constructor
        · intro same
          exact ⟨fun _ => counted, by omega⟩
        · rintro ⟨-, same⟩
          omega
      · rw [if_neg counted]
        by_cases counted_more : more entry
        · rw [if_pos counted_more]
          constructor
          · intro same
            omega
          · rintro ⟨both, -⟩
            exact absurd (both counted_more) counted
        · rw [if_neg counted_more]
          constructor
          · intro same
            exact ⟨fun impossible => absurd impossible counted_more, by omega⟩
          · rintro ⟨-, same⟩
            omega

end Counting

/-- Flags are set only when they were asked for, and the count is the number of entries with one. -/
def Consistent (rc : Int) (after : List SelectObject) : Prop :=
  (∀ so ∈ after, (so.readAvailable → so.waitForRead) ∧ (so.writeAvailable → so.waitForWrite)) ∧
    rc = after.countP fun so => so.readAvailable || so.writeAvailable

/-- The flags of an entry are set only when they were asked for. -/
def Asked (so : SelectObject) : Prop :=
  (so.readAvailable → so.waitForRead) ∧ (so.writeAvailable → so.waitForWrite)

def available (so : SelectObject) : Bool := so.readAvailable || so.writeAvailable

/-- A count of reported entries is right exactly when every reported entry gets a flag. -/
theorem consistent_map_iff {flags : SelectObject → SelectObject} {reported : SelectObject → Bool}
    (asked : ∀ so, Asked (flags so)) (implies : ∀ so, available (flags so) → reported so)
    (selarray : List SelectObject) :
    Consistent (selarray.countP reported) (selarray.map flags) ↔
      ∀ so ∈ selarray, reported so → available (flags so) := by
  rw [← countP_eq_countP_iff implies]
  unfold Consistent
  rw [List.countP_map, Nat.cast_inj]
  constructor
  · exact fun both => both.2
  · intro same
    refine ⟨?_, same⟩
    intro so mem
    obtain ⟨before, -, rfl⟩ := List.mem_map.mp mem
    exact asked before

/-- The readiness that the wait loop ends with. -/
def decisive (count : (Int → Events) → Nat) (waits : List Wait) : Option (Int → Events) :=
  match waitLoop count waits with
  | .error _ => none
  | .ok found => some found.2

theorem waitLoop_error {count : (Int → Events) → Nat} {rc : Int} (waits : List Wait)
    (fails : waitLoop count waits = .error rc) : rc < 0 := by
  induction waits with
  | nil =>
      cases fails
      decide
  | cons wait waits ih =>
      cases wait with
      | interrupted => exact ih fails
      | failed =>
          cases fails
          decide
      | returned readiness =>
          rw [waitLoop] at fails
          split at fails
          · exact ih fails
          · cases fails

theorem waitLoop_ok {count : (Int → Events) → Nat} {found : Nat × (Int → Events)}
    (waits : List Wait) (ends : waitLoop count waits = .ok found) : found.1 = count found.2 := by
  induction waits with
  | nil => cases ends
  | cons wait waits ih =>
      cases wait with
      | interrupted => exact ih ends
      | failed => cases ends
      | returned readiness =>
          rw [waitLoop] at ends
          split at ends
          · exact ih ends
          · cases ends
            rfl

section Epoll

/-- The entry after `selectRWEpoll` returns. -/
def SelectObject.epolled (readiness : Int → Events) (so : SelectObject) : SelectObject :=
  { so.clear with
    readAvailable := so.waitForRead && ((so.epollReported readiness).inter read_events).any
    writeAvailable := so.waitForWrite && ((so.epollReported readiness).inter write_events).any }

theorem inter_any_of_none {events other : Events} (nothing : events.any = false) :
    (events.inter other).any = false := by
  obtain ⟨IN, PRI, OUT, ERR, HUP, NVAL⟩ := events
  cases IN <;> cases PRI <;> cases OUT <;> cases ERR <;> cases HUP <;> cases NVAL <;>
    first | rfl | cases nothing

theorem modify_middle {Entry : Type} (change : Entry → Entry) (entry : Entry)
    (after before : List Entry) :
    (before ++ entry :: after).modify before.length change = before ++ change entry :: after := by
  induction before with
  | nil => rfl
  | cons first before ih =>
      show (first :: (before ++ entry :: after)).modify (before.length + 1) change = _
      rw [List.modify_succ_cons, ih]
      rfl

/-- The loop over the events sets the flags of the entries behind those that are done. -/
theorem foldl_setAvailable (readiness : Int → Events) (selarray : List SelectObject) :
    ∀ done : List SelectObject,
      ((selarray.zipIdx done.length).filterMap fun entry =>
          let events := entry.1.epollReported readiness
          if events.any then some (entry.2, events) else none).foldl setAvailable
        (done ++ selarray.map SelectObject.clear) =
      done ++ selarray.map (SelectObject.epolled readiness) := by
  induction selarray with
  | nil => exact fun done => rfl
  | cons so selarray ih =>
      intro done
      have rest := ih (done ++ [so.epolled readiness])
      rw [List.length_append, List.length_singleton, List.append_assoc, List.append_assoc] at rest
      rw [List.zipIdx_cons, List.map_cons, List.map_cons]
      by_cases ready : (so.epollReported readiness).any
      · rw [List.filterMap_cons_some (by dsimp only; rw [if_pos ready]), List.foldl_cons,
          setAvailable, modify_middle]
        exact rest
      · have same : so.clear = so.epolled readiness := by
          have nothing := Bool.eq_false_of_not_eq_true ready
          rw [SelectObject.epolled, inter_any_of_none nothing, inter_any_of_none nothing,
            Bool.and_false, Bool.and_false]
          rfl
        rw [List.filterMap_cons_none (by dsimp only; rw [if_neg ready]), same]
        exact rest

theorem epollAdd_cleared {epoll_ctl : Int → Option Int} {selarray cleared : List SelectObject} :
    ∀ {added : List Int}, epollAdd epoll_ctl added selarray = some (none, cleared) →
      cleared = selarray.map SelectObject.clear := by
  induction selarray generalizing cleared with
  | nil =>
      intro added adds
      cases adds
      rfl
  | cons so selarray ih =>
      intro added adds
      rw [epollAdd] at adds
      split at adds
      · cases adds
      split at adds
      · cases adds
      · obtain ⟨⟨errno, rest⟩, addsRest, same⟩ := Option.map_eq_some_iff.mp adds
        cases same
        rw [List.map_cons, ih addsRest]

/-- A positive answer of the epoll version and the entries that it leaves. -/
theorem selectRWEpoll_positive {kernel : Kernel} {selarray after : List SelectObject} {rc : Int}
    (returned : selectRWEpoll kernel selarray = some (rc, after)) (positive : 0 < rc) :
    ∃ readiness,
      decisive (fun readiness => (epollReady readiness selarray).length) kernel.waits =
        some readiness ∧
      rc = (epollReady readiness selarray).length ∧
      after = selarray.map (SelectObject.epolled readiness) := by
  unfold selectRWEpoll at returned
  split at returned
  · cases returned
    split at positive
    · cases positive
    · cases positive
  split at returned
  · cases returned
  · cases returned
    split at positive
    · cases positive
    · cases positive
  next cleared adds =>
    cases waited : waitLoop (fun readiness => (epollReady readiness selarray).length)
        kernel.waits with
    | error error =>
        rw [waited] at returned
        cases returned
        exact absurd (waitLoop_error _ waited) (Int.not_lt.mpr positive.le)
    | ok found =>
        rw [waited] at returned
        cases returned
        refine ⟨found.2, by rw [decisive, waited], ?_, ?_⟩
        · exact congrArg Int.ofNat (waitLoop_ok _ waited)
        · rw [epollAdd_cleared adds]
          exact foldl_setAvailable found.2 selarray []

theorem epollReady_length (readiness : Int → Events) (selarray : List SelectObject) :
    (epollReady readiness selarray).length =
      selarray.countP fun so => (so.epollReported readiness).any := by
  have from_index (first : Nat) : ((selarray.zipIdx first).filterMap fun entry =>
      let events := entry.1.epollReported readiness
      if events.any then some (entry.2, events) else none).length =
      selarray.countP fun so => (so.epollReported readiness).any := by
    induction selarray generalizing first with
    | nil => rfl
    | cons so selarray ih =>
        rw [List.zipIdx_cons, List.countP_cons]
        by_cases ready : (so.epollReported readiness).any
        · rw [List.filterMap_cons_some (by dsimp only; rw [if_pos ready]), List.length_cons, ih,
            if_pos ready]
        · rw [List.filterMap_cons_none (by dsimp only; rw [if_neg ready]), ih, if_neg ready]
          rfl
  exact from_index 0

/-- The bits and flags of one entry of the epoll version. An entry that is reported has no flag
only if it does not wait. -/
theorem epolled_flags (readiness : Int → Events) (so : SelectObject) :
    Asked (so.epolled readiness) ∧
      (available (so.epolled readiness) → (so.epollReported readiness).any) ∧
      (((so.epollReported readiness).any → available (so.epolled readiness)) ↔
        ((readiness so.s).ERR ∨ (readiness so.s).HUP → so.waitForRead ∨ so.waitForWrite)) := by
  unfold Asked available SelectObject.epolled SelectObject.epollReported SelectObject.epollEvents
  generalize readiness so.s = events
  obtain ⟨s, waitForRead, waitForWrite, _, _, _⟩ := so
  obtain ⟨IN, PRI, OUT, ERR, HUP, NVAL⟩ := events
  dsimp only
  cases waitForRead <;> cases waitForWrite <;> cases ERR <;> cases HUP <;>
    simp [Events.any, Events.inter, read_events, write_events, SelectObject.clear]

theorem epoll_consistent_iff (readiness : Int → Events) (selarray : List SelectObject) :
    Consistent (epollReady readiness selarray).length
        (selarray.map (SelectObject.epolled readiness)) ↔
      ∀ so ∈ selarray, (readiness so.s).ERR ∨ (readiness so.s).HUP →
        so.waitForRead ∨ so.waitForWrite := by
  rw [epollReady_length, consistent_map_iff (fun so => (epolled_flags readiness so).1)
    fun so => (epolled_flags readiness so).2.1]
  exact forall₂_congr fun so _ => (epolled_flags readiness so).2.2

end Epoll

section Poll

/-- A positive answer of the poll version and the entries that it leaves. -/
theorem selectRWPoll_positive {kernel : Kernel} {selarray after : List SelectObject} {rc : Int}
    (returned : selectRWPoll kernel selarray = some (rc, after)) (positive : 0 < rc) :
    ∃ readiness, decisive (pollCount selarray) kernel.waits = some readiness ∧
      rc = pollCount selarray readiness ∧ after = selarray.map (SelectObject.polled readiness) := by
  unfold selectRWPoll at returned
  split at returned
  · cases returned
  cases waited : waitLoop (pollCount selarray) kernel.waits with
  | error error =>
      rw [waited] at returned
      cases returned
      exact absurd (waitLoop_error _ waited) (Int.not_lt.mpr positive.le)
  | ok found =>
      rw [waited] at returned
      cases returned
      exact ⟨found.2, by rw [decisive, waited], congrArg Int.ofNat (waitLoop_ok _ waited), rfl⟩

/-- The bits and flags of one entry of the poll version. An entry that is reported has no flag only
if an error, a hang-up or an invalid descriptor is all that it is reported for. -/
theorem polled_flags (readiness : Int → Events) (so : SelectObject) :
    Asked (so.polled readiness) ∧
      (available (so.polled readiness) → (so.revents readiness).any) ∧
      (((so.revents readiness).any → available (so.polled readiness)) ↔
        ((readiness so.s).ERR ∨ (readiness so.s).HUP ∨ (readiness so.s).NVAL →
          so.waitForRead ∧
              ((readiness so.s).IN ∨ (readiness so.s).PRI ∨ (readiness so.s).HUP) ∨
            so.waitForWrite ∧ ((readiness so.s).OUT ∨ (readiness so.s).HUP))) := by
  unfold Asked available SelectObject.polled SelectObject.revents SelectObject.pollEvents
  generalize readiness so.s = events
  obtain ⟨s, waitForRead, waitForWrite, _, _, _⟩ := so
  obtain ⟨IN, PRI, OUT, ERR, HUP, NVAL⟩ := events
  cases waitForRead <;> cases waitForWrite <;> cases ERR <;> cases NVAL <;>
    simp [Events.any, Events.inter, SelectObject.clear] <;> tauto

theorem poll_consistent_iff (readiness : Int → Events) (selarray : List SelectObject) :
    Consistent (pollCount selarray readiness) (selarray.map (SelectObject.polled readiness)) ↔
      ∀ so ∈ selarray,
        (readiness so.s).ERR ∨ (readiness so.s).HUP ∨ (readiness so.s).NVAL →
          so.waitForRead ∧
              ((readiness so.s).IN ∨ (readiness so.s).PRI ∨ (readiness so.s).HUP) ∨
            so.waitForWrite ∧ ((readiness so.s).OUT ∨ (readiness so.s).HUP) := by
  rw [pollCount, consistent_map_iff (fun so => (polled_flags readiness so).1)
    fun so => (polled_flags readiness so).2.1]
  exact forall₂_congr fun so _ => (polled_flags readiness so).2.2

end Poll

section SelectCall

/-- A positive answer of the select version and the entries that it leaves. -/
theorem selectRWSelect_positive {kernel : Kernel} {selarray after : List SelectObject} {rc : Int}
    (returned : selectRWSelect kernel selarray = some (rc, after)) (positive : 0 < rc) :
    ∃ readiness, decisive (selectCount selarray) kernel.waits = some readiness ∧
      rc = availableCount (readySets selarray readiness) selarray ∧
      after = selarray.map (SelectObject.selected (readySets selarray readiness)) := by
  unfold selectRWSelect at returned
  split at returned
  · split at returned
    · cases returned
    · cases returned
      cases positive
  cases waited : waitLoop (selectCount selarray) kernel.waits with
  | error error =>
      rw [waited] at returned
      cases returned
      exact absurd (waitLoop_error _ waited) (Int.not_lt.mpr positive.le)
  | ok found =>
      rw [waited] at returned
      cases returned
      exact ⟨found.2, by rw [decisive, waited], rfl, rfl⟩

/-- Another entry with the same descriptor asks for reading. -/
theorem mem_readySets_read {selarray : List SelectObject} {readiness : Int → Events} {s : Int} :
    s ∈ (readySets selarray readiness).1 ↔
      (∃ other ∈ selarray, other.s = s ∧ other.waitForRead) ∧ (readiness s).readable := by
  simp only [readySets, readSet, List.mem_filter, List.mem_dedup, List.mem_map]
  constructor
  · rintro ⟨⟨other, ⟨mem, asks⟩, rfl⟩, ready⟩
    exact ⟨⟨other, mem, rfl, asks⟩, ready⟩
  · rintro ⟨⟨other, mem, rfl, asks⟩, ready⟩
    exact ⟨⟨other, ⟨mem, asks⟩, rfl⟩, ready⟩

theorem mem_readySets_write {selarray : List SelectObject} {readiness : Int → Events} {s : Int} :
    s ∈ (readySets selarray readiness).2 ↔
      (∃ other ∈ selarray, other.s = s ∧ other.waitForWrite) ∧ (readiness s).writable := by
  simp only [readySets, writeSet, List.mem_filter, List.mem_dedup, List.mem_map]
  constructor
  · rintro ⟨⟨other, ⟨mem, asks⟩, rfl⟩, ready⟩
    exact ⟨⟨other, mem, rfl, asks⟩, ready⟩
  · rintro ⟨⟨other, mem, rfl, asks⟩, ready⟩
    exact ⟨⟨other, ⟨mem, asks⟩, rfl⟩, ready⟩

/-- Entries with the same ready descriptor ask for the same. -/
def SharedAsked (selarray : List SelectObject) (readiness : Int → Events) : Prop :=
  ∀ so ∈ selarray, ∀ other ∈ selarray, other.s = so.s →
    ((readiness so.s).readable → other.waitForRead → so.waitForRead) ∧
      ((readiness so.s).writable → other.waitForWrite → so.waitForWrite)

theorem select_consistent_iff (readiness : Int → Events) (selarray : List SelectObject) :
    Consistent (availableCount (readySets selarray readiness) selarray)
        (selarray.map (SelectObject.selected (readySets selarray readiness))) ↔
      SharedAsked selarray readiness := by
  have counted : (availableCount (readySets selarray readiness) selarray : Int) =
      (selarray.map (SelectObject.selected (readySets selarray readiness))).countP
        fun so => so.readAvailable || so.writeAvailable := by
    rw [availableCount, List.countP_map]
    rfl
  unfold Consistent
  rw [and_iff_left counted]
  constructor
  · intro asked so mem other memOther same
    obtain ⟨reads, writes⟩ := asked _ (List.mem_map_of_mem mem)
    constructor
    · intro ready asks
      exact reads (decide_eq_true (mem_readySets_read.mpr ⟨⟨other, memOther, same, asks⟩, ready⟩))
    · intro ready asks
      exact writes (decide_eq_true (mem_readySets_write.mpr ⟨⟨other, memOther, same, asks⟩, ready⟩))
  · intro shared so mem
    obtain ⟨so, memBefore, rfl⟩ := List.mem_map.mp mem
    constructor
    · intro flagged
      obtain ⟨⟨other, memOther, same, asks⟩, ready⟩ :=
        mem_readySets_read.mp (of_decide_eq_true flagged)
      exact (shared so memBefore other memOther same).1 ready asks
    · intro flagged
      obtain ⟨⟨other, memOther, same, asks⟩, ready⟩ :=
        mem_readySets_write.mp (of_decide_eq_true flagged)
      exact (shared so memBefore other memOther same).2 ready asks

end SelectCall

section Agreement

/-- Both versions set the same flags for reading and for writing. -/
def SameAvailable (first second : SelectObject) : Prop :=
  first.readAvailable = second.readAvailable ∧ first.writeAvailable = second.writeAvailable

/-- The epoll version sets both flags for an error, and the poll version does not. -/
theorem sameAvailable_iff (readiness : Int → Events) (so : SelectObject) :
    SameAvailable (so.epolled readiness) (so.polled readiness) ↔
      ((readiness so.s).ERR →
        (so.waitForRead →
            (readiness so.s).IN ∨ (readiness so.s).PRI ∨ (readiness so.s).HUP) ∧
          (so.waitForWrite → (readiness so.s).OUT ∨ (readiness so.s).HUP)) := by
  unfold SameAvailable SelectObject.epolled SelectObject.epollReported SelectObject.epollEvents
    SelectObject.polled SelectObject.revents SelectObject.pollEvents
  generalize readiness so.s = events
  obtain ⟨s, waitForRead, waitForWrite, _, _, _⟩ := so
  obtain ⟨IN, PRI, OUT, ERR, HUP, NVAL⟩ := events
  cases waitForRead <;> cases waitForWrite <;> cases ERR <;> cases NVAL <;>
    simp [Events.any, Events.inter, read_events, write_events, SelectObject.clear, or_assoc]

/-- Only the poll version sets the flag of an error. -/
theorem epolled_eq_polled_iff (readiness : Int → Events) (so : SelectObject) :
    so.epolled readiness = so.polled readiness ↔
      ¬ ((readiness so.s).ERR ∨ (readiness so.s).NVAL) := by
  unfold SelectObject.epolled SelectObject.epollReported SelectObject.epollEvents
    SelectObject.polled SelectObject.revents SelectObject.pollEvents
  generalize readiness so.s = events
  obtain ⟨s, waitForRead, waitForWrite, _, _, _⟩ := so
  obtain ⟨IN, PRI, OUT, ERR, HUP, NVAL⟩ := events
  cases waitForRead <;> cases waitForWrite <;> cases ERR <;> cases NVAL <;>
    simp [Events.any, Events.inter, read_events, write_events, SelectObject.clear]

end Agreement

/-- When the back ends answer a positive number, and what they leave then. The readiness is the one
of the wait that ended their loop. -/
theorem back_ends_agree_iff (kernel : Kernel) (selarray : List SelectObject) :
    (∀ rc after, selectRWEpoll kernel selarray = some (rc, after) → 0 < rc → ∃ readiness,
      decisive (fun readiness => (epollReady readiness selarray).length) kernel.waits =
        some readiness ∧
      (Consistent rc after ↔ ∀ so ∈ selarray,
        (readiness so.s).ERR ∨ (readiness so.s).HUP → so.waitForRead ∨ so.waitForWrite)) ∧
    (∀ rc after, selectRWPoll kernel selarray = some (rc, after) → 0 < rc → ∃ readiness,
      decisive (pollCount selarray) kernel.waits = some readiness ∧
      (Consistent rc after ↔ ∀ so ∈ selarray,
        (readiness so.s).ERR ∨ (readiness so.s).HUP ∨ (readiness so.s).NVAL →
          so.waitForRead ∧
              ((readiness so.s).IN ∨ (readiness so.s).PRI ∨ (readiness so.s).HUP) ∨
            so.waitForWrite ∧ ((readiness so.s).OUT ∨ (readiness so.s).HUP))) ∧
    (∀ rc after, selectRWSelect kernel selarray = some (rc, after) → 0 < rc → ∃ readiness,
      decisive (selectCount selarray) kernel.waits = some readiness ∧
      (Consistent rc after ↔ SharedAsked selarray readiness)) ∧
    ∀ rc after rc' after' readiness, selectRWEpoll kernel selarray = some (rc, after) → 0 < rc →
      selectRWPoll kernel selarray = some (rc', after') → 0 < rc' →
      decisive (fun readiness => (epollReady readiness selarray).length) kernel.waits =
        some readiness → decisive (pollCount selarray) kernel.waits = some readiness →
      (List.Forall₂ SameAvailable after after' ↔ ∀ so ∈ selarray, (readiness so.s).ERR →
        (so.waitForRead →
            (readiness so.s).IN ∨ (readiness so.s).PRI ∨ (readiness so.s).HUP) ∧
          (so.waitForWrite → (readiness so.s).OUT ∨ (readiness so.s).HUP)) ∧
      (after = after' ↔
        ∀ so ∈ selarray, ¬ ((readiness so.s).ERR ∨ (readiness so.s).NVAL)) := by
  refine ⟨?_, ?_, ?_, ?_⟩
  · intro rc after returned positive
    obtain ⟨readiness, decides, rfl, rfl⟩ := selectRWEpoll_positive returned positive
    exact ⟨readiness, decides, epoll_consistent_iff readiness selarray⟩
  · intro rc after returned positive
    obtain ⟨readiness, decides, rfl, rfl⟩ := selectRWPoll_positive returned positive
    exact ⟨readiness, decides, poll_consistent_iff readiness selarray⟩
  · intro rc after returned positive
    obtain ⟨readiness, decides, rfl, rfl⟩ := selectRWSelect_positive returned positive
    exact ⟨readiness, decides, select_consistent_iff readiness selarray⟩
  · intro rc after rc' after' readiness returned positive returned' positive' decides decides'
    obtain ⟨seen, sees, -, rfl⟩ := selectRWEpoll_positive returned positive
    obtain ⟨seen', sees', -, rfl⟩ := selectRWPoll_positive returned' positive'
    rw [decides] at sees
    rw [decides'] at sees'
    cases sees
    cases sees'
    constructor
    · rw [List.forall₂_map_left_iff, List.forall₂_map_right_iff, List.forall₂_same]
      exact forall₂_congr fun so _ => sameAvailable_iff readiness so
    · rw [List.map_inj_left]
      exact forall₂_congr fun so _ => epolled_eq_polled_iff readiness so

/-- Every descriptor has this readiness at the first wait. -/
def Kernel.ofEvents (events : Events) : Kernel := ⟨none, fun _ => none, [.returned fun _ => events]⟩

/-- The epoll version counts a hung-up entry that does not wait, the poll version counts an entry
with an error and sets no flag, the select version sets a flag that the second entry does not ask
for, and the epoll version sets a flag for an error that the poll version does not set. -/
theorem back_ends_disagree :
    let idle : SelectObject := ⟨3, false, false, false, false, false⟩
    let reader : SelectObject := ⟨3, true, false, false, false, false⟩
    let writer : SelectObject := ⟨3, false, true, false, false, false⟩
    let hungUp : Events := ⟨false, false, false, false, true, false⟩
    let error : Events := ⟨false, false, false, true, false, false⟩
    let input : Events := ⟨true, false, false, false, false, false⟩
    (selectRWEpoll (.ofEvents hungUp) [idle] = some (1, [idle]) ∧ ¬ Consistent 1 [idle]) ∧
      (selectRWPoll (.ofEvents error) [reader] = some (1, [{ reader with wasError := true }]) ∧
        ¬ Consistent 1 [{ reader with wasError := true }]) ∧
      (selectRWSelect (.ofEvents input) [reader, writer] =
          some (2, [{ reader with readAvailable := true }, { writer with readAvailable := true }]) ∧
        ¬ Consistent 2
          [{ reader with readAvailable := true }, { writer with readAvailable := true }]) ∧
      selectRWEpoll (.ofEvents error) [reader] =
        some (1, [{ reader with readAvailable := true }]) := by
  unfold Consistent
  decide

end Blocxx.Select
