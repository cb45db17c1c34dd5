import Blocxx.Library.Credentials
import Blocxx.Library.Operation

/-!
This file embeds the functions of `Secure` that drop the privileges of root, and proves when dropped
privileges stay dropped.
-/

namespace Blocxx.Secure

open Library

inductive EChildGroupAction where
  | E_NO_EXTENDED_GROUPS
  | E_SOURCE_EXTENDED_GROUPS
  deriving DecidableEq

/-- The calls of the functions that can fail. Each of them is made once. -/
inductive Site where
  | getpwnam
  | chdir
  | getpwuid
  /-- The call of `initgroups` or `setgroups`. -/
  | groups
  | setresgid
  | setresuid
  | restoreEffectiveGid
  | restoreRealGid
  | restoreEffectiveUid
  | restoreRealUid
  deriving DecidableEq

/-- The user and group files, and the calls that fail. -/
structure Environment where
  fails : Site → Bool
  /-- The name of a user. -/
  getpwuid : Id → Option String
  /-- The user and group ids of a name. -/
  getpwnam : String → Option (Id × Id)
  members : String → List Id

namespace Environment

variable (environment : Environment)

/-- A call that fails changes nothing. -/
def call (site : Site) (credentials : Credentials) (call : CredentialCall) : Option Credentials :=
  if environment.fails site then none else credentials.call environment.members call

/-- The part of `dropPrivilegesPermanently` that drops the groups. It ignores a failure. -/
def dropGroups (credentials : Credentials) (newuid newgid : Id)
    (extendedGroupAction : EChildGroupAction) : Credentials :=
  let newuser :=
    if extendedGroupAction = .E_SOURCE_EXTENDED_GROUPS ∧ environment.fails .getpwuid = false then
      environment.getpwuid newuid
    else none
  let after :=
    match newuser with
    | some pw_name => environment.call .groups credentials (.initgroups pw_name newgid)
    | none => environment.call .groups credentials (.setgroups [newgid])
  after.getD credentials

/-- One of the two calls that try to restore an id succeeds. -/
def restores (credentials : Credentials) (first second : Site × CredentialCall) : Bool :=
  (environment.call first.1 credentials first.2).isSome ||
    (environment.call second.1 credentials second.2).isSome

/-- The message of an exception is its error. -/
def changeGids (credentials : Credentials) (newgid oldegid : Id) : Except String Credentials :=
  if newgid ≠ oldegid then
    match environment.call .setresgid credentials
      (.setresgid (some newgid) (some newgid) (some newgid)) with
    | some after => .ok after
    | none => .error "drop_privileges [1]"
  else .ok credentials

def changeUids (credentials : Credentials) (newuid oldeuid : Id) : Except String Credentials :=
  if newuid ≠ oldeuid then
    match environment.call .setresuid credentials
      (.setresuid (some newuid) (some newuid) (some newuid)) with
    | some after => .ok after
    | none => .error "drop_privileges [2]"
  else .ok credentials

/-- The end of `dropPrivilegesPermanently`, which verifies the changes. -/
def verify (credentials : Credentials) (newuid newgid oldeuid olduid oldegid oldgid : Id) :
    Except String Credentials :=
  if credentials.rgid ≠ newgid ∨ credentials.egid ≠ newgid then .error "drop_privileges [3]"
  else if newuid ≠ 0 ∧ newgid ≠ oldegid ∧ environment.restores credentials
      (.restoreEffectiveGid, .setresgid (some oldegid) (some oldegid) (some oldegid))
      (.restoreRealGid, .setgid (some oldgid)) then .error "drop_privileges [4]"
  else if credentials.ruid ≠ newuid ∨ credentials.euid ≠ newuid then .error "drop_privileges [5]"
  else if newuid ≠ 0 ∧ newuid ≠ oldeuid ∧ environment.restores credentials
      (.restoreEffectiveUid, .setresuid (some oldeuid) (some oldeuid) (some oldeuid))
      (.restoreRealUid, .setuid (some olduid)) then .error "drop_privileges [6]"
  else .ok credentials

def dropPrivilegesPermanently (credentials : Credentials) (newuid newgid : Option Id)
    (extendedGroupAction : EChildGroupAction) : Except String Credentials := do
  let newgid := newgid.getD credentials.rgid
  let oldegid := credentials.egid
  let oldgid := credentials.rgid
  let newuid := newuid.getD credentials.ruid
  let oldeuid := credentials.euid
  let olduid := credentials.ruid
  let dropped :=
    if oldeuid = 0 then environment.dropGroups credentials newuid newgid extendedGroupAction
    else credentials
  let moved ← environment.changeGids dropped newgid oldegid
  let changed ← environment.changeUids moved newuid oldeuid
  environment.verify changed newuid newgid oldeuid olduid oldegid oldgid

def runAs (credentials : Credentials) (username : Option String)
    (extendedGroupAction : EChildGroupAction) : Except String Credentials :=
  match username with
  | none => .error "null user name"
  | some username =>
      if username = "" then .error "empty user name"
      else if credentials.ruid ≠ 0 ∨ credentials.euid ≠ 0 then
        .error "non-root user calling runAs"
      else if environment.fails .getpwnam then .error ("getpwnam(\"" ++ username ++ "\") failed")
      else
        match environment.getpwnam username with
        | none => .error ("user name (" ++ username ++ ") not found")
        | some (pw_uid, pw_gid) =>
            if environment.fails .chdir then .error "chdir failed"
            else environment.dropPrivilegesPermanently credentials (some pw_uid) (some pw_gid)
              extendedGroupAction

end Environment

section Property

/-- The groups of the user in the group file. -/
def Environment.own (environment : Environment) (uid : Id) : List Id :=
  (environment.getpwuid uid).elim [] environment.members

/-- All ids are the new ones, and no group is left but the new one and those of the new user. -/
structure Dropped (environment : Environment) (newuid newgid : Id) (credentials : Credentials) :
    Prop where
  settled : credentials.Settled newuid newgid
  groups : ∀ group ∈ credentials.groups, group = newgid ∨ group ∈ environment.own newuid

/-- This holds after every sequence of calls that change credentials. -/
def StaysDropped (environment : Environment) (newuid newgid : Id) (credentials : Credentials) :
    Prop :=
  ∀ later, (kernel environment.members).Reaches credentials later →
    Dropped environment newuid newgid later

/-- The groups are dropped, or none has to be, and the saved group id is the new one or changes. -/
structure Safe (environment : Environment) (newuid newgid : Id) (credentials : Credentials) :
    Prop where
  groups : environment.fails .groups = false ∨
    ∀ group ∈ credentials.groups, group = newgid ∨ group ∈ environment.own newuid
  saved : newgid = credentials.egid → credentials.sgid = newgid

end Property

section Calls

variable {environment : Environment} {credentials next final : Credentials}

/-- Only the groups change, to allowed ones when the call succeeds. -/
theorem dropGroups_eq (environment : Environment) (root : credentials.euid = 0) (newuid newgid : Id)
    (extendedGroupAction : EChildGroupAction) :
    ∃ groups, environment.dropGroups credentials newuid newgid extendedGroupAction =
        { credentials with groups := groups } ∧
      (environment.fails .groups = true → groups = credentials.groups) ∧
      (environment.fails .groups = false →
        ∀ group ∈ groups, group = newgid ∨ group ∈ environment.own newuid) := by
  cases fails : environment.fails .groups with
  | true =>
      refine ⟨credentials.groups, ?_, fun _ => rfl, nofun⟩
      simp only [Environment.dropGroups, Environment.call, fails, if_true]
      split
      · rfl
      · rfl
  | false =>
      simp only [Environment.dropGroups, Environment.call, fails, Bool.false_eq_true, if_false]
      split
      · next name is =>
          refine ⟨newgid :: environment.members name, ?_, nofun, fun _ group mem => ?_⟩
          · rw [Credentials.call, if_pos root]
            rfl
          · split at is
            · rw [Environment.own, is]
              exact List.mem_cons.mp mem
            · cases is
      · refine ⟨[newgid], ?_, nofun, fun _ group mem => ?_⟩
        · rw [Credentials.call, if_pos root]
          rfl
        · exact .inl (List.mem_singleton.mp mem)

theorem changeGids_eq {newgid oldegid : Id}
    (changed : environment.changeGids credentials newgid oldegid = .ok next)
    (root : credentials.euid = 0) :
    next = if newgid = oldegid then credentials
      else { credentials with rgid := newgid, egid := newgid, sgid := newgid } := by
  rw [Environment.changeGids] at changed
  split at changed
  · next different =>
      rw [if_neg different]
      split at changed
      · next after called =>
          cases changed
          rw [Environment.call] at called
          split at called
          · cases called
          · rw [Credentials.call_setresgid root] at called
            exact (Option.some.inj called).symm
      · cases changed
  · next same =>
      rw [not_not] at same
      rw [if_pos same]
      exact (Except.ok.inj changed).symm

theorem changeUids_eq {newuid oldeuid : Id}
    (changed : environment.changeUids credentials newuid oldeuid = .ok next)
    (root : credentials.euid = 0) (different : newuid ≠ oldeuid) :
    next = { credentials with ruid := newuid, euid := newuid, suid := newuid } := by
  rw [Environment.changeUids, if_pos different] at changed
  split at changed
  · next after called =>
      cases changed
      rw [Environment.call] at called
      split at called
      · cases called
      · rw [Credentials.call_setresuid root] at called
        exact (Option.some.inj called).symm
  · cases changed

theorem verify_ok {newuid newgid oldeuid olduid oldegid oldgid : Id}
    (verified : environment.verify credentials newuid newgid oldeuid olduid oldegid oldgid =
      .ok final) :
    final = credentials ∧ credentials.rgid = newgid ∧ credentials.egid = newgid := by
  rw [Environment.verify] at verified
  split at verified
  · cases verified
  · next gids =>
      rw [not_or, not_not, not_not] at gids
      split at verified
      · cases verified
      · split at verified
        · cases verified
        · split at verified
          · cases verified
          · exact ⟨(Except.ok.inj verified).symm, gids⟩

/-- Dropped ids without privileges stay dropped. -/
theorem staysDropped_iff_dropped {newuid newgid : Id} (nonzero : newuid ≠ 0) :
    StaysDropped environment newuid newgid credentials ↔
      Dropped environment newuid newgid credentials := by
  constructor
  · exact fun stays => stays credentials .refl
  · intro dropped later reaches
    rw [dropped.settled.reaches nonzero reaches]
    exact dropped

/-- The credentials of a normal return. -/
theorem returned_eq (root : credentials.euid = 0) {newuid : Id} (nonzero : newuid ≠ 0)
    {newgid : Option Id} {extendedGroupAction : EChildGroupAction}
    (returned : environment.dropPrivilegesPermanently credentials (some newuid) newgid
      extendedGroupAction = .ok final) :
    ∃ sgid, final = ⟨newuid, newuid, newuid, newgid.getD credentials.rgid,
        newgid.getD credentials.rgid, sgid, (environment.dropGroups credentials newuid
          (newgid.getD credentials.rgid) extendedGroupAction).groups⟩ ∧
      (newgid.getD credentials.rgid = credentials.egid → sgid = credentials.sgid) ∧
      (newgid.getD credentials.rgid ≠ credentials.egid → sgid = newgid.getD credentials.rgid) := by
  obtain ⟨groups, only, -⟩ := dropGroups_eq environment root newuid
    (newgid.getD credentials.rgid) extendedGroupAction
  rw [Environment.dropPrivilegesPermanently] at returned
  simp only [if_pos root, Option.getD_some, only] at returned
  obtain ⟨moved, gids, rest⟩ := bind_eq_ok.mp returned
  obtain ⟨changed, uids, verified⟩ := bind_eq_ok.mp rest
  obtain ⟨rfl, rgid, egid⟩ := verify_ok verified
  have movedEq := changeGids_eq gids root
  have different : newuid ≠ credentials.euid := by
    rw [root]
    exact nonzero
  rw [only]
  by_cases same : newgid.getD credentials.rgid = credentials.egid
  · rw [if_pos same] at movedEq
    subst movedEq
    have changedEq := changeUids_eq uids root different
    subst changedEq
    refine ⟨credentials.sgid, ?_, fun _ => rfl, fun not => absurd same not⟩
    exact Credentials.ext rfl rfl rfl rgid egid rfl rfl
  · rw [if_neg same] at movedEq
    subst movedEq
    have changedEq := changeUids_eq uids root different
    subst changedEq
    exact ⟨newgid.getD credentials.rgid, rfl, fun equal => absurd equal same, fun _ => rfl⟩

/-- After a normal return the process stays dropped exactly when the groups and the saved group id
were safe. -/
theorem returned_iff (root : credentials.euid = 0) {newuid : Id} (nonzero : newuid ≠ 0)
    {newgid : Option Id} {extendedGroupAction : EChildGroupAction}
    (returned : environment.dropPrivilegesPermanently credentials (some newuid) newgid
      extendedGroupAction = .ok final) :
    StaysDropped environment newuid (newgid.getD credentials.rgid) final ↔
      Safe environment newuid (newgid.getD credentials.rgid) credentials := by
  obtain ⟨groups, only, kept, allowed⟩ := dropGroups_eq environment root newuid
    (newgid.getD credentials.rgid) extendedGroupAction
  obtain ⟨sgid, rfl, same, different⟩ := returned_eq root nonzero returned
  rw [staysDropped_iff_dropped nonzero, only]
  constructor
  · intro dropped
    constructor
    · cases fails : environment.fails .groups with
      | false => exact .inl rfl
      | true =>
          right
          rw [← kept fails]
          exact dropped.groups
    · intro equal
      rw [← same equal]
      exact dropped.settled.sgid
  · intro safe
    have saved : sgid = newgid.getD credentials.rgid := by
      by_cases equal : newgid.getD credentials.rgid = credentials.egid
      · rw [same equal, safe.saved equal]
      · exact different equal
    refine ⟨⟨rfl, rfl, rfl, rfl, rfl, saved⟩, ?_⟩
    cases fails : environment.fails .groups with
    | false => exact allowed fails
    | true =>
        show ∀ group ∈ groups, _
        rw [kept fails]
        rcases safe.groups with succeeds | harmless
        · rw [fails] at succeeds
          cases succeeds
        · exact harmless

end Calls

section Main

/-- What `runAs` leaves of the privileges of root is decided in the same way. -/
theorem runAs_iff {environment : Environment} {credentials final : Credentials}
    {username : Option String} {extendedGroupAction : EChildGroupAction}
    (returned : environment.runAs credentials username extendedGroupAction = .ok final) :
    ∃ name uid gid, username = some name ∧ environment.getpwnam name = some (uid, gid) ∧
      (uid ≠ 0 → (StaysDropped environment uid gid final ↔
        Safe environment uid gid credentials)) := by
  unfold Environment.runAs at returned
  split at returned
  · cases returned
  · next name =>
      split at returned
      · cases returned
      · split at returned
        · cases returned
        · next root =>
            rw [not_or, not_not, not_not] at root
            split at returned
            · cases returned
            · split at returned
              · cases returned
              · next uid gid found =>
                  split at returned
                  · cases returned
                  · refine ⟨name, uid, gid, rfl, found, fun nonzero => ?_⟩
                    exact returned_iff root.2 nonzero returned

/-- When `dropPrivilegesPermanently` returns, the privileges stay dropped exactly when its call for
the groups succeeded or was not needed, and the saved group id was the new one or had to change. -/
theorem dropPrivilegesPermanently_iff (environment : Environment) (credentials : Credentials)
    (newuid : Id) (newgid : Option Id) (extendedGroupAction : EChildGroupAction)
    (final : Credentials) (effective : credentials.euid = 0) (nonzero : newuid ≠ 0)
    (returned : environment.dropPrivilegesPermanently credentials (some newuid) newgid
      extendedGroupAction = .ok final) :
    StaysDropped environment newuid (newgid.getD credentials.rgid) final ↔
      Safe environment newuid (newgid.getD credentials.rgid) credentials :=
  returned_iff effective nonzero returned

/-- Two users are in the files, and these calls fail. -/
def twoUsers (fails : Site → Bool) : Environment where
  fails := fails
  getpwuid uid := if uid = 0 then some "root" else if uid = 100 then some "user" else none
  getpwnam name :=
    if name = "root" then some (0, 0) else if name = "user" then some (100, 100) else none
  members name := if name = "user" then [7] else []

/-- A process of root whose groups are not those of the user. -/
def root : Credentials := ⟨0, 0, 0, 0, 0, 0, [0, 1]⟩

theorem dropPrivilegesPermanently_iff_twoUsers :
    StaysDropped (twoUsers fun _ => false) 100 100 ⟨100, 100, 100, 100, 100, 100, [100, 7]⟩ ↔
      Safe (twoUsers fun _ => false) 100 100 root :=
  dropPrivilegesPermanently_iff (twoUsers fun _ => false) root 100 (some 100)
    .E_SOURCE_EXTENDED_GROUPS _ rfl (by decide) rfl

theorem runAs_iff_twoUsers : ∃ name uid gid, some "user" = some name ∧
    (twoUsers fun _ => false).getpwnam name = some (uid, gid) ∧ (uid ≠ 0 →
      (StaysDropped (twoUsers fun _ => false) uid gid ⟨100, 100, 100, 100, 100, 100, [100, 7]⟩ ↔
        Safe (twoUsers fun _ => false) uid gid root)) :=
  @runAs_iff _ _ _ _ .E_SOURCE_EXTENDED_GROUPS rfl

/-- The call for the groups fails, and root's groups are kept. -/
theorem dropPrivilegesPermanently_not_staysDropped :
    ¬ ∀ (environment : Environment) (credentials : Credentials) (newuid : Id) (newgid : Option Id)
      (extendedGroupAction : EChildGroupAction) (final : Credentials),
      credentials.ruid = 0 → credentials.euid = 0 → newuid ≠ 0 →
      environment.dropPrivilegesPermanently credentials (some newuid) newgid
        extendedGroupAction = .ok final →
      StaysDropped environment newuid (newgid.getD credentials.rgid) final := by
  intro all
  have stays := all (twoUsers (· = .groups)) root 100 (some 100) .E_SOURCE_EXTENDED_GROUPS
    ⟨100, 100, 100, 100, 100, 100, [0, 1]⟩ rfl rfl (by decide) rfl
  have groups := (stays _ .refl).groups 1 (by decide)
  exact absurd groups (by decide)

end Main

end Blocxx.Secure
