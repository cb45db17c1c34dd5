import Blocxx.Library.TransitionSystem

/-!
This file gives the credentials of a process and the rules of the calls that change them.
-/

namespace Blocxx.Library

/-- A user or group id. The argument -1 of a call is no id. -/
abbrev Id := Nat

@[ext]
structure Credentials where
  ruid : Id
  euid : Id
  suid : Id
  rgid : Id
  egid : Id
  sgid : Id
  groups : List Id
  deriving DecidableEq

inductive CredentialCall where
  | setresuid (ruid euid suid : Option Id)
  | setresgid (rgid egid sgid : Option Id)
  | setuid (uid : Option Id)
  | setgid (gid : Option Id)
  | setgroups (groups : List Id)
  | initgroups (user : String) (group : Id)

namespace Credentials

variable (credentials : Credentials)

/-- A process without privileges may only use the ids that it has. -/
def mayUseUid (uid : Option Id) : Bool :=
  uid.all fun uid => credentials.euid = 0 || uid = credentials.ruid || uid = credentials.euid ||
    uid = credentials.suid

def mayUseGid (gid : Option Id) : Bool :=
  gid.all fun gid => credentials.euid = 0 || gid = credentials.rgid || gid = credentials.egid ||
    gid = credentials.sgid

/-- The credentials after a call that succeeds. The groups of each user come from the group file. -/
def call (members : String → List Id) : CredentialCall → Option Credentials
  | .setresuid ruid euid suid =>
      if credentials.mayUseUid ruid && credentials.mayUseUid euid && credentials.mayUseUid suid then
        some { credentials with
          ruid := ruid.getD credentials.ruid
          euid := euid.getD credentials.euid
          suid := suid.getD credentials.suid }
      else none
  | .setresgid rgid egid sgid =>
      if credentials.mayUseGid rgid && credentials.mayUseGid egid && credentials.mayUseGid sgid then
        some { credentials with
          rgid := rgid.getD credentials.rgid
          egid := egid.getD credentials.egid
          sgid := sgid.getD credentials.sgid }
      else none
  | .setuid none => none
  | .setuid (some uid) =>
      if credentials.euid = 0 then some { credentials with ruid := uid, euid := uid, suid := uid }
      else if uid = credentials.ruid ∨ uid = credentials.suid then
        some { credentials with euid := uid }
      else none
  | .setgid none => none
  | .setgid (some gid) =>
      if credentials.euid = 0 then some { credentials with rgid := gid, egid := gid, sgid := gid }
      else if gid = credentials.rgid ∨ gid = credentials.sgid then
        some { credentials with egid := gid }
      else none
  | .setgroups groups =>
      if credentials.euid = 0 then some { credentials with groups := groups } else none
  | .initgroups user group =>
      if credentials.euid = 0 then some { credentials with groups := group :: members user }
      else none

variable {credentials} in
/-- A process with privileges may set all ids. -/
theorem call_setresuid (root : credentials.euid = 0) (members : String → List Id) (uid : Id) :
    credentials.call members (.setresuid (some uid) (some uid) (some uid)) =
      some { credentials with ruid := uid, euid := uid, suid := uid } := by
  have may : credentials.mayUseUid (some uid) = true := by
    simp only [mayUseUid, root, Option.all_some, decide_true, Bool.true_or]
  rw [call, may]
  rfl

variable {credentials} in
theorem call_setresgid (root : credentials.euid = 0) (members : String → List Id) (gid : Id) :
    credentials.call members (.setresgid (some gid) (some gid) (some gid)) =
      some { credentials with rgid := gid, egid := gid, sgid := gid } := by
  have may : credentials.mayUseGid (some gid) = true := by
    simp only [mayUseGid, root, Option.all_some, decide_true, Bool.true_or]
  rw [call, may]
  rfl

/-- The real, the effective, and the saved ids are the same. -/
structure Settled (uid gid : Id) : Prop where
  ruid : credentials.ruid = uid
  euid : credentials.euid = uid
  suid : credentials.suid = uid
  rgid : credentials.rgid = gid
  egid : credentials.egid = gid
  sgid : credentials.sgid = gid

variable {credentials} {uid gid : Id}

theorem Settled.mayUseUid (settled : Settled credentials uid gid) (unprivileged : uid ≠ 0)
    {argument : Option Id} (may : credentials.mayUseUid argument = true) :
    argument.getD uid = uid := by
  cases argument with
  | none => rfl
  | some value =>
      simp only [Credentials.mayUseUid, settled.ruid, settled.euid, settled.suid, Option.all_some,
        Bool.or_eq_true, decide_eq_true_eq, unprivileged, false_or, or_self] at may
      exact may

theorem Settled.mayUseGid (settled : Settled credentials uid gid) (unprivileged : uid ≠ 0)
    {argument : Option Id} (may : credentials.mayUseGid argument = true) :
    argument.getD gid = gid := by
  cases argument with
  | none => rfl
  | some value =>
      simp only [Credentials.mayUseGid, settled.euid, settled.rgid, settled.egid, settled.sgid,
        Option.all_some, Bool.or_eq_true, decide_eq_true_eq, unprivileged, false_or, or_self] at may
      exact may

/-- Settled ids without privileges cannot be changed. -/
theorem Settled.call_eq (settled : Settled credentials uid gid) (unprivileged : uid ≠ 0)
    {members : String → List Id} {call : CredentialCall} {next : Credentials}
    (taken : credentials.call members call = some next) : next = credentials := by
  have user : credentials.euid ≠ 0 := by
    rw [settled.euid]
    exact unprivileged
  cases call with
  | setresuid ruid euid suid =>
      rw [Credentials.call] at taken
      split at taken
      · next may =>
          rw [Bool.and_eq_true, Bool.and_eq_true] at may
          obtain ⟨⟨real, effective⟩, saved⟩ := may
          cases taken
          refine Credentials.ext ?_ ?_ ?_ rfl rfl rfl rfl
          · show ruid.getD credentials.ruid = credentials.ruid
            rw [settled.ruid, settled.mayUseUid unprivileged real]
          · show euid.getD credentials.euid = credentials.euid
            rw [settled.euid, settled.mayUseUid unprivileged effective]
          · show suid.getD credentials.suid = credentials.suid
            rw [settled.suid, settled.mayUseUid unprivileged saved]
      · cases taken
  | setresgid rgid egid sgid =>
      rw [Credentials.call] at taken
      split at taken
      · next may =>
          rw [Bool.and_eq_true, Bool.and_eq_true] at may
          obtain ⟨⟨real, effective⟩, saved⟩ := may
          cases taken
          refine Credentials.ext rfl rfl rfl ?_ ?_ ?_ rfl
          · show rgid.getD credentials.rgid = credentials.rgid
            rw [settled.rgid, settled.mayUseGid unprivileged real]
          · show egid.getD credentials.egid = credentials.egid
            rw [settled.egid, settled.mayUseGid unprivileged effective]
          · show sgid.getD credentials.sgid = credentials.sgid
            rw [settled.sgid, settled.mayUseGid unprivileged saved]
      · cases taken
  | setuid uid =>
      cases uid with
      | none => cases taken
      | some uid =>
          rw [Credentials.call, if_neg user] at taken
          split at taken
          · next same =>
              rw [settled.ruid, settled.suid, or_self] at same
              cases taken
              exact Credentials.ext rfl (same.trans settled.euid.symm) rfl rfl rfl rfl rfl
          · cases taken
  | setgid gid =>
      cases gid with
      | none => cases taken
      | some gid =>
          rw [Credentials.call, if_neg user] at taken
          split at taken
          · next same =>
              rw [settled.rgid, settled.sgid, or_self] at same
              cases taken
              exact Credentials.ext rfl rfl rfl rfl (same.trans settled.egid.symm) rfl rfl
          · cases taken
  | setgroups groups =>
      rw [Credentials.call, if_neg user] at taken
      cases taken
  | initgroups name group =>
      rw [Credentials.call, if_neg user] at taken
      cases taken

end Credentials

/-- The credentials of a process with its calls that succeed. -/
def kernel (members : String → List Id) : TransitionSystem Credentials CredentialCall :=
  .computed (fun _ => True) (Credentials.call · members)

/-- Settled ids without privileges stay. -/
theorem Credentials.Settled.reaches {credentials later : Credentials} {uid gid : Id}
    (settled : Settled credentials uid gid) (unprivileged : uid ≠ 0) {members : String → List Id}
    (reaches : (kernel members).Reaches credentials later) : later = credentials := by
  induction reaches with
  | refl => rfl
  | tail before taken ih =>
      subst ih
      obtain ⟨call, step⟩ := taken
      exact settled.call_eq unprivileged step

end Blocxx.Library
