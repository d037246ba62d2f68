import Nawa.Nawarun.Reload

/-!
# Dropping privileges

`preparePrivilegeDowngrade` and `doPrivilegeDowngrade`, on the credentials of a process. The calls
that change credentials are those of POSIX: a process whose effective user is root may set any
ids, any other only those that it has already.
-/

namespace Nawa.Nawarun

/-! ## Credentials -/

/-- The real, effective and saved user or group. -/
structure Ids where
  real : Nat
  effective : Nat
  saved : Nat
  deriving DecidableEq

namespace Ids

def all (id : Nat) : Ids := ⟨id, id, id⟩

def Has (ids : Ids) (id : Nat) : Prop := id = ids.real ∨ id = ids.effective ∨ id = ids.saved

instance (ids : Ids) (id : Nat) : Decidable (ids.Has id) := by
  unfold Has
  infer_instance

/-- `(uid_t) -1`, which is no id. -/
def noID : Nat := 2 ^ 32 - 1

/-- `setuid` and `setgid`. -/
def set (ids : Ids) (privileged : Bool) (id : Nat) : Option Ids :=
  if id = noID then none
  else if privileged then some (all id)
  else if id = ids.real ∨ id = ids.saved then some { ids with effective := id }
  else none

/-- `setresuid` and `setresgid`, with nothing for an id that is to stay. -/
def setres (ids : Ids) (privileged : Bool) (real effective saved : Option Nat) : Option Ids :=
  if privileged = true ∨ (∀ id ∈ real, ids.Has id) ∧ (∀ id ∈ effective, ids.Has id) ∧
      ∀ id ∈ saved, ids.Has id then
    some ⟨real.getD ids.real, effective.getD ids.effective, saved.getD ids.saved⟩
  else none

end Ids

structure Credentials where
  user : Ids
  group : Ids
  groups : List Nat
  deriving DecidableEq

inductive CredentialCall where
  | setuid (uid : Nat)
  | setgid (gid : Nat)
  | setgroups (groups : List Nat)
  | setresuid (real effective saved : Option Nat)
  | setresgid (real effective saved : Option Nat)

/-- The most supplementary groups that a process may have. -/
def NGROUPS_MAX : Nat := 65536

namespace Credentials

def privileged (c : Credentials) : Bool := c.user.effective = 0

/-- The credentials after a call, where it does not fail. -/
def call (c : Credentials) : CredentialCall → Option Credentials
  | .setuid uid => (c.user.set c.privileged uid).map fun user => { c with user := user }
  | .setgid gid => (c.group.set c.privileged gid).map fun group => { c with group := group }
  | .setgroups groups =>
    if c.privileged = true ∧ groups.length ≤ NGROUPS_MAX then some { c with groups := groups }
    else none
  | .setresuid real effective saved =>
    (c.user.setres c.privileged real effective saved).map fun user => { c with user := user }
  | .setresgid real effective saved =>
    (c.group.setres c.privileged real effective saved).map fun group => { c with group := group }

/-- The credentials after any calls; one that fails changes nothing. -/
def after (c : Credentials) (calls : List CredentialCall) : Credentials :=
  calls.foldl (fun c call => (c.call call).getD c) c

end Credentials

/-! ## The downgrade -/

/-- The databases of users and groups. `getgrouplist` is given the size of a buffer, and answers
its result, the number that it leaves behind, and what it has written. -/
structure Accounts where
  getpwnam : Bytes → Option Nat
  getgrnam : Bytes → Option Nat
  getgrouplist : Bytes → Nat → Nat → Int × Nat × List Nat

structure PrivilegeDowngradeData where
  uid : Nat
  gid : Nat
  supplementaryGroups : List Nat

/-- The groups of a user that is not root: one call for their number, one to fetch them. What the
second leaves of the buffer stays zero. -/
def supplementaryGroups (accounts : Accounts) (username : Bytes) (privGID : Nat) : List Nat :=
  let n := (accounts.getgrouplist username privGID 0).2.1
  let (result, n', written) := accounts.getgrouplist username privGID n
  if result ≠ n' then [privGID]
  else written.take n ++ List.replicate (n - written.length) 0

def downgradeNotSet : Exception :=
  ⟨1, bytes "Running as root and user or group for privilege downgrade is not set in " ++
    bytes "the configuration."⟩

def downgradeInvalid : Exception :=
  ⟨2, bytes "The user or group name for privilege downgrade given in the configuration is invalid."⟩

def preparePrivilegeDowngrade (accounts : Accounts) (initialUID : Nat) (config : Config) :
    Except Exception (Option PrivilegeDowngradeData) :=
  if initialUID = 0 then
    if !config.isSet (bytes "privileges", bytes "user") ||
        !config.isSet (bytes "privileges", bytes "group") then .error downgradeNotSet
    else
      let username := config.get (bytes "privileges") (bytes "user")
      let groupname := config.get (bytes "privileges") (bytes "group")
      match accounts.getpwnam username, accounts.getgrnam groupname with
      | some privUID, some privGID =>
        .ok (some
          { uid := privUID
            gid := privGID
            supplementaryGroups :=
              if privUID = 0 ∨ privGID = 0 then []
              else Nawarun.supplementaryGroups accounts username privGID })
      | _, _ => .error downgradeInvalid
  else .ok none

/-- `doPrivilegeDowngrade`; without an answer the program has ended. -/
def doPrivilegeDowngrade (data : PrivilegeDowngradeData) (c : Credentials) : Option Credentials :=
  let regrouped :=
    if data.uid ≠ 0 ∧ data.gid ≠ 0 then c.call (.setgroups data.supplementaryGroups) else some c
  (regrouped.bind fun c => c.call (.setgid data.gid)).bind fun c => c.call (.setuid data.uid)

/-- What `run` does about privileges before it calls the application. -/
def downgrade (accounts : Accounts) (config : Config) (c : Credentials) : Option Credentials :=
  match preparePrivilegeDowngrade accounts c.user.real config with
  | .error _ => none
  | .ok none => some c
  | .ok (some data) => doPrivilegeDowngrade data c

/-- `run` in a process with credentials. -/
def runAs {F Fn : Type} (c : Credentials) (accounts : Accounts) (parameters : Parameters)
    (surroundings : StartSurroundings F Fn) : Option (Runner F Fn) :=
  run parameters
    { surroundings with
      downgradePrivileges := fun config => (downgrade accounts config c).isSome }

end Nawa.Nawarun
