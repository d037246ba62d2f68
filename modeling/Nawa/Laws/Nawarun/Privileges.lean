import Nawa.Nawarun.Privileges

/-!
# Root is given up for good

A process that is started as root serves requests only with the user and the group of the
configuration. Where that user is not root, no calls of the application change its credentials
again (`requests_without_root`). `downgrade_root` says exactly which credentials these are: with a
user or a group that is root, the supplementary groups of the process stay those it was started
with.
-/

namespace Nawa.Nawarun

/-! ## A process that is not root -/

/-- An id that is there three times leaves nothing to change. -/
theorem Ids.set_all {id id' : Nat} {ids : Ids} (h : (all id).set false id' = some ids) :
    ids = all id := by
  unfold set at h
  split at h
  · cases h
  · split at h
    · next hprivileged => exact absurd hprivileged Bool.false_ne_true
    · split at h
      · next hsame =>
        cases h
        rw [or_self_iff.mp hsame]
        rfl
      · cases h

theorem Ids.has_all {id id' : Nat} : (all id).Has id' ↔ id' = id := by
  unfold Has all
  rw [or_self_iff, or_self_iff]

theorem Ids.getD_of_has {id : Nat} {given : Option Nat} (h : ∀ id' ∈ given, (all id).Has id') :
    given.getD id = id := by
  cases given with
  | none => rfl
  | some id' => exact has_all.mp (h id' rfl)

theorem Ids.setres_all {id : Nat} {real effective saved : Option Nat} {ids : Ids}
    (h : (all id).setres false real effective saved = some ids) : ids = all id := by
  unfold setres at h
  split at h
  · next hallowed =>
    obtain ⟨hreal, heffective, hsaved⟩ := hallowed.resolve_left Bool.false_ne_true
    cases h
    have hall : ∀ {given : Option Nat}, (∀ id' ∈ given, (all id).Has id') → given.getD id = id :=
      getD_of_has
    show (⟨real.getD id, effective.getD id, saved.getD id⟩ : Ids) = ⟨id, id, id⟩
    rw [hall hreal, hall heffective, hall hsaved]
  · cases h

namespace Credentials

/-- Credentials of one user and one group. -/
structure Dropped (c : Credentials) (uid gid : Nat) : Prop where
  user : c.user = .all uid
  group : c.group = .all gid
  notRoot : uid ≠ 0

variable {c c' : Credentials} {uid gid : Nat}

theorem Dropped.privileged (h : c.Dropped uid gid) : c.privileged = false := by
  rw [Credentials.privileged, h.user]
  exact decide_eq_false h.notRoot

/-- A call of a process that is not root leaves its credentials alone, if it does not fail. -/
theorem Dropped.call (h : c.Dropped uid gid) {call : CredentialCall}
    (hcall : c.call call = some c') : c' = c := by
  have hprivileged := h.privileged
  cases call with
  | setuid id =>
    rw [Credentials.call, hprivileged, h.user, Option.map_eq_some_iff] at hcall
    obtain ⟨user, huser, rfl⟩ := hcall
    rw [Ids.set_all huser, ← h.user]
  | setgid id =>
    rw [Credentials.call, hprivileged, h.group, Option.map_eq_some_iff] at hcall
    obtain ⟨group, hgroup, rfl⟩ := hcall
    rw [Ids.set_all hgroup, ← h.group]
  | setgroups groups =>
    rw [Credentials.call, hprivileged, if_neg fun hboth => Bool.false_ne_true hboth.1] at hcall
    cases hcall
  | setresuid real effective saved =>
    rw [Credentials.call, hprivileged, h.user, Option.map_eq_some_iff] at hcall
    obtain ⟨user, huser, rfl⟩ := hcall
    rw [Ids.setres_all huser, ← h.user]
  | setresgid real effective saved =>
    rw [Credentials.call, hprivileged, h.group, Option.map_eq_some_iff] at hcall
    obtain ⟨group, hgroup, rfl⟩ := hcall
    rw [Ids.setres_all hgroup, ← h.group]

theorem Dropped.after (h : c.Dropped uid gid) (calls : List CredentialCall) :
    c.after calls = c := by
  induction calls with
  | nil => rfl
  | cons call calls ih =>
    have hstep : (c.call call).getD c = c := by
      cases hcall : c.call call with
      | none => rfl
      | some c' => exact h.call hcall
    rw [Credentials.after, List.foldl_cons, hstep]
    exact ih

end Credentials

/-! ## What the downgrade leaves -/

/-- The supplementary groups after a downgrade. -/
def groupsAfter (accounts : Accounts) (config : Config) (c : Credentials) (uid gid : Nat) :
    List Nat :=
  if uid ≠ 0 ∧ gid ≠ 0 then
    supplementaryGroups accounts (config.get (bytes "privileges") (bytes "user")) gid
  else c.groups

/-- Both calls of `getgrouplist` go by the same groups: the first one says how many they are, the
second one lists them. -/
def Lists (accounts : Accounts) (username : Bytes) (gid : Nat) (groups : List Nat) : Prop :=
  (accounts.getgrouplist username gid 0).2.1 = groups.length ∧
    accounts.getgrouplist username gid groups.length =
      ((groups.length : Int), groups.length, groups)

theorem supplementaryGroups_of_lists {accounts : Accounts} {username : Bytes} {gid : Nat}
    {groups : List Nat} (h : Lists accounts username gid groups) :
    supplementaryGroups accounts username gid = groups := by
  obtain ⟨hnumber, hgroups⟩ := h
  simp only [supplementaryGroups, hnumber, hgroups]
  rw [if_neg (not_not_intro rfl), List.take_length, Nat.sub_self, List.replicate_zero,
    List.append_nil]

/-- The user and the group of the configuration, as the databases have them. -/
structure Configured (accounts : Accounts) (config : Config) (uid gid : Nat) : Prop where
  userSet : config.isSet (bytes "privileges", bytes "user") = true
  groupSet : config.isSet (bytes "privileges", bytes "group") = true
  user : accounts.getpwnam (config.get (bytes "privileges") (bytes "user")) = some uid
  group : accounts.getgrnam (config.get (bytes "privileges") (bytes "group")) = some gid

variable {accounts : Accounts} {config : Config} {c p : Credentials}

theorem Ids.set_privileged (ids : Ids) (id : Nat) :
    ids.set true id = if id = noID then none else some (all id) := by
  unfold set
  split
  · rfl
  · rfl

theorem Credentials.privileged_of_root (h : c.user.effective = 0) : c.privileged = true :=
  decide_eq_true h

/-- The group first, then the user: with the user root is gone. -/
theorem setIds_root (h : c.user.effective = 0) {uid gid : Nat} :
    ((some c).bind fun c => c.call (.setgid gid)).bind (fun c => c.call (.setuid uid)) = some p ↔
      gid ≠ Ids.noID ∧ uid ≠ Ids.noID ∧ p = ⟨.all uid, .all gid, c.groups⟩ := by
  have hprivileged : ∀ group, ({ c with group := group } : Credentials).privileged = true :=
    fun _ => Credentials.privileged_of_root h
  rw [Option.bind_some, Credentials.call, Credentials.privileged_of_root h, Ids.set_privileged]
  by_cases hgid : gid = Ids.noID
  · rw [if_pos hgid]
    exact iff_of_false nofun fun hno => hno.1 hgid
  · rw [if_neg hgid, Option.map_some, Option.bind_some, Credentials.call, hprivileged,
      Ids.set_privileged]
    by_cases huid : uid = Ids.noID
    · rw [if_pos huid]
      exact iff_of_false nofun fun hno => hno.2.1 huid
    · rw [if_neg huid, Option.map_some, Option.some_inj]
      exact ⟨fun heq => ⟨hgid, huid, heq.symm⟩, fun hall => hall.2.2.symm⟩

theorem doPrivilegeDowngrade_root (h : c.user.effective = 0) {data : PrivilegeDowngradeData} :
    doPrivilegeDowngrade data c = some p ↔
      data.uid ≠ Ids.noID ∧ data.gid ≠ Ids.noID ∧
        (data.uid ≠ 0 ∧ data.gid ≠ 0 → data.supplementaryGroups.length ≤ NGROUPS_MAX) ∧
        p = ⟨.all data.uid, .all data.gid,
          if data.uid ≠ 0 ∧ data.gid ≠ 0 then data.supplementaryGroups else c.groups⟩ := by
  unfold doPrivilegeDowngrade
  dsimp only
  by_cases hboth : data.uid ≠ 0 ∧ data.gid ≠ 0
  · rw [if_pos hboth, if_pos hboth, Credentials.call, Credentials.privileged_of_root h]
    by_cases hlen : data.supplementaryGroups.length ≤ NGROUPS_MAX
    · have hregrouped :
          ({ c with groups := data.supplementaryGroups } : Credentials).user.effective = 0 := h
      rw [if_pos ⟨rfl, hlen⟩, setIds_root hregrouped]
      constructor
      · exact fun ⟨hgid, huid, hp⟩ => ⟨huid, hgid, fun _ => hlen, hp⟩
      · exact fun ⟨huid, hgid, _, hp⟩ => ⟨hgid, huid, hp⟩
    · rw [if_neg fun hroom => hlen hroom.2]
      exact iff_of_false nofun fun hall => hlen (hall.2.2.1 hboth)
  · rw [if_neg hboth, if_neg hboth, setIds_root h]
    constructor
    · exact fun ⟨hgid, huid, hp⟩ => ⟨huid, hgid, fun hno => absurd hno hboth, hp⟩
    · exact fun ⟨huid, hgid, _, hp⟩ => ⟨hgid, huid, hp⟩

theorem preparePrivilegeDowngrade_root {prepared : Option PrivilegeDowngradeData} :
    preparePrivilegeDowngrade accounts 0 config = .ok prepared ↔
      ∃ uid gid, Configured accounts config uid gid ∧
        prepared = some
          { uid := uid
            gid := gid
            supplementaryGroups :=
              if uid = 0 ∨ gid = 0 then []
              else supplementaryGroups accounts
                (config.get (bytes "privileges") (bytes "user")) gid } := by
  unfold preparePrivilegeDowngrade
  rw [if_pos rfl]
  by_cases hset : (!config.isSet (bytes "privileges", bytes "user") ||
      !config.isSet (bytes "privileges", bytes "group")) = true
  · rw [if_pos hset]
    refine iff_of_false nofun ?_
    rintro ⟨uid, gid, hconfigured, -⟩
    rw [hconfigured.userSet, hconfigured.groupSet] at hset
    exact Bool.false_ne_true hset
  · rw [if_neg hset]
    have hboth : config.isSet (bytes "privileges", bytes "user") = true ∧
        config.isSet (bytes "privileges", bytes "group") = true := by
      simpa only [Bool.or_eq_true, Bool.not_eq_true', not_or, Bool.not_eq_false] using hset
    dsimp only
    cases huser : accounts.getpwnam (config.get (bytes "privileges") (bytes "user")) with
    | none =>
      refine iff_of_false nofun ?_
      rintro ⟨uid, gid, hconfigured, -⟩
      exact nomatch huser.symm.trans hconfigured.user
    | some uid =>
      cases hgroup : accounts.getgrnam (config.get (bytes "privileges") (bytes "group")) with
      | none =>
        refine iff_of_false nofun ?_
        rintro ⟨uid, gid, hconfigured, -⟩
        exact nomatch hgroup.symm.trans hconfigured.group
      | some gid =>
        constructor
        · intro heq
          exact ⟨uid, gid, ⟨hboth.1, hboth.2, huser, hgroup⟩, (Except.ok.inj heq).symm⟩
        · rintro ⟨uid', gid', hconfigured, rfl⟩
          obtain rfl : uid = uid' := Option.some.inj (huser.symm.trans hconfigured.user)
          obtain rfl : gid = gid' := Option.some.inj (hgroup.symm.trans hconfigured.group)
          rfl

/-- **The downgrade of a root process, exactly.** -/
theorem downgrade_root (hreal : c.user.real = 0) (heffective : c.user.effective = 0) :
    downgrade accounts config c = some p ↔
      ∃ uid gid, Configured accounts config uid gid ∧ uid ≠ Ids.noID ∧ gid ≠ Ids.noID ∧
        (uid ≠ 0 ∧ gid ≠ 0 → (groupsAfter accounts config c uid gid).length ≤ NGROUPS_MAX) ∧
        p = ⟨.all uid, .all gid, groupsAfter accounts config c uid gid⟩ := by
  have hgroups (uid gid : Nat) (hboth : uid ≠ 0 ∧ gid ≠ 0) : ¬ (uid = 0 ∨ gid = 0) :=
    not_or.mpr hboth
  constructor
  · intro h
    unfold downgrade at h
    rw [hreal] at h
    cases hprepare : preparePrivilegeDowngrade accounts 0 config with
    | error e =>
      rw [hprepare] at h
      cases h
    | ok prepared =>
      obtain ⟨uid, gid, hconfigured, rfl⟩ := preparePrivilegeDowngrade_root.mp hprepare
      rw [hprepare] at h
      obtain ⟨huid, hgid, hroom, rfl⟩ := (doPrivilegeDowngrade_root heffective).mp h
      refine ⟨uid, gid, hconfigured, huid, hgid, fun hboth => ?_, ?_⟩
      · have hlen := hroom hboth
        rw [if_neg (hgroups uid gid hboth)] at hlen
        rwa [groupsAfter, if_pos hboth]
      · by_cases hboth : uid ≠ 0 ∧ gid ≠ 0
        · simp only [groupsAfter, if_pos hboth, if_neg (hgroups uid gid hboth)]
        · simp only [groupsAfter, if_neg hboth]
  · rintro ⟨uid, gid, hconfigured, huid, hgid, hroom, rfl⟩
    have hprepare := preparePrivilegeDowngrade_root.mpr ⟨uid, gid, hconfigured, rfl⟩
    unfold downgrade
    rw [hreal, hprepare]
    refine (doPrivilegeDowngrade_root heffective).mpr ⟨huid, hgid, fun hboth => ?_, ?_⟩
    · have hlen := hroom hboth
      rw [groupsAfter, if_pos hboth] at hlen
      rwa [if_neg (hgroups uid gid hboth)]
    · by_cases hboth : uid ≠ 0 ∧ gid ≠ 0
      · simp only [groupsAfter, if_pos hboth, if_neg (hgroups uid gid hboth)]
      · simp only [groupsAfter, if_neg hboth]

/-! ## The requests -/

/-- **Requests are served without root**: a process that is started as root gets to its requests
only with the user and the group of the configuration, and when that user is not root, whatever
the application calls leaves its credentials as they are. -/
theorem requests_without_root {F Fn : Type} {parameters : Parameters}
    {surroundings : StartSurroundings F Fn} {runner : Runner F Fn} (hreal : c.user.real = 0)
    (heffective : c.user.effective = 0)
    (h : runAs c accounts parameters surroundings = some runner) :
    ∃ file uid gid p, loadConfig parameters.configFile surroundings.files = some file ∧
      Configured accounts (file.override parameters.configOverrides) uid gid ∧
      downgrade accounts (file.override parameters.configOverrides) c = some p ∧
      p = ⟨.all uid, .all gid,
        groupsAfter accounts (file.override parameters.configOverrides) c uid gid⟩ ∧
      (uid ≠ 0 → gid ≠ 0 → ∀ groups,
        Lists accounts ((file.override parameters.configOverrides).get (bytes "privileges")
          (bytes "user")) gid groups → p.groups = groups) ∧
      (uid ≠ 0 → ∀ calls, p.after calls = p) := by
  unfold runAs run at h
  split at h
  · cases h
  · next file hfile =>
    dsimp only at h
    split at h
    · next t app n _ hdowngrade _ _ =>
      obtain ⟨p, hp⟩ := Option.isSome_iff_exists.mp hdowngrade
      obtain ⟨uid, gid, hconfigured, -, -, -, hcredentials⟩ :=
        (downgrade_root hreal heffective).mp hp
      refine ⟨file, uid, gid, p, hfile, hconfigured, hp, hcredentials, ?_, fun hne calls => ?_⟩
      · intro huid hgid groups hlists
        rw [hcredentials, groupsAfter, if_pos ⟨huid, hgid⟩]
        exact supplementaryGroups_of_lists hlists
      have hdropped : p.Dropped uid gid := by
        rw [hcredentials]
        exact ⟨rfl, rfl, hne⟩
      exact hdropped.after calls
    · cases h

/-- The process of a superuser, with a supplementary group. -/
def rootCredentials : Credentials := ⟨.all 0, .all 0, [0]⟩

/-- One user with two groups. -/
def sampleAccounts : Accounts where
  getpwnam := fun _ => some 33
  getgrnam := fun _ => some 33
  getgrouplist := fun _ _ n => if n < 2 then (-1, 2, []) else (2, 2, [33, 44])

def sampleFile : Bytes :=
  bytes "[privileges]\nuser = web\ngroup = web\n[application]\npath = a.so\n"

def sampleSurroundings : StartSurroundings Unit Unit where
  files := fun _ => some sampleFile
  openApp := fun _ => .ok ⟨(), fun config _ => (0, {}, config)⟩
  hardwareConcurrency := 1
  downgradePrivileges := fun _ => false
  newRequestHandler := fun _ _ => .ok ()
  start := .ok ()

/-- The process serves requests as user 33 with the groups 33 and 44, for good. -/
theorem requests_without_root_sample :
    ∃ file, loadConfig (some []) sampleSurroundings.files = some file ∧
      downgrade sampleAccounts (file.override []) rootCredentials =
        some ⟨.all 33, .all 33, [33, 44]⟩ ∧
      ∀ calls, (⟨.all 33, .all 33, [33, 44]⟩ : Credentials).after calls =
        ⟨.all 33, .all 33, [33, 44]⟩ := by
  have hruns : ∃ runner, runAs rootCredentials sampleAccounts { configFile := some [] }
      sampleSurroundings = some runner := ⟨_, rfl⟩
  obtain ⟨runner, hrunner⟩ := hruns
  obtain ⟨file, uid, gid, p, hfile, hconfigured, hdowngrade, hp, hgroups, hafter⟩ :=
    requests_without_root rfl rfl hrunner
  obtain rfl : 33 = uid := Option.some.inj hconfigured.user
  obtain rfl : 33 = gid := Option.some.inj hconfigured.group
  have hlist := hgroups (by decide) (by decide) [33, 44] ⟨rfl, rfl⟩
  obtain rfl : p = ⟨.all 33, .all 33, [33, 44]⟩ := by
    rw [hp] at hlist ⊢
    exact congrArg (Credentials.mk _ _) hlist
  exact ⟨file, hfile, hdowngrade, hafter (by decide)⟩

end Nawa.Nawarun
