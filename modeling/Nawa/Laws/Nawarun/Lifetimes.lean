import Nawa.Laws.RequestHandler.RequestHandler
import Nawa.Lib.Transition
import Nawa.Nawarun.Lifetimes

/-!
# Nothing of an unloaded app is left

`handleRequest` drops its filters before its function, and it copies the two together, so a
running request never holds anything of an unloaded app. `reconfigure` assigns the function
before the filters: in between, the handler holds the filters of an app whose wrapper it has
given up. Nothing is unloaded too early exactly as long as somebody else keeps that wrapper until
the filters have been assigned as well.

`Consistent` holds in every run. `Intact` is what should hold; `intact_iff` says that a step keeps
it exactly if the step meets `Spares`.
-/

namespace Nawa.Lifetimes

open Lib Lib.Transition

/-- The handler and the requests, until they have returned, hold nothing of an unloaded app, and no
app is unloaded twice. -/
structure Intact (s : Lifetimes) : Prop where
  handler : ∀ app, s.guarded.handler.accessFilters = some app → app ∉ s.owners.destroyed
  request : ∀ r app filters, s.request r = some (.running app filters) →
    app ∉ s.owners.destroyed ∧ ∀ app', filters = some app' → app' ∉ s.owners.destroyed
  returning : ∀ r app, s.request r = some (.returning app) → app ∉ s.owners.destroyed
  once : s.owners.destroyed.Nodup

/-- While the handler holds the filters of an app and the function of another one, the pointer is
not the last one to that app. -/
def SparesFilters (s : Lifetimes) (p : WrapperPtr) : Prop :=
  ∀ app, s.guarded.handler.accessFilters = some app →
    app ≠ s.guarded.handler.handleRequestFunction → s.owners.target p = some app →
      s.owners.OwnedBeside p app

/-- Whoever gives up a wrapper leaves somebody who keeps it, as long as the handler holds the
filters of its app: the handler itself with the first assignment of a new function, and a request
or a reload that ends between that assignment and the one of the filters. -/
def Spares (s : Lifetimes) : Step → Prop
  | .reload _ (.assign .handleRequestFunction) =>
    s.owners.OwnedBeside .handler s.guarded.handler.handleRequestFunction
  | .dropFunction r => s.SparesFilters (.request r)
  | .reload i .leave => s.SparesFilters (.reload i)
  | _ => True

/-! ## The invariant -/

/-- What a request points to, by its stage. -/
def HoldsRequest (o : Owners WrapperPtr Nat) (r : Nat) : Option RequestStage → Prop
  | none => o.target (.request r) = none
  | some (.running app filters) => o.target (.request r) = some app ∧ filters = some app
  | some (.returning app) => o.target (.request r) = some app
  | some .returned => True

/-- What a reload points to, by its stage. -/
def Holds (o : Owners WrapperPtr Nat) (i : Nat) : Option ReloadStage → Prop
  | none | some .entered | some .started | some (.configured _) =>
    o.target (.reload i) = none ∧ o.target (.argument i) = none
  | some (.loaded _ app) => o.target (.reload i) = some app ∧ o.target (.argument i) = none
  | some (.reconfiguring r) =>
    (r.handleRequestFunction = none ∧ r.accessFilters = none ∧ o.target (.argument i) = none) ∨
      ∃ app config, r = ⟨some app, some app, some config⟩ ∧ o.target (.argument i) = some app ∧
        o.target (.reload i) = some app
  | some .writing | some .reconfigured =>
    o.target (.argument i) = none ∨ o.target (.argument i) = o.target (.reload i)
  | some .leaving | some .returned => True

/-- How far the writer is with the function and the filters. -/
inductive Swap (s : Lifetimes) : Prop
  /-- Function and filters are of one app, and they stay so. -/
  | settled (filters : s.guarded.handler.accessFilters =
        some s.guarded.handler.handleRequestFunction)
      (writer : ∀ pending, s.guarded.writer = some pending →
        pending = [] ∨ ∃ config, pending = [.config config])
  /-- A new app is about to be assigned; a writing reload holds it as an argument. -/
  | ahead (i app : Nat) (config : Config)
      (filters : s.guarded.handler.accessFilters =
        some s.guarded.handler.handleRequestFunction)
      (writer : s.guarded.writer =
        some [.handleRequestFunction app, .accessFilters app, .config config])
      (argument : s.owners.target (.argument i) = some app)
      (writing : s.reload i = some .writing)
  /-- The function is of the new app, the filters are not yet. -/
  | between (app : Nat) (config : Config)
      (filters : s.guarded.handler.accessFilters = some app)
      (writer : s.guarded.writer =
        some [.accessFilters s.guarded.handler.handleRequestFunction, .config config])
      (known : app < s.loads)

/-- What holds in every run. -/
structure Consistent (s : Lifetimes) : Prop where
  sound : s.owners.Sound
  known : ∀ app, s.owners.Known app ↔ app < s.loads
  handler : s.owners.target .handler = some s.guarded.handler.handleRequestFunction
  request : ∀ r, HoldsRequest s.owners r (s.request r)
  holds : ∀ i, Holds s.owners i (s.reload i)
  swap : s.Swap

theorem consistent_init (config config' : Config) : (init config config').Consistent where
  sound := by
    refine (Owners.sound_empty.point List.not_mem_nil WrapperPtr.run).point ?_ WrapperPtr.handler
    rw [Owners.mem_destroyed_point]
    rintro (h | ⟨h, -⟩)
    · cases h
    · cases h
  known := by
    intro app
    simp only [init, Owners.known_point, Nat.lt_one_iff, or_self_left]
    refine or_iff_left ?_
    rintro (⟨p, hp⟩ | h)
    · cases hp
    · cases h
  handler := (Owners.target_point ..).trans (if_pos rfl)
  request := fun r => rfl
  holds := fun i => ⟨rfl, rfl⟩
  swap := .settled rfl nofun

/-- A reload's pointers decide what it holds. -/
theorem Holds.congr {o o' : Owners WrapperPtr Nat} {i : Nat} {stage : Option ReloadStage}
    (h : Holds o i stage) (hreload : o'.target (.reload i) = o.target (.reload i))
    (hargument : o'.target (.argument i) = o.target (.argument i)) : Holds o' i stage := by
  unfold Holds at h ⊢
  rw [hreload, hargument]
  exact h

theorem HoldsRequest.congr {o o' : Owners WrapperPtr Nat} {r : Nat}
    {stage : Option RequestStage} (h : HoldsRequest o r stage)
    (htarget : o'.target (.request r) = o.target (.request r)) : HoldsRequest o' r stage := by
  unfold HoldsRequest at h ⊢
  rw [htarget]
  exact h

/-- The writer's progress depends on the handler, and on the pointers of a reload that writes. -/
theorem Swap.congr {s t : Lifetimes} (h : s.Swap) (hguarded : t.guarded = s.guarded)
    (hloads : s.loads ≤ t.loads)
    (hwriting : ∀ i, s.reload i = some .writing → t.reload i = some .writing ∧
      t.owners.target (.argument i) = s.owners.target (.argument i)) : t.Swap := by
  cases h with
  | settled filters writer => exact .settled (hguarded ▸ filters) (hguarded ▸ writer)
  | ahead i app config filters writer argument writing =>
    obtain ⟨hreload, hargument⟩ := hwriting i writing
    exact .ahead i app config (hguarded ▸ filters) (hguarded ▸ writer) (hargument.trans argument)
      hreload
  | between app config filters writer known =>
    exact .between app config (hguarded ▸ filters) (hguarded ▸ writer)
      (Nat.lt_of_lt_of_le known hloads)

/-! ## What a step can do -/

/-- The effect of a step on what the handler holds and on who owns it: the step gives nothing up,
it gives up one pointer, or it is one of the two assignments of a new app. -/
inductive Effect (s t : Lifetimes) : Step → Prop
  | keeps (a : Step) (spares : s.Spares a)
      (filters : t.guarded.handler.accessFilters = s.guarded.handler.accessFilters)
      (owned : ∀ app, s.owners.Owned app → t.owners.Owned app) : Effect s t a
  | gives (a : Step) (p : WrapperPtr) (other : p ≠ .handler)
      (spares : s.Spares a ↔ s.SparesFilters p)
      (filters : t.guarded.handler.accessFilters = s.guarded.handler.accessFilters)
      (owners : t.owners = s.owners.drop p) : Effect s t a
  | function (i app : Nat)
      (old : s.guarded.handler.accessFilters = some s.guarded.handler.handleRequestFunction)
      (filters : t.guarded.handler.accessFilters = s.guarded.handler.accessFilters)
      (argument : s.owners.target (.argument i) = some app)
      (owners : t.owners = s.owners.point .handler app) (j : Nat) :
      Effect s t (.reload j (.assign .handleRequestFunction))
  | filters (a : Step) (spares : s.Spares a)
      (filters : t.guarded.handler.accessFilters =
        some t.guarded.handler.handleRequestFunction) : Effect s t a

/-! ## Steps of a request -/

/-- A step of a request that touches its own pointer only. -/
theorem Consistent.of_request {s t : Lifetimes} {r : Nat} {stage : RequestStage}
    (hs : s.Consistent) (hrequest : t.request = s.setRequest r stage)
    (hreload : t.reload = s.reload) (hguarded : t.guarded = s.guarded)
    (hloads : t.loads = s.loads) (hsound : t.owners.Sound)
    (hknown : ∀ app, t.owners.Known app ↔ s.owners.Known app)
    (hothers : ∀ p, p ≠ .request r → t.owners.target p = s.owners.target p)
    (hholds : HoldsRequest t.owners r (some stage)) : t.Consistent where
  sound := hsound
  known := fun app => (hknown app).trans (hloads ▸ hs.known app)
  handler := (hothers .handler nofun).trans (hguarded ▸ hs.handler)
  request := by
    intro r'
    rw [hrequest]
    by_cases hr : r' = r
    · subst hr
      rw [setRequest, Function.update_self]
      exact hholds
    · rw [setRequest, Function.update_of_ne hr]
      exact (hs.request r').congr (hothers _ fun heq => hr (WrapperPtr.request.inj heq))
  holds := fun i => hreload ▸ (hs.holds i).congr (hothers _ nofun) (hothers _ nofun)
  swap := hs.swap.congr hguarded hloads.ge fun i hi =>
    ⟨by rw [hreload, hi], hothers _ nofun⟩

/-- Outside of the mutex function and filters are of one app. -/
theorem Consistent.filters_of_free {s : Lifetimes} (hs : s.Consistent)
    (h : s.guarded.writer = none) :
    s.guarded.handler.accessFilters = some s.guarded.handler.handleRequestFunction := by
  cases hs.swap with
  | settled filters => exact filters
  | ahead _ _ _ filters => exact filters
  | between _ _ _ writer => exact nomatch h.symm.trans writer

theorem Consistent.snapshot {s t : Lifetimes} {r : Nat} (hs : s.Consistent)
    (h : s.stepSnapshot r = some t) : t.Consistent ∧ Effect s t (.snapshot r) := by
  unfold stepSnapshot at h
  split at h
  · next app filters hnew hsnapshot =>
    obtain ⟨hwriter, hcopies⟩ := Guarded.snapshot_eq_some.mp hsnapshot
    cases hcopies
    cases h
    have hnone := hs.request r
    rw [hnew] at hnone
    refine ⟨hs.of_request rfl rfl rfl rfl (hs.sound.point (hs.sound.live hs.handler) _) ?_ ?_ ?_,
      .keeps _ trivial rfl fun app happ => happ.point_of_new hnone⟩
    · intro app
      rw [Owners.known_point]
      refine or_iff_right_of_imp ?_
      rintro rfl
      exact .inl ⟨_, hs.handler⟩
    · exact fun p hp => (Owners.target_point ..).trans (if_neg hp)
    · exact ⟨(Owners.target_point ..).trans (if_pos rfl), hs.filters_of_free hwriter⟩
  · cases h

theorem Consistent.dropFilters {s t : Lifetimes} {r : Nat} (hs : s.Consistent)
    (h : s.stepDropFilters r = some t) : t.Consistent ∧ Effect s t (.dropFilters r) := by
  unfold stepDropFilters at h
  split at h
  · next app filters hr =>
    cases h
    have hholds := hs.request r
    rw [hr] at hholds
    exact ⟨hs.of_request rfl rfl rfl rfl hs.sound (fun _ => Iff.rfl) (fun _ _ => rfl) hholds.1,
      .keeps _ trivial rfl fun _ => id⟩
  · cases h

theorem Consistent.dropFunction {s t : Lifetimes} {r : Nat} (hs : s.Consistent)
    (h : s.stepDropFunction r = some t) : t.Consistent ∧ Effect s t (.dropFunction r) := by
  unfold stepDropFunction at h
  split at h
  · next app hr =>
    cases h
    exact ⟨hs.of_request rfl rfl rfl rfl (hs.sound.drop _) (fun _ => Owners.known_drop)
      (fun p hp => (Owners.target_drop ..).trans (if_neg hp)) trivial,
      .gives _ (.request r) nofun Iff.rfl rfl rfl⟩
  · cases h

/-! ## Steps of a reload -/

/-- A step of a reload that touches its own pointers and the handler's only. -/
theorem Consistent.of_reload {s t : Lifetimes} {i : Nat} {stage : ReloadStage}
    (hs : s.Consistent) (hreload : t.reload = s.setReload i stage)
    (hrequest : t.request = s.request) (hsound : t.owners.Sound)
    (hknown : ∀ app, t.owners.Known app ↔ app < t.loads)
    (hothers : ∀ p, p ≠ .handler → p ≠ .reload i → p ≠ .argument i →
      t.owners.target p = s.owners.target p)
    (hhandler : t.owners.target .handler = some t.guarded.handler.handleRequestFunction)
    (hholds : Holds t.owners i (some stage)) (hswap : t.Swap) : t.Consistent where
  sound := hsound
  known := hknown
  handler := hhandler
  request := by
    intro r
    rw [hrequest]
    exact (hs.request r).congr (hothers _ nofun nofun nofun)
  holds := by
    intro j
    rw [hreload]
    by_cases hj : j = i
    · subst hj
      rw [setReload, Function.update_self]
      exact hholds
    · rw [setReload, Function.update_of_ne hj]
      exact (hs.holds j).congr
        (hothers _ nofun (fun heq => hj (WrapperPtr.reload.inj heq)) nofun)
        (hothers _ nofun nofun (fun heq => hj (WrapperPtr.argument.inj heq)))
  swap := hswap

/-- A step of a reload outside of the mutex that touches one of its pointers at most. -/
theorem Consistent.of_pointer {s t : Lifetimes} {i : Nat} {stage : ReloadStage}
    (p : WrapperPtr) (hp : p = .reload i ∨ p = .argument i) (hs : s.Consistent)
    (hold : s.reload i ≠ some .writing) (hreload : t.reload = s.setReload i stage)
    (hrequest : t.request = s.request) (hguarded : t.guarded = s.guarded)
    (hsound : t.owners.Sound) (hknown : ∀ app, t.owners.Known app ↔ app < t.loads)
    (hloads : s.loads ≤ t.loads)
    (htarget : ∀ p', p' ≠ p → t.owners.target p' = s.owners.target p')
    (hholds : Holds t.owners i (some stage)) : t.Consistent := by
  refine hs.of_reload hreload hrequest hsound hknown ?_ ?_ hholds ?_
  · intro p' _ hr ha
    refine htarget p' ?_
    rintro rfl
    exact hp.elim hr ha
  · rw [htarget, hguarded]
    · exact hs.handler
    · rintro rfl
      exact hp.elim nofun nofun
  · refine hs.swap.congr hguarded hloads fun j hj => ?_
    have hne : j ≠ i := by
      rintro rfl
      exact hold hj
    rw [hreload, setReload, Function.update_of_ne hne]
    refine ⟨hj, htarget _ ?_⟩
    rintro rfl
    exact hp.elim nofun fun heq => hne (WrapperPtr.argument.inj heq)

/-- A step that changes nothing but the stage of a reload and the flag. -/
theorem Consistent.of_stage {s t : Lifetimes} {i : Nat} {stage : ReloadStage}
    (hs : s.Consistent) (hold : s.reload i ≠ some .writing)
    (hreload : t.reload = s.setReload i stage) (hrequest : t.request = s.request)
    (hguarded : t.guarded = s.guarded) (howners : t.owners = s.owners)
    (hloads : t.loads = s.loads) (hholds : Holds s.owners i (some stage)) : t.Consistent :=
  hs.of_pointer (.reload i) (.inl rfl) hold hreload hrequest hguarded (howners ▸ hs.sound)
    (howners ▸ hloads ▸ hs.known) hloads.ge (fun _ _ => by rw [howners]) (howners ▸ hholds)

theorem Consistent.signal {s t : Lifetimes} {i : Nat} (hs : s.Consistent)
    (h : s.stepSignal i = some t) : t.Consistent ∧ Effect s t (.signal i) := by
  unfold stepSignal at h
  split at h
  · next hnew _ =>
    cases h
    have hholds := hs.holds i
    rw [hnew] at hholds
    exact ⟨hs.of_stage (by rw [hnew]; nofun) rfl rfl rfl rfl rfl hholds,
      .keeps _ trivial rfl fun _ => id⟩
  · cases h

theorem Consistent.lock {s t : Lifetimes} {i : Nat} {r : Reconfiguration Nat Nat Config}
    (hs : s.Consistent) (hi : s.reload i = some (.reconfiguring r))
    (h : s.stepReload i (.reconfiguring r) .lock = some t) :
    t.Consistent ∧ Effect s t (.reload i .lock) := by
  have hholds := hs.holds i
  rw [hi] at hholds
  obtain ⟨g, hg, rfl⟩ := Option.map_eq_some_iff.mp h
  obtain ⟨hwriter, rfl⟩ := Guarded.lock_eq_some.mp hg
  have hfilters := hs.filters_of_free hwriter
  refine ⟨hs.of_reload rfl rfl hs.sound hs.known (fun _ _ _ _ => rfl) hs.handler ?_ ?_,
    .keeps _ trivial rfl fun _ => id⟩
  · obtain ⟨-, -, hargument⟩ | ⟨app, config, -, hargument, hreload⟩ := hholds
    · exact .inl hargument
    · exact .inr (hargument.trans hreload.symm)
  · obtain ⟨hfunction, hnone, -⟩ | ⟨app, config, rfl, hargument, hreload⟩ := hholds
    · refine .settled hfilters fun pending hpending => ?_
      cases hpending
      rw [Reconfiguration.assignments, hfunction, hnone]
      cases r.config with
      | none => exact .inl rfl
      | some config => exact .inr ⟨config, rfl⟩
    · exact .ahead i app config hfilters rfl hargument (Function.update_self ..)

theorem Consistent.assign {s t : Lifetimes} {i : Nat} {member : Member} (hs : s.Consistent)
    (hi : s.reload i = some .writing)
    (h : s.stepReload i .writing (.assign member) = some t) :
    t.Consistent ∧ Effect s t (.reload i (.assign member)) := by
  have hholds := hs.holds i
  rw [hi] at hholds
  have hreload : s.reload = s.setReload i .writing := by
    rw [setReload, ← hi, Function.update_eq_self]
  obtain ⟨g, hg, rfl⟩ := Option.map_eq_some_iff.mp h
  obtain ⟨a, pending, hwriter, rfl, rfl⟩ := Guarded.assign_eq_some.mp hg
  cases hs.swap with
  | settled filters writer =>
    obtain hnil | ⟨config, hconfig⟩ := writer _ hwriter
    · cases hnil
    · cases hconfig
      refine ⟨hs.of_reload hreload rfl hs.sound hs.known (fun _ _ _ _ => rfl) hs.handler
        hholds (.settled filters fun pending hpending => .inl ?_),
        .keeps _ trivial rfl fun _ => id⟩
      exact (Option.some.inj hpending).symm
  | ahead j app config filters writer argument writing =>
    cases hwriter.symm.trans writer
    refine ⟨hs.of_reload hreload rfl (hs.sound.point (hs.sound.live argument) _) ?_
      (fun p hp _ _ => (Owners.target_point ..).trans (if_neg hp))
      ((Owners.target_point ..).trans (if_pos rfl)) ?_ ?_, ?_⟩
    · intro app'
      refine Owners.known_point.trans ((or_iff_right_of_imp ?_).trans (hs.known app'))
      rintro rfl
      exact .inl ⟨_, argument⟩
    · have hwriting : Holds s.owners i (some .writing) := hholds
      exact hwriting.congr ((Owners.target_point ..).trans (if_neg nofun))
        ((Owners.target_point ..).trans (if_neg nofun))
    · exact .between _ config filters rfl ((hs.known _).mp (.inl ⟨_, hs.handler⟩))
    · refine .function j app filters ?_ argument ?_ i <;> rfl
  | between app config filters writer known =>
    cases hwriter.symm.trans writer
    refine ⟨hs.of_reload hreload rfl hs.sound hs.known (fun _ _ _ _ => rfl) hs.handler
      hholds (.settled rfl fun pending hpending => .inr ⟨config, ?_⟩), .filters _ trivial rfl⟩
    exact (Option.some.inj hpending).symm

theorem Consistent.unlock {s t : Lifetimes} {i : Nat} (hs : s.Consistent)
    (hi : s.reload i = some .writing) (h : s.stepReload i .writing .unlock = some t) :
    t.Consistent ∧ Effect s t (.reload i .unlock) := by
  have hholds := hs.holds i
  rw [hi] at hholds
  obtain ⟨g, hg, rfl⟩ := Option.map_eq_some_iff.mp h
  obtain ⟨hwriter, rfl⟩ := Guarded.unlock_eq_some.mp hg
  refine ⟨hs.of_reload rfl rfl hs.sound hs.known (fun _ _ _ _ => rfl) hs.handler hholds ?_,
    .keeps _ trivial rfl fun _ => id⟩
  cases hs.swap with
  | settled filters => exact .settled filters nofun
  | ahead _ _ _ _ writer => exact nomatch hwriter.symm.trans writer
  | between _ _ _ writer => exact nomatch hwriter.symm.trans writer

/-- The argument of `reconfigure` is not the last pointer to its app: `reload` has its own. -/
theorem Consistent.ready {s t : Lifetimes} {i : Nat} (hs : s.Consistent)
    (hi : s.reload i = some .reconfigured) (h : s.stepReload i .reconfigured .ready = some t) :
    t.Consistent ∧ Effect s t (.reload i .ready) := by
  have hholds := hs.holds i
  rw [hi] at hholds
  cases h
  refine ⟨hs.of_pointer (.argument i) (.inr rfl) (by rw [hi]; nofun) rfl rfl rfl
    (hs.sound.drop _) (fun app => Owners.known_drop.trans (hs.known app)) (Nat.le_refl _)
    (fun p hp => (Owners.target_drop ..).trans (if_neg hp)) trivial,
    .keeps _ trivial rfl fun app happ => ?_⟩
  rw [Owners.owned_drop]
  rcases (s.owners.owned_iff_or (.argument i) app).mp happ with hargument | hbeside
  · refine ⟨.reload i, nofun, ?_⟩
    rcases hholds with hnone | heq
    · exact nomatch hargument.symm.trans hnone
    · exact heq.symm.trans hargument
  · exact hbeside

/-- **A step of a reload** keeps the state consistent, and its effect is one of the four. -/
theorem Consistent.reload_step {s t : Lifetimes} {i : Nat} {stage : ReloadStage}
    {l : ReloadStep} (hs : s.Consistent) (hi : s.reload i = some stage)
    (h : s.stepReload i stage l = some t) : t.Consistent ∧ Effect s t (.reload i l) := by
  have hholds := hs.holds i
  rw [hi] at hholds
  unfold stepReload at h
  split at h
  · -- the flag is cleared
    cases h
    exact ⟨hs.of_stage (by rw [hi]; nofun) rfl rfl rfl rfl rfl hholds,
      .keeps _ trivial rfl fun _ => id⟩
  · -- the configuration could not be loaded
    cases h
    exact ⟨hs.of_stage (by rw [hi]; nofun) rfl rfl rfl rfl rfl trivial,
      .keeps _ trivial rfl fun _ => id⟩
  · cases h
    exact ⟨hs.of_stage (by rw [hi]; nofun) rfl rfl rfl rfl rfl hholds,
      .keeps _ trivial rfl fun _ => id⟩
  · -- the app could not be loaded
    cases h
    exact ⟨hs.of_stage (by rw [hi]; nofun) rfl rfl rfl rfl rfl (.inl ⟨rfl, rfl, hholds.2⟩),
      .keeps _ trivial rfl fun _ => id⟩
  · cases h
    have hfresh : s.loads ∉ s.owners.destroyed := fun hmem =>
      Nat.lt_irrefl _ ((hs.known _).mp (.inr hmem))
    refine ⟨hs.of_pointer (.reload i) (.inl rfl) (by rw [hi]; nofun) rfl rfl rfl
      (hs.sound.point hfresh _) ?_ (Nat.le_succ _)
      (fun p hp => (Owners.target_point ..).trans (if_neg hp)) ?_,
      .keeps _ trivial rfl fun app happ => happ.point_of_new hholds.1⟩
    · intro app
      rw [Owners.known_point, hs.known, Nat.lt_succ_iff_lt_or_eq, or_comm]
    · exact ⟨(Owners.target_point ..).trans (if_pos rfl),
        (Owners.target_point ..).trans ((if_neg nofun).trans hholds.2)⟩
  · -- the app's `init` has failed
    cases h
    exact ⟨hs.of_stage (by rw [hi]; nofun) rfl rfl rfl rfl rfl (.inl ⟨rfl, rfl, hholds.2⟩),
      .keeps _ trivial rfl fun _ => id⟩
  · next app config =>
    cases h
    refine ⟨hs.of_pointer (.argument i) (.inr rfl) (by rw [hi]; nofun) rfl rfl rfl
      (hs.sound.point (hs.sound.live hholds.1) _) ?_ (Nat.le_refl _)
      (fun p hp => (Owners.target_point ..).trans (if_neg hp)) (.inr ⟨app, config, rfl, ?_, ?_⟩),
      .keeps _ trivial rfl fun app happ => happ.point_of_new hholds.2⟩
    · intro app'
      rw [Owners.known_point, hs.known]
      refine or_iff_right_of_imp ?_
      rintro rfl
      exact (hs.known _).mp (.inl ⟨_, hholds.1⟩)
    · exact (Owners.target_point ..).trans (if_pos rfl)
    · exact (Owners.target_point ..).trans ((if_neg nofun).trans hholds.1)
  · exact hs.lock hi h
  · exact hs.assign hi h
  · exact hs.unlock hi h
  · exact hs.ready hi h
  · cases h
    refine ⟨hs.of_pointer (.reload i) (.inl rfl) (by rw [hi]; nofun) rfl rfl rfl
      (hs.sound.drop _) (fun app => Owners.known_drop.trans (hs.known app)) (Nat.le_refl _)
      (fun p hp => (Owners.target_drop ..).trans (if_neg hp)) trivial,
      .gives _ (.reload i) nofun Iff.rfl rfl rfl⟩
  · cases h

/-- **Every step keeps the state consistent**, and its effect is one of the four. -/
theorem Consistent.step {s t : Lifetimes} {a : Step} (hs : s.Consistent)
    (h : s.step a = some t) : t.Consistent ∧ Effect s t a := by
  cases a with
  | snapshot r => exact hs.snapshot h
  | dropFilters r => exact hs.dropFilters h
  | dropFunction r => exact hs.dropFunction h
  | signal i => exact hs.signal h
  | reload i l =>
    simp only [Lifetimes.step] at h
    split at h
    · next stage hi => exact hs.reload_step hi h
    · cases h

/-! ## What is left of an app -/

/-- The app whose filters the handler holds is owned. -/
def Kept (s : Lifetimes) : Prop :=
  ∀ app, s.guarded.handler.accessFilters = some app → s.owners.Owned app

/-- The filters of the handler are of an app that has been loaded. -/
theorem Consistent.filters_known {s : Lifetimes} (hs : s.Consistent) {app : Nat}
    (h : s.guarded.handler.accessFilters = some app) : s.owners.Known app := by
  have hfunction : s.owners.Known s.guarded.handler.handleRequestFunction :=
    .inl ⟨_, hs.handler⟩
  cases hs.swap with
  | settled filters => exact Option.some.inj (filters.symm.trans h) ▸ hfunction
  | ahead _ _ _ filters => exact Option.some.inj (filters.symm.trans h) ▸ hfunction
  | between _ _ filters _ known =>
    exact (hs.known app).mpr (Option.some.inj (filters.symm.trans h) ▸ known)

/-- A running request holds nothing of an unloaded app, in any run. -/
theorem Consistent.request_live {s : Lifetimes} (hs : s.Consistent) {r app : Nat}
    {filters : Option Nat} (h : s.request r = some (.running app filters)) :
    app ∉ s.owners.destroyed ∧ ∀ app', filters = some app' → app' ∉ s.owners.destroyed := by
  have hholds := hs.request r
  rw [h] at hholds
  obtain ⟨htarget, rfl⟩ := hholds
  exact ⟨hs.sound.live htarget, fun app' heq => Option.some.inj heq ▸ hs.sound.live htarget⟩

theorem Consistent.returning_live {s : Lifetimes} (hs : s.Consistent) {r app : Nat}
    (h : s.request r = some (.returning app)) : app ∉ s.owners.destroyed := by
  have hholds := hs.request r
  rw [h] at hholds
  exact hs.sound.live hholds

theorem Consistent.intact_iff_kept {s : Lifetimes} (hs : s.Consistent) : s.Intact ↔ s.Kept := by
  constructor
  · intro h app happ
    exact (hs.filters_known happ).resolve_right (h.handler app happ)
  · intro h
    refine ⟨fun app happ => ?_, fun r app filters => hs.request_live,
      fun r app => hs.returning_live, hs.sound.once⟩
    obtain ⟨p, hp⟩ := h app happ
    exact hs.sound.live hp

/-- **A step keeps what the handler holds exactly when it meets `Spares`.** -/
theorem Consistent.kept_iff {s t : Lifetimes} {a : Step} (hs : s.Consistent) (hkept : s.Kept)
    (h : s.step a = some t) : t.Kept ↔ s.Spares a := by
  obtain ⟨ht, heffect⟩ := hs.step h
  cases heffect with
  | keeps _ spares filters owned =>
    exact iff_of_true (fun app happ => owned app (hkept app (filters ▸ happ))) spares
  | filters _ spares filters =>
    refine iff_of_true (fun app happ => ?_) spares
    exact Option.some.inj (filters.symm.trans happ) ▸ ⟨_, ht.handler⟩
  | gives _ p other spares filters owners =>
    simp only [spares, Kept, filters, owners, Owners.owned_drop, SparesFilters]
    constructor
    · exact fun h app happ _ _ => h app happ
    · intro h app happ
      rcases (s.owners.owned_iff_or p app).mp (hkept app happ) with htarget | hbeside
      · by_cases heq : app = s.guarded.handler.handleRequestFunction
        · exact ⟨.handler, other.symm, heq ▸ hs.handler⟩
        · exact h app happ heq htarget
      · exact hbeside
  | function i app old filters argument owners j =>
    simp only [Spares, Kept, filters, owners, old, Owners.owned_point, Option.some.injEq,
      forall_eq']
    refine or_iff_right_of_imp ?_
    rintro rfl
    exact ⟨.argument i, by simp, argument⟩

theorem kept_init (config config' : Config) : (init config config').Kept := by
  intro app happ
  obtain rfl : 0 = app := Option.some.inj happ
  exact ⟨.handler, (consistent_init config config').handler⟩

/-- **Nothing that belongs to an unloaded app is left alive** in a run whose steps all meet
`Spares`; and in such a run a step that does not meet it leaves something alive. -/
theorem intact_of_run {config config' : Config} {s : Lifetimes} {steps : List Step}
    (h : Run step Spares (init config config') steps s) :
    s.Intact ∧ ∀ a t, s.step a = some t → (t.Intact ↔ s.Spares a) := by
  have hinv : s.Consistent ∧ s.Kept :=
    h.invariant (fun s => s.Consistent ∧ s.Kept)
      (fun hok hs hstep => ⟨(hs.1.step hstep).1, (hs.1.kept_iff hs.2 hstep).mpr hok⟩)
      ⟨consistent_init config config', kept_init config config'⟩
  obtain ⟨hs, hkept⟩ := hinv
  refine ⟨hs.intact_iff_kept.mpr hkept, fun a t ha => ?_⟩
  rw [(hs.step ha).1.intact_iff_kept, hs.kept_iff hkept ha]

/-! ## Two reloads -/

/-- A reload up to the mutex, and the first assignment under it. -/
def reloadStart (i : Nat) : List Step :=
  [.signal i, .reload i .start, .reload i (.loadConfig (some {})), .reload i (.loadApp true),
    .reload i (.init true {}), .reload i .lock, .reload i (.assign .handleRequestFunction)]

def reloadEnd (i : Nat) : List Step :=
  [.reload i (.assign .accessFilters), .reload i (.assign .config), .reload i .unlock,
    .reload i .ready, .reload i .leave]

/-- The first reload is harmless: `run` keeps the app that it has started with. -/
theorem intact_sample : ∃ s, Run step Spares (init {} {}) (reloadStart 0) s ∧ s.Intact := by
  have hrun : ∃ s, Run step Spares (init {} {}) (reloadStart 0) s :=
    ⟨_, .cons trivial rfl (.cons trivial rfl (.cons trivial rfl (.cons trivial rfl
      (.cons trivial rfl (.cons trivial rfl (.cons ⟨.run, nofun, rfl⟩ rfl (.nil _)))))))⟩
  obtain ⟨s, hrun⟩ := hrun
  exact ⟨s, hrun, (intact_of_run hrun).1⟩

/-- The second reload unloads the app of the first one while the handler has its filters. -/
theorem not_intact_second_reload : ¬ ∀ (steps : List Step) (s : Lifetimes),
    Run step (fun _ _ => True) (init {} {}) steps s → s.Intact := by
  intro hall
  have hrun : ∃ s, Run step (fun _ _ => True) (init {} {})
      (reloadStart 0 ++ reloadEnd 0 ++ reloadStart 1) s ∧
        s.guarded.handler.accessFilters = some 1 ∧ s.owners.destroyed = [1] :=
    ⟨_, .cons trivial rfl (.cons trivial rfl (.cons trivial rfl (.cons trivial rfl
      (.cons trivial rfl (.cons trivial rfl (.cons trivial rfl (.cons trivial rfl
        (.cons trivial rfl (.cons trivial rfl (.cons trivial rfl (.cons trivial rfl
          (.cons trivial rfl (.cons trivial rfl (.cons trivial rfl (.cons trivial rfl
            (.cons trivial rfl (.cons trivial rfl (.cons trivial rfl
              (.nil _))))))))))))))))))), rfl, rfl⟩
  obtain ⟨s, hrun, hfilters, hdestroyed⟩ := hrun
  refine (hall _ s hrun).handler 1 hfilters ?_
  rw [hdestroyed]
  exact List.mem_singleton_self 1

end Nawa.Lifetimes
