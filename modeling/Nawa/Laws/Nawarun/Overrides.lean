import Nawa.Laws.Nawarun.Reload

/-!
# Overrides of the command line, after reloads

`run` overrides the configuration with the values of the command line before anything uses it. A
reload does not look at the command line, so after any number of reloads the overrides are in
force exactly when every file that was read again says the same by itself (`overrides_survive_iff`).

A key that the application changes on its own is left out: the configuration that the request
handler gets is the one that `init` has made of the configuration that it was given.
-/

namespace Nawa

/-- The value that overrides give to a key: the last one, if there are several. -/
def lastOverride (overrides : List ((Bytes × Bytes) × Bytes)) (key : Bytes × Bytes) :
    Option Bytes :=
  (overrides.reverse.find? fun e => e.1 = key).map (·.2)

/-- A configuration has the values of the overrides. -/
def Config.Agrees (config : Config) (overrides : List ((Bytes × Bytes) × Bytes)) : Prop :=
  ∀ key value, lastOverride overrides key = some value → config.values.lookup key = some value

theorem Config.lookup_override (config : Config) (overrides : List ((Bytes × Bytes) × Bytes))
    (key : Bytes × Bytes) :
    (config.override overrides).values.lookup key =
      (lastOverride overrides key).or (config.values.lookup key) := by
  induction overrides using List.reverseRecOn with
  | nil => rfl
  | append_singleton overrides e ih =>
    rw [override, List.foldl_append, List.foldl_cons, List.foldl_nil, set,
      Lib.AssocMap.lookup_insert, lastOverride, List.reverse_append, List.reverse_singleton,
      List.singleton_append, List.find?_cons]
    by_cases he : e.1 = key
    · rw [if_pos he.symm, decide_eq_true he]
      rfl
    · rw [if_neg (Ne.symm he), decide_eq_false he]
      exact ih

theorem Config.agrees_override (config : Config) (overrides : List ((Bytes × Bytes) × Bytes)) :
    (config.override overrides).Agrees overrides := by
  intro key value h
  rw [lookup_override, h, Option.some_or]

namespace Nawarun

variable {F Fn : Type}

/-- No application that is found changes the value of a key. -/
def LeavesAlone (surroundings : Surroundings F Fn) (key : Bytes × Bytes) : Prop :=
  ∀ path app, surroundings.openApp path = .ok app → ∀ config n,
    (app.init config n).2.2.values.lookup key = config.values.lookup key

/-- The configurations of a reload have the values of the overrides; the one that the request
handler has, for the keys that are `kept`. -/
structure InForce (overrides : List ((Bytes × Bytes) × Bytes)) (kept : Bytes × Bytes → Prop)
    (reloaded : Reloaded F Fn) : Prop where
  app : ∀ config, reloaded.appConfig = some config → config.Agrees overrides
  init : ∀ config, reloaded.initConfig = some config → config.Agrees overrides
  installed : ∀ handler, reloaded.runner.requestHandler = some handler → ∀ key value, kept key →
    lastOverride overrides key = some value → handler.config.values.lookup key = some value

/-- The overrides are in force after each of some reloads, for all keys that no application has
changed. -/
def OverridesSurvive (parameters : Parameters) (start : StartSurroundings F Fn) (s : Runner F Fn)
    (reloads : List (Surroundings F Fn)) : Prop :=
  ∀ t ∈ s.turns reloads,
    InForce parameters.configOverrides
      (fun key => LeavesAlone start.toSurroundings key ∧
        ∀ surroundings ∈ reloads, LeavesAlone surroundings key)
      (t.1.reload t.2)

/-- Every configuration that is read again and gets as far as the application has the values of
the overrides by itself. -/
def FilesAgree (overrides : List ((Bytes × Bytes) × Bytes)) (s : Runner F Fn)
    (reloads : List (Surroundings F Fn)) : Prop :=
  ∀ t ∈ s.turns reloads, ∀ config, t.1.Loads t.2 config → Runner.TimeoutInRange config →
    config.Agrees overrides

namespace Runner

/-! ## One reload -/

variable {s : Runner F Fn} {surroundings : Surroundings F Fn} {config : Config}
  {handler : RequestHandler F (AccessFilterList Fn) Config}
  {overrides : List ((Bytes × Bytes) × Bytes)} {kept : Bytes × Bytes → Prop}

/-- The request handler has the values of the overrides, for some keys. -/
def Installed (overrides : List ((Bytes × Bytes) × Bytes)) (kept : Bytes × Bytes → Prop)
    (s : Runner F Fn) : Prop :=
  ∀ handler, s.requestHandler = some handler → ∀ key value, kept key →
    lastOverride overrides key = some value → handler.config.values.lookup key = some value

theorem appConfig_reloadApp :
    (s.reloadApp handler surroundings config).appConfig = some config := by
  unfold reloadApp
  dsimp only
  split
  · rfl
  · split <;> rfl

theorem initConfig_reloadApp {config' : Config}
    (h : (s.reloadApp handler surroundings config).initConfig = some config') :
    config' = config := by
  unfold reloadApp at h
  dsimp only at h
  split at h
  · cases h
  · split at h
    · cases h
    · exact (Option.some.inj h).symm

/-- The handler has the old configuration, or the new one as it is or as `init` has left it. -/
theorem config_reloadApp {handler' : RequestHandler F (AccessFilterList Fn) Config}
    (h : (s.reloadApp handler surroundings config).runner.requestHandler = some handler')
    (hold : s.requestHandler = some handler) :
    handler' = handler ∨ handler'.config = config ∨
      ∃ path app n, surroundings.openApp path = .ok app ∧
        handler'.config = (app.init config n).2.2 := by
  unfold reloadApp at h
  dsimp only at h
  split at h
  · exact .inr (.inl (Option.some.inj h ▸ rfl))
  · next app happ =>
    split at h
    · exact .inl (Option.some.inj (h.symm.trans hold))
    · next n _ =>
      split at h
      · exact .inr (.inl (Option.some.inj h ▸ rfl))
      · refine .inr (.inr ⟨config.get (bytes "application") (bytes "path"), app, n, ?_,
          Option.some.inj h ▸ rfl⟩)
        unfold loadAppFunctions at happ
        dsimp only at happ
        split at happ
        · cases happ
        · exact happ

/-- A reload whose file has the values of the overrides keeps them in force. -/
theorem inForce_reload (hinstalled : s.Installed overrides kept)
    (hkept : ∀ key, kept key → LeavesAlone surroundings key)
    (hagrees : ∀ config, s.Loads surroundings config → TimeoutInRange config →
      config.Agrees overrides) :
    InForce overrides kept (s.reload surroundings) := by
  by_cases hloads : ∃ config, s.Loads surroundings config
  · obtain ⟨config, hconfig⟩ := hloads
    obtain ⟨handler, hhandler⟩ := hconfig.handler
    cases ht : setTerminationTimeout config s.terminationTimeout with
    | error e =>
      rw [reload_of_timeout_error hconfig ht]
      exact ⟨nofun, nofun, hinstalled⟩
    | ok t =>
      have hconfigAgrees := hagrees config hconfig
        (setTerminationTimeout_returns_iff.mp ⟨t, ht⟩)
      rw [reload_of_loads hconfig hhandler ht]
      constructor
      · intro config' happ
        exact Option.some.inj (appConfig_reloadApp.symm.trans happ) ▸ hconfigAgrees
      · intro config' hinit
        exact initConfig_reloadApp hinit ▸ hconfigAgrees
      · intro handler' hhandler' key value hkey hvalue
        rcases config_reloadApp hhandler' hhandler with rfl | hconfig' | ⟨path, app, n, happ, hinit⟩
        · exact hinstalled _ hhandler key value hkey hvalue
        · rw [hconfig']
          exact hconfigAgrees key value hvalue
        · rw [hinit, hkept key hkey path app happ config n]
          exact hconfigAgrees key value hvalue
  · rw [reload_of_not_loads (not_exists.mp hloads)]
    exact ⟨nofun, nofun, hinstalled⟩

/-! ## Any number of reloads -/

theorem mem_turns_cons {reloads : List (Surroundings F Fn)}
    {t : Runner F Fn × Surroundings F Fn} :
    t ∈ s.turns (surroundings :: reloads) ↔ t = (s, surroundings) ∨
      (s.reload surroundings).result = .ok () ∧
        t ∈ (s.reload surroundings).runner.turns reloads := by
  rw [turns, List.mem_cons]
  cases (s.reload surroundings).result with
  | ok => simp only [true_and]
  | error e => simp only [List.not_mem_nil, reduceCtorEq, false_and]

theorem inForce_turns {reloads : List (Surroundings F Fn)}
    (hinstalled : s.Installed overrides kept)
    (hkept : ∀ key, kept key → ∀ surroundings ∈ reloads, LeavesAlone surroundings key)
    (hagrees : FilesAgree overrides s reloads) :
    ∀ t ∈ s.turns reloads, InForce overrides kept (t.1.reload t.2) := by
  induction reloads generalizing s with
  | nil => exact fun t ht => absurd ht List.not_mem_nil
  | cons surroundings reloads ih =>
    have hturn := inForce_reload hinstalled
      (fun key hkey => hkept key hkey surroundings List.mem_cons_self)
      (hagrees (s, surroundings) (mem_turns_cons.mpr (.inl rfl)))
    intro t ht
    rcases mem_turns_cons.mp ht with rfl | ⟨hok, ht⟩
    · exact hturn
    · refine ih hturn.installed ?_ ?_ t ht
      · exact fun key hkey surroundings' h => hkept key hkey _ (List.mem_cons_of_mem _ h)
      · exact fun t ht => hagrees t (mem_turns_cons.mpr (.inr ⟨hok, ht⟩))

end Runner

/-! ## The start -/

/-- The program starts with the overrides in force. -/
theorem installed_run {parameters : Parameters} {start : StartSurroundings F Fn}
    {s : Runner F Fn} (h : run parameters start = some s) (kept : Bytes × Bytes → Prop)
    (hkept : ∀ key, kept key → LeavesAlone start.toSurroundings key) :
    s.Installed parameters.configOverrides kept := by
  unfold run at h
  split at h
  · cases h
  · next file _ =>
    dsimp only at h
    split at h
    · next t app n _ _ happ _ =>
      split at h
      · next accessFilters initialized _ hinit _ =>
        cases h
        intro handler hhandler key value hkey hvalue
        cases hhandler
        have hopen : ∃ path, start.openApp path = .ok app := by
          unfold loadAppFunctions at happ
          dsimp only at happ
          split at happ
          · cases happ
          · exact ⟨_, happ⟩
        obtain ⟨path, hpath⟩ := hopen
        have hlookup := hkept key hkey path app hpath
          (file.override parameters.configOverrides) n
        rw [hinit] at hlookup
        exact hlookup.trans (file.agrees_override parameters.configOverrides key value hvalue)
      · cases h
    · cases h

/-- **Overrides survive any number of reloads** exactly when every file that is read again has
their values by itself. -/
theorem overrides_survive_iff {parameters : Parameters} {start : StartSurroundings F Fn}
    {s : Runner F Fn} (h : run parameters start = some s) (reloads : List (Surroundings F Fn)) :
    OverridesSurvive parameters start s reloads ↔
      FilesAgree parameters.configOverrides s reloads := by
  constructor
  · intro hsurvive t ht config hconfig htimeout
    obtain ⟨handler, hhandler⟩ := hconfig.handler
    obtain ⟨timeout, hset⟩ := Runner.setTerminationTimeout_returns_iff.mpr htimeout
    apply (hsurvive t ht).app
    rw [Runner.reload_of_loads hconfig hhandler hset]
    exact Runner.appConfig_reloadApp
  · intro hagrees
    apply Runner.inForce_turns
    · exact installed_run h _ fun key hkey => hkey.1
    · exact fun key hkey => hkey.2
    · exact hagrees

/-- The port is overridden. -/
def overridePort : Parameters :=
  { configFile := some (bytes "config.ini")
    configOverrides := [((bytes "http", bytes "port"), bytes "8081")] }

/-- An application that leaves the configuration alone, and a file. -/
def plainApp (content : Bytes) : StartSurroundings Unit Unit where
  files := fun _ => some content
  openApp := fun _ => .ok ⟨(), fun config _ => (0, {}, config)⟩
  hardwareConcurrency := 1
  downgradePrivileges := fun _ => true
  newRequestHandler := fun _ _ => .ok ()
  start := .ok ()

def fileWithoutPort : Bytes := bytes "[application]\npath = app.so\n"

def fileWithPort : Bytes := fileWithoutPort ++ bytes "[http]\nport = 8081\n"

theorem overrides_survive_iff_samePort :
    ∃ s, run overridePort (plainApp fileWithoutPort) = some s ∧
      OverridesSurvive overridePort (plainApp fileWithoutPort) s
        [(plainApp fileWithPort).toSurroundings] := by
  refine ⟨_, rfl, (overrides_survive_iff rfl _).mpr fun t ht config hconfig _ => ?_⟩
  rcases Runner.mem_turns_cons.mp ht with rfl | ⟨-, hnone⟩
  · obtain ⟨path, -, hload⟩ := hconfig.loaded
    cases hload
    intro key value hkey
    obtain ⟨e, hfind, rfl⟩ := Option.map_eq_some_iff.mp hkey
    cases List.mem_singleton.mp (List.mem_of_find?_eq_some hfind)
    have hfound := List.find?_some hfind
    have hport : (bytes "http", bytes "port") = key := of_decide_eq_true hfound
    rw [← hport]
    decide
  · exact absurd hnone List.not_mem_nil

/-- A reload forgets the port of the command line. -/
theorem not_overrides_survive :
    ¬ ∀ (parameters : Parameters) (start : StartSurroundings Unit Unit) (s : Runner Unit Unit)
      (reloads : List (Surroundings Unit Unit)), run parameters start = some s →
        OverridesSurvive parameters start s reloads := by
  intro hall
  have hsurvive := hall overridePort (plainApp fileWithoutPort) _
    [(plainApp fileWithoutPort).toSurroundings] rfl
  have happ := (hsurvive _ (Runner.mem_turns_cons.mpr (.inl rfl))).app _ rfl
    (bytes "http", bytes "port") (bytes "8081") (by decide)
  revert happ
  decide

end Nawarun

end Nawa
