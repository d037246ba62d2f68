import Nawa.Nawarun.Reload

/-!
# What a reload does

A call of `reload` either leaves everything as it is, or replaces the configuration, or replaces
all that the request handler has (`Orderly`). It returns unless a number in the configuration is
out of range, since nobody catches what `stoul` and `stod` throw then (`orderly_iff`).
-/

namespace Nawa.Nawarun

variable {F Fn : Type}

theorem stoul_error {s : Bytes} {e : StdException} (h : stoul s = .error e) :
    e = .invalidArgument ∨ e = .outOfRange := by
  unfold stoul at h
  dsimp only at h
  split at h
  · exact .inl (Except.error.inj h).symm
  · split at h
    · exact .inr (Except.error.inj h).symm
    · cases h

namespace Runner

/-! ## Orderly reloads -/

/-- A call of `reload` takes place, with a configuration that could be loaded. -/
structure Loads (s : Runner F Fn) (surroundings : Surroundings F Fn) (config : Config) : Prop where
  ready : s.readyToReconfigure = true
  handler : ∃ handler, s.requestHandler = some handler
  loaded : ∃ path, s.configFile = some path ∧
    loadConfig (some path) surroundings.files = some config

/-- The application is loaded, and with this result its `init` function is called. -/
structure Initializes (surroundings : Surroundings F Fn) (config : Config) (app : App F Fn)
    (initReturn : Int) (accessFilters : AccessFilterList Fn) (initialized : Config) : Prop where
  loaded : loadAppFunctions config surroundings.openApp = .ok app
  returned : ∃ n, getConcurrency config surroundings.hardwareConcurrency = .ok n ∧
    app.init config n = (initReturn, accessFilters, initialized)

/-- The reload returns, the handler can be reconfigured again, and what the handler has is
unchanged, or has the new configuration only, or is all new. -/
structure Orderly (s : Runner F Fn) (surroundings : Surroundings F Fn) : Prop where
  returns : (s.reload surroundings).result = .ok ()
  ready : (s.reload surroundings).runner.readyToReconfigure = s.readyToReconfigure
  unchanged : (∀ config, ¬ s.Loads surroundings config) →
    (s.reload surroundings).runner.requestHandler = s.requestHandler
  configOnly : ∀ config handler, s.Loads surroundings config →
    s.requestHandler = some handler →
    (∀ app accessFilters initialized,
      ¬ Initializes surroundings config app 0 accessFilters initialized) →
      (s.reload surroundings).runner.requestHandler = some { handler with config := config }
  replaced : ∀ config app accessFilters initialized, s.Loads surroundings config →
    Initializes surroundings config app 0 accessFilters initialized →
      (s.reload surroundings).runner.requestHandler =
        some ⟨app.handleRequest, some accessFilters, initialized⟩

/-- The timeout is not a number out of range. -/
def TimeoutInRange (config : Config) : Prop :=
  stoul (config.get (bytes "system") (bytes "termination_timeout")) ≠ .error .outOfRange

/-- The number of threads is not a number out of range, and it fits into its type. -/
def ThreadsInRange (config : Config) (hardwareConcurrency : Nat) : Prop :=
  ∃ c, cReal config hardwareConcurrency = .ok c ∧ c.toUnsigned.isSome = true

/-- The numbers that a reload has to read are in range. -/
def NumbersInRange (s : Runner F Fn) (surroundings : Surroundings F Fn) : Prop :=
  ∀ config, s.Loads surroundings config →
    TimeoutInRange config ∧
      ∀ app, loadAppFunctions config surroundings.openApp = .ok app →
        ThreadsInRange config surroundings.hardwareConcurrency

theorem setTerminationTimeout_returns_iff {config : Config} {timeout : Nat} :
    (∃ t, setTerminationTimeout config timeout = .ok t) ↔ TimeoutInRange config := by
  unfold setTerminationTimeout TimeoutInRange
  dsimp only
  split
  · next hempty =>
    rw [hempty]
    exact iff_of_true ⟨timeout, rfl⟩ (by decide)
  · cases hstoul : stoul (config.get (bytes "system") (bytes "termination_timeout")) with
    | ok n => exact iff_of_true ⟨_, rfl⟩ nofun
    | error e =>
      rcases stoul_error hstoul with rfl | rfl
      · exact iff_of_true ⟨timeout, rfl⟩ nofun
      · exact iff_of_false nofun fun h => h rfl

theorem getConcurrency_returns_iff {config : Config} {hardwareConcurrency : Nat} :
    (∃ n, getConcurrency config hardwareConcurrency = .ok n) ↔
      ThreadsInRange config hardwareConcurrency := by
  unfold getConcurrency ThreadsInRange
  cases cReal config hardwareConcurrency with
  | error e => exact iff_of_false nofun nofun
  | ok c =>
    cases hc : c.toUnsigned with
    | some n =>
      dsimp only
      rw [hc]
      exact iff_of_true ⟨n, rfl⟩ ⟨c, rfl, hc ▸ rfl⟩
    | none =>
      dsimp only
      rw [hc]
      refine iff_of_false nofun ?_
      rintro ⟨c', hc', hsome⟩
      cases hc'
      rw [hc] at hsome
      cases hsome

/-! ## The ways through a reload -/

section Ways

variable {s : Runner F Fn} {surroundings : Surroundings F Fn} {config : Config}
  {handler : RequestHandler F (AccessFilterList Fn) Config}

theorem Loads.unique {config' : Config} (h : s.Loads surroundings config)
    (h' : s.Loads surroundings config') : config' = config := by
  obtain ⟨path, hpath, hload⟩ := h.loaded
  obtain ⟨path', hpath', hload'⟩ := h'.loaded
  cases hpath.symm.trans hpath'
  exact Option.some.inj (hload'.symm.trans hload)

/-- Without a configuration, nothing is done. -/
theorem reload_of_not_loads (h : ∀ config, ¬ s.Loads surroundings config) :
    s.reload surroundings = { runner := s } := by
  obtain ⟨configFile, requestHandler, readyToReconfigure, terminationTimeout⟩ := s
  unfold reload
  split
  · next path handler hpath hhandler hready =>
    dsimp only at hpath hhandler hready ⊢
    cases hload : loadConfig (some path) surroundings.files with
    | none => simp only [hready]
    | some config => exact absurd ⟨hready, ⟨handler, hhandler⟩, path, hpath, hload⟩ (h config)
  · rfl

theorem reload_of_loads (h : s.Loads surroundings config)
    (hhandler : s.requestHandler = some handler) {t : Nat}
    (ht : setTerminationTimeout config s.terminationTimeout = .ok t) :
    s.reload surroundings =
      reloadApp { s with readyToReconfigure := false, terminationTimeout := t } handler
        surroundings config := by
  obtain ⟨path, hpath, hload⟩ := h.loaded
  simp only [reload, hpath, hhandler, h.ready, hload, ht]

theorem reload_of_timeout_error (h : s.Loads surroundings config) {e : Failure}
    (he : setTerminationTimeout config s.terminationTimeout = .error e) :
    s.reload surroundings =
      { runner := { s with readyToReconfigure := false }, result := .error e } := by
  obtain ⟨path, hpath, hload⟩ := h.loaded
  obtain ⟨handler, hhandler⟩ := h.handler
  simp only [reload, hpath, hhandler, h.ready, hload, he]

/-- The configuration is replaced where the application is not loaded, or its `init` fails. -/
theorem reloadApp_configOnly (s : Runner F Fn)
    (handler : RequestHandler F (AccessFilterList Fn) Config) {app : Except Exception (App F Fn)}
    (happ : loadAppFunctions config surroundings.openApp = app)
    (h : ∀ loaded, app = .ok loaded → ∃ n initReturn accessFilters initialized, initReturn ≠ 0 ∧
      getConcurrency config surroundings.hardwareConcurrency = .ok n ∧
      loaded.init config n = (initReturn, accessFilters, initialized)) :
    (s.reloadApp handler surroundings config).result = .ok () ∧
      (s.reloadApp handler surroundings config).runner =
        { s with
          requestHandler := some { handler with config := config }
          readyToReconfigure := true } := by
  unfold reloadApp
  rw [happ]
  cases app with
  | error e => exact ⟨rfl, rfl⟩
  | ok loaded =>
    obtain ⟨n, initReturn, accessFilters, initialized, hne, hn, hinit⟩ := h loaded rfl
    simp only [hn, hinit, ne_eq, hne, not_false_eq_true, if_true]
    exact ⟨trivial, rfl⟩

/-- Everything is replaced where `init` returns zero. -/
theorem reloadApp_replaced (s : Runner F Fn)
    (handler : RequestHandler F (AccessFilterList Fn) Config) {app : App F Fn}
    {accessFilters : AccessFilterList Fn} {initialized : Config}
    (h : Initializes surroundings config app 0 accessFilters initialized) :
    (s.reloadApp handler surroundings config).result = .ok () ∧
      (s.reloadApp handler surroundings config).runner =
        { s with
          requestHandler := some ⟨app.handleRequest, some accessFilters, initialized⟩
          readyToReconfigure := true } := by
  obtain ⟨n, hn, hinit⟩ := h.returned
  unfold reloadApp
  simp only [h.loaded, hn, hinit, ne_eq, not_true_eq_false, if_false]
  exact ⟨trivial, rfl⟩

theorem reloadApp_of_concurrency_error {app : App F Fn} {e : Failure}
    (happ : loadAppFunctions config surroundings.openApp = .ok app)
    (he : getConcurrency config surroundings.hardwareConcurrency = .error e) :
    s.reloadApp handler surroundings config =
      { runner := s, result := .error e, appConfig := some config } := by
  simp only [reloadApp, happ, he]

/-- A reload that has loaded a configuration is orderly where it returns with one of the two. -/
theorem Orderly.of_loads (hconfig : s.Loads surroundings config)
    (hhandler : s.requestHandler = some handler) {runner : Runner F Fn}
    (hresult : (s.reload surroundings).result = .ok ())
    (hrunner : (s.reload surroundings).runner = runner)
    (hready : runner.readyToReconfigure = true)
    (hreplaced : ∀ app accessFilters initialized,
      Initializes surroundings config app 0 accessFilters initialized →
      runner.requestHandler = some ⟨app.handleRequest, some accessFilters, initialized⟩)
    (hconfigOnly : (∀ app accessFilters initialized,
        ¬ Initializes surroundings config app 0 accessFilters initialized) →
      runner.requestHandler = some { handler with config := config }) :
    s.Orderly surroundings := by
  subst hrunner
  refine ⟨hresult, hready.trans hconfig.ready.symm, fun h => absurd hconfig (h config), ?_, ?_⟩
  · intro config' handler' hconfig' hhandler' hnot
    cases hconfig.unique hconfig'
    cases hhandler.symm.trans hhandler'
    exact hconfigOnly hnot
  · intro config' app accessFilters initialized hconfig' hinit
    cases hconfig.unique hconfig'
    exact hreplaced app accessFilters initialized hinit

theorem Initializes.unique {app app' : App F Fn} {initReturn initReturn' : Int}
    {accessFilters accessFilters' : AccessFilterList Fn} {initialized initialized' : Config}
    (h : Initializes surroundings config app initReturn accessFilters initialized)
    (h' : Initializes surroundings config app' initReturn' accessFilters' initialized') :
    app' = app ∧ initReturn' = initReturn ∧ accessFilters' = accessFilters ∧
      initialized' = initialized := by
  obtain ⟨n, hn, hinit⟩ := h.returned
  obtain ⟨n', hn', hinit'⟩ := h'.returned
  cases h.loaded.symm.trans h'.loaded
  cases hn.symm.trans hn'
  cases hinit.symm.trans hinit'
  exact ⟨rfl, rfl, rfl, rfl⟩

/-- Of a reload whose timeout can be read, the number of threads decides. -/
theorem orderly_of_loads_iff (hconfig : s.Loads surroundings config) {t : Nat}
    (ht : setTerminationTimeout config s.terminationTimeout = .ok t) :
    s.Orderly surroundings ↔
      ∀ app, loadAppFunctions config surroundings.openApp = .ok app →
        ThreadsInRange config surroundings.hardwareConcurrency := by
  obtain ⟨handler, hhandler⟩ := hconfig.handler
  have heq := reload_of_loads hconfig hhandler ht
  have hconfigOnly : (∀ app accessFilters initialized,
        ¬ Initializes surroundings config app 0 accessFilters initialized) →
      (∀ loaded, loadAppFunctions config surroundings.openApp = .ok loaded →
        ∃ n initReturn accessFilters initialized, initReturn ≠ 0 ∧
          getConcurrency config surroundings.hardwareConcurrency = .ok n ∧
          loaded.init config n = (initReturn, accessFilters, initialized)) →
      s.Orderly surroundings := by
    intro hnot h
    obtain ⟨hresult, hrunner⟩ := reloadApp_configOnly
      { s with readyToReconfigure := false, terminationTimeout := t } handler rfl h
    rw [← heq] at hresult hrunner
    refine .of_loads hconfig hhandler hresult hrunner rfl ?_ fun _ => rfl
    exact fun app accessFilters initialized hinit => absurd hinit (hnot _ _ _)
  cases happ : loadAppFunctions config surroundings.openApp with
  | error e =>
    refine iff_of_true (hconfigOnly ?_ ?_) nofun
    · exact fun _ _ _ hinit => nomatch happ.symm.trans hinit.loaded
    · exact fun _ hloaded => nomatch happ.symm.trans hloaded
  | ok app =>
    cases hn : getConcurrency config surroundings.hardwareConcurrency with
    | error e =>
      refine iff_of_false (fun h => ?_) fun h => ?_
      · have hreturns := h.returns
        rw [heq, reloadApp_of_concurrency_error happ hn] at hreturns
        cases hreturns
      · obtain ⟨n, hn'⟩ := getConcurrency_returns_iff.mpr (h app rfl)
        exact nomatch hn.symm.trans hn'
    | ok n =>
      refine iff_of_true ?_ fun _ _ => getConcurrency_returns_iff.mp ⟨n, hn⟩
      cases hinit : app.init config n with
      | mk initReturn rest =>
        obtain ⟨accessFilters, initialized⟩ := rest
        have hinitializes : Initializes surroundings config app initReturn accessFilters
            initialized := ⟨happ, n, hn, hinit⟩
        by_cases hzero : initReturn = 0
        · subst hzero
          obtain ⟨hresult, hrunner⟩ := reloadApp_replaced
            { s with readyToReconfigure := false, terminationTimeout := t } handler hinitializes
          rw [← heq] at hresult hrunner
          refine .of_loads hconfig hhandler hresult hrunner rfl ?_ fun hnot => ?_
          · intro app' accessFilters' initialized' h
            obtain ⟨rfl, -, rfl, rfl⟩ := hinitializes.unique h
            rfl
          · exact absurd hinitializes (hnot _ _ _)
        · refine hconfigOnly (fun _ _ _ h => hzero (hinitializes.unique h).2.1.symm) ?_
          intro loaded hloaded
          cases happ.symm.trans hloaded
          exact ⟨n, initReturn, accessFilters, initialized, hzero, hn, hinit⟩

end Ways

/-- **A reload is orderly** exactly when the numbers that it has to read are in range. -/
theorem orderly_iff (s : Runner F Fn) (surroundings : Surroundings F Fn) :
    s.Orderly surroundings ↔ s.NumbersInRange surroundings := by
  by_cases hloads : ∃ config, s.Loads surroundings config
  · obtain ⟨config, hconfig⟩ := hloads
    have hrange : s.NumbersInRange surroundings ↔ TimeoutInRange config ∧
        ∀ app, loadAppFunctions config surroundings.openApp = .ok app →
          ThreadsInRange config surroundings.hardwareConcurrency := by
      refine ⟨fun h => h config hconfig, fun h config' hconfig' => ?_⟩
      cases hconfig.unique hconfig'
      exact h
    rw [hrange]
    cases htimeout : setTerminationTimeout config s.terminationTimeout with
    | error e =>
      have hout : ¬ TimeoutInRange config := by
        rw [← setTerminationTimeout_returns_iff, htimeout]
        exact nofun
      refine iff_of_false (fun h => ?_) fun h => hout h.1
      have hreturns := h.returns
      rw [reload_of_timeout_error hconfig htimeout] at hreturns
      cases hreturns
    | ok t =>
      rw [orderly_of_loads_iff hconfig htimeout]
      have hin : TimeoutInRange config := setTerminationTimeout_returns_iff.mp ⟨t, htimeout⟩
      exact ⟨fun h => ⟨hin, h⟩, fun h => h.2⟩
  · have hnone : ∀ config, ¬ s.Loads surroundings config := not_exists.mp hloads
    refine iff_of_true ?_ fun config h => absurd h (hnone config)
    have heq := reload_of_not_loads hnone
    constructor
    · rw [heq]
    · rw [heq]
    · intro _
      rw [heq]
    · exact fun config _ h => absurd h (hnone config)
    · exact fun config _ _ _ h => absurd h (hnone config)

/-- A runner that has started and uses a file. -/
def readyRunner : Runner Unit Unit where
  configFile := some (bytes "config.ini")
  requestHandler := some { handleRequestFunction := (), config := {} }
  readyToReconfigure := true

/-- A file with a timeout that no `unsigned long` holds, and no application. -/
def hugeTimeout : Surroundings Unit Unit where
  files := fun _ => some (bytes "[system]\ntermination_timeout = 99999999999999999999\n")
  openApp := fun _ => .error pathNotSet
  hardwareConcurrency := 1

/-- After such a file, the handler is never ready again. -/
theorem not_orderly_hugeTimeout :
    ¬ ∀ (s : Runner Unit Unit) (surroundings : Surroundings Unit Unit),
      s.Orderly surroundings := by
  intro hall
  have hreturns := (hall readyRunner hugeTimeout).returns
  have hresult : (readyRunner.reload hugeTimeout).result = .error (.std .outOfRange) := by rfl
  exact nomatch hresult.symm.trans hreturns

end Runner

end Nawa.Nawarun
