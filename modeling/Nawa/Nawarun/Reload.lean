import Nawa.RequestHandler.RequestHandler
import Nawa.Util.Stod

/-!
# The start and the reload of `nawarun`

`nawarun::run` up to the point where requests are handled, and `nawarun::reload`, one call after
the other. What the two find around them is a `Surroundings`: the files, the application with its
`init` function, and the machine. The dynamic linker decides whether an application can be loaded;
which wrapper and which functions it then has is for the application to say.
-/

namespace Nawa.Nawarun

/-- What `loadAppFunctions` answers: the wrapped request function, and `init`, which has a return
value and may change the filters and the configuration that it is given. -/
structure App (F Fn : Type) where
  handleRequest : F
  init : Config → Nat → Int × AccessFilterList Fn × Config

structure Surroundings (F Fn : Type) where
  files : Bytes → Option Bytes
  openApp : Bytes → Except Exception (App F Fn)
  hardwareConcurrency : Nat

/-- The variables of `nawarun`. -/
structure Runner (F Fn : Type) where
  configFile : Option Bytes := none
  requestHandler : Option (RequestHandler F (AccessFilterList Fn) Config) := none
  readyToReconfigure : Bool := false
  terminationTimeout : Nat := 10

variable {F Fn : Type}

/-! ## Settings -/

/-- `setTerminationTimeout`, which leaves the timeout where the value is empty or malformed. A
value out of range escapes as an exception. -/
def setTerminationTimeout (config : Config) (terminationTimeout : Nat) : Except Failure Nat :=
  let terminationTimeoutStr := config.get (bytes "system") (bytes "termination_timeout")
  if terminationTimeoutStr = [] then .ok terminationTimeout
  else
    match stoul terminationTimeoutStr with
    | .ok newTerminationTimeout => .ok (newTerminationTimeout % 2 ^ 32)
    | .error .invalidArgument => .ok terminationTimeout
    | .error e => .error (.std e)

/-- The number of threads as it is configured. -/
def threads (config : Config) : Except StdException Double :=
  if config.isSet (bytes "system", bytes "threads") then
    match stod (config.get (bytes "system") (bytes "threads")) with
    | .error .invalidArgument => .ok (.finite 1)
    | result => result
  else .ok (.finite 1)

/-- The number of threads before it is converted. -/
def cReal (config : Config) (hardwareConcurrency : Nat) : Except StdException Double :=
  (threads config).map fun c =>
    if config.get (bytes "system") (bytes "concurrency") = bytes "hardware" then
      (c.mulNat hardwareConcurrency).maxOne
    else c

def getConcurrency (config : Config) (hardwareConcurrency : Nat) : Except Failure Nat :=
  match cReal config hardwareConcurrency with
  | .error e => .error (.std e)
  | .ok c =>
    match c.toUnsigned with
    | none => .error .undefined
    | some n => .ok n

def loadConfig (configFile : Option Bytes) (files : Bytes → Option Bytes) : Option Config :=
  match configFile with
  | none => some {}
  | some path =>
    match Config.read {} (files path) with
    | .ok config => some config
    | .error _ => none

def pathNotSet : Exception := ⟨1, bytes "Application path not set in config file."⟩

def loadAppFunctions (config : Config) (openApp : Bytes → Except Exception (App F Fn)) :
    Except Exception (App F Fn) :=
  let appPath := config.get (bytes "application") (bytes "path")
  if appPath = [] then .error pathNotSet else openApp appPath

/-! ## Reloading -/

/-- The variables after a call of `reload`, whether it has returned, and the configurations that
it has loaded the application with and handed to `init`. -/
structure Reloaded (F Fn : Type) where
  runner : Runner F Fn
  result : Except Failure Unit := .ok ()
  appConfig : Option Config := none
  initConfig : Option Config := none

namespace Runner

/-- `reload`, once the configuration is loaded and the application's functions have been looked
for. The handler is ready again where the function returns. -/
def reloadApp (s : Runner F Fn) (handler : RequestHandler F (AccessFilterList Fn) Config)
    (surroundings : Surroundings F Fn) (config : Config) : Reloaded F Fn :=
  let onlyConfig : Runner F Fn :=
    { s with
      requestHandler := some (handler.reconfigure { config := some config })
      readyToReconfigure := true }
  match loadAppFunctions config surroundings.openApp with
  | .error _ => { runner := onlyConfig, appConfig := some config }
  | .ok app =>
    match getConcurrency config surroundings.hardwareConcurrency with
    | .error e => { runner := s, result := .error e, appConfig := some config }
    | .ok concurrency =>
      let (initReturn, accessFilters, initialized) := app.init config concurrency
      { runner :=
          if initReturn ≠ 0 then onlyConfig
          else
            { s with
              requestHandler := some
                (handler.reconfigure ⟨some app.handleRequest, some accessFilters, some initialized⟩)
              readyToReconfigure := true }
        appConfig := some config
        initConfig := some config }

/-- `nawarun::reload`. -/
def reload (s : Runner F Fn) (surroundings : Surroundings F Fn) : Reloaded F Fn :=
  match s.configFile, s.requestHandler, s.readyToReconfigure with
  | some path, some handler, true =>
    let s := { s with readyToReconfigure := false }
    match loadConfig (some path) surroundings.files with
    | none => { runner := { s with readyToReconfigure := true } }
    | some config =>
      match setTerminationTimeout config s.terminationTimeout with
      | .error e => { runner := s, result := .error e }
      | .ok terminationTimeout =>
        reloadApp { s with terminationTimeout := terminationTimeout } handler surroundings config
  | _, _, _ => { runner := s }

/-- The calls of `reload` one after the other, each with the variables that it finds. A call that
does not return is the last one. -/
def turns : Runner F Fn → List (Surroundings F Fn) → List (Runner F Fn × Surroundings F Fn)
  | _, [] => []
  | s, surroundings :: rest =>
    (s, surroundings) ::
      match (s.reload surroundings).result with
      | .ok () => turns (s.reload surroundings).runner rest
      | .error _ => []

end Runner

/-! ## Starting -/

/-- The command line. -/
structure Parameters where
  configFile : Option Bytes := none
  configOverrides : List ((Bytes × Bytes) × Bytes) := []

/-- What `run` finds besides: whether privileges can be dropped, and how far the request handler
of the configured type gets. -/
structure StartSurroundings (F Fn : Type) extends Surroundings F Fn where
  downgradePrivileges : Config → Bool
  newRequestHandler : Config → Nat → Except Exception Unit
  start : Except Exception Unit

/-- `nawarun::run`: the variables while requests are handled, if it gets there. -/
def run (parameters : Parameters) (surroundings : StartSurroundings F Fn) :
    Option (Runner F Fn) :=
  match loadConfig parameters.configFile surroundings.files with
  | none => none
  | some config =>
    let config := config.override parameters.configOverrides
    match setTerminationTimeout config 10, surroundings.downgradePrivileges config,
        loadAppFunctions config surroundings.openApp,
        getConcurrency config surroundings.hardwareConcurrency with
    | .ok terminationTimeout, true, .ok app, .ok concurrency =>
      match surroundings.newRequestHandler config concurrency, app.init config concurrency,
          surroundings.start with
      | .ok (), (0, accessFilters, initialized), .ok () =>
        let handler : RequestHandler F (AccessFilterList Fn) Config :=
          { handleRequestFunction := app.handleRequest, config := config }
        some
          { configFile := parameters.configFile
            requestHandler := some (handler.reconfigure
              { accessFilters := some accessFilters, config := some initialized })
            readyToReconfigure := true
            terminationTimeout := terminationTimeout }
      | _, _, _ => none
    | _, _, _, _ => none

end Nawa.Nawarun
