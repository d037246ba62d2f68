import Nawa.Lib.Owners
import Nawa.RequestHandler.RequestHandler

/-!
# Apps, reloads and requests

Who holds a `HandleRequestFunctionWrapper` while a nawarun process handles requests. A wrapper
owns one loaded app, and its destruction unloads the app; wrappers and apps are numbered as they
are loaded, and `owners.destroyed` are the apps unloaded so far. A list of access filters stands
for the app whose `init` has made it, since it holds functions of that app.

The steps are those of `nawarun::reload`, with the assignments of `RequestHandler::reconfigure`
one by one, and of `RequestHandler::handleRequest`. A signal may come while a reload is under way:
what keeps a second one out is the flag that `reload` reads first and clears next.

Shutdown is left out: `run` keeps its pointer to the app that it has started with.
-/

namespace Nawa

/-- The `shared_ptr` objects that point to wrappers. -/
inductive WrapperPtr where
  /-- `data->handleRequestFunction`. -/
  | handler
  /-- The local `appHandleRequest` of `run`. -/
  | run
  /-- The local `handleRequestFunction` of a `handleRequest` call. -/
  | request (r : Nat)
  /-- The local `appHandleRequest` of a `reload` call. -/
  | reload (i : Nat)
  /-- The argument with which a `reload` call calls `reconfigure`. -/
  | argument (i : Nat)
  deriving DecidableEq

/-- Where a call of `handleRequest` stands, with what its locals point to. -/
inductive RequestStage where
  /-- From the copies to the return of what the request calls. -/
  | running (app : Nat) (filters : Option Nat)
  /-- The filters are dropped, the function is not. -/
  | returning (app : Nat)
  | returned
  deriving DecidableEq

/-- Where a call of `reload` stands. -/
inductive ReloadStage where
  /-- The flag has been read. -/
  | entered
  | started
  | configured (config : Config)
  | loaded (config : Config) (app : Nat)
  /-- The arguments of `reconfigure` are made, the mutex is still to be taken. -/
  | reconfiguring (r : Reconfiguration Nat Nat Config)
  | writing
  /-- The mutex is given back, the arguments are still to be destroyed. -/
  | reconfigured
  /-- The flag is set again, the locals are still to be destroyed. -/
  | leaving
  | returned

structure Lifetimes where
  guarded : Guarded Nat Nat Config
  owners : Lib.Owners WrapperPtr Nat
  /-- The number of apps loaded so far. -/
  loads : Nat
  readyToReconfigure : Bool
  request : Nat → Option RequestStage := fun _ => none
  reload : Nat → Option ReloadStage := fun _ => none

namespace Lifetimes

/-- The steps of a `reload` call. -/
inductive ReloadStep where
  | start
  | loadConfig (config : Option Config)
  | loadApp (success : Bool)
  /-- The app's `init` has returned, with the configuration that it may have altered. -/
  | init (success : Bool) (config : Config)
  | lock
  | assign (member : Member)
  | unlock
  | ready
  | leave

inductive Step where
  /-- `handleRequest` copies function and filters. -/
  | snapshot (r : Nat)
  /-- What the request calls has returned, and the local `accessFilters` is destroyed. -/
  | dropFilters (r : Nat)
  /-- The local `handleRequestFunction` is destroyed. -/
  | dropFunction (r : Nat)
  /-- A signal has come, and `reload` has read the flag. -/
  | signal (i : Nat)
  | reload (i : Nat) (step : ReloadStep)

/-- The state in which `run` starts request handling: the wrapper of the first app is in the
handler and in `run`, and filters and configuration have been set after the app's `init`. -/
def init (config config' : Config) : Lifetimes where
  guarded :=
    { handler := (RequestHandler.mk 0 none config : RequestHandler Nat Nat Config).reconfigure
        { accessFilters := some 0, config := some config' } }
  owners := (({} : Lib.Owners WrapperPtr Nat).point .run 0).point .handler 0
  loads := 1
  readyToReconfigure := true

def setRequest (s : Lifetimes) (r : Nat) (stage : RequestStage) : Nat → Option RequestStage :=
  Function.update s.request r (some stage)

def setReload (s : Lifetimes) (i : Nat) (stage : ReloadStage) : Nat → Option ReloadStage :=
  Function.update s.reload i (some stage)

/-! ## Requests -/

def stepSnapshot (s : Lifetimes) (r : Nat) : Option Lifetimes :=
  match s.request r, s.guarded.snapshot with
  | none, some (app, filters) =>
    some { s with
      owners := s.owners.point (.request r) app
      request := s.setRequest r (.running app filters) }
  | _, _ => none

def stepDropFilters (s : Lifetimes) (r : Nat) : Option Lifetimes :=
  match s.request r with
  | some (.running app _) => some { s with request := s.setRequest r (.returning app) }
  | _ => none

def stepDropFunction (s : Lifetimes) (r : Nat) : Option Lifetimes :=
  match s.request r with
  | some (.returning _) =>
    some { s with
      owners := s.owners.drop (.request r)
      request := s.setRequest r .returned }
  | _ => none

/-! ## Reloads -/

def stepSignal (s : Lifetimes) (i : Nat) : Option Lifetimes :=
  match s.reload i, s.readyToReconfigure with
  | none, true => some { s with reload := s.setReload i .entered }
  | _, _ => none

/-- A step of a reload from the stage in which it is. -/
def stepReload (s : Lifetimes) (i : Nat) : ReloadStage → ReloadStep → Option Lifetimes
  | .entered, .start =>
    some { s with readyToReconfigure := false, reload := s.setReload i .started }
  | .started, .loadConfig none =>
    some { s with readyToReconfigure := true, reload := s.setReload i .leaving }
  | .started, .loadConfig (some config) =>
    some { s with reload := s.setReload i (.configured config) }
  | .configured config, .loadApp false =>
    some { s with reload := s.setReload i (.reconfiguring { config := some config }) }
  | .configured config, .loadApp true =>
    some { s with
      owners := s.owners.point (.reload i) s.loads
      loads := s.loads + 1
      reload := s.setReload i (.loaded config s.loads) }
  | .loaded config _, .init false _ =>
    some { s with reload := s.setReload i (.reconfiguring { config := some config }) }
  | .loaded _ app, .init true config =>
    some { s with
      owners := s.owners.point (.argument i) app
      reload := s.setReload i (.reconfiguring ⟨some app, some app, some config⟩) }
  | .reconfiguring r, .lock =>
    (s.guarded.lock r).map fun guarded =>
      { s with guarded := guarded, reload := s.setReload i .writing }
  | .writing, .assign member =>
    (s.guarded.assign member).map fun guarded =>
      { s with
        guarded := guarded
        owners :=
          if member = .handleRequestFunction then
            s.owners.point .handler guarded.handler.handleRequestFunction
          else s.owners }
  | .writing, .unlock =>
    s.guarded.unlock.map fun guarded =>
      { s with guarded := guarded, reload := s.setReload i .reconfigured }
  | .reconfigured, .ready =>
    some { s with
      owners := s.owners.drop (.argument i)
      readyToReconfigure := true
      reload := s.setReload i .leaving }
  | .leaving, .leave =>
    some { s with
      owners := s.owners.drop (.reload i)
      reload := s.setReload i .returned }
  | _, _ => none

def step (s : Lifetimes) : Step → Option Lifetimes
  | .snapshot r => s.stepSnapshot r
  | .dropFilters r => s.stepDropFilters r
  | .dropFunction r => s.stepDropFunction r
  | .signal i => s.stepSignal i
  | .reload i step =>
    match s.reload i with
    | some stage => s.stepReload i stage step
    | none => none

end Lifetimes

end Nawa
