import Nawa.RequestHandler.RequestHandler
import Nawa.Session.Interleaving

/-!
# Authentication that sessions remember

Requests on any number of sessions, with the filters that each of them has copied, and
reconfigurations that install new filters at run time. The authentication stage of `applyFilters`
is split where it enters a critical section of the session store: it starts the session, it looks
the session variable of the filter up, it asks the function of the filter, it sets the variable.
What happens to the store in between is up to the other requests.

A request is the connection of the same number in `Session.System`. Its own session calls are
those of its constructor, of the filters, and of the application once the filters have let it
pass. The log records whom a function has accepted and whom a session variable has let pass, each
with the session object at that time.
-/

namespace Nawa

/-- What the authentication of a request has come to. -/
inductive AuthEvent (Fn : Type) where
  /-- The function has answered `true`. -/
  | accepted (r : Nat) (a : Option Nat) (authFunction : Fn)
  /-- The filter has let the request pass because the session variable is set. -/
  | passed (r : Nat) (a : Nat) (flt : AuthFilter Fn)

/-- Where a request stands, with the filter that applies to it and the position of the filter. -/
inductive AuthStage (Fn : Type) where
  | constructing
  | copied (l : Option (AccessFilterList Fn))
  | starting (l : AccessFilterList Fn) (n : Nat) (flt : AuthFilter Fn)
  | asking (l : AccessFilterList Fn) (n : Nat) (flt : AuthFilter Fn)
  | accepted (l : AccessFilterList Fn) (n : Nat) (flt : AuthFilter Fn) (username : Bytes)
  | forwarding (l : AccessFilterList Fn)
  /-- The application has the request. -/
  | serving
  /-- The filters have answered the request, or it has failed. -/
  | finished

namespace AuthStage

variable {Fn V : Type}

/-- The session calls that a request makes in a stage, apart from those of its own step. -/
def permits : AuthStage Fn → Session.Step V → Bool
  | .constructing, .start .. | .constructing, .create .. => true
  | .starting .., .start .. | .starting .., .create .. => true
  | .serving, _ => true
  | _, _ => false

/-- The filters up to the authentication filter that applies. -/
def enter (l : Option (AccessFilterList Fn)) (request : Request) : AuthStage Fn :=
  match l with
  | none => .serving
  | some l =>
    if !l.filtersEnabled then .serving
    else
      match Connection.findApplicable BlockFilter.toAccessFilter request.getRequestPath 0
          l.blockFilters with
      | .error _ | .ok (some _) => .finished
      | .ok none =>
        match Connection.findApplicable AuthFilter.toAccessFilter request.getRequestPath 0
            l.authFilters with
        | .error _ => .finished
        | .ok none => .forwarding l
        | .ok (some (n, flt)) => if flt.useSessions then .starting l n flt else .asking l n flt

/-- The forward filters. -/
def forward (l : AccessFilterList Fn) (request : Request) : AuthStage Fn :=
  match Connection.findApplicable ForwardFilter.toAccessFilter request.getRequestPath 0
      l.forwardFilters with
  | .ok none => .serving
  | _ => .finished

end AuthStage

structure Authentication (F Fn C V : Type) where
  guarded : Guarded F (AccessFilterList Fn) C
  sessions : Session.System V := .init
  request : Nat → Option (Request × AuthStage Fn) := fun _ => none
  log : List (AuthEvent Fn) := []

namespace Authentication

variable {F Fn C V : Type}

inductive Step (F Fn C V : Type) where
  | lock (r : Reconfiguration F (AccessFilterList Fn) C)
  | assign (member : Member)
  | unlock
  | collectGarbage (time : Bytes → Int)
  | arrive (r : Nat) (request : Request)
  | session (r : Nat) (l : Session.Step V)
  | snapshot (r : Nat)
  | filter (r : Nat)
  | check (r : Nat)
  /-- `invoke` says what functions of authentication filters answer. -/
  | ask (r : Nat) (invoke : Fn → Bytes → Bytes → Bool)
  /-- `any` is the `std::any` of a string. -/
  | remember (r : Nat) (any : Bytes → V)
  | forward (r : Nat)

def setStage (s : Authentication F Fn C V) (r : Nat) (request : Request)
    (stage : AuthStage Fn) : Nat → Option (Request × AuthStage Fn) :=
  Function.update s.request r (some (request, stage))

/-- The look at the session variable, once the session is started. -/
def stepCheck (s : Authentication F Fn C V) (r : Nat) (request : Request)
    (l : AccessFilterList Fn) (n : Nat) (flt : AuthFilter Fn) :
    Option (Authentication F Fn C V) :=
  match (s.sessions.session r).currentData, s.sessions.creating r with
  | some a, none =>
    if (s.sessions.session r).isSet s.sessions.store (Connection.sessionVarKey n) then
      some { s with
        request := s.setStage r request (.forwarding l)
        log := s.log ++ [.passed r a flt] }
    else some { s with request := s.setStage r request (.asking l n flt) }
  | _, _ => none

/-- The question to the function of the filter. -/
def stepAsk (s : Authentication F Fn C V) (r : Nat) (request : Request)
    (invoke : Fn → Bytes → Bytes → Bool) (l : AccessFilterList Fn) (n : Nat)
    (flt : AuthFilter Fn) : Authentication F Fn C V :=
  match Connection.checkCredentials invoke flt request with
  | .answered authFunction username _ true =>
    { s with
      request := s.setStage r request
        (if flt.useSessions then .accepted l n flt username else .forwarding l)
      log := s.log ++ [.accepted r (s.sessions.session r).currentData authFunction] }
  | _ => { s with request := s.setStage r request .finished }

/-- A step of a request, from the stage in which it is. -/
def stepRequest (s : Authentication F Fn C V) (r : Nat) (request : Request) :
    AuthStage Fn → Step F Fn C V → Option (Authentication F Fn C V)
  | .constructing, .snapshot _ =>
    s.guarded.snapshot.map fun copies =>
      { s with request := s.setStage r request (.copied copies.2) }
  | .copied l, .filter _ =>
    some { s with request := s.setStage r request (.enter l request) }
  | .starting l n flt, .check _ => s.stepCheck r request l n flt
  | .asking l n flt, .ask _ invoke => some (s.stepAsk r request invoke l n flt)
  | .accepted l n _ username, .remember _ any =>
    (s.sessions.step (.set r (Connection.sessionVarKey n) (any username))).map fun sessions =>
      { s with sessions := sessions, request := s.setStage r request (.forwarding l) }
  | .forwarding l, .forward _ =>
    some { s with request := s.setStage r request (.forward l request) }
  | stage, .session _ l =>
    if l.connection = some r ∧ stage.permits l then
      (s.sessions.step l).map fun sessions => { s with sessions := sessions }
    else none
  | _, _ => none

/-- The request that makes the step. -/
def Step.request : Step F Fn C V → Option Nat
  | .session r _ | .snapshot r | .filter r | .check r | .ask r _ | .remember r _ | .forward r =>
    some r
  | _ => none

def step (s : Authentication F Fn C V) : Step F Fn C V → Option (Authentication F Fn C V)
  | .lock r => (s.guarded.lock r).map fun guarded => { s with guarded := guarded }
  | .assign member => (s.guarded.assign member).map fun guarded => { s with guarded := guarded }
  | .unlock => s.guarded.unlock.map fun guarded => { s with guarded := guarded }
  | .collectGarbage time =>
    (s.sessions.step (.collectGarbage time)).map fun sessions => { s with sessions := sessions }
  | .arrive r request =>
    match s.request r with
    | none => some { s with request := s.setStage r request .constructing }
    | some _ => none
  | a =>
    match a.request.bind fun r => (s.request r).map (r, ·) with
    | some (r, request, stage) => s.stepRequest r request stage a
    | none => none

end Authentication

end Nawa
