import Nawa.RequestHandler.Http

/-!
# Requests and reconfigurations

Any number of requests, of the FastCGI and of the HTTP handler, and any number of calls of
`reconfigure` that replace all three members. A request copies the configuration when it arrives,
it may read a POST body over several callbacks, its connection is constructed, `handleRequest`
copies the function and the filters, and the filters are applied.

Every value is stamped with the call of `reconfigure` that brought it; the values of the start
have the stamp zero. No step looks at a stamp.
-/

namespace Nawa

/-- A value and the number of the `reconfigure` call that brought it. -/
structure Stamped (α : Type) where
  value : α
  call : Nat

/-- Where a request stands, once it has its copy of the configuration. -/
inductive Stage (F Fn : Type) where
  | reading (consumer : InputConsumingHttpHandler)
  | ready
  | constructed (conn : Connection)
  | handling (conn : Connection) (handleRequestFunction : Stamped F)
      (accessFilters : Option (Stamped (AccessFilterList Fn)))
  | handled (handleRequestFunction : Stamped F)
      (accessFilters : Option (Stamped (AccessFilterList Fn))) (invoked : Option (Stamped F))
  /-- An error response, an exception, or no answer. -/
  | failed

namespace Stage

variable {F Fn : Type}

/-- The connection, once it is constructed and until its request is handled. -/
def connection : Stage F Fn → Option Connection
  | .constructed conn | .handling conn _ _ => some conn
  | _ => none

/-- The function and the filters, once `handleRequest` has copied them. -/
def copies : Stage F Fn → Option (Stamped F × Option (Stamped (AccessFilterList Fn)))
  | .handling _ f l | .handled f l _ => some (f, l)
  | _ => none

def invoked : Stage F Fn → Option (Stamped F)
  | .handled _ _ invoked => invoked
  | _ => none

end Stage

/-- A request with its copy of the configuration. -/
structure Serving (F Fn : Type) where
  request : Request
  config : Stamped Config
  stage : Stage F Fn

structure Generations (F Fn : Type) where
  guarded : Guarded (Stamped F) (Stamped (AccessFilterList Fn)) (Stamped Config)
  calls : Nat := 0
  serving : Nat → Option (Serving F Fn) := fun _ => none

namespace Generations

variable {F Fn V : Type}

inductive Step (F Fn V : Type) where
  | lock (f : F) (l : AccessFilterList Fn) (c : Config)
  | assign (member : Member)
  | unlock
  /-- `FastcgippRequestAdapter::response` copies the configuration. -/
  | response (r : Nat) (request : Request)
  /-- `HttpHandler::operator()` copies the configuration, and goes on as `dispatch` says. -/
  | operator (r : Nat) (method : Bytes) (request : Request)
  | consume (r : Nat) (input : Bytes) (eof : Bool) (bytesTransferred : Nat)
  | construct (r : Nat) (ctx : StartContext) (store : SessionStore V)
  | snapshot (r : Nat)
  | handle (r : Nat) (env : FilterContext Fn V) (store : SessionStore V)

/-- The handler with the values of the start. -/
def init (f : F) (l : Option (AccessFilterList Fn)) (c : Config) : Generations F Fn where
  guarded := ⟨⟨⟨f, 0⟩, l.map (⟨·, 0⟩), ⟨c, 0⟩⟩, none⟩

/-- A request arrives and copies the configuration. -/
def arrive (s : Generations F Fn) (r : Nat) (request : Request) (stage : Stage F Fn) :
    Option (Generations F Fn) :=
  match s.serving r with
  | some _ => none
  | none =>
    let serving := ⟨request, s.guarded.handler.getConfig, stage⟩
    some { s with serving := Function.update s.serving r (some serving) }

/-- A request goes on to another stage. -/
def advance (s : Generations F Fn) (r : Nat)
    (next : Serving F Fn → Option (Stage F Fn)) : Option (Generations F Fn) :=
  match s.serving r with
  | none => none
  | some serving =>
    (next serving).map fun stage =>
      { s with serving := Function.update s.serving r (some { serving with stage := stage }) }

def dispatched : Dispatch → Stage F Fn
  | .handle => .ready
  | .read consumer => .reading consumer
  | .serverError | .dropped | .undefined => .failed

def consumed : Consumed → Stage F Fn
  | .serverError => .failed
  | .readMore consumer => .reading consumer
  | .complete _ => .ready

/-- The step is the arrival of a request. -/
def Step.Arrives (r : Nat) : Step F Fn V → Prop
  | .response r' _ => r' = r
  | .operator r' _ _ => r' = r
  | _ => False

def step (s : Generations F Fn) : Step F Fn V → Option (Generations F Fn)
  | .lock f l c =>
    let call := s.calls + 1
    (s.guarded.lock ⟨some ⟨f, call⟩, some ⟨l, call⟩, some ⟨c, call⟩⟩).map fun guarded =>
      { s with guarded := guarded, calls := call }
  | .assign member => (s.guarded.assign member).map fun guarded => { s with guarded := guarded }
  | .unlock => s.guarded.unlock.map fun guarded => { s with guarded := guarded }
  | .response r request => s.arrive r request .ready
  | .operator r method request =>
    s.arrive r request
      (dispatched (HttpHandler.dispatch s.guarded.handler.getConfig.value method request))
  | .consume r input eof bytesTransferred =>
    s.advance r fun serving => match serving.stage with
      | .reading consumer => some (consumed (consumer.consume input eof bytesTransferred))
      | _ => none
  | .construct r ctx store =>
    s.advance r fun serving => match serving.stage with
      | .ready =>
        match Connection.construct serving.request serving.config.value ctx store with
        | (_, conn, .ok ()) => some (.constructed conn)
        | (_, _, .error _) => some .failed
      | _ => none
  | .snapshot r =>
    s.advance r fun serving => match serving.stage, s.guarded.snapshot with
      | .constructed conn, some (f, l) => some (.handling conn f l)
      | _, _ => none
  | .handle r env store =>
    s.advance r fun serving => match serving.stage with
      | .handling conn f l =>
        let handled := RequestHandler.handleRequest env f (l.map (·.value)) store conn
        some (.handled f l handled.2)
      | _ => none

end Generations

/-- The configuration, the filters and the function of a request come from one call. -/
def Serving.Uniform {F Fn : Type} (serving : Serving F Fn) : Prop :=
  ∀ f l, serving.stage.copies = some (f, l) →
    serving.config.call = f.call ∧ ∀ filters, l = some filters → filters.call = f.call

end Nawa
