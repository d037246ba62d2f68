import Nawa.Connection.ApplyFilters

/-!
# `nawa::RequestHandler`

What a request handler holds, its reconfiguration, and the handling of a request. The three
shared pointers may point at anything here: the types `F`, `L`, `C` stand for the wrapped handler
function, the filter list and the configuration, and nothing in the handler looks inside them but
`applyFilters`.

`Guarded` is the handler with its mutex, for a handler that several threads use. `reconfigure`
makes its assignments one by one while it holds the mutex; `handleRequest` copies two of the
pointers under the mutex; `getConfig` copies the third one without it.
-/

namespace Nawa

/-- `RequestHandler::Data`, without the mutex. -/
structure RequestHandler (F L C : Type) where
  handleRequestFunction : F
  accessFilters : Option L := none
  config : C

/-- The members of `RequestHandler::Data` that can be replaced. -/
inductive Member where
  | handleRequestFunction
  | accessFilters
  | config
  deriving DecidableEq

/-- An assignment to a member. -/
inductive Assignment (F L C : Type) where
  | handleRequestFunction (f : F)
  | accessFilters (l : L)
  | config (c : C)

def Assignment.member {F L C : Type} : Assignment F L C → Member
  | .handleRequestFunction _ => .handleRequestFunction
  | .accessFilters _ => .accessFilters
  | .config _ => .config

/-- The arguments of `reconfigure`; what is not given stays as it is. -/
structure Reconfiguration (F L C : Type) where
  handleRequestFunction : Option F := none
  accessFilters : Option L := none
  config : Option C := none

variable {F L C Fn V : Type}

/-- The assignments of `reconfigure`, in their order. -/
def Reconfiguration.assignments (r : Reconfiguration F L C) : List (Assignment F L C) :=
  (r.handleRequestFunction.map .handleRequestFunction).toList ++
    (r.accessFilters.map .accessFilters).toList ++ (r.config.map .config).toList

namespace RequestHandler

def assign (handler : RequestHandler F L C) : Assignment F L C → RequestHandler F L C
  | .handleRequestFunction f => { handler with handleRequestFunction := f }
  | .accessFilters l => { handler with accessFilters := some l }
  | .config c => { handler with config := c }

def setAppRequestHandler (handler : RequestHandler F L C) (f : F) : RequestHandler F L C :=
  handler.assign (.handleRequestFunction f)

def setAccessFilters (handler : RequestHandler F L C) (l : L) : RequestHandler F L C :=
  handler.assign (.accessFilters l)

def setConfig (handler : RequestHandler F L C) (c : C) : RequestHandler F L C :=
  handler.assign (.config c)

def getConfig (handler : RequestHandler F L C) : C := handler.config

def reconfigure (handler : RequestHandler F L C) (r : Reconfiguration F L C) :
    RequestHandler F L C :=
  r.assignments.foldl assign handler

/-- `handleRequest`, once it has copied the function and the filters: what the filters did, and
the function, where it is invoked. -/
def handleRequest (env : FilterContext Fn V) (handleRequestFunction : F)
    (accessFilters : Option (AccessFilterList Fn)) (store : SessionStore V)
    (conn : Connection) : Filtered Fn V × Option F :=
  match accessFilters with
  | none => (⟨store, conn, [], .ok false⟩, some handleRequestFunction)
  | some accessFilters =>
    let filtered := conn.applyFilters env accessFilters store
    match filtered.result with
    | .ok false => (filtered, some handleRequestFunction)
    | _ => (filtered, none)

end RequestHandler

/-! ## The handler and its mutex -/

/-- A handler and, while a thread holds its mutex to write, the assignments still to be made. -/
structure Guarded (F L C : Type) where
  handler : RequestHandler F L C
  writer : Option (List (Assignment F L C)) := none

namespace Guarded

/-- `reconfigure` takes the mutex. -/
def lock (g : Guarded F L C) (r : Reconfiguration F L C) : Option (Guarded F L C) :=
  match g.writer with
  | none => some { g with writer := some r.assignments }
  | some _ => none

/-- `reconfigure` makes its next assignment, which is one to the member. -/
def assign (g : Guarded F L C) (member : Member) : Option (Guarded F L C) :=
  match g.writer with
  | some (a :: pending) =>
    if a.member = member then some ⟨g.handler.assign a, some pending⟩ else none
  | _ => none

/-- `reconfigure` gives the mutex back. -/
def unlock (g : Guarded F L C) : Option (Guarded F L C) :=
  match g.writer with
  | some [] => some { g with writer := none }
  | _ => none

/-- The two copies of `handleRequest`. They are made under the shared mutex, which keeps writers
out and nobody else, so that nothing can come between them. -/
def snapshot (g : Guarded F L C) : Option (F × Option L) :=
  match g.writer with
  | none => some (g.handler.handleRequestFunction, g.handler.accessFilters)
  | some _ => none

end Guarded

end Nawa
