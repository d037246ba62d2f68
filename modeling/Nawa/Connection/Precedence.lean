import Nawa.Connection.ApplyFilters
import Nawa.Lib.FirstMatch

/-!
# The precedence of filters

What the documentation promises of access filters, in its own terms: which filters apply to a
path, and how the first of them that does decides. Nothing here follows the loops of
`applyFilters`; only the answer of a stage to a single filter (a file that is sent, a session that
is started, credentials that are read) is taken from the model.
-/

namespace Nawa

open Lib.FirstMatch

namespace AccessFilter

/-- All conditions that are configured match. -/
structure Matches (flt : AccessFilter) (requestPath : List Bytes) : Prop where
  path : flt.pathFilter ≠ [] →
    ((∃ path ∈ flt.pathFilter, path <+: requestPath) ↔ flt.invertPathFilter = false)
  extension : flt.extensionFilter ≠ [] → ∀ filename ∈ requestPath.getLast?,
    (utils.getFileExtension filename ∈ flt.extensionFilter ↔ flt.invertExtensionFilter = false)
  regex : flt.regexFilterEnabled = true → flt.regexFilter (pathString requestPath) = true

/-- A filter applies where it matches, and an inverted one where it does not. -/
def Applicable (flt : AccessFilter) (requestPath : List Bytes) : Prop :=
  flt.Matches requestPath ↔ flt.invert = false

end AccessFilter

namespace Connection

variable {Fn V : Type}

/-- The filter at a position is the first of its list that applies. -/
def FirstApplicable {Flt : Type} (toAccessFilter : Flt → AccessFilter) (requestPath : List Bytes)
    (filters : List Flt) (n : Nat) (flt : Flt) : Prop :=
  IsFirst (fun flt => (toAccessFilter flt).Applicable requestPath) filters n flt

def NoneApplicable {Flt : Type} (toAccessFilter : Flt → AccessFilter) (requestPath : List Bytes)
    (filters : List Flt) : Prop :=
  ∀ flt ∈ filters, ¬ (toAccessFilter flt).Applicable requestPath

/-- An answer with the response of a filter, or with the generated page where it has none. The
rest of the connection stays. -/
def Answers (status : Nat) (response : Bytes) (conn conn' : Connection) : Prop :=
  conn' =
    { conn with
      responseStatus := status
      bodyString := if response ≠ [] then response else utils.generateErrorPage status
      responseStream := [] }

/-! ## Forward filters -/

/-- The first forward filter that applies sends its file, or answers with 404. -/
structure ForwardDecision (env : FilterContext Fn V) (filters : List ForwardFilter)
    (requestPath : List Bytes) (conn conn' : Connection) (events : List (FilterEvent Fn))
    (filtered : Bool) : Prop where
  first : ∀ n flt, FirstApplicable ForwardFilter.toAccessFilter requestPath filters n flt →
    filtered = true ∧ ∃ path, forwardPath flt requestPath = some path ∧
      events = [.sentFile flt path] ∧
      (conn.sendFile env.files path [] false [] true = .ok conn' ∨
        env.files path = none ∧ Answers 404 flt.response conn conn')
  none : NoneApplicable ForwardFilter.toAccessFilter requestPath filters →
    filtered = false ∧ conn' = conn ∧ events = []

/-! ## Authentication filters -/

/-- The store and the connection once the filter has started its session, if it uses one. -/
def sessionStarted (env : FilterContext Fn V) (flt : AuthFilter Fn) (store : SessionStore V)
    (conn : Connection) : SessionStore V × Connection :=
  if flt.useSessions then
    ((conn.startSession env.start {} store).1, (conn.startSession env.start {} store).2.1)
  else (store, conn)

/-- The session of the request remembers that the filter at a position has been passed. -/
def Remembered (env : FilterContext Fn V) (n : Nat) (flt : AuthFilter Fn)
    (store : SessionStore V) (conn : Connection) : Prop :=
  flt.useSessions = true ∧
    (sessionStarted env flt store conn).2.session.isSet (sessionStarted env flt store conn).1
      (sessionVarKey n) = true

/-- The function of the filter accepts the credentials that the request carries. -/
def Accepted (env : FilterContext Fn V) (flt : AuthFilter Fn) (request : Request)
    (username : Bytes) : Prop :=
  ∃ authFunction password, flt.authFunction = some authFunction ∧
    parseCredentials (request.envVar (bytes "authorization")) = .ok (some (username, password)) ∧
    env.invoke authFunction username password = true

/-- The client is asked for credentials: the status 401, and a challenge that names the realm of
the filter where it has one. The rest of the connection stays. -/
structure AsksForCredentials (authName : Bytes) (conn conn' : Connection) : Prop where
  status : conn'.responseStatus = 401
  challenge : conn'.headers.lookup (bytes "www-authenticate") =
    some [if authName = [] then bytes "Basic"
      else bytes "Basic realm=" ++ quote :: authName ++ [quote]]
  headers : ∀ key ≠ bytes "www-authenticate", conn'.headers.lookup key = conn.headers.lookup key
  rest : conn' = { conn with responseStatus := 401, headers := conn'.headers }

/-- What the authentication filter at a position, whose turn it is, makes of a request. -/
structure AuthDecision (env : FilterContext Fn V) (filters : AccessFilterList Fn) (n : Nat)
    (flt : AuthFilter Fn) (store : SessionStore V) (conn : Connection) (after : Filtered Fn V)
    (filtered : Bool) : Prop where
  /-- No function but that of the filter is called. -/
  asked : ∀ m g authFunction username password accepted,
    .asked m g authFunction username password accepted ∈ after.events →
      m = n ∧ g = flt ∧ flt.authFunction = some authFunction
  unauthenticated : ¬ Remembered env n flt store conn →
    conn.request.envVar (bytes "authorization") = [] →
      filtered = true ∧ after.events = [] ∧
        AsksForCredentials flt.authName (sessionStarted env flt store conn).2 after.connection
  denied : ¬ Remembered env n flt store conn →
    conn.request.envVar (bytes "authorization") ≠ [] →
    (∀ username, ¬ Accepted env flt conn.request username) →
      filtered = true ∧ (∀ g path, .sentFile g path ∉ after.events) ∧
        Answers 403 flt.response (sessionStarted env flt store conn).2 after.connection
  /-- A filter that is passed leaves the request to the forward filters. -/
  remembered : Remembered env n flt store conn →
    after.store = (sessionStarted env flt store conn).1 ∧
    ∃ events, after.events = .passedBySession n flt :: events ∧
      ForwardDecision env filters.forwardFilters conn.request.getRequestPath
        (sessionStarted env flt store conn).2 after.connection events filtered
  accepted : ∀ username, ¬ Remembered env n flt store conn →
    conn.request.envVar (bytes "authorization") ≠ [] →
    Accepted env flt conn.request username →
      (if flt.useSessions then
          (sessionStarted env flt store conn).2.session.set (sessionVarKey n) (env.any username)
            (sessionStarted env flt store conn).1 = .ok after.store
        else after.store = store) ∧
      ∃ authFunction password events,
        after.events = .asked n flt authFunction username password true :: events ∧
        ForwardDecision env filters.forwardFilters conn.request.getRequestPath
          (sessionStarted env flt store conn).2 after.connection events filtered

/-! ## All filters -/

/-- The documented order: block filters, then authentication, then forwarding. -/
structure Precedence (env : FilterContext Fn V) (filters : AccessFilterList Fn)
    (store : SessionStore V) (conn : Connection) (after : Filtered Fn V) (filtered : Bool) :
    Prop where
  disabled : filters.filtersEnabled = false →
    filtered = false ∧ after.store = store ∧ after.connection = conn ∧ after.events = []
  block : filters.filtersEnabled = true → ∀ n flt,
    FirstApplicable BlockFilter.toAccessFilter conn.request.getRequestPath filters.blockFilters
      n flt →
    filtered = true ∧ after.store = store ∧ after.events = [.blocked flt] ∧
      Answers flt.status flt.response conn after.connection
  auth : filters.filtersEnabled = true →
    NoneApplicable BlockFilter.toAccessFilter conn.request.getRequestPath filters.blockFilters →
    ∀ n flt,
      FirstApplicable AuthFilter.toAccessFilter conn.request.getRequestPath filters.authFilters
        n flt →
      AuthDecision env filters n flt store conn after filtered
  forward : filters.filtersEnabled = true →
    NoneApplicable BlockFilter.toAccessFilter conn.request.getRequestPath filters.blockFilters →
    NoneApplicable AuthFilter.toAccessFilter conn.request.getRequestPath filters.authFilters →
      after.store = store ∧
        ForwardDecision env filters.forwardFilters conn.request.getRequestPath conn
          after.connection after.events filtered

end Connection

end Nawa
