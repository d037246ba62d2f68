import Nawa.Connection.SendFile
import Nawa.Connection.SessionCookie
import Nawa.Filter.AccessFilter
import Nawa.Util.Encoding

/-!
# `Connection::applyFilters`

The three stages of the filters: block, authentication, forward. Besides the connection and the
store after the call, and whether the request has been filtered, the model keeps the events that
a reader of the source would want to see: which filter blocked, which authentication was passed
how, and which file was sent on behalf of which filter.
-/

namespace Nawa

/-- What a run of the filters did. -/
inductive FilterEvent (Fn : Type) where
  | blocked (flt : BlockFilter)
  /-- The filter at a position was passed because its session variable is set. -/
  | passedBySession (n : Nat) (flt : AuthFilter Fn)
  /-- The function of the filter at a position was called. -/
  | asked (n : Nat) (flt : AuthFilter Fn) (authFunction : Fn) (username password : Bytes)
      (accepted : Bool)
  | sentFile (flt : ForwardFilter) (path : Bytes)

/-- What `applyFilters` finds around it: the files, the surroundings of a session start, the
answers of authentication functions, and `std::any` of a string. -/
structure FilterContext (Fn V : Type) where
  files : FileSystem
  start : StartContext
  invoke : Fn → Bytes → Bytes → Bool
  any : Bytes → V

/-- The state after a stage of the filters, its events, and its answer. -/
structure Filtered (Fn V : Type) where
  store : SessionStore V
  connection : Connection
  events : List (FilterEvent Fn)
  result : Except Failure Bool

namespace Connection

variable {Fn V : Type}

/-- The first filter of a list that applies to the request, with its position. -/
def findApplicable {F : Type} (toAccessFilter : F → AccessFilter) (requestPath : List Bytes) :
    Nat → List F → Except Failure (Option (Nat × F))
  | _, [] => .ok none
  | n, flt :: rest =>
    match (toAccessFilter flt).applies requestPath with
    | none => .error .undefined
    | some true => .ok (some (n, flt))
    | some false => findApplicable toAccessFilter requestPath (n + 1) rest

/-- A status with the filter's own response, or with a generated page. -/
def errorResponse (conn : Connection) (status : Nat) (response : Bytes) : Connection :=
  (conn.setStatus status).setResponseBody
    (if response ≠ [] then response else utils.generateErrorPage status)

/-! ## Authentication -/

/-- The session variable of the filter at a position. -/
def sessionVarKey (authFilterID : Nat) : Bytes :=
  bytes "_nawa_authfilter" ++ decimal authFilterID

/-- The username and the password of an authorization header. An element that the header does
not have is out of range. -/
def parseCredentials (authorization : Bytes) : Except Failure (Option (Bytes × Bytes)) :=
  let credentials (encoded : Bytes) : Option (Bytes × Bytes) :=
    match utils.splitString (encoding.base64Decode encoded) ':'.toUInt8 true with
    | [username, password] => some (username, password)
    | _ => none
  match utils.splitString authorization ' '.toUInt8 true with
  | [] => .error (.std .outOfRange)
  | [scheme] => if scheme = bytes "Basic" then .error (.std .outOfRange) else .ok none
  | [_, encoded] => .ok (credentials encoded)
  | scheme :: encoded :: _ =>
    if scheme = bytes "Basic" then .ok (credentials encoded) else .ok none

def requestAuthentication (conn : Connection) (authName : Bytes) : Connection :=
  (conn.setStatus 401).setHeader (bytes "www-authenticate")
    (bytes "Basic" ++
      if authName ≠ [] then bytes " realm=" ++ [quote] ++ authName ++ [quote] else [])

/-- What the credentials of a request come to. -/
inductive CredentialsCheck (Fn : Type) where
  /-- The client has sent no authorization header. -/
  | missing
  | failed (e : Failure)
  /-- There is no pair of credentials, or the filter has no function. -/
  | unusable
  | answered (authFunction : Fn) (username password : Bytes) (accepted : Bool)
  deriving DecidableEq

/-- The credentials of a request, against the function of a filter. -/
def checkCredentials (invoke : Fn → Bytes → Bytes → Bool) (flt : AuthFilter Fn)
    (request : Request) : CredentialsCheck Fn :=
  let authorization := request.envVar (bytes "authorization")
  if authorization = [] then .missing
  else
    match parseCredentials authorization with
    | .error e => .failed e
    | .ok none => .unusable
    | .ok (some (username, password)) =>
      match flt.authFunction with
      | none => .unusable
      | some authFunction =>
        .answered authFunction username password (invoke authFunction username password)

/-- Authentication by credentials, once the session variable has not helped. The answer is
whether the request goes on to the forward filters. -/
def authenticate (env : FilterContext Fn V) (n : Nat) (flt : AuthFilter Fn)
    (store : SessionStore V) (conn : Connection) : Filtered Fn V :=
  let denied := conn.errorResponse 403 flt.response
  match checkCredentials env.invoke flt conn.request with
  | .missing => ⟨store, conn.requestAuthentication flt.authName, [], .ok false⟩
  | .failed e => ⟨store, conn, [], .error e⟩
  | .unusable => ⟨store, denied, [], .ok false⟩
  | .answered authFunction username password accepted =>
    let events := [.asked n flt authFunction username password accepted]
    if !accepted then ⟨store, denied, events, .ok false⟩
    else if flt.useSessions then
      match conn.session.set (sessionVarKey n) (env.any username) store with
      | .ok store => ⟨store, conn, events, .ok true⟩
      | .error e => ⟨store, conn, events, .error e⟩
    else ⟨store, conn, events, .ok true⟩

/-- The authentication stage for the filter at a position. -/
def authStage (env : FilterContext Fn V) (n : Nat) (flt : AuthFilter Fn)
    (store : SessionStore V) (conn : Connection) : Filtered Fn V :=
  if flt.useSessions then
    match conn.startSession env.start {} store with
    | (store, conn, .error e) => ⟨store, conn, [], .error e⟩
    | (store, conn, .ok ()) =>
      if conn.session.isSet store (sessionVarKey n) then
        ⟨store, conn, [.passedBySession n flt], .ok true⟩
      else authenticate env n flt store conn
  else authenticate env n flt store conn

/-! ## Forwarding -/

/-- The path of the file that a filter forwards to. -/
def forwardPath (flt : ForwardFilter) (requestPath : List Bytes) : Option Bytes :=
  match flt.basePathExtension with
  | .byPath => some (flt.basePath ++ AccessFilter.pathString requestPath)
  | .byFilename =>
    requestPath.getLast?.map fun filename => flt.basePath ++ '/'.toUInt8 :: filename

def forwardStage (env : FilterContext Fn V) (forwardFilters : List ForwardFilter)
    (requestPath : List Bytes) (store : SessionStore V) (conn : Connection) : Filtered Fn V :=
  match findApplicable ForwardFilter.toAccessFilter requestPath 0 forwardFilters with
  | .error e => ⟨store, conn, [], .error e⟩
  | .ok none => ⟨store, conn, [], .ok false⟩
  | .ok (some (_, flt)) =>
    match forwardPath flt requestPath with
    | none => ⟨store, conn, [], .error .undefined⟩
    | some path =>
      match conn.sendFileInPlace env.files path [] false [] true with
      | (conn, .ok ()) => ⟨store, conn, [.sentFile flt path], .ok true⟩
      | (conn, .error (.nawa _)) =>
        ⟨store, conn.errorResponse 404 flt.response, [.sentFile flt path], .ok true⟩
      -- only exceptions of the framework are caught
      | (conn, .error e) => ⟨store, conn, [.sentFile flt path], .error e⟩

/-! ## All stages -/

/-- `applyFilters`. The answer is whether the request has been filtered. -/
def applyFilters (env : FilterContext Fn V) (filters : AccessFilterList Fn)
    (store : SessionStore V) (conn : Connection) : Filtered Fn V :=
  if !filters.filtersEnabled then ⟨store, conn, [], .ok false⟩
  else
    let requestPath := conn.request.getRequestPath
    match findApplicable BlockFilter.toAccessFilter requestPath 0 filters.blockFilters with
    | .error e => ⟨store, conn, [], .error e⟩
    | .ok (some (_, flt)) =>
      ⟨store, conn.errorResponse flt.status flt.response, [.blocked flt], .ok true⟩
    | .ok none =>
      match findApplicable AuthFilter.toAccessFilter requestPath 0 filters.authFilters with
      | .error e => ⟨store, conn, [], .error e⟩
      | .ok none => forwardStage env filters.forwardFilters requestPath store conn
      | .ok (some (n, flt)) =>
        let authenticated := authStage env n flt store conn
        match authenticated.result with
        | .ok true =>
          let forwarded := forwardStage env filters.forwardFilters requestPath
            authenticated.store authenticated.connection
          { forwarded with events := authenticated.events ++ forwarded.events }
        | .ok false => { authenticated with result := .ok true }
        | .error _ => authenticated

end Connection

end Nawa
