import Nawa.Config.Config
import Nawa.Session.SessionData

/-!
# `nawa::Session`

The calls of a `Session` object on the global store. A call that takes the store answers the
store it leaves. `Session::start(Cookie)`, which also sets the session cookie, is with the
connection it belongs to.
-/

namespace Nawa

/-- `Session::Data`, without the reference to the connection. -/
structure Session where
  currentData : Option Nat := none
  currentID : Bytes := []
  cookieName : Bytes := []
  deriving DecidableEq

/-- What a call of `Session::start` finds around it: the clock, the answers of `generateID`, and
the random number that decides on garbage collection. -/
structure StartContext where
  time : Int
  draws : List Bytes
  rd : Nat

namespace Session

variable {V : Type}

def sessionNotEstablished : Exception := ⟨1, bytes "Session not established."⟩

/-! ## Settings -/

/-- A number from the configuration: a default for an empty or malformed value, while a value
out of range escapes as an exception. -/
def configNumber (value : Bytes) (default : Nat) : Except Failure Nat :=
  if value = [] then .ok default
  else match stoul value with
    | .ok n => .ok n
    | .error .invalidArgument => .ok default
    | .error e => .error (.std e)

def sessionKeepalive (config : Config) : Option Nat → Except Failure Nat
  | some keepalive => .ok keepalive
  | none => configNumber (config.get (bytes "session") (bytes "keepalive")) 1800

/-- Garbage collection in `1/x` of the invocations; `rd() % 0` is undefined. -/
def runGarbageCollection (config : Config) (ctx : StartContext) (store : SessionStore V) :
    SessionStore V × Except Failure Unit :=
  match configNumber (config.get (bytes "session") (bytes "gc_divisor")) 100 with
  | .error e => (store, .error e)
  | .ok divisor =>
    if divisor = 0 then (store, .error .undefined)
    else if ctx.rd % divisor = 0 then (store.collectGarbage fun _ => ctx.time, .ok ())
    else (store, .ok ())

/-! ## Calls -/

/-- The state after a call of `start`, and its answer. -/
structure Started (V : Type) where
  store : SessionStore V
  session : Session
  result : Except Failure Bytes

/-- The end of `start`: the id is kept, the garbage collector may run, the id is returned. -/
def finish (config : Config) (ctx : StartContext) (store : SessionStore V) (session : Session)
    (a : Nat) (sessionId : Bytes) : Started V :=
  let session := { session with currentData := some a, currentID := sessionId }
  match runGarbageCollection config ctx store with
  | (store, .ok ()) => ⟨store, session, .ok sessionId⟩
  | (store, .error e) => ⟨store, session, .error e⟩

/-- The part of `start` that initiates a new session, once nothing has been attached. -/
def initiate (config : Config) (remoteAddr : Bytes) (ctx : StartContext) (keepalive : Nat)
    (store : SessionStore V) (session : Session) : Started V :=
  match store.create remoteAddr keepalive ctx.time ctx.draws with
  | none => ⟨store, session, .error .diverges⟩
  | some (store, sessionId, a) => finish config ctx store session a sessionId

/-- `Session::start(std::string, std::optional<unsigned long>)`. -/
def start (config : Config) (remoteAddr : Bytes) (ctx : StartContext) (sessionId : Bytes)
    (keepalive : Option Nat) (store : SessionStore V) (session : Session) : Started V :=
  match session.currentData with
  | some _ => ⟨store, session, .ok session.currentID⟩
  | none =>
    match sessionKeepalive config keepalive with
    | .error e => ⟨store, session, .error e⟩
    | .ok keepalive =>
      let found :=
        if sessionId = [] then (store, none)
        else store.lookup (config.get (bytes "session") (bytes "validate_ip")) remoteAddr keepalive
          ctx.time ctx.time sessionId
      match found with
      | (store, some a) => finish config ctx store session a sessionId
      | (store, none) => initiate config remoteAddr ctx keepalive store session

def established (session : Session) : Bool := session.currentData.isSome

/-- `operator[]`; an empty `std::any` where there is no value. -/
def get (session : Session) (store : SessionStore V) (key : Bytes) : Option V :=
  match session.currentData with
  | some a => (store.heap a).data key
  | none => none

def isSet (session : Session) (store : SessionStore V) (key : Bytes) : Bool :=
  match session.currentData with
  | some a => ((store.heap a).data key).isSome
  | none => false

/-- What `set` and `unset` do to a session object. -/
def write (key : Bytes) (value : Option V) (object : SessionData V) : SessionData V :=
  { object with data := Function.update object.data key value }

def set (session : Session) (key : Bytes) (value : V) (store : SessionStore V) :
    Except Failure (SessionStore V) :=
  match session.currentData with
  | some a => .ok (store.modify a (write key (some value)))
  | none => .error (.nawa sessionNotEstablished)

def unset (session : Session) (key : Bytes) (store : SessionStore V) :
    Except Failure (SessionStore V) :=
  match session.currentData with
  | some a => .ok (store.modify a (write key none))
  | none => .error (.nawa sessionNotEstablished)

/-- `invalidate`, up to the session cookie: the pointer is reset, then the map entry erased. -/
def invalidate (session : Session) (store : SessionStore V) : SessionStore V × Session :=
  match session.currentData with
  | some _ => (store.erase session.currentID, { session with currentData := none })
  | none => (store, session)

def getID (session : Session) : Bytes := if session.established then session.currentID else []

end Session

end Nawa
