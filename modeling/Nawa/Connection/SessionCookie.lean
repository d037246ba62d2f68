import Nawa.Connection.Connection

/-!
# Sessions by cookie

The calls of `Session` that also work on the cookies of the connection: `start(Cookie)`,
`invalidate`, and the autostart in the connection's constructor.
-/

namespace Nawa.Connection

open Session (sessionKeepalive)

variable {V : Type}

def cookieName (config : Config) : Bytes :=
  let name := config.get (bytes "session") (bytes "cookie_name")
  if name = [] then bytes "SESSION" else name

/-- The session cookie: the given properties, completed from the configuration. -/
def sessionCookie (config : Config) (time : Int) (keepalive : Nat) (sessionId : Bytes)
    (properties : Cookie) : Cookie :=
  let setting := config.get (bytes "session")
  let properties :=
    if properties.expires.isSome ∨ setting (bytes "cookie_expires") ≠ bytes "off" then
      { properties with expires := some (toTimeT (time + keepalive)), maxAge := some keepalive }
    else { properties with maxAge := none }
  { properties with
    secure := properties.secure || setting (bytes "cookie_secure") ≠ bytes "off"
    httpOnly := properties.httpOnly || setting (bytes "cookie_httponly") ≠ bytes "off"
    sameSite :=
      if properties.sameSite ≠ .off then properties.sameSite
      else if setting (bytes "cookie_samesite") = bytes "lax" then .lax
      else if setting (bytes "cookie_samesite") ≠ bytes "off" then .strict
      else .off
    content := sessionId }

/-- `Session::start(Cookie)`. -/
def startSession (conn : Connection) (ctx : StartContext) (properties : Cookie)
    (store : SessionStore V) : SessionStore V × Connection × Except Failure Unit :=
  if conn.session.established then (store, conn, .ok ())
  else
    let name := cookieName conn.config
    let session := { conn.session with cookieName := name }
    match sessionKeepalive conn.config properties.maxAge with
    | .error e => (store, { conn with session := session }, .error e)
    | .ok keepalive =>
      let started := Session.start conn.config (conn.request.envVar (bytes "REMOTE_ADDR")) ctx
        (conn.request.cookieVar name) (some keepalive) store session
      let conn := { conn with session := started.session }
      match started.result with
      | .error e => (started.store, conn, .error e)
      | .ok sessionId =>
        let conn := { conn with session := { conn.session with currentID := sessionId } }
        match conn.setCookie name (sessionCookie conn.config ctx.time keepalive sessionId
          properties) with
        | .ok conn => (started.store, conn, .ok ())
        | .error e => (started.store, conn, .error (.nawa e))

/-- `Session::invalidate`. -/
def invalidateSession (conn : Connection) (store : SessionStore V) :
    SessionStore V × Connection :=
  if conn.session.established then
    let (store, session) := conn.session.invalidate store
    (store, { conn with session := session }.unsetCookie session.cookieName)
  else (store, conn)

/-- The constructor, with the autostart of the session. -/
def construct (request : Request) (config : Config) (ctx : StartContext)
    (store : SessionStore V) : SessionStore V × Connection × Except Failure Unit :=
  let conn : Connection :=
    { request := request
      config := config
      headers := Lib.AssocMap.empty.insert (bytes "content-type")
        [bytes "text/html; charset=utf-8"] }
  if config.get (bytes "session") (bytes "autostart") = bytes "on" then
    conn.startSession ctx {} store
  else (store, conn, .ok ())

end Nawa.Connection
