import Nawa.Connection.Connection

/-!
# Building a response

The calls with which an application builds its response, as a sequence on one connection, and
the reference model of what they are for: a text that is still to be sent, a list of header
fields with names in any letter case, and cookies. The reference model knows nothing of strings
and streams, nor of a header map with lowercase keys.
-/

namespace Nawa

open Lib (AssocMap)

inductive ResponseCall where
  | setResponseBody (content : Bytes)
  | write (content : Bytes)
  | getResponseBody
  | setStatus (status : Nat)
  | setHeader (key value : Bytes)
  | addHeader (key value : Bytes)
  | unsetHeader (key : Bytes)
  | setCookie (key : Bytes) (cookie : Cookie)
  | unsetCookie (key : Bytes)
  | setCookiePolicy (policy : Cookie)
  | flushResponse

/-- What a call lets out: a body that is read, an exception, or what a flush sends, which is a
`β`. -/
inductive Output (β : Type) where
  | body (content : Bytes)
  | refused (e : Exception)
  | flushed (sent : β)
  deriving DecidableEq

/-- What the flushes have sent, in order. -/
def sent {β : Type} (outputs : List (Output β)) : List β :=
  outputs.filterMap fun output => match output with
    | .flushed sent => some sent
    | _ => none

/-- The bodies that have been read, in order. -/
def read {β : Type} (outputs : List (Output β)) : List Bytes :=
  outputs.filterMap fun output => match output with
    | .body content => some content
    | _ => none

/-! ## On the connection -/

namespace Connection

def call (order : HashOrder) (conn : Connection) :
    ResponseCall → Connection × Option (Output FlushCallbackContainer)
  | .setResponseBody content => (conn.setResponseBody content, none)
  | .write content => (conn.write content, none)
  | .getResponseBody => (conn.getResponseBody.1, some (.body conn.getResponseBody.2))
  | .setStatus status => (conn.setStatus status, none)
  | .setHeader key value => (conn.setHeader key value, none)
  | .addHeader key value => (conn.addHeader key value, none)
  | .unsetHeader key => (conn.unsetHeader key, none)
  | .setCookie key cookie =>
    match conn.setCookie key cookie with
    | .ok conn => (conn, none)
    | .error e => (conn, some (.refused e))
  | .unsetCookie key => (conn.unsetCookie key, none)
  | .setCookiePolicy policy => (conn.setCookiePolicy policy, none)
  | .flushResponse =>
    ((conn.flushResponse order).1, some (.flushed (conn.flushResponse order).2))

def outputs (order : HashOrder) (conn : Connection) :
    List ResponseCall → List (Output FlushCallbackContainer)
  | [] => []
  | call :: rest =>
    (conn.call order call).2.toList ++ outputs order (conn.call order call).1 rest

end Connection

/-! ## The reference model -/

/-- A response under construction. -/
structure Response where
  pending : Bytes
  status : Nat
  fields : List (Bytes × Bytes)
  cookies : AssocMap Bytes Cookie
  policy : Cookie

/-- What the reference model sends with a flush: the status, the header fields, the body. -/
structure Emitted where
  status : Nat
  head : List (Bytes × Bytes)
  body : Bytes

namespace Response

/-- Header names are the same when they differ in letter case only. -/
def SameName (name name' : Bytes) : Prop := utils.toLowercase name = utils.toLowercase name'

instance (name name' : Bytes) : Decidable (SameName name name') := by
  unfold SameName
  infer_instance

/-- The fields as they are sent, with lowercase names, and the cookies. -/
def head (r : Response) : List (Bytes × Bytes) :=
  r.fields.map (fun f => (utils.toLowercase f.1, f.2)) ++
    Connection.cookieEntries r.policy r.cookies

def call (r : Response) : ResponseCall → Response × Option (Output Emitted)
  | .setResponseBody content => ({ r with pending := content }, none)
  | .write content => ({ r with pending := r.pending ++ content }, none)
  | .getResponseBody => (r, some (.body r.pending))
  | .setStatus status => ({ r with status := status }, none)
  | .setHeader key value =>
    ({ r with fields := r.fields.filter (¬ SameName ·.1 key) ++ [(key, value)] }, none)
  | .addHeader key value => ({ r with fields := r.fields ++ [(key, value)] }, none)
  | .unsetHeader key => ({ r with fields := r.fields.filter (¬ SameName ·.1 key) }, none)
  | .setCookie key cookie =>
    if key.all Connection.keyChar ∧ cookie.content.all Connection.contentChar then
      ({ r with cookies := r.cookies.insert key cookie }, none)
    else (r, some (.refused Connection.invalidCookie))
  | .unsetCookie key => ({ r with cookies := r.cookies.erase key }, none)
  | .setCookiePolicy policy => ({ r with policy := policy }, none)
  | .flushResponse =>
    ({ r with pending := [] }, some (.flushed ⟨r.status, r.head, r.pending⟩))

def outputs (r : Response) : List ResponseCall → List (Output Emitted)
  | [] => []
  | call :: rest => (r.call call).2.toList ++ outputs (r.call call).1 rest

/-- The response that a connection holds. -/
def ofConnection (conn : Connection) : Response where
  pending := conn.bodyString ++ conn.responseStream
  status := conn.responseStatus
  fields := Connection.headerEntries conn.headers
  cookies := conn.cookies
  policy := conn.cookiePolicy

end Response

end Nawa
