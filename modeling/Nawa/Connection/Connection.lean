import Nawa.Connection.Cookie
import Nawa.Session.Session
import Nawa.Util.Http

/-!
# `nawa::Connection`

A connection with its response: the body, which lives in a string and in a stream, the headers,
the cookies, and what a flush hands to the web server's callback.

The order in which a hash map is iterated is not specified. `HashOrder` stands for any such
order, and the headers that a flush hands over come in it.
-/

namespace Nawa

open Lib (AssocMap)

/-- What of a request the connection reads: the environment and the cookies. -/
structure Request where
  env : AssocMap Bytes Bytes := .empty
  cookie : List (Bytes × Bytes) := []

namespace Request

/-- `env()[envVar]`; a variable that is not set reads as empty. -/
def envVar (request : Request) (name : Bytes) : Bytes := (request.env.lookup name).getD []

/-- `cookie()[gpcVar]`: one of the values, or empty. -/
def cookieVar (request : Request) (name : Bytes) : Bytes := (request.cookie.lookup name).getD []

/-- `Env::getRequestPath`. -/
def getRequestPath (request : Request) : List Bytes :=
  utils.splitPath (request.envVar (bytes "REQUEST_URI"))

end Request

/-- `Connection::Data`. -/
structure Connection where
  bodyString : Bytes := []
  responseStatus : Nat := 200
  headers : AssocMap Bytes (List Bytes) := .empty
  cookies : AssocMap Bytes Cookie := .empty
  cookiePolicy : Cookie := {}
  isFlushed : Bool := false
  request : Request := {}
  session : Session := {}
  config : Config := {}
  responseStream : Bytes := []

/-- The order in which the entries of a hash map come up. -/
structure HashOrder where
  order : List (Bytes × Bytes) → List (Bytes × Bytes)
  perm : ∀ entries, (order entries).Perm entries

/-- What a flush hands to the callback of the web server. -/
structure FlushCallbackContainer where
  status : Nat
  headers : List (Bytes × Bytes)
  body : Bytes
  flushedBefore : Bool

namespace Connection

/-! ## The body -/

def clearStream (conn : Connection) : Connection := { conn with responseStream := [] }

def mergeStream (conn : Connection) : Connection :=
  { conn with bodyString := conn.bodyString ++ conn.responseStream, responseStream := [] }

def setResponseBody (conn : Connection) (content : Bytes) : Connection :=
  { conn with bodyString := content }.clearStream

/-- A write to `responseStream()`. -/
def write (conn : Connection) (content : Bytes) : Connection :=
  { conn with responseStream := conn.responseStream ++ content }

def getResponseBody (conn : Connection) : Connection × Bytes :=
  (conn.mergeStream, conn.mergeStream.bodyString)

def setStatus (conn : Connection) (status : Nat) : Connection :=
  { conn with responseStatus := status }

def setCookiePolicy (conn : Connection) (policy : Cookie) : Connection :=
  { conn with cookiePolicy := policy }

/-! ## Headers -/

def setHeader (conn : Connection) (key value : Bytes) : Connection :=
  { conn with headers := conn.headers.insert (utils.toLowercase key) [value] }

def addHeader (conn : Connection) (key value : Bytes) : Connection :=
  let key := utils.toLowercase key
  { conn with headers := conn.headers.insert key ((conn.headers.lookup key).getD [] ++ [value]) }

def unsetHeader (conn : Connection) (key : Bytes) : Connection :=
  { conn with headers := conn.headers.erase (utils.toLowercase key) }

/-- The value of the `set-cookie` header for a cookie. An expiry that has no HTTP time leaves the
attribute name alone, since it has been written before the time is made. -/
def cookieHeader (policy : Cookie) (key : Bytes) (cookie : Cookie) : Bytes :=
  let option (name : Bytes) (value : Option Bytes) : Bytes :=
    match value with
    | none => []
    | some [] => []
    | some v => name ++ v
  let sameSite := if cookie.sameSite ≠ .off then cookie.sameSite else policy.sameSite
  key ++ bytes "=" ++ cookie.content ++
    option (bytes "; Domain=") (cookie.domain.or policy.domain) ++
    option (bytes "; Path=") (cookie.path.or policy.path) ++
    (match cookie.expires.or policy.expires with
      | none => []
      | some expiry => bytes "; Expires=" ++ match utils.makeHttpTime expiry with
        | .ok time => time
        | .error _ => []) ++
    (match cookie.maxAge.or policy.maxAge with
      | none => []
      | some maxAge => bytes "; Max-Age=" ++ decimal maxAge) ++
    (if cookie.secure ∨ policy.secure then bytes "; Secure" else []) ++
    (if cookie.httpOnly ∨ policy.httpOnly then bytes "; HttpOnly" else []) ++
    match sameSite with
    | .off => []
    | .lax => bytes "; SameSite=lax"
    | .strict => bytes "; SameSite=strict"

/-- The entries of the header map, one for each value. -/
def headerEntries (headers : AssocMap Bytes (List Bytes)) : List (Bytes × Bytes) :=
  headers.entries.flatMap fun e => e.2.map fun value => (e.1, value)

def cookieEntries (policy : Cookie) (cookies : AssocMap Bytes Cookie) : List (Bytes × Bytes) :=
  cookies.entries.map fun e => (bytes "set-cookie", cookieHeader policy e.1 e.2)

def getHeaders (conn : Connection) (order : HashOrder) (includeCookies : Bool) :
    List (Bytes × Bytes) :=
  order.order <| headerEntries conn.headers ++
    if includeCookies then cookieEntries conn.cookiePolicy conn.cookies else []

/-! ## Cookies -/

/-- The class `[A-Za-z0-9!#$%&'*+\-.^_` and a backtick, `|` and `~`. -/
def keyChar (c : UInt8) : Bool :=
  isalnum c ∨ c ∈ bytes "!#$%&'*+-.^_`|~"

/-- The class of the characters of a cookie's content. -/
def contentChar (c : UInt8) : Bool :=
  isalnum c ∨ c ∈ bytes "!#$%&'()*+-./:<=>?@[]^_`\x7b|\x7d~"

def invalidCookie : Exception := ⟨1, bytes "Invalid characters in key or value"⟩

def setCookie (conn : Connection) (key : Bytes) (cookie : Cookie) : Except Exception Connection :=
  if key.all keyChar ∧ cookie.content.all contentChar then
    .ok { conn with cookies := conn.cookies.insert key cookie }
  else .error invalidCookie

def unsetCookie (conn : Connection) (key : Bytes) : Connection :=
  { conn with cookies := conn.cookies.erase key }

/-! ## Flushing -/

def flushResponse (conn : Connection) (order : HashOrder) :
    Connection × FlushCallbackContainer :=
  let headers := conn.getHeaders order true
  let (conn, body) := conn.getResponseBody
  ({ conn with isFlushed := true }.setResponseBody [],
    { status := conn.responseStatus, headers, body, flushedBefore := conn.isFlushed })

end Connection

namespace FlushCallbackContainer

def httpStatusCodes : List (Nat × Bytes) := [
    (200, bytes "OK"),
    (201, bytes "Created"),
    (202, bytes "Accepted"),
    (203, bytes "Non-Authoritative Information"),
    (204, bytes "No Content"),
    (205, bytes "Reset Content"),
    (206, bytes "Partial Content"),
    (207, bytes "Multi-Status"),
    (208, bytes "Already Reported"),
    (226, bytes "IM Used"),
    (300, bytes "Multiple Choices"),
    (301, bytes "Moved Permanently"),
    (302, bytes "Found"),
    (303, bytes "See Other"),
    (304, bytes "Not Modified"),
    (305, bytes "Use Proxy"),
    (307, bytes "Temporary Redirect"),
    (308, bytes "Permanent Redirect"),
    (400, bytes "Bad Request"),
    (401, bytes "Unauthorized"),
    (402, bytes "Payment Required"),
    (403, bytes "Forbidden"),
    (404, bytes "Not Found"),
    (405, bytes "Method Not Allowed"),
    (406, bytes "Not Acceptable"),
    (407, bytes "Proxy Authentication Required"),
    (408, bytes "Request Timeout"),
    (409, bytes "Conflict"),
    (410, bytes "Gone"),
    (411, bytes "Length Required"),
    (412, bytes "Precondition Failed"),
    (413, bytes "Payload Too Large"),
    (414, bytes "URI Too Long"),
    (415, bytes "Unsupported Media Type"),
    (416, bytes "Range Not Satisfiable"),
    (417, bytes "Expectation Failed"),
    (418, bytes "I'm a teapot"),
    (421, bytes "Misdirected Request"),
    (422, bytes "Unprocessable Entity"),
    (423, bytes "Locked"),
    (424, bytes "Failed Dependency"),
    (426, bytes "Upgrade Required"),
    (428, bytes "Precondition Required"),
    (429, bytes "Too Many Requests"),
    (431, bytes "Request Header Fields Too Large"),
    (451, bytes "Unavailable For Legal Reasons"),
    (500, bytes "Internal Server Error"),
    (501, bytes "Not Implemented"),
    (502, bytes "Bad Gateway"),
    (503, bytes "Service Unavailable"),
    (504, bytes "Gateway Timeout"),
    (505, bytes "HTTP Version Not Supported"),
    (506, bytes "Variant Also Negotiates"),
    (507, bytes "Insufficient Storage"),
    (508, bytes "Loop Detected"),
    (510, bytes "Not Extended"),
    (511, bytes "Network Authentication Required")
  ]

def getStatusString (info : FlushCallbackContainer) : Bytes :=
  decimal info.status ++ match httpStatusCodes.lookup info.status with
    | some text => bytes " " ++ text
    | none => []

def headerLine (e : Bytes × Bytes) : Bytes := e.1 ++ bytes ": " ++ e.2 ++ crlf

def getFullHttp (info : FlushCallbackContainer) : Bytes :=
  (if info.flushedBefore then [] else info.headers.flatMap headerLine ++ crlf) ++ info.body

end FlushCallbackContainer

end Nawa
