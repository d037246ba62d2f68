import Nawa.RequestHandler.RequestHandler
import Nawa.Util.MimeMultipart
import Nawa.Util.QueryString

/-!
# The HTTP request handler

`HttpHandler::operator()`, which fills the container of a request and goes on with it, and
`InputConsumingHttpHandler::operator()`, which takes in what has been read of a POST body. Both
compare a size with the signed `maxPostSize`, which is converted to the unsigned type for it.

`dispatch` and `consume` are the decisions of the two, and `HttpAction` is what they do about
them. The web server calls back once for each read that is registered (`Exchange.receive`).
-/

namespace Nawa

open Lib (AssocMap)
open Lib.Search

inductive RawPostAccess where
  | never
  | nonstandard
  | always
  deriving DecidableEq

/-- `ssize_t` to `size_t`. -/
def toSizeT (n : Int) : Nat := (n % 2 ^ 64).toNat

/-! ## The body of a POST request -/

structure InputConsumingHttpHandler where
  maxPostSize : Int
  expectedSize : Nat
  postBody : Bytes := []
  rawPostAccess : RawPostAccess
  deriving DecidableEq

/-- What a read callback ends in. -/
inductive Consumed where
  | serverError
  | readMore (consumer : InputConsumingHttpHandler)
  | complete (consumer : InputConsumingHttpHandler)
  deriving DecidableEq

/-- `InputConsumingHttpHandler::operator()` up to the end of the reading. `eof` says whether the
error code is `boost::asio::error::eof`; any other one is not looked at. -/
def InputConsumingHttpHandler.consume (consumer : InputConsumingHttpHandler) (input : Bytes)
    (eof : Bool) (bytesTransferred : Nat) : Consumed :=
  if eof then .serverError
  else if consumer.postBody.length + bytesTransferred > toSizeT consumer.maxPostSize then
    .serverError
  else
    let consumer := { consumer with postBody := consumer.postBody ++ input }
    if consumer.postBody.length < consumer.expectedSize then .readMore consumer
    else .complete consumer

/-! ## A new request -/

/-- How a request goes on. -/
inductive Dispatch where
  | handle
  | read (consumer : InputConsumingHttpHandler)
  | serverError
  /-- The exception of a malformed number is swallowed, and nothing is answered. -/
  | dropped
  /-- The product overflows. -/
  | undefined
  deriving DecidableEq

namespace HttpHandler

def rawPostAccess (config : Config) : RawPostAccess :=
  let rawPostStr := config.get (bytes "post") (bytes "raw_access")
  if rawPostStr = bytes "never" then .never
  else if rawPostStr = bytes "always" then .always
  else .nonstandard

/-- The end of `HttpHandler::operator()`. -/
def dispatch (config : Config) (method : Bytes) (request : Request) : Dispatch :=
  if method ≠ bytes "POST" then .handle
  else
    match request.env.lookup (bytes "content-length") with
    | none => .handle
    | some contentLength =>
      match stoul contentLength, stol (config.get (bytes "post") (bytes "max_size")) with
      | .ok contentLength, .ok maxSize =>
        let maxPostSize := maxSize * 1024
        if maxPostSize < -2 ^ 63 ∨ 2 ^ 63 ≤ maxPostSize then .undefined
        else if contentLength > toSizeT maxPostSize then .serverError
        else
          .read
            { maxPostSize := maxPostSize
              expectedSize := contentLength
              rawPostAccess := rawPostAccess config }
      | _, _ => .dropped

end HttpHandler

/-! ## The container of a request -/

/-- A `nawa::File` that has been submitted. -/
structure PostFile where
  content : Bytes
  contentType : Bytes
  filename : Bytes
  deriving DecidableEq

structure RequestInitContainer where
  environment : AssocMap Bytes Bytes := .empty
  getVars : List (Bytes × Bytes) := []
  postVars : List (Bytes × Bytes) := []
  cookieVars : List (Bytes × Bytes) := []
  postContentType : Bytes := []
  postFiles : List (Bytes × PostFile) := []
  rawPost : Option Bytes := none
  deriving DecidableEq

namespace RequestInitContainer

/-- `environment[name]`, which also creates a variable that is not there. -/
def subscript (requestInit : RequestInitContainer) (name : Bytes) :
    RequestInitContainer × Bytes :=
  match requestInit.environment.lookup name with
  | some value => (requestInit, value)
  | none => ({ requestInit with environment := requestInit.environment.insert name [] }, [])

/-- What a connection reads of it. -/
def request (requestInit : RequestInitContainer) : Request :=
  ⟨requestInit.environment, requestInit.cookieVars⟩

end RequestInitContainer

/-- What the web server hands over. -/
structure ServerRequest where
  method : Bytes
  destination : Bytes
  source : Bytes := []
  sourcePort : Nat := 0
  headers : List (Bytes × Bytes) := []

namespace HttpHandler

def getListenAddr (config : Config) : Bytes :=
  let listen := config.get (bytes "http") (bytes "listen")
  if listen = [] then bytes "127.0.0.1" else listen

def getListenPort (config : Config) : Bytes :=
  let port := config.get (bytes "http") (bytes "port")
  if port = [] then bytes "8080" else port

/-- The text before the first occurrence of an element. -/
def textBefore (c : UInt8) (s : Bytes) : Bytes :=
  match findElem c s with
  | some n => s.take n
  | none => s

/-- The variables that are there before the headers are looked at. -/
def serverVariables (config : Config) (request : ServerRequest) : AssocMap Bytes Bytes :=
  [(bytes "REMOTE_ADDR", textBefore ':'.toUInt8 request.source),
    (bytes "REQUEST_URI", request.destination),
    (bytes "REMOTE_PORT", decimal request.sourcePort),
    (bytes "REQUEST_METHOD", request.method),
    (bytes "SERVER_ADDR", getListenAddr config),
    (bytes "SERVER_PORT", getListenPort config),
    (bytes "SERVER_SOFTWARE", bytes "NAWA Development Web Server")].foldl
      (fun environment e => environment.insert e.1 e.2) .empty

/-- A header becomes a variable unless there is one of its name, in lower case, already. -/
def addHeader (environment : AssocMap Bytes Bytes) (h : Bytes × Bytes) : AssocMap Bytes Bytes :=
  match environment.lookup (utils.toLowercase h.1) with
  | some _ => environment
  | none => environment.insert (utils.toLowercase h.1) h.2

/-- The URLs of the request; there is no HTTPS. -/
def addUrls (requestInit : RequestInitContainer) (destination : Bytes) : RequestInitContainer :=
  let (requestInit, host) := requestInit.subscript (bytes "host")
  let baseUrl := bytes "http://" ++ host
  { requestInit with
    environment := ((requestInit.environment.insert (bytes "BASE_URL") baseUrl).insert
      (bytes "FULL_URL_WITH_QS") (baseUrl ++ destination)).insert
      (bytes "FULL_URL_WITHOUT_QS") (baseUrl ++ textBefore '?'.toUInt8 destination) }

/-- The variables of the query string, if there is one. -/
def getVars (destination : Bytes) : Except StdException (List (Bytes × Bytes)) :=
  match findElem '?'.toUInt8 destination with
  | some _ => utils.splitQueryString destination
  | none => .ok []

/-- The container, up to the POST data. -/
def requestInit (config : Config) (request : ServerRequest) :
    Except StdException RequestInitContainer :=
  let requestInit : RequestInitContainer :=
    { environment := request.headers.foldl addHeader (serverVariables config request) }
  let requestInit := addUrls requestInit request.destination
  (getVars request.destination).map fun getVars =>
    let (requestInit, cookie) := { requestInit with getVars := getVars }.subscript (bytes "cookie")
    { requestInit with cookieVars := utils.parseCookies cookie }

end HttpHandler

/-! ## The handlers as a whole -/

/-- What a handler does to the outside. -/
inductive HttpAction where
  | serverError
  | handleRequest (requestInit : RequestInitContainer)
  | flushResponse
  | read (consumer : InputConsumingHttpHandler)
  deriving DecidableEq

/-- The actions of a call, the POST body that it has parsed, and what keeps it from returning. -/
structure HttpCall where
  actions : List HttpAction := []
  parsed : Option Bytes := none
  failure : Option Failure := none
  deriving DecidableEq

/-- The connection is constructed and handled, and its response is flushed. What construction and
handling come to is `handled`. -/
def handleAndFlush (handled : RequestInitContainer → Except Failure Unit)
    (requestInit : RequestInitContainer) : HttpCall :=
  match handled requestInit with
  | .ok () => { actions := [.handleRequest requestInit, .flushResponse] }
  | .error e => { actions := [.handleRequest requestInit], failure := some e }

/-- `HttpHandler::operator()`. -/
def HttpHandler.operator (handled : RequestInitContainer → Except Failure Unit) (config : Config)
    (request : ServerRequest) : HttpCall :=
  match requestInit config request with
  | .error e => { failure := some (.std e) }
  | .ok requestInit =>
    match dispatch config request.method requestInit.request with
    | .handle => handleAndFlush handled requestInit
    | .read consumer => { actions := [.read consumer] }
    | .serverError => { actions := [.serverError] }
    | .dropped => {}
    | .undefined => { failure := some .undefined }

namespace InputConsumingHttpHandler

/-- A part of a multipart body is a file when it has a filename, or a type other than plain
text. -/
def isFile (p : MimeMultipart.Part) : Bool :=
  p.filename ≠ [] ∨ (p.contentType ≠ [] ∧
    p.contentType.take (bytes "text/plain").length ≠ bytes "text/plain")

/-- A part of a multipart body goes to the files or to the variables. -/
def addPart (requestInit : RequestInitContainer) (p : MimeMultipart.Part) :
    RequestInitContainer :=
  if isFile p then
    { requestInit with
      postFiles := requestInit.postFiles ++ [(p.partName, ⟨p.content, p.contentType, p.filename⟩)] }
  else { requestInit with postVars := requestInit.postVars ++ [(p.partName, p.content)] }

/-- The container with the POST data, once the body is complete. -/
def parseBody (consumer : InputConsumingHttpHandler) (requestInit : RequestInitContainer) :
    Except StdException RequestInitContainer :=
  let (requestInit, contentType) := requestInit.subscript (bytes "content-type")
  let postContentType := utils.toLowercase contentType
  let requestInit :=
    if consumer.rawPostAccess = .always then
      { requestInit with rawPost := some consumer.postBody }
    else requestInit
  if postContentType = bytes "application/x-www-form-urlencoded" then
    (utils.splitQueryString consumer.postBody).map fun postVars =>
      { requestInit with postContentType := postContentType, postVars := postVars }
  else if postContentType.take (bytes "multipart/form-data").length =
      bytes "multipart/form-data" then
    match MimeMultipart.parse {} contentType consumer.postBody with
    | (postData, .ok ()) => .ok (postData.parts.foldl addPart requestInit)
    | (_, .error _) => .ok requestInit
  else if consumer.rawPostAccess = .nonstandard then
    .ok { requestInit with rawPost := some consumer.postBody }
  else .ok requestInit

/-- The error code of a read callback. -/
inductive ErrorCode where
  | success
  | eof
  | other (code : Nat)
  deriving DecidableEq

/-- `InputConsumingHttpHandler::operator()`. -/
def operator (handled : RequestInitContainer → Except Failure Unit)
    (requestInit : RequestInitContainer) (consumer : InputConsumingHttpHandler) (input : Bytes)
    (ec : ErrorCode) (bytesTransferred : Nat) : HttpCall :=
  match consumer.consume input (ec = .eof) bytesTransferred with
  | .serverError => { actions := [.serverError] }
  | .readMore consumer => { actions := [.read consumer] }
  | .complete consumer =>
    match consumer.parseBody requestInit with
    | .error e => { parsed := some consumer.postBody, failure := some (.std e) }
    | .ok requestInit =>
      { handleAndFlush handled requestInit with parsed := some consumer.postBody }

end InputConsumingHttpHandler

/-! ## One request from its arrival on -/

/-- The read that is registered, what has been done so far, and the bodies parsed for it. -/
structure Exchange where
  pending : Option InputConsumingHttpHandler
  log : List HttpAction
  parsed : List Bytes := []

/-- The read that a call has registered. -/
def HttpCall.pending (call : HttpCall) : Option InputConsumingHttpHandler :=
  call.actions.findSome? fun
    | .read consumer => some consumer
    | _ => none

namespace Exchange

def arrive (call : HttpCall) : Exchange := ⟨call.pending, call.actions, []⟩

/-- The next stretch of the stream, handed over without an error. There is no callback where no
read is registered. -/
def receive (handled : RequestInitContainer → Except Failure Unit)
    (requestInit : RequestInitContainer) (exchange : Exchange) (input : Bytes) : Exchange :=
  match exchange.pending with
  | none => exchange
  | some consumer =>
    let call := consumer.operator handled requestInit input .success input.length
    ⟨call.pending, exchange.log ++ call.actions, exchange.parsed ++ call.parsed.toList⟩

/-- The stretches of the stream that have arrived, one after the other. -/
def run (handled : RequestInitContainer → Except Failure Unit) (config : Config)
    (request : ServerRequest) (inputs : List Bytes) : Exchange :=
  let exchange := arrive (HttpHandler.operator handled config request)
  match HttpHandler.requestInit config request with
  | .error _ => exchange
  | .ok requestInit => inputs.foldl (receive handled requestInit) exchange

end Exchange

end Nawa
