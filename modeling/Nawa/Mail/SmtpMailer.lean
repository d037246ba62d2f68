import Nawa.Hashing.Bcrypt
import Nawa.Mail.Email
import Nawa.Mail.EmailAddress
import Nawa.Util.SmtpTime

/-!
# `nawa::mail::SmtpMailer`

A mailer, the application that uses it, and the objects that both of them hold: emails, senders and
replacement rules are behind shared pointers, so the application may still write to what is in the
queue. A pointer is the number of its object.

What libcurl, the clocks and the random numbers answer is given: `Surroundings` has an answer for
every call of theirs. The transfers that have been made are kept, for each call of `processQueue`
those that it has made.
-/

namespace Nawa.mail

open Lib (AssocMap)
open Lib.Search
open hashing (cString)

inductive TlsMode where
  | none
  | smtps
  | tryStarttls
  | requireStarttls
  deriving DecidableEq

/-- An element of the sending queue, with pointers to the email, the sender and the rules. -/
structure QueueElem where
  email : Nat
  sender : Nat
  recipients : List EmailAddress
  replacementRules : Option Nat

/-- `SmtpMailer::Data`, with the defaults of the constructor. -/
structure SmtpMailer where
  serverDomain : Bytes := bytes "localhost"
  serverPort : Nat := 25
  serverTlsMode : TlsMode := .none
  verifyServerTlsCert : Bool := true
  authUsername : Bytes := []
  authPassword : Bytes := []
  connectionTimeout : Int := 10000
  queue : List QueueElem := []

/-! ## The surroundings -/

/-- The objects that are shared, by their pointers. -/
structure Objects where
  email : Nat → Email
  sender : Nat → EmailAddress
  rules : Nat → ReplacementRules

/-- The values of `time`, `clock_gettime` and a `random_device` in one call. -/
structure Moment where
  time : Int
  seconds : Int
  nanoseconds : Nat
  random : Nat

abbrev CURLcode := Nat

def CURLE_OK : CURLcode := 0

inductive CurlUseSsl where
  | all
  | try
  deriving DecidableEq

/-- What the handle of libcurl is told before the queue is gone through. -/
structure CurlOptions where
  username : Option Bytes
  password : Option Bytes
  url : Bytes
  useSsl : Option CurlUseSsl
  sslVerify : Bool
  connectTimeout : Int
  deriving DecidableEq

/-- What `curl_easy_perform` is called with, and the element of the queue that it is for. -/
structure Transfer where
  elem : QueueElem
  options : CurlOptions
  mailFrom : Bytes
  mailRcpt : List Bytes
  payload : Bytes

/-- The answers to the calls of each kind, by the number of the call. -/
structure Surroundings where
  order : HashOrder
  zone : Int → Int
  md5 : Bytes → Bytes
  digest : Nat → Bytes
  moment : Nat → Moment
  curlInit : Nat → Bool
  perform : Nat → CURLcode
  strerror : CURLcode → Bytes

/-! ## Missing headers -/

def messageId (out : Surroundings) (now : Moment) (address : Bytes) (atPos : Nat) : Bytes :=
  let base := utils.signedDecimal now.seconds ++ decimal now.nanoseconds ++ address ++
    decimal now.random
  bytes "<" ++ utils.hexDump (out.md5 base) ++ bytes "@" ++ address.drop (atPos + 1) ++ bytes ">"

def addDate (out : Surroundings) (now : Moment) (headers : HeadersMap) :
    Except Failure HeadersMap :=
  match headers.lookup (bytes "Date") with
  | some _ => .ok headers
  | none =>
    match utils.makeSmtpTime out.zone now.time with
    | .error e => .error (.nawa e)
    | .ok date => .ok (headers.insert (bytes "Date") date)

def addFrom (sender : EmailAddress) (headers : HeadersMap) : Except Failure HeadersMap :=
  if (headers.lookup (bytes "From")).isNone ∧ sender.address ≠ [] then
    match sender.get true true with
    | .error e => .error (.std e)
    | .ok text => .ok (headers.insert (bytes "From") text)
  else .ok headers

def addMessageId (out : Surroundings) (now : Moment) (sender : EmailAddress)
    (headers : HeadersMap) : HeadersMap :=
  match headers.lookup (bytes "Message-ID"), findLastElem '@'.toUInt8 sender.address with
  | none, some atPos =>
    headers.insert (bytes "Message-ID") (messageId out now sender.address atPos)
  | _, _ => headers

/-- The headers afterwards, also where an exception ends the call. -/
def addMissingHeaders (out : Surroundings) (now : Moment) (sender : EmailAddress)
    (headers : HeadersMap) : HeadersMap × Except Failure Unit :=
  match addDate out now headers with
  | .error e => (headers, .error e)
  | .ok headers =>
    match addFrom sender headers with
    | .error e => (headers, .error e)
    | .ok headers => (addMessageId out now sender headers, .ok ())

/-! ## The application and the mailer -/

structure World where
  objects : Objects
  mailer : SmtpMailer := {}
  /-- The calls of `addMissingHeaders`, `curl_easy_init`, `genBoundary` and `curl_easy_perform`. -/
  moments : Nat := 0
  inits : Nat := 0
  boundaries : Nat := 0
  performed : Nat := 0
  transfers : List (List (Transfer × CURLcode)) := []

def Objects.setEmail (objects : Objects) (p : Nat) (email : Email) : Objects :=
  { objects with email := Function.update objects.email p email }

/-- The pointers are given, not the objects. -/
def bulkEnqueue (out : Surroundings) (w : World) (elem : QueueElem) :
    World × Except Failure Unit :=
  let email := w.objects.email elem.email
  let (headers, result) :=
    addMissingHeaders out (out.moment w.moments) (w.objects.sender elem.sender) email.headers
  let w := { w with
    objects := w.objects.setEmail elem.email { email with headers := headers }
    moments := w.moments + 1 }
  match result with
  | .error e => (w, .error e)
  | .ok () => ({ w with mailer.queue := w.mailer.queue ++ [elem] }, .ok ())

def enqueue (out : Surroundings) (w : World) (email : Nat) (recipient : EmailAddress) (sender : Nat)
    (replacementRules : Option Nat) : World × Except Failure Unit :=
  bulkEnqueue out w ⟨email, sender, [recipient], replacementRules⟩

/-! ## Sending -/

def SmtpMailer.url (m : SmtpMailer) : Bytes :=
  (if m.serverTlsMode = .smtps then bytes "smtps://" else bytes "smtp://") ++ m.serverDomain ++
    bytes ":" ++ decimal m.serverPort

def SmtpMailer.curlOptions (m : SmtpMailer) : CurlOptions where
  username := if m.authUsername ≠ [] then some (cString m.authUsername) else none
  password :=
    if m.authUsername ≠ [] ∧ m.authPassword ≠ [] then some (cString m.authPassword) else none
  url := cString m.url
  useSsl := match m.serverTlsMode with
    | .requireStarttls => some .all
    | .tryStarttls => some .try
    | _ => none
  sslVerify := ¬ (m.serverTlsMode ≠ .none ∧ ¬ m.verifyServerTlsCert)
  connectTimeout := m.connectionTimeout

/-- `get(false)`, as a C string. -/
def envelopeAddress (address : EmailAddress) : Except Failure Bytes :=
  match address.get false true with
  | .error e => .error (.std e)
  | .ok text => .ok (cString text)

/-- What is made of an element of the queue before the call of `curl_easy_perform`, and the number
of calls of `genBoundary` after it. -/
def makeTransfer (out : Surroundings) (objects : Objects) (options : CurlOptions)
    (boundaries : Nat) (elem : QueueElem) : Except Failure (Transfer × Nat) := do
  let mailFrom ← envelopeAddress (objects.sender elem.sender)
  let mailRcpt ← elem.recipients.mapM envelopeAddress
  let (payload, boundaries) ← (objects.email elem.email).getRaw out.order out.digest boundaries
    (elem.replacementRules.map objects.rules)
  return (⟨elem, options, mailFrom, mailRcpt, payload⟩, boundaries)

/-- What the loop over the queue has done. -/
structure Sending where
  boundaries : Nat
  performed : Nat
  transfers : List (Transfer × CURLcode)

def curlError (out : Surroundings) (res : CURLcode) : Failure :=
  .nawa ⟨1, bytes "CURL error: " ++ out.strerror res⟩

def sendQueue (out : Surroundings) (objects : Objects) (options : CurlOptions) :
    List QueueElem → Sending → Sending × Except Failure Unit
  | [], s => (s, .ok ())
  | elem :: queue, s =>
    match makeTransfer out objects options s.boundaries elem with
    | .error e => (s, .error e)
    | .ok (transfer, boundaries) =>
      let res := out.perform s.performed
      let s := ⟨boundaries, s.performed + 1, s.transfers ++ [(transfer, res)]⟩
      if res ≠ CURLE_OK then (s, .error (curlError out res))
      else sendQueue out objects options queue s

/-- Without a handle of libcurl nothing is sent, and the call returns. -/
def processQueue (out : Surroundings) (w : World) : World × Except Failure Unit :=
  let (s, result) :=
    if out.curlInit w.inits then
      sendQueue out w.objects w.mailer.curlOptions w.mailer.queue ⟨w.boundaries, w.performed, []⟩
    else (⟨w.boundaries, w.performed, []⟩, .ok ())
  ({ w with
    inits := w.inits + 1
    boundaries := s.boundaries
    performed := s.performed
    transfers := w.transfers ++ [s.transfers] }, result)

/-! ## Steps -/

inductive Action where
  | setServer (domain : Bytes) (port : Nat) (tlsMode : TlsMode) (verifyTlsCert : Bool)
  | setAuth (username password : Bytes)
  | setConnectionTimeout (timeout : Int)
  | enqueue (email : Nat) (recipient : EmailAddress) (sender : Nat) (replacementRules : Option Nat)
  | bulkEnqueue (elem : QueueElem)
  | clearQueue
  | processQueue
  /-- The application writes to an object. -/
  | writeEmail (p : Nat) (email : Email)
  | writeSender (p : Nat) (address : EmailAddress)
  | writeRules (p : Nat) (rules : ReplacementRules)

def act (out : Surroundings) (w : World) : Action → World × Except Failure Unit
  | .setServer domain port tlsMode verifyTlsCert =>
    ({ w with mailer := { w.mailer with
        serverDomain := domain
        serverPort := port
        serverTlsMode := tlsMode
        verifyServerTlsCert := verifyTlsCert } }, .ok ())
  | .setAuth username password =>
    ({ w with mailer := { w.mailer with authUsername := username, authPassword := password } },
      .ok ())
  | .setConnectionTimeout timeout => ({ w with mailer.connectionTimeout := timeout }, .ok ())
  | .enqueue email recipient sender replacementRules =>
    mail.enqueue out w email recipient sender replacementRules
  | .bulkEnqueue elem => mail.bulkEnqueue out w elem
  | .clearQueue => ({ w with mailer.queue := [] }, .ok ())
  | .processQueue => mail.processQueue out w
  | .writeEmail p email => ({ w with objects := w.objects.setEmail p email }, .ok ())
  | .writeSender p address =>
    ({ w with objects.sender := Function.update w.objects.sender p address }, .ok ())
  | .writeRules p rules =>
    ({ w with objects.rules := Function.update w.objects.rules p rules }, .ok ())

/-- A step is an action with its result. There is no step from a call that does not return. -/
def step (out : Surroundings) (w : World) (a : Action × Except Failure Unit) : Option World :=
  if (act out w a.1).2 = a.2 ∧ a.2 ≠ .error .diverges ∧ a.2 ≠ .error .undefined then
    some (act out w a.1).1
  else none

end Nawa.mail
