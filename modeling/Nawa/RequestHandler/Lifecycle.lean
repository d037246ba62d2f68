import Nawa.Lib.Lifetime
import Nawa.Util.Bytes

/-!
# The life of a request handler

`start`, `stop`, `terminate`, `join` and the destructor of both request handlers, from a handler
that has been constructed on: what each call answers, and what it does to the threads of the
pool, or to the manager of fastcgi++. The calls do not overlap: each has returned when the next one
is made. While `join` waits for the threads of the pool, the source lets `stop` and `terminate` of
another thread through to the server, as `joined` is set only at its end.
-/

namespace Nawa

/-! ## The HTTP handler -/

/-- What becomes of the server and of the threads that run it. -/
inductive ServerEvent where
  | run (thread : Nat)
  | stop
  | join (thread : Nat)
  deriving DecidableEq

/-- `HttpRequestHandler::Data`, with the threads numbered as they are started. -/
structure HttpRequestHandler where
  server : Bool := true
  concurrency : Nat := 1
  threadPool : List Nat := []
  requestHandlingActive : Bool := false
  joined : Bool := false

/-- A call of the handler. A start finds that so many more threads can be had. -/
inductive HttpRequestHandler.Call where
  | start (available : Nat)
  | stop
  | terminate
  | join

namespace HttpRequestHandler

/-- The constructor, once it listens. -/
def construct (concurrency : Int) : HttpRequestHandler :=
  { concurrency := if 0 < concurrency then concurrency.toNat else 1 }

def alreadyJoined : Exception := ⟨10, bytes "HttpRequestHandler was already joined."⟩

def startFailed : Exception := ⟨1, bytes "An error occurred during start of request handling."⟩

def notAvailable : Exception := ⟨2, bytes "HTTP handler is not available."⟩

/-- `start`. A thread that cannot be had leaves those before it in the pool. -/
def start (h : HttpRequestHandler) (available : Nat) :
    HttpRequestHandler × List ServerEvent × Except Exception Unit :=
  if h.requestHandlingActive then (h, [], .ok ())
  else if h.joined then (h, [], .error alreadyJoined)
  else if h.server then
    let threads := List.range' h.threadPool.length (min h.concurrency available)
    let h := { h with threadPool := h.threadPool ++ threads }
    if h.concurrency ≤ available then
      ({ h with requestHandlingActive := true }, threads.map .run, .ok ())
    else (h, threads.map .run, .error startFailed)
  else (h, [], .error notAvailable)

def stop (h : HttpRequestHandler) : HttpRequestHandler × List ServerEvent :=
  if h.joined then (h, []) else if h.server then (h, [.stop]) else (h, [])

def terminate (h : HttpRequestHandler) : HttpRequestHandler × List ServerEvent :=
  if h.joined then (h, []) else if h.server then (h, [.stop]) else (h, [])

def join (h : HttpRequestHandler) : HttpRequestHandler × List ServerEvent :=
  if h.joined then (h, [])
  else ({ h with joined := true, threadPool := [] }, h.threadPool.map .join)

/-- The destructor. -/
def destroy (h : HttpRequestHandler) : List ServerEvent :=
  (if h.requestHandlingActive && !h.joined then [.stop] else []) ++
    if h.joined then [] else h.threadPool.map .join

def call (h : HttpRequestHandler) : Call → HttpRequestHandler × List ServerEvent
  | .start available => ((h.start available).1, (h.start available).2.1)
  | .stop => h.stop
  | .terminate => h.terminate
  | .join => h.join

/-- What happens to the server and its threads in the life of a handler. -/
def life (concurrency : Int) (calls : List Call) : List ServerEvent :=
  Lib.Lifetime.events call destroy (construct concurrency) calls

end HttpRequestHandler

/-! ## The FastCGI handler -/

/-- What is asked of the manager; with `release` it is gone. -/
inductive ManagerEvent where
  | start
  | stop
  | terminate
  | join
  | release
  deriving DecidableEq

/-- `FastcgiRequestHandler::Data`. -/
structure FastcgiRequestHandler where
  fastcgippManager : Bool := true
  requestHandlingActive : Bool := false
  joined : Bool := false

/-- A call of the handler. A start is told whether the manager starts. -/
inductive FastcgiRequestHandler.Call where
  | start (starts : Bool)
  | stop
  | terminate
  | join

namespace FastcgiRequestHandler

def alreadyJoined : Exception := ⟨10, bytes "FastcgiRequestHandler was already joined."⟩

def startFailed : Exception :=
  ⟨1, bytes "An unknown error occurred during start of request handling."⟩

def notAvailable : Exception := ⟨2, bytes "FastCGI manager is not available."⟩

def start (h : FastcgiRequestHandler) (starts : Bool) :
    FastcgiRequestHandler × List ManagerEvent × Except Exception Unit :=
  if h.requestHandlingActive then (h, [], .ok ())
  else if h.joined then (h, [], .error alreadyJoined)
  else if h.fastcgippManager then
    if starts then ({ h with requestHandlingActive := true }, [.start], .ok ())
    else (h, [.start], .error startFailed)
  else (h, [], .error notAvailable)

def stop (h : FastcgiRequestHandler) : FastcgiRequestHandler × List ManagerEvent :=
  if h.joined then (h, []) else if h.fastcgippManager then (h, [.stop]) else (h, [])

def terminate (h : FastcgiRequestHandler) : FastcgiRequestHandler × List ManagerEvent :=
  if h.joined then (h, []) else if h.fastcgippManager then (h, [.terminate]) else (h, [])

def join (h : FastcgiRequestHandler) : FastcgiRequestHandler × List ManagerEvent :=
  if h.joined then (h, [])
  else if h.fastcgippManager then
    ({ h with joined := true, fastcgippManager := false }, [.join, .release])
  else (h, [])

/-- The destructor. -/
def destroy (h : FastcgiRequestHandler) : List ManagerEvent :=
  (if h.requestHandlingActive && !h.joined then [.terminate] else []) ++
    if h.joined then [] else [.join, .release]

def call (h : FastcgiRequestHandler) : Call → FastcgiRequestHandler × List ManagerEvent
  | .start starts => ((h.start starts).1, (h.start starts).2.1)
  | .stop => h.stop
  | .terminate => h.terminate
  | .join => h.join

/-- What the manager is asked in the life of a handler. -/
def life (calls : List Call) : List ManagerEvent := Lib.Lifetime.events call destroy {} calls

end FastcgiRequestHandler

end Nawa
