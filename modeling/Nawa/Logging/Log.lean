import Nawa.Lib.AssocMap
import Nawa.Lib.Transition
import Nawa.Util.Http

/-!
# `nawa::Log`

The loggers, with the variables that they share and what the streams have been sent. Everything
happens before static destruction, one step after the other. What the system answers comes with
the step: the host, the time, and whether a file can be opened.
-/

namespace Nawa.Log

inductive Level where
  | off
  | error
  | warning
  | informational
  | debug
  deriving DecidableEq

def Level.toNat : Level → Nat
  | .off => 0
  | .error => 1
  | .warning => 2
  | .informational => 3
  | .debug => 4

instance : LE Level := ⟨fun a b => a.toNat ≤ b.toNat⟩

instance (a b : Level) : Decidable (a ≤ b) := inferInstanceAs (Decidable (a.toNat ≤ b.toNat))

structure Data where
  appname : Bytes
  defaultLevel : Level := .informational
  deriving DecidableEq

/-- The streams that can be set: `cerr`, and those of the program. -/
inductive Stream where
  | cerr
  | other (n : Nat)
  deriving DecidableEq

/-- What `out` points to. -/
inductive Out where
  | null
  | stream (os : Stream)
  | logFile
  deriving DecidableEq

/-- Where text arrives: in a stream, or through the log file in a file. -/
inductive Sink where
  | stream (os : Stream)
  | file (filename : Bytes)
  deriving DecidableEq

/-- The variables of `Log.cpp`. An open log file is known by its name. -/
structure Shared where
  locked : Bool := false
  out : Out := .null
  logFile : Option Bytes := none
  outputLevel : Level := .informational
  extendedFormat : Bool := false
  hostnameStr : Bytes := []
  pid : Nat := 0
  instanceCount : UInt32 := 0

/-- The shared variables, the loggers that are alive, by address, and all text so far. -/
structure State extends Shared where
  objects : Lib.AssocMap Nat Data := .empty
  contents : Sink → Bytes := fun _ => []

/-! ## Construction and destruction -/

/-- `getSystemHostname` and `getpid`. -/
structure Host where
  hostname : Bytes
  pid : Nat

namespace Shared

/-- `Log()`. -/
def construct (s : Shared) (host : Host) : Data × Shared :=
  let s :=
    if s.instanceCount = 0 then
      { s with
        out := .stream .cerr
        hostnameStr := host.hostname
        pid := host.pid }
    else s
  ({ appname := bytes "nawa" }, { s with instanceCount := s.instanceCount + 1 })

/-- `Log(appname, level)`, which calls the first constructor. -/
def constructNamed (s : Shared) (host : Host) (appname : Bytes) (level : Level) : Data × Shared :=
  let (data, s) := s.construct host
  ({ data with appname := appname, defaultLevel := level }, s)

/-- `Log(level)`, which calls the first constructor. -/
def constructLevel (s : Shared) (host : Host) (level : Level) : Data × Shared :=
  let (data, s) := s.construct host
  ({ data with defaultLevel := level }, s)

def copy (s : Shared) (other : Data) : Data × Shared :=
  (other, { s with instanceCount := s.instanceCount + 1 })

/-- `operator=` from another object. -/
def assign (s : Shared) (other : Data) : Data × Shared :=
  (other, { s with instanceCount := s.instanceCount + 1 })

/-- `~Log`. -/
def destruct (s : Shared) : Shared :=
  let s := { s with instanceCount := s.instanceCount - 1 }
  if s.instanceCount = 0 then { s with logFile := none, locked := false } else s

/-! ## Settings -/

def setStream (s : Shared) (os : Stream) : Shared :=
  if s.locked then s else { s with out := .stream os }

def openFailed : Exception := ⟨1, bytes "Failed to open requested file for writing."⟩

/-- The file that was open is closed first, and `out` stays if the new one cannot be opened. -/
def setOutfile (s : Shared) (filename : Bytes) (opens : Bool) : Except Exception Unit × Shared :=
  if s.locked then (.ok (), s)
  else if opens then (.ok (), { s with logFile := some filename, out := .logFile })
  else (.error openFailed, { s with logFile := none })

def setOutputLevel (s : Shared) (level : Level) : Shared :=
  if s.locked then s else { s with outputLevel := level }

def setExtendedFormat (s : Shared) (useExtendedFormat : Bool) : Shared :=
  if s.locked then s else { s with extendedFormat := useExtendedFormat }

def lockStream (s : Shared) : Shared := { s with locked := true }

def isLocked (s : Shared) : Bool := s.locked

/-! ## Messages -/

/-- Where text arrives that is written to `out`. -/
def target (s : Shared) : Option Sink :=
  match s.out with
  | .null => none
  | .stream os => some (.stream os)
  | .logFile => s.logFile.map .file

/-- `localtime` of the present time, and `getProgramInvocationName`. -/
structure Moment where
  now : utils.Tm
  programInvocationName : Bytes

/-- What is written before a message in the extended format. -/
def extendedPrefix (s : Shared) (moment : Moment) : Bytes :=
  utils.getMonth moment.now.mon ++ bytes " " ++ utils.twoDigits moment.now.mday ++ bytes " " ++
    utils.twoDigits moment.now.hour ++ bytes ":" ++ utils.twoDigits moment.now.min ++ bytes ":" ++
    utils.twoDigits moment.now.sec ++ bytes " " ++ s.hostnameStr ++ bytes " " ++
    moment.programInvocationName ++ bytes "[" ++ decimal s.pid ++ bytes "]: "

/-- What a message is written as. -/
def message (data : Data) (msg : Bytes) : Bytes :=
  bytes "[" ++ data.appname ++ bytes "] " ++ msg ++ bytes "\n"

end Shared

/-- Text that is sent to a sink, if there is one. -/
def append (sink : Option Sink) (text : Bytes) (contents : Sink → Bytes) (k : Sink) : Bytes :=
  if sink = some k then contents k ++ text else contents k

/-- `write(msg, level)`. -/
def State.write (s : State) (data : Data) (msg : Bytes) (level : Level) (moment : Shared.Moment) :
    State :=
  if level ≤ s.outputLevel ∧ s.outputLevel ≠ .off ∧ level ≠ .off then
    let contents :=
      if s.extendedFormat then append s.target (s.extendedPrefix moment) s.contents
      else s.contents
    { s with contents := append (some (.stream .cerr)) (Shared.message data msg) contents }
  else s

/-! ## Steps -/

/-- What is called on the class, and what writes: `write` and `operator()`, which write at the
default level of the logger if none is given. -/
inductive Call where
  | setStream (os : Stream)
  | setOutfile (filename : Bytes) (opens : Bool)
  | setOutputLevel (level : Level)
  | setExtendedFormat (useExtendedFormat : Bool)
  | lockStream
  | write (this : Nat) (msg : Bytes) (level : Option Level) (moment : Shared.Moment)

inductive Step where
  | construct (this : Nat) (host : Host)
  | constructNamed (this : Nat) (host : Host) (appname : Bytes) (level : Level)
  | constructLevel (this : Nat) (host : Host) (level : Level)
  | copy (this other : Nat)
  | assign (this other : Nat)
  | destroy (this : Nat)
  | setAppname (this : Nat) (appname : Bytes)
  | setDefaultLogLevel (this : Nat) (level : Level)
  | call (c : Call)

namespace State

/-- A new object at an address where there is none. -/
def place (s : State) (this : Nat) (made : Data × Shared) : Option State :=
  match s.objects.lookup this with
  | some _ => none
  | none => some { s with toShared := made.2, objects := s.objects.insert this made.1 }

def setData (s : State) (this : Nat) (change : Data → Data) : Option State :=
  (s.objects.lookup this).map fun data =>
    { s with objects := s.objects.insert this (change data) }

/-- A call. An exception of `setOutfile` goes to the caller. -/
def call (s : State) : Call → Option State
  | .setStream os => some { s with toShared := s.setStream os }
  | .setOutfile filename opens => some { s with toShared := (s.setOutfile filename opens).2 }
  | .setOutputLevel level => some { s with toShared := s.setOutputLevel level }
  | .setExtendedFormat useExtendedFormat =>
    some { s with toShared := s.setExtendedFormat useExtendedFormat }
  | .lockStream => some { s with toShared := s.lockStream }
  | .write this msg level moment =>
    (s.objects.lookup this).map fun data =>
      s.write data msg (level.getD data.defaultLevel) moment

/-- A step, which is not enabled on an object that is not alive. -/
def step (s : State) : Step → Option State
  | .construct this host => s.place this (s.construct host)
  | .constructNamed this host appname level =>
    s.place this (s.constructNamed host appname level)
  | .constructLevel this host level => s.place this (s.constructLevel host level)
  | .copy this other => (s.objects.lookup other).bind fun data => s.place this (s.copy data)
  | .assign this other =>
    match s.objects.lookup this, s.objects.lookup other with
    | some _, some data =>
      if this ≠ other then
        some
          { s with
            toShared := (s.assign data).2
            objects := s.objects.insert this (s.assign data).1 }
      else some s
    | _, _ => none
  | .destroy this =>
    (s.objects.lookup this).map fun _ =>
      { s with
        toShared := s.destruct
        objects := s.objects.erase this }
  | .setAppname this appname => s.setData this fun data => { data with appname := appname }
  | .setDefaultLogLevel this level => s.setData this fun data => { data with defaultLevel := level }
  | .call c => s.call c

/-- The number of loggers that are alive. -/
def live (s : State) : Nat := s.objects.entries.length

end State

end Nawa.Log
