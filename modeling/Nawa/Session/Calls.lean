import Nawa.Session.Session

/-!
# Sequences of session calls

The calls that any number of connections make on the global store, one after the other, each at
a time of the clock, and the answers they get. The collector is a call of its own; besides, a
`start` runs it when its random number says so.
-/

namespace Nawa.Session

inductive Call (V : Type) where
  | start (c : Nat) (config : Config) (remoteAddr : Bytes) (draws : List Bytes) (rd : Nat)
      (sessionId : Bytes) (keepalive : Option Nat)
  | set (c : Nat) (key : Bytes) (value : V)
  | unset (c : Nat) (key : Bytes)
  | isSet (c : Nat) (key : Bytes)
  | get (c : Nat) (key : Bytes)
  | invalidate (c : Nat)
  | collectGarbage

/-- What a caller sees. `start` answers whether the connection is now attached to a session that
was there before the call, and with an id or a failure. -/
inductive Answer (V : Type) where
  | started (resumed : Bool) (result : Except Failure Bytes)
  | written (result : Except Failure Unit)
  | isSet (answer : Bool)
  | value (answer : Option V)
  | invalidated

/-- The store and the session object of each connection. -/
structure Server (V : Type) where
  store : SessionStore V
  session : Nat → Session

namespace Server

variable {V : Type}

/-- The answer of `set` and `unset`, and the server after it. -/
def written (s : Server V) (result : Except Failure (SessionStore V)) :
    Server V × Option (Answer V) :=
  match result with
  | .ok store => ({ s with store := store }, some (.written (.ok ())))
  | .error e => (s, some (.written (.error e)))

/-- One call at a time of the clock. The collector answers nothing. -/
def call (s : Server V) (time : Int) : Call V → Server V × Option (Answer V)
  | .start c config remoteAddr draws rd sessionId keepalive =>
    let r := Session.start config remoteAddr ⟨time, draws, rd⟩ sessionId keepalive s.store
      (s.session c)
    (⟨r.store, Function.update s.session c r.session⟩,
      some (.started (r.session.currentData.any (· < s.store.next)) r.result))
  | .set c key value => s.written ((s.session c).set key value s.store)
  | .unset c key => s.written ((s.session c).unset key s.store)
  | .isSet c key => (s, some (.isSet ((s.session c).isSet s.store key)))
  | .get c key => (s, some (.value ((s.session c).get s.store key)))
  | .invalidate c =>
    let r := (s.session c).invalidate s.store
    (⟨r.1, Function.update s.session c r.2⟩, some .invalidated)
  | .collectGarbage => ({ s with store := s.store.collectGarbage fun _ => time }, none)

/-- The answers to a sequence of calls. -/
def answers (s : Server V) : List (Int × Call V) → List (Answer V)
  | [] => []
  | (time, call) :: rest =>
    (s.call time call).2.toList ++ answers (s.call time call).1 rest

/-- The server after a sequence of calls. -/
def after (s : Server V) (calls : List (Int × Call V)) : Server V :=
  calls.foldl (fun s e => (s.call e.1 e.2).1) s

end Server

namespace Call

variable {V : Type}

/-- A call without its say on garbage collection; of the collector nothing remains. -/
def withoutCollection : Call V → Option (Call V)
  | .start c config remoteAddr draws _ sessionId keepalive =>
    some (.start c config remoteAddr draws 0 sessionId keepalive)
  | .collectGarbage => none
  | call => some call

/-- The ids that `generateID` returns during a call. -/
def draws : Call V → List Bytes
  | .start _ _ _ draws _ _ _ => draws
  | _ => []

end Call

/-- A sequence of calls up to the points at which garbage is collected. -/
def withoutCollections {V : Type} (calls : List (Int × Call V)) : List (Int × Call V) :=
  calls.filterMap fun e => e.2.withoutCollection.map fun call => (e.1, call)

end Nawa.Session
