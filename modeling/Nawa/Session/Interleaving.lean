import Nawa.Session.Session

/-!
# Sessions under interleaving

Any number of connections work on the global store at once. A step is one critical section of a
call together with the code of its own thread around it, which nothing else can observe: the
lookup of `start`, the creation of a session, a write, an invalidation, a garbage collection.
`start` that has found nothing to attach to gives up the lock before it takes it again to create
a session; in between the connection is `creating`, with the keepalive it has computed.

The log records what the calls did, and `issued` what `generateID` has returned. No step reads
either of them.
-/

namespace Nawa.Session

/-- What a step did, with the connection that did it. -/
inductive Event (V : Type) where
  /-- `start` attached the connection to the object that the map holds under the id. -/
  | attached (c : Nat) (id : Bytes) (a : Nat)
  /-- `start` created the object under the id. -/
  | created (c : Nat) (id : Bytes) (a : Nat)
  /-- `start` returned the id of the session that the connection had already established. -/
  | returned (c : Nat) (id : Bytes)
  /-- `set`, or `unset` where there is no value, on a connection attached to the id. -/
  | wrote (c : Nat) (id key : Bytes) (value : Option V)
  deriving DecidableEq

/-- The store, the session object and the pending creation of each connection, and the history. -/
structure System (V : Type) where
  store : SessionStore V
  session : Nat → Session
  creating : Nat → Option Nat
  issued : List Bytes
  log : List (Event V)

inductive Step (V : Type) where
  /-- `start` up to the end of its first critical section; `cookieName` is what
  `start(Cookie)` has read from the configuration. -/
  | start (c : Nat) (cookieName : Option Bytes) (sessionId validateIP remoteAddr : Bytes)
      (keepalive : Nat) (time time' : Int)
  /-- The second critical section of `start`. -/
  | create (c : Nat) (remoteAddr : Bytes) (time : Int) (draws : List Bytes)
  | set (c : Nat) (key : Bytes) (value : V)
  | unset (c : Nat) (key : Bytes)
  | invalidate (c : Nat)
  | collectGarbage (time : Bytes → Int)

/-- The connection that makes the step, unless it is a garbage collection. -/
def Step.connection {V : Type} : Step V → Option Nat
  | .start c _ _ _ _ _ _ _ | .create c _ _ _ | .set c _ _ | .unset c _ | .invalidate c => some c
  | .collectGarbage _ => none

/-- The session object once `start(Cookie)` has set the name of its cookie. -/
def named (session : Session) : Option Bytes → Session
  | none => session
  | some cookieName => { session with cookieName := cookieName }

namespace System

variable {V : Type}

def init : System V where
  store := .empty
  session := fun _ => {}
  creating := fun _ => none
  issued := []
  log := []

/-- The connection is attached to an object, under an id. -/
def attach (s : System V) (c : Nat) (id : Bytes) (a : Nat) : Nat → Session :=
  Function.update s.session c { s.session c with currentData := some a, currentID := id }

/-- A `start` call on a connection that is in no other call. -/
def stepStart (s : System V) (c : Nat) (cookieName : Option Bytes)
    (sessionId validateIP remoteAddr : Bytes) (keepalive : Nat) (time time' : Int) : System V :=
  match (s.session c).currentData with
  | some _ => { s with log := s.log ++ [.returned c (s.session c).currentID] }
  | none =>
    let s := { s with session := Function.update s.session c ((s.session c).named cookieName) }
    if sessionId = [] then { s with creating := Function.update s.creating c (some keepalive) }
    else
      match s.store.lookup validateIP remoteAddr keepalive time time' sessionId with
      | (store, some a) =>
        { s with
          store := store
          session := s.attach c sessionId a
          log := s.log ++ [.attached c sessionId a] }
      | (store, none) =>
        { s with
          store := store
          creating := Function.update s.creating c (some keepalive) }

def stepCreate (s : System V) (c : Nat) (keepalive : Nat) (remoteAddr : Bytes) (time : Int)
    (draws : List Bytes) : Option (System V) :=
  match s.store.create remoteAddr keepalive time draws with
  | none => none
  | some (store, id, a) =>
    some
      { store := store
        session := s.attach c id a
        creating := Function.update s.creating c none
        issued := draws ++ s.issued
        log := s.log ++ [.created c id a] }

/-- `set` and `unset` on an established session; on any other they throw and do nothing. -/
def stepWrite (s : System V) (c : Nat) (key : Bytes) (value : Option V) : Option (System V) :=
  match (s.session c).currentData with
  | none => none
  | some a =>
    some
      { s with
        store := s.store.modify a (write key value)
        log := s.log ++ [.wrote c (s.session c).currentID key value] }

def stepInvalidate (s : System V) (c : Nat) : System V :=
  let (store, session) := (s.session c).invalidate s.store
  { s with store := store, session := Function.update s.session c session }

/-- One step. A connection whose `start` call is under way makes no other call. -/
def step (s : System V) : Step V → Option (System V)
  | .start c cookieName sessionId validateIP remoteAddr keepalive time time' =>
    if (s.creating c).isSome then none
    else some (s.stepStart c cookieName sessionId validateIP remoteAddr keepalive time time')
  | .create c remoteAddr time draws =>
    match s.creating c with
    | none => none
    | some keepalive => s.stepCreate c keepalive remoteAddr time draws
  | .set c key value =>
    if (s.creating c).isSome then none else s.stepWrite c key (some value)
  | .unset c key =>
    if (s.creating c).isSome then none else s.stepWrite c key none
  | .invalidate c =>
    if (s.creating c).isSome then none else some (s.stepInvalidate c)
  | .collectGarbage time => some { s with store := s.store.collectGarbage time }

/-- The assumption about `generateID`: no id is returned twice. -/
def Fresh (s : System V) : Step V → Prop
  | .create _ _ _ draws => draws.Nodup ∧ ∀ d ∈ draws, d ∉ s.issued
  | _ => True

/-- An object was created under an id. -/
def CreatedUnder (s : System V) (a : Nat) (id : Bytes) : Prop := ∃ c, .created c id a ∈ s.log

end System

/-- The value that the last write to a key left, over the connections attached to an id. -/
def lastWrite {V : Type} (log : List (Event V)) (id key : Bytes) : Option V :=
  log.foldl (fun value e => match e with
    | .wrote _ id' key' value' => if id' = id ∧ key' = key then value' else value
    | _ => value) none

end Nawa.Session
