import Nawa.Util.Bytes
import Mathlib.Logic.Function.Basic

/-!
# The global session map

The anonymous namespace of `src/session/Session.cpp`: the objects that hold the data of one
session each, the map from session ids to them, and the garbage collector. Objects are shared by
pointer between the map and the connections attached to a session; a pointer is an address here,
an object is never moved, and one that nothing points to any more simply stays.

A store carries the proof that the map points at constructed objects only.
-/

namespace Nawa

/-- The data of one session. Values are of any type `V`, the source's `std::any`. -/
structure SessionData (V : Type) where
  data : Bytes → Option V := fun _ => none
  expires : Int := 0
  sourceIP : Bytes := []

/-- The objects constructed so far, at the addresses below `next`, and the map by session id. -/
structure SessionStore (V : Type) where
  heap : Nat → SessionData V
  next : Nat
  sessionData : Bytes → Option Nat
  constructed : ∀ id a, sessionData id = some a → a < next

/-- The value of an arithmetic result in `time_t`. -/
def toTimeT (n : Int) : Int := (n + 2 ^ 63) % 2 ^ 64 - 2 ^ 63

namespace SessionStore

variable {V : Type}

/-- The store of a server that has just been started. -/
def empty : SessionStore V where
  heap := fun _ => {}
  next := 0
  sessionData := fun _ => none
  constructed := nofun

/-- `sessionData.count(id) > 0`. -/
def count (store : SessionStore V) (id : Bytes) : Bool := (store.sessionData id).isSome

/-- `sessionData.erase(id)`. -/
def erase (store : SessionStore V) (id : Bytes) : SessionStore V where
  heap := store.heap
  next := store.next
  sessionData := Function.update store.sessionData id none
  constructed := by
    intro id' a h
    rw [Function.update_apply] at h
    split at h
    · cases h
    · exact store.constructed id' a h

/-- A write to the object at an address. -/
def modify (store : SessionStore V) (a : Nat) (f : SessionData V → SessionData V) :
    SessionStore V where
  heap := Function.update store.heap a (f (store.heap a))
  next := store.next
  sessionData := store.sessionData
  constructed := store.constructed

/-- `make_shared` of an object, entered in the map. -/
def insert (store : SessionStore V) (id : Bytes) (object : SessionData V) : SessionStore V where
  heap := Function.update store.heap store.next object
  next := store.next + 1
  sessionData := Function.update store.sessionData id (some store.next)
  constructed := by
    intro id' a h
    rw [Function.update_apply] at h
    split at h
    · cases h
      exact Nat.lt_succ_self _
    · exact Nat.lt_succ_of_lt (store.constructed id' a h)

/-- `Session::destroy`. -/
def clear (store : SessionStore V) : SessionStore V where
  heap := store.heap
  next := store.next
  sessionData := fun _ => none
  constructed := nofun

/-- `collectGarbage`, with the clock that the loop reads at each entry. -/
def collectGarbage (store : SessionStore V) (time : Bytes → Int) : SessionStore V where
  heap := store.heap
  next := store.next
  sessionData := fun id =>
    (store.sessionData id).filter fun a => ¬ (store.heap a).expires < time id
  constructed := fun id a h => store.constructed id a (Option.filter_eq_some_iff.mp h).1

/-! ## The critical sections of `Session::start` -/

/-- The section that looks a presented id up: it erases an expired entry, and in strict mode one
of another client; it attaches to a valid session and moves its expiry. -/
def lookup (store : SessionStore V) (validateIP remoteAddr : Bytes) (keepalive : Nat)
    (time time' : Int) (sessionId : Bytes) : SessionStore V × Option Nat :=
  match store.sessionData sessionId with
  | none => (store, none)
  | some a =>
    if (store.heap a).expires ≤ time then (store.erase sessionId, none)
    else if (validateIP = bytes "strict" ∨ validateIP = bytes "lax") ∧
        (store.heap a).sourceIP ≠ remoteAddr then
      (if validateIP = bytes "strict" then store.erase sessionId else store, none)
    else
      (store.modify a fun object => { object with expires := toTimeT (time' + keepalive) }, some a)

/-- The section that creates a session under the first id drawn that is not in the map. `draws`
are the answers of `generateID`. -/
def create (store : SessionStore V) (remoteAddr : Bytes) (keepalive : Nat) (time : Int)
    (draws : List Bytes) : Option (SessionStore V × Bytes × Nat) :=
  match draws.find? fun id => !store.count id with
  | none => none
  | some id =>
    some (store.insert id { expires := toTimeT (time + keepalive), sourceIP := remoteAddr },
      id, store.next)

end SessionStore

end Nawa
