import Nawa.Laws.Session.Outcomes
import Nawa.Session.Calls

/-!
# The address that a session belongs to

A session object keeps the address of the client that it has been created for, whatever calls
follow. A start from another address does not attach to it where addresses are validated.
-/

namespace Nawa

variable {V : Type}

namespace SessionStore

/-- Objects stay allocated and keep their address. -/
structure KeepsSourceIP (store store' : SessionStore V) : Prop where
  next : store.next ≤ store'.next
  sourceIP : ∀ a, a < store.next → (store'.heap a).sourceIP = (store.heap a).sourceIP

namespace KeepsSourceIP

theorem of_heap {store store' : SessionStore V} (hheap : store'.heap = store.heap)
    (hnext : store'.next = store.next) : KeepsSourceIP store store' :=
  ⟨hnext.ge, fun a _ => by rw [hheap]⟩

theorem refl (store : SessionStore V) : KeepsSourceIP store store := of_heap rfl rfl

theorem trans {store store' store'' : SessionStore V} (h : KeepsSourceIP store store')
    (h' : KeepsSourceIP store' store'') : KeepsSourceIP store store'' where
  next := h.next.trans h'.next
  sourceIP := fun a ha => (h'.sourceIP a (ha.trans_le h.next)).trans (h.sourceIP a ha)

theorem modify (store : SessionStore V) (a : Nat) {f : SessionData V → SessionData V}
    (hf : ∀ object, (f object).sourceIP = object.sourceIP) :
    KeepsSourceIP store (store.modify a f) where
  next := Nat.le_refl _
  sourceIP := by
    intro b _
    rw [heap_modify, Function.update_apply]
    split
    · next h => rw [h, hf]
    · rfl

theorem insert (store : SessionStore V) (id : Bytes) (object : SessionData V) :
    KeepsSourceIP store (store.insert id object) where
  next := Nat.le_succ _
  sourceIP := by
    intro b hb
    rw [heap_insert, Function.update_of_ne (Nat.ne_of_lt hb)]

end KeepsSourceIP

end SessionStore

open SessionStore (KeepsSourceIP)

namespace Session

variable {config : Config} {remoteAddr sessionId : Bytes} {ctx : StartContext}
  {keepalive : Option Nat} {store : SessionStore V} {session : Session}

theorem keepsSourceIP_finish (store : SessionStore V) (a : Nat) (sessionId : Bytes) :
    KeepsSourceIP store (finish config ctx store session a sessionId).store := by
  obtain ⟨store', hfinish, hcollected⟩ := finish_cases config ctx store session a sessionId
  rw [hfinish]
  exact .of_heap hcollected.heap hcollected.next

theorem keepsSourceIP_initiate (k : Nat) (store : SessionStore V) :
    KeepsSourceIP store (initiate config remoteAddr ctx k store session).store := by
  rw [initiate]
  cases hcreate : store.create remoteAddr k ctx.time ctx.draws with
  | none => exact .refl store
  | some created =>
    obtain ⟨store', id, a⟩ := created
    obtain ⟨-, -, rfl, rfl⟩ := SessionStore.create_cases hcreate
    exact (KeepsSourceIP.insert _ _ _).trans (keepsSourceIP_finish _ _ _)

theorem keepsSourceIP_start (config : Config) (remoteAddr : Bytes) (ctx : StartContext)
    (sessionId : Bytes) (keepalive : Option Nat) (store : SessionStore V) (session : Session) :
    KeepsSourceIP store
      (start config remoteAddr ctx sessionId keepalive store session).store := by
  cases hdata : session.currentData with
  | some a =>
    rw [start, hdata]
    exact .refl store
  | none =>
    cases hkeep : sessionKeepalive config keepalive with
    | error e =>
      simp only [start, hdata, hkeep]
      exact .refl store
    | ok k =>
      by_cases h : ∃ a, Resumable config remoteAddr ctx.time store sessionId a
      · obtain ⟨a, ha⟩ := h
        rw [start_resumes hdata hkeep ha]
        refine KeepsSourceIP.trans (.modify store a ?_) (keepsSourceIP_finish _ _ _)
        exact fun _ => rfl
      · obtain ⟨store', hstart, hrefused⟩ := start_refused hdata hkeep h
        have hkept : KeepsSourceIP store store' := by
          rcases hrefused with rfl | rfl
          · exact .refl _
          · exact .of_heap rfl rfl
        rw [hstart]
        exact hkept.trans (keepsSourceIP_initiate k store')

/-! ## Calls -/

namespace Server

theorem keepsSourceIP_call (s : Server V) (time : Int) (call : Call V) :
    KeepsSourceIP s.store (s.call time call).1.store := by
  cases call with
  | start c config remoteAddr draws rd sessionId keepalive =>
    exact keepsSourceIP_start config remoteAddr ⟨time, draws, rd⟩ sessionId keepalive s.store
      (s.session c)
  | set c key value =>
    simp only [Server.call, written, Session.set]
    cases (s.session c).currentData with
    | none => exact .refl _
    | some a => exact .modify _ a fun _ => rfl
  | unset c key =>
    simp only [Server.call, written, Session.unset]
    cases (s.session c).currentData with
    | none => exact .refl _
    | some a => exact .modify _ a fun _ => rfl
  | isSet c key => exact .refl _
  | get c key => exact .refl _
  | invalidate c =>
    simp only [Server.call, Session.invalidate]
    cases (s.session c).currentData with
    | none => exact .refl _
    | some a => exact .of_heap rfl rfl
  | collectGarbage => exact .of_heap rfl rfl

theorem keepsSourceIP_after (s : Server V) (calls : List (Int × Call V)) :
    KeepsSourceIP s.store (s.after calls).store := by
  induction calls generalizing s with
  | nil => exact .refl _
  | cons e calls ih => exact (keepsSourceIP_call s e.1 e.2).trans (ih _)

end Server

/-- A start on an idle connection, which validates addresses, attaches only to objects of its own
address. -/
theorem sourceIP_of_start (hidle : session.currentData = none)
    (hvalidate : validateIP config = bytes "strict" ∨ validateIP config = bytes "lax") {a : Nat}
    (hallocated : a < store.next)
    (h : (start config remoteAddr ctx sessionId keepalive store session).session.currentData =
      some a) : (store.heap a).sourceIP = remoteAddr := by
  rw [← (keepsSourceIP_start config remoteAddr ctx sessionId keepalive store session).sourceIP a
    hallocated]
  rcases start_cases config remoteAddr ctx sessionId keepalive store hidle with
    ⟨e, -, hstart⟩ | ⟨k, -, ⟨store', hstart, -⟩ | ⟨store', id, a', hstart, hattached⟩⟩
  · rw [hstart, hidle] at h
    cases h
  · rw [hstart, hidle] at h
    cases h
  · obtain ⟨store'', hfinish, hcollected⟩ := finish_cases config ctx store' session a' id
    rw [hstart, hfinish] at h ⊢
    obtain rfl : a' = a := Option.some.inj h
    rw [hcollected.heap]
    exact hattached.address.resolve_left (not_not_intro hvalidate)

end Session

end Nawa
