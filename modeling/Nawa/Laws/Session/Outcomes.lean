import Nawa.Laws.Session.Start
import Nawa.Laws.Util.Bytes
import Nawa.Util.Utils

/-!
# What a call of `start` ends in

A call on a connection without a session either fails at the keepalive, or draws ids without end,
or attaches to an object that the map holds, after which only the collector can fail
(`start_cases`). No configuration is excluded.
-/

namespace Nawa

namespace Session

variable {V : Type}

/-- What `generateID` answers: the SHA-1 digest of some random input, in hexadecimal. -/
def IsSessionID (id : Bytes) : Prop :=
  ∃ digest : Bytes, digest.length = 20 ∧ id = utils.hexDump digest

theorem IsSessionID.ne_nil {id : Bytes} (h : IsSessionID id) : id ≠ [] := by
  obtain ⟨digest, hlength, rfl⟩ := h
  obtain ⟨c, digest, rfl⟩ := List.exists_cons_of_ne_nil (l := digest) (by rintro rfl; cases hlength)
  exact List.cons_ne_nil _ _

/-- How the collector's part of a call ends. -/
def collectorResult (config : Config) : Except Failure Unit :=
  match gcDivisor config with
  | .error e => .error e
  | .ok divisor => if divisor = 0 then .error .undefined else .ok ()

/-- The end of a call keeps the session, whatever comes of the collector. -/
theorem finish_cases (config : Config) (ctx : StartContext) (store : SessionStore V)
    (session : Session) (a : Nat) (sessionId : Bytes) :
    ∃ store', finish config ctx store session a sessionId =
      ⟨store', { session with currentData := some a, currentID := sessionId },
        (collectorResult config).map fun _ => sessionId⟩ ∧
        Collected ctx.time store store' := by
  simp only [finish, runGarbageCollection, collectorResult, gcDivisor]
  cases configNumber (config.get (bytes "session") (bytes "gc_divisor")) 100 with
  | error e => exact ⟨store, rfl, .refl _ _⟩
  | ok divisor =>
    dsimp only
    by_cases hzero : divisor = 0
    · simp only [if_pos hzero]
      exact ⟨store, rfl, .refl _ _⟩
    · simp only [if_neg hzero]
      by_cases hrun : ctx.rd % divisor = 0
      · simp only [if_pos hrun]
        exact ⟨_, rfl, collected_collectGarbage _ _⟩
      · simp only [if_neg hrun]
        exact ⟨store, rfl, .refl _ _⟩

/-- The store after a call has attached to an object, in front of the collector. -/
structure Attached (config : Config) (remoteAddr : Bytes) (ctx : StartContext) (keepalive : Nat)
    (store : SessionStore V) (sessionId : Bytes) (store' : SessionStore V) (id : Bytes) (a : Nat) :
    Prop where
  entry : store'.sessionData id = some a
  expires : (store'.heap a).expires = toTimeT (ctx.time + keepalive)
  address : ¬ (validateIP config = bytes "strict" ∨ validateIP config = bytes "lax") ∨
    (store'.heap a).sourceIP = remoteAddr
  origin : sessionId ≠ [] ∧ id = sessionId ∧ store.sessionData sessionId = some a ∨
    id ∈ ctx.draws

section Call

variable {config : Config} {remoteAddr sessionId : Bytes} {ctx : StartContext}
  {keepalive : Option Nat} {store : SessionStore V} {session : Session}

theorem initiate_cases (k : Nat) (store : SessionStore V) (sessionId : Bytes)
    (store₀ : SessionStore V) :
    (initiate config remoteAddr ctx k store session = ⟨store, session, .error .diverges⟩ ∧
      ∀ d ∈ ctx.draws, store.sessionData d ≠ none) ∨
    ∃ store' id a, initiate config remoteAddr ctx k store session =
        finish config ctx store' session a id ∧
      Attached config remoteAddr ctx k store₀ sessionId store' id a := by
  rw [initiate]
  cases hcreate : store.create remoteAddr k ctx.time ctx.draws with
  | none =>
    refine .inl ⟨rfl, fun d hd hnone => ?_⟩
    rw [SessionStore.create] at hcreate
    split at hcreate
    · next hfind =>
      have hcount := List.find?_eq_none.mp hfind d hd
      rw [SessionStore.count, hnone] at hcount
      exact hcount rfl
    · cases hcreate
  | some created =>
    obtain ⟨store', id, a⟩ := created
    obtain ⟨hdrawn, -, rfl, rfl⟩ := SessionStore.create_cases hcreate
    refine .inr ⟨_, id, store.next, rfl,
      { entry := ?_, expires := ?_, address := ?_, origin := .inr hdrawn }⟩
    · rw [SessionStore.sessionData_insert, Function.update_self]
    · rw [SessionStore.heap_insert, Function.update_self]
    · refine .inr ?_
      rw [SessionStore.heap_insert, Function.update_self]

/-- A session that may be resumed is resumed, whatever comes of the collector. -/
theorem start_resumes {k a : Nat} (hidle : session.currentData = none)
    (hkeep : sessionKeepalive config keepalive = .ok k)
    (h : Resumable config remoteAddr ctx.time store sessionId a) :
    start config remoteAddr ctx sessionId keepalive store session =
      finish config ctx
        (store.modify a fun object => { object with expires := toTimeT (ctx.time + k) }) session a
        sessionId := by
  have hlookup := lookup_of_resumable (k := k) ctx.time h
  rw [validateIP] at hlookup
  simp only [start, hidle, hkeep, if_neg h.nonempty, hlookup]

/-- Without a resumable session the call goes on to create one; at most the presented entry has
gone by then. -/
theorem start_refused {k : Nat} (hidle : session.currentData = none)
    (hkeep : sessionKeepalive config keepalive = .ok k)
    (h : ¬ ∃ a, Resumable config remoteAddr ctx.time store sessionId a) :
    ∃ store', start config remoteAddr ctx sessionId keepalive store session =
        initiate config remoteAddr ctx k store' session ∧
      (store' = store ∨ store' = store.erase sessionId) := by
  by_cases hne : sessionId = []
  · refine ⟨store, ?_, .inl rfl⟩
    simp only [start, hidle, hkeep, if_pos hne]
  · obtain ⟨store', hlookup, -⟩ := lookup_of_not_resumable (k := k) hne ctx.time h
    have hcases := SessionStore.lookup_cases hlookup
    rw [validateIP] at hlookup
    refine ⟨store', ?_, ?_⟩
    · simp only [start, hidle, hkeep, if_neg hne, hlookup]
    · rcases hcases with ⟨a, hfound, -⟩ | ⟨-, hstore⟩
      · cases hfound
      · exact hstore

theorem start_cases (config : Config) (remoteAddr : Bytes) (ctx : StartContext) (sessionId : Bytes)
    (keepalive : Option Nat) (store : SessionStore V) (hidle : session.currentData = none) :
    (∃ e, sessionKeepalive config keepalive = .error e ∧
      start config remoteAddr ctx sessionId keepalive store session =
        ⟨store, session, .error e⟩) ∨
    ∃ k, sessionKeepalive config keepalive = .ok k ∧
      ((∃ store', start config remoteAddr ctx sessionId keepalive store session =
          ⟨store', session, .error .diverges⟩ ∧ ∀ d ∈ ctx.draws, store.sessionData d ≠ none) ∨
        ∃ store' id a, start config remoteAddr ctx sessionId keepalive store session =
            finish config ctx store' session a id ∧
          Attached config remoteAddr ctx k store sessionId store' id a) := by
  cases hkeep : sessionKeepalive config keepalive with
  | error e =>
    refine .inl ⟨e, rfl, ?_⟩
    simp only [start, hidle, hkeep]
  | ok k =>
    refine .inr ⟨k, rfl, ?_⟩
    by_cases h : ∃ a, Resumable config remoteAddr ctx.time store sessionId a
    · obtain ⟨a, ha⟩ := h
      refine .inr ⟨_, sessionId, a, start_resumes hidle hkeep ha, ?_⟩
      exact
        { entry := ha.key
          expires := by rw [SessionStore.heap_modify, Function.update_self]
          address := ha.address.imp_right fun haddr => by
            rw [SessionStore.heap_modify, Function.update_self]
            exact haddr
          origin := .inl ⟨ha.nonempty, rfl, ha.key⟩ }
    · obtain ⟨store', hstart, hrefused⟩ := start_refused hidle hkeep h
      have hnone : ∀ id, store.sessionData id = none → store'.sessionData id = none := by
        intro id hid
        rcases hrefused with rfl | rfl
        · exact hid
        · rw [SessionStore.sessionData_erase, Function.update_apply, hid, ite_self]
      rw [hstart]
      refine (initiate_cases k store' sessionId store).imp ?_ id
      rintro ⟨hinit, hdraws⟩
      exact ⟨store', hinit, fun d hd hnot => hdraws d hd (hnone d hnot)⟩

end Call

end Session

end Nawa
