import Nawa.Session.Session
import Nawa.Laws.Session.SessionData

/-!
# `Session::start`

One call of `start` on a connection without an established session: which sessions it resumes,
what it creates otherwise, and what it leaves of the rest of the store.

The clock stands still during the call. `draws` are the answers of `generateID`; the results ask
of them that one is not in the map, so that the loop ends, and that none of them happens to be
the id the client has presented.
-/

namespace Nawa

/-- `time_t` holds the value. -/
def Representable (n : Int) : Prop := -2 ^ 63 ≤ n ∧ n < 2 ^ 63

theorem toTimeT_of_representable {n : Int} (h : Representable n) : toTimeT n = n := by
  have hmod : (n + 2 ^ 63) % 2 ^ 64 = n + 2 ^ 63 :=
    Int.emod_eq_of_lt (by have := h.1; omega) (by have := h.2; omega)
  rw [toTimeT, hmod, Int.add_sub_cancel]

namespace Session

variable {V : Type}

def validateIP (config : Config) : Bytes := config.get (bytes "session") (bytes "validate_ip")

def gcDivisor (config : Config) : Except Failure Nat :=
  configNumber (config.get (bytes "session") (bytes "gc_divisor")) 100

/-- A presented id that may be resumed, with the object it stands for. -/
structure Resumable (config : Config) (remoteAddr : Bytes) (time : Int) (store : SessionStore V)
    (sessionId : Bytes) (a : Nat) : Prop where
  nonempty : sessionId ≠ []
  key : store.sessionData sessionId = some a
  unexpired : time < (store.heap a).expires
  address : ¬ (validateIP config = bytes "strict" ∨ validateIP config = bytes "lax") ∨
    (store.heap a).sourceIP = remoteAddr

/-- The entries outside `touched` are as they were; one that has expired may be gone. -/
def EntriesKept (time : Int) (store store' : SessionStore V) (touched : Bytes → Prop) : Prop :=
  ∀ id, ¬ touched id → store'.sessionData id = store.sessionData id ∨
    store'.sessionData id = none ∧
      ∃ b, store.sessionData id = some b ∧ (store.heap b).expires < time

/-- What a call that resumes a session does. -/
structure Resumed (time : Int) (keepalive : Nat) (store : SessionStore V) (sessionId : Bytes)
    (a : Nat) (r : Started V) : Prop where
  result : r.result = .ok sessionId
  currentData : r.session.currentData = some a
  currentID : r.session.currentID = sessionId
  entry : r.store.sessionData sessionId = some a
  object : r.store.heap a = { store.heap a with expires := time + keepalive }
  objects : ∀ b, b ≠ a → r.store.heap b = store.heap b
  next : r.store.next = store.next
  entries : EntriesKept time store r.store (· = sessionId)

/-- What a call that creates a session does. -/
structure Created (config : Config) (remoteAddr : Bytes) (ctx : StartContext) (keepalive : Nat)
    (store : SessionStore V) (sessionId newId : Bytes) (r : Started V) : Prop where
  result : r.result = .ok newId
  drawn : newId ∈ ctx.draws
  notPresented : newId ≠ sessionId
  absent : store.sessionData newId = none
  currentData : r.session.currentData = some store.next
  currentID : r.session.currentID = newId
  entry : r.store.sessionData newId = some store.next
  object : r.store.heap store.next =
    { data := fun _ => none, expires := ctx.time + keepalive, sourceIP := remoteAddr }
  objects : ∀ b, b < store.next → r.store.heap b = store.heap b
  removed : ∀ a, sessionId ≠ [] → store.sessionData sessionId = some a →
    (store.heap a).expires ≤ ctx.time ∨
      validateIP config = bytes "strict" ∧ (store.heap a).sourceIP ≠ remoteAddr →
    r.store.sessionData sessionId = none
  kept : ∀ a, store.sessionData sessionId = some a → ctx.time < (store.heap a).expires →
    validateIP config = bytes "lax" → (store.heap a).sourceIP ≠ remoteAddr →
    r.store.sessionData sessionId = some a
  entries : EntriesKept ctx.time store r.store fun id =>
    id = newId ∨ id = sessionId ∧ sessionId ≠ []

/-- What a lookup that resumes nothing leaves of the store: at most the presented entry has gone,
because it has expired or because it is another client's in strict mode. -/
structure Refused (config : Config) (time : Int) (store : SessionStore V) (sessionId : Bytes)
    (store' : SessionStore V) : Prop where
  heap : store'.heap = store.heap
  next : store'.next = store.next
  others : ∀ id, ¬ (id = sessionId ∧ sessionId ≠ []) →
    store'.sessionData id = store.sessionData id
  removed : ∀ a, sessionId ≠ [] → store.sessionData sessionId = some a →
    (store.heap a).expires ≤ time ∨ validateIP config = bytes "strict" →
    store'.sessionData sessionId = none
  kept : ∀ a, store.sessionData sessionId = some a → time < (store.heap a).expires →
    validateIP config ≠ bytes "strict" → store'.sessionData sessionId = some a

theorem Refused.unchanged {config : Config} {time : Int} {store : SessionStore V}
    {sessionId : Bytes} (h : sessionId ≠ [] → ∀ a, store.sessionData sessionId = some a →
      time < (store.heap a).expires ∧ validateIP config ≠ bytes "strict") :
    Refused config time store sessionId store where
  heap := rfl
  next := rfl
  others := fun _ _ => rfl
  removed := by
    intro a hne ha hreason
    obtain ⟨htime, hmode⟩ := h hne a ha
    rcases hreason with hexp | hstrict
    · exact absurd hexp (Int.not_le.mpr htime)
    · exact absurd hstrict hmode
  kept := fun _ ha _ _ => ha

theorem Refused.erased {config : Config} {time : Int} {store : SessionStore V} {sessionId : Bytes}
    (hne : sessionId ≠ []) (h : ∀ a, store.sessionData sessionId = some a →
      (store.heap a).expires ≤ time ∨ validateIP config = bytes "strict") :
    Refused config time store sessionId (store.erase sessionId) where
  heap := rfl
  next := rfl
  others := by
    intro id hid
    rw [SessionStore.sessionData_erase, Function.update_of_ne fun heq => hid ⟨heq, hne⟩]
  removed := by
    intro _ _ _ _
    rw [SessionStore.sessionData_erase, Function.update_self]
  kept := by
    intro a ha htime hmode
    rcases h a ha with hexp | hstrict
    · exact absurd hexp (Int.not_le.mpr htime)
    · exact absurd hstrict hmode

/-! ## The collector at the end of a call -/

/-- A store, or what the collector leaves of it. -/
structure Collected (time : Int) (store store' : SessionStore V) : Prop where
  heap : store'.heap = store.heap
  next : store'.next = store.next
  keeps : ∀ id b, store.sessionData id = some b → time ≤ (store.heap b).expires →
    store'.sessionData id = some b
  entries : EntriesKept time store store' fun _ => False

theorem Collected.refl (time : Int) (store : SessionStore V) : Collected time store store :=
  ⟨rfl, rfl, fun _ _ h _ => h, fun _ _ => .inl rfl⟩

theorem collected_collectGarbage (time : Int) (store : SessionStore V) :
    Collected time store (store.collectGarbage fun _ => time) where
  heap := rfl
  next := rfl
  keeps := fun _ _ h htime => SessionStore.sessionData_collectGarbage.mpr ⟨h, htime⟩
  entries := by
    intro id _
    cases hid : store.sessionData id with
    | none => exact .inl (by simp only [SessionStore.collectGarbage, hid, Option.filter_none])
    | some b =>
      by_cases htime : (store.heap b).expires < time
      · refine .inr ⟨?_, b, rfl, htime⟩
        simp only [SessionStore.collectGarbage, hid, Option.filter_some, htime, not_true_eq_false,
          decide_false, Bool.false_eq_true, if_false]
      · exact .inl (SessionStore.sessionData_collectGarbage.mpr ⟨hid, Int.not_lt.mp htime⟩)

theorem Collected.none {time : Int} {store store' : SessionStore V}
    (h : Collected time store store') {id : Bytes} (hid : store.sessionData id = none) :
    store'.sessionData id = none := by
  rcases h.entries id not_false with heq | ⟨hnone, -⟩
  · exact heq.trans hid
  · exact hnone

/-- With a usable divisor the call ends in returning the id. -/
theorem finish_eq {config : Config} (ctx : StartContext) {divisor : Nat}
    (hdivisor : gcDivisor config = .ok divisor) (hne : divisor ≠ 0) (store : SessionStore V)
    (session : Session) (a : Nat) (sessionId : Bytes) :
    ∃ store', finish config ctx store session a sessionId =
      ⟨store', { session with currentData := some a, currentID := sessionId }, .ok sessionId⟩ ∧
        Collected ctx.time store store' := by
  rw [gcDivisor] at hdivisor
  simp only [finish, runGarbageCollection, hdivisor, if_neg hne]
  split
  · next store' heq =>
    split at heq
    · cases heq
      exact ⟨_, rfl, collected_collectGarbage _ _⟩
    · cases heq
      exact ⟨_, rfl, .refl _ _⟩
  · next heq =>
    split at heq <;> cases heq

/-! ## The two ways of a call -/

section Call

variable {config : Config} {remoteAddr sessionId : Bytes} {ctx : StartContext}
  {keepalive : Option Nat} {k divisor : Nat} {store : SessionStore V} {session : Session}

theorem lookup_of_resumable {a : Nat} {time : Int} (time' : Int)
    (h : Resumable config remoteAddr time store sessionId a) :
    store.lookup (validateIP config) remoteAddr k time time' sessionId =
      (store.modify a fun object => { object with expires := toTimeT (time' + k) }, some a) := by
  have hmode : ¬ ((validateIP config = bytes "strict" ∨ validateIP config = bytes "lax") ∧
      (store.heap a).sourceIP ≠ remoteAddr) := by
    rintro ⟨hmode, haddr⟩
    exact h.address.elim (fun hnot => hnot hmode) haddr
  simp only [SessionStore.lookup, h.key, if_neg (Int.not_le.mpr h.unexpired), if_neg hmode]

theorem lookup_of_not_resumable (hne : sessionId ≠ []) {time : Int} (time' : Int)
    (h : ¬ ∃ a, Resumable config remoteAddr time store sessionId a) :
    ∃ store', store.lookup (validateIP config) remoteAddr k time time' sessionId =
        (store', none) ∧ Refused config time store sessionId store' := by
  unfold SessionStore.lookup
  split
  · next hnone => exact ⟨store, rfl, .unchanged fun _ a ha => nomatch hnone.symm.trans ha⟩
  · next a ha =>
    split
    · next hexp =>
      refine ⟨_, rfl, .erased hne fun a' ha' => ?_⟩
      rw [ha, Option.some.injEq] at ha'
      exact .inl (ha' ▸ hexp)
    · next hexp =>
      split
      · next hmode =>
        by_cases hstrict : validateIP config = bytes "strict"
        · exact ⟨_, by rw [if_pos hstrict], .erased hne fun _ _ => .inr hstrict⟩
        · refine ⟨_, by rw [if_neg hstrict], .unchanged fun _ a' ha' => ⟨?_, hstrict⟩⟩
          rw [ha, Option.some.injEq] at ha'
          exact ha' ▸ Int.not_le.mp hexp
      · next hmode =>
        refine absurd ⟨a, hne, ha, Int.not_le.mp hexp, ?_⟩ h
        by_cases haddr : (store.heap a).sourceIP = remoteAddr
        · exact .inr haddr
        · exact .inl fun hmode' => hmode ⟨hmode', haddr⟩

theorem start_of_resumable (hidle : session.currentData = none)
    (hkeep : sessionKeepalive config keepalive = .ok k)
    (hdivisor : gcDivisor config = .ok divisor) (hne : divisor ≠ 0)
    (htime : Representable (ctx.time + k)) {a : Nat}
    (h : Resumable config remoteAddr ctx.time store sessionId a) :
    Resumed ctx.time k store sessionId a
      (start config remoteAddr ctx sessionId keepalive store session) := by
  have hlookup := lookup_of_resumable (k := k) ctx.time h
  rw [toTimeT_of_representable htime, validateIP] at hlookup
  obtain ⟨store', hfinish, hcollected⟩ := finish_eq ctx hdivisor hne
    (store.modify a fun object => { object with expires := ctx.time + k }) session a sessionId
  have hstart : start config remoteAddr ctx sessionId keepalive store session =
      ⟨store', { session with currentData := some a, currentID := sessionId }, .ok sessionId⟩ := by
    simp only [start, hidle, hkeep, if_neg h.nonempty, hlookup, hfinish]
  have hheap : ∀ b, store'.heap b = if b = a then { store.heap a with expires := ctx.time + k }
      else store.heap b := by
    intro b
    rw [hcollected.heap, SessionStore.heap_modify, Function.update_apply]
  rw [hstart]
  refine
    { result := rfl
      currentData := rfl
      currentID := rfl
      entry := hcollected.keeps _ _ h.key ?_
      object := by rw [hheap, if_pos rfl]
      objects := fun b hb => by rw [hheap, if_neg hb]
      next := hcollected.next
      entries := ?_ }
  · rw [SessionStore.heap_modify, Function.update_self]
    exact Int.le_add_of_nonneg_right (Int.natCast_nonneg k)
  · intro id _
    rcases hcollected.entries id not_false with heq | ⟨hnone, b, hb, hexp⟩
    · exact .inl heq
    · refine .inr ⟨hnone, b, hb, ?_⟩
      rw [SessionStore.heap_modify, Function.update_apply] at hexp
      split at hexp
      · exact absurd hexp (Int.not_lt.mpr (Int.le_add_of_nonneg_right (Int.natCast_nonneg k)))
      · exact hexp

/-- Without a resumable session, the call goes on to create one, on the store that the lookup
has left. -/
theorem start_of_not_resumable {session : Session} (hidle : session.currentData = none)
    (hkeep : sessionKeepalive config keepalive = .ok k)
    (h : ¬ ∃ a, Resumable config remoteAddr ctx.time store sessionId a) :
    ∃ store', start config remoteAddr ctx sessionId keepalive store session =
        initiate config remoteAddr ctx k store' session ∧
      Refused config ctx.time store sessionId store' := by
  by_cases hne : sessionId = []
  · refine ⟨store, ?_, .unchanged fun hne' => absurd hne hne'⟩
    simp only [start, hidle, hkeep, if_pos hne]
  · obtain ⟨store', hlookup, hrefused⟩ := lookup_of_not_resumable (k := k) hne ctx.time h
    rw [validateIP] at hlookup
    refine ⟨store', ?_, hrefused⟩
    simp only [start, hidle, hkeep, if_neg hne, hlookup]

theorem initiate_eq (remoteAddr : Bytes) (ctx : StartContext) (session : Session)
    (hdivisor : gcDivisor config = .ok divisor) (hne : divisor ≠ 0)
    (htime : Representable (ctx.time + k))
    (hdraws : ∃ d ∈ ctx.draws, store.sessionData d = none) :
    ∃ newId store', initiate config remoteAddr ctx k store session =
        ⟨store', { session with currentData := some store.next, currentID := newId },
          .ok newId⟩ ∧
      newId ∈ ctx.draws ∧ store.sessionData newId = none ∧
      Collected ctx.time (store.insert newId
        { expires := ctx.time + k, sourceIP := remoteAddr }) store' := by
  cases hfind : ctx.draws.find? fun id => !store.count id with
  | none =>
    obtain ⟨d, hd, hnone⟩ := hdraws
    have hcount := List.find?_eq_none.mp hfind d hd
    rw [SessionStore.count, hnone] at hcount
    exact absurd rfl hcount
  | some newId =>
    have hcreate : store.create remoteAddr k ctx.time ctx.draws =
        some (store.insert newId { expires := ctx.time + k, sourceIP := remoteAddr }, newId,
          store.next) := by
      simp only [SessionStore.create, hfind, toTimeT_of_representable htime]
    obtain ⟨hdrawn, habsent, -, -⟩ := SessionStore.create_cases hcreate
    obtain ⟨store', hfinish, hcollected⟩ := finish_eq ctx hdivisor hne
      (store.insert newId { expires := ctx.time + k, sourceIP := remoteAddr }) session store.next
      newId
    exact ⟨newId, store', by simp only [initiate, hcreate, hfinish], hdrawn, habsent, hcollected⟩

theorem start_creates (hidle : session.currentData = none)
    (hkeep : sessionKeepalive config keepalive = .ok k)
    (hdivisor : gcDivisor config = .ok divisor) (hne : divisor ≠ 0)
    (htime : Representable (ctx.time + k))
    (hdraws : ∃ d ∈ ctx.draws, store.sessionData d = none)
    (hpresented : sessionId ∉ ctx.draws)
    (h : ¬ ∃ a, Resumable config remoteAddr ctx.time store sessionId a) :
    ∃ newId, Created config remoteAddr ctx k store sessionId newId
      (start config remoteAddr ctx sessionId keepalive store session) := by
  obtain ⟨store₁, hstart, hrefused⟩ := start_of_not_resumable hidle hkeep h
  have hdrawn : ∀ d ∈ ctx.draws, store₁.sessionData d = store.sessionData d :=
    fun d hd => hrefused.others d fun heq => hpresented (heq.1 ▸ hd)
  obtain ⟨d, hd, hnone⟩ := hdraws
  obtain ⟨newId, store', hinit, hnew, habsent, hcollected⟩ :=
    initiate_eq remoteAddr ctx session hdivisor hne htime
      ⟨d, hd, (hdrawn d hd).trans hnone⟩
  have hnotPresented : newId ≠ sessionId := fun heq => hpresented (heq ▸ hnew)
  -- the store in front of the collector
  have hmap : ∀ id, id ≠ newId → (store₁.insert newId
      { expires := ctx.time + k, sourceIP := remoteAddr }).sessionData id =
        store₁.sessionData id := by
    intro id hid
    rw [SessionStore.sessionData_insert, Function.update_of_ne hid]
  have hheap : ∀ b, b < store.next → (store₁.insert newId
      { expires := ctx.time + k, sourceIP := remoteAddr }).heap b = store.heap b := by
    intro b hb
    rw [SessionStore.heap_insert, hrefused.next, Function.update_of_ne (Nat.ne_of_lt hb),
      hrefused.heap]
  rw [hstart, hinit]
  refine ⟨newId,
    { result := rfl
      drawn := hnew
      notPresented := hnotPresented
      absent := (hdrawn newId hnew).symm.trans habsent
      currentData := by dsimp only; rw [hrefused.next]
      currentID := rfl
      entry := ?_
      object := ?_
      objects := ?_
      removed := ?_
      kept := ?_
      entries := ?_ }⟩
  · rw [← hrefused.next]
    refine hcollected.keeps newId _ ?_ ?_
    · rw [SessionStore.sessionData_insert, Function.update_self]
    · rw [SessionStore.heap_insert, Function.update_self]
      exact Int.le_add_of_nonneg_right (Int.natCast_nonneg k)
  · rw [hcollected.heap, SessionStore.heap_insert, hrefused.next, Function.update_self]
  · intro b hb
    rw [hcollected.heap, hheap b hb]
  · intro a hne' ha hreason
    apply hcollected.none
    rw [hmap sessionId hnotPresented.symm]
    exact hrefused.removed a hne' ha (hreason.imp_right And.left)
  · intro a ha htime' hlax _
    have hstay : store₁.sessionData sessionId = some a :=
      hrefused.kept a ha htime' (by rw [hlax]; decide)
    refine hcollected.keeps sessionId a ((hmap sessionId hnotPresented.symm).trans hstay) ?_
    rw [hheap a (store.constructed sessionId a ha)]
    exact Int.le_of_lt htime'
  · intro id hid
    have hsame := hrefused.others id fun heq => hid (.inr heq)
    have hbefore := (hmap id fun heq => hid (.inl heq)).trans hsame
    rcases hcollected.entries id not_false with heq | ⟨hgone, b, hb, hexp⟩
    · exact .inl (heq.trans hbefore)
    · rw [hbefore] at hb
      rw [hheap b (store.constructed id b hb)] at hexp
      exact .inr ⟨hgone, b, hb, hexp⟩

/-- **A session is resumed exactly when it may be.** Otherwise the call creates a session, and
in both cases the rest of the store is as it was, up to expired entries. -/
theorem start_resumes_iff (hidle : session.currentData = none)
    (hkeep : sessionKeepalive config keepalive = .ok k)
    (hdivisor : gcDivisor config = .ok divisor) (hne : divisor ≠ 0)
    (htime : Representable (ctx.time + k))
    (hdraws : ∃ d ∈ ctx.draws, store.sessionData d = none)
    (hpresented : sessionId ∉ ctx.draws) :
    ((∃ a, (start config remoteAddr ctx sessionId keepalive store session).session.currentData =
        some a ∧ a < store.next) ↔
      ∃ a, Resumable config remoteAddr ctx.time store sessionId a) ∧
    (∀ a, Resumable config remoteAddr ctx.time store sessionId a →
      Resumed ctx.time k store sessionId a
        (start config remoteAddr ctx sessionId keepalive store session)) ∧
    ((¬ ∃ a, Resumable config remoteAddr ctx.time store sessionId a) →
      ∃ newId, Created config remoteAddr ctx k store sessionId newId
        (start config remoteAddr ctx sessionId keepalive store session)) := by
  have hresumed : ∀ a, Resumable config remoteAddr ctx.time store sessionId a →
      Resumed ctx.time k store sessionId a
        (start config remoteAddr ctx sessionId keepalive store session) :=
    fun _ => start_of_resumable hidle hkeep hdivisor hne htime
  have hcreated : (¬ ∃ a, Resumable config remoteAddr ctx.time store sessionId a) →
      ∃ newId, Created config remoteAddr ctx k store sessionId newId
        (start config remoteAddr ctx sessionId keepalive store session) :=
    start_creates hidle hkeep hdivisor hne htime hdraws hpresented
  refine ⟨⟨?_, ?_⟩, hresumed, hcreated⟩
  · rintro ⟨a, ha, hlt⟩
    by_contra hnot
    obtain ⟨newId, hnew⟩ := hcreated hnot
    rw [hnew.currentData, Option.some.injEq] at ha
    exact Nat.lt_irrefl _ (ha ▸ hlt)
  · rintro ⟨a, ha⟩
    exact ⟨a, (hresumed a ha).currentData, store.constructed _ _ ha.key⟩

/-- A store with one session under the id `x`, which expires at 100. -/
def sampleStore : SessionStore Nat :=
  SessionStore.empty.insert (bytes "x") { expires := 100, sourceIP := bytes "client" }

theorem start_resumes_sample :
    Resumed 5 1800 sampleStore (bytes "x") 0
      (start {} (bytes "client") ⟨5, [bytes "y"], 1⟩ (bytes "x") (some 1800) sampleStore {}) := by
  have hdivisor : gcDivisor {} = .ok 100 := rfl
  have htime : Representable (5 + (1800 : Nat)) := by constructor <;> decide
  have hdraws : ∃ d ∈ [bytes "y"], sampleStore.sessionData d = none :=
    ⟨bytes "y", List.mem_cons_self, rfl⟩
  have hresumable : Resumable {} (bytes "client") 5 sampleStore (bytes "x") 0 :=
    ⟨by decide, rfl, by decide, .inr rfl⟩
  have hpresented : bytes "x" ∉ [bytes "y"] := by decide
  exact (@start_resumes_iff Nat {} (bytes "client") (bytes "x") ⟨5, [bytes "y"], 1⟩ (some 1800) 1800
    100 sampleStore {} rfl rfl hdivisor (by decide) htime hdraws hpresented).2.1 0 hresumable

end Call

end Session

end Nawa
