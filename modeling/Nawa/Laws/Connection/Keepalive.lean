import Nawa.Laws.Connection.StartSession

/-!
# How long a session lives

The expiry of a session is the time of the call and the keepalive added up in 64 bits. Where the
sum has room, the session can be resumed until it is reached, however often garbage is collected
in the meantime. Where it has none, the expiry lies before the time of the call.
-/

namespace Nawa

variable {V : Type}

/-- A sum that is too large comes out below the first term. -/
theorem toTimeT_of_overflow {now : Int} {k : Nat} (hnow : Representable now) (hk : k < 2 ^ 64)
    (h : 2 ^ 63 ≤ now + k) : toTimeT (now + k) < now := by
  obtain ⟨hlow, hhigh⟩ := hnow
  have hmod : (now + k + 2 ^ 63) % 2 ^ 64 = now + k + 2 ^ 63 - 2 ^ 64 := by omega
  rw [toTimeT, hmod]
  omega

namespace Session

/-- A time at which a session is to be alive. -/
structure Within (now : Int) (k : Nat) (t : Int) : Prop where
  representable : Representable t
  from_now : now ≤ t
  until_expiry : t < now + k

/-- What is left of a store after some collections, each with the times that it has read. -/
def collected (store : SessionStore V) (clocks : List (Bytes → Int)) : SessionStore V :=
  clocks.foldl SessionStore.collectGarbage store

/-- The session can be resumed, and is not removed by the collector, until its time is over. -/
def LivesFor (config : Config) (remoteAddr : Bytes) (now : Int) (k : Nat)
    (store : SessionStore V) (id : Bytes) (a : Nat) : Prop :=
  ∀ clocks : List (Bytes → Int), (∀ clock ∈ clocks, ∀ id, Within now k (clock id)) →
    (collected store clocks).sessionData id = some a ∧
    ∀ (ctx : StartContext) (keepalive : Option Nat) (k' : Nat) (session : Session),
      Within now k ctx.time → session.currentData = none →
      sessionKeepalive config keepalive = .ok k' →
      (start config remoteAddr ctx id keepalive (collected store clocks)
        session).session.currentData = some a

theorem heap_collected (store : SessionStore V) (clocks : List (Bytes → Int)) :
    (collected store clocks).heap = store.heap := by
  induction clocks generalizing store with
  | nil => rfl
  | cons clock clocks ih =>
    rw [collected, List.foldl_cons, ← collected, ih, SessionStore.heap_collectGarbage]

/-- Each collection leaves an entry that has not expired by then. -/
theorem sessionData_collected {store : SessionStore V} {id : Bytes} {a : Nat}
    (hentry : store.sessionData id = some a) {clocks : List (Bytes → Int)}
    (h : ∀ clock ∈ clocks, clock id ≤ (store.heap a).expires) :
    (collected store clocks).sessionData id = some a := by
  induction clocks generalizing store with
  | nil => exact hentry
  | cons clock clocks ih =>
    rw [List.forall_mem_cons] at h
    have hkept := SessionStore.sessionData_collectGarbage.mpr ⟨hentry, h.1⟩
    rw [collected, List.foldl_cons]
    exact ih hkept h.2

section Lifetime

variable {config : Config} {remoteAddr sessionId id : Bytes} {ctx : StartContext} {k a : Nat}
  {store store' store'' : SessionStore V}

theorem livesFor_of_room (hroom : ctx.time + k < 2 ^ 63) (hnow : Representable ctx.time)
    (hid : id ≠ []) (h : Attached config remoteAddr ctx k store sessionId store' id a)
    (hcollected : Collected ctx.time store' store'') :
    LivesFor config remoteAddr ctx.time k store'' id a := by
  have hexpires : (store''.heap a).expires = ctx.time + k := by
    have hlow := hnow.1
    rw [hcollected.heap, h.expires, toTimeT_of_representable ⟨by omega, hroom⟩]
  have hentry : store''.sessionData id = some a := by
    refine hcollected.keeps id a h.entry ?_
    rw [← hcollected.heap, hexpires]
    exact Int.le_add_of_nonneg_right (Int.natCast_nonneg k)
  intro clocks hclocks
  have hkept : (collected store'' clocks).sessionData id = some a := by
    refine sessionData_collected hentry fun clock hclock => ?_
    rw [hexpires]
    exact Int.le_of_lt (hclocks clock hclock id).until_expiry
  refine ⟨hkept, fun ctx' keepalive k' session hwithin hidle hkeep => ?_⟩
  have hresumable : Resumable config remoteAddr ctx'.time (collected store'' clocks) id a :=
    { nonempty := hid
      key := hkept
      unexpired := by
        rw [heap_collected, hexpires]
        exact hwithin.until_expiry
      address := by
        rw [heap_collected, hcollected.heap]
        exact h.address }
  obtain ⟨store₁, hfinish, -⟩ := finish_cases config ctx' ((collected store'' clocks).modify a
    fun object => { object with expires := toTimeT (ctx'.time + k') }) session a id
  rw [start_resumes hidle hkeep hresumable, hfinish]

/-- An expiry before the time of the call makes the session end with it. -/
theorem not_livesFor_of_overflow (hover : 2 ^ 63 ≤ ctx.time + k) (hnow : Representable ctx.time)
    (hpos : 0 < k) (hk : k < 2 ^ 64) (hid : id ≠ [])
    (h : Attached config remoteAddr ctx k store sessionId store' id a)
    (hcollected : Collected ctx.time store' store'') :
    ¬ LivesFor config remoteAddr ctx.time k store'' id a := by
  intro hlives
  obtain ⟨hentry, hresumed⟩ := hlives [] nofun
  have hwithin : Within ctx.time k ctx.time := ⟨hnow, Int.le_refl _, by omega⟩
  have hstart := hresumed ⟨ctx.time, [], 0⟩ (some 0) 0 {} hwithin rfl rfl
  have hexpired : (store''.heap a).expires ≤ ctx.time := by
    rw [hcollected.heap, h.expires]
    exact Int.le_of_lt (toTimeT_of_overflow hnow hk hover)
  have hentry' : store''.sessionData id = some a := hentry
  have hstore : collected store'' [] = store'' := rfl
  simp only [start, sessionKeepalive, if_neg hid, SessionStore.lookup, hstore, hentry',
    if_pos hexpired, initiate, SessionStore.create, List.find?_nil] at hstart
  cases hstart

theorem livesFor_iff (hnow : Representable ctx.time) (hpos : 0 < k) (hk : k < 2 ^ 64)
    (hid : id ≠ []) (h : Attached config remoteAddr ctx k store sessionId store' id a)
    (hcollected : Collected ctx.time store' store'') :
    LivesFor config remoteAddr ctx.time k store'' id a ↔ ctx.time + k < 2 ^ 63 := by
  constructor
  · intro hlives
    by_contra hover
    exact not_livesFor_of_overflow (Int.not_lt.mp hover) hnow hpos hk hid h hcollected hlives
  · intro hroom
    exact livesFor_of_room hroom hnow hid h hcollected

theorem Attached.id_ne_nil (h : Attached config remoteAddr ctx k store sessionId store' id a)
    (hdraws : ∀ d ∈ ctx.draws, IsSessionID d) : id ≠ [] := by
  rcases h.origin with ⟨hne, rfl, -⟩ | hdrawn
  · exact hne
  · exact (hdraws id hdrawn).ne_nil

theorem livesFor_start_iff (hnow : Representable ctx.time) (hpos : 0 < k) (hk : k < 2 ^ 64)
    (hdraws : ∀ d ∈ ctx.draws, IsSessionID d) {keepalive : Option Nat} {session : Session}
    (hidle : session.currentData = none) (hkeep : sessionKeepalive config keepalive = .ok k)
    (h : (start config remoteAddr ctx sessionId keepalive store session).session.currentData =
      some a) :
    LivesFor config remoteAddr ctx.time k
        (start config remoteAddr ctx sessionId keepalive store session).store
        (start config remoteAddr ctx sessionId keepalive store session).session.currentID a ↔
      ctx.time + k < 2 ^ 63 := by
  rcases start_cases config remoteAddr ctx sessionId keepalive store hidle with
    ⟨e, he, -⟩ | ⟨k', hk', ⟨store', hstart, -⟩ | ⟨store', id, a', hstart, hattached⟩⟩
  · rw [hkeep] at he
    cases he
  · rw [hstart, hidle] at h
    cases h
  · rw [hkeep] at hk'
    cases hk'
    obtain ⟨store'', hfinish, hcollected⟩ := finish_cases config ctx store' session a' id
    rw [hstart, hfinish] at h ⊢
    cases h
    exact livesFor_iff hnow hpos hk (hattached.id_ne_nil hdraws) hattached hcollected

end Lifetime

end Session

namespace Connection

open Session (Attached Collected IsSessionID LivesFor Within sessionKeepalive)

theorem livesFor_startSession_iff {conn : Connection} {ctx : StartContext} {properties : Cookie}
    {store : SessionStore V} {k a : Nat} (hnow : Representable ctx.time) (hpos : 0 < k)
    (hk : k < 2 ^ 64) (hdraws : ∀ d ∈ ctx.draws, IsSessionID d)
    (hidle : conn.session.currentData = none)
    (hkeep : sessionKeepalive conn.config properties.maxAge = .ok k)
    (h : (conn.startSession ctx properties store).2.1.session.currentData = some a) :
    LivesFor conn.config conn.remoteAddr ctx.time k (conn.startSession ctx properties store).1
        (conn.startSession ctx properties store).2.1.session.currentID a ↔
      ctx.time + k < 2 ^ 63 := by
  rcases startSession_cases ctx properties store hidle with
    ⟨e, he, -⟩ | ⟨k', hk', ⟨store', heq, -⟩ | ⟨store', store'', id, a', hattached, hcollected,
      hends⟩⟩
  · rw [hkeep] at he
    cases he
  · rw [heq, named, hidle] at h
    cases h
  · obtain rfl : k = k' := Except.ok.inj (hkeep.symm.trans hk')
    obtain ⟨hstore, hsession⟩ := hends.store_session
    rw [hsession] at h ⊢
    obtain rfl : a' = a := Option.some.inj h
    rw [hstore]
    exact Session.livesFor_iff hnow hpos hk (hattached.id_ne_nil hdraws) hattached hcollected

/-- **A session lives as long as its keepalive says** exactly where the expiry has room in a
`time_t`, whichever of the two starts has created or resumed it. -/
theorem livesFor_starts_iff {ctx : StartContext} {k : Nat} (hnow : Representable ctx.time)
    (hpos : 0 < k) (hk : k < 2 ^ 64) (hdraws : ∀ d ∈ ctx.draws, IsSessionID d) :
    (∀ (config : Config) (remoteAddr sessionId : Bytes) (keepalive : Option Nat)
      (store : SessionStore V) (session : Session) (a : Nat), session.currentData = none →
      sessionKeepalive config keepalive = .ok k →
      (Session.start config remoteAddr ctx sessionId keepalive store
        session).session.currentData = some a →
      (LivesFor config remoteAddr ctx.time k
          (Session.start config remoteAddr ctx sessionId keepalive store session).store
          (Session.start config remoteAddr ctx sessionId keepalive store
            session).session.currentID a ↔
        ctx.time + k < 2 ^ 63)) ∧
    ∀ (conn : Connection) (properties : Cookie) (store : SessionStore V) (a : Nat),
      conn.session.currentData = none →
      sessionKeepalive conn.config properties.maxAge = .ok k →
      (conn.startSession ctx properties store).2.1.session.currentData = some a →
      (LivesFor conn.config conn.remoteAddr ctx.time k
          (conn.startSession ctx properties store).1
          (conn.startSession ctx properties store).2.1.session.currentID a ↔
        ctx.time + k < 2 ^ 63) :=
  ⟨fun _ _ _ _ _ _ _ hidle hkeep h => Session.livesFor_start_iff hnow hpos hk hdraws hidle hkeep h,
    fun _ _ _ _ hidle hkeep h => livesFor_startSession_iff hnow hpos hk hdraws hidle hkeep h⟩

theorem livesFor_starts_iff_sample :
    LivesFor {} [] 0 1800
        (Session.start {} [] sampleContext [] none (SessionStore.empty (V := Nat)) {}).store
        (Session.start {} [] sampleContext [] none
          (SessionStore.empty (V := Nat)) {}).session.currentID 0 := by
  have hnow : Representable sampleContext.time := ⟨by decide, by decide⟩
  have hdraws : ∀ d ∈ sampleContext.draws, IsSessionID d :=
    List.forall_mem_singleton.mpr isSessionID_sampleID
  have hlives := (livesFor_starts_iff hnow (by decide) (by decide) hdraws).1 {} [] [] none
    (SessionStore.empty (V := Nat)) {} 0 rfl rfl rfl
  exact hlives.mpr (by decide)

/-- The keepalive "-1", which `stoul` reads as the largest number. -/
def largestKeepalive : Config := Config.set {} (bytes "session", bytes "keepalive") (bytes "-1")

theorem not_livesFor_largestKeepalive :
    ¬ ∀ (config : Config) (remoteAddr sessionId : Bytes) (ctx : StartContext)
      (keepalive : Option Nat) (store : SessionStore Nat) (session : Session) (k a : Nat),
      Representable ctx.time → 0 < k → k < 2 ^ 64 → (∀ d ∈ ctx.draws, IsSessionID d) →
      session.currentData = none → sessionKeepalive config keepalive = .ok k →
      (Session.start config remoteAddr ctx sessionId keepalive store
        session).session.currentData = some a →
      LivesFor config remoteAddr ctx.time k
        (Session.start config remoteAddr ctx sessionId keepalive store session).store
        (Session.start config remoteAddr ctx sessionId keepalive store
          session).session.currentID a := by
  intro h
  have hnow : Representable sampleContext.time := ⟨by decide, by decide⟩
  have hdraws : ∀ d ∈ sampleContext.draws, IsSessionID d :=
    List.forall_mem_singleton.mpr isSessionID_sampleID
  have hread : sessionKeepalive largestKeepalive none = .ok (2 ^ 64 - 1) := rfl
  have hlives := h largestKeepalive [] [] sampleContext none SessionStore.empty {} (2 ^ 64 - 1) 0
    hnow (by decide) (by decide) hdraws rfl hread rfl
  have hroom := (Session.livesFor_start_iff hnow (by decide) (by decide) hdraws rfl hread
    rfl).mp hlives
  revert hroom
  decide

end Connection

end Nawa
