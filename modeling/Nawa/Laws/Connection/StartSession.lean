import Nawa.Laws.Connection.Cookies
import Nawa.Laws.Connection.SessionCookie
import Nawa.Laws.Session.SafeStart

/-!
# `Session::start(Cookie)`

The start by cookie sets the session cookie once the session is there. A cookie that is refused
therefore comes too late, and so does a failure of the collector: by then the session is in the
store and the connection is attached to it.
-/

namespace Nawa.Connection

open Session (Attached Collected IsSessionID SessionIDs NumbersUsable Safe collectorResult
  sessionKeepalive)

variable {V : Type} {conn : Connection} {ctx : StartContext} {properties : Cookie}
  {store : SessionStore V}

/-- The session object of a call, once the name of the cookie is known. -/
def named (conn : Connection) : Session :=
  { conn.session with cookieName := cookieName conn.config }

def remoteAddr (conn : Connection) : Bytes := conn.request.envVar (bytes "REMOTE_ADDR")

def presentedID (conn : Connection) : Bytes := conn.request.cookieVar (cookieName conn.config)

/-- The connection that is attached to a session. -/
def attachedTo (conn : Connection) (id : Bytes) (a : Nat) : Connection :=
  { conn with session := { conn.named with currentData := some a, currentID := id } }

/-- How the call ends once the connection is attached to a session. -/
inductive EndsAttached (ctx : StartContext) (properties : Cookie) (conn : Connection) (k : Nat)
    (store : SessionStore V) (id : Bytes) : SessionStore V × Connection × Except Failure Unit → Prop
  | collector {e : Failure} (h : collectorResult conn.config = .error e) :
    EndsAttached ctx properties conn k store id (store, conn, .error e)
  | refused {e : Exception} (h : collectorResult conn.config = .ok ())
      (hcookie : conn.setCookie (cookieName conn.config)
        (sessionCookie conn.config ctx.time k id properties) = .error e) :
    EndsAttached ctx properties conn k store id (store, conn, .error (.nawa e))
  | returned {conn' : Connection} (h : collectorResult conn.config = .ok ())
      (hcookie : conn.setCookie (cookieName conn.config)
        (sessionCookie conn.config ctx.time k id properties) = .ok conn') :
    EndsAttached ctx properties conn k store id (store, conn', .ok ())

theorem EndsAttached.store_session {k : Nat} {id : Bytes}
    {r : SessionStore V × Connection × Except Failure Unit}
    (h : EndsAttached ctx properties conn k store id r) :
    r.1 = store ∧ r.2.1.session = conn.session := by
  cases h with
  | collector => exact ⟨rfl, rfl⟩
  | refused => exact ⟨rfl, rfl⟩
  | returned _ hcookie =>
    obtain ⟨cookies, rfl⟩ := setCookie_frame hcookie
    exact ⟨rfl, rfl⟩

theorem startSession_cases (ctx : StartContext) (properties : Cookie) (store : SessionStore V)
    (hidle : conn.session.currentData = none) :
    (∃ e, sessionKeepalive conn.config properties.maxAge = .error e ∧
      conn.startSession ctx properties store =
        (store, { conn with session := conn.named }, .error e)) ∨
    ∃ k, sessionKeepalive conn.config properties.maxAge = .ok k ∧
      ((∃ store', conn.startSession ctx properties store =
          (store', { conn with session := conn.named }, .error .diverges) ∧
        ∀ d ∈ ctx.draws, store.sessionData d ≠ none) ∨
      ∃ store' store'' id a, Attached conn.config conn.remoteAddr ctx k store conn.presentedID
          store' id a ∧
        Collected ctx.time store' store'' ∧
        EndsAttached ctx properties (conn.attachedTo id a) k store'' id
          (conn.startSession ctx properties store)) := by
  have hnot : ¬ conn.session.established = true := by
    rw [Session.established, hidle]
    exact Bool.false_ne_true
  rw [startSession, if_neg hnot]
  dsimp only
  cases hkeep : sessionKeepalive conn.config properties.maxAge with
  | error e => exact .inl ⟨e, rfl, rfl⟩
  | ok k =>
    refine .inr ⟨k, rfl, ?_⟩
    have hidle' : conn.named.currentData = none := hidle
    rcases Session.start_cases conn.config conn.remoteAddr ctx conn.presentedID (some k) store
      hidle' with
      ⟨e, he, -⟩ | ⟨k', hk', ⟨store', hstart, hdraws⟩ | ⟨store', id, a, hstart, hattached⟩⟩
    · cases he
    · rw [named, remoteAddr, presentedID] at hstart
      dsimp only
      rw [hstart]
      exact .inl ⟨store', rfl, hdraws⟩
    · obtain rfl : k = k' := Except.ok.inj hk'
      obtain ⟨store'', hfinish, hcollected⟩ :=
        Session.finish_cases conn.config ctx store' conn.named a id
      refine .inr ⟨store', store'', id, a, hattached, hcollected, ?_⟩
      rw [hfinish, named, remoteAddr, presentedID] at hstart
      dsimp only
      rw [hstart]
      cases hresult : collectorResult conn.config with
      | error e => exact .collector hresult
      | ok u =>
        dsimp only [Except.map]
        cases hcookie : (conn.attachedTo id a).setCookie (cookieName conn.config)
          (sessionCookie conn.config ctx.time k id properties) with
        | error e =>
          have hcookie' := hcookie
          rw [attachedTo, named] at hcookie'
          rw [hcookie']
          exact .refused hresult hcookie
        | ok conn' =>
          have hcookie' := hcookie
          rw [attachedTo, named] at hcookie'
          rw [hcookie']
          exact .returned hresult hcookie

/-! ## The cookie -/

theorem contentChar_sessionID {id : Bytes} (h : IsSessionID id) :
    id.all contentChar = true := by
  have hall : (List.range 16).all (fun n => contentChar (utils.hexDigit n)) = true := by decide
  have hdigit : ∀ n, n < 16 → contentChar (utils.hexDigit n) = true :=
    fun n hn => List.all_eq_true.mp hall n (List.mem_range.mpr hn)
  obtain ⟨digest, -, rfl⟩ := h
  rw [List.all_eq_true]
  intro x hx
  obtain ⟨c, -, hc⟩ := List.mem_flatMap.mp hx
  have hlt := c.toNat_lt
  rcases List.mem_pair.mp hc with rfl | rfl
  · exact hdigit _ (by omega)
  · exact hdigit _ (by omega)

theorem content_sessionCookie (config : Config) (time : Int) (k : Nat) (id : Bytes)
    (properties : Cookie) : (sessionCookie config time k id properties).content = id := by
  rw [sessionCookie]

/-- A call attaches to an id of the store or to one that it has drawn. -/
theorem isSessionID_of_attached {config : Config} {remoteAddr sessionId id : Bytes} {k a : Nat}
    {store' : SessionStore V}
    (h : Attached config remoteAddr ctx k store sessionId store' id a) (hids : SessionIDs store)
    (hdrawn : ∀ d ∈ ctx.draws, IsSessionID d) : IsSessionID id := by
  rcases h.origin with ⟨-, rfl, hentry⟩ | hmem
  · exact hids id a hentry
  · exact hdrawn id hmem

/-- The cookie is refused for its name alone. -/
theorem setCookie_sessionCookie_iff (conn : Connection) {id : Bytes} (hid : IsSessionID id)
    (time : Int) (k : Nat) (properties : Cookie) :
    (∃ conn', conn.setCookie (cookieName conn.config)
      (sessionCookie conn.config time k id properties) = .ok conn') ↔
        (cookieName conn.config).all keyChar = true := by
  rw [setCookie_returns_iff, content_sessionCookie]
  exact and_iff_left (contentChar_sessionID hid)

section Ends

variable {store' : SessionStore V} {k a : Nat} {id : Bytes}
  {r : SessionStore V × Connection × Except Failure Unit}

/-- An attached call returns unless the collector or the name of the cookie stops it. -/
theorem EndsAttached.returns_iff (hid : IsSessionID id)
    (h : EndsAttached ctx properties (conn.attachedTo id a) k store' id r) :
    (∃ u, r.2.2 = .ok u) ↔
      collectorResult conn.config = .ok () ∧ (cookieName conn.config).all keyChar = true := by
  have hname := setCookie_sessionCookie_iff (conn.attachedTo id a) hid ctx.time k properties
  cases h with
  | collector hresult =>
    refine iff_of_false (not_returns_error _) fun h => ?_
    exact error_ne_ok _ () (hresult.symm.trans h.1)
  | refused hresult hcookie =>
    refine iff_of_false (not_returns_error _) fun h => ?_
    obtain ⟨conn', hset⟩ := hname.mpr h.2
    exact error_ne_ok _ _ (hcookie.symm.trans hset)
  | returned hresult hcookie => exact iff_of_true ⟨(), rfl⟩ ⟨hresult, hname.mp ⟨_, hcookie⟩⟩

end Ends

/-! ## Safety -/

/-- With a valid name for the cookie, a call on an idle connection returns exactly when its
numbers can be used. -/
theorem startSession_returns_iff (hdraws : ∃ d ∈ ctx.draws, store.sessionData d = none)
    (hdrawn : ∀ d ∈ ctx.draws, IsSessionID d) (hids : SessionIDs store)
    (hname : (cookieName conn.config).all keyChar = true)
    (hidle : conn.session.currentData = none) :
    (∃ u, (conn.startSession ctx properties store).2.2 = .ok u) ↔
      NumbersUsable conn.config properties.maxAge := by
  rw [Session.numbersUsable_iff]
  rcases startSession_cases ctx properties store hidle with
    ⟨e, he, heq⟩ | ⟨k, hk, ⟨store', -, hnone⟩ | ⟨store', store'', id, a, hattached, -, hends⟩⟩
  · rw [heq, he]
    exact iff_of_false (not_returns_error e) fun h => not_returns_error e h.1
  · obtain ⟨d, hd, hfresh⟩ := hdraws
    exact absurd hfresh (hnone d hd)
  · rw [hends.returns_iff (isSessionID_of_attached hattached hids hdrawn), hk]
    exact ⟨fun h => ⟨⟨k, rfl⟩, h.1⟩, fun h => ⟨h.2, hname⟩⟩

theorem startSession_safe_iff (hdraws : ∃ d ∈ ctx.draws, store.sessionData d = none)
    (hdrawn : ∀ d ∈ ctx.draws, IsSessionID d) (hids : SessionIDs store)
    (hname : (cookieName conn.config).all keyChar = true) :
    Safe conn.config properties.maxAge conn.session.established
        (conn.startSession ctx properties store).2.2 ↔
      conn.session.established = true ∨ NumbersUsable conn.config properties.maxAge := by
  cases hdata : conn.session.currentData with
  | some a =>
    have hestablished := Session.established_of_some hdata
    have hreturns : (conn.startSession ctx properties store).2.2 = .ok () := by
      rw [startSession, if_pos hestablished]
    rw [hestablished]
    exact iff_of_true (.of_established _ _ ⟨(), hreturns⟩) (.inl rfl)
  | none =>
    rw [Session.established_of_none hdata, or_iff_right Bool.false_ne_true]
    exact Session.safe_iff_of_returns_iff
      (startSession_returns_iff hdraws hdrawn hids hname hdata)

/-- **Both starts are safe** exactly on an established session, and where the numbers that they
read can be used. -/
theorem starts_safe_iff (hdraws : ∃ d ∈ ctx.draws, store.sessionData d = none)
    (hdrawn : ∀ d ∈ ctx.draws, IsSessionID d) (hids : SessionIDs store) :
    (∀ (config : Config) (remoteAddr sessionId : Bytes) (keepalive : Option Nat)
      (session : Session),
      Safe config keepalive session.established
          (Session.start config remoteAddr ctx sessionId keepalive store session).result ↔
        session.established = true ∨ NumbersUsable config keepalive) ∧
    ∀ (conn : Connection) (properties : Cookie), (cookieName conn.config).all keyChar = true →
      (Safe conn.config properties.maxAge conn.session.established
          (conn.startSession ctx properties store).2.2 ↔
        conn.session.established = true ∨ NumbersUsable conn.config properties.maxAge) :=
  ⟨fun _ _ _ _ _ => Session.start_safe_iff hdraws,
    fun _ _ hname => startSession_safe_iff hdraws hdrawn hids hname⟩

/-- An id as `generateID` answers it. -/
def sampleID : Bytes := utils.hexDump (List.replicate 20 0)

/-- A call at time 0 that draws that id. -/
def sampleContext : StartContext := ⟨0, [sampleID], 1⟩

theorem isSessionID_sampleID : IsSessionID sampleID := ⟨List.replicate 20 0, rfl, rfl⟩

def otherID : Bytes := utils.hexDump (List.replicate 20 1)

theorem isSessionID_otherID : IsSessionID otherID := ⟨List.replicate 20 1, rfl, rfl⟩

theorem starts_safe_iff_sample :
    (∃ d ∈ sampleContext.draws, (SessionStore.empty (V := Nat)).sessionData d = none) ∧
      (∀ d ∈ sampleContext.draws, IsSessionID d) ∧ SessionIDs (SessionStore.empty (V := Nat)) ∧
      Safe {} none false (Session.start {} [] sampleContext [] none
        (SessionStore.empty (V := Nat)) {}).result := by
  have hfresh : ∃ d ∈ sampleContext.draws, (SessionStore.empty (V := Nat)).sessionData d = none :=
    ⟨sampleID, List.mem_cons_self, rfl⟩
  have hdrawn : ∀ d ∈ sampleContext.draws, IsSessionID d :=
    List.forall_mem_singleton.mpr isSessionID_sampleID
  have hempty : stoul [] = .error .invalidArgument := rfl
  have hreadable : stoul [] ≠ .error .outOfRange := by
    rw [hempty]
    exact nofun
  have hdivisor : stoul [] ≠ .ok 0 := by
    rw [hempty]
    exact nofun
  have husable : NumbersUsable {} none := ⟨fun _ => hreadable, hreadable, hdivisor⟩
  have hsafe := (starts_safe_iff hfresh hdrawn Session.sessionIDs_empty).1 {} [] [] none {}
  exact ⟨hfresh, hdrawn, Session.sessionIDs_empty, hsafe.mpr (.inr husable)⟩

/-- The divisor 0. -/
def zeroDivisor : Config := Config.set {} (bytes "session", bytes "gc_divisor") (bytes "0")

theorem not_safe_zeroDivisor :
    ¬ ∀ (config : Config) (remoteAddr sessionId : Bytes) (ctx : StartContext)
      (keepalive : Option Nat) (store : SessionStore Nat) (session : Session),
      (∃ d ∈ ctx.draws, store.sessionData d = none) → (∀ d ∈ ctx.draws, IsSessionID d) →
      Safe config keepalive session.established
        (Session.start config remoteAddr ctx sessionId keepalive store session).result := by
  intro h
  have hdrawn : ∀ d ∈ sampleContext.draws, IsSessionID d :=
    List.forall_mem_singleton.mpr isSessionID_sampleID
  have hresult : (Session.start zeroDivisor [] sampleContext [] none
      (SessionStore.empty (V := Nat)) {}).result = .error .undefined := rfl
  obtain ⟨answer, hanswer⟩ := (h zeroDivisor [] [] sampleContext none SessionStore.empty {}
    ⟨sampleID, List.mem_cons_self, rfl⟩ hdrawn).returns
  rw [hresult] at hanswer
  cases hanswer

/-! ## Traces of a failed start -/

/-- The call ends in an exception. -/
def Throws (result : Except Failure Unit) : Prop :=
  (∃ e, result = .error (.nawa e)) ∨ ∃ e, result = .error (.std e)

/-- If the call throws, then there is no session on the connection, no cookie that was not there,
and no session in the store that was not there. -/
def TracelessFailure (cookies : Lib.AssocMap Bytes Cookie) (store : SessionStore V)
    (r : SessionStore V × Connection × Except Failure Unit) : Prop :=
  Throws r.2.2 → r.2.1.session.established = false ∧ r.2.1.cookies = cookies ∧
    ∀ id a, r.1.sessionData id = some a → store.sessionData id = some a

/-- What a start by cookie finds, such that it does not fail when it is too late: the keepalive
fails before anything has been done; or the divisor can be read, and the name of the cookie is
valid, unless a divisor of 0 ends the process before the cookie is set. -/
def FailsEarly (config : Config) (keepalive : Option Nat) : Prop :=
  ¬ Session.KeepaliveReadable config keepalive ∨
    Session.DivisorReadable config ∧
      (Session.DivisorZero config ∨ (cookieName config).all keyChar = true)

theorem not_throws_ok (u : Unit) : ¬ Throws (.ok u) := by
  rintro (⟨e, he⟩ | ⟨e, he⟩)
  · cases he
  · cases he

/-- An attached call throws only for a divisor that is out of range, or for the name of the
cookie. -/
theorem EndsAttached.not_throws_iff {store' : SessionStore V} {k a : Nat} {id : Bytes}
    {r : SessionStore V × Connection × Except Failure Unit} (hid : IsSessionID id)
    (h : EndsAttached ctx properties (conn.attachedTo id a) k store' id r) :
    ¬ Throws r.2.2 ↔ Session.DivisorReadable conn.config ∧
      (Session.DivisorZero conn.config ∨ (cookieName conn.config).all keyChar = true) := by
  have hname := setCookie_sessionCookie_iff (conn.attachedTo id a) hid ctx.time k properties
  cases h with
  | @collector e hresult =>
    have hresult' : collectorResult conn.config = .error e := hresult
    rcases Session.collectorResult_cases conn.config with
      ⟨hnot, heq⟩ | ⟨hreadable, hzero, heq⟩ | ⟨-, -, heq, -⟩
    · obtain rfl := Except.error.inj (hresult'.symm.trans heq)
      exact iff_of_false (not_not_intro (.inr ⟨_, rfl⟩)) fun h => hnot h.1
    · obtain rfl := Except.error.inj (hresult'.symm.trans heq)
      refine iff_of_true ?_ ⟨hreadable, .inl hzero⟩
      rintro (⟨e, he⟩ | ⟨e, he⟩)
      · cases he
      · cases he
    · exact absurd (hresult'.symm.trans heq) (error_ne_ok _ _)
  | refused hresult hcookie =>
    obtain ⟨-, hnonzero⟩ := Session.collectorResult_ok_iff.mp hresult
    refine iff_of_false (not_not_intro (.inl ⟨_, rfl⟩)) ?_
    rintro ⟨-, hzero | hvalid⟩
    · exact hnonzero hzero
    · obtain ⟨conn', hset⟩ := hname.mpr hvalid
      exact error_ne_ok _ _ (hcookie.symm.trans hset)
  | returned hresult hcookie =>
    obtain ⟨hreadable, -⟩ := Session.collectorResult_ok_iff.mp hresult
    exact iff_of_true (not_throws_ok ()) ⟨hreadable, .inr (hname.mp ⟨_, hcookie⟩)⟩

/-- An attached connection is the trace of a failure. -/
theorem EndsAttached.traceless_iff_not_throws {cookies : Lib.AssocMap Bytes Cookie}
    {store' : SessionStore V} {k a : Nat} {id : Bytes}
    {r : SessionStore V × Connection × Except Failure Unit}
    (h : EndsAttached ctx properties (conn.attachedTo id a) k store' id r) :
    TracelessFailure cookies store r ↔ ¬ Throws r.2.2 := by
  refine ⟨fun htraceless hthrows => ?_, fun hnot hthrows => absurd hthrows hnot⟩
  have hestablished : r.2.1.session.established = true := by
    rw [h.store_session.2]
    rfl
  rw [(htraceless hthrows).1] at hestablished
  cases hestablished

theorem startSession_traceless_iff (hdraws : ∃ d ∈ ctx.draws, store.sessionData d = none)
    (hdrawn : ∀ d ∈ ctx.draws, IsSessionID d) (hids : SessionIDs store) :
    TracelessFailure conn.cookies store (conn.startSession ctx properties store) ↔
      conn.session.established = true ∨ FailsEarly conn.config properties.maxAge := by
  cases hdata : conn.session.currentData with
  | some a =>
    have hestablished := Session.established_of_some hdata
    refine iff_of_true (fun hthrows => absurd hthrows ?_) (.inl hestablished)
    rw [startSession, if_pos hestablished]
    exact not_throws_ok ()
  | none =>
    have hidle := Session.established_of_none hdata
    rw [hidle, or_iff_right Bool.false_ne_true, FailsEarly, Session.keepaliveReadable_iff]
    rcases startSession_cases ctx properties store hdata with
      ⟨e, he, heq⟩ | ⟨k, hk, ⟨store', -, hnone⟩ | ⟨store', store'', id, a, hattached, -, hends⟩⟩
    · -- nothing has been done yet
      rw [heq, he]
      exact iff_of_true (fun _ => ⟨hidle, rfl, fun _ _ h => h⟩) (.inl (not_returns_error e))
    · obtain ⟨d, hd, hfresh⟩ := hdraws
      exact absurd hfresh (hnone d hd)
    · rw [hk, or_iff_right (not_not_intro ⟨k, rfl⟩), hends.traceless_iff_not_throws,
        hends.not_throws_iff (isSessionID_of_attached hattached hids hdrawn)]

/-- **A failed start leaves no trace** exactly where it fails early; the same goes for the
constructor, if it starts a session at all. Its connection is then what its body has made of it
when the exception leaves it; of the two, only the store is there afterwards. -/
theorem traceless_iff (hdraws : ∃ d ∈ ctx.draws, store.sessionData d = none)
    (hdrawn : ∀ d ∈ ctx.draws, IsSessionID d) (hids : SessionIDs store) :
    (∀ (conn : Connection) (properties : Cookie),
      TracelessFailure conn.cookies store (conn.startSession ctx properties store) ↔
        conn.session.established = true ∨ FailsEarly conn.config properties.maxAge) ∧
    ∀ (request : Request) (config : Config),
      TracelessFailure .empty store (construct request config ctx store) ↔
        config.get (bytes "session") (bytes "autostart") ≠ bytes "on" ∨
          FailsEarly config none := by
  refine ⟨fun conn properties => startSession_traceless_iff hdraws hdrawn hids, ?_⟩
  intro request config
  by_cases hauto : config.get (bytes "session") (bytes "autostart") = bytes "on"
  · rw [construct, if_pos hauto, or_iff_right (not_not_intro hauto)]
    refine (startSession_traceless_iff hdraws hdrawn hids).trans ?_
    exact or_iff_right Bool.false_ne_true
  · refine iff_of_true ?_ (.inl hauto)
    rw [construct, if_neg hauto]
    rintro (⟨e, he⟩ | ⟨e, he⟩) <;> cases he

/-- A session is started for every request, with a keepalive that is out of range. -/
def autostartKeepalive : Config :=
  (Config.set {} (bytes "session", bytes "autostart") (bytes "on")).set
    (bytes "session", bytes "keepalive") (bytes "99999999999999999999")

/-- The store of a server on which another connection has started a session. -/
def usedStore : SessionStore Nat :=
  (Session.Server.after ⟨.empty, fun _ => {}⟩ [(0, .start 1 {} [] [otherID] 1 [] none)]).store

theorem sessionIDs_usedStore : Session.SessionIDs usedStore := by
  refine Session.sessionIDs_of_calls Session.sessionIDs_empty _ ?_
  exact List.forall_mem_singleton.mpr (List.forall_mem_singleton.mpr isSessionID_otherID)

/-- The constructor throws, and the store keeps the other session and gets no new one. -/
theorem traceless_iff_sample :
    Throws (construct {} autostartKeepalive sampleContext usedStore).2.2 ∧
      (usedStore.sessionData otherID).isSome ∧
      TracelessFailure .empty usedStore
        (construct {} autostartKeepalive sampleContext usedStore) := by
  have hrange : stoul (bytes "99999999999999999999") = .error .outOfRange := rfl
  have hearly : FailsEarly autostartKeepalive none := .inl fun h => h rfl hrange
  have hfresh : ∃ d ∈ sampleContext.draws, usedStore.sessionData d = none :=
    ⟨sampleID, List.mem_cons_self, rfl⟩
  have htraceless := (traceless_iff hfresh (List.forall_mem_singleton.mpr isSessionID_sampleID)
    sessionIDs_usedStore).2 {} autostartKeepalive
  exact ⟨.inr ⟨.outOfRange, rfl⟩, rfl, htraceless.mpr (.inr hearly)⟩

/-- A cookie name that is refused. -/
def spacedName : Config := Config.set {} (bytes "session", bytes "cookie_name") (bytes "a b")

theorem not_traceless_spacedName :
    ¬ ∀ (conn : Connection) (ctx : StartContext) (properties : Cookie) (store : SessionStore Nat),
      (∃ d ∈ ctx.draws, store.sessionData d = none) → (∀ d ∈ ctx.draws, IsSessionID d) →
      SessionIDs store →
      TracelessFailure conn.cookies store (conn.startSession ctx properties store) := by
  intro h
  let conn : Connection := { config := spacedName }
  have htraceless := h conn sampleContext {} SessionStore.empty ⟨sampleID, List.mem_cons_self, rfl⟩
    (List.forall_mem_singleton.mpr isSessionID_sampleID) Session.sessionIDs_empty
  have hthrows : Throws (conn.startSession sampleContext {} (SessionStore.empty (V := Nat))).2.2 :=
    .inl ⟨_, rfl⟩
  have hestablished : (conn.startSession sampleContext {}
      (SessionStore.empty (V := Nat))).2.1.session.established = true := rfl
  exact absurd (hestablished.symm.trans (htraceless hthrows).1) (by decide)

end Nawa.Connection
