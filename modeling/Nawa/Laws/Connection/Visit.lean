import Nawa.Laws.Connection.Keepalive
import Nawa.Lib.Transition
import Nawa.Session.Calls

/-!
# A client that comes back

A request has started a session by cookie. The client keeps the pair of the `set-cookie` header and
sends it with its next request, among its other cookies. Whatever calls other connections make on
the store in between, the next request is attached to the same session, provided that the time has
not run out and that nobody has used the session itself in a way that ends it (`Spares`).
-/

namespace Nawa

open Lib.Transition (Run)
open Session (Attached Call Collected IsSessionID Resumable Server collectorResult sessionKeepalive)
open utils (PlainPair cookieField cookiePair parseCookies)

variable {V : Type}

/-! ## The time in between -/

namespace Session

/-- The session is in the store, and will not have expired at a time. -/
structure Alive (store : SessionStore V) (id : Bytes) (a : Nat) (source : Bytes) (t : Int) :
    Prop where
  nonempty : id ≠ []
  entry : store.sessionData id = some a
  unexpired : t < (store.heap a).expires
  source : (store.heap a).sourceIP = source

/-- A call that does not end a session before a time. Whoever else presents the session has the
same address and asks for a time that is long enough, and nobody who is attached to it invalidates
it. What is written to a session does not matter, and neither does the collector. -/
def Spares (id : Bytes) (a : Nat) (source : Bytes) (t : Int) (s : Server V) (e : Int × Call V) :
    Prop :=
  e.1 ≤ t ∧
    match e.2 with
    | .start c config remoteAddr _ _ sessionId keepalive =>
      (s.session c).currentData = none → s.store.sessionData sessionId = some a →
        remoteAddr = source ∧ ∀ k, sessionKeepalive config keepalive = .ok k →
          t < toTimeT (e.1 + k)
    | .invalidate c => (s.session c).currentData = none ∨ (s.session c).currentID ≠ id
    | _ => True

variable {store store' : SessionStore V} {id source : Bytes} {a : Nat} {t : Int}

namespace Alive

theorem collected {time : Int} (h : Alive store id a source t) (htime : time ≤ t)
    (hcollected : Collected time store store') : Alive store' id a source t where
  nonempty := h.nonempty
  entry := hcollected.keeps id a h.entry (Int.le_of_lt (Int.lt_of_le_of_lt htime h.unexpired))
  unexpired := by rw [hcollected.heap]; exact h.unexpired
  source := by rw [hcollected.heap]; exact h.source

/-- Another object, or the data of this one. -/
theorem modify (h : Alive store id a source t) (b : Nat) {f : SessionData V → SessionData V}
    (hexpires : b = a → t < (f (store.heap a)).expires)
    (hsource : b = a → (f (store.heap a)).sourceIP = source) :
    Alive (store.modify b f) id a source t where
  nonempty := h.nonempty
  entry := h.entry
  unexpired := by
    rw [SessionStore.heap_modify, Function.update_apply]
    split
    next hb => exact hb ▸ hexpires hb.symm
    next => exact h.unexpired
  source := by
    rw [SessionStore.heap_modify, Function.update_apply]
    split
    next hb => exact hb ▸ hsource hb.symm
    next => exact h.source

theorem erase (h : Alive store id a source t) {id' : Bytes} (hid : id' ≠ id) :
    Alive (store.erase id') id a source t where
  nonempty := h.nonempty
  entry := by
    rw [SessionStore.sessionData_erase, Function.update_of_ne (Ne.symm hid)]
    exact h.entry
  unexpired := h.unexpired
  source := h.source

theorem create (h : Alive store id a source t) {remoteAddr : Bytes} {k : Nat} {time : Int}
    {draws : List Bytes} {id' : Bytes} {b : Nat}
    (hcreate : store.create remoteAddr k time draws = some (store', id', b)) :
    Alive store' id a source t := by
  obtain ⟨-, hnone, -, rfl⟩ := SessionStore.create_cases hcreate
  have hid : id ≠ id' := by
    rintro rfl
    exact Option.some_ne_none a (h.entry.symm.trans hnone)
  have ha : a ≠ store.next := Nat.ne_of_lt (store.constructed id a h.entry)
  refine ⟨h.nonempty, ?_, ?_, ?_⟩
  · rw [SessionStore.sessionData_insert, Function.update_of_ne hid]
    exact h.entry
  · rw [SessionStore.heap_insert, Function.update_of_ne ha]
    exact h.unexpired
  · rw [SessionStore.heap_insert, Function.update_of_ne ha]
    exact h.source

theorem finish (h : Alive store id a source t) {config : Config} {ctx : StartContext}
    (htime : ctx.time ≤ t) (session : Session) (b : Nat) (sessionId : Bytes) :
    Alive (Session.finish config ctx store session b sessionId).store id a source t := by
  obtain ⟨store', hfinish, hcollected⟩ := finish_cases config ctx store session b sessionId
  rw [hfinish]
  exact h.collected htime hcollected

theorem initiate (h : Alive store id a source t) {config : Config} {remoteAddr : Bytes}
    {ctx : StartContext} (htime : ctx.time ≤ t) (k : Nat) (session : Session) :
    Alive (Session.initiate config remoteAddr ctx k store session).store id a source t := by
  rw [Session.initiate]
  split
  next => exact h
  next hcreate => exact (h.create hcreate).finish htime session _ _

/-- A presented session can be resumed by its client. -/
theorem resumable (h : Alive store id a source t) {time : Int} (htime : time ≤ t)
    (config : Config) : Resumable config source time store id a where
  nonempty := h.nonempty
  key := h.entry
  unexpired := Int.lt_of_le_of_lt htime h.unexpired
  address := .inr h.source

theorem start (h : Alive store id a source t) {config : Config} {remoteAddr : Bytes}
    {ctx : StartContext} (htime : ctx.time ≤ t) {sessionId : Bytes} {keepalive : Option Nat}
    {session : Session}
    (hother : session.currentData = none → store.sessionData sessionId = some a →
      remoteAddr = source ∧ ∀ k, sessionKeepalive config keepalive = .ok k →
        t < toTimeT (ctx.time + k)) :
    Alive (Session.start config remoteAddr ctx sessionId keepalive store session).store id a
      source t := by
  cases hdata : session.currentData with
  | some b =>
    simp only [Session.start, hdata]
    exact h
  | none =>
    cases hkeep : sessionKeepalive config keepalive with
    | error e =>
      simp only [Session.start, hdata, hkeep]
      exact h
    | ok k =>
      by_cases hresumes : ∃ b, Resumable config remoteAddr ctx.time store sessionId b
      · obtain ⟨b, hb⟩ := hresumes
        rw [start_resumes hdata hkeep hb]
        refine (h.modify b (fun hba => ?_) fun _ => h.source).finish htime session b sessionId
        exact (hother hdata (hba ▸ hb.key)).2 k hkeep
      · obtain ⟨store', hstart, rfl | rfl⟩ := start_refused hdata hkeep hresumes
        · rw [hstart]
          exact h.initiate htime k session
        · rw [hstart]
          refine (h.erase ?_).initiate htime k session
          -- the session itself would have been resumed
          rintro rfl
          refine hresumes ⟨a, ?_⟩
          rw [(hother hdata h.entry).1]
          exact h.resumable htime config

/-- One call. -/
theorem call {s : Server V} (h : Alive s.store id a source t) {e : Int × Call V}
    (hspares : Spares id a source t s e) : Alive (s.call e.1 e.2).1.store id a source t := by
  obtain ⟨htime, hother⟩ := hspares
  have hwrite : ∀ (c : Nat) (key : Bytes) (value : Option V),
      ∀ b, (s.session c).currentData = some b →
        Alive (s.store.modify b (write key value)) id a source t :=
    fun c key value b _ => h.modify b (fun _ => h.unexpired) fun _ => h.source
  obtain ⟨time, call⟩ := e
  cases call with
  | start c config remoteAddr draws rd sessionId keepalive => exact h.start htime hother
  | set c key value =>
    simp only [Server.call, Server.written, Session.set]
    cases hdata : (s.session c).currentData with
    | none => exact h
    | some b => exact hwrite c key _ b hdata
  | unset c key =>
    simp only [Server.call, Server.written, Session.unset]
    cases hdata : (s.session c).currentData with
    | none => exact h
    | some b => exact hwrite c key _ b hdata
  | isSet c key => exact h
  | get c key => exact h
  | invalidate c =>
    simp only [Server.call, Session.invalidate]
    cases hdata : (s.session c).currentData with
    | none => exact h
    | some b =>
      refine h.erase (hother.resolve_left ?_)
      rw [hdata]
      exact Option.some_ne_none b
  | collectGarbage => exact h.collected htime (collected_collectGarbage time s.store)

/-- A session that every call spares is still alive after them. -/
theorem run {s s' : Server V} {calls : List (Int × Call V)} (h : Alive s.store id a source t)
    (hrun : Run (fun s e => some (s.call e.1 e.2).1) (Spares id a source t) s calls s') :
    Alive s'.store id a source t := by
  refine hrun.invariant (fun s => Alive s.store id a source t) (fun hok hs hstep => ?_) h
  obtain rfl := Option.some.inj hstep
  exact hs.call hok

end Alive

end Session

/-! ## The two requests -/

namespace Connection

variable {conn conn' : Connection} {ctx : StartContext} {properties : Cookie}
  {store store' : SessionStore V}

/-- What a client keeps of a `set-cookie` header: the pair in front of the attributes. -/
def keptPair (header : Bytes) : Bytes := header.takeWhile (· ≠ ';'.toUInt8)

theorem keptPair_cookieHeader (policy : Cookie) {key : Bytes} {cookie : Cookie}
    (h : PlainPair (key, cookie.content)) :
    keptPair (cookieHeader policy key cookie) = cookiePair (key, cookie.content) := by
  obtain ⟨attributes, heq, hmarked⟩ := cookieHeader_eq policy key cookie
  have hpair : ∀ c ∈ cookiePair (key, cookie.content), decide (c ≠ ';'.toUInt8) = true := by
    intro c hc
    refine decide_eq_true ?_
    rintro rfl
    exact h.pair.2 hc
  rw [keptPair, heq, List.takeWhile_append_of_pos hpair]
  cases attributes with
  | nil => exact List.append_nil _
  | cons c attributes =>
    obtain rfl : c = ';'.toUInt8 := hmarked c rfl
    exact List.append_nil _

/-- How a start by cookie that returns has ended. -/
structure Begun (conn : Connection) (ctx : StartContext) (properties : Cookie) (k : Nat)
    (store' : SessionStore V) (conn' : Connection) (id : Bytes) (a : Nat) : Prop where
  collector : collectorResult conn.config = .ok ()
  cookie : (conn.attachedTo id a).setCookie (cookieName conn.config)
    (sessionCookie conn.config ctx.time k id properties) = .ok conn'
  nonempty : id ≠ []
  entry : store'.sessionData id = some a
  expires : (store'.heap a).expires = ctx.time + k
  address : ¬ (Session.validateIP conn.config = bytes "strict" ∨
    Session.validateIP conn.config = bytes "lax") ∨ (store'.heap a).sourceIP = conn.remoteAddr

theorem begun_of_startSession {k : Nat} (hidle : conn.session.currentData = none)
    (hkeep : sessionKeepalive conn.config properties.maxAge = .ok k)
    (hdraws : ∀ d ∈ ctx.draws, IsSessionID d) (hnow : Representable ctx.time)
    (hroom : ctx.time + k < 2 ^ 63)
    (h : conn.startSession ctx properties store = (store', conn', .ok ())) :
    ∃ id a, Begun conn ctx properties k store' conn' id a := by
  have hlow := hnow.1
  have hexpiry : toTimeT (ctx.time + k) = ctx.time + k :=
    toTimeT_of_representable ⟨by omega, hroom⟩
  rcases startSession_cases ctx properties store hidle with
    ⟨e, he, -⟩ | ⟨k', hk', ⟨_, hstart, -⟩ | ⟨store₁, store₂, id, a, hattached, hcollected, hends⟩⟩
  · exact absurd (he.symm.trans hkeep) (error_ne_ok e k)
  · rw [hstart] at h
    cases h
  · obtain rfl : k' = k := Except.ok.inj (hk'.symm.trans hkeep)
    rw [h] at hends
    cases hends with
    | returned hcollector hcookie =>
      have hexpires := hattached.expires.trans hexpiry
      refine ⟨id, a, hcollector, hcookie, hattached.id_ne_nil hdraws, ?_, ?_, ?_⟩
      · refine hcollected.keeps id a hattached.entry ?_
        rw [hexpires]
        exact Int.le_add_of_nonneg_right (Int.natCast_nonneg k')
      · rw [hcollected.heap, hexpires]
      · rw [hcollected.heap]
        exact hattached.address

/-- A start by cookie that presents a session which can be resumed. -/
theorem startSession_of_resumable {conn : Connection} {k a : Nat}
    (hidle : conn.session.currentData = none)
    (hkeep : sessionKeepalive conn.config properties.maxAge = .ok k)
    (hcollector : collectorResult conn.config = .ok ())
    (hname : (cookieName conn.config).all keyChar = true)
    (hid : conn.presentedID.all contentChar = true)
    (h : Resumable conn.config conn.remoteAddr ctx.time store conn.presentedID a) :
    ∃ store' conn', conn.startSession ctx properties store = (store', conn', .ok ()) ∧
      conn'.session.currentData = some a ∧ conn'.session.currentID = conn.presentedID ∧
      (store'.heap a).data = (store.heap a).data := by
  have hnot : ¬ conn.session.established = true := by
    rw [Session.established, hidle]
    exact Bool.false_ne_true
  have hidle' : conn.named.currentData = none := hidle
  have hkeep' : sessionKeepalive conn.config (some k) = .ok k := rfl
  obtain ⟨store', hfinish, hcollected⟩ := Session.finish_cases conn.config ctx
    (store.modify a fun object => { object with expires := toTimeT (ctx.time + k) }) conn.named a
    conn.presentedID
  have hstart := Session.start_resumes hidle' hkeep' h
  rw [hfinish, hcollector] at hstart
  obtain ⟨conn', hcookie⟩ : ∃ conn', (conn.attachedTo conn.presentedID a).setCookie
      (cookieName conn.config) (sessionCookie conn.config ctx.time k conn.presentedID properties) =
        .ok conn' := by
    rw [setCookie_returns_iff, content_sessionCookie]
    exact ⟨hname, hid⟩
  have hsession : conn'.session = (conn.attachedTo conn.presentedID a).session := by
    obtain ⟨cookies, rfl⟩ := setCookie_frame hcookie
    rfl
  refine ⟨store', conn', ?_, ?_, ?_, ?_⟩
  · rw [startSession, if_neg hnot]
    dsimp only
    rw [hkeep]
    dsimp only
    rw [named, remoteAddr, presentedID] at hstart
    rw [hstart]
    dsimp only [Except.map]
    rw [attachedTo, named, presentedID] at hcookie
    rw [hcookie]
  · rw [hsession, attachedTo]
  · rw [hsession, attachedTo]
  · rw [hcollected.heap, SessionStore.heap_modify, Function.update_self]

/-- A connection for a later request of the same client, which sends the pair that it has kept
among its other cookies. -/
structure ComesBack (conn : Connection) (pair : Bytes × Bytes) (next : Connection) : Prop where
  idle : next.session.currentData = none
  config : next.config = conn.config
  address : next.remoteAddr = conn.remoteAddr
  cookies : ∃ jar, next.request.cookie = parseCookies (cookieField jar) ∧
    (∀ p ∈ jar, PlainPair p) ∧ pair ∈ jar ∧ ∀ p ∈ jar, p.1 = pair.1 → p = pair

theorem ComesBack.presentedID {pair : Bytes × Bytes} {next : Connection}
    (h : ComesBack conn pair next) (hname : pair.1 = cookieName conn.config) :
    next.presentedID = pair.2 := by
  obtain ⟨jar, hcookie, hplain, hmem, hunique⟩ := h.cookies
  have hvalue : jar.lookup pair.1 = some pair.2 :=
    Lib.lookup_of_mem hmem fun v hv => congrArg Prod.snd (hunique _ hv rfl)
  rw [Connection.presentedID, h.config, ← hname, Request.cookieVar, hcookie,
    utils.parseCookies_cookieField hplain, hvalue, Option.getD_some]

/-- The response has a `set-cookie` header, and a client that comes back with its pair before a
time is attached to the session of `conn'` again, and reads under every key what that connection
would read. In between there may be any calls that spare the session. -/
def CarriesOver (conn conn' : Connection) (properties : Cookie) (store' : SessionStore V)
    (expiry : Int) : Prop :=
  ∃ pair a,
    (∀ order, ∃ header, (bytes "set-cookie", header) ∈ conn'.getHeaders order true ∧
      keptPair header = cookiePair pair) ∧
    ∀ (s s' : Server V) (calls : List (Int × Call V)) (next : Connection) (ctx' : StartContext),
      s.store = store' → ComesBack conn pair next → ctx'.time < expiry →
      Run (fun s e => some (s.call e.1 e.2).1)
        (Session.Spares pair.2 a (store'.heap a).sourceIP ctx'.time) s calls s' →
      ∃ store'' next', next.startSession ctx' properties s'.store = (store'', next', .ok ()) ∧
        next'.session.getID = conn'.session.getID ∧
        ∀ key, next'.session.get store'' key = conn'.session.get s'.store key

/-- **A client that comes back finds its session**, if its time has not run out. -/
theorem session_carries_over {k : Nat} (hidle : conn.session.currentData = none)
    (hkeep : sessionKeepalive conn.config properties.maxAge = .ok k)
    (hdraws : ∀ d ∈ ctx.draws, IsSessionID d) (hnow : Representable ctx.time)
    (hroom : ctx.time + k < 2 ^ 63)
    (h : conn.startSession ctx properties store = (store', conn', .ok ())) :
    CarriesOver conn conn' properties store' (ctx.time + k) := by
  obtain ⟨id, a, hbegun⟩ := begun_of_startSession hidle hkeep hdraws hnow hroom h
  obtain ⟨hname, hcontent⟩ := setCookie_returns_iff.mp ⟨conn', hbegun.cookie⟩
  rw [content_sessionCookie] at hcontent
  have hplain : PlainPair (cookieName conn.config, id) := by
    have haccepted := plainPair_of_accepted ⟨conn', hbegun.cookie⟩
    rw [content_sessionCookie] at haccepted
    exact haccepted hbegun.nonempty
  have hsession : conn'.session = (conn.attachedTo id a).session := by
    obtain ⟨cookies, rfl⟩ := setCookie_frame hbegun.cookie
    rfl
  refine ⟨(cookieName conn.config, id), a, fun order => ?_,
    fun s s' calls next ctx' hstore hback htime hrun => ?_⟩
  · refine ⟨_, setCookie_mem_getHeaders hbegun.cookie conn'.cookiePolicy order, ?_⟩
    have hcookie := content_sessionCookie conn.config ctx.time k id properties
    rw [keptPair_cookieHeader _ (hcookie.symm ▸ hplain), hcookie]
  · have halive : Session.Alive s.store id a (store'.heap a).sourceIP ctx'.time := by
      rw [hstore]
      exact ⟨hbegun.nonempty, hbegun.entry, hbegun.expires.symm ▸ htime, rfl⟩
    have hlater := halive.run hrun
    have hpresented := hback.presentedID rfl
    have hresumable :
        Resumable next.config next.remoteAddr ctx'.time s'.store next.presentedID a := by
      rw [hback.config, hback.address, hpresented]
      exact
        { nonempty := hbegun.nonempty
          key := hlater.entry
          unexpired := hlater.unexpired
          address := hbegun.address.imp_right fun haddress => hlater.source.trans haddress }
    have hkeep' : sessionKeepalive next.config properties.maxAge = .ok k :=
      hback.config.symm ▸ hkeep
    obtain ⟨store'', next', hstart, hdata, hid, hobject⟩ :=
      startSession_of_resumable hback.idle hkeep' (hback.config.symm ▸ hbegun.collector)
        (hback.config.symm ▸ hname) (hpresented.symm ▸ hcontent) hresumable
    refine ⟨store'', next', hstart, ?_, fun key => ?_⟩
    · rw [Session.getID, Session.getID, hsession, Session.established, hdata, hid, hpresented]
      rfl
    · rw [Session.get, Session.get, hsession, hdata]
      exact congrFun hobject key

/-- A visitor who has no cookie yet. -/
theorem session_carries_over_newVisitor :
    CarriesOver {} (Connection.startSession {} sampleContext {}
        (SessionStore.empty : SessionStore Nat)).2.1 {}
      (Connection.startSession {} sampleContext {} (SessionStore.empty : SessionStore Nat)).1
      (sampleContext.time + (1800 : Nat)) := by
  have hnow : Representable sampleContext.time := ⟨by decide, by decide⟩
  have hroom : sampleContext.time + (1800 : Nat) < 2 ^ 63 := by decide
  have hreturns : (Connection.startSession {} sampleContext {}
      (SessionStore.empty : SessionStore Nat)).2.2 = .ok () := rfl
  exact session_carries_over rfl rfl (List.forall_mem_singleton.mpr isSessionID_sampleID) hnow
    hroom (Prod.ext rfl (Prod.ext rfl hreturns))

end Connection

end Nawa
