import Nawa.Laws.Connection.SessionCookie
import Nawa.Laws.RequestHandler.Authentication
import Nawa.Laws.Session.Interleaving

/-!
# Requests that nothing interrupts

A call of `applyFilters` that answers is a run of the steps of `Authentication`, so what holds of
every run of these steps holds in particular of requests that are handled one after the other.
`Follows` says what the steps have made of the state when a stage of the filters is through.
-/

namespace Nawa

open Lib.Transition

variable {F Fn C V : Type}

/-! ## The start of a session -/

namespace Session

theorem finish_ok {config : Config} {ctx : StartContext} {store : SessionStore V}
    {session : Session} {a : Nat} {id id' : Bytes}
    (h : (finish config ctx store session a id).result = .ok id') :
    (finish config ctx store session a id).session.currentData = some a ∧
      (finish config ctx store session a id).session.currentID = id' := by
  unfold finish at h ⊢
  dsimp only at h ⊢
  split at h
  · cases h
    exact ⟨rfl, rfl⟩
  · cases h

/-- A call of `start` that answers leaves its connection attached, under the id it answers. -/
theorem start_ok {config : Config} {remoteAddr : Bytes} {ctx : StartContext} {sessionId : Bytes}
    {keepalive : Option Nat} {store : SessionStore V} {session : Session} {id : Bytes}
    (h : (start config remoteAddr ctx sessionId keepalive store session).result = .ok id) :
    (∃ a, (start config remoteAddr ctx sessionId keepalive store session).session.currentData =
        some a) ∧
      (start config remoteAddr ctx sessionId keepalive store session).session.currentID = id := by
  unfold start at h ⊢
  split at h
  · next a hdata =>
    cases h
    exact ⟨⟨a, hdata⟩, rfl⟩
  · split at h
    · cases h
    · dsimp only at h ⊢
      split at h
      · next a _ =>
        obtain ⟨hdata, hid⟩ := finish_ok h
        exact ⟨⟨a, hdata⟩, hid⟩
      · unfold initiate at h ⊢
        split at h
        · cases h
        · next a _ =>
          obtain ⟨hdata, hid⟩ := finish_ok h
          exact ⟨⟨a, hdata⟩, hid⟩

namespace System

/-- **`start(Cookie)` is a run of the steps of `start`**, and leaves the connection attached. -/
theorem startsTo_startSession {conn : Connection} {ctx : StartContext} (properties : Cookie)
    {s : System V} {c : Nat} (hsession : conn.session = s.session c)
    (hidle : s.creating c = none) (hnodup : ctx.draws.Nodup)
    (hfresh : ∀ d ∈ ctx.draws, d ∉ s.issued)
    (h : (conn.startSession ctx properties s.store).2.2 = .ok ()) :
    s.StartsTo c (conn.startSession ctx properties s.store).1
        (conn.startSession ctx properties s.store).2.1.session ∧
      ∃ a, (conn.startSession ctx properties s.store).2.1.session.currentData = some a := by
  unfold Connection.startSession at h ⊢
  by_cases hestablished : conn.session.established = true
  · rw [if_pos hestablished]
    refine ⟨⟨[], s, .nil s, nofun, rfl, ?_, hidle⟩, Option.isSome_iff_exists.mp hestablished⟩
    dsimp only
    rw [hsession, Function.update_eq_self]
  · rw [if_neg hestablished] at h ⊢
    dsimp only at h ⊢
    cases hkeep : sessionKeepalive conn.config properties.maxAge with
    | error e => simp only [hkeep, reduceCtorEq] at h
    | ok k =>
      simp only [hkeep] at h ⊢
      have hnone : (s.session c).currentData = none := by
        rw [← hsession]
        exact Option.not_isSome_iff_eq_none.mp hestablished
      cases hresult : (start conn.config (conn.request.envVar (bytes "REMOTE_ADDR")) ctx
          (conn.request.cookieVar (Connection.cookieName conn.config)) (some k) s.store
          { conn.session with cookieName := Connection.cookieName conn.config }).result with
      | error e => simp only [hresult, reduceCtorEq] at h
      | ok id =>
        simp only [hresult] at h ⊢
        obtain ⟨hdata, hid⟩ := start_ok hresult
        rw [hsession] at hresult
        have hrun := startsTo_start (some (Connection.cookieName conn.config)) hidle
          hnodup hfresh (.inr hnone) hresult
        split at h
        · next conn' hcookie =>
          obtain ⟨cookies, rfl⟩ := Connection.setCookie_frame hcookie
          dsimp only
          rw [← hid]
          rw [← hsession] at hrun
          exact ⟨hrun, hdata⟩
        · cases h

end System

end Session

theorem Connection.setContentDisposition_session (conn : Connection) (forceDownload : Bool)
    (downloadFilename : Bytes) :
    (conn.setContentDisposition forceDownload downloadFilename).session = conn.session := by
  unfold setContentDisposition
  dsimp only
  split
  · rfl
  · split <;> rfl

theorem Connection.setLastModified_session (conn : Connection) (lastModified : Int) :
    (conn.setLastModified lastModified).session = conn.session := by
  unfold setLastModified
  split
  · split <;> rfl
  · rfl

/-- Sending a file leaves the session alone, whether it succeeds or not. -/
theorem Connection.sendFileInPlace_session (conn : Connection) (files : FileSystem)
    (path contentType : Bytes) (forceDownload : Bool) (downloadFilename : Bytes)
    (checkIfModifiedSince : Bool) :
    (conn.sendFileInPlace files path contentType forceDownload downloadFilename
      checkIfModifiedSince).1.session = conn.session := by
  unfold sendFileInPlace
  split
  · rfl
  · dsimp only
    split
    · rfl
    · split <;> exact (setLastModified_session _ _).trans (setContentDisposition_session _ _ _)

/-! ## The stages of a request -/

namespace Authentication

/-- What the log says of an event of the filters, for a request with a session object. -/
def logged (r : Nat) (a : Option Nat) : FilterEvent Fn → Option (AuthEvent Fn)
  | .passedBySession _ flt => a.map (.passed r · flt)
  | .asked _ _ authFunction _ _ true => some (.accepted r a authFunction)
  | _ => none

/-- A step of the filters for the request, or of the collector that their calls may run. -/
def OwnStep (r : Nat) (a : Step F Fn C V) : Prop :=
  KeepsOut a ∧ (a.request = some r ∨ ∃ time, a = .collectGarbage time)

/-- A run of the request to a stage, with what the filters have left of store and connection. -/
def Follows (s : Authentication F Fn C V) (r : Nat) (request : Request) (stage : AuthStage Fn)
    (filtered : Filtered Fn V) : Prop :=
  ∃ steps t, Run step (fun _ a => OwnStep r a) s steps t ∧
    t.sessions.store = filtered.store ∧
    t.sessions.session r = filtered.connection.session ∧
    t.request r = some (request, stage) ∧
    t.log = s.log ++ filtered.events.filterMap
      (logged r filtered.connection.session.currentData)

theorem Follows.single {s t : Authentication F Fn C V} {r : Nat} {request : Request}
    {stage : AuthStage Fn} {filtered : Filtered Fn V} {a : Step F Fn C V}
    (hstep : s.step a = some t) (hok : OwnStep r a) (hstore : t.sessions.store = filtered.store)
    (hsession : t.sessions.session r = filtered.connection.session)
    (hrequest : t.request r = some (request, stage))
    (hlog : t.log = s.log ++ filtered.events.filterMap
      (logged r filtered.connection.session.currentData)) : Follows s r request stage filtered :=
  ⟨[a], t, .single hok hstep, hstore, hsession, hrequest, hlog⟩

theorem step_of_request {s : Authentication F Fn C V} {r : Nat} {request : Request}
    {stage : AuthStage Fn} {a : Step F Fn C V} (hr : s.request r = some (request, stage))
    (ha : a.request = some r) : s.step a = s.stepRequest r request stage a := by
  cases a <;> cases ha <;>
    simp only [step, Step.request, Option.bind_some, hr, Option.map_some]

/-- The steps of `start` of a request that starts its session. -/
theorem run_of_starts {s : Authentication F Fn C V} {r n : Nat} {request : Request}
    {l : AccessFilterList Fn} {flt : AuthFilter Fn} {steps : List (Session.Step V)}
    {sessions : Session.System V} (hr : s.request r = some (request, .starting l n flt))
    (h : Run Session.System.step Session.System.Fresh s.sessions steps sessions)
    (hsteps : ∀ a ∈ steps, a.Starts r) :
    ∃ steps, Run step (fun _ a => OwnStep r a) s steps { s with sessions := sessions } := by
  generalize hsessions : s.sessions = sessions₀ at h
  induction h generalizing s with
  | nil =>
    subst hsessions
    exact ⟨[], .nil s⟩
  | @cons _ t u a _ hok hstep rest ih =>
    subst hsessions
    rw [List.forall_mem_cons] at hsteps
    obtain ⟨steps, hrun⟩ := ih (s := { s with sessions := t }) hr hsteps.2 rfl
    have hcall : ∀ {b}, s.sessions.step b = some t →
        OwnStep r (.session r b : Step F Fn C V) → b.connection = some r →
        (AuthStage.starting l n flt).permits b = true →
        ∃ steps, Run step (fun _ a => OwnStep r a) s steps { s with sessions := u } := by
      intro b hb hkeeps hconnection hpermits
      refine ⟨.session r b :: steps, .cons hkeeps ?_ hrun⟩
      rw [step_of_request hr rfl, stepRequest, if_pos ⟨hconnection, hpermits⟩, hb,
        Option.map_some]
    cases a with
    | start =>
      obtain rfl := hsteps.1
      exact hcall hstep ⟨trivial, .inl rfl⟩ rfl rfl
    | create =>
      obtain rfl := hsteps.1
      exact hcall hstep ⟨trivial, .inl rfl⟩ rfl rfl
    | collectGarbage time =>
      refine ⟨.collectGarbage time :: steps, .cons ⟨trivial, .inr ⟨time, rfl⟩⟩ ?_ hrun⟩
      rw [step, hstep, Option.map_some]
    | set => cases hsteps.1
    | unset => cases hsteps.1
    | invalidate => cases hsteps.1

/-- The session variable is set. -/
theorem step_remember {s : Authentication F Fn C V} {r n a : Nat} {request : Request}
    {l : AccessFilterList Fn} {flt : AuthFilter Fn} {username : Bytes} (any : Bytes → V)
    (hr : s.request r = some (request, .accepted l n flt username))
    (hidle : s.sessions.creating r = none)
    (hdata : (s.sessions.session r).currentData = some a) :
    ∃ t, s.step (.remember r any) = some t ∧
      t.sessions.store = s.sessions.store.modify a
        (Session.write (Connection.sessionVarKey n) (some (any username))) ∧
      t.sessions.session = s.sessions.session ∧
      t.request r = some (request, .forwarding l) ∧ t.log = s.log := by
  rw [step_of_request hr rfl]
  simp only [stepRequest, Session.System.step, hidle, Option.isSome_none, Bool.false_eq_true,
    if_false, Session.System.stepWrite, hdata, Option.map_some]
  exact ⟨_, rfl, rfl, rfl, Function.update_self .., rfl⟩

/-- The question to the function, and the session variable where it is set. -/
theorem follows_authenticate (env : FilterContext Fn V) {n : Nat} {flt : AuthFilter Fn}
    (l : AccessFilterList Fn) {s : Authentication F Fn C V} {r : Nat} (conn : Connection)
    (b : Bool) (hr : s.request r = some (conn.request, .asking l n flt))
    (hsession : conn.session = s.sessions.session r) (hidle : s.sessions.creating r = none)
    (h : (conn.authenticate env n flt s.sessions.store).result = .ok b) :
    Follows s r conn.request (if b then .forwarding l else .finished)
      (conn.authenticate env n flt s.sessions.store) := by
  have hask : s.step (.ask r env.invoke) =
      some (s.stepAsk r conn.request env.invoke l n flt) := by
    rw [step_of_request hr rfl]
    rfl
  unfold Connection.authenticate at h ⊢
  dsimp only at h ⊢
  cases hcheck : Connection.checkCredentials env.invoke flt conn.request with
  | failed e => simp only [hcheck, reduceCtorEq] at h
  | missing | unusable =>
    simp only [hcheck, stepAsk] at h hask ⊢
    cases h
    exact .single hask ⟨trivial, .inl rfl⟩ rfl hsession.symm (Function.update_self ..)
      (List.append_nil _).symm
  | answered f username password accepted =>
    cases accepted with
    | false =>
      simp only [hcheck, stepAsk, Bool.not_false, if_true] at h hask ⊢
      cases h
      exact .single hask ⟨trivial, .inl rfl⟩ rfl hsession.symm (Function.update_self ..)
        (List.append_nil _).symm
    | true =>
      simp only [hcheck, stepAsk, Bool.not_true, Bool.false_eq_true, if_false] at h hask ⊢
      by_cases huse : flt.useSessions = true
      · simp only [if_pos huse] at h hask ⊢
        cases hdata : conn.session.currentData with
        | none => simp only [Session.set, hdata, reduceCtorEq] at h
        | some a =>
          simp only [Session.set, hdata] at h ⊢
          cases h
          obtain ⟨t, hremember, hstore, hsessions, hrequest, hlog⟩ := step_remember
            (s := { s with
              request := s.setStage r conn.request (.accepted l n flt username)
              log := s.log ++ [.accepted r (s.sessions.session r).currentData f] })
            env.any (Function.update_self ..) hidle (hsession ▸ hdata)
          have hkeeps : OwnStep r (.ask r env.invoke : Step F Fn C V) := ⟨trivial, .inl rfl⟩
          have hkeeps' : OwnStep r (.remember r env.any : Step F Fn C V) := ⟨trivial, .inl rfl⟩
          refine ⟨_, t, .cons hkeeps hask (.single hkeeps' hremember), hstore, ?_, hrequest, ?_⟩
          · rw [hsessions]
            exact hsession.symm
          · rw [hlog, ← hsession]
            rfl
      · simp only [if_neg huse] at h hask ⊢
        cases h
        refine .single hask ⟨trivial, .inl rfl⟩ rfl hsession.symm (Function.update_self ..) ?_
        rw [hsession]
        rfl

theorem Follows.of_run {s t : Authentication F Fn C V} {r : Nat} {request : Request}
    {stage : AuthStage Fn} {filtered : Filtered Fn V} {steps : List (Step F Fn C V)}
    (h : Follows t r request stage filtered)
    (hrun : Run step (fun _ a => OwnStep r a) s steps t) (hlog : t.log = s.log) :
    Follows s r request stage filtered := by
  obtain ⟨steps', u, hrun', hstore, hsession, hrequest, hlog'⟩ := h
  exact ⟨_, u, hrun.append hrun', hstore, hsession, hrequest, hlog ▸ hlog'⟩

/-- The look at the session variable, once the session is started. -/
theorem step_check {s : Authentication F Fn C V} {r n a : Nat} {request : Request}
    {l : AccessFilterList Fn} {flt : AuthFilter Fn}
    (hr : s.request r = some (request, .starting l n flt)) (hidle : s.sessions.creating r = none)
    (hdata : (s.sessions.session r).currentData = some a) :
    s.step (.check r) = some
      (if (s.sessions.session r).isSet s.sessions.store (Connection.sessionVarKey n) then
        { s with
          request := s.setStage r request (.forwarding l)
          log := s.log ++ [.passed r a flt] }
      else { s with request := s.setStage r request (.asking l n flt) }) := by
  rw [step_of_request hr rfl]
  simp only [stepRequest, stepCheck, hdata, hidle]
  split <;> rfl

/-- The authentication stage, for the filter at a position. -/
theorem follows_authStage (env : FilterContext Fn V) (n : Nat) (flt : AuthFilter Fn)
    (l : AccessFilterList Fn) {s : Authentication F Fn C V} {r : Nat} (conn : Connection)
    (b : Bool) (hr : s.request r = some (conn.request,
      if flt.useSessions then .starting l n flt else .asking l n flt))
    (hsession : conn.session = s.sessions.session r) (hidle : s.sessions.creating r = none)
    (hnodup : env.start.draws.Nodup) (hfresh : ∀ d ∈ env.start.draws, d ∉ s.sessions.issued)
    (h : (conn.authStage env n flt s.sessions.store).result = .ok b) :
    Follows s r conn.request (if b then .forwarding l else .finished)
      (conn.authStage env n flt s.sessions.store) := by
  unfold Connection.authStage at h ⊢
  by_cases huse : flt.useSessions = true
  · rw [if_pos huse] at hr h ⊢
    obtain ⟨session, cookies, hframe⟩ :=
      Connection.startSession_frame conn env.start {} s.sessions.store
    have hstarts := Session.System.startsTo_startSession {} hsession hidle hnodup
      hfresh
    generalize conn.startSession env.start {} s.sessions.store = started at h hframe hstarts ⊢
    obtain ⟨store, conn', result⟩ := started
    cases result with
    | error e => cases h
    | ok =>
      obtain ⟨⟨steps, sessions, hrun, hsteps, hstore, hupdate, hidle'⟩, a, ha⟩ := hstarts rfl
      obtain ⟨steps', hrun'⟩ := run_of_starts hr hrun hsteps
      have hrequest := congrArg Connection.request hframe
      have hsession' : sessions.session r = conn'.session := by
        rw [hupdate, Function.update_self]
      have hcheck := step_check (s := { s with sessions := sessions }) hr hidle' (hsession' ▸ ha)
      dsimp only at h hstore hrequest hcheck ⊢
      rw [hsession', hstore] at hcheck
      have hkeeps : OwnStep r (.check r : Step F Fn C V) := ⟨trivial, .inl rfl⟩
      by_cases hset : conn'.session.isSet store (Connection.sessionVarKey n) = true
      · rw [if_pos hset] at h hcheck ⊢
        cases h
        have hpassed : Follows { s with sessions := sessions } r conn.request (.forwarding l)
            ⟨store, conn', [.passedBySession n flt], .ok true⟩ := by
          refine .single hcheck hkeeps hstore hsession' (Function.update_self ..) ?_
          rw [ha]
          rfl
        exact hpassed.of_run hrun' rfl
      · rw [if_neg hset] at h hcheck ⊢
        rw [← hrequest] at hcheck ⊢
        have hauth := follows_authenticate env l conn' b
          (s := { s with
            sessions := sessions
            request := s.setStage r conn'.request (.asking l n flt) })
          (Function.update_self ..) hsession'.symm hidle' (hstore ▸ h)
        rw [← hstore]
        exact hauth.of_run (hrun'.append (.single hkeeps hcheck)) rfl
  · rw [if_neg huse] at hr h ⊢
    exact follows_authenticate env l conn b hr hsession hidle h

/-- The forward filters, which leave the session alone. -/
theorem follows_forwardStage {env : FilterContext Fn V} {l : AccessFilterList Fn}
    {s : Authentication F Fn C V} {r : Nat} {request : Request} {conn : Connection} {b : Bool}
    (hr : s.request r = some (request, .forwarding l))
    (hsession : conn.session = s.sessions.session r)
    (h : (conn.forwardStage env l.forwardFilters request.getRequestPath s.sessions.store).result =
      .ok b) :
    Follows s r request (if b then .finished else .serving)
        (conn.forwardStage env l.forwardFilters request.getRequestPath s.sessions.store) ∧
      (conn.forwardStage env l.forwardFilters request.getRequestPath
        s.sessions.store).connection.session = conn.session := by
  have hforward : s.step (.forward r) =
      some { s with request := s.setStage r request (.forward l request) } := by
    rw [step_of_request hr rfl]
    rfl
  unfold AuthStage.forward at hforward
  unfold Connection.forwardStage at h ⊢
  cases hfind : Connection.findApplicable ForwardFilter.toAccessFilter request.getRequestPath 0
      l.forwardFilters with
  | error e => simp only [hfind, reduceCtorEq] at h
  | ok found =>
    cases found with
    | none =>
      simp only [hfind] at h hforward ⊢
      cases h
      exact ⟨.single hforward ⟨trivial, .inl rfl⟩ rfl hsession.symm (Function.update_self ..)
        (List.append_nil _).symm, trivial⟩
    | some found =>
      obtain ⟨n, flt⟩ := found
      simp only [hfind] at h hforward ⊢
      split at h
      · cases h
      · next path _ =>
        have hkept := conn.sendFileInPlace_session env.files path [] false [] true
        generalize conn.sendFileInPlace env.files path [] false [] true = sent at h hkept ⊢
        obtain ⟨conn', _ | _⟩ := sent
        · next e =>
          cases e with
          | nawa _ =>
            cases h
            exact ⟨.single hforward ⟨trivial, .inl rfl⟩ rfl (hsession.symm.trans hkept.symm)
              (Function.update_self ..) (List.append_nil _).symm, hkept⟩
          | std _ | undefined | diverges => cases h
        · cases h
          exact ⟨.single hforward ⟨trivial, .inl rfl⟩ rfl (hsession.symm.trans hkept.symm)
            (Function.update_self ..) (List.append_nil _).symm, hkept⟩

/-- **A call of `applyFilters` that answers is a run of the request**, from the filters it has
copied to the application or to the end. -/
theorem follows_applyFilters {env : FilterContext Fn V} {l : AccessFilterList Fn}
    {s : Authentication F Fn C V} {r : Nat} {conn : Connection} {b : Bool}
    (hr : s.request r = some (conn.request, .copied (some l)))
    (hsession : conn.session = s.sessions.session r) (hidle : s.sessions.creating r = none)
    (hnodup : env.start.draws.Nodup) (hfresh : ∀ d ∈ env.start.draws, d ∉ s.sessions.issued)
    (h : (conn.applyFilters env l s.sessions.store).result = .ok b) :
    Follows s r conn.request (if b then .finished else .serving)
      (conn.applyFilters env l s.sessions.store) := by
  have hfilter : s.step (.filter r) =
      some { s with request := s.setStage r conn.request (.enter (some l) conn.request) } := by
    rw [step_of_request hr rfl]
    rfl
  have hkeeps : OwnStep r (.filter r : Step F Fn C V) := ⟨trivial, .inl rfl⟩
  unfold AuthStage.enter at hfilter
  unfold Connection.applyFilters at h ⊢
  by_cases henabled : (!l.filtersEnabled) = true
  · simp only [if_pos henabled] at h hfilter ⊢
    cases h
    exact .single hfilter ⟨trivial, .inl rfl⟩ rfl hsession.symm (Function.update_self ..)
      (List.append_nil _).symm
  · simp only [if_neg henabled] at h hfilter ⊢
    cases hblock : Connection.findApplicable BlockFilter.toAccessFilter
        conn.request.getRequestPath 0 l.blockFilters with
    | error e => simp only [hblock, reduceCtorEq] at h
    | ok block =>
    cases block with
    | some block =>
      simp only [hblock] at h hfilter ⊢
      cases h
      exact .single hfilter ⟨trivial, .inl rfl⟩ rfl hsession.symm (Function.update_self ..)
        (List.append_nil _).symm
    | none =>
    cases hauth : Connection.findApplicable AuthFilter.toAccessFilter
        conn.request.getRequestPath 0 l.authFilters with
    | error e => simp only [hblock, hauth, reduceCtorEq] at h
    | ok auth =>
    cases auth with
    | none =>
      simp only [hblock, hauth] at h hfilter ⊢
      exact (follows_forwardStage (s := { s with
        request := s.setStage r conn.request (.forwarding l) }) (Function.update_self ..)
        hsession h).1.of_run (.single hkeeps hfilter) rfl
    | some auth =>
      obtain ⟨n, flt⟩ := auth
      simp only [hblock, hauth] at h hfilter ⊢
      have hstage := fun passed => follows_authStage env n flt l conn passed
        (s := { s with
          request := s.setStage r conn.request
            (if flt.useSessions then .starting l n flt else .asking l n flt) })
        (Function.update_self ..) hsession hidle hnodup hfresh
      generalize conn.authStage env n flt s.sessions.store = authenticated at h hstage ⊢
      cases hresult : authenticated.result with
      | error e => simp only [hresult, reduceCtorEq] at h
      | ok passed =>
      have hauthenticated := (hstage passed hresult).of_run (.single hkeeps hfilter) rfl
      cases passed with
      | false =>
        simp only [hresult] at h ⊢
        cases h
        exact hauthenticated
      | true =>
        simp only [hresult] at h ⊢
        obtain ⟨steps, t, hrun, hstore, hsession', hrequest, hlog⟩ := hauthenticated
        rw [← hstore] at h ⊢
        obtain ⟨⟨steps', u, hrun', hstore', hsession'', hrequest', hlog'⟩, hkept⟩ :=
          follows_forwardStage hrequest hsession'.symm h
        refine ⟨_, u, hrun.append hrun', hstore', hsession'', hrequest', ?_⟩
        dsimp only
        rw [hlog', hlog, hkept, List.filterMap_append, List.append_assoc]

/-- Every pair of credentials is accepted. -/
def acceptingContext : FilterContext Nat Nat where
  files := fun _ => none
  start := ⟨5, [bytes "x"], 1⟩
  invoke := fun _ _ _ => true
  any := List.length

/-- A request that has copied a list of filters. -/
def copiedFilters : Authentication Nat Nat Unit Nat :=
  { init 0 (some (protectAll 1)) () with
    request := Function.update (fun _ => none) 0
      (some (signedIn, .copied (some (protectAll 1)))) }

/-- The steps of the request start its session, have it accepted and pass it on. -/
theorem follows_applyFilters_signedIn : ∃ steps t,
    Run step (fun _ a => OwnStep 0 a) copiedFilters steps t ∧
      (t.sessions.session 0).currentID = bytes "x" ∧ t.request 0 = some (signedIn, .serving) ∧
        t.log = .accepted 0 (some 0) 1 :: [] := by
  have hresult : (({ request := signedIn } : Connection).applyFilters acceptingContext
      (protectAll 1) copiedFilters.sessions.store).result = .ok false := rfl
  obtain ⟨steps, t, hrun, -, hsession, hrequest, hlog⟩ :=
    follows_applyFilters (s := copiedFilters) (r := 0) rfl rfl rfl (by decide)
      (fun _ _ => List.not_mem_nil) hresult
  exact ⟨steps, t, hrun, congrArg Session.currentID hsession, hrequest, hlog⟩

end Authentication

end Nawa
