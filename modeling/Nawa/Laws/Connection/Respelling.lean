import Nawa.Laws.Connection.Precedence

/-!
# Respelling a request path

Path conditions compare the elements of the request path as they are spelled, whereas the file
that a forward filter by path sends is what the operating system makes of these elements. Two
requests that differ in their URI alone are compared here up to the point where a file is sent.

A list whose block and authentication filters look at paths only guards both of them in the same
way exactly when it covers both or neither, first with its block filters and then with its
authentication filters (`notBypassed_iff`). Two spellings of one file can differ in elements `.`
and `..` only (`elements_of_sameFile`).
-/

namespace Nawa.Connection

open Lib.LexicalPath

variable {Fn V : Type}

/-! ## Requests that differ in their URI -/

def withRequest (conn : Connection) (request : Request) : Connection :=
  { conn with request := request }

/-- The client, its credentials and its cookies are the same. -/
structure SameClient (request request' : Request) : Prop where
  cookie : request'.cookie = request.cookie
  remoteAddr : request'.envVar (bytes "REMOTE_ADDR") = request.envVar (bytes "REMOTE_ADDR")
  authorization : request'.envVar (bytes "authorization") = request.envVar (bytes "authorization")

/-- A run is over before a file could have been sent: a block filter has blocked the request, or
an authentication filter has answered it. -/
def Stops (after : Filtered Fn V) : Prop :=
  after.result = .ok true ∧ ∀ flt path, .sentFile flt path ∉ after.events

/-- What a run did apart from sending a file. -/
def guardEvents (events : List (FilterEvent Fn)) : List (FilterEvent Fn) :=
  events.filter fun
    | .sentFile .. => false
    | _ => true

/-- Block and authentication filters do the same in two runs. -/
structure TreatedAlike (request' : Request) (after after' : Filtered Fn V) : Prop where
  guards : guardEvents after'.events = guardEvents after.events
  stops : Stops after' ↔ Stops after
  answer : Stops after → after'.connection = after.connection.withRequest request'

/-- A filter with a path condition as its only one, and without inversion. -/
structure PathOnly (flt : AccessFilter) : Prop where
  invert : flt.invert = false
  invertPathFilter : flt.invertPathFilter = false
  extensionFilter : flt.extensionFilter = []
  regexFilter : flt.regexFilterEnabled = false

/-- The block and the authentication filters of a list look at paths only. -/
def PathConditions (filters : AccessFilterList Fn) : Prop :=
  (∀ flt ∈ filters.blockFilters, PathOnly flt.toAccessFilter) ∧
    ∀ flt ∈ filters.authFilters, PathOnly flt.toAccessFilter

/-- For two requests, a forward filter reads one file. -/
def SameFile (flt : ForwardFilter) (request request' : Request) : Prop :=
  (forwardPath flt request.getRequestPath).map (resolve pathSyntax) =
    (forwardPath flt request'.getRequestPath).map (resolve pathSyntax)

instance (flt : ForwardFilter) (request request' : Request) :
    Decidable (SameFile flt request request') :=
  inferInstanceAs (Decidable (_ = _))

/-- The run has blocked its request through a block filter. -/
def Blocks (filters : AccessFilterList Fn) (conn : Connection) (after : Filtered Fn V) : Prop :=
  ∃ flt ∈ filters.blockFilters, after.result = .ok true ∧ after.events = [.blocked flt] ∧
    Answers flt.status flt.response conn after.connection

/-- An authentication filter has been passed. -/
def Admits (n : Nat) (flt : AuthFilter Fn) (events : List (FilterEvent Fn)) : Prop :=
  .passedBySession n flt ∈ events ∨
    ∃ authFunction username password, .asked n flt authFunction username password true ∈ events

/-- The run has demanded authentication for its request: an authentication filter applies, and
before it has been passed no file is sent and the application does not get the request. -/
structure Demands (filters : AccessFilterList Fn) (conn : Connection) (after : Filtered Fn V)
    (n : Nat) (flt : AuthFilter Fn) : Prop where
  get : filters.authFilters[n]? = some flt
  applies : flt.toAccessFilter.applies conn.request.getRequestPath = some true
  notBlocked : ∀ block, .blocked block ∉ after.events
  sends : ∀ g path, .sentFile g path ∈ after.events → Admits n flt after.events
  leaves : after.result = .ok false → Admits n flt after.events

/-- A list of filters guards two requests in the same way. -/
structure NotBypassed (env : FilterContext Fn V) (filters : AccessFilterList Fn)
    (store : SessionStore V) (conn conn' : Connection) : Prop where
  blocks : Blocks filters conn (applyFilters env filters store conn) ↔
    Blocks filters conn' (applyFilters env filters store conn')
  demands : (∃ n flt, Demands filters conn (applyFilters env filters store conn) n flt) ↔
    ∃ n flt, Demands filters conn' (applyFilters env filters store conn') n flt

/-- Some filter of a list has no path, or one that is a prefix of the request path. -/
def Covered {Flt : Type} (toAccessFilter : Flt → AccessFilter) (filters : List Flt)
    (requestPath : List Bytes) : Prop :=
  ∃ flt ∈ filters, (toAccessFilter flt).pathFilter = [] ∨
    ∃ path ∈ (toAccessFilter flt).pathFilter, path <+: requestPath

/-- Two request paths are covered by the same kind of filters. -/
def SameCover (filters : AccessFilterList Fn) (requestPath requestPath' : List Bytes) : Prop :=
  (Covered BlockFilter.toAccessFilter filters.blockFilters requestPath ↔
    Covered BlockFilter.toAccessFilter filters.blockFilters requestPath') ∧
  (¬ Covered BlockFilter.toAccessFilter filters.blockFilters requestPath →
    (Covered AuthFilter.toAccessFilter filters.authFilters requestPath ↔
      Covered AuthFilter.toAccessFilter filters.authFilters requestPath'))

/-- No element has a meaning of its own to the operating system. -/
def Plain (request : Request) : Prop :=
  bytes "." ∉ request.getRequestPath ∧ bytes ".." ∉ request.getRequestPath

instance (request : Request) : Decidable (Plain request) :=
  inferInstanceAs (Decidable (_ ∧ _))

/-- Spellings of one file without elements `.` and `..` have the same elements. -/
theorem elements_of_sameFile {flt : ForwardFilter} {request request' : Request}
    (hbyPath : flt.basePathExtension = .byPath) (h : SameFile flt request request')
    (hplain : Plain request) (hplain' : Plain request') :
    request'.getRequestPath = request.getRequestPath := by
  have hresolve : ∀ request : Request, Plain request →
      (forwardPath flt request.getRequestPath).map (resolve pathSyntax) =
        some (resolve pathSyntax flt.basePath ++ request.getRequestPath) := by
    intro request hplain
    simp only [forwardPath, hbyPath, Option.map_some, Option.some.injEq]
    apply resolve_join pathSyntax flt.basePath
    · exact fun e he => mem_getRequestPath he
    · exact hplain.1
    · exact hplain.2
  rw [SameFile, hresolve request hplain, hresolve request' hplain'] at h
  exact (List.append_cancel_left (Option.some.inj h)).symm

/-! ## Stages that do not look at the URI -/

theorem setCookie_withRequest (conn : Connection) (request' : Request) (key : Bytes)
    (cookie : Cookie) :
    (conn.withRequest request').setCookie key cookie =
      (conn.setCookie key cookie).map (·.withRequest request') := by
  unfold setCookie
  split <;> rfl

section Stages

variable {conn : Connection} {request' : Request} (hclient : SameClient conn.request request')

include hclient

theorem startSession_withRequest (ctx : StartContext) (properties : Cookie)
    (store : SessionStore V) :
    (conn.withRequest request').startSession ctx properties store =
      ((conn.startSession ctx properties store).1,
        (conn.startSession ctx properties store).2.1.withRequest request',
        (conn.startSession ctx properties store).2.2) := by
  have hcookie : ∀ name, request'.cookieVar name = conn.request.cookieVar name := by
    intro name
    rw [Request.cookieVar, Request.cookieVar, hclient.cookie]
  unfold startSession
  by_cases hestablished : conn.session.established = true
  · rw [if_pos hestablished, if_pos (show (conn.withRequest request').session.established = true
      from hestablished)]
  · rw [if_neg hestablished, if_neg (show ¬ (conn.withRequest request').session.established = true
      from hestablished)]
    simp only [withRequest, hclient.remoteAddr, hcookie]
    cases Session.sessionKeepalive conn.config properties.maxAge with
    | error e => rfl
    | ok keepalive =>
      dsimp only
      generalize Session.start conn.config _ ctx _ _ store _ = started
      cases started.result with
      | error e => rfl
      | ok sessionId =>
        dsimp only
        have hset := setCookie_withRequest
          { conn with session := { started.session with currentID := sessionId } } request'
          (cookieName conn.config)
          (sessionCookie conn.config ctx.time keepalive sessionId properties)
        unfold withRequest at hset
        rw [hset]
        generalize setCookie _ (cookieName conn.config) _ = answered
        cases answered with
        | error e => rfl
        | ok conn' => rfl

theorem authenticate_withRequest (env : FilterContext Fn V) (n : Nat) (flt : AuthFilter Fn)
    (store : SessionStore V) :
    authenticate env n flt store (conn.withRequest request') =
      { authenticate env n flt store conn with
        connection := (authenticate env n flt store conn).connection.withRequest request' } := by
  have hcheck : checkCredentials env.invoke flt request' =
      checkCredentials env.invoke flt conn.request := by
    rw [checkCredentials, hclient.authorization]
    rfl
  unfold authenticate
  rw [show (conn.withRequest request').request = request' from rfl, hcheck]
  cases checkCredentials env.invoke flt conn.request with
  | missing => rfl
  | failed e => rfl
  | unusable => rfl
  | answered f username password accepted =>
    rw [show (conn.withRequest request').session = conn.session from rfl]
    cases accepted with
    | false => rfl
    | true =>
      cases flt.useSessions with
      | false => rfl
      | true =>
        simp only [Bool.not_true, Bool.false_eq_true, if_false, if_true]
        cases conn.session.set (sessionVarKey n) (env.any username) store <;> rfl

theorem authStage_withRequest (env : FilterContext Fn V) (n : Nat) (flt : AuthFilter Fn)
    (store : SessionStore V) :
    authStage env n flt store (conn.withRequest request') =
      { authStage env n flt store conn with
        connection := (authStage env n flt store conn).connection.withRequest request' } := by
  unfold authStage
  cases huse : flt.useSessions with
  | false =>
    simp only [Bool.false_eq_true, if_false]
    exact authenticate_withRequest hclient env n flt store
  | true =>
    obtain ⟨session, cookies, hframe⟩ := startSession_frame conn env.start {} store
    rw [startSession_withRequest hclient]
    simp only [if_true]
    generalize conn.startSession env.start {} store = started at hframe ⊢
    obtain ⟨store', conn', result⟩ := started
    cases result with
    | error e => rfl
    | ok =>
      have hclient' : SameClient conn'.request request' := by
        rw [show conn' = _ from hframe]
        exact hclient
      dsimp only
      rw [authenticate_withRequest hclient',
        show (conn'.withRequest request').session = conn'.session from rfl]
      cases conn'.session.isSet store' (sessionVarKey n) <;> rfl

end Stages

/-! ## The forward stage -/

theorem guardEvents_forwardStage (env : FilterContext Fn V) (filters : List ForwardFilter)
    (requestPath : List Bytes) (store : SessionStore V) (conn : Connection) :
    guardEvents (forwardStage env filters requestPath store conn).events = [] := by
  unfold forwardStage
  repeat' split
  all_goals rfl

/-- The forward stage stops no request without having sent a file. -/
theorem sentFile_of_forwardStage_true {env : FilterContext Fn V} {filters : List ForwardFilter}
    {requestPath : List Bytes} {store : SessionStore V} {conn : Connection}
    (h : (forwardStage env filters requestPath store conn).result = .ok true) :
    ∃ flt path,
      .sentFile flt path ∈ (forwardStage env filters requestPath store conn).events := by
  unfold forwardStage at h ⊢
  split at h
  · cases h
  · cases h
  · split at h
    · cases h
    · split at h
      all_goals exact ⟨_, _, List.mem_singleton_self _⟩

/-- A run that goes on to the forward filters does not stop before them. -/
theorem not_stops_forwardStage (env : FilterContext Fn V) (filters : List ForwardFilter)
    (requestPath : List Bytes) (store : SessionStore V) (conn : Connection)
    (events : List (FilterEvent Fn)) :
    ¬ Stops { forwardStage env filters requestPath store conn with
      events := events ++ (forwardStage env filters requestPath store conn).events } := by
  intro h
  obtain ⟨flt, path, hsent⟩ := sentFile_of_forwardStage_true h.1
  exact h.2 flt path (List.mem_append_right events hsent)

/-! ## The same elements -/

theorem TreatedAlike.of_not_stops {request' : Request} {after after' : Filtered Fn V}
    (hguards : guardEvents after'.events = guardEvents after.events) (h : ¬ Stops after)
    (h' : ¬ Stops after') : TreatedAlike request' after after' :=
  ⟨hguards, iff_of_false h' h, fun hstops => absurd hstops h⟩

/-- An answer that only keeps another request is treated alike. -/
theorem TreatedAlike.of_withRequest {request' : Request} {after after' : Filtered Fn V}
    (h : after' = { after with connection := after.connection.withRequest request' }) :
    TreatedAlike request' after after' := by
  subst h
  exact ⟨rfl, Iff.rfl, fun _ => rfl⟩

/-- Requests with the same elements are treated alike by every list of filters. -/
theorem treatedAlike_of_elements {conn : Connection} {request' : Request}
    (hclient : SameClient conn.request request')
    (hpath : request'.getRequestPath = conn.request.getRequestPath) (env : FilterContext Fn V)
    (filters : AccessFilterList Fn) (store : SessionStore V) :
    TreatedAlike request' (applyFilters env filters store conn)
      (applyFilters env filters store (conn.withRequest request')) := by
  have hrequest : (conn.withRequest request').request.getRequestPath =
      conn.request.getRequestPath := hpath
  unfold applyFilters
  split
  · exact .of_withRequest rfl
  · simp only [hrequest]
    cases findApplicable BlockFilter.toAccessFilter conn.request.getRequestPath 0
        filters.blockFilters with
    | error e => exact .of_withRequest rfl
    | ok block =>
      cases block with
      | some found => exact .of_withRequest rfl
      | none =>
        dsimp only
        cases findApplicable AuthFilter.toAccessFilter conn.request.getRequestPath 0
            filters.authFilters with
        | error e => exact .of_withRequest rfl
        | ok auth =>
          cases auth with
          | none =>
            apply TreatedAlike.of_not_stops
            · rw [guardEvents_forwardStage, guardEvents_forwardStage]
            · exact not_stops_forwardStage env _ _ _ _ []
            · exact not_stops_forwardStage env _ _ _ _ []
          | some found =>
            obtain ⟨n, flt⟩ := found
            dsimp only
            rw [authStage_withRequest hclient]
            generalize authStage env n flt store conn = authenticated
            obtain ⟨store', conn', events, result⟩ := authenticated
            cases result with
            | error e => exact .of_withRequest rfl
            | ok passed =>
              cases passed with
              | false => exact .of_withRequest rfl
              | true =>
                apply TreatedAlike.of_not_stops
                · simp only [guardEvents, List.filter_append]
                  exact congrArg _ ((guardEvents_forwardStage ..).trans
                    (guardEvents_forwardStage ..).symm)
                · exact not_stops_forwardStage env _ _ _ _ events
                · exact not_stops_forwardStage env _ _ _ _ events

/-! ## Filters by path -/

section Cover

variable {Flt : Type} {toAccessFilter : Flt → AccessFilter} {filters : List Flt}
  {requestPath : List Bytes}

/-- A filter by path answers for every request path. -/
theorem PathOnly.applies {flt : AccessFilter} (h : PathOnly flt) (requestPath : List Bytes) :
    ∃ b, flt.applies requestPath = some b ∧ (b = true ↔
      flt.pathFilter = [] ∨ ∃ path ∈ flt.pathFilter, path <+: requestPath) := by
  rw [← AccessFilter.pathMatches_iff, AccessFilter.applies, AccessFilter.isMatch, h.invert,
    h.invertPathFilter, if_pos h.extensionFilter, AccessFilter.regexMatches, h.regexFilter]
  by_cases hnone : flt.pathFilter = []
  · rw [if_neg (fun hfails => hfails.1 hnone)]
    exact ⟨true, rfl, iff_of_true rfl (.inl hnone)⟩
  · rw [or_iff_right hnone]
    cases hmatches : flt.pathMatches requestPath with
    | false =>
      rw [if_pos ⟨hnone, rfl⟩]
      exact ⟨false, rfl, Iff.rfl⟩
    | true =>
      rw [if_neg (fun hfails => Bool.false_ne_true hfails.2.symm)]
      exact ⟨true, rfl, Iff.rfl⟩

/-- The loop over filters by path finds one that applies exactly where one covers the path. -/
theorem findApplicable_pathOnly (requestPath : List Bytes)
    (h : ∀ flt ∈ filters, PathOnly (toAccessFilter flt)) (k : Nat) :
    (¬ Covered toAccessFilter filters requestPath ∧
      findApplicable toAccessFilter requestPath k filters = .ok none) ∨
    Covered toAccessFilter filters requestPath ∧ ∃ n flt, filters[n]? = some flt ∧
      (toAccessFilter flt).applies requestPath = some true ∧
      findApplicable toAccessFilter requestPath k filters = .ok (some (k + n, flt)) := by
  induction filters generalizing k with
  | nil => exact .inl ⟨fun ⟨flt, hflt, _⟩ => absurd hflt List.not_mem_nil, rfl⟩
  | cons f rest ih =>
    rw [List.forall_mem_cons] at h
    obtain ⟨b, happlies, hcovers⟩ := h.1.applies requestPath
    rw [findApplicable, happlies]
    cases b with
    | true =>
      refine .inr ⟨⟨f, List.mem_cons_self, hcovers.mp rfl⟩, 0, f, rfl, happlies, rfl⟩
    | false =>
      have hskip : Covered toAccessFilter (f :: rest) requestPath ↔
          Covered toAccessFilter rest requestPath := by
        refine (List.exists_mem_cons_iff ..).trans (or_iff_right fun hcover => ?_)
        exact Bool.false_ne_true (hcovers.mpr hcover)
      rw [hskip]
      refine (ih h.2 (k + 1)).imp_right ?_
      rintro ⟨hcovered, n, flt, hget, hflt, hfind⟩
      exact ⟨hcovered, n + 1, flt, hget, hflt, by rw [hfind, Nat.add_assoc, Nat.add_comm 1]⟩

end Cover

/-! ## What a run shows of its guards -/

section Guards

variable {env : FilterContext Fn V} {n : Nat} {flt : AuthFilter Fn} {store : SessionStore V}
  {conn : Connection}

/-- The authentication stage for a filter tells of nothing else. -/
theorem event_of_authStage {e : FilterEvent Fn} (h : e ∈ (authStage env n flt store conn).events) :
    e = .passedBySession n flt ∨ ∃ authFunction username password accepted,
      e = .asked n flt authFunction username password accepted := by
  have hauth : ∀ (store : SessionStore V) (conn : Connection),
      e ∈ (authenticate env n flt store conn).events →
        ∃ authFunction username password accepted,
          e = .asked n flt authFunction username password accepted := by
    intro store conn he
    unfold authenticate at he
    cases hcheck : checkCredentials env.invoke flt conn.request with
    | missing | failed _ | unusable => simp only [hcheck, List.not_mem_nil] at he
    | answered f username password accepted =>
      have hmem : e ∈ [.asked n flt f username password accepted] := by
        simp only [hcheck] at he
        repeat' split at he
        all_goals exact he
      exact ⟨f, username, password, accepted, List.mem_singleton.mp hmem⟩
  unfold authStage at h
  split at h
  · split at h
    · cases h
    · split at h
      · exact .inl (List.mem_singleton.mp h)
      · exact .inr (hauth _ _ h)
  · exact .inr (hauth _ _ h)

/-- A request that the authentication stage lets through has passed its filter. -/
theorem admits_of_authStage (h : (authStage env n flt store conn).result = .ok true) :
    Admits n flt (authStage env n flt store conn).events := by
  have hauth : ∀ (store : SessionStore V) (conn : Connection),
      (authenticate env n flt store conn).result = .ok true →
        Admits n flt (authenticate env n flt store conn).events := by
    intro store conn hresult
    unfold authenticate at hresult ⊢
    cases hcheck : checkCredentials env.invoke flt conn.request with
    | missing | failed _ | unusable =>
      simp only [hcheck, Except.ok.injEq, Bool.false_eq_true, reduceCtorEq] at hresult
    | answered f username password accepted =>
      have haccepted : accepted = true := by
        rw [hcheck] at hresult
        cases accepted with
        | true => rfl
        | false => cases hresult
      subst haccepted
      have hmem : .asked n flt f username password true ∈
          [FilterEvent.asked n flt f username password true] := List.mem_singleton_self _
      refine .inr ⟨f, username, password, ?_⟩
      simp only [Bool.not_true, Bool.false_eq_true, if_false]
      repeat' split
      all_goals exact hmem
  unfold authStage at h ⊢
  split at h
  · next huse =>
    rw [if_pos huse]
    split at h
    · cases h
    · split at h
      · next hset =>
        rw [if_pos hset]
        exact .inl (List.mem_singleton_self _)
      · next hset =>
        rw [if_neg hset]
        exact hauth _ _ h
  · next huse =>
    rw [if_neg huse]
    exact hauth _ _ h

theorem not_blocked_of_forwardStage {filters : List ForwardFilter} {requestPath : List Bytes}
    (block : BlockFilter) :
    .blocked block ∉ (forwardStage env filters requestPath store conn).events := by
  intro h
  have hguard : .blocked block ∈
      guardEvents (forwardStage env filters requestPath store conn).events :=
    List.mem_filter.mpr ⟨h, rfl⟩
  rw [guardEvents_forwardStage] at hguard
  cases hguard

end Guards

section Runs

variable {env : FilterContext Fn V} {filters : AccessFilterList Fn} {store : SessionStore V}
  {conn : Connection}

/-- A run in which an authentication filter decides demands authentication. -/
theorem demands_of_found (henabled : filters.filtersEnabled = true)
    (hblock : findApplicable BlockFilter.toAccessFilter conn.request.getRequestPath 0
      filters.blockFilters = .ok none) {n : Nat} {flt : AuthFilter Fn}
    (hget : filters.authFilters[n]? = some flt)
    (happlies : flt.toAccessFilter.applies conn.request.getRequestPath = some true)
    (hauth : findApplicable AuthFilter.toAccessFilter conn.request.getRequestPath 0
      filters.authFilters = .ok (some (n, flt))) :
    Demands filters conn (applyFilters env filters store conn) n flt := by
  have hnotBlocked : ∀ block, .blocked block ∉ (authStage env n flt store conn).events := by
    intro block hmem
    rcases event_of_authStage hmem with heq | ⟨_, _, _, _, heq⟩ <;> cases heq
  cases hresult : (authStage env n flt store conn).result with
  | error e =>
    have hstage := applyFilters_of_failed henabled hblock hauth
      (show authStage env n flt store conn = ⟨_, _, _, .error e⟩ by rw [← hresult])
    rw [hstage]
    exact ⟨hget, happlies, hnotBlocked, fun g path hsent =>
      absurd hsent not_sentFile_of_authStage, nofun⟩
  | ok passed =>
    cases passed with
    | false =>
      have hstage := applyFilters_of_refused henabled hblock hauth
        (show authStage env n flt store conn = ⟨_, _, _, .ok false⟩ by rw [← hresult])
      rw [hstage]
      exact ⟨hget, happlies, hnotBlocked, fun g path hsent =>
        absurd hsent not_sentFile_of_authStage, nofun⟩
    | true =>
      have hstage := applyFilters_of_admitted henabled hblock hauth
        (show authStage env n flt store conn = ⟨_, _, _, .ok true⟩ by rw [← hresult])
      have hadmits : Admits n flt (applyFilters env filters store conn).events := by
        rw [hstage]
        refine (admits_of_authStage hresult).imp ?_ ?_
        · exact List.mem_append_left _
        · rintro ⟨f, username, password, hmem⟩
          exact ⟨f, username, password, List.mem_append_left _ hmem⟩
      refine ⟨hget, happlies, ?_, fun _ _ _ => hadmits, fun _ => hadmits⟩
      intro block hmem
      rw [hstage] at hmem
      rcases List.mem_append.mp hmem with hmem | hmem
      · exact hnotBlocked block hmem
      · exact not_blocked_of_forwardStage block hmem

/-- What a list of filters by path makes of a request. -/
inductive Guarded (filters : AccessFilterList Fn) (conn : Connection) (after : Filtered Fn V) :
    Prop
  | disabled (henabled : filters.filtersEnabled = false) (hevents : after.events = [])
      (hresult : after.result = .ok false)
  | blocked (henabled : filters.filtersEnabled = true)
      (hcover : Covered BlockFilter.toAccessFilter filters.blockFilters
        conn.request.getRequestPath) (h : Blocks filters conn after)
  | demanded (henabled : filters.filtersEnabled = true)
      (hblock : ¬ Covered BlockFilter.toAccessFilter filters.blockFilters
        conn.request.getRequestPath)
      (hcover : Covered AuthFilter.toAccessFilter filters.authFilters conn.request.getRequestPath)
      {n : Nat} {flt : AuthFilter Fn} (h : Demands filters conn after n flt)
  | free (henabled : filters.filtersEnabled = true)
      (hblock : ¬ Covered BlockFilter.toAccessFilter filters.blockFilters
        conn.request.getRequestPath)
      (hcover : ¬ Covered AuthFilter.toAccessFilter filters.authFilters
        conn.request.getRequestPath) (hevents : ∀ block, .blocked block ∉ after.events)

theorem guarded_applyFilters (h : PathConditions filters) :
    Guarded filters conn (applyFilters env filters store conn) := by
  cases henabled : filters.filtersEnabled with
  | false =>
    have hrun : applyFilters env filters store conn = ⟨store, conn, [], .ok false⟩ := by
      rw [applyFilters, henabled]
      rfl
    exact .disabled henabled (by rw [hrun]) (by rw [hrun])
  | true =>
    rcases findApplicable_pathOnly conn.request.getRequestPath h.1 0 with
      ⟨hcover, hblock⟩ | ⟨hcover, n, block, hget, -, hblock⟩
    · rcases findApplicable_pathOnly conn.request.getRequestPath h.2 0 with
        ⟨hcover', hauth⟩ | ⟨hcover', n, flt, hget, happlies, hauth⟩
      · refine .free henabled hcover hcover' fun block hmem => ?_
        simp only [applyFilters, henabled, hblock, hauth, Bool.not_true, Bool.false_eq_true,
          if_false] at hmem
        exact not_blocked_of_forwardStage block hmem
      · rw [Nat.zero_add] at hauth
        exact .demanded henabled hcover hcover'
          (demands_of_found henabled hblock hget happlies hauth)
    · refine .blocked henabled hcover ⟨block, List.mem_of_getElem? hget, ?_⟩
      simp only [applyFilters, henabled, hblock, Bool.not_true, Bool.false_eq_true, if_false]
      exact ⟨trivial, trivial, answers_errorResponse ..⟩

/-- A request is blocked exactly where a block filter covers it. -/
theorem blocks_iff (h : PathConditions filters) :
    Blocks filters conn (applyFilters env filters store conn) ↔
      filters.filtersEnabled = true ∧
        Covered BlockFilter.toAccessFilter filters.blockFilters conn.request.getRequestPath := by
  have hguarded : Guarded filters conn (applyFilters env filters store conn) :=
    guarded_applyFilters h
  constructor
  · rintro ⟨block, -, hresult, hevents, -⟩
    have hmem : .blocked block ∈ (applyFilters env filters store conn).events := by
      rw [hevents]
      exact List.mem_singleton_self _
    cases hguarded with
    | disabled _ _ hleaves => rw [hleaves] at hresult; cases hresult
    | blocked henabled hcover _ => exact ⟨henabled, hcover⟩
    | demanded _ _ _ hdemands => exact absurd hmem (hdemands.notBlocked block)
    | free _ _ _ hnone => exact absurd hmem (hnone block)
  · rintro ⟨henabled, hcover⟩
    cases hguarded with
    | disabled hdisabled _ _ => rw [henabled] at hdisabled; cases hdisabled
    | blocked _ _ hblocks => exact hblocks
    | demanded _ hblock _ _ => exact absurd hcover hblock
    | free _ hblock _ _ => exact absurd hcover hblock

/-- Authentication is demanded exactly where no block filter but an authentication filter covers
the request. -/
theorem demands_iff (h : PathConditions filters) :
    (∃ n flt, Demands filters conn (applyFilters env filters store conn) n flt) ↔
      filters.filtersEnabled = true ∧
        ¬ Covered BlockFilter.toAccessFilter filters.blockFilters conn.request.getRequestPath ∧
        Covered AuthFilter.toAccessFilter filters.authFilters conn.request.getRequestPath := by
  have hguarded : Guarded filters conn (applyFilters env filters store conn) :=
    guarded_applyFilters h
  constructor
  · rintro ⟨n, flt, hdemands⟩
    have hmem := List.mem_of_getElem? hdemands.get
    cases hguarded with
    | disabled _ hevents hresult =>
      rcases hdemands.leaves hresult with hpassed | ⟨_, _, _, hasked⟩
      · rw [hevents] at hpassed
        cases hpassed
      · rw [hevents] at hasked
        cases hasked
    | blocked _ _ hblocks =>
      obtain ⟨block, -, -, hevents, -⟩ := hblocks
      refine absurd ?_ (hdemands.notBlocked block)
      rw [hevents]
      exact List.mem_singleton_self _
    | demanded henabled hblock hcover _ => exact ⟨henabled, hblock, hcover⟩
    | free henabled hblock hnone _ =>
      obtain ⟨b, happlies, hcovers⟩ := (h.2 flt hmem).applies conn.request.getRequestPath
      rw [hdemands.applies] at happlies
      exact absurd ⟨flt, hmem, hcovers.mp (Option.some.inj happlies).symm⟩ hnone
  · rintro ⟨henabled, hblock, hcover⟩
    cases hguarded with
    | disabled hdisabled _ _ => rw [henabled] at hdisabled; cases hdisabled
    | blocked _ hblocked _ => exact absurd hblocked hblock
    | demanded _ _ _ hdemands => exact ⟨_, _, hdemands⟩
    | free _ _ hnone _ => exact absurd hcover hnone

end Runs

/-- **A list of filters by path is not bypassed by a respelling** exactly when it is disabled, or
its block filters, and where none of them does its authentication filters, cover both spellings
or neither. Spellings of one file without elements `.` and `..` are covered alike, and one client
is answered alike for them. -/
theorem notBypassed_iff (env : FilterContext Fn V) (filters : AccessFilterList Fn)
    (store : SessionStore V) (conn conn' : Connection) (h : PathConditions filters) :
    (NotBypassed env filters store conn conn' ↔
      (filters.filtersEnabled = true →
        SameCover filters conn.request.getRequestPath conn'.request.getRequestPath)) ∧
    ∀ flt ∈ filters.forwardFilters, flt.basePathExtension = .byPath →
      SameFile flt conn.request conn'.request → Plain conn.request → Plain conn'.request →
        NotBypassed env filters store conn conn' ∧
          ∀ request', conn' = conn.withRequest request' → SameClient conn.request request' →
            TreatedAlike request' (applyFilters env filters store conn)
              (applyFilters env filters store conn') := by
  have hiff : NotBypassed env filters store conn conn' ↔
      (filters.filtersEnabled = true →
        SameCover filters conn.request.getRequestPath conn'.request.getRequestPath) := by
    have hsplit : NotBypassed env filters store conn conn' ↔ _ ∧ _ :=
      ⟨fun h => ⟨h.blocks, h.demands⟩, fun h => ⟨h.1, h.2⟩⟩
    rw [hsplit, blocks_iff h, blocks_iff h, demands_iff h, demands_iff h, SameCover,
      and_congr_right_iff, and_congr_right_iff, ← forall_and]
    refine forall_congr' fun _ => and_congr_right fun hblock => ?_
    rw [← hblock, and_congr_right_iff]
  refine ⟨hiff, ?_⟩
  intro flt _ hbyPath hsame hplain hplain'
  have hpath := elements_of_sameFile hbyPath hsame hplain hplain'
  refine ⟨hiff.mpr fun _ => ?_, ?_⟩
  · rw [hpath]
    exact ⟨Iff.rfl, fun _ => Iff.rfl⟩
  · rintro request' rfl hclient
    exact treatedAlike_of_elements hclient hpath env filters store

/-! ## A secret file under another name -/

/-- `/secret` is blocked, and the media filter serves everything else. -/
def secretFilters : AccessFilterList Unit :=
  { filtersEnabled := true
    blockFilters := [{ pathFilter := [[bytes "secret"]] }]
    forwardFilters := [mediaFilter] }

theorem pathConditions_secretFilters : PathConditions secretFilters := by
  constructor
  · intro block hblock
    cases List.mem_singleton.mp hblock
    exact ⟨rfl, rfl, rfl, rfl⟩
  · intro auth hauth
    exact absurd hauth List.not_mem_nil

/-- The secret key is blocked under its name and under another one that the filter covers. -/
theorem notBypassed_secret :
    NotBypassed emptyContext secretFilters .empty (requestOf (bytes "/secret/key"))
      (requestOf (bytes "/secret/./key")) := by
  refine (notBypassed_iff emptyContext secretFilters .empty _ _
    pathConditions_secretFilters).1.mpr fun _ => ?_
  have hcovers : ∀ requestPath : List Bytes, [bytes "secret"] <+: requestPath →
      Covered BlockFilter.toAccessFilter secretFilters.blockFilters requestPath :=
    fun _ hprefixed =>
      ⟨_, List.mem_singleton_self _, .inr ⟨_, List.mem_singleton_self _, hprefixed⟩⟩
  have hkey := hcovers (requestOf (bytes "/secret/key")).request.getRequestPath (by decide)
  have hdotted := hcovers (requestOf (bytes "/secret/./key")).request.getRequestPath (by decide)
  exact ⟨iff_of_true hkey hdotted, fun hnone => absurd hkey hnone⟩

/-- The filter that blocks `/secret/key` does not block `/public/../secret/key`, which the forward
filter reads from the same file. -/
theorem bypassed_secret :
    ¬ ∀ (filters : AccessFilterList Unit) (flt : ForwardFilter) (conn : Connection)
      (request' : Request), PathConditions filters → flt ∈ filters.forwardFilters →
        flt.basePathExtension = .byPath → SameClient conn.request request' →
        SameFile flt conn.request request' →
        NotBypassed emptyContext filters .empty conn (conn.withRequest request') := by
  intro hall
  have hguards := hall secretFilters mediaFilter (requestOf (bytes "/secret/key"))
    (requestOf (bytes "/public/../secret/key")).request pathConditions_secretFilters
    (List.mem_singleton_self _) rfl ⟨rfl, by decide, by decide⟩ (by decide)
  obtain ⟨block, -, -, hevents, -⟩ := hguards.blocks.mp
    ⟨_, List.mem_singleton_self _, rfl, rfl, answers_errorResponse ..⟩
  have hlength : (guardEvents [(.blocked block : FilterEvent Unit)]).length = 1 := rfl
  rw [← hevents] at hlength
  revert hlength
  decide

end Nawa.Connection
