import Nawa.Laws.Connection.PathAccess
import Nawa.Laws.Util.Utils

/-!
# Basic authentication

What an authentication filter without sessions makes of the authorization header. The header is
split at blanks and the decoded credentials at colons, and empty pieces are dropped at both; a
header is taken for Basic if it has two tokens *or* its first is `Basic`. A request that is
admitted goes on to the forward filters, where a directory and an empty path can still end the
call (`forwardStage_returns_iff`). `acceptsBasic_iff` says for which requests this comes to what
it should.
-/

namespace Nawa.Connection

open Lib.Search

variable {Fn V : Type}

/-! ## Headers -/

/-- The blank-separated tokens of an authorization header. -/
def tokens (authorization : Bytes) : List Bytes := utils.splitString authorization ' '.toUInt8 true

/-- The pieces between the colons of the encoded text. -/
def pieces (encoded : Bytes) : List Bytes :=
  utils.splitString (encoding.base64Decode encoded) ':'.toUInt8 true

/-- A header of the Basic scheme, with the texts before and behind the first colon. -/
def Credentials (authorization username password : Bytes) : Prop :=
  ∃ encoded, tokens authorization = [bytes "Basic", encoded] ∧
    encoding.base64Decode encoded = username ++ ':'.toUInt8 :: password ∧
    ':'.toUInt8 ∉ username

/-- The headers that are read as they should be. -/
structure Readable (accepts : Bytes → Bytes → Bool) (authorization : Bytes) : Prop where
  tokens : tokens authorization ≠ [] ∧ tokens authorization ≠ [bytes "Basic"]
  /-- Two pieces are taken for the credentials. -/
  pair : ∀ scheme encoded rest, Connection.tokens authorization = scheme :: encoded :: rest →
    (rest = [] ∨ scheme = bytes "Basic") → ∀ username password,
      pieces encoded = [username, password] →
        rest = [] ∧ scheme = bytes "Basic" ∧
          encoding.base64Decode encoded = username ++ ':'.toUInt8 :: password
  /-- Any other number of pieces is taken for no credentials. -/
  other : ∀ encoded, Connection.tokens authorization = [bytes "Basic", encoded] →
    (pieces encoded).length ≠ 2 → ∀ username password,
      Credentials authorization username password → accepts username password = false

theorem Credentials.unique {authorization username password username' password' : Bytes}
    (h : Credentials authorization username password)
    (h' : Credentials authorization username' password') :
    username = username' ∧ password = password' := by
  obtain ⟨encoded, htokens, hdecode, hcolon⟩ := h
  obtain ⟨encoded', htokens', hdecode', hcolon'⟩ := h'
  obtain rfl : encoded = encoded' := by
    rw [htokens] at htokens'
    cases htokens'
    rfl
  have hsame := hdecode.symm.trans hdecode'
  have hlength : username.length = username'.length := by
    have hfind := congrArg (findElem ':'.toUInt8) hsame
    rw [findElem_append_sep hcolon, findElem_append_sep hcolon'] at hfind
    exact Option.some.inj hfind
  obtain ⟨husername, hpassword⟩ := List.append_inj hsame hlength
  exact ⟨husername, (List.cons.inj hpassword).2⟩

theorem credentials_iff {authorization scheme encoded username password : Bytes}
    {rest : List Bytes} (htokens : tokens authorization = scheme :: encoded :: rest)
    (hcolon : ':'.toUInt8 ∉ username) :
    Credentials authorization username password ↔
      rest = [] ∧ scheme = bytes "Basic" ∧
        encoding.base64Decode encoded = username ++ ':'.toUInt8 :: password := by
  constructor
  · rintro ⟨encoded', htokens', hdecode, -⟩
    rw [htokens] at htokens'
    cases htokens'
    exact ⟨rfl, rfl, hdecode⟩
  · rintro ⟨rfl, rfl, hdecode⟩
    exact ⟨encoded, htokens, hdecode, hcolon⟩

/-! ## What is read -/

theorem parseCredentials_error_iff {authorization : Bytes} :
    (∃ e, parseCredentials authorization = .error e) ↔
      tokens authorization = [] ∨ tokens authorization = [bytes "Basic"] := by
  unfold parseCredentials tokens
  generalize utils.splitString authorization ' '.toUInt8 true = tokens
  rcases tokens with _ | ⟨scheme, _ | ⟨encoded, _ | ⟨more, rest⟩⟩⟩
  · exact iff_of_true ⟨_, rfl⟩ (.inl rfl)
  · dsimp only
    by_cases hscheme : scheme = bytes "Basic"
    · rw [if_pos hscheme, hscheme]
      exact iff_of_true ⟨_, rfl⟩ (.inr rfl)
    · rw [if_neg hscheme]
      simp only [reduceCtorEq, exists_false, List.cons.injEq, hscheme, false_and, or_self]
  · simp only [reduceCtorEq, exists_false, List.cons.injEq, and_false, or_self]
  · dsimp only
    by_cases hscheme : scheme = bytes "Basic"
    · rw [if_pos hscheme]
      simp only [reduceCtorEq, exists_false, List.cons.injEq, and_false, or_self]
    · rw [if_neg hscheme]
      simp only [reduceCtorEq, exists_false, List.cons.injEq, and_false, or_self]

/-- Where the pieces are looked at, two of them are the credentials. -/
theorem parseCredentials_pieces_iff {authorization scheme encoded username password : Bytes}
    {rest : List Bytes} (htokens : tokens authorization = scheme :: encoded :: rest)
    (hform : rest = [] ∨ scheme = bytes "Basic") :
    parseCredentials authorization = .ok (some (username, password)) ↔
      pieces encoded = [username, password] := by
  unfold tokens at htokens
  unfold parseCredentials pieces
  rw [htokens]
  have hscheme := hform.resolve_left
  rcases rest with _ | ⟨more, rest⟩ <;> dsimp only <;>
  rcases utils.splitString (encoding.base64Decode encoded) ':'.toUInt8 true with
    _ | ⟨u, _ | ⟨p, _ | ⟨q, l⟩⟩⟩ <;>
  simp [hscheme]

/-- With too few tokens, or with more than two of another scheme, there are no credentials. -/
theorem exists_pieces_of_parseCredentials {authorization : Bytes} {c : Bytes × Bytes}
    (h : parseCredentials authorization = .ok (some c)) :
    ∃ scheme encoded rest, tokens authorization = scheme :: encoded :: rest ∧
      (rest = [] ∨ scheme = bytes "Basic") := by
  unfold tokens
  unfold parseCredentials at h
  dsimp only at h
  split at h
  · cases h
  · split at h <;> cases h
  · next scheme encoded htokens => exact ⟨scheme, encoded, [], htokens, .inl rfl⟩
  · next scheme encoded rest _ htokens =>
    split at h
    · next hscheme => exact ⟨scheme, encoded, rest, htokens, .inr hscheme⟩
    · cases h

theorem parseCredentials_some_iff {authorization username password : Bytes} :
    parseCredentials authorization = .ok (some (username, password)) ↔
      ∃ scheme encoded rest, tokens authorization = scheme :: encoded :: rest ∧
        (rest = [] ∨ scheme = bytes "Basic") ∧ pieces encoded = [username, password] := by
  constructor
  · intro h
    obtain ⟨scheme, encoded, rest, htokens, hform⟩ := exists_pieces_of_parseCredentials h
    exact ⟨scheme, encoded, rest, htokens, hform,
      (parseCredentials_pieces_iff htokens hform).mp h⟩
  · rintro ⟨scheme, encoded, rest, htokens, hform, hpieces⟩
    exact (parseCredentials_pieces_iff htokens hform).mpr hpieces

/-- A reading that is the credentials wherever there is one, and is not refused where there are
some. -/
structure ReadsAs (accepts : Bytes → Bytes → Bool) (authorization : Bytes) : Prop where
  returns : ∀ e, parseCredentials authorization ≠ .error e
  passes : (∃ username password,
      parseCredentials authorization = .ok (some (username, password)) ∧
        accepts username password = true) ↔
    ∃ username password, Credentials authorization username password ∧
      accepts username password = true
  asked : ∀ username password,
    parseCredentials authorization = .ok (some (username, password)) →
      Credentials authorization username password

theorem readsAs_iff {accepts : Bytes → Bytes → Bool} {authorization : Bytes} :
    ReadsAs accepts authorization ↔ Readable accepts authorization := by
  constructor
  · intro h
    refine ⟨?_, ?_, ?_⟩
    · rw [← not_or, ← parseCredentials_error_iff]
      rintro ⟨e, he⟩
      exact h.returns e he
    · intro scheme encoded rest htokens hform username password hpieces
      have hcolon := (utils.mem_splitString (hpieces ▸ List.mem_cons_self)).2
      refine (credentials_iff htokens hcolon).mp (h.asked username password ?_)
      exact parseCredentials_some_iff.mpr ⟨scheme, encoded, rest, htokens, hform, hpieces⟩
    · intro encoded htokens hpieces username password hcredentials
      rw [← Bool.not_eq_true]
      intro haccepts
      obtain ⟨username', password', hparse, -⟩ := h.passes.mpr ⟨_, _, hcredentials, haccepts⟩
      obtain ⟨scheme, encoded', rest, htokens', -, hpieces'⟩ := parseCredentials_some_iff.mp hparse
      rw [htokens] at htokens'
      cases htokens'
      exact hpieces (congrArg List.length hpieces')
  · intro h
    have hasked : ∀ username password,
        parseCredentials authorization = .ok (some (username, password)) →
          Credentials authorization username password := by
      intro username password hparse
      obtain ⟨scheme, encoded, rest, htokens, hform, hpieces⟩ :=
        parseCredentials_some_iff.mp hparse
      have hcolon := (utils.mem_splitString (hpieces ▸ List.mem_cons_self)).2
      exact (credentials_iff htokens hcolon).mpr
        (h.pair scheme encoded rest htokens hform username password hpieces)
    refine ⟨?_, ⟨?_, ?_⟩, hasked⟩
    · intro e he
      exact not_or.mpr h.tokens (parseCredentials_error_iff.mp ⟨e, he⟩)
    · rintro ⟨username, password, hparse, haccepts⟩
      exact ⟨username, password, hasked _ _ hparse, haccepts⟩
    · rintro ⟨username, password, hcredentials, haccepts⟩
      refine ⟨username, password, ?_, haccepts⟩
      have ⟨encoded, htokens, _⟩ := hcredentials
      -- the filter is asked for the very credentials, or not at all
      by_cases hpieces : (pieces encoded).length = 2
      · obtain ⟨username', password', hpair⟩ := List.length_eq_two.mp hpieces
        have hparse := parseCredentials_some_iff.mpr
          ⟨bytes "Basic", encoded, [], htokens, .inl rfl, hpair⟩
        obtain ⟨rfl, rfl⟩ := hcredentials.unique (hasked _ _ hparse)
        exact hparse
      · have hrefused := h.other encoded htokens hpieces username password hcredentials
        rw [haccepts] at hrefused
        cases hrefused

/-! ## The stages of the filters -/

/-- The forward filters answer a request: on an empty path none of them asks for the last element,
and what the first that applies opens fits into a string, unless the client has it already. -/
structure ForwardAnswers (files : FileSystem) (filters : List ForwardFilter) (request : Request) :
    Prop where
  spares : request.getRequestPath = [] → SparesForward filters
  opens : ∀ n flt path file,
    FirstApplicable ForwardFilter.toAccessFilter request.getRequestPath filters n flt →
    forwardPath flt request.getRequestPath = some path → files path = some file →
      maxSize < file.size + 1 → NotModified true request file

section Forward

variable {env : FilterContext Fn V} {filters : List ForwardFilter} {store : SessionStore V}
  {conn : Connection}

/-- The loop over the forward filters answers. -/
theorem ForwardAnswers.finds (h : ForwardAnswers env.files filters conn.request) :
    ∃ found, findApplicable ForwardFilter.toAccessFilter conn.request.getRequestPath 0 filters =
      .ok found := by
  by_cases hpath : conn.request.getRequestPath = []
  · rw [hpath]
    exact findApplicable_empty_iff.mpr (h.spares hpath).reached
  · exact findApplicable_returns ForwardFilter.toAccessFilter 0 filters hpath

/-- A filter by file name that applies has a file name to go by. -/
theorem ForwardAnswers.path (h : ForwardAnswers env.files filters conn.request) {n : Nat}
    {flt : ForwardFilter}
    (hfirst : FirstApplicable ForwardFilter.toAccessFilter conn.request.getRequestPath filters n
      flt) : ∃ path, forwardPath flt conn.request.getRequestPath = some path := by
  rw [forwardPath]
  cases hextension : flt.basePathExtension with
  | byPath => exact ⟨_, rfl⟩
  | byFilename =>
    cases hlast : conn.request.getRequestPath.getLast? with
    | some filename => exact ⟨_, rfl⟩
    | none =>
      have hpath := List.getLast?_eq_none_iff.mp hlast
      rw [hpath] at hfirst
      have hsends := (h.spares hpath).sends n flt hfirst
      rw [hextension] at hsends
      cases hsends

theorem forwardStage_returns_iff :
    (∃ filtered, (forwardStage env filters conn.request.getRequestPath store conn).result =
      .ok filtered) ↔ ForwardAnswers env.files filters conn.request := by
  constructor
  · rintro ⟨filtered, hresult⟩
    have hdefined : ∀ e,
        (forwardStage env filters conn.request.getRequestPath store conn).result ≠ .error e := by
      intro e he
      rw [hresult] at he
      cases he
    refine ⟨?_, ?_⟩
    · intro hpath
      have hrange := forwardAccesses_of_defined (hdefined .undefined)
      rw [hpath] at hrange
      exact forwardAccesses_empty_iff.mp hrange
    · intro n flt path file hfirst hforward hfile hlong
      by_contra hmodified
      cases hfind : findApplicable ForwardFilter.toAccessFilter conn.request.getRequestPath 0
          filters with
      | error e => exact hdefined e (by rw [forwardStage, hfind])
      | ok found =>
        cases found with
        | none => exact not_noneApplicable hfirst (none_of_findApplicable hfind)
        | some found =>
          obtain ⟨m, g⟩ := found
          obtain ⟨rfl, rfl⟩ := hfirst.unique (first_of_findApplicable hfind)
          exact hdefined _ (forwardStage_tooLong hfind hforward hfile hmodified hlong)
  · intro h
    obtain ⟨found, hfind⟩ := h.finds
    cases found with
    | none => exact ⟨false, by rw [forwardStage, hfind]⟩
    | some found =>
      obtain ⟨n, flt⟩ := found
      have hfirst := first_of_findApplicable hfind
      obtain ⟨path, hforward⟩ := h.path hfirst
      refine ⟨true, ?_⟩
      cases hfile : env.files path with
      | none => rw [forwardStage_notFound hfind hforward hfile]
      | some file =>
        cases hsend : conn.sendFile env.files path [] false [] true with
        | ok conn' => rw [forwardStage_sent hfind hforward hsend]
        | error e =>
          obtain ⟨hmodified, hlong⟩ := tooLong_of_error hfile hsend
          exact absurd (h.opens n flt path file hfirst hforward hfile hlong) hmodified

end Forward

section Auth

variable (env : FilterContext Fn V) (n : Nat) {flt : AuthFilter Fn} (store : SessionStore V)
  {conn : Connection} {authFunction : Fn}

theorem authStage_of_missing (hsessions : flt.useSessions = false)
    (h : conn.request.envVar (bytes "authorization") = []) :
    authStage env n flt store conn =
      ⟨store, conn.requestAuthentication flt.authName, [], .ok false⟩ := by
  rw [authStage, hsessions]
  exact authenticate_unauthenticated h

theorem authStage_of_error {e : Failure} (hsessions : flt.useSessions = false)
    (hauthorization : conn.request.envVar (bytes "authorization") ≠ [])
    (h : parseCredentials (conn.request.envVar (bytes "authorization")) = .error e) :
    authStage env n flt store conn = ⟨store, conn, [], .error e⟩ := by
  rw [authStage, hsessions, authenticate, checkCredentials]
  dsimp only
  rw [if_neg hauthorization, h]
  rfl

theorem authStage_of_none (hsessions : flt.useSessions = false)
    (hauthorization : conn.request.envVar (bytes "authorization") ≠ [])
    (h : parseCredentials (conn.request.envVar (bytes "authorization")) = .ok none) :
    authStage env n flt store conn =
      ⟨store, conn.errorResponse 403 flt.response, [], .ok false⟩ := by
  rw [authStage, hsessions, authenticate, checkCredentials]
  dsimp only
  rw [if_neg hauthorization, h]
  rfl

theorem authStage_of_some {username password : Bytes} (hsessions : flt.useSessions = false)
    (hfunction : flt.authFunction = some authFunction)
    (hauthorization : conn.request.envVar (bytes "authorization") ≠ [])
    (h : parseCredentials (conn.request.envVar (bytes "authorization")) =
      .ok (some (username, password))) :
    (authStage env n flt store conn).events =
        [.asked n flt authFunction username password
          (env.invoke authFunction username password)] ∧
      (env.invoke authFunction username password = true →
        (authStage env n flt store conn).connection = conn) ∧
      (authStage env n flt store conn).result =
        .ok (env.invoke authFunction username password) := by
  have hcheck := checkCredentials_answered_iff.mpr
    ⟨hauthorization, hfunction, h, (rfl : env.invoke authFunction username password = _)⟩
  rw [authStage, hsessions, authenticate, hcheck]
  cases env.invoke authFunction username password with
  | false => exact ⟨rfl, nofun, rfl⟩
  | true =>
    dsimp only
    rw [hsessions]
    exact ⟨rfl, fun _ => rfl, rfl⟩

end Auth

section Filters

variable {env : FilterContext Fn V} {filters : AccessFilterList Fn} {store : SessionStore V}
  {conn : Connection} {n : Nat} {flt : AuthFilter Fn} {authFunction : Fn}

/-- What is asked of an authentication filter whose turn it is. -/
structure AcceptsBasic (env : FilterContext Fn V) (filters : AccessFilterList Fn)
    (store : SessionStore V) (conn : Connection) (n : Nat) (flt : AuthFilter Fn)
    (authFunction : Fn) : Prop where
  returns : ∃ filtered, (applyFilters env filters store conn).result = .ok filtered
  passes : (authStage env n flt store conn).result = .ok true ↔
    ∃ username password,
      Credentials (conn.request.envVar (bytes "authorization")) username password ∧
        env.invoke authFunction username password = true
  asked : ∀ m g f username password accepted,
    .asked m g f username password accepted ∈ (applyFilters env filters store conn).events →
      Credentials (conn.request.envVar (bytes "authorization")) username password

/-- One call of a function among events without others. -/
theorem asked_iff {more : List (FilterEvent Fn)} {username password u p : Bytes}
    {accepted : Bool} (hmore : ∀ m g f u p accepted, .asked m g f u p accepted ∉ more) :
    (∃ m g f accepted', .asked m g f u p accepted' ∈
        .asked n flt authFunction username password accepted :: more) ↔
      (username, password) = (u, p) := by
  constructor
  · rintro ⟨m, g, f, accepted', hmem⟩
    rcases List.mem_cons.mp hmem with hfirst | hmem
    · cases hfirst
      rfl
    · exact absurd hmem (hmore m g f u p accepted')
  · intro hpair
    cases hpair
    exact ⟨n, flt, authFunction, accepted, List.mem_cons_self⟩

/-- The forward filters answer, wherever the request carries credentials that are accepted. -/
def AnswersAccepted (env : FilterContext Fn V) (filters : AccessFilterList Fn)
    (authFunction : Fn) (request : Request) : Prop :=
  ∀ username password, Credentials (request.envVar (bytes "authorization")) username password →
    env.invoke authFunction username password = true →
      ForwardAnswers env.files filters.forwardFilters request

/-- A stage that asks and passes for what it has read, and that returns where the forward filters
do if it passes. -/
theorem acceptsBasic_iff_readsAs
    (hreturns : (∃ filtered, (applyFilters env filters store conn).result = .ok filtered) ↔
      ∀ username password, parseCredentials (conn.request.envVar (bytes "authorization")) =
          .ok (some (username, password)) → env.invoke authFunction username password = true →
        ForwardAnswers env.files filters.forwardFilters conn.request)
    (hread : ∀ e, parseCredentials (conn.request.envVar (bytes "authorization")) ≠ .error e)
    (hpasses : (authStage env n flt store conn).result = .ok true ↔
      ∃ username password, parseCredentials (conn.request.envVar (bytes "authorization")) =
          .ok (some (username, password)) ∧ env.invoke authFunction username password = true)
    (hasked : ∀ username password,
      (∃ m g f accepted, .asked m g f username password accepted ∈
          (applyFilters env filters store conn).events) ↔
        parseCredentials (conn.request.envVar (bytes "authorization")) =
          .ok (some (username, password))) :
    AcceptsBasic env filters store conn n flt authFunction ↔
      ReadsAs (env.invoke authFunction) (conn.request.envVar (bytes "authorization")) ∧
        AnswersAccepted env filters authFunction conn.request := by
  constructor
  · intro h
    have hreads : ReadsAs (env.invoke authFunction)
        (conn.request.envVar (bytes "authorization")) := by
      refine ⟨hread, hpasses.symm.trans h.passes, ?_⟩
      intro username password hparse
      obtain ⟨m, g, f, accepted, hmem⟩ := (hasked username password).mpr hparse
      exact h.asked m g f username password accepted hmem
    refine ⟨hreads, ?_⟩
    intro username password hcredentials haccepts
    obtain ⟨u, p, hparse, haccepts'⟩ := hreads.passes.mpr ⟨_, _, hcredentials, haccepts⟩
    exact hreturns.mp h.returns u p hparse haccepts'
  · rintro ⟨hreads, hanswers⟩
    refine ⟨hreturns.mpr ?_, hpasses.trans hreads.passes, ?_⟩
    · intro username password hparse haccepts
      exact hanswers username password (hreads.asked _ _ hparse) haccepts
    · intro m g f username password accepted hmem
      exact hreads.asked username password
        ((hasked username password).mp ⟨m, g, f, accepted, hmem⟩)

section Stage

variable (hsessions : flt.useSessions = false) (henabled : filters.filtersEnabled = true)
  (hblock : findApplicable BlockFilter.toAccessFilter conn.request.getRequestPath 0
    filters.blockFilters = .ok none)
  (hauth : findApplicable AuthFilter.toAccessFilter conn.request.getRequestPath 0
    filters.authFilters = .ok (some (n, flt)))

include hsessions henabled hblock hauth

theorem acceptsBasic_of_missing (h : conn.request.envVar (bytes "authorization") = []) :
    AcceptsBasic env filters store conn n flt authFunction := by
  have hstage := authStage_of_missing env n store hsessions h
  have hfilters := applyFilters_of_refused henabled hblock hauth hstage
  refine ⟨⟨true, by rw [hfilters]⟩, ?_, ?_⟩
  · rw [hstage, h]
    refine iff_of_false (fun hfalse => by cases hfalse) ?_
    rintro ⟨username, password, ⟨encoded, htokens, -⟩, -⟩
    cases htokens
  · intro m g f username password accepted hmem
    rw [hfilters] at hmem
    cases hmem

variable (hauthorization : conn.request.envVar (bytes "authorization") ≠ [])

include hauthorization

/-- The exception leaves `applyFilters`. -/
theorem not_acceptsBasic_of_error {e : Failure}
    (h : parseCredentials (conn.request.envVar (bytes "authorization")) = .error e) :
    ¬ AcceptsBasic env filters store conn n flt authFunction := by
  have hstage := authStage_of_error env n store hsessions hauthorization h
  have hfilters := applyFilters_of_failed henabled hblock hauth hstage
  intro haccepts
  obtain ⟨filtered, hok⟩ := haccepts.returns
  rw [hfilters] at hok
  cases hok

/-- Nothing has been read, and the function is not asked. -/
theorem acceptsBasic_iff_of_none
    (h : parseCredentials (conn.request.envVar (bytes "authorization")) = .ok none) :
    AcceptsBasic env filters store conn n flt authFunction ↔
      ReadsAs (env.invoke authFunction) (conn.request.envVar (bytes "authorization")) ∧
        AnswersAccepted env filters authFunction conn.request := by
  have hstage := authStage_of_none env n store hsessions hauthorization h
  have hfilters := applyFilters_of_refused henabled hblock hauth hstage
  refine acceptsBasic_iff_readsAs ?_ ?_ ?_ ?_
  · refine iff_of_true ⟨true, by rw [hfilters]⟩ ?_
    intro username password hparse
    rw [h] at hparse
    cases hparse
  · intro e he
    rw [h] at he
    cases he
  · rw [hstage, h]
    simp only [Except.ok.injEq, Bool.false_eq_true, reduceCtorEq, false_and, exists_false]
  · intro username password
    rw [hfilters, h]
    simp only [List.not_mem_nil, exists_false, Except.ok.injEq, reduceCtorEq]

/-- The function is asked for what has been read, and its answer is that of the stage. -/
theorem acceptsBasic_iff_of_some (hfunction : flt.authFunction = some authFunction)
    {username password : Bytes}
    (h : parseCredentials (conn.request.envVar (bytes "authorization")) =
      .ok (some (username, password))) :
    AcceptsBasic env filters store conn n flt authFunction ↔
      ReadsAs (env.invoke authFunction) (conn.request.envVar (bytes "authorization")) ∧
        AnswersAccepted env filters authFunction conn.request := by
  obtain ⟨hevents, hconnection, hresult⟩ :=
    authStage_of_some env n store hsessions hfunction hauthorization h
  have hread : ∀ e,
      parseCredentials (conn.request.envVar (bytes "authorization")) ≠ .error e := by
    intro e he
    rw [h] at he
    cases he
  have hpasses : (authStage env n flt store conn).result = .ok true ↔
      ∃ u p, parseCredentials (conn.request.envVar (bytes "authorization")) =
        .ok (some (u, p)) ∧ env.invoke authFunction u p = true := by
    rw [hresult, h]
    simp only [Except.ok.injEq, Option.some.injEq, Prod.mk.injEq]
    constructor
    · intro haccepts
      exact ⟨username, password, ⟨rfl, rfl⟩, haccepts⟩
    · rintro ⟨_, _, ⟨rfl, rfl⟩, haccepts⟩
      exact haccepts
  have hstage : authStage env n flt store conn =
      ⟨(authStage env n flt store conn).store, (authStage env n flt store conn).connection,
        [.asked n flt authFunction username password
          (env.invoke authFunction username password)],
        .ok (env.invoke authFunction username password)⟩ := by
    rw [← hresult, ← hevents]
  cases haccepts : env.invoke authFunction username password with
  | true =>
    rw [haccepts, hconnection haccepts] at hstage
    have hfilters := applyFilters_of_admitted henabled hblock hauth hstage
    refine acceptsBasic_iff_readsAs ?_ hread hpasses ?_
    · rw [hfilters, h]
      refine forwardStage_returns_iff.trans ⟨fun hanswers _ _ _ _ => hanswers, fun hall => ?_⟩
      exact hall username password rfl haccepts
    · intro u p
      rw [hfilters, h, Except.ok.injEq, Option.some.injEq]
      exact asked_iff fun m g f u p accepted => not_asked_of_forwardStage
  | false =>
    rw [haccepts] at hstage
    have hfilters := applyFilters_of_refused henabled hblock hauth hstage
    refine acceptsBasic_iff_readsAs ?_ hread hpasses ?_
    · refine iff_of_true ⟨true, by rw [hfilters]⟩ ?_
      intro u p hparse haccepts'
      rw [h] at hparse
      cases hparse
      rw [haccepts] at haccepts'
      cases haccepts'
    · intro u p
      rw [hfilters, h, Except.ok.injEq, Option.some.injEq]
      exact asked_iff fun m g f u p accepted => List.not_mem_nil

end Stage

/-- **Basic authentication accepts exactly the right headers** where the header is missing, or
where it is readable and a request that it admits is answered by the forward filters. -/
theorem acceptsBasic_iff (hsessions : flt.useSessions = false)
    (hfunction : flt.authFunction = some authFunction)
    (henabled : filters.filtersEnabled = true)
    (hblock : findApplicable BlockFilter.toAccessFilter conn.request.getRequestPath 0
      filters.blockFilters = .ok none)
    (hauth : findApplicable AuthFilter.toAccessFilter conn.request.getRequestPath 0
      filters.authFilters = .ok (some (n, flt))) :
    AcceptsBasic env filters store conn n flt authFunction ↔
      conn.request.envVar (bytes "authorization") = [] ∨
        Readable (env.invoke authFunction) (conn.request.envVar (bytes "authorization")) ∧
          AnswersAccepted env filters authFunction conn.request := by
  by_cases hmissing : conn.request.envVar (bytes "authorization") = []
  · exact iff_of_true (acceptsBasic_of_missing hsessions henabled hblock hauth hmissing)
      (.inl hmissing)
  rw [or_iff_right hmissing, ← readsAs_iff]
  cases hparse : parseCredentials (conn.request.envVar (bytes "authorization")) with
  | error e =>
    exact iff_of_false (not_acceptsBasic_of_error hsessions henabled hblock hauth hmissing hparse)
      fun h => h.1.returns e hparse
  | ok pair =>
    cases pair with
    | none => exact acceptsBasic_iff_of_none hsessions henabled hblock hauth hmissing hparse
    | some pair =>
      exact acceptsBasic_iff_of_some hsessions henabled hblock hauth hmissing hfunction hparse

end Filters

/-! ## A password that is empty -/

/-- Every pair of credentials is accepted. -/
def openContext : FilterContext Unit Unit := { emptyContext with invoke := fun _ _ _ => true }

def userFilter : AuthFilter Unit := { authFunction := some () }

def userFilters : AccessFilterList Unit := { filtersEnabled := true, authFilters := [userFilter] }

def authorized (authorization : Bytes) : Connection where
  request :=
    { env := (Lib.AssocMap.empty.insert (bytes "REQUEST_URI") (bytes "/account")).insert
        (bytes "authorization") authorization }

/-- An exception leaves for a scheme without a token, and `user:` is not even asked for. -/
theorem not_acceptsBasic_emptyPassword :
    ¬ AcceptsBasic openContext userFilters .empty (authorized (bytes "Basic")) 0 userFilter () ∧
      ¬ AcceptsBasic openContext userFilters .empty (authorized (bytes "Basic dXNlcjo=")) 0
        userFilter () := by
  constructor
  · intro h
    have hfailed : (applyFilters openContext userFilters .empty
        (authorized (bytes "Basic"))).result = .error (.std .outOfRange) := rfl
    obtain ⟨filtered, hok⟩ := h.returns
    rw [hfailed] at hok
    cases hok
  · intro h
    have hrefused : (authStage openContext 0 userFilter .empty
        (authorized (bytes "Basic dXNlcjo="))).result = .ok false := rfl
    have hpasses := h.passes.mpr
      ⟨bytes "user", [], ⟨bytes "dXNlcjo=", by decide, by decide, by decide⟩, rfl⟩
    rw [hrefused] at hpasses
    cases hpasses

/-- The credentials `user:pass` are treated as they should be. -/
theorem acceptsBasic_iff_user :
    AcceptsBasic openContext userFilters .empty (authorized (bytes "Basic dXNlcjpwYXNz")) 0
      userFilter () := by
  have htokens : tokens (bytes "Basic dXNlcjpwYXNz") = [bytes "Basic", bytes "dXNlcjpwYXNz"] := by
    decide
  have hpieces : pieces (bytes "dXNlcjpwYXNz") = [bytes "user", bytes "pass"] := by decide
  have hanswers : ForwardAnswers openContext.files userFilters.forwardFilters
      (authorized (bytes "Basic dXNlcjpwYXNz")).request :=
    ⟨fun hpath => absurd hpath (by decide), fun n flt path file hfirst => nomatch hfirst.get⟩
  refine (acceptsBasic_iff rfl rfl rfl rfl rfl).mpr
    (.inr ⟨⟨by decide, ?_, ?_⟩, fun _ _ _ _ => hanswers⟩)
  · intro scheme encoded rest heq _ username password hpair
    cases htokens.symm.trans heq
    cases hpieces.symm.trans hpair
    exact ⟨rfl, rfl, by decide⟩
  · intro encoded heq hlength
    cases htokens.symm.trans heq
    exact absurd (congrArg List.length hpieces) hlength

end Nawa.Connection
