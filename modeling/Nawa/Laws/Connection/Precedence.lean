import Nawa.Connection.Precedence
import Nawa.Laws.Connection.ForwardFilter
import Nawa.Laws.Connection.SendFile
import Nawa.Laws.Connection.SessionCookie

/-!
# `applyFilters` keeps to the documented precedence

The loops over the three lists find the first filter that applies (`findApplicable_first`), and
each stage does with it what `Precedence` asks for. A request path without elements is left out:
an extension condition looks at the last element, which an empty path does not have.
-/

namespace Nawa

open Lib.FirstMatch

namespace AccessFilter

variable {flt : AccessFilter} {requestPath : List Bytes}

theorem pathMatches_iff :
    flt.pathMatches requestPath = true ↔ ∃ path ∈ flt.pathFilter, path <+: requestPath := by
  simp only [pathMatches, List.any_eq_true, List.isPrefixOf_iff_prefix]

theorem regexMatches_iff : flt.regexMatches requestPath = true ↔
    (flt.regexFilterEnabled = true → flt.regexFilter (pathString requestPath) = true) := by
  cases h : flt.regexFilterEnabled <;> simp [regexMatches, h]

/-- A condition fails when it comes out as its inversion flag. -/
theorem eq_invert_iff {b invert : Bool} {p : Prop} (h : b = true ↔ p) :
    b = invert ↔ ¬ (p ↔ invert = false) := by
  rw [← h]
  cases b <;> cases invert <;> decide

/-- Where `matches` answers, it decides the conditions of the filter. -/
theorem isMatch_sound {b : Bool} (h : flt.isMatch requestPath = some b) :
    b = true ↔ flt.Matches requestPath := by
  unfold isMatch at h
  by_cases hbegins : flt.pathFilter ≠ [] ∧ flt.pathMatches requestPath = flt.invertPathFilter
  · rw [if_pos hbegins] at h
    cases h
    refine ⟨nofun, fun hm => ?_⟩
    exact absurd (hm.path hbegins.1) ((eq_invert_iff pathMatches_iff).mp hbegins.2)
  · rw [if_neg hbegins] at h
    have hpathFilter := fun hne =>
      not_not.mp (mt (eq_invert_iff pathMatches_iff).mpr (not_and.mp hbegins hne))
    by_cases hext : flt.extensionFilter = []
    · rw [if_pos hext] at h
      cases h
      refine regexMatches_iff.trans ⟨fun hr => ⟨hpathFilter, ?_, hr⟩, fun hm => hm.regex⟩
      exact fun hne => absurd hext hne
    · rw [if_neg hext] at h
      cases hlast : requestPath.getLast? with
      | none =>
        rw [hlast] at h
        cases h
      | some last =>
        rw [hlast] at h
        dsimp only at h
        have hiff : decide (utils.getFileExtension last ∈ flt.extensionFilter) =
            flt.invertExtensionFilter ↔ _ := eq_invert_iff decide_eq_true_iff
        split at h
        · next hdiffer =>
          cases h
          exact ⟨nofun, fun hm => absurd (hm.extension hext _ hlast) (hiff.mp hdiffer)⟩
        · next hdiffer =>
          cases h
          refine regexMatches_iff.trans
            ⟨fun hr => ⟨hpathFilter, fun _ filename hfilename => ?_, hr⟩, fun hm => hm.regex⟩
          cases Option.mem_some.mp (hlast ▸ hfilename)
          exact not_not.mp (mt hiff.mpr hdiffer)

/-- It answers unless it looks for the last element of an empty path. -/
theorem isMatch_eq_none_iff : flt.isMatch requestPath = none ↔
    requestPath = [] ∧ flt.extensionFilter ≠ [] ∧
      ¬ (flt.pathFilter ≠ [] ∧ flt.pathMatches requestPath = flt.invertPathFilter) := by
  unfold isMatch
  by_cases hbegins : flt.pathFilter ≠ [] ∧ flt.pathMatches requestPath = flt.invertPathFilter
  · rw [if_pos hbegins]
    exact iff_of_false nofun fun h => h.2.2 hbegins
  · rw [if_neg hbegins]
    by_cases hext : flt.extensionFilter = []
    · rw [if_pos hext]
      exact iff_of_false nofun fun h => h.2.1 hext
    · rw [if_neg hext]
      cases hlast : requestPath.getLast? with
      | none => exact iff_of_true rfl ⟨List.getLast?_eq_none_iff.mp hlast, hext, hbegins⟩
      | some last =>
        dsimp only
        refine iff_of_false (by split <;> exact nofun) ?_
        rintro ⟨rfl, -⟩
        cases hlast

theorem applies_sound {b : Bool} (h : flt.applies requestPath = some b) :
    b = true ↔ flt.Applicable requestPath := by
  obtain ⟨m, hm, rfl⟩ := Option.map_eq_some_iff.mp h
  rw [Applicable, ← isMatch_sound hm]
  cases m <;> cases flt.invert <;> decide

end AccessFilter

namespace Connection

variable {Fn V Flt : Type}

/-! ## The loops -/

section Loops

variable {toAccessFilter : Flt → AccessFilter} {requestPath : List Bytes} {filters : List Flt}

/-- What the loop answers is the first filter that applies. -/
theorem findApplicable_sound {k : Nat} {found : Option (Nat × Flt)}
    (h : findApplicable toAccessFilter requestPath k filters = .ok found) :
    (found = none ∧ NoneApplicable toAccessFilter requestPath filters) ∨
      ∃ n flt, found = some (k + n, flt) ∧
        FirstApplicable toAccessFilter requestPath filters n flt := by
  let P (flt : Flt) : Prop := (toAccessFilter flt).Applicable requestPath
  induction filters generalizing k with
  | nil =>
    cases h
    exact .inl ⟨rfl, fun flt hmem => absurd hmem List.not_mem_nil⟩
  | cons f rest ih =>
    unfold findApplicable at h
    cases happlies : (toAccessFilter f).applies requestPath with
    | none =>
      rw [happlies] at h
      cases h
    | some b =>
      rw [happlies] at h
      have hiff := AccessFilter.applies_sound happlies
      cases b with
      | true =>
        cases h
        exact .inr ⟨0, f, rfl, (isFirst_cons_of_pos (P := P) (hiff.mp rfl)).mpr ⟨rfl, rfl⟩⟩
      | false =>
        have hnot : ¬ P f := fun ha => Bool.false_ne_true (hiff.mpr ha)
        rcases ih h with ⟨rfl, hnone⟩ | ⟨n, flt, rfl, hfirst⟩
        · exact .inl ⟨rfl, List.forall_mem_cons.mpr ⟨hnot, hnone⟩⟩
        · refine .inr ⟨n + 1, flt, ?_, (isFirst_cons_of_neg hnot).mpr ⟨n, rfl, hfirst⟩⟩
          rw [Nat.add_right_comm, Nat.add_assoc]

/-- All that can go wrong is that the path is empty. -/
theorem findApplicable_error {k : Nat} {e : Failure}
    (h : findApplicable toAccessFilter requestPath k filters = .error e) :
    requestPath = [] ∧ e = .undefined := by
  induction filters generalizing k with
  | nil => cases h
  | cons flt rest ih =>
    rw [findApplicable] at h
    cases happlies : (toAccessFilter flt).applies requestPath with
    | none =>
      rw [happlies] at h
      cases h
      have hmatch := Option.map_eq_none_iff.mp happlies
      exact ⟨(AccessFilter.isMatch_eq_none_iff.mp hmatch).1, rfl⟩
    | some b =>
      rw [happlies] at h
      cases b with
      | true => cases h
      | false => exact ih h

theorem findApplicable_returns (toAccessFilter : Flt → AccessFilter) (k : Nat)
    (filters : List Flt) (hpath : requestPath ≠ []) :
    ∃ found, findApplicable toAccessFilter requestPath k filters = .ok found := by
  cases h : findApplicable toAccessFilter requestPath k filters with
  | ok found => exact ⟨found, rfl⟩
  | error e => exact absurd (findApplicable_error h).1 hpath

/-- A first filter that applies and no such filter exclude each other. -/
theorem not_noneApplicable {n : Nat} {flt : Flt}
    (h : FirstApplicable toAccessFilter requestPath filters n flt) :
    ¬ NoneApplicable toAccessFilter requestPath filters :=
  fun hnone => hnone flt (List.mem_of_getElem? h.get) h.holds

theorem findApplicable_first {n : Nat} {flt : Flt} (hpath : requestPath ≠ [])
    (h : FirstApplicable toAccessFilter requestPath filters n flt) :
    findApplicable toAccessFilter requestPath 0 filters = .ok (some (n, flt)) := by
  obtain ⟨found, hfound⟩ := findApplicable_returns toAccessFilter 0 filters hpath
  rcases findApplicable_sound hfound with ⟨-, hnone⟩ | ⟨m, g, rfl, hfirst⟩
  · exact absurd hnone (not_noneApplicable h)
  · obtain ⟨rfl, rfl⟩ := h.unique hfirst
    rw [hfound, Nat.zero_add]

theorem first_of_findApplicable {n : Nat} {flt : Flt}
    (h : findApplicable toAccessFilter requestPath 0 filters = .ok (some (n, flt))) :
    FirstApplicable toAccessFilter requestPath filters n flt := by
  rcases findApplicable_sound h with ⟨hnone, -⟩ | ⟨m, g, hfound, hfirst⟩
  · cases hnone
  · rw [Nat.zero_add] at hfound
    cases hfound
    exact hfirst

theorem none_of_findApplicable {k : Nat}
    (h : findApplicable toAccessFilter requestPath k filters = .ok none) :
    NoneApplicable toAccessFilter requestPath filters := by
  rcases findApplicable_sound h with ⟨-, hnone⟩ | ⟨m, g, hfound, -⟩
  · exact hnone
  · cases hfound

theorem findApplicable_none {k : Nat} (hpath : requestPath ≠ [])
    (h : NoneApplicable toAccessFilter requestPath filters) :
    findApplicable toAccessFilter requestPath k filters = .ok none := by
  obtain ⟨found, hfound⟩ := findApplicable_returns toAccessFilter k filters hpath
  rcases findApplicable_sound hfound with ⟨rfl, -⟩ | ⟨m, g, -, hfirst⟩
  · exact hfound
  · exact absurd h (not_noneApplicable hfirst)

end Loops

/-! ## The stages -/

theorem answers_errorResponse (conn : Connection) (status : Nat) (response : Bytes) :
    Answers status response conn (conn.errorResponse status response) := rfl

theorem asksForCredentials_requestAuthentication (conn : Connection) (authName : Bytes) :
    AsksForCredentials authName conn (conn.requestAuthentication authName) := by
  have hname : utils.toLowercase (bytes "www-authenticate") = bytes "www-authenticate" := by decide
  refine ⟨rfl, ?_, ?_, rfl⟩
  · rw [requestAuthentication, lookup_setHeader, hname, if_pos rfl]
    by_cases hnone : authName = []
    · rw [if_neg (not_not.mpr hnone), if_pos hnone, List.append_nil]
    · rw [if_pos hnone, if_neg hnone]
      simp only [List.append_assoc]
      rfl
  · intro key hkey
    rw [requestAuthentication, lookup_setHeader, hname, if_neg hkey]
    rfl

theorem forwardStage_store (env : FilterContext Fn V) (filters : List ForwardFilter)
    (requestPath : List Bytes) (store : SessionStore V) (conn : Connection) :
    (forwardStage env filters requestPath store conn).store = store := by
  unfold forwardStage
  repeat' split
  all_goals rfl

section Sends

variable {env : FilterContext Fn V} {filters : List ForwardFilter} {requestPath : List Bytes}
  {store : SessionStore V} {conn : Connection} {n : Nat} {flt : ForwardFilter} {path : Bytes}
  (hfind : findApplicable ForwardFilter.toAccessFilter requestPath 0 filters = .ok (some (n, flt)))
  (hforward : forwardPath flt requestPath = some path)

include hfind hforward

/-- The filter that applies sends its file. -/
theorem forwardStage_sent {conn' : Connection}
    (h : conn.sendFile env.files path [] false [] true = .ok conn') :
    forwardStage env filters requestPath store conn =
      ⟨store, conn', [.sentFile flt path], .ok true⟩ := by
  obtain ⟨hresult, hok, -⟩ := sendFileInPlace_eq conn env.files path [] false [] true
  have hsent : conn.sendFileInPlace env.files path [] false [] true = (conn', .ok ()) := by
    rw [h] at hresult
    exact Prod.ext (hok conn' h) hresult
  simp only [forwardStage, hfind, hforward, hsent]

/-- Its file cannot be opened. -/
theorem forwardStage_notFound (h : env.files path = none) :
    forwardStage env filters requestPath store conn =
      ⟨store, conn.errorResponse 404 flt.response, [.sentFile flt path], .ok true⟩ := by
  obtain ⟨hresult, -, hnone⟩ := sendFileInPlace_eq conn env.files path [] false [] true
  have hfailed : conn.sendFileInPlace env.files path [] false [] true =
      (conn, .error (.nawa cannotOpenFile)) := by
    rw [sendFile_none h] at hresult
    exact Prod.ext (hnone h) hresult
  simp only [forwardStage, hfind, hforward, hfailed]

/-- What it opens is longer than any string: the exception is not caught. -/
theorem forwardStage_tooLong {file : File} (hfile : env.files path = some file)
    (h : ¬ NotModified true conn.request file) (hlong : maxSize < file.size + 1) :
    (forwardStage env filters requestPath store conn).result = .error (.std .lengthError) := by
  obtain ⟨hresult, -, -⟩ := sendFileInPlace_eq conn env.files path [] false [] true
  rw [sendFile_tooLong hfile h hlong] at hresult
  have hfailed : conn.sendFileInPlace env.files path [] false [] true =
      ((conn.sendFileInPlace env.files path [] false [] true).1, .error (.std .lengthError)) :=
    Prod.ext rfl hresult
  rw [forwardStage, hfind]
  dsimp only
  rw [hforward]
  dsimp only
  rw [hfailed]

end Sends

theorem forwardStage_decision {env : FilterContext Fn V} {filters : List ForwardFilter}
    {requestPath : List Bytes} {store : SessionStore V} {conn : Connection} {filtered : Bool}
    (hpath : requestPath ≠ [])
    (h : (forwardStage env filters requestPath store conn).result = .ok filtered) :
    ForwardDecision env filters requestPath conn
      (forwardStage env filters requestPath store conn).connection
      (forwardStage env filters requestPath store conn).events filtered := by
  constructor
  · intro n flt hfirst
    cases hforward : forwardPath flt requestPath with
    | none =>
      simp only [forwardStage, findApplicable_first hpath hfirst, hforward, reduceCtorEq] at h
    | some path =>
      have hfind := findApplicable_first hpath hfirst
      cases hsend : conn.sendFile env.files path [] false [] true with
      | ok sent =>
        rw [forwardStage_sent hfind hforward hsend] at h ⊢
        cases h
        exact ⟨rfl, path, rfl, rfl, .inl hsend⟩
      | error e =>
        cases hfile : env.files path with
        | none =>
          rw [forwardStage_notFound hfind hforward hfile] at h ⊢
          cases h
          exact ⟨rfl, path, rfl, rfl, .inr ⟨hfile, answers_errorResponse ..⟩⟩
        | some file =>
          obtain ⟨hmodified, hlong⟩ := tooLong_of_error hfile hsend
          rw [forwardStage_tooLong hfind hforward hfile hmodified hlong] at h
          cases h
  · intro hnone
    have heq : forwardStage env filters requestPath store conn = ⟨store, conn, [], .ok false⟩ := by
      simp only [forwardStage, findApplicable_none hpath hnone]
    rw [heq] at h ⊢
    cases h
    exact ⟨rfl, rfl, rfl⟩

/-! ## Authentication -/

section Auth

variable {env : FilterContext Fn V} {n : Nat} {flt : AuthFilter Fn} {store : SessionStore V}
  {conn : Connection}

theorem sessionStarted_request :
    (sessionStarted env flt store conn).2.request = conn.request := by
  unfold sessionStarted
  split
  · obtain ⟨session, cookies, hframe⟩ := startSession_frame conn env.start {} store
    rw [hframe]
  · rfl

/-- A filter that is remembered is passed, and any other one looks at the credentials. -/
theorem authStage_cases {passed : Bool}
    (h : (authStage env n flt store conn).result = .ok passed) :
    (Remembered env n flt store conn ∧
      authStage env n flt store conn =
        ⟨(sessionStarted env flt store conn).1, (sessionStarted env flt store conn).2,
          [.passedBySession n flt], .ok true⟩) ∨
    (¬ Remembered env n flt store conn ∧
      authStage env n flt store conn =
        authenticate env n flt (sessionStarted env flt store conn).1
          (sessionStarted env flt store conn).2) := by
  unfold authStage at h ⊢
  unfold Remembered sessionStarted
  by_cases huse : flt.useSessions = true
  · simp only [huse, if_true, true_and] at h ⊢
    generalize conn.startSession env.start {} store = started at h ⊢
    obtain ⟨store', conn', result⟩ := started
    cases result with
    | error e => cases h
    | ok =>
      dsimp only at h ⊢
      by_cases hset : conn'.session.isSet store' (sessionVarKey n) = true
      · exact .inl ⟨hset, if_pos hset⟩
      · exact .inr ⟨hset, if_neg hset⟩
  · simp only [huse, Bool.false_eq_true, if_false, false_and, not_false_eq_true, true_and,
      or_true]

/-- An answer is the one of the filter's own function, to the credentials of the request. -/
theorem checkCredentials_answered_iff {invoke : Fn → Bytes → Bytes → Bool} {request : Request}
    {authFunction : Fn} {username password : Bytes} {accepted : Bool} :
    checkCredentials invoke flt request = .answered authFunction username password accepted ↔
      request.envVar (bytes "authorization") ≠ [] ∧ flt.authFunction = some authFunction ∧
        parseCredentials (request.envVar (bytes "authorization")) =
          .ok (some (username, password)) ∧
        invoke authFunction username password = accepted := by
  unfold checkCredentials
  by_cases hauthorization : request.envVar (bytes "authorization") = []
  · simp only [hauthorization, if_true, reduceCtorEq, ne_eq, not_true_eq_false, false_and]
  rw [if_neg hauthorization]
  simp only [ne_eq, hauthorization, not_false_eq_true, true_and]
  split
  · next heq => simp only [heq, reduceCtorEq, false_and, and_false]
  · next heq => simp only [heq, reduceCtorEq, Except.ok.injEq, false_and, and_false]
  · next u p heq =>
    rw [heq]
    split
    · next hf => simp only [hf, reduceCtorEq, false_and]
    · next f hf =>
      simp only [hf, CredentialsCheck.answered.injEq, Option.some.injEq, Except.ok.injEq,
        Prod.mk.injEq]
      constructor
      · rintro ⟨rfl, rfl, rfl, rfl⟩
        exact ⟨rfl, ⟨rfl, rfl⟩, rfl⟩
      · rintro ⟨rfl, ⟨rfl, rfl⟩, rfl⟩
        exact ⟨rfl, rfl, rfl, rfl⟩

theorem authenticate_unauthenticated
    (hauthorization : conn.request.envVar (bytes "authorization") = []) :
    authenticate env n flt store conn =
      ⟨store, conn.requestAuthentication flt.authName, [], .ok false⟩ := by
  unfold authenticate checkCredentials
  rw [if_pos hauthorization]

theorem authenticate_denied {passed : Bool}
    (h : (authenticate env n flt store conn).result = .ok passed)
    (hauthorization : conn.request.envVar (bytes "authorization") ≠ [])
    (hdenied : ∀ username, ¬ Accepted env flt conn.request username) :
    ∃ events, (∀ g path, .sentFile g path ∉ events) ∧
      authenticate env n flt store conn =
        ⟨store, conn.errorResponse 403 flt.response, events, .ok false⟩ := by
  unfold authenticate at h ⊢
  cases hcheck : checkCredentials env.invoke flt conn.request with
  | missing =>
    unfold checkCredentials at hcheck
    rw [if_neg hauthorization] at hcheck
    repeat' split at hcheck
    all_goals cases hcheck
  | failed e => simp only [hcheck, reduceCtorEq] at h
  | unusable => exact ⟨[], fun _ _ => List.not_mem_nil, rfl⟩
  | answered f username password accepted =>
    obtain ⟨-, hf, hparse, hinvoke⟩ := checkCredentials_answered_iff.mp hcheck
    have haccepted : accepted = false := by
      rw [← Bool.not_eq_true, ← hinvoke]
      exact fun hok => hdenied username ⟨f, password, hf, hparse, hok⟩
    subst haccepted
    refine ⟨_, fun g path hmem => ?_, rfl⟩
    exact nomatch List.mem_singleton.mp hmem

theorem authenticate_accepted {passed : Bool} {username : Bytes}
    (h : (authenticate env n flt store conn).result = .ok passed)
    (hauthorization : conn.request.envVar (bytes "authorization") ≠ [])
    (haccepted : Accepted env flt conn.request username) :
    ∃ store' authFunction password,
      (if flt.useSessions then
          conn.session.set (sessionVarKey n) (env.any username) store = .ok store'
        else store' = store) ∧
      authenticate env n flt store conn =
        ⟨store', conn, [.asked n flt authFunction username password true], .ok true⟩ := by
  obtain ⟨f, password, hcheck⟩ := haccepted
  have hanswered := checkCredentials_answered_iff.mpr ⟨hauthorization, hcheck⟩
  unfold authenticate at h ⊢
  simp only [hanswered, Bool.not_true, Bool.false_eq_true, if_false] at h ⊢
  by_cases huse : flt.useSessions = true
  · simp only [huse, if_true] at h ⊢
    cases hset : conn.session.set (sessionVarKey n) (env.any username) store with
    | ok store' => exact ⟨store', f, password, rfl, rfl⟩
    | error e => simp only [hset, reduceCtorEq] at h
  · simp only [huse, Bool.false_eq_true, if_false]
    exact ⟨store, f, password, rfl, rfl⟩

/-- The stage calls the function of its own filter only. -/
theorem asked_of_authStage {m : Nat} {g : AuthFilter Fn} {f : Fn} {username password : Bytes}
    {accepted : Bool}
    (h : .asked m g f username password accepted ∈ (authStage env n flt store conn).events) :
    m = n ∧ g = flt ∧ flt.authFunction = some f := by
  have hauth : ∀ (store : SessionStore V) (conn : Connection),
      .asked m g f username password accepted ∈ (authenticate env n flt store conn).events →
        m = n ∧ g = flt ∧ flt.authFunction = some f := by
    intro store conn h
    unfold authenticate at h
    cases hcheck : checkCredentials env.invoke flt conn.request with
    | missing => simp only [hcheck, List.not_mem_nil] at h
    | failed e => simp only [hcheck, List.not_mem_nil] at h
    | unusable => simp only [hcheck, List.not_mem_nil] at h
    | answered f' username' password' accepted' =>
      have hmem : FilterEvent.asked m g f username password accepted ∈
          [.asked n flt f' username' password' accepted'] := by
        simp only [hcheck] at h
        repeat' split at h
        all_goals exact h
      obtain ⟨rfl, rfl, rfl, rfl, rfl, rfl⟩ := FilterEvent.asked.inj (List.mem_singleton.mp hmem)
      exact ⟨rfl, rfl, (checkCredentials_answered_iff.mp hcheck).2.1⟩
  unfold authStage at h
  split at h
  · split at h
    · cases h
    · split at h
      · exact nomatch List.mem_singleton.mp h
      · exact hauth _ _ h
  · exact hauth _ _ h

end Auth

theorem not_asked_of_forwardStage {env : FilterContext Fn V} {filters : List ForwardFilter}
    {requestPath : List Bytes} {store : SessionStore V} {conn : Connection} {m : Nat}
    {g : AuthFilter Fn} {f : Fn} {username password : Bytes} {accepted : Bool} :
    .asked m g f username password accepted ∉
      (forwardStage env filters requestPath store conn).events := by
  unfold forwardStage
  repeat' split
  all_goals first
    | exact List.not_mem_nil
    | exact fun h => nomatch List.mem_singleton.mp h

/-! ## All stages -/

section All

variable {env : FilterContext Fn V} {filters : AccessFilterList Fn} {store store' : SessionStore V}
  {conn conn' : Connection} {filtered : Bool}

theorem applyFilters_block (hpath : conn.request.getRequestPath ≠ [])
    (henabled : filters.filtersEnabled = true) {n : Nat} {flt : BlockFilter}
    (hfirst : FirstApplicable BlockFilter.toAccessFilter conn.request.getRequestPath
      filters.blockFilters n flt) :
    applyFilters env filters store conn =
      ⟨store, conn.errorResponse flt.status flt.response, [.blocked flt], .ok true⟩ := by
  simp only [applyFilters, henabled, findApplicable_first hpath hfirst, Bool.not_true,
    Bool.false_eq_true, if_false]

/-! The loops have found no block filter, and an authentication filter. -/

section Found

variable {n : Nat} {flt : AuthFilter Fn} {events : List (FilterEvent Fn)}
  (henabled : filters.filtersEnabled = true)
  (hblock : findApplicable BlockFilter.toAccessFilter conn.request.getRequestPath 0
    filters.blockFilters = .ok none)
  (hauth : findApplicable AuthFilter.toAccessFilter conn.request.getRequestPath 0
    filters.authFilters = .ok (some (n, flt)))

include henabled hblock hauth

theorem applyFilters_of_refused
    (hstage : authStage env n flt store conn = ⟨store', conn', events, .ok false⟩) :
    applyFilters env filters store conn = ⟨store', conn', events, .ok true⟩ := by
  simp only [applyFilters, henabled, hblock, hauth, Bool.not_true, Bool.false_eq_true, if_false,
    hstage]

theorem applyFilters_of_admitted
    (hstage : authStage env n flt store conn = ⟨store', conn', events, .ok true⟩) :
    applyFilters env filters store conn =
      { forwardStage env filters.forwardFilters conn.request.getRequestPath store' conn' with
        events := events ++
          (forwardStage env filters.forwardFilters conn.request.getRequestPath store'
            conn').events } := by
  simp only [applyFilters, henabled, hblock, hauth, Bool.not_true, Bool.false_eq_true, if_false,
    hstage]

theorem applyFilters_of_failed {e : Failure}
    (hstage : authStage env n flt store conn = ⟨store', conn', events, .error e⟩) :
    applyFilters env filters store conn = ⟨store', conn', events, .error e⟩ := by
  simp only [applyFilters, henabled, hblock, hauth, Bool.not_true, Bool.false_eq_true, if_false,
    hstage]

end Found

section NotBlocked

variable (hpath : conn.request.getRequestPath ≠ []) (henabled : filters.filtersEnabled = true)
  (hblock : NoneApplicable BlockFilter.toAccessFilter conn.request.getRequestPath
    filters.blockFilters)

include hpath henabled hblock

theorem applyFilters_forward
    (hauth : NoneApplicable AuthFilter.toAccessFilter conn.request.getRequestPath
      filters.authFilters) :
    applyFilters env filters store conn =
      forwardStage env filters.forwardFilters conn.request.getRequestPath store conn := by
  simp only [applyFilters, henabled, findApplicable_none hpath hblock,
    findApplicable_none hpath hauth, Bool.not_true, Bool.false_eq_true, if_false]

variable {n : Nat} {flt : AuthFilter Fn}
  (hauth : FirstApplicable AuthFilter.toAccessFilter conn.request.getRequestPath
    filters.authFilters n flt)

include hauth

theorem applyFilters_stopped {events : List (FilterEvent Fn)}
    (hstage : authStage env n flt store conn = ⟨store', conn', events, .ok false⟩) :
    applyFilters env filters store conn = ⟨store', conn', events, .ok true⟩ := by
  exact applyFilters_of_refused henabled (findApplicable_none hpath hblock)
    (findApplicable_first hpath hauth) hstage

theorem applyFilters_passed {events : List (FilterEvent Fn)}
    (hstage : authStage env n flt store conn = ⟨store', conn', events, .ok true⟩) :
    applyFilters env filters store conn =
      { forwardStage env filters.forwardFilters conn.request.getRequestPath store' conn' with
        events := events ++
          (forwardStage env filters.forwardFilters conn.request.getRequestPath store'
            conn').events } := by
  exact applyFilters_of_admitted henabled (findApplicable_none hpath hblock)
    (findApplicable_first hpath hauth) hstage

theorem authStage_returns (h : (applyFilters env filters store conn).result = .ok filtered) :
    ∃ passed, (authStage env n flt store conn).result = .ok passed := by
  cases hresult : (authStage env n flt store conn).result with
  | ok passed => exact ⟨passed, rfl⟩
  | error e =>
    have hstage : authStage env n flt store conn =
        ⟨(authStage env n flt store conn).store, (authStage env n flt store conn).connection,
          (authStage env n flt store conn).events, .error e⟩ := by rw [← hresult]
    rw [applyFilters_of_failed henabled (findApplicable_none hpath hblock)
      (findApplicable_first hpath hauth) hstage] at h
    cases h

theorem asked_of_applyFilters {passed : Bool} {m : Nat} {g : AuthFilter Fn} {f : Fn}
    {username password : Bytes} {accepted : Bool}
    (hpassed : (authStage env n flt store conn).result = .ok passed)
    (h : .asked m g f username password accepted ∈ (applyFilters env filters store conn).events) :
    m = n ∧ g = flt ∧ flt.authFunction = some f := by
  have hstage : authStage env n flt store conn =
      ⟨(authStage env n flt store conn).store, (authStage env n flt store conn).connection,
        (authStage env n flt store conn).events, .ok passed⟩ := by rw [← hpassed]
  cases passed with
  | false =>
    rw [applyFilters_stopped hpath henabled hblock hauth hstage] at h
    exact asked_of_authStage h
  | true =>
    rw [applyFilters_passed hpath henabled hblock hauth hstage] at h
    rcases List.mem_append.mp h with h | h
    · exact asked_of_authStage h
    · exact absurd h not_asked_of_forwardStage

/-- A request that goes on to the forward filters is decided by them. -/
theorem passed_decision {events : List (FilterEvent Fn)}
    (hstage : authStage env n flt store conn = ⟨store', conn', events, .ok true⟩)
    (h : (applyFilters env filters store conn).result = .ok filtered) :
    (applyFilters env filters store conn).store = store' ∧
      ∃ forwarded, (applyFilters env filters store conn).events = events ++ forwarded ∧
        ForwardDecision env filters.forwardFilters conn.request.getRequestPath conn'
          (applyFilters env filters store conn).connection forwarded filtered := by
  rw [applyFilters_passed hpath henabled hblock hauth hstage] at h ⊢
  exact ⟨forwardStage_store .., _, rfl, forwardStage_decision hpath h⟩

/-- What follows where an authentication filter is the one that decides. -/
theorem auth_decision (h : (applyFilters env filters store conn).result = .ok filtered) :
    AuthDecision env filters n flt store conn (applyFilters env filters store conn) filtered := by
  obtain ⟨passed, hpassed⟩ := authStage_returns hpath henabled hblock hauth h
  have hrequest : (sessionStarted env flt store conn).2.request = conn.request :=
    sessionStarted_request
  have hcases := authStage_cases hpassed
  constructor
  · intro m g f username password accepted
    exact asked_of_applyFilters hpath henabled hblock hauth hpassed
  · intro hremembered hauthorization
    obtain ⟨hno, -⟩ | ⟨-, heq⟩ := hcases
    · exact absurd hno hremembered
    · rw [authenticate_unauthenticated (hrequest ▸ hauthorization)] at heq
      rw [applyFilters_stopped hpath henabled hblock hauth heq] at h ⊢
      cases h
      exact ⟨rfl, rfl, asksForCredentials_requestAuthentication ..⟩
  · intro hremembered hauthorization hdenied
    obtain ⟨hno, -⟩ | ⟨-, heq⟩ := hcases
    · exact absurd hno hremembered
    · rw [heq] at hpassed
      rw [← hrequest] at hauthorization hdenied
      obtain ⟨events, hevents, hauthenticate⟩ :=
        authenticate_denied hpassed hauthorization hdenied
      rw [hauthenticate] at heq
      rw [applyFilters_stopped hpath henabled hblock hauth heq] at h ⊢
      cases h
      exact ⟨rfl, hevents, answers_errorResponse ..⟩
  · intro hremembered
    obtain ⟨-, heq⟩ | ⟨hno, -⟩ := hcases
    · exact passed_decision hpath henabled hblock hauth heq h
    · exact absurd hremembered hno
  · intro username hremembered hauthorization haccepted
    obtain ⟨hno, -⟩ | ⟨-, heq⟩ := hcases
    · exact absurd hno hremembered
    · rw [heq] at hpassed
      rw [← hrequest] at hauthorization haccepted
      obtain ⟨store', f, password, hset, hauthenticate⟩ :=
        authenticate_accepted hpassed hauthorization haccepted
      rw [hauthenticate] at heq
      obtain ⟨hstore, forwarded, hevents, hdecision⟩ :=
        passed_decision hpath henabled hblock hauth heq h
      refine ⟨?_, f, password, forwarded, hevents, hdecision⟩
      rw [hstore]
      by_cases huse : flt.useSessions = true
      · rw [if_pos huse] at hset ⊢
        exact hset
      · rw [if_neg huse] at hset ⊢
        rw [hset, sessionStarted, if_neg huse]

end NotBlocked

/-- **Filters decide by the documented precedence**: on every request path that is not empty, a
call of `applyFilters` that answers has done what the first block filter that applies asks for,
or else the first authentication filter, or else, once that is passed, the first forward
filter. -/
theorem applyFilters_precedence (hpath : conn.request.getRequestPath ≠ [])
    (h : (applyFilters env filters store conn).result = .ok filtered) :
    Precedence env filters store conn (applyFilters env filters store conn) filtered := by
  constructor
  · intro hdisabled
    have heq : applyFilters env filters store conn = ⟨store, conn, [], .ok false⟩ := by
      simp only [applyFilters, hdisabled, Bool.not_false, if_true]
    rw [heq] at h ⊢
    cases h
    exact ⟨rfl, rfl, rfl, rfl⟩
  · intro henabled n flt hfirst
    rw [applyFilters_block hpath henabled hfirst] at h ⊢
    cases h
    exact ⟨rfl, rfl, rfl, answers_errorResponse ..⟩
  · intro henabled hblock n flt hauth
    exact auth_decision hpath henabled hblock hauth h
  · intro henabled hblock hauth
    rw [applyFilters_forward hpath henabled hblock hauth] at h ⊢
    exact ⟨forwardStage_store .., forwardStage_decision hpath h⟩

end All

/-! ## A request that is blocked, and one without credentials -/

/-- Below `/private`, everything is blocked. -/
def privateFilter : BlockFilter :=
  { pathFilter := [[bytes "private"]], status := 403 }

/-- The rest is for those who have an account. -/
def accountFilter : AuthFilter Unit :=
  { authFunction := some (), authName := bytes "Account" }

def privateFilters : AccessFilterList Unit :=
  { filtersEnabled := true, blockFilters := [privateFilter], authFilters := [accountFilter] }

theorem applyFilters_precedence_private :
    (applyFilters emptyContext privateFilters .empty
        (requestOf (bytes "/private/key"))).connection.responseStatus = 403 ∧
      (applyFilters emptyContext privateFilters .empty
        (requestOf (bytes "/key"))).connection.responseStatus = 401 ∧
      (applyFilters emptyContext privateFilters .empty
        (requestOf (bytes "/key"))).connection.headers.lookup (bytes "www-authenticate") =
          some [bytes "Basic realm=" ++ quote :: bytes "Account" ++ [quote]] := by
  have hblocked : Precedence emptyContext privateFilters .empty
      (requestOf (bytes "/private/key"))
      (applyFilters emptyContext privateFilters .empty (requestOf (bytes "/private/key"))) true :=
    applyFilters_precedence (by decide) rfl
  have hasked : Precedence emptyContext privateFilters .empty (requestOf (bytes "/key"))
      (applyFilters emptyContext privateFilters .empty (requestOf (bytes "/key"))) true :=
    applyFilters_precedence (by decide) rfl
  have hblock := first_of_findApplicable
    (show findApplicable BlockFilter.toAccessFilter [bytes "private", bytes "key"] 0
      privateFilters.blockFilters = .ok (some (0, privateFilter)) from rfl)
  have hnone := none_of_findApplicable
    (show findApplicable BlockFilter.toAccessFilter [bytes "key"] 0
      privateFilters.blockFilters = .ok none from rfl)
  have hauth := first_of_findApplicable
    (show findApplicable AuthFilter.toAccessFilter [bytes "key"] 0
      privateFilters.authFilters = .ok (some (0, accountFilter)) from rfl)
  obtain ⟨-, -, -, hanswers⟩ := hblocked.block rfl 0 privateFilter hblock
  obtain ⟨-, -, hasks⟩ := (hasked.auth rfl hnone 0 accountFilter hauth).unauthenticated
    (fun hremembered => Bool.false_ne_true hremembered.1) rfl
  exact ⟨congrArg responseStatus hanswers, hasks.status, hasks.challenge⟩

end Connection

end Nawa
