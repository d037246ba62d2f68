import Nawa.Laws.RequestHandler.Http
import Nawa.RequestHandler.FastcgiRequest

/-!
# What clients can write into the environment

The variables that say who has asked what of which server have names in upper case, and the
headers of a client become variables in lower case, so no header takes the place of one of them
(`environment_of_transport`). This holds of both handlers, whichever headers a client sends.
-/

namespace Nawa

open Lib (AssocMap)

/-! ## Names in upper and in lower case -/

theorem tolower_tolower : ∀ c : UInt8, tolower (tolower c) = tolower c :=
  forall_byte (by decide +kernel)

theorem tolower_of_mem_toLowercase {s : Bytes} {c : UInt8} (h : c ∈ utils.toLowercase s) :
    tolower c = c := by
  obtain ⟨d, -, rfl⟩ := List.mem_map.mp h
  exact tolower_tolower d

/-- A name with a letter in upper case is not that of a header. -/
theorem toLowercase_ne {s name : Bytes} (h : ∃ c ∈ name, tolower c ≠ c) :
    utils.toLowercase s ≠ name := by
  rintro rfl
  obtain ⟨c, hc, hupper⟩ := h
  exact hupper (tolower_of_mem_toLowercase hc)

/-- The names of the URLs of a request. -/
def urlNames : List Bytes :=
  [bytes "BASE_URL", bytes "FULL_URL_WITH_QS", bytes "FULL_URL_WITHOUT_QS"]

theorem upper_of_mem_transportNames :
    ∀ name ∈ HttpHandler.transportNames, ∃ c ∈ name, tolower c ≠ c := by decide

theorem upper_of_mem_urlNames : ∀ name ∈ urlNames, ∃ c ∈ name, tolower c ≠ c := by decide

/-! ## The HTTP handler -/

namespace HttpHandler

variable {config : Config} {request : ServerRequest} {container : RequestInitContainer}

/-- A variable that has a value before the URLs are added keeps it. -/
theorem lookup_addUrls_of_some {requestInit : RequestInitContainer} {destination name v : Bytes}
    (hname : name ∉ urlNames) (h : requestInit.environment.lookup name = some v) :
    (addUrls requestInit destination).environment.lookup name = some v := by
  simp only [urlNames, List.mem_cons, List.not_mem_nil, or_false, not_or] at hname
  obtain ⟨hbase, hwith, hwithout⟩ := hname
  simp only [addUrls, AssocMap.lookup_insert, if_neg hbase, if_neg hwith, if_neg hwithout]
  exact RequestInitContainer.lookup_subscript_of_some h

theorem lookup_requestInit (h : requestInit config request = .ok container) {name v : Bytes}
    (hname : name ∉ urlNames)
    (hv : (request.headers.foldl addHeader (serverVariables config request)).lookup name =
      some v) :
    container.environment.lookup name = some v := by
  obtain ⟨vars, hvars⟩ := getVars_returns request.destination
  rw [requestInit, hvars] at h
  cases h
  exact RequestInitContainer.lookup_subscript_of_some (lookup_addUrls_of_some hname hv)

/-- The variables of the server stay what they are, whatever the headers. -/
theorem lookup_transport (h : requestInit config request = .ok container) {e : Bytes × Bytes}
    (he : e ∈ transportVariables config request.source request.sourcePort request.destination
      request.method) :
    container.environment.lookup e.1 = some e.2 := by
  have hname : ∀ name ∈ transportNames, name ∉ urlNames := by decide
  refine lookup_requestInit h (hname e.1 (List.mem_map_of_mem he)) ?_
  rw [lookup_foldl_addHeader, lookup_serverVariables_of_mem he, Option.some_or]

/-- Of the headers of one name the first one counts. -/
theorem lookup_header (h : requestInit config request = .ok container) {field : Bytes × Bytes}
    (hfield : field ∈ request.headers) :
    container.environment.lookup (utils.toLowercase field.1) =
      header request (utils.toLowercase field.1) := by
  have hserver : utils.toLowercase field.1 ∉ transportNames :=
    fun hmem => toLowercase_ne (upper_of_mem_transportNames _ hmem) rfl
  have hurl : utils.toLowercase field.1 ∉ urlNames :=
    fun hmem => toLowercase_ne (upper_of_mem_urlNames _ hmem) rfl
  have hfold : (request.headers.foldl addHeader (serverVariables config request)).lookup
      (utils.toLowercase field.1) = header request (utils.toLowercase field.1) := by
    rw [lookup_foldl_addHeader, lookup_serverVariables_of_not_mem hserver, Option.none_or, header]
  cases hfirst : header request (utils.toLowercase field.1) with
  | none =>
    have hnone := List.find?_eq_none.mp (Option.map_eq_none_iff.mp hfirst) field hfield
    exact absurd (decide_eq_true rfl) hnone
  | some v => exact lookup_requestInit h hurl (hfold.trans hfirst)

end HttpHandler

/-! ## The FastCGI handler -/

namespace FastcgippRequestAdapter

variable {name k : Bytes}

/-- The variable of a header has a name in lower case. -/
theorem tolower_of_mem_envKey (hk : k.take 5 = bytes "HTTP_") :
    ∀ c ∈ envKey k, tolower c = c := by
  intro c hc
  rw [envKey, if_pos hk, utils.replaceChars, List.foldl_cons, List.foldl_nil] at hc
  obtain ⟨d, hd, rfl⟩ := List.mem_map.mp hc
  dsimp only
  split
  · decide
  · exact tolower_of_mem_toLowercase hd

/-- Only the parameter of that name becomes a variable whose name is in upper case. -/
theorem envKey_eq_iff (hupper : ∃ c ∈ name, tolower c ≠ c)
    (hname : name.take 5 ≠ bytes "HTTP_") : envKey k = name ↔ k = name := by
  constructor
  · rintro rfl
    by_cases hk : k.take 5 = bytes "HTTP_"
    · obtain ⟨c, hc, hne⟩ := hupper
      exact absurd (tolower_of_mem_envKey hk c hc) hne
    · exact (if_neg hk).symm
  · rintro rfl
    exact if_neg hname

theorem lookup_initialVariables {parameters : AssocMap Bytes Bytes}
    (hname : name ∈ HttpHandler.transportNames) :
    (initialVariables parameters).lookup name = none := by
  have hne : ∀ name ∈ HttpHandler.transportNames, name ≠ bytes "content-type" ∧
      name ≠ bytes "BASE_URL" ∧ name ≠ bytes "FULL_URL_WITH_QS" ∧
      name ≠ bytes "FULL_URL_WITHOUT_QS" := by decide
  obtain ⟨htype, hbase, hwith, hwithout⟩ := hne name hname
  simp only [initialVariables, AssocMap.lookup_insert, if_neg htype, if_neg hbase, if_neg hwith,
    if_neg hwithout, AssocMap.lookup_empty]

/-- The variables of the server are the parameters of their names. -/
theorem lookup_transport (order : HashOrder) (parameters : AssocMap Bytes Bytes)
    (hname : name ∈ HttpHandler.transportNames) :
    (environment order parameters).lookup name = parameters.lookup name := by
  have hheader : ∀ name ∈ HttpHandler.transportNames, name.take 5 ≠ bytes "HTTP_" := by decide
  have hupper := upper_of_mem_transportNames name hname
  have hfold := AssocMap.lookup_foldl_insertNew (fun e : Bytes × Bytes => envKey e.1) Prod.snd
    (order.order parameters.entries) (initialVariables parameters) name
  rw [lookup_initialVariables hname, Option.none_or] at hfold
  simp only [envKey_eq_iff hupper (hheader name hname)] at hfold
  exact hfold.trans (AssocMap.find_eq_lookup (order.perm _) name)

end FastcgippRequestAdapter

/-! ## Both handlers -/

/-- **No client can forge what the server says of a request.** Two requests that differ in their
headers alone give these variables the same values, which come from the transport, and a header
that is sent several times has the value that was sent first. -/
theorem environment_of_transport :
    (∀ (config : Config) (request : ServerRequest) (headers headers' : List (Bytes × Bytes)),
      ∃ container container',
        HttpHandler.requestInit config { request with headers := headers } = .ok container ∧
        HttpHandler.requestInit config { request with headers := headers' } = .ok container' ∧
        ∀ e ∈ HttpHandler.transportVariables config request.source request.sourcePort
            request.destination request.method,
          container.environment.lookup e.1 = container'.environment.lookup e.1 ∧
            container.environment.lookup e.1 = some e.2) ∧
    (∀ (order order' : HashOrder) (parameters parameters' : AssocMap Bytes Bytes),
      (∀ name, ¬ bytes "HTTP_" <+: name → parameters.lookup name = parameters'.lookup name) →
      ∀ name ∈ HttpHandler.transportNames,
        (FastcgippRequestAdapter.environment order parameters).lookup name =
            (FastcgippRequestAdapter.environment order' parameters').lookup name ∧
          (FastcgippRequestAdapter.environment order parameters).lookup name =
            parameters.lookup name) ∧
    ∀ (config : Config) (request : ServerRequest) (container : RequestInitContainer),
      HttpHandler.requestInit config request = .ok container →
      ∀ field ∈ request.headers,
        container.environment.lookup (utils.toLowercase field.1) =
          HttpHandler.header request (utils.toLowercase field.1) := by
  refine ⟨?_, ?_, fun _ _ _ h _ hfield => HttpHandler.lookup_header h hfield⟩
  · intro config request headers headers'
    obtain ⟨container, h⟩ :=
      HttpHandler.requestInit_returns config { request with headers := headers }
    obtain ⟨container', h'⟩ :=
      HttpHandler.requestInit_returns config { request with headers := headers' }
    refine ⟨container, container', h, h', fun e he => ?_⟩
    have hlookup := HttpHandler.lookup_transport h he
    exact ⟨hlookup.trans (HttpHandler.lookup_transport h' he).symm, hlookup⟩
  · intro order order' parameters parameters' hsame name hname
    have hheader : ∀ name ∈ HttpHandler.transportNames, ¬ bytes "HTTP_" <+: name := by decide
    have hlookup := FastcgippRequestAdapter.lookup_transport order parameters hname
    have hlookup' := FastcgippRequestAdapter.lookup_transport order' parameters' hname
    exact ⟨(hlookup.trans (hsame name (hheader name hname))).trans hlookup'.symm, hlookup⟩

/-- The order of insertion. -/
def insertionOrder : HashOrder := ⟨id, List.Perm.refl⟩

/-- The parameters of a request from the address 192.0.2.7. -/
def honestParameters : AssocMap Bytes Bytes :=
  AssocMap.empty.insert (bytes "REMOTE_ADDR") (bytes "192.0.2.7")

/-- A header of the variable's name does not change the address of the client. -/
theorem environment_of_transport_forger :
    (FastcgippRequestAdapter.environment insertionOrder
        (honestParameters.insert (bytes "HTTP_REMOTE_ADDR") (bytes "10.0.0.1"))).lookup
          (bytes "REMOTE_ADDR") =
      (FastcgippRequestAdapter.environment insertionOrder honestParameters).lookup
        (bytes "REMOTE_ADDR") :=
  (environment_of_transport.2.1 insertionOrder insertionOrder _ _ (fun name hname => by
    rw [AssocMap.lookup_insert, if_neg]
    rintro rfl
    exact hname (by decide)) _ List.mem_cons_self).1

end Nawa
