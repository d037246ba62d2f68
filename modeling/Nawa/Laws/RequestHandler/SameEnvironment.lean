import Mathlib.Data.List.Find
import Nawa.Laws.RequestHandler.Environment
import Nawa.Request.Request

/-!
# The same environment behind both handlers

A web server in front of the FastCGI handler makes a parameter of every header: the name in upper
case, with `_` for `-`, behind `HTTP_`. The handler turns such a parameter into a variable under
the name of the header again, so an application reads the same of a request there as it does of
the HTTP handler's own environment (`environments_agree`).

Two names are left out. The length of the content comes as `CONTENT_LENGTH`, which the FastCGI
handler does not rename. A header with an underscore in its name has the parameter of another one.
-/

namespace Nawa

open Lib (AssocMap)

/-! ## Names of headers and of parameters -/

/-- The name of the parameter for a header. -/
def cgiName (name : Bytes) : Bytes :=
  bytes "HTTP_" ++
    utils.replaceChars (utils.toUppercase name) [('-'.toUInt8, '_'.toUInt8)]

/-- The name of a header, in lower case. -/
structure HeaderName (name : Bytes) : Prop where
  lowercase : ∀ c ∈ name, tolower c = c
  noUnderscore : '_'.toUInt8 ∉ name
  letter : ∃ c ∈ name, toupper c ≠ c

/-- The name of a parameter has no letters in lower case. -/
structure ParameterName (k : Bytes) : Prop where
  uppercase : ∀ c ∈ k, toupper c = c
  noHyphen : '-'.toUInt8 ∉ k

/-- The character of a header's name for one of the parameter's. -/
def headerChar (c : UInt8) : UInt8 := if tolower c = '_'.toUInt8 then '-'.toUInt8 else tolower c

def parameterChar (c : UInt8) : UInt8 := if toupper c = '-'.toUInt8 then '_'.toUInt8 else toupper c

theorem headerChar_parameterChar {c : UInt8} (h : tolower c = c) (hne : c ≠ '_'.toUInt8) :
    headerChar (parameterChar c) = c := by
  have hhyphen : '-'.toUInt8 = 45 := rfl
  have hunderscore : '_'.toUInt8 = 95 := rfl
  rw [hunderscore] at hne
  simp only [headerChar, parameterChar, hhyphen, hunderscore]
  unfold tolower toupper at *
  grind

theorem parameterChar_headerChar {c : UInt8} (h : toupper c = c) (hne : c ≠ '-'.toUInt8) :
    parameterChar (headerChar c) = c := by
  have hhyphen : '-'.toUInt8 = 45 := rfl
  have hunderscore : '_'.toUInt8 = 95 := rfl
  rw [hhyphen] at hne
  simp only [headerChar, parameterChar, hhyphen, hunderscore]
  unfold tolower toupper at *
  grind

theorem cgiName_eq (name : Bytes) : cgiName name = bytes "HTTP_" ++ name.map parameterChar := by
  rw [cgiName, utils.replaceChars, List.foldl_cons, List.foldl_nil, utils.toUppercase,
    List.map_map]
  rfl

namespace FastcgippRequestAdapter

variable {name k : Bytes}

theorem envKey_of_http (hk : k.take 5 = bytes "HTTP_") : envKey k = (k.drop 5).map headerChar := by
  rw [envKey, if_pos hk, utils.replaceChars, List.foldl_cons, List.foldl_nil, utils.toLowercase,
    List.map_map]
  rfl

/-- Of the parameters, only the one for a header becomes its variable. -/
theorem envKey_eq_iff_cgiName (hname : HeaderName name) (hk : ParameterName k) :
    envKey k = name ↔ k = cgiName name := by
  constructor
  · intro heq
    by_cases hhttp : k.take 5 = bytes "HTTP_"
    · rw [envKey_of_http hhttp] at heq
      have hback : (k.drop 5).map (parameterChar ∘ headerChar) = (k.drop 5).map id := by
        refine List.map_congr_left fun c hc => ?_
        have hc' := List.mem_of_mem_drop hc
        exact parameterChar_headerChar (hk.uppercase c hc') fun hhyphen =>
          hk.noHyphen (hhyphen ▸ hc')
      rw [List.map_id] at hback
      rw [cgiName_eq, ← heq, List.map_map, hback, ← hhttp, List.take_append_drop]
    · rw [envKey, if_neg hhttp] at heq
      obtain ⟨c, hc, hletter⟩ := hname.letter
      exact absurd (hk.uppercase c (heq ▸ hc)) hletter
  · rintro rfl
    have hhttp : (cgiName name).take 5 = bytes "HTTP_" := by
      rw [cgiName_eq]
      exact List.take_left' rfl
    have hrest : (cgiName name).drop 5 = name.map parameterChar := by
      rw [cgiName_eq]
      exact List.drop_left' rfl
    have hback : name.map (headerChar ∘ parameterChar) = name.map id :=
      List.map_congr_left fun c hc => headerChar_parameterChar (hname.lowercase c hc) fun hunder =>
        hname.noUnderscore (hunder ▸ hc)
    rw [envKey_of_http hhttp, hrest, List.map_map, hback, List.map_id]

/-- The variable of a header is the parameter for it, unless it is there from the beginning. -/
theorem lookup_headerName (order : HashOrder) {parameters : AssocMap Bytes Bytes}
    (hnames : ∀ e ∈ parameters.entries, ParameterName e.1) (hname : HeaderName name) :
    (environment order parameters).lookup name =
      ((initialVariables parameters).lookup name).or (parameters.lookup (cgiName name)) := by
  have hfold := AssocMap.lookup_foldl_insertNew (fun e : Bytes × Bytes => envKey e.1) Prod.snd
    (order.order parameters.entries) (initialVariables parameters) name
  have hsame : (order.order parameters.entries).find? (fun e => envKey e.1 = name) =
      (order.order parameters.entries).find? (fun e => e.1 = cgiName name) := by
    apply List.find?_congr
    intro e he
    have hentry := hnames e ((order.perm _).mem_iff.mp he)
    exact decide_eq_decide.mpr (envKey_eq_iff_cgiName hname hentry)
  rw [hsame, AssocMap.find_eq_lookup (order.perm _)] at hfold
  exact hfold

/-- What is there from the beginning stays. -/
theorem lookup_of_initial (order : HashOrder) {parameters : AssocMap Bytes Bytes} {v : Bytes}
    (h : (initialVariables parameters).lookup name = some v) :
    (environment order parameters).lookup name = some v := by
  have hfold := AssocMap.lookup_foldl_insertNew (fun e : Bytes × Bytes => envKey e.1) Prod.snd
    (order.order parameters.entries) (initialVariables parameters) name
  rw [h, Option.some_or] at hfold
  exact hfold

end FastcgippRequestAdapter

/-! ## What the HTTP handler reads -/

namespace RequestInitContainer

variable {requestInit : RequestInitContainer} {name name' : Bytes}

theorem value_subscript :
    (requestInit.subscript name).2 = (requestInit.environment.lookup name).getD [] := by
  unfold subscript
  split
  · next value hvalue =>
    rw [hvalue]
    rfl
  · next hnone =>
    rw [hnone]
    rfl

/-- A variable that is created reads as it did before. -/
theorem getD_subscript : ((requestInit.subscript name).1.environment.lookup name').getD [] =
    (requestInit.environment.lookup name').getD [] := by
  by_cases h : name' = name
  · subst h
    unfold subscript
    split
    · rfl
    · next hnone =>
      rw [AssocMap.lookup_insert, if_pos rfl, hnone, Option.getD_some, Option.getD_none]
  · rw [lookup_subscript h]

end RequestInitContainer

namespace HttpHandler

variable {config : Config} {request : ServerRequest} {container : RequestInitContainer}
  {name : Bytes}

/-- A variable other than the URLs reads as what the headers have left. -/
theorem getD_requestInit (h : requestInit config request = .ok container)
    (hname : name ∉ urlNames) :
    (container.environment.lookup name).getD [] =
      ((request.headers.foldl addHeader (serverVariables config request)).lookup name).getD [] := by
  simp only [urlNames, List.mem_cons, List.not_mem_nil, or_false, not_or] at hname
  obtain ⟨hbase, hwith, hwithout⟩ := hname
  obtain ⟨vars, hvars⟩ := getVars_returns request.destination
  rw [requestInit, hvars] at h
  cases h
  refine RequestInitContainer.getD_subscript.trans ?_
  simp only [addUrls, AssocMap.lookup_insert, if_neg hbase, if_neg hwith, if_neg hwithout]
  exact RequestInitContainer.getD_subscript

/-- The variable of a header reads as the first header of its name. -/
theorem getD_headerName (h : requestInit config request = .ok container)
    (hname : HeaderName name) :
    (container.environment.lookup name).getD [] = (header request name).getD [] := by
  have hlower {names : List Bytes} (hnames : ∀ name ∈ names, ∃ c ∈ name, tolower c ≠ c) :
      name ∉ names := by
    intro hmem
    obtain ⟨c, hc, hupper⟩ := hnames name hmem
    exact hupper (hname.lowercase c hc)
  rw [getD_requestInit h (hlower upper_of_mem_urlNames), lookup_foldl_addHeader,
    lookup_serverVariables_of_not_mem (hlower upper_of_mem_transportNames), Option.none_or, header]

/-- The URLs, made of the host that the headers name. -/
def urls (host destination : Bytes) : List (Bytes × Bytes) :=
  [(bytes "BASE_URL", bytes "http://" ++ host),
    (bytes "FULL_URL_WITH_QS", bytes "http://" ++ host ++ destination),
    (bytes "FULL_URL_WITHOUT_QS", bytes "http://" ++ host ++ textBefore '?'.toUInt8 destination)]

theorem lookup_urls (h : requestInit config request = .ok container) {e : Bytes × Bytes}
    (he : e ∈ urls ((header request (bytes "host")).getD []) request.destination) :
    container.environment.lookup e.1 = some e.2 := by
  have hhost : bytes "host" ∉ transportNames := by decide
  obtain ⟨vars, hvars⟩ := getVars_returns request.destination
  rw [requestInit, hvars] at h
  cases h
  apply RequestInitContainer.lookup_subscript_of_some
  have hvalue : (header request (bytes "host")).getD [] =
      (RequestInitContainer.subscript
        { environment := request.headers.foldl addHeader (serverVariables config request) }
        (bytes "host")).2 := by
    rw [RequestInitContainer.value_subscript, lookup_foldl_addHeader,
      lookup_serverVariables_of_not_mem hhost, Option.none_or, header]
  have hbase : bytes "BASE_URL" ≠ bytes "FULL_URL_WITH_QS" ∧
      bytes "BASE_URL" ≠ bytes "FULL_URL_WITHOUT_QS" ∧
      bytes "FULL_URL_WITH_QS" ≠ bytes "FULL_URL_WITHOUT_QS" := by decide
  rw [hvalue] at he
  simp only [urls, List.mem_cons, List.not_mem_nil, or_false] at he
  rcases he with rfl | rfl | rfl
  · simp only [addUrls, AssocMap.lookup_insert, if_neg hbase.1, if_neg hbase.2.1, if_true]
  · simp only [addUrls, AssocMap.lookup_insert, if_neg hbase.2.2, if_true]
  · simp only [addUrls, AssocMap.lookup_insert, if_true]

end HttpHandler

/-! ## Both handlers -/

/-- What the request line and the connection say of a request. -/
def requestLine (request : ServerRequest) : List (Bytes × Bytes) :=
  [(bytes "REQUEST_URI", request.destination), (bytes "REMOTE_PORT", decimal request.sourcePort),
    (bytes "REQUEST_METHOD", request.method)]

/-- A web server hands a request over to the FastCGI handler, as CGI has it. -/
structure Forwards (request : ServerRequest) (parameters : AssocMap Bytes Bytes) : Prop where
  names : ∀ e ∈ parameters.entries, ParameterName e.1
  noHttps : parameters.lookup (bytes "HTTPS") = none
  line : ∀ e ∈ requestLine request, parameters.lookup e.1 = some e.2
  contentType : parameters.lookup (bytes "CONTENT_TYPE") =
    HttpHandler.header request (bytes "content-type")
  headers : ∀ name, HeaderName name → name ≠ bytes "content-type" →
    name ≠ bytes "content-length" →
      parameters.lookup (cgiName name) = HttpHandler.header request name

/-- The variables that both handlers make. -/
inductive SharedName (name : Bytes) : Prop
  | header (h : HeaderName name) (hlength : name ≠ bytes "content-length")
  | url (h : name ∈ urlNames)
  | line (h : name ∈ [bytes "REQUEST_URI", bytes "REMOTE_PORT", bytes "REQUEST_METHOD"])

variable {request : ServerRequest} {parameters : AssocMap Bytes Bytes}

theorem headerName_host : HeaderName (bytes "host") :=
  ⟨List.all_iff_forall_prop.mp (by decide), by decide,
    ⟨_, List.mem_cons_self, by decide⟩⟩

/-- The URLs are made of the same host. -/
theorem Forwards.lookup_initial (h : Forwards request parameters) {e : Bytes × Bytes}
    (he : e ∈ HttpHandler.urls ((HttpHandler.header request (bytes "host")).getD [])
      request.destination) :
    (FastcgippRequestAdapter.initialVariables parameters).lookup e.1 = some e.2 := by
  have hname : cgiName (bytes "host") = bytes "HTTP_HOST" := rfl
  have hhost := h.headers (bytes "host") headerName_host (by decide) (by decide)
  have hline := h.line (bytes "REQUEST_URI", request.destination) List.mem_cons_self
  have hbase : bytes "BASE_URL" ≠ bytes "FULL_URL_WITH_QS" ∧
      bytes "BASE_URL" ≠ bytes "FULL_URL_WITHOUT_QS" ∧
      bytes "FULL_URL_WITH_QS" ≠ bytes "FULL_URL_WITHOUT_QS" := by decide
  have hhttps : ¬ (parameters.lookup (bytes "HTTPS")).isSome = true := by
    rw [h.noHttps]
    exact Bool.false_ne_true
  rw [hname] at hhost
  simp only [HttpHandler.urls, List.mem_cons, List.not_mem_nil, or_false] at he
  rcases he with rfl | rfl | rfl
  · simp only [FastcgippRequestAdapter.initialVariables, AssocMap.lookup_insert, if_neg hbase.1,
      if_neg hbase.2.1, if_neg hhttps, hhost, if_true]
  · simp only [FastcgippRequestAdapter.initialVariables, AssocMap.lookup_insert,
      if_neg hbase.2.2, if_neg hhttps, hhost, hline, Option.getD_some, if_true]
  · simp only [FastcgippRequestAdapter.initialVariables, AssocMap.lookup_insert, if_neg hhttps,
      hhost, hline, Option.getD_some, if_true]

theorem Forwards.getD_headerName (h : Forwards request parameters) (order : HashOrder)
    {name : Bytes} (hname : HeaderName name) (hlength : name ≠ bytes "content-length") :
    ((FastcgippRequestAdapter.environment order parameters).lookup name).getD [] =
      (HttpHandler.header request name).getD [] := by
  have hinitial : (FastcgippRequestAdapter.initialVariables parameters).lookup name =
      if name = bytes "content-type" then
        some ((parameters.lookup (bytes "CONTENT_TYPE")).getD [])
      else none := by
    have hurls : name ∉ urlNames := by
      intro hmem
      obtain ⟨c, hc, hupper⟩ := upper_of_mem_urlNames name hmem
      exact hupper (hname.lowercase c hc)
    simp only [urlNames, List.mem_cons, List.not_mem_nil, or_false, not_or] at hurls
    obtain ⟨hbase, hwith, hwithout⟩ := hurls
    simp only [FastcgippRequestAdapter.initialVariables, AssocMap.lookup_insert, if_neg hbase,
      if_neg hwith, if_neg hwithout, AssocMap.lookup_empty]
  rw [FastcgippRequestAdapter.lookup_headerName order h.names hname, hinitial]
  by_cases htype : name = bytes "content-type"
  · rw [if_pos htype, Option.some_or, Option.getD_some, h.contentType, htype]
  · rw [if_neg htype, Option.none_or, h.headers name hname htype hlength]

/-- **An application reads the same environment behind both handlers**: the same headers, the same
request line and the same URLs. -/
theorem environments_agree (config : Config) (order : HashOrder)
    (h : Forwards request parameters) :
    ∃ container, HttpHandler.requestInit config request = .ok container ∧
      ∀ name, SharedName name →
        Nawa.request.Env.get ⟨container.environment⟩ name =
          Nawa.request.Env.get ⟨FastcgippRequestAdapter.environment order parameters⟩ name := by
  obtain ⟨container, hcontainer⟩ := HttpHandler.requestInit_returns config request
  refine ⟨container, hcontainer, fun name hname => ?_⟩
  show (container.environment.lookup name).getD [] =
    ((FastcgippRequestAdapter.environment order parameters).lookup name).getD []
  cases hname with
  | header hheader hlength =>
    rw [HttpHandler.getD_headerName hcontainer hheader, h.getD_headerName order hheader hlength]
  | url hurl =>
    have hmem : ∃ e ∈ HttpHandler.urls ((HttpHandler.header request (bytes "host")).getD [])
        request.destination, e.1 = name := List.mem_map.mp hurl
    obtain ⟨e, he, rfl⟩ := hmem
    rw [HttpHandler.lookup_urls hcontainer he,
      FastcgippRequestAdapter.lookup_of_initial order (h.lookup_initial he)]
  | line hline =>
    have hmem : ∃ e ∈ requestLine request, e.1 = name := List.mem_map.mp hline
    have hnames : ∀ name ∈ [bytes "REQUEST_URI", bytes "REMOTE_PORT", bytes "REQUEST_METHOD"],
        name ∈ HttpHandler.transportNames := by decide
    obtain ⟨e, he, rfl⟩ := hmem
    have hvariable : e ∈ HttpHandler.transportVariables config request.source request.sourcePort
        request.destination request.method := by
      simp only [requestLine, List.mem_cons, List.not_mem_nil, or_false] at he
      simp only [HttpHandler.transportVariables, List.mem_cons]
      rcases he with rfl | rfl | rfl
      · exact .inr (.inl rfl)
      · exact .inr (.inr (.inl rfl))
      · exact .inr (.inr (.inr (.inl rfl)))
    rw [HttpHandler.lookup_transport hcontainer hvariable,
      FastcgippRequestAdapter.lookup_transport order parameters (hnames _ hline), h.line e he]

/-- A request with one header, and what a web server makes of it. -/
def agentRequest : ServerRequest :=
  { method := bytes "GET"
    destination := bytes "/a?b=c"
    headers := [(bytes "User-Agent", bytes "x")] }

def agentParameters : AssocMap Bytes Bytes :=
  (((AssocMap.empty.insert (bytes "REQUEST_URI") (bytes "/a?b=c")).insert
    (bytes "REMOTE_PORT") (bytes "0")).insert (bytes "REQUEST_METHOD") (bytes "GET")).insert
    (bytes "HTTP_USER_AGENT") (bytes "x")

theorem parameterName_agent : ParameterName (bytes "HTTP_USER_AGENT") :=
  ⟨List.all_iff_forall_prop.mp (by decide), by decide⟩

theorem lookup_agentParameters {name : Bytes} (hname : HeaderName name) :
    agentParameters.lookup (cgiName name) = HttpHandler.header agentRequest name := by
  have hkey : FastcgippRequestAdapter.envKey (bytes "HTTP_USER_AGENT") = bytes "user-agent" := rfl
  have hagent : bytes "HTTP_USER_AGENT" = cgiName name ↔ bytes "user-agent" = name :=
    (FastcgippRequestAdapter.envKey_eq_iff_cgiName hname parameterName_agent).symm.trans
      (by rw [hkey])
  have hother : ∀ k ∈ [bytes "REQUEST_METHOD", bytes "REMOTE_PORT", bytes "REQUEST_URI"],
      cgiName name ≠ k := by
    intro k hk heq
    have htake : k.take 5 = bytes "HTTP_" := by
      rw [← heq, cgiName_eq]
      exact List.take_left' rfl
    have hnone : ∀ k ∈ [bytes "REQUEST_METHOD", bytes "REMOTE_PORT", bytes "REQUEST_URI"],
        k.take 5 ≠ bytes "HTTP_" := by decide
    exact hnone k hk htake
  have hmethod := hother _ List.mem_cons_self
  have hport := hother _ (List.mem_cons_of_mem _ List.mem_cons_self)
  have huri := hother _ (List.mem_cons_of_mem _ (List.mem_cons_of_mem _ List.mem_cons_self))
  have hlower : utils.toLowercase (bytes "User-Agent") = bytes "user-agent" := rfl
  simp only [agentParameters, AssocMap.lookup_insert, if_neg hmethod, if_neg hport, if_neg huri,
    AssocMap.lookup_empty, HttpHandler.header, agentRequest, List.find?_cons, List.find?_nil,
    hlower]
  by_cases hname' : bytes "user-agent" = name
  · rw [if_pos (hagent.mpr hname').symm, decide_eq_true hname']
    rfl
  · rw [if_neg fun heq => hname' (hagent.mp heq.symm), decide_eq_false hname']
    rfl

theorem forwards_agent : Forwards agentRequest agentParameters where
  names := by
    have hentries : agentParameters.entries.map Prod.fst = [bytes "REQUEST_URI",
        bytes "REMOTE_PORT", bytes "REQUEST_METHOD", bytes "HTTP_USER_AGENT"] := rfl
    intro e he
    have hmem := List.mem_map_of_mem (f := Prod.fst) he
    rw [hentries] at hmem
    have hall : ∀ k ∈ [bytes "REQUEST_URI", bytes "REMOTE_PORT", bytes "REQUEST_METHOD",
        bytes "HTTP_USER_AGENT"], ParameterName k := by
      simp only [List.forall_mem_cons]
      refine ⟨⟨?_, by decide⟩, ⟨?_, by decide⟩, ⟨?_, by decide⟩, parameterName_agent,
        fun k hk => absurd hk List.not_mem_nil⟩
      · exact List.all_iff_forall_prop.mp (by decide)
      · exact List.all_iff_forall_prop.mp (by decide)
      · exact List.all_iff_forall_prop.mp (by decide)
    exact hall _ hmem
  noHttps := rfl
  line := by
    simp only [requestLine, List.forall_mem_cons]
    exact ⟨rfl, rfl, rfl, fun e he => absurd he List.not_mem_nil⟩
  contentType := rfl
  headers := fun _ hname _ _ => lookup_agentParameters hname

theorem environments_agree_agent :
    ∃ container, HttpHandler.requestInit {} agentRequest = .ok container ∧
      ∀ name, SharedName name →
        Nawa.request.Env.get ⟨container.environment⟩ name =
          Nawa.request.Env.get
            ⟨FastcgippRequestAdapter.environment insertionOrder agentParameters⟩ name :=
  environments_agree {} insertionOrder forwards_agent

end Nawa
