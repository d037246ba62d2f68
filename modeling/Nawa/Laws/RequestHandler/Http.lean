import Nawa.Laws.Util.QueryString
import Nawa.RequestHandler.Http

/-!
# What comes of a request to the HTTP handler

Filling the container of a request never fails (`requestInit_returns`), so what a call does about
a request is decided by the size of its body and by whoever handles it. `Outcome` asks of a call
that it does exactly one of the things a handler can do.
-/

namespace Nawa

open Lib (AssocMap)

/-! ## The container -/

namespace RequestInitContainer

variable {requestInit : RequestInitContainer} {name name' : Bytes}

/-- Reading a variable answers with its value, and touches nothing but the environment. -/
theorem subscript_eq (requestInit : RequestInitContainer) (name : Bytes) :
    ∃ environment, requestInit.subscript name =
      ({ requestInit with environment := environment },
        (requestInit.environment.lookup name).getD []) := by
  unfold subscript
  cases requestInit.environment.lookup name with
  | some v => exact ⟨requestInit.environment, rfl⟩
  | none => exact ⟨requestInit.environment.insert name [], rfl⟩

/-- Reading a variable changes no other one. -/
theorem lookup_subscript (h : name' ≠ name) :
    (requestInit.subscript name).1.environment.lookup name' =
      requestInit.environment.lookup name' := by
  unfold subscript
  split
  · rfl
  · rw [AssocMap.lookup_insert, if_neg h]

/-- Reading a variable keeps the values that there are. -/
theorem lookup_subscript_of_some {v : Bytes}
    (h : requestInit.environment.lookup name' = some v) :
    (requestInit.subscript name).1.environment.lookup name' = some v := by
  by_cases hname : name' = name
  · subst hname
    simp only [subscript, h]
  · rw [lookup_subscript hname, h]

end RequestInitContainer

namespace HttpHandler

/-- The first header of a name, which may be spelled in any case. -/
def header (request : ServerRequest) (name : Bytes) : Option Bytes :=
  (request.headers.find? fun h => utils.toLowercase h.1 = name).map (·.2)

theorem lookup_foldl_addHeader {name : Bytes} (headers : List (Bytes × Bytes))
    {environment : AssocMap Bytes Bytes} :
    (headers.foldl addHeader environment).lookup name =
      (environment.lookup name).or
        ((headers.find? fun h => utils.toLowercase h.1 = name).map (·.2)) := by
  have hnew : addHeader = fun environment h =>
      environment.insertNew (utils.toLowercase h.1) h.2 := by
    funext environment h
    rw [addHeader, AssocMap.insertNew]
    cases environment.lookup (utils.toLowercase h.1) <;> rfl
  rw [hnew]
  exact AssocMap.lookup_foldl_insertNew (fun h : Bytes × Bytes => utils.toLowercase h.1) Prod.snd
    headers environment name

theorem getVars_returns (destination : Bytes) : ∃ vars, getVars destination = .ok vars := by
  unfold getVars
  split
  · exact utils.splitQueryString_returns destination
  · exact ⟨[], rfl⟩

theorem requestInit_returns (config : Config) (request : ServerRequest) :
    ∃ container, requestInit config request = .ok container := by
  obtain ⟨vars, hvars⟩ := getVars_returns request.destination
  rw [requestInit, hvars]
  exact ⟨_, rfl⟩

theorem lookup_addUrls {requestInit : RequestInitContainer} {destination name : Bytes}
    (hname : name ∉ [bytes "host", bytes "BASE_URL", bytes "FULL_URL_WITH_QS",
      bytes "FULL_URL_WITHOUT_QS"]) :
    (addUrls requestInit destination).environment.lookup name =
      requestInit.environment.lookup name := by
  simp only [List.mem_cons, List.not_mem_nil, or_false, not_or] at hname
  obtain ⟨hhost, hbase, hwith, hwithout⟩ := hname
  simp only [addUrls, AssocMap.lookup_insert, if_neg hbase, if_neg hwith, if_neg hwithout]
  exact RequestInitContainer.lookup_subscript hhost

/-- The names of the variables that only the server sets. -/
def transportNames : List Bytes :=
  [bytes "REMOTE_ADDR", bytes "REQUEST_URI", bytes "REMOTE_PORT", bytes "REQUEST_METHOD",
    bytes "SERVER_ADDR", bytes "SERVER_PORT", bytes "SERVER_SOFTWARE"]

/-- What the connection of the client, the request line and the configuration say of a request. -/
def transportVariables (config : Config) (source : Bytes) (sourcePort : Nat)
    (destination method : Bytes) : List (Bytes × Bytes) :=
  [(bytes "REMOTE_ADDR", textBefore ':'.toUInt8 source),
    (bytes "REQUEST_URI", destination),
    (bytes "REMOTE_PORT", decimal sourcePort),
    (bytes "REQUEST_METHOD", method),
    (bytes "SERVER_ADDR", getListenAddr config),
    (bytes "SERVER_PORT", getListenPort config),
    (bytes "SERVER_SOFTWARE", bytes "NAWA Development Web Server")]

theorem lookup_serverVariables_of_mem {config : Config} {request : ServerRequest}
    {e : Bytes × Bytes} (h : e ∈ transportVariables config request.source request.sourcePort
      request.destination request.method) :
    (serverVariables config request).lookup e.1 = some e.2 := by
  have hnodup : transportNames.Nodup := by decide
  exact AssocMap.lookup_foldl_insert_of_mem hnodup h

theorem lookup_serverVariables_of_not_mem {config : Config} {request : ServerRequest}
    {name : Bytes} (h : name ∉ transportNames) :
    (serverVariables config request).lookup name = none :=
  AssocMap.lookup_foldl_insert_of_not_mem h

/-- A variable that only a header can set is the first header of its name. -/
theorem lookup_field {config : Config} {request : ServerRequest}
    {container : RequestInitContainer} {name : Bytes}
    (h : requestInit config request = .ok container)
    (hname : name ∉ transportNames ++ [bytes "host", bytes "BASE_URL", bytes "FULL_URL_WITH_QS",
      bytes "FULL_URL_WITHOUT_QS", bytes "cookie"]) :
    container.environment.lookup name = header request name := by
  rw [List.mem_append, not_or] at hname
  obtain ⟨hserver, hother⟩ := hname
  have hcookie : name ≠ bytes "cookie" := by
    rintro rfl
    exact hother (by decide)
  have hurls : name ∉ [bytes "host", bytes "BASE_URL", bytes "FULL_URL_WITH_QS",
      bytes "FULL_URL_WITHOUT_QS"] := fun hmem => hother (List.mem_append_left [_] hmem)
  obtain ⟨vars, hvars⟩ := getVars_returns request.destination
  rw [requestInit, hvars] at h
  cases h
  exact (RequestInitContainer.lookup_subscript hcookie).trans <| (lookup_addUrls hurls).trans <| by
    rw [lookup_foldl_addHeader, lookup_serverVariables_of_not_mem hserver, Option.none_or, header]

/-- The length that the handler reads is the one of the first header that gives one. -/
theorem lookup_contentLength {config : Config} {request : ServerRequest}
    {container : RequestInitContainer} (h : requestInit config request = .ok container) :
    container.environment.lookup (bytes "content-length") =
      header request (bytes "content-length") :=
  lookup_field h (by decide)

end HttpHandler

namespace InputConsumingHttpHandler

theorem parseBody_returns (consumer : InputConsumingHttpHandler)
    (requestInit : RequestInitContainer) :
    ∃ container, consumer.parseBody requestInit = .ok container := by
  unfold parseBody
  dsimp only
  split
  · obtain ⟨postVars, hpostVars⟩ := utils.splitQueryString_returns consumer.postBody
    rw [hpostVars]
    exact ⟨_, rfl⟩
  · repeat' split
    all_goals exact ⟨_, rfl⟩

end InputConsumingHttpHandler

/-! ## Outcomes -/

/-- A call returns, and it has written an error response, or handled and flushed the request, or
registered a read. -/
def HttpCall.Outcome (call : HttpCall) : Prop :=
  call.failure = none ∧
    (call.actions = [.serverError] ∨
      (∃ requestInit, call.actions = [.handleRequest requestInit, .flushResponse]) ∨
      ∃ consumer, call.actions = [.read consumer])

theorem outcome_handleAndFlush {handled : RequestInitContainer → Except Failure Unit}
    {requestInit : RequestInitContainer} :
    (handleAndFlush handled requestInit).Outcome ↔ handled requestInit = .ok () := by
  unfold handleAndFlush
  cases hhandled : handled requestInit with
  | ok => exact iff_of_true ⟨rfl, .inr (.inl ⟨_, rfl⟩)⟩ rfl
  | error e => exact iff_of_false (fun h => nomatch h.1) nofun

/-- The length of a body and the configured limit are numbers, and the limit has a number of
bytes. -/
def SizesReadable (config : Config) (contentLength : Bytes) : Prop :=
  (∃ n, stoul contentLength = .ok n) ∧
    ∃ maxSize, stol (config.get (bytes "post") (bytes "max_size")) = .ok maxSize ∧
      -2 ^ 63 ≤ maxSize * 1024 ∧ maxSize * 1024 < 2 ^ 63

/-- A POST request with a length has readable sizes, and of any other request the handling
returns. -/
def Answerable (handled : RequestInitContainer → Except Failure Unit) (config : Config)
    (request : ServerRequest) : Prop :=
  (∀ contentLength, request.method = bytes "POST" →
      HttpHandler.header request (bytes "content-length") = some contentLength →
      SizesReadable config contentLength) ∧
    (request.method ≠ bytes "POST" ∨
        HttpHandler.header request (bytes "content-length") = none →
      ∀ requestInit, HttpHandler.requestInit config request = .ok requestInit →
        handled requestInit = .ok ())

/-- Without a body to be read, a request is handled. -/
theorem HttpHandler.dispatch_handle (config : Config) {method : Bytes} {request : Request}
    (h : method ≠ bytes "POST" ∨ request.env.lookup (bytes "content-length") = none) :
    dispatch config method request = .handle := by
  unfold dispatch
  split
  · rfl
  · next hpost =>
    rcases h with hne | hnone
    · exact absurd hne hpost
    · rw [hnone]

/-- With readable sizes a body is read or refused, and otherwise nothing is done. -/
theorem HttpHandler.dispatch_sizes (config : Config) {request : Request} {v : Bytes}
    (h : request.env.lookup (bytes "content-length") = some v) :
    SizesReadable config v ∧ (dispatch config (bytes "POST") request = .serverError ∨
        ∃ consumer, dispatch config (bytes "POST") request = .read consumer) ∨
      ¬ SizesReadable config v ∧ (dispatch config (bytes "POST") request = .dropped ∨
        dispatch config (bytes "POST") request = .undefined) := by
  unfold dispatch SizesReadable
  rw [if_neg (not_not.mpr rfl), h]
  dsimp only
  cases stoul v with
  | error e => exact .inr ⟨fun ⟨⟨_, hn⟩, _⟩ => (nomatch hn), .inl rfl⟩
  | ok n =>
    cases stol (config.get (bytes "post") (bytes "max_size")) with
    | error e => exact .inr ⟨fun ⟨_, _, hm, _⟩ => (nomatch hm), .inl rfl⟩
    | ok m =>
      dsimp only
      by_cases hfits : m * 1024 < -2 ^ 63 ∨ 2 ^ 63 ≤ m * 1024
      · rw [if_pos hfits]
        refine .inr ⟨?_, .inr rfl⟩
        rintro ⟨-, m', hm, hlow, hhigh⟩
        cases hm
        omega
      · rw [if_neg hfits]
        refine .inl ⟨⟨⟨n, rfl⟩, m, rfl, by omega, by omega⟩, ?_⟩
        split
        · exact .inl rfl
        · exact .inr ⟨_, rfl⟩

theorem HttpHandler.outcome_operator_iff {handled : RequestInitContainer → Except Failure Unit}
    {config : Config} {request : ServerRequest} :
    (HttpHandler.operator handled config request).Outcome ↔
      Answerable handled config request := by
  obtain ⟨requestInit, hinit⟩ := HttpHandler.requestInit_returns config request
  have hlength : requestInit.request.env.lookup (bytes "content-length") =
      HttpHandler.header request (bytes "content-length") :=
    HttpHandler.lookup_contentLength hinit
  unfold HttpHandler.operator Answerable
  simp only [hinit, Except.ok.injEq, forall_eq']
  by_cases hbody : request.method ≠ bytes "POST" ∨
      HttpHandler.header request (bytes "content-length") = none
  · have hdispatch : HttpHandler.dispatch config request.method requestInit.request = .handle :=
      HttpHandler.dispatch_handle config (hlength ▸ hbody)
    rw [hdispatch]
    refine outcome_handleAndFlush.trans ⟨fun h => ⟨?_, fun _ => h⟩, fun h => h.2 hbody⟩
    intro v hpost hheader
    rcases hbody with hne | hnone
    · exact absurd hpost hne
    · exact nomatch hheader.symm.trans hnone
  · obtain ⟨hpost, hsome⟩ := not_or.mp hbody
    obtain ⟨v, hheader⟩ := Option.ne_none_iff_exists'.mp hsome
    have hanswerable : ((∀ contentLength, request.method = bytes "POST" →
          HttpHandler.header request (bytes "content-length") = some contentLength →
          SizesReadable config contentLength) ∧
        (request.method ≠ bytes "POST" ∨
          HttpHandler.header request (bytes "content-length") = none →
          handled requestInit = .ok ())) ↔ SizesReadable config v := by
      refine ⟨fun h => h.1 v (not_not.mp hpost) hheader, fun h => ⟨?_, fun h' => absurd h' hbody⟩⟩
      intro v' _ hheader'
      exact Option.some.inj (hheader.symm.trans hheader') ▸ h
    rw [hanswerable, not_not.mp hpost]
    rcases HttpHandler.dispatch_sizes config (hlength.trans hheader) with
      ⟨hreadable, hrefused | ⟨consumer, hread⟩⟩ | ⟨hunreadable, hdropped | hundefined⟩
    · rw [hrefused]
      exact iff_of_true ⟨rfl, .inl rfl⟩ hreadable
    · rw [hread]
      exact iff_of_true ⟨rfl, .inr (.inr ⟨consumer, rfl⟩)⟩ hreadable
    · rw [hdropped]
      refine iff_of_false ?_ hunreadable
      rintro ⟨-, h | ⟨_, h⟩ | ⟨_, h⟩⟩ <;> cases h
    · rw [hundefined]
      exact iff_of_false (fun h => nomatch h.1) hunreadable

/-! ## Read callbacks -/

namespace InputConsumingHttpHandler

/-- The data that a callback brings fits into the limit. -/
def Fits (consumer : InputConsumingHttpHandler) (bytesTransferred : Nat) : Prop :=
  consumer.postBody.length + bytesTransferred ≤ toSizeT consumer.maxPostSize

/-- The data that a callback brings completes the body. -/
def Completes (consumer : InputConsumingHttpHandler) (input : Bytes) : Prop :=
  consumer.expectedSize ≤ consumer.postBody.length + input.length

/-- The consumer with the data that a callback brings. -/
def append (consumer : InputConsumingHttpHandler) (input : Bytes) : InputConsumingHttpHandler :=
  { consumer with postBody := consumer.postBody ++ input }

/-- A callback with an error has the end of the stream, too much data, or the end of the body;
and where it completes the body, the handling returns. -/
def Continuable (handled : RequestInitContainer → Except Failure Unit)
    (requestInit : RequestInitContainer) (consumer : InputConsumingHttpHandler) (input : Bytes)
    (ec : ErrorCode) (bytesTransferred : Nat) : Prop :=
  (ec ≠ .success → ec ≠ .eof → consumer.Fits bytesTransferred → consumer.Completes input) ∧
    (ec ≠ .eof → consumer.Fits bytesTransferred → consumer.Completes input →
      ∀ container, (consumer.append input).parseBody requestInit = .ok container →
        handled container = .ok ())

theorem consume_eq (consumer : InputConsumingHttpHandler) (input : Bytes) (ec : ErrorCode)
    (bytesTransferred : Nat) :
    (ec = .eof ∨ ¬ consumer.Fits bytesTransferred) ∧
        consumer.consume input (ec = .eof) bytesTransferred = .serverError ∨
      ec ≠ .eof ∧ consumer.Fits bytesTransferred ∧ ¬ consumer.Completes input ∧
        consumer.consume input (ec = .eof) bytesTransferred = .readMore (consumer.append input) ∨
      ec ≠ .eof ∧ consumer.Fits bytesTransferred ∧ consumer.Completes input ∧
        consumer.consume input (ec = .eof) bytesTransferred =
          .complete (consumer.append input) := by
  unfold consume Fits Completes
  simp only [List.length_append, decide_eq_true_eq, gt_iff_lt, append]
  by_cases heof : ec = .eof
  · exact .inl ⟨.inl heof, if_pos heof⟩
  · rw [if_neg heof]
    by_cases hfits : toSizeT consumer.maxPostSize < consumer.postBody.length + bytesTransferred
    · exact .inl ⟨.inr (Nat.not_le.mpr hfits), if_pos hfits⟩
    · rw [if_neg hfits]
      by_cases hmore : consumer.postBody.length + input.length < consumer.expectedSize
      · exact .inr (.inl ⟨heof, Nat.not_lt.mp hfits, Nat.not_le.mpr hmore, if_pos hmore⟩)
      · exact .inr (.inr ⟨heof, Nat.not_lt.mp hfits, Nat.not_lt.mp hmore, if_neg hmore⟩)

theorem outcome_operator_iff {handled : RequestInitContainer → Except Failure Unit}
    {requestInit : RequestInitContainer} {consumer : InputConsumingHttpHandler} {input : Bytes}
    {ec : ErrorCode} {bytesTransferred : Nat} :
    (consumer.operator handled requestInit input ec bytesTransferred).Outcome ∧
        (ec ≠ .success → ∀ consumer', .read consumer' ∉
          (consumer.operator handled requestInit input ec bytesTransferred).actions) ↔
      Continuable handled requestInit consumer input ec bytesTransferred := by
  unfold operator Continuable
  rcases consume_eq consumer input ec bytesTransferred with ⟨hstop, hconsume⟩ |
    ⟨heof, hfits, hmore, hconsume⟩ | ⟨heof, hfits, hcomplete, hconsume⟩
  · rw [hconsume]
    refine iff_of_true ⟨⟨rfl, .inl rfl⟩, fun _ _ h => nomatch List.mem_singleton.mp h⟩ ⟨?_, ?_⟩
    · intro _ heof hfits
      exact absurd hfits (hstop.resolve_left heof)
    · intro heof hfits
      exact absurd hfits (hstop.resolve_left heof)
  · rw [hconsume]
    constructor
    · rintro ⟨-, hread⟩
      refine ⟨fun hec => ?_, fun _ _ hcomplete => absurd hcomplete hmore⟩
      exact absurd (List.mem_singleton_self _) (hread hec _)
    · rintro ⟨hec, -⟩
      refine ⟨⟨rfl, .inr (.inr ⟨_, rfl⟩)⟩, fun hne => ?_⟩
      exact absurd (hec hne heof hfits) hmore
  · obtain ⟨container, hparse⟩ := parseBody_returns (consumer.append input) requestInit
    rw [hconsume]
    simp only [hparse, Except.ok.injEq, forall_eq']
    constructor
    · rintro ⟨houtcome, -⟩
      exact ⟨fun _ _ _ => hcomplete, fun _ _ _ => outcome_handleAndFlush.mp houtcome⟩
    · rintro ⟨-, hhandled⟩
      have hok := hhandled heof hfits hcomplete
      refine ⟨outcome_handleAndFlush.mpr hok, fun _ consumer' hmem => ?_⟩
      rw [handleAndFlush, hok] at hmem
      simp only [List.mem_cons, reduceCtorEq, List.not_mem_nil, or_self] at hmem

end InputConsumingHttpHandler

/-- **Which requests and which callbacks get an outcome.** A request does unless it is a POST
request with sizes that cannot be read, and a callback does unless it brings an error other than
the end of the stream before the body is complete; apart from that only a handling that does not
return is in the way. -/
theorem outcome_iff (handled : RequestInitContainer → Except Failure Unit) (config : Config)
    (request : ServerRequest) (requestInit : RequestInitContainer)
    (consumer : InputConsumingHttpHandler) (input : Bytes)
    (ec : InputConsumingHttpHandler.ErrorCode) (bytesTransferred : Nat) :
    ((HttpHandler.operator handled config request).Outcome ↔
        Answerable handled config request) ∧
      ((consumer.operator handled requestInit input ec bytesTransferred).Outcome ∧
          (ec ≠ .success → ∀ consumer', .read consumer' ∉
            (consumer.operator handled requestInit input ec bytesTransferred).actions) ↔
        InputConsumingHttpHandler.Continuable handled requestInit consumer input ec
          bytesTransferred) :=
  ⟨HttpHandler.outcome_operator_iff, InputConsumingHttpHandler.outcome_operator_iff⟩

/-- A POST request with a malformed length. -/
def malformedLength : ServerRequest :=
  { method := bytes "POST"
    destination := bytes "/"
    headers := [(bytes "Content-Length", bytes "x")] }

/-- Nothing at all is done about a malformed length. -/
theorem no_outcome_malformedLength :
    ¬ ∀ (config : Config) (request : ServerRequest),
      (HttpHandler.operator (fun _ => .ok ()) config request).Outcome := by
  intro hall
  have hcall : HttpHandler.operator (fun _ => .ok ()) {} malformedLength = {} := by decide
  have houtcome := hall {} malformedLength
  rw [hcall] at houtcome
  obtain ⟨-, h | ⟨_, h⟩ | ⟨_, h⟩⟩ := houtcome <;> cases h

end Nawa
