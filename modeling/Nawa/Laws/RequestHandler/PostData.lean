import Nawa.Laws.RequestHandler.Http

/-!
# The data of a POST body

`Classified` is what an application is to find in `post()` for a body of some content type, and
`NoPairLost` that the pieces of a form are all among the variables. The handler knows a form only
by a content type that is nothing but the media type, tells the application of no other content
type, and reads what stands in front of a question mark as a path.
-/

namespace Nawa

open Lib.Search
open utils (queryEntry splitQueryString splitString)

/-! ## Content types -/

/-- The content type that the client has submitted, or nothing. -/
def submittedType (request : ServerRequest) : Bytes :=
  (HttpHandler.header request (bytes "content-type")).getD []

/-- What stands before the first semicolon, without blanks around it, in lower case. -/
def mediaType (contentType : Bytes) : Bytes :=
  trim (HttpHandler.textBefore ';'.toUInt8 (utils.toLowercase contentType))

def formType : Bytes := bytes "application/x-www-form-urlencoded"

def multipartType : Bytes := bytes "multipart/form-data"

/-- What is to be found of the body of a POST request. -/
structure Classified (rawPostAccess : RawPostAccess) (submitted body : Bytes)
    (container : RequestInitContainer) : Prop where
  contentType : container.postContentType = submitted
  form : mediaType submitted = formType → splitQueryString body = .ok container.postVars
  multipart : mediaType submitted = multipartType → ∀ postData,
    MimeMultipart.parse {} submitted body = (postData, .ok ()) →
      container.postVars = (postData.parts.filter fun p =>
          !InputConsumingHttpHandler.isFile p).map (fun p => (p.partName, p.content)) ∧
        container.postFiles = (postData.parts.filter InputConsumingHttpHandler.isFile).map
          (fun p => (p.partName, ⟨p.content, p.contentType, p.filename⟩))
  raw : container.rawPost =
    if rawPostAccess = .always ∨ rawPostAccess ≠ .never ∧ mediaType submitted ≠ formType ∧
      mediaType submitted ≠ multipartType then some body else none

/-- The variables have exactly one entry for each piece of the body. -/
def NoPairLost (body : Bytes) (postVars : List (Bytes × Bytes)) : Prop :=
  postVars.Perm ((splitString body '&'.toUInt8 true).map queryEntry)

/-! ## Media types -/

theorem trim_prefix (s : Bytes) : trim s <+: trimLeft s := by
  rw [trim, ← List.reverse_suffix, List.reverse_reverse]
  exact List.dropWhile_suffix _

theorem textBefore_append {c : UInt8} {s : Bytes} (h : c ∉ s) (t : Bytes) :
    HttpHandler.textBefore c (s ++ t) = s ++ HttpHandler.textBefore c t := by
  rw [HttpHandler.textBefore, HttpHandler.textBefore, findElem_append_of_not_mem h]
  cases findElem c t with
  | none => rfl
  | some n =>
    rw [Option.map_some]
    dsimp only
    rw [Nat.add_comm, List.take_length_add_append]

/-- A content type that begins as multipart does is not that of a form. -/
theorem mediaType_ne_formType {submitted : Bytes}
    (h : (utils.toLowercase submitted).take multipartType.length = multipartType) :
    mediaType submitted ≠ formType := by
  intro hmedia
  obtain ⟨rest, hrest⟩ : multipartType <+: utils.toLowercase submitted :=
    List.prefix_iff_eq_take.mpr h.symm
  have hsemicolon : ';'.toUInt8 ∉ multipartType := by decide
  have htrim := trim_prefix (multipartType ++ HttpHandler.textBefore ';'.toUInt8 rest)
  rw [mediaType, ← hrest, textBefore_append hsemicolon] at hmedia
  rw [hmedia, trimLeft_eq_self.mpr fun c hc => ?_] at htrim
  · obtain ⟨t, ht⟩ := htrim
    have hhead : some 'a'.toUInt8 = some 'm'.toUInt8 := congrArg List.head? ht
    exact absurd hhead (by decide)
  · have hhead : some 'm'.toUInt8 = some c := hc
    cases hhead
    decide

/-! ## What the handler makes of a body -/

namespace InputConsumingHttpHandler

variable {consumer : InputConsumingHttpHandler} {requestInit container : RequestInitContainer}

/-- A container that has no data of a POST body yet. -/
structure Untouched (requestInit : RequestInitContainer) : Prop where
  postVars : requestInit.postVars = []
  postFiles : requestInit.postFiles = []
  postContentType : requestInit.postContentType = []
  rawPost : requestInit.rawPost = none

theorem Untouched.subscript (h : Untouched requestInit) (name : Bytes) :
    Untouched (requestInit.subscript name).1 := by
  obtain ⟨environment, heq⟩ := requestInit.subscript_eq name
  rw [heq]
  exact ⟨h.postVars, h.postFiles, h.postContentType, h.rawPost⟩

theorem Untouched.addUrls (h : Untouched requestInit) (destination : Bytes) :
    Untouched (HttpHandler.addUrls requestInit destination) :=
  have hhost := h.subscript (bytes "host")
  ⟨hhost.postVars, hhost.postFiles, hhost.postContentType, hhost.rawPost⟩

theorem untouched_requestInit {config : Config} {request : ServerRequest}
    (h : HttpHandler.requestInit config request = .ok requestInit) : Untouched requestInit := by
  obtain ⟨vars, hvars⟩ := HttpHandler.getVars_returns request.destination
  rw [HttpHandler.requestInit, hvars] at h
  cases h
  have hempty : ∀ environment, Untouched { environment := environment } :=
    fun _ => ⟨rfl, rfl, rfl, rfl⟩
  have hurls := (hempty (request.headers.foldl HttpHandler.addHeader
    (HttpHandler.serverVariables config request))).addUrls request.destination
  generalize HttpHandler.addUrls _ request.destination = r at hurls ⊢
  have hvars : Untouched { r with getVars := vars } :=
    ⟨hurls.postVars, hurls.postFiles, hurls.postContentType, hurls.rawPost⟩
  have hcookie := hvars.subscript (bytes "cookie")
  exact ⟨hcookie.postVars, hcookie.postFiles, hcookie.postContentType, hcookie.rawPost⟩

/-- The content type that the handler finds in the container. -/
def foundType (requestInit : RequestInitContainer) : Bytes :=
  (requestInit.environment.lookup (bytes "content-type")).getD []

theorem parseBody_form (hform : utils.toLowercase (foundType requestInit) = formType)
    (h : consumer.parseBody requestInit = .ok container) :
    container.postContentType = formType ∧
      splitQueryString consumer.postBody = .ok container.postVars ∧
      container.rawPost = if consumer.rawPostAccess = .always then some consumer.postBody
        else requestInit.rawPost := by
  obtain ⟨environment, heq⟩ := requestInit.subscript_eq (bytes "content-type")
  obtain ⟨pairs, hpairs⟩ := utils.splitQueryString_returns consumer.postBody
  rw [parseBody, heq] at h
  dsimp only at h
  rw [foundType, formType] at hform
  rw [if_pos hform, hpairs] at h
  cases h
  refine ⟨hform, hpairs, ?_⟩
  dsimp only
  split <;> rfl

theorem foldl_addPart_postContentType (parts : List MimeMultipart.Part)
    (requestInit : RequestInitContainer) :
    (parts.foldl addPart requestInit).postContentType = requestInit.postContentType := by
  induction parts generalizing requestInit with
  | nil => rfl
  | cons p parts ih =>
    rw [List.foldl_cons, ih, addPart]
    split <;> rfl

/-- The content type is kept back unless it is nothing but that of a form. -/
theorem parseBody_postContentType (hform : utils.toLowercase (foundType requestInit) ≠ formType)
    (h : consumer.parseBody requestInit = .ok container) :
    container.postContentType = requestInit.postContentType := by
  obtain ⟨environment, heq⟩ := requestInit.subscript_eq (bytes "content-type")
  rw [parseBody, heq] at h
  dsimp only at h
  rw [foundType, formType] at hform
  rw [if_neg hform] at h
  split at h
  · split at h
    · cases h
      rw [foldl_addPart_postContentType]
      split <;> rfl
    · cases h
      split <;> rfl
  · split at h
    · cases h
      dsimp only
      split <;> rfl
    · cases h
      split <;> rfl

theorem parseBody_other (hform : utils.toLowercase (foundType requestInit) ≠ formType)
    (hmultipart : (utils.toLowercase (foundType requestInit)).take multipartType.length ≠
      multipartType) (h : consumer.parseBody requestInit = .ok container) :
    container.postVars = requestInit.postVars ∧
      container.rawPost = if consumer.rawPostAccess = .never then requestInit.rawPost
        else some consumer.postBody := by
  obtain ⟨environment, heq⟩ := requestInit.subscript_eq (bytes "content-type")
  rw [parseBody, heq] at h
  dsimp only at h
  rw [foundType, formType] at hform
  rw [foundType, multipartType] at hmultipart
  rw [if_neg hform, if_neg hmultipart] at h
  cases haccess : consumer.rawPostAccess <;> rw [haccess] at h <;> cases h <;> exact ⟨rfl, rfl⟩

end InputConsumingHttpHandler

/-! ## Which bodies are classified -/

/-- A POST request with a content type and nothing else. -/
def postOf (contentType : Bytes) : ServerRequest :=
  { method := bytes "POST"
    destination := bytes "/"
    headers := [(bytes "Content-Type", contentType)] }

/-- The handler that has taken in a body, where forms are not to be had raw. -/
def received (body : Bytes) : InputConsumingHttpHandler :=
  { maxPostSize := 1024
    expectedSize := body.length
    postBody := body
    rawPostAccess := .nonstandard }

section Request

variable {config : Config} {request : ServerRequest} {requestInit container : RequestInitContainer}
  {consumer : InputConsumingHttpHandler}

theorem foundType_eq (h : HttpHandler.requestInit config request = .ok requestInit) :
    InputConsumingHttpHandler.foundType requestInit = submittedType request := by
  rw [InputConsumingHttpHandler.foundType, HttpHandler.lookup_field h (by decide), submittedType]

/-- **An application finds a POST body as its content type says** exactly when the content type is
that of a form, in lower case and without parameters, or when there is none. -/
theorem classified_iff (hinit : HttpHandler.requestInit config request = .ok requestInit)
    (hparse : consumer.parseBody requestInit = .ok container) :
    Classified consumer.rawPostAccess (submittedType request) consumer.postBody container ↔
      submittedType request = [] ∨ submittedType request = formType := by
  have huntouched := InputConsumingHttpHandler.untouched_requestInit hinit
  have hfound := foundType_eq hinit
  by_cases hform : utils.toLowercase (submittedType request) = formType
  · obtain ⟨htype, hvars, hraw⟩ :=
      InputConsumingHttpHandler.parseBody_form (hfound.symm ▸ hform) hparse
    constructor
    · intro h
      exact .inr (h.contentType.symm.trans htype)
    · rintro (hnone | hexact)
      · rw [hnone] at hform
        cases hform
      · have hmedia : mediaType formType = formType := by decide
        rw [hexact]
        refine ⟨htype, fun _ => hvars, fun h => ?_, ?_⟩
        · rw [hmedia] at h
          exact absurd h (by decide)
        · rw [hraw, huntouched.rawPost, hmedia]
          simp only [ne_eq, not_true_eq_false, false_and, and_false, or_false]
  · have htype := InputConsumingHttpHandler.parseBody_postContentType (hfound.symm ▸ hform) hparse
    rw [huntouched.postContentType] at htype
    constructor
    · intro h
      exact .inl (h.contentType.symm.trans htype)
    · rintro (hnone | hexact)
      · have hmedia : mediaType [] = [] := rfl
        have hmultipart : (utils.toLowercase
            (InputConsumingHttpHandler.foundType requestInit)).take multipartType.length ≠
            multipartType := by
          rw [hfound, hnone]
          decide
        obtain ⟨-, hraw⟩ :=
          InputConsumingHttpHandler.parseBody_other (hfound.symm ▸ hform) hmultipart hparse
        rw [hnone]
        refine ⟨htype, fun h => ?_, fun h => ?_, ?_⟩
        · rw [hmedia] at h
          exact absurd h (by decide)
        · rw [hmedia] at h
          exact absurd h (by decide)
        · rw [hraw, huntouched.rawPost, hmedia]
          cases consumer.rawPostAccess <;> rfl
      · rw [hexact] at hform
        exact absurd (by decide) hform

/-- A form whose content type is spelled as the handler spells it. -/
theorem classified_iff_form :
    ∃ requestInit container,
      HttpHandler.requestInit {} (postOf formType) = .ok requestInit ∧
        (received (bytes "a=1")).parseBody requestInit = .ok container ∧
        Classified .nonstandard formType (bytes "a=1") container := by
  obtain ⟨requestInit, hinit⟩ := HttpHandler.requestInit_returns {} (postOf formType)
  obtain ⟨container, hparse⟩ :=
    InputConsumingHttpHandler.parseBody_returns (received (bytes "a=1")) requestInit
  exact ⟨requestInit, container, hinit, hparse, (classified_iff hinit hparse).mpr (.inr rfl)⟩

/-- The content type of a text does not reach the application. -/
theorem not_classified_text :
    ¬ ∀ (config : Config) (request : ServerRequest) (consumer : InputConsumingHttpHandler)
      (requestInit container : RequestInitContainer),
      HttpHandler.requestInit config request = .ok requestInit →
      consumer.parseBody requestInit = .ok container →
        Classified consumer.rawPostAccess (submittedType request) consumer.postBody container := by
  intro hall
  obtain ⟨requestInit, hinit⟩ := HttpHandler.requestInit_returns {} (postOf (bytes "text/plain"))
  obtain ⟨container, hparse⟩ :=
    InputConsumingHttpHandler.parseBody_returns (received (bytes "hello")) requestInit
  have hfound := foundType_eq hinit
  have htype := InputConsumingHttpHandler.parseBody_postContentType
    (by rw [hfound]; decide) hparse
  rw [(InputConsumingHttpHandler.untouched_requestInit hinit).postContentType,
    (hall {} _ _ requestInit container hinit hparse).contentType] at htype
  exact absurd htype (by decide)

/-- **No pair of a form body is lost** exactly when there is none to lose, or the content type is
nothing but that of a form and no question mark stands in the body. -/
theorem noPairLost_iff (hinit : HttpHandler.requestInit config request = .ok requestInit)
    (hparse : consumer.parseBody requestInit = .ok container)
    (hmedia : mediaType (submittedType request) = formType) :
    NoPairLost consumer.postBody container.postVars ↔
      splitString consumer.postBody '&'.toUInt8 true = [] ∨
        utils.toLowercase (submittedType request) = formType ∧
          '?'.toUInt8 ∉ consumer.postBody := by
  have hfound := foundType_eq hinit
  by_cases hform : utils.toLowercase (submittedType request) = formType
  · obtain ⟨-, hvars, -⟩ :=
      InputConsumingHttpHandler.parseBody_form (hfound.symm ▸ hform) hparse
    rw [NoPairLost, utils.splitQueryString_perm_iff hvars]
    constructor
    · exact fun hmark => .inr ⟨hform, hmark⟩
    · rintro (hnone | ⟨-, hmark⟩)
      · exact fun hmark => utils.splitString_ne_nil hmark (by decide) hnone
      · exact hmark
  · have hmultipart : (utils.toLowercase
        (InputConsumingHttpHandler.foundType requestInit)).take multipartType.length ≠
        multipartType := fun h => mediaType_ne_formType (hfound ▸ h) hmedia
    obtain ⟨hvars, -⟩ :=
      InputConsumingHttpHandler.parseBody_other (hfound.symm ▸ hform) hmultipart hparse
    rw [NoPairLost, hvars, (InputConsumingHttpHandler.untouched_requestInit hinit).postVars,
      List.nil_perm, List.map_eq_nil_iff]
    exact ⟨.inl, fun h => h.resolve_right fun h => hform h.1⟩

/-- A form of two pairs. -/
theorem noPairLost_iff_form :
    ∃ requestInit container,
      HttpHandler.requestInit {} (postOf formType) = .ok requestInit ∧
        (received (bytes "a=1&b=2")).parseBody requestInit = .ok container ∧
        NoPairLost (bytes "a=1&b=2") container.postVars := by
  obtain ⟨requestInit, hinit⟩ := HttpHandler.requestInit_returns {} (postOf formType)
  obtain ⟨container, hparse⟩ :=
    InputConsumingHttpHandler.parseBody_returns (received (bytes "a=1&b=2")) requestInit
  exact ⟨requestInit, container, hinit, hparse,
    (noPairLost_iff hinit hparse (by decide)).mpr (.inr ⟨by decide, by decide⟩)⟩

/-- The first pair of a form is lost when a question mark stands in its value. -/
theorem pairLost_questionMark :
    ¬ ∀ (config : Config) (request : ServerRequest) (consumer : InputConsumingHttpHandler)
      (requestInit container : RequestInitContainer),
      HttpHandler.requestInit config request = .ok requestInit →
      consumer.parseBody requestInit = .ok container →
      mediaType (submittedType request) = formType →
        NoPairLost consumer.postBody container.postVars := by
  intro hall
  obtain ⟨requestInit, hinit⟩ := HttpHandler.requestInit_returns {} (postOf formType)
  obtain ⟨container, hparse⟩ :=
    InputConsumingHttpHandler.parseBody_returns (received (bytes "q=who?&r=1")) requestInit
  obtain ⟨-, hvars, -⟩ := InputConsumingHttpHandler.parseBody_form
    (by rw [foundType_eq hinit]; decide) hparse
  have hlength := (hall {} _ _ requestInit container hinit hparse (by decide)).length_eq
  have hread : splitQueryString (received (bytes "q=who?&r=1")).postBody =
      .ok [(bytes "r", bytes "1")] := by decide
  rw [Except.ok.inj (hvars.symm.trans hread)] at hlength
  revert hlength
  decide

end Request

end Nawa
