import Nawa.Laws.RequestHandler.PostBody
import Nawa.Laws.RequestHandler.PostData
import Nawa.Laws.Util.MimeMultipart
import Nawa.Request.Request

/-!
# A form, from the client to the application

A form is submitted in one of the two usual encodings and arrives in stretches of any size. Once
it is complete, the application is called once, and finds in its request the variables of the
query string, and of the form all variables and files under their names, in whatever order its
hash maps are iterated (`submission_arrives`).

The encodings carry what the readers of the server ask of them.
-/

namespace Nawa

open Lib.Multimap
open Lib.Chunks
open MimeMultipart (Boundary Decoded FormPart Part Quotable Survives oneByteBoundary)
open request
open utils (FormPair)

/-! ## Submissions -/

/-- A part of a form is a file when it has a file name, or a type other than plain text. -/
def MimeMultipart.FormPart.isFile {b : Boundary} (p : FormPart b) : Bool :=
  p.filename.isSome || p.contentType.any fun t => t ≠ [] && !(bytes "text/plain").isPrefixOf t

/-- A form with its encoding. -/
inductive Submission where
  | urlencoded (pairs : List FormPair) (nonempty : pairs ≠ []) (survive : ∀ p ∈ pairs, p.Survives)
  | multipart (b : Boundary) (parts : List (FormPart b)) (boundary : b.text ≠ [])
    (survive : ∀ p ∈ parts, Survives p)

namespace Submission

def contentType : Submission → Bytes
  | urlencoded _ _ _ => formType
  | multipart b _ _ _ => bytes "multipart/form-data; boundary=" ++ b.text

def body : Submission → Bytes
  | urlencoded pairs _ _ => utils.serialise none pairs
  | multipart _ parts _ _ => MimeMultipart.serialise parts

/-- The variables that are submitted. -/
def fields : Submission → List (Bytes × Bytes)
  | urlencoded pairs _ _ => pairs.map FormPair.pair
  | multipart _ parts _ _ => (parts.filter fun p => !p.isFile).map fun p => (p.name, p.content)

/-- The files that are submitted. -/
def files : Submission → List (Bytes × PostFile)
  | urlencoded _ _ _ => []
  | multipart _ parts _ _ => (parts.filter FormPart.isFile).map fun p =>
      (p.name, ⟨p.content, p.contentType.getD [], p.filename.getD []⟩)

theorem body_ne_nil (s : Submission) : s.body ≠ [] := by
  cases s with
  | urlencoded pairs hne hsurvive =>
    obtain ⟨p, pairs, rfl⟩ := List.exists_cons_of_ne_nil hne
    intro h
    have htext : List.intercalate ['&'.toUInt8] (p.text :: pairs.map FormPair.text) = [] := h
    refine p.text_ne_nil ?_
    cases hrest : pairs.map FormPair.text with
    | nil => rwa [hrest, List.intercalate_singleton] at htext
    | cons t texts =>
      rw [hrest, List.intercalate_cons_cons, List.append_assoc] at htext
      exact (List.append_eq_nil_iff.mp htext).1
  | multipart b parts hb hsurvive =>
    intro h
    have hprefix := MimeMultipart.delimiter_prefix_serialise parts
    rw [show MimeMultipart.serialise parts = [] from h, List.prefix_nil] at hprefix
    exact b.delimiter_ne_nil hprefix

end Submission

/-! ## What an application finds -/

namespace request

/-- Some variables, as an application finds them. -/
structure GPC.Holds (gpc : GPC) (pairs : List (Bytes × Bytes)) : Prop where
  getVector : ∀ o name, (gpc.getVector o name).Perm (valuesOf name pairs)
  get : ∀ o name, gpc.get o name ∈ valuesOf name pairs ∨
    valuesOf name pairs = [] ∧ gpc.get o name = []
  count : ∀ name, gpc.count name = (valuesOf name pairs).length
  getMultimap : ∀ o, (gpc.getMultimap o).Perm pairs
  toBool : gpc.toBool = !pairs.isEmpty

/-- The files of a form, as an application finds them. -/
structure Post.HoldsFiles (post : Post) (files : List (Bytes × PostFile)) : Prop where
  getFileVector : ∀ o key, (post.getFileVector o key).Perm (valuesOf key files)
  getFile : ∀ o key, (∃ f, post.getFile o key = some f ∧ f ∈ valuesOf key files) ∨
    post.getFile o key = none ∧ valuesOf key files = []
  countFiles : ∀ key, post.countFiles key = (valuesOf key files).length
  getFileMultimap : ∀ o, (post.getFileMultimap o).Perm files
  hasFiles : post.hasFiles = !files.isEmpty

theorem GPC.holds (pairs : List (Bytes × Bytes)) : GPC.Holds ⟨pairs⟩ pairs where
  getVector := fun o name => equalRange_perm o pairs name
  get := by
    intro o name
    rcases find_spec o pairs name with ⟨v, hfind, hmem⟩ | ⟨hfind, hnone⟩
    · rw [GPC.get, hfind]
      exact .inl hmem
    · rw [GPC.get, hfind]
      exact .inr ⟨hnone, rfl⟩
  count := count_eq_length pairs
  getMultimap := fun o => o.perm pairs
  toBool := rfl

theorem Post.holdsFiles (post : Post) : post.HoldsFiles post.fileMap where
  getFileVector := fun o key => equalRange_perm o post.fileMap key
  getFile := fun o key => find_spec o post.fileMap key
  countFiles := count_eq_length post.fileMap
  getFileMultimap := fun o => o.perm post.fileMap
  hasFiles := rfl

end request

/-- The application finds the query string and the form in its request. -/
structure Arrives (rawPostAccess : RawPostAccess) (query : List (Bytes × Bytes)) (s : Submission)
    (request : request.Request) : Prop where
  get : request.get.Holds query
  fields : request.post.Holds s.fields
  files : request.post.HoldsFiles s.files
  raw : request.post.getRaw = if rawPostAccess = .always then some s.body else none

/-! ## The body -/

namespace InputConsumingHttpHandler

/-- The parts of a form go to the files and to the variables. -/
theorem foldl_addPart (parts : List Part) (requestInit : RequestInitContainer) :
    parts.foldl addPart requestInit =
      { requestInit with
        postVars := requestInit.postVars ++
          (parts.filter fun p => !isFile p).map fun p => (p.partName, p.content)
        postFiles := requestInit.postFiles ++ (parts.filter isFile).map fun p =>
          (p.partName, ⟨p.content, p.contentType, p.filename⟩) } := by
  induction parts generalizing requestInit with
  | nil => simp only [List.foldl_nil, List.filter_nil, List.map_nil, List.append_nil]
  | cons p parts ih =>
    rw [List.foldl_cons, ih, addPart, List.filter_cons, List.filter_cons]
    cases isFile p with
    | true => simp only [if_true, Bool.not_true, Bool.false_eq_true, if_false, List.map_cons,
        List.append_assoc, List.singleton_append]
    | false => simp only [Bool.not_false, if_true, Bool.false_eq_true, if_false, List.map_cons,
        List.append_assoc, List.singleton_append]

/-- What a decoded part comes to. -/
theorem isFile_decoded {b : Boundary} {p : FormPart b} {q : Part} (h : Decoded p q) :
    isFile q = p.isFile := by
  have hfilename : q.filename ≠ [] ↔ p.filename.isSome := by
    rw [h.filename]
    cases hp : p.filename with
    | none => exact iff_of_false (fun hne => hne rfl) Bool.false_ne_true
    | some f => exact iff_of_true (p.filename_ok f hp).nonempty rfl
  have htype : (q.contentType ≠ [] ∧
      q.contentType.take (bytes "text/plain").length ≠ bytes "text/plain") ↔
      p.contentType.any (fun t => t ≠ [] && !(bytes "text/plain").isPrefixOf t) = true := by
    rw [h.contentType]
    cases p.contentType with
    | none => exact iff_of_false (fun hne => hne.1 rfl) Bool.false_ne_true
    | some t =>
      rw [Option.any_some, Option.getD_some, Bool.and_eq_true, decide_eq_true_iff,
        Bool.not_eq_true', ← Bool.not_eq_true, List.isPrefixOf_iff_prefix,
        List.prefix_iff_eq_take, eq_comm]
  rw [isFile, FormPart.isFile, Bool.eq_iff_iff, decide_eq_true_iff, Bool.or_eq_true, hfilename,
    htype]

theorem fields_decoded {b : Boundary} {parts : List (FormPart b)} {qs : List Part}
    (h : List.Forall₂ Decoded parts qs) :
    (qs.filter fun q => !isFile q).map (fun q => (q.partName, q.content)) =
      (parts.filter fun p => !p.isFile).map fun p => (p.name, p.content) := by
  induction h with
  | nil => rfl
  | @cons p q _ _ hq _ ih =>
    rw [List.filter_cons, List.filter_cons, isFile_decoded hq]
    split
    · rw [List.map_cons, List.map_cons, ih, hq.partName, hq.content]
    · exact ih

theorem files_decoded {b : Boundary} {parts : List (FormPart b)} {qs : List Part}
    (h : List.Forall₂ Decoded parts qs) :
    (qs.filter isFile).map
        (fun q => (q.partName, (⟨q.content, q.contentType, q.filename⟩ : PostFile))) =
      (parts.filter FormPart.isFile).map fun p =>
        (p.name, ⟨p.content, p.contentType.getD [], p.filename.getD []⟩) := by
  induction h with
  | nil => rfl
  | @cons p q _ _ hq _ ih =>
    rw [List.filter_cons, List.filter_cons, isFile_decoded hq]
    split
    · rw [List.map_cons, List.map_cons, ih, hq.partName, hq.content, hq.contentType, hq.filename]
    · exact ih

/-- The body of a form is taken apart as it was put together. -/
theorem parseBody_submission (s : Submission) {consumer : InputConsumingHttpHandler}
    {requestInit container : RequestInitContainer} (huntouched : Untouched requestInit)
    (hbody : consumer.postBody = s.body) (htype : foundType requestInit = s.contentType)
    (h : consumer.parseBody requestInit = .ok container) :
    container.getVars = requestInit.getVars ∧ container.postVars = s.fields ∧
      container.postFiles = s.files ∧
      container.rawPost = if consumer.rawPostAccess = .always then some s.body else none := by
  obtain ⟨environment, heq⟩ := requestInit.subscript_eq (bytes "content-type")
  rw [parseBody, heq] at h
  dsimp only at h
  rw [← foundType, htype, hbody] at h
  -- the container that the parsed data is put into
  generalize hr : (if consumer.rawPostAccess = .always then _ else _) = r at h
  have hget : r.getVars = requestInit.getVars := by subst hr; split <;> rfl
  have hvars : r.postVars = [] := by subst hr; split <;> exact huntouched.postVars
  have hfiles : r.postFiles = [] := by subst hr; split <;> exact huntouched.postFiles
  have hraw : r.rawPost = if consumer.rawPostAccess = .always then some s.body else none := by
    subst hr
    split
    · rfl
    · exact huntouched.rawPost
  clear hr
  cases s with
  | urlencoded pairs hne hsurvive =>
    have hform : utils.toLowercase formType = bytes "application/x-www-form-urlencoded" := by
      decide
    have hpairs : pairs.map FormPair.readBack = pairs.map FormPair.pair :=
      List.map_congr_left fun p hp => FormPair.readBack_of_survives (hsurvive p hp)
    rw [Submission.contentType, if_pos hform, Submission.body,
      utils.splitQueryString_serialise none pairs, hpairs] at h
    cases h
    exact ⟨hget, rfl, hfiles, hraw⟩
  | multipart b parts hb hsurvive =>
    obtain ⟨data, hparse, hdecoded⟩ := (MimeMultipart.roundTrips_iff_survive hb).mpr hsurvive
    have htake : (utils.toLowercase (Submission.multipart b parts hb hsurvive).contentType).take
        (bytes "multipart/form-data").length = bytes "multipart/form-data" := by
      rw [Submission.contentType, utils.toLowercase, List.map_append]
      exact List.take_append_of_le_length (by decide)
    have hform : utils.toLowercase (Submission.multipart b parts hb hsurvive).contentType ≠
        bytes "application/x-www-form-urlencoded" := by
      intro hform
      rw [hform] at htake
      exact absurd htake (by decide)
    rw [if_neg hform, if_pos htake, Submission.contentType, Submission.body, hparse] at h
    cases h
    rw [foldl_addPart, fields_decoded hdecoded, files_decoded hdecoded, hvars, hfiles]
    exact ⟨hget, rfl, rfl, hraw⟩

end InputConsumingHttpHandler

/-! ## The request -/

variable {handled : RequestInitContainer → Except Failure Unit} {config : Config}
  {request : ServerRequest}

theorem getVars_subscript (requestInit : RequestInitContainer) (name : Bytes) :
    (requestInit.subscript name).1.getVars = requestInit.getVars := by
  obtain ⟨environment, heq⟩ := requestInit.subscript_eq name
  rw [heq]

theorem getVars_requestInit {requestInit : RequestInitContainer}
    (h : HttpHandler.requestInit config request = .ok requestInit) :
    HttpHandler.getVars request.destination = .ok requestInit.getVars := by
  obtain ⟨vars, hvars⟩ := HttpHandler.getVars_returns request.destination
  rw [HttpHandler.requestInit, hvars] at h
  cases h
  rw [hvars]
  generalize HttpHandler.addUrls _ request.destination = r
  have hcookie := getVars_subscript { r with getVars := vars } (bytes "cookie")
  exact congrArg Except.ok hcookie.symm

/-- A request target with this query string, or with none. -/
def Targets (destination : Bytes) (query : List FormPair) : Prop :=
  (∃ path, destination = utils.serialise (some path) query) ∨
    '?'.toUInt8 ∉ destination ∧ query = []

/-- The variables of a query string are what its reader makes of the pairs. -/
theorem getVars_of_targets {destination : Bytes} {query : List FormPair}
    (h : Targets destination query) :
    HttpHandler.getVars destination = .ok (query.map FormPair.readBack) := by
  rw [HttpHandler.getVars]
  rcases h with ⟨path, rfl⟩ | ⟨hmark, rfl⟩
  · have hmark : Lib.Search.findElem '?'.toUInt8 (utils.serialise (some path) query) =
        some path.1.length := Lib.Search.findElem_append_sep path.2
    rw [hmark]
    exact utils.splitQueryString_serialise (some path) query
  · rw [Lib.Search.findElem_eq_none.mpr hmark]
    rfl

/-- Stretches that make up the announced body are delivered. -/
theorem delivered_of_flatten (handled : RequestInitContainer → Except Failure Unit) {n : Nat}
    (h : ValidPost config request n) (hn : 0 < n) {requestInit : RequestInitContainer}
    (hinit : HttpHandler.requestInit config request = .ok requestInit) {inputs : List Bytes}
    (hlength : inputs.flatten.length = n) :
    Delivered config requestInit (Exchange.run handled config request inputs) inputs.flatten := by
  obtain ⟨before, input, hbegins, hlt, hreached⟩ := exists_reaching hn hlength.ge
  have hexact := (ends_at_iff hbegins hlt hreached).mp ⟨inputs, List.prefix_refl _, hlength⟩
  obtain ⟨hpending, hrun⟩ := run_reaching handled h hinit hlt hreached
  have hdelivered := hrun.resolve_left fun hmore => Nat.ne_of_gt hmore.2 hexact
  -- no byte is left behind the stretch that completes the body
  have hall : (before ++ [input]).flatten = inputs.flatten :=
    hbegins.flatten.eq_of_length (hexact.trans hlength.symm)
  rw [hall] at hdelivered
  obtain ⟨later, rfl⟩ := hbegins
  rw [run_append hinit, Exchange.foldl_receive_none hpending]
  exact hdelivered

/-- A POST request that announces a form, with a query string or without. -/
structure Submits (config : Config) (request : ServerRequest) (query : List FormPair)
    (s : Submission) : Prop where
  valid : ValidPost config request s.body.length
  contentType : HttpHandler.header request (bytes "content-type") = some s.contentType
  destination : Targets request.destination query

/-- **A form reaches the application**: when it has arrived, in stretches of any size, exactly one
request has been handled for it, with the query string and the form. -/
theorem submission_arrives (handled : RequestInitContainer → Except Failure Unit)
    {query : List FormPair} {s : Submission} (h : Submits config request query s)
    {inputs : List Bytes} (hinputs : inputs.flatten = s.body) :
    ∃ container,
      (Exchange.run handled config request inputs).log.filterMap HttpAction.container? =
          [container] ∧
        Arrives (HttpHandler.rawPostAccess config) (query.map FormPair.readBack) s
          (Request.ofContainer container) := by
  obtain ⟨requestInit, hinit⟩ := HttpHandler.requestInit_returns config request
  have hn : 0 < s.body.length := List.length_pos_iff.mpr s.body_ne_nil
  obtain ⟨-, ⟨consumer, container, hbody, haccess, hparse, hlog⟩, -⟩ :=
    delivered_of_flatten handled h.valid hn hinit (congrArg List.length hinputs)
  have hfound : InputConsumingHttpHandler.foundType requestInit = s.contentType := by
    rw [foundType_eq hinit, submittedType, h.contentType, Option.getD_some]
  obtain ⟨hget, hfields, hfiles, hraw⟩ := InputConsumingHttpHandler.parseBody_submission s
    (InputConsumingHttpHandler.untouched_requestInit hinit) (hbody.trans hinputs) hfound hparse
  have hquery : requestInit.getVars = query.map FormPair.readBack := by
    have hvars := getVars_requestInit hinit
    rw [getVars_of_targets h.destination] at hvars
    exact (Except.ok.inj hvars).symm
  refine ⟨container, hlog, ?_, ?_, ?_, haccess ▸ hraw⟩
  · rw [← hquery, ← hget]
    exact GPC.holds container.getVars
  · rw [← hfields]
    exact GPC.holds container.postVars
  · rw [← hfiles]
    exact Post.holdsFiles (Post.ofContainer container)

theorem quotable_field : Quotable (bytes "f") :=
  ⟨by decide, List.all_iff_forall_prop.mp (by decide)⟩

theorem quotable_filename : ∀ f ∈ some (bytes "n.txt"), Quotable f := by
  rintro f ⟨⟩
  exact ⟨by decide, List.all_iff_forall_prop.mp (by decide)⟩

theorem noContentType_fileForm : ∀ t ∈ (none : Option Bytes),
    (∀ c ∈ t, c ≠ 13 ∧ c ≠ 10) ∧ ∀ c ∈ t.head?, c ≠ ' '.toUInt8 ∧ c ≠ '\t'.toUInt8 :=
  fun t ht => absurd ht (Option.not_mem_none t)

theorem noDelimiter_fileForm :
    ¬ oneByteBoundary.delimiter <:+: bytes "hi" :=
  Lib.Search.find_eq_none.mp (by decide)

/-- The file `n.txt`, which holds `hi`. -/
def filePart : FormPart oneByteBoundary where
  name := bytes "f"
  filename := some (bytes "n.txt")
  contentType := none
  content := bytes "hi"
  name_ok := quotable_field
  filename_ok := quotable_filename
  contentType_ok := noContentType_fileForm
  content_ok := noDelimiter_fileForm

theorem boundary_fileForm : oneByteBoundary.text ≠ [] := by decide

theorem survives_filePart : ∀ p ∈ [filePart], Survives p :=
  List.forall_mem_singleton.mpr
    { content := by decide
      name := Lib.Search.find_eq_none.mp (by decide)
      filename := by
        rintro f ⟨⟩
        exact Lib.Search.find_eq_none.mp (by decide)
      contentType := fun t ht => absurd ht (Option.not_mem_none t) }

/-- A form with that file. -/
def fileForm : Submission := .multipart _ [filePart] boundary_fileForm survives_filePart

/-- The query string `k=v`. -/
def keyQuery : List FormPair :=
  [⟨[.plain 'k'.toUInt8 (by decide)], [.plain 'v'.toUInt8 (by decide)], by decide⟩]

def filePost : ServerRequest :=
  { method := bytes "POST"
    destination := bytes "/a?k=v"
    headers := [(bytes "Content-Length", bytes "76"),
      (bytes "content-type", bytes "multipart/form-data; boundary=b")] }

theorem submits_fileForm : Submits smallLimit filePost keyQuery fileForm where
  valid := ⟨rfl, ⟨_, rfl, by decide⟩, ⟨1, rfl, by decide, by decide⟩⟩
  contentType := rfl
  destination := .inl ⟨⟨bytes "/a", by decide⟩, rfl⟩

theorem submission_arrives_fileForm :
    ∃ container,
      (Exchange.run (fun _ => .ok ()) smallLimit filePost
          [fileForm.body.take 10, [], fileForm.body.drop 10]).log.filterMap
            HttpAction.container? = [container] ∧
        Arrives (HttpHandler.rawPostAccess smallLimit) [(bytes "k", bytes "v")] fileForm
          (Request.ofContainer container) :=
  submission_arrives _ submits_fileForm rfl

end Nawa
