import Nawa.Laws.Connection.Cookies
import Nawa.Laws.Connection.Response
import Nawa.Laws.Connection.StartSession
import Nawa.Laws.RequestHandler.Environment
import Nawa.Laws.Util.HeaderFields
import Nawa.Laws.Util.HttpTime

/-!
# Responses, read back

What the FastCGI handler sends for a response, as the web server reads it: lines up to the first
blank line, and a body behind it. Nothing in the framework looks for line breaks in the header
fields that an application sets. `setCookie` checks the name and the content of a cookie, and not
its domain and its path. `ResponseCall.OneLine` is what is left for the application to see to, and
with that no call can end the header block early or add a field of its own.
-/

namespace Nawa

open Lib (AssocMap)
open Lib.Search
open utils (Unbroken block fieldLine readField)

/-! ## What an application has to see to -/

/-- A header field that is one line, with a name that ends at the first colon. -/
structure OneLineField (f : Bytes × Bytes) : Prop where
  noColon : ':'.toUInt8 ∉ f.1
  name : Unbroken f.1
  value : Unbroken f.2

/-- The attributes of a cookie that are written as they are. -/
structure PlainAttributes (cookie : Cookie) : Prop where
  domain : ∀ domain ∈ cookie.domain, Unbroken domain
  path : ∀ path ∈ cookie.path, Unbroken path

def ResponseCall.OneLine : ResponseCall → Prop
  | .setHeader key value => OneLineField (key, value)
  | .addHeader key value => OneLineField (key, value)
  | .setCookie _ cookie => PlainAttributes cookie
  | .setCookiePolicy policy => PlainAttributes policy
  | _ => True

/-- A response whose header fields are lines. -/
structure Response.Tidy (r : Response) : Prop where
  fields : ∀ f ∈ r.fields, OneLineField f
  cookies : ∀ e ∈ r.cookies.entries, e.1.all Connection.keyChar = true ∧
    e.2.content.all Connection.contentChar = true ∧ PlainAttributes e.2
  policy : PlainAttributes r.policy

/-! ## What the framework writes itself -/

/-- A text that is looked through. -/
theorem unbroken_of_all {s : Bytes} (h : s.all (fun c => c ≠ 13 ∧ c ≠ 10) = true) : Unbroken s :=
  fun c hc => of_decide_eq_true (List.all_eq_true.mp h c hc)

theorem utils.Unbroken.append {s t : Bytes} (hs : Unbroken s) (ht : Unbroken t) :
    Unbroken (s ++ t) :=
  List.forall_mem_append.mpr ⟨hs, ht⟩

theorem unbroken_of_noSpace {s : Bytes} (h : ∀ c ∈ s, isspace c = false) : Unbroken s := by
  intro c hc
  constructor
  · rintro rfl
    exact absurd (h _ hc) (by decide)
  · rintro rfl
    exact absurd (h _ hc) (by decide)

theorem isspace_of_mem_decimal {n : Nat} {c : UInt8} (h : c ∈ decimal n) : isspace c = false := by
  have hdigit := of_decide_eq_true (isdigit_of_mem_decimal h)
  exact isspace_of_lt (UInt8.lt_of_lt_of_le (by decide) hdigit.1)

theorem unbroken_decimal (n : Nat) : Unbroken (decimal n) :=
  unbroken_of_noSpace fun _ => isspace_of_mem_decimal

theorem unbroken_getD {names : List Bytes}
    (h : names.all (fun name => name.all fun c => c ≠ 13 ∧ c ≠ 10) = true) (i : Nat) :
    Unbroken (names.getD i []) := by
  rw [List.getD_eq_getElem?_getD]
  cases hi : names[i]? with
  | none => exact fun c hc => absurd hc List.not_mem_nil
  | some name => exact unbroken_of_all (List.all_eq_true.mp h name (List.mem_of_getElem? hi))

theorem unbroken_twoDigits (n : Nat) : Unbroken (utils.twoDigits n) := by
  unfold utils.twoDigits
  split
  · exact List.forall_mem_cons.mpr ⟨by decide, unbroken_decimal n⟩
  · exact unbroken_decimal n

theorem unbroken_signedDecimal (n : Int) : Unbroken (utils.signedDecimal n) := by
  unfold utils.signedDecimal
  split
  · exact List.forall_mem_cons.mpr ⟨by decide, unbroken_decimal _⟩
  · exact unbroken_decimal _

theorem unbroken_makeHttpTime {t : Int} {s : Bytes} (h : utils.makeHttpTime t = .ok s) :
    Unbroken s := by
  have hday (i : Nat) : Unbroken (utils.getDayOfWeek i) :=
    unbroken_getD (by decide) i
  have hmonth (i : Nat) : Unbroken (utils.getMonth i) :=
    unbroken_getD (by decide) i
  have hcomma : Unbroken (bytes ", ") := unbroken_of_all rfl
  have hblank : Unbroken (bytes " ") := unbroken_of_all rfl
  have hcolon : Unbroken (bytes ":") := unbroken_of_all rfl
  have hzone : Unbroken (bytes " GMT") := unbroken_of_all rfl
  unfold utils.makeHttpTime at h
  cases hgmt : utils.gmtime t with
  | none =>
    rw [hgmt] at h
    cases h
  | some gmt =>
    rw [hgmt] at h
    cases h
    have hdate := ((((((hday gmt.wday).append hcomma).append (unbroken_twoDigits gmt.mday)).append
      hblank).append (hmonth gmt.mon)).append hblank).append (unbroken_signedDecimal gmt.year)
    have htime := (((((hdate.append hblank).append (unbroken_twoDigits gmt.hour)).append
      hcolon).append (unbroken_twoDigits gmt.min)).append hcolon).append
        (unbroken_twoDigits gmt.sec)
    exact htime.append hzone

/-- The texts of the table, and a number in front of them. -/
theorem unbroken_getStatusString (info : FlushCallbackContainer) :
    Unbroken info.getStatusString := by
  have htexts : FlushCallbackContainer.httpStatusCodes.all
      (fun e => e.2.all fun c => c ≠ 13 ∧ c ≠ 10) = true := by decide
  refine (unbroken_decimal _).append ?_
  split
  · next text htext =>
    have hunbroken := unbroken_of_all (List.all_eq_true.mp htexts _ (Lib.mem_of_lookup htext))
    exact (unbroken_of_all rfl).append hunbroken
  · exact fun c hc => absurd hc List.not_mem_nil

theorem trimLeft_getStatusString (info : FlushCallbackContainer) :
    trimLeft info.getStatusString = info.getStatusString := by
  unfold FlushCallbackContainer.getStatusString
  cases hdigits : decimal info.status with
  | nil => exact absurd hdigits (decimal_ne_nil _)
  | cons c rest =>
    have hc : isspace c = false :=
      isspace_of_mem_decimal (n := info.status) (hdigits ▸ List.mem_cons_self)
    rw [List.cons_append, trimLeft, List.dropWhile_cons, hc]
    rfl

/-! ## Cookies are lines -/

theorem unbroken_cookieHeader {policy : Cookie} (hpolicy : PlainAttributes policy) {key : Bytes}
    {cookie : Cookie} (hkey : key.all Connection.keyChar = true)
    (hcontent : cookie.content.all Connection.contentChar = true)
    (hcookie : PlainAttributes cookie) :
    Unbroken (Connection.cookieHeader policy key cookie) := by
  have hnil : Unbroken [] := fun c hc => absurd hc List.not_mem_nil
  rw [List.all_eq_true] at hkey hcontent
  unfold Connection.cookieHeader
  dsimp only
  refine .append (.append (.append (.append (.append (.append (.append (.append (.append
    ?_ ?_) ?_) ?_) ?_) ?_) ?_) ?_) ?_) ?_
  · exact unbroken_of_noSpace fun c hc => (Connection.keyChar_plain c (hkey c hc)).1
  · exact unbroken_of_all rfl
  · exact unbroken_of_noSpace fun c hc => (Connection.contentChar_plain c (hcontent c hc)).1
  · split
    · exact hnil
    · exact hnil
    · next domain _ hdomain =>
      refine (unbroken_of_all rfl).append ?_
      rcases Option.or_eq_some_iff.mp hdomain with h | ⟨-, h⟩
      · exact hcookie.domain domain h
      · exact hpolicy.domain domain h
  · split
    · exact hnil
    · exact hnil
    · next path _ hpath =>
      refine (unbroken_of_all rfl).append ?_
      rcases Option.or_eq_some_iff.mp hpath with h | ⟨-, h⟩
      · exact hcookie.path path h
      · exact hpolicy.path path h
  · split
    · exact hnil
    · refine (unbroken_of_all rfl).append ?_
      split
      · next time htime => exact unbroken_makeHttpTime htime
      · exact hnil
  · split
    · exact hnil
    · exact (unbroken_of_all rfl).append (unbroken_decimal _)
  · split
    · exact unbroken_of_all rfl
    · exact hnil
  · split
    · exact unbroken_of_all rfl
    · exact hnil
  · split
    · exact hnil
    · exact unbroken_of_all rfl
    · exact unbroken_of_all rfl

/-! ## Calls keep a response tidy -/

/-- A letter in upper case becomes a letter. -/
theorem eq_of_tolower {c d : UInt8} (hd : d < 65) (h : tolower c = d) : c = d := by
  unfold tolower at h
  split at h
  · next hupper =>
    rw [UInt8.le_iff_toNat_le, UInt8.le_iff_toNat_le] at hupper
    rw [← h, UInt8.lt_iff_toNat_lt, UInt8.toNat_add] at hd
    have hlow : (65 : UInt8).toNat = 65 := rfl
    have hhigh : (90 : UInt8).toNat = 90 := rfl
    have hshift : (32 : UInt8).toNat = 32 := rfl
    omega
  · exact h

theorem not_mem_toLowercase {s : Bytes} {d : UInt8} (hd : d < 65) (h : d ∉ s) :
    d ∉ utils.toLowercase s := by
  intro hmem
  obtain ⟨c, hc, hlower⟩ := List.mem_map.mp hmem
  exact h (eq_of_tolower hd hlower ▸ hc)

theorem unbroken_toLowercase {s : Bytes} (h : Unbroken s) : Unbroken (utils.toLowercase s) := by
  have hcr : (13 : UInt8) ∉ s := fun hmem => (h _ hmem).1 rfl
  have hlf : (10 : UInt8) ∉ s := fun hmem => (h _ hmem).2 rfl
  intro c hc
  constructor
  · rintro rfl
    exact not_mem_toLowercase (by decide) hcr hc
  · rintro rfl
    exact not_mem_toLowercase (by decide) hlf hc

theorem toLowercase_toLowercase (s : Bytes) :
    utils.toLowercase (utils.toLowercase s) = utils.toLowercase s := by
  have hsame : (utils.toLowercase s).map tolower = (utils.toLowercase s).map id :=
    List.map_congr_left fun _ hc => tolower_of_mem_toLowercase hc
  rwa [List.map_id] at hsame

/-- A field with a name in lower case, as it is sent. -/
structure SentLine (f : Bytes × Bytes) : Prop extends OneLineField f where
  lowercase : utils.toLowercase f.1 = f.1

theorem OneLineField.sentLine {f : Bytes × Bytes} (h : OneLineField f) :
    SentLine (sentField f) where
  noColon := not_mem_toLowercase (by decide) h.noColon
  name := unbroken_toLowercase h.name
  value := h.value
  lowercase := toLowercase_toLowercase f.1

namespace Response

variable {r : Response}

theorem Tidy.insertCookie (h : r.Tidy) {key : Bytes} {cookie : Cookie}
    (hvalid : key.all Connection.keyChar = true ∧ cookie.content.all Connection.contentChar = true)
    (hcookie : PlainAttributes cookie) :
    Tidy { r with cookies := r.cookies.insert key cookie } := by
  refine ⟨h.fields, ?_, h.policy⟩
  intro e he
  rcases List.mem_append.mp he with he | he
  · exact h.cookies e (List.mem_filter.mp he).1
  · cases List.mem_singleton.mp he
    exact ⟨hvalid.1, hvalid.2, hcookie⟩

theorem Tidy.call (h : r.Tidy) {call : ResponseCall} (hcall : call.OneLine) :
    (r.call call).1.Tidy := by
  have hkept (key : Bytes) :
      ∀ f ∈ r.fields.filter (¬ SameName ·.1 key), OneLineField f :=
    fun f hf => h.fields f (List.mem_filter.mp hf).1
  cases call with
  | setHeader key value =>
    refine ⟨?_, h.cookies, h.policy⟩
    exact List.forall_mem_append.mpr ⟨hkept key, List.forall_mem_singleton.mpr hcall⟩
  | addHeader key value =>
    refine ⟨?_, h.cookies, h.policy⟩
    exact List.forall_mem_append.mpr ⟨h.fields, List.forall_mem_singleton.mpr hcall⟩
  | unsetHeader key => exact ⟨hkept key, h.cookies, h.policy⟩
  | setCookie key cookie =>
    by_cases hvalid : key.all Connection.keyChar ∧ cookie.content.all Connection.contentChar
    · simp only [Response.call, if_pos hvalid]
      exact h.insertCookie hvalid hcall
    · simp only [Response.call, if_neg hvalid]
      exact h
  | unsetCookie key =>
    exact ⟨h.fields, fun e he => h.cookies e (List.mem_filter.mp he).1, h.policy⟩
  | setCookiePolicy policy => exact ⟨h.fields, h.cookies, hcall⟩
  | setResponseBody => exact ⟨h.fields, h.cookies, h.policy⟩
  | write => exact ⟨h.fields, h.cookies, h.policy⟩
  | getResponseBody => exact h
  | setStatus => exact ⟨h.fields, h.cookies, h.policy⟩
  | flushResponse => exact ⟨h.fields, h.cookies, h.policy⟩

theorem noColon_setCookie : ':'.toUInt8 ∉ bytes "set-cookie" := by decide

theorem Tidy.sentLine_head (h : r.Tidy) : ∀ f ∈ r.head, SentLine f := by
  refine List.forall_mem_append.mpr ⟨?_, ?_⟩
  · intro f hf
    obtain ⟨field, hfield, rfl⟩ := List.mem_map.mp hf
    exact (h.fields field hfield).sentLine
  · intro f hf
    obtain ⟨e, he, rfl⟩ := List.mem_map.mp hf
    obtain ⟨hkey, hcontent, hattributes⟩ := h.cookies e he
    have hname : OneLineField (bytes "set-cookie", Connection.cookieHeader r.policy e.1 e.2) :=
      { noColon := noColon_setCookie
        name := unbroken_of_all rfl
        value := unbroken_cookieHeader h.policy hkey hcontent hattributes }
    exact { hname with lowercase := rfl }

/-- Only a flush sends something, and it sends the head. -/
theorem head_of_sent {call : ResponseCall} :
    ∀ e ∈ sent (r.call call).2.toList, e.head = r.head := by
  intro e he
  cases call with
  | flushResponse =>
    cases List.mem_singleton.mp he
    rfl
  | setCookie key cookie =>
    by_cases hvalid : key.all Connection.keyChar ∧ cookie.content.all Connection.contentChar
    · simp only [Response.call, if_pos hvalid] at he
      exact absurd he List.not_mem_nil
    · simp only [Response.call, if_neg hvalid] at he
      exact absurd he List.not_mem_nil
  | setResponseBody => exact absurd he List.not_mem_nil
  | write => exact absurd he List.not_mem_nil
  | getResponseBody => exact absurd he List.not_mem_nil
  | setStatus => exact absurd he List.not_mem_nil
  | setHeader => exact absurd he List.not_mem_nil
  | addHeader => exact absurd he List.not_mem_nil
  | unsetHeader => exact absurd he List.not_mem_nil
  | unsetCookie => exact absurd he List.not_mem_nil
  | setCookiePolicy => exact absurd he List.not_mem_nil

theorem Tidy.sentLine_run (h : r.Tidy) {calls : List ResponseCall}
    (hcalls : ∀ call ∈ calls, call.OneLine) :
    ∀ e ∈ sent (r.outputs calls), ∀ f ∈ e.head, SentLine f := by
  induction calls generalizing r with
  | nil => exact fun e he => absurd he List.not_mem_nil
  | cons call rest ih =>
    rw [List.forall_mem_cons] at hcalls
    rw [outputs, sent_append, List.forall_mem_append]
    refine ⟨?_, ih (h.call hcalls.1) hcalls.2⟩
    intro e he
    rw [head_of_sent e he]
    exact h.sentLine_head

end Response

/-! ## A fresh connection is tidy -/

variable {V : Type}

theorem tidy_startSession {conn : Connection} (h : (Response.ofConnection conn).Tidy)
    (ctx : StartContext) {properties : Cookie} (hproperties : PlainAttributes properties)
    (store : SessionStore V) :
    (Response.ofConnection (conn.startSession ctx properties store).2.1).Tidy := by
  have hsame (session : Session) :
      (Response.ofConnection { conn with session := session }).Tidy :=
    ⟨h.fields, h.cookies, h.policy⟩
  have hcookie (time : Int) (keepalive : Nat) (id : Bytes) :
      PlainAttributes (Connection.sessionCookie conn.config time keepalive id properties) := by
    unfold Connection.sessionCookie
    dsimp only
    split
    · exact ⟨hproperties.domain, hproperties.path⟩
    · exact ⟨hproperties.domain, hproperties.path⟩
  unfold Connection.startSession
  split
  · exact h
  · dsimp only
    split
    · exact hsame _
    · split
      · exact hsame _
      · split
        · next hset =>
          unfold Connection.setCookie at hset
          split at hset
          · next hvalid =>
            cases hset
            exact Response.Tidy.insertCookie (hsame _) hvalid (hcookie _ _ _)
          · cases hset
        · exact hsame _

theorem tidy_construct (request : Request) (config : Config) (ctx : StartContext)
    (store : SessionStore V) :
    (Response.ofConnection (Connection.construct request config ctx store).2.1).Tidy := by
  have hplain : PlainAttributes {} :=
    ⟨fun _ h => absurd h (Option.not_mem_none _), fun _ h => absurd h (Option.not_mem_none _)⟩
  have hfield : OneLineField (bytes "content-type", bytes "text/html; charset=utf-8") :=
    { noColon := by decide
      name := unbroken_of_all rfl
      value := unbroken_of_all rfl }
  have hbegin : (Response.ofConnection
      { request := request
        config := config
        headers := AssocMap.empty.insert (bytes "content-type")
          [bytes "text/html; charset=utf-8"] }).Tidy :=
    ⟨List.forall_mem_singleton.mpr hfield, fun _ he => absurd he List.not_mem_nil, hplain⟩
  unfold Connection.construct
  dsimp only
  split
  · exact tidy_startSession hbegin ctx hplain store
  · exact hbegin

/-! ## What the web server reads -/

/-- A reader of a response: the fields of the lines before the first blank line, and what stands
behind it. -/
def readResponse (received : Bytes) : Option (List (Bytes × Bytes) × Bytes) :=
  (find (crlf ++ crlf) received).map fun n =>
    ((utils.headerLines (received.take n)).filterMap utils.headerLine, received.drop (n + 4))

theorem readResponse_block {fields : List (Bytes × Bytes)} (hne : fields ≠ [])
    (h : ∀ f ∈ fields, OneLineField f) (body : Bytes) :
    readResponse (block (fields.map fieldLine) ++ (crlf ++ (crlf ++ body))) =
      some (fields.map fun f => (utils.toLowercase f.1, trimLeft f.2), body) := by
  have hlines : ∀ l ∈ fields.map fieldLine, utils.Line l := by
    intro l hl
    obtain ⟨f, hf, rfl⟩ := List.mem_map.mp hl
    exact utils.fieldLine_line ⟨(h f hf).name, (h f hf).value⟩
  have hlines_ne : fields.map fieldLine ≠ [] := by
    rwa [ne_eq, List.map_eq_nil_iff]
  have hread : fields.map readField = fields.map fun f => (utils.toLowercase f.1, trimLeft f.2) :=
    List.map_congr_left fun f hf => utils.readField_of_noColon (h f hf).noColon
  have hdrop : (block (fields.map fieldLine) ++ (crlf ++ (crlf ++ body))).drop
      ((block (fields.map fieldLine)).length + 4) = body := by
    rw [← List.append_assoc crlf, ← List.append_assoc]
    apply List.drop_left'
    rw [List.length_append]
    rfl
  rw [readResponse, utils.find_blank hlines hlines_ne, Option.map_some, List.take_left, hdrop,
    utils.headerLines_block hlines, utils.filterMap_fieldLine, hread]

/-- The first flush is written as a block of lines, with the status in front. -/
theorem flushCallback_first {info : FlushCallbackContainer} (h : info.flushedBefore = false) :
    FastcgippRequestAdapter.flushCallback info =
      block (((bytes "status", info.getStatusString) :: info.headers).map fieldLine) ++
        (crlf ++ (crlf ++ info.body)) := by
  have hstatus : bytes "status: " = bytes "status" ++ bytes ": " := rfl
  have hline : FlushCallbackContainer.headerLine = fun f => fieldLine f ++ crlf := rfl
  have hnot : ¬ info.flushedBefore = true := by
    rw [h]
    exact Bool.false_ne_true
  have hblock : (((bytes "status", info.getStatusString) :: info.headers).map fieldLine).flatMap
      (fun l => l ++ crlf) =
        block (((bytes "status", info.getStatusString) :: info.headers).map fieldLine) ++ crlf :=
    utils.flatMap_line (List.cons_ne_nil _ _)
  rw [← List.append_assoc (block _), ← hblock, List.flatMap_map, List.flatMap_cons,
    FastcgippRequestAdapter.flushCallback, FlushCallbackContainer.getFullHttp, if_neg hnot,
    if_neg hnot, hstatus, hline]
  simp only [fieldLine, List.append_assoc]

/-- What the reference model sends, as a first flush. -/
def Emitted.container (e : Emitted) : FlushCallbackContainer := ⟨e.status, e.head, e.body, false⟩

/-- What the callback of the FastCGI handler has sent, when the response is complete, is read as
the status and the header fields of the first flush of the reference model, the fields in any
order, and all the bodies. -/
def ReadsBack (order : HashOrder) (conn : Connection) (calls : List ResponseCall) : Prop :=
  ∃ e es fields,
    sent ((Response.ofConnection conn).outputs (calls ++ [.flushResponse])) = e :: es ∧
    readResponse ((sent (conn.outputs order (calls ++ [.flushResponse]))).flatMap
        FastcgippRequestAdapter.flushCallback) =
      some ((bytes "status", e.container.getStatusString) :: fields,
        (e :: es).flatMap (·.body)) ∧
    fields.Perm (e.head.map fun f => (f.1, trimLeft f.2))

theorem noColon_status : ':'.toUInt8 ∉ bytes "status" := by decide

theorem readsBack_of_tidy {conn : Connection} (order : HashOrder) (h : Fresh conn)
    (htidy : (Response.ofConnection conn).Tidy) {calls : List ResponseCall}
    (hcalls : ∀ call ∈ calls, call.OneLine) : ReadsBack order conn calls := by
  have hflush : ∀ call ∈ calls ++ [.flushResponse], call.OneLine :=
    List.forall_mem_append.mpr ⟨hcalls, List.forall_mem_singleton.mpr trivial⟩
  have hlines := htidy.sentLine_run hflush
  obtain ⟨hsent, -⟩ := forall₂_sent (h.represents.outputs order (calls ++ [.flushResponse]))
  obtain ⟨first, rest, hfirst, hbefore, hrest⟩ := flushedBefore_first order calls h.notFlushed
  rw [hfirst] at hsent
  obtain ⟨e, es, hsends, hothers, hreference⟩ := List.forall₂_cons_left_iff.mp hsent
  rw [hreference, List.forall_mem_cons] at hlines
  have hhead : ∀ f ∈ first.headers, SentLine f :=
    fun f hf => hlines.1 f (hsends.headers.mem_iff.mp hf)
  have hstatus : first.getStatusString = e.container.getStatusString := by
    rw [FlushCallbackContainer.getStatusString, FlushCallbackContainer.getStatusString,
      hsends.status]
    rfl
  have hstatusLine : OneLineField (bytes "status", first.getStatusString) :=
    { noColon := noColon_status
      name := unbroken_of_all rfl
      value := unbroken_getStatusString first }
  have hfields : ∀ f ∈ (bytes "status", first.getStatusString) :: first.headers,
      OneLineField f :=
    List.forall_mem_cons.mpr ⟨hstatusLine, fun f hf => (hhead f hf).toOneLineField⟩
  have hbodies : rest.flatMap (·.body) = es.flatMap (·.body) := by
    rw [List.flatMap_def, List.flatMap_def, map_body_of_sends hothers]
  have hsame : (first.headers.map fun f => (utils.toLowercase f.1, trimLeft f.2)) =
      first.headers.map fun f => (f.1, trimLeft f.2) :=
    List.map_congr_left fun f hf => by rw [(hhead f hf).lowercase]
  have hname : utils.toLowercase (bytes "status") = bytes "status" := rfl
  refine ⟨e, es, first.headers.map fun f => (f.1, trimLeft f.2), hreference, ?_,
    hsends.headers.map _⟩
  rw [hfirst, List.flatMap_cons, (flatMap_flushedBefore hrest).1, flushCallback_first hbefore]
  simp only [List.append_assoc]
  rw [readResponse_block (List.cons_ne_nil _ _) hfields, List.map_cons, hsame, hname,
    trimLeft_getStatusString, hstatus, hbodies, hsends.body, List.flatMap_cons]

/-- **A response is read back as it was built**, whatever calls build it, as long as no header
name holds a colon and no header, domain or path of a cookie a line break. Contents and names of
cookies and the session cookie are no danger. -/
theorem response_reads_back (order : HashOrder) (request : Request) (config : Config)
    (ctx : StartContext) (store : SessionStore V) {calls : List ResponseCall}
    (hcalls : ∀ call ∈ calls, call.OneLine) :
    ReadsBack order (Connection.construct request config ctx store).2.1 calls :=
  readsBack_of_tidy order (fresh_construct request config ctx store)
    (tidy_construct request config ctx store) hcalls

/-- A response in two flushes, with a header and a cookie. -/
theorem response_reads_back_sample :
    ReadsBack ⟨id, fun _ => .refl _⟩
      (Connection.construct {} {} Connection.sampleContext
        (SessionStore.empty : SessionStore Nat)).2.1
      [.setHeader (bytes "X-App") (bytes "nawa"), .setCookie (bytes "a") { content := bytes "b" },
        .write (bytes "one"), .flushResponse, .write (bytes "two")] := by
  have hfield : OneLineField (bytes "X-App", bytes "nawa") :=
    { noColon := by decide
      name := unbroken_of_all rfl
      value := unbroken_of_all rfl }
  have hcookie : PlainAttributes { content := bytes "b" } :=
    ⟨fun _ h => absurd h (Option.not_mem_none _), fun _ h => absurd h (Option.not_mem_none _)⟩
  apply response_reads_back
  simp only [List.forall_mem_cons]
  exact ⟨hfield, hcookie, trivial, trivial, trivial, fun _ h => absurd h List.not_mem_nil⟩

end Nawa
