import Nawa.Laws.Mail.MimeEmail
import Nawa.Mail.Email

/-!
# The raw source of an email, read back

`getRaw` writes one header block, a blank line and a body (`getRaw_eq`). The header block is read
by `parseHeaders`, whatever the order of the hash map; the text of a `SimpleEmail` is decoded; and
the body of a `MimeEmail`, behind its first line, is read by `MimeMultipart.parse`, a nested list
by another call for the part that holds it.

Behind the content of each part that is read there is one line ending that was not sent.
-/

namespace Nawa.mail

open Lib (AssocMap)
open Lib.Search
open MimeMultipart (Part makePart parsePart parseParts)
open utils (Line Unbroken block fieldLine fieldLine_line filterMap_fieldLine headerLine_fieldLine
  lastValue lastValue_of_mem readField readField_of_noColon)

/-! ## Header block and body -/

/-- The headers that `getRaw` writes in its own right, behind those of the email. -/
def Content.ownFields (boundary : Bytes) : Content → List (Bytes × Bytes)
  | .simpleEmail _ quotedPrintableEncode =>
    (bytes "MIME-Version", bytes "1.0") ::
      if quotedPrintableEncode then
        [(bytes "Content-Transfer-Encoding", bytes "quoted-printable")]
      else []
  | .mimeEmail multipartType _ =>
    [(bytes "MIME-Version", bytes "1.0"),
      (bytes "Content-Type", multipartContentType multipartType boundary)]

def Content.ownHeader : Content → Bytes → Bool
  | .simpleEmail _ quotedPrintableEncode => SimpleEmail.ownHeader quotedPrintableEncode
  | .mimeEmail _ _ => MimeEmail.ownHeader

/-- The text of a `SimpleEmail`, as it is sent. -/
def sentText (text : Bytes) (quotedPrintableEncode : Bool) : Bytes :=
  if quotedPrintableEncode then encoding.quotedPrintableEncode text crlf false false else text

/-- The body, and the number of calls of `genBoundary` after it. -/
def Content.body (digest : Nat → Bytes) (calls : Nat) (rules : Option ReplacementRules) :
    Content → Except Failure (Bytes × Nat)
  | .simpleEmail text quotedPrintableEncode =>
    (SimpleEmail.replaced text rules).map fun text =>
      (sentText text quotedPrintableEncode, calls)
  | .mimeEmail _ mimeParts =>
    (mergeMimePartList rules digest (genBoundary (digest calls)) (calls + 1) mimeParts).map
      fun merged => (MimeEmail.preamble ++ merged.1, merged.2)

/-- The fields of the header block. -/
def Email.fields (order : HashOrder) (boundary : Bytes) (email : Email) : List (Bytes × Bytes) :=
  (order.order email.headers.entries).filter (fun e => !email.content.ownHeader e.1) ++
    email.content.ownFields boundary

theorem Email.lines_ne (order : HashOrder) (boundary : Bytes) (email : Email) :
    (email.fields order boundary).map fieldLine ≠ [] := by
  rw [fields, List.map_append]
  cases email.content <;> exact List.append_ne_nil_of_right_ne_nil _ (List.cons_ne_nil _ _)

theorem headersText_eq (own : Bytes → Bool) (headers : List (Bytes × Bytes)) :
    headersText own headers =
      ((headers.filter fun e => !own e.1).map fieldLine).flatMap fun l => l ++ crlf := by
  rw [headersText, List.flatMap_map]
  rfl

/-- **The raw source is the header block, a blank line and the body.** -/
theorem Email.getRaw_eq (order : HashOrder) (digest : Nat → Bytes) (calls : Nat) (email : Email)
    (rules : Option ReplacementRules) :
    email.getRaw order digest calls rules =
      (email.content.body digest calls rules).map fun body =>
        (block ((email.fields order (genBoundary (digest calls))).map fieldLine) ++
          (crlf ++ (crlf ++ body.1)), body.2) := by
  have hblock := utils.flatMap_line (email.lines_ne order (genBoundary (digest calls)))
  rw [fields, List.map_append, List.flatMap_append, ← headersText_eq] at hblock
  simp only [← List.append_assoc (block _), fields, List.map_append]
  rw [← hblock]
  obtain ⟨headers, content⟩ := email
  cases content with
  | simpleEmail text quotedPrintableEncode =>
    show ((SimpleEmail.replaced text rules).map _).map _ =
      ((SimpleEmail.replaced text rules).map _).map _
    cases SimpleEmail.replaced text rules with
    | error e => rfl
    | ok text =>
      refine congrArg Except.ok (Prod.ext ?_ rfl)
      cases quotedPrintableEncode <;> simp only [List.append_assoc] <;> rfl
  | mimeEmail multipartType mimeParts =>
    show (mergeMimePartList _ _ _ _ _).map _ = ((mergeMimePartList _ _ _ _ _).map _).map _
    cases mergeMimePartList rules digest (genBoundary (digest calls)) (calls + 1) mimeParts with
    | error e => rfl
    | ok merged =>
      refine congrArg Except.ok (Prod.ext ?_ rfl)
      simp only [Content.ownFields, Content.ownHeader, List.map_cons, List.map_nil,
        List.flatMap_cons, List.flatMap_nil, fieldLine, multipartContentType, List.append_assoc]
      rfl

/-! ## The headers -/

/-- Header fields without line breaks, with names that a reader can tell apart. -/
structure Email.Sendable (email : Email) : Prop where
  unbroken : ∀ e ∈ email.headers.entries, Unbroken e.1 ∧ Unbroken e.2
  noColon : ∀ e ∈ email.headers.entries, ':'.toUInt8 ∉ e.1
  distinct : (email.headers.entries.map fun e => utils.toLowercase e.1).Nodup

/-- A header block is read as the headers of the email, but for those that `getRaw` writes in its
own right. -/
structure ReadsHeaders (email : Email) (boundary head : Bytes) : Prop where
  own : ∀ f ∈ email.content.ownFields boundary,
    (utils.parseHeaders head).lookup (utils.toLowercase f.1) = some f.2
  others : ∀ e ∈ email.headers.entries,
    (∀ f ∈ email.content.ownFields boundary, utils.toLowercase f.1 ≠ utils.toLowercase e.1) →
      (utils.parseHeaders head).lookup (utils.toLowercase e.1) = some (trimLeft e.2)

/-- A field that is read as it is written. -/
structure Plain (f : Bytes × Bytes) : Prop where
  noColon : ':'.toUInt8 ∉ f.1
  unbroken : Unbroken f.1 ∧ Unbroken f.2
  trimmed : trimLeft f.2 = f.2

theorem plain_version : Plain (bytes "MIME-Version", bytes "1.0") :=
  ⟨by decide, ⟨List.all_iff_forall_prop.mp (by decide), List.all_iff_forall_prop.mp (by decide)⟩,
    rfl⟩

theorem plain_encoding :
    Plain (bytes "Content-Transfer-Encoding", bytes "quoted-printable") :=
  ⟨by decide, ⟨List.all_iff_forall_prop.mp (by decide), List.all_iff_forall_prop.mp (by decide)⟩,
    rfl⟩

theorem unbroken_genBoundary (digest : Bytes) : Unbroken (genBoundary digest) := by
  intro c hc
  obtain ⟨hchar, hline⟩ := mem_genBoundary hc
  refine ⟨?_, hline⟩
  rintro rfl
  exact absurd hchar (by decide)

theorem unbroken_multipartContentType (multipartType : MultipartType) (digest : Bytes) :
    Unbroken (multipartContentType multipartType (genBoundary digest)) := by
  have htype : Unbroken (bytes "multipart/" ++ multipartTypeToString multipartType ++
      bytes "; boundary=\"") := by
    cases multipartType <;> exact List.all_iff_forall_prop.mp (by decide)
  have hquote : Unbroken [quote] := List.all_iff_forall_prop.mp (by decide)
  rw [multipartContentType, Unbroken, List.forall_mem_append, List.forall_mem_append]
  exact ⟨⟨htype, unbroken_genBoundary digest⟩, hquote⟩

theorem plain_contentType (multipartType : MultipartType) (digest : Bytes) :
    Plain (bytes "Content-Type", multipartContentType multipartType (genBoundary digest)) := by
  have hcolon : ':'.toUInt8 ∉ bytes "Content-Type" := by decide
  have hname : Unbroken (bytes "Content-Type") := List.all_iff_forall_prop.mp (by decide)
  exact ⟨hcolon, ⟨hname, unbroken_multipartContentType multipartType digest⟩, rfl⟩

/-- The fields that `getRaw` writes itself are read as they are. -/
theorem Content.plain_own (content : Content) (digest : Bytes) :
    ∀ f ∈ content.ownFields (genBoundary digest), Plain f := by
  cases content with
  | simpleEmail text quotedPrintableEncode =>
    rw [ownFields, List.forall_mem_cons]
    refine ⟨plain_version, ?_⟩
    cases quotedPrintableEncode with
    | false => exact fun f hf => absurd hf List.not_mem_nil
    | true => exact List.forall_mem_singleton.mpr plain_encoding
  | mimeEmail multipartType mimeParts =>
    rw [ownFields, List.forall_mem_cons, List.forall_mem_singleton]
    exact ⟨plain_version, plain_contentType multipartType digest⟩

theorem Content.nodup_ownFields (content : Content) (boundary : Bytes) :
    ((content.ownFields boundary).map fun f => utils.toLowercase f.1).Nodup := by
  cases content with
  | simpleEmail text quotedPrintableEncode =>
    cases quotedPrintableEncode with
    | false => exact List.nodup_singleton _
    | true =>
      show [utils.toLowercase (bytes "MIME-Version"),
        utils.toLowercase (bytes "Content-Transfer-Encoding")].Nodup
      decide
  | mimeEmail multipartType mimeParts =>
    show [utils.toLowercase (bytes "MIME-Version"), utils.toLowercase (bytes "Content-Type")].Nodup
    decide

/-- A header that is left out is one of those. -/
theorem Content.exists_own {content : Content} {name : Bytes} (h : content.ownHeader name = true)
    (boundary : Bytes) : ∃ f ∈ content.ownFields boundary, f.1 = name := by
  cases content with
  | simpleEmail text quotedPrintableEncode =>
    rcases Bool.or_eq_true_iff.mp h with h | h
    · exact ⟨_, List.mem_cons_self, (of_decide_eq_true h).symm⟩
    · obtain ⟨hquoted, h⟩ := Bool.and_eq_true_iff.mp h
      rw [ownFields, if_pos hquoted]
      exact ⟨_, List.mem_cons_of_mem _ List.mem_cons_self, (of_decide_eq_true h).symm⟩
  | mimeEmail multipartType mimeParts =>
    rcases Bool.or_eq_true_iff.mp h with h | h
    · exact ⟨_, List.mem_cons_self, (of_decide_eq_true h).symm⟩
    · exact ⟨_, List.mem_cons_of_mem _ List.mem_cons_self, (of_decide_eq_true h).symm⟩

theorem Email.lines_line {email : Email} (h : email.Sendable) (order : HashOrder)
    (digest : Bytes) : ∀ l ∈ (email.fields order (genBoundary digest)).map fieldLine, Line l := by
  intro l hl
  obtain ⟨f, hf, rfl⟩ := List.mem_map.mp hl
  rcases List.mem_append.mp hf with hf | hf
  · exact fieldLine_line (h.unbroken f ((order.perm _).mem_iff.mp (List.mem_filter.mp hf).1))
  · exact fieldLine_line (email.content.plain_own digest f hf).unbroken

/-- **The header block is read as the headers of the email**, in whatever order they come. -/
theorem Email.readsHeaders {email : Email} (h : email.Sendable) (order : HashOrder)
    (digest : Bytes) :
    ReadsHeaders email (genBoundary digest)
      (block ((email.fields order (genBoundary digest)).map fieldLine)) := by
  have hmem : ∀ e ∈ (order.order email.headers.entries).filter
      (fun e => !email.content.ownHeader e.1), e ∈ email.headers.entries := fun e he =>
    (order.perm _).mem_iff.mp (List.mem_filter.mp he).1
  have hlines := Email.lines_line h order digest
  have hown : (email.content.ownFields (genBoundary digest)).map readField =
      (email.content.ownFields (genBoundary digest)).map fun f =>
        (utils.toLowercase f.1, f.2) := by
    refine List.map_congr_left fun f hf => ?_
    have hplain := email.content.plain_own digest f hf
    rw [readField_of_noColon hplain.noColon, hplain.trimmed]
  have hlookup : ∀ name, (utils.parseHeaders
      (block ((email.fields order (genBoundary digest)).map fieldLine))).lookup name =
        (lastValue name ((email.content.ownFields (genBoundary digest)).map fun f =>
          (utils.toLowercase f.1, f.2))).or
          (lastValue name (((order.order email.headers.entries).filter
            (fun e => !email.content.ownHeader e.1)).map readField)) := by
    intro name
    rw [utils.lookup_parseHeaders_block hlines, filterMap_fieldLine, fields, List.map_append,
      utils.lastValue_append, hown]
  refine ⟨fun f hf => ?_, fun e he hother => ?_⟩
  · have hnodup : (((email.content.ownFields (genBoundary digest)).map fun f =>
        (utils.toLowercase f.1, f.2)).map Prod.fst).Nodup := by
      rw [List.map_map]
      exact email.content.nodup_ownFields _
    rw [hlookup, lastValue_of_mem hnodup (List.mem_map_of_mem hf), Option.some_or]
  · have hnone : lastValue (utils.toLowercase e.1)
        ((email.content.ownFields (genBoundary digest)).map fun f =>
          (utils.toLowercase f.1, f.2)) = none := by
      apply utils.lastValue_of_not_mem
      rw [List.map_map]
      intro hmem
      obtain ⟨f, hf, heq⟩ := List.mem_map.mp hmem
      exact hother f hf heq
    have hkept : e ∈ (order.order email.headers.entries).filter
        (fun e => !email.content.ownHeader e.1) := by
      refine List.mem_filter.mpr ⟨(order.perm _).mem_iff.mpr he, ?_⟩
      rw [Bool.not_eq_true', Bool.eq_false_iff]
      intro hown
      obtain ⟨f, hf, heq⟩ := email.content.exists_own hown (genBoundary digest)
      exact hother f hf (heq ▸ rfl)
    have hread : ((order.order email.headers.entries).filter
        (fun e => !email.content.ownHeader e.1)).map readField =
          ((order.order email.headers.entries).filter
            (fun e => !email.content.ownHeader e.1)).map fun e =>
              (utils.toLowercase e.1, trimLeft e.2) :=
      List.map_congr_left fun f hf => readField_of_noColon (h.noColon f (hmem f hf))
    have hnodup : ((((order.order email.headers.entries).filter
        (fun e => !email.content.ownHeader e.1)).map fun e =>
          (utils.toLowercase e.1, trimLeft e.2)).map Prod.fst).Nodup := by
      rw [List.map_map]
      exact (((order.perm _).map _).nodup_iff.mpr h.distinct).sublist
        (List.filter_sublist.map _)
    rw [hlookup, hnone, Option.none_or, hread]
    exact lastValue_of_mem hnodup (List.mem_map_of_mem hkept)

/-! ## The text of a `SimpleEmail` -/

/-- What a reader makes of the body of a `SimpleEmail`. -/
def readText (quotedPrintableEncode : Bool) (body : Bytes) : Except StdException Bytes :=
  if quotedPrintableEncode then encoding.quotedPrintableDecode body false else .ok body

theorem readText_sentText (text : Bytes) (quotedPrintableEncode : Bool) :
    readText quotedPrintableEncode (sentText text quotedPrintableEncode) = .ok text := by
  cases quotedPrintableEncode with
  | false => rfl
  | true =>
    have hid : encoding.readChar false = id := rfl
    have hloop := encoding.quotedPrintableDecode_loop (.inl rfl) false false 0 text
      encoding.quotedPrintableDecode_nil
    rw [hid, List.map_id, List.append_nil, List.append_nil] at hloop
    exact hloop

theorem replaced_returns (text : Bytes) {rules : Option ReplacementRules}
    (h : ∀ r ∈ rules, ∀ e ∈ r, e.1 ≠ []) : ∃ sent, SimpleEmail.replaced text rules = .ok sent := by
  cases rules with
  | none => exact ⟨text, rfl⟩
  | some r => exact (utils.stringReplace_returns_iff text r).mpr (h r rfl)

/-- **A `SimpleEmail` is read back**: its headers from the block before the first blank line, and
its text, with the replacements, from what follows. -/
theorem simpleEmail_read_back (order : HashOrder) (digest : Nat → Bytes) (calls : Nat)
    {headers : HeadersMap} {text : Bytes} {quotedPrintableEncode : Bool}
    (h : (⟨headers, .simpleEmail text quotedPrintableEncode⟩ : Email).Sendable)
    {rules : Option ReplacementRules} (hrules : ∀ r ∈ rules, ∀ e ∈ r, e.1 ≠ []) :
    ∃ head body sent,
      Email.getRaw order digest calls ⟨headers, .simpleEmail text quotedPrintableEncode⟩ rules =
        .ok (head ++ (crlf ++ (crlf ++ body)), calls) ∧
      find (crlf ++ crlf) (head ++ (crlf ++ (crlf ++ body))) = some head.length ∧
      ReadsHeaders ⟨headers, .simpleEmail text quotedPrintableEncode⟩
        (genBoundary (digest calls)) head ∧
      SimpleEmail.replaced text rules = .ok sent ∧
      readText quotedPrintableEncode body = .ok sent := by
  obtain ⟨sent, hsent⟩ := replaced_returns text hrules
  have hbody : Content.body digest calls rules (.simpleEmail text quotedPrintableEncode) =
      .ok (sentText sent quotedPrintableEncode, calls) := by
    rw [Content.body, hsent]
    rfl
  refine ⟨_, sentText sent quotedPrintableEncode, sent, ?_,
    utils.find_blank (Email.lines_line h order (digest calls)) (Email.lines_ne _ _ _) _,
    Email.readsHeaders h order (digest calls), hsent, readText_sentText ..⟩
  rw [Email.getRaw_eq, hbody]
  rfl

/-- An email with a subject. -/
def sampleHeaders : HeadersMap := ⟨[(bytes "Subject", bytes "hello")], List.nodup_singleton _⟩

theorem sampleHeaders_sendable (content : Content) :
    (⟨sampleHeaders, content⟩ : Email).Sendable where
  unbroken := List.forall_mem_singleton.mpr
    ⟨List.all_iff_forall_prop.mp (by decide), List.all_iff_forall_prop.mp (by decide)⟩
  noColon := List.forall_mem_singleton.mpr (by decide)
  distinct := List.nodup_singleton _

/-- The order in which a map with one entry is gone through. -/
def sampleOrder : HashOrder := ⟨id, fun _ => .refl _⟩

theorem simpleEmail_read_back_sample : ∃ head body sent,
    Email.getRaw sampleOrder (fun _ => []) 0 ⟨sampleHeaders, .simpleEmail (bytes "a=b") true⟩ none =
      .ok (head ++ (crlf ++ (crlf ++ body)), 0) ∧
    find (crlf ++ crlf) (head ++ (crlf ++ (crlf ++ body))) = some head.length ∧
    ReadsHeaders ⟨sampleHeaders, .simpleEmail (bytes "a=b") true⟩ (genBoundary []) head ∧
    SimpleEmail.replaced (bytes "a=b") none = .ok sent ∧ readText true body = .ok sent :=
  simpleEmail_read_back sampleOrder (fun _ => []) 0 (sampleHeaders_sendable _)
    fun _ hr => absurd hr (Option.not_mem_none _)

/-! ## Nested lists -/

section Tree

variable (rules : Option ReplacementRules) (digest : Nat → Bytes)

mutual

/-- An element that may be sent: a part, or a list, but not neither. -/
def SendableElement : MimePartOrList → Prop
  | .mk (some mimePart) _ => mimePart.Sendable
  | .mk none (some (_, mimeParts)) => SendableParts mimeParts
  | .mk none none => False

def SendableParts : List MimePartOrList → Prop
  | [] => True
  | part :: parts => SendableElement part ∧ SendableParts parts

end

mutual

/-- No boundary of a list within the element occurs in an element of its list. -/
def freshElement (calls : Nat) : MimePartOrList → Bool
  | .mk none (some (_, mimeParts)) =>
    freshParts (genBoundary (digest calls)) (calls + 1) mimeParts
  | _ => true

/-- The boundary occurs in no element of the list, and so on in the lists within them. -/
def freshParts (boundary : Bytes) (calls : Nat) : List MimePartOrList → Bool
  | [] => true
  | part :: parts =>
    freshElement calls part && match elementText rules digest calls part with
      | .ok r => (find boundary r.1).isNone && freshParts boundary r.2 parts
      | .error _ => true

end

mutual

/-- What has been read is the element: a part with its data, or a part whose content is read as
the list by another call of `parse`. -/
def ReadsElement : MimePartOrList → Part → Prop
  | .mk (some mimePart) _, q =>
    ∃ data, mimePart.replaced rules = .ok data ∧ q = mimePart.received data
  | .mk none (some (multipartType, mimeParts)), q =>
    ∃ boundary data, q.contentType = multipartContentType multipartType boundary ∧
      MimeMultipart.parse {} q.contentType q.content = (data, .ok ()) ∧
      ReadsParts mimeParts data.parts
  | .mk none none, _ => False

def ReadsParts : List MimePartOrList → List Part → Prop
  | part :: parts, q :: qs => ReadsElement part q ∧ ReadsParts parts qs
  | [], [] => True
  | _, _ => False

end

end Tree

variable {rules : Option ReplacementRules} {digest : Nat → Bytes}

/-- The header block of an element that is a list. -/
def listLines (multipartType : MultipartType) (boundary : Bytes) : List Bytes :=
  [fieldLine (bytes "Content-Type", multipartContentType multipartType boundary)]

theorem listLines_line (multipartType : MultipartType) (d : Bytes) :
    ∀ l ∈ listLines multipartType (genBoundary d), Line l :=
  List.forall_mem_singleton.mpr (fieldLine_line (plain_contentType multipartType d).unbroken)

theorem contentType_listLines (multipartType : MultipartType) (d content : Bytes) :
    (makePart (block (listLines multipartType (genBoundary d))) content).contentType =
      multipartContentType multipartType (genBoundary d) := by
  have hplain := plain_contentType multipartType d
  have hlookup := utils.lookup_parseHeaders_block (listLines_line multipartType d)
    (bytes "content-type")
  rw [listLines, List.filterMap_cons_some (headerLine_fieldLine _), List.filterMap_nil,
    readField_of_noColon hplain.noColon, hplain.trimmed] at hlookup
  show ((utils.parseHeaders _).lookup _).getD [] = _
  rw [listLines, hlookup]
  rfl

/-- The text of an element that is a list. -/
theorem elementText_list (calls : Nat) (multipartType : MultipartType)
    (mimeParts : List MimePartOrList) :
    elementText rules digest calls (.mk none (some (multipartType, mimeParts))) =
      (mergeMimePartList rules digest (genBoundary (digest calls)) (calls + 1) mimeParts).map
        fun r => (block (listLines multipartType (genBoundary (digest calls))) ++
          (crlf ++ (crlf ++ r.1)) ++ crlf ++ crlf, r.2) := by
  rw [elementText]
  refine congrArg (Except.map · _) ?_
  funext r
  refine Prod.ext ?_ rfl
  simp only [listLines, utils.block_singleton, fieldLine, multipartContentType, List.append_assoc]
  rfl

/-- The closing delimiter ends the loop, whatever follows it. -/
theorem parsePart_closing_append (boundary tail : Bytes) :
    parsePart boundary (boundary ++ (bytes "--" ++ tail)) = .finished := by
  have hopen : ¬ ((boundary ++ (bytes "--" ++ tail)).length < boundary.length + 2 ∨
      (boundary ++ (bytes "--" ++ tail)).take boundary.length ≠ boundary) := by
    have hdashes : (bytes "--").length = 2 := rfl
    rintro (hlt | hne)
    · rw [List.length_append, List.length_append] at hlt
      omega
    · exact hne List.take_left
  rw [parsePart, if_neg hopen, List.drop_left]
  exact if_pos rfl

/-- The boundary of a list is found in its content type. -/
theorem parse_multipart (multipartType : MultipartType) {d text : Bytes} {qs : List Part}
    (h : parseParts (delimiter (genBoundary d)) text [] = (qs, none)) :
    ∃ data, MimeMultipart.parse {} (multipartContentType multipartType (genBoundary d)) text =
      (data, .ok ()) ∧ data.parts = qs := by
  obtain ⟨g, hsearch, hg⟩ := findBoundary_multipart multipartType (genBoundary_ne d)
    fun c hc => (mem_genBoundary hc).1
  have hdelimiter : bytes "--" ++ (g 1).getD [] = delimiter (genBoundary d) := by
    rw [hg]
    rfl
  rw [MimeMultipart.parse, hsearch]
  dsimp only
  rw [hdelimiter, h]
  exact ⟨_, rfl, rfl⟩

theorem delimiter_prefix_merge {boundary : Bytes} {calls : Nat} {parts : List MimePartOrList}
    {r : Bytes × Nat} (h : mergeMimePartList rules digest boundary calls parts = .ok r)
    (tail : Bytes) : delimiter boundary <+: r.1 ++ tail := by
  cases parts with
  | nil =>
    rw [mergeMimePartList] at h
    cases h
    exact (List.prefix_append _ _).trans (List.prefix_append _ _)
  | cons part parts =>
    rw [mergeMimePartList] at h
    obtain ⟨text, -, h⟩ := bind_eq_ok_iff.mp h
    obtain ⟨rest, -, rfl⟩ := map_eq_ok_iff.mp h
    simp only [List.append_assoc]
    exact ⟨_, List.append_assoc _ _ _⟩

mutual

/-- A turn of the loop reads an element. -/
theorem parsePart_element {part : MimePartOrList} (hsend : SendableElement part) {d : Bytes}
    {calls : Nat} (hfresh : freshElement rules digest calls part = true) {r : Bytes × Nat}
    (htext : elementText rules digest calls part = .ok r)
    (hfree : ¬ genBoundary d <:+: r.1) {next : Bytes}
    (hnext : delimiter (genBoundary d) <+: next) :
    ∃ q, parsePart (delimiter (genBoundary d))
        (delimiter (genBoundary d) ++ (crlf ++ (r.1 ++ next))) = .part q next ∧
      ReadsElement rules part q := by
  match part with
  | .mk (some mimePart) _ =>
    rw [elementText, MimePart.text] at htext
    obtain ⟨text, hpart, rfl⟩ := map_eq_ok_iff.mp htext
    obtain ⟨data, hdata, rfl⟩ := map_eq_ok_iff.mp hpart
    exact ⟨_, MimePart.parsePart_text hsend hfree hnext, data, hdata, rfl⟩
  | .mk none (some (multipartType, mimeParts)) =>
    rw [elementText_list] at htext
    obtain ⟨merged, hmerge, rfl⟩ := map_eq_ok_iff.mp htext
    obtain ⟨qs, hparse, hreads⟩ := parseParts_mergeMimePartList hsend hfresh hmerge crlf []
    obtain ⟨data, hparse, hqs⟩ := parse_multipart multipartType hparse
    have hfour : 4 ≤ (block (listLines multipartType (genBoundary (digest calls)))).length := by
      have hname : (bytes "Content-Type").length = 12 := rfl
      rw [listLines, utils.block_singleton]
      show 4 ≤ (bytes "Content-Type" ++ bytes ": " ++ _).length
      rw [List.length_append, List.length_append]
      omega
    refine ⟨_, parsePart_block (listLines_line multipartType _) (List.cons_ne_nil _ _) hfour hfree
      hnext, genBoundary (digest calls), data, contentType_listLines .., ?_, ?_⟩
    · rw [contentType_listLines]
      exact hparse
    · rw [hqs, List.nil_append]
      exact hreads

/-- **The loop reads a list**, whatever it has read before and whatever follows the list. -/
theorem parseParts_mergeMimePartList {parts : List MimePartOrList} (hsend : SendableParts parts)
    {d : Bytes} {calls : Nat}
    (hfresh : freshParts rules digest (genBoundary d) calls parts = true) {r : Bytes × Nat}
    (hmerge : mergeMimePartList rules digest (genBoundary d) calls parts = .ok r)
    (tail : Bytes) (before : List Part) :
    ∃ qs, parseParts (delimiter (genBoundary d)) (r.1 ++ tail) before = (before ++ qs, none) ∧
      ReadsParts rules parts qs := by
  match parts with
  | [] =>
    rw [mergeMimePartList] at hmerge
    cases hmerge
    refine ⟨[], ?_, trivial⟩
    have hclosing : parseParts (delimiter (genBoundary d))
        (delimiter (genBoundary d) ++ (bytes "--" ++ tail)) before = (before, none) :=
      MimeMultipart.parseParts_finished (List.cons_ne_nil _ _) (parsePart_closing_append _ tail)
    rw [List.append_nil, ← hclosing, List.append_assoc]
    rfl
  | part :: parts =>
    rw [mergeMimePartList] at hmerge
    obtain ⟨text, htext, hmerge⟩ := bind_eq_ok_iff.mp hmerge
    obtain ⟨rest, hrest, rfl⟩ := map_eq_ok_iff.mp hmerge
    rw [freshParts, htext, Bool.and_eq_true_iff, Bool.and_eq_true_iff, Option.isNone_iff_eq_none,
      find_eq_none] at hfresh
    obtain ⟨hfresh, hfree, hfresh'⟩ := hfresh
    obtain ⟨q, hturn, hq⟩ := parsePart_element hsend.1 hfresh htext hfree
      (delimiter_prefix_merge hrest tail)
    obtain ⟨qs, hparse, hqs⟩ := parseParts_mergeMimePartList hsend.2 hfresh' hrest tail
      (before ++ [q])
    refine ⟨q :: qs, ?_, hq, hqs⟩
    rw [List.append_assoc, List.singleton_append] at hparse
    rw [← hparse, ← MimeMultipart.parseParts_part hturn]
    simp only [delimiter, List.append_assoc]

end

mutual

theorem elementText_returns (hrules : ∀ r ∈ rules, ∀ e ∈ r, e.1 ≠ []) (calls : Nat)
    (part : MimePartOrList) : ∃ r, elementText rules digest calls part = .ok r := by
  match part with
  | .mk (some mimePart) _ =>
    obtain ⟨data, hdata⟩ := (replaced_returns_iff mimePart rules).mpr fun _ => hrules
    rw [elementText, MimePart.text, hdata]
    exact ⟨_, rfl⟩
  | .mk none (some (multipartType, mimeParts)) =>
    obtain ⟨r, hr⟩ := mergeMimePartList_returns hrules (genBoundary (digest calls)) (calls + 1)
      mimeParts
    rw [elementText_list, hr]
    exact ⟨_, rfl⟩
  | .mk none none => exact ⟨_, rfl⟩

theorem mergeMimePartList_returns (hrules : ∀ r ∈ rules, ∀ e ∈ r, e.1 ≠ []) (boundary : Bytes)
    (calls : Nat) (parts : List MimePartOrList) :
    ∃ r, mergeMimePartList rules digest boundary calls parts = .ok r := by
  match parts with
  | [] => exact ⟨_, rfl⟩
  | part :: parts =>
    obtain ⟨text, htext⟩ := elementText_returns hrules calls part
    obtain ⟨rest, hrest⟩ := mergeMimePartList_returns hrules boundary text.2 parts
    rw [mergeMimePartList, htext, Except.bind, hrest]
    exact ⟨_, rfl⟩

end

/-- **A `MimeEmail` is read back**: its headers from the block before the first blank line, and its
parts, with the lists nested in them, from what follows the first line of the body. -/
theorem mimeEmail_read_back (order : HashOrder) {headers : HeadersMap}
    {multipartType : MultipartType} {mimeParts : List MimePartOrList}
    (h : (⟨headers, .mimeEmail multipartType mimeParts⟩ : Email).Sendable)
    (hparts : SendableParts mimeParts) (hrules : ∀ r ∈ rules, ∀ e ∈ r, e.1 ≠ []) {calls : Nat}
    (hfresh : freshParts rules digest (genBoundary (digest calls)) (calls + 1) mimeParts = true) :
    ∃ head body calls' data,
      Email.getRaw order digest calls ⟨headers, .mimeEmail multipartType mimeParts⟩ rules =
        .ok (head ++ (crlf ++ (crlf ++ (MimeEmail.preamble ++ body))), calls') ∧
      find (crlf ++ crlf) (head ++ (crlf ++ (crlf ++ (MimeEmail.preamble ++ body)))) =
        some head.length ∧
      ReadsHeaders ⟨headers, .mimeEmail multipartType mimeParts⟩ (genBoundary (digest calls))
        head ∧
      MimeMultipart.parse {}
        (((utils.parseHeaders head).lookup (bytes "content-type")).getD []) body =
          (data, .ok ()) ∧
      ReadsParts rules mimeParts data.parts := by
  have hreturns : ∃ r, mergeMimePartList rules digest (genBoundary (digest calls)) (calls + 1)
      mimeParts = .ok r := mergeMimePartList_returns hrules _ _ _
  obtain ⟨merged, hmerge⟩ := hreturns
  obtain ⟨qs, hparse, hreads⟩ := parseParts_mergeMimePartList hparts hfresh hmerge [] []
  obtain ⟨data, hparse, hqs⟩ := parse_multipart multipartType hparse
  have hhead := Email.readsHeaders h order (digest calls)
  have htype := hhead.own _ (List.mem_cons_of_mem _ List.mem_cons_self)
  have hbody : Content.body digest calls rules (.mimeEmail multipartType mimeParts) =
      .ok (MimeEmail.preamble ++ merged.1, merged.2) := by
    rw [Content.body, hmerge]
    rfl
  refine ⟨_, merged.1, merged.2, data, ?_,
    utils.find_blank (Email.lines_line h order (digest calls)) (Email.lines_ne _ _ _) _, hhead,
    ?_, ?_⟩
  · rw [Email.getRaw_eq, hbody]
    rfl
  · rw [List.append_nil] at hparse
    exact (congrArg (fun t => MimeMultipart.parse {} (t.getD []) merged.1) htype).trans hparse
  · rw [hqs, List.nil_append]
    exact hreads

/-- A text, and a list of another text. -/
def sampleParts : List MimePartOrList :=
  [.mk (some (textPart .base64)) none,
    .mk none (some (.alternative, [.mk (some (textPart .none)) none]))]

theorem sampleParts_sendable : SendableParts sampleParts :=
  have hpart := fun e => (textPart_sendable e) _ List.mem_cons_self
  ⟨hpart .base64, ⟨hpart .none, trivial⟩, trivial⟩

def sampleDigest (call : Nat) : Bytes := [UInt8.ofNat call]

set_option maxRecDepth 4000 in
theorem mimeEmail_read_back_sample : ∃ head body calls' data,
    Email.getRaw sampleOrder sampleDigest 0 ⟨sampleHeaders, .mimeEmail .mixed sampleParts⟩ none =
      .ok (head ++ (crlf ++ (crlf ++ (MimeEmail.preamble ++ body))), calls') ∧
    find (crlf ++ crlf) (head ++ (crlf ++ (crlf ++ (MimeEmail.preamble ++ body)))) =
      some head.length ∧
    ReadsHeaders ⟨sampleHeaders, .mimeEmail .mixed sampleParts⟩ (genBoundary (sampleDigest 0))
      head ∧
    MimeMultipart.parse {}
      (((utils.parseHeaders head).lookup (bytes "content-type")).getD []) body = (data, .ok ()) ∧
    ReadsParts none sampleParts data.parts :=
  mimeEmail_read_back sampleOrder (sampleHeaders_sendable _) sampleParts_sendable
    (fun _ hr => absurd hr (Option.not_mem_none _)) (by decide)

end Nawa.mail
