import Nawa.Laws.Util.Encoding
import Nawa.Laws.Util.HeaderFields
import Nawa.Laws.Util.MimeMultipart
import Nawa.Mail.MimeEmail

/-!
# Parts of an email, read back

The text that `mergeMimePartList` writes for a list of parts, read by `MimeMultipart.parse`. The
reader finds every part where it has been written, and takes the line ending in front of the
blank line before the next delimiter for the end of the part's content. So the content that is
read ends in one line ending more than the content that was sent, which only base64 ignores.
-/

namespace Nawa.mail

open Lib (AssocMap Regex)
open Lib.Regex
open Lib.Search
open MimeMultipart (Part makePart parsePart parseParts)
open utils (Line Unbroken block fieldLine fieldLine_line filterMap_fieldLine lastValue
  readField)

/-! ## Parts that may be sent -/

/-- A part with a content type, whose header names and values are free of line breaks. -/
structure MimePart.Sendable (p : MimePart) : Prop where
  contentType_ne : p.contentType ≠ []
  contentType : Unbroken p.contentType
  contentDisposition : Unbroken p.contentDisposition
  partHeaders : ∀ e ∈ p.partHeaders, Unbroken e.1 ∧ Unbroken e.2

/-- The header fields of a part. -/
def MimePart.fields (p : MimePart) : List (Bytes × Bytes) :=
  (bytes "Content-Type", p.contentType) ::
    ((if p.contentDisposition ≠ [] then [(bytes "Content-Disposition", p.contentDisposition)]
      else []) ++ p.partHeaders ++
      match p.applyEncoding with
      | .base64 => [(bytes "Content-Transfer-Encoding", bytes "base64")]
      | .quotedPrintable => [(bytes "Content-Transfer-Encoding", bytes "quoted-printable")]
      | .none => [])

/-- The encoded data of a part. -/
def MimePart.payload (p : MimePart) (data : Bytes) : Bytes :=
  match p.applyEncoding with
  | .base64 => encoding.base64Encode data 76 crlf
  | .quotedPrintable => encoding.quotedPrintableEncode data crlf false false
  | .none => data

/-- The decoder for a transfer encoding. -/
def ApplyEncoding.decode (e : ApplyEncoding) (content : Bytes) : Except StdException Bytes :=
  match e with
  | .base64 => .ok (encoding.base64Decode content)
  | .quotedPrintable => encoding.quotedPrintableDecode content false
  | .none => .ok content

/-- A part has come through: its content type, and its data after the replacements. -/
structure Carried (rules : Option ReplacementRules) (p : MimePart) (q : Part) : Prop where
  contentType : q.contentType = p.contentType
  content : ∃ data, p.replaced rules = .ok data ∧ p.applyEncoding.decode q.content = .ok data

/-- What a reader is told about a list with a boundary. -/
def mixedContentType (boundary : Bytes) : Bytes :=
  bytes "multipart/mixed; boundary=\"" ++ boundary ++ [quote]

/-- The elements of a list without nested lists. -/
def elements (parts : List MimePart) : List MimePartOrList :=
  parts.map fun p => .mk (some p) none

/-- The list is written, and a fresh reader gives all of its parts back in order. -/
def Carries (rules : Option ReplacementRules) (digest : Nat → Bytes) (boundary : Bytes)
    (parts : List MimePart) : Prop :=
  ∃ r data, mergeMimePartList rules digest boundary 0 (elements parts) = .ok r ∧
    MimeMultipart.parse {} (mixedContentType boundary) r.1 = (data, .ok ()) ∧
    List.Forall₂ (Carried rules) parts data.parts

/-- What has to hold of a part beyond its being sendable: it is sent as base64, the last of its
fields that is read as a content type is read as its content type, and it does not meet a
replacement rule with an empty key. -/
structure MimePart.Survives (rules : Option ReplacementRules) (p : MimePart) : Prop where
  base64 : p.applyEncoding = .base64
  contentType : lastValue (bytes "content-type") (p.fields.map readField) = some p.contentType
  rules : p.allowReplacements = true → ∀ r ∈ rules, ∀ e ∈ r, e.1 ≠ []

/-! ## The text of a part -/

theorem MimePart.lines_ne (p : MimePart) : p.fields.map fieldLine ≠ [] := List.cons_ne_nil _ _

theorem MimePart.lines_line {p : MimePart} (h : p.Sendable) :
    ∀ l ∈ p.fields.map fieldLine, Line l := by
  have htype : Unbroken (bytes "Content-Type") := List.all_iff_forall_prop.mp (by decide)
  have hdisposition : Unbroken (bytes "Content-Disposition") :=
    List.all_iff_forall_prop.mp (by decide)
  have hencoding : Unbroken (bytes "Content-Transfer-Encoding") :=
    List.all_iff_forall_prop.mp (by decide)
  have hbase64 : Unbroken (bytes "base64") := List.all_iff_forall_prop.mp (by decide)
  have hquoted : Unbroken (bytes "quoted-printable") := List.all_iff_forall_prop.mp (by decide)
  have hfields : ∀ f ∈ p.fields, Unbroken f.1 ∧ Unbroken f.2 := by
    simp only [fields, List.forall_mem_cons, List.forall_mem_append]
    refine ⟨⟨htype, h.contentType⟩, ⟨?_, h.partHeaders⟩, ?_⟩
    · split
      · exact List.forall_mem_singleton.mpr ⟨hdisposition, h.contentDisposition⟩
      · exact fun f hf => absurd hf List.not_mem_nil
    · split
      · exact List.forall_mem_singleton.mpr ⟨hencoding, hbase64⟩
      · exact List.forall_mem_singleton.mpr ⟨hencoding, hquoted⟩
      · exact fun f hf => absurd hf List.not_mem_nil
  intro l hl
  obtain ⟨f, hf, rfl⟩ := List.mem_map.mp hl
  exact fieldLine_line (hfields f hf)

/-- A part is written as its header block, a blank line and its encoded data. -/
theorem MimePart.headers_encoded (p : MimePart) (data : Bytes) :
    p.headers ++ p.encoded data =
      block (p.fields.map fieldLine) ++ (crlf ++ (crlf ++ p.payload data)) := by
  have htype : bytes "Content-Type: " = bytes "Content-Type" ++ bytes ": " := rfl
  have hdisposition :
      bytes "Content-Disposition: " = bytes "Content-Disposition" ++ bytes ": " := rfl
  have hbase64 : bytes "Content-Transfer-Encoding: base64\r\n\r\n" =
      bytes "Content-Transfer-Encoding" ++ bytes ": " ++ bytes "base64" ++ crlf ++ crlf := rfl
  have hquoted : bytes "Content-Transfer-Encoding: quoted-printable\r\n\r\n" =
      bytes "Content-Transfer-Encoding" ++ bytes ": " ++ bytes "quoted-printable" ++ crlf ++
        crlf := rfl
  rw [← List.append_assoc (block _), ← utils.flatMap_line p.lines_ne, List.flatMap_map, headers,
    encoded, payload, fields, htype, hdisposition, hbase64, hquoted]
  cases p.applyEncoding <;> split <;>
    simp only [List.flatMap_cons, List.flatMap_append, List.flatMap_nil, List.append_assoc,
      List.nil_append, List.append_nil, fieldLine]

/-! ## Boundaries -/

/-- The characters of a generated boundary. -/
theorem mem_genBoundary {digest : Bytes} {c : UInt8} (h : c ∈ genBoundary digest) :
    MimeMultipart.boundaryChar c = true ∧ c ≠ 10 := by
  have hlead : ∀ c ∈ bytes "----=_", MimeMultipart.boundaryChar c = true ∧ c ≠ 10 :=
    List.all_iff_forall_prop.mp (by decide)
  have hdigits : ∀ n : Nat, n < 16 →
      MimeMultipart.boundaryChar (utils.hexDigit n) = true ∧ utils.hexDigit n ≠ 10 := by
    have hall : (List.range 16).all (fun n => decide
        (MimeMultipart.boundaryChar (utils.hexDigit n) = true ∧ utils.hexDigit n ≠ 10)) = true := by
      decide
    intro n hn
    exact of_decide_eq_true (List.all_eq_true.mp hall n (List.mem_range.mpr hn))
  rcases List.mem_append.mp h with h | h
  · exact hlead c h
  · obtain ⟨d, -, hd⟩ := List.mem_flatMap.mp h
    have hlt := d.toNat_lt
    simp only [List.mem_cons, List.not_mem_nil, or_false] at hd
    rcases hd with rfl | rfl
    · exact hdigits _ (by omega)
    · exact hdigits _ (by omega)

theorem genBoundary_ne (digest : Bytes) : genBoundary digest ≠ [] := List.cons_ne_nil _ _

/-- The text that opens a delimiter line. -/
def delimiter (boundary : Bytes) : Bytes := bytes "--" ++ boundary

theorem not_mem_delimiter (digest : Bytes) : (10 : UInt8) ∉ delimiter (genBoundary digest) := by
  intro h
  rcases List.mem_append.mp h with h | h
  · exact absurd h (by decide)
  · exact (mem_genBoundary h).2 rfl

/-- What a reader is told about a list of any type. -/
def multipartContentType (multipartType : MultipartType) (boundary : Bytes) : Bytes :=
  bytes "multipart/" ++ multipartTypeToString multipartType ++ bytes "; boundary=\"" ++ boundary ++
    [quote]

/-- The quoted boundary is found in the content type. -/
theorem findBoundary_multipart (multipartType : MultipartType) {boundary : Bytes}
    (hne : boundary ≠ []) (h : ∀ c ∈ boundary, MimeMultipart.boundaryChar c = true) :
    ∃ g, MimeMultipart.findBoundary.searchGroups (multipartContentType multipartType boundary) =
      some g ∧ g 1 = some boundary := by
  have hskip : ∀ x ∈ bytes "multipart/" ++ multipartTypeToString multipartType ++ bytes "; ",
      ∀ t, MimeMultipart.findBoundary.matchAt (x :: t) = none := by
    have hchars : ∀ x ∈ bytes "multipart/" ++ multipartTypeToString multipartType ++ bytes "; ",
        x ≠ 98 := by
      cases multipartType <;> exact List.all_iff_forall_prop.mp (by decide)
    intro x hx t
    refine run_lit_of_not_prefix _ fun hb => hchars x hx ?_
    exact (List.cons_prefix_cons.mp hb).1.symm
  have hquote : decide (quote = quote) = true := by decide
  have hstop : ∀ c ∈ [quote].head?, MimeMultipart.boundaryChar c = false := by
    intro c hc
    cases hc
    decide
  -- the class takes the whole boundary, and the closing quote follows
  have hgroup : (Regex.seq (.group 1 (Regex.plus (.sat MimeMultipart.boundaryChar)))
      MimeMultipart.optQuote).run (boundary ++ [quote]) (fun _ => none)
        (fun s' c' => some (s', c')) =
          some ([], Function.update (fun _ => none) 1 (some boundary)) := by
    rw [run_seq]
    refine run_group_plus_sat hne h hstop ?_
    rw [MimeMultipart.optQuote, run_opt_sat (p := (· = quote)) hquote, Option.some_or]
  have hmatch : MimeMultipart.findBoundary.matchAt
      (bytes "boundary=" ++ quote :: (boundary ++ [quote])) =
        some ([], Function.update (fun _ => none) 1 (some boundary)) := by
    rw [matchAt, MimeMultipart.findBoundary, run_lit_append, run_seq]
    conv => lhs; arg 1; rw [MimeMultipart.optQuote]
    rw [run_opt_sat (p := (· = quote)) hquote, hgroup, Option.some_or]
  have hsplit : multipartContentType multipartType boundary =
      bytes "multipart/" ++ multipartTypeToString multipartType ++ bytes "; " ++
        (bytes "boundary=" ++ quote :: (boundary ++ [quote])) := by
    have hlead : bytes "; boundary=\"" = bytes "; " ++ (bytes "boundary=" ++ [quote]) := rfl
    rw [multipartContentType, hlead]
    simp only [List.append_assoc, List.cons_append, List.nil_append]
  refine ⟨Function.update (fun _ => none) 1 (some boundary), ?_, Function.update_self ..⟩
  rw [hsplit, searchGroups_append hskip, searchGroups_of_matchAt hmatch]

theorem findBoundary_mixed {boundary : Bytes} (hne : boundary ≠ [])
    (h : ∀ c ∈ boundary, MimeMultipart.boundaryChar c = true) :
    ∃ g, MimeMultipart.findBoundary.searchGroups (mixedContentType boundary) = some g ∧
      g 1 = some boundary :=
  findBoundary_multipart .mixed hne h

/-! ## One part -/

/-- What a turn of the reader makes of a part with its data. -/
def MimePart.received (p : MimePart) (data : Bytes) : Part :=
  makePart (block (p.fields.map fieldLine)) (p.payload data ++ crlf)

theorem MimePart.four_le_block (p : MimePart) : 4 ≤ (block (p.fields.map fieldLine)).length := by
  have htype : 4 ≤ (fieldLine (bytes "Content-Type", p.contentType)).length := by
    have hname : (bytes "Content-Type").length = 12 := rfl
    show 4 ≤ (bytes "Content-Type" ++ bytes ": " ++ p.contentType).length
    rw [List.length_append, List.length_append]
    omega
  rw [fields, List.map_cons]
  cases hrest : List.map fieldLine _ with
  | nil => rwa [utils.block_singleton]
  | cons l lines =>
    rw [utils.block_cons _ (List.cons_ne_nil l lines), List.length_append]
    omega

/-- The next delimiter line is found behind the text of a part that does not hold the
boundary. -/
theorem find_delimiter {digest text next : Bytes}
    (h : ¬ genBoundary digest <:+: text ++ crlf)
    (hnext : delimiter (genBoundary digest) <+: next) :
    find (delimiter (genBoundary digest)) (text ++ (crlf ++ next)) = some (text.length + 2) := by
  have hne : delimiter (genBoundary digest) ≠ [] := List.cons_ne_nil _ _
  have hbefore : find (delimiter (genBoundary digest)) (text ++ [13]) = none := by
    refine find_eq_none.mpr fun hin => h ?_
    have hboundary : genBoundary digest <:+: delimiter (genBoundary digest) :=
      (List.suffix_append _ _).isInfix
    have htext : text ++ [13] <:+: text ++ crlf :=
      (show text ++ [13] <+: text ++ crlf from ⟨[10], List.append_assoc _ _ _⟩).isInfix
    exact hboundary.trans (hin.trans htext)
  have hsplit : text ++ (crlf ++ next) = (text ++ [13]) ++ 10 :: next := by
    rw [List.append_assoc]
    rfl
  rw [hsplit, find_append_sep (not_mem_delimiter digest) hne, hbefore, find_of_prefixed hnext,
    Option.none_or, Option.map_some, List.length_append, Nat.zero_add]
  rfl

/-- A turn of the reader takes a header block and all that follows it up to the next delimiter
line, but for one line ending. -/
theorem parsePart_block {lines : List Bytes} (hlines : ∀ l ∈ lines, Line l) (hne : lines ≠ [])
    (hfour : 4 ≤ (block lines).length) {digest payload next : Bytes}
    (h : ¬ genBoundary digest <:+: block lines ++ (crlf ++ (crlf ++ payload)) ++ crlf ++ crlf)
    (hnext : delimiter (genBoundary digest) <+: next) :
    parsePart (delimiter (genBoundary digest)) (delimiter (genBoundary digest) ++
      (crlf ++ (block lines ++ (crlf ++ (crlf ++ payload)) ++ crlf ++ crlf ++ next))) =
        .part (makePart (block lines) (payload ++ crlf)) next := by
  have hcrlf : crlf.length = 2 := rfl
  have hbody : block lines ++ (crlf ++ (crlf ++ payload)) ++ crlf ++ crlf ++ next =
      block lines ++ (crlf ++ (crlf ++ (payload ++ crlf ++ (crlf ++ next)))) := by
    simp only [List.append_assoc]
  have hlong := hnext.length_le
  have hfind : find (delimiter (genBoundary digest))
      (block lines ++ (crlf ++ (crlf ++ payload)) ++ crlf ++ crlf ++ next) =
        some ((block lines).length + payload.length + 8) := by
    rw [List.append_assoc, find_delimiter h hnext]
    simp only [List.length_append, hcrlf, Option.some.injEq]
    omega
  rw [hbody] at hfind ⊢
  have hend : MimeMultipart.headersEnd
      (block lines ++ (crlf ++ (crlf ++ (payload ++ crlf ++ (crlf ++ next)))))
      ((block lines).length + payload.length + 8) = (block lines).length := by
    rw [MimeMultipart.headersEnd, utils.find_blank hlines hne]
    exact if_neg (by omega)
  have hlen : (delimiter (genBoundary digest)).length + 4 ≤
      (block lines ++ (crlf ++ (crlf ++ (payload ++ crlf ++ (crlf ++ next))))).length := by
    simp only [List.length_append, hcrlf]
    omega
  have hcontent : (block lines ++ (crlf ++ (crlf ++ (payload ++ crlf ++ (crlf ++ next))))).drop
      ((block lines).length + 4) = payload ++ crlf ++ (crlf ++ next) := by
    rw [← List.append_assoc crlf, ← List.append_assoc (block _)]
    exact List.drop_left' (by simp only [List.length_append, hcrlf])
  have hrest : (block lines ++ (crlf ++ (crlf ++ (payload ++ crlf ++ (crlf ++ next))))).drop
      ((block lines).length + payload.length + 8) = next := by
    have hsum : (block lines).length + payload.length + 8 =
        (block lines).length + 4 + (payload.length + 4) := by
      omega
    rw [hsum, ← List.drop_drop, hcontent, ← List.append_assoc]
    exact List.drop_left' (by simp only [List.length_append, hcrlf])
  rw [MimeMultipart.parsePart_line hlen hfind hend hfour, hcontent, hrest, if_pos (by omega)]
  have hcount : (block lines).length + payload.length + 8 - 2 - ((block lines).length + 4) =
      (payload ++ crlf).length := by
    rw [List.length_append, hcrlf]
    omega
  rw [List.take_left, hcount, List.take_left]

/-- **A turn of the reader** takes the whole text of a part, and one line ending too many for
its content. -/
theorem MimePart.parsePart_text {p : MimePart} (hp : p.Sendable) {digest data next : Bytes}
    (h : ¬ genBoundary digest <:+: p.headers ++ p.encoded data ++ crlf ++ crlf)
    (hnext : delimiter (genBoundary digest) <+: next) :
    parsePart (delimiter (genBoundary digest)) (delimiter (genBoundary digest) ++
      (crlf ++ (p.headers ++ p.encoded data ++ crlf ++ crlf ++ next))) =
        .part (p.received data) next := by
  rw [p.headers_encoded] at h ⊢
  exact parsePart_block (p.lines_line hp) p.lines_ne p.four_le_block h hnext

/-! ## What of a part comes through -/

/-- The content that is read is decoded to the data exactly for base64. -/
theorem decode_payload_iff (p : MimePart) (data : Bytes) :
    p.applyEncoding.decode (p.payload data ++ crlf) = .ok data ↔ p.applyEncoding = .base64 := by
  have hlonger : data ++ crlf ≠ data := fun h => by
    have hlen := congrArg List.length h
    rw [List.length_append] at hlen
    exact absurd hlen (by simp only [crlf, List.length_cons, List.length_nil]; omega)
  have hbreak : ∀ c ∈ crlf, encoding.is_whitespace c = true := List.all_eq_true.mp (by decide)
  unfold MimePart.payload ApplyEncoding.decode
  cases p.applyEncoding with
  | base64 =>
    refine iff_of_true ?_ rfl
    dsimp only
    rw [encoding.base64Decode_encode hbreak rfl]
  | quotedPrintable =>
    have hid : encoding.readChar false = id := rfl
    have hloop := encoding.quotedPrintableDecode_loop (.inl rfl) false false 0 data
      (show encoding.quotedPrintableDecode crlf false = .ok crlf from rfl)
    rw [hid, List.map_id] at hloop
    dsimp only
    refine iff_of_false (fun h => hlonger ?_) (by decide)
    rw [encoding.quotedPrintableEncode, hloop] at h
    exact Except.ok.inj h
  | none =>
    refine iff_of_false (fun h => hlonger ?_) (by decide)
    exact Except.ok.inj h

theorem received_contentType_iff {p : MimePart} (hp : p.Sendable) (data : Bytes) :
    (p.received data).contentType = p.contentType ↔
      lastValue (bytes "content-type") (p.fields.map readField) = some p.contentType := by
  have hlookup := utils.lookup_parseHeaders_block (p.lines_line hp) (bytes "content-type")
  rw [filterMap_fieldLine] at hlookup
  show ((utils.parseHeaders _).lookup _).getD [] = _ ↔ _
  rw [hlookup]
  cases lastValue (bytes "content-type") (p.fields.map readField) with
  | none => exact iff_of_false (fun h => hp.contentType_ne h.symm) nofun
  | some t => rw [Option.getD_some, Option.some.injEq]

theorem replaced_returns_iff (p : MimePart) (rules : Option ReplacementRules) :
    (∃ data, p.replaced rules = .ok data) ↔
      (p.allowReplacements = true → ∀ r ∈ rules, ∀ e ∈ r, e.1 ≠ []) := by
  unfold MimePart.replaced
  cases p.allowReplacements with
  | false => exact iff_of_true ⟨_, rfl⟩ nofun
  | true =>
    cases rules with
    | none => exact iff_of_true ⟨_, rfl⟩ nofun
    | some r =>
      dsimp only
      rw [utils.stringReplace_returns_iff]
      simp only [Option.mem_def, Option.some.injEq, forall_const, forall_eq']

/-- **A part that has been received has come through exactly when it survives.** -/
theorem carried_received_iff {p : MimePart} (hp : p.Sendable) {rules : Option ReplacementRules}
    {data : Bytes} (hdata : p.replaced rules = .ok data) :
    Carried rules p (p.received data) ↔ p.Survives rules := by
  have hrules := (replaced_returns_iff p rules).mp ⟨data, hdata⟩
  constructor
  · rintro ⟨htype, data', hdata', hdecode⟩
    obtain rfl : data = data' := Except.ok.inj (hdata.symm.trans hdata')
    exact ⟨(decode_payload_iff p data).mp hdecode, (received_contentType_iff hp data).mp htype,
      hrules⟩
  · intro h
    exact ⟨(received_contentType_iff hp data).mpr h.contentType, data, hdata,
      (decode_payload_iff p data).mpr h.base64⟩

/-! ## The whole list -/

theorem merge_cons (rules : Option ReplacementRules) (digest : Nat → Bytes) (boundary : Bytes)
    (p : MimePart) (parts : List MimePart) :
    mergeMimePartList rules digest boundary 0 (elements (p :: parts)) =
      (p.text rules).bind fun text =>
        (mergeMimePartList rules digest boundary 0 (elements parts)).map fun rest =>
          (bytes "--" ++ boundary ++ crlf ++ text ++ rest.1, rest.2) := by
  rw [elements, List.map_cons, mergeMimePartList, elementText]
  cases p.text rules <;> rfl

/-- A list that is written has no part whose replacements do not end. -/
theorem replaced_of_merge {rules : Option ReplacementRules} {digest : Nat → Bytes}
    {boundary : Bytes} {parts : List MimePart} {r : Bytes × Nat}
    (h : mergeMimePartList rules digest boundary 0 (elements parts) = .ok r) :
    ∀ p ∈ parts, ∃ data, p.replaced rules = .ok data := by
  induction parts generalizing r with
  | nil => nofun
  | cons p parts ih =>
    rw [merge_cons, MimePart.text] at h
    obtain ⟨text, htext, hmerge⟩ := bind_eq_ok_iff.mp h
    obtain ⟨data, hdata, -⟩ := map_eq_ok_iff.mp htext
    obtain ⟨rest, hrest, -⟩ := map_eq_ok_iff.mp hmerge
    exact List.forall_mem_cons.mpr ⟨⟨data, hdata⟩, ih hrest⟩

/-- No part of the list holds the boundary. -/
def BoundaryFree (rules : Option ReplacementRules) (boundary : Bytes) (parts : List MimePart) :
    Prop :=
  ∀ p ∈ parts, ∀ text, p.text rules = .ok text → ¬ boundary <:+: text

/-- **The reader finds the parts of a list that is written**, whatever it has found before. -/
theorem parseParts_merge {rules : Option ReplacementRules} (digest : Nat → Bytes) {d : Bytes}
    {parts : List MimePart} (hparts : ∀ p ∈ parts, p.Sendable)
    (hfree : BoundaryFree rules (genBoundary d) parts)
    (hdata : ∀ p ∈ parts, ∃ data, p.replaced rules = .ok data) (before : List Part) :
    ∃ text calls qs,
      mergeMimePartList rules digest (genBoundary d) 0 (elements parts) = .ok (text, calls) ∧
      delimiter (genBoundary d) <+: text ∧
      parseParts (delimiter (genBoundary d)) text before = (before ++ qs, none) ∧
      List.Forall₂ (fun p q => ∃ data, p.replaced rules = .ok data ∧ q = p.received data)
        parts qs := by
  induction parts generalizing before with
  | nil =>
    refine ⟨delimiter (genBoundary d) ++ bytes "--", 0, [], rfl, List.prefix_append _ _, ?_,
      .nil⟩
    have hne : delimiter (genBoundary d) ++ bytes "--" ≠ [] := List.cons_ne_nil _ _
    rw [MimeMultipart.parseParts_finished hne (MimeMultipart.parsePart_closing _),
      List.append_nil]
  | cons p parts ih =>
    rw [List.forall_mem_cons] at hparts hdata
    obtain ⟨data, hp⟩ := hdata.1
    have htext : p.text rules = .ok (p.headers ++ p.encoded data ++ crlf ++ crlf) := by
      rw [MimePart.text, hp]
      rfl
    obtain ⟨text, calls, qs, hmerge, hbegins, hparse, hqs⟩ := ih hparts.2
      (fun p' hp' => hfree p' (List.mem_cons_of_mem p hp')) hdata.2 (before ++ [p.received data])
    have hturn := MimePart.parsePart_text hparts.1 (hfree p List.mem_cons_self _ htext) hbegins
    refine ⟨delimiter (genBoundary d) ++
      (crlf ++ (p.headers ++ p.encoded data ++ crlf ++ crlf ++ text)), calls,
      p.received data :: qs, ?_, List.prefix_append _ _, ?_, .cons ⟨data, hp, rfl⟩ hqs⟩
    · rw [merge_cons, htext, hmerge]
      show Except.ok _ = Except.ok _
      simp only [delimiter, List.append_assoc]
    · rw [MimeMultipart.parseParts_part hturn, hparse, List.append_assoc, List.singleton_append]

/-- Two relations between the same lists hold of the same pairs. -/
theorem exists_of_forall₂ {α β : Type} {R S : α → β → Prop} {xs : List α} {ys : List β}
    (h : List.Forall₂ R xs ys) (h' : List.Forall₂ S xs ys) : ∀ x ∈ xs, ∃ y, R x y ∧ S x y := by
  induction h with
  | nil => nofun
  | @cons x y xs ys hxy _ ih =>
    cases h' with
    | cons hxy' hrest => exact List.forall_mem_cons.mpr ⟨⟨y, hxy, hxy'⟩, ih hrest⟩

theorem forall₂_imp_of_mem {α β : Type} {R S : α → β → Prop} {xs : List α} {ys : List β}
    (h : List.Forall₂ R xs ys) (himp : ∀ x ∈ xs, ∀ y, R x y → S x y) : List.Forall₂ S xs ys := by
  induction h with
  | nil => exact .nil
  | @cons x y xs ys hxy _ ih =>
    rw [List.forall_mem_cons] at himp
    exact .cons (himp.1 y hxy) (ih himp.2)

theorem parse_mixed {digest text : Bytes} {qs : List Part}
    (h : parseParts (delimiter (genBoundary digest)) text [] = (qs, none)) :
    ∃ data, MimeMultipart.parse {} (mixedContentType (genBoundary digest)) text =
      (data, .ok ()) ∧ data.parts = qs := by
  obtain ⟨g, hsearch, hg⟩ := findBoundary_mixed (genBoundary_ne digest)
    fun c hc => (mem_genBoundary hc).1
  have hdelimiter : bytes "--" ++ (g 1).getD [] = delimiter (genBoundary digest) := by
    rw [hg]
    rfl
  rw [MimeMultipart.parse, hsearch]
  dsimp only
  rw [hdelimiter, h]
  exact ⟨_, rfl, rfl⟩

theorem survives_of_carries {rules : Option ReplacementRules} {digest : Nat → Bytes} {d : Bytes}
    {parts : List MimePart} (hparts : ∀ p ∈ parts, p.Sendable)
    (hfree : BoundaryFree rules (genBoundary d) parts)
    (h : Carries rules digest (genBoundary d) parts) : ∀ p ∈ parts, p.Survives rules := by
  obtain ⟨r, data, hmerge, hparse, hall⟩ := h
  have hdata := replaced_of_merge hmerge
  obtain ⟨text, calls, qs, hmerge', -, hparts', hqs⟩ :=
    parseParts_merge digest hparts hfree hdata []
  rw [hmerge'] at hmerge
  cases hmerge
  obtain ⟨data', hparse', hqs'⟩ := parse_mixed hparts'
  rw [hparse'] at hparse
  cases hparse
  rw [hqs', List.nil_append] at hall
  intro p hp
  obtain ⟨q, hcarried, data, hreplaced, rfl⟩ := exists_of_forall₂ hall hqs p hp
  exact (carried_received_iff (hparts p hp) hreplaced).mp hcarried

/-- **A list of parts comes through exactly when each of its parts is sent as base64, is read
with its own content type, and does not meet a rule with an empty key.** -/
theorem carries_iff (rules : Option ReplacementRules) (digest : Nat → Bytes) (d : Bytes)
    {parts : List MimePart} (hparts : ∀ p ∈ parts, p.Sendable)
    (hfree : BoundaryFree rules (genBoundary d) parts) :
    Carries rules digest (genBoundary d) parts ↔ ∀ p ∈ parts, p.Survives rules := by
  constructor
  · exact survives_of_carries hparts hfree
  · intro h
    have hdata : ∀ p ∈ parts, ∃ data, p.replaced rules = .ok data :=
      fun p hp => (replaced_returns_iff p rules).mpr (h p hp).rules
    obtain ⟨text, calls, qs, hmerge, -, hparts', hqs⟩ :=
      parseParts_merge digest hparts hfree hdata []
    obtain ⟨data, hparse, hdataParts⟩ := parse_mixed hparts'
    refine ⟨(text, calls), data, hmerge, hparse, ?_⟩
    rw [hdataParts, List.nil_append]
    refine forall₂_imp_of_mem hqs fun p hp q hq => ?_
    obtain ⟨data, hreplaced, rfl⟩ := hq
    exact (carried_received_iff (hparts p hp) hreplaced).mpr (h p hp)

/-- The digest of the number 0. -/
def digestOfZero : Bytes :=
  [0xcf, 0xcd, 0x20, 0x84, 0x95, 0xd5, 0x65, 0xef, 0x66, 0xe7, 0xdf, 0xf9, 0xf9, 0x87, 0x64, 0xda]

/-- A text part `x` in a transfer encoding. -/
def textPart (applyEncoding : ApplyEncoding) : MimePart where
  contentType := bytes "text/plain"
  applyEncoding := applyEncoding
  partData := bytes "x"

theorem textPart_sendable (e : ApplyEncoding) : ∀ p ∈ [textPart e], p.Sendable := by
  have htype : Unbroken (bytes "text/plain") := List.all_iff_forall_prop.mp (by decide)
  exact List.forall_mem_singleton.mpr ⟨List.cons_ne_nil _ _, htype,
    fun c hc => absurd hc List.not_mem_nil, fun e he => absurd he List.not_mem_nil⟩

theorem textPart_boundaryFree {e : ApplyEncoding} {text : Bytes}
    (h : (textPart e).text none = .ok text) (hfind : find (genBoundary digestOfZero) text = none) :
    BoundaryFree none (genBoundary digestOfZero) [textPart e] := by
  refine List.forall_mem_singleton.mpr fun text' htext' => ?_
  cases h.symm.trans htext'
  exact find_eq_none.mp hfind

theorem carries_textPart_base64 :
    (∀ p ∈ [textPart .base64], p.Sendable) ∧
      BoundaryFree none (genBoundary digestOfZero) [textPart .base64] ∧
      Carries none (fun _ => []) (genBoundary digestOfZero) [textPart .base64] := by
  have hfree : BoundaryFree none (genBoundary digestOfZero) [textPart .base64] :=
    textPart_boundaryFree rfl (by decide)
  have hsurvives : ∀ p ∈ [textPart .base64], p.Survives none :=
    List.forall_mem_singleton.mpr ⟨rfl, by decide, fun _ _ => nofun⟩
  exact ⟨textPart_sendable _, hfree,
    (carries_iff none (fun _ => []) digestOfZero (textPart_sendable _) hfree).mpr hsurvives⟩

/-- A part without a transfer encoding comes through with a line ending more. -/
theorem not_carries_textPart_none :
    (∀ p ∈ [textPart .none], p.Sendable) ∧
      BoundaryFree none (genBoundary digestOfZero) [textPart .none] ∧
      ¬ Carries none (fun _ => []) (genBoundary digestOfZero) [textPart .none] := by
  have hfree : BoundaryFree none (genBoundary digestOfZero) [textPart .none] :=
    textPart_boundaryFree rfl (by decide)
  refine ⟨textPart_sendable _, hfree, fun h => ?_⟩
  have hsurvives := survives_of_carries (textPart_sendable .none) hfree h
  cases (hsurvives _ List.mem_cons_self).base64

end Nawa.mail
