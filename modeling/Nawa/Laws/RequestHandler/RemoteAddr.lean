import Nawa.Laws.RequestHandler.Environment
import Nawa.Laws.Session.SourceIP
import Nawa.RequestHandler.IpAddress

/-!
# `REMOTE_ADDR`

The HTTP handler cuts the source of a request at its first colon, to get rid of the port. Of an
IPv4 address nothing is lost. Of an IPv6 address the field in front of that colon is all that
remains, so that two addresses with the same first field look alike to the handler, and to the
sessions that are bound to an address.
-/

namespace Nawa

namespace HttpHandler

theorem textBefore_append_sep {c : UInt8} {s : Bytes} (hc : c ∉ s) (rest : Bytes) :
    textBefore c (s ++ c :: rest) = s := by
  rw [textBefore, Lib.Search.findElem_append_sep hc]
  exact List.take_left

theorem textBefore_of_not_mem {c : UInt8} {s : Bytes} (hc : c ∉ s) : textBefore c s = s := by
  rw [textBefore, Lib.Search.findElem_eq_none.mpr hc]

end HttpHandler

/-! ## Texts of IPv4 addresses -/

namespace Ipv4

theorem isdigit_of_mem_numbers {x : Ipv4} {t : Bytes} {c : UInt8} (ht : t ∈ x.numbers)
    (hc : c ∈ t) : isdigit c = true := by
  obtain ⟨n, -, rfl⟩ := List.mem_map.mp ht
  exact isdigit_of_mem_decimal hc

theorem splitString_text (x : Ipv4) :
    utils.splitString x.text '.'.toUInt8 true = x.numbers := by
  refine utils.splitString_intercalate fun t ht => ⟨?_, fun hdot => ?_⟩
  · obtain ⟨n, -, rfl⟩ := List.mem_map.mp ht
    exact decimal_ne_nil _
  · exact absurd (isdigit_of_mem_numbers ht hdot) (by decide)

theorem numbers_injective {x y : Ipv4} (h : x.numbers = y.numbers) : x = y := by
  have hbyte : ∀ n m : UInt8, decimal n.toNat = decimal m.toNat → n = m :=
    fun n m hnm => UInt8.toNat_inj.mp (decimal_injective hnm)
  obtain ⟨a, b, c, d⟩ := x
  obtain ⟨a', b', c', d'⟩ := y
  simp only [numbers, List.map_cons, List.map_nil, List.cons.injEq, and_true] at h
  obtain ⟨ha, hb, hc, hd⟩ := h
  rw [hbyte a a' ha, hbyte b b' hb, hbyte c c' hc, hbyte d d' hd]

/-- The numbers of an address can be read off its text. -/
theorem text_injective {x y : Ipv4} (h : x.text = y.text) : x = y := by
  refine numbers_injective ?_
  rw [← splitString_text x, ← splitString_text y, h]

theorem dot_mem_text (x : Ipv4) : '.'.toUInt8 ∈ x.text := by
  rw [text, numbers, List.map_cons, List.map_cons, List.intercalate_cons_cons, List.append_assoc]
  exact List.mem_append_right _ List.mem_cons_self

theorem colon_not_mem_text (x : Ipv4) : ':'.toUInt8 ∉ x.text := by
  intro h
  rcases Lib.Search.mem_intercalate h with hsep | ⟨t, ht, hc⟩
  · exact absurd hsep (by decide)
  · exact absurd (isdigit_of_mem_numbers ht hc) (by decide)

end Ipv4

/-! ## Texts of IPv6 addresses -/

theorem length_fieldGroups_le (fields : List Ipv6Field) (quad : Option Ipv4) :
    (fieldGroups fields quad).length ≤ fields.length + 2 := by
  rw [fieldGroups, List.length_append, List.length_map]
  refine Nat.add_le_add_left ?_ fields.length
  cases quad with
  | none => exact Nat.zero_le 2
  | some x => exact Nat.le_refl 2

namespace Ipv6Text

theorem isxdigit_of_mem_leading {t : Ipv6Text} {c : UInt8} (h : c ∈ t.leading) :
    isxdigit c = true := by
  rw [leading] at h
  cases hfront : t.front with
  | nil =>
    rw [hfront] at h
    cases h
  | cons field fields =>
    rw [hfront] at h
    exact field.digits c h

/-- The first field is followed by a colon. -/
theorem text_eq (t : Ipv6Text) : ∃ rest, t.text = t.leading ++ ':'.toUInt8 :: rest := by
  cases t with
  | full fields quad length =>
    have hle := length_fieldGroups_le fields quad
    rw [length] at hle
    match fields with
    | [] => exact absurd hle (by decide : ¬ 8 ≤ 2)
    | [field] => exact absurd hle (by decide : ¬ 8 ≤ 3)
    | field :: field' :: fields =>
      refine ⟨List.intercalate [':'.toUInt8] (fieldTexts (field' :: fields) quad), ?_⟩
      rw [text, fieldTexts, List.map_cons, List.map_cons, List.cons_append, List.cons_append,
        List.intercalate_cons_cons, List.append_assoc]
      rfl
  | compressed before after quad length =>
    rw [text]
    cases before with
    | nil => exact ⟨_, rfl⟩
    | cons field fields =>
      cases fields with
      | nil =>
        rw [List.map_singleton, List.intercalate_singleton]
        exact ⟨_, rfl⟩
      | cons field' fields =>
        rw [List.map_cons, List.map_cons, List.intercalate_cons_cons, List.append_assoc,
          List.append_assoc]
        exact ⟨_, rfl⟩

end Ipv6Text

/-! ## What is left of a source -/

namespace AddressText

/-- The address as the handler takes it down. -/
def shown : AddressText → Bytes
  | v4 x => x.text
  | v6 t => t.leading

theorem textBefore_source (t : AddressText) (port : Option Nat) :
    HttpHandler.textBefore ':'.toUInt8 (t.source port) = t.shown := by
  cases t with
  | v4 x =>
    cases port with
    | none => exact HttpHandler.textBefore_of_not_mem x.colon_not_mem_text
    | some n => exact HttpHandler.textBefore_append_sep x.colon_not_mem_text _
  | v6 t =>
    have hcolon : ':'.toUInt8 ∉ t.leading :=
      fun h => absurd (Ipv6Text.isxdigit_of_mem_leading h) (by decide)
    obtain ⟨rest, hrest⟩ := t.text_eq
    cases port with
    | none =>
      rw [source, text, hrest]
      exact HttpHandler.textBefore_append_sep hcolon _
    | some n =>
      rw [source, text, hrest, List.append_assoc, List.cons_append]
      exact HttpHandler.textBefore_append_sep hcolon _

/-- A field of an IPv6 address is no IPv4 address. -/
theorem text_ne_leading (x : Ipv4) (t : Ipv6Text) : x.text ≠ t.leading := by
  intro h
  have hdot := x.dot_mem_text
  rw [h] at hdot
  exact absurd (Ipv6Text.isxdigit_of_mem_leading hdot) (by decide)

theorem shown_ne_iff {t t' : AddressText} (hne : t.address ≠ t'.address) :
    t.shown ≠ t'.shown ↔ ¬ t.SameLeading t' := by
  cases t with
  | v4 x =>
    refine iff_of_true ?_ not_false
    cases t' with
    | v4 x' =>
      intro h
      exact hne (congrArg IpAddress.v4 (Ipv4.text_injective h))
    | v6 t' => exact text_ne_leading x t'
  | v6 t =>
    cases t' with
    | v4 x' => exact iff_of_true (text_ne_leading x' t).symm not_false
    | v6 t' => exact Iff.rfl

end AddressText

/-! ## Clients -/

namespace HttpHandler

def remoteAddr (container : RequestInitContainer) : Bytes :=
  container.request.envVar (bytes "REMOTE_ADDR")

theorem remoteAddr_requestInit {config : Config} {request : ServerRequest}
    {container : RequestInitContainer} (h : requestInit config request = .ok container) :
    remoteAddr container = textBefore ':'.toUInt8 request.source := by
  rw [remoteAddr, Request.envVar, RequestInitContainer.request]
  dsimp only
  rw [lookup_transport h List.mem_cons_self, Option.getD_some]

/-- Two clients are kept apart: they have different addresses in the environment, and no session
of the first one is resumed for the second one where addresses are validated, whatever calls are
made in the meantime. -/
structure KeptApart (V : Type) (container container' : RequestInitContainer) : Prop where
  remoteAddr : remoteAddr container ≠ remoteAddr container'
  sessions : ∀ (s : Session.Server V) (a : Nat), a < s.store.next →
    (s.store.heap a).sourceIP = HttpHandler.remoteAddr container →
    ∀ (calls : List (Int × Session.Call V)) (config : Config) (ctx : StartContext)
      (sessionId : Bytes) (keepalive : Option Nat) (session : Session),
      Session.validateIP config = bytes "strict" ∨ Session.validateIP config = bytes "lax" →
      session.currentData = none →
      (Session.start config (HttpHandler.remoteAddr container') ctx sessionId keepalive
        (s.after calls).store session).session.currentData ≠ some a

theorem keptApart_of_remoteAddr {V : Type} {container container' : RequestInitContainer}
    (h : remoteAddr container ≠ remoteAddr container') : KeptApart V container container' where
  remoteAddr := h
  sessions := by
    intro s a ha howner calls config ctx sessionId keepalive session hvalidate hidle hattached
    have hkept := Session.Server.keepsSourceIP_after s calls
    have haddress := Session.sourceIP_of_start hidle hvalidate (ha.trans_le hkept.next) hattached
    rw [hkept.sourceIP a ha, howner] at haddress
    exact h haddress

section Clients

variable {V : Type} {config config' : Config} {request request' : ServerRequest}
  {container container' : RequestInitContainer} {t t' : AddressText} {port port' : Option Nat}

theorem remoteAddr_ne_iff (h : requestInit config request = .ok container)
    (h' : requestInit config' request' = .ok container') (hsource : request.source = t.source port)
    (hsource' : request'.source = t'.source port') (hne : t.address ≠ t'.address) :
    remoteAddr container ≠ remoteAddr container' ↔ ¬ t.SameLeading t' := by
  rw [remoteAddr_requestInit h, remoteAddr_requestInit h', hsource, hsource',
    AddressText.textBefore_source, AddressText.textBefore_source]
  exact AddressText.shown_ne_iff hne

/-- **Different clients are kept apart** unless they have IPv6 addresses whose texts begin with
the same field. -/
theorem keptApart_iff (h : requestInit config request = .ok container)
    (h' : requestInit config' request' = .ok container') (hsource : request.source = t.source port)
    (hsource' : request'.source = t'.source port') (hne : t.address ≠ t'.address) :
    KeptApart V container container' ↔ ¬ t.SameLeading t' := by
  rw [← remoteAddr_ne_iff h h' hsource hsource' hne]
  exact ⟨KeptApart.remoteAddr, keptApart_of_remoteAddr⟩

end Clients

/-- 192.0.2.1 and 192.0.2.2. -/
def sampleIpv4 (d : UInt8) : AddressText := .v4 ⟨192, 0, 2, d⟩

theorem keptApart_iff_sample :
    let request : ServerRequest := ⟨bytes "GET", bytes "/", (sampleIpv4 1).source none, 50000, []⟩
    let request' : ServerRequest :=
      ⟨bytes "GET", bytes "/", (sampleIpv4 2).source (some 50000), 50000, []⟩
    ∃ container container', requestInit {} request = .ok container ∧
      requestInit {} request' = .ok container' ∧ KeptApart Nat container container' := by
  intro request request'
  have hsource : request.source = (sampleIpv4 1).source none := rfl
  have hsource' : request'.source = (sampleIpv4 2).source (some 50000) := rfl
  obtain ⟨container, h⟩ := requestInit_returns {} request
  obtain ⟨container', h'⟩ := requestInit_returns {} request'
  exact ⟨container, container', h, h', (keptApart_iff h h' hsource hsource' (by decide)).mpr id⟩

/-- A field, with its digits checked one by one. -/
def sampleField (s : Bytes) (h : (s ≠ [] ∧ s.length ≤ 4) ∧ s.all isxdigit = true) : Ipv6Field :=
  ⟨s, h.1.1, h.1.2, List.all_eq_true.mp h.2⟩

/-- 2001:db8::1 and 2001:db8::2. -/
def sampleIpv6 (last : Ipv6Field) : AddressText :=
  .v6 (.compressed [sampleField (bytes "2001") (by decide), sampleField (bytes "db8") (by decide)]
    [last] none (by decide : 3 < 8))

example : (sampleIpv6 (sampleField (bytes "1") (by decide))).text = bytes "2001:db8::1" := rfl

theorem not_keptApart_sampleIpv6 :
    ¬ ∀ (config config' : Config) (request request' : ServerRequest)
      (container container' : RequestInitContainer) (t t' : AddressText)
      (port port' : Option Nat), requestInit config request = .ok container →
      requestInit config' request' = .ok container' → request.source = t.source port →
      request'.source = t'.source port' → t.address ≠ t'.address →
      KeptApart Nat container container' := by
  intro hall
  let t := sampleIpv6 (sampleField (bytes "1") (by decide))
  let t' := sampleIpv6 (sampleField (bytes "2") (by decide))
  obtain ⟨container, h⟩ := requestInit_returns {} ⟨bytes "GET", bytes "/", t.source none, 50000, []⟩
  obtain ⟨container', h'⟩ :=
    requestInit_returns {} ⟨bytes "GET", bytes "/", t'.source none, 50000, []⟩
  have happart := hall _ _ _ _ _ _ t t' none none h h' rfl rfl (by decide)
  refine happart.remoteAddr ?_
  rw [remoteAddr_requestInit h, remoteAddr_requestInit h', AddressText.textBefore_source,
    AddressText.textBefore_source]
  rfl

end HttpHandler

end Nawa
