import Nawa.Connection.Response
import Nawa.Laws.Connection.SessionCookie
import Nawa.RequestHandler.Fastcgi

/-!
# Responses are delivered once

`Represents` relates a connection to the reference model: the pending text is what the string and
the stream hold together, and the header map holds the fields with lowercase names. Every call
keeps the relation and lets out the same on both sides, up to the order of the header fields.
-/

namespace Nawa

open Lib (AssocMap)

namespace Connection

/-! ## Header maps -/

theorem headerEntries_erase (headers : AssocMap Bytes (List Bytes)) (k : Bytes) :
    headerEntries (headers.erase k) = (headerEntries headers).filter (·.1 ≠ k) := by
  simp only [headerEntries, AssocMap.erase, List.filter_flatMap, List.filter_map]
  induction headers.entries with
  | nil => rfl
  | cons e entries ih =>
    by_cases he : e.1 = k
    · have hnone : e.2.filter ((fun f : Bytes × Bytes => decide (f.1 ≠ k)) ∘ fun v => (e.1, v)) =
          [] := List.filter_eq_nil_iff.mpr fun v _ => by
        simp only [Function.comp_apply, he, ne_eq, not_true_eq_false, decide_false,
          Bool.false_eq_true, not_false_eq_true]
      rw [List.filter_cons_of_neg (by simpa only [ne_eq, decide_not, Bool.not_eq_true',
        decide_eq_false_iff_not, not_not] using he), List.flatMap_cons, hnone, List.map_nil,
        List.nil_append, ih]
    · have hall : e.2.filter ((fun f : Bytes × Bytes => decide (f.1 ≠ k)) ∘ fun v => (e.1, v)) =
          e.2 := List.filter_eq_self.mpr fun v _ => by
        simpa only [Function.comp_apply, ne_eq, decide_eq_true_eq] using he
      rw [List.filter_cons_of_pos (by simpa only [ne_eq, decide_eq_true_eq] using he),
        List.flatMap_cons, List.flatMap_cons, hall, ih]

theorem headerEntries_insert (headers : AssocMap Bytes (List Bytes)) (k : Bytes)
    (values : List Bytes) :
    headerEntries (headers.insert k values) =
      (headerEntries headers).filter (·.1 ≠ k) ++ values.map fun v => (k, v) := by
  rw [← headerEntries_erase]
  simp only [headerEntries, AssocMap.insert, AssocMap.erase, List.flatMap_append,
    List.flatMap_cons, List.flatMap_nil, List.append_nil]

/-- The entries of one key are the values that the map holds for it. -/
theorem filter_headerEntries (headers : AssocMap Bytes (List Bytes)) (k : Bytes) :
    (headerEntries headers).filter (·.1 = k) =
      ((headers.lookup k).getD []).map fun v => (k, v) := by
  have hentries : (headerEntries headers).filter (·.1 = k) =
      (headers.entries.filter (·.1 = k)).flatMap fun e => e.2.map fun v => (e.1, v) := by
    unfold headerEntries
    induction headers.entries with
    | nil => rfl
    | cons e entries ih =>
      rw [List.flatMap_cons, List.filter_append, ih]
      by_cases he : e.1 = k
      · have hall : (e.2.map fun v => (e.1, v)).filter (·.1 = k) = e.2.map fun v => (e.1, v) := by
          refine List.filter_eq_self.mpr fun f hf => ?_
          obtain ⟨v, -, rfl⟩ := List.mem_map.mp hf
          exact decide_eq_true he
        rw [hall, List.filter_cons_of_pos (by simpa only [decide_eq_true_eq] using he),
          List.flatMap_cons]
      · have hnone : (e.2.map fun v => (e.1, v)).filter (·.1 = k) = [] := by
          refine List.filter_eq_nil_iff.mpr fun f hf => ?_
          obtain ⟨v, -, rfl⟩ := List.mem_map.mp hf
          simpa only [decide_eq_true_eq] using he
        rw [hnone, List.nil_append,
          List.filter_cons_of_neg (by simpa only [decide_eq_true_eq] using he)]
  rw [hentries, headers.filter_eq_lookup k]
  cases headers.lookup k with
  | none => rfl
  | some values => simp only [Option.map_some, Option.toList_some, List.flatMap_cons,
      List.flatMap_nil, List.append_nil, Option.getD_some]

/-- Adding a value to a key adds one entry. -/
theorem headerEntries_add (headers : AssocMap Bytes (List Bytes)) (k value : Bytes) :
    (headerEntries (headers.insert k ((headers.lookup k).getD [] ++ [value]))).Perm
      (headerEntries headers ++ [(k, value)]) := by
  have hsplit : ((headerEntries headers).filter (·.1 ≠ k) ++
      (headerEntries headers).filter (·.1 = k)).Perm (headerEntries headers) := by
    have hperm := List.filter_append_perm (fun f : Bytes × Bytes => decide (f.1 = k))
      (headerEntries headers)
    refine List.perm_append_comm.trans ?_
    simpa only [ne_eq, decide_not] using hperm
  rw [headerEntries_insert, List.map_append, ← filter_headerEntries, ← List.append_assoc]
  exact hsplit.append_right _

end Connection

/-! ## The relation -/

/-- The field as it is sent. -/
def sentField (f : Bytes × Bytes) : Bytes × Bytes := (utils.toLowercase f.1, f.2)

/-- A connection holds the response of the reference model. -/
structure Represents (conn : Connection) (r : Response) : Prop where
  pending : conn.bodyString ++ conn.responseStream = r.pending
  status : conn.responseStatus = r.status
  fields : (Connection.headerEntries conn.headers).Perm (r.fields.map sentField)
  cookies : conn.cookies = r.cookies
  policy : conn.cookiePolicy = r.policy

/-- What a flush of the connection hands over is what the reference model sends. -/
structure Sends (info : FlushCallbackContainer) (e : Emitted) : Prop where
  status : info.status = e.status
  headers : info.headers.Perm e.head
  body : info.body = e.body

/-- The same output, a flush up to the order of its header fields. -/
inductive SameOutput : Output FlushCallbackContainer → Output Emitted → Prop
  | body (content : Bytes) : SameOutput (.body content) (.body content)
  | refused (e : Exception) : SameOutput (.refused e) (.refused e)
  | flushed {info : FlushCallbackContainer} {e : Emitted} (h : Sends info e) :
      SameOutput (.flushed info) (.flushed e)

/-- Removing the fields of a name removes the entries of its lowercase key. -/
theorem filter_sentField (fields : List (Bytes × Bytes)) (key : Bytes) :
    (fields.filter (¬ Response.SameName ·.1 key)).map sentField =
      (fields.map sentField).filter (·.1 ≠ utils.toLowercase key) := by
  rw [List.filter_map]
  rfl

variable {order : HashOrder} {conn : Connection} {r : Response}

theorem Represents.unsetHeader (h : Represents conn r) (key : Bytes) :
    (Connection.headerEntries (conn.headers.erase (utils.toLowercase key))).Perm
      ((r.fields.filter (¬ Response.SameName ·.1 key)).map sentField) := by
  rw [filter_sentField, Connection.headerEntries_erase]
  exact h.fields.filter _

theorem Represents.setHeader (h : Represents conn r) (key value : Bytes) :
    (Connection.headerEntries (conn.headers.insert (utils.toLowercase key) [value])).Perm
      ((r.fields.filter (¬ Response.SameName ·.1 key) ++ [(key, value)]).map sentField) := by
  rw [List.map_append, filter_sentField, Connection.headerEntries_insert]
  exact (h.fields.filter _).append_right _

theorem Represents.addHeader (h : Represents conn r) (key value : Bytes) :
    (Connection.headerEntries (conn.headers.insert (utils.toLowercase key)
      ((conn.headers.lookup (utils.toLowercase key)).getD [] ++ [value]))).Perm
      ((r.fields ++ [(key, value)]).map sentField) := by
  rw [List.map_append]
  exact (Connection.headerEntries_add _ _ _).trans (h.fields.append_right _)

theorem Represents.flushed (h : Represents conn r) (order : HashOrder) :
    Sends (conn.flushResponse order).2 ⟨r.status, r.head, r.pending⟩ where
  status := h.status
  headers := by
    refine (order.perm _).trans ?_
    rw [if_pos rfl, h.policy, h.cookies]
    exact h.fields.append_right _
  body := h.pending

/-- **A call keeps the relation and lets out the same on both sides.** -/
theorem Represents.call (h : Represents conn r) (order : HashOrder) (call : ResponseCall) :
    Represents (conn.call order call).1 (r.call call).1 ∧
      List.Forall₂ SameOutput (conn.call order call).2.toList (r.call call).2.toList := by
  cases call with
  | setResponseBody content =>
    exact ⟨⟨List.append_nil _, h.status, h.fields, h.cookies, h.policy⟩, .nil⟩
  | write content =>
    refine ⟨⟨?_, h.status, h.fields, h.cookies, h.policy⟩, .nil⟩
    simp only [Connection.call, Connection.write, Response.call, ← h.pending, List.append_assoc]
  | getResponseBody =>
    refine ⟨⟨?_, h.status, h.fields, h.cookies, h.policy⟩, ?_⟩
    · simp only [Connection.call, Connection.getResponseBody, Connection.mergeStream,
        List.append_nil]
      exact h.pending
    · simp only [Connection.call, Connection.getResponseBody, Connection.mergeStream,
        Response.call, h.pending]
      exact .cons (.body _) .nil
  | setStatus status => exact ⟨⟨h.pending, rfl, h.fields, h.cookies, h.policy⟩, .nil⟩
  | setHeader key value =>
    exact ⟨⟨h.pending, h.status, h.setHeader key value, h.cookies, h.policy⟩, .nil⟩
  | addHeader key value =>
    exact ⟨⟨h.pending, h.status, h.addHeader key value, h.cookies, h.policy⟩, .nil⟩
  | unsetHeader key =>
    exact ⟨⟨h.pending, h.status, h.unsetHeader key, h.cookies, h.policy⟩, .nil⟩
  | setCookie key cookie =>
    by_cases hvalid : key.all Connection.keyChar ∧ cookie.content.all Connection.contentChar
    · simp only [Connection.call, Connection.setCookie, Response.call, if_pos hvalid]
      exact ⟨⟨h.pending, h.status, h.fields, by rw [h.cookies], h.policy⟩, .nil⟩
    · simp only [Connection.call, Connection.setCookie, Response.call, if_neg hvalid]
      exact ⟨h, .cons (.refused _) .nil⟩
  | unsetCookie key =>
    refine ⟨⟨h.pending, h.status, h.fields, ?_, h.policy⟩, .nil⟩
    simp only [Connection.call, Connection.unsetCookie, Response.call, h.cookies]
  | setCookiePolicy policy => exact ⟨⟨h.pending, h.status, h.fields, h.cookies, rfl⟩, .nil⟩
  | flushResponse =>
    exact ⟨⟨rfl, h.status, h.fields, h.cookies, h.policy⟩, .cons (.flushed (h.flushed order)) .nil⟩

/-- The whole sequence lets out the same on both sides. -/
theorem Represents.outputs (h : Represents conn r) (order : HashOrder)
    (calls : List ResponseCall) :
    List.Forall₂ SameOutput (conn.outputs order calls) (r.outputs calls) := by
  induction calls generalizing conn r with
  | nil => exact .nil
  | cons call rest ih =>
    obtain ⟨hnext, hout⟩ := h.call order call
    exact List.rel_append hout (ih hnext)

/-- A connection that has not sent anything yet, with the header names that the connection's own
calls make. -/
structure Fresh (conn : Connection) : Prop where
  notFlushed : conn.isFlushed = false
  lowercase : ∀ e ∈ Connection.headerEntries conn.headers, utils.toLowercase e.1 = e.1

/-- The constructor makes such a connection, whether or not it starts a session. -/
theorem fresh_construct {V : Type} (request : Request) (config : Config) (ctx : StartContext)
    (store : SessionStore V) : Fresh (Connection.construct request config ctx store).2.1 := by
  obtain ⟨session, cookies, heq⟩ := Connection.construct_frame request config ctx store
  rw [heq]
  refine ⟨rfl, ?_⟩
  show ∀ e ∈ [(bytes "content-type", bytes "text/html; charset=utf-8")],
    utils.toLowercase e.1 = e.1
  rw [List.forall_mem_singleton]
  rfl

/-- Such a connection holds its own response. -/
theorem Fresh.represents (h : Fresh conn) : Represents conn (.ofConnection conn) where
  pending := rfl
  status := rfl
  fields := by
    have hself : (Connection.headerEntries conn.headers).map sentField =
        Connection.headerEntries conn.headers := by
      have hfield : ∀ e ∈ Connection.headerEntries conn.headers, sentField e = id e :=
        fun e he => Prod.ext (h.lowercase e he) rfl
      rw [List.map_congr_left hfield, List.map_id]
    rw [Response.ofConnection, hself]
  cookies := rfl
  policy := rfl

/-! ## What the web server gets -/

theorem sent_append {β : Type} (xs ys : List (Output β)) : sent (xs ++ ys) = sent xs ++ sent ys :=
  List.filterMap_append

theorem forall₂_sent {outs : List (Output FlushCallbackContainer)}
    {outs' : List (Output Emitted)} (h : List.Forall₂ SameOutput outs outs') :
    List.Forall₂ Sends (sent outs) (sent outs') ∧ read outs = read outs' := by
  induction h with
  | nil => exact ⟨.nil, rfl⟩
  | cons hout _ ih =>
    cases hout with
    | body content => exact ⟨ih.1, congrArg (content :: ·) ih.2⟩
    | refused e => exact ih
    | flushed hsends => exact ⟨.cons hsends ih.1, ih.2⟩

/-- Only a flush changes whether the response has been flushed. -/
theorem isFlushed_call (conn : Connection) (order : HashOrder) (call : ResponseCall) :
    sent (conn.call order call).2.toList = [] ∧
        (conn.call order call).1.isFlushed = conn.isFlushed ∨
      (∃ info, sent (conn.call order call).2.toList = [info] ∧
        info.flushedBefore = conn.isFlushed) ∧ (conn.call order call).1.isFlushed = true := by
  cases call with
  | flushResponse => exact .inr ⟨⟨_, rfl, rfl⟩, rfl⟩
  | setCookie key cookie =>
    by_cases hvalid : key.all Connection.keyChar ∧ cookie.content.all Connection.contentChar
    · simp only [Connection.call, Connection.setCookie, if_pos hvalid]
      exact .inl ⟨rfl, trivial⟩
    · simp only [Connection.call, Connection.setCookie, if_neg hvalid]
      exact .inl ⟨rfl, trivial⟩
  | setResponseBody => exact .inl ⟨rfl, rfl⟩
  | write => exact .inl ⟨rfl, rfl⟩
  | getResponseBody => exact .inl ⟨rfl, rfl⟩
  | setStatus => exact .inl ⟨rfl, rfl⟩
  | setHeader => exact .inl ⟨rfl, rfl⟩
  | addHeader => exact .inl ⟨rfl, rfl⟩
  | unsetHeader => exact .inl ⟨rfl, rfl⟩
  | unsetCookie => exact .inl ⟨rfl, rfl⟩
  | setCookiePolicy => exact .inl ⟨rfl, rfl⟩

/-- After a flush every flush knows of it. -/
theorem flushedBefore_of_isFlushed (calls : List ResponseCall) (h : conn.isFlushed = true) :
    ∀ info ∈ sent (conn.outputs order calls), info.flushedBefore = true := by
  induction calls generalizing conn with
  | nil => nofun
  | cons call rest ih =>
    rw [Connection.outputs, sent_append]
    rcases isFlushed_call conn order call with
      ⟨hsent, hflushed⟩ | ⟨⟨info, hsent, hbefore⟩, hflushed⟩
    · rw [hsent, List.nil_append]
      exact ih (hflushed.trans h)
    · rw [hsent, List.singleton_append, List.forall_mem_cons]
      exact ⟨hbefore.trans h, ih hflushed⟩

/-- The first flush of a response, and no other, does not know of one before it. -/
theorem flushedBefore_first (order : HashOrder) (calls : List ResponseCall)
    (h : conn.isFlushed = false) :
    ∃ first rest, sent (conn.outputs order (calls ++ [.flushResponse])) = first :: rest ∧
      first.flushedBefore = false ∧ ∀ info ∈ rest, info.flushedBefore = true := by
  induction calls generalizing conn with
  | nil => exact ⟨_, [], rfl, h, nofun⟩
  | cons call calls ih =>
    rw [List.cons_append, Connection.outputs, sent_append]
    rcases isFlushed_call conn order call with
      ⟨hsent, hflushed⟩ | ⟨⟨info, hsent, hbefore⟩, hflushed⟩
    · rw [hsent, List.nil_append]
      exact ih (hflushed.trans h)
    · rw [hsent, List.singleton_append]
      exact ⟨info, _, rfl, hbefore.trans h, flushedBefore_of_isFlushed _ hflushed⟩

/-- Flushes that send the same have the same bodies. -/
theorem map_body_of_sends {infos : List FlushCallbackContainer} {es : List Emitted}
    (h : List.Forall₂ Sends infos es) : infos.map (·.body) = es.map (·.body) := by
  induction h with
  | nil => rfl
  | cons hsends _ ih => rw [List.map_cons, List.map_cons, hsends.body, ih]

/-- Flushes after the first send their bodies and nothing else. -/
theorem flatMap_flushedBefore {infos : List FlushCallbackContainer}
    (h : ∀ info ∈ infos, info.flushedBefore = true) :
    infos.flatMap FastcgippRequestAdapter.flushCallback = infos.flatMap (·.body) ∧
      infos.flatMap FlushCallbackContainer.getFullHttp = infos.flatMap (·.body) := by
  induction infos with
  | nil => exact ⟨rfl, rfl⟩
  | cons info infos ih =>
    rw [List.forall_mem_cons] at h
    obtain ⟨hcallback, hfull⟩ := ih h.2
    have hinfo : info.getFullHttp = info.body := by
      rw [FlushCallbackContainer.getFullHttp, if_pos h.1, List.nil_append]
    simp only [List.flatMap_cons, FastcgippRequestAdapter.flushCallback, hinfo, if_pos h.1,
      List.nil_append] at hcallback ⊢
    exact ⟨congrArg _ hcallback, congrArg _ hfull⟩

/-- **Every byte of a response is delivered once, and the header block once.** Whatever calls
build the response, the flushes hand over the bodies of the reference model, only the first of
them comes first, and what the callback of the FastCGI handler and `getFullHttp` make of them is
one header block, with the status and the header fields of the first flush, followed by the
bodies in order. -/
theorem response_delivered_once (order : HashOrder) (h : Fresh conn)
    (calls : List ResponseCall) :
    let outputs := conn.outputs order (calls ++ [.flushResponse])
    let reference := (Response.ofConnection conn).outputs (calls ++ [.flushResponse])
    (sent outputs).map (·.body) = (sent reference).map (·.body) ∧ read outputs = read reference ∧
    ∃ first rest e es fields, sent outputs = first :: rest ∧ sent reference = e :: es ∧
      first.flushedBefore = false ∧ (∀ info ∈ rest, info.flushedBefore = true) ∧
      List.Perm fields e.head ∧
      (sent outputs).flatMap FastcgippRequestAdapter.flushCallback =
        bytes "status: " ++ decimal e.status ++
          (FlushCallbackContainer.httpStatusCodes.lookup e.status).elim [] (bytes " " ++ ·) ++
          crlf ++ fields.flatMap (fun f => f.1 ++ bytes ": " ++ f.2 ++ crlf) ++ crlf ++
          (sent reference).flatMap (·.body) ∧
      (sent outputs).flatMap FlushCallbackContainer.getFullHttp =
        fields.flatMap (fun f => f.1 ++ bytes ": " ++ f.2 ++ crlf) ++ crlf ++
          (sent reference).flatMap (·.body) := by
  obtain ⟨hsent, hread⟩ := forall₂_sent (h.represents.outputs order (calls ++ [.flushResponse]))
  obtain ⟨first, rest, hfirst, hbefore, hrest⟩ :=
    flushedBefore_first order calls h.notFlushed
  obtain ⟨hcallback, hfull⟩ := flatMap_flushedBefore hrest
  have hbodies := map_body_of_sends hsent
  dsimp only
  generalize (Response.ofConnection conn).outputs (calls ++ [.flushResponse]) = reference
    at hsent hread hbodies ⊢
  rw [hfirst] at hsent hbodies ⊢
  obtain ⟨e, es, hfirstSends, hrestSends, hreference⟩ := List.forall₂_cons_left_iff.mp hsent
  have hflat : (first :: rest).flatMap (·.body) = (sent reference).flatMap (·.body) := by
    rw [List.flatMap_def, List.flatMap_def, hbodies]
  have hfirstFull : first.getFullHttp =
      first.headers.flatMap (fun f => f.1 ++ bytes ": " ++ f.2 ++ crlf) ++ crlf ++ first.body := by
    rw [FlushCallbackContainer.getFullHttp, if_neg (by rw [hbefore]; nofun)]
    rfl
  have hstatus : first.getStatusString = decimal e.status ++
      (FlushCallbackContainer.httpStatusCodes.lookup e.status).elim [] (bytes " " ++ ·) := by
    rw [FlushCallbackContainer.getStatusString, hfirstSends.status]
    cases FlushCallbackContainer.httpStatusCodes.lookup e.status with
    | none => rfl
    | some text => rfl
  refine ⟨hbodies, hread, first, rest, e, es, first.headers, rfl, hreference, hbefore, hrest,
    hfirstSends.headers, ?_, ?_⟩
  · rw [← hflat, List.flatMap_cons, List.flatMap_cons, hcallback,
      FastcgippRequestAdapter.flushCallback, if_neg (by rw [hbefore]; nofun), hfirstFull, hstatus]
    simp only [List.append_assoc]
  · rw [← hflat, List.flatMap_cons, List.flatMap_cons, hfull, hfirstFull]
    simp only [List.append_assoc]

/-- A response in two flushes, as the web server gets it. -/
theorem response_delivered_once_sample :
    (sent ((({} : Connection).setHeader (bytes "Content-Type") (bytes "text/plain")).outputs
        ⟨id, fun _ => .refl _⟩ ([.write (bytes "a"), .flushResponse, .write (bytes "b")] ++
          [.flushResponse]))).flatMap FastcgippRequestAdapter.flushCallback =
      bytes "status: 200 OK\r\ncontent-type: text/plain\r\n\r\nab" := by
  have hfresh : Fresh (({} : Connection).setHeader (bytes "Content-Type") (bytes "text/plain")) :=
    ⟨rfl, by decide⟩
  obtain ⟨-, -, first, rest, e, es, fields, -, hreference, -, -, hperm, hstream, -⟩ :=
    response_delivered_once ⟨id, fun _ => .refl _⟩ hfresh
      [.write (bytes "a"), .flushResponse, .write (bytes "b")]
  have hsent : sent ((Response.ofConnection (({} : Connection).setHeader (bytes "Content-Type")
      (bytes "text/plain"))).outputs ([.write (bytes "a"), .flushResponse, .write (bytes "b")] ++
        [.flushResponse])) =
      [⟨200, [(bytes "content-type", bytes "text/plain")], bytes "a"⟩,
        ⟨200, [(bytes "content-type", bytes "text/plain")], bytes "b"⟩] := rfl
  rw [hsent] at hreference hstream
  cases hreference
  rw [hstream, List.perm_singleton.mp hperm]
  decide

end Nawa
