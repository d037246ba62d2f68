import Nawa.Laws.RequestHandler.Http
import Nawa.Lib.Chunks

/-!
# The body of a POST request, however it is split

A request with a valid length is read in stretches until the consumer has as much as was
announced. What it then takes for the body is everything that has arrived, so the body is the
announced one exactly when a stretch ends where the body does; and a body of no length is waited
for like any other (`bodyDelivered_iff`).
-/

namespace Nawa

open Lib.Chunks

/-- A POST request whose length is valid and within the limit. -/
structure ValidPost (config : Config) (request : ServerRequest) (n : Nat) : Prop where
  method : request.method = bytes "POST"
  length : ∃ v, HttpHandler.header request (bytes "content-length") = some v ∧ stoul v = .ok n
  limit : ∃ maxSize, stol (config.get (bytes "post") (bytes "max_size")) = .ok maxSize ∧
    (n : Int) ≤ maxSize * 1024 ∧ maxSize * 1024 < 2 ^ 63

/-- The container that a request is handled with. -/
def HttpAction.container? : HttpAction → Option RequestInitContainer
  | .handleRequest requestInit => some requestInit
  | _ => none

/-- One body has been parsed and handled, and no read is registered. -/
structure Delivered (config : Config) (requestInit : RequestInitContainer) (exchange : Exchange)
    (body : Bytes) : Prop where
  parsed : exchange.parsed = [body]
  handled : ∃ (consumer : InputConsumingHttpHandler) (container : RequestInitContainer),
    consumer.postBody = body ∧ consumer.rawPostAccess = HttpHandler.rawPostAccess config ∧
      consumer.parseBody requestInit = .ok container ∧
      exchange.log.filterMap HttpAction.container? = [container]
  pending : exchange.pending = none

/-- As soon as the announced number of bytes has arrived, the request is handled with them. -/
def BodyDelivered (handled : RequestInitContainer → Except Failure Unit) (config : Config)
    (request : ServerRequest) (n : Nat) (inputs : List Bytes) : Prop :=
  ∀ requestInit, HttpHandler.requestInit config request = .ok requestInit →
    ∀ arrived, arrived <+: inputs → n ≤ arrived.flatten.length →
      Delivered config requestInit (Exchange.run handled config request arrived)
        (inputs.flatten.take n)

namespace Exchange

variable {handled : RequestInitContainer → Except Failure Unit}
  {requestInit : RequestInitContainer}

/-! ## Steps -/

section Steps

variable {consumer : InputConsumingHttpHandler} (log : List HttpAction) (parsed : List Bytes)
  {input : Bytes}

theorem receive_overflow (h : ¬ consumer.Fits input.length) :
    receive handled requestInit ⟨some consumer, log, parsed⟩ input =
      ⟨none, log ++ [.serverError], parsed⟩ := by
  rcases InputConsumingHttpHandler.consume_eq consumer input .success input.length with
    ⟨-, hconsume⟩ | ⟨-, hfits, -⟩ | ⟨-, hfits, -⟩
  · simp only [receive, InputConsumingHttpHandler.operator, hconsume, HttpCall.pending,
      List.findSome?_cons, List.findSome?_nil, Option.toList_none, List.append_nil]
  · exact absurd hfits h
  · exact absurd hfits h

theorem receive_more (hfits : consumer.Fits input.length) (hmore : ¬ consumer.Completes input) :
    receive handled requestInit ⟨some consumer, log, parsed⟩ input =
      ⟨some (consumer.append input), log ++ [.read (consumer.append input)], parsed⟩ := by
  rcases InputConsumingHttpHandler.consume_eq consumer input .success input.length with
    ⟨hstop, -⟩ | ⟨-, -, -, hconsume⟩ | ⟨-, -, hcomplete, -⟩
  · exact absurd hfits (hstop.resolve_left nofun)
  · simp only [receive, InputConsumingHttpHandler.operator, hconsume, HttpCall.pending,
      List.findSome?_cons, Option.toList_none, List.append_nil]
  · exact absurd hcomplete hmore

theorem receive_complete (handled : RequestInitContainer → Except Failure Unit)
    (requestInit : RequestInitContainer) (hfits : consumer.Fits input.length)
    (hcomplete : consumer.Completes input) :
    ∃ container actions, (consumer.append input).parseBody requestInit = .ok container ∧
      actions.filterMap HttpAction.container? = [container] ∧
      receive handled requestInit ⟨some consumer, log, parsed⟩ input =
        ⟨none, log ++ actions, parsed ++ [consumer.postBody ++ input]⟩ := by
  rcases InputConsumingHttpHandler.consume_eq consumer input .success input.length with
    ⟨hstop, -⟩ | ⟨-, -, hmore, -⟩ | ⟨-, -, -, hconsume⟩
  · exact absurd hfits (hstop.resolve_left nofun)
  · exact absurd hcomplete hmore
  · obtain ⟨container, hparse⟩ := InputConsumingHttpHandler.parseBody_returns
      (consumer.append input) requestInit
    refine ⟨container, (handleAndFlush handled container).actions, hparse, ?_, ?_⟩
    · unfold handleAndFlush
      split <;> rfl
    · simp only [receive, InputConsumingHttpHandler.operator, hconsume, hparse]
      unfold handleAndFlush HttpCall.pending
      split <;> rfl

end Steps

/-- Without a registered read, nothing happens any more. -/
theorem foldl_receive_none {exchange : Exchange} (h : exchange.pending = none)
    (inputs : List Bytes) :
    inputs.foldl (receive handled requestInit) exchange = exchange := by
  induction inputs with
  | nil => rfl
  | cons input inputs ih =>
    rw [List.foldl_cons, receive, h]
    exact ih

/-- As long as the body is not complete, the consumer collects what arrives. -/
theorem foldl_receive_more (handled : RequestInitContainer → Except Failure Unit)
    (requestInit : RequestInitContainer) {consumer : InputConsumingHttpHandler}
    (log : List HttpAction) (parsed : List Bytes) {inputs : List Bytes}
    (hmax : consumer.expectedSize ≤ toSizeT consumer.maxPostSize)
    (h : consumer.postBody.length + inputs.flatten.length < consumer.expectedSize) :
    ∃ reads, reads.filterMap HttpAction.container? = [] ∧
      inputs.foldl (receive handled requestInit) ⟨some consumer, log, parsed⟩ =
        ⟨some (consumer.append inputs.flatten), log ++ reads, parsed⟩ := by
  induction inputs generalizing consumer log with
  | nil =>
    refine ⟨[], rfl, ?_⟩
    rw [List.foldl_nil, List.flatten_nil, List.append_nil, InputConsumingHttpHandler.append,
      List.append_nil]
  | cons input inputs ih =>
    rw [List.flatten_cons, List.length_append] at h
    have hfits : consumer.Fits input.length := by
      unfold InputConsumingHttpHandler.Fits
      omega
    have hmore : ¬ consumer.Completes input := by
      unfold InputConsumingHttpHandler.Completes
      omega
    have hlength : (consumer.append input).postBody.length + inputs.flatten.length <
        consumer.expectedSize := by
      rw [InputConsumingHttpHandler.append, List.length_append]
      omega
    obtain ⟨reads, hreads, heq⟩ :=
      @ih (consumer.append input) (log ++ [.read (consumer.append input)]) hmax hlength
    refine ⟨.read (consumer.append input) :: reads, ?_, ?_⟩
    · exact hreads
    · rw [List.foldl_cons, receive_more log parsed hfits hmore, heq, List.append_assoc,
        InputConsumingHttpHandler.append, InputConsumingHttpHandler.append,
        InputConsumingHttpHandler.append, List.append_assoc, List.flatten_cons]
      rfl

end Exchange

/-! ## The arrival -/

variable {handled : RequestInitContainer → Except Failure Unit} {config : Config}
  {request : ServerRequest} {n : Nat}

/-- A valid POST request begins with a read, whatever its length. -/
theorem arrive_of_validPost (handled : RequestInitContainer → Except Failure Unit)
    (h : ValidPost config request n) :
    ∃ consumer : InputConsumingHttpHandler, consumer.postBody = [] ∧ consumer.expectedSize = n ∧
      n ≤ toSizeT consumer.maxPostSize ∧
      consumer.rawPostAccess = HttpHandler.rawPostAccess config ∧
      HttpHandler.operator handled config request = { actions := [.read consumer] } := by
  obtain ⟨requestInit, hinit⟩ := HttpHandler.requestInit_returns config request
  obtain ⟨v, hheader, hv⟩ := h.length
  obtain ⟨maxSize, hmax, hle, hlt⟩ := h.limit
  have hsize : toSizeT (maxSize * 1024) = (maxSize * 1024).toNat := by
    unfold toSizeT
    omega
  have hlength : requestInit.request.env.lookup (bytes "content-length") = some v :=
    (HttpHandler.lookup_contentLength hinit).trans hheader
  refine ⟨⟨maxSize * 1024, n, [], HttpHandler.rawPostAccess config⟩, rfl, rfl, ?_, rfl, ?_⟩
  · show n ≤ toSizeT (maxSize * 1024)
    omega
  · have hdispatch : HttpHandler.dispatch config request.method requestInit.request =
        .read ⟨maxSize * 1024, n, [], HttpHandler.rawPostAccess config⟩ := by
      unfold HttpHandler.dispatch
      simp only [h.method, ne_eq, not_true_eq_false, if_false, hlength, hv, hmax]
      rw [if_neg (by omega), if_neg (by omega)]
    simp only [HttpHandler.operator, hinit, hdispatch]

theorem run_eq {consumer : InputConsumingHttpHandler} {requestInit : RequestInitContainer}
    (hinit : HttpHandler.requestInit config request = .ok requestInit)
    (hoperator : HttpHandler.operator handled config request = { actions := [.read consumer] })
    (inputs : List Bytes) :
    Exchange.run handled config request inputs =
      inputs.foldl (Exchange.receive handled requestInit)
        ⟨some consumer, [.read consumer], []⟩ := by
  unfold Exchange.run
  rw [hinit, hoperator]
  rfl

theorem run_append {requestInit : RequestInitContainer}
    (hinit : HttpHandler.requestInit config request = .ok requestInit)
    (arrived later : List Bytes) :
    Exchange.run handled config request (arrived ++ later) =
      later.foldl (Exchange.receive handled requestInit)
        (Exchange.run handled config request arrived) := by
  simp only [Exchange.run, hinit, List.foldl_append]

/-- With the stretch that reaches the announced length, everything that has arrived is taken for
the body, unless it is too much for the limit. -/
theorem run_reaching (handled : RequestInitContainer → Except Failure Unit)
    (h : ValidPost config request n) {requestInit : RequestInitContainer}
    (hinit : HttpHandler.requestInit config request = .ok requestInit) {before : List Bytes}
    {input : Bytes} (hlt : before.flatten.length < n)
    (hle : n ≤ (before ++ [input]).flatten.length) :
    (Exchange.run handled config request (before ++ [input])).pending = none ∧
      ((Exchange.run handled config request (before ++ [input])).parsed = [] ∧
          n < (before ++ [input]).flatten.length ∨
        Delivered config requestInit (Exchange.run handled config request (before ++ [input]))
          (before ++ [input]).flatten) := by
  obtain ⟨consumer, hbody, hexpected, hmax, haccess, hoperator⟩ := arrive_of_validPost handled h
  have hlength : consumer.postBody.length + before.flatten.length < consumer.expectedSize := by
    rw [hbody, hexpected, List.length_nil, Nat.zero_add]
    exact hlt
  obtain ⟨reads, hreads, hfold⟩ := Exchange.foldl_receive_more handled requestInit
    [.read consumer] [] (hexpected.symm ▸ hmax) hlength
  have hflatten : (before ++ [input]).flatten = before.flatten ++ input := by
    rw [List.flatten_append, List.flatten_singleton]
  have hpost : (consumer.append before.flatten).postBody = before.flatten := by
    rw [InputConsumingHttpHandler.append, hbody, List.nil_append]
  have htotal : (before ++ [input]).flatten.length = before.flatten.length + input.length := by
    rw [hflatten, List.length_append]
  rw [run_eq hinit hoperator, List.foldl_append, hfold, List.foldl_cons, List.foldl_nil]
  by_cases hfits : (consumer.append before.flatten).Fits input.length
  · have hcomplete : (consumer.append before.flatten).Completes input := by
      rw [InputConsumingHttpHandler.Completes, hpost, ← htotal]
      exact hexpected.trans_le hle
    obtain ⟨container, actions, hparse, hactions, heq⟩ := Exchange.receive_complete
      ([.read consumer] ++ reads) [] handled requestInit hfits hcomplete
    rw [heq]
    refine ⟨rfl, .inr ⟨?_, ?_, rfl⟩⟩
    · rw [hpost, hflatten, List.nil_append]
    · refine ⟨(consumer.append before.flatten).append input, container, ?_, haccess, hparse, ?_⟩
      · rw [InputConsumingHttpHandler.append, hpost, hflatten]
      · rw [List.filterMap_append, List.filterMap_append, hreads, hactions]
        rfl
  · rw [Exchange.receive_overflow _ _ hfits]
    refine ⟨rfl, .inl ⟨rfl, ?_⟩⟩
    rw [InputConsumingHttpHandler.Fits, hpost, ← htotal, Nat.not_le] at hfits
    exact hmax.trans_lt hfits

/-- **The body does not depend on the splits** exactly when the request has a body and, once that
has arrived, one of the stretches ends where it does. -/
theorem bodyDelivered_iff (handled : RequestInitContainer → Except Failure Unit)
    (h : ValidPost config request n) (inputs : List Bytes) :
    BodyDelivered handled config request n inputs ↔
      (n ≤ inputs.flatten.length →
        0 < n ∧ ∃ arrived, arrived <+: inputs ∧ arrived.flatten.length = n) := by
  obtain ⟨requestInit, hinit⟩ := HttpHandler.requestInit_returns config request
  constructor
  · intro hdelivered hle
    have hpos : 0 < n := by
      apply Nat.pos_of_ne_zero
      intro hzero
      have hnone := (hdelivered requestInit hinit [] List.nil_prefix
        (hzero ▸ Nat.zero_le _)).pending
      obtain ⟨consumer, -, -, -, -, hoperator⟩ := arrive_of_validPost handled h
      rw [run_eq hinit hoperator] at hnone
      cases hnone
    obtain ⟨before, input, hbegins, hlt, hreached⟩ := exists_reaching hpos hle
    refine ⟨hpos, (ends_at_iff hbegins hlt hreached).mpr ?_⟩
    have hparsed := (hdelivered requestInit hinit _ hbegins hreached).parsed
    rcases (run_reaching handled h hinit hlt hreached).2 with ⟨hnothing, -⟩ | hbody
    · exact nomatch hnothing.symm.trans hparsed
    · rw [List.singleton_inj.mp (hbody.parsed.symm.trans hparsed), List.length_take]
      exact Nat.min_eq_left hle
  · intro hends requestInit' hinit' arrived harrived hle
    cases hinit.symm.trans hinit'
    obtain ⟨hpos, hexact⟩ := hends (hle.trans (length_flatten_le harrived))
    obtain ⟨before, input, hbegins, hlt, hreached⟩ := exists_reaching hpos hle
    have hwithin := hbegins.trans harrived
    have hlength := (ends_at_iff hwithin hlt hreached).mp hexact
    obtain ⟨hpending, hrun⟩ := run_reaching handled h hinit hlt hreached
    have hdelivered := hrun.resolve_left fun hmore => Nat.ne_of_gt hmore.2 hlength
    obtain ⟨later, rfl⟩ := hbegins
    rw [run_append hinit, Exchange.foldl_receive_none hpending,
      ← flatten_eq_take hwithin hlength]
    exact hdelivered

/-- A limit of one kilobyte. -/
def smallLimit : Config := Config.set {} (bytes "post", bytes "max_size") (bytes "1")

/-- A POST request with a body of one byte. -/
def oneByte : ServerRequest :=
  { method := bytes "POST"
    destination := bytes "/"
    headers := [(bytes "Content-Length", bytes "1")] }

theorem bodyDelivered_iff_oneByte :
    BodyDelivered (fun _ => .ok ()) smallLimit oneByte 1 [[], [120], [121]] :=
  (bodyDelivered_iff (fun _ => .ok ()) ⟨rfl, ⟨_, rfl, rfl⟩, ⟨1, rfl, by decide, by decide⟩⟩ _).mpr
    fun _ => ⟨by decide, [[], [120]], by decide, rfl⟩

/-- The byte behind a body of one byte, which belongs to the next request, becomes part of it. -/
theorem not_bodyDelivered_oneByte :
    ¬ ∀ (config : Config) (request : ServerRequest) (n : Nat) (inputs : List Bytes),
      ValidPost config request n →
        BodyDelivered (fun _ => .ok ()) config request n inputs := by
  intro hall
  obtain ⟨requestInit, hinit⟩ := HttpHandler.requestInit_returns smallLimit oneByte
  have hbody := (hall smallLimit oneByte 1 [[120, 121]]
    ⟨rfl, ⟨_, rfl, rfl⟩, ⟨1, rfl, by decide, by decide⟩⟩ requestInit hinit _
    (List.prefix_refl _) (by decide)).parsed
  revert hbody
  decide

end Nawa
