import Nawa.Laws.Mail.Email
import Nawa.Lib.Transition
import Nawa.Mail.SmtpMailer

/-!
# Runs of a mailer

The queue is sent in its order, up to the first failure, and stays as it is, so what has been sent
is sent again by the next call of `processQueue`. `fifo_of_run` counts the deliveries of each
email over a whole run.

An email gets its missing headers when it is put into the queue, once. `headers_of_run` says that
all that is sent of it has the same ones from then on, unless the application writes to the email.
-/

namespace Nawa.mail

open Lib (AssocMap)
open Lib.Search
open Lib.Transition
open utils (block fieldLine)

variable {out : Surroundings}

/-! ## One call of `processQueue` -/

/-- What a call that goes through a queue may have made. -/
structure Made (out : Surroundings) (objects : Objects) (options : CurlOptions)
    (queue : List QueueElem) (made : List (Transfer × CURLcode)) : Prop where
  inOrder : made.map (·.1.elem) <+: queue
  succeeded : ∀ x ∈ made.dropLast, x.2 = CURLE_OK
  fromQueue : ∀ x ∈ made, ∃ b b', makeTransfer out objects options b x.1.elem = .ok (x.1, b')

theorem elem_of_makeTransfer {objects : Objects} {options : CurlOptions} {b b' : Nat}
    {elem : QueueElem} {t : Transfer}
    (h : makeTransfer out objects options b elem = .ok (t, b')) : t.elem = elem := by
  obtain ⟨mailFrom, -, h⟩ := bind_eq_ok_iff.mp h
  obtain ⟨mailRcpt, -, h⟩ := bind_eq_ok_iff.mp h
  obtain ⟨raw, -, h⟩ := bind_eq_ok_iff.mp h
  cases h
  rfl

/-- The loop makes transfers for the elements in their order, and all but the last succeed. When
it returns, there is one for each element, and that one succeeds as well. -/
theorem made_sendQueue (out : Surroundings) (objects : Objects) (options : CurlOptions)
    (queue : List QueueElem) (s : Sending) :
    ∃ made, (sendQueue out objects options queue s).1.transfers = s.transfers ++ made ∧
      Made out objects options queue made ∧
      ((sendQueue out objects options queue s).2 = .ok () →
        made.map (·.1.elem) = queue ∧ ∀ x ∈ made, x.2 = CURLE_OK) := by
  induction queue generalizing s with
  | nil =>
    refine ⟨[], (List.append_nil _).symm, ⟨List.prefix_refl _, ?_, ?_⟩, fun _ => ⟨rfl, ?_⟩⟩ <;>
      exact fun x hx => absurd hx List.not_mem_nil
  | cons elem queue ih =>
    cases htransfer : makeTransfer out objects options s.boundaries elem with
    | error e =>
      refine ⟨[], ?_, ⟨List.nil_prefix, ?_, ?_⟩, ?_⟩
      · rw [sendQueue, htransfer, List.append_nil]
      · exact fun x hx => absurd hx List.not_mem_nil
      · exact fun x hx => absurd hx List.not_mem_nil
      · intro h
        rw [sendQueue, htransfer] at h
        cases h
    | ok r =>
      obtain ⟨transfer, boundaries⟩ := r
      have helem := elem_of_makeTransfer htransfer
      by_cases hres : out.perform s.performed = CURLE_OK
      · obtain ⟨made, hmade, hqueue, hall⟩ := ih
          ⟨boundaries, s.performed + 1, s.transfers ++ [(transfer, out.perform s.performed)]⟩
        refine ⟨(transfer, out.perform s.performed) :: made, ?_, ⟨?_, ?_, ?_⟩, ?_⟩
        · rw [sendQueue, htransfer]
          dsimp only
          rw [if_neg (not_not_intro hres), hmade, List.append_assoc, List.singleton_append]
        · rw [List.map_cons, helem]
          exact List.cons_prefix_cons.mpr ⟨rfl, hqueue.inOrder⟩
        · intro x hx
          cases made with
          | nil => exact absurd hx List.not_mem_nil
          | cons y made =>
            rw [List.dropLast_cons_of_ne_nil (List.cons_ne_nil y made)] at hx
            rcases List.mem_cons.mp hx with rfl | hx
            · exact hres
            · exact hqueue.succeeded x hx
        · exact List.forall_mem_cons.mpr
            ⟨⟨s.boundaries, boundaries, helem ▸ htransfer⟩, hqueue.fromQueue⟩
        · intro h
          rw [sendQueue, htransfer] at h
          dsimp only at h
          rw [if_neg (not_not_intro hres)] at h
          obtain ⟨hmap, hok⟩ := hall h
          exact ⟨by rw [List.map_cons, helem, hmap], List.forall_mem_cons.mpr ⟨hres, hok⟩⟩
      · refine ⟨[(transfer, out.perform s.performed)], ?_, ⟨?_, ?_, ?_⟩, ?_⟩
        · rw [sendQueue, htransfer]
          dsimp only
          rw [if_pos hres]
        · rw [List.map_singleton, helem]
          exact List.cons_prefix_cons.mpr ⟨rfl, List.nil_prefix⟩
        · exact fun x hx => absurd hx List.not_mem_nil
        · exact List.forall_mem_singleton.mpr ⟨s.boundaries, boundaries, helem ▸ htransfer⟩
        · intro h
          rw [sendQueue, htransfer] at h
          dsimp only at h
          rw [if_pos hres] at h
          cases h

/-- What a step does to what is shared, queued and sent. -/
inductive Effect (out : Surroundings) (w : World) (a : Action) (result : Except Failure Unit)
    (w' : World) : Prop
  | sent (made : List (Transfer × CURLcode)) (objects : w'.objects = w.objects)
      (mailer : w'.mailer = w.mailer) (transfers : w'.transfers = w.transfers ++ [made])
      (hmade : Made out w.objects w.mailer.curlOptions w.mailer.queue made)
      (all : out.curlInit w.inits = true → result = .ok () →
        made.map (·.1.elem) = w.mailer.queue ∧ ∀ x ∈ made, x.2 = CURLE_OK)
  | kept (other : a ≠ .processQueue) (transfers : w'.transfers = w.transfers)
      (queue : w.mailer.queue <+: w'.mailer.queue)
  | cleared (clear : a = .clearQueue) (transfers : w'.transfers = w.transfers)

theorem effect_processQueue (w : World) :
    Effect out w .processQueue (processQueue out w).2 (processQueue out w).1 := by
  unfold processQueue
  by_cases hinit : out.curlInit w.inits = true
  · obtain ⟨made, htransfers, hmade, hall⟩ := made_sendQueue out w.objects w.mailer.curlOptions
      w.mailer.queue ⟨w.boundaries, w.performed, []⟩
    rw [List.nil_append] at htransfers
    rw [if_pos hinit]
    exact .sent made rfl rfl (congrArg (w.transfers ++ [·]) htransfers) hmade fun _ => hall
  · rw [if_neg hinit]
    refine .sent [] rfl rfl rfl ⟨List.nil_prefix, ?_, ?_⟩ fun h => absurd h hinit
    · exact fun x hx => absurd hx List.not_mem_nil
    · exact fun x hx => absurd hx List.not_mem_nil

/-- What is left of the headers that an email has had, whether it gets into the queue or not. -/
def enqueuedHeaders (out : Surroundings) (w : World) (elem : QueueElem) :
    HeadersMap × Except Failure Unit :=
  addMissingHeaders out (out.moment w.moments) (w.objects.sender elem.sender)
    (w.objects.email elem.email).headers

theorem bulkEnqueue_eq (w : World) (elem : QueueElem) :
    bulkEnqueue out w elem =
      ({ w with
          objects := w.objects.setEmail elem.email
            { w.objects.email elem.email with headers := (enqueuedHeaders out w elem).1 }
          mailer.queue := match (enqueuedHeaders out w elem).2 with
            | .ok () => w.mailer.queue ++ [elem]
            | .error _ => w.mailer.queue
          moments := w.moments + 1 }, (enqueuedHeaders out w elem).2) := by
  rw [bulkEnqueue, enqueuedHeaders]
  dsimp only
  cases addMissingHeaders out (out.moment w.moments) (w.objects.sender elem.sender)
      (w.objects.email elem.email).headers with
  | mk headers result => cases result <;> rfl

theorem effect_bulkEnqueue (w : World) {a : Action} (ha : a ≠ .processQueue) (elem : QueueElem) :
    Effect out w a (bulkEnqueue out w elem).2 (bulkEnqueue out w elem).1 := by
  rw [bulkEnqueue_eq]
  refine .kept ha rfl ?_
  dsimp only
  split
  · exact List.prefix_append _ _
  · exact List.prefix_refl _

theorem effect_act (w : World) (a : Action) : Effect out w a (act out w a).2 (act out w a).1 := by
  cases a with
  | setServer => exact .kept (by simp) rfl (List.prefix_refl _)
  | setAuth => exact .kept (by simp) rfl (List.prefix_refl _)
  | setConnectionTimeout => exact .kept (by simp) rfl (List.prefix_refl _)
  | enqueue => exact effect_bulkEnqueue w (by simp) _
  | bulkEnqueue elem => exact effect_bulkEnqueue w (by simp) elem
  | clearQueue => exact .cleared rfl rfl
  | processQueue => exact effect_processQueue w
  | writeEmail => exact .kept (by simp) rfl (List.prefix_refl _)
  | writeSender => exact .kept (by simp) rfl (List.prefix_refl _)
  | writeRules => exact .kept (by simp) rfl (List.prefix_refl _)

theorem step_eq_some {w w' : World} {a : Action × Except Failure Unit}
    (h : step out w a = some w') : (act out w a.1).1 = w' ∧ (act out w a.1).2 = a.2 := by
  unfold step at h
  split at h
  · next hresult => exact ⟨Option.some.inj h, hresult.1⟩
  · cases h

theorem effect_step {w w' : World} {a : Action × Except Failure Unit}
    (h : step out w a = some w') : Effect out w a.1 a.2 w' := by
  obtain ⟨rfl, hresult⟩ := step_eq_some h
  exact hresult ▸ effect_act w a.1

/-! ## Deliveries -/

/-- Every call has sent a beginning of the queue, and only its last transfer may have failed. -/
structure Fifo (w : World) : Prop where
  inOrder : ∀ made ∈ w.transfers, made.map (·.1.elem) <+: w.mailer.queue
  succeeded : ∀ made ∈ w.transfers, ∀ x ∈ made.dropLast, x.2 = CURLE_OK

/-- Whether a call has delivered the email at a place of the queue. -/
def delivers (i : Nat) (made : List (Transfer × CURLcode)) : Bool :=
  made[i]?.any fun x => x.2 = CURLE_OK

/-- How often the email at a place of the queue has been delivered. -/
def delivered (w : World) (i : Nat) : Nat := w.transfers.countP (delivers i)

theorem delivers_of_le {made : List (Transfer × CURLcode)}
    (h : ∀ x ∈ made.dropLast, x.2 = CURLE_OK) {i j : Nat} (hle : i ≤ j)
    (hj : delivers j made = true) : delivers i made = true := by
  rcases Nat.eq_or_lt_of_le hle with rfl | hlt
  · exact hj
  · obtain ⟨x, hx, -⟩ := (Option.any_eq_true _ _).mp hj
    obtain ⟨hlen, -⟩ := List.getElem?_eq_some_iff.mp hx
    have hi : i < made.dropLast.length := by
      rw [List.length_dropLast]
      omega
    have hmem : made.dropLast[i] ∈ made.dropLast := List.getElem_mem hi
    have hget : made[i]? = some made.dropLast[i] := by
      rw [List.getElem_dropLast]
      exact List.getElem?_eq_getElem (by omega)
    rw [delivers, hget]
    exact decide_eq_true (h _ hmem)

theorem Fifo.delivered_antitone {w : World} (h : Fifo w) {i j : Nat} (hle : i ≤ j) :
    delivered w j ≤ delivered w i :=
  List.countP_mono_left fun made hmade hj => delivers_of_le (h.succeeded made hmade) hle hj

theorem Fifo.step {w w' : World} {a : Action × Except Failure Unit} (ha : a.1 ≠ .clearQueue)
    (h : Fifo w) (hstep : step out w a = some w') : Fifo w' := by
  cases effect_step hstep with
  | sent made _ hmailer htransfers hmade _ =>
    constructor
    · rw [htransfers, hmailer, List.forall_mem_append, List.forall_mem_singleton]
      exact ⟨h.inOrder, hmade.inOrder⟩
    · rw [htransfers, List.forall_mem_append, List.forall_mem_singleton]
      exact ⟨h.succeeded, hmade.succeeded⟩
  | kept _ htransfers hqueue =>
    constructor
    · rw [htransfers]
      exact fun made hmade => (h.inOrder made hmade).trans hqueue
    · rw [htransfers]
      exact h.succeeded
  | cleared hclear _ => exact absurd hclear ha

theorem delivered_of_sent {w w' : World} {made : List (Transfer × CURLcode)}
    (h : w'.transfers = w.transfers ++ [made]) (i : Nat) :
    delivered w' i = delivered w i + if delivers i made then 1 else 0 := by
  rw [delivered, delivered, h, List.countP_append, List.countP_singleton]

/-- **What has been sent of a queue that is never cleared.** Each call has sent a beginning of it,
in its order. An email has been delivered at least as often as any behind it, a call that returns
delivers each email once more, and no step delivers one twice. -/
theorem fifo_of_run {objects : Objects} {as : List (Action × Except Failure Unit)} {w : World}
    (hrun : Run (step out) (fun _ a => a.1 ≠ .clearQueue) { objects := objects } as w) :
    (∀ made ∈ w.transfers, made.map (·.1.elem) <+: w.mailer.queue) ∧
      (∀ i j, i ≤ j → delivered w j ≤ delivered w i) ∧
      (∀ w', out.curlInit w.inits = true → step out w (.processQueue, .ok ()) = some w' →
        ∀ i < w.mailer.queue.length, delivered w' i = delivered w i + 1) ∧
      ∀ w' a i, step out w a = some w' → delivered w' i ≤ delivered w i + 1 := by
  have hstart : Fifo { objects := objects } := by
    constructor <;> exact fun made hmade => absurd hmade List.not_mem_nil
  have hfifo := hrun.invariant Fifo (fun ha h => h.step ha) hstart
  refine ⟨hfifo.inOrder, fun i j => hfifo.delivered_antitone, ?_, ?_⟩
  · intro w' hinit hstep i hi
    cases effect_step hstep with
    | sent made _ _ htransfers _ hall =>
      obtain ⟨hqueue, hok⟩ := hall hinit rfl
      have hlen : i < made.length := by
        rwa [← hqueue, List.length_map] at hi
      have hdelivers : delivers i made = true := by
        rw [delivers, List.getElem?_eq_getElem hlen]
        exact decide_eq_true (hok _ (List.getElem_mem hlen))
      rw [delivered_of_sent htransfers, if_pos hdelivers]
    | kept hother => exact absurd rfl hother
    | cleared hclear => cases hclear
  · intro w' a i hstep
    cases effect_step hstep with
    | sent made _ _ htransfers _ _ =>
      rw [delivered_of_sent htransfers]
      apply Nat.add_le_add_left
      split
      · exact Nat.le_refl 1
      · exact Nat.zero_le 1
    | kept _ htransfers _ =>
      rw [delivered, htransfers]
      exact Nat.le_succ _
    | cleared _ htransfers =>
      rw [delivered, htransfers]
      exact Nat.le_succ _

/-- Transfers of which the second fails. -/
def sampleSurroundings : Surroundings where
  order := sampleOrder
  zone := fun _ => 0
  md5 := fun _ => []
  digest := sampleDigest
  moment := fun _ => ⟨0, 0, 0, 0⟩
  curlInit := fun _ => true
  perform := fun call => if call = 1 then 7 else CURLE_OK
  strerror := fun _ => bytes "Couldn't connect to server"

/-- Emails without headers, and a sender with an address. -/
def sampleObjects : Objects where
  email := fun _ => ⟨.empty, .simpleEmail (bytes "x") true⟩
  sender := fun _ => { address := bytes "jo@b.c" }
  rules := fun _ => []

def sampleElem (email : Nat) : QueueElem := ⟨email, 0, [], none⟩

/-- What is done after an email has been put into the queue: another one follows it, and only the
second try sends both. -/
def sampleActions : List (Action × Except Failure Unit) :=
  [(.bulkEnqueue (sampleElem 1), .ok ()),
    (.processQueue, .error (curlError sampleSurroundings 7)), (.processQueue, .ok ())]

def sampleQueued : World :=
  (act sampleSurroundings { objects := sampleObjects } (.bulkEnqueue (sampleElem 0))).1

def sampleSent : World :=
  sampleActions.foldl (fun w a => (act sampleSurroundings w a.1).1) sampleQueued

theorem sampleRun {ok : World → Action × Except Failure Unit → Prop}
    (h : ∀ w, ∀ a ∈ sampleActions, ok w a) :
    Run (step sampleSurroundings) ok sampleQueued sampleActions sampleSent := by
  refine .cons (h _ _ ?_) rfl (.cons (h _ _ ?_) rfl (.cons (h _ _ ?_) rfl (.nil _)))
  · exact List.mem_cons_self
  · exact List.mem_cons_of_mem _ List.mem_cons_self
  · exact List.mem_cons_of_mem _ (List.mem_cons_of_mem _ List.mem_cons_self)

/-- After a try that fails at the second email and one that succeeds, the first one has been
delivered twice. -/
theorem fifo_of_run_sample :
    delivered sampleSent 0 = 2 ∧ delivered sampleSent 1 = 1 ∧
      (∀ made ∈ sampleSent.transfers, made.map (·.1.elem) <+: [sampleElem 0, sampleElem 1]) ∧
      (∀ i j, i ≤ j → delivered sampleSent j ≤ delivered sampleSent i) ∧
      (∀ w', sampleSurroundings.curlInit sampleSent.inits = true →
        step sampleSurroundings sampleSent (.processQueue, .ok ()) = some w' →
          ∀ i < 2, delivered w' i = delivered sampleSent i + 1) ∧
      ∀ w' a i, step sampleSurroundings sampleSent a = some w' →
        delivered w' i ≤ delivered sampleSent i + 1 :=
  have hall : ∀ w : World, ∀ a ∈ sampleActions, a.1 ≠ .clearQueue := by
    simp [sampleActions]
  have hrun : Run (step sampleSurroundings) (fun _ a => a.1 ≠ .clearQueue)
      { objects := sampleObjects } ((.bulkEnqueue (sampleElem 0), .ok ()) :: sampleActions)
      sampleSent :=
    .cons (by simp) rfl (sampleRun hall)
  ⟨rfl, rfl, fifo_of_run hrun⟩

/-! ## Headers -/

/-- No header is lost or changed. -/
def Extends (headers headers' : HeadersMap) : Prop :=
  ∀ name value, headers.lookup name = some value → headers'.lookup name = some value

/-- The headers that an email gets from its sender's address. -/
structure Stamped (address : Bytes) (headers : HeadersMap) : Prop where
  date : (headers.lookup (bytes "Date")).isSome
  sender : address ≠ [] → (headers.lookup (bytes "From")).isSome
  messageId : '@'.toUInt8 ∈ address → (headers.lookup (bytes "Message-ID")).isSome

theorem Extends.refl (headers : HeadersMap) : Extends headers headers := fun _ _ h => h

theorem Extends.trans {a b c : HeadersMap} (h : Extends a b) (h' : Extends b c) : Extends a c :=
  fun name value hvalue => h' name value (h name value hvalue)

theorem Extends.isSome {a b : HeadersMap} (h : Extends a b) {name : Bytes}
    (hname : (a.lookup name).isSome) : (b.lookup name).isSome := by
  obtain ⟨value, hvalue⟩ := Option.isSome_iff_exists.mp hname
  exact Option.isSome_iff_exists.mpr ⟨value, h name value hvalue⟩

/-- A header that is missing may be inserted. -/
theorem extends_insert {headers : HeadersMap} {name : Bytes} (h : headers.lookup name = none)
    (value : Bytes) : Extends headers (headers.insert name value) := by
  intro name' value' hvalue
  rw [AssocMap.lookup_insert, if_neg ?_]
  · exact hvalue
  · rintro rfl
    rw [h] at hvalue
    cases hvalue

theorem isSome_insert (headers : HeadersMap) (name value : Bytes) :
    ((headers.insert name value).lookup name).isSome := by
  rw [AssocMap.lookup_insert, if_pos rfl]
  rfl

theorem extends_addDate {now : Moment} {headers headers' : HeadersMap}
    (h : addDate out now headers = .ok headers') :
    Extends headers headers' ∧ (headers'.lookup (bytes "Date")).isSome := by
  unfold addDate at h
  cases hdate : headers.lookup (bytes "Date") with
  | some value =>
    rw [hdate] at h
    cases h
    exact ⟨.refl _, hdate ▸ rfl⟩
  | none =>
    rw [hdate] at h
    dsimp only at h
    cases htime : utils.makeSmtpTime out.zone now.time with
    | error e =>
      rw [htime] at h
      cases h
    | ok date =>
      rw [htime] at h
      cases h
      exact ⟨extends_insert hdate date, isSome_insert ..⟩

theorem extends_addFrom {sender : EmailAddress} {headers headers' : HeadersMap}
    (h : addFrom sender headers = .ok headers') :
    Extends headers headers' ∧
      (sender.address ≠ [] → (headers'.lookup (bytes "From")).isSome) := by
  unfold addFrom at h
  split at h
  · next hmissing =>
    cases hget : sender.get true true with
    | error e =>
      rw [hget] at h
      cases h
    | ok text =>
      rw [hget] at h
      cases h
      exact ⟨extends_insert (Option.isNone_iff_eq_none.mp hmissing.1) text,
        fun _ => isSome_insert ..⟩
  · next hpresent =>
    cases h
    refine ⟨.refl _, fun hne => ?_⟩
    rw [Option.isSome_iff_ne_none, ne_eq, ← Option.isNone_iff_eq_none]
    exact fun hnone => hpresent ⟨hnone, hne⟩

theorem extends_addMessageId (out : Surroundings) (now : Moment) (sender : EmailAddress)
    (headers : HeadersMap) :
    Extends headers (addMessageId out now sender headers) ∧
      ('@'.toUInt8 ∈ sender.address →
        ((addMessageId out now sender headers).lookup (bytes "Message-ID")).isSome) := by
  unfold addMessageId
  cases hid : headers.lookup (bytes "Message-ID") with
  | some value =>
    refine ⟨.refl _, fun _ => ?_⟩
    show (headers.lookup (bytes "Message-ID")).isSome
    rw [hid]
    rfl
  | none =>
    cases hat : findLastElem '@'.toUInt8 sender.address with
    | none => exact ⟨.refl _, fun hmem => absurd hmem (findLastElem_eq_none.mp hat)⟩
    | some atPos => exact ⟨extends_insert hid _, fun _ => isSome_insert ..⟩

/-- Headers are only added, and when the call returns none is missing. -/
theorem addMissingHeaders_spec (out : Surroundings) (now : Moment) (sender : EmailAddress)
    (headers : HeadersMap) :
    Extends headers (addMissingHeaders out now sender headers).1 ∧
      ((addMissingHeaders out now sender headers).2 = .ok () →
        Stamped sender.address (addMissingHeaders out now sender headers).1) := by
  unfold addMissingHeaders
  cases hdate : addDate out now headers with
  | error e => exact ⟨.refl _, fun h => by cases h⟩
  | ok dated =>
    obtain ⟨hextends, hdated⟩ := extends_addDate hdate
    dsimp only
    cases hfrom : addFrom sender dated with
    | error e => exact ⟨hextends, fun h => by cases h⟩
    | ok signed =>
      obtain ⟨hextends', hsigned⟩ := extends_addFrom hfrom
      obtain ⟨hextends'', hid⟩ := extends_addMessageId out now sender signed
      refine ⟨(hextends.trans hextends').trans hextends'', fun _ => ⟨?_, ?_, hid⟩⟩
      · exact (hextends'.trans hextends'').isSome hdated
      · exact fun hne => hextends''.isSome (hsigned hne)

/-- What is sent has those headers in its block that `getRaw` does not write in its own right. -/
def CarriesHeaders (email : Email) (payload : Bytes) : Prop :=
  ∃ (fields : List (Bytes × Bytes)) (body : Bytes),
    payload = block (fields.map fieldLine) ++ (crlf ++ (crlf ++ body)) ∧
    ∀ name value, email.headers.lookup name = some value →
      email.content.ownHeader name = false → (name, value) ∈ fields

theorem carriesHeaders_of_makeTransfer {objects : Objects} {options : CurlOptions} {b b' : Nat}
    {elem : QueueElem} {t : Transfer}
    (h : makeTransfer out objects options b elem = .ok (t, b')) :
    CarriesHeaders (objects.email elem.email) t.payload := by
  obtain ⟨mailFrom, -, h⟩ := bind_eq_ok_iff.mp h
  obtain ⟨mailRcpt, -, h⟩ := bind_eq_ok_iff.mp h
  obtain ⟨raw, hraw, h⟩ := bind_eq_ok_iff.mp h
  cases h
  rw [Email.getRaw_eq] at hraw
  obtain ⟨body, -, rfl⟩ := map_eq_ok_iff.mp hraw
  refine ⟨_, _, rfl, fun name value hvalue hown => List.mem_append_left _ ?_⟩
  refine List.mem_filter.mpr ⟨(out.order.perm _).mem_iff.mpr ?_, ?_⟩
  · exact AssocMap.lookup_eq_some_iff.mp hvalue
  · rw [hown]
    rfl

/-- An action that does not write to an email changes nothing of it but adding headers. -/
theorem extends_act (out : Surroundings) (w : World) {p : Nat} {a : Action}
    (ha : ∀ email, a ≠ .writeEmail p email) :
    ((act out w a).1.objects.email p).content = (w.objects.email p).content ∧
      Extends (w.objects.email p).headers ((act out w a).1.objects.email p).headers := by
  have henqueue : ∀ elem, ((bulkEnqueue out w elem).1.objects.email p).content =
      (w.objects.email p).content ∧ Extends (w.objects.email p).headers
        ((bulkEnqueue out w elem).1.objects.email p).headers := by
    intro elem
    rw [bulkEnqueue_eq]
    show (Function.update w.objects.email elem.email _ p).content = _ ∧
      Extends _ (Function.update w.objects.email elem.email _ p).headers
    by_cases hp : p = elem.email
    · subst hp
      rw [Function.update_self]
      exact ⟨rfl, (addMissingHeaders_spec ..).1⟩
    · rw [Function.update_of_ne hp]
      exact ⟨rfl, .refl _⟩
  cases a with
  | setServer => exact ⟨rfl, .refl _⟩
  | setAuth => exact ⟨rfl, .refl _⟩
  | setConnectionTimeout => exact ⟨rfl, .refl _⟩
  | enqueue => exact henqueue _
  | bulkEnqueue elem => exact henqueue elem
  | clearQueue => exact ⟨rfl, .refl _⟩
  | processQueue => exact ⟨rfl, .refl _⟩
  | writeEmail q email =>
    have hp : p ≠ q := fun hp => ha email (hp ▸ rfl)
    show (Function.update w.objects.email q email p).content = _ ∧
      Extends _ (Function.update w.objects.email q email p).headers
    rw [Function.update_of_ne hp]
    exact ⟨rfl, .refl _⟩
  | writeSender => exact ⟨rfl, .refl _⟩
  | writeRules => exact ⟨rfl, .refl _⟩

/-- What holds of an email and of all that has been sent of it, since a state. -/
structure Since (t : World) (p : Nat) (w : World) : Prop where
  content : (w.objects.email p).content = (t.objects.email p).content
  headers : Extends (t.objects.email p).headers (w.objects.email p).headers
  sent : ∃ later, w.transfers = t.transfers ++ later ∧ ∀ made ∈ later, ∀ x ∈ made,
    x.1.elem.email = p → CarriesHeaders (t.objects.email p) x.1.payload

theorem Since.step {t w w' : World} {p : Nat} {a : Action × Except Failure Unit}
    (ha : ∀ email, a.1 ≠ .writeEmail p email) (h : Since t p w)
    (hstep : step out w a = some w') : Since t p w' := by
  have heffect := effect_step hstep
  obtain ⟨rfl, -⟩ := step_eq_some hstep
  obtain ⟨hcontent, hextends⟩ := extends_act out w ha
  refine ⟨hcontent.trans h.content, h.headers.trans hextends, ?_⟩
  obtain ⟨later, htransfers, hcarries⟩ := h.sent
  cases heffect with
  | sent made _ _ hmore hmade _ =>
    refine ⟨later ++ [made], by rw [hmore, htransfers, List.append_assoc], ?_⟩
    rw [List.forall_mem_append, List.forall_mem_singleton]
    refine ⟨hcarries, fun x hx hp => ?_⟩
    obtain ⟨b, b', htransfer⟩ := hmade.fromQueue x hx
    obtain ⟨fields, body, hpayload, hfields⟩ := carriesHeaders_of_makeTransfer htransfer
    refine ⟨fields, body, hpayload, fun name value hvalue hown => ?_⟩
    rw [hp] at hfields
    exact hfields name value (h.headers name value hvalue) (h.content ▸ hown)
  | kept _ hsame _ => exact ⟨later, hsame.trans htransfers, hcarries⟩
  | cleared _ hsame => exact ⟨later, hsame.trans htransfers, hcarries⟩

/-- **What is sent of an email has the headers with which it got into the queue**, for as long as
the application does not write to it: none of its own headers has been changed for that, the
mandatory ones are there, and they stay the same whatever it is queued for and sent with later. -/
theorem headers_of_run {s t u : World} {elem : QueueElem}
    {as : List (Action × Except Failure Unit)}
    (henqueue : step out s (.bulkEnqueue elem, .ok ()) = some t)
    (hrun : Run (step out) (fun _ a => ∀ email, a.1 ≠ .writeEmail elem.email email) t as u) :
    Extends (s.objects.email elem.email).headers (t.objects.email elem.email).headers ∧
      Stamped (s.objects.sender elem.sender).address (t.objects.email elem.email).headers ∧
      Extends (t.objects.email elem.email).headers (u.objects.email elem.email).headers ∧
      ∀ made ∈ u.transfers.drop t.transfers.length, ∀ x ∈ made, x.1.elem.email = elem.email →
        CarriesHeaders (t.objects.email elem.email) x.1.payload := by
  have hstart : Since t elem.email t :=
    ⟨rfl, .refl _, [], (List.append_nil _).symm, fun made hmade => absurd hmade List.not_mem_nil⟩
  have hend := hrun.invariant (Since t elem.email) (fun ha h => h.step ha) hstart
  obtain ⟨later, htransfers, hcarries⟩ := hend.sent
  obtain ⟨rfl, hresult⟩ := step_eq_some henqueue
  have hheaders : (((act out s (.bulkEnqueue elem)).1.objects.email elem.email).headers) =
      (enqueuedHeaders out s elem).1 := by
    show ((bulkEnqueue out s elem).1.objects.email elem.email).headers = _
    rw [bulkEnqueue_eq]
    show (Function.update s.objects.email elem.email _ elem.email).headers = _
    rw [Function.update_self]
  have hmissing := addMissingHeaders_spec out (out.moment s.moments)
    (s.objects.sender elem.sender) (s.objects.email elem.email).headers
  have hok : (enqueuedHeaders out s elem).2 = .ok () := by
    have hact : (bulkEnqueue out s elem).2 = .ok () := hresult
    rwa [bulkEnqueue_eq] at hact
  refine ⟨?_, ?_, hend.headers, ?_⟩
  · rw [hheaders]
    exact hmissing.1
  · rw [hheaders]
    exact hmissing.2 hok
  · rw [htransfers, List.drop_left]
    exact hcarries

/-- All three headers are missing, and none of them is when the email is sent. -/
theorem headers_of_run_sample :
    (sampleQueued.objects.email 0).headers.entries =
        [(bytes "Date", bytes "Thu,  1 Jan 1970 00:00:00 +0000"),
          (bytes "From", bytes "<jo@b.c>"), (bytes "Message-ID", bytes "<@b.c>")] ∧
      Extends (sampleQueued.objects.email 0).headers (sampleSent.objects.email 0).headers ∧
      ∀ made ∈ sampleSent.transfers.drop sampleQueued.transfers.length, ∀ x ∈ made,
        x.1.elem.email = 0 → CarriesHeaders (sampleQueued.objects.email 0) x.1.payload :=
  have hall : ∀ w : World, ∀ a ∈ sampleActions, ∀ email, a.1 ≠ .writeEmail 0 email := by
    simp [sampleActions]
  have henqueue : step sampleSurroundings { objects := sampleObjects }
      (.bulkEnqueue (sampleElem 0), .ok ()) = some sampleQueued := rfl
  have hrun := headers_of_run henqueue (sampleRun hall)
  ⟨rfl, hrun.2.2⟩

end Nawa.mail
