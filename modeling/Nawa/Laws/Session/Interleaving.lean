import Nawa.Lib.Transition
import Nawa.Laws.Session.Frame

/-!
# Sessions under interleaving: isolation

`Effect` says once what a step can do to the store, to the connections and to the history. The
invariant `Isolated` and what follows from it are read off the effects alone.

The results are about runs in which `generateID` repeats no id. Nothing is assumed about the
clock, the addresses and the validation mode: every step may read its own.
-/

namespace Nawa.Session

open Lib.Transition

variable {V : Type}

@[simp] theorem named_none (session : Session) : session.named none = session := rfl

theorem named_currentData (session : Session) (cookieName : Option Bytes) :
    (session.named cookieName).currentData = session.currentData := by
  cases cookieName <;> rfl

theorem named_currentID (session : Session) (cookieName : Option Bytes) :
    (session.named cookieName).currentID = session.currentID := by
  cases cookieName <;> rfl

namespace System

/-! ## What a step can do -/

/-- The effect of a step: it gives up entries and attachments, it attaches a connection to a
session of the map, it creates a session, or it writes to the object of a connection. -/
inductive Effect (s t : System V) : Prop
  | forget
      (map : ∀ id a, t.store.sessionData id = some a → s.store.sessionData id = some a)
      (heap : t.store.heap = s.store.heap) (next : t.store.next = s.store.next)
      (session : ∀ c a, (t.session c).currentData = some a →
        (s.session c).currentData = some a ∧ (t.session c).currentID = (s.session c).currentID)
      (issued : t.issued = s.issued)
      (log : t.log = s.log ∨ ∃ c a, (s.session c).currentData = some a ∧
        t.log = s.log ++ [.returned c (s.session c).currentID])
  | attach (c : Nat) (id : Bytes) (a : Nat)
      (found : s.store.sessionData id = some a) (idle : (s.session c).currentData = none)
      (map : t.store.sessionData = s.store.sessionData)
      (data : ∀ b, (t.store.heap b).data = (s.store.heap b).data)
      (next : t.store.next = s.store.next)
      (here : (t.session c).currentData = some a ∧ (t.session c).currentID = id)
      (others : ∀ c', c' ≠ c → t.session c' = s.session c')
      (issued : t.issued = s.issued) (log : t.log = s.log ++ [.attached c id a])
  | create (c : Nat) (id : Bytes) (draws : List Bytes)
      (fresh : ∀ d ∈ draws, d ∉ s.issued) (drawn : id ∈ draws)
      (map : t.store.sessionData = Function.update s.store.sessionData id (some s.store.next))
      (empty : (t.store.heap s.store.next).data = fun _ => none)
      (data : ∀ b, b ≠ s.store.next → (t.store.heap b).data = (s.store.heap b).data)
      (next : t.store.next = s.store.next + 1)
      (here : (t.session c).currentData = some s.store.next ∧ (t.session c).currentID = id)
      (others : ∀ c', c' ≠ c → t.session c' = s.session c')
      (issued : t.issued = draws ++ s.issued)
      (log : t.log = s.log ++ [.created c id s.store.next])
  | write (c a : Nat) (key : Bytes) (value : Option V)
      (attached : (s.session c).currentData = some a)
      (map : t.store.sessionData = s.store.sessionData)
      (data : (t.store.heap a).data = Function.update (s.store.heap a).data key value)
      (others : ∀ b, b ≠ a → t.store.heap b = s.store.heap b)
      (next : t.store.next = s.store.next) (session : t.session = s.session)
      (issued : t.issued = s.issued)
      (log : t.log = s.log ++ [.wrote c (s.session c).currentID key value])

theorem effect_start (s : System V) (c : Nat) (cookieName : Option Bytes)
    (sessionId validateIP remoteAddr : Bytes) (keepalive : Nat) (time time' : Int) :
    Effect s (s.stepStart c cookieName sessionId validateIP remoteAddr keepalive time time') := by
  -- the cookie name aside, a connection keeps its session
  have named : ∀ c' a,
      (Function.update s.session c ((s.session c).named cookieName) c').currentData = some a →
      (s.session c').currentData = some a ∧
        (Function.update s.session c ((s.session c).named cookieName) c').currentID =
          (s.session c').currentID := by
    intro c' a h
    by_cases hc : c' = c
    · subst hc
      rw [Function.update_self] at h ⊢
      exact ⟨(named_currentData _ _).symm.trans h, named_currentID _ _⟩
    · rw [Function.update_of_ne hc] at h ⊢
      exact ⟨h, rfl⟩
  unfold stepStart
  split
  · next a ha =>
    exact .forget (fun _ _ h => h) rfl rfl (fun _ _ h => ⟨h, rfl⟩) rfl (.inr ⟨c, a, ha, rfl⟩)
  · next hidle =>
    dsimp only
    split
    · exact .forget (fun _ _ h => h) rfl rfl named rfl (.inl rfl)
    · split
      · next store a hlookup =>
        obtain ⟨a', heq, ha, rfl⟩ | ⟨heq, -⟩ := SessionStore.lookup_cases hlookup
        · cases heq
          refine .attach c sessionId a ha hidle rfl ?_ rfl ?_ ?_ rfl rfl
          · intro b
            dsimp only
            rw [SessionStore.heap_modify, Function.update_apply]
            split
            · next hb => rw [hb]
            · rfl
          · dsimp only [attach]
            rw [Function.update_self]
            exact ⟨rfl, rfl⟩
          · intro c' hc
            dsimp only [attach]
            rw [Function.update_of_ne hc, Function.update_of_ne hc]
        · cases heq
      · next store hlookup =>
        obtain ⟨a', heq, -⟩ | ⟨-, rfl | rfl⟩ := SessionStore.lookup_cases hlookup
        · cases heq
        · exact .forget (fun _ _ h => h) rfl rfl named rfl (.inl rfl)
        · exact .forget (fun _ _ h => SessionStore.of_sessionData_erase h) rfl rfl named rfl
            (.inl rfl)

theorem effect_create {s t : System V} {c keepalive : Nat} {remoteAddr : Bytes} {time : Int}
    {draws : List Bytes} (hfresh : ∀ d ∈ draws, d ∉ s.issued)
    (h : s.stepCreate c keepalive remoteAddr time draws = some t) : Effect s t := by
  unfold stepCreate at h
  split at h
  · cases h
  · next store id a hcreate =>
    cases h
    obtain ⟨hid, -, rfl, rfl⟩ := SessionStore.create_cases hcreate
    refine .create c id draws hfresh hid rfl ?_ ?_ rfl ?_ ?_ rfl rfl
    · dsimp only
      rw [SessionStore.heap_insert, Function.update_self]
    · intro b hb
      dsimp only
      rw [SessionStore.heap_insert, Function.update_of_ne hb]
    · dsimp only [attach]
      rw [Function.update_self]
      exact ⟨rfl, rfl⟩
    · intro c' hc
      dsimp only [attach]
      rw [Function.update_of_ne hc]

theorem effect_write {s t : System V} {c : Nat} {key : Bytes} {value : Option V}
    (h : s.stepWrite c key value = some t) : Effect s t := by
  unfold stepWrite at h
  split at h
  · cases h
  · next a ha =>
    cases h
    refine .write c a key value ha rfl ?_ ?_ rfl rfl rfl rfl
    · dsimp only
      rw [SessionStore.heap_modify, Function.update_self]
      rfl
    · intro b hb
      dsimp only
      rw [SessionStore.heap_modify, Function.update_of_ne hb]

theorem effect_invalidate (s : System V) (c : Nat) : Effect s (s.stepInvalidate c) := by
  cases hdata : (s.session c).currentData with
  | none =>
    simp only [stepInvalidate, invalidate, hdata, Function.update_eq_self]
    exact .forget (fun _ _ h => h) rfl rfl (fun _ _ h => ⟨h, rfl⟩) rfl (.inl rfl)
  | some b =>
    simp only [stepInvalidate, invalidate, hdata]
    refine .forget (fun _ _ h => SessionStore.of_sessionData_erase h) rfl rfl ?_ rfl (.inl rfl)
    intro c' a h
    by_cases hc : c' = c
    · subst hc
      dsimp only at h
      rw [Function.update_self] at h
      cases h
    · dsimp only at h ⊢
      rw [Function.update_of_ne hc] at h ⊢
      exact ⟨h, rfl⟩

/-- **What a step can do**, when the ids it draws are fresh. -/
theorem effect_of_step {s t : System V} {l : Step V} (hok : s.Fresh l) (h : s.step l = some t) :
    Effect s t := by
  rcases step_cases h with ⟨c, _, _, _, _, _, _, _, rfl, rfl⟩ | ⟨c, _, _, _, draws, rfl, hstep⟩ |
    ⟨c, key, value, -, hstep⟩ | ⟨c, rfl, rfl⟩ | ⟨time, rfl, rfl⟩
  · exact effect_start ..
  · exact effect_create hok.2 hstep
  · exact effect_write hstep
  · exact effect_invalidate s c
  · exact .forget (fun _ _ h => (SessionStore.sessionData_collectGarbage.mp h).1) rfl rfl
      (fun _ _ h => ⟨h, rfl⟩) rfl (.inl rfl)

/-! ## The history -/

theorem createdUnder_of_log {s t : System V} {e : Event V} (hlog : t.log = s.log ++ [e])
    (he : ∀ c id a, e ≠ .created c id a) {a : Nat} {id : Bytes} :
    t.CreatedUnder a id ↔ s.CreatedUnder a id := by
  simp only [CreatedUnder, hlog, List.mem_append, List.mem_singleton]
  refine exists_congr fun c => or_iff_left ?_
  rintro rfl
  exact he c id a rfl

theorem createdUnder_of_created {s t : System V} {c b : Nat} {id' : Bytes}
    (hlog : t.log = s.log ++ [.created c id' b]) {a : Nat} {id : Bytes} :
    t.CreatedUnder a id ↔ s.CreatedUnder a id ∨ (a = b ∧ id = id') := by
  simp only [CreatedUnder, hlog, List.mem_append, List.mem_singleton, Event.created.injEq,
    exists_or]
  refine or_congr_right ⟨?_, ?_⟩
  · rintro ⟨c', -, rfl, rfl⟩
    exact ⟨rfl, rfl⟩
  · rintro ⟨rfl, rfl⟩
    exact ⟨c, rfl, rfl, rfl⟩

end System

theorem lastWrite_append (log : List (Event V)) (e : Event V) (id key : Bytes) :
    lastWrite (log ++ [e]) id key = match e with
      | .wrote _ id' key' value => if id' = id ∧ key' = key then value else lastWrite log id key
      | _ => lastWrite log id key := by
  rw [lastWrite, List.foldl_append]
  cases e <;> rfl

/-- The connection, the key and the value of a step that writes. -/
def Step.write : Step V → Option (Nat × Bytes × Option V)
  | .set c key value => some (c, key, some value)
  | .unset c key => some (c, key, none)
  | _ => none

/-- **The log keeps what `set` and `unset` write**, under the id of their connection, and no other
step changes what was written last. -/
theorem lastWrite_step {s t : System V} {l : Step V} (h : s.step l = some t) (id key : Bytes) :
    lastWrite t.log id key = match l.write with
      | some (c, key', value) =>
        if (s.session c).currentID = id ∧ key' = key then value else lastWrite s.log id key
      | none => lastWrite s.log id key := by
  rcases System.step_cases h with ⟨c, _, _, _, _, _, _, _, rfl, rfl⟩ |
    ⟨c, _, _, _, draws, rfl, hstep⟩ | ⟨c, key', value, hl, hstep⟩ | ⟨c, rfl, rfl⟩ | ⟨time, rfl, rfl⟩
  · unfold System.stepStart
    split
    · exact lastWrite_append ..
    · dsimp only
      split
      · rfl
      · split
        · exact lastWrite_append ..
        · rfl
  · unfold System.stepCreate at hstep
    split at hstep
    · cases hstep
    · cases hstep
      exact lastWrite_append ..
  · have hwrite : l.write = some (c, key', value) := by
      rcases hl with ⟨rfl, rfl⟩ | ⟨v, rfl, rfl⟩ <;> rfl
    rw [hwrite]
    unfold System.stepWrite at hstep
    split at hstep
    · cases hstep
    · cases hstep
      exact lastWrite_append ..
  · rfl
  · rfl

/-- A key is last written by a write to it. -/
theorem wrote_of_lastWrite {log : List (Event V)} {id key : Bytes} {value : V}
    (h : lastWrite log id key = some value) : ∃ c, .wrote c id key (some value) ∈ log := by
  induction log using List.reverseRecOn with
  | nil => cases h
  | append_singleton log e ih =>
    have later : lastWrite log id key = some value →
        ∃ c, .wrote c id key (some value) ∈ log ++ [e] := by
      intro hlast
      obtain ⟨c, hc⟩ := ih hlast
      exact ⟨c, List.mem_append_left _ hc⟩
    rw [lastWrite_append] at h
    cases e with
    | wrote c id' key' value' =>
      dsimp only at h
      split at h
      · next heq =>
        obtain ⟨rfl, rfl⟩ := heq
        cases h
        exact ⟨c, List.mem_append_right _ (List.mem_singleton_self _)⟩
      · exact later h
    | attached c id' a => exact later h
    | created c id' a => exact later h
    | returned c id' => exact later h

/-! ## The invariant -/

namespace System

/-- Objects and ids correspond one to one, connections and map follow that correspondence, and
an object holds what was last written under its id. -/
structure Isolated (s : System V) : Prop where
  map : ∀ id a, s.store.sessionData id = some a → s.CreatedUnder a id
  session : ∀ c a, (s.session c).currentData = some a → s.CreatedUnder a (s.session c).currentID
  constructed : ∀ id a, s.CreatedUnder a id → a < s.store.next
  issued : ∀ id a, s.CreatedUnder a id → id ∈ s.issued
  one_id : ∀ id id' a, s.CreatedUnder a id → s.CreatedUnder a id' → id = id'
  one_object : ∀ id a a', s.CreatedUnder a id → s.CreatedUnder a' id → a = a'
  written : ∀ c id key value, .wrote c id key value ∈ s.log → id ∈ s.issued
  content : ∀ id a, s.CreatedUnder a id →
    ∀ key, (s.store.heap a).data key = lastWrite s.log id key

theorem isolated_init : (init : System V).Isolated where
  map := nofun
  session := nofun
  constructed := fun _ _ h => nomatch h
  issued := fun _ _ h => nomatch h
  one_id := fun _ _ _ h => nomatch h
  one_object := fun _ _ _ h => nomatch h
  written := nofun
  content := fun _ _ h => nomatch h

/-- What was never issued was never written under. -/
theorem Isolated.lastWrite_of_not_issued {s : System V} (hs : s.Isolated) {id : Bytes}
    (h : id ∉ s.issued) (key : Bytes) : lastWrite s.log id key = none := by
  cases hlast : lastWrite s.log id key with
  | none => rfl
  | some value =>
    obtain ⟨c, hc⟩ := wrote_of_lastWrite hlast
    exact absurd (hs.written c id key _ hc) h

/-- A step that only adds events which create and write nothing keeps the history's facts. -/
private theorem Isolated.of_quiet {s t : System V} (hs : s.Isolated) (events : List (Event V))
    (hlog : t.log = s.log ++ events)
    (hquiet : ∀ e ∈ events, (∀ c id a, e ≠ .created c id a) ∧
      ∀ c id key value, e ≠ .wrote c id key value)
    (hmap : ∀ id a, t.store.sessionData id = some a → s.store.sessionData id = some a)
    (hdata : ∀ b, (t.store.heap b).data = (s.store.heap b).data)
    (hnext : t.store.next = s.store.next) (hissued : t.issued = s.issued)
    (hsession : ∀ c a, (t.session c).currentData = some a →
      s.CreatedUnder a (t.session c).currentID) : t.Isolated := by
  have hcreated : ∀ {a id}, t.CreatedUnder a id ↔ s.CreatedUnder a id := by
    intro a id
    simp only [CreatedUnder, hlog, List.mem_append]
    exact exists_congr fun c => or_iff_left fun he => (hquiet _ he).1 c id a rfl
  have hlast : ∀ id key, lastWrite t.log id key = lastWrite s.log id key := by
    intro id key
    rw [hlog]
    clear hlog hcreated
    induction events using List.reverseRecOn with
    | nil => rw [List.append_nil]
    | append_singleton events e ih =>
      have he := (hquiet e (List.mem_append_right _ (List.mem_singleton_self e))).2
      rw [← List.append_assoc, lastWrite_append,
        ← ih fun e' he' => hquiet e' (List.mem_append_left _ he')]
      cases e with
      | wrote c id' key' value => exact absurd rfl (he c id' key' value)
      | attached => rfl
      | created => rfl
      | returned => rfl
  refine
    { map := fun id a h => hcreated.mpr (hs.map id a (hmap id a h))
      session := fun c a h => hcreated.mpr (hsession c a h)
      constructed := fun id a h => hnext ▸ hs.constructed id a (hcreated.mp h)
      issued := fun id a h => hissued ▸ hs.issued id a (hcreated.mp h)
      one_id := fun id id' a h h' => hs.one_id id id' a (hcreated.mp h) (hcreated.mp h')
      one_object := fun id a a' h h' => hs.one_object id a a' (hcreated.mp h) (hcreated.mp h')
      written := ?_
      content := ?_ }
  · intro c id key value h
    rw [hlog, List.mem_append] at h
    rcases h with h | h
    · exact hissued ▸ hs.written c id key value h
    · exact absurd rfl ((hquiet _ h).2 c id key value)
  · intro id a h key
    rw [hdata, hlast]
    exact hs.content id a (hcreated.mp h) key

private theorem Isolated.of_create {s t : System V} (hs : s.Isolated) {c : Nat} {id : Bytes}
    {draws : List Bytes} (fresh : ∀ d ∈ draws, d ∉ s.issued) (drawn : id ∈ draws)
    (map : t.store.sessionData = Function.update s.store.sessionData id (some s.store.next))
    (empty : (t.store.heap s.store.next).data = fun _ => none)
    (data : ∀ b, b ≠ s.store.next → (t.store.heap b).data = (s.store.heap b).data)
    (next : t.store.next = s.store.next + 1)
    (here : (t.session c).currentData = some s.store.next ∧ (t.session c).currentID = id)
    (others : ∀ c', c' ≠ c → t.session c' = s.session c')
    (issued : t.issued = draws ++ s.issued)
    (log : t.log = s.log ++ [.created c id s.store.next]) : t.Isolated := by
  have hcreated : ∀ {a id'}, t.CreatedUnder a id' ↔
      s.CreatedUnder a id' ∨ (a = s.store.next ∧ id' = id) := createdUnder_of_created log
  have hnew : id ∉ s.issued := fresh id drawn
  have hold : ∀ {a id'}, s.CreatedUnder a id' → a ≠ s.store.next ∧ id' ≠ id := by
    intro a id' h
    refine ⟨fun ha => ?_, fun hid => hnew (hid ▸ hs.issued id' a h)⟩
    exact Nat.lt_irrefl _ (ha ▸ hs.constructed id' a h)
  refine
    { map := ?_
      session := ?_
      constructed := ?_
      issued := ?_
      one_id := ?_
      one_object := ?_
      written := ?_
      content := ?_ }
  · intro id' a h
    rw [map, Function.update_apply] at h
    split at h
    · next hid =>
      cases h
      exact hcreated.mpr (.inr ⟨rfl, hid⟩)
    · exact hcreated.mpr (.inl (hs.map id' a h))
  · intro c' a h
    by_cases hc : c' = c
    · subst hc
      rw [here.1, Option.some.injEq] at h
      exact hcreated.mpr (.inr ⟨h.symm, here.2⟩)
    · rw [others c' hc] at h ⊢
      exact hcreated.mpr (.inl (hs.session c' a h))
  · intro id' a h
    rw [next]
    rcases hcreated.mp h with h | ⟨rfl, -⟩
    · exact Nat.lt_succ_of_lt (hs.constructed id' a h)
    · exact Nat.lt_succ_self _
  · intro id' a h
    rw [issued]
    rcases hcreated.mp h with h | ⟨-, rfl⟩
    · exact List.mem_append_right _ (hs.issued id' a h)
    · exact List.mem_append_left _ drawn
  · intro id' id'' a h h'
    rcases hcreated.mp h with h | ⟨ha, rfl⟩ <;> rcases hcreated.mp h' with h' | ⟨ha', rfl⟩
    · exact hs.one_id id' id'' a h h'
    · exact absurd ha' (hold h).1
    · exact absurd ha (hold h').1
    · rfl
  · intro id' a a' h h'
    rcases hcreated.mp h with h | ⟨rfl, hid⟩ <;> rcases hcreated.mp h' with h' | ⟨rfl, hid'⟩
    · exact hs.one_object id' a a' h h'
    · exact absurd hid' (hold h).2
    · exact absurd hid (hold h').2
    · rfl
  · intro c' id' key value h
    rw [log, List.mem_append, List.mem_singleton] at h
    rw [issued]
    rcases h with h | h
    · exact List.mem_append_right _ (hs.written c' id' key value h)
    · cases h
  · intro id' a h key
    have hlast : lastWrite t.log id' key = lastWrite s.log id' key := by
      rw [log, lastWrite_append]
    rw [hlast]
    rcases hcreated.mp h with h | ⟨rfl, rfl⟩
    · rw [data a (hold h).1]
      exact hs.content id' a h key
    · rw [empty, hs.lastWrite_of_not_issued hnew]

private theorem Isolated.of_write {s t : System V} (hs : s.Isolated) {c a : Nat} {key : Bytes}
    {value : Option V} (attached : (s.session c).currentData = some a)
    (map : t.store.sessionData = s.store.sessionData)
    (data : (t.store.heap a).data = Function.update (s.store.heap a).data key value)
    (others : ∀ b, b ≠ a → t.store.heap b = s.store.heap b)
    (next : t.store.next = s.store.next) (session : t.session = s.session)
    (issued : t.issued = s.issued)
    (log : t.log = s.log ++ [.wrote c (s.session c).currentID key value]) : t.Isolated := by
  have hcreated : ∀ {b id}, t.CreatedUnder b id ↔ s.CreatedUnder b id :=
    createdUnder_of_log log (fun _ _ _ => nofun)
  have howner := hs.session c a attached
  refine
    { map := fun id b h => hcreated.mpr (hs.map id b (map ▸ h))
      session := fun c' b h => hcreated.mpr (by rw [session] at h ⊢; exact hs.session c' b h)
      constructed := fun id b h => next ▸ hs.constructed id b (hcreated.mp h)
      issued := fun id b h => issued ▸ hs.issued id b (hcreated.mp h)
      one_id := fun id id' b h h' => hs.one_id id id' b (hcreated.mp h) (hcreated.mp h')
      one_object := fun id b b' h h' => hs.one_object id b b' (hcreated.mp h) (hcreated.mp h')
      written := ?_
      content := ?_ }
  · intro c' id key' value' h
    rw [log, List.mem_append, List.mem_singleton] at h
    rw [issued]
    rcases h with h | h
    · exact hs.written c' id key' value' h
    · cases h
      exact hs.issued _ a howner
  · intro id b h key'
    have hb := hcreated.mp h
    rw [log, lastWrite_append]
    by_cases hba : b = a
    · subst hba
      obtain rfl := hs.one_id _ _ b howner hb
      rw [data, Function.update_apply]
      simp only [true_and, eq_comm (a := key)]
      split
      · rfl
      · exact hs.content _ b hb key'
    · have hid : (s.session c).currentID ≠ id := fun h' =>
        hba (hs.one_object id b a hb (h' ▸ howner))
      simp only [hid, false_and, if_false]
      rw [others b hba]
      exact hs.content id b hb key'

/-- **Every step keeps sessions isolated.** -/
theorem Isolated.step {s t : System V} {l : Step V} (hok : s.Fresh l) (hs : s.Isolated)
    (h : s.step l = some t) : t.Isolated := by
  cases effect_of_step hok h with
  | forget map heap next session issued log =>
    have hsession : ∀ c a, (t.session c).currentData = some a →
        s.CreatedUnder a (t.session c).currentID := by
      intro c a hc
      obtain ⟨hdata, hid⟩ := session c a hc
      exact hid ▸ hs.session c a hdata
    rcases log with log | ⟨c, a, -, log⟩
    · exact hs.of_quiet [] (by rw [log, List.append_nil]) nofun map
        (fun b => by rw [heap]) next issued hsession
    · refine hs.of_quiet _ log ?_ map (fun b => by rw [heap]) next issued hsession
      intro e he
      rw [List.mem_singleton.mp he]
      exact ⟨nofun, nofun⟩
  | attach c id a found idle map data next here others issued log =>
    refine hs.of_quiet _ log ?_ (fun id' a' h => map ▸ h) data next issued ?_
    · intro e he
      rw [List.mem_singleton.mp he]
      exact ⟨nofun, nofun⟩
    · intro c' a' hc'
      by_cases hc : c' = c
      · subst hc
        rw [here.1, Option.some.injEq] at hc'
        rw [here.2, ← hc']
        exact hs.map id a found
      · rw [others c' hc] at hc' ⊢
        exact hs.session c' a' hc'
  | create c id draws fresh drawn map empty data next here others issued log =>
    exact hs.of_create fresh drawn map empty data next here others issued log
  | write c a key value attached map data others next session issued log =>
    exact hs.of_write attached map data others next session issued log

/-- Every state that a run reaches is isolated. -/
theorem isolated_of_run {s : System V} {steps : List (Step V)}
    (h : Run step Fresh init steps s) : s.Isolated :=
  h.invariant Isolated (fun hok hs hstep => hs.step hok hstep) isolated_init

/-! ## Isolation -/

theorem Isolated.get_eq {s : System V} (hs : s.Isolated) {c : Nat}
    (h : (s.session c).established = true) (key : Bytes) :
    (s.session c).get s.store key = lastWrite s.log (s.session c).currentID key := by
  obtain ⟨a, ha⟩ := Option.isSome_iff_exists.mp h
  rw [get, ha]
  exact hs.content _ a (hs.session c a ha) key

theorem isSet_eq_isSome_get (session : Session) (store : SessionStore V) (key : Bytes) :
    session.isSet store key = (session.get store key).isSome := by
  unfold isSet get
  split <;> rfl

/-- **Session isolation.** In every state that a run reaches, ids and objects in the map
correspond one to one, an established connection holds the object that was created under its id
and under no other, and it reads, for every key, what the connections attached to that id last
wrote: what is last written under an id changes by `set` and `unset` on its connections alone. -/
theorem sessions_isolated {s : System V} {steps : List (Step V)}
    (h : Run step Fresh init steps s) :
    (∀ id id' a, s.store.sessionData id = some a → s.store.sessionData id' = some a → id = id') ∧
    (∀ c a, (s.session c).currentData = some a →
      s.CreatedUnder a (s.session c).currentID ∧
        ∀ id, s.CreatedUnder a id → id = (s.session c).currentID) ∧
    (∀ c key, (s.session c).established = true →
      (s.session c).get s.store key = lastWrite s.log (s.session c).currentID key ∧
        (s.session c).isSet s.store key =
          (lastWrite s.log (s.session c).currentID key).isSome) ∧
    (∀ c key value, (s.session c).get s.store key = some value →
      ∃ c', .wrote c' (s.session c).currentID key (some value) ∈ s.log) ∧
    ∀ l t, s.step l = some t → ∀ id key, lastWrite t.log id key = match l.write with
      | some (c, key', value) =>
        if (s.session c).currentID = id ∧ key' = key then value else lastWrite s.log id key
      | none => lastWrite s.log id key := by
  have hs := isolated_of_run h
  refine ⟨?_, ?_, ?_, ?_, fun l t hstep => lastWrite_step hstep⟩
  · intro id id' a ha ha'
    exact hs.one_id id id' a (hs.map id a ha) (hs.map id' a ha')
  · intro c a ha
    have howner := hs.session c a ha
    exact ⟨howner, fun id hid => hs.one_id id _ a hid howner⟩
  · intro c key hc
    rw [isSet_eq_isSome_get, hs.get_eq hc]
    exact ⟨rfl, rfl⟩
  · intro c key value hget
    have hc : (s.session c).established = true := by
      rw [established]
      rw [get] at hget
      split at hget
      · next a ha => rw [ha]; rfl
      · cases hget
    rw [hs.get_eq hc] at hget
    exact wrote_of_lastWrite hget

/-- A session that one connection creates and writes to, and another one attaches to. -/
def sampleSteps : List (Step Nat) :=
  [.start 0 none [] [] (bytes "client") 1800 5 5, .create 0 (bytes "client") 5 [bytes "x"],
    .start 1 none (bytes "x") [] (bytes "client") 1800 6 6, .set 0 (bytes "k") 7]

theorem sessions_isolated_sample : ∃ s : System Nat, Run step Fresh init sampleSteps s ∧
    (s.session 1).get s.store (bytes "k") = some 7 ∧
      lastWrite s.log (s.session 1).currentID (bytes "k") = some 7 := by
  have hrun : ∃ s : System Nat, Run step Fresh init sampleSteps s ∧
      (s.session 1).established = true ∧ (s.session 1).get s.store (bytes "k") = some 7 :=
    ⟨_, .cons trivial rfl (.cons ⟨by decide, by decide⟩ rfl
      (.cons trivial rfl (.cons trivial rfl (.nil _)))), rfl, rfl⟩
  obtain ⟨s, hrun, hs, hget⟩ := hrun
  exact ⟨s, hrun, hget, ((sessions_isolated hrun).2.2.1 1 (bytes "k") hs).1.symm.trans hget⟩

/-! ## Calls as runs

A call of `start` that nothing interrupts is a run of its critical sections, so what holds of
every run holds in particular of every sequence of whole calls. -/

end System

/-- The steps of `start` on a connection, and those of the collector. -/
def Step.Starts (c : Nat) : Step V → Prop
  | .start c' .. | .create c' .. => c' = c
  | .collectGarbage _ => True
  | _ => False

namespace System

/-- Steps of `start` on a connection lead to a store and to a session of the connection. -/
def StartsTo (s : System V) (c : Nat) (store : SessionStore V) (session : Session) : Prop :=
  ∃ steps t, Run step Fresh s steps t ∧ (∀ l ∈ steps, l.Starts c) ∧ t.store = store ∧
    t.session = Function.update s.session c session ∧ t.creating c = none

theorem finish_eq_or (config : Config) (ctx : StartContext) (store : SessionStore V)
    (session : Session) (a : Nat) (id : Bytes) :
    (finish config ctx store session a id).session =
        { session with currentData := some a, currentID := id } ∧
      ((finish config ctx store session a id).store = store ∨
        (finish config ctx store session a id).store =
          store.collectGarbage fun _ => ctx.time) := by
  simp only [finish, runGarbageCollection]
  cases configNumber (config.get (bytes "session") (bytes "gc_divisor")) 100 with
  | error e => exact ⟨rfl, .inl rfl⟩
  | ok divisor =>
    dsimp only
    by_cases hzero : divisor = 0
    · simp only [if_pos hzero]
      exact ⟨trivial, .inl trivial⟩
    · by_cases hrd : ctx.rd % divisor = 0
      · simp only [if_neg hzero, if_pos hrd]
        exact ⟨trivial, .inr trivial⟩
      · simp only [if_neg hzero, if_neg hrd]
        exact ⟨trivial, .inl trivial⟩

/-- The end of `start`, after the connection has been attached. -/
theorem StartsTo.finish {s : System V} {c a : Nat} {store : SessionStore V} {session : Session}
    {id : Bytes}
    (h : s.StartsTo c store { session with currentData := some a, currentID := id })
    (config : Config) (ctx : StartContext) :
    s.StartsTo c (finish config ctx store session a id).store
      (finish config ctx store session a id).session := by
  obtain ⟨heq, hgc⟩ := finish_eq_or config ctx store session a id
  rw [heq]
  rcases hgc with hgc | hgc
  · rw [hgc]
    exact h
  · obtain ⟨steps, t, hrun, hsteps, hstore, hsession, hidle⟩ := h
    have hcollect : Run step Fresh t [.collectGarbage fun _ => ctx.time]
        { t with store := t.store.collectGarbage fun _ => ctx.time } := .single trivial rfl
    refine ⟨_, _, hrun.append hcollect, ?_, by rw [hgc, ← hstore], hsession, hidle⟩
    rw [List.forall_mem_append, List.forall_mem_singleton]
    exact ⟨hsteps, trivial⟩

/-- The creation of a session, after the lookup has found nothing. -/
theorem startsTo_initiate {config : Config} {remoteAddr : Bytes} {ctx : StartContext}
    {k c : Nat} {s t : System V} {l : Step V} {store : SessionStore V} {session : Session}
    {id : Bytes} (hnodup : ctx.draws.Nodup) (hfresh : ∀ d ∈ ctx.draws, d ∉ s.issued)
    (hrun : Run step Fresh s [l] t) (hl : l.Starts c) (hstore : t.store = store)
    (hsession : t.session = Function.update s.session c session)
    (hcreating : t.creating c = some k) (hissued : t.issued = s.issued)
    (h : (initiate config remoteAddr ctx k store session).result = .ok id) :
    s.StartsTo c (initiate config remoteAddr ctx k store session).store
      (initiate config remoteAddr ctx k store session).session := by
  cases hcreate : store.create remoteAddr k ctx.time ctx.draws with
  | none => simp only [initiate, hcreate, reduceCtorEq] at h
  | some found =>
    obtain ⟨store', id', a⟩ := found
    have hstep : t.step (.create c remoteAddr ctx.time ctx.draws) = some
        { store := store'
          session := t.attach c id' a
          creating := Function.update t.creating c none
          issued := ctx.draws ++ t.issued
          log := t.log ++ [.created c id' a] } := by
      simp only [step, hcreating, stepCreate, hstore, hcreate]
    have hok : t.Fresh (.create c remoteAddr ctx.time ctx.draws) :=
      ⟨hnodup, fun d hd => hissued ▸ hfresh d hd⟩
    simp only [initiate, hcreate]
    refine StartsTo.finish ⟨_, _, hrun.append (.single hok hstep), ?_, rfl, ?_,
      Function.update_self ..⟩ config ctx
    · rw [List.forall_mem_append, List.forall_mem_singleton, List.forall_mem_singleton]
      exact ⟨hl, rfl⟩
    · simp only [attach, hsession, Function.update_self, Function.update_idem]

/-- **A call of `start` is a run of its steps**, when its connection is in no other call. With a
cookie name it is the call that `start(Cookie)` makes on a connection without a session. -/
theorem startsTo_start {config : Config} {remoteAddr : Bytes} {ctx : StartContext}
    {sessionId : Bytes} {keepalive : Option Nat} {s : System V} {c : Nat} {id : Bytes}
    (cookieName : Option Bytes) (hidle : s.creating c = none) (hnodup : ctx.draws.Nodup)
    (hfresh : ∀ d ∈ ctx.draws, d ∉ s.issued)
    (hname : cookieName = none ∨ (s.session c).currentData = none)
    (h : (Session.start config remoteAddr ctx sessionId keepalive s.store
      ((s.session c).named cookieName)).result = .ok id) :
    s.StartsTo c
      (Session.start config remoteAddr ctx sessionId keepalive s.store
        ((s.session c).named cookieName)).store
      (Session.start config remoteAddr ctx sessionId keepalive s.store
        ((s.session c).named cookieName)).session := by
  have hdata := named_currentData (s.session c) cookieName
  have hcall : ∀ k, s.step (.start c cookieName sessionId (config.get (bytes "session")
      (bytes "validate_ip")) remoteAddr k ctx.time ctx.time) = some (s.stepStart c cookieName
        sessionId (config.get (bytes "session") (bytes "validate_ip")) remoteAddr k ctx.time
        ctx.time) := by
    intro k
    simp only [step, hidle, Option.isSome_none, Bool.false_eq_true, if_false]
  have hok : ∀ k, s.Fresh (.start c cookieName sessionId (config.get (bytes "session")
      (bytes "validate_ip")) remoteAddr k ctx.time ctx.time) := fun _ => trivial
  cases hcurrent : (s.session c).currentData with
  | some a =>
    obtain rfl : cookieName = none := hname.resolve_right (by rw [hcurrent]; simp)
    simp only [Session.start, hcurrent, named_none]
    refine ⟨[], s, .nil s, fun _ hmem => ?_, rfl, (Function.update_eq_self ..).symm, hidle⟩
    exact absurd hmem List.not_mem_nil
  | none =>
    rw [hcurrent] at hdata
    cases hkeep : sessionKeepalive config keepalive with
    | error e => simp only [Session.start, hdata, hkeep, reduceCtorEq] at h
    | ok k =>
      have hfirst := Run.single (hok k) (hcall k)
      simp only [stepStart, hcurrent] at hfirst
      simp only [Session.start, hdata, hkeep] at h ⊢
      by_cases hid : sessionId = []
      · simp only [if_pos hid] at h hfirst ⊢
        refine startsTo_initiate hnodup hfresh hfirst ?_ rfl rfl (Function.update_self ..) rfl h
        rfl
      · simp only [if_neg hid] at h hfirst ⊢
        generalize s.store.lookup (config.get (bytes "session") (bytes "validate_ip")) remoteAddr
          k ctx.time ctx.time sessionId = looked at h hfirst ⊢
        obtain ⟨store, found⟩ := looked
        cases found with
        | none =>
          refine startsTo_initiate hnodup hfresh hfirst ?_ rfl rfl (Function.update_self ..) rfl h
          rfl
        | some a =>
          refine StartsTo.finish ⟨_, _, hfirst, ?_, rfl, ?_, hidle⟩ config ctx
          · rw [List.forall_mem_singleton]
            rfl
          · simp only [attach, Function.update_self, Function.update_idem]

end System

end Nawa.Session
