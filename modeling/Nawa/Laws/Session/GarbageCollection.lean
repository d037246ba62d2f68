import Nawa.Session.Calls
import Nawa.Laws.Session.SessionData

/-!
# Garbage collection is unobservable

Two stores are the same at a time when they have the same objects and the same entries for the
sessions that the collector would keep at that time. Every call at that time or later answers
alike on both and leaves stores that are the same again, since `start` resumes no session that
the collector would take away. Hence the answers to a sequence of calls do not depend on where
garbage is collected.

The clock must not go backwards, and `generateID` must return fresh ids: in one of two stores an
id may be free that an expired session still occupies in the other.
-/

namespace Nawa

namespace SessionStore

variable {V : Type}

/-- The same objects, and the same entries for the sessions not expired before the time. -/
structure SameLive (time : Int) (store store' : SessionStore V) : Prop where
  heap : store.heap = store'.heap
  next : store.next = store'.next
  live : ∀ id a, time ≤ (store.heap a).expires →
    (store.sessionData id = some a ↔ store'.sessionData id = some a)

namespace SameLive

variable {time : Int} {store store' store'' : SessionStore V}

theorem refl (time : Int) (store : SessionStore V) : SameLive time store store :=
  ⟨rfl, rfl, fun _ _ _ => Iff.rfl⟩

theorem symm (h : SameLive time store store') : SameLive time store' store :=
  ⟨h.heap.symm, h.next.symm, fun id a ht => (h.live id a (h.heap ▸ ht)).symm⟩

theorem trans (h : SameLive time store store') (h' : SameLive time store' store'') :
    SameLive time store store'' :=
  ⟨h.heap.trans h'.heap, h.next.trans h'.next, fun id a ht =>
    (h.live id a ht).trans (h'.live id a (h.heap ▸ ht))⟩

theorem mono {later : Int} (h : SameLive time store store') (hle : time ≤ later) :
    SameLive later store store' :=
  ⟨h.heap, h.next, fun id a ht => h.live id a (Int.le_trans hle ht)⟩

/-- Collecting garbage keeps a store the same. -/
theorem collectGarbage (time : Int) (store : SessionStore V) :
    SameLive time (store.collectGarbage fun _ => time) store :=
  ⟨rfl, rfl, fun _ _ ht => sessionData_collectGarbage.trans (and_iff_left ht)⟩

theorem erase (h : SameLive time store store') (id : Bytes) :
    SameLive time (store.erase id) (store'.erase id) := by
  refine ⟨h.heap, h.next, fun id' a ht => ?_⟩
  rw [sessionData_erase, sessionData_erase, Function.update_apply, Function.update_apply]
  split
  · rfl
  · exact h.live id' a ht

/-- An entry that has expired may be erased on one side. -/
theorem erase_left (h : SameLive time store store') {id : Bytes}
    (hexp : ∀ a, store.sessionData id = some a → (store.heap a).expires < time) :
    SameLive time (store.erase id) store' := by
  refine ⟨h.heap, h.next, fun id' a ht => ?_⟩
  rw [sessionData_erase, Function.update_apply]
  split
  · next hid =>
    subst hid
    refine ⟨nofun, fun ha => ?_⟩
    exact absurd (hexp a ((h.live id' a ht).mpr ha)) (Int.not_lt.mpr ht)
  · exact h.live id' a ht

/-- A write to an object whose entries are live, or whose expiry it does not touch. -/
theorem modify (h : SameLive time store store') {a : Nat} {f : SessionData V → SessionData V}
    (hlive : time ≤ (store.heap a).expires ∨
      (f (store.heap a)).expires = (store.heap a).expires) :
    SameLive time (store.modify a f) (store'.modify a f) := by
  refine ⟨?_, h.next, fun id b ht => ?_⟩
  · rw [heap_modify, heap_modify, h.heap]
  · rw [sessionData_modify, sessionData_modify]
    rw [heap_modify, Function.update_apply] at ht
    split at ht
    · next hb =>
      subst hb
      refine h.live id b ?_
      rcases hlive with hlive | hsame
      · exact hlive
      · exact hsame ▸ ht
    · exact h.live id b ht

theorem insert (h : SameLive time store store') (id : Bytes) (object : SessionData V) :
    SameLive time (store.insert id object) (store'.insert id object) := by
  refine ⟨?_, ?_, fun id' a ht => ?_⟩
  · rw [heap_insert, heap_insert, h.heap, h.next]
  · rw [next_insert, next_insert, h.next]
  · rw [sessionData_insert, sessionData_insert, Function.update_apply, Function.update_apply,
      h.next]
    split
    · rfl
    · rw [heap_insert, Function.update_apply] at ht
      split at ht
      · next ha =>
        -- neither map points at the address of the new object
        subst ha
        refine iff_of_false (fun hbad => ?_) fun hbad => ?_
        · exact Nat.lt_irrefl _ (store.constructed id' _ hbad)
        · exact Nat.lt_irrefl _ (h.next ▸ store'.constructed id' _ hbad)
      · exact h.live id' a ht

/-- **A lookup finds the same session in both stores.** -/
theorem lookup (h : SameLive time store store') (validateIP remoteAddr : Bytes)
    (keepalive : Nat) (id : Bytes) :
    (store.lookup validateIP remoteAddr keepalive time time id).2 =
      (store'.lookup validateIP remoteAddr keepalive time time id).2 ∧
    SameLive time (store.lookup validateIP remoteAddr keepalive time time id).1
      (store'.lookup validateIP remoteAddr keepalive time time id).1 := by
  -- an entry that only one of the stores holds has expired, and is found by neither
  have oneSided : ∀ {s s' : SessionStore V}, SameLive time s s' → ∀ {a},
      s.sessionData id = some a → s'.sessionData id ≠ some a →
        (s.lookup validateIP remoteAddr keepalive time time id).2 = none ∧
          SameLive time (s.lookup validateIP remoteAddr keepalive time time id).1 s' := by
    intro s s' hs a ha hne
    have hexp : (s.heap a).expires < time := by
      by_contra hnot
      exact hne ((hs.live id a (Int.not_lt.mp hnot)).mp ha)
    have hlookup : s.lookup validateIP remoteAddr keepalive time time id = (s.erase id, none) := by
      simp only [SessionStore.lookup, ha, if_pos (Int.le_of_lt hexp)]
    rw [hlookup]
    refine ⟨rfl, hs.erase_left fun a' ha' => ?_⟩
    rw [ha, Option.some.injEq] at ha'
    exact ha' ▸ hexp
  have hnone : ∀ {s : SessionStore V}, s.sessionData id = none →
      s.lookup validateIP remoteAddr keepalive time time id = (s, none) := by
    intro s hs
    simp only [SessionStore.lookup, hs]
  cases hid : store.sessionData id with
  | none =>
    rw [hnone hid]
    cases hid' : store'.sessionData id with
    | none =>
      rw [hnone hid']
      exact ⟨rfl, h⟩
    | some a =>
      obtain ⟨hmiss, hsame⟩ := oneSided h.symm hid' (by rw [hid]; nofun)
      exact ⟨hmiss.symm, hsame.symm⟩
  | some a =>
    by_cases hid' : store'.sessionData id = some a
    · simp only [SessionStore.lookup, hid, hid', h.heap]
      split
      · exact ⟨rfl, h.erase id⟩
      · next hexp =>
        split
        · split
          · exact ⟨rfl, h.erase id⟩
          · exact ⟨rfl, h⟩
        · refine ⟨rfl, ?_⟩
          dsimp only
          refine h.modify (.inl ?_)
          rw [h.heap]
          exact Int.le_of_lt (Int.not_le.mp hexp)
    · obtain ⟨hmiss, hsame⟩ := oneSided h hid hid'
      cases hother : store'.sessionData id with
      | none =>
        rw [hnone hother]
        exact ⟨hmiss, hsame⟩
      | some a' =>
        -- both entries have expired
        have hne : store.sessionData id ≠ some a' := by
          rw [hid]
          rintro heq
          cases heq
          exact hid' hother
        obtain ⟨hmiss', hsame'⟩ := oneSided h.symm hother hne
        exact ⟨hmiss.trans hmiss'.symm, hsame.trans (h.symm.trans hsame'.symm)⟩

/-- With fresh ids a creation makes the same session in both stores. -/
theorem create (h : SameLive time store store') (remoteAddr : Bytes) (keepalive : Nat)
    {draws : List Bytes} (hfresh : ∀ d ∈ draws, store.sessionData d = none)
    (hfresh' : ∀ d ∈ draws, store'.sessionData d = none) :
    (store.create remoteAddr keepalive time draws = none ∧
      store'.create remoteAddr keepalive time draws = none) ∨
    ∃ s s' id a, store.create remoteAddr keepalive time draws = some (s, id, a) ∧
      store'.create remoteAddr keepalive time draws = some (s', id, a) ∧ SameLive time s s' := by
  cases draws with
  | nil => exact .inl ⟨rfl, rfl⟩
  | cons d draws =>
    have hfind : ∀ {s : SessionStore V}, s.sessionData d = none →
        (d :: draws).find? (fun id => !s.count id) = some d := by
      intro s hs
      rw [List.find?_cons_of_pos (by rw [count, hs]; rfl)]
    refine .inr ⟨_, _, d, store.next, ?_, ?_, h.insert d
      { expires := toTimeT (time + keepalive), sourceIP := remoteAddr }⟩
    · simp only [SessionStore.create, hfind (hfresh d List.mem_cons_self)]
    · simp only [SessionStore.create, hfind (hfresh' d List.mem_cons_self), h.next]

end SameLive

end SessionStore

namespace Session

variable {V : Type}

open SessionStore (SameLive)

/-! ## One call -/

/-- Two calls of `start` that a caller cannot tell apart. -/
structure SameStarted (time : Int) (r r' : Started V) : Prop where
  store : SameLive time r.store r'.store
  session : r.session = r'.session
  result : r.result = r'.result

theorem finish_same {config : Config} {time : Int} {draws : List Bytes} {rd rd' : Nat}
    {store store' : SessionStore V} (h : SameLive time store store') (session : Session)
    (a : Nat) (id : Bytes) :
    SameStarted time (finish config ⟨time, draws, rd⟩ store session a id)
      (finish config ⟨time, draws, rd'⟩ store' session a id) := by
  have hleft := (SameLive.collectGarbage time store).trans h
  have hright := h.trans (SameLive.collectGarbage time store').symm
  have hboth := hleft.trans (SameLive.collectGarbage time store').symm
  simp only [finish, runGarbageCollection]
  cases configNumber (config.get (bytes "session") (bytes "gc_divisor")) 100 with
  | error e => exact ⟨h, rfl, rfl⟩
  | ok divisor =>
    dsimp only
    by_cases hzero : divisor = 0
    · simp only [if_pos hzero]
      exact ⟨h, rfl, rfl⟩
    · simp only [if_neg hzero]
      by_cases hrd : rd % divisor = 0 <;> by_cases hrd' : rd' % divisor = 0
      · simp only [if_pos hrd, if_pos hrd']
        exact ⟨hboth, rfl, rfl⟩
      · simp only [if_pos hrd, if_neg hrd']
        exact ⟨hleft, rfl, rfl⟩
      · simp only [if_neg hrd, if_pos hrd']
        exact ⟨hright, rfl, rfl⟩
      · simp only [if_neg hrd, if_neg hrd']
        exact ⟨h, rfl, rfl⟩

theorem initiate_same {config : Config} {remoteAddr : Bytes} {time : Int} {draws : List Bytes}
    {rd rd' keepalive : Nat} {store store' : SessionStore V} (h : SameLive time store store')
    (hfresh : ∀ d ∈ draws, store.sessionData d = none)
    (hfresh' : ∀ d ∈ draws, store'.sessionData d = none) (session : Session) :
    SameStarted time (initiate config remoteAddr ⟨time, draws, rd⟩ keepalive store session)
      (initiate config remoteAddr ⟨time, draws, rd'⟩ keepalive store' session) := by
  rcases h.create remoteAddr keepalive hfresh hfresh' with
    ⟨hnone, hnone'⟩ | ⟨s, s', id, a, hsome, hsome', hsame⟩
  · simp only [initiate, hnone, hnone']
    exact ⟨h, rfl, rfl⟩
  · simp only [initiate, hsome, hsome']
    exact finish_same hsame session a id

/-- A lookup adds no entry. -/
theorem sessionData_lookup {store : SessionStore V} {validateIP remoteAddr id d : Bytes}
    {keepalive : Nat} {time time' : Int} (hd : store.sessionData d = none) :
    (store.lookup validateIP remoteAddr keepalive time time' id).1.sessionData d = none := by
  cases hlookup : store.lookup validateIP remoteAddr keepalive time time' id with
  | mk store' found =>
    rcases SessionStore.lookup_cases hlookup with ⟨a, -, -, rfl⟩ | ⟨-, rfl | rfl⟩
    · exact hd
    · exact hd
    · rw [SessionStore.sessionData_erase, Function.update_apply]
      split
      · rfl
      · exact hd

/-- **`start` answers alike on stores that are the same at its time.** -/
theorem start_same {config : Config} {remoteAddr : Bytes} {time : Int} {draws : List Bytes}
    {rd rd' : Nat} {store store' : SessionStore V} (h : SameLive time store store')
    (hfresh : ∀ d ∈ draws, store.sessionData d = none)
    (hfresh' : ∀ d ∈ draws, store'.sessionData d = none) (sessionId : Bytes)
    (keepalive : Option Nat) (session : Session) :
    SameStarted time (start config remoteAddr ⟨time, draws, rd⟩ sessionId keepalive store session)
      (start config remoteAddr ⟨time, draws, rd'⟩ sessionId keepalive store' session) := by
  unfold start
  cases session.currentData with
  | some a => exact ⟨h, rfl, rfl⟩
  | none =>
    cases sessionKeepalive config keepalive with
    | error e => exact ⟨h, rfl, rfl⟩
    | ok k =>
      dsimp only
      by_cases hid : sessionId = []
      · simp only [if_pos hid]
        exact initiate_same h hfresh hfresh' session
      · simp only [if_neg hid]
        obtain ⟨hfound, hsame⟩ := h.lookup (config.get (bytes "session") (bytes "validate_ip"))
          remoteAddr k sessionId
        have hnew : ∀ d ∈ draws, (store.lookup (config.get (bytes "session")
            (bytes "validate_ip")) remoteAddr k time time sessionId).1.sessionData d = none :=
          fun d hd => sessionData_lookup (hfresh d hd)
        have hnew' : ∀ d ∈ draws, (store'.lookup (config.get (bytes "session")
            (bytes "validate_ip")) remoteAddr k time time sessionId).1.sessionData d = none :=
          fun d hd => sessionData_lookup (hfresh' d hd)
        generalize store.lookup (config.get (bytes "session") (bytes "validate_ip")) remoteAddr k
          time time sessionId = found at hfound hsame hnew
        generalize store'.lookup (config.get (bytes "session") (bytes "validate_ip")) remoteAddr k
          time time sessionId = found' at hfound hsame hnew'
        obtain ⟨s, x⟩ := found
        obtain ⟨s', x'⟩ := found'
        obtain rfl : x = x' := hfound
        cases x with
        | none => exact initiate_same hsame hnew hnew' session
        | some a => exact finish_same hsame session a sessionId

/-! ## Keys -/

theorem sessionData_finish {config : Config} {ctx : StartContext} {store : SessionStore V}
    {session : Session} {a : Nat} {id d : Bytes} (hd : store.sessionData d = none) :
    (finish config ctx store session a id).store.sessionData d = none := by
  have hgc : (store.collectGarbage fun _ => ctx.time).sessionData d = none := by
    simp only [SessionStore.collectGarbage, hd, Option.filter_none]
  simp only [finish, runGarbageCollection]
  cases configNumber (config.get (bytes "session") (bytes "gc_divisor")) 100 with
  | error e => exact hd
  | ok divisor =>
    dsimp only
    by_cases hzero : divisor = 0
    · simp only [if_pos hzero]
      exact hd
    · by_cases hrd : ctx.rd % divisor = 0
      · simp only [if_neg hzero, if_pos hrd]
        exact hgc
      · simp only [if_neg hzero, if_neg hrd]
        exact hd

theorem sessionData_initiate {config : Config} {remoteAddr : Bytes} {ctx : StartContext}
    {keepalive : Nat} {store : SessionStore V} {session : Session} {d : Bytes}
    (hd : store.sessionData d = none) (hdraws : d ∉ ctx.draws) :
    (initiate config remoteAddr ctx keepalive store session).store.sessionData d = none := by
  unfold initiate
  split
  · exact hd
  · next s id a hcreate =>
    obtain ⟨hid, -, -, rfl⟩ := SessionStore.create_cases hcreate
    refine sessionData_finish ?_
    have hne : d ≠ id := by
      rintro rfl
      exact hdraws hid
    rw [SessionStore.sessionData_insert, Function.update_of_ne hne]
    exact hd

/-- `start` enters no id but one that it draws. -/
theorem sessionData_start {config : Config} {remoteAddr : Bytes} {ctx : StartContext}
    {sessionId : Bytes} {keepalive : Option Nat} {store : SessionStore V} {session : Session}
    {d : Bytes} (hd : store.sessionData d = none) (hdraws : d ∉ ctx.draws) :
    (start config remoteAddr ctx sessionId keepalive store session).store.sessionData d =
      none := by
  unfold start
  split
  · exact hd
  · split
    · exact hd
    · next k _ =>
      dsimp only
      split
      · next s a hfound =>
        refine sessionData_finish ?_
        split at hfound
        · cases hfound
        · obtain rfl : _ = s := congrArg Prod.fst hfound
          exact sessionData_lookup hd
      · next s hfound =>
        refine sessionData_initiate ?_ hdraws
        split at hfound
        · cases hfound
          exact hd
        · obtain rfl : _ = s := congrArg Prod.fst hfound
          exact sessionData_lookup hd

namespace Server

theorem sessionData_call {s : Server V} {time : Int} {call : Call V} {d : Bytes}
    (hd : s.store.sessionData d = none) (hdraws : d ∉ call.draws) :
    (s.call time call).1.store.sessionData d = none := by
  cases call with
  | start c config remoteAddr draws rd sessionId keepalive => exact sessionData_start hd hdraws
  | set c key value =>
    simp only [Server.call, written, Session.set]
    cases (s.session c).currentData <;> exact hd
  | unset c key =>
    simp only [Server.call, written, Session.unset]
    cases (s.session c).currentData <;> exact hd
  | isSet c key => exact hd
  | get c key => exact hd
  | invalidate c =>
    simp only [Server.call, Session.invalidate]
    cases (s.session c).currentData with
    | none => exact hd
    | some a =>
      dsimp only
      rw [SessionStore.sessionData_erase, Function.update_apply]
      split
      · rfl
      · exact hd
  | collectGarbage =>
    simp only [Server.call, SessionStore.collectGarbage, hd, Option.filter_none]

/-! ## Sequences of calls -/

/-- The same session objects, and stores that are the same at a time. -/
structure Same (time : Int) (s s' : Server V) : Prop where
  store : SameLive time s.store s'.store
  session : s.session = s'.session

/-- `generateID` returns no id twice, and none that is in the map at the beginning. -/
structure Fresh (s : Server V) (calls : List (Int × Call V)) : Prop where
  nodup : (calls.flatMap fun e => e.2.draws).Nodup
  absent : ∀ d ∈ calls.flatMap fun e => e.2.draws, s.store.sessionData d = none

theorem Fresh.tail {s : Server V} {time : Int} {call : Call V} {rest : List (Int × Call V)}
    (h : s.Fresh ((time, call) :: rest)) : (s.call time call).1.Fresh rest := by
  obtain ⟨-, hrest, hdisjoint⟩ := List.nodup_append.mp h.nodup
  refine ⟨hrest, fun d hd => sessionData_call ?_ fun hcall => hdisjoint d hcall d hd rfl⟩
  exact h.absent d (List.mem_append_right _ hd)

theorem Fresh.head {s : Server V} {time : Int} {call : Call V} {rest : List (Int × Call V)}
    (h : s.Fresh ((time, call) :: rest)) : ∀ d ∈ call.draws, s.store.sessionData d = none :=
  fun d hd => h.absent d (List.mem_append_left _ hd)

theorem Same.written {time : Int} {s s' : Server V} (h : Same time s s') (c : Nat) (key : Bytes)
    (value : Option V) {result result' : Except Failure (SessionStore V)}
    (hresult : result = match (s.session c).currentData with
      | some a => .ok (s.store.modify a (write key value))
      | none => .error (.nawa sessionNotEstablished))
    (hresult' : result' = match (s'.session c).currentData with
      | some a => .ok (s'.store.modify a (write key value))
      | none => .error (.nawa sessionNotEstablished)) :
    (s.written result).2 = (s'.written result').2 ∧
      Same time (s.written result).1 (s'.written result').1 := by
  rw [← h.session] at hresult'
  cases hdata : (s.session c).currentData with
  | none =>
    rw [hdata] at hresult hresult'
    rw [hresult, hresult']
    exact ⟨rfl, h⟩
  | some a =>
    rw [hdata] at hresult hresult'
    rw [hresult, hresult']
    exact ⟨rfl, h.store.modify (.inr rfl), h.session⟩

/-- **A call is answered alike by servers that are the same at its time**, whatever either does
about garbage. -/
theorem call_same {s s' : Server V} {time : Int} {call call' : Call V} (h : Same time s s')
    (hcall : call.withoutCollection = some call')
    (hfresh : ∀ d ∈ call.draws, s.store.sessionData d = none)
    (hfresh' : ∀ d ∈ call.draws, s'.store.sessionData d = none) :
    (s.call time call).2 = (s'.call time call').2 ∧
      Same time (s.call time call).1 (s'.call time call').1 := by
  cases call with
  | start c config remoteAddr draws rd sessionId keepalive =>
    cases hcall
    have hstart : SameStarted time
        (Session.start config remoteAddr ⟨time, draws, rd⟩ sessionId keepalive s.store
          (s.session c))
        (Session.start config remoteAddr ⟨time, draws, 0⟩ sessionId keepalive s'.store
          (s.session c)) :=
      start_same h.store hfresh hfresh' sessionId keepalive (s.session c)
    simp only [Server.call, ← h.session, ← hstart.session, ← hstart.result, ← h.store.next]
    exact ⟨trivial, hstart.store, rfl⟩
  | set c key value =>
    cases hcall
    exact h.written c key (some value) rfl rfl
  | unset c key =>
    cases hcall
    exact h.written c key none rfl rfl
  | isSet c key =>
    cases hcall
    simp only [Server.call, Session.isSet, ← h.session, h.store.heap]
    exact ⟨trivial, h⟩
  | get c key =>
    cases hcall
    simp only [Server.call, Session.get, ← h.session, h.store.heap]
    exact ⟨trivial, h⟩
  | invalidate c =>
    cases hcall
    simp only [Server.call, Session.invalidate, ← h.session]
    cases (s.session c).currentData with
    | none => exact ⟨trivial, h.store, rfl⟩
    | some a => exact ⟨trivial, h.store.erase _, rfl⟩
  | collectGarbage => cases hcall

/-- A sequence of calls is answered as if garbage were never collected between the calls. -/
theorem answers_withoutCollections {time : Int} {s s' : Server V} {calls : List (Int × Call V)}
    (hclock : (time :: calls.map (·.1)).Pairwise (· ≤ ·)) (hfresh : s.Fresh calls)
    (hfresh' : s'.Fresh (withoutCollections calls)) (h : Same time s s') :
    s.answers calls = s'.answers (withoutCollections calls) := by
  induction calls generalizing time s s' with
  | nil => rfl
  | cons e rest ih =>
    obtain ⟨t, call⟩ := e
    rw [List.map_cons, List.pairwise_cons] at hclock
    have hle := hclock.1 t List.mem_cons_self
    have hat : Same t s s' := ⟨h.store.mono hle, h.session⟩
    cases hcall : call.withoutCollection with
    | none =>
      have hskip : withoutCollections ((t, call) :: rest) = withoutCollections rest := by
        simp only [withoutCollections, List.filterMap_cons, hcall, Option.map_none]
      have hgc : (s.call t call).2 = none ∧ Same t (s.call t call).1 s' := by
        cases call with
        | collectGarbage => exact ⟨rfl, (SameLive.collectGarbage t _).trans hat.store, hat.session⟩
        | start => cases hcall
        | set => cases hcall
        | unset => cases hcall
        | isSet => cases hcall
        | get => cases hcall
        | invalidate => cases hcall
      rw [hskip] at hfresh' ⊢
      rw [answers, hgc.1, Option.toList_none, List.nil_append]
      exact ih hclock.2 hfresh.tail hfresh' hgc.2
    | some call' =>
      have hkeep : withoutCollections ((t, call) :: rest) =
          (t, call') :: withoutCollections rest := by
        simp only [withoutCollections, List.filterMap_cons, hcall, Option.map_some]
      have hdraws : call'.draws = call.draws := by
        cases call <;> cases hcall <;> rfl
      rw [hkeep] at hfresh' ⊢
      obtain ⟨hanswer, hsame⟩ := call_same hat hcall hfresh.head (hdraws ▸ hfresh'.head)
      rw [answers, answers, hanswer]
      exact congrArg _ (ih hclock.2 hfresh.tail hfresh'.tail hsame)

theorem draws_withoutCollections (calls : List (Int × Call V)) :
    (withoutCollections calls).flatMap (fun e => e.2.draws) =
      calls.flatMap fun e => e.2.draws := by
  induction calls with
  | nil => rfl
  | cons e rest ih =>
    obtain ⟨t, call⟩ := e
    cases call <;>
      simp only [withoutCollections, List.filterMap_cons, Call.withoutCollection, Option.map_some,
        Option.map_none, List.flatMap_cons, Call.draws, List.nil_append] at ih ⊢ <;>
      rw [ih]

theorem Fresh.withoutCollections {s : Server V} {calls : List (Int × Call V)}
    (h : s.Fresh calls) : s.Fresh (withoutCollections calls) := by
  refine ⟨?_, ?_⟩
  · rw [draws_withoutCollections]
    exact h.nodup
  · rw [draws_withoutCollections]
    exact h.absent

/-- **Garbage collection is unobservable.** Two sequences of calls that differ only in when
garbage is collected get the same answers, from any store. -/
theorem collectGarbage_unobservable {s : Server V} {calls calls' : List (Int × Call V)}
    (hclock : (calls.map (·.1)).Pairwise (· ≤ ·)) (hclock' : (calls'.map (·.1)).Pairwise (· ≤ ·))
    (hfresh : s.Fresh calls) (hsame : withoutCollections calls = withoutCollections calls') :
    s.answers calls = s.answers calls' := by
  have bound : ∀ times : List Int, times.Pairwise (· ≤ ·) →
      ∃ time, (time :: times).Pairwise (· ≤ ·) := by
    intro times htimes
    cases times with
    | nil => exact ⟨0, List.pairwise_singleton _ _⟩
    | cons t times =>
      refine ⟨t, List.pairwise_cons.mpr ⟨?_, htimes⟩⟩
      intro t' ht'
      rcases List.mem_cons.mp ht' with rfl | ht'
      · exact Int.le_refl _
      · exact (List.pairwise_cons.mp htimes).1 t' ht'
  have hfresh' : s.Fresh calls' := by
    refine ⟨?_, ?_⟩
    · rw [← draws_withoutCollections, ← hsame, draws_withoutCollections]
      exact hfresh.nodup
    · rw [← draws_withoutCollections, ← hsame, draws_withoutCollections]
      exact hfresh.absent
  obtain ⟨time, htime⟩ := bound _ hclock
  obtain ⟨time', htime'⟩ := bound _ hclock'
  rw [answers_withoutCollections htime hfresh hfresh.withoutCollections ⟨.refl _ _, rfl⟩, hsame,
    answers_withoutCollections htime' hfresh' hfresh'.withoutCollections ⟨.refl _ _, rfl⟩]

/-- A session that expires at 10 is presented at 20, with or without a collection before. -/
def sampleCalls : List (Int × Call Nat) :=
  [(5, .start 0 {} [] [bytes "x"] 1 [] (some 5)),
    (20, .start 1 {} [] [bytes "y"] 1 (bytes "x") none)]

def sampleCollections : List (Int × Call Nat) :=
  [(5, .start 0 {} [] [bytes "x"] 1 [] (some 5)), (15, .collectGarbage),
    (20, .start 1 {} [] [bytes "y"] 0 (bytes "x") none)]

theorem collectGarbage_unobservable_sample :
    (⟨.empty, fun _ => {}⟩ : Server Nat).answers sampleCalls =
      (⟨.empty, fun _ => {}⟩ : Server Nat).answers sampleCollections :=
  collectGarbage_unobservable (by decide) (by decide) ⟨by decide, fun _ _ => rfl⟩ rfl

end Server

end Session

end Nawa
