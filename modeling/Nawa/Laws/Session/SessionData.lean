import Nawa.Session.SessionData

/-!
# Laws of the global session map

What the operations of a store leave as it was, and what the two critical sections of
`Session::start` can do.
-/

namespace Nawa.SessionStore

variable {V : Type} {store store' : SessionStore V} {id sessionId : Bytes} {a : Nat}

/-! ## Operations -/

@[simp] theorem sessionData_erase :
    (store.erase id).sessionData = Function.update store.sessionData id none := rfl

@[simp] theorem heap_modify {f : SessionData V → SessionData V} :
    (store.modify a f).heap = Function.update store.heap a (f (store.heap a)) := rfl

@[simp] theorem sessionData_modify {f : SessionData V → SessionData V} :
    (store.modify a f).sessionData = store.sessionData := rfl

@[simp] theorem heap_insert {object : SessionData V} :
    (store.insert id object).heap = Function.update store.heap store.next object := rfl

@[simp] theorem next_insert {object : SessionData V} :
    (store.insert id object).next = store.next + 1 := rfl

@[simp] theorem sessionData_insert {object : SessionData V} :
    (store.insert id object).sessionData =
      Function.update store.sessionData id (some store.next) := rfl

@[simp] theorem heap_collectGarbage {time : Bytes → Int} :
    (store.collectGarbage time).heap = store.heap := rfl

/-- An entry survives a collection when it has not expired before the time read for it. -/
theorem sessionData_collectGarbage {time : Bytes → Int} :
    (store.collectGarbage time).sessionData id = some a ↔
      store.sessionData id = some a ∧ time id ≤ (store.heap a).expires := by
  simp only [collectGarbage, Option.filter_eq_some_iff, decide_eq_true_eq, Int.not_lt]

theorem of_sessionData_erase {id' : Bytes} (h : (store.erase id).sessionData id' = some a) :
    store.sessionData id' = some a := by
  rw [sessionData_erase, Function.update_apply] at h
  split at h
  · cases h
  · exact h

/-- Stores are equal when their objects and their maps are. -/
theorem ext (hheap : store.heap = store'.heap) (hnext : store.next = store'.next)
    (hmap : store.sessionData = store'.sessionData) : store = store' := by
  obtain ⟨heap, next, sessionData, constructed⟩ := store
  obtain ⟨heap', next', sessionData', constructed'⟩ := store'
  cases hheap
  cases hnext
  cases hmap
  rfl

/-! ## Critical sections -/

/-- A lookup attaches to the object in the map, and then only moves its expiry; or it attaches to
nothing, and erases at most the entry it was asked for. -/
theorem lookup_cases {validateIP remoteAddr : Bytes} {keepalive : Nat} {time time' : Int}
    {found : Option Nat}
    (h : store.lookup validateIP remoteAddr keepalive time time' sessionId = (store', found)) :
    (∃ a, found = some a ∧ store.sessionData sessionId = some a ∧
      store' = store.modify a fun object =>
        { object with expires := toTimeT (time' + keepalive) }) ∨
    (found = none ∧ (store' = store ∨ store' = store.erase sessionId)) := by
  unfold lookup at h
  split at h
  · cases h
    exact .inr ⟨rfl, .inl rfl⟩
  · next a ha =>
    split at h
    · cases h
      exact .inr ⟨rfl, .inr rfl⟩
    · split at h
      · split at h
        · cases h
          exact .inr ⟨rfl, .inr rfl⟩
        · cases h
          exact .inr ⟨rfl, .inl rfl⟩
      · cases h
        exact .inl ⟨a, rfl, ha, rfl⟩

/-- A lookup changes no data. -/
theorem data_lookup {validateIP remoteAddr : Bytes} {keepalive : Nat} {time time' : Int}
    {found : Option Nat}
    (h : store.lookup validateIP remoteAddr keepalive time time' sessionId = (store', found))
    (b : Nat) : (store'.heap b).data = (store.heap b).data := by
  obtain ⟨a, -, -, rfl⟩ | ⟨-, rfl | rfl⟩ := lookup_cases h
  · rw [heap_modify, Function.update_apply]
    split
    · next hb => rw [hb]
    · rfl
  · rfl
  · rfl

/-- A creation takes an id that was drawn and is not in the map, and a new object. -/
theorem create_cases {remoteAddr : Bytes} {keepalive : Nat} {time : Int} {draws : List Bytes}
    (h : store.create remoteAddr keepalive time draws = some (store', id, a)) :
    id ∈ draws ∧ store.sessionData id = none ∧ a = store.next ∧
      store' = store.insert id
        { expires := toTimeT (time + keepalive), sourceIP := remoteAddr } := by
  unfold create at h
  split at h
  · cases h
  · next id' hfind =>
    cases h
    have hnot := List.find?_some hfind
    rw [Bool.not_eq_true', count, Option.isSome_eq_false_iff, Option.isNone_iff_eq_none] at hnot
    exact ⟨List.mem_of_find?_eq_some hfind, hnot, rfl, rfl⟩

end Nawa.SessionStore
