import Nawa.Laws.Session.SessionData
import Nawa.Session.Interleaving

/-!
# What a session step leaves as it was

The kinds of a step (`step_cases`), and two facts about a single step, whatever ids it draws:
where a value in a session object comes from, and that the step of one connection leaves the
session of every other one alone.
-/

namespace Nawa.Session.System

variable {V : Type}

/-- A step that is enabled is one of five functions on the state. -/
theorem step_cases {s t : System V} {l : Step V} (h : s.step l = some t) :
    (∃ c cookieName sessionId validateIP remoteAddr keepalive time time',
      l = .start c cookieName sessionId validateIP remoteAddr keepalive time time' ∧
        t = s.stepStart c cookieName sessionId validateIP remoteAddr keepalive time time') ∨
    (∃ c keepalive remoteAddr time draws, l = .create c remoteAddr time draws ∧
      s.stepCreate c keepalive remoteAddr time draws = some t) ∨
    (∃ c key value, (l = .unset c key ∧ value = none ∨ ∃ v, l = .set c key v ∧ value = some v) ∧
      s.stepWrite c key value = some t) ∨
    (∃ c, l = .invalidate c ∧ t = s.stepInvalidate c) ∨
    ∃ time, l = .collectGarbage time ∧ t = { s with store := s.store.collectGarbage time } := by
  cases l with
  | start c cookieName sessionId validateIP remoteAddr keepalive time time' =>
    obtain ⟨-, hstep⟩ := Option.ite_none_left_eq_some.mp h
    exact .inl ⟨c, cookieName, sessionId, validateIP, remoteAddr, keepalive, time, time', rfl,
      (Option.some.inj hstep).symm⟩
  | create c remoteAddr time draws =>
    rw [step] at h
    cases hcreating : s.creating c with
    | none =>
      rw [hcreating] at h
      cases h
    | some keepalive =>
      rw [hcreating] at h
      exact .inr (.inl ⟨c, keepalive, remoteAddr, time, draws, rfl, h⟩)
  | set c key value =>
    obtain ⟨-, hstep⟩ := Option.ite_none_left_eq_some.mp h
    exact .inr (.inr (.inl ⟨c, key, some value, .inr ⟨value, rfl, rfl⟩, hstep⟩))
  | unset c key =>
    obtain ⟨-, hstep⟩ := Option.ite_none_left_eq_some.mp h
    exact .inr (.inr (.inl ⟨c, key, none, .inl ⟨rfl, rfl⟩, hstep⟩))
  | invalidate c =>
    obtain ⟨-, hstep⟩ := Option.ite_none_left_eq_some.mp h
    exact .inr (.inr (.inr (.inl ⟨c, rfl, (Option.some.inj hstep).symm⟩)))
  | collectGarbage time =>
    exact .inr (.inr (.inr (.inr ⟨time, rfl, (Option.some.inj h).symm⟩)))

theorem data_stepStart (s : System V) (c : Nat) (cookieName : Option Bytes)
    (sessionId validateIP remoteAddr : Bytes) (keepalive : Nat) (time time' : Int) (b : Nat) :
    ((s.stepStart c cookieName sessionId validateIP remoteAddr keepalive time time').store.heap
      b).data = (s.store.heap b).data := by
  unfold stepStart
  split
  · rfl
  · dsimp only
    split
    · rfl
    · split <;>
      · next hlookup => exact SessionStore.data_lookup hlookup b

/-- A value gets into an object by a write of a connection attached to it, and in no other way. -/
theorem stored_of_step {s t : System V} {l : Step V} (h : s.step l = some t) {b : Nat}
    {key : Bytes} (hb : (t.store.heap b).data key ≠ none) :
    (s.store.heap b).data key ≠ none ∨
      ∃ c value, l = .set c key value ∧ (s.session c).currentData = some b := by
  rcases step_cases h with ⟨c, _, _, _, _, _, _, _, rfl, rfl⟩ | ⟨c, _, _, _, draws, rfl, hstep⟩ |
    ⟨c, key', value, hl, hstep⟩ | ⟨c, rfl, rfl⟩ | ⟨time, rfl, rfl⟩
  · exact .inl (data_stepStart .. ▸ hb)
  · unfold stepCreate at hstep
    split at hstep
    · cases hstep
    · next store id a hcreate =>
      cases hstep
      obtain ⟨-, -, -, rfl⟩ := SessionStore.create_cases hcreate
      dsimp only at hb
      rw [SessionStore.heap_insert, Function.update_apply] at hb
      split at hb
      · exact absurd rfl hb
      · exact .inl hb
  · unfold stepWrite at hstep
    split at hstep
    · cases hstep
    · next a ha =>
      cases hstep
      dsimp only at hb
      rw [SessionStore.heap_modify, Function.update_apply] at hb
      split at hb
      · next hba =>
        subst hba
        simp only [write, Function.update_apply] at hb
        split at hb
        · next hkey =>
          subst hkey
          rcases hl with ⟨-, hvalue⟩ | ⟨v, rfl, -⟩
          · exact absurd hvalue hb
          · exact .inr ⟨c, v, rfl, ha⟩
        · exact .inl hb
      · exact .inl hb
  · refine .inl ?_
    unfold stepInvalidate invalidate at hb
    dsimp only at hb
    split at hb <;> exact hb
  · exact .inl hb

/-- A step leaves the other connections as they are. -/
theorem session_of_step {s t : System V} {l : Step V} (h : s.step l = some t) {c : Nat}
    (hc : l.connection ≠ some c) : t.session c = s.session c := by
  have hother : ∀ {c' : Nat}, l.connection = some c' → c ≠ c' := by
    rintro c' hl rfl
    exact hc hl
  rcases step_cases h with ⟨c', _, _, _, _, _, _, _, rfl, rfl⟩ | ⟨c', _, _, _, draws, rfl, hstep⟩ |
    ⟨c', key, value, -, hstep⟩ | ⟨c', rfl, rfl⟩ | ⟨time, rfl, rfl⟩
  · have hne : c ≠ c' := hother rfl
    unfold stepStart
    split
    · rfl
    · dsimp only
      split
      · exact Function.update_of_ne hne ..
      · split
        · dsimp only [attach]
          rw [Function.update_of_ne hne, Function.update_of_ne hne]
        · exact Function.update_of_ne hne ..
  · have hne : c ≠ c' := hother rfl
    unfold stepCreate at hstep
    split at hstep
    · cases hstep
    · cases hstep
      exact Function.update_of_ne hne ..
  · unfold stepWrite at hstep
    split at hstep
    · cases hstep
    · cases hstep
      rfl
  · exact Function.update_of_ne (hother rfl) ..
  · rfl

end Nawa.Session.System
