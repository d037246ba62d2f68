import Nawa.Laws.Session.Interleaving

/-!
# Removed sessions

An id that has left the map is never in it again, and nothing attaches to its object any more,
whatever the connections do that still hold the object. The one call that goes on answering with
the id is `start` on a connection that was attached when the id was removed: it returns the
current id of the connection without a look at the map.
-/

namespace Nawa.Session.System

open Lib.Transition

variable {V : Type}

/-- An id under which an object was created, and which is not in the map any more. -/
def Removed (s : System V) (id : Bytes) : Prop :=
  (∃ a, s.CreatedUnder a id) ∧ s.store.sessionData id = none

/-- What holds from the removal of an id in the state `s` on, with the events since then. -/
structure Gone (s : System V) (id : Bytes) (later : List (Event V)) (t : System V) : Prop where
  log : t.log = s.log ++ later
  absent : t.store.sessionData id = none
  attached : ∀ c id' a, .attached c id' a ∈ later → id' ≠ id ∧ ¬ s.CreatedUnder a id
  created : ∀ c id' a, .created c id' a ∈ later → id' ≠ id ∧ ¬ s.CreatedUnder a id
  held : ∀ c a, (t.session c).currentData = some a → (t.session c).currentID = id →
    (s.session c).currentData = some a ∧ (s.session c).currentID = id
  returned : ∀ c, .returned c id ∈ later →
    (s.session c).established = true ∧ (s.session c).currentID = id

theorem Gone.createdUnder {s t : System V} {id : Bytes} {later : List (Event V)}
    (h : Gone s id later t) {a : Nat} {id' : Bytes} (hs : s.CreatedUnder a id') :
    t.CreatedUnder a id' := by
  obtain ⟨c, hc⟩ := hs
  exact ⟨c, h.log ▸ List.mem_append_left _ hc⟩

/-- One more event, which is checked against each of the clauses. -/
theorem Gone.snoc {s t u : System V} {id : Bytes} {later : List (Event V)} {e : Event V}
    (h : Gone s id later t) (log : u.log = t.log ++ [e]) (absent : u.store.sessionData id = none)
    (attached : ∀ c id' a, .attached c id' a = e → id' ≠ id ∧ ¬ s.CreatedUnder a id)
    (created : ∀ c id' a, .created c id' a = e → id' ≠ id ∧ ¬ s.CreatedUnder a id)
    (held : ∀ c a, (u.session c).currentData = some a → (u.session c).currentID = id →
      (s.session c).currentData = some a ∧ (s.session c).currentID = id)
    (returned : ∀ c, .returned c id = e →
      (s.session c).established = true ∧ (s.session c).currentID = id) :
    Gone s id (later ++ [e]) u where
  log := by rw [log, h.log, List.append_assoc]
  absent := absent
  attached c id' a hmem := by
    rw [List.mem_append, List.mem_singleton] at hmem
    exact hmem.elim (h.attached c id' a) (attached c id' a)
  created c id' a hmem := by
    rw [List.mem_append, List.mem_singleton] at hmem
    exact hmem.elim (h.created c id' a) (created c id' a)
  held := held
  returned c hmem := by
    rw [List.mem_append, List.mem_singleton] at hmem
    exact hmem.elim (h.returned c) (returned c)

/-- **No step brings a removed id back.** -/
theorem Gone.step {s t u : System V} {id : Bytes} {later : List (Event V)} {l : Step V}
    (hcreated : ∃ a, s.CreatedUnder a id) (hiso : t.Isolated) (hok : t.Fresh l)
    (h : Gone s id later t) (hstep : t.step l = some u) : ∃ later', Gone s id later' u := by
  have hissued : id ∈ t.issued := by
    obtain ⟨a, ha⟩ := hcreated
    exact hiso.issued id a (h.createdUnder ha)
  -- a connection that holds the id after a step on another id held it before
  have hothers : ∀ {c id'}, id' ≠ id → (u.session c).currentID = id' →
      (∀ c', c' ≠ c → u.session c' = t.session c') →
      ∀ c' a, (u.session c').currentData = some a → (u.session c').currentID = id →
        (s.session c').currentData = some a ∧ (s.session c').currentID = id := by
    intro c id' hne here others c' a hdata hid
    by_cases hc : c' = c
    · subst hc
      exact absurd (here.symm.trans hid) hne
    · rw [others c' hc] at hdata hid
      exact h.held c' a hdata hid
  cases effect_of_step hok hstep with
  | forget map heap next session issued log =>
    have habsent : u.store.sessionData id = none := by
      cases hu : u.store.sessionData id with
      | none => rfl
      | some a =>
        have hbad := map id a hu
        rw [h.absent] at hbad
        cases hbad
    have hheld : ∀ c a, (u.session c).currentData = some a → (u.session c).currentID = id →
        (s.session c).currentData = some a ∧ (s.session c).currentID = id := by
      intro c a hdata hid
      obtain ⟨hdata', hid'⟩ := session c a hdata
      exact h.held c a hdata' (hid'.symm.trans hid)
    rcases log with log | ⟨c, a, hdata, log⟩
    · exact ⟨later, log.trans h.log, habsent, h.attached, h.created, hheld, h.returned⟩
    · refine ⟨_, h.snoc log habsent ?_ ?_ hheld ?_⟩
      · intro c' id' a' heq
        cases heq
      · intro c' id' a' heq
        cases heq
      · intro c' heq
        cases heq
        obtain ⟨hs, hs'⟩ := h.held c a hdata rfl
        exact ⟨by rw [established, hs]; rfl, hs'⟩
  | attach c id' a found idle map data next here others issued log =>
    have hne : id' ≠ id := by
      rintro rfl
      rw [h.absent] at found
      cases found
    refine ⟨_, h.snoc log (map ▸ h.absent) ?_ ?_ (hothers hne here.2 others) ?_⟩
    · intro c' id'' a' heq
      cases heq
      exact ⟨hne, fun hs => hne (hiso.one_id _ _ _ (hiso.map _ _ found) (h.createdUnder hs))⟩
    · intro c' id'' a' heq
      cases heq
    · intro c' heq
      cases heq
  | create c id' draws fresh drawn map empty data next here others issued log =>
    have hne : id' ≠ id := by
      rintro rfl
      exact fresh id' drawn hissued
    have habsent : u.store.sessionData id = none := by
      rw [map, Function.update_of_ne hne.symm]
      exact h.absent
    refine ⟨_, h.snoc log habsent ?_ ?_ (hothers hne here.2 others) ?_⟩
    · intro c' id'' a' heq
      cases heq
    · intro c' id'' a' heq
      cases heq
      exact ⟨hne, fun hs => Nat.lt_irrefl _ (hiso.constructed id _ (h.createdUnder hs))⟩
    · intro c' heq
      cases heq
  | write c a key value attached map data others next session issued log =>
    refine ⟨_, h.snoc log (map ▸ h.absent) ?_ ?_ ?_ ?_⟩
    · intro c' id' a' heq
      cases heq
    · intro c' id' a' heq
      cases heq
    · intro c' a' hdata hid
      rw [session] at hdata hid
      exact h.held c' a' hdata hid
    · intro c' heq
      cases heq

/-- **A removed session stays removed.** After the removal the id never is in the map, `start`
neither attaches to an object of the id nor creates one under it, and the only connections that
`start` still answers with the id are those that were attached to it at the removal. -/
theorem removed_stays_removed {s t : System V} {before after : List (Step V)} {id : Bytes}
    (hs : Run step Fresh init before s) (hid : s.Removed id)
    (ht : Run step Fresh s after t) :
    t.store.sessionData id = none ∧ ∃ later, t.log = s.log ++ later ∧
      (∀ c id' a, .attached c id' a ∈ later ∨ .created c id' a ∈ later →
        id' ≠ id ∧ ¬ s.CreatedUnder a id) ∧
      ∀ c, .returned c id ∈ later →
        (s.session c).established = true ∧ (s.session c).currentID = id := by
  have hstart : Gone s id [] s :=
    ⟨(List.append_nil _).symm, hid.2, nofun, nofun, fun _ _ h h' => ⟨h, h'⟩, nofun⟩
  obtain ⟨later, hgone⟩ : ∃ later, Gone s id later t :=
    ht.relation Isolated (fun t => ∃ later, Gone s id later t)
      (fun hok hi hstep => hi.step hok hstep)
      (fun hok hi hrel hstep => hrel.elim fun _ h => h.step hid.1 hi hok hstep)
      (isolated_of_run hs) ⟨[], hstart⟩
  exact ⟨hgone.absent, later, hgone.log,
    fun c id' a h => h.elim (hgone.attached c id' a) (hgone.created c id' a), hgone.returned⟩

/-- One connection creates a session, another one attaches to it and invalidates it. -/
def invalidatedSteps : List (Step Nat) :=
  [.start 0 none [] [] (bytes "client") 1800 5 5, .create 0 (bytes "client") 5 [bytes "x"],
    .start 1 none (bytes "x") [] (bytes "client") 1800 6 6, .invalidate 1]

private theorem invalidated_run : ∃ s : System Nat, Run step Fresh init invalidatedSteps s ∧
    s.Removed (bytes "x") ∧ ∃ t, Run step Fresh s
      [.start 0 none (bytes "x") [] (bytes "client") 1800 7 7] t ∧
        .returned 0 (bytes "x") ∈ t.log.drop s.log.length :=
  ⟨_, .cons trivial rfl (.cons ⟨by decide, by decide⟩ rfl
    (.cons trivial rfl (.cons trivial rfl (.nil _)))),
    ⟨⟨0, 0, List.mem_cons_self⟩, rfl⟩, _, .single trivial rfl, List.mem_cons_self⟩

theorem removed_stays_removed_sample : ∃ s t : System Nat,
    Run step Fresh init invalidatedSteps s ∧ s.Removed (bytes "x") ∧
      t.store.sessionData (bytes "x") = none := by
  obtain ⟨s, hs, hid, t, ht, -⟩ := invalidated_run
  exact ⟨s, t, hs, hid, (removed_stays_removed hs hid ht).1⟩

/-- The first connection still holds the session, and `start` on it returns the removed id. -/
theorem returned_after_removal : ¬ ∀ (s t : System Nat) (before after : List (Step Nat))
    (id : Bytes), Run step Fresh init before s → s.Removed id → Run step Fresh s after t →
      ∀ c, .returned c id ∉ t.log.drop s.log.length := by
  intro hall
  obtain ⟨s, hs, hid, t, ht, hmem⟩ := invalidated_run
  exact hall s t _ _ _ hs hid ht 0 hmem

end Nawa.Session.System
