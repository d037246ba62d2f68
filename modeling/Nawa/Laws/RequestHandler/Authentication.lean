import Nawa.Laws.Connection.Precedence
import Nawa.Laws.RequestHandler.RequestHandler
import Nawa.Laws.Session.Frame
import Nawa.Laws.Util.Bytes
import Nawa.Lib.Transition
import Nawa.RequestHandler.Authentication

/-!
# Whom a session variable lets pass

The session variable of an authentication filter is named after the position of the filter, so a
filter lets pass whom the filter at its position, in some list, has accepted in that session. If
no two lists that are ever installed have different functions at one position, that was the
function of the filter itself.

Nothing is assumed about ids, expiry or the clock: the variable is in the session object, and a
new object has none.
-/

namespace Nawa

open Lib.Transition

variable {F Fn C V : Type}

/-! ## Session variables -/

namespace Connection

theorem sessionVarKey_injective : Function.Injective sessionVarKey :=
  fun _ _ h => decimal_injective (List.append_cancel_left h)

end Connection

namespace Authentication

/-! ## The property and the condition -/

/-- Whoever is let pass by a session variable was accepted before, in the same session, by the
function of that filter, on behalf of another request. -/
def Remembered (log : List (AuthEvent Fn)) : Prop :=
  ∀ before r a flt after, log = before ++ .passed r a flt :: after →
    ∃ r' f, r' ≠ r ∧ .accepted r' (some a) f ∈ before ∧ flt.authFunction = some f

/-- The filters with sessions in a list have the functions of their positions. -/
def Agrees (fn : Nat → Option Fn) (l : AccessFilterList Fn) : Prop :=
  ∀ n flt, l.authFilters[n]? = some flt → flt.useSessions = true → flt.authFunction = fn n

/-- The application does not set the session variables of filters. -/
def KeepsOut : Step F Fn C V → Prop
  | .session _ (.set _ key _) => ∀ n, key ≠ Connection.sessionVarKey n
  | _ => True

/-- Besides, every list that is installed agrees with the functions of the positions. -/
def KeepsPositions (fn : Nat → Option Fn) (a : Step F Fn C V) : Prop :=
  KeepsOut a ∧ ∀ r l, a = .lock r → r.accessFilters = some l → Agrees fn l

def init (f : F) (l : Option (AccessFilterList Fn)) (c : C) : Authentication F Fn C V where
  guarded := ⟨⟨f, l, c⟩, none⟩

theorem remembered_append {log : List (AuthEvent Fn)} {e : AuthEvent Fn} (h : Remembered log)
    (he : ∀ r a flt, e = .passed r a flt →
      ∃ r' f, r' ≠ r ∧ .accepted r' (some a) f ∈ log ∧ flt.authFunction = some f) :
    Remembered (log ++ [e]) := by
  intro before r a flt after heq
  rcases List.eq_nil_or_concat after with rfl | ⟨after', e', rfl⟩
  · obtain ⟨rfl, hlast⟩ := List.append_inj' heq rfl
    exact he r a flt (List.cons.inj hlast).1
  · rw [List.concat_eq_append, ← List.cons_append, ← List.append_assoc] at heq
    exact h before r a flt after' (List.append_inj' heq rfl).1

/-! ## The invariant -/

/-- In the session with the object, the function of the position has accepted a request. -/
def AcceptedAt (fn : Nat → Option Fn) (s : Authentication F Fn C V) (a n : Nat) : Prop :=
  ∃ r f, .accepted r (some a) f ∈ s.log ∧ fn n = some f

/-- What is known of a request, by its stage. -/
def StageSound (fn : Nat → Option Fn) (s : Authentication F Fn C V) (r : Nat) :
    AuthStage Fn → Prop
  | .copied l => ∀ l', l = some l' → Agrees fn l'
  | .starting _ n flt => flt.useSessions = true ∧ flt.authFunction = fn n
  | .asking _ n flt => flt.useSessions = true →
      flt.authFunction = fn n ∧ ∃ a, (s.sessions.session r).currentData = some a
  | .accepted _ n _ _ => ∃ a, (s.sessions.session r).currentData = some a ∧ AcceptedAt fn s a n
  | .constructing | .forwarding _ | .serving | .finished => True

/-- The stages after the question to the function. -/
def Asked : AuthStage Fn → Prop
  | .accepted .. | .forwarding _ | .serving | .finished => True
  | _ => False

structure Sound (fn : Nat → Option Fn) (s : Authentication F Fn C V) : Prop where
  handler : ∀ l, s.guarded.handler.accessFilters = some l → Agrees fn l
  pending : ∀ pending, s.guarded.writer = some pending →
    ∀ l, .accessFilters l ∈ pending → Agrees fn l
  stage : ∀ r request stage, s.request r = some (request, stage) → StageSound fn s r stage
  asked : ∀ r a f, .accepted r a f ∈ s.log →
    ∃ request stage, s.request r = some (request, stage) ∧ Asked stage
  stored : ∀ a n, (s.sessions.store.heap a).data (Connection.sessionVarKey n) ≠ none →
    AcceptedAt fn s a n
  remembered : Remembered s.log

theorem sound_init {fn : Nat → Option Fn} (f : F) {l : Option (AccessFilterList Fn)} (c : C)
    (h : ∀ l', l = some l' → Agrees fn l') : Sound fn (init f l c : Authentication F Fn C V) where
  handler := h
  pending := nofun
  stage := nofun
  asked := nofun
  stored := fun _ _ hstored => absurd rfl hstored
  remembered := by
    intro before r a flt after heq
    cases before <;> cases heq

theorem AcceptedAt.mono {fn : Nat → Option Fn} {s t : Authentication F Fn C V} {a n : Nat}
    (h : AcceptedAt fn s a n) (hlog : s.log ⊆ t.log) : AcceptedAt fn t a n := by
  obtain ⟨r, f, hmem, hf⟩ := h
  exact ⟨r, f, hlog hmem, hf⟩

theorem StageSound.mono {fn : Nat → Option Fn} {s t : Authentication F Fn C V} {r : Nat}
    {stage : AuthStage Fn} (h : StageSound fn s r stage)
    (hsession : t.sessions.session r = s.sessions.session r) (hlog : s.log ⊆ t.log) :
    StageSound fn t r stage := by
  cases stage with
  | asking l n flt =>
    simp only [StageSound, hsession] at h ⊢
    exact h
  | accepted l n flt username =>
    obtain ⟨a, ha, haccepted⟩ := h
    exact ⟨a, hsession ▸ ha, haccepted.mono hlog⟩
  | _ => exact h

/-! ## What a step keeps -/

/-- A step of a request: it goes on to a stage, it may write to its session, and the log grows by
events of its own. -/
theorem Sound.of_request {fn : Nat → Option Fn} {s t : Authentication F Fn C V} {r : Nat}
    {request : Request} {stage : AuthStage Fn} {events : List (AuthEvent Fn)} (hs : Sound fn s)
    (hrequest : t.request = s.setStage r request stage) (hguarded : t.guarded = s.guarded)
    (hlog : t.log = s.log ++ events)
    (hsession : ∀ r', r' ≠ r → t.sessions.session r' = s.sessions.session r')
    (hevents : ∀ r' a f, .accepted r' a f ∈ events → r' = r)
    (hstage : StageSound fn t r stage)
    (hasked : (∃ a f, .accepted r a f ∈ t.log) → Asked stage)
    (hstored : ∀ a n, (t.sessions.store.heap a).data (Connection.sessionVarKey n) ≠ none →
      (s.sessions.store.heap a).data (Connection.sessionVarKey n) ≠ none ∨ AcceptedAt fn t a n)
    (hremembered : Remembered t.log) : Sound fn t := by
  have hgrows : s.log ⊆ t.log := hlog ▸ List.subset_append_left _ _
  have hself : t.request r = some (request, stage) := by
    rw [hrequest, setStage, Function.update_self]
  have hother : ∀ r', r' ≠ r → t.request r' = s.request r' := by
    intro r' hr
    rw [hrequest, setStage, Function.update_of_ne hr]
  refine
    { handler := hguarded ▸ hs.handler
      pending := hguarded ▸ hs.pending
      stage := ?_
      asked := ?_
      stored := fun a n h => (hstored a n h).elim (fun h => (hs.stored a n h).mono hgrows) id
      remembered := hremembered }
  · intro r' request' stage' h
    by_cases hr : r' = r
    · subst hr
      rw [hself, Option.some.injEq, Prod.mk.injEq] at h
      exact h.2 ▸ hstage
    · rw [hother r' hr] at h
      exact (hs.stage r' request' stage' h).mono (hsession r' hr) hgrows
  · intro r' a f h
    by_cases hr : r' = r
    · subst hr
      exact ⟨request, stage, hself, hasked ⟨a, f, h⟩⟩
    · rw [hother r' hr]
      rw [hlog, List.mem_append] at h
      exact hs.asked r' a f (h.resolve_right fun h => hr (hevents r' a f h))

/-- A step of a request that does nothing but go on to another stage. -/
theorem Sound.of_stage {fn : Nat → Option Fn} {s : Authentication F Fn C V} {r : Nat}
    {request : Request} {stage : AuthStage Fn} (hs : Sound fn s)
    (hstage : StageSound fn s r stage)
    (hasked : (∃ a f, .accepted r a f ∈ s.log) → Asked stage) :
    Sound fn { s with request := s.setStage r request stage } :=
  hs.of_request rfl rfl (List.append_nil _).symm (fun _ _ => rfl) nofun
    (hstage.mono rfl (List.Subset.refl _)) hasked (fun _ _ => .inl) hs.remembered

/-- A request that has not been asked has not been accepted. -/
theorem Sound.not_accepted {fn : Nat → Option Fn} {s : Authentication F Fn C V} {r : Nat}
    {request : Request} {stage : AuthStage Fn} (hs : Sound fn s)
    (hr : s.request r = some (request, stage)) (hstage : ¬ Asked stage) {a : Option Nat} {f : Fn} :
    .accepted r a f ∉ s.log := by
  intro hmem
  obtain ⟨request', stage', heq, hasked⟩ := hs.asked r a f hmem
  rw [hr, Option.some.injEq, Prod.mk.injEq] at heq
  exact hstage (heq.2 ▸ hasked)

/-- A request that is given a filter to ask or to remember stands at the filter's position. -/
theorem stageSound_enter {fn : Nat → Option Fn} (s : Authentication F Fn C V) (r : Nat)
    {l : Option (AccessFilterList Fn)} (h : ∀ l', l = some l' → Agrees fn l')
    (request : Request) : StageSound fn s r (.enter l request) := by
  unfold AuthStage.enter
  split
  · trivial
  · next l =>
    split
    · trivial
    · split
      · trivial
      · trivial
      · split
        · trivial
        · trivial
        · next n flt hfind =>
          obtain ⟨i, hi, hget⟩ := Connection.findApplicable_getElem? hfind
          rw [Nat.zero_add] at hi
          subst hi
          split
          · next huse => exact ⟨huse, h l rfl n flt hget huse⟩
          · next huse => exact fun huse' => absurd huse' huse

theorem asked_forward (l : AccessFilterList Fn) (request : Request) :
    Asked (.forward l request) := by
  unfold AuthStage.forward
  split <;> trivial

theorem Sound.check {fn : Nat → Option Fn} {s t : Authentication F Fn C V} {r n : Nat}
    {request : Request} {l : AccessFilterList Fn} {flt : AuthFilter Fn} (hs : Sound fn s)
    (hr : s.request r = some (request, .starting l n flt))
    (h : s.stepCheck r request l n flt = some t) : Sound fn t := by
  obtain ⟨huse, hfn⟩ := hs.stage r request _ hr
  have hnot : ∀ {a f}, .accepted r a f ∉ s.log := hs.not_accepted hr id
  unfold stepCheck at h
  split at h
  · next a hdata _ =>
    split at h
    · next hset =>
      cases h
      have hstored : (s.sessions.store.heap a).data (Connection.sessionVarKey n) ≠ none := by
        rw [Session.isSet, hdata] at hset
        exact Option.isSome_iff_ne_none.mp hset
      obtain ⟨r', f, hmem, hf⟩ := hs.stored a n hstored
      refine hs.of_request rfl rfl rfl (fun _ _ => rfl) ?_ trivial (fun _ => trivial)
        (fun _ _ => .inl) (remembered_append hs.remembered ?_)
      · intro r'' a' f' hmem'
        cases List.mem_singleton.mp hmem'
      · intro r'' a' flt' heq
        cases heq
        refine ⟨r', f, ?_, hmem, hfn.trans hf⟩
        rintro rfl
        exact hnot hmem
    · cases h
      refine hs.of_stage (fun _ => ⟨hfn, a, hdata⟩) ?_
      rintro ⟨a, f, hmem⟩
      exact hnot hmem
  · cases h

theorem Sound.ask {fn : Nat → Option Fn} {s : Authentication F Fn C V} {r n : Nat}
    {request : Request} {l : AccessFilterList Fn} {flt : AuthFilter Fn} (hs : Sound fn s)
    (hr : s.request r = some (request, .asking l n flt))
    (invoke : Fn → Bytes → Bytes → Bool) : Sound fn (s.stepAsk r request invoke l n flt) := by
  have hstage := hs.stage r request _ hr
  unfold stepAsk
  split
  · next f username password hcheck =>
    refine hs.of_request rfl rfl rfl (fun _ _ => rfl) ?_ ?_ ?_ (fun _ _ => .inl)
      (remembered_append hs.remembered nofun)
    · intro r' a f' hmem
      cases List.mem_singleton.mp hmem
      rfl
    · split
      · next huse =>
        obtain ⟨hfn, a, ha⟩ := hstage huse
        refine ⟨a, ha, r, f, List.mem_append_right _ (List.mem_singleton.mpr ?_), ?_⟩
        · rw [ha]
        · rw [← hfn]
          exact (Connection.checkCredentials_answered_iff.mp hcheck).2.1
      · trivial
    · intro _
      split <;> trivial
  · exact hs.of_stage trivial fun _ => trivial

theorem Sound.remember {fn : Nat → Option Fn} {s t : Authentication F Fn C V} {r n : Nat}
    {request : Request} {l : AccessFilterList Fn} {flt : AuthFilter Fn} {username : Bytes}
    {any : Bytes → V} {sessions : Session.System V} (hs : Sound fn s)
    (hr : s.request r = some (request, .accepted l n flt username))
    (h : s.sessions.step (.set r (Connection.sessionVarKey n) (any username)) = some sessions)
    (ht : t = { s with sessions := sessions, request := s.setStage r request (.forwarding l) }) :
    Sound fn t := by
  obtain ⟨a, ha, haccepted⟩ := hs.stage r request _ hr
  subst ht
  refine hs.of_request rfl rfl (List.append_nil _).symm ?_ nofun trivial (fun _ => trivial) ?_
    hs.remembered
  · intro r' hne
    exact Session.System.session_of_step h fun heq => hne (Option.some.inj heq).symm
  · intro b m hstored
    refine (Session.System.stored_of_step h hstored).imp_right ?_
    rintro ⟨c, value, heq, hb⟩
    obtain ⟨rfl, hkey, -⟩ := Session.Step.set.inj heq
    obtain rfl := Connection.sessionVarKey_injective hkey
    obtain rfl := Option.some.inj (hb.symm.trans ha)
    exact haccepted

/-- A session call of a request, in a stage that permits it. -/
theorem Sound.session {fn : Nat → Option Fn} {s : Authentication F Fn C V} {r : Nat}
    {request : Request} {stage : AuthStage Fn} {l : Session.Step V}
    {sessions : Session.System V} (hs : Sound fn s) (hr : s.request r = some (request, stage))
    (hl : l.connection = some r) (hpermits : stage.permits l = true)
    (h : s.sessions.step l = some sessions)
    (hkeeps : ∀ c key value, l = .set c key value → ∀ n, key ≠ Connection.sessionVarKey n) :
    Sound fn { s with sessions := sessions } := by
  have hrequest : s.request = s.setStage r request stage := by
    rw [setStage, ← hr, Function.update_eq_self]
  refine hs.of_request hrequest rfl (List.append_nil _).symm ?_ nofun ?_ ?_ ?_ hs.remembered
  · intro r' hne
    exact Session.System.session_of_step h fun heq =>
      hne (Option.some.inj (heq.symm.trans hl))
  · have hstage := hs.stage r request stage hr
    cases stage with
    | asking => cases hpermits
    | accepted => cases hpermits
    | _ => exact hstage
  · rintro ⟨a, f, hmem⟩
    obtain ⟨request', stage', heq, hasked⟩ := hs.asked r a f hmem
    rw [hr, Option.some.injEq, Prod.mk.injEq] at heq
    exact heq.2 ▸ hasked
  · intro b n hstored
    refine (Session.System.stored_of_step h hstored).imp_right ?_
    rintro ⟨c, value, heq, -⟩
    exact absurd rfl (hkeeps _ _ _ heq n)

/-- Steps of the writer and of the garbage collector concern no request. -/
theorem Sound.of_shared {fn : Nat → Option Fn} {s t : Authentication F Fn C V} (hs : Sound fn s)
    (hrequest : t.request = s.request) (hlog : t.log = s.log)
    (hsession : t.sessions.session = s.sessions.session)
    (hheap : t.sessions.store.heap = s.sessions.store.heap)
    (hhandler : ∀ l, t.guarded.handler.accessFilters = some l → Agrees fn l)
    (hpending : ∀ pending, t.guarded.writer = some pending →
      ∀ l, .accessFilters l ∈ pending → Agrees fn l) : Sound fn t where
  handler := hhandler
  pending := hpending
  stage := fun r request stage h =>
    (hs.stage r request stage (hrequest ▸ h)).mono (by rw [hsession]) (hlog ▸ List.Subset.refl _)
  asked := fun r a f h => hrequest ▸ hs.asked r a f (hlog ▸ h)
  stored := fun a n h => (hs.stored a n (hheap ▸ h)).mono (hlog ▸ List.Subset.refl _)
  remembered := hlog ▸ hs.remembered

theorem mem_assignments {r : Reconfiguration F (AccessFilterList Fn) C} {l : AccessFilterList Fn}
    (h : .accessFilters l ∈ r.assignments) : r.accessFilters = some l := by
  simp only [Reconfiguration.assignments, List.mem_append, Option.mem_toList,
    Option.map_eq_some_iff, reduceCtorEq, and_false, exists_false, false_or, or_false,
    Assignment.accessFilters.injEq, exists_eq_right] at h
  exact h

/-- A step of a request keeps the invariant. -/
theorem Sound.request_step {fn : Nat → Option Fn} {s t : Authentication F Fn C V} {r : Nat}
    {request : Request} {stage : AuthStage Fn} {a : Step F Fn C V} (hs : Sound fn s)
    (hok : KeepsOut a) (hr : s.request r = some (request, stage))
    (h : s.stepRequest r request stage a = some t) : Sound fn t := by
  unfold stepRequest at h
  split at h
  · obtain ⟨copies, hcopies, rfl⟩ := Option.map_eq_some_iff.mp h
    obtain ⟨-, rfl⟩ := Guarded.snapshot_eq_some.mp hcopies
    refine hs.of_stage hs.handler ?_
    rintro ⟨a, f, hmem⟩
    exact absurd hmem (hs.not_accepted hr id)
  · cases h
    refine hs.of_stage (stageSound_enter s r (hs.stage r request _ hr) request) ?_
    rintro ⟨a, f, hmem⟩
    exact absurd hmem (hs.not_accepted hr id)
  · exact hs.check hr h
  · cases h
    exact hs.ask hr _
  · obtain ⟨sessions, hsessions, rfl⟩ := Option.map_eq_some_iff.mp h
    exact hs.remember hr hsessions rfl
  · cases h
    exact hs.of_stage (by unfold AuthStage.forward; split <;> trivial)
      fun _ => asked_forward _ _
  · split at h
    · next hl =>
      obtain ⟨sessions, hsessions, rfl⟩ := Option.map_eq_some_iff.mp h
      refine hs.session hr hl.1 hl.2 hsessions ?_
      rintro c key value rfl
      exact hok
    · cases h
  · cases h

/-- **Every step keeps the invariant**, if the application keeps out of the filters' variables
and the lists that are installed agree. -/
theorem Sound.step {fn : Nat → Option Fn} {s t : Authentication F Fn C V} {a : Step F Fn C V}
    (hok : KeepsPositions fn a) (hs : Sound fn s) (h : s.step a = some t) : Sound fn t := by
  unfold Authentication.step at h
  split at h
  · next r =>
    obtain ⟨g, hg, rfl⟩ := Option.map_eq_some_iff.mp h
    obtain ⟨-, rfl⟩ := Guarded.lock_eq_some.mp hg
    refine hs.of_shared rfl rfl rfl rfl hs.handler fun pending hpending l hl => ?_
    cases hpending
    exact hok.2 r l rfl (mem_assignments hl)
  · obtain ⟨g, hg, rfl⟩ := Option.map_eq_some_iff.mp h
    obtain ⟨a, pending, hwriter, -, rfl⟩ := Guarded.assign_eq_some.mp hg
    refine hs.of_shared rfl rfl rfl rfl (fun l hl => ?_) fun pending' hpending l hl => ?_
    · cases a with
      | accessFilters l' =>
        cases hl
        exact hs.pending _ hwriter _ List.mem_cons_self
      | handleRequestFunction f => exact hs.handler l hl
      | config c => exact hs.handler l hl
    · cases hpending
      exact hs.pending _ hwriter l (List.mem_cons_of_mem _ hl)
  · obtain ⟨g, hg, rfl⟩ := Option.map_eq_some_iff.mp h
    obtain ⟨-, rfl⟩ := Guarded.unlock_eq_some.mp hg
    exact hs.of_shared rfl rfl rfl rfl hs.handler nofun
  · cases h
    exact hs.of_shared rfl rfl rfl rfl hs.handler hs.pending
  · split at h
    · next hnew =>
      cases h
      refine hs.of_stage trivial ?_
      rintro ⟨a, f, hmem⟩
      obtain ⟨request, stage, heq, -⟩ := hs.asked _ a f hmem
      exact nomatch hnew.symm.trans heq
    · cases h
  · split at h
    · next r request stage heq =>
      obtain ⟨r', -, hmap⟩ := Option.bind_eq_some_iff.mp heq
      obtain ⟨⟨request', stage'⟩, hr, heq'⟩ := Option.map_eq_some_iff.mp hmap
      cases heq'
      exact hs.request_step hok.1 hr h
    · cases h

/-- **Authentication that a session remembers is not transferred between filters**, in a run in
which the application keeps out of the filters' variables and the lists that are installed have
one function at each position. -/
theorem remembered_of_run {fn : Nat → Option Fn} {f : F} {l : Option (AccessFilterList Fn)}
    {c : C} {steps : List (Step F Fn C V)} {s : Authentication F Fn C V}
    (hl : ∀ l', l = some l' → Agrees fn l')
    (h : Run step (fun _ a => KeepsPositions fn a) (init f l c) steps s) : Remembered s.log :=
  (h.invariant (Sound fn) (fun hok hs hstep => hs.step hok hstep) (sound_init f c hl)).remembered

/-! ## Two lists with one filter each -/

/-- A filter with sessions for every request. -/
def protect (f : Nat) : AuthFilter Nat := { authFunction := some f, useSessions := true }

def protectAll (f : Nat) : AccessFilterList Nat :=
  { filtersEnabled := true, authFilters := [protect f] }

/-- A request with the credentials `u` and `p`. -/
def signedIn : Request :=
  { env := Lib.AssocMap.empty.insert (bytes "authorization") (bytes "Basic dTpw") }

/-- A request is accepted, then the filters are replaced, and then a request without credentials
comes with the session of the first one. -/
def replaceFilters (l : AccessFilterList Nat) : List (Step Nat Nat Unit Nat) :=
  [.arrive 0 signedIn, .snapshot 0, .filter 0,
    .session 0 (.start 0 none [] [] [] 1800 5 5), .session 0 (.create 0 [] 5 [bytes "x"]),
    .check 0, .ask 0 (fun _ _ _ => true), .remember 0 List.length,
    .lock { accessFilters := some l }, .assign .accessFilters, .unlock,
    .arrive 1 {}, .snapshot 1, .filter 1,
    .session 1 (.start 1 none (bytes "x") [] [] 1800 6 6), .check 1]

theorem remembered_sample : ∃ s, Run step (fun _ a => KeepsPositions (fun _ => some 1) a)
    (init 0 (some (protectAll 1)) ()) (replaceFilters (protectAll 1)) s ∧ Remembered s.log := by
  have hagrees : Agrees (fun _ => some 1) (protectAll 1) := by
    intro n flt hget _
    cases n with
    | zero =>
      cases hget
      rfl
    | succ n => cases hget
  have hlock : KeepsPositions (fun _ => some 1)
      (.lock { accessFilters := some (protectAll 1) } : Step Nat Nat Unit Nat) := by
    refine ⟨trivial, fun r l hr hl => ?_⟩
    cases hr
    cases hl
    exact hagrees
  have hrun : ∃ s, Run step (fun _ a => KeepsPositions (fun _ => some 1) a)
      (init 0 (some (protectAll 1)) ()) (replaceFilters (protectAll 1)) s :=
    ⟨_, .cons ⟨trivial, nofun⟩ rfl (.cons ⟨trivial, nofun⟩ rfl (.cons ⟨trivial, nofun⟩ rfl
      (.cons ⟨trivial, nofun⟩ rfl (.cons ⟨trivial, nofun⟩ rfl (.cons ⟨trivial, nofun⟩ rfl
        (.cons ⟨trivial, nofun⟩ rfl (.cons ⟨trivial, nofun⟩ rfl (.cons hlock rfl
          (.cons ⟨trivial, nofun⟩ rfl (.cons ⟨trivial, nofun⟩ rfl (.cons ⟨trivial, nofun⟩ rfl
            (.cons ⟨trivial, nofun⟩ rfl (.cons ⟨trivial, nofun⟩ rfl (.cons ⟨trivial, nofun⟩ rfl
              (.cons ⟨trivial, nofun⟩ rfl (.nil _))))))))))))))))⟩
  obtain ⟨s, hrun⟩ := hrun
  refine ⟨s, hrun, remembered_of_run ?_ hrun⟩
  rintro l' ⟨⟩
  exact hagrees

/-- The second filter lets pass whom the first one has accepted. -/
theorem not_remembered_replaced : ¬ ∀ (l : AccessFilterList Nat)
    (steps : List (Step Nat Nat Unit Nat)) (s : Authentication Nat Nat Unit Nat),
    Run step (fun _ a => KeepsOut a) (init 0 (some l) ()) steps s → Remembered s.log := by
  intro hall
  have hrun : ∃ s, Run step (fun _ a => KeepsOut a) (init 0 (some (protectAll 1)) ())
      (replaceFilters (protectAll 2)) s ∧
        s.log = [.accepted 0 (some 0) 1] ++ .passed 1 0 (protect 2) :: [] :=
    ⟨_, .cons trivial rfl (.cons trivial rfl (.cons trivial rfl (.cons trivial rfl
      (.cons trivial rfl (.cons trivial rfl (.cons trivial rfl (.cons trivial rfl
        (.cons trivial rfl (.cons trivial rfl (.cons trivial rfl (.cons trivial rfl
          (.cons trivial rfl (.cons trivial rfl (.cons trivial rfl (.cons trivial rfl
            (.nil _)))))))))))))))), rfl⟩
  obtain ⟨s, hrun, hlog⟩ := hrun
  obtain ⟨r', f, -, hmem, hfunction⟩ := hall _ _ s hrun _ 1 0 (protect 2) [] hlog
  cases List.mem_singleton.mp hmem
  cases hfunction

end Authentication

end Nawa
