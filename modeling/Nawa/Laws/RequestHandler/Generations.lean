import Nawa.Laws.Connection.SessionCookie
import Nawa.Laws.RequestHandler.RequestHandler
import Nawa.Lib.Transition
import Nawa.RequestHandler.Generations

/-!
# One configuration for a request

`reconfigure` replaces the three members under the mutex, and `handleRequest` copies function and
filters under it, so these two always come from one call. The configuration is copied earlier and
without the mutex; it comes from the same call exactly when no configuration is assigned between
the arrival of the request and the copies of `handleRequest`.
-/

namespace Nawa

open Lib.Transition

variable {F Fn V : Type}

/-- The connection holds the configuration that the request copied, and the function invoked is
the one that was copied. -/
structure Serving.Sound (serving : Serving F Fn) : Prop where
  connection : ∀ conn, serving.stage.connection = some conn →
    conn.config = serving.config.value
  invoked : ∀ f, serving.stage.invoked = some f → ∃ l, serving.stage.copies = some (f, l)

namespace Generations

/-! ## What a step can do -/

/-- The effect of a step: the writer goes on, a request arrives, or a request goes on. -/
inductive Effect (s t : Generations F Fn) : Step F Fn V → Prop
  | lock (f : F) (l : AccessFilterList Fn) (c : Config)
      (writer : s.guarded.writer = none)
      (guarded : t.guarded = ⟨s.guarded.handler, some
        [.handleRequestFunction ⟨f, s.calls + 1⟩, .accessFilters ⟨l, s.calls + 1⟩,
          .config ⟨c, s.calls + 1⟩]⟩)
      (calls : t.calls = s.calls + 1) (serving : t.serving = s.serving) :
      Effect s t (.lock f l c)
  | assign (a : Assignment (Stamped F) (Stamped (AccessFilterList Fn)) (Stamped Config))
      (pending : List (Assignment (Stamped F) (Stamped (AccessFilterList Fn)) (Stamped Config)))
      (writer : s.guarded.writer = some (a :: pending))
      (guarded : t.guarded = ⟨s.guarded.handler.assign a, some pending⟩)
      (calls : t.calls = s.calls) (serving : t.serving = s.serving) :
      Effect s t (.assign a.member)
  | unlock (writer : s.guarded.writer = some [])
      (guarded : t.guarded = ⟨s.guarded.handler, none⟩)
      (calls : t.calls = s.calls) (serving : t.serving = s.serving) : Effect s t .unlock
  | arrive (a : Step F Fn V) (r : Nat) (v : Serving F Fn) (new : s.serving r = none)
      (arrives : a.Arrives r) (config : v.config = s.guarded.handler.config)
      (start : v.stage.connection = none ∧ v.stage.copies = none ∧ v.stage.invoked = none)
      (guarded : t.guarded = s.guarded) (calls : t.calls = s.calls)
      (serving : t.serving = Function.update s.serving r (some v)) : Effect s t a
  | advance (a : Step F Fn V) (r : Nat) (v : Serving F Fn) (stage : Stage F Fn)
      (known : s.serving r = some v)
      (other : (∀ r', ¬ a.Arrives r') ∧ ∀ member, a ≠ .assign member)
      (copies : v.stage.copies = none ∨ stage.copies = v.stage.copies)
      (snapshot : ∀ r', a = .snapshot r' → r' = r ∧ s.guarded.writer = none ∧ stage.copies =
        some (s.guarded.handler.handleRequestFunction, s.guarded.handler.accessFilters))
      (sound : v.Sound → ({ v with stage := stage } : Serving F Fn).Sound)
      (guarded : t.guarded = s.guarded) (calls : t.calls = s.calls)
      (serving : t.serving = Function.update s.serving r (some { v with stage := stage })) :
      Effect s t a

theorem arrive_cases {s t : Generations F Fn} {r : Nat} {request : Request} {stage : Stage F Fn}
    (h : s.arrive r request stage = some t) :
    s.serving r = none ∧ t =
      { s with
        serving :=
          Function.update s.serving r (some ⟨request, s.guarded.handler.config, stage⟩) } := by
  unfold arrive at h
  split at h
  · cases h
  · next hnew => exact ⟨hnew, (Option.some.inj h).symm⟩

theorem advance_cases {s t : Generations F Fn} {r : Nat}
    {next : Serving F Fn → Option (Stage F Fn)} (h : s.advance r next = some t) :
    ∃ v stage, s.serving r = some v ∧ next v = some stage ∧
      t = { s with serving := Function.update s.serving r (some { v with stage := stage }) } := by
  unfold advance at h
  split at h
  · cases h
  · next v hv =>
    obtain ⟨stage, hstage, rfl⟩ := Option.map_eq_some_iff.mp h
    exact ⟨v, stage, hv, hstage, rfl⟩

theorem dispatched_start (d : Dispatch) :
    (dispatched d : Stage F Fn).connection = none ∧ (dispatched d : Stage F Fn).copies = none ∧
      (dispatched d : Stage F Fn).invoked = none := by
  cases d <;> exact ⟨rfl, rfl, rfl⟩

theorem consumed_start (c : Consumed) :
    (consumed c : Stage F Fn).connection = none ∧ (consumed c : Stage F Fn).copies = none ∧
      (consumed c : Stage F Fn).invoked = none := by
  cases c <;> exact ⟨rfl, rfl, rfl⟩

/-- A stage without connection and invocation says nothing wrong. -/
theorem sound_of_start {v : Serving F Fn}
    (h : v.stage.connection = none ∧ v.stage.copies = none ∧ v.stage.invoked = none) : v.Sound where
  connection := fun _ hconn => nomatch h.1.symm.trans hconn
  invoked := fun _ hf => nomatch h.2.2.symm.trans hf

theorem sound_handled (request : Request) (config : Stamped Config) (f : Stamped F)
    (l : Option (Stamped (AccessFilterList Fn))) (invoked : Option (Stamped F))
    (h : ∀ g, invoked = some g → g = f) :
    (⟨request, config, .handled f l invoked⟩ : Serving F Fn).Sound where
  connection := by
    intro conn hconn
    cases hconn
  invoked := fun g hg => ⟨l, h g hg ▸ rfl⟩

/-- **What a step can do.** -/
theorem effect_of_step {s t : Generations F Fn} {a : Step F Fn V} (h : s.step a = some t) :
    Effect s t a := by
  cases a with
  | lock f l c =>
    obtain ⟨g, hg, rfl⟩ := Option.map_eq_some_iff.mp h
    obtain ⟨hwriter, rfl⟩ := Guarded.lock_eq_some.mp hg
    exact .lock f l c hwriter rfl rfl rfl
  | assign member =>
    obtain ⟨g, hg, rfl⟩ := Option.map_eq_some_iff.mp h
    obtain ⟨a, pending, hwriter, rfl, rfl⟩ := Guarded.assign_eq_some.mp hg
    exact .assign a pending hwriter rfl rfl rfl
  | unlock =>
    obtain ⟨g, hg, rfl⟩ := Option.map_eq_some_iff.mp h
    obtain ⟨hwriter, rfl⟩ := Guarded.unlock_eq_some.mp hg
    exact .unlock hwriter rfl rfl rfl
  | response r request =>
    obtain ⟨hnew, rfl⟩ := arrive_cases h
    exact .arrive _ r _ hnew rfl rfl ⟨rfl, rfl, rfl⟩ rfl rfl rfl
  | operator r method request =>
    obtain ⟨hnew, rfl⟩ := arrive_cases h
    exact .arrive _ r _ hnew rfl rfl (dispatched_start _) rfl rfl rfl
  | consume r input eof bytesTransferred =>
    obtain ⟨v, stage, hv, hnext, rfl⟩ := advance_cases h
    split at hnext
    · next consumer hstage =>
      cases hnext
      refine .advance _ r v _ hv ⟨fun _ => id, nofun⟩ (.inl ?_) nofun ?_ rfl rfl rfl
      · rw [hstage]
        rfl
      · exact fun _ => sound_of_start (consumed_start _)
    · cases hnext
  | construct r ctx store =>
    obtain ⟨v, stage, hv, hnext, rfl⟩ := advance_cases h
    split at hnext
    · next hstage =>
      have hcopies : v.stage.copies = none := by
        rw [hstage]
        rfl
      split at hnext
      · next store' conn hconstruct =>
        cases hnext
        refine .advance _ r v _ hv ⟨fun _ => id, nofun⟩ (.inl hcopies) nofun ?_ rfl rfl rfl
        refine fun _ => ⟨fun conn' hconn' => ?_, nofun⟩
        obtain ⟨session, cookies, hframe⟩ :=
          Connection.construct_frame v.request v.config.value ctx store
        rw [hconstruct] at hframe
        obtain rfl := Option.some.inj hconn'
        exact congrArg Connection.config hframe
      · cases hnext
        exact .advance _ r v _ hv ⟨fun _ => id, nofun⟩ (.inl hcopies) nofun
          (fun _ => sound_of_start ⟨rfl, rfl, rfl⟩) rfl rfl rfl
    · cases hnext
  | snapshot r =>
    obtain ⟨v, stage, hv, hnext, rfl⟩ := advance_cases h
    split at hnext
    · next conn f l hstage hsnapshot =>
      cases hnext
      obtain ⟨hwriter, hcopies⟩ := Guarded.snapshot_eq_some.mp hsnapshot
      cases hcopies
      refine .advance _ r v _ hv ⟨fun _ => id, nofun⟩ (.inl ?_) ?_ ?_ rfl rfl rfl
      · rw [hstage]
        rfl
      · intro r' heq
        cases heq
        exact ⟨rfl, hwriter, rfl⟩
      · intro hsound
        have hconn := hsound.connection conn (by rw [hstage]; rfl)
        exact ⟨fun conn' hconn' => Option.some.inj hconn' ▸ hconn, nofun⟩
    · cases hnext
  | handle r env store =>
    obtain ⟨v, stage, hv, hnext, rfl⟩ := advance_cases h
    split at hnext
    · next conn f l hstage =>
      cases hnext
      have hsound := sound_handled v.request v.config f l _ fun g hg =>
        RequestHandler.handleRequest_invoked env (l.map (·.value)) store conn hg
      refine .advance _ r v _ hv ⟨fun _ => id, nofun⟩ (.inr ?_) nofun (fun _ => hsound) rfl rfl rfl
      rw [hstage]
      rfl
    · cases hnext

/-! ## The writer -/

/-- How far the writer has come. Outside of the mutex all stamps agree; under it, the new stamp
is on what has been assigned, and the configuration comes last. -/
inductive Progress (s : Generations F Fn) : Prop
  | idle (writer : s.guarded.writer = none) (bound : s.guarded.handler.config.call ≤ s.calls)
      (function : s.guarded.handler.config.call = s.guarded.handler.handleRequestFunction.call)
      (filters : ∀ l, s.guarded.handler.accessFilters = some l →
        l.call = s.guarded.handler.handleRequestFunction.call)
  | locked (f : F) (l : AccessFilterList Fn) (c : Config)
      (writer : s.guarded.writer = some [.handleRequestFunction ⟨f, s.calls⟩,
        .accessFilters ⟨l, s.calls⟩, .config ⟨c, s.calls⟩])
      (bound : s.guarded.handler.config.call < s.calls)
  | functionAssigned (l : AccessFilterList Fn) (c : Config)
      (writer : s.guarded.writer = some [.accessFilters ⟨l, s.calls⟩, .config ⟨c, s.calls⟩])
      (bound : s.guarded.handler.config.call < s.calls)
      (function : s.guarded.handler.handleRequestFunction.call = s.calls)
  | filtersAssigned (c : Config) (writer : s.guarded.writer = some [.config ⟨c, s.calls⟩])
      (bound : s.guarded.handler.config.call < s.calls)
      (function : s.guarded.handler.handleRequestFunction.call = s.calls)
      (filters : ∀ l, s.guarded.handler.accessFilters = some l → l.call = s.calls)
  | configAssigned (writer : s.guarded.writer = some [])
      (config : s.guarded.handler.config.call = s.calls)
      (function : s.guarded.handler.handleRequestFunction.call = s.calls)
      (filters : ∀ l, s.guarded.handler.accessFilters = some l → l.call = s.calls)

theorem progress_init (f : F) (l : Option (AccessFilterList Fn)) (c : Config) :
    (init f l c).Progress := by
  refine .idle rfl (Nat.le_refl 0) rfl fun l' hl' => ?_
  obtain ⟨_, -, rfl⟩ := Option.map_eq_some_iff.mp hl'
  rfl

/-- A state whose handler, mutex and call number are those of another one is as far as it. -/
theorem Progress.congr {s t : Generations F Fn} (hs : s.Progress)
    (hguarded : t.guarded = s.guarded) (hcalls : t.calls = s.calls) : t.Progress := by
  obtain ⟨guarded, calls, serving⟩ := s
  obtain ⟨guarded', calls', serving'⟩ := t
  subst hguarded hcalls
  cases hs with
  | idle writer bound function filters => exact .idle writer bound function filters
  | locked f l c writer bound => exact .locked f l c writer bound
  | functionAssigned l c writer bound function =>
    exact .functionAssigned l c writer bound function
  | filtersAssigned c writer bound function filters =>
    exact .filtersAssigned c writer bound function filters
  | configAssigned writer config function filters =>
    exact .configAssigned writer config function filters

/-- **A step keeps the order of the writer**, and the stamp of the configuration rises where the
configuration is assigned, and nowhere else. -/
theorem Progress.step {s t : Generations F Fn} {a : Step F Fn V} (hs : s.Progress)
    (h : s.step a = some t) :
    t.Progress ∧ (a ≠ .assign .config ∧ t.guarded.handler.config = s.guarded.handler.config ∨
      a = .assign .config ∧ s.guarded.handler.config.call < t.guarded.handler.config.call) := by
  cases effect_of_step h with
  | lock f l c writer guarded calls serving =>
    cases hs with
    | idle writer' bound function filters =>
      refine ⟨.locked f l c ?_ ?_, .inl ⟨nofun, by rw [guarded]⟩⟩
      · rw [guarded, calls]
      · rw [guarded, calls]
        exact Nat.lt_succ_of_le bound
    | locked _ _ _ writer' => exact nomatch writer.symm.trans writer'
    | functionAssigned _ _ writer' => exact nomatch writer.symm.trans writer'
    | filtersAssigned _ writer' => exact nomatch writer.symm.trans writer'
    | configAssigned writer' => exact nomatch writer.symm.trans writer'
  | assign a pending writer guarded calls serving =>
    cases hs with
    | idle writer' => exact nomatch writer.symm.trans writer'
    | locked f l c writer' bound =>
      cases writer.symm.trans writer'
      refine ⟨.functionAssigned l c ?_ ?_ ?_, .inl ⟨nofun, by rw [guarded]; rfl⟩⟩ <;>
        rw [guarded, calls]
      · exact bound
      · rfl
    | functionAssigned l c writer' bound function =>
      cases writer.symm.trans writer'
      refine ⟨.filtersAssigned c ?_ ?_ ?_ ?_, .inl ⟨nofun, by rw [guarded]; rfl⟩⟩ <;>
        rw [guarded, calls]
      · exact bound
      · exact function
      · exact fun l' hl' => Option.some.inj hl' ▸ rfl
    | filtersAssigned c writer' bound function filters =>
      cases writer.symm.trans writer'
      refine ⟨.configAssigned ?_ ?_ ?_ ?_, .inr ⟨rfl, ?_⟩⟩
      · rw [guarded]
      · rw [guarded, calls]
        rfl
      · rw [guarded, calls]
        exact function
      · rw [guarded, calls]
        exact filters
      · rw [guarded]
        exact bound
    | configAssigned writer' => exact nomatch writer.symm.trans writer'
  | unlock writer guarded calls serving =>
    cases hs with
    | configAssigned writer' config function filters =>
      refine ⟨.idle ?_ ?_ ?_ ?_, .inl ⟨nofun, by rw [guarded]⟩⟩ <;> rw [guarded]
      · rw [calls]
        exact config.le
      · exact config.trans function.symm
      · exact fun l hl => (filters l hl).trans function.symm
    | idle writer' => exact nomatch writer.symm.trans writer'
    | locked _ _ _ writer' => exact nomatch writer.symm.trans writer'
    | functionAssigned _ _ writer' => exact nomatch writer.symm.trans writer'
    | filtersAssigned _ writer' => exact nomatch writer.symm.trans writer'
  | arrive _ r v new arrives config start guarded calls serving =>
    refine ⟨hs.congr guarded calls, .inl ⟨?_, by rw [guarded]⟩⟩
    rintro rfl
    exact arrives
  | advance _ r v stage known other copies snapshot sound guarded calls serving =>
    exact ⟨hs.congr guarded calls, .inl ⟨other.2 .config, by rw [guarded]⟩⟩

/-- The configuration over a run. -/
theorem Progress.run {s t : Generations F Fn} {as : List (Step F Fn V)} {ok} (hs : s.Progress)
    (h : Run Generations.step ok s as t) :
    t.Progress ∧ s.guarded.handler.config.call ≤ t.guarded.handler.config.call ∧
      (s.guarded.handler.config.call = t.guarded.handler.config.call ↔
        .assign .config ∉ as) := by
  induction h with
  | nil => exact ⟨hs, Nat.le_refl _, by simp only [List.not_mem_nil, not_false_eq_true]⟩
  | cons hok hstep rest ih =>
    obtain ⟨hnext, hconfig⟩ := hs.step hstep
    obtain ⟨hlast, hle, hiff⟩ := ih hnext
    rw [List.mem_cons, not_or, ← hiff]
    rcases hconfig with ⟨hne, heq⟩ | ⟨rfl, hlt⟩
    · rw [← heq]
      exact ⟨hlast, hle, ⟨fun h => ⟨Ne.symm hne, h⟩, And.right⟩⟩
    · refine ⟨hlast, hlt.le.trans hle, ⟨fun h => ?_, fun h => absurd rfl h.1⟩⟩
      exact absurd h (hlt.trans_le hle).ne

/-! ## A request -/

/-- An arrival copies the configuration. -/
theorem serving_of_arrival {s t : Generations F Fn} {a : Step F Fn V} {r : Nat}
    (harrives : a.Arrives r) (h : s.step a = some t) :
    t.guarded = s.guarded ∧ t.calls = s.calls ∧
      ∃ v, t.serving r = some v ∧ v.config = s.guarded.handler.config ∧ v.Sound := by
  cases effect_of_step h with
  | lock => cases harrives
  | assign => cases harrives
  | unlock => cases harrives
  | arrive _ r' v new arrives config start guarded calls serving =>
    obtain rfl : r' = r := by
      cases a with
      | response => exact arrives.symm.trans harrives
      | operator => exact arrives.symm.trans harrives
      | _ => cases arrives
    exact ⟨guarded, calls, v, by rw [serving, Function.update_self], config, sound_of_start start⟩
  | advance _ r' v stage known other => exact absurd harrives (other.1 r)

/-- A request keeps its configuration, and once it has its copies it keeps them. -/
theorem serving_of_step {s t : Generations F Fn} {a : Step F Fn V} {r : Nat} {v : Serving F Fn}
    (hv : s.serving r = some v) (hsound : v.Sound) (h : s.step a = some t) :
    ∃ v', t.serving r = some v' ∧ v'.config = v.config ∧ v'.Sound ∧
      (v.stage.copies = none ∨ v'.stage.copies = v.stage.copies) := by
  have unchanged : t.serving r = s.serving r → ∃ v', t.serving r = some v' ∧
      v'.config = v.config ∧ v'.Sound ∧
        (v.stage.copies = none ∨ v'.stage.copies = v.stage.copies) :=
    fun heq => ⟨v, heq.trans hv, rfl, hsound, .inr rfl⟩
  cases effect_of_step h with
  | lock f l c writer guarded calls serving => exact unchanged (by rw [serving])
  | assign a pending writer guarded calls serving => exact unchanged (by rw [serving])
  | unlock writer guarded calls serving => exact unchanged (by rw [serving])
  | arrive _ r' v' new arrives config start guarded calls serving =>
    by_cases hr : r = r'
    · subst hr
      exact nomatch new.symm.trans hv
    · exact unchanged (by rw [serving, Function.update_of_ne hr])
  | advance _ r' v' stage known other copies snapshot sound guarded calls serving =>
    by_cases hr : r = r'
    · subst hr
      obtain rfl := Option.some.inj (hv.symm.trans known)
      exact ⟨{ v with stage := stage }, by rw [serving, Function.update_self], rfl,
        sound hsound, copies⟩
    · exact unchanged (by rw [serving, Function.update_of_ne hr])

theorem serving_of_run {s t : Generations F Fn} {as : List (Step F Fn V)} {r : Nat}
    {v : Serving F Fn} {ok} (hv : s.serving r = some v) (hsound : v.Sound)
    (h : Run step ok s as t) :
    ∃ v', t.serving r = some v' ∧ v'.config = v.config ∧ v'.Sound ∧
      (v.stage.copies = none ∨ v'.stage.copies = v.stage.copies) := by
  induction h generalizing v with
  | nil => exact ⟨v, hv, rfl, hsound, .inr rfl⟩
  | cons hok hstep rest ih =>
    obtain ⟨w, hw, hwconfig, hwsound, hwcopies⟩ := serving_of_step hv hsound hstep
    obtain ⟨v', hv', hconfig, hsound', hcopies⟩ := ih hw hwsound
    refine ⟨v', hv', hconfig.trans hwconfig, hsound', ?_⟩
    rcases hwcopies with hwcopies | hwcopies
    · exact .inl hwcopies
    · rw [← hwcopies]
      exact hcopies

/-- `handleRequest` copies outside of any reconfiguration. -/
theorem serving_of_snapshot {s t : Generations F Fn} {r : Nat}
    (h : s.step (.snapshot r : Step F Fn V) = some t) :
    s.guarded.writer = none ∧ t.guarded = s.guarded ∧
      ∃ v, t.serving r = some v ∧ v.stage.copies =
        some (s.guarded.handler.handleRequestFunction, s.guarded.handler.accessFilters) := by
  cases effect_of_step h with
  | arrive _ r' v new arrives => cases arrives
  | advance _ r' v stage known other copies snapshot sound guarded calls serving =>
    obtain ⟨rfl, hwriter, hcopies⟩ := snapshot r rfl
    exact ⟨hwriter, guarded, _, by rw [serving, Function.update_self], hcopies⟩

/-- **The parts of a configuration that a request uses.** The function that is invoked and the
filters that are applied always come from one call. The configuration in the connection comes
from the same one exactly when no configuration is assigned between the arrival of the request
and the copies of `handleRequest`. -/
theorem uniform_iff {f : F} {l : Option (AccessFilterList Fn)} {c : Config}
    {before between after : List (Step F Fn V)} {arrival : Step F Fn V} {r : Nat}
    {s : Generations F Fn} (harrives : arrival.Arrives r)
    (h : Run step (fun _ _ => True) (init f l c)
      (before ++ arrival :: between ++ .snapshot r :: after) s) :
    ∃ serving, s.serving r = some serving ∧ serving.Sound ∧
      (∃ f l, serving.stage.copies = some (f, l) ∧
        ∀ filters, l = some filters → filters.call = f.call) ∧
      (serving.Uniform ↔ .assign .config ∉ between) := by
  obtain ⟨s₃, hfirst, hlater⟩ := h.split
  obtain ⟨s₁, hbefore, hbetween⟩ := hfirst.split
  cases hbetween with
  | cons _ harrival hbetween =>
  cases hlater with
  | cons _ hsnapshot hafter =>
  -- the configuration is copied at `s₁`, function and filters at `s₃`
  obtain ⟨hguarded, hcalls, v, hv, hconfig, hsound⟩ := serving_of_arrival harrives harrival
  have hprogress := ((progress_init f l c).run hbefore).1.congr hguarded hcalls
  obtain ⟨hlast, -, hiff⟩ := hprogress.run hbetween
  obtain ⟨hwriter, hguarded', v', hv', hcopies⟩ := serving_of_snapshot hsnapshot
  obtain ⟨w, hw, hwconfig, hwsound, -⟩ := serving_of_run hv hsound hbetween
  obtain ⟨w', hw', hwconfig', hwsound', -⟩ := serving_of_step hw hwsound hsnapshot
  obtain rfl := Option.some.inj (hw'.symm.trans hv')
  obtain ⟨u, hu, huconfig, husound, hucopies⟩ := serving_of_run hw' hwsound' hafter
  rw [hcopies] at hucopies
  have hu' := hucopies.resolve_left nofun
  cases hlast with
  | idle writer bound function filters =>
    refine ⟨u, hu, husound, ⟨_, _, hu', filters⟩, ?_⟩
    rw [← hiff, hguarded, ← hconfig, ← hwconfig, ← hwconfig', ← huconfig, function]
    constructor
    · exact fun h => (h _ _ hu').1
    · intro h f l hcopies'
      rw [hu', Option.some.injEq] at hcopies'
      cases hcopies'
      exact ⟨h, filters⟩
  | locked _ _ _ writer => exact nomatch hwriter.symm.trans writer
  | functionAssigned _ _ writer => exact nomatch hwriter.symm.trans writer
  | filtersAssigned _ writer => exact nomatch hwriter.symm.trans writer
  | configAssigned writer => exact nomatch hwriter.symm.trans writer

/-- Without autostart of sessions, a request that is ready gets its copies in two steps, as long
as nobody reconfigures. -/
theorem run_of_ready {s : Generations F Fn} {r : Nat} {request : Request}
    {config : Stamped Config} (ctx : StartContext) (store : SessionStore V)
    (hv : s.serving r = some ⟨request, config, .ready⟩) (hwriter : s.guarded.writer = none)
    (hauto : config.value.get (bytes "session") (bytes "autostart") ≠ bytes "on") :
    ∃ t v, Run step (fun _ _ => True) s [.construct r ctx store, .snapshot r] t ∧
      t.serving r = some v ∧ v.config = config ∧ v.stage.copies =
        some (s.guarded.handler.handleRequestFunction, s.guarded.handler.accessFilters) := by
  obtain ⟨conn, hconstruct⟩ : ∃ conn,
      Connection.construct request config.value ctx store = (store, conn, .ok ()) := by
    rw [Connection.construct, if_neg hauto]
    exact ⟨_, rfl⟩
  have hfirst : ∃ mid, s.step (.construct r ctx store) = some mid ∧ mid.guarded = s.guarded ∧
      mid.serving r = some ⟨request, config, .constructed conn⟩ := by
    simp only [step, advance, hv, hconstruct]
    exact ⟨_, rfl, rfl, Function.update_self ..⟩
  obtain ⟨mid, hfirst, hguarded, hmid⟩ := hfirst
  have hsecond : ∃ t, mid.step (.snapshot r : Step F Fn V) = some t ∧ t.serving r =
      some ⟨request, config, .handling conn s.guarded.handler.handleRequestFunction
        s.guarded.handler.accessFilters⟩ := by
    have hsnapshot : mid.guarded.snapshot = some (s.guarded.handler.handleRequestFunction,
        s.guarded.handler.accessFilters) :=
      Guarded.snapshot_eq_some.mpr ⟨hguarded ▸ hwriter, by rw [hguarded]⟩
    simp only [step, advance, hmid, hsnapshot]
    exact ⟨_, rfl, Function.update_self ..⟩
  obtain ⟨t, hsecond, ht⟩ := hsecond
  exact ⟨t, _, .cons trivial hfirst (.cons trivial hsecond (.nil t)), ht, rfl, rfl⟩

/-! ## A reconfiguration after the arrival -/

def sampleStart : Generations Nat Unit := init 0 (some {}) {}

def replaceAll : List (Step Nat Unit Unit) :=
  [.lock 1 {} {}, .assign .handleRequestFunction, .assign .accessFilters, .assign .config,
    .unlock]

/-- A request that arrives after a reconfiguration, and has its copies of function and filters. -/
theorem uniform_sample : ∃ (s : Generations Nat Unit) (serving : Serving Nat Unit),
    s.serving 0 = some serving ∧ serving.Uniform ∧ serving.config.call = 1 ∧
      serving.stage.copies = some (⟨1, 1⟩, some ⟨{}, 1⟩) := by
  have harrived : ∃ s, Run step (fun _ _ => True) sampleStart
      (replaceAll ++ [.response 0 {}]) s ∧
        s.serving 0 = some ⟨{}, ⟨{}, 1⟩, .ready⟩ ∧ s.guarded.writer = none ∧
          s.guarded.handler.handleRequestFunction = ⟨1, 1⟩ ∧
            s.guarded.handler.accessFilters = some ⟨{}, 1⟩ :=
    ⟨_, .cons trivial rfl (.cons trivial rfl (.cons trivial rfl (.cons trivial rfl
      (.cons trivial rfl (.cons trivial rfl (.nil _)))))), rfl, rfl, rfl, rfl⟩
  obtain ⟨s, harrived, hready, hwriter, hfunction, hfilters⟩ := harrived
  obtain ⟨t, v, hlast, hv, hconfig, hcopies⟩ :=
    run_of_ready ⟨0, [], 0⟩ (.empty : SessionStore Unit) hready hwriter (by decide)
  have hrun : Run step (fun _ _ => True) sampleStart
      (replaceAll ++ .response 0 {} :: [.construct 0 ⟨0, [], 0⟩ .empty] ++ .snapshot 0 :: []) t :=
    harrived.append hlast
  have harrives : (Step.response 0 {} : Step Nat Unit Unit).Arrives 0 := rfl
  obtain ⟨serving, hserving, -, -, hiff⟩ := uniform_iff harrives hrun
  obtain rfl := Option.some.inj (hserving.symm.trans hv)
  rw [hfunction, hfilters] at hcopies
  exact ⟨t, serving, hserving, hiff.mpr (by simp), congrArg Stamped.call hconfig, hcopies⟩

/-- Everything is replaced while a request has its copy of the configuration and no copies of
function and filters yet: it goes on with the configuration of the start and the function of the
first call. -/
theorem not_uniform_replaced : ¬ ∀ (steps : List (Step Nat Unit Unit))
    (s : Generations Nat Unit), Run step (fun _ _ => True) sampleStart steps s →
      ∀ r serving, s.serving r = some serving → serving.Uniform := by
  intro hall
  have harrived : ∃ s, Run step (fun _ _ => True) sampleStart
      (.response 0 {} :: replaceAll) s ∧ s.serving 0 = some ⟨{}, ⟨{}, 0⟩, .ready⟩ ∧
        s.guarded.writer = none ∧ s.guarded.handler.handleRequestFunction.call = 1 :=
    ⟨_, .cons trivial rfl (.cons trivial rfl (.cons trivial rfl (.cons trivial rfl
      (.cons trivial rfl (.cons trivial rfl (.nil _)))))), rfl, rfl, rfl⟩
  obtain ⟨s, harrived, hready, hwriter, hfunction⟩ := harrived
  obtain ⟨t, v, hlast, hv, hconfig, hcopies⟩ :=
    run_of_ready ⟨0, [], 0⟩ .empty hready hwriter (by decide)
  have huniform := (hall _ t (harrived.append hlast) 0 v hv _ _ hcopies).1
  rw [hconfig, hfunction] at huniform
  exact absurd huniform (by decide)

end Generations

end Nawa
