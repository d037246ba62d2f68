import Nawa.RequestHandler.Lifecycle

/-!
# The whole life of a request handler

Whatever calls are made of a handler one after another and in whatever order, every thread of its
pool is joined once, in the order in which the threads were started, the manager of fastcgi++ is
joined and released once, and nothing happens to either any more after that (`handler_life`). A
handler that has been joined refuses to start only when it had never started before: where it had,
`start` returns as if it were still running.
-/

namespace Nawa

open Lib.Lifetime

/-! ## The HTTP handler -/

/-- The event that joins a started thread. -/
def ServerEvent.joinOf : ServerEvent → Option ServerEvent
  | .run thread => some (.join thread)
  | _ => none

def ServerEvent.IsJoin (e : ServerEvent) : Prop := ∃ thread, e = .join thread

namespace HttpRequestHandler

variable {h : HttpRequestHandler}

theorem filterMap_run (threads : List Nat) :
    (threads.map ServerEvent.run).filterMap ServerEvent.joinOf =
      threads.map ServerEvent.join := by
  rw [List.filterMap_map]
  have hsome : ServerEvent.joinOf ∘ ServerEvent.run = some ∘ ServerEvent.join := rfl
  rw [hsome, List.filterMap_eq_map]

theorem not_isJoin_run (threads : List Nat) :
    ∀ e ∈ threads.map ServerEvent.run, ¬ e.IsJoin := by
  intro e he
  obtain ⟨thread, -, rfl⟩ := List.mem_map.mp he
  rintro ⟨other, heq⟩
  cases heq

theorem not_isJoin_stop : ∀ e ∈ [ServerEvent.stop], ¬ e.IsJoin := by
  intro e he
  obtain rfl := List.mem_singleton.mp he
  rintro ⟨thread, heq⟩
  cases heq

theorem start_of_joined (hjoined : h.joined = true) (available : Nat) :
    (h.start available).1 = h ∧ (h.start available).2.1 = [] := by
  unfold start
  split
  · exact ⟨rfl, rfl⟩
  · exact ⟨rfl, rfl⟩

/-- A start of a handler that has not been joined adds to the pool what it starts. -/
theorem start_of_open (hopen : ¬ h.joined = true) (available : Nat) :
    ∃ threads, (h.start available).2.1 = threads.map .run ∧
      (h.start available).1.threadPool = h.threadPool ++ threads ∧
      (h.start available).1.joined = h.joined := by
  unfold start
  split
  · exact ⟨[], rfl, (List.append_nil _).symm, rfl⟩
  · split
    · dsimp only
      split
      · exact ⟨_, rfl, rfl, rfl⟩
      · exact ⟨_, rfl, rfl, rfl⟩
    · exact ⟨[], rfl, (List.append_nil _).symm, rfl⟩

/-- `stop` and `terminate`, which are the same here, leave the handler as it is. -/
theorem stop_of_open (hopen : ¬ h.joined = true) :
    h.stop.1 = h ∧ (∀ e ∈ h.stop.2, ¬ e.IsJoin) ∧ h.stop.2.filterMap ServerEvent.joinOf = [] := by
  unfold stop
  rw [if_neg hopen]
  split
  · exact ⟨rfl, not_isJoin_stop, rfl⟩
  · exact ⟨rfl, List.forall_mem_nil _, rfl⟩

/-- What the HTTP handler owes are the threads of its pool. -/
theorem closes : Closes call destroy (fun h => h.joined = true)
    (fun h => h.threadPool.map .join) ServerEvent.joinOf ServerEvent.IsJoin where
  silent h call hjoined := by
    cases call with
    | start available =>
      obtain ⟨hsame, hnone⟩ := start_of_joined hjoined available
      exact ⟨hsame.symm ▸ hjoined, hnone⟩
    | stop => simp [HttpRequestHandler.call, stop, hjoined]
    | terminate => simp [HttpRequestHandler.call, terminate, hjoined]
    | join => simp [HttpRequestHandler.call, join, hjoined]
  destroyed h hjoined := by
    simp only [destroy, hjoined, Bool.not_true, Bool.and_false, Bool.false_eq_true, if_false,
      if_true, List.append_nil]
  step h call hopen := by
    cases call with
    | start available =>
      obtain ⟨threads, hevents, hpool, hjoined⟩ := start_of_open hopen available
      refine .inr ⟨?_, ?_, ?_⟩
      · show ¬ (h.start available).1.joined = true
        rwa [hjoined]
      · show ∀ e ∈ (h.start available).2.1, ¬ e.IsJoin
        rw [hevents]
        exact not_isJoin_run threads
      · show (h.start available).1.threadPool.map ServerEvent.join =
          h.threadPool.map ServerEvent.join ++
            (h.start available).2.1.filterMap ServerEvent.joinOf
        rw [hpool, hevents, filterMap_run, List.map_append]
    | stop | terminate =>
      obtain ⟨hsame, hquiet, hnone⟩ := stop_of_open hopen
      refine .inr ⟨?_, hquiet, ?_⟩
      · show ¬ h.stop.1.joined = true
        rwa [hsame]
      · show h.stop.1.threadPool.map ServerEvent.join =
          h.threadPool.map ServerEvent.join ++ h.stop.2.filterMap ServerEvent.joinOf
        rw [hsame, hnone, List.append_nil]
    | join =>
      refine .inl ?_
      simp only [HttpRequestHandler.call, join, if_neg hopen]
      exact ⟨trivial, trivial⟩
  destroy h hopen := by
    refine ⟨if h.requestHandlingActive && !h.joined then [.stop] else [], ?_, ?_, ?_⟩
    · rw [destroy, if_neg hopen]
    · split
      · exact not_isJoin_stop
      · exact List.forall_mem_nil _
    · split
      · rfl
      · rfl

end HttpRequestHandler

/-! ## The FastCGI handler -/

namespace FastcgiRequestHandler

/-- The events with which the manager is given up. -/
def IsClosing (e : ManagerEvent) : Prop := e = .join ∨ e = .release

theorem not_isClosing {e : ManagerEvent} (h : e = .start ∨ e = .stop ∨ e = .terminate) :
    ∀ e' ∈ [e], ¬ IsClosing e' := by
  intro e' he'
  obtain rfl := List.mem_singleton.mp he'
  rcases h with rfl | rfl | rfl
  · rintro (heq | heq) <;> cases heq
  · rintro (heq | heq) <;> cases heq
  · rintro (heq | heq) <;> cases heq

theorem start_of_joined {h : FastcgiRequestHandler} (hjoined : h.joined = true) (starts : Bool) :
    (h.start starts).1 = h ∧ (h.start starts).2.1 = [] := by
  unfold start
  split
  · exact ⟨rfl, rfl⟩
  · exact ⟨rfl, rfl⟩

theorem start_of_open {h : FastcgiRequestHandler} (hopen : ¬ h.joined = true) (starts : Bool) :
    (h.start starts).1.joined = h.joined ∧ ∀ e ∈ (h.start starts).2.1, ¬ IsClosing e := by
  unfold start
  split
  · exact ⟨rfl, List.forall_mem_nil _⟩
  · split
    · split
      · exact ⟨rfl, not_isClosing (.inl rfl)⟩
      · exact ⟨rfl, not_isClosing (.inl rfl)⟩
    · exact ⟨rfl, List.forall_mem_nil _⟩

/-- What the FastCGI handler owes is to join its manager and to release it. -/
theorem closes : Closes call destroy (fun h => h.joined = true) (fun _ => [.join, .release])
    (fun _ => none) IsClosing where
  silent h call hjoined := by
    cases call with
    | start starts =>
      obtain ⟨hsame, hnone⟩ := start_of_joined hjoined starts
      exact ⟨hsame.symm ▸ hjoined, hnone⟩
    | stop => simp [FastcgiRequestHandler.call, stop, hjoined]
    | terminate => simp [FastcgiRequestHandler.call, terminate, hjoined]
    | join => simp [FastcgiRequestHandler.call, join, hjoined]
  destroyed h hjoined := by
    simp only [destroy, hjoined, Bool.not_true, Bool.and_false, Bool.false_eq_true, if_false,
      if_true, List.append_nil]
  step h call hopen := by
    have hnone (es : List ManagerEvent) :
        [ManagerEvent.join, .release] = [.join, .release] ++ es.filterMap fun _ => none := by
      rw [List.filterMap_none, List.append_nil]
    cases call with
    | start starts =>
      obtain ⟨hjoined, hquiet⟩ := start_of_open hopen starts
      refine .inr ⟨?_, hquiet, hnone _⟩
      show ¬ (h.start starts).1.joined = true
      rwa [hjoined]
    | stop =>
      refine .inr ?_
      simp only [FastcgiRequestHandler.call, stop, if_neg hopen]
      split
      · exact ⟨hopen, not_isClosing (.inr (.inl rfl)), hnone _⟩
      · exact ⟨hopen, List.forall_mem_nil _, hnone _⟩
    | terminate =>
      refine .inr ?_
      simp only [FastcgiRequestHandler.call, terminate, if_neg hopen]
      split
      · exact ⟨hopen, not_isClosing (.inr (.inr rfl)), hnone _⟩
      · exact ⟨hopen, List.forall_mem_nil _, hnone _⟩
    | join =>
      simp only [FastcgiRequestHandler.call, join, if_neg hopen]
      split
      · exact .inl ⟨rfl, rfl⟩
      · exact .inr ⟨hopen, List.forall_mem_nil _, hnone _⟩
  destroy h hopen := by
    refine ⟨if h.requestHandlingActive && !h.joined then [.terminate] else [], ?_, ?_, ?_⟩
    · rw [destroy, if_neg hopen]
    · split
      · exact not_isClosing (.inr (.inr rfl))
      · exact List.forall_mem_nil _
    · rw [List.filterMap_none]

end FastcgiRequestHandler

/-- **Every thread is joined once, and the manager is released once**, whatever is called in the
life of a handler when no two calls overlap, and nothing happens to them after that. -/
theorem handler_life :
    (∀ (concurrency : Int) (calls : List HttpRequestHandler.Call),
      ∃ before, HttpRequestHandler.life concurrency calls =
          before ++ before.filterMap ServerEvent.joinOf ∧
        ∀ e ∈ before, ¬ e.IsJoin) ∧
    ∀ calls : List FastcgiRequestHandler.Call,
      ∃ before, FastcgiRequestHandler.life calls = before ++ [.join, .release] ∧
        ∀ e ∈ before, ¬ FastcgiRequestHandler.IsClosing e := by
  refine ⟨fun concurrency calls => ?_, fun calls => ?_⟩
  · have hopen : ¬ (HttpRequestHandler.construct concurrency).joined = true := Bool.false_ne_true
    exact HttpRequestHandler.closes.whole_life hopen calls
  · have hopen : ¬ ({} : FastcgiRequestHandler).joined = true := Bool.false_ne_true
    obtain ⟨before, hbefore, hquiet⟩ := FastcgiRequestHandler.closes.whole_life hopen calls
    rw [List.filterMap_none, List.append_nil] at hbefore
    exact ⟨before, hbefore, hquiet⟩

/-! ## Starting after a join -/

/-- What both handlers remember: whether they have started, and whether they have been joined. -/
structure Phase where
  active : Bool := false
  joined : Bool := false

inductive PhaseCall where
  | start (succeeds : Bool)
  | join
  | other
  deriving DecidableEq

namespace Phase

def call (p : Phase) : PhaseCall → Phase
  | .start succeeds => if p.active || p.joined then p else { p with active := succeeds }
  | .join => { p with joined := true }
  | .other => p

def after (p : Phase) (calls : List PhaseCall) : Phase := calls.foldl call p

/-- Once it is joined, a handler stays as it is. -/
theorem after_of_joined {p : Phase} (h : p.joined = true) (calls : List PhaseCall) :
    p.after calls = p := by
  induction calls with
  | nil => rfl
  | cons c calls ih =>
    have hstep : p.call c = p := by
      cases c with
      | start succeeds => rw [call, h, Bool.or_true, if_pos rfl]
      | join =>
        show ({ p with joined := true } : Phase) = p
        rw [← h]
      | other => rfl
    rw [after, List.foldl_cons, hstep]
    exact ih

theorem after_cons (p : Phase) (c : PhaseCall) (calls : List PhaseCall) :
    p.after (c :: calls) = (p.call c).after calls := rfl

/-- It has started when a start before the first join has succeeded. -/
theorem after_eq {p : Phase} (h : p.joined = false) (calls : List PhaseCall) :
    ((p.after calls).active = true ↔
      p.active = true ∨ .start true ∈ calls.takeWhile (· ≠ .join)) ∧
    ((p.after calls).joined = true ↔ .join ∈ calls) := by
  induction calls generalizing p with
  | nil =>
    have hempty : (p.after []).joined = false := h
    refine ⟨?_, iff_of_false (by rw [hempty]; exact Bool.false_ne_true) List.not_mem_nil⟩
    exact (or_iff_left List.not_mem_nil).symm
  | cons c calls ih =>
    rw [after_cons]
    cases c with
    | join =>
      have hclosed : (p.call .join).after calls = { p with joined := true } :=
        after_of_joined rfl calls
      rw [hclosed]
      refine ⟨?_, iff_of_true rfl List.mem_cons_self⟩
      exact (or_iff_left List.not_mem_nil).symm
    | other =>
      obtain ⟨hactive, hjoined⟩ := ih h
      refine ⟨hactive.trans ?_, hjoined.trans ?_⟩
      · rw [List.takeWhile_cons_of_pos (by decide), List.mem_cons]
        simp only [reduceCtorEq, false_or]
      · rw [List.mem_cons]
        simp only [reduceCtorEq, false_or]
    | start succeeds =>
      have hcall : (p.call (.start succeeds)).joined = false ∧
          (p.call (.start succeeds)).active = (p.active || succeeds) := by
        rw [call, h, Bool.or_false]
        by_cases hactive : p.active = true
        · rw [if_pos hactive, hactive, Bool.true_or]
          exact ⟨h, rfl⟩
        · rw [if_neg hactive, Bool.eq_false_iff.mpr hactive, Bool.false_or]
          exact ⟨rfl, rfl⟩
      obtain ⟨hactive, hjoined⟩ := ih hcall.1
      refine ⟨hactive.trans ?_, hjoined.trans ?_⟩
      · have htake : (.start succeeds :: calls).takeWhile (· ≠ PhaseCall.join) =
            .start succeeds :: calls.takeWhile (· ≠ .join) :=
          List.takeWhile_cons_of_pos (decide_eq_true nofun)
        rw [hcall.2, htake, List.mem_cons, Bool.or_eq_true, or_assoc]
        simp only [PhaseCall.start.injEq, eq_comm]
      · rw [List.mem_cons]
        simp only [reduceCtorEq, false_or]

/-- A handler of this phase refuses to start. -/
def Refuses (p : Phase) : Prop := p.active = false ∧ p.joined = true

theorem refuses_after_iff (calls : List PhaseCall) :
    (({} : Phase).after calls).Refuses ↔
      .join ∈ calls ∧ .start true ∉ calls.takeWhile (· ≠ .join) := by
  obtain ⟨hactive, hjoined⟩ := after_eq (p := {}) rfl calls
  rw [Refuses, hjoined, ← Bool.not_eq_true, hactive, or_iff_right Bool.false_ne_true, and_comm]

end Phase

namespace HttpRequestHandler

def phase (h : HttpRequestHandler) : Phase := ⟨h.requestHandlingActive, h.joined⟩

/-- A start succeeds when all the threads can be had. -/
def Call.phase (concurrency : Nat) : Call → PhaseCall
  | .start available => .start (concurrency ≤ available)
  | .join => .join
  | _ => .other

theorem phase_call {h : HttpRequestHandler} (hserver : h.server = true) (c : Call) :
    (h.call c).1.phase = h.phase.call (c.phase h.concurrency) ∧
      (h.call c).1.server = true ∧ (h.call c).1.concurrency = h.concurrency := by
  obtain ⟨server, concurrency, threadPool, active, joined⟩ := h
  obtain rfl : server = true := hserver
  cases c with
  | start available =>
    cases active with
    | true => exact ⟨rfl, rfl, rfl⟩
    | false =>
      cases joined with
      | true => exact ⟨rfl, rfl, rfl⟩
      | false =>
        by_cases hroom : concurrency ≤ available
        · simp [call, start, phase, Phase.call, Call.phase, hroom]
        · simp [call, start, phase, Phase.call, Call.phase, hroom]
  | stop => cases joined <;> exact ⟨rfl, rfl, rfl⟩
  | terminate => cases joined <;> exact ⟨rfl, rfl, rfl⟩
  | join => cases joined <;> exact ⟨rfl, rfl, rfl⟩

theorem phase_after {h : HttpRequestHandler} (hserver : h.server = true) (calls : List Call) :
    (after call h calls).phase = h.phase.after (calls.map (Call.phase h.concurrency)) := by
  induction calls generalizing h with
  | nil => rfl
  | cons c calls ih =>
    obtain ⟨hphase, hnext, hconcurrency⟩ := phase_call hserver c
    rw [List.map_cons, Phase.after_cons, ← hphase, ← hconcurrency]
    exact ih hnext

theorem start_refuses_iff (h : HttpRequestHandler) (available : Nat) :
    (h.start available).2.2 = .error alreadyJoined ↔ h.phase.Refuses := by
  obtain ⟨server, concurrency, threadPool, active, joined⟩ := h
  cases active with
  | true => exact iff_of_false nofun fun hno => absurd hno.1 nofun
  | false =>
    cases joined with
    | true => exact iff_of_true rfl ⟨rfl, rfl⟩
    | false =>
      refine iff_of_false ?_ fun hno => absurd hno.2 nofun
      cases server with
      | false => simp [start, notAvailable, alreadyJoined]
      | true =>
        by_cases hroom : concurrency ≤ available
        · simp [start, hroom]
        · simp [start, hroom, startFailed, alreadyJoined]

end HttpRequestHandler

namespace FastcgiRequestHandler

def phase (h : FastcgiRequestHandler) : Phase := ⟨h.requestHandlingActive, h.joined⟩

def Call.phase : Call → PhaseCall
  | .start starts => .start starts
  | .join => .join
  | _ => .other

/-- The manager is there until the handler is joined. -/
def Holds (h : FastcgiRequestHandler) : Prop := h.fastcgippManager = !h.joined

theorem phase_call {h : FastcgiRequestHandler} (hholds : h.Holds) (c : Call) :
    (h.call c).1.phase = h.phase.call c.phase ∧ (h.call c).1.Holds := by
  obtain ⟨manager, active, joined⟩ := h
  obtain rfl : manager = !joined := hholds
  cases c with
  | start starts => cases active <;> cases joined <;> cases starts <;> exact ⟨rfl, rfl⟩
  | stop => cases joined <;> exact ⟨rfl, rfl⟩
  | terminate => cases joined <;> exact ⟨rfl, rfl⟩
  | join => cases joined <;> exact ⟨rfl, rfl⟩

theorem phase_after {h : FastcgiRequestHandler} (hholds : h.Holds) (calls : List Call) :
    (after call h calls).phase = h.phase.after (calls.map Call.phase) := by
  induction calls generalizing h with
  | nil => rfl
  | cons c calls ih =>
    obtain ⟨hphase, hnext⟩ := phase_call hholds c
    rw [List.map_cons, Phase.after_cons, ← hphase]
    exact ih hnext

theorem start_refuses_iff (h : FastcgiRequestHandler) (starts : Bool) :
    (h.start starts).2.2 = .error alreadyJoined ↔ h.phase.Refuses := by
  obtain ⟨manager, active, joined⟩ := h
  cases active with
  | true => exact iff_of_false nofun fun hno => absurd hno.1 nofun
  | false =>
    cases joined with
    | true => exact iff_of_true rfl ⟨rfl, rfl⟩
    | false =>
      refine iff_of_false ?_ fun hno => absurd hno.2 nofun
      cases manager <;> cases starts <;> simp [start, startFailed, notAvailable, alreadyJoined]

end FastcgiRequestHandler

/-- **A handler that has been joined refuses to start exactly when it had not started before**,
in the same way for both handlers. -/
theorem start_refused_iff :
    (∀ (concurrency : Int) (calls : List HttpRequestHandler.Call) (available : Nat),
      let phases := calls.map (HttpRequestHandler.Call.phase
        (HttpRequestHandler.construct concurrency).concurrency)
      ((after HttpRequestHandler.call (.construct concurrency) calls).start available).2.2 =
          .error HttpRequestHandler.alreadyJoined ↔
        .join ∈ phases ∧ .start true ∉ phases.takeWhile (· ≠ .join)) ∧
    ∀ (calls : List FastcgiRequestHandler.Call) (starts : Bool),
      let phases := calls.map FastcgiRequestHandler.Call.phase
      ((after FastcgiRequestHandler.call {} calls).start starts).2.2 =
          .error FastcgiRequestHandler.alreadyJoined ↔
        .join ∈ phases ∧ .start true ∉ phases.takeWhile (· ≠ .join) := by
  refine ⟨fun concurrency calls available => ?_, fun calls starts => ?_⟩
  · have hserver : (HttpRequestHandler.construct concurrency).server = true := rfl
    rw [HttpRequestHandler.start_refuses_iff, HttpRequestHandler.phase_after hserver]
    exact Phase.refuses_after_iff _
  · have hholds : ({} : FastcgiRequestHandler).Holds := rfl
    rw [FastcgiRequestHandler.start_refuses_iff, FastcgiRequestHandler.phase_after hholds]
    exact Phase.refuses_after_iff _

end Nawa
