import Nawa.Laws.Session.GarbageCollection
import Nawa.Laws.Session.Outcomes

/-!
# When `start` returns

`Session::start` reads two numbers from the configuration. One that is missing or malformed is
replaced by its default, one that is out of range escapes as an exception, and a divisor of 0 is
divided by.
-/

namespace Nawa

variable {V : Type}

namespace Session

/-- All ids of the store are such as `generateID` makes. -/
def SessionIDs (store : SessionStore V) : Prop :=
  ∀ id a, store.sessionData id = some a → IsSessionID id

theorem sessionIDs_empty : SessionIDs (SessionStore.empty : SessionStore V) := by
  intro id a h
  cases h

/-- No call enters an id that `generateID` has not answered. -/
theorem SessionIDs.call {s : Server V} (h : SessionIDs s.store) (time : Int) {call : Call V}
    (hdraws : ∀ d ∈ call.draws, IsSessionID d) : SessionIDs (s.call time call).1.store := by
  intro id a hentry
  by_contra hid
  cases hold : s.store.sessionData id with
  | some b => exact hid (h id b hold)
  | none =>
    have hnone : (s.call time call).1.store.sessionData id = none :=
      Server.sessionData_call hold fun hd => hid (hdraws id hd)
    rw [hnone] at hentry
    cases hentry

/-- Nor does any sequence of calls. -/
theorem sessionIDs_of_calls {s : Server V} (h : SessionIDs s.store) (calls : List (Int × Call V))
    (hdraws : ∀ e ∈ calls, ∀ d ∈ e.2.draws, IsSessionID d) :
    SessionIDs (s.after calls).store := by
  induction calls generalizing s with
  | nil => exact h
  | cons e calls ih =>
    rw [List.forall_mem_cons] at hdraws
    exact ih (h.call e.1 hdraws.1) hdraws.2

/-! ## Numbers -/

/-- The configured number, or the default for one that cannot be used. -/
def documentedNumber (usable : Nat → Bool) (value : Bytes) (default : Nat) : Nat :=
  match stoul value with
  | .ok n => if usable n then n else default
  | .error _ => default

def keepaliveSetting (config : Config) : Bytes := config.get (bytes "session") (bytes "keepalive")

def divisorSetting (config : Config) : Bytes := config.get (bytes "session") (bytes "gc_divisor")

/-- The keepalive is given, or its text is no number that is out of range. -/
def KeepaliveReadable (config : Config) (keepalive : Option Nat) : Prop :=
  keepalive = none → stoul (keepaliveSetting config) ≠ .error .outOfRange

def DivisorReadable (config : Config) : Prop :=
  stoul (divisorSetting config) ≠ .error .outOfRange

def DivisorZero (config : Config) : Prop := stoul (divisorSetting config) = .ok 0

theorem configNumber_cases (value : Bytes) (default : Nat) :
    (stoul value = .error .outOfRange ∧
      configNumber value default = .error (.std .outOfRange)) ∨
    (stoul value ≠ .error .outOfRange ∧
      configNumber value default = .ok (documentedNumber (fun _ => true) value default)) := by
  by_cases hnil : value = []
  · subst hnil
    exact .inr ⟨nofun, rfl⟩
  · rw [configNumber, if_neg hnil, documentedNumber]
    cases hread : stoul value with
    | ok n => exact .inr ⟨nofun, rfl⟩
    | error e =>
      cases e with
      | invalidArgument => exact .inr ⟨nofun, rfl⟩
      | outOfRange => exact .inl ⟨rfl, rfl⟩
      | rangeError | lengthError =>
        rw [stoul] at hread
        dsimp only at hread
        split at hread
        · cases hread
        · split at hread <;> cases hread

theorem sessionKeepalive_cases (config : Config) (keepalive : Option Nat) :
    (¬ KeepaliveReadable config keepalive ∧
      sessionKeepalive config keepalive = .error (.std .outOfRange)) ∨
    (KeepaliveReadable config keepalive ∧ sessionKeepalive config keepalive =
      .ok (keepalive.getD (documentedNumber (fun _ => true) (keepaliveSetting config) 1800))) := by
  cases keepalive with
  | some k => exact .inr ⟨nofun, rfl⟩
  | none =>
    refine (configNumber_cases (keepaliveSetting config) 1800).imp ?_ ?_
    · exact fun h => ⟨fun hreadable => hreadable rfl h.1, h.2⟩
    · exact fun h => ⟨fun _ => h.1, h.2⟩

/-- The collector's part ends well with a divisor that is read as a positive number, or not read
at all. -/
theorem collectorResult_cases (config : Config) :
    (¬ DivisorReadable config ∧ collectorResult config = .error (.std .outOfRange)) ∨
    (DivisorReadable config ∧ DivisorZero config ∧ collectorResult config = .error .undefined) ∨
    (DivisorReadable config ∧ ¬ DivisorZero config ∧ collectorResult config = .ok () ∧
      gcDivisor config = .ok (documentedNumber (· ≠ 0) (divisorSetting config) 100)) := by
  rcases configNumber_cases (divisorSetting config) 100 with ⟨hrange, hnumber⟩ | ⟨hrange, hnumber⟩
  · refine .inl ⟨not_not_intro hrange, ?_⟩
    rw [collectorResult, gcDivisor, ← divisorSetting, hnumber]
  · refine .inr ?_
    rw [collectorResult, gcDivisor, ← divisorSetting, hnumber, DivisorZero]
    dsimp only
    rw [documentedNumber, documentedNumber]
    cases hread : stoul (divisorSetting config) with
    | error e => exact .inr ⟨hrange, error_ne_ok _ _, rfl, rfl⟩
    | ok n =>
      dsimp only
      by_cases hzero : n = 0
      · subst hzero
        exact .inl ⟨hrange, rfl, rfl⟩
      · have hne : ¬ (Except.ok n : Except StdException Nat) = .ok 0 := by
          rintro h
          exact hzero (Except.ok.inj h)
        refine .inr ⟨hrange, hne, if_neg hzero, ?_⟩
        rw [if_pos (decide_eq_true hzero), if_pos rfl]

/-! ## `start(id)` -/

/-- A call that returns, having worked with the configured numbers or with the defaults. -/
structure Safe {α : Type} (config : Config) (keepalive : Option Nat) (established : Bool)
    (result : Except Failure α) : Prop where
  returns : ∃ answer, result = .ok answer
  keepalive : established = false → sessionKeepalive config keepalive =
    .ok (keepalive.getD (documentedNumber (fun _ => true) (keepaliveSetting config) 1800))
  divisor : established = false →
    gcDivisor config = .ok (documentedNumber (· ≠ 0) (divisorSetting config) 100)

/-- The numbers that a call reads can be used. -/
structure NumbersUsable (config : Config) (keepalive : Option Nat) : Prop where
  keepalive : KeepaliveReadable config keepalive
  divisor : DivisorReadable config
  nonzero : ¬ DivisorZero config

theorem NumbersUsable.safe {α : Type} {config : Config} {keepalive : Option Nat}
    (h : NumbersUsable config keepalive) (established : Bool) {result : Except Failure α}
    (hresult : ∃ answer, result = .ok answer) : Safe config keepalive established result := by
  refine ⟨hresult, fun _ => ?_, fun _ => ?_⟩
  · rcases sessionKeepalive_cases config keepalive with ⟨hnot, -⟩ | ⟨-, heq⟩
    · exact absurd h.keepalive hnot
    · exact heq
  · rcases collectorResult_cases config with ⟨hnot, -⟩ | ⟨-, hzero, -⟩ | ⟨-, -, -, heq⟩
    · exact absurd h.divisor hnot
    · exact absurd hzero h.nonzero
    · exact heq

theorem keepaliveReadable_iff {config : Config} {keepalive : Option Nat} :
    KeepaliveReadable config keepalive ↔ ∃ k, sessionKeepalive config keepalive = .ok k := by
  rcases sessionKeepalive_cases config keepalive with ⟨hnot, heq⟩ | ⟨hreadable, heq⟩
  · rw [heq]
    exact iff_of_false hnot (not_returns_error _)
  · exact iff_of_true hreadable ⟨_, heq⟩

theorem collectorResult_ok_iff {config : Config} :
    collectorResult config = .ok () ↔ DivisorReadable config ∧ ¬ DivisorZero config := by
  rcases collectorResult_cases config with
    ⟨hnot, heq⟩ | ⟨-, hzero, heq⟩ | ⟨hreadable, hzero, heq, -⟩
  · rw [heq]
    exact iff_of_false (error_ne_ok _ _) fun h => hnot h.1
  · rw [heq]
    exact iff_of_false (error_ne_ok _ _) fun h => h.2 hzero
  · exact iff_of_true heq ⟨hreadable, hzero⟩

theorem numbersUsable_iff {config : Config} {keepalive : Option Nat} :
    NumbersUsable config keepalive ↔
      (∃ k, sessionKeepalive config keepalive = .ok k) ∧ collectorResult config = .ok () := by
  rw [← keepaliveReadable_iff, collectorResult_ok_iff]
  exact ⟨fun h => ⟨h.keepalive, h.divisor, h.nonzero⟩, fun h => ⟨h.1, h.2.1, h.2.2⟩⟩

/-- On an established session nothing is read. -/
theorem Safe.of_established {α : Type} (config : Config) (keepalive : Option Nat)
    {result : Except Failure α} (h : ∃ answer, result = .ok answer) :
    Safe config keepalive true result where
  returns := h
  keepalive := fun hidle => by cases hidle
  divisor := fun hidle => by cases hidle

/-- A call that returns exactly with usable numbers is safe exactly with them. -/
theorem safe_iff_of_returns_iff {α : Type} {config : Config} {keepalive : Option Nat}
    {result : Except Failure α}
    (h : (∃ answer, result = .ok answer) ↔ NumbersUsable config keepalive) :
    Safe config keepalive false result ↔ NumbersUsable config keepalive :=
  ⟨fun hsafe => h.mp hsafe.returns, fun husable => husable.safe false (h.mpr husable)⟩

theorem established_of_some {session : Session} {a : Nat} (h : session.currentData = some a) :
    session.established = true := by
  rw [established, h]
  rfl

theorem established_of_none {session : Session} (h : session.currentData = none) :
    session.established = false := by
  rw [established, h]
  rfl

section Start

variable {config : Config} {remoteAddr sessionId : Bytes} {ctx : StartContext}
  {keepalive : Option Nat} {store : SessionStore V} {session : Session}

/-- A call on an idle connection returns exactly when its numbers can be used. -/
theorem start_returns_iff (hdraws : ∃ d ∈ ctx.draws, store.sessionData d = none)
    (hidle : session.currentData = none) :
    (∃ id, (start config remoteAddr ctx sessionId keepalive store session).result = .ok id) ↔
      NumbersUsable config keepalive := by
  rw [numbersUsable_iff]
  rcases start_cases config remoteAddr ctx sessionId keepalive store hidle with
    ⟨e, he, hstart⟩ | ⟨k, hk, ⟨store', hstart, hnone⟩ | ⟨store', id, a, hstart, -⟩⟩
  · rw [hstart, he]
    exact iff_of_false (not_returns_error e) fun h => not_returns_error e h.1
  · obtain ⟨d, hd, hfresh⟩ := hdraws
    exact absurd hfresh (hnone d hd)
  · obtain ⟨store'', hfinish, -⟩ := finish_cases config ctx store' session a id
    rw [hstart, hfinish, hk]
    cases collectorResult config with
    | error e => exact iff_of_false (not_returns_error e) fun h => error_ne_ok e () h.2
    | ok u => exact iff_of_true ⟨id, rfl⟩ ⟨⟨k, rfl⟩, rfl⟩

theorem start_safe_iff (hdraws : ∃ d ∈ ctx.draws, store.sessionData d = none) :
    Safe config keepalive session.established
        (start config remoteAddr ctx sessionId keepalive store session).result ↔
      session.established = true ∨ NumbersUsable config keepalive := by
  cases hdata : session.currentData with
  | some a =>
    rw [established_of_some hdata]
    refine iff_of_true (.of_established config keepalive ⟨session.currentID, ?_⟩) (.inl rfl)
    rw [start, hdata]
  | none =>
    rw [established_of_none hdata, or_iff_right Bool.false_ne_true]
    exact safe_iff_of_returns_iff (start_returns_iff hdraws hdata)

end Start

end Session

end Nawa
