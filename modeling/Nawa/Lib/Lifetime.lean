import Mathlib.Data.List.Basic

/-!
# Objects that have something to close

An object is used by calls, each with events, and in the end it is destroyed. Until it is closed it
owes some closing events: those that it owed in the beginning, and one for each event that opens
something. Once it is closed, by a call or by its destructor, nothing happens any more. `whole_life`
says so of a whole life, from what each call does.
-/

namespace Lib.Lifetime

variable {σ κ ε : Type*}

/-- The events of the calls and of the destructor. -/
def events (step : σ → κ → σ × List ε) (destroy : σ → List ε) : σ → List κ → List ε
  | s, [] => destroy s
  | s, call :: calls => (step s call).2 ++ events step destroy (step s call).1 calls

/-- The state after some calls. -/
def after (step : σ → κ → σ × List ε) (s : σ) (calls : List κ) : σ :=
  calls.foldl (fun s call => (step s call).1) s

/-- What the calls and the destructor do about `closed` and `owed`. An event that opens something
is one for which `opens` has a closing event; closing events are those with `closes`. -/
structure Closes (step : σ → κ → σ × List ε) (destroy : σ → List ε) (closed : σ → Prop)
    (owed : σ → List ε) (opens : ε → Option ε) (closes : ε → Prop) : Prop where
  silent : ∀ s call, closed s → closed (step s call).1 ∧ (step s call).2 = []
  destroyed : ∀ s, closed s → destroy s = []
  step : ∀ s call, ¬ closed s →
    closed (step s call).1 ∧ (step s call).2 = owed s ∨
      ¬ closed (step s call).1 ∧ (∀ e ∈ (step s call).2, ¬ closes e) ∧
        owed (step s call).1 = owed s ++ (step s call).2.filterMap opens
  destroy : ∀ s, ¬ closed s → ∃ last, destroy s = last ++ owed s ∧
    (∀ e ∈ last, ¬ closes e) ∧ last.filterMap opens = []

variable {step : σ → κ → σ × List ε} {destroy : σ → List ε} {closed : σ → Prop}
  {owed : σ → List ε} {opens : ε → Option ε} {closes : ε → Prop}

theorem Closes.events_of_closed (h : Closes step destroy closed owed opens closes) {s : σ}
    (hs : closed s) (calls : List κ) : events step destroy s calls = [] := by
  induction calls generalizing s with
  | nil => exact h.destroyed s hs
  | cons call calls ih =>
    obtain ⟨hclosed, hnone⟩ := h.silent s call hs
    rw [events, hnone, ih hclosed, List.append_nil]

/-- **What is owed is paid once, and nothing comes after it.** -/
theorem Closes.whole_life (h : Closes step destroy closed owed opens closes) {s : σ}
    (hs : ¬ closed s) (calls : List κ) :
    ∃ before, events step destroy s calls = before ++ (owed s ++ before.filterMap opens) ∧
      ∀ e ∈ before, ¬ closes e := by
  induction calls generalizing s with
  | nil =>
    obtain ⟨last, hlast, hopen, hnone⟩ := h.destroy s hs
    refine ⟨last, ?_, hopen⟩
    rw [events, hlast, hnone, List.append_nil]
  | cons call calls ih =>
    rcases h.step s call hs with ⟨hclosed, hpaid⟩ | ⟨hopen, hquiet, howed⟩
    · refine ⟨[], ?_, fun e he => absurd he List.not_mem_nil⟩
      rw [events, h.events_of_closed hclosed, hpaid, List.append_nil, List.nil_append,
        List.filterMap_nil, List.append_nil]
    · obtain ⟨before, hbefore, hrest⟩ := ih hopen
      refine ⟨(step s call).2 ++ before, ?_, List.forall_mem_append.mpr ⟨hquiet, hrest⟩⟩
      rw [events, hbefore, howed, List.filterMap_append]
      simp only [List.append_assoc]

end Lib.Lifetime
