import Mathlib.Logic.Basic

/-!
# Runs of a step function

A system is a step function `step : σ → α → Option σ` on labelled steps; `none` says that a step
is not enabled. `Run step ok` are its runs in which every step meets the condition `ok`, which is
where an assumption about the surroundings or a restriction to certain runs is stated.
-/

namespace Lib.Transition

variable {σ α : Type*} {step : σ → α → Option σ} {ok : σ → α → Prop}

/-- The runs from one state to another whose steps all meet a condition. -/
inductive Run (step : σ → α → Option σ) (ok : σ → α → Prop) : σ → List α → σ → Prop
  | nil (s : σ) : Run step ok s [] s
  | cons {s t u : σ} {a : α} {as : List α} (hok : ok s a) (hstep : step s a = some t)
      (rest : Run step ok t as u) : Run step ok s (a :: as) u

theorem Run.append {s t u : σ} {as bs : List α} (h : Run step ok s as t)
    (h' : Run step ok t bs u) : Run step ok s (as ++ bs) u := by
  induction h with
  | nil => exact h'
  | cons hok hstep _ ih => exact .cons hok hstep (ih h')

theorem Run.single {s t : σ} {a : α} (hok : ok s a) (hstep : step s a = some t) :
    Run step ok s [a] t :=
  .cons hok hstep (.nil t)

/-- A run over a concatenation passes a state between the two parts. -/
theorem Run.split {s u : σ} {as bs : List α} (h : Run step ok s (as ++ bs) u) :
    ∃ t, Run step ok s as t ∧ Run step ok t bs u := by
  induction as generalizing s with
  | nil => exact ⟨s, .nil s, h⟩
  | cons a as ih =>
    cases h with
    | cons hok hstep rest =>
      obtain ⟨t, hfirst, hsecond⟩ := ih rest
      exact ⟨t, .cons hok hstep hfirst, hsecond⟩

/-- The labels of a run determine its end. -/
theorem Run.unique {ok' : σ → α → Prop} {s t u : σ} {as : List α} (h : Run step ok s as t)
    (h' : Run step ok' s as u) : t = u := by
  induction h with
  | nil =>
    cases h' with
    | nil => rfl
  | cons hok hstep _ ih =>
    cases h' with
    | cons hok' hstep' rest' =>
      rw [hstep] at hstep'
      obtain rfl := Option.some.inj hstep'
      exact ih rest'

/-- **The invariant rule.** What every step preserves, every run preserves. -/
theorem Run.invariant (inv : σ → Prop)
    (preserved : ∀ {s t a}, ok s a → inv s → step s a = some t → inv t)
    {s t : σ} {as : List α} (h : Run step ok s as t) (hs : inv s) : inv t := by
  induction h with
  | nil => exact hs
  | cons hok hstep _ ih => exact ih (preserved hok hs hstep)

/-- The rule for a relation to the state in which a run began, along an invariant. -/
theorem Run.relation (inv rel : σ → Prop)
    (preserved : ∀ {s t a}, ok s a → inv s → step s a = some t → inv t)
    (kept : ∀ {s t a}, ok s a → inv s → rel s → step s a = some t → rel t)
    {s t : σ} {as : List α} (h : Run step ok s as t) (hs : inv s) (hrel : rel s) : rel t :=
  (h.invariant (fun s => inv s ∧ rel s)
    (fun hok hi hstep => ⟨preserved hok hi.1 hstep, kept hok hi.1 hi.2 hstep⟩) ⟨hs, hrel⟩).2

end Lib.Transition
