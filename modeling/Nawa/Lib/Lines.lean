import Mathlib.Data.List.Basic
import Mathlib.Data.List.Infix

/-!
# Lines of bounded length, and what stands behind an element

A sequence is cut into lines by the elements that end one. `Fits` says that no line is longer
than a limit, where the first line has come some way already; a writer that keeps count of its
column proves it element by element. What it says of the sequence is `Fits.length_le`.

`AfterEach` says that behind each element of a kind the rest of the sequence is as it should be,
and is proved element by element as well.
-/

namespace Lib.Lines

variable {α : Type*} {ends : α → Bool} {limit column : Nat}

/-- No line is longer than the limit. `column` elements stand in front, on the first line. -/
def Fits (ends : α → Bool) (limit : Nat) : Nat → List α → Prop
  | column, [] => column ≤ limit
  | column, x :: s =>
    if ends x then column ≤ limit ∧ Fits ends limit 0 s else Fits ends limit (column + 1) s

/-- Elements of one line move the column on. -/
theorem fits_append_run {run s : List α} (h : ∀ x ∈ run, ends x = false) :
    Fits ends limit column (run ++ s) ↔ Fits ends limit (column + run.length) s := by
  induction run generalizing column with
  | nil => exact Iff.rfl
  | cons x run ih =>
    rw [List.forall_mem_cons] at h
    rw [List.cons_append, Fits, h.1, if_neg Bool.false_ne_true, ih h.2, List.length_cons,
      Nat.add_assoc, Nat.add_comm 1]

/-- The end of a line, of one element or more. -/
theorem fits_append_end {ending s : List α} (hne : ending ≠ []) (h : ∀ x ∈ ending, ends x = true) :
    Fits ends limit column (ending ++ s) ↔ column ≤ limit ∧ Fits ends limit 0 s := by
  induction ending generalizing column with
  | nil => exact absurd rfl hne
  | cons x ending ih =>
    rw [List.forall_mem_cons] at h
    rw [List.cons_append, Fits, h.1, if_pos rfl]
    cases ending with
    | nil => exact Iff.rfl
    | cons y ending =>
      rw [ih (List.cons_ne_nil y ending) h.2]
      exact and_congr_right fun _ => and_iff_right (Nat.zero_le limit)

theorem Fits.column_le {s : List α} (h : Fits ends limit column s) : column ≤ limit := by
  induction s generalizing column with
  | nil => exact h
  | cons x s ih =>
    rw [Fits] at h
    split at h
    · exact h.1
    · exact Nat.le_of_succ_le (ih h)

theorem Fits.of_append {before s : List α} (h : Fits ends limit column (before ++ s)) :
    ∃ column', Fits ends limit column' s := by
  induction before generalizing column with
  | nil => exact ⟨column, h⟩
  | cons x before ih =>
    rw [List.cons_append, Fits] at h
    split at h
    · exact ih h.2
    · exact ih h

/-- A run of elements of one line is not longer than the limit. -/
theorem Fits.length_le {run s : List α} (h : Fits ends limit column s) (hrun : run <:+: s)
    (hline : ∀ x ∈ run, ends x = false) : run.length ≤ limit := by
  obtain ⟨before, after, rfl⟩ := hrun
  rw [List.append_assoc] at h
  obtain ⟨column', h⟩ := h.of_append
  rw [fits_append_run hline] at h
  have hle := h.column_le
  omega

/-! ## Behind an element -/

/-- Behind each element of the kind, the rest is as it should be. -/
def AfterEach (kind : α → Prop) (good : List α → Prop) (s : List α) : Prop :=
  ∀ x rest, x :: rest <:+ s → kind x → good rest

variable {kind : α → Prop} {good : List α → Prop}

theorem afterEach_nil : AfterEach kind good [] := by
  intro x rest h
  exact absurd (List.suffix_nil.mp h) (List.cons_ne_nil x rest)

theorem afterEach_cons {x : α} {s : List α} :
    AfterEach kind good (x :: s) ↔ (kind x → good s) ∧ AfterEach kind good s := by
  constructor
  · intro h
    refine ⟨h x s (List.suffix_refl _), fun y rest hrest => ?_⟩
    exact h y rest (hrest.trans (List.suffix_cons x s))
  · rintro ⟨hhead, htail⟩ y rest hrest
    rcases List.suffix_cons_iff.mp hrest with heq | hrest
    · obtain ⟨rfl, rfl⟩ := List.cons.inj heq
      exact hhead
    · exact htail y rest hrest

/-- Elements of other kinds play no part. -/
theorem afterEach_append {w s : List α} (h : ∀ x ∈ w, ¬ kind x) :
    AfterEach kind good (w ++ s) ↔ AfterEach kind good s := by
  induction w with
  | nil => exact Iff.rfl
  | cons x w ih =>
    rw [List.forall_mem_cons] at h
    rw [List.cons_append, afterEach_cons, ih h.2]
    exact and_iff_right fun hx => absurd hx h.1

end Lib.Lines
