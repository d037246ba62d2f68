import Mathlib.Logic.Basic

/-!
# Ordered lists of rules

The first rule of a list whose condition holds decides, and its position identifies it. The rules
that stand before it have been passed over; what stands behind it plays no part.
-/

namespace Lib.FirstMatch

variable {α : Type*}

/-- `a` stands at position `n` and is the first element with the property. -/
structure IsFirst (P : α → Prop) (l : List α) (n : Nat) (a : α) : Prop where
  get : l[n]? = some a
  holds : P a
  skipped : ∀ m < n, ∀ b, l[m]? = some b → ¬ P b

variable {P : α → Prop} {l : List α} {a b : α} {n m : Nat}

theorem isFirst_cons_of_pos (ha : P a) : IsFirst P (a :: l) n b ↔ n = 0 ∧ b = a := by
  constructor
  · intro h
    cases n with
    | zero => exact ⟨rfl, (Option.some.inj h.get).symm⟩
    | succ n => exact absurd ha (h.skipped 0 (Nat.succ_pos n) a rfl)
  · rintro ⟨rfl, rfl⟩
    exact ⟨rfl, ha, fun m hm => absurd hm (Nat.not_lt_zero m)⟩

theorem isFirst_cons_of_neg (ha : ¬ P a) :
    IsFirst P (a :: l) n b ↔ ∃ m, n = m + 1 ∧ IsFirst P l m b := by
  constructor
  · intro h
    cases n with
    | zero => exact absurd (Option.some.inj h.get ▸ h.holds) ha
    | succ n =>
      refine ⟨n, rfl, h.get, h.holds, ?_⟩
      intro m hm c hc
      exact h.skipped (m + 1) (Nat.succ_lt_succ hm) c hc
  · rintro ⟨n, rfl, h⟩
    refine ⟨h.get, h.holds, ?_⟩
    intro m hm c hc
    cases m with
    | zero => exact Option.some.inj hc ▸ ha
    | succ m => exact h.skipped m (Nat.lt_of_succ_lt_succ hm) c hc

/-- The first element is the only one. -/
theorem IsFirst.unique (h : IsFirst P l n a) (h' : IsFirst P l m b) : n = m ∧ a = b := by
  have hle : ∀ {n m a b}, IsFirst P l n a → IsFirst P l m b → m ≤ n := by
    intro n m a b h h'
    exact Nat.not_lt.mp fun hlt => h'.skipped n hlt a h.get h.holds
  obtain rfl : n = m := Nat.le_antisymm (hle h' h) (hle h h')
  exact ⟨rfl, Option.some.inj (h.get.symm.trans h'.get)⟩

/-! ## How far a search comes -/

/-- The search looks at an element: nothing before it has the property. -/
def Reached (P : α → Prop) (l : List α) (a : α) : Prop :=
  ∃ before after, l = before ++ a :: after ∧ ∀ b ∈ before, ¬ P b

theorem not_reached_nil : ¬ Reached P [] a := by
  rintro ⟨before, after, heq, -⟩
  exact absurd heq.symm (List.append_ne_nil_of_right_ne_nil before (List.cons_ne_nil a after))

theorem reached_cons_iff : Reached P (a :: l) b ↔ b = a ∨ ¬ P a ∧ Reached P l b := by
  constructor
  · rintro ⟨before, after, heq, hbefore⟩
    cases before with
    | nil => exact .inl (List.cons.inj heq).1.symm
    | cons c before =>
      obtain ⟨rfl, rfl⟩ := List.cons.inj heq
      rw [List.forall_mem_cons] at hbefore
      exact .inr ⟨hbefore.1, before, after, rfl, hbefore.2⟩
  · rintro (rfl | ⟨ha, before, after, rfl, hbefore⟩)
    · exact ⟨[], l, rfl, fun c hc => absurd hc List.not_mem_nil⟩
    · exact ⟨a :: before, after, rfl, List.forall_mem_cons.mpr ⟨ha, hbefore⟩⟩

end Lib.FirstMatch
