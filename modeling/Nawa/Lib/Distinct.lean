import Mathlib.Data.List.Basic
import Mathlib.Data.List.Nodup

/-!
# Repetitions in long lists

A test for repetitions that takes one step for each element: the elements are numbers below some
bound, and a number with one bit for each of them says which ones have been met. Elements of
another kind are first given numbers, in any way that tells those of the list apart.
-/

namespace Lib.Distinct

/-- `seen` has a bit for each number that has been met. -/
def distinctFrom : Nat → List Nat → Bool
  | _, [] => true
  | seen, n :: l => !seen.testBit n && distinctFrom (seen ||| 1 <<< n) l

theorem distinctFrom_sound {seen : Nat} {l : List Nat} (h : distinctFrom seen l = true) :
    l.Nodup ∧ ∀ n ∈ l, seen.testBit n = false := by
  induction l generalizing seen with
  | nil => exact ⟨List.nodup_nil, nofun⟩
  | cons n l ih =>
    rw [distinctFrom, Bool.and_eq_true, Bool.not_eq_true'] at h
    obtain ⟨hnodup, hseen⟩ := ih h.2
    have hbit : ∀ m ∈ l, seen.testBit m = false ∧ m ≠ n := by
      intro m hm
      have hm' := hseen m hm
      rw [Nat.testBit_or, Bool.or_eq_false_iff] at hm'
      refine ⟨hm'.1, ?_⟩
      rintro rfl
      simp [Nat.testBit_shiftLeft] at hm'
    refine ⟨List.nodup_cons.mpr ⟨fun hn => (hbit n hn).2 rfl, hnodup⟩, ?_⟩
    rw [List.forall_mem_cons]
    exact ⟨h.1, fun m hm => (hbit m hm).1⟩

/-- A list has no repetitions when the numbers of its elements have none. -/
theorem nodup_of_distinct {α : Type*} {number : α → Nat} {l : List α}
    (h : distinctFrom 0 (l.map number) = true) : l.Nodup :=
  (distinctFrom_sound h).1.of_map number

end Lib.Distinct
