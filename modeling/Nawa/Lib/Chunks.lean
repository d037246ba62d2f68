import Mathlib.Data.List.Basic
import Mathlib.Data.List.Infix

/-!
# Streams in stretches

A stream that arrives in stretches of any size, as the list of the stretches. What matters of a
stretch here is where it ends: `exists_reaching` finds the one with which a given number of
elements is first reached, and `ends_at_iff` says when some stretch ends exactly there.
-/

namespace Lib.Chunks

variable {α : Type*} {arrived before l : List (List α)} {x : List α} {n : Nat}

theorem length_flatten_le (h : arrived <+: l) : arrived.flatten.length ≤ l.flatten.length :=
  h.flatten.length_le

/-- The first elements of a stream have arrived with a stretch that ends behind them. -/
theorem flatten_eq_take (h : arrived <+: l) (hn : arrived.flatten.length = n) :
    arrived.flatten = l.flatten.take n :=
  hn ▸ List.prefix_iff_eq_take.mp h.flatten

/-- A stretch with which a number of elements is first reached. -/
theorem exists_reaching (hn : 0 < n) (h : n ≤ l.flatten.length) :
    ∃ before x, before ++ [x] <+: l ∧ before.flatten.length < n ∧
      n ≤ (before ++ [x]).flatten.length := by
  induction l using List.reverseRecOn with
  | nil => exact absurd h (Nat.not_le.mpr hn)
  | append_singleton l x ih =>
    by_cases hl : n ≤ l.flatten.length
    · obtain ⟨before, y, hbegins, hlt, hle⟩ := ih hl
      exact ⟨before, y, hbegins.trans (List.prefix_append l [x]), hlt, hle⟩
    · exact ⟨l, x, List.prefix_refl _, Nat.not_le.mp hl, h⟩

/-- A stretch ends at a number of elements exactly when the one with which it is reached does. -/
theorem ends_at_iff (hbegins : before ++ [x] <+: l) (hlt : before.flatten.length < n)
    (hle : n ≤ (before ++ [x]).flatten.length) :
    (∃ arrived, arrived <+: l ∧ arrived.flatten.length = n) ↔
      (before ++ [x]).flatten.length = n := by
  constructor
  · rintro ⟨arrived, harrived, rfl⟩
    rcases List.prefix_or_prefix_of_prefix harrived hbegins with h | h
    · rcases List.prefix_concat_iff.mp h with heq | hbefore
      · rw [heq]
      · exact absurd (length_flatten_le hbefore) (Nat.not_le.mpr hlt)
    · exact Nat.le_antisymm (length_flatten_le h) hle
  · exact fun h => ⟨_, hbegins, h⟩

end Lib.Chunks
