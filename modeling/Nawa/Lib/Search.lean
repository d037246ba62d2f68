import Mathlib.Data.List.Basic
import Mathlib.Data.List.Infix

/-!
# Searching a sequence for a pattern

`find pat s` is the position of the first occurrence of `pat` in `s`, as a byte string's own
search answers it. The laws here are the ones a decoder of delimited text needs: where the
first occurrence lies in a concatenation, when a separator element keeps an occurrence on one
of its sides (`find_append_sep`), and what an answer says about the searched sequence
(`find_eq_some`).

Nothing below depends on what the elements are, beyond deciding their equality.
-/

namespace Lib.Search

variable {α : Type*} [DecidableEq α]

/-- The position of the first occurrence of `pat` in a sequence. -/
def find (pat : List α) : List α → Option Nat
  | [] => if pat.isPrefixOf [] then some 0 else none
  | x :: s => if pat.isPrefixOf (x :: s) then some 0 else (find pat s).map (· + 1)

/-- The position of the first element equal to `c`. -/
def findElem (c : α) : List α → Option Nat
  | [] => none
  | x :: s => if x = c then some 0 else (findElem c s).map (· + 1)

/-- The position of the last element equal to `c`. -/
def findLastElem (c : α) : List α → Option Nat
  | [] => none
  | x :: s =>
    match findLastElem c s with
    | some n => some (n + 1)
    | none => if x = c then some 0 else none

/-! ## What an answer means -/

theorem find_of_prefixed {pat s : List α} (h : pat <+: s) : find pat s = some 0 := by
  have hp : pat.isPrefixOf s = true := List.isPrefixOf_iff_prefix.mpr h
  cases s <;> simp only [find, hp, if_true]

theorem find_cons_of_not_prefixed {pat s : List α} {x : α} (h : ¬ pat <+: x :: s) :
    find pat (x :: s) = (find pat s).map (· + 1) := by
  rw [find, if_neg (fun hp => h (List.isPrefixOf_iff_prefix.mp hp))]

/-- No answer is exactly no occurrence. -/
theorem find_eq_none {pat s : List α} : find pat s = none ↔ ¬ pat <:+: s := by
  induction s with
  | nil =>
    simp only [find, List.isPrefixOf_iff_prefix, ite_eq_right_iff, reduceCtorEq, imp_false,
      List.infix_nil, List.prefix_nil]
  | cons x s ih =>
    by_cases hp : pat <+: x :: s
    · simp only [find_of_prefixed hp, reduceCtorEq, false_iff, not_not]
      exact hp.isInfix
    · rw [find_cons_of_not_prefixed hp, Option.map_eq_none_iff, ih, List.infix_cons_iff]
      simp only [hp, false_or]

/-- An answer points at an occurrence. -/
theorem find_eq_some {pat s : List α} {n : Nat} (h : find pat s = some n) :
    pat <+: s.drop n := by
  induction s generalizing n with
  | nil =>
    simp only [find, List.isPrefixOf_iff_prefix, Option.ite_none_right_eq_some,
      Option.some.injEq] at h
    simpa only [List.drop_nil] using h.1
  | cons x s ih =>
    by_cases hp : pat <+: x :: s
    · rw [find_of_prefixed hp] at h
      cases h
      exact hp
    · rw [find_cons_of_not_prefixed hp] at h
      obtain ⟨m, hm, rfl⟩ := Option.map_eq_some_iff.mp h
      simpa only [List.drop_succ_cons] using ih hm

/-- An occurrence ends within the sequence. -/
theorem find_add_length_le {pat s : List α} {n : Nat} (h : find pat s = some n) (hne : pat ≠ []) :
    n + pat.length ≤ s.length := by
  have hlen := (find_eq_some h).length_le
  have hpos := List.length_pos_iff.mpr hne
  rw [List.length_drop] at hlen
  omega

/-- A longer pattern is found nowhere that its beginning is not. -/
theorem find_append_pattern {pat more s : List α} (h : find pat s = none) :
    find (pat ++ more) s = none := by
  rw [find_eq_none] at h ⊢
  exact fun hin => h ((List.prefix_append pat more).isInfix.trans hin)

/-! ## Concatenations -/

omit [DecidableEq α] in
/-- A pattern without the separator `c` lies before it whenever it begins before it. -/
theorem prefix_append_sep {pat xs ys : List α} {c : α} (hc : c ∉ pat) :
    pat <+: xs ++ c :: ys ↔ pat <+: xs := by
  induction xs generalizing pat with
  | nil =>
    cases pat with
    | nil => simp only [List.nil_prefix]
    | cons p pat =>
      simp only [List.nil_append, List.cons_prefix_cons, List.prefix_nil, reduceCtorEq, iff_false]
      rintro ⟨rfl, -⟩
      exact hc List.mem_cons_self
  | cons x xs ih =>
    cases pat with
    | nil => simp only [List.nil_prefix]
    | cons p pat =>
      rw [List.cons_append, List.cons_prefix_cons, List.cons_prefix_cons,
        ih (fun h => hc (List.mem_cons_of_mem _ h))]

/-- **A separator splits the search**: the first occurrence of a pattern that does not hold `c`
is the first before `c`, and where there is none there, the first after it. -/
theorem find_append_sep {pat xs ys : List α} {c : α} (hc : c ∉ pat) (hne : pat ≠ []) :
    find pat (xs ++ c :: ys) =
      (find pat xs).or ((find pat ys).map (· + (xs.length + 1))) := by
  induction xs with
  | nil =>
    have hnil : ¬ pat <+: [] := fun h => hne (List.prefix_nil.mp h)
    have hsep : ¬ pat <+: c :: ys := fun h =>
      hnil ((prefix_append_sep hc).mp (h : pat <+: [] ++ c :: ys))
    have hempty : find pat [] = none := find_eq_none.mpr fun h => hne (List.infix_nil.mp h)
    simp only [List.nil_append, find_cons_of_not_prefixed hsep, hempty, Option.none_or,
      List.length_nil, Nat.zero_add]
  | cons x xs ih =>
    by_cases hp : pat <+: x :: xs
    · rw [find_of_prefixed hp, find_of_prefixed (hp.trans (List.prefix_append _ _)), Option.some_or]
    · have hp' : ¬ pat <+: x :: (xs ++ c :: ys) :=
        fun h => hp ((prefix_append_sep hc).mp (h : pat <+: x :: xs ++ c :: ys))
      rw [List.cons_append, find_cons_of_not_prefixed hp, find_cons_of_not_prefixed hp', ih,
        Option.map_or, Option.map_map, List.length_cons]
      rfl

/-- The first occurrence in a beginning of a sequence is the first in the sequence. -/
theorem find_append_left {pat xs ys : List α} {n : Nat} (h : find pat xs = some n)
    (hne : pat ≠ []) : find pat (xs ++ ys) = some n := by
  induction xs generalizing n with
  | nil => exact absurd h (by rw [find_eq_none.mpr (fun h => hne (List.infix_nil.mp h))]; nofun)
  | cons x xs ih =>
    by_cases hp : pat <+: x :: xs
    · rw [find_of_prefixed hp] at h
      rw [find_of_prefixed (hp.trans (List.prefix_append _ _)), h]
    · have hlen := find_add_length_le h hne
      have hp' : ¬ pat <+: x :: (xs ++ ys) := fun hin =>
        hp (List.prefix_of_prefix_length_le hin (List.prefix_append (x :: xs) ys) (by omega))
      rw [find_cons_of_not_prefixed hp] at h
      obtain ⟨m, hm, rfl⟩ := Option.map_eq_some_iff.mp h
      rw [List.cons_append, find_cons_of_not_prefixed hp', ih hm, Option.map_some]

/-- What lies before the first occurrence is free of the pattern. -/
theorem not_infix_take {pat s : List α} {n : Nat} (h : find pat s = some n) (hne : pat ≠ []) :
    ¬ pat <:+: s.take n := by
  intro hin
  cases hfind : find pat (s.take n) with
  | none => exact find_eq_none.mp hfind hin
  | some m =>
    have hbound := find_add_length_le hfind hne
    have hpos := List.length_pos_iff.mpr hne
    have hsome : find pat (s.take n ++ s.drop n) = some m := find_append_left hfind hne
    rw [List.take_append_drop, h, Option.some.injEq] at hsome
    rw [List.length_take] at hbound
    omega

/-- A pattern without the separator that occurs in `xs ++ c :: ys` occurs in `xs` or in `ys`. -/
theorem infix_append_sep {pat xs ys : List α} {c : α} (hc : c ∉ pat) (hne : pat ≠ []) :
    pat <:+: xs ++ c :: ys ↔ pat <:+: xs ∨ pat <:+: ys := by
  have hfind : find pat (xs ++ c :: ys) = _ := find_append_sep hc hne
  rw [← not_iff_not, ← find_eq_none, hfind, Option.or_eq_none_iff, Option.map_eq_none_iff,
    find_eq_none, find_eq_none, not_or]

/-- A pattern whose first element does not occur in `xs` is first found after `xs`. -/
theorem find_append_of_not_mem {pat xs ys : List α} {c : α} (hc : c ∉ xs) :
    find (c :: pat) (xs ++ ys) = (find (c :: pat) ys).map (· + xs.length) := by
  induction xs with
  | nil => simp only [List.nil_append, List.length_nil, Nat.add_zero, Option.map_id']
  | cons x xs ih =>
    have hp : ¬ c :: pat <+: x :: (xs ++ ys) := by
      rw [List.cons_prefix_cons]
      rintro ⟨rfl, -⟩
      exact hc List.mem_cons_self
    rw [List.cons_append, find_cons_of_not_prefixed hp, ih (fun h => hc (List.mem_cons_of_mem _ h)),
      Option.map_map, List.length_cons]
    rfl

/-! ## Single elements -/

theorem findElem_append_of_not_mem {c : α} {xs ys : List α} (hc : c ∉ xs) :
    findElem c (xs ++ ys) = (findElem c ys).map (· + xs.length) := by
  induction xs with
  | nil => simp only [List.nil_append, List.length_nil, Nat.add_zero, Option.map_id']
  | cons x xs ih =>
    have hx : x ≠ c := fun h => hc (h ▸ List.mem_cons_self)
    rw [List.cons_append, findElem, if_neg hx, ih (fun h => hc (List.mem_cons_of_mem _ h)),
      Option.map_map, List.length_cons]
    rfl

/-- The first separator after a run without one. -/
theorem findElem_append_sep {c : α} {xs ys : List α} (hc : c ∉ xs) :
    findElem c (xs ++ c :: ys) = some xs.length := by
  rw [findElem_append_of_not_mem hc, findElem, if_pos rfl, Option.map_some, Nat.zero_add]

omit [DecidableEq α] in
/-- What stands behind a separator. -/
theorem drop_append_sep (xs ys : List α) (c : α) : (xs ++ c :: ys).drop (xs.length + 1) = ys := by
  rw [← List.drop_drop, List.drop_left, List.drop_succ_cons, List.drop_zero]

/-- The first separator of a sequence that has one for sure. -/
theorem findElem_append_cons (c : α) (xs ys : List α) :
    findElem c (xs ++ c :: ys) = some (xs.takeWhile (· ≠ c)).length := by
  induction xs with
  | nil => rw [List.nil_append, findElem, if_pos rfl, List.takeWhile_nil, List.length_nil]
  | cons x xs ih =>
    rw [List.cons_append, findElem, List.takeWhile_cons]
    by_cases hx : x = c
    · rw [if_pos hx, if_neg (by simpa only [decide_eq_true_eq, not_not] using hx),
        List.length_nil]
    · rw [if_neg hx, if_pos (decide_eq_true hx), ih, Option.map_some, List.length_cons]

/-- What stands before the first separator. -/
theorem takeWhile_append_sep {c : α} {xs ys : List α} (hc : c ∉ xs) :
    (xs ++ c :: ys).takeWhile (· ≠ c) = xs := by
  have hxs : ∀ x ∈ xs, decide (x ≠ c) = true :=
    fun x hx => decide_eq_true fun heq => hc (heq ▸ hx)
  have hsep : (c :: ys).takeWhile (· ≠ c) = [] :=
    List.takeWhile_cons_of_neg fun h => of_decide_eq_true h rfl
  rw [List.takeWhile_append_of_pos hxs, hsep, List.append_nil]

theorem findElem_eq_none {c : α} {s : List α} : findElem c s = none ↔ c ∉ s := by
  induction s with
  | nil => simp only [findElem, List.not_mem_nil, not_false_eq_true]
  | cons x s ih =>
    by_cases hx : x = c
    · simp only [findElem, hx, if_true, reduceCtorEq, List.mem_cons, true_or, not_true_eq_false]
    · simp only [findElem, if_neg hx, Option.map_eq_none_iff, ih, List.mem_cons, Ne.symm hx,
        false_or]

/-- An answer cuts the sequence at the first element equal to `c`. -/
theorem findElem_eq_some {c : α} {s : List α} {n : Nat} (h : findElem c s = some n) :
    c ∉ s.take n ∧ s = s.take n ++ c :: s.drop (n + 1) := by
  induction s generalizing n with
  | nil => cases h
  | cons x s ih =>
    by_cases hx : x = c
    · rw [findElem, if_pos hx] at h
      cases h
      subst hx
      exact ⟨List.not_mem_nil, rfl⟩
    · rw [findElem, if_neg hx] at h
      obtain ⟨m, hm, rfl⟩ := Option.map_eq_some_iff.mp h
      obtain ⟨hnot, heq⟩ := ih hm
      refine ⟨?_, ?_⟩
      · rw [List.take_succ_cons, List.mem_cons]
        rintro (rfl | hmem)
        · exact hx rfl
        · exact hnot hmem
      · rw [List.take_succ_cons, List.drop_succ_cons, List.cons_append, ← heq]

/-- A pattern of one element is searched like the element. -/
theorem find_singleton (c : α) (s : List α) : find [c] s = findElem c s := by
  induction s with
  | nil => rfl
  | cons x s ih =>
    rw [findElem, ← ih]
    by_cases hx : x = c
    · subst hx
      rw [if_pos rfl]
      exact find_of_prefixed (List.prefix_append [x] s)
    · rw [if_neg hx, find_cons_of_not_prefixed fun h => hx (List.cons_prefix_cons.mp h).1.symm]

theorem findElem_lt {c : α} {s : List α} {n : Nat} (h : findElem c s = some n) : n < s.length := by
  have hlength := congrArg List.length (findElem_eq_some h).2
  simp only [List.length_append, List.length_cons, List.length_take, List.length_drop] at hlength
  omega

theorem findLastElem_eq_none {c : α} {s : List α} : findLastElem c s = none ↔ c ∉ s := by
  induction s with
  | nil => simp only [findLastElem, List.not_mem_nil, not_false_eq_true]
  | cons x s ih =>
    rw [findLastElem]
    cases hrest : findLastElem c s with
    | none =>
      have hnot := ih.mp hrest
      by_cases hx : x = c
      · simp only [hx, if_true, reduceCtorEq, List.mem_cons, true_or, not_true_eq_false]
      · simp only [if_neg hx, List.mem_cons, Ne.symm hx, hnot, or_self, not_false_eq_true]
    | some n =>
      have hmem : c ∈ s := by
        by_contra hnot
        rw [ih.mpr hnot] at hrest
        cases hrest
      simp only [reduceCtorEq, List.mem_cons, hmem, or_true, not_true_eq_false]

/-- The last separator, before a run without one. -/
theorem findLastElem_append_sep {c : α} {xs ys : List α} (hc : c ∉ ys) :
    findLastElem c (xs ++ c :: ys) = some xs.length := by
  induction xs with
  | nil => rw [List.nil_append, findLastElem, findLastElem_eq_none.mpr hc, List.length_nil,
      if_pos rfl]
  | cons x xs ih => rw [List.cons_append, findLastElem, ih, List.length_cons]

/-! ## Induction over separators -/

/-- A sequence is a run without the separator, or such a run, a separator and a shorter sequence. -/
@[elab_as_elim]
theorem sep_induction (c : α) {motive : List α → Prop} (run : ∀ xs, c ∉ xs → motive xs)
    (sep : ∀ xs ys, c ∉ xs → motive ys → motive (xs ++ c :: ys)) (s : List α) : motive s := by
  induction hn : s.length using Nat.strongRecOn generalizing s with
  | ind n ih =>
    by_cases hc : c ∈ s
    · obtain ⟨xs, ys, rfl, hxs⟩ := List.eq_append_cons_of_mem hc
      refine sep xs ys hxs (ih ys.length ?_ ys rfl)
      rw [← hn, List.length_append, List.length_cons]
      omega
    · exact run s hc

/-! ## Splitting and joining -/

theorem length_splitOn (s : List α) (d : α) : (s.splitOn d).length = s.count d + 1 := by
  induction s using sep_induction d with
  | run s hs => rw [List.splitOn_eq_singleton hs, List.count_eq_zero.mpr hs, List.length_singleton]
  | sep p u hp ih =>
    rw [List.splitOn_append_cons_self_of_not_mem hp, List.length_cons, ih, List.count_append,
      List.count_eq_zero.mpr hp, List.count_cons_self, Nat.zero_add]

/-- The parts between the separators are stretches of the sequence without a separator. -/
theorem mem_splitOn {s t : List α} {d : α} (h : t ∈ s.splitOn d) : d ∉ t ∧ t <:+: s := by
  induction s using sep_induction d with
  | run s hs =>
    rw [List.splitOn_eq_singleton hs, List.mem_singleton] at h
    exact h.symm ▸ ⟨hs, List.infix_refl s⟩
  | sep u v hu ih =>
    rw [List.splitOn_append_cons_self_of_not_mem hu, List.mem_cons] at h
    rcases h with rfl | h
    · exact ⟨hu, (List.prefix_append t _).isInfix⟩
    · have hsuffix : v <:+ u ++ d :: v := (List.suffix_cons d v).trans (List.suffix_append u _)
      exact ⟨(ih h).1, (ih h).2.trans hsuffix.isInfix⟩

omit [DecidableEq α] in
theorem mem_intercalate {d c : α} {tokens : List (List α)}
    (h : c ∈ List.intercalate [d] tokens) : c = d ∨ ∃ t ∈ tokens, c ∈ t := by
  induction tokens with
  | nil => cases h
  | cons t tokens ih =>
    cases tokens with
    | nil =>
      rw [List.intercalate_singleton] at h
      exact .inr ⟨t, List.mem_cons_self, h⟩
    | cons t' tokens =>
      rw [List.intercalate_cons_cons, List.append_assoc, List.mem_append, List.singleton_append,
        List.mem_cons] at h
      rcases h with h | h | h
      · exact .inr ⟨t, List.mem_cons_self, h⟩
      · exact .inl h
      · refine (ih h).imp_right fun hmem => ?_
        obtain ⟨u, hu, hc⟩ := hmem
        exact ⟨u, List.mem_cons_of_mem t hu, hc⟩

omit [DecidableEq α] in
theorem mem_intercalate_of_mem {d c : α} {tokens : List (List α)} {t : List α} (ht : t ∈ tokens)
    (hc : c ∈ t) : c ∈ List.intercalate [d] tokens := by
  induction tokens with
  | nil => cases ht
  | cons u tokens ih =>
    cases tokens with
    | nil =>
      rw [List.intercalate_singleton]
      exact List.mem_singleton.mp ht ▸ hc
    | cons u' tokens =>
      rw [List.intercalate_cons_cons, List.append_assoc, List.mem_append, List.mem_append]
      rcases List.mem_cons.mp ht with rfl | ht
      · exact .inl hc
      · exact .inr (.inr (ih ht))

end Lib.Search
