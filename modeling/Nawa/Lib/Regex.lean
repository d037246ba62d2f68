import Mathlib.Logic.Function.Basic
import Mathlib.Data.List.Basic
import Mathlib.Data.List.TakeWhile

/-!
# Backtracking regular expressions

A regular expression over any alphabet, and its backtracking matcher in the continuation form
of the ECMAScript standard: a matcher consumes a beginning of the input, hands what is left to
its continuation, and tries its next alternative when the continuation fails. The first success
in this order is the match, so priorities (greedy before lazy, left before right) are part of
the meaning and not of an implementation.

`repeatMatch` is the standard's repeat matcher. Its fuel is the number of iterations an input
can still take: a mandatory iteration uses one of `min`, and an optional one that consumes
nothing is refused. So the fuel never cuts an iteration that the standard would make.

Captures of a repeated group are kept from one iteration to the next, as a depth-first executor
without a reset does.
-/

namespace Lib

/-- Regular expressions: one element by a predicate, sequence, choice, a quantifier with its
bounds and greediness, and a numbered group. -/
inductive Regex (α : Type) where
  | sat (p : α → Bool)
  | seq (r t : Regex α)
  | alt (r t : Regex α)
  | rep (greedy : Bool) (min : Nat) (max : Option Nat) (r : Regex α)
  | group (n : Nat) (r : Regex α)

namespace Regex

variable {α β : Type}

/-- What each numbered group has matched so far. -/
abbrev Captures (α : Type) := Nat → Option (List α)

/-- What is to be matched after the current expression. -/
abbrev Continuation (α β : Type) := List α → Captures α → Option β

/-- The repeat matcher of one expression `m`: between `min` and `max` further iterations. -/
def repeatMatch (m : List α → Captures α → Continuation α β → Option β) (greedy : Bool) :
    Nat → Nat → Option Nat → List α → Captures α → Continuation α β → Option β
  | 0, _, _, s, c, k => k s c
  | fuel + 1, min, max, s, c, k =>
    if max = some 0 then k s c
    else
      let again := m s c fun s' c' =>
        if min = 0 ∧ s'.length = s.length then none
        else repeatMatch m greedy fuel (min - 1) (max.map (· - 1)) s' c' k
      if min ≠ 0 then again
      else if greedy then again.or (k s c)
      else (k s c).or again

/-- The matcher of an expression. -/
def run : Regex α → List α → Captures α → Continuation α β → Option β
  | .sat _, [], _, _ => none
  | .sat p, x :: s, c, k => if p x then k s c else none
  | .seq r t, s, c, k => r.run s c fun s' c' => t.run s' c' k
  | .alt r t, s, c, k => (r.run s c k).or (t.run s c k)
  | .rep greedy min max r, s, c, k => repeatMatch r.run greedy (min + s.length) min max s c k
  | .group n r, s, c, k =>
    r.run s c fun s' c' => k s' (Function.update c' n (some (s.take (s.length - s'.length))))

/-- The quantifiers `?` and `+`, greedy. -/
def opt (r : Regex α) : Regex α := .rep true 0 (some 1) r

def plus (r : Regex α) : Regex α := .rep true 1 none r

/-- The quantifier that asks for exactly `n` times. -/
def times (n : Nat) (r : Regex α) : Regex α := .rep true n (some n) r

/-- A literal text before `r`. -/
def lit [DecidableEq α] (w : List α) (r : Regex α) : Regex α :=
  w.foldr (fun x t => .seq (.sat (· = x)) t) r

/-- A match: the text before it, the text matched, the text after it, and the groups. -/
structure Match (α : Type) where
  before : List α
  matched : List α
  after : List α
  groups : Captures α

/-- The match that begins where the input begins. -/
def matchAt (r : Regex α) (s : List α) : Option (List α × Captures α) :=
  r.run s (fun _ => none) fun s' c' => some (s', c')

/-- The leftmost match. -/
def search (r : Regex α) : List α → Option (Match α)
  | [] => (r.matchAt []).map fun m => ⟨[], [], m.1, m.2⟩
  | x :: s =>
    match r.matchAt (x :: s) with
    | some m => some ⟨[], (x :: s).take ((x :: s).length - m.1.length), m.1, m.2⟩
    | none => (search r s).map fun m => { m with before := x :: m.before }

/-- A match of the whole input. -/
def fullMatch (r : Regex α) (s : List α) : Option (Captures α) :=
  r.run s (fun _ => none) fun s' c' => if s' = [] then some c' else none

/-! ## The matcher's equations -/

/-- The text of a group that has matched the first elements of its input. -/
theorem take_sub_length {w s : List α} : (w ++ s).take ((w ++ s).length - s.length) = w := by
  rw [List.length_append, Nat.add_sub_cancel, List.take_left]

section Run

variable {s : List α} {c : Captures α} {k : Continuation α β} {p : α → Bool}

@[simp] theorem run_sat_nil : (sat p).run [] c k = none := rfl

@[simp] theorem run_sat_cons (x : α) :
    (sat p).run (x :: s) c k = if p x then k s c else none := rfl

@[simp] theorem run_seq (r t : Regex α) :
    (seq r t).run s c k = r.run s c fun s' c' => t.run s' c' k := rfl

@[simp] theorem run_alt (r t : Regex α) :
    (alt r t).run s c k = (r.run s c k).or (t.run s c k) := rfl

@[simp] theorem run_group (n : Nat) (r : Regex α) :
    (group n r).run s c k = r.run s c fun s' c' =>
      k s' (Function.update c' n (some (s.take (s.length - s'.length)))) := rfl

/-- A literal consumes itself. -/
theorem run_lit_append [DecidableEq α] (w : List α) (r : Regex α) :
    (lit w r).run (w ++ s) c k = r.run s c k := by
  induction w with
  | nil => rfl
  | cons x w ih =>
    rw [List.cons_append]
    simp only [lit, List.foldr_cons, run_seq, run_sat_cons, decide_true, if_true]
    exact ih

/-- A literal that the input does not begin with fails. -/
theorem run_lit_of_not_prefix [DecidableEq α] {w : List α} (r : Regex α) (h : ¬ w <+: s) :
    (lit w r).run s c k = none := by
  induction w generalizing s with
  | nil => exact absurd List.nil_prefix h
  | cons x w ih =>
    cases s with
    | nil => rfl
    | cons y s =>
      simp only [lit, List.foldr_cons, run_seq, run_sat_cons, decide_eq_true_eq]
      split
      · next hy => exact ih fun hp => h (List.cons_prefix_cons.mpr ⟨hy.symm, hp⟩)
      · rfl

/-! ## Optional expressions -/

theorem run_opt_cons (r : Regex α) (x : α) :
    (opt r).run (x :: s) c k =
      (r.run (x :: s) c fun s' c' =>
        if s'.length = (x :: s).length then none else k s' c').or (k (x :: s) c) := by
  have last : ∀ (fuel : Nat) (s' : List α) (c' : Captures α),
      repeatMatch r.run true fuel 0 (some 0) s' c' k = k s' c' := by
    intro fuel s' c'
    cases fuel <;> rfl
  simp only [opt, run, List.length_cons, Nat.zero_add, repeatMatch, Option.some.injEq,
    Nat.one_ne_zero, if_false, ne_eq, not_true_eq_false, if_true, Nat.zero_sub, true_and,
    Option.map_some, Nat.sub_self, last]

/-- An optional expression is taken when it leads to a match. -/
theorem run_opt_some {r : Regex α} {v : β} (hs : s ≠ [])
    (h : (r.run s c fun s' c' => if s'.length = s.length then none else k s' c') = some v) :
    (opt r).run s c k = some v := by
  cases s with
  | nil => exact absurd rfl hs
  | cons x s => rw [run_opt_cons, h, Option.some_or]

/-- An optional element that is not there. -/
theorem run_opt_sat_of_not {x : α} (h : p x = false) :
    (opt (sat p)).run (x :: s) c k = k (x :: s) c := by
  rw [run_opt_cons, run_sat_cons, h]
  rfl

/-- An optional element that is there is taken first, and given back when that fails. -/
theorem run_opt_sat {x : α} (h : p x = true) :
    (opt (sat p)).run (x :: s) c k = (k s c).or (k (x :: s) c) := by
  have hlen : ¬ s.length = s.length + 1 := by omega
  rw [run_opt_cons, run_sat_cons, h, if_pos rfl, List.length_cons, if_neg hlen]

/-! ## A fixed number of times -/

theorem repeatMatch_exactly (m : List α → Captures α → Continuation α β → Option β) (n : Nat)
    {fuel fuel' : Nat} (h : n ≤ fuel) (h' : n ≤ fuel') :
    repeatMatch m true fuel n (some n) s c k = repeatMatch m true fuel' n (some n) s c k := by
  induction n generalizing fuel fuel' s c with
  | zero => cases fuel <;> cases fuel' <;> rfl
  | succ n ih =>
    obtain ⟨fuel, rfl⟩ := Nat.exists_eq_add_of_lt h
    obtain ⟨fuel', rfl⟩ := Nat.exists_eq_add_of_lt h'
    simp only [repeatMatch, Option.some.injEq, Nat.succ_ne_zero, if_false, false_and, ne_eq,
      not_false_eq_true, if_true, Nat.add_sub_cancel, Option.map_some]
    congr 1
    funext s' c'
    exact ih (Nat.le_add_right n _) (Nat.le_add_right n _)

@[simp] theorem run_times_zero (r : Regex α) : (times 0 r).run s c k = k s c := by
  rw [times, run]
  cases 0 + s.length <;> rfl

@[simp] theorem run_times_succ (n : Nat) (r : Regex α) :
    (times (n + 1) r).run s c k = r.run s c fun s' c' => (times n r).run s' c' k := by
  rw [times, run, repeatMatch_exactly r.run (n + 1) (Nat.le_add_right _ _) (Nat.le_refl _)]
  simp only [repeatMatch, Option.some.injEq, Nat.succ_ne_zero, if_false, false_and, ne_eq,
    not_false_eq_true, if_true, Nat.add_sub_cancel, Option.map_some]
  congr 1
  funext s' c'
  exact repeatMatch_exactly r.run n (Nat.le_refl _) (Nat.le_add_right n _)

/-- An input begins with a run of a class, up to where it ends. -/
theorem exists_run (p : α → Bool) (l : List α) : ∃ run rest : List α, l = run ++ rest ∧
    (∀ x ∈ run, p x = true) ∧ ∀ x ∈ rest.head?, p x = false := by
  refine ⟨l.takeWhile p, l.dropWhile p, List.takeWhile_append_dropWhile.symm,
    fun x hx => List.mem_takeWhile_imp hx, fun x hx => ?_⟩
  have hnot := List.head?_dropWhile_not p l
  rw [hx] at hnot
  exact hnot

/-! ## A bounded number of elements of a class -/

/-- Where the continuation refuses what begins with an element of the class, a class repeated
within bounds takes its whole run or fails, whether it is greedy or not. -/
theorem repeatMatch_sat_run {xs ys : List α} (hxs : ∀ x ∈ xs, p x = true)
    (hys : ∀ y ∈ ys.head?, p y = false) (hk : ∀ x s, p x = true → k (x :: s) c = none)
    (greedy : Bool) {fuel min max : Nat} (hfuel : xs.length ≤ fuel) (hmin : min ≤ fuel)
    (hbounds : min ≤ max) :
    repeatMatch (sat p).run greedy fuel min (some max) (xs ++ ys) c k =
      if min ≤ xs.length ∧ xs.length ≤ max then k ys c else none := by
  induction xs generalizing fuel min max with
  | nil =>
    have hstop : (sat p).run ys c = fun _ : Continuation α β => none := by
      cases ys with
      | nil => rfl
      | cons y ys =>
        funext k'
        rw [run_sat_cons, hys y rfl, if_neg Bool.false_ne_true]
    cases fuel with
    | zero =>
      obtain rfl : min = 0 := Nat.le_zero.mp hmin
      exact (if_pos ⟨Nat.le_refl 0, Nat.zero_le max⟩).symm
    | succ fuel =>
      rw [repeatMatch, List.nil_append, hstop]
      by_cases hzero : min = 0
      · subst hzero
        simp
      · have hmax : ¬ max = 0 := by omega
        simp [hzero, hmax]
  | cons x xs ih =>
    rw [List.forall_mem_cons] at hxs
    rw [List.length_cons] at hfuel
    have hgiven := hk x (xs ++ ys) hxs.1
    obtain ⟨fuel, rfl⟩ := Nat.exists_eq_add_of_lt (Nat.lt_of_lt_of_le (Nat.zero_lt_succ _) hfuel)
    rw [Nat.zero_add, repeatMatch, List.cons_append, hgiven]
    by_cases hmax : max = 0
    · subst hmax
      simp
    · have hlen : ¬ (xs ++ ys).length = (x :: (xs ++ ys)).length := by
        rw [List.length_cons]
        omega
      have hrest : repeatMatch (sat p).run greedy fuel (min - 1) (some (max - 1)) (xs ++ ys) c k =
          if min - 1 ≤ xs.length ∧ xs.length ≤ max - 1 then k ys c else none :=
        ih hxs.2 (by omega) (by omega) (by omega)
      have hiff : min - 1 ≤ xs.length ∧ xs.length ≤ max - 1 ↔
          min ≤ (x :: xs).length ∧ (x :: xs).length ≤ max := by
        rw [List.length_cons]
        omega
      simp only [run_sat_cons, hxs.1, if_true, hlen, and_false, if_false, Option.map_some, hrest,
        hiff, Option.some.injEq, hmax, Option.or_none, Option.none_or, ite_self]

theorem run_rep_sat {xs ys : List α} (hxs : ∀ x ∈ xs, p x = true)
    (hys : ∀ y ∈ ys.head?, p y = false) (hk : ∀ x s, p x = true → k (x :: s) c = none)
    (greedy : Bool) {min max : Nat} (hbounds : min ≤ max) :
    (rep greedy min (some max) (sat p)).run (xs ++ ys) c k =
      if min ≤ xs.length ∧ xs.length ≤ max then k ys c else none := by
  refine repeatMatch_sat_run hxs hys hk greedy ?_ (Nat.le_add_right _ _) hbounds
  rw [List.length_append]
  omega

/-- A group over a class repeated within bounds captures the whole run. -/
theorem run_group_rep_sat {xs ys : List α} (hxs : ∀ x ∈ xs, p x = true)
    (hys : ∀ y ∈ ys.head?, p y = false) (hk : ∀ x s d, p x = true → k (x :: s) d = none)
    (n : Nat) (greedy : Bool) {min max : Nat} (hbounds : min ≤ max) :
    (group n (rep greedy min (some max) (sat p))).run (xs ++ ys) c k =
      if min ≤ xs.length ∧ xs.length ≤ max then k ys (Function.update c n (some xs)) else none := by
  rw [run_group]
  refine (run_rep_sat hxs hys ?_ greedy hbounds).trans ?_
  · exact fun x s hx => hk x s _ hx
  · rw [take_sub_length]

/-- A class that the input does not begin with is repeated no times. -/
theorem run_rep_sat_of_not (h : ∀ x ∈ s.head?, p x = false) {max : Option Nat} :
    (rep true 0 max (sat p)).run s c k = k s c := by
  rw [run, Nat.zero_add]
  cases s with
  | nil => rfl
  | cons x s =>
    have hx := h x rfl
    rw [List.length_cons, repeatMatch]
    split
    · rfl
    · simp only [run_sat_cons, hx, Bool.false_eq_true, if_false, ne_eq, not_true_eq_false,
        if_true, Option.none_or]

/-- A class that the input does not begin with cannot be repeated as often as is asked for. -/
theorem run_rep_sat_none (h : ∀ x ∈ s.head?, p x = false) (greedy : Bool) {min max : Nat}
    (hmin : 0 < min) (hbounds : min ≤ max) :
    (rep greedy min (some max) (sat p)).run s c k = none := by
  have hzero : ¬ min = 0 := by omega
  have hmax : ¬ max = 0 := by omega
  obtain ⟨fuel, hfuel⟩ := Nat.exists_eq_succ_of_ne_zero (n := min + s.length) (by omega)
  rw [run, hfuel]
  cases s with
  | nil => simp [repeatMatch, hzero, hmax]
  | cons x s => simp [repeatMatch, hzero, hmax, h x rfl]

/-! ## One or more elements of a class -/

/-- A greedy class takes all of its run when the continuation accepts what follows the run. -/
theorem repeatMatch_sat_longest {xs ys : List α} {v : β} (hxs : ∀ x ∈ xs, p x = true)
    (hys : ∀ y ∈ ys.head?, p y = false) (hk : k ys c = some v) (fuel min : Nat)
    (hfuel : xs.length ≤ fuel) (hmin : min ≤ xs.length) :
    repeatMatch (sat p).run true fuel min none (xs ++ ys) c k = some v := by
  induction xs generalizing fuel min with
  | nil =>
    obtain rfl : min = 0 := Nat.le_zero.mp hmin
    cases fuel with
    | zero => exact hk
    | succ fuel =>
      cases ys with
      | nil =>
        simpa only [repeatMatch, List.nil_append, reduceCtorEq, if_false, run_sat_nil, ne_eq,
          not_true_eq_false, if_true, Option.none_or] using hk
      | cons y ys =>
        have hy := hys y rfl
        simpa only [repeatMatch, List.nil_append, reduceCtorEq, if_false, run_sat_cons, hy,
          Bool.false_eq_true, ne_eq, not_true_eq_false, if_true, Option.none_or] using hk
  | cons x xs ih =>
    cases fuel with
    | zero => exact absurd hfuel (by simp only [List.length_cons]; omega)
    | succ fuel =>
      have hx := hxs x List.mem_cons_self
      have hlen : ¬ (xs ++ ys).length = (x :: (xs ++ ys)).length := by
        rw [List.length_cons]
        omega
      simp only [List.length_cons] at hfuel hmin
      have hrest := ih (fun y hy => hxs y (List.mem_cons_of_mem _ hy)) fuel (min - 1)
        (by omega) (by omega)
      simp only [repeatMatch, List.cons_append, reduceCtorEq, if_false, run_sat_cons, hx, if_true,
        hlen, and_false, Option.map_none, hrest, Option.some_or, ite_self]

theorem run_plus_sat_longest {xs ys : List α} {v : β} (hne : xs ≠ [])
    (hxs : ∀ x ∈ xs, p x = true) (hys : ∀ y ∈ ys.head?, p y = false) (hk : k ys c = some v) :
    (plus (sat p)).run (xs ++ ys) c k = some v := by
  have hpos := List.length_pos_iff.mpr hne
  exact repeatMatch_sat_longest hxs hys hk _ _ (by rw [List.length_append]; omega) hpos

/-- What a repeated class matches are elements of it, as many as are asked for at least. -/
theorem repeatMatch_sat_some (greedy : Bool) {fuel min : Nat} (hmin : min ≤ fuel) {v : β}
    (h : repeatMatch (sat p).run greedy fuel min none s c k = some v) :
    ∃ xs ys, s = xs ++ ys ∧ min ≤ xs.length ∧ (∀ x ∈ xs, p x = true) ∧ k ys c = some v := by
  induction fuel generalizing min s with
  | zero => exact ⟨[], s, rfl, hmin, List.forall_mem_nil _, h⟩
  | succ fuel ih =>
    have hstop : min = 0 → k s c = some v → ∃ xs ys, s = xs ++ ys ∧ min ≤ xs.length ∧
        (∀ x ∈ xs, p x = true) ∧ k ys c = some v :=
      fun hzero hk => ⟨[], s, rfl, Nat.le_of_eq hzero, List.forall_mem_nil _, hk⟩
    rw [repeatMatch, if_neg (Option.some_ne_none _).symm] at h
    cases s with
    | nil =>
      simp only [run_sat_nil, ne_eq, ite_not, Option.none_or, Option.or_none, ite_self] at h
      split at h
      · next hzero => exact hstop hzero h
      · cases h
    | cons x s =>
      have hlen : ¬ s.length = (x :: s).length := by
        rw [List.length_cons]
        omega
      simp only [run_sat_cons, hlen, and_false, if_false, Option.map_none, ne_eq, ite_not] at h
      have hagain : (if p x = true then repeatMatch (sat p).run greedy fuel (min - 1) none s c k
          else none) = some v → ∃ xs ys, x :: s = xs ++ ys ∧ min ≤ xs.length ∧
            (∀ x ∈ xs, p x = true) ∧ k ys c = some v := by
        intro hcons
        split at hcons
        · next hx =>
          obtain ⟨xs, ys, rfl, hlength, hxs, hk⟩ := ih (by omega) hcons
          refine ⟨x :: xs, ys, rfl, ?_, List.forall_mem_cons.mpr ⟨hx, hxs⟩, hk⟩
          rw [List.length_cons]
          omega
        · cases hcons
      split at h
      · next hzero =>
        split at h
        · exact (Option.or_eq_some_iff.mp h).elim hagain fun hk => hstop hzero hk.2
        · exact (Option.or_eq_some_iff.mp h).elim (hstop hzero) fun hk => hagain hk.2
      · exact hagain h

theorem run_plus_sat_some {v : β} (h : (plus (sat p)).run s c k = some v) :
    ∃ xs ys, s = xs ++ ys ∧ xs ≠ [] ∧ (∀ x ∈ xs, p x = true) ∧ k ys c = some v := by
  obtain ⟨xs, ys, hs, hlength, hxs, hk⟩ := repeatMatch_sat_some true (Nat.le_add_right _ _) h
  exact ⟨xs, ys, hs, List.length_pos_iff.mp hlength, hxs, hk⟩

/-- A group over a greedy class captures the whole run. -/
theorem run_group_plus_sat {n : Nat} {xs ys : List α} {v : β} (hne : xs ≠ [])
    (hxs : ∀ x ∈ xs, p x = true) (hys : ∀ y ∈ ys.head?, p y = false)
    (hk : k ys (Function.update c n (some xs)) = some v) :
    (group n (plus (sat p))).run (xs ++ ys) c k = some v := by
  rw [run_group]
  exact run_plus_sat_longest hne hxs hys (by rw [take_sub_length]; exact hk)

end Run

/-! ## Captures lie in the input

Whatever an expression does, it hands a remainder of its input to the continuation, and a group
that it sets holds a stretch of that input. -/

/-- What a matcher may hand on after it was started on `s` with captures `c`. -/
def Reaches (s : List α) (c : Captures α) (k : Continuation α β) (v : β) : Prop :=
  ∃ s' c', k s' c' = some v ∧ s' <:+ s ∧ ∀ n w, c' n = some w → c n = some w ∨ w <:+: s

theorem Reaches.trans {s t : List α} {c d : Captures α} {k : Continuation α β} {v : β}
    (hs : t <:+ s) (hc : ∀ n w, d n = some w → c n = some w ∨ w <:+: s) (h : Reaches t d k v) :
    Reaches s c k v := by
  obtain ⟨s', c', hk, hsuf, hcap⟩ := h
  refine ⟨s', c', hk, hsuf.trans hs, fun n w hw => ?_⟩
  rcases hcap n w hw with hw | hw
  · exact hc n w hw
  · exact .inr (hw.trans hs.isInfix)

theorem Reaches.refl {s : List α} {c : Captures α} {k : Continuation α β} {v : β}
    (h : k s c = some v) : Reaches s c k v :=
  ⟨s, c, h, List.suffix_refl s, fun _ _ hw => .inl hw⟩

theorem repeatMatch_reaches {m : List α → Captures α → Continuation α β → Option β} {v : β}
    (hm : ∀ s c k, m s c k = some v → Reaches s c k v) (greedy : Bool) (fuel min : Nat)
    (max : Option Nat) (s : List α) (c : Captures α) (k : Continuation α β)
    (h : repeatMatch m greedy fuel min max s c k = some v) : Reaches s c k v := by
  induction fuel generalizing min max s c with
  | zero => exact .refl h
  | succ fuel ih =>
    have again : ∀ {min' max'}, (m s c fun s' c' =>
        if min = 0 ∧ s'.length = s.length then none
        else repeatMatch m greedy fuel min' max' s' c' k) = some v → Reaches s c k v := by
      intro min' max' hrun
      obtain ⟨s', c', hk, hsuf, hcap⟩ := hm _ _ _ hrun
      dsimp only at hk
      split at hk
      · cases hk
      · exact .trans hsuf hcap (ih _ _ _ _ hk)
    rw [repeatMatch] at h
    split at h
    · exact .refl h
    · dsimp only at h
      split at h
      · exact again h
      · split at h
        · rcases Option.or_eq_some_iff.mp h with h | ⟨-, h⟩
          · exact again h
          · exact .refl h
        · rcases Option.or_eq_some_iff.mp h with h | ⟨-, h⟩
          · exact .refl h
          · exact again h

/-- **A match hands on a remainder of its input, with captures from the input.** -/
theorem run_reaches (r : Regex α) {s : List α} {c : Captures α} {k : Continuation α β} {v : β}
    (h : r.run s c k = some v) : Reaches s c k v := by
  induction r generalizing s c k with
  | sat p =>
    cases s with
    | nil => cases h
    | cons x s =>
      rw [run_sat_cons, Option.ite_none_right_eq_some] at h
      exact .trans (List.suffix_cons x s) (fun _ _ hw => .inl hw) (.refl h.2)
  | seq r t ihr iht =>
    obtain ⟨s', c', hk, hsuf, hcap⟩ := ihr h
    exact .trans hsuf hcap (iht hk)
  | alt r t ihr iht =>
    rw [run_alt] at h
    rcases Option.or_eq_some_iff.mp h with h | ⟨-, h⟩
    · exact ihr h
    · exact iht h
  | rep greedy min max r ih => exact repeatMatch_reaches (fun _ _ _ hm => ih hm) _ _ _ _ _ _ _ h
  | group n r ih =>
    obtain ⟨s', c', hk, hsuf, hcap⟩ := ih h
    refine ⟨s', _, hk, hsuf, fun m w hw => ?_⟩
    rw [Function.update_apply] at hw
    split at hw
    · cases hw
      exact .inr (List.take_prefix _ _).isInfix
    · exact hcap m w hw

/-! ## Search -/

/-- The groups of the leftmost match. -/
def searchGroups (r : Regex α) (s : List α) : Option (Captures α) := (r.search s).map (·.groups)

theorem searchGroups_of_matchAt {r : Regex α} {s s' : List α} {c : Captures α}
    (h : r.matchAt s = some (s', c)) : r.searchGroups s = some c := by
  cases s with
  | nil => simp only [searchGroups, search, h, Option.map_some]
  | cons x s => simp only [searchGroups, search, h, Option.map_some]

theorem searchGroups_cons {r : Regex α} {s : List α} {x : α} (h : r.matchAt (x :: s) = none) :
    r.searchGroups (x :: s) = r.searchGroups s := by
  simp only [searchGroups, search, h, Option.map_map]
  rfl

theorem searchGroups_nil {r : Regex α} (h : r.matchAt [] = none) : r.searchGroups [] = none := by
  simp only [searchGroups, search, h, Option.map_none]

/-- What a search captures is a stretch of the text searched. -/
theorem searchGroups_isInfix {r : Regex α} {s w : List α} {g : Captures α} {n : Nat}
    (h : r.searchGroups s = some g) (hw : g n = some w) : w <:+: s := by
  have here : ∀ {t : List α} {m : List α × Captures α}, r.matchAt t = some m →
      m.2 n = some w → w <:+: t := by
    intro t m hm hcap
    obtain ⟨s', c', hk, -, hall⟩ := run_reaches r hm
    cases hk
    rcases hall n w hcap with hnone | hin
    · cases hnone
    · exact hin
  induction s with
  | nil =>
    cases hm : r.matchAt [] with
    | none => rw [searchGroups_nil hm] at h; cases h
    | some m =>
      rw [searchGroups_of_matchAt hm] at h
      cases h
      exact here hm hw
  | cons x s ih =>
    cases hm : r.matchAt (x :: s) with
    | none =>
      rw [searchGroups_cons hm] at h
      exact (ih h).trans (List.suffix_cons x s).isInfix
    | some m =>
      rw [searchGroups_of_matchAt hm] at h
      cases h
      exact here hm hw

/-- Elements at which no match can begin are passed over. -/
theorem searchGroups_append {r : Regex α} {xs s : List α}
    (h : ∀ x ∈ xs, ∀ t, r.matchAt (x :: t) = none) :
    r.searchGroups (xs ++ s) = r.searchGroups s := by
  induction xs with
  | nil => rfl
  | cons x xs ih =>
    rw [List.cons_append, searchGroups_cons (h x List.mem_cons_self _),
      ih fun y hy => h y (List.mem_cons_of_mem _ hy)]

end Regex

end Lib
