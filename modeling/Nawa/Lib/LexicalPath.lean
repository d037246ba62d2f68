import Mathlib.Data.List.Basic
import Mathlib.Data.List.Infix

/-!
# Lexical resolution of paths

Paths below a root, as texts over any alphabet. `Syntax` names the separator and the two elements
with a meaning of their own: the one that stays and the one that goes up. Resolution is lexical:
it looks at the text and at nothing else, and going up from the root stays there.

`climb` reads a list of elements relative to wherever it starts: how many levels it ends above
the start, and the names that it then enters. `prefix_resolveFrom_iff` says when a path that goes
on from a base does not leave it.
-/

namespace Lib.LexicalPath

/-- The spelling of paths. -/
structure Syntax (α : Type*) where
  sep : α
  here : List α
  up : List α

variable {α : Type*} [DecidableEq α] (p : Syntax α)

/-- The elements of a path, without empty ones and without those that stay. -/
def components (path : List α) : List (List α) :=
  (path.splitOn p.sep).filter fun e => e ≠ [] ∧ e ≠ p.here

/-- One element of a path, from a location given by its names from the root on. -/
def enter (location : List (List α)) (e : List α) : List (List α) :=
  if e = p.up then location.dropLast else location ++ [e]

def resolveFrom (location : List (List α)) (elements : List (List α)) : List (List α) :=
  elements.foldl (enter p) location

/-- The location that a path denotes. -/
def resolve (path : List α) : List (List α) := resolveFrom p [] (components p path)

/-- A path denotes the location of the base or one below it. -/
def Below (base path : List α) : Prop := resolve p base <+: resolve p path

instance (base path : List α) : Decidable (Below p base path) :=
  inferInstanceAs (Decidable (_ <+: _))

/-- The levels that a list of elements ends above its start, and the names entered from there. -/
def climb (elements : List (List α)) : Nat × List (List α) :=
  elements.foldl (fun s e =>
    if e = p.up then if s.2 = [] then (s.1 + 1, []) else (s.1, s.2.dropLast)
    else (s.1, s.2 ++ [e])) (0, [])

/-! ## Components -/

/-- Both sides of a separator have their own components. -/
theorem components_append_sep (xs ys : List α) :
    components p (xs ++ p.sep :: ys) = components p xs ++ components p ys := by
  rw [components, List.splitOn_append_cons_self, List.filter_append]
  rfl

theorem components_element {e : List α} (hne : e ≠ []) (hsep : p.sep ∉ e) :
    components p e = [e].filter (· ≠ p.here) := by
  rw [components, List.splitOn_eq_singleton hsep]
  simp only [List.filter_cons, List.filter_nil, ne_eq, hne, not_false_eq_true, true_and]

/-- A path that goes on from a base with further elements. -/
theorem components_join (base : List α) {elements : List (List α)}
    (h : ∀ e ∈ elements, e ≠ [] ∧ p.sep ∉ e) :
    components p (base ++ elements.flatMap (p.sep :: ·)) =
      components p base ++ elements.filter (· ≠ p.here) := by
  induction elements generalizing base with
  | nil => rw [List.flatMap_nil, List.append_nil, List.filter_nil, List.append_nil]
  | cons e elements ih =>
    rw [List.forall_mem_cons] at h
    rw [List.flatMap_cons, ← List.append_assoc, ih _ h.2, components_append_sep,
      components_element p h.1.1 h.1.2, List.append_assoc, ← List.filter_append,
      List.singleton_append]

/-! ## Resolution -/

theorem resolveFrom_append (location : List (List α)) (xs ys : List (List α)) :
    resolveFrom p location (xs ++ ys) = resolveFrom p (resolveFrom p location xs) ys :=
  List.foldl_append

theorem climb_append_singleton (elements : List (List α)) (e : List α) :
    climb p (elements ++ [e]) =
      if e = p.up then
        if (climb p elements).2 = [] then ((climb p elements).1 + 1, [])
        else ((climb p elements).1, (climb p elements).2.dropLast)
      else ((climb p elements).1, (climb p elements).2 ++ [e]) := by
  rw [climb, List.foldl_append]
  rfl

/-- Without an element that goes up, nothing is climbed. -/
theorem climb_of_not_mem {elements : List (List α)} (h : p.up ∉ elements) :
    climb p elements = (0, elements) := by
  induction elements using List.reverseRecOn with
  | nil => rfl
  | append_singleton elements e ih =>
    rw [List.mem_append, List.mem_singleton, not_or] at h
    rw [climb_append_singleton, if_neg (Ne.symm h.2), ih h.1]

/-- Resolution from a location drops the levels climbed and enters the names. -/
theorem resolveFrom_eq_climb (location elements : List (List α)) :
    resolveFrom p location elements =
      location.take (location.length - (climb p elements).1) ++ (climb p elements).2 := by
  induction elements using List.reverseRecOn with
  | nil =>
    rw [climb, List.foldl_nil, Nat.sub_zero, List.take_length, List.append_nil]
    rfl
  | append_singleton elements e ih =>
    rw [resolveFrom_append, ih, climb_append_singleton]
    simp only [resolveFrom, List.foldl_cons, List.foldl_nil, enter]
    split
    · split
      · next hnil =>
        rw [hnil, List.append_nil, List.append_nil, List.dropLast_eq_take, List.length_take,
          List.take_take]
        congr 1
        omega
      · next hne => rw [List.dropLast_append_of_ne_nil hne]
    · rw [List.append_assoc]

/-- **Elements that go on from a location stay below it** exactly when the levels they climb are
entered again by the same names. -/
theorem prefix_resolveFrom_iff (location elements : List (List α)) :
    location <+: resolveFrom p location elements ↔
      location.drop (location.length - (climb p elements).1) <+: (climb p elements).2 := by
  rw [resolveFrom_eq_climb]
  conv =>
    lhs
    lhs
    rw [← List.take_append_drop (location.length - (climb p elements).1) location]
  exact List.prefix_append_right_inj _

/-- Elements without a meaning of their own are entered one after the other. -/
theorem resolve_join (base : List α) {elements : List (List α)}
    (h : ∀ e ∈ elements, e ≠ [] ∧ p.sep ∉ e) (hhere : p.here ∉ elements)
    (hup : p.up ∉ elements) :
    resolve p (base ++ elements.flatMap (p.sep :: ·)) = resolve p base ++ elements := by
  have hfilter : elements.filter (· ≠ p.here) = elements := by
    apply List.filter_eq_self.mpr
    intro e he
    exact decide_eq_true fun heq : e = p.here => hhere (heq ▸ he)
  rw [resolve, resolve, components_join p base h, hfilter, resolveFrom_append,
    resolveFrom_eq_climb p _ elements, climb_of_not_mem p hup, Nat.sub_zero, List.take_length]

/-- A path that goes on from a base lies below it exactly when its elements do. -/
theorem below_join_iff (base : List α) {elements : List (List α)}
    (h : ∀ e ∈ elements, e ≠ [] ∧ p.sep ∉ e) :
    Below p base (base ++ elements.flatMap (p.sep :: ·)) ↔
      (resolve p base).drop ((resolve p base).length -
          (climb p (elements.filter (· ≠ p.here))).1) <+:
        (climb p (elements.filter (· ≠ p.here))).2 := by
  rw [Below, resolve, resolve, components_join p base h, resolveFrom_append,
    prefix_resolveFrom_iff]

end Lib.LexicalPath
