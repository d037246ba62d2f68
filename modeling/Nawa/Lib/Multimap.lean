import Mathlib.Data.List.Basic

/-!
# Hash maps with several values for a key

The entries of such a map are a list whose order means nothing. Where a program iterates over
the map they come up in an order that is not specified: `Order` stands for any such order, and
what a program finds under a key is stated for all of them.
-/

namespace Lib.Multimap

variable {κ ν : Type*}

/-- An order in which the entries may come up. -/
structure Order (κ ν : Type*) where
  order : List (κ × ν) → List (κ × ν)
  perm : ∀ entries, (order entries).Perm entries

variable [DecidableEq κ]

/-- The values of a key among some entries. -/
def valuesOf (k : κ) (entries : List (κ × ν)) : List ν :=
  (entries.filter (·.1 = k)).map (·.2)

/-- The value that is found for a key. -/
def find (o : Order κ ν) (entries : List (κ × ν)) (k : κ) : Option ν :=
  (o.order entries).lookup k

/-- All values of a key, as they come up. -/
def equalRange (o : Order κ ν) (entries : List (κ × ν)) (k : κ) : List ν :=
  valuesOf k (o.order entries)

def count (entries : List (κ × ν)) (k : κ) : Nat := (entries.filter (·.1 = k)).length

theorem valuesOf_perm {entries entries' : List (κ × ν)} (h : entries.Perm entries') (k : κ) :
    (valuesOf k entries).Perm (valuesOf k entries') :=
  (h.filter _).map _

theorem equalRange_perm (o : Order κ ν) (entries : List (κ × ν)) (k : κ) :
    (equalRange o entries k).Perm (valuesOf k entries) :=
  valuesOf_perm (o.perm entries) k

theorem count_eq_length (entries : List (κ × ν)) (k : κ) :
    count entries k = (valuesOf k entries).length :=
  (List.length_map _).symm

theorem lookup_eq_head (entries : List (κ × ν)) (k : κ) :
    entries.lookup k = (valuesOf k entries).head? := by
  induction entries with
  | nil => rfl
  | cons e entries ih =>
    rw [valuesOf, List.filter_cons, List.lookup_cons]
    by_cases he : e.1 = k
    · rw [he, beq_self_eq_true, if_pos (decide_eq_true rfl)]
      rfl
    · rw [beq_eq_false_iff_ne.mpr (Ne.symm he), if_neg (by simpa only [decide_eq_true_eq] using he)]
      exact ih

/-- What is found for a key is one of its values, if it has any. -/
theorem find_spec (o : Order κ ν) (entries : List (κ × ν)) (k : κ) :
    (∃ v, find o entries k = some v ∧ v ∈ valuesOf k entries) ∨
      find o entries k = none ∧ valuesOf k entries = [] := by
  have hperm := equalRange_perm o entries k
  rw [find, lookup_eq_head]
  cases hvalues : valuesOf k (o.order entries) with
  | nil =>
    rw [equalRange, hvalues] at hperm
    exact .inr ⟨rfl, hperm.nil_eq.symm⟩
  | cons v values =>
    rw [equalRange, hvalues] at hperm
    exact .inl ⟨v, rfl, hperm.subset List.mem_cons_self⟩

end Lib.Multimap
