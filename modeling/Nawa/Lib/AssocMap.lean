import Mathlib.Data.List.Basic
import Mathlib.Data.List.Nodup

/-!
# Finite maps by association list

A finite map with its entries in a list, which carries the proof that no key has two entries.
The order of the entries is that of insertion and means nothing; what a map means is `lookup`.
-/

namespace Lib

/-- A finite map: no two entries have the same key. -/
structure AssocMap (κ ν : Type*) where
  entries : List (κ × ν) := []
  nodup : (entries.map Prod.fst).Nodup := by exact List.nodup_nil
  deriving DecidableEq

namespace AssocMap

variable {κ ν : Type*} [DecidableEq κ]

def empty : AssocMap κ ν := {}

def lookup (m : AssocMap κ ν) (k : κ) : Option ν := m.entries.lookup k

def erase (m : AssocMap κ ν) (k : κ) : AssocMap κ ν where
  entries := m.entries.filter (·.1 ≠ k)
  nodup := m.nodup.sublist (List.filter_sublist.map _)

def insert (m : AssocMap κ ν) (k : κ) (v : ν) : AssocMap κ ν where
  entries := m.entries.filter (·.1 ≠ k) ++ [(k, v)]
  nodup := by
    rw [List.map_append, List.nodup_append]
    refine ⟨m.nodup.sublist (List.filter_sublist.map _), List.nodup_singleton k, ?_⟩
    intro k' hk' k'' hk''
    obtain ⟨e, he, rfl⟩ := List.mem_map.mp hk'
    rw [List.map_singleton, List.mem_singleton] at hk''
    exact hk'' ▸ of_decide_eq_true (List.mem_filter.mp he).2

/-- An entry for a key that has none yet. -/
def insertNew (m : AssocMap κ ν) (k : κ) (v : ν) : AssocMap κ ν :=
  match m.lookup k with
  | some _ => m
  | none => m.insert k v

@[simp] theorem lookup_empty (k : κ) : (empty : AssocMap κ ν).lookup k = none := rfl

private theorem lookup_filter (entries : List (κ × ν)) (k k' : κ) :
    (entries.filter (·.1 ≠ k)).lookup k' = if k' = k then none else entries.lookup k' := by
  induction entries with
  | nil => rw [List.filter_nil, List.lookup_nil, ite_self]
  | cons e entries ih =>
    obtain ⟨x, v⟩ := e
    by_cases hx : x = k
    · rw [List.filter_cons_of_neg (by simpa only [ne_eq, decide_not, Bool.not_eq_true',
        decide_eq_false_iff_not, not_not] using hx), ih]
      split
      · rfl
      · next hk' =>
        have hne : (k' == x) = false := beq_false_of_ne (hx ▸ hk')
        simp only [List.lookup_cons, hne]
    · rw [List.filter_cons_of_pos (by simpa only [ne_eq, decide_eq_true_eq] using hx)]
      simp only [List.lookup_cons, ih]
      cases hk' : k' == x with
      | true =>
        have hne : k' ≠ k := fun h => hx ((beq_iff_eq.mp hk').symm.trans h)
        simp only [if_neg hne]
      | false => rfl

theorem lookup_erase (m : AssocMap κ ν) (k k' : κ) :
    (m.erase k).lookup k' = if k' = k then none else m.lookup k' :=
  lookup_filter m.entries k k'

/-- An insertion answers for its own key and leaves every other one. -/
theorem lookup_insert (m : AssocMap κ ν) (k k' : κ) (v : ν) :
    (m.insert k v).lookup k' = if k' = k then some v else m.lookup k' := by
  simp only [lookup, insert, List.lookup_append, lookup_filter]
  split
  · next h =>
    rw [h]
    rw [Option.none_or, List.lookup_cons_self]
  · next h =>
    have hne : (k' == k) = false := beq_false_of_ne h
    rw [List.lookup_cons, hne, List.lookup_nil, Option.or_none]

/-- With the keys distinct, the entries of one key are at most the one that is looked up. -/
theorem filter_eq_lookup (m : AssocMap κ ν) (k : κ) :
    m.entries.filter (·.1 = k) = ((m.lookup k).map fun v => (k, v)).toList := by
  obtain ⟨entries, nodup⟩ := m
  simp only [lookup]
  induction entries with
  | nil => rfl
  | cons e entries ih =>
    obtain ⟨x, v⟩ := e
    rw [List.map_cons, List.nodup_cons] at nodup
    by_cases hx : x = k
    · subst hx
      have hrest : entries.filter (·.1 = x) = [] := by
        rw [List.filter_eq_nil_iff]
        intro e he heq
        exact nodup.1 (List.mem_map.mpr ⟨e, he, of_decide_eq_true heq⟩)
      rw [List.filter_cons_of_pos (by simp only [decide_true]), hrest]
      rw [List.lookup_cons_self, Option.map_some, Option.toList_some]
    · have hne : (k == x) = false := beq_false_of_ne (Ne.symm hx)
      rw [List.filter_cons_of_neg (by simpa only [decide_eq_true_eq] using hx), ih nodup.2]
      simp only [List.lookup_cons, hne]

theorem lookup_eq_some_iff {m : AssocMap κ ν} {k : κ} {v : ν} :
    m.lookup k = some v ↔ (k, v) ∈ m.entries := by
  have hmem : (k, v) ∈ m.entries ↔ (k, v) ∈ m.entries.filter (·.1 = k) := by
    rw [List.mem_filter, decide_eq_true rfl, and_iff_left rfl]
  rw [hmem, filter_eq_lookup]
  cases m.lookup k with
  | none => simp only [Option.map_none, Option.toList_none, List.not_mem_nil, reduceCtorEq]
  | some w =>
    rw [Option.map_some, Option.toList_some, List.mem_singleton, Prod.mk.injEq, eq_comm (a := v),
      and_iff_right rfl, Option.some.injEq]

/-! ## The number of entries -/

theorem length_erase (m : AssocMap κ ν) (k : κ) :
    (m.erase k).entries.length + (m.lookup k).toList.length = m.entries.length := by
  have hcount := List.length_eq_length_filter_add (l := m.entries) fun e => decide (e.1 = k)
  rw [filter_eq_lookup] at hcount
  simp only [erase, ne_eq, decide_not]
  rw [hcount, Nat.add_comm]
  cases m.lookup k <;> rfl

theorem length_insert (m : AssocMap κ ν) (k : κ) (v : ν) :
    (m.insert k v).entries.length + (m.lookup k).toList.length = m.entries.length + 1 := by
  have hentries : (m.insert k v).entries = (m.erase k).entries ++ [(k, v)] := rfl
  rw [hentries, List.length_append, List.length_singleton, Nat.add_right_comm, length_erase]

/-! ## Entries one after the other -/

theorem lookup_insertNew (m : AssocMap κ ν) (k k' : κ) (v : ν) :
    (m.insertNew k v).lookup k' = (m.lookup k').or (if k' = k then some v else none) := by
  unfold insertNew
  cases hlookup : m.lookup k with
  | some w =>
    dsimp only
    split
    · next h => rw [h, hlookup, Option.some_or]
    · rw [Option.or_none]
  | none =>
    dsimp only
    rw [lookup_insert]
    split
    · next h => rw [h, hlookup, Option.none_or]
    · rw [Option.or_none]

/-- Of the items that give an entry to a key, the first one counts, unless there was one. -/
theorem lookup_foldl_insertNew {ι : Type*} (key : ι → κ) (value : ι → ν) (items : List ι)
    (m : AssocMap κ ν) (k : κ) :
    (items.foldl (fun m i => m.insertNew (key i) (value i)) m).lookup k =
      (m.lookup k).or ((items.find? fun i => key i = k).map value) := by
  induction items generalizing m with
  | nil => rw [List.foldl_nil, List.find?_nil, Option.map_none, Option.or_none]
  | cons i items ih =>
    rw [List.foldl_cons, ih, lookup_insertNew, Option.or_assoc]
    by_cases hkey : key i = k
    · rw [if_pos hkey.symm, Option.some_or, List.find?_cons_of_pos (by rw [decide_eq_true hkey]),
        Option.map_some]
    · rw [if_neg (Ne.symm hkey), Option.none_or,
        List.find?_cons_of_neg (by rw [decide_eq_false hkey]; exact Bool.false_ne_true)]

theorem lookup_foldl_insert_of_not_mem {entries : List (κ × ν)} {m : AssocMap κ ν} {k : κ}
    (h : k ∉ entries.map Prod.fst) :
    (entries.foldl (fun m e => m.insert e.1 e.2) m).lookup k = m.lookup k := by
  induction entries generalizing m with
  | nil => rfl
  | cons e entries ih =>
    rw [List.map_cons, List.mem_cons, not_or] at h
    rw [List.foldl_cons, ih h.2, lookup_insert, if_neg h.1]

/-- Entries with distinct keys are all there once they have been inserted. -/
theorem lookup_foldl_insert_of_mem {entries : List (κ × ν)} {m : AssocMap κ ν} {e : κ × ν}
    (hnodup : (entries.map Prod.fst).Nodup) (h : e ∈ entries) :
    (entries.foldl (fun m e => m.insert e.1 e.2) m).lookup e.1 = some e.2 := by
  induction entries generalizing m with
  | nil => exact absurd h List.not_mem_nil
  | cons e' entries ih =>
    rw [List.map_cons, List.nodup_cons] at hnodup
    rw [List.foldl_cons]
    rcases List.mem_cons.mp h with rfl | h
    · rw [lookup_foldl_insert_of_not_mem hnodup.1, lookup_insert, if_pos rfl]
    · exact ih hnodup.2 h

/-- The entry of a key is found in whatever order the entries come. -/
theorem find_eq_lookup {m : AssocMap κ ν} {entries : List (κ × ν)} (h : entries.Perm m.entries)
    (k : κ) : (entries.find? fun e => e.1 = k).map Prod.snd = m.lookup k := by
  cases hfind : entries.find? fun e => e.1 = k with
  | none =>
    cases hlookup : m.lookup k with
    | none => rfl
    | some v =>
      have hmem := h.mem_iff.mpr (lookup_eq_some_iff.mp hlookup)
      exact absurd (decide_eq_true rfl) (List.find?_eq_none.mp hfind _ hmem)
  | some e =>
    have hkey : e.1 = k := by simpa only [decide_eq_true_eq] using List.find?_some hfind
    have hmem := h.mem_iff.mp (List.mem_of_find?_eq_some hfind)
    exact (lookup_eq_some_iff.mpr (hkey ▸ hmem)).symm

end AssocMap

/-! ## Lists in which a key may have several entries -/

section Entries

variable {α β : Type*} [BEq α] [LawfulBEq α] {entries : List (α × β)} {a : α} {b : β}

theorem mem_of_lookup (h : entries.lookup a = some b) : (a, b) ∈ entries := by
  obtain ⟨l₁, l₂, rfl, -⟩ := List.lookup_eq_some_iff.mp h
  exact List.mem_append_right l₁ List.mem_cons_self

/-- A key whose entries agree is looked up as any of them. -/
theorem lookup_of_mem (h : (a, b) ∈ entries) (hunique : ∀ b', (a, b') ∈ entries → b' = b) :
    entries.lookup a = some b := by
  cases hlookup : entries.lookup a with
  | none =>
    have hne := List.lookup_eq_none_iff.mp hlookup (a, b) h
    exact absurd rfl (bne_iff_ne.mp hne)
  | some b' => rw [hunique b' (mem_of_lookup hlookup)]

end Entries

end Lib
