import Nawa.Laws.Util.Utils

/-!
# Paths and their elements

The elements of a path are the pieces between its slashes that are not empty, up to the query
string. So slashes that are repeated, lead or trail say nothing, and the text that `mergePath`
gives for some elements is read as them again (`splitPath_canonical`).
-/

namespace Nawa.utils

open Lib.Search

/-- An element that a path can have. -/
def PathElement (e : Bytes) : Prop := e ≠ [] ∧ '/'.toUInt8 ∉ e ∧ '?'.toUInt8 ∉ e

/-- The text of a path in front of its query string. -/
def beforeQuery (s : Bytes) : Bytes := s.takeWhile (· ≠ '?'.toUInt8)

theorem splitPath_beforeQuery (s : Bytes) :
    splitPath s = splitString (beforeQuery s) '/'.toUInt8 true := splitPath_eq s

theorem not_mem_beforeQuery (s : Bytes) : '?'.toUInt8 ∉ beforeQuery s := by
  intro h
  have hne := List.mem_takeWhile_imp h
  exact of_decide_eq_true hne rfl

theorem beforeQuery_eq_self {s : Bytes} (h : '?'.toUInt8 ∉ s) : beforeQuery s = s :=
  List.takeWhile_eq_self_iff.mpr fun _ hc => decide_eq_true fun heq => h (heq ▸ hc)

theorem beforeQuery_append {s : Bytes} (h : '?'.toUInt8 ∉ s) (t : Bytes) :
    beforeQuery (s ++ t) = s ++ beforeQuery t :=
  List.takeWhile_append_of_pos fun _ hc => decide_eq_true fun heq => h (heq ▸ hc)

/-- What stands behind a question mark is not part of the path. -/
theorem beforeQuery_append_query (s query : Bytes) :
    beforeQuery (s ++ '?'.toUInt8 :: query) = beforeQuery s := by
  have hnone : ∀ q : Bytes, beforeQuery ('?'.toUInt8 :: q) = [] :=
    fun q => List.takeWhile_cons_of_neg fun h => of_decide_eq_true h rfl
  by_cases h : '?'.toUInt8 ∈ s
  · obtain ⟨path, rest, rfl, hpath⟩ := List.eq_append_cons_of_mem h
    rw [List.append_assoc, List.cons_append, beforeQuery_append hpath, beforeQuery_append hpath,
      hnone, hnone]
  · rw [beforeQuery_append h, hnone, List.append_nil, beforeQuery_eq_self h]

theorem splitPath_query (s query : Bytes) :
    splitPath (s ++ '?'.toUInt8 :: query) = splitPath s := by
  rw [splitPath_beforeQuery, splitPath_beforeQuery, beforeQuery_append_query]

/-- Behind a question mark anything may follow. -/
theorem splitPath_append_of_mem {s : Bytes} (h : '?'.toUInt8 ∈ s) (t : Bytes) :
    splitPath (s ++ t) = splitPath s := by
  obtain ⟨path, query, rfl, -⟩ := List.eq_append_cons_of_mem h
  rw [List.append_assoc, List.cons_append, splitPath_query, splitPath_query]

/-- A slash ends an element and begins the next one. -/
theorem splitPath_append_slash {s : Bytes} (h : '?'.toUInt8 ∉ s) (t : Bytes) :
    splitPath (s ++ '/'.toUInt8 :: t) = splitPath s ++ splitPath t := by
  have hslash : beforeQuery ('/'.toUInt8 :: t) = '/'.toUInt8 :: beforeQuery t :=
    List.takeWhile_cons_of_pos (by decide)
  rw [splitPath_beforeQuery, splitPath_beforeQuery, splitPath_beforeQuery, beforeQuery_append h,
    beforeQuery_eq_self h, hslash, splitString_append_sep]

theorem splitPath_leading (s : Bytes) : splitPath ('/'.toUInt8 :: s) = splitPath s :=
  splitPath_append_slash List.not_mem_nil s

theorem splitPath_trailing (s : Bytes) : splitPath (s ++ ['/'.toUInt8]) = splitPath s := by
  by_cases h : '?'.toUInt8 ∈ s
  · exact splitPath_append_of_mem h _
  · rw [splitPath_append_slash h]
    exact List.append_nil _

/-- Where one slash stands, any number of them may stand. -/
theorem splitPath_repeated (s t : Bytes) (n : Nat) :
    splitPath (s ++ (List.replicate (n + 1) '/'.toUInt8 ++ t)) =
      splitPath (s ++ '/'.toUInt8 :: t) := by
  have hleading : splitPath (List.replicate n '/'.toUInt8 ++ t) = splitPath t := by
    induction n with
    | zero => rfl
    | succ n ih => rw [List.replicate_succ, List.cons_append, splitPath_leading, ih]
  by_cases h : '?'.toUInt8 ∈ s
  · rw [splitPath_append_of_mem h, splitPath_append_of_mem h]
  · rw [List.replicate_succ, List.cons_append, splitPath_append_slash h, splitPath_append_slash h,
      hleading]

theorem pathElement_of_mem {s e : Bytes} (h : e ∈ splitPath s) : PathElement e := by
  rw [splitPath_beforeQuery] at h
  obtain ⟨hne, hslash⟩ := mem_splitString h
  exact ⟨hne, hslash, fun hquery => not_mem_beforeQuery s (mem_of_mem_splitString h hquery)⟩

theorem splitPath_element {e : Bytes} (h : PathElement e) : splitPath e = [e] := by
  rw [splitPath_beforeQuery, beforeQuery_eq_self h.2.2, splitString_singleton h.1 h.2.1]

/-- The elements are read one by one, each behind its slash. -/
theorem splitPath_flatMap {path : List Bytes} (h : ∀ e ∈ path, PathElement e) :
    splitPath (path.flatMap fun e => '/'.toUInt8 :: e) = path := by
  induction path with
  | nil => rfl
  | cons e path ih =>
    rw [List.forall_mem_cons] at h
    rw [List.flatMap_cons, List.cons_append, splitPath_leading]
    cases path with
    | nil => rw [List.flatMap_nil, List.append_nil, splitPath_element h.1]
    | cons e' path =>
      have hrest := ih h.2
      rw [List.flatMap_cons, List.cons_append, splitPath_leading] at hrest
      rw [List.flatMap_cons, List.cons_append, splitPath_append_slash h.1.2.2, hrest,
        splitPath_element h.1]
      rfl

theorem splitPath_mergePath {path : List Bytes} (h : ∀ e ∈ path, PathElement e) :
    splitPath (mergePath path) = path := by
  cases path with
  | nil => rfl
  | cons e path => exact splitPath_flatMap h

/-- **Paths are read as their elements, however they are written.** -/
theorem splitPath_canonical (path : List Bytes) (s t query : Bytes) (n : Nat) :
    ((∀ e ∈ path, e ≠ [] ∧ '/'.toUInt8 ∉ e ∧ '?'.toUInt8 ∉ e) →
        splitPath (mergePath path) = path) ∧
      splitPath s = ((s.takeWhile (· ≠ '?'.toUInt8)).splitOn '/'.toUInt8).filter (· ≠ []) ∧
      splitPath ('/'.toUInt8 :: s) = splitPath s ∧
      splitPath (s ++ ['/'.toUInt8]) = splitPath s ∧
      splitPath (s ++ (List.replicate (n + 1) '/'.toUInt8 ++ t)) =
        splitPath (s ++ '/'.toUInt8 :: t) ∧
      splitPath (s ++ '?'.toUInt8 :: query) = splitPath s ∧
      splitPath (mergePath (splitPath s)) = splitPath s := by
  refine ⟨splitPath_mergePath, ?_, splitPath_leading s, splitPath_trailing s,
    splitPath_repeated s t n, splitPath_query s query,
    splitPath_mergePath fun e he => pathElement_of_mem he⟩
  rw [splitPath_eq, splitString_ignoreEmpty]

end Nawa.utils
