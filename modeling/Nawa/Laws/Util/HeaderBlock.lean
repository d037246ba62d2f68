import Nawa.Laws.Util.Utils

/-!
# Blocks of header lines

A block of lines joined by the line ending of MIME: where the blank line behind it is found, and
what `parseHeaders` answers for it. The last line of a name decides.
-/

namespace Nawa.utils

open Lib (AssocMap)
open Lib.Search

/-- The lines, without the line ending of the last. -/
def block (lines : List Bytes) : Bytes := List.intercalate crlf lines

theorem block_singleton (l : Bytes) : block [l] = l := List.intercalate_singleton

theorem block_cons {lines : List Bytes} (l : Bytes) (h : lines ≠ []) :
    block (l :: lines) = l ++ (crlf ++ block lines) := by
  rw [block, List.intercalate_cons_of_ne_nil h, List.append_assoc]
  rfl

/-- A block is written line by line, each with its line ending. -/
theorem flatMap_line {lines : List Bytes} (h : lines ≠ []) :
    (lines.flatMap fun l => l ++ crlf) = block lines ++ crlf := by
  induction lines with
  | nil => exact absurd rfl h
  | cons l lines ih =>
    cases lines with
    | nil => rw [List.flatMap_singleton, block_singleton]
    | cons l' lines =>
      have hne : l' :: lines ≠ [] := List.cons_ne_nil l' lines
      rw [List.flatMap_cons, ih hne, block_cons l hne, List.append_assoc, List.append_assoc,
        List.append_assoc]

/-- The blank line behind a block is the first one. -/
theorem find_blank {lines : List Bytes} (h : ∀ l ∈ lines, Line l) (hne : lines ≠ []) (s : Bytes) :
    find (crlf ++ crlf) (block lines ++ (crlf ++ (crlf ++ s))) = some (block lines).length := by
  have hline : ∀ {l : Bytes}, Line l → ∀ s,
      find (crlf ++ crlf) (l ++ s) = (find (crlf ++ crlf) s).map (· + l.length) :=
    fun hl s => find_append_of_not_mem fun hc => (hl.noBreak _ hc).1 rfl
  induction lines with
  | nil => exact absurd rfl hne
  | cons l lines ih =>
    rw [List.forall_mem_cons] at h
    cases lines with
    | nil =>
      have hhere : find (crlf ++ crlf) (crlf ++ (crlf ++ s)) = some 0 :=
        find_of_prefixed ⟨s, List.append_assoc _ _ _⟩
      rw [block_singleton, hline h.1, hhere, Option.map_some, Nat.zero_add]
    | cons l' lines =>
      have hne' : l' :: lines ≠ [] := List.cons_ne_nil l' lines
      -- the line ending before a line is not the blank line
      have hbegin : ∃ c t, block (l' :: lines) = c :: t ∧ c ≠ 13 := by
        have hl' := h.2 l' List.mem_cons_self
        cases hcons : l' with
        | nil => exact absurd hcons hl'.nonempty
        | cons c t =>
          have hc := (hl'.noBreak c (hcons ▸ List.mem_cons_self)).1
          cases lines with
          | nil => exact ⟨c, t, block_singleton _, hc⟩
          | cons m lines => exact ⟨c, _, block_cons _ (List.cons_ne_nil m lines), hc⟩
      obtain ⟨c, t, hblock, hc⟩ := hbegin
      have hmid : ∀ s, find (crlf ++ crlf) (crlf ++ (block (l' :: lines) ++ s)) =
          (find (crlf ++ crlf) (block (l' :: lines) ++ s)).map (· + 2) := by
        intro s
        have hcr : ¬ crlf ++ crlf <+: 13 :: 10 :: (block (l' :: lines) ++ s) := by
          rw [hblock]
          rintro ⟨w, hw⟩
          simp only [crlf, List.cons_append, List.nil_append, List.cons.injEq, true_and] at hw
          exact hc hw.1.symm
        have hlf : ¬ crlf ++ crlf <+: 10 :: (block (l' :: lines) ++ s) := by
          rintro ⟨w, hw⟩
          cases hw
        have hsplit : crlf ++ (block (l' :: lines) ++ s) =
            13 :: 10 :: (block (l' :: lines) ++ s) := rfl
        rw [hsplit, find_cons_of_not_prefixed hcr, find_cons_of_not_prefixed hlf, Option.map_map]
        rfl
      rw [block_cons l hne', List.append_assoc, List.append_assoc, hline h.1, hmid, ih h.2 hne']
      simp only [Option.map_some, List.length_append, Option.some.injEq]
      have : crlf.length = 2 := rfl
      omega

/-- The value of the last of some fields with a name. -/
def lastValue (name : Bytes) (fields : List (Bytes × Bytes)) : Option Bytes :=
  ((fields.filter (·.1 = name)).getLast?).map (·.2)

theorem lastValue_cons (name : Bytes) (f : Bytes × Bytes) (fields : List (Bytes × Bytes)) :
    lastValue name (f :: fields) =
      (lastValue name fields).or (if f.1 = name then some f.2 else none) := by
  rw [lastValue, lastValue, List.filter_cons]
  by_cases hf : f.1 = name
  · rw [if_pos (decide_eq_true hf), if_pos hf, List.getLast?_cons]
    cases (fields.filter (·.1 = name)).getLast? <;> rfl
  · rw [if_neg (by simpa only [decide_eq_true_eq] using hf), if_neg hf, Option.or_none]

theorem lastValue_append_singleton (name : Bytes) (fields : List (Bytes × Bytes))
    (f : Bytes × Bytes) :
    lastValue name (fields ++ [f]) = if f.1 = name then some f.2 else lastValue name fields := by
  rw [lastValue, lastValue, List.filter_append, List.filter_singleton]
  by_cases hf : f.1 = name
  · rw [if_pos hf, decide_eq_true hf, cond_true, List.getLast?_concat]
    rfl
  · rw [if_neg hf, decide_eq_false hf, cond_false, List.append_nil]

/-- The lines of a header block as it is received. -/
def headerLines (rawHeaders : Bytes) : List Bytes :=
  splitString (rawHeaders.filter (· ≠ '\r'.toUInt8)) '\n'.toUInt8 true

/-- What `parseHeaders` answers is the value of the last line of a name. -/
theorem lookup_parseHeaders (rawHeaders name : Bytes) :
    (parseHeaders rawHeaders).lookup name =
      lastValue name ((headerLines rawHeaders).filterMap headerLine) := by
  rw [parseHeaders, ← headerLines, ← Option.or_none (o := lastValue name _),
    ← AssocMap.lookup_empty (ν := Bytes) name]
  -- one line after the other is put into the map
  generalize AssocMap.empty = headers
  induction headerLines rawHeaders generalizing headers with
  | nil => rfl
  | cons l lines ih =>
    rw [List.foldl_cons, ih, List.filterMap_cons]
    cases headerLine l with
    | none => rfl
    | some f =>
      dsimp only
      rw [lastValue_cons, AssocMap.lookup_insert, Option.or_assoc]
      congr 1
      by_cases hf : f.1 = name
      · rw [if_pos hf.symm, if_pos hf]
        rfl
      · rw [if_neg (Ne.symm hf), if_neg hf, Option.none_or]

theorem headerLines_block {lines : List Bytes} (h : ∀ l ∈ lines, Line l) :
    headerLines (block lines) = lines := by
  have hfilter : (block lines).filter (· ≠ '\r'.toUInt8) =
      List.intercalate ['\n'.toUInt8] lines := by
    induction lines with
    | nil => rfl
    | cons l lines ih =>
      rw [List.forall_mem_cons] at h
      cases lines with
      | nil => rw [block_singleton, List.intercalate_singleton, h.1.filter]
      | cons l' lines =>
        rw [block_cons l (List.cons_ne_nil l' lines), List.filter_append, List.filter_append,
          h.1.filter, ih h.2, List.intercalate_cons_cons, List.append_assoc]
        rfl
  have htokens : ∀ l ∈ lines, l ≠ [] ∧ '\n'.toUInt8 ∉ l :=
    fun l hl => ⟨(h l hl).nonempty, fun hc => ((h l hl).noBreak _ hc).2 rfl⟩
  rw [headerLines, hfilter, splitString_intercalate htokens]

theorem lookup_parseHeaders_block {lines : List Bytes} (h : ∀ l ∈ lines, Line l) (name : Bytes) :
    (parseHeaders (block lines)).lookup name = lastValue name (lines.filterMap headerLine) := by
  rw [lookup_parseHeaders, headerLines_block h]

end Nawa.utils
