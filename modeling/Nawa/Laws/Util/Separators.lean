import Nawa.Laws.Util.HeaderBlock
import Nawa.Util.QueryString

/-!
# Lines and pieces without a separator

A header line without a colon and a cookie without an equals sign are to be left out. The readers
take them in instead, each under its own text, so a header block is read as it should be exactly
when no such line has the last word on a name, and a cookie header exactly when it has no such
piece.
-/

namespace Nawa.utils

open Lib.Search

/-- The texts before and behind the first separator, where something stands behind it. -/
def separated (d : UInt8) (s : Bytes) : Option (Bytes × Bytes) :=
  match s.dropWhile (· ≠ d) with
  | _ :: c :: val => some (s.takeWhile (· ≠ d), c :: val)
  | _ => none

/-- The field of a header line. -/
def headerField (line : Bytes) : Option (Bytes × Bytes) :=
  (separated ':'.toUInt8 line).map fun e => (toLowercase e.1, trimLeft e.2)

/-- The headers are the fields of the lines, the last one of a name. -/
def ReadsHeaders (rawHeaders : Bytes) : Prop :=
  ∀ name, (parseHeaders rawHeaders).lookup name =
    lastValue name ((headerLines rawHeaders).filterMap headerField)

/-- The pieces of a cookie header. -/
def cookiePieces (rawCookies : Bytes) : List Bytes := splitString rawCookies ';'.toUInt8 true

/-- The cookies are those of the pieces, in any order. -/
def ReadsCookies (rawCookies : Bytes) : Prop :=
  (parseCookies rawCookies).Perm
    ((cookiePieces rawCookies).filterMap fun c => separated '='.toUInt8 (trim c))

/-- A line without a colon is followed by another line of its name, or it says no other than the
last field of that name. -/
def ColonsDecide (rawHeaders : Bytes) : Prop :=
  ∀ before line after, headerLines rawHeaders = before ++ line :: after → ':'.toUInt8 ∉ line →
    toLowercase line ∈ (after.filterMap headerLine).map Prod.fst ∨
      lastValue (toLowercase line) (before.filterMap headerField) = some (trimLeft line)

/-! ## One line -/

theorem separated_of_not_mem {d : UInt8} {s : Bytes} (h : d ∉ s) : separated d s = none := by
  have hdrop : s.dropWhile (· ≠ d) = [] := by
    rw [List.dropWhile_eq_nil_iff]
    rintro c hc
    exact decide_eq_true fun heq => h (heq ▸ hc)
  rw [separated, hdrop]

theorem separated_append_sep {d : UInt8} {key : Bytes} (h : d ∉ key) (val : Bytes) :
    separated d (key ++ d :: val) = if val = [] then none else some (key, val) := by
  have hpos : ∀ c ∈ key, decide (c ≠ d) = true :=
    fun c hc => decide_eq_true fun heq => h (heq ▸ hc)
  have hneg : ¬ decide (d ≠ d) = true := by simp
  have hdrop : (key ++ d :: val).dropWhile (· ≠ d) = d :: val :=
    (List.dropWhile_append_of_pos hpos).trans (List.dropWhile_cons_of_neg hneg)
  have htake : (key ++ d :: val).takeWhile (· ≠ d) = key := takeWhile_append_sep h
  rw [separated, hdrop, htake]
  cases val with
  | nil => rfl
  | cons c val => rfl

/-- A line with a colon is read as its field, and one without as a field of its own. -/
theorem headerLine_eq (line : Bytes) :
    headerLine line =
      if ':'.toUInt8 ∈ line then headerField line else some (toLowercase line, trimLeft line) := by
  split
  · next h =>
    obtain ⟨key, val, rfl, hkey⟩ := List.eq_append_cons_of_mem h
    rw [headerField, separated_append_sep hkey]
    split
    · next hnil =>
      rw [hnil, headerLine, findElem_append_sep hkey]
      dsimp only
      rw [if_pos (by rw [List.length_append, List.length_singleton]; omega)]
      rfl
    · next hne => exact headerLine_colon hkey hne
  · next h => rw [headerLine, findElem_eq_none.mpr h]

theorem parseCookie_eq (c : Bytes) :
    parseCookie c =
      if '='.toUInt8 ∈ trim c then separated '='.toUInt8 (trim c)
      else if trim c = [] then none else some (trim c, trim c) := by
  by_cases h : '='.toUInt8 ∈ trim c
  · obtain ⟨key, val, heq, hkey⟩ := List.eq_append_cons_of_mem h
    have hdrop : (key ++ '='.toUInt8 :: val).drop (key.length + 1) = val :=
      drop_append_sep _ _ _
    rw [parseCookie, if_pos h, heq, separated_append_sep hkey,
      findElem_append_sep hkey]
    dsimp only
    rw [hdrop, List.take_left]
    split
    · next hlen =>
      rw [List.length_append, List.length_cons] at hlen
      rw [if_pos (List.length_eq_zero_iff.mp (by omega))]
    · next hlen =>
      rw [List.length_append, List.length_cons] at hlen
      rw [if_neg fun hnil => hlen (by rw [hnil, List.length_nil]; omega)]
  · rw [parseCookie, if_neg h, findElem_eq_none.mpr h]

/-! ## Header blocks -/

/-- The line has the name that it has as a field. -/
theorem headerField_of_not_mem {line : Bytes} (h : ':'.toUInt8 ∉ line) :
    headerField line = none := by
  rw [headerField, separated_of_not_mem h, Option.map_none]

theorem lastValue_of_not_mem {name : Bytes} {fields : List (Bytes × Bytes)}
    (h : name ∉ fields.map Prod.fst) : lastValue name fields = none := by
  have hfilter : fields.filter (·.1 = name) = [] := by
    rw [List.filter_eq_nil_iff]
    intro f hf heq
    exact h (of_decide_eq_true heq ▸ List.mem_map_of_mem hf)
  rw [lastValue, hfilter, List.getLast?_nil, Option.map_none]

/-- What the lines are read as agrees with their fields for one name, when the lines of that name
that have no colon do not have the last word. -/
theorem lastValue_headerLine {name : Bytes} {lines : List Bytes}
    (h : ∀ before line after, lines = before ++ line :: after → ':'.toUInt8 ∉ line →
      toLowercase line = name → name ∈ (after.filterMap headerLine).map Prod.fst ∨
        lastValue name (before.filterMap headerField) = some (trimLeft line)) :
    lastValue name (lines.filterMap headerLine) = lastValue name (lines.filterMap headerField) := by
  induction lines using List.reverseRecOn with
  | nil => rfl
  | append_singleton before line ih =>
    have hlast : ∀ f : Bytes → Option (Bytes × Bytes), [line].filterMap f = (f line).toList := by
      intro f
      rw [List.filterMap_cons]
      cases f line <;> rfl
    rw [List.filterMap_append, List.filterMap_append, hlast, hlast, headerLine_eq]
    have hbefore : (∀ f ∈ headerLine line, f.1 ≠ name) →
        lastValue name (before.filterMap headerLine) =
          lastValue name (before.filterMap headerField) := by
      intro hother
      refine ih fun first l after heq hcolon hname => ?_
      refine (h first l (after ++ [line]) ?_ hcolon hname).imp_left fun hmem => ?_
      · rw [heq, List.append_assoc, List.cons_append]
      · rw [List.filterMap_append, List.map_append, List.mem_append] at hmem
        refine hmem.resolve_right fun hnamed => ?_
        rw [hlast] at hnamed
        obtain ⟨f, hf, hname⟩ := List.mem_map.mp hnamed
        exact hother f (Option.mem_toList.mp hf) hname
    by_cases hcolon : ':'.toUInt8 ∈ line
    · rw [if_pos hcolon]
      cases hfield : headerField line with
      | none =>
        rw [Option.toList_none, List.append_nil, List.append_nil]
        exact hbefore (by rw [headerLine_eq, if_pos hcolon, hfield]; exact nofun)
      | some f =>
        rw [Option.toList_some, lastValue_append_singleton, lastValue_append_singleton]
        split
        · rfl
        · next hf =>
          refine hbefore fun f' hf' => ?_
          rw [headerLine_eq, if_pos hcolon, hfield] at hf'
          cases hf'
          exact hf
    · rw [if_neg hcolon, headerField_of_not_mem hcolon, Option.toList_some, Option.toList_none,
        List.append_nil, lastValue_append_singleton]
      split
      · next hname =>
        exact ((h before line [] rfl hcolon hname).resolve_left List.not_mem_nil).symm
      · next hname =>
        refine hbefore fun f' hf' => ?_
        rw [headerLine_eq, if_neg hcolon] at hf'
        cases hf'
        exact hname

theorem lastValue_append (name : Bytes) (fields fields' : List (Bytes × Bytes)) :
    lastValue name (fields ++ fields') = (lastValue name fields').or (lastValue name fields) := by
  rw [lastValue, lastValue, lastValue, List.filter_append, List.getLast?_append]
  cases (fields'.filter (·.1 = name)).getLast? <;> rfl

/-- The fields of some lines have no other names than the lines themselves are read under. -/
theorem names_headerField_subset {name : Bytes} {lines : List Bytes}
    (h : name ∈ (lines.filterMap headerField).map Prod.fst) :
    name ∈ (lines.filterMap headerLine).map Prod.fst := by
  obtain ⟨f, hf, rfl⟩ := List.mem_map.mp h
  obtain ⟨line, hline, hfield⟩ := List.mem_filterMap.mp hf
  refine List.mem_map_of_mem (List.mem_filterMap.mpr ⟨line, hline, ?_⟩)
  by_cases hcolon : ':'.toUInt8 ∈ line
  · rw [headerLine_eq, if_pos hcolon, hfield]
  · rw [headerField_of_not_mem hcolon] at hfield
    cases hfield

theorem readsHeaders_iff (rawHeaders : Bytes) :
    ReadsHeaders rawHeaders ↔ ColonsDecide rawHeaders := by
  constructor
  · intro h before line after hlines hcolon
    by_cases hlater : toLowercase line ∈ (after.filterMap headerLine).map Prod.fst
    · exact .inl hlater
    · refine .inr ?_
      have hread := h (toLowercase line)
      have hfields := lastValue_of_not_mem fun hmem => hlater (names_headerField_subset hmem)
      rw [lookup_parseHeaders, hlines, List.filterMap_append, List.filterMap_append,
        List.filterMap_cons_none (headerField_of_not_mem hcolon), lastValue_append,
        lastValue_append, hfields, Option.none_or,
        List.filterMap_cons_some (by rw [headerLine_eq, if_neg hcolon]), lastValue_cons,
        lastValue_of_not_mem hlater, Option.none_or, if_pos rfl, Option.some_or] at hread
      exact hread.symm
  · intro h name
    rw [lookup_parseHeaders]
    refine lastValue_headerLine fun before line after hlines hcolon hname => ?_
    exact hname ▸ h before line after hlines hcolon

/-! ## Cookie headers -/

/-- A reading that takes in more than another one is longer, unless it takes in the same. -/
theorem length_filterMap_le {α β : Type} {f g : α → Option β} {l : List α}
    (h : ∀ a ∈ l, g a = none ∨ f a = g a) :
    (l.filterMap g).length ≤ (l.filterMap f).length ∧
      ((l.filterMap f).length = (l.filterMap g).length → ∀ a ∈ l, f a = g a) := by
  induction l with
  | nil => exact ⟨Nat.le_refl _, fun _ => nofun⟩
  | cons a l ih =>
    rw [List.forall_mem_cons] at h
    obtain ⟨hle, hsame⟩ := ih h.2
    rw [List.forall_mem_cons]
    rcases h.1 with hnone | heq
    · cases hf : f a with
      | none =>
        rw [List.filterMap_cons_none hf, List.filterMap_cons_none hnone]
        exact ⟨hle, fun hlength => ⟨hnone.symm, hsame hlength⟩⟩
      | some b =>
        rw [List.filterMap_cons_some hf, List.filterMap_cons_none hnone, List.length_cons]
        exact ⟨Nat.le_succ_of_le hle, fun hlength => by omega⟩
    · cases hg : g a with
      | none =>
        rw [List.filterMap_cons_none (heq.trans hg), List.filterMap_cons_none hg]
        exact ⟨hle, fun hlength => ⟨heq.trans hg, hsame hlength⟩⟩
      | some b =>
        rw [List.filterMap_cons_some (heq.trans hg), List.filterMap_cons_some hg,
          List.length_cons, List.length_cons]
        exact ⟨Nat.succ_le_succ hle, fun hlength =>
          ⟨heq.trans hg, hsame (Nat.succ.inj hlength)⟩⟩

theorem readsCookies_iff (rawCookies : Bytes) :
    ReadsCookies rawCookies ↔
      ∀ c ∈ cookiePieces rawCookies, trim c ≠ [] → '='.toUInt8 ∈ trim c := by
  have hmore : ∀ c ∈ cookiePieces rawCookies, separated '='.toUInt8 (trim c) = none ∨
      parseCookie c = separated '='.toUInt8 (trim c) := by
    intro c _
    by_cases h : '='.toUInt8 ∈ trim c
    · exact .inr (by rw [parseCookie_eq, if_pos h])
    · exact .inl (separated_of_not_mem h)
  rw [ReadsCookies, parseCookies, ← cookiePieces]
  constructor
  · intro hperm c hc hne
    have hsame := (length_filterMap_le hmore).2 hperm.length_eq c hc
    by_contra h
    rw [parseCookie_eq, if_neg h, if_neg hne, separated_of_not_mem h] at hsame
    cases hsame
  · intro h
    have hsame : ∀ c ∈ cookiePieces rawCookies,
        parseCookie c = separated '='.toUInt8 (trim c) := by
      intro c hc
      by_cases hne : trim c = []
      · rw [parseCookie_eq, hne, if_neg List.not_mem_nil, if_pos rfl]
        rfl
      · rw [parseCookie_eq, if_pos (h c hc hne)]
    rw [List.filterMap_congr hsame]

/-- **Lines and pieces without a separator contribute nothing** exactly when each such line is
overruled or agrees with what is there, and when there is no such piece but blank ones. -/
theorem reads_iff (rawHeaders rawCookies : Bytes) :
    (ReadsHeaders rawHeaders ↔ ColonsDecide rawHeaders) ∧
      (ReadsCookies rawCookies ↔
        ∀ c ∈ cookiePieces rawCookies, trim c ≠ [] → '='.toUInt8 ∈ trim c) :=
  ⟨readsHeaders_iff rawHeaders, readsCookies_iff rawCookies⟩

/-- The line `abc` becomes a header, and the piece `abc` a cookie. -/
theorem not_reads_abc : ¬ (∀ rawHeaders, ReadsHeaders rawHeaders) ∧
    ¬ ∀ rawCookies, ReadsCookies rawCookies := by
  constructor
  · intro hall
    have hread := hall (bytes "abc") (bytes "abc")
    revert hread
    decide
  · intro hall
    have hlength := (hall (bytes "abc")).length_eq
    revert hlength
    decide

end Nawa.utils
