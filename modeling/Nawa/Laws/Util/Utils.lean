import Nawa.Util.Utils
import Nawa.Laws.Util.Bytes
import Mathlib.Data.List.Basic

/-!
# Laws of `nawa::utils`

`regexReplaceCallback` read as the replacement of successive matches, for an expression of any kind
that can be searched for (`regexReplaceCallbackBy_eq`) and for those of the model as one of them,
`splitString` as the separator split of its input, and `parseHeaders` line by line.
-/

namespace Nawa.utils

open Lib (AssocMap Regex)
open Lib.Regex
open Lib.Search

/-! ## Replacement -/

section Replace

variable {fmt : List Bytes → Except StdException Bytes}

/-- The texts of one match are collected, and the callback gets all of them. -/
theorem replaceLoop_submatches {marks n : Nat} {vs ts vec : List Bytes}
    (h : vs.length + n = marks + 1) (hpos : vs ≠ []) :
    replaceLoop marks fmt (some n) vec (vs ++ ts) =
      (fmt (vec ++ vs)).bind fun replacement =>
        (replaceLoop marks fmt none [] ts).map (replacement ++ ·) := by
  induction vs generalizing n vec with
  | nil => exact absurd rfl hpos
  | cons v vs ih =>
    rw [List.length_cons] at h
    cases vs with
    | nil =>
      have hlast : ¬ n < marks := by
        rw [List.length_nil] at h
        omega
      rw [List.cons_append, replaceLoop, if_neg hlast, List.nil_append]
    | cons v' vs =>
      have hnext : n < marks := by
        rw [List.length_cons] at h
        omega
      rw [List.cons_append, replaceLoop, if_pos hnext,
        ih (by rw [← h]; omega) (List.cons_ne_nil v' vs), List.append_assoc, List.singleton_append]

/-- What the loop makes of the tokens is the text with each match replaced. -/
theorem replaceLoop_tokensFrom {marks : Nat} (before : Bytes) (ps : List (Piece UInt8)) :
    replaceLoop marks fmt none [] (tokensFrom marks before ps) =
      (render (fun w g => fmt (w :: groupTexts marks g)) ps).map (before ++ ·) := by
  induction ps generalizing before with
  | nil =>
    rw [tokensFrom]
    split
    · next h =>
      rw [h]
      rfl
    · rw [replaceLoop, replaceLoop, render_nil]
  | cons p ps ih =>
    cases p with
    | skipped x =>
      rw [tokensFrom, ih, render_skipped]
      cases render (fun w g => fmt (w :: groupTexts marks g)) ps with
      | error e => rfl
      | ok s => exact congrArg Except.ok (List.append_cons before x s).symm
    | matched w g =>
      have hlen : (w :: groupTexts marks g).length + 0 = marks + 1 := by
        simp only [List.length_cons, groupTexts, List.length_map, List.length_range, Nat.add_zero]
      rw [tokensFrom, List.cons_append, replaceLoop,
        replaceLoop_submatches hlen (List.cons_ne_nil w _), List.nil_append, ih, render]
      cases render (fun w g => fmt (w :: groupTexts marks g)) ps <;> rfl

/-- **`regexReplaceCallback` replaces the matches and nothing else.** -/
theorem regexReplaceCallback_eq (s : Bytes) (rgx : Regex UInt8) :
    regexReplaceCallback s rgx fmt =
      render (fun w g => fmt (w :: groupTexts rgx.markCount g)) (rgx.pieces s) := by
  rw [regexReplaceCallback, tokens]
  split
  · next h =>
    rw [List.isEmpty_iff.mp h.2]
    rfl
  · rw [replaceLoop_tokensFrom]
    cases render (fun w g => fmt (w :: groupTexts rgx.markCount g)) (rgx.pieces s) <;> rfl

theorem regexReplaceCallback_cons {rgx : Regex UInt8} {x : UInt8} {s : Bytes}
    (h : rgx.matchAt (x :: s) = none) :
    regexReplaceCallback (x :: s) rgx fmt = (regexReplaceCallback s rgx fmt).map (x :: ·) := by
  rw [regexReplaceCallback_eq, regexReplaceCallback_eq, pieces_cons_of_none h, render_skipped]

theorem regexReplaceCallback_append {rgx : Regex UInt8} {w v s : Bytes} {g : Captures UInt8}
    (hne : w ≠ []) (h : rgx.matchAt (w ++ s) = some (s, g))
    (hfmt : fmt (w :: groupTexts rgx.markCount g) = .ok v) :
    regexReplaceCallback (w ++ s) rgx fmt = (regexReplaceCallback s rgx fmt).map (v ++ ·) := by
  rw [regexReplaceCallback_eq, regexReplaceCallback_eq, pieces_append_of_matchAt hne h,
    render_matched _ hfmt]

/-! ### Expressions of any kind -/

section Searcher

open Lib (Hit)

variable {marks : Nat}

/-- A token for each of the numbers: the text before the match, the match and the groups. -/
theorem map_sub_submatchList (h : Hit UInt8 marks) :
    (submatchList marks).map h.sub = h.before :: h.texts := by
  have hsub : (h.sub ∘ fun n : Nat => (n : Int) - 1) ∘ Nat.succ = fun n => h.texts.getD n [] := by
    funext n
    have hnat : ((n.succ : Nat) : Int) - 1 = n := by omega
    have hneg : ¬ (n : Int) < 0 := by omega
    rw [Function.comp_apply, Function.comp_apply, hnat, Hit.sub, if_neg hneg, Int.toNat_natCast]
  have htexts : (List.range (marks + 1)).map (fun n => h.texts.getD n []) = h.texts := by
    refine List.ext_getElem ?_ fun n hn hn' => ?_
    · rw [List.length_map, List.length_range, h.length_texts]
    · rw [List.getElem_map, List.getElem_range, List.getD_eq_getElem?_getD,
        List.getElem?_eq_getElem hn', Option.getD_some]
  rw [submatchList, List.map_map, List.range_succ_eq_map, List.map_cons, List.map_map, hsub,
    htexts]
  rfl

/-- The text in which the matches have been replaced by other texts. -/
def rewritten (hits : List (Hit UInt8 marks)) (rest : Bytes) (replacements : List Bytes) : Bytes :=
  (List.zipWith (fun h v => h.before ++ v) hits replacements).flatten ++ rest

/-- The loop stays in phase: after the tokens of a match it waits for the text before the next. -/
theorem replaceLoop_hits (hits : List (Hit UInt8 marks)) {rest : Bytes} {last : List Bytes}
    (hlast : replaceLoop marks fmt none [] last = .ok rest) :
    replaceLoop marks fmt none []
        (hits.flatMap (fun h => (submatchList marks).map h.sub) ++ last) =
      (hits.mapM fun h => fmt h.texts).map (rewritten hits rest) := by
  induction hits with
  | nil => exact hlast
  | cons h hits ih =>
    have hlen : h.texts.length + 0 = marks + 1 := h.length_texts
    rw [List.flatMap_cons, map_sub_submatchList, List.cons_append, List.cons_append, replaceLoop,
      List.append_assoc, replaceLoop_submatches hlen (List.cons_ne_nil _ _), List.nil_append, ih,
      List.mapM_cons]
    cases fmt h.texts with
    | error e => rfl
    | ok v =>
      cases hits.mapM fun h => fmt h.texts with
      | error e => rfl
      | ok vs =>
        have hcons : h.before ++ (v ++ rewritten hits rest vs) =
            rewritten (h :: hits) rest (v :: vs) := by
          rw [rewritten, rewritten, List.zipWith_cons_cons, List.flatten_cons, List.append_assoc,
            List.append_assoc]
        exact congrArg Except.ok hcons

theorem neg_one_mem_submatchList (marks : Nat) : -1 ∈ submatchList marks :=
  List.mem_map.mpr ⟨0, List.mem_range.mpr (Nat.zero_lt_succ _), rfl⟩

theorem regexReplaceCallbackBy_eq (s : Bytes) (rgx : Lib.Searcher UInt8) :
    regexReplaceCallbackBy s rgx fmt =
      ((rgx.iterate s).1.mapM fun h => fmt h.texts).map
        (rewritten (rgx.iterate s).1 (rgx.iterate s).2) := by
  have hlast : replaceLoop rgx.markCount fmt none [] [(rgx.iterate s).2] =
      .ok (rgx.iterate s).2 := by
    rw [replaceLoop, replaceLoop]
    exact congrArg Except.ok (List.append_nil _)
  have hmem := neg_one_mem_submatchList rgx.markCount
  rw [regexReplaceCallbackBy, Lib.Searcher.tokens]
  dsimp only
  split
  · next hempty =>
    rw [hlast, List.isEmpty_iff.mp hempty]
    rfl
  · refine replaceLoop_hits _ ?_
    split
    · exact hlast
    · next hrest =>
      have hnil : (rgx.iterate s).2 = [] := not_not.mp fun hne => hrest ⟨hmem, hne⟩
      rw [hnil]
      rfl

/-- Where every match is replaced by itself, the text is the same. -/
theorem rewritten_matched (hits : List (Hit UInt8 marks)) (rest : Bytes) :
    rewritten hits rest (hits.map Hit.matched) =
      (hits.flatMap fun h => h.before ++ h.matched) ++ rest := by
  rw [rewritten, List.zipWith_map_right, List.zipWith_self, List.flatMap]

/-- The expressions of the model are searched as any other. -/
theorem regexReplaceCallback_eq_by (s : Bytes) (rgx : Regex UInt8)
    (fmt : List Bytes → Except StdException Bytes) :
    regexReplaceCallback s rgx fmt = regexReplaceCallbackBy s rgx.searcher fmt := by
  have htokens : rgx.searcher.tokens (submatchList rgx.markCount) s = rgx.tokens s :=
    rgx.tokens_searcher (neg_one_mem_submatchList _) map_sub_submatchList s
  rw [regexReplaceCallback, regexReplaceCallbackBy, ← htokens]
  rfl

/-- **The matches are rewritten and nothing else**, whatever the expression and the callback are;
and the expressions of the model are searched as any other. -/
theorem regexReplaceCallbackBy_rewrites (s : Bytes) (rgx : Lib.Searcher UInt8)
    (fmt : List Bytes → Except StdException Bytes) :
    ((rgx.iterate s).1.flatMap fun h => h.before ++ h.matched) ++ (rgx.iterate s).2 = s ∧
      regexReplaceCallbackBy s rgx fmt =
        ((rgx.iterate s).1.mapM fun h =>
          fmt (h.matched :: List.ofFn fun n => (h.groups n).getD [])).map (fun replacements =>
            (List.zipWith (fun h v => h.before ++ v) (rgx.iterate s).1 replacements).flatten ++
              (rgx.iterate s).2) ∧
      regexReplaceCallbackBy s rgx (fun submatches => at' submatches 0) = .ok s ∧
      ∀ e : Regex UInt8,
        regexReplaceCallback s e fmt = regexReplaceCallbackBy s e.searcher fmt := by
  refine ⟨rgx.text_iterate s, regexReplaceCallbackBy_eq s rgx, ?_,
    fun e => regexReplaceCallback_eq_by s e fmt⟩
  have hmatches : (rgx.iterate s).1.mapM (fun h => at' h.texts 0) =
      (.ok ((rgx.iterate s).1.map Hit.matched) : Except StdException (List Bytes)) :=
    List.mapM_pure
  rw [regexReplaceCallbackBy_eq, hmatches]
  refine congrArg Except.ok ?_
  rw [rewritten_matched, rgx.text_iterate]

end Searcher

end Replace

/-- An empty key is found over and over again. -/
theorem replaceKey_nil (val : Bytes) (fuel : Nat) (input : Bytes) :
    replaceKey [] val fuel input = .error .diverges := by
  induction fuel generalizing input with
  | zero => rfl
  | succ fuel ih =>
    have hfind : find ([] : Bytes) input = some 0 := find_of_prefixed List.nil_prefix
    rw [replaceKey, hfind]
    dsimp only
    rw [ih]
    rfl

/-- The fuel of `stringReplace` is enough for any other key. -/
theorem replaceKey_terminates {key : Bytes} (hne : key ≠ []) (val : Bytes) {fuel : Nat}
    {input : Bytes} (h : input.length < fuel) : ∃ out, replaceKey key val fuel input = .ok out := by
  induction fuel generalizing input with
  | zero => exact absurd h (Nat.not_lt_zero _)
  | succ fuel ih =>
    rw [replaceKey]
    cases hfind : find key input with
    | none => exact ⟨input, rfl⟩
    | some pos =>
      have hpos := List.length_pos_iff.mpr hne
      have hle := find_add_length_le hfind hne
      have hlt : (input.drop (pos + key.length)).length < fuel := by
        rw [List.length_drop]
        omega
      obtain ⟨rest, hrest⟩ := ih hlt
      exact ⟨input.take pos ++ val ++ rest, by dsimp only; rw [hrest]; rfl⟩

/-- A single byte is replaced wherever it stands. -/
theorem replaceKey_singleton (key val : UInt8) {fuel : Nat} {input : Bytes}
    (h : input.length < fuel) :
    replaceKey [key] [val] fuel input = .ok (input.map fun c => if c = key then val else c) := by
  induction fuel generalizing input with
  | zero => exact absurd h (Nat.not_lt_zero _)
  | succ fuel ih =>
    have hsame : ∀ s : Bytes, key ∉ s → (s.map fun c => if c = key then val else c) = s := by
      intro s hs
      have hid : ∀ c ∈ s, (if c = key then val else c) = id c := by
        intro c hc
        have hne : c ≠ key := fun heq => hs (heq ▸ hc)
        exact if_neg hne
      rw [List.map_congr_left hid, List.map_id]
    rw [replaceKey, find_singleton]
    by_cases hmem : key ∈ input
    · obtain ⟨before, rest, rfl, hbefore⟩ := List.eq_append_cons_of_mem hmem
      have hrest : rest.length < fuel := by
        rw [List.length_append, List.length_cons] at h
        omega
      have hdrop : (before ++ key :: rest).drop (before.length + 1) = rest :=
        drop_append_sep _ _ _
      rw [findElem_append_sep hbefore]
      dsimp only [List.length_singleton]
      rw [hdrop, List.take_left, ih hrest, List.map_append, hsame before hbefore, List.map_cons,
        if_pos rfl]
      exact congrArg Except.ok (List.append_assoc before [val] _)
    · rw [findElem_eq_none.mpr hmem, hsame input hmem]

/-- Replacement returns exactly when no key is empty. -/
theorem stringReplace_returns_iff (input : Bytes) (patterns : List (Bytes × Bytes)) :
    (∃ out, stringReplace input patterns = .ok out) ↔ ∀ e ∈ patterns, e.1 ≠ [] := by
  induction patterns generalizing input with
  | nil => exact iff_of_true ⟨input, rfl⟩ nofun
  | cons e patterns ih =>
    rw [stringReplace, List.foldlM_cons, List.forall_mem_cons]
    by_cases he : e.1 = []
    · refine iff_of_false ?_ fun h => h.1 he
      rw [he, replaceKey_nil]
      rintro ⟨out, hout⟩
      cases hout
    · obtain ⟨out, hout⟩ := replaceKey_terminates he e.2 (Nat.lt_succ_self input.length)
      rw [hout]
      exact (ih out).trans (and_iff_right he).symm

/-! ## Splitting -/

@[simp] theorem splitString_nil (d : UInt8) (e : Bool) : splitString [] d e = [] := rfl

/-- More fuel than a turn for each byte makes no difference. -/
theorem splitLoop_fuel {d : UInt8} {e : Bool} {fuel : Nat} {str : Bytes} (h : str.length ≤ fuel) :
    splitLoop d e fuel str = splitString str d e := by
  rw [splitString]
  induction hlen : str.length using Nat.strongRecOn generalizing fuel str with
  | ind n ih =>
    subst hlen
    cases str with
    | nil => cases fuel <;> rfl
    | cons c cs =>
      cases fuel with
      | zero => exact absurd h (Nat.not_succ_le_zero _)
      | succ fuel =>
        have hdrop : ∀ m, ((c :: cs).drop (m + 1)).length ≤ cs.length := by
          intro m
          rw [List.length_drop, List.length_cons]
          omega
        have hsame : ∀ m, splitLoop d e fuel ((c :: cs).drop (m + 1)) =
            splitLoop d e cs.length ((c :: cs).drop (m + 1)) := by
          intro m
          have hlt := Nat.lt_succ_of_le (hdrop m)
          rw [ih _ hlt (Nat.le_trans (hdrop m) (Nat.le_of_succ_le_succ h)) rfl,
            ih _ hlt (hdrop m) rfl]
        simp only [splitLoop, hsame]
        rfl

/-- A separator ends a token wherever it stands. -/
theorem splitString_token_sep {p : Bytes} {d : UInt8} (h : d ∉ p) (e : Bool) (t : Bytes) :
    splitString (p ++ d :: t) d e =
      (if !e || !p.isEmpty then [p] else []) ++ splitString t d e := by
  have hfind : findElem d (p ++ d :: t) = some p.length := findElem_append_sep h
  have hdrop : (p ++ d :: t).drop (p.length + 1) = t :=
    drop_append_sep _ _ _
  obtain ⟨c, cs, hcons⟩ := List.exists_cons_of_ne_nil (l := p ++ d :: t)
    (List.append_ne_nil_of_right_ne_nil p (List.cons_ne_nil d t))
  have htail : t.length ≤ cs.length := by
    have hlength := congrArg List.length hcons
    rw [List.length_append, List.length_cons, List.length_cons] at hlength
    omega
  rw [← splitLoop_fuel htail, splitString, hcons, List.length_cons, splitLoop, ← hcons, hfind]
  · have htake : (p ++ d :: t).take p.length = p := List.take_left
    simp only [hdrop, htake]
  · exact fun heq => List.cons_ne_nil c cs heq

/-- A non-empty token without the separator is its own split. -/
theorem splitString_singleton {s : Bytes} {d : UInt8} {e : Bool} (hne : s ≠ []) (hd : d ∉ s) :
    splitString s d e = [s] := by
  obtain ⟨c, cs, rfl⟩ := List.exists_cons_of_ne_nil hne
  rw [splitString, List.length_cons, splitLoop, findElem_eq_none.mpr hd]
  · cases e <;> rfl
  · exact fun heq => List.cons_ne_nil c cs heq

/-- With empty tokens ignored, splitting is the separator split without its empty pieces. -/
theorem splitString_ignoreEmpty (s : Bytes) (d : UInt8) :
    splitString s d true = (s.splitOn d).filter (· ≠ []) := by
  induction s using sep_induction d with
  | run s hs =>
    rw [List.splitOn_eq_singleton hs]
    by_cases hne : s = []
    · rw [hne]
      rfl
    · have hkept : decide (s ≠ []) = true := decide_eq_true hne
      rw [splitString_singleton hne hs, List.filter_singleton, hkept]
      rfl
  | sep p u hp ih =>
    rw [splitString_token_sep hp, ih, List.splitOn_append_cons_self_of_not_mem hp,
      List.filter_cons]
    cases p <;> rfl

/-- Splitting at a separator splits both sides on their own. -/
theorem splitString_append_sep (xs ys : Bytes) (d : UInt8) :
    splitString (xs ++ d :: ys) d true = splitString xs d true ++ splitString ys d true := by
  simp only [splitString_ignoreEmpty, List.splitOn_append_cons_self, List.filter_append]

/-- Non-empty tokens without the separator are split where they were joined. -/
theorem splitString_intercalate {d : UInt8} {tokens : List Bytes}
    (h : ∀ t ∈ tokens, t ≠ [] ∧ d ∉ t) :
    splitString (List.intercalate [d] tokens) d true = tokens := by
  induction tokens with
  | nil => rfl
  | cons t tokens ih =>
    rw [List.forall_mem_cons] at h
    cases tokens with
    | nil =>
      rw [List.intercalate_singleton]
      exact splitString_singleton h.1.1 h.1.2
    | cons t' tokens =>
      rw [List.intercalate_cons_cons, List.append_assoc, List.singleton_append,
        splitString_append_sep, splitString_singleton h.1.1 h.1.2, ih h.2]
      rfl

theorem splitString_append_sep_keepEmpty {p : Bytes} {d : UInt8} (h : d ∉ p) (t : Bytes) :
    splitString (p ++ d :: t) d false = p :: splitString t d false :=
  splitString_token_sep h false t

/-- The text before a last separator is split, and the separator is left out. -/
theorem splitString_concat_keepEmpty (t : Bytes) (d : UInt8) :
    splitString (t ++ [d]) d false = t.splitOn d := by
  induction t using sep_induction d with
  | run t ht =>
    rw [splitString_append_sep_keepEmpty ht, splitString_nil, List.splitOn_eq_singleton ht]
  | sep p u hp ih =>
    rw [List.append_assoc, List.cons_append, splitString_append_sep_keepEmpty hp, ih,
      List.splitOn_append_cons_self_of_not_mem hp]

/-- A text that does not end with a separator is split at all of them. -/
theorem splitString_keepEmpty {s : Bytes} {d : UInt8} (hne : s ≠ [])
    (hlast : s.getLast? ≠ some d) : splitString s d false = s.splitOn d := by
  induction s using sep_induction d with
  | run s hs => rw [splitString_singleton hne hs, List.splitOn_eq_singleton hs]
  | sep p u hp ih =>
    have hu : u ≠ [] := by
      rintro rfl
      exact hlast (List.getLast?_concat)
    have hlast' : u.getLast? ≠ some d := by
      intro heq
      obtain ⟨v, rfl⟩ := List.getLast?_eq_some_iff.mp heq
      rw [← List.cons_append, ← List.append_assoc] at hlast
      exact hlast List.getLast?_concat
    rw [splitString_append_sep_keepEmpty hp, ih hu hlast',
      List.splitOn_append_cons_self_of_not_mem hp]

/-- Whether empty tokens are ignored makes no other difference. -/
theorem splitString_ignoreEmpty_eq_filter (s : Bytes) (d : UInt8) :
    splitString s d true = (splitString s d false).filter (· ≠ []) := by
  rw [splitString_ignoreEmpty]
  by_cases hlast : s.getLast? = some d
  · obtain ⟨t, rfl⟩ := List.getLast?_eq_some_iff.mp hlast
    rw [splitString_concat_keepEmpty, List.splitOn_append_cons_self, List.splitOn_nil,
      List.filter_append]
    exact List.append_nil _
  · by_cases hne : s = []
    · rw [hne]
      rfl
    · rw [splitString_keepEmpty hne hlast]

/-- What is asked of a split that keeps empty tokens. -/
structure LosesNothing (s : Bytes) (d : UInt8) : Prop where
  joined : List.intercalate [d] (splitString s d false) = s
  count : s ≠ [] → (splitString s d false).length = s.count d + 1
  filtered : splitString s d true = (splitString s d false).filter (· ≠ [])

/-- A split loses nothing but a separator at the end of the text. -/
theorem losesNothing_iff (s : Bytes) (d : UInt8) :
    LosesNothing s d ↔ s.getLast? ≠ some d := by
  constructor
  · intro h hlast
    obtain ⟨t, rfl⟩ := List.getLast?_eq_some_iff.mp hlast
    have hjoined := h.joined
    rw [splitString_concat_keepEmpty, List.intercalate_splitOn] at hjoined
    exact List.cons_ne_nil d [] (List.self_eq_append_right.mp hjoined)
  · intro hlast
    refine ⟨?_, fun hne => ?_, splitString_ignoreEmpty_eq_filter s d⟩
    · by_cases hne : s = []
      · rw [hne]
        rfl
      · rw [splitString_keepEmpty hne hlast, List.intercalate_splitOn]
    · rw [splitString_keepEmpty hne hlast, length_splitOn]

/-- The empty token behind the comma is lost. -/
theorem not_losesNothing : ¬ ∀ (s : Bytes) (d : UInt8), LosesNothing s d := by
  intro h
  have hcount := (h (bytes "a,") ','.toUInt8).count (by decide)
  revert hcount
  decide

/-- A text in which something other than the separator stands has a token. -/
theorem splitString_ne_nil {s : Bytes} {d c : UInt8} (hc : c ∈ s) (hne : c ≠ d) :
    splitString s d true ≠ [] := by
  induction s using sep_induction d with
  | run s hs =>
    rw [splitString_singleton (List.ne_nil_of_mem hc) hs]
    exact List.cons_ne_nil _ _
  | sep t u ht ih =>
    rw [splitString_append_sep]
    rcases List.mem_append.mp hc with hc | hc
    · rw [splitString_singleton (List.ne_nil_of_mem hc) ht]
      exact List.cons_ne_nil _ _
    · exact List.append_ne_nil_of_right_ne_nil _ (ih ((List.mem_cons.mp hc).resolve_left hne))

theorem splitString_eq_nil_iff {s : Bytes} {d : UInt8} :
    splitString s d true = [] ↔ ∀ c ∈ s, c = d := by
  constructor
  · intro h c hc
    by_contra hne
    exact splitString_ne_nil hc hne h
  · intro h
    induction s with
    | nil => rfl
    | cons c s ih =>
      obtain ⟨rfl, hrest⟩ := List.forall_mem_cons.mp h
      have hcons : splitString (c :: s) c true = splitString [] c true ++ splitString s c true :=
        splitString_append_sep [] s c
      rw [hcons, splitString_nil, ih hrest]
      rfl

/-- The elements of a path are those of the text before the query string. -/
theorem splitPath_eq (s : Bytes) :
    splitPath s = splitString (s.takeWhile (· ≠ '?'.toUInt8)) '/'.toUInt8 true := by
  rw [splitPath]
  by_cases hquery : '?'.toUInt8 ∈ s
  · obtain ⟨path, query, rfl, hpath⟩ := List.eq_append_cons_of_mem hquery
    rw [findElem_append_sep hpath, takeWhile_append_sep hpath]
    dsimp only
    rw [List.take_left]
  · have hall : s.takeWhile (· ≠ '?'.toUInt8) = s :=
      List.takeWhile_eq_self_iff.mpr fun c hc => decide_eq_true fun heq => hquery (heq ▸ hc)
    rw [findElem_eq_none.mpr hquery, hall]

/-- No token holds the separator, and none is empty. -/
theorem mem_splitString {s t : Bytes} {d : UInt8} (h : t ∈ splitString s d true) :
    t ≠ [] ∧ d ∉ t := by
  rw [splitString_ignoreEmpty, List.mem_filter] at h
  exact ⟨of_decide_eq_true h.2, (mem_splitOn h.1).1⟩

/-- A token is a stretch of the split string. -/
theorem infix_of_mem_splitString {s t : Bytes} {d : UInt8} (h : t ∈ splitString s d true) :
    t <:+: s := by
  rw [splitString_ignoreEmpty, List.mem_filter] at h
  exact (mem_splitOn h.1).2

/-- A token is made of bytes of the text. -/
theorem mem_of_mem_splitString {s t : Bytes} {d c : UInt8} (h : t ∈ splitString s d true)
    (hc : c ∈ t) : c ∈ s :=
  (infix_of_mem_splitString h).subset hc

/-! ## Header blocks -/

/-- A line of a header block: neither empty nor broken. -/
structure Line (l : Bytes) : Prop where
  nonempty : l ≠ []
  noBreak : ∀ c ∈ l, c ≠ 13 ∧ c ≠ 10

theorem Line.filter {l : Bytes} (h : Line l) : l.filter (· ≠ '\r'.toUInt8) = l :=
  List.filter_eq_self.mpr fun c hc => decide_eq_true (h.noBreak c hc).1

/-- A header line with its value on the same line. -/
theorem headerLine_colon {key val : Bytes} (hkey : ':'.toUInt8 ∉ key) (hval : val ≠ []) :
    headerLine (key ++ ':'.toUInt8 :: val) = some (toLowercase key, trimLeft val) := by
  have hpos := List.length_pos_iff.mpr hval
  have hlen : ¬ (key ++ ':'.toUInt8 :: val).length < key.length + 2 := by
    simp only [List.length_append, List.length_cons]
    omega
  have hdrop : (key ++ ':'.toUInt8 :: val).drop (key.length + 1) = val :=
    drop_append_sep _ _ _
  simp only [headerLine, findElem_append_sep hkey, if_neg hlen, List.take_left, hdrop]

theorem headerLine_isInfix {line key val : Bytes} (h : headerLine line = some (key, val)) :
    val <:+: line := by
  unfold headerLine at h
  split at h
  · split at h
    · cases h
    · cases h
      exact ((List.dropWhile_suffix _).trans (List.drop_suffix _ _)).isInfix
  · cases h
    exact (List.dropWhile_suffix _).isInfix

/-- A header's value is a stretch of the header block without its carriage returns. -/
theorem lookup_parseHeaders_isInfix {raw k val : Bytes}
    (h : (parseHeaders raw).lookup k = some val) :
    val <:+: raw.filter (· ≠ '\r'.toUInt8) := by
  -- every value assigned so far came from a line of the block
  have hloop : ∀ k v, (parseHeaders raw).lookup k = some v →
      v <:+: raw.filter (· ≠ '\r'.toUInt8) := by
    unfold parseHeaders
    refine List.foldlRecOn (motive := fun ret : AssocMap Bytes Bytes =>
      ∀ k v, ret.lookup k = some v → v <:+: raw.filter (· ≠ '\r'.toUInt8)) _ _ ?_ ?_
    · intro k v hv
      rw [AssocMap.lookup_empty] at hv
      cases hv
    · intro ret hret line hline k v hv
      cases hheader : headerLine line with
      | none =>
        rw [hheader] at hv
        exact hret k v hv
      | some e =>
        obtain ⟨key, val⟩ := e
        rw [hheader, AssocMap.lookup_insert] at hv
        split at hv
        · cases hv
          exact (headerLine_isInfix hheader).trans (infix_of_mem_splitString hline)
        · exact hret k v hv
  exact hloop k val h

end Nawa.utils
