import Mathlib.Algebra.GroupWithZero.Nat
import Nawa.Laws.Util.Encoding
import Nawa.Util.QueryString

/-!
# Form data

`FormPair` is a pair of a form with one of its spellings, `serialise` the encoding
`application/x-www-form-urlencoded`, and the module settles for which spellings
`splitQueryString` gives the pairs back. The reader decodes values, in which only escapes with
digits in upper case count, and does not decode keys.

Each byte that is not read back as such is read as something heavier (`weight`), so that no
misreading is made up for by another pair.
-/

namespace Nawa.utils

open Lib.Search
open encoding (urlDecode upperHex)

/-! ## Any text -/

theorem queryPair_of_not_mem {p : Bytes} (h : '='.toUInt8 ∉ p) : queryPair p = .ok (p, []) := by
  rw [queryPair, findElem_eq_none.mpr h]

/-- A pair is split at its first equals sign. -/
theorem queryPair_append_sep {k : Bytes} (h : '='.toUInt8 ∉ k) (v : Bytes) :
    queryPair (k ++ '='.toUInt8 :: v) = (urlDecode v).map fun v => (k, v) := by
  have hdrop : (k ++ '='.toUInt8 :: v).drop (k.length + 1) = v :=
    drop_append_sep _ _ _
  have htake : (k ++ '='.toUInt8 :: v).take k.length = k := List.take_left
  rw [queryPair, findElem_append_sep h]
  dsimp only
  rw [hdrop, htake]
  cases v with
  | nil =>
    rw [if_neg (by rw [List.length_append, List.length_singleton]; omega)]
    rfl
  | cons c v =>
    rw [if_pos (by rw [List.length_append, List.length_cons, List.length_cons]; omega)]

theorem queryPair_returns (p : Bytes) : ∃ pair, queryPair p = .ok pair := by
  by_cases h : '='.toUInt8 ∈ p
  · obtain ⟨k, v, rfl, hk⟩ := List.eq_append_cons_of_mem h
    obtain ⟨value, hvalue⟩ := encoding.urlDecode_returns v
    exact ⟨(k, value), by rw [queryPair_append_sep hk, hvalue]; rfl⟩
  · exact ⟨(p, []), queryPair_of_not_mem h⟩

/-- The entry for a piece of a query. -/
def queryEntry (p : Bytes) : Bytes × Bytes :=
  match queryPair p with
  | .ok pair => pair
  | .error _ => ([], [])

theorem queryPair_eq (p : Bytes) : queryPair p = .ok (queryEntry p) := by
  obtain ⟨pair, hpair⟩ := queryPair_returns p
  rw [queryEntry, hpair]

theorem mapM_queryPair_eq (tokens : List Bytes) :
    tokens.mapM queryPair = .ok (tokens.map queryEntry) := by
  induction tokens with
  | nil => rfl
  | cons p tokens ih =>
    rw [List.mapM_cons, queryPair_eq, ih]
    rfl

/-- Whatever a client sends as a query, the reader of query strings does not throw. -/
theorem splitQueryString_returns (queryString : Bytes) :
    ∃ pairs, splitQueryString queryString = .ok pairs :=
  ⟨_, mapM_queryPair_eq _⟩

/-! ## Question marks -/

/-- A query without a question mark is read as a whole. -/
theorem splitQueryString_of_not_mem {s : Bytes} (h : '?'.toUInt8 ∉ s) :
    splitQueryString s = .ok ((splitString s '&'.toUInt8 true).map queryEntry) := by
  rw [splitQueryString, findElem_eq_none.mpr h]
  exact mapM_queryPair_eq _

/-- What stands before the first question mark is not read. -/
theorem splitQueryString_append_mark {s : Bytes} (h : '?'.toUInt8 ∉ s) (t : Bytes) :
    splitQueryString (s ++ '?'.toUInt8 :: t) =
      .ok ((splitString t '&'.toUInt8 true).map queryEntry) := by
  have hdrop : (s ++ '?'.toUInt8 :: t).drop (s.length + 1) = t :=
    drop_append_sep _ _ _
  rw [splitQueryString, findElem_append_sep h]
  dsimp only
  rw [hdrop]
  exact mapM_queryPair_eq _

/-- A piece whose beginning is cut off at a question mark is another pair. -/
theorem queryPair_mark_ne {w : Bytes} (s : Bytes) :
    queryPair (w ++ '?'.toUInt8 :: s) ≠ queryPair s := by
  intro heq
  obtain ⟨S, hS⟩ := encoding.urlDecode_returns s
  by_cases hw : '='.toUInt8 ∈ w
  · -- the question mark stands in the value, which becomes shorter
    obtain ⟨k, t, rfl, hk⟩ := List.eq_append_cons_of_mem hw
    obtain ⟨T, hT⟩ := encoding.urlDecode_returns t
    have hvalue : urlDecode (t ++ '?'.toUInt8 :: s) = .ok (T ++ '?'.toUInt8 :: S) :=
      encoding.urlDecode_append_cons (by decide) (by decide) hT hS
    rw [List.append_assoc, List.cons_append, queryPair_append_sep hk, hvalue] at heq
    by_cases hs : '='.toUInt8 ∈ s
    · obtain ⟨k', v, rfl, hk'⟩ := List.eq_append_cons_of_mem hs
      obtain ⟨K, hK⟩ := encoding.urlDecode_returns k'
      obtain ⟨V, hV⟩ := encoding.urlDecode_returns v
      have hwhole : urlDecode (k' ++ '='.toUInt8 :: v) = .ok (K ++ '='.toUInt8 :: V) :=
        encoding.urlDecode_append_cons (by decide) (by decide) hK hV
      cases hwhole.symm.trans hS
      rw [queryPair_append_sep hk', hV] at heq
      have hlength := congrArg List.length (Prod.mk.inj (Except.ok.inj heq)).2
      simp only [List.length_append, List.length_cons] at hlength
      omega
    · rw [queryPair_of_not_mem hs] at heq
      have hnil := (Prod.mk.inj (Except.ok.inj heq)).2
      exact absurd hnil (List.append_ne_nil_of_right_ne_nil T (List.cons_ne_nil _ S))
  · -- the question mark stands in the key, which becomes shorter
    by_cases hs : '='.toUInt8 ∈ s
    · obtain ⟨k, v, rfl, hk⟩ := List.eq_append_cons_of_mem hs
      obtain ⟨V, hV⟩ := encoding.urlDecode_returns v
      have hkey : '='.toUInt8 ∉ w ++ '?'.toUInt8 :: k := by
        rw [List.mem_append, List.mem_cons, not_or, not_or]
        exact ⟨hw, by decide, hk⟩
      rw [← List.cons_append, ← List.append_assoc, queryPair_append_sep hkey,
        queryPair_append_sep hk, hV] at heq
      have hlength := congrArg List.length (Prod.mk.inj (Except.ok.inj heq)).1
      simp only [List.length_append, List.length_cons] at hlength
      omega
    · have hkey : '='.toUInt8 ∉ w ++ '?'.toUInt8 :: s := by
        rw [List.mem_append, List.mem_cons, not_or, not_or]
        exact ⟨hw, by decide, hs⟩
      rw [queryPair_of_not_mem hkey, queryPair_of_not_mem hs] at heq
      have hlength := congrArg List.length (Prod.mk.inj (Except.ok.inj heq)).1
      simp only [List.length_append, List.length_cons] at hlength
      omega

/-- A text ends in a piece of its own, which goes on with what is appended. -/
theorem splitString_append (d : UInt8) (s : Bytes) :
    ∃ tokens w, d ∉ w ∧
      ∀ t, splitString (s ++ t) d true = tokens ++ splitString (w ++ t) d true := by
  by_cases h : d ∈ s.reverse
  · obtain ⟨w, u, heq, hw⟩ := List.eq_append_cons_of_mem h
    have hs : s = u.reverse ++ d :: w.reverse := by
      rw [← List.reverse_reverse s, heq, List.reverse_append, List.reverse_cons,
        List.append_assoc]
      rfl
    refine ⟨splitString u.reverse d true, w.reverse, by rwa [List.mem_reverse], fun t => ?_⟩
    rw [hs, List.append_assoc, List.cons_append, splitString_append_sep]
  · exact ⟨[], s, by rwa [List.mem_reverse] at h, fun t => rfl⟩

/-- A text begins with a piece of its own, which goes on to the left. -/
theorem splitString_prepend (d : UInt8) (t : Bytes) :
    ∃ s tokens, d ∉ s ∧ splitString t d true = (if s = [] then [] else [s]) ++ tokens ∧
      ∀ w, w ≠ [] → d ∉ w → splitString (w ++ t) d true = (w ++ s) :: tokens := by
  by_cases h : d ∈ t
  · obtain ⟨s, u, rfl, hs⟩ := List.eq_append_cons_of_mem h
    refine ⟨s, splitString u d true, hs, ?_, fun w hne hw => ?_⟩
    · rw [splitString_append_sep]
      split
      · next hnil => rw [hnil, splitString_nil]
      · next hne => rw [splitString_singleton hne hs]
    · have hmem : d ∉ w ++ s := by
        rw [List.mem_append, not_or]
        exact ⟨hw, hs⟩
      rw [← List.append_assoc, splitString_append_sep,
        splitString_singleton (List.append_ne_nil_of_left_ne_nil hne s) hmem]
      rfl
  · refine ⟨t, [], h, ?_, fun w hne hw => ?_⟩
    · rw [List.append_nil]
      split
      · next hnil => rw [hnil, splitString_nil]
      · next hne => exact splitString_singleton hne h
    · refine splitString_singleton (List.append_ne_nil_of_left_ne_nil hne t) ?_
      rw [List.mem_append, not_or]
      exact ⟨hw, h⟩

/-- Each piece of a query has its entry exactly when there is no question mark in it. -/
theorem splitQueryString_perm_iff {s : Bytes} {pairs : List (Bytes × Bytes)}
    (h : splitQueryString s = .ok pairs) :
    pairs.Perm ((splitString s '&'.toUInt8 true).map queryEntry) ↔ '?'.toUInt8 ∉ s := by
  constructor
  · intro hperm hmark
    obtain ⟨x, y, rfl, hx⟩ := List.eq_append_cons_of_mem hmark
    cases (splitQueryString_append_mark hx y).symm.trans h
    obtain ⟨before, w, hw, hbefore⟩ := splitString_append '&'.toUInt8 x
    obtain ⟨t, after, -, hy, hafter⟩ := splitString_prepend '&'.toUInt8 y
    have hwhole : splitString (x ++ '?'.toUInt8 :: y) '&'.toUInt8 true =
        before ++ (w ++ '?'.toUInt8 :: t) :: after := by
      have hmem : '&'.toUInt8 ∉ w ++ ['?'.toUInt8] := by
        rw [List.mem_append, not_or]
        exact ⟨hw, by decide⟩
      have hpiece := hafter _ (List.append_ne_nil_of_right_ne_nil w (List.cons_ne_nil _ [])) hmem
      rw [List.append_assoc, List.append_assoc, List.singleton_append,
        List.singleton_append] at hpiece
      rw [hbefore, hpiece]
    rw [hwhole, hy] at hperm
    have hlength := hperm.length_eq
    split at hperm
    · next hnil =>
      rw [if_pos hnil] at hlength
      simp only [List.length_map, List.length_append, List.length_nil, List.length_cons] at hlength
      omega
    · next hne =>
      rw [if_neg hne] at hlength
      simp only [List.length_map, List.length_append, List.length_cons, List.length_nil] at hlength
      obtain rfl := List.length_eq_zero_iff.mp (show before.length = 0 by omega)
      have hsame := List.singleton_perm_singleton.mp
        ((List.perm_append_right_iff (after.map queryEntry)).mp hperm)
      refine queryPair_mark_ne (w := w) t ?_
      rw [queryPair_eq, queryPair_eq, hsame]
  · intro hmark
    cases (splitQueryString_of_not_mem hmark).symm.trans h
    exact List.Perm.refl _

/-! ## Spellings -/

/-- The bytes that stand for themselves in a form. -/
def unreserved (c : UInt8) : Bool := isalnum c ∨ c ∈ bytes "*-._~"

/-- A byte with the way in which it is spelled. -/
inductive SpelledByte where
  | plain (c : UInt8) (h : unreserved c = true)
  | code (hi lo : UInt8) (hhi : isxdigit hi = true) (hlo : isxdigit lo = true)
  | plus

namespace SpelledByte

def byte : SpelledByte → UInt8
  | plain c _ => c
  | code hi lo _ _ => UInt8.ofNat (xdigitsValue [hi, lo])
  | plus => ' '.toUInt8

def text : SpelledByte → Bytes
  | plain c _ => [c]
  | code hi lo _ _ => ['%'.toUInt8, hi, lo]
  | plus => ['+'.toUInt8]

/-- A byte that stands for itself. -/
def Literal : SpelledByte → Prop
  | plain _ _ => True
  | code _ _ _ _ => False
  | plus => False

/-- A byte that stands for itself, or an escape with both digits in upper case. -/
def Readable : SpelledByte → Prop
  | plain _ _ => True
  | code hi lo _ _ => upperHex hi = true ∧ upperHex lo = true
  | plus => False

/-- What the value decoder makes of a spelled byte. -/
def read : SpelledByte → Bytes
  | plain c _ => [c]
  | code hi lo _ _ =>
    if upperHex hi = true ∧ upperHex lo = true then [UInt8.ofNat (xdigitsValue [hi, lo])]
    else ['%'.toUInt8, hi, lo]
  | plus => ['+'.toUInt8]

end SpelledByte

structure FormPair where
  key : List SpelledByte
  value : List SpelledByte
  key_ne : key ≠ []

namespace FormPair

/-- The pair of byte strings that is spelled. -/
def pair (p : FormPair) : Bytes × Bytes :=
  (p.key.map SpelledByte.byte, p.value.map SpelledByte.byte)

def text (p : FormPair) : Bytes :=
  p.key.flatMap SpelledByte.text ++ '='.toUInt8 :: p.value.flatMap SpelledByte.text

/-- The pair that the reader makes of it. -/
def readBack (p : FormPair) : Bytes × Bytes :=
  (p.key.flatMap SpelledByte.text, p.value.flatMap SpelledByte.read)

end FormPair

/-- The form, behind a path where there is one. -/
def serialise (path : Option {path : Bytes // '?'.toUInt8 ∉ path}) (pairs : List FormPair) :
    Bytes :=
  match path with
  | some path => path.1 ++ '?'.toUInt8 :: List.intercalate ['&'.toUInt8] (pairs.map FormPair.text)
  | none => List.intercalate ['&'.toUInt8] (pairs.map FormPair.text)

/-- The reader gives the pairs of the form back, in any order. -/
def FormSurvives (path : Option {path : Bytes // '?'.toUInt8 ∉ path}) (pairs : List FormPair) :
    Prop :=
  ∃ read, splitQueryString (serialise path pairs) = .ok read ∧
    List.Perm read (pairs.map FormPair.pair)

/-! ## The text of a form -/

theorem unreserved_plain (c : UInt8) (h : unreserved c = true) :
    c ≠ '%'.toUInt8 ∧ c ≠ '&'.toUInt8 ∧ c ≠ '='.toUInt8 ∧ c ≠ '?'.toUInt8 ∧ c ≠ '+'.toUInt8 := by
  refine ⟨?_, ?_, ?_, ?_, ?_⟩ <;> rintro rfl <;> exact absurd h (by decide)

theorem isxdigit_unreserved (c : UInt8) (h : isxdigit c = true) : unreserved c = true :=
  decide_eq_true (.inl (isalnum_of_isxdigit h))

/-- No separator stands in the text of a byte. -/
theorem SpelledByte.text_clean (b : SpelledByte) :
    ∀ c ∈ b.text, c ≠ '&'.toUInt8 ∧ c ≠ '='.toUInt8 ∧ c ≠ '?'.toUInt8 := by
  have hplain : ∀ {c}, unreserved c = true →
      c ≠ '&'.toUInt8 ∧ c ≠ '='.toUInt8 ∧ c ≠ '?'.toUInt8 := by
    intro c hc
    obtain ⟨-, hamp, heq, hmark, -⟩ := unreserved_plain c hc
    exact ⟨hamp, heq, hmark⟩
  have hpercent : '%'.toUInt8 ≠ '&'.toUInt8 ∧ '%'.toUInt8 ≠ '='.toUInt8 ∧
      '%'.toUInt8 ≠ '?'.toUInt8 := by decide
  have hplus : '+'.toUInt8 ≠ '&'.toUInt8 ∧ '+'.toUInt8 ≠ '='.toUInt8 ∧
      '+'.toUInt8 ≠ '?'.toUInt8 := by decide
  cases b with
  | plain c h => exact List.forall_mem_singleton.mpr (hplain h)
  | code hi lo hhi hlo =>
    simp only [text, List.forall_mem_cons]
    exact ⟨hpercent, hplain (isxdigit_unreserved hi hhi), hplain (isxdigit_unreserved lo hlo),
      nofun⟩
  | plus => exact List.forall_mem_singleton.mpr hplus

theorem flatMap_text_clean (l : List SpelledByte) :
    ∀ c ∈ l.flatMap SpelledByte.text, c ≠ '&'.toUInt8 ∧ c ≠ '='.toUInt8 ∧ c ≠ '?'.toUInt8 := by
  intro c hc
  obtain ⟨b, -, hb⟩ := List.mem_flatMap.mp hc
  exact b.text_clean c hb

theorem FormPair.text_clean (p : FormPair) :
    ∀ c ∈ p.text, c ≠ '&'.toUInt8 ∧ c ≠ '?'.toUInt8 := by
  rw [text, List.forall_mem_append, List.forall_mem_cons]
  refine ⟨fun c hc => ?_, by decide, fun c hc => ?_⟩
  · exact ⟨(flatMap_text_clean p.key c hc).1, (flatMap_text_clean p.key c hc).2.2⟩
  · exact ⟨(flatMap_text_clean p.value c hc).1, (flatMap_text_clean p.value c hc).2.2⟩

theorem FormPair.text_ne_nil (p : FormPair) : p.text ≠ [] := fun h =>
  List.cons_ne_nil _ _ (List.append_eq_nil_iff.mp h).2

/-! ## Reading a pair -/

/-- A spelled byte is decoded in front of any text. -/
theorem urlDecode_text (b : SpelledByte) {s out : Bytes} (h : urlDecode s = .ok out) :
    urlDecode (b.text ++ s) = .ok (b.read ++ out) := by
  have hplain : ∀ {c} {t out : Bytes}, unreserved c = true → urlDecode t = .ok out →
      urlDecode (c :: t) = .ok (c :: out) := by
    intro c t out hc ht
    rw [encoding.urlDecode_cons (unreserved_plain c hc).1, ht]
    rfl
  cases b with
  | plain c hc => exact hplain hc h
  | code hi lo hhi hlo =>
    show urlDecode ('%'.toUInt8 :: hi :: lo :: s) = _
    by_cases hupper : upperHex hi = true ∧ upperHex lo = true
    · rw [encoding.urlDecode_pair hupper.1 hupper.2, h, SpelledByte.read, if_pos hupper]
      rfl
    · rw [encoding.urlDecode_other hupper, SpelledByte.read, if_neg hupper,
        hplain (isxdigit_unreserved hi hhi) (hplain (isxdigit_unreserved lo hlo) h)]
      rfl
  | plus =>
    show urlDecode ('+'.toUInt8 :: s) = _
    rw [encoding.urlDecode_cons (by decide), h]
    rfl

theorem urlDecode_flatMap_text (l : List SpelledByte) :
    urlDecode (l.flatMap SpelledByte.text) = .ok (l.flatMap SpelledByte.read) := by
  induction l with
  | nil => rfl
  | cons b l ih =>
    rw [List.flatMap_cons, List.flatMap_cons]
    exact urlDecode_text b ih

theorem queryPair_text (p : FormPair) : queryPair p.text = .ok p.readBack := by
  have hkey : '='.toUInt8 ∉ p.key.flatMap SpelledByte.text :=
    fun hc => (flatMap_text_clean p.key _ hc).2.1 rfl
  rw [FormPair.text, queryPair_append_sep hkey, urlDecode_flatMap_text]
  rfl

theorem mapM_queryPair (pairs : List FormPair) :
    (pairs.map FormPair.text).mapM queryPair = .ok (pairs.map FormPair.readBack) := by
  induction pairs with
  | nil => rfl
  | cons p pairs ih =>
    rw [List.map_cons, List.mapM_cons, queryPair_text, ih]
    rfl

/-- The form is read pair by pair. -/
theorem splitQueryString_serialise (path : Option {path : Bytes // '?'.toUInt8 ∉ path})
    (pairs : List FormPair) :
    splitQueryString (serialise path pairs) = .ok (pairs.map FormPair.readBack) := by
  have htexts : ∀ t ∈ pairs.map FormPair.text, t ≠ [] ∧ '&'.toUInt8 ∉ t := by
    intro t ht
    obtain ⟨p, -, rfl⟩ := List.mem_map.mp ht
    exact ⟨p.text_ne_nil, fun hc => (p.text_clean _ hc).1 rfl⟩
  have hmark : '?'.toUInt8 ∉ List.intercalate ['&'.toUInt8] (pairs.map FormPair.text) := by
    intro hc
    rcases mem_intercalate hc with hc | ⟨t, ht, hc⟩
    · cases hc
    · obtain ⟨p, -, rfl⟩ := List.mem_map.mp ht
      exact (p.text_clean _ hc).2 rfl
  cases path with
  | none =>
    rw [serialise, splitQueryString, findElem_eq_none.mpr hmark]
    dsimp only
    rw [splitString_intercalate htexts, mapM_queryPair]
  | some path =>
    have hpos : findElem '?'.toUInt8 (serialise (some path) pairs) = some path.1.length :=
      findElem_append_sep path.2
    rw [splitQueryString, hpos]
    dsimp only
    rw [serialise, drop_append_sep, splitString_intercalate htexts, mapM_queryPair]

/-! ## Which spellings survive -/

/-- An unescaped plus sign counts twice, so that it is heavier than the space it stands for. -/
def weight (c : UInt8) : Nat := if c = '+'.toUInt8 then 2 else 1

def textWeight (s : Bytes) : Nat := (s.map weight).sum

def pairWeight (p : Bytes × Bytes) : Nat := textWeight p.1 + textWeight p.2

theorem weight_le (c : UInt8) : 1 ≤ weight c ∧ weight c ≤ 2 := by
  unfold weight
  split <;> decide

theorem textWeight_flatMap (f : SpelledByte → Bytes) (l : List SpelledByte) :
    textWeight (l.flatMap f) = (l.map fun b => textWeight (f b)).sum := by
  induction l with
  | nil => rfl
  | cons b l ih =>
    rw [List.flatMap_cons, textWeight, List.map_append, List.sum_append, List.map_cons,
      List.sum_cons, ← ih]
    rfl

/-- Terms that are not below others sum up to no less, and to the same only if all are equal. -/
theorem sum_map_rigid {ι : Type} {f g : ι → Nat} {l : List ι} (hle : ∀ i ∈ l, f i ≤ g i) :
    (l.map f).sum ≤ (l.map g).sum ∧
      ((l.map g).sum = (l.map f).sum → ∀ i ∈ l, g i = f i) := by
  induction l with
  | nil => exact ⟨Nat.le_refl _, fun _ => nofun⟩
  | cons j l ih =>
    rw [List.forall_mem_cons] at hle
    obtain ⟨hsum, hall⟩ := ih hle.2
    have hhead := hle.1
    simp only [List.map_cons, List.sum_cons, List.forall_mem_cons]
    exact ⟨by omega, fun h => ⟨by omega, hall (by omega)⟩⟩

/-- An escape weighs more than the byte that it stands for. -/
theorem lt_textWeight_code (c a b d : UInt8) : weight c < textWeight [a, b, d] := by
  have ha := weight_le a
  have hb := weight_le b
  have hc := weight_le c
  have hd := weight_le d
  simp only [textWeight, List.map_cons, List.map_nil, List.sum_cons, List.sum_nil]
  omega

namespace SpelledByte

theorem weight_text (b : SpelledByte) :
    weight b.byte ≤ textWeight b.text ∧ (textWeight b.text = weight b.byte ↔ b.Literal) := by
  cases b with
  | plain c h => exact ⟨Nat.le_refl _, iff_of_true rfl trivial⟩
  | code hi lo hhi hlo =>
    have hlt : weight (code hi lo hhi hlo).byte < textWeight (code hi lo hhi hlo).text :=
      lt_textWeight_code ..
    exact ⟨hlt.le, iff_of_false hlt.ne' id⟩
  | plus => exact ⟨by decide, iff_of_false (by decide) id⟩

theorem weight_read (b : SpelledByte) :
    weight b.byte ≤ textWeight b.read ∧ (textWeight b.read = weight b.byte ↔ b.Readable) := by
  cases b with
  | plain c h => exact ⟨Nat.le_refl _, iff_of_true rfl trivial⟩
  | code hi lo hhi hlo =>
    by_cases hupper : upperHex hi = true ∧ upperHex lo = true
    · rw [read, if_pos hupper]
      exact ⟨Nat.le_refl _, iff_of_true rfl hupper⟩
    · have hlt : weight (code hi lo hhi hlo).byte < textWeight ['%'.toUInt8, hi, lo] :=
        lt_textWeight_code ..
      rw [read, if_neg hupper]
      exact ⟨hlt.le, iff_of_false hlt.ne' hupper⟩
  | plus => exact ⟨by decide, iff_of_false (by decide) id⟩

theorem text_of_literal {b : SpelledByte} (h : b.Literal) : b.text = [b.byte] := by
  cases b with
  | plain c hc => rfl
  | code hi lo hhi hlo => exact h.elim
  | plus => exact h.elim

theorem read_of_readable {b : SpelledByte} (h : b.Readable) : b.read = [b.byte] := by
  cases b with
  | plain c hc => rfl
  | code hi lo hhi hlo => exact if_pos h
  | plus => exact h.elim

/-- Bytes that are each read as themselves are read as themselves together. -/
theorem flatMap_eq_map {f : SpelledByte → Bytes} {l : List SpelledByte}
    (h : ∀ b ∈ l, f b = [b.byte]) : l.flatMap f = l.map byte := by
  rw [List.map_eq_flatMap]
  exact List.flatMap_congr h

end SpelledByte

/-- What the reader needs of a pair: a key without escapes and plus signs, and a value without
plus signs whose escapes are in upper case. -/
structure FormPair.Survives (p : FormPair) : Prop where
  key : ∀ b ∈ p.key, b.Literal
  value : ∀ b ∈ p.value, b.Readable

namespace FormPair

theorem readBack_of_survives {p : FormPair} (h : p.Survives) : p.readBack = p.pair := by
  rw [readBack, SpelledByte.flatMap_eq_map fun b hb => SpelledByte.text_of_literal (h.key b hb),
    SpelledByte.flatMap_eq_map fun b hb => SpelledByte.read_of_readable (h.value b hb), pair]

/-- A pair is never read as a lighter one, and as one of its weight only if it survives. -/
theorem weight_readBack (p : FormPair) :
    pairWeight p.pair ≤ pairWeight p.readBack ∧
      (pairWeight p.readBack = pairWeight p.pair → p.Survives) := by
  have hkey : textWeight (p.key.map SpelledByte.byte) ≤ textWeight p.readBack.1 ∧
      (textWeight p.readBack.1 = textWeight (p.key.map SpelledByte.byte) →
        ∀ b ∈ p.key, b.Literal) := by
    rw [readBack, textWeight_flatMap, textWeight, List.map_map]
    obtain ⟨hle, hall⟩ := sum_map_rigid fun b (_ : b ∈ p.key) => b.weight_text.1
    exact ⟨hle, fun h b hb => b.weight_text.2.mp (hall h b hb)⟩
  have hvalue : textWeight (p.value.map SpelledByte.byte) ≤ textWeight p.readBack.2 ∧
      (textWeight p.readBack.2 = textWeight (p.value.map SpelledByte.byte) →
        ∀ b ∈ p.value, b.Readable) := by
    rw [readBack, textWeight_flatMap, textWeight, List.map_map]
    obtain ⟨hle, hall⟩ := sum_map_rigid fun b (_ : b ∈ p.value) => b.weight_read.1
    exact ⟨hle, fun h b hb => b.weight_read.2.mp (hall h b hb)⟩
  have hpair : pairWeight p.pair = textWeight (p.key.map SpelledByte.byte) +
      textWeight (p.value.map SpelledByte.byte) := rfl
  have hread : pairWeight p.readBack = textWeight p.readBack.1 + textWeight p.readBack.2 := rfl
  rw [hpair, hread]
  exact ⟨by omega, fun h => ⟨hkey.2 (by omega), hvalue.2 (by omega)⟩⟩

end FormPair

theorem survives_of_formSurvives {path : Option {path : Bytes // '?'.toUInt8 ∉ path}}
    {pairs : List FormPair} (h : FormSurvives path pairs) : ∀ p ∈ pairs, p.Survives := by
  obtain ⟨read, hread, hperm⟩ := h
  rw [splitQueryString_serialise] at hread
  cases hread
  have hsum := (hperm.map pairWeight).sum_nat
  rw [List.map_map, List.map_map] at hsum
  intro p hp
  refine p.weight_readBack.2 ?_
  exact (sum_map_rigid fun p (_ : p ∈ pairs) => p.weight_readBack.1).2 hsum p hp

/-- **The reader gives a form back exactly when every key is spelled without escapes and plus
signs, and every value without plus signs and with escapes in upper case.** -/
theorem formSurvives_iff (path : Option {path : Bytes // '?'.toUInt8 ∉ path})
    (pairs : List FormPair) : FormSurvives path pairs ↔ ∀ p ∈ pairs, p.Survives := by
  constructor
  · exact survives_of_formSurvives
  · intro h
    refine ⟨_, splitQueryString_serialise path pairs, ?_⟩
    rw [List.map_congr_left fun p hp => FormPair.readBack_of_survives (h p hp)]

/-- The form `a%20b=`, with the key `a b` and no value. -/
def escapedKey : FormPair where
  key := [.plain 97 rfl, .code 50 48 rfl rfl, .plain 98 rfl]
  value := []
  key_ne := nofun

/-- An escaped key is not decoded. -/
theorem not_formSurvives_escapedKey : ¬ FormSurvives none [escapedKey] := by
  intro h
  have hkey := (survives_of_formSurvives h escapedKey List.mem_cons_self).key
  exact hkey (.code 50 48 rfl rfl) (List.mem_cons_of_mem _ List.mem_cons_self)

end Nawa.utils
