import Nawa.Laws.Util.Utils

/-!
# Replacement of several patterns

`stringReplace` takes the patterns one after the other, each through the whole text, in the order
of a hash map. It ends unless a key is empty (`stringReplace_ends_iff`). What it gives depends on
the order wherever a pass finds text that another one has put in or would have taken: for single
characters that is said exactly, for strings the stretches that belong to the patterns are to be
told apart by the search (`stringReplace_order`).

An order of a map is a permutation of its entries.
-/

namespace Nawa.utils

open Lib (AssocMap)
open Lib.Search

/-! ## The end of the loops -/

/-- The loops of `stringReplace`, with at most `fuel` turns for each pattern. -/
def stringReplaceWithin (fuel : Nat) (input : Bytes) (patterns : List (Bytes × Bytes)) :
    Except Failure Bytes :=
  patterns.foldlM (fun input e => replaceKey e.1 e.2 fuel input) input

theorem replaceKey_mono {key val : Bytes} {fuel fuel' : Nat} {input out : Bytes}
    (h : replaceKey key val fuel input = .ok out) (hle : fuel ≤ fuel') :
    replaceKey key val fuel' input = .ok out := by
  induction fuel generalizing fuel' input out with
  | zero => cases h
  | succ fuel ih =>
    obtain ⟨fuel', rfl⟩ : ∃ n, fuel' = n + 1 := ⟨fuel' - 1, by omega⟩
    rw [replaceKey] at h ⊢
    cases hfind : find key input with
    | none =>
      rw [hfind] at h
      exact h
    | some pos =>
      rw [hfind] at h
      obtain ⟨rest, hrest, hout⟩ := map_eq_ok_iff.mp h
      exact map_eq_ok_iff.mpr ⟨rest, ih hrest (Nat.le_of_succ_le_succ hle), hout⟩

/-- One pattern, and then the others. -/
theorem stringReplaceWithin_cons {fuel : Nat} {input out : Bytes} {e : Bytes × Bytes}
    {patterns : List (Bytes × Bytes)} :
    stringReplaceWithin fuel input (e :: patterns) = .ok out ↔
      ∃ text, replaceKey e.1 e.2 fuel input = .ok text ∧
        stringReplaceWithin fuel text patterns = .ok out := by
  rw [stringReplaceWithin, List.foldlM_cons]
  exact bind_eq_ok_iff

theorem stringReplaceWithin_mono {fuel fuel' : Nat} {input out : Bytes}
    {patterns : List (Bytes × Bytes)} (h : stringReplaceWithin fuel input patterns = .ok out)
    (hle : fuel ≤ fuel') : stringReplaceWithin fuel' input patterns = .ok out := by
  induction patterns generalizing input with
  | nil => exact h
  | cons e patterns ih =>
    obtain ⟨text, hpass, hrest⟩ := stringReplaceWithin_cons.mp h
    exact stringReplaceWithin_cons.mpr ⟨text, replaceKey_mono hpass hle, ih hrest⟩

/-- **The loops end exactly when no key is empty.** -/
theorem stringReplace_ends_iff (input : Bytes) (patterns : List (Bytes × Bytes)) :
    (∃ fuel out, stringReplaceWithin fuel input patterns = .ok out) ↔
      ∀ e ∈ patterns, e.1 ≠ [] := by
  induction patterns generalizing input with
  | nil => exact iff_of_true ⟨0, input, rfl⟩ (List.forall_mem_nil _)
  | cons e patterns ih =>
    rw [List.forall_mem_cons]
    constructor
    · rintro ⟨fuel, out, h⟩
      obtain ⟨text, hpass, hrest⟩ := stringReplaceWithin_cons.mp h
      refine ⟨fun he => ?_, (ih text).mp ⟨fuel, out, hrest⟩⟩
      rw [he, replaceKey_nil] at hpass
      cases hpass
    · rintro ⟨he, hrest⟩
      obtain ⟨text, hpass⟩ := replaceKey_terminates he e.2 (Nat.lt_succ_self input.length)
      obtain ⟨fuel, out, h⟩ := (ih text).mpr hrest
      refine ⟨max (input.length + 1) fuel, out, stringReplaceWithin_cons.mpr ⟨text, ?_, ?_⟩⟩
      · exact replaceKey_mono hpass (Nat.le_max_left _ _)
      · exact stringReplaceWithin_mono h (Nat.le_max_right _ _)

/-- An empty key with an empty value is found again in the same place for ever. -/
theorem stringReplace_empty_key :
    ¬ ∃ fuel out, stringReplaceWithin fuel (bytes "a") [([], [])] = .ok out := by
  rintro ⟨fuel, out, h⟩
  obtain ⟨text, hpass, -⟩ := stringReplaceWithin_cons.mp h
  rw [replaceKey_nil] at hpass
  cases hpass

/-! ## The order of characters -/

/-- What a map says of a character. -/
def charValue (patterns : List (UInt8 × UInt8)) (c : UInt8) : UInt8 := (patterns.lookup c).getD c

/-- What becomes of one character. -/
def charResult (patterns : List (UInt8 × UInt8)) (c : UInt8) : UInt8 :=
  patterns.foldl (fun c e => if c = e.1 then e.2 else c) c

theorem replaceChars_eq_map (input : Bytes) (patterns : List (UInt8 × UInt8)) :
    replaceChars input patterns = input.map (charResult patterns) := by
  induction patterns generalizing input with
  | nil => exact (List.map_id input).symm
  | cons e patterns ih =>
    have hrest := ih (input.map fun c => if c = e.1 then e.2 else c)
    rw [List.map_map] at hrest
    exact hrest

theorem charValue_of_not_mem {patterns : List (UInt8 × UInt8)} {c : UInt8}
    (h : c ∉ patterns.map Prod.fst) : charValue patterns c = c := by
  have hnone : patterns.lookup c = none := by
    rw [List.lookup_eq_none_iff]
    rintro e he
    rw [bne_iff_ne]
    rintro rfl
    exact h (List.mem_map_of_mem he)
  rw [charValue, hnone, Option.getD_none]

theorem charResult_of_not_mem {patterns : List (UInt8 × UInt8)} {c : UInt8}
    (h : c ∉ patterns.map Prod.fst) : charResult patterns c = c := by
  induction patterns with
  | nil => rfl
  | cons e patterns ih =>
    rw [List.map_cons, List.mem_cons, not_or] at h
    rw [charResult, List.foldl_cons, if_neg h.1]
    exact ih h.2

theorem charValue_cons (e : UInt8 × UInt8) (patterns : List (UInt8 × UInt8)) (c : UInt8) :
    charValue (e :: patterns) c = if c = e.1 then e.2 else charValue patterns c := by
  obtain ⟨key, val⟩ := e
  rw [charValue, List.lookup_cons]
  split
  · next h => rw [if_pos (beq_iff_eq.mp h), Option.getD_some]
  · next h => rw [if_neg (fun heq => by rw [heq, beq_self_eq_true] at h; cases h)]; rfl

/-- A character whose value keeps its own value becomes that value. -/
theorem charResult_eq {patterns : List (UInt8 × UInt8)} (hkeys : (patterns.map Prod.fst).Nodup)
    {c : UInt8} (h : charValue patterns (charValue patterns c) = charValue patterns c) :
    charResult patterns c = charValue patterns c := by
  induction patterns generalizing c with
  | nil => rfl
  | cons e patterns ih =>
    rw [List.map_cons, List.nodup_cons] at hkeys
    have hstep : charResult (e :: patterns) c =
        charResult patterns (if c = e.1 then e.2 else c) := rfl
    rw [hstep]
    by_cases hc : c = e.1
    · have hvalue : charValue (e :: patterns) c = e.2 := by rw [charValue_cons, if_pos hc]
      rw [hvalue] at h ⊢
      rw [if_pos hc]
      by_cases hval : e.2 = e.1
      · rw [hval, charResult_of_not_mem hkeys.1]
      · rw [charValue_cons, if_neg hval] at h
        rw [ih hkeys.2 (by rw [h, h]), h]
    · have hvalue : charValue (e :: patterns) c = charValue patterns c := by
        rw [charValue_cons, if_neg hc]
      rw [hvalue] at h ⊢
      rw [if_neg hc]
      refine ih hkeys.2 ?_
      by_cases hval : charValue patterns c = e.1
      · rw [hval, charValue_of_not_mem hkeys.1]
      · rwa [charValue_cons, if_neg hval] at h

/-- The value of a character is the same in every order. -/
theorem charValue_perm (patterns : AssocMap UInt8 UInt8) {order : List (UInt8 × UInt8)}
    (horder : order.Perm patterns.entries) (c : UInt8) :
    charValue order c = charValue patterns.entries c := by
  have hkeys : (order.map Prod.fst).Nodup :=
    (horder.map Prod.fst).nodup_iff.mpr patterns.nodup
  have hlookup : order.lookup c = patterns.entries.lookup c := by
    refine Option.ext fun v => ?_
    have hleft := AssocMap.lookup_eq_some_iff (m := ⟨order, hkeys⟩) (k := c) (v := v)
    exact (hleft.trans horder.mem_iff).trans AssocMap.lookup_eq_some_iff.symm
  rw [charValue, charValue, hlookup]

theorem charResult_append_singleton (patterns : List (UInt8 × UInt8)) (e : UInt8 × UInt8)
    (c : UInt8) : charResult (patterns ++ [e]) c =
      if charResult patterns c = e.1 then e.2 else charResult patterns c := by
  rw [charResult, List.foldl_append, List.foldl_cons, List.foldl_nil]
  rfl

/-- A pattern put last, behind the others. -/
theorem erase_append_perm {patterns : List (UInt8 × UInt8)} {e : UInt8 × UInt8}
    (he : e ∈ patterns) : (patterns.erase e ++ [e]).Perm patterns :=
  (List.perm_append_singleton e _).trans (List.perm_cons_erase he).symm

/-- With its own pattern last, a character becomes the value of that pattern. -/
theorem charResult_erase_append {patterns : List (UInt8 × UInt8)}
    (hkeys : (patterns.map Prod.fst).Nodup) {e : UInt8 × UInt8} (he : e ∈ patterns) :
    charResult (patterns.erase e ++ [e]) e.1 = e.2 := by
  have hnodup := ((List.perm_cons_erase he).map Prod.fst).nodup_iff.mp hkeys
  rw [List.map_cons, List.nodup_cons] at hnodup
  rw [charResult_append_singleton, charResult_of_not_mem hnodup.1, if_pos rfl]

/-- The result does not depend on the order exactly when the value of each character of the text
keeps its own value. -/
theorem replaceChars_order_iff (input : Bytes) (patterns : AssocMap UInt8 UInt8) :
    (∃ out, ∀ order : List (UInt8 × UInt8), order.Perm patterns.entries →
        replaceChars input order = out) ↔
      ∀ c ∈ input, charValue patterns.entries (charValue patterns.entries c) =
        charValue patterns.entries c := by
  constructor
  · rintro ⟨out, hout⟩ c hc
    -- the pattern of `c` last, and the pattern of its value behind that
    have hsame : ∀ p q : List (UInt8 × UInt8), p.Perm patterns.entries → q.Perm patterns.entries →
        charResult p c = charResult q c := by
      intro p q hp hq
      have heq := (hout p hp).trans (hout q hq).symm
      rw [replaceChars_eq_map, replaceChars_eq_map] at heq
      exact List.map_inj_left.mp heq c hc
    have hrewritten : ∀ v w, (c, v) ∈ patterns.entries → (v, w) ∈ patterns.entries → v = w := by
      intro v w hv hw
      by_cases hne : (c, v) = (v, w)
      · rw [Prod.mk.injEq] at hne
        exact hne.2
      · have hmem : (c, v) ∈ patterns.entries.erase (v, w) := (List.mem_erase_of_ne hne).mpr hv
        have hkeys : ((patterns.entries.erase (v, w)).map Prod.fst).Nodup :=
          patterns.nodup.sublist (List.erase_sublist.map _)
        have horder := (erase_append_perm hmem).append_right [(v, w)]
        have hlast := hsame _ _ (erase_append_perm hv) (horder.trans (erase_append_perm hw))
        have hfirst : charResult _ c = v := charResult_erase_append patterns.nodup hv
        have hthen : charResult _ c = v := charResult_erase_append hkeys hmem
        rw [hfirst, charResult_append_singleton, hthen, if_pos rfl] at hlast
        exact hlast
    cases hv : patterns.entries.lookup c with
    | none =>
      have hvalue : charValue patterns.entries c = c := by rw [charValue, hv, Option.getD_none]
      rw [hvalue, hvalue]
    | some v =>
      have hvalue : charValue patterns.entries c = v := by rw [charValue, hv, Option.getD_some]
      rw [hvalue, charValue]
      cases hw : patterns.entries.lookup v with
      | none => rfl
      | some w => exact (hrewritten v w (Lib.mem_of_lookup hv) (Lib.mem_of_lookup hw)).symm
  · intro h
    refine ⟨input.map (charValue patterns.entries), fun order horder => ?_⟩
    rw [replaceChars_eq_map]
    refine List.map_congr_left fun c hc => ?_
    have hkeys : (order.map Prod.fst).Nodup :=
      (horder.map Prod.fst).nodup_iff.mpr patterns.nodup
    rw [charResult_eq hkeys ?_, charValue_perm patterns horder]
    rw [charValue_perm patterns horder, charValue_perm patterns horder]
    exact h c hc

/-! ## The order of strings -/

/-- A stretch of the input: text that no pattern is for, or the key of a pattern. -/
inductive Stretch where
  | lit (w : Bytes)
  | hit (e : Bytes × Bytes)
  deriving DecidableEq

/-- The text of a stretch, when some patterns have been replaced. -/
def Stretch.text (done : List (Bytes × Bytes)) : Stretch → Bytes
  | .lit w => w
  | .hit e => if e ∈ done then e.2 else e.1

def rendered (done : List (Bytes × Bytes)) (ss : List Stretch) : Bytes :=
  ss.flatMap (Stretch.text done)

/-- The search for the key of a pattern goes from one of its own stretches to the next one, and
finds nothing behind the last. `before` is the text since it found one. -/
def FindsOwn (e : Bytes × Bytes) (done : List (Bytes × Bytes)) : Bytes → List Stretch → Prop
  | before, [] => find e.1 before = none
  | before, s :: ss =>
    if s = .hit e then
      find e.1 (before ++ rendered done (s :: ss)) = some before.length ∧ FindsOwn e done [] ss
    else FindsOwn e done (before ++ s.text done) ss

/-- The stretches of the input belong to the patterns: whichever ones have been replaced, the
search for one that has not been finds its own stretches and nothing else. -/
def BelongTo (patterns : List (Bytes × Bytes)) (ss : List Stretch) : Prop :=
  ∀ done ⊆ patterns, ∀ e ∈ patterns, e ∉ done → FindsOwn e done [] ss

theorem rendered_cons (done : List (Bytes × Bytes)) (s : Stretch) (ss : List Stretch) :
    rendered done (s :: ss) = s.text done ++ rendered done ss := List.flatMap_cons

theorem text_hit_of_not_mem {e : Bytes × Bytes} {done : List (Bytes × Bytes)} (h : e ∉ done) :
    (Stretch.hit e).text done = e.1 := if_neg h

theorem text_cons_self (e : Bytes × Bytes) (done : List (Bytes × Bytes)) :
    (Stretch.hit e).text (e :: done) = e.2 := if_pos List.mem_cons_self

/-- Only the stretches of a pattern change when it is replaced. -/
theorem text_cons_of_ne {e : Bytes × Bytes} {s : Stretch} (h : s ≠ .hit e)
    (done : List (Bytes × Bytes)) : s.text (e :: done) = s.text done := by
  cases s with
  | lit w => rfl
  | hit d =>
    have hne : d ≠ e := fun heq => h (heq ▸ rfl)
    simp only [Stretch.text, List.mem_cons, hne, false_or]

/-- One pass replaces the stretches of its pattern. -/
theorem replaceKey_rendered {e : Bytes × Bytes} {done : List (Bytes × Bytes)} (hdone : e ∉ done)
    {ss : List Stretch} {before : Bytes} (h : FindsOwn e done before ss) {fuel : Nat}
    (hfuel : (before ++ rendered done ss).length < fuel) (hne : e.1 ≠ []) :
    replaceKey e.1 e.2 fuel (before ++ rendered done ss) =
      .ok (before ++ rendered (e :: done) ss) := by
  induction ss generalizing before fuel with
  | nil =>
    obtain ⟨fuel, rfl⟩ : ∃ n, fuel = n + 1 := ⟨fuel - 1, by omega⟩
    have hfind : find e.1 before = none := h
    rw [rendered, rendered, List.flatMap_nil, List.flatMap_nil, List.append_nil, replaceKey, hfind]
  | cons s ss ih =>
    rw [FindsOwn] at h
    split at h
    · next hs =>
      subst hs
      obtain ⟨hfind, hrest⟩ := h
      obtain ⟨fuel, rfl⟩ : ∃ n, fuel = n + 1 := ⟨fuel - 1, by omega⟩
      have hlen := List.length_pos_iff.mpr hne
      rw [rendered_cons, text_hit_of_not_mem hdone] at hfind hfuel ⊢
      have hdrop : (before ++ (e.1 ++ rendered done ss)).drop (before.length + e.1.length) =
          rendered done ss := by
        rw [← List.append_assoc, ← List.length_append, List.drop_left]
      have hshort : ([] ++ rendered done ss).length < fuel := by
        simp only [List.length_append, List.nil_append] at hfuel ⊢
        omega
      rw [replaceKey, hfind, rendered_cons, text_cons_self]
      dsimp only
      rw [hdrop, List.take_left, ← List.nil_append (rendered done ss), ih hrest hshort]
      exact congrArg Except.ok (List.append_assoc before e.2 _)
    · next hs =>
      rw [rendered_cons, ← List.append_assoc] at hfuel ⊢
      rw [ih h hfuel, rendered_cons, text_cons_of_ne hs, List.append_assoc]

/-- The passes replace the stretches of their patterns, one pattern after the other. -/
theorem stringReplace_rendered {patterns : List (Bytes × Bytes)} {ss : List Stretch}
    (hown : BelongTo patterns ss) (hkeys : ∀ e ∈ patterns, e.1 ≠ [])
    {order done : List (Bytes × Bytes)} (horder : order ⊆ patterns) (hdone : done ⊆ patterns)
    (hnodup : order.Nodup) (hnew : ∀ e ∈ order, e ∉ done) :
    stringReplace (rendered done ss) order = .ok (rendered (order.reverse ++ done) ss) := by
  induction order generalizing done with
  | nil => rfl
  | cons e order ih =>
    rw [List.cons_subset] at horder
    rw [List.nodup_cons] at hnodup
    rw [List.forall_mem_cons] at hnew
    have hpass := replaceKey_rendered hnew.1 (hown done hdone e horder.1 hnew.1)
      (Nat.lt_succ_self _) (hkeys e horder.1)
    rw [List.nil_append, List.nil_append] at hpass
    rw [stringReplace, List.foldlM_cons, hpass, List.reverse_cons, List.append_assoc,
      List.singleton_append]
    refine ih horder.2 (List.cons_subset.mpr ⟨horder.1, hdone⟩) hnodup.2 fun d hd => ?_
    rw [List.mem_cons, not_or]
    exact ⟨fun heq => hnodup.1 (heq ▸ hd), hnew.2 d hd⟩

theorem rendered_congr {done done' : List (Bytes × Bytes)} (h : ∀ e, e ∈ done ↔ e ∈ done')
    (ss : List Stretch) : rendered done ss = rendered done' ss := by
  have htext : ∀ s : Stretch, s.text done = s.text done' := by
    intro s
    cases s with
    | lit w => rfl
    | hit e => simp only [Stretch.text, h]
  rw [rendered, rendered, funext htext]

/-- Where the stretches belong to the patterns, every order replaces all of them. -/
theorem stringReplace_of_belongTo {patterns : AssocMap Bytes Bytes} {ss : List Stretch}
    (hown : BelongTo patterns.entries ss) (hkeys : ∀ e ∈ patterns.entries, e.1 ≠ [])
    {order : List (Bytes × Bytes)} (horder : order.Perm patterns.entries) :
    stringReplace (rendered [] ss) order = .ok (rendered patterns.entries ss) := by
  have hnodup : order.Nodup := horder.nodup_iff.mpr (List.Nodup.of_map _ patterns.nodup)
  rw [stringReplace_rendered hown hkeys horder.subset (List.nil_subset _) hnodup
    fun _ _ => List.not_mem_nil, List.append_nil]
  refine congrArg Except.ok (rendered_congr (fun e => ?_) ss)
  rw [List.mem_reverse, horder.mem_iff]

/-- **When the order of the patterns makes no difference**: for characters, exactly when the value
of each one in the text keeps its own value; for strings, when the stretches of the text belong
to the patterns, and then each one is replaced by the value of its own pattern. -/
theorem stringReplace_order (input : Bytes) (chars : AssocMap UInt8 UInt8)
    (patterns : AssocMap Bytes Bytes) :
    ((∃ out, ∀ order : List (UInt8 × UInt8), order.Perm chars.entries →
        replaceChars input order = out) ↔
      ∀ c ∈ input, charValue chars.entries (charValue chars.entries c) =
        charValue chars.entries c) ∧
      ((∀ e ∈ patterns.entries, e.1 ≠ []) → ∀ ss, rendered [] ss = input →
        BelongTo patterns.entries ss → ∀ order : List (Bytes × Bytes),
          order.Perm patterns.entries →
            stringReplace input order = .ok (rendered patterns.entries ss)) := by
  refine ⟨replaceChars_order_iff input chars, fun hkeys ss hss hown order horder => ?_⟩
  rw [← hss]
  exact stringReplace_of_belongTo hown hkeys horder

/-- Two patterns with a stretch each. -/
def samplePatterns : AssocMap Bytes Bytes :=
  ⟨[(bytes "x", bytes "1"), (bytes "y", bytes "22")], by decide⟩

def sampleStretches : List Stretch :=
  [.hit (bytes "x", bytes "1"), .lit (bytes "-"), .hit (bytes "y", bytes "22")]

theorem belongTo_sample : BelongTo samplePatterns.entries sampleStretches := by
  intro done hdone e he hnew
  -- of the two patterns, only the other one may have been replaced
  rcases List.mem_pair.mp he with rfl | rfl
  · by_cases hy : (bytes "y", bytes "22") ∈ done
    all_goals
      simp only [FindsOwn, sampleStretches, rendered, List.flatMap_cons, List.flatMap_nil,
        Stretch.text, hnew, hy, if_true, if_false]
      decide
  · by_cases hx : (bytes "x", bytes "1") ∈ done
    all_goals
      simp only [FindsOwn, sampleStretches, rendered, List.flatMap_cons, List.flatMap_nil,
        Stretch.text, hnew, hx, if_true, if_false]
      decide

theorem stringReplace_order_sample : ∀ order : List (Bytes × Bytes),
    order.Perm samplePatterns.entries →
      stringReplace (bytes "x-y") order = .ok (bytes "1-22") :=
  (stringReplace_order (bytes "x-y") .empty samplePatterns).2 (by decide) sampleStretches rfl
    belongTo_sample

/-- Two patterns that exchange `a` and `b` give `aa` in one order and `bb` in the other. -/
theorem stringReplace_swap :
    (¬ ∀ (input : Bytes) (patterns : AssocMap UInt8 UInt8), ∃ out,
        ∀ order : List (UInt8 × UInt8), order.Perm patterns.entries →
          replaceChars input order = out) ∧
      ¬ ∀ (input : Bytes) (patterns : AssocMap Bytes Bytes),
        (∀ e ∈ patterns.entries, e.1 ≠ []) → ∃ out,
          ∀ order : List (Bytes × Bytes), order.Perm patterns.entries →
            stringReplace input order = .ok out := by
  refine ⟨fun h => ?_, fun h => ?_⟩
  · let a := 'a'.toUInt8
    let b := 'b'.toUInt8
    obtain ⟨out, hout⟩ := h (bytes "ab") ⟨[(a, b), (b, a)], by decide⟩
    have hfirst := hout [(a, b), (b, a)] (List.Perm.refl _)
    have hsecond := hout [(b, a), (a, b)] (List.Perm.swap _ _ _)
    exact absurd (hfirst.trans hsecond.symm) (by decide)
  · let a := bytes "a"
    let b := bytes "b"
    have hkeys : ∀ e ∈ [(a, b), (b, a)], e.1 ≠ [] := by decide
    obtain ⟨out, hout⟩ := h (bytes "ab") ⟨[(a, b), (b, a)], by decide⟩ hkeys
    have hfirst := hout [(a, b), (b, a)] (List.Perm.refl _)
    have hsecond := hout [(b, a), (a, b)] (List.Perm.swap _ _ _)
    exact absurd (hfirst.trans hsecond.symm) (by decide)

end Nawa.utils
