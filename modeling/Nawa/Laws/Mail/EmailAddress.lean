import Nawa.Laws.Util.Punycode
import Nawa.Mail.EmailAddress

/-!
# Addresses of ASCII characters

Punycode leaves a label of ASCII characters as it is, so what an address may lose in the
conversion it loses when it is taken apart: an at-sign at its end, and the empty labels of the
domain.
-/

namespace Nawa

namespace encoding

/-! ## Domains -/

/-- No part between two dots is empty. -/
def NoEmptyLabel (domain : Bytes) : Prop := ∀ label ∈ domain.splitOn '.'.toUInt8, label ≠ []

/-- What becomes of a domain: its empty labels are gone. -/
theorem punycodeEncode_ascii {s : Bytes} (h : ∀ c ∈ s, c < 128) :
    punycodeEncode s =
      .ok (List.intercalate ['.'.toUInt8] (utils.splitString s '.'.toUInt8 true)) := by
  have hlabels : ∀ parts : List Bytes, (∀ p ∈ parts, ∀ c ∈ p, c < 128) →
      parts.mapM encodeLabel = .ok parts := by
    intro parts hparts
    induction parts with
    | nil => rfl
    | cons p parts ih =>
      rw [List.forall_mem_cons] at hparts
      rw [List.mapM_cons, encodeLabel_ascii hparts.1, ih hparts.2]
      rfl
  rw [punycodeEncode, hlabels]
  · rfl
  · exact fun p hp c hc => h c (utils.mem_of_mem_splitString hp hc)

theorem punycodeEncode_eq_self_iff {s : Bytes} (h : ∀ c ∈ s, c < 128) (hne : s ≠ []) :
    punycodeEncode s = .ok s ↔ NoEmptyLabel s := by
  rw [punycodeEncode_ascii h, Except.ok.injEq]
  constructor
  · intro heq label hlabel
    have htokens : utils.splitString s '.'.toUInt8 true ≠ [] := by
      intro hnil
      rw [hnil] at heq
      exact hne heq.symm
    have hsplit := List.splitOn_intercalate '.'.toUInt8
      (fun t ht => (utils.mem_splitString ht).2) htokens
    rw [heq] at hsplit
    rw [hsplit] at hlabel
    exact (utils.mem_splitString hlabel).1
  · intro hlabels
    have hfilter : (s.splitOn '.'.toUInt8).filter (· ≠ []) = s.splitOn '.'.toUInt8 :=
      List.filter_eq_self.mpr fun label hlabel => decide_eq_true (hlabels label hlabel)
    rw [utils.splitString_ignoreEmpty, hfilter, List.intercalate_splitOn]

end encoding

/-! ## Addresses -/

namespace mail

open encoding utils

variable {p q : Bytes}

theorem applyPunycodeToDomain_of_not_mem {address : Bytes} (h : '@'.toUInt8 ∉ address) :
    applyPunycodeToDomain address = .ok address := by
  rw [applyPunycodeToDomain]
  by_cases hne : address = []
  · rw [hne]
    rfl
  · rw [splitString_singleton hne h]

theorem applyPunycodeToDomain_one (hp : '@'.toUInt8 ∉ p) (hq : '@'.toUInt8 ∉ q) (hne : q ≠ []) :
    applyPunycodeToDomain (p ++ '@'.toUInt8 :: q) =
      (punycodeEncode q).map fun domain => p ++ bytes "@" ++ domain := by
  rw [applyPunycodeToDomain, splitString_append_sep_keepEmpty hp,
    splitString_singleton hne hq]

/-- An at-sign at the end is no part of any token. -/
theorem applyPunycodeToDomain_final (hp : '@'.toUInt8 ∉ p) (hq : '@'.toUInt8 ∉ q) :
    applyPunycodeToDomain (p ++ '@'.toUInt8 :: (q ++ ['@'.toUInt8])) =
      (punycodeEncode q).map fun domain => p ++ bytes "@" ++ domain := by
  rw [applyPunycodeToDomain, splitString_append_sep_keepEmpty hp,
    splitString_append_sep_keepEmpty hq]
  rfl

/-- With three tokens or more, nothing is converted. -/
theorem applyPunycodeToDomain_more (hp : '@'.toUInt8 ∉ p) (hq : '@'.toUInt8 ∉ q) {t : Bytes}
    (hne : t ≠ []) :
    applyPunycodeToDomain (p ++ '@'.toUInt8 :: (q ++ '@'.toUInt8 :: t)) =
      .ok (p ++ '@'.toUInt8 :: (q ++ '@'.toUInt8 :: t)) := by
  have hthird : ∃ u us, splitString t '@'.toUInt8 false = u :: us := by
    by_cases ht : '@'.toUInt8 ∈ t
    · obtain ⟨u, rest, rfl, hu⟩ := List.eq_append_cons_of_mem ht
      exact ⟨u, _, splitString_append_sep_keepEmpty hu rest⟩
    · exact ⟨t, [], splitString_singleton hne ht⟩
  obtain ⟨u, us, hus⟩ := hthird
  rw [applyPunycodeToDomain, splitString_append_sep_keepEmpty hp,
    splitString_append_sep_keepEmpty hq, hus]

theorem applyPunycodeToDomain_none (hp : '@'.toUInt8 ∉ p) :
    applyPunycodeToDomain (p ++ ['@'.toUInt8]) = .ok (p ++ ['@'.toUInt8]) := by
  rw [applyPunycodeToDomain, splitString_append_sep_keepEmpty hp]
  rfl

/-- What keeps an address as it is. If there are two at-signs, the second is not at the end; if
there is one with a domain behind it, the domain has no empty label. -/
structure KeepsAddress (address : Bytes) : Prop where
  final : ∀ p q, address = p ++ '@'.toUInt8 :: (q ++ ['@'.toUInt8]) →
    '@'.toUInt8 ∈ p ∨ '@'.toUInt8 ∈ q
  domain : ∀ p q, address = p ++ '@'.toUInt8 :: q → '@'.toUInt8 ∉ p → '@'.toUInt8 ∉ q → q ≠ [] →
    NoEmptyLabel q

/-- The first at-sign of an address is the first one in any way to write it. -/
theorem split_unique {c : UInt8} {p p' t t' : Bytes} (hp : c ∉ p) (hp' : c ∉ p')
    (h : p ++ c :: t = p' ++ c :: t') : p = p' ∧ t = t' := by
  have htake : p = p' :=
    calc
      p = (p ++ c :: t).takeWhile (· ≠ c) := (Lib.Search.takeWhile_append_sep hp).symm
      _ = (p' ++ c :: t').takeWhile (· ≠ c) := by rw [h]
      _ = p' := Lib.Search.takeWhile_append_sep hp'
  subst htake
  exact ⟨rfl, (List.cons.inj (List.append_cancel_left h)).2⟩

/-- What is asked of an address, said of the part behind its first at-sign. -/
theorem keepsAddress_iff {r : Bytes} (hp : '@'.toUInt8 ∉ p) :
    KeepsAddress (p ++ '@'.toUInt8 :: r) ↔
      (∀ q, r = q ++ ['@'.toUInt8] → '@'.toUInt8 ∈ q) ∧
        ('@'.toUInt8 ∉ r → r ≠ [] → NoEmptyLabel r) := by
  constructor
  · intro h
    refine ⟨?_, fun hr hne => h.domain p r rfl hp hr hne⟩
    rintro q rfl
    exact (h.final p q rfl).resolve_left hp
  · rintro ⟨hfinal, hdomain⟩
    refine ⟨fun p' q' heq => ?_, fun p' q' heq hp' hq' hne => ?_⟩
    · by_cases hp' : '@'.toUInt8 ∈ p'
      · exact .inl hp'
      · exact .inr (hfinal q' (split_unique hp hp' heq).2)
    · obtain ⟨-, rfl⟩ := split_unique hp hp' heq
      exact hdomain hq' hne

/-- The second of two at-signs is lost at the end. -/
theorem applyPunycodeToDomain_final_ne (hp : '@'.toUInt8 ∉ p) (hq : '@'.toUInt8 ∉ q)
    (h : ∀ c ∈ q, c < 128) :
    applyPunycodeToDomain (p ++ '@'.toUInt8 :: (q ++ ['@'.toUInt8])) ≠
      .ok (p ++ '@'.toUInt8 :: (q ++ ['@'.toUInt8])) := by
  rw [applyPunycodeToDomain_final hp hq, punycodeEncode_ascii h]
  intro heq
  have hjoined := List.append_cancel_left ((List.append_assoc p _ _).symm.trans
    (Except.ok.inj heq))
  have hdomain : List.intercalate ['.'.toUInt8] (splitString q '.'.toUInt8 true) =
      q ++ ['@'.toUInt8] := (List.cons.inj hjoined).2
  have hat := List.mem_append_right q (List.mem_singleton_self '@'.toUInt8)
  rw [← hdomain] at hat
  rcases Lib.Search.mem_intercalate hat with hdot | ⟨token, htoken, hc⟩
  · exact absurd hdot (by decide)
  · exact hq (mem_of_mem_splitString htoken hc)

theorem applyPunycodeToDomain_one_eq_self_iff (hp : '@'.toUInt8 ∉ p) (hq : '@'.toUInt8 ∉ q)
    (hne : q ≠ []) (h : ∀ c ∈ q, c < 128) :
    applyPunycodeToDomain (p ++ '@'.toUInt8 :: q) = .ok (p ++ '@'.toUInt8 :: q) ↔
      NoEmptyLabel q := by
  rw [← punycodeEncode_eq_self_iff h hne, applyPunycodeToDomain_one hp hq hne,
    punycodeEncode_ascii h, Except.map, Except.ok.injEq, Except.ok.injEq, List.append_assoc,
    List.append_cancel_left_eq]
  exact ⟨fun heq => (List.cons.inj heq).2, fun heq => congrArg ('@'.toUInt8 :: ·) heq⟩

theorem applyPunycodeToDomain_eq_self_iff {address : Bytes} (h : ∀ c ∈ address, c < 128) :
    applyPunycodeToDomain address = .ok address ↔ KeepsAddress address := by
  by_cases hmem : '@'.toUInt8 ∈ address
  · obtain ⟨p, r, rfl, hp⟩ := List.eq_append_cons_of_mem hmem
    have hascii : ∀ c ∈ r, c < 128 :=
      fun c hc => h c (List.mem_append_right _ (List.mem_cons_of_mem _ hc))
    rw [keepsAddress_iff hp]
    by_cases hr : '@'.toUInt8 ∈ r
    · obtain ⟨q, t, rfl, hq⟩ := List.eq_append_cons_of_mem hr
      by_cases ht : t = []
      · -- two at-signs, the second at the end
        subst ht
        have hdomain : ∀ c ∈ q, c < 128 := fun c hc => hascii c (List.mem_append_left _ hc)
        refine iff_of_false (applyPunycodeToDomain_final_ne hp hq hdomain) ?_
        exact fun hkeeps => hq (hkeeps.1 q rfl)
      · -- more than two parts
        refine iff_of_true (applyPunycodeToDomain_more hp hq ht) ⟨fun q' heq => ?_, ?_⟩
        · by_contra hq'
          exact ht (split_unique hq hq' heq).2
        · exact fun hnot => absurd hr hnot
    · have hfinal : ∀ q, r = q ++ ['@'.toUInt8] → '@'.toUInt8 ∈ q := by
        rintro q rfl
        exact absurd (List.mem_append_right _ (List.mem_singleton_self _)) hr
      by_cases hne : r = []
      · -- no domain
        subst hne
        exact iff_of_true (applyPunycodeToDomain_none hp) ⟨hfinal, fun _ hne => absurd rfl hne⟩
      · -- a domain
        rw [applyPunycodeToDomain_one_eq_self_iff hp hr hne hascii]
        exact ⟨fun hlabels => ⟨hfinal, fun _ _ => hlabels⟩, fun hkeeps => hkeeps.2 hr hne⟩
  · refine iff_of_true (applyPunycodeToDomain_of_not_mem hmem) ⟨?_, ?_⟩
    · rintro p q rfl
      exact absurd (List.mem_append_right _ List.mem_cons_self) hmem
    · rintro p q rfl
      exact absurd (List.mem_append_right _ List.mem_cons_self) hmem

/-- **An ASCII address is used as it is written** exactly when nothing of it is lost in taking it
apart. -/
theorem get_eq_address_iff (email : EmailAddress) (h : ∀ c ∈ email.address, c < 128) :
    email.get false true = .ok (bytes "<" ++ email.address ++ bytes ">") ↔
      KeepsAddress email.address := by
  rw [← applyPunycodeToDomain_eq_self_iff h, EmailAddress.get]
  cases applyPunycodeToDomain email.address with
  | error e => exact iff_of_false (error_ne_ok _ _) (error_ne_ok _ _)
  | ok address =>
    simp only [Bool.false_eq_true, false_and, if_false, if_true, Except.map, List.nil_append,
      Except.ok.injEq, List.append_cancel_right_eq, List.append_cancel_left_eq]

theorem keepsAddress_sample : KeepsAddress (bytes "a@b.c") where
  final := by
    intro p q h
    have hlast : (bytes "a@b.c").getLast? = some '@'.toUInt8 := by
      rw [h, ← List.cons_append, ← List.append_assoc, List.getLast?_concat]
    exact absurd hlast (by decide)
  domain := by
    intro p q h hp _ _
    have hname : '@'.toUInt8 ∉ bytes "a" := by decide
    have hsplit : bytes "a" ++ '@'.toUInt8 :: bytes "b.c" = p ++ '@'.toUInt8 :: q := h
    obtain ⟨-, rfl⟩ := split_unique hname hp hsplit
    exact List.all_iff_forall_prop.mp (by decide)

theorem get_eq_address_iff_sample :
    EmailAddress.get { address := bytes "a@b.c" } false true = .ok (bytes "<a@b.c>") :=
  have hkeeps := get_eq_address_iff { address := bytes "a@b.c" }
    (List.all_iff_forall_prop.mp (by decide))
  hkeeps.mpr keepsAddress_sample

/-- The address `a@b@` is used as `a@b`. -/
theorem not_get_eq_address_finalAt :
    ¬ ∀ email : EmailAddress, (∀ c ∈ email.address, c < 128) →
      email.get false true = .ok (bytes "<" ++ email.address ++ bytes ">") := by
  intro h
  have hget := h { address := bytes "a@b@" } (List.all_iff_forall_prop.mp (by decide))
  have hconverted : applyPunycodeToDomain (bytes "a@b@") = .ok (bytes "a@b") := by
    refine (applyPunycodeToDomain_final (p := bytes "a") (q := bytes "b") ?_ ?_).trans ?_
    · decide
    · decide
    · rw [punycodeEncode_ascii (List.all_iff_forall_prop.mp (by decide))]
      rfl
  rw [EmailAddress.get, if_pos rfl, hconverted] at hget
  revert hget
  decide

end mail

end Nawa
