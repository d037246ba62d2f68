import Nawa.Laws.Mail.EmailAddress

/-!
# Which addresses are valid

The expression of `isValid` is matched against what `applyPunycodeToDomain` makes of the address,
so the check follows the grammar of addresses except where that is lost: an at-sign at the end is
dropped, and so are the dots of a domain that has nothing else (`validates_iff`).
-/

namespace Nawa.mail

open encoding utils
open Lib (Regex)
open Lib.Regex

/-! ## The grammar -/

/-- The characters `[A-Za-z0-9_!#$%&'*+/=?`{|}~^.-]`. -/
def nameChar (c : UInt8) : Bool := isalnum c || c ∈ bytes "_!#$%&'*+/=?`\x7b|\x7d~^.-"

/-- The characters `[A-Za-z0-9.-]`. -/
def domainChar (c : UInt8) : Bool := isalnum c || c ∈ bytes ".-"

/-- A text of one or more characters of a class. -/
def Spelled (p : UInt8 → Bool) (w : Bytes) : Prop := w ≠ [] ∧ ∀ c ∈ w, p c = true

/-- A name, a single at-sign and a domain. -/
def Grammatical (address : Bytes) : Prop :=
  ∃ name domain, address = name ++ '@'.toUInt8 :: domain ∧ Spelled nameChar name ∧
    Spelled domainChar domain

/-- The check returns, and what it says is what the grammar says. -/
def EmailAddress.Validates (email : EmailAddress) : Prop :=
  ∃ valid, email.isValid = .ok valid ∧ (valid = true ↔ Grammatical email.address)

/-- With the case ignored, a class of lower-case letters has all letters. -/
theorem ignoreCase_class (more : UInt8 → Bool) (c : UInt8) :
    ignoreCase (fun c => (97 ≤ c ∧ c ≤ 122 : Bool) || isdigit c || more c) c =
      (isalnum c || more c) := by
  rw [ignoreCase, isalnum]
  by_cases hupper : 65 ≤ c ∧ c ≤ 90
  · have hlow : 97 ≤ c + 32 ∧ c + 32 ≤ 122 := by
      simp only [UInt8.le_iff_toNat_le, UInt8.toNat_add, UInt8.reduceToNat] at hupper ⊢
      omega
    rw [tolower, if_pos hupper]
    simp only [hlow, hupper, and_self, decide_true, Bool.true_or, true_or, or_true]
  · by_cases hlower : 97 ≤ c ∧ c ≤ 122
    · rw [tolower, if_neg hupper]
      simp only [hlower, and_self, decide_true, Bool.true_or, or_true]
    · rw [tolower, if_neg hupper, toupper, if_neg hlower]
      simp only [hupper, hlower, decide_false, Bool.false_or, or_false, Bool.or_self,
        Bool.decide_eq_true]

theorem ignoreCase_nameClass : ignoreCase nameClass = nameChar :=
  funext fun c => ignoreCase_class (fun c => c ∈ bytes "_!#$%&'*+/=?`\x7b|\x7d~^.-") c

theorem ignoreCase_domainClass : ignoreCase domainClass = domainChar :=
  funext fun c => ignoreCase_class (fun c => c ∈ bytes ".-") c

/-- No class has the at-sign. -/
theorem ne_at {w : Bytes} (h : Spelled nameChar w ∨ Spelled domainChar w) : '@'.toUInt8 ∉ w := by
  have hname : nameChar '@'.toUInt8 = false := by decide
  have hdomain : domainChar '@'.toUInt8 = false := by decide
  intro hmem
  rcases h with h | h
  · exact absurd (h.2 _ hmem) (hname ▸ Bool.false_ne_true)
  · exact absurd (h.2 _ hmem) (hdomain ▸ Bool.false_ne_true)

/-- **The expression has the grammar.** -/
theorem fullMatch_emCheck (address : Bytes) :
    (emCheck.fullMatch address).isSome = true ↔ Grammatical address := by
  rw [emCheck, ignoreCase_nameClass, ignoreCase_domainClass, fullMatch, run_seq]
  constructor
  · intro h
    obtain ⟨groups, hgroups⟩ := Option.isSome_iff_exists.mp h
    obtain ⟨name, rest, rfl, hne, hname, hrest⟩ := run_plus_sat_some hgroups
    rw [run_seq] at hrest
    cases rest with
    | nil => cases hrest
    | cons at' rest =>
      rw [run_sat_cons] at hrest
      split at hrest
      · next hat =>
        obtain ⟨domain, after, rfl, hdomain, hchars, hend⟩ := run_plus_sat_some hrest
        split at hend
        · next hafter =>
          rw [hafter, List.append_nil, of_decide_eq_true hat]
          exact ⟨name, domain, rfl, ⟨hne, hname⟩, hdomain, hchars⟩
        · cases hend
      · cases hrest
  · rintro ⟨name, domain, rfl, hname, hdomain⟩
    have hat : ∀ c ∈ ('@'.toUInt8 :: domain).head?, nameChar c = false := by
      rintro c ⟨⟩
      decide
    have hend : (Regex.plus (.sat domainChar)).run (domain ++ []) (fun _ => none)
        (fun s' c' => if s' = [] then some c' else none) = some fun _ => none :=
      run_plus_sat_longest hdomain.1 hdomain.2 (by rintro c ⟨⟩) (if_pos rfl)
    rw [List.append_nil] at hend
    exact Option.isSome_iff_exists.mpr ⟨_, run_plus_sat_longest hname.1 hname.2 hat hend⟩

/-! ## What is checked -/

/-- What becomes of an ASCII domain. -/
def joinedLabels (domain : Bytes) : Bytes :=
  List.intercalate ['.'.toUInt8] (splitString domain '.'.toUInt8 true)

/-- A character of a domain other than a dot is in one of its labels. -/
theorem mem_joinedLabels {domain : Bytes} {c : UInt8} (hc : c ∈ domain) (hne : c ≠ '.'.toUInt8) :
    c ∈ joinedLabels domain := by
  have hjoin : List.intercalate ['.'.toUInt8] (domain.splitOn '.'.toUInt8) = domain :=
    List.intercalate_splitOn _
  rw [← hjoin] at hc
  obtain ⟨label, hlabel, hmem⟩ := (Lib.Search.mem_intercalate hc).resolve_left hne
  refine Lib.Search.mem_intercalate_of_mem ?_ hmem
  rw [splitString_ignoreEmpty, List.mem_filter]
  exact ⟨hlabel, decide_eq_true (List.ne_nil_of_mem hmem)⟩

theorem mem_of_mem_joinedLabels {domain : Bytes} {c : UInt8} (hc : c ∈ joinedLabels domain) :
    c = '.'.toUInt8 ∨ c ∈ domain := by
  refine (Lib.Search.mem_intercalate hc).imp_right fun hmem => ?_
  obtain ⟨label, hlabel, hc⟩ := hmem
  exact mem_of_mem_splitString hlabel hc

theorem joinedLabels_eq_nil_iff {domain : Bytes} :
    joinedLabels domain = [] ↔ ∀ c ∈ domain, c = '.'.toUInt8 := by
  constructor
  · intro h c hc
    by_contra hne
    exact List.ne_nil_of_mem (mem_joinedLabels hc hne) h
  · intro h
    rw [joinedLabels, splitString_eq_nil_iff.mpr h]
    rfl

/-- The domain that is checked has the characters of a domain exactly when the given one has. -/
theorem spelled_joinedLabels_iff (domain : Bytes) :
    Spelled domainChar (joinedLabels domain) ↔
      (∀ c ∈ domain, domainChar c = true) ∧ ∃ c ∈ domain, c ≠ '.'.toUInt8 := by
  have hdot : domainChar '.'.toUInt8 = true := by decide
  have hnil : joinedLabels domain ≠ [] ↔ ∃ c ∈ domain, c ≠ '.'.toUInt8 := by
    rw [ne_eq, joinedLabels_eq_nil_iff]
    push Not
    exact Iff.rfl
  rw [Spelled, hnil, and_comm]
  refine and_congr_left fun _ => ⟨fun h c hc => ?_, fun h c hc => ?_⟩
  · by_cases hne : c = '.'.toUInt8
    · rw [hne, hdot]
    · exact h c (mem_joinedLabels hc hne)
  · rcases mem_of_mem_joinedLabels hc with rfl | hc
    · exact hdot
    · exact h c hc

/-- What is asked of a name and what follows its at-sign is asked of the text around the first
at-sign. -/
theorem exists_split_iff {name rest : Bytes} (hname : '@'.toUInt8 ∉ name)
    {p : Bytes → Bytes → Prop} (hp : ∀ n d, p n d → Spelled nameChar n) :
    (∃ n d, name ++ '@'.toUInt8 :: rest = n ++ '@'.toUInt8 :: d ∧ p n d) ↔ p name rest := by
  constructor
  · rintro ⟨n, d, heq, h⟩
    obtain ⟨rfl, rfl⟩ := split_unique hname (ne_at (.inl (hp n d h))) heq
    exact h
  · exact fun h => ⟨name, rest, rfl, h⟩

/-- With one at-sign the grammar is asked of the two parts. -/
theorem grammatical_iff {name : Bytes} (hname : '@'.toUInt8 ∉ name) (domain : Bytes) :
    Grammatical (name ++ '@'.toUInt8 :: domain) ↔
      Spelled nameChar name ∧ Spelled domainChar domain :=
  exists_split_iff hname fun _ _ h => h.1

theorem not_grammatical_of_not_mem {address : Bytes} (h : '@'.toUInt8 ∉ address) :
    ¬ Grammatical address := by
  rintro ⟨name, domain, rfl, -⟩
  exact h (List.mem_append_right _ List.mem_cons_self)

theorem not_grammatical_of_two {name domain : Bytes} (hname : '@'.toUInt8 ∉ name)
    (hdomain : '@'.toUInt8 ∈ domain) : ¬ Grammatical (name ++ '@'.toUInt8 :: domain) := by
  rw [grammatical_iff hname]
  exact fun h => ne_at (.inr h.2) hdomain

/-- The check is the grammar of the converted address. -/
theorem validates_iff_of_converted {email : EmailAddress} {converted : Bytes}
    (h : applyPunycodeToDomain email.address = .ok converted) :
    email.Validates ↔ (Grammatical converted ↔ Grammatical email.address) := by
  have hvalid : email.isValid = .ok (if converted = [] then false
      else (emCheck.fullMatch converted).isSome) := by
    rw [EmailAddress.isValid, h]
    rfl
  have hgrammar : (if converted = [] then false else (emCheck.fullMatch converted).isSome) = true ↔
      Grammatical converted := by
    split
    · next hnil =>
      rw [hnil]
      exact iff_of_false Bool.false_ne_true (not_grammatical_of_not_mem List.not_mem_nil)
    · exact fullMatch_emCheck converted
  constructor
  · rintro ⟨valid, hok, hiff⟩
    rw [hvalid, Except.ok.injEq] at hok
    rw [← hgrammar, hok]
    exact hiff
  · exact fun hiff => ⟨_, hvalid, hgrammar.trans hiff⟩

/-! ## Where the check and the grammar agree -/

/-- The addresses that lose an at-sign at the end, and with it what is wrong with them. -/
def EndsInAt (address : Bytes) : Prop :=
  ∃ name domain, address = name ++ '@'.toUInt8 :: (domain ++ ['@'.toUInt8]) ∧
    Spelled nameChar name ∧ (∀ c ∈ domain, domainChar c = true) ∧ ∃ c ∈ domain, c ≠ '.'.toUInt8

/-- The addresses that lose their domain. -/
def OnlyDots (address : Bytes) : Prop :=
  ∃ name domain, address = name ++ '@'.toUInt8 :: domain ∧ Spelled nameChar name ∧
    domain ≠ [] ∧ ∀ c ∈ domain, c = '.'.toUInt8

theorem endsInAt_iff {name rest : Bytes} (hname : '@'.toUInt8 ∉ name) :
    EndsInAt (name ++ '@'.toUInt8 :: rest) ↔
      Spelled nameChar name ∧ ∃ domain, rest = domain ++ ['@'.toUInt8] ∧
        (∀ c ∈ domain, domainChar c = true) ∧ ∃ c ∈ domain, c ≠ '.'.toUInt8 := by
  constructor
  · rintro ⟨name', domain, heq, hspelled, hdomain⟩
    obtain ⟨rfl, hrest⟩ := split_unique hname (ne_at (.inl hspelled)) heq
    exact ⟨hspelled, domain, hrest, hdomain⟩
  · rintro ⟨hspelled, domain, rfl, hdomain⟩
    exact ⟨name, domain, rfl, hspelled, hdomain⟩

theorem onlyDots_iff {name domain : Bytes} (hname : '@'.toUInt8 ∉ name) :
    OnlyDots (name ++ '@'.toUInt8 :: domain) ↔
      Spelled nameChar name ∧ domain ≠ [] ∧ ∀ c ∈ domain, c = '.'.toUInt8 :=
  exists_split_iff hname fun _ _ h => h.1

theorem not_lost_of_not_mem {address : Bytes} (h : '@'.toUInt8 ∉ address) :
    ¬ EndsInAt address ∧ ¬ OnlyDots address := by
  constructor
  · rintro ⟨name, domain, rfl, -⟩
    exact h (List.mem_append_right _ List.mem_cons_self)
  · rintro ⟨name, domain, rfl, -⟩
    exact h (List.mem_append_right _ List.mem_cons_self)

/-- A domain with an at-sign is not one of dots. -/
theorem not_onlyDots_of_mem {name domain : Bytes} (hname : '@'.toUInt8 ∉ name)
    (hdomain : '@'.toUInt8 ∈ domain) : ¬ OnlyDots (name ++ '@'.toUInt8 :: domain) := by
  rw [onlyDots_iff hname]
  exact fun h => absurd (h.2.2 _ hdomain) (by decide)

/-- One at-sign and a domain. -/
theorem validates_one_iff {email : EmailAddress} {name domain : Bytes}
    (hname : '@'.toUInt8 ∉ name) (hdomain : '@'.toUInt8 ∉ domain) (hne : domain ≠ [])
    (hascii : ∀ c ∈ domain, c < 128) (h : email.address = name ++ '@'.toUInt8 :: domain) :
    email.Validates ↔ ¬ OnlyDots email.address := by
  have hconverted : applyPunycodeToDomain email.address =
      .ok (name ++ '@'.toUInt8 :: joinedLabels domain) := by
    rw [h, applyPunycodeToDomain_one hname hdomain hne, punycodeEncode_ascii hascii]
    exact congrArg Except.ok (List.append_assoc name _ _)
  have hdots : (∀ c ∈ domain, c = '.'.toUInt8) → ∀ c ∈ domain, domainChar c = true := by
    intro hall c hc
    rw [hall c hc]
    decide
  rw [validates_iff_of_converted hconverted, h, grammatical_iff hname, grammatical_iff hname,
    onlyDots_iff hname, spelled_joinedLabels_iff, Spelled, Spelled]
  by_cases hall : ∀ c ∈ domain, c = '.'.toUInt8
  · have hnone : ¬ ∃ c ∈ domain, c ≠ '.'.toUInt8 := by
      rintro ⟨c, hc, hdot⟩
      exact hdot (hall c hc)
    have hchars := hdots hall
    tauto
  · have hsome : ∃ c ∈ domain, c ≠ '.'.toUInt8 := by
      push Not at hall
      exact hall
    tauto

/-- Two at-signs, the second at the end. -/
theorem validates_final_iff {email : EmailAddress} {name domain : Bytes}
    (hname : '@'.toUInt8 ∉ name) (hdomain : '@'.toUInt8 ∉ domain)
    (hascii : ∀ c ∈ domain, c < 128)
    (h : email.address = name ++ '@'.toUInt8 :: (domain ++ ['@'.toUInt8])) :
    email.Validates ↔ ¬ EndsInAt email.address := by
  have hconverted : applyPunycodeToDomain email.address =
      .ok (name ++ '@'.toUInt8 :: joinedLabels domain) := by
    rw [h, applyPunycodeToDomain_final hname hdomain, punycodeEncode_ascii hascii]
    exact congrArg Except.ok (List.append_assoc name _ _)
  have hnot : ¬ Grammatical email.address :=
    h ▸ not_grammatical_of_two hname (List.mem_append_right _ (List.mem_singleton_self _))
  rw [validates_iff_of_converted hconverted, iff_false_right hnot, h, grammatical_iff hname,
    endsInAt_iff hname, spelled_joinedLabels_iff]
  refine not_congr (and_congr_right fun _ => ⟨fun hspelled => ⟨domain, rfl, hspelled⟩, ?_⟩)
  rintro ⟨domain', heq, hspelled⟩
  rwa [List.append_cancel_right heq]

/-- **The check follows the grammar exactly where it does not lose what is wrong**: the last of
two at-signs, or a domain of dots. -/
theorem validates_iff (email : EmailAddress) (h : ∀ c ∈ email.address, c < 128) :
    email.Validates ↔ ¬ EndsInAt email.address ∧ ¬ OnlyDots email.address := by
  by_cases hmem : '@'.toUInt8 ∈ email.address
  · obtain ⟨name, rest, haddress, hname⟩ := List.eq_append_cons_of_mem hmem
    have hascii : ∀ c ∈ rest, c < 128 :=
      fun c hc => h c (haddress ▸ List.mem_append_right _ (List.mem_cons_of_mem _ hc))
    by_cases hrest : '@'.toUInt8 ∈ rest
    · obtain ⟨domain, t, rfl, hdomain⟩ := List.eq_append_cons_of_mem hrest
      have hdots : ¬ OnlyDots email.address := haddress ▸ not_onlyDots_of_mem hname hrest
      by_cases ht : t = []
      · subst ht
        have hdomainAscii : ∀ c ∈ domain, c < 128 :=
          fun c hc => hascii c (List.mem_append_left _ hc)
        rw [validates_final_iff hname hdomain hdomainAscii haddress]
        exact (and_iff_left hdots).symm
      · -- nothing is converted
        have hconverted : applyPunycodeToDomain email.address = .ok email.address := by
          rw [haddress, applyPunycodeToDomain_more hname hdomain ht]
        refine iff_of_true ((validates_iff_of_converted hconverted).mpr Iff.rfl) ⟨?_, hdots⟩
        rw [haddress, endsInAt_iff hname]
        rintro ⟨-, domain', heq, hchars, c, hc, -⟩
        have hspelled : Spelled domainChar domain' := ⟨List.ne_nil_of_mem hc, hchars⟩
        exact ht (split_unique hdomain (ne_at (.inr hspelled)) heq).2
    · have hends : ¬ EndsInAt email.address := by
        rw [haddress, endsInAt_iff hname]
        rintro ⟨-, domain, rfl, -⟩
        exact hrest (List.mem_append_right _ (List.mem_singleton_self _))
      by_cases hne : rest = []
      · have hconverted : applyPunycodeToDomain email.address = .ok email.address := by
          rw [haddress, hne, applyPunycodeToDomain_none hname]
        refine iff_of_true ((validates_iff_of_converted hconverted).mpr Iff.rfl) ⟨hends, ?_⟩
        rw [haddress, onlyDots_iff hname]
        exact fun hdots => hdots.2.1 hne
      · rw [validates_one_iff hname hrest hne hascii haddress]
        exact (and_iff_right hends).symm
  · exact iff_of_true ((validates_iff_of_converted
      (applyPunycodeToDomain_of_not_mem hmem)).mpr Iff.rfl) (not_lost_of_not_mem hmem)

theorem validates_iff_sample :
    EmailAddress.isValid { address := bytes "a@b.c" } = .ok true ∧
      EmailAddress.Validates { address := bytes "a@b.c" } := by
  have hname : '@'.toUInt8 ∉ bytes "a" := by decide
  have hends : ¬ EndsInAt (bytes "a" ++ '@'.toUInt8 :: bytes "b.c") := by
    rw [endsInAt_iff hname]
    rintro ⟨-, domain, hdomain, -⟩
    have hlast : (bytes "b.c").getLast? = some '@'.toUInt8 := by
      rw [hdomain, List.getLast?_concat]
    exact absurd hlast (by decide)
  have hdots : ¬ OnlyDots (bytes "a" ++ '@'.toUInt8 :: bytes "b.c") := by
    rw [onlyDots_iff hname]
    rintro ⟨-, -, hdomain⟩
    exact absurd (hdomain 'b'.toUInt8 List.mem_cons_self) (by decide)
  have hvalidates := validates_iff { address := bytes "a@b.c" }
    (List.all_iff_forall_prop.mp (by decide))
  exact ⟨by decide, hvalidates.mpr ⟨hends, hdots⟩⟩

/-- The address `a@b@` is valid, though it has two at-signs and one of them at its end. -/
theorem not_validates_finalAt :
    ¬ ∀ email : EmailAddress, (∀ c ∈ email.address, c < 128) → email.Validates := by
  intro h
  have hvalidates := h { address := bytes "a@b@" } (List.all_iff_forall_prop.mp (by decide))
  have hat : '@'.toUInt8 ∉ bytes "a" ∧ '@'.toUInt8 ∉ bytes "b" := by decide
  have hchars : Spelled nameChar (bytes "a") ∧ (∀ c ∈ bytes "b", domainChar c = true) ∧
      ∃ c ∈ bytes "b", c ≠ '.'.toUInt8 :=
    ⟨⟨by decide, List.all_eq_true.mp (by decide)⟩, List.all_eq_true.mp (by decide),
      'b'.toUInt8, by decide, by decide⟩
  exact (validates_final_iff hat.1 hat.2 (List.all_iff_forall_prop.mp (by decide)) rfl).mp
    hvalidates ⟨bytes "a", bytes "b", rfl, hchars⟩

end Nawa.mail
