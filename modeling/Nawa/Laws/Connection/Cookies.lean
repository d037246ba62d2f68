import Nawa.Connection.Connection
import Nawa.Laws.Util.Bytes
import Nawa.Laws.Util.Separators

/-!
# Cookies, there and back

What `setCookie` lets through holds none of the characters that the reader of cookies takes for
structure, so the pairs of a client's `Cookie` header are the ones that were set. The header that
sets a cookie begins with its pair, and all that the attributes bring stands behind a semicolon.
-/

namespace Nawa

namespace utils

/-- A cookie as a client sends it back. -/
def cookiePair (p : Bytes × Bytes) : Bytes := p.1 ++ bytes "=" ++ p.2

/-- The `Cookie` header of a client. -/
def cookieField (pairs : List (Bytes × Bytes)) : Bytes :=
  (bytes "; ").intercalate (pairs.map cookiePair)

/-- A pair without the characters that have a meaning in a `Cookie` header. -/
structure PlainPair (p : Bytes × Bytes) : Prop where
  noSpace : ∀ c ∈ p.1 ++ p.2, isspace c = false
  noSemicolon : ∀ c ∈ p.1 ++ p.2, c ≠ ';'.toUInt8
  noEquals : '='.toUInt8 ∉ p.1
  content : p.2 ≠ []

theorem PlainPair.pair {p : Bytes × Bytes} (h : PlainPair p) :
    (∀ c ∈ cookiePair p, isspace c = false) ∧ ';'.toUInt8 ∉ cookiePair p := by
  have hmem : ∀ c ∈ cookiePair p, c = '='.toUInt8 ∨ c ∈ p.1 ++ p.2 := by
    intro c hc
    rw [cookiePair, List.append_assoc, List.mem_append, List.mem_append] at hc
    rcases hc with hc | hc | hc
    · exact .inr (List.mem_append_left _ hc)
    · exact .inl (List.mem_singleton.mp hc)
    · exact .inr (List.mem_append_right _ hc)
  constructor
  · intro c hc
    rcases hmem c hc with rfl | hc
    · rfl
    · exact h.noSpace c hc
  · intro hc
    rcases hmem _ hc with heq | hc
    · exact absurd heq (by decide)
    · exact h.noSemicolon _ hc rfl

theorem trim_of_noSpace {t : Bytes} (h : ∀ c ∈ t, isspace c = false) : trim t = t := by
  have hleft : ∀ s : Bytes, (∀ c ∈ s, isspace c = false) → trimLeft s = s :=
    fun s hs => trimLeft_eq_self.mpr fun c hc => hs c (List.mem_of_mem_head? hc)
  rw [trim, hleft t h, hleft _ fun c hc => h c (List.mem_reverse.mp hc), List.reverse_reverse]

theorem trim_append {w : Bytes} (hw : ∀ c ∈ w, isspace c = true) (t : Bytes) :
    trim (w ++ t) = trim t := by
  have hleft : trimLeft (w ++ t) = trimLeft t := List.dropWhile_append_of_pos hw
  rw [trim, trim, hleft]

/-- The pair is read where it stands, also behind white space. -/
theorem parseCookie_cookiePair {p : Bytes × Bytes} (h : PlainPair p) {w : Bytes}
    (hw : ∀ c ∈ w, isspace c = true) : parseCookie (w ++ cookiePair p) = some p := by
  have htrim : trim (w ++ cookiePair p) = p.1 ++ '='.toUInt8 :: p.2 := by
    rw [trim_append hw, trim_of_noSpace h.pair.1, cookiePair, List.append_assoc]
    rfl
  rw [parseCookie_eq, htrim, if_pos (by simp), separated_append_sep h.noEquals,
    if_neg h.content]

theorem parseCookies_append_sep (s t : Bytes) :
    parseCookies (s ++ ';'.toUInt8 :: t) = parseCookies s ++ parseCookies t := by
  rw [parseCookies, splitString_append_sep, List.filterMap_append, parseCookies, parseCookies]

theorem parseCookies_cookiePair {p : Bytes × Bytes} (h : PlainPair p) {w : Bytes}
    (hw : ∀ c ∈ w, isspace c = true) : parseCookies (w ++ cookiePair p) = [p] := by
  have hsemi : ';'.toUInt8 ∉ w ++ cookiePair p := by
    intro hc
    rcases List.mem_append.mp hc with hc | hc
    · exact absurd (hw _ hc) (by decide)
    · exact h.pair.2 hc
  have hne : w ++ cookiePair p ≠ [] := by
    refine List.append_ne_nil_of_right_ne_nil _ ?_
    exact List.append_ne_nil_of_right_ne_nil _ h.content
  rw [parseCookies, splitString_singleton hne hsemi,
    List.filterMap_cons_some (parseCookie_cookiePair h hw), List.filterMap_nil]

/-- The induction is on the pairs; what has been written before a pair is the blank behind a
semicolon. -/
theorem parseCookies_cookieField {pairs : List (Bytes × Bytes)} (h : ∀ p ∈ pairs, PlainPair p) :
    parseCookies (cookieField pairs) = pairs := by
  have hblank : ∀ (p : Bytes × Bytes) (pairs : List (Bytes × Bytes)) (w : Bytes),
      (∀ c ∈ w, isspace c = true) → PlainPair p → (∀ p ∈ pairs, PlainPair p) →
      parseCookies (w ++ cookieField (p :: pairs)) = p :: pairs := by
    intro p pairs
    induction pairs generalizing p with
    | nil =>
      intro w hw hp _
      rw [cookieField, List.map_singleton, List.intercalate_singleton]
      exact parseCookies_cookiePair hp hw
    | cons p' pairs ih =>
      intro w hw hp hpairs
      rw [List.forall_mem_cons] at hpairs
      have hsplit : w ++ cookieField (p :: p' :: pairs) =
          (w ++ cookiePair p) ++ ';'.toUInt8 :: (bytes " " ++ cookieField (p' :: pairs)) := by
        rw [cookieField, List.map_cons, List.map_cons, List.intercalate_cons_cons,
          List.append_assoc, List.append_assoc]
        rfl
      rw [hsplit, parseCookies_append_sep, parseCookies_cookiePair hp hw,
        ih p' (bytes " ") (List.all_iff_forall_prop.mp (by decide)) hpairs.1 hpairs.2]
      rfl
  cases pairs with
  | nil => rfl
  | cons p pairs =>
    rw [List.forall_mem_cons] at h
    exact hblank p pairs [] nofun h.1 h.2

end utils

namespace Connection

open utils

/-! ## What is let through -/

/-- The characters of a class that has the alphanumeric ones and a list of others. -/
theorem isspace_of_class {others : Bytes} (hothers : ∀ c ∈ others, 32 < c) {c : UInt8}
    (h : isalnum c = true ∨ c ∈ others) : isspace c = false := by
  rcases h with halnum | hmem
  · exact isspace_of_lt (UInt8.lt_of_lt_of_le (by decide) (isalnum_range halnum).1)
  · exact isspace_of_lt (hothers c hmem)

theorem keyChar_plain (c : UInt8) (h : keyChar c = true) :
    isspace c = false ∧ c ≠ ';'.toUInt8 ∧ c ≠ '='.toUInt8 := by
  refine ⟨?_, ?_, ?_⟩
  · exact isspace_of_class (List.all_iff_forall_prop.mp (by decide)) (of_decide_eq_true h)
  · rintro rfl
    exact absurd h (by decide)
  · rintro rfl
    exact absurd h (by decide)

theorem contentChar_plain (c : UInt8) (h : contentChar c = true) :
    isspace c = false ∧ c ≠ ';'.toUInt8 := by
  refine ⟨?_, ?_⟩
  · exact isspace_of_class (List.all_iff_forall_prop.mp (by decide)) (of_decide_eq_true h)
  · rintro rfl
    exact absurd h (by decide)

theorem setCookie_returns_iff {conn : Connection} {key : Bytes} {cookie : Cookie} :
    (∃ conn', conn.setCookie key cookie = .ok conn') ↔
      key.all keyChar = true ∧ cookie.content.all contentChar = true := by
  rw [setCookie]
  split
  · next h => exact iff_of_true ⟨_, rfl⟩ h
  · next h => exact iff_of_false (not_returns_error _) h

theorem plainPair_of_accepted {conn : Connection} {key : Bytes} {cookie : Cookie}
    (h : ∃ conn', conn.setCookie key cookie = .ok conn') (hne : cookie.content ≠ []) :
    PlainPair (key, cookie.content) := by
  obtain ⟨hkey, hcontent⟩ := setCookie_returns_iff.mp h
  rw [List.all_eq_true] at hkey hcontent
  refine ⟨fun c hc => ?_, fun c hc => ?_, fun hc => ?_, hne⟩
  · rcases List.mem_append.mp hc with hc | hc
    · exact (keyChar_plain c (hkey c hc)).1
    · exact (contentChar_plain c (hcontent c hc)).1
  · rcases List.mem_append.mp hc with hc | hc
    · exact (keyChar_plain c (hkey c hc)).2.1
    · exact (contentChar_plain c (hcontent c hc)).2
  · exact (keyChar_plain _ (hkey _ hc)).2.2 rfl

/-! ## The header that sets a cookie -/

/-- Nothing, or something that is marked off by a semicolon. -/
def MarkedOff (s : Bytes) : Prop := ∀ c ∈ s.head?, c = ';'.toUInt8

theorem MarkedOff.append {s t : Bytes} (hs : MarkedOff s) (ht : MarkedOff t) :
    MarkedOff (s ++ t) := by
  cases s with
  | nil => exact ht
  | cons c s => exact hs

theorem markedOff_semicolon (s : Bytes) : MarkedOff (';'.toUInt8 :: s) := by
  intro c hc
  exact (Option.mem_some.mp hc).symm

/-- The attributes of a cookie stand behind its pair, each behind a semicolon. -/
theorem cookieHeader_eq (policy : Cookie) (key : Bytes) (cookie : Cookie) :
    ∃ attributes, cookieHeader policy key cookie = cookiePair (key, cookie.content) ++ attributes ∧
      MarkedOff attributes := by
  have hnil : MarkedOff [] := nofun
  simp only [cookieHeader, List.append_assoc, cookiePair]
  refine ⟨_, rfl, ?_⟩
  refine .append ?_ (.append ?_ (.append ?_ (.append ?_ (.append ?_ (.append ?_ ?_)))))
  · split
    exacts [hnil, hnil, markedOff_semicolon _]
  · split
    exacts [hnil, hnil, markedOff_semicolon _]
  · split
    exacts [hnil, markedOff_semicolon _]
  · split
    exacts [hnil, markedOff_semicolon _]
  · split
    exacts [markedOff_semicolon _, hnil]
  · split
    exacts [markedOff_semicolon _, hnil]
  · split
    exacts [hnil, markedOff_semicolon _, markedOff_semicolon _]

theorem mem_parseCookies_cookieHeader (policy : Cookie) {key : Bytes} {cookie : Cookie}
    (h : PlainPair (key, cookie.content)) :
    (key, cookie.content) ∈ parseCookies (cookieHeader policy key cookie) := by
  obtain ⟨attributes, heq, hmarked⟩ := cookieHeader_eq policy key cookie
  have hpair : parseCookies (cookiePair (key, cookie.content)) = [(key, cookie.content)] :=
    parseCookies_cookiePair h (w := []) nofun
  rw [heq]
  cases attributes with
  | nil =>
    rw [List.append_nil, hpair]
    exact List.mem_singleton_self _
  | cons c attributes =>
    obtain rfl : c = ';'.toUInt8 := hmarked c rfl
    rw [parseCookies_append_sep, hpair]
    exact List.mem_cons_self

theorem setCookie_mem_getHeaders {conn conn' : Connection} {key : Bytes} {cookie : Cookie}
    (h : conn.setCookie key cookie = .ok conn') (policy : Cookie) (order : HashOrder) :
    (bytes "set-cookie", cookieHeader policy key cookie) ∈
      (conn'.setCookiePolicy policy).getHeaders order true := by
  rw [setCookie] at h
  split at h
  · cases h
    refine (order.perm _).mem_iff.mpr (List.mem_append_right _ ?_)
    refine List.mem_map.mpr ⟨(key, cookie), ?_, rfl⟩
    exact List.mem_append_right _ (List.mem_singleton_self _)
  · cases h

/-- **Cookies come back as they were set**: all of them from the header of a client, and each
from the header that sets it. -/
theorem cookies_round_trip (conn : Connection) :
    (∀ pairs : List (Bytes × Bytes),
      (∀ p ∈ pairs, p.2 ≠ [] ∧ ∃ conn', conn.setCookie p.1 { content := p.2 } = .ok conn') →
      (parseCookies (cookieField pairs)).Perm pairs) ∧
    ∀ (key : Bytes) (cookie : Cookie) (conn' : Connection), cookie.content ≠ [] →
      conn.setCookie key cookie = .ok conn' → ∀ (policy : Cookie) (order : HashOrder),
      (bytes "set-cookie", cookieHeader policy key cookie) ∈
          (conn'.setCookiePolicy policy).getHeaders order true ∧
        (key, cookie.content) ∈ parseCookies (cookieHeader policy key cookie) := by
  constructor
  · intro pairs h
    rw [parseCookies_cookieField fun p hp => plainPair_of_accepted (h p hp).2 (h p hp).1]
  · intro key cookie conn' hne hset policy order
    have hplain : PlainPair (key, cookie.content) := plainPair_of_accepted ⟨conn', hset⟩ hne
    exact ⟨setCookie_mem_getHeaders hset policy order,
      mem_parseCookies_cookieHeader policy hplain⟩

/-- Pairs with a repeated key, an empty key and an equals sign in a content. -/
def samplePairs : List (Bytes × Bytes) :=
  [(bytes "a", bytes "1=2"), ([], bytes "x"), (bytes "a", bytes "3")]

theorem cookies_round_trip_sample :
    (parseCookies (cookieField samplePairs)).Perm samplePairs ∧
      (bytes "a", bytes "1") ∈ parseCookies (cookieHeader { secure := true } (bytes "a")
        { content := bytes "1", domain := some (bytes "x;y=z") }) := by
  have hplain : ∀ p ∈ samplePairs, p.2 ≠ [] ∧
      p.1.all keyChar = true ∧ p.2.all contentChar = true := by decide
  obtain ⟨conn', hset⟩ : ∃ conn', ({} : Connection).setCookie (bytes "a")
      { content := bytes "1", domain := some (bytes "x;y=z") } = .ok conn' :=
    setCookie_returns_iff.mpr (by decide)
  obtain ⟨hpairs, hheader⟩ := cookies_round_trip {}
  constructor
  · exact hpairs _ fun p hp => ⟨(hplain p hp).1, setCookie_returns_iff.mpr (hplain p hp).2⟩
  · exact (hheader _ _ conn' (by decide) hset { secure := true } ⟨id, .refl⟩).2

end Connection

end Nawa
