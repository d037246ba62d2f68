import Nawa.Util.HttpTime

/-!
# HTTP times and numbers

An HTTP time begins with the name of a day, so that nothing that `readHttpTime` accepts and
nothing that `makeHttpTime` writes begins with a number.
-/

namespace Nawa

/-- There is no number where a letter stands. -/
theorem stol_of_letter {s rest : Bytes} {c : UInt8} (hs : trimLeft s = c :: rest)
    (hc : 65 ≤ c) : stol s = .error .invalidArgument := by
  have hdigit : isdigit c = false :=
    decide_eq_false fun h => absurd (UInt8.le_trans hc h.2) (by decide)
  have hnone : (c :: rest).takeWhile isdigit = [] := by
    rw [List.takeWhile_cons, hdigit]
    rfl
  have hread : readDigits s = (false, []) := by
    rw [readDigits, hs]
    split
    · next heq =>
      cases heq
      exact absurd hc (by decide)
    · next heq =>
      cases heq
      exact absurd hc (by decide)
    · rw [hnone]
  rw [stol, hread]
  rfl

namespace utils

theorem letter_of_tolower {c : UInt8} (h : 97 ≤ tolower c) : 65 ≤ c := by
  rw [tolower] at h
  by_cases hupper : 65 ≤ c ∧ c ≤ 90
  · exact hupper.1
  · rw [if_neg hupper] at h
    exact UInt8.le_trans (by decide) h

/-- A day's name at the head of a text begins with a letter. -/
theorem letter_of_scanName {c : UInt8} {s : Bytes} {r : Nat × Bytes}
    (h : scanName weekdayNames (c :: s) = some r) : 65 ≤ c := by
  have hletters : ∀ name ∈ weekdayNames, ∃ x ∈ name.1.head?, 97 ≤ x := by decide
  obtain ⟨name, hfind, -⟩ := Option.map_eq_some_iff.mp h
  have hprefixed := List.find?_some hfind
  obtain ⟨x, hx, hletter⟩ := hletters name (List.mem_of_find?_eq_some hfind)
  obtain ⟨rest, hname⟩ := List.head?_eq_some_iff.mp hx
  rw [List.isPrefixOf_iff_prefix, hname] at hprefixed
  have hhead : x = tolower c := (List.cons_prefix_cons.mp hprefixed).1
  exact letter_of_tolower (hhead ▸ hletter)

/-! ## The two formats of a time -/

/-- A date is no number. -/
theorem stol_of_readHttpTime {s : Bytes} {t : Int} (h : readHttpTime s = .ok t) :
    stol s = .error .invalidArgument := by
  rw [readHttpTime] at h
  cases htime : getTime (bytes "%a, %d %b %Y %H:%M:%S GMT") s with
  | none =>
    rw [htime] at h
    cases h
  | some tm =>
    have hformat : bytes "%a, %d %b %Y %H:%M:%S GMT" =
        '%'.toUInt8 :: 'a'.toUInt8 :: bytes ", %d %b %Y %H:%M:%S GMT" := rfl
    rw [getTime, hformat] at htime
    cases hs : trimLeft s with
    | nil =>
      rw [hs] at htime
      cases htime
    | cons c rest =>
      rw [hs, matchFormat, if_pos rfl, convert, if_pos rfl] at htime
      refine stol_of_letter hs ?_
      cases hscan : scanName weekdayNames (c :: rest) with
      | none =>
        rw [hscan] at htime
        cases htime
      | some r => exact letter_of_scanName hscan

theorem wday_lt {time : Int} {gmt : Tm} (h : gmtime time = some gmt) : gmt.wday < 7 := by
  unfold gmtime at h
  dsimp only at h
  split at h
  · cases h
    have hpos : 0 ≤ (time.fdiv 86400 + 4).fmod 7 := Int.fmod_nonneg_of_pos _ (by decide)
    have hlt : (time.fdiv 86400 + 4).fmod 7 < 7 := Int.fmod_lt_of_pos _ (by decide)
    show ((time.fdiv 86400 + 4).fmod 7).toNat < 7
    omega
  · cases h

theorem stol_of_makeHttpTime {s : Bytes} {t : Int} (h : makeHttpTime t = .ok s) :
    stol s = .error .invalidArgument := by
  have hletters : ∀ wday < 7, ∃ c ∈ (getDayOfWeek wday).head?, isspace c = false ∧ 65 ≤ c := by
    decide
  rw [makeHttpTime] at h
  cases hgmt : gmtime t with
  | none =>
    rw [hgmt] at h
    cases h
  | some gmt =>
    rw [hgmt] at h
    obtain ⟨c, hc, hspace, hletter⟩ := hletters gmt.wday (wday_lt hgmt)
    obtain ⟨rest, hday⟩ := List.head?_eq_some_iff.mp hc
    cases h
    have htrim (tail : Bytes) : trimLeft (c :: tail) = c :: tail := by
      rw [trimLeft, List.dropWhile_cons, hspace]
      rfl
    rw [hday]
    simp only [List.cons_append]
    exact stol_of_letter (htrim _) hletter

end utils

end Nawa
