import Nawa.Laws.Util.Encoding

/-!
# Encoded words

The Q-encoding writes each byte on its own, so it leaves a text as it is, up to blanks, exactly
when no byte had to be escaped. What `makeEncodedWord` returns is one of two forms, from which
the text is decoded, or a text that cannot be taken for one of them.
-/

namespace Nawa.encoding

/-- The bytes that a Q-encoded text shows as they are. -/
def qLiteral (c : UInt8) : Bool := 32 < c ∧ c ≤ 126 ∧ c ≠ 61 ∧ c ≠ 63 ∧ c ≠ 95

/-- What the Q-encoding writes for a byte. -/
def qText (c : UInt8) : Bytes :=
  if qLiteral c then [c]
  else if c = 32 then ['_'.toUInt8]
  else '='.toUInt8 :: utils.toUppercase (utils.hexDump [c])

/-- The characters of a text that is returned without any encoding. -/
def harmless (c : UInt8) : Bool := c = 32 ∨ qLiteral c

/-- The forms of an encoded word. -/
def wordB (x : Bytes) : Bytes := bytes "=?utf-8?B?" ++ x ++ bytes "?="

def wordQ (x : Bytes) : Bytes := bytes "=?utf-8?Q?" ++ x ++ bytes "?="

/-! ## Q-encoding, byte by byte -/

theorem qLiteral_iff (c : UInt8) :
    (32 ≤ c ∧ c ≤ 126 ∧ c ≠ 61 ∧ ¬ (c = 32 ∨ c = 63 ∨ c = 95)) ↔ qLiteral c = true := by
  rw [qLiteral, decide_eq_true_eq, not_or, not_or]
  constructor
  · rintro ⟨hlow, hhigh, hequals, hblank, hmark, hunderscore⟩
    exact ⟨UInt8.lt_of_le_of_ne hlow (Ne.symm hblank), hhigh, hequals, hmark, hunderscore⟩
  · rintro ⟨hlow, hhigh, hequals, hmark, hunderscore⟩
    exact ⟨UInt8.le_of_lt hlow, hhigh, hequals, (UInt8.ne_of_lt hlow).symm, hmark, hunderscore⟩

/-- Line endings and the line count play no part. -/
theorem quotedPrintableLoop_qEncoding (lineEnding : Bytes) (lineCount : Nat) (s : Bytes) :
    quotedPrintableLoop lineEnding true true lineCount s = s.flatMap qText := by
  induction s generalizing lineCount with
  | nil => rfl
  | cons c s ih =>
    have hsoft : ∀ n, ¬ (true = false ∧ n ≤ lineCount) := fun _ h => nomatch h.1
    have hraw : ¬ (true = false ∧ (c = 10 ∨ c = 13)) := fun h => nomatch h.1
    rw [quotedPrintableLoop, List.flatMap_cons, qText]
    simp only [true_and, qLiteral_iff, if_neg (hsoft _), if_neg hraw, ih]
    split
    · rfl
    · split <;> rfl

theorem quotedPrintableDecode_qText (s : Bytes) :
    quotedPrintableDecode (s.flatMap qText) true = .ok s := by
  have hloop := quotedPrintableDecode_loop (.inl rfl) true true 0 s quotedPrintableDecode_nil
  rw [List.append_nil, List.append_nil, quotedPrintableLoop_qEncoding] at hloop
  rw [quotedPrintableDecode_eq]
  exact hloop

/-- The text without escapes: only its blanks are replaced. -/
def underscored (s : Bytes) : Bytes :=
  s.map fun c => if c = ' '.toUInt8 then '_'.toUInt8 else c

theorem qText_of_harmless {c : UInt8} (h : harmless c = true) :
    qText c = [if c = ' '.toUInt8 then '_'.toUInt8 else c] := by
  rcases of_decide_eq_true h with rfl | hlit
  · rfl
  · have hne : c ≠ ' '.toUInt8 := by
      rintro rfl
      exact absurd hlit (by decide)
    rw [qText, if_pos hlit, if_neg hne]

theorem qText_of_not_harmless {c : UInt8} (h : ¬ harmless c = true) : (qText c).length = 3 := by
  rw [harmless, decide_eq_true_eq, not_or] at h
  rw [qText, if_neg h.2, if_neg h.1]
  rfl

theorem length_le_flatMap_qText (s : Bytes) : s.length ≤ (s.flatMap qText).length := by
  induction s with
  | nil => exact Nat.le_refl _
  | cons c s ih =>
    have hone : 1 ≤ (qText c).length := by
      by_cases hc : harmless c = true
      · rw [qText_of_harmless hc, List.length_singleton]
      · rw [qText_of_not_harmless hc]
        decide
    rw [List.flatMap_cons, List.length_append, List.length_cons]
    omega

/-- The comparison that the shortcut makes says what it is meant to. An escape makes the text
longer, and nothing makes it shorter again. -/
theorem flatMap_qText_eq_iff (s : Bytes) :
    s.flatMap qText = underscored s ↔ ∀ c ∈ s, harmless c = true := by
  constructor
  · intro h
    induction s with
    | nil => exact nofun
    | cons c s ih =>
      rw [List.flatMap_cons, underscored, List.map_cons] at h
      by_cases hc : harmless c = true
      · rw [qText_of_harmless hc] at h
        exact List.forall_mem_cons.mpr ⟨hc, ih (List.cons.inj h).2⟩
      · have hlength := congrArg List.length h
        have hle := length_le_flatMap_qText s
        rw [List.length_append, qText_of_not_harmless hc, List.length_cons, List.length_map]
          at hlength
        omega
  · intro h
    induction s with
    | nil => rfl
    | cons c s ih =>
      rw [List.forall_mem_cons] at h
      rw [List.flatMap_cons, qText_of_harmless h.1, ih h.2]
      rfl

/-! ## The outcomes -/

/-- The call returns one of the two forms, or the text where nothing in it needs encoding. -/
theorem makeEncodedWord_cases (s : Bytes) (base64 onlyIfNecessary : Bool) :
    ∃ out, makeEncodedWord s base64 onlyIfNecessary = .ok out ∧
      (out = wordB (base64Encode s 0 []) ∨ out = wordQ (s.flatMap qText) ∨
        out = s ∧ ∀ c ∈ s, harmless c = true) := by
  have hreplace : utils.stringReplace s [(bytes " ", bytes "_")] = .ok (underscored s) := by
    have hkey := utils.replaceKey_singleton ' '.toUInt8 '_'.toUInt8 (Nat.lt_succ_self s.length)
    rw [utils.stringReplace, List.foldlM_cons]
    exact congrArg (fun x => x >>= pure) hkey
  cases base64 with
  | true => exact ⟨_, rfl, .inl rfl⟩
  | false =>
    have hword : makeEncodedWord s false onlyIfNecessary =
        .ok (if onlyIfNecessary = true ∧ s.flatMap qText = underscored s then s
          else wordQ (s.flatMap qText)) := by
      simp only [makeEncodedWord, Bool.false_eq_true, if_false, hreplace, quotedPrintableEncode,
        quotedPrintableLoop_qEncoding]
      rfl
    refine ⟨_, hword, ?_⟩
    split
    · next h => exact .inr (.inr ⟨rfl, (flatMap_qText_eq_iff s).mp h.2⟩)
    · exact .inr (.inl rfl)

/-! ## What the outcomes are made of -/

/-- A character of the text in an encoded word: it is printable, it is no blank, and it does not
end the word. -/
def wordChar (c : UInt8) : Bool := 32 < c ∧ c ≤ 126 ∧ c ≠ 63

theorem wordChar_iff {x : Bytes} (h : ∀ c ∈ x, wordChar c = true) :
    '?'.toUInt8 ∉ x ∧ ∀ c ∈ x, isspace c = false := by
  constructor
  · exact fun hmark => absurd (h _ hmark) (by decide)
  · exact fun c hc => isspace_of_lt (of_decide_eq_true (h c hc)).1

theorem is_base64_base64Char (v : UInt8) : is_base64 (base64Char v) = true := by
  by_cases hv : v.toNat < 64
  · exact (base64Value_char v hv).1
  · have hnot : ∀ n : UInt8, n.toNat < 64 → ¬ v < n := fun n hn hlt => by
      have hlt' : v.toNat < n.toNat := hlt
      omega
    have hne : v ≠ 62 := by
      rintro rfl
      exact hv (by decide)
    rw [base64Char, if_neg (hnot 26 (by decide)), if_neg (hnot 52 (by decide)),
      if_neg (hnot 62 (by decide)), if_neg hne]
    rfl

theorem wordChar_of_base64 {c : UInt8} (h : is_base64 c = true) : wordChar c = true := by
  have hmark : c ≠ 63 := by
    rintro rfl
    exact absurd h (by decide)
  have hrange : 32 < c ∧ c ≤ 126 := by
    rcases of_decide_eq_true h with halnum | rfl | rfl
    · obtain ⟨hlow, hhigh⟩ := isalnum_range halnum
      exact ⟨UInt8.lt_of_lt_of_le (by decide) hlow, UInt8.le_trans hhigh (by decide)⟩
    · decide
    · decide
  exact decide_eq_true ⟨hrange.1, hrange.2, hmark⟩

theorem wordChar_base64Encode (s : Bytes) : ∀ c ∈ base64Encode s 0 [], wordChar c = true := by
  have hbreaks : ∀ (n : Nat) (t : Bytes), insertBreaks 0 [] n t = t := by
    intro n t
    induction t generalizing n with
    | nil => rfl
    | cons c t ih => rw [insertBreaks, if_neg fun h => Nat.lt_irrefl 0 h.1, ih]
  have hchar := fun v => wordChar_of_base64 (is_base64_base64Char v)
  have hpad : wordChar '='.toUInt8 = true := by decide
  rw [base64Encode, hbreaks]
  fun_induction encodeGroups s with
  | case1 a b c rest ih =>
    simp only [List.forall_mem_cons, hchar, true_and]
    exact ih
  | case2 a b => simp only [List.forall_mem_cons, hchar, hpad, true_and, List.not_mem_nil,
      false_imp_iff, implies_true]
  | case3 a => simp only [List.forall_mem_cons, hchar, hpad, true_and, List.not_mem_nil,
      false_imp_iff, implies_true]
  | case4 => exact List.forall_mem_nil _

theorem wordChar_of_upperHex {c : UInt8} (h : upperHex c = true) : wordChar c = true := by
  obtain ⟨hlow, hhigh⟩ := upperHex_range h
  have hmark : c ≠ 63 := by
    rintro rfl
    exact absurd h (by decide)
  exact decide_eq_true
    ⟨UInt8.lt_of_lt_of_le (by decide) hlow, UInt8.le_trans hhigh (by decide), hmark⟩

theorem wordChar_qText (s : Bytes) : ∀ c ∈ s.flatMap qText, wordChar c = true := by
  intro x hx
  obtain ⟨c, -, hc⟩ := List.mem_flatMap.mp hx
  rw [qText] at hc
  split at hc
  · next hlit =>
    obtain ⟨hlow, hhigh, -, hmark, -⟩ := of_decide_eq_true hlit
    exact List.mem_singleton.mp hc ▸ decide_eq_true ⟨hlow, hhigh, hmark⟩
  · split at hc
    · exact List.mem_singleton.mp hc ▸ rfl
    · rcases List.mem_cons.mp hc with rfl | hhex
      · rfl
      · exact wordChar_of_upperHex (upperHex_of_mem_toUppercase hhex)

theorem printable_word {x : Bytes} (h : ∀ c ∈ x, wordChar c = true) :
    (∀ c ∈ wordB x, 32 ≤ c ∧ c ≤ 126) ∧ ∀ c ∈ wordQ x, 32 ≤ c ∧ c ≤ 126 := by
  have hframe : ∀ before : Bytes, (∀ c ∈ before, 32 ≤ c ∧ c ≤ 126) →
      ∀ c ∈ before ++ x ++ bytes "?=", 32 ≤ c ∧ c ≤ 126 := by
    intro before hbefore c hc
    rw [List.append_assoc, List.mem_append, List.mem_append] at hc
    rcases hc with hc | hc | hc
    · exact hbefore c hc
    · obtain ⟨hlow, hhigh, -⟩ := of_decide_eq_true (h c hc)
      exact ⟨UInt8.le_of_lt hlow, hhigh⟩
    · have hend : ∀ c ∈ bytes "?=", 32 ≤ c ∧ c ≤ 126 := List.all_iff_forall_prop.mp (by decide)
      exact hend c hc
  constructor
  · exact hframe _ (List.all_iff_forall_prop.mp (by decide))
  · exact hframe _ (List.all_iff_forall_prop.mp (by decide))

theorem printable_of_harmless {c : UInt8} (h : harmless c = true) : 32 ≤ c ∧ c ≤ 126 := by
  rcases of_decide_eq_true h with rfl | hlit
  · decide
  · obtain ⟨hlow, hhigh, -⟩ := of_decide_eq_true hlit
    exact ⟨UInt8.le_of_lt hlow, hhigh⟩

/-! ## Reading a word -/

theorem wordB_injective {x y : Bytes} (h : wordB x = wordB y) : x = y :=
  List.append_cancel_left (List.append_cancel_right h)

theorem wordQ_injective {x y : Bytes} (h : wordQ x = wordQ y) : x = y :=
  List.append_cancel_left (List.append_cancel_right h)

theorem wordB_ne_wordQ (x y : Bytes) : wordB x ≠ wordQ y := by
  intro h
  have hB : (wordB x).take 9 = bytes "=?utf-8?B" := rfl
  have hQ : (wordQ y).take 9 = bytes "=?utf-8?Q" := rfl
  rw [h, hQ] at hB
  exact absurd hB (by decide)

/-- A text that is returned as it is cannot be taken for an encoded word. -/
theorem ne_word_of_harmless {s : Bytes} (h : ∀ c ∈ s, harmless c = true) (x : Bytes) :
    s ≠ wordB x ∧ s ≠ wordQ x := by
  have hequals : '='.toUInt8 ∉ s := fun hmem => absurd (h _ hmem) (by decide)
  constructor
  · rintro rfl
    exact hequals List.mem_cons_self
  · rintro rfl
    exact hequals List.mem_cons_self

/-- **Encoded words are safe in a header and say what they stand for.** -/
theorem makeEncodedWord_safe (s : Bytes) (base64 onlyIfNecessary : Bool) :
    ∃ out, makeEncodedWord s base64 onlyIfNecessary = .ok out ∧
      (∀ c ∈ out, 32 ≤ c ∧ c ≤ 126) ∧
      (∀ x, out = wordB x →
        '?'.toUInt8 ∉ x ∧ (∀ c ∈ x, isspace c = false) ∧ base64Decode x = s) ∧
      (∀ x, out = wordQ x →
        '?'.toUInt8 ∉ x ∧ (∀ c ∈ x, isspace c = false) ∧ quotedPrintableDecode x true = .ok s) ∧
      ((∀ x, out ≠ wordB x ∧ out ≠ wordQ x) → out = s) := by
  obtain ⟨out, hout, rfl | rfl | ⟨rfl, hharmless⟩⟩ :=
    makeEncodedWord_cases s base64 onlyIfNecessary
  · obtain ⟨hmark, hspace⟩ := wordChar_iff (wordChar_base64Encode s)
    have hdecode : base64Decode (base64Encode s 0 [] ++ []) = s :=
      base64Decode_encode (List.forall_mem_nil _) rfl s 0
    rw [List.append_nil] at hdecode
    refine ⟨_, hout, (printable_word (wordChar_base64Encode s)).1, ?_, ?_, ?_⟩
    · intro x hx
      obtain rfl := wordB_injective hx
      exact ⟨hmark, hspace, hdecode⟩
    · intro x hx
      exact absurd hx (wordB_ne_wordQ _ x)
    · intro hnot
      exact absurd rfl (hnot _).1
  · obtain ⟨hmark, hspace⟩ := wordChar_iff (wordChar_qText s)
    refine ⟨_, hout, (printable_word (wordChar_qText s)).2, ?_, ?_, ?_⟩
    · intro x hx
      exact absurd hx.symm (wordB_ne_wordQ x _)
    · intro x hx
      obtain rfl := wordQ_injective hx
      exact ⟨hmark, hspace, quotedPrintableDecode_qText s⟩
    · intro hnot
      exact absurd rfl (hnot _).2
  · refine ⟨_, hout, fun c hc => printable_of_harmless (hharmless c hc), ?_, ?_, fun _ => rfl⟩
    · intro x hx
      exact absurd hx (ne_word_of_harmless hharmless x).1
    · intro x hx
      exact absurd hx (ne_word_of_harmless hharmless x).2

end Nawa.encoding
