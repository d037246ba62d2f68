import Mathlib.Data.Bool.AllAny
import Mathlib.Data.List.TakeWhile
import Nawa.Util.Bytes

/-!
# Laws of byte strings and of numbers as texts

What `to_string` writes is read back as the same number, so it tells numbers apart; a short run
of digits, decimal or hexadecimal, is read as the number that it spells.
-/

namespace Nawa

/-- A property of all bytes is checked byte by byte. -/
theorem forall_byte {P : UInt8 → Prop} [DecidablePred P]
    (h : (List.range 256).all (fun n => P (UInt8.ofNat n)) = true) : ∀ c, P c := by
  intro c
  have hc := List.all_eq_true.mp h c.toNat (List.mem_range.mpr c.toNat_lt)
  rw [UInt8.ofNat_toNat] at hc
  exact of_decide_eq_true hc

theorem error_ne_ok {ε α : Type} (e : ε) (a : α) : (.error e : Except ε α) ≠ .ok a := by
  intro h
  cases h

theorem error_else_ok_iff {ε α : Type} {p : Prop} [Decidable p] {e : ε} {a b : α} :
    (if p then .error e else .ok a : Except ε α) = .ok b ↔ ¬ p ∧ a = b := by
  split
  · next h => exact iff_of_false (error_ne_ok e b) fun hnot => hnot.1 h
  · next h => rw [Except.ok.injEq, and_iff_right h]

theorem bind_eq_ok_iff {ε α β : Type} {x : Except ε α} {f : α → Except ε β} {b : β} :
    x.bind f = .ok b ↔ ∃ a, x = .ok a ∧ f a = .ok b := by
  cases x with
  | error e => exact iff_of_false (error_ne_ok e b) fun ⟨a, h, _⟩ => error_ne_ok e a h
  | ok a =>
    refine ⟨fun h => ⟨a, rfl, h⟩, ?_⟩
    rintro ⟨_, ⟨⟩, h⟩
    exact h

theorem map_eq_ok_iff {ε α β : Type} {x : Except ε α} {f : α → β} {b : β} :
    x.map f = .ok b ↔ ∃ a, x = .ok a ∧ f a = b := by
  cases x with
  | error e => exact iff_of_false (error_ne_ok e b) fun ⟨a, h, _⟩ => error_ne_ok e a h
  | ok a =>
    refine ⟨fun h => ⟨a, rfl, Except.ok.inj h⟩, ?_⟩
    rintro ⟨_, ⟨⟩, rfl⟩
    rfl

theorem not_returns_error {ε α : Type} (e : ε) : ¬ ∃ a, (.error e : Except ε α) = .ok a := by
  rintro ⟨a, h⟩
  exact error_ne_ok e a h

theorem isalnum_of_isxdigit {c : UInt8} (h : isxdigit c = true) : isalnum c = true := by
  refine decide_eq_true ((of_decide_eq_true h).imp_right (Or.imp ?_ ?_))
  · exact fun hupper => ⟨hupper.1, UInt8.le_trans hupper.2 (by decide)⟩
  · exact fun hlower => ⟨hlower.1, UInt8.le_trans hlower.2 (by decide)⟩

theorem isalnum_range {c : UInt8} (h : isalnum c = true) : 48 ≤ c ∧ c ≤ 122 := by
  rcases of_decide_eq_true h with hdigit | ⟨hlow, hhigh⟩ | ⟨hlow, hhigh⟩
  · obtain ⟨hlow, hhigh⟩ := of_decide_eq_true hdigit
    exact ⟨hlow, UInt8.le_trans hhigh (by decide)⟩
  · exact ⟨UInt8.le_trans (by decide) hlow, UInt8.le_trans hhigh (by decide)⟩
  · exact ⟨UInt8.le_trans (by decide) hlow, hhigh⟩

/-- White space does not lie above the blank. -/
theorem isspace_of_lt {c : UInt8} (h : 32 < c) : isspace c = false := by
  refine decide_eq_false ?_
  rintro (rfl | ⟨-, hle⟩)
  · exact UInt8.lt_irrefl _ h
  · exact absurd (UInt8.lt_of_lt_of_le h hle) (by decide)

theorem trimLeft_eq_self {t : Bytes} : trimLeft t = t ↔ ∀ c ∈ t.head?, isspace c = false := by
  cases t with
  | nil => exact iff_of_true rfl nofun
  | cons c t =>
    simp only [trimLeft, List.head?_cons, Option.mem_def, Option.some.injEq, forall_eq']
    cases hc : isspace c with
    | true =>
      have hlen := (List.dropWhile_suffix (l := t) isspace).length_le
      rw [List.dropWhile_cons_of_pos hc]
      refine iff_of_false (fun h => ?_) nofun
      rw [h, List.length_cons] at hlen
      omega
    | false =>
      rw [List.dropWhile_cons_of_neg (by rw [hc]; nofun)]
      exact iff_of_true rfl rfl

/-- The occurrences of one byte are replaced where they stand. -/
theorem replaceAll_singleton (x : UInt8) (format s : Bytes) :
    replaceAll [x] format s = s.flatMap fun c => if c = x then format else [c] := by
  rw [replaceAll]
  induction s with
  | nil => rfl
  | cons c s ih =>
    rw [replaceAllFrom, List.flatMap_cons, List.length_singleton, Nat.sub_self, ih]
    by_cases hc : c = x
    · subst hc
      rw [if_pos ⟨List.cons_ne_nil c [], List.prefix_append [c] s⟩, if_pos rfl]
    · rw [if_neg fun h => hc (List.cons_prefix_cons.mp h.2).1.symm, if_neg hc]
      rfl

/-! ## Digits -/

/-- A run of digits spells a number below the power of the base that it is long. -/
private theorem foldl_value_lt {value : UInt8 → Nat} {base : Nat} {s : Bytes}
    (h : ∀ c ∈ s, value c < base) (n : Nat) :
    s.foldl (fun n c => n * base + value c) n < (n + 1) * base ^ s.length := by
  induction s generalizing n with
  | nil =>
    rw [List.foldl_nil, List.length_nil, Nat.pow_zero, Nat.mul_one]
    exact Nat.lt_succ_self n
  | cons c s ih =>
    rw [List.forall_mem_cons] at h
    have hrest := ih h.2 (n * base + value c)
    have hbase : n * base + value c + 1 ≤ (n + 1) * base := by
      rw [Nat.succ_mul]
      exact Nat.add_le_add_left h.1 _
    have hle := Nat.mul_le_mul_right (base ^ s.length) hbase
    rw [List.foldl_cons, List.length_cons, Nat.pow_succ', ← Nat.mul_assoc]
    exact Nat.lt_of_lt_of_le hrest hle

/-! ## Decimal numbers -/

private theorem foldl_digits {chars : List Char} (h : ∀ c ∈ chars, c.isDigit = true) (n : Nat) :
    (chars.map fun c => UInt8.ofNat c.toNat).foldl (fun n c => n * 10 + (c.toNat - 48)) n =
      Nat.ofDigitChars 10 chars n := by
  induction chars generalizing n with
  | nil => rw [List.map_nil, List.foldl_nil, Nat.ofDigitChars_nil]
  | cons c chars ih =>
    rw [List.forall_mem_cons] at h
    have hc : c.toNat < 256 := by
      have hdigit := h.1
      simp only [Char.isDigit, Bool.and_eq_true, decide_eq_true_eq] at hdigit
      have hle : c.toNat ≤ 57 := hdigit.2
      omega
    rw [List.map_cons, List.foldl_cons, ih h.2, Nat.ofDigitChars_cons, UInt8.toNat_ofNat',
      Nat.mod_eq_of_lt hc, Nat.mul_comm]
    rfl

/-- A number is read back from its decimal digits. -/
theorem digitsValue_decimal (n : Nat) : digitsValue (decimal n) = n := by
  have hdigits : ∀ c ∈ Nat.toDigits 10 n, c.isDigit = true := fun c hc =>
    Nat.isDigit_of_mem_toDigits (by decide) (Nat.le_refl 10) hc
  rw [digitsValue, decimal, foldl_digits hdigits, Nat.ofDigitChars_ten_toDigits]

theorem isdigit_plain (c : UInt8) (h : isdigit c = true) :
    c.toNat - 48 < 10 ∧ isspace c = false ∧ isxdigit c = true := by
  obtain ⟨hlow, hhigh⟩ := of_decide_eq_true h
  have hle : c.toNat ≤ 57 := hhigh
  have hspace := isspace_of_lt (UInt8.lt_of_lt_of_le (by decide) hlow)
  exact ⟨by omega, hspace, decide_eq_true (.inl h)⟩

theorem digitsValue_lt {s : Bytes} (h : ∀ c ∈ s, isdigit c = true) :
    digitsValue s < 10 ^ s.length := by
  have hfold := foldl_value_lt (fun c hc => (isdigit_plain c (h c hc)).1) 0
  rwa [Nat.zero_add, Nat.one_mul] at hfold

/-- Digits are read to their end. -/
theorem readDigits_of_digits {s : Bytes} (h : ∀ c ∈ s, isdigit c = true) :
    readDigits s = (false, s) := by
  have htrim : trimLeft s = s :=
    trimLeft_eq_self.mpr fun c hc => (isdigit_plain c (h c (List.mem_of_mem_head? hc))).2.1
  rw [readDigits, htrim]
  split
  · exact absurd (h 45 List.mem_cons_self) (by decide)
  · exact absurd (h 43 List.mem_cons_self) (by decide)
  · rw [List.takeWhile_eq_self_iff.mpr h]

theorem stoul_of_digitsValue_lt {s : Bytes} (hne : s ≠ []) (h : ∀ c ∈ s, isdigit c = true)
    (hlt : digitsValue s < 2 ^ 64) : stoul s = .ok (digitsValue s) := by
  rw [stoul, readDigits_of_digits h]
  dsimp only
  rw [if_neg hne, if_neg (Nat.not_le_of_lt hlt)]
  rfl

/-- Up to nineteen digits are read as the number that they spell. -/
theorem stoul_of_digits {s : Bytes} (hne : s ≠ []) (h : ∀ c ∈ s, isdigit c = true)
    (hlen : s.length ≤ 19) : stoul s = .ok (digitsValue s) := by
  refine stoul_of_digitsValue_lt hne h ((digitsValue_lt h).trans_le ?_)
  refine (Nat.pow_le_pow_right (by decide) hlen).trans ?_
  decide

theorem stol_of_digits {s : Bytes} (hne : s ≠ []) (h : ∀ c ∈ s, isdigit c = true)
    (hlen : s.length ≤ 18) : stol s = .ok (digitsValue s) := by
  have hlt : digitsValue s < 2 ^ 63 := by
    refine (digitsValue_lt h).trans_le ((Nat.pow_le_pow_right (by decide) hlen).trans ?_)
    decide
  rw [stol, readDigits_of_digits h]
  dsimp only
  rw [if_neg hne, if_neg Bool.false_ne_true, if_neg (Nat.not_le_of_lt hlt)]

theorem isdigit_of_mem_decimal {n : Nat} {c : UInt8} (h : c ∈ decimal n) : isdigit c = true := by
  obtain ⟨digit, hdigit, rfl⟩ := List.mem_map.mp h
  have hchar := Nat.isDigit_of_mem_toDigits (by decide) (Nat.le_refl 10) hdigit
  simp only [Char.isDigit, Bool.and_eq_true, decide_eq_true_eq] at hchar
  obtain ⟨hlow, hhigh⟩ : 48 ≤ digit.toNat ∧ digit.toNat ≤ 57 := hchar
  have hbyte : (UInt8.ofNat digit.toNat).toNat = digit.toNat :=
    UInt8.toNat_ofNat_of_lt' (hhigh.trans_lt (by decide))
  rw [isdigit, decide_eq_true_eq, UInt8.le_iff_toNat_le, UInt8.le_iff_toNat_le, hbyte]
  exact ⟨hlow, hhigh⟩

theorem decimal_ne_nil (n : Nat) : decimal n ≠ [] := by
  rw [decimal, ne_eq, List.map_eq_nil_iff]
  exact Nat.toDigits_ne_nil

/-- A number that fits is read back by `stoul`. -/
theorem stoul_decimal {n : Nat} (h : n < 2 ^ 64) : stoul (decimal n) = .ok n := by
  have hvalue := digitsValue_decimal n
  rw [stoul_of_digitsValue_lt (decimal_ne_nil n) (fun _ => isdigit_of_mem_decimal)
    (hvalue.symm ▸ h), hvalue]

theorem decimal_injective : Function.Injective decimal :=
  Function.LeftInverse.injective digitsValue_decimal

/-! ## Hexadecimal numbers -/

theorem xdigitValue_lt : ∀ c : UInt8, isxdigit c = true → xdigitValue c < 16 :=
  forall_byte (by decide +kernel)

/-- A digit is not white space, and not the letter of `0x`. -/
theorem isxdigit_plain :
    ∀ c : UInt8, isxdigit c = true → isspace c = false ∧ tolower c ≠ 120 :=
  forall_byte (by decide +kernel)

theorem xdigitsValue_lt {s : Bytes} (h : ∀ c ∈ s, isxdigit c = true) :
    xdigitsValue s < 16 ^ s.length := by
  have hfold := foldl_value_lt (fun c hc => xdigitValue_lt c (h c hc)) 0
  rwa [Nat.zero_add, Nat.one_mul] at hfold

/-- A run of digits is read whole: it has neither a sign nor the letter of `0x`. -/
theorem readHexDigits_of_digits {s : Bytes} (h : ∀ c ∈ s, isxdigit c = true) :
    readHexDigits s = (false, s) := by
  have htrim : trimLeft s = s :=
    trimLeft_eq_self.mpr fun c hc => (isxdigit_plain c (h c (List.mem_of_mem_head? hc))).1
  have htake : s.takeWhile isxdigit = s := List.takeWhile_eq_self_iff.mpr h
  rw [readHexDigits, htrim]
  split
  next negative rest hsign =>
    have hrest : negative = false ∧ rest = s := by
      split at hsign
      · exact absurd (h 45 List.mem_cons_self) (by decide)
      · exact absurd (h 43 List.mem_cons_self) (by decide)
      · cases hsign
        exact ⟨rfl, rfl⟩
    obtain ⟨rfl, rfl⟩ := hrest
    dsimp only
    split
    · next x d more =>
      have hx := (isxdigit_plain x (h x (List.mem_cons_of_mem _ List.mem_cons_self))).2
      rw [if_neg fun hprefix => hx hprefix.1, htake]
    · rw [htake]

/-- Up to fifteen digits are read as the number that they spell. -/
theorem stoulHex_of_digits {s : Bytes} (hne : s ≠ []) (h : ∀ c ∈ s, isxdigit c = true)
    (hlen : s.length ≤ 15) : stoulHex s = .ok (xdigitsValue s) := by
  have hlt : xdigitsValue s < 2 ^ 64 := by
    refine (xdigitsValue_lt h).trans_le ((Nat.pow_le_pow_right (by decide) hlen).trans ?_)
    decide
  rw [stoulHex, readHexDigits_of_digits h]
  dsimp only
  rw [if_neg hne, if_neg (Nat.not_le_of_lt hlt)]
  rfl

end Nawa
