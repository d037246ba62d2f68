import Nawa.Laws.Util.Encoding

/-!
# Line breaks in base64

The encoder ends a line before each character whose position the line length divides, padding
included. The decoder skips the breaks wherever they are. The expression of `isBase64` has no place
for one between two padding characters, so it refuses the texts whose last line is the second of
them alone.
-/

namespace Nawa.encoding

open Lib (Regex)
open Lib.Regex

/-! ## The expression -/

/-- What the expression takes before the padding. -/
abbrev textClass (allowWhitespaces : Bool) (c : UInt8) : Bool :=
  is_base64 c || (allowWhitespaces && is_whitespace c)

theorem textClass_padding (allowWhitespaces : Bool) :
    textClass allowWhitespaces '='.toUInt8 = false := by
  cases allowWhitespaces <;> decide

/-- A text is accepted that has something of the class and at most two padding characters. -/
theorem isBase64_iff {s : Bytes} {allowWhitespaces : Bool} :
    isBase64 s allowWhitespaces = true ↔
      ∃ xs n, s = xs ++ List.replicate n '='.toUInt8 ∧ xs ≠ [] ∧ n ≤ 2 ∧
        ∀ x ∈ xs, textClass allowWhitespaces x = true := by
  have hend : ∀ x t, decide (x = '='.toUInt8) = true →
      (if x :: t = [] then some (fun _ => none : Captures UInt8) else none) = none :=
    fun x t _ => if_neg (List.cons_ne_nil x t)
  rw [isBase64, Option.isSome_iff_exists, fullMatch, base64Text, run_seq]
  constructor
  · rintro ⟨v, h⟩
    obtain ⟨xs, ys, rfl, hne, hxs, hys⟩ := run_plus_sat_some h
    obtain ⟨padding, rest, rfl, hpadding, hrest⟩ := exists_run (· = '='.toUInt8) ys
    rw [run_rep_sat hpadding hrest hend true (Nat.zero_le 2)] at hys
    split at hys
    · next hlen =>
      split at hys
      · next hnil =>
        refine ⟨xs, padding.length, ?_, hne, hlen.2, hxs⟩
        rw [hnil, List.append_nil]
        congr 1
        exact List.eq_replicate_length.mpr fun c hc => of_decide_eq_true (hpadding c hc)
      · cases hys
    · cases hys
  · rintro ⟨xs, n, rfl, hne, hn, hxs⟩
    refine ⟨fun _ => none, run_plus_sat_longest hne hxs ?_ ?_⟩
    · intro c hc
      rw [List.eq_of_mem_replicate (List.mem_of_mem_head? hc)]
      exact textClass_padding allowWhitespaces
    · have hpadding : ∀ c ∈ List.replicate n '='.toUInt8, decide (c = '='.toUInt8) = true :=
        fun c hc => decide_eq_true (List.eq_of_mem_replicate hc)
      rw [← List.append_nil (List.replicate n _),
        run_rep_sat hpadding (fun _ h => absurd h (Option.not_mem_none _)) hend true
          (Nat.zero_le 2),
        List.length_replicate, if_pos ⟨Nat.zero_le n, hn⟩, if_pos rfl]

/-! ## Letters and padding -/

/-- The number of padding characters. -/
def padding (s : Bytes) : Nat := (3 - s.length % 3) % 3

theorem is_base64_char (v : UInt8) : is_base64 (base64Char v) = true := by
  by_cases h : v.toNat < 64
  · exact (base64Value_char v h).1
  · have hlow : ∀ n : UInt8, n.toNat ≤ 62 → ¬ v < n := by
      intro n hn hlt
      rw [UInt8.lt_iff_toNat_lt] at hlt
      omega
    have hne : v ≠ 62 := by
      rintro rfl
      exact h (by decide)
    rw [base64Char, if_neg (hlow 26 (by decide)), if_neg (hlow 52 (by decide)),
      if_neg (hlow 62 (by decide)), if_neg hne]
    decide

/-- The text without breaks: characters of the alphabet that the padding fills up to groups of
four. -/
theorem encodeGroups_eq (s : Bytes) : ∃ cs,
    encodeGroups s = cs ++ List.replicate (padding s) '='.toUInt8 ∧
      (∀ c ∈ cs, is_base64 c = true) ∧ cs.length + padding s = 4 * ((s.length + 2) / 3) := by
  fun_induction encodeGroups s with
  | case1 a b c rest ih =>
    obtain ⟨cs, heq, hcs, hlen⟩ := ih
    have hpadding : padding (a :: b :: c :: rest) = padding rest := by
      simp only [padding, List.length_cons]
      omega
    rw [hpadding]
    refine ⟨_ :: _ :: _ :: _ :: cs, by rw [heq]; rfl, ?_, ?_⟩
    · simp only [List.forall_mem_cons]
      exact ⟨is_base64_char _, is_base64_char _, is_base64_char _, is_base64_char _, hcs⟩
    · simp only [List.length_cons] at hlen ⊢
      omega
  | case2 a b =>
    refine ⟨[_, _, _], rfl, ?_, by simp [padding]⟩
    simp only [List.forall_mem_cons]
    exact ⟨is_base64_char _, is_base64_char _, is_base64_char _, List.forall_mem_nil _⟩
  | case3 a =>
    refine ⟨[_, _], rfl, ?_, by simp [padding]⟩
    simp only [List.forall_mem_cons]
    exact ⟨is_base64_char _, is_base64_char _, List.forall_mem_nil _⟩
  | case4 => exact ⟨[], rfl, List.forall_mem_nil _, rfl⟩

/-! ## Where the lines end -/

/-- The encoder's `break_count` at a position. -/
def column (breakAfter p : Nat) : Nat :=
  if breakAfter = 0 ∨ p = 0 then p else (p - 1) % breakAfter + 1

/-- What the encoder puts before the character at a position. -/
def breakBefore (breakAfter : Nat) (breakSequence : Bytes) (p : Nat) : Bytes :=
  if 0 < breakAfter ∧ 0 < p ∧ breakAfter ∣ p then breakSequence else []

theorem column_succ {breakAfter : Nat} (h : 0 < breakAfter) (p : Nat) :
    column breakAfter (p + 1) = p % breakAfter + 1 := by
  rw [column, if_neg (by omega), Nat.add_sub_cancel]

theorem column_eq_iff {breakAfter : Nat} (h : 0 < breakAfter) (p : Nat) :
    column breakAfter p = breakAfter ↔ 0 < p ∧ breakAfter ∣ p := by
  cases p with
  | zero =>
    rw [column, if_pos (.inr rfl)]
    omega
  | succ p =>
    obtain ⟨n, rfl⟩ := Nat.exists_eq_add_one_of_ne_zero h.ne'
    rw [column_succ h, Nat.dvd_iff_mod_eq_zero, Nat.succ_mod_succ_eq_zero_iff,
      Nat.add_right_cancel_iff]
    exact (and_iff_right (Nat.succ_pos p)).symm

/-- A line that is not full goes on. -/
theorem column_next {breakAfter p : Nat} (h : 0 < breakAfter)
    (hnot : column breakAfter p ≠ breakAfter) :
    column breakAfter p + 1 = p % breakAfter + 1 := by
  cases p with
  | zero => rw [column, if_pos (.inr rfl), Nat.zero_mod]
  | succ p =>
    rw [column_succ h] at hnot ⊢
    have hlt := Nat.mod_lt p h
    rw [← Nat.mod_add_mod p breakAfter 1,
      Nat.mod_eq_of_lt (show p % breakAfter + 1 < breakAfter by omega)]

theorem insertBreaks_cons (breakAfter : Nat) (breakSequence : Bytes) (p : Nat) (c : UInt8)
    (cs : Bytes) :
    insertBreaks breakAfter breakSequence (column breakAfter p) (c :: cs) =
      breakBefore breakAfter breakSequence p ++
        c :: insertBreaks breakAfter breakSequence (column breakAfter (p + 1)) cs := by
  rw [insertBreaks, breakBefore]
  by_cases h : 0 < breakAfter
  · simp only [h, true_and, ← column_eq_iff h, column_succ h]
    split
    · next hfull =>
      rw [Nat.mod_eq_zero_of_dvd ((column_eq_iff h p).mp hfull).2]
    · next hnot => rw [column_next h hnot, List.nil_append]
  · obtain rfl : breakAfter = 0 := Nat.eq_zero_of_not_pos h
    simp only [h, false_and, if_false, List.nil_append, column, true_or, if_true]

theorem insertBreaks_append (breakAfter : Nat) (breakSequence : Bytes) (p : Nat) (xs ys : Bytes) :
    insertBreaks breakAfter breakSequence (column breakAfter p) (xs ++ ys) =
      insertBreaks breakAfter breakSequence (column breakAfter p) xs ++
        insertBreaks breakAfter breakSequence (column breakAfter (p + xs.length)) ys := by
  induction xs generalizing p with
  | nil => rfl
  | cons x xs ih =>
    rw [List.cons_append, insertBreaks_cons, insertBreaks_cons, ih, List.length_cons,
      Nat.add_right_comm, List.append_assoc, List.cons_append, Nat.add_assoc]

/-- Breaks of white space keep a text of the alphabet in the class. -/
theorem textClass_insertBreaks {breakSequence : Bytes}
    (h : ∀ c ∈ breakSequence, is_whitespace c = true) (breakAfter breakCount : Nat) {cs : Bytes}
    (hcs : ∀ c ∈ cs, is_base64 c = true) :
    ∀ c ∈ insertBreaks breakAfter breakSequence breakCount cs, textClass true c = true := by
  have hletter : ∀ c, is_base64 c = true → textClass true c = true := by
    intro c hc
    rw [textClass, hc, Bool.true_or]
  have hbreak : ∀ c ∈ breakSequence, textClass true c = true := by
    intro c hc
    rw [textClass, h c hc, Bool.true_and, Bool.or_true]
  induction cs generalizing breakCount with
  | nil => exact List.forall_mem_nil _
  | cons x cs ih =>
    rw [List.forall_mem_cons] at hcs
    rw [insertBreaks]
    split
    · rw [List.forall_mem_append, List.forall_mem_cons]
      exact ⟨hbreak, hletter x hcs.1, ih 1 hcs.2⟩
    · rw [List.forall_mem_cons]
      exact ⟨hletter x hcs.1, ih _ hcs.2⟩

theorem textClass_breakBefore {breakSequence : Bytes}
    (h : ∀ c ∈ breakSequence, is_whitespace c = true) (breakAfter p : Nat) :
    ∀ c ∈ breakBefore breakAfter breakSequence p, textClass true c = true := by
  rw [breakBefore]
  split
  · intro c hc
    rw [textClass, h c hc, Bool.true_and, Bool.or_true]
  · exact List.forall_mem_nil _

/-- Something of the class other than padding is not accepted behind padding. -/
theorem not_isBase64 {allowWhitespaces : Bool} {before after : Bytes} {x : UInt8}
    (hx : x ≠ '='.toUInt8) :
    ¬ isBase64 (before ++ '='.toUInt8 :: x :: after) allowWhitespaces = true := by
  rw [isBase64_iff]
  rintro ⟨xs, n, heq, -, -, hxs⟩
  have hmem : x ∉ List.replicate n '='.toUInt8 := fun hmem => hx (List.eq_of_mem_replicate hmem)
  rcases List.append_eq_append_iff.mp heq with ⟨t, rfl, ht⟩ | ⟨t, rfl, ht⟩
  · cases t with
    | nil =>
      rw [List.nil_append] at ht
      exact hmem (ht ▸ List.mem_cons_of_mem _ List.mem_cons_self)
    | cons y t =>
      obtain ⟨rfl, ht⟩ := List.cons.inj ht
      have hclass := hxs _ (List.mem_append_right before List.mem_cons_self)
      rw [textClass_padding] at hclass
      cases hclass
  · exact hmem (ht ▸ List.mem_append_right t (List.mem_cons_of_mem _ List.mem_cons_self))

/-! ## What the expression accepts -/

/-- The last line is the second padding character alone. -/
def PaddingSplit (s : Bytes) (breakAfter : Nat) (breakSequence : Bytes) : Prop :=
  s.length % 3 = 1 ∧ 0 < breakAfter ∧ breakAfter ∣ 4 * ((s.length + 2) / 3) - 1 ∧
    breakSequence ≠ []

/-- The encoder's text, with the breaks in front of the padding and inside it. -/
theorem base64Encode_eq (s : Bytes) (breakAfter : Nat) {breakSequence : Bytes}
    (h : ∀ c ∈ breakSequence, is_whitespace c = true) : ∃ body,
    base64Encode s breakAfter breakSequence =
        body ++ insertBreaks breakAfter breakSequence
          (column breakAfter (4 * ((s.length + 2) / 3) - padding s))
          (List.replicate (padding s) '='.toUInt8) ∧
      (s ≠ [] → body ≠ []) ∧ ∀ c ∈ body, textClass true c = true := by
  obtain ⟨cs, heq, hcs, hlen⟩ := encodeGroups_eq s
  refine ⟨insertBreaks breakAfter breakSequence 0 cs, ?_, ?_,
    textClass_insertBreaks h breakAfter 0 hcs⟩
  · have hstart : column breakAfter 0 = 0 := if_pos (.inr rfl)
    have happend := insertBreaks_append breakAfter breakSequence 0 cs
      (List.replicate (padding s) '='.toUInt8)
    rw [hstart, Nat.zero_add, Nat.eq_sub_of_add_eq hlen] at happend
    rw [base64Encode, heq, happend]
  · intro hs
    have hpos := List.length_pos_iff.mpr hs
    cases cs with
    | nil =>
      have hpadding : padding s < 3 := Nat.mod_lt _ (by decide)
      rw [List.length_nil] at hlen
      omega
    | cons c cs =>
      rw [insertBreaks]
      split
      · exact List.append_ne_nil_of_right_ne_nil _ (List.cons_ne_nil _ _)
      · exact List.cons_ne_nil _ _

/-- The expression accepts what the encoder has written unless a break divides the padding. -/
theorem isBase64_base64Encode_iff {s breakSequence : Bytes} (hs : s ≠ []) (breakAfter : Nat)
    (h : ∀ c ∈ breakSequence, is_whitespace c = true) :
    isBase64 (base64Encode s breakAfter breakSequence) true = true ↔
      ¬ PaddingSplit s breakAfter breakSequence := by
  obtain ⟨body, heq, hne, hbody⟩ := base64Encode_eq s breakAfter h
  have hpos := List.length_pos_iff.mpr hs
  -- nothing but the first break can stand between the body and the padding
  have haccept : ∀ (p n : Nat), n ≤ 2 → isBase64
      (body ++ (breakBefore breakAfter breakSequence p ++ List.replicate n '='.toUInt8)) true =
        true := by
    intro p n hn
    refine isBase64_iff.mpr ⟨body ++ breakBefore breakAfter breakSequence p, n,
      (List.append_assoc _ _ _).symm, List.append_ne_nil_of_left_ne_nil (hne hs) _, hn, ?_⟩
    exact List.forall_mem_append.mpr ⟨hbody, textClass_breakBefore h breakAfter p⟩
  have hcases : s.length % 3 = 0 ∧ padding s = 0 ∨ s.length % 3 = 1 ∧ padding s = 2 ∨
      s.length % 3 = 2 ∧ padding s = 1 := by
    simp only [padding]
    omega
  rw [heq]
  rcases hcases with ⟨hmod, hpadding⟩ | ⟨hmod, hpadding⟩ | ⟨hmod, hpadding⟩
  · have hnot : ¬ PaddingSplit s breakAfter breakSequence := fun hsplit =>
      absurd (hmod.symm.trans hsplit.1) (by decide)
    rw [hpadding]
    exact iff_of_true (isBase64_iff.mpr ⟨body, 0, rfl, hne hs, Nat.zero_le 2, hbody⟩) hnot
  · have hnext : 4 * ((s.length + 2) / 3) - 2 + 1 = 4 * ((s.length + 2) / 3) - 1 := by omega
    rw [hpadding, List.replicate_succ, insertBreaks_cons, List.replicate_one, insertBreaks_cons,
      hnext]
    by_cases hsplit : PaddingSplit s breakAfter breakSequence
    · obtain ⟨x, t, rfl⟩ := List.exists_cons_of_ne_nil hsplit.2.2.2
      have hx : x ≠ '='.toUInt8 := by
        rintro rfl
        exact absurd (h _ List.mem_cons_self) (by decide)
      have hbreak : breakBefore breakAfter (x :: t) (4 * ((s.length + 2) / 3) - 1) = x :: t :=
        if_pos ⟨hsplit.2.1, by omega, hsplit.2.2.1⟩
      rw [hbreak, ← List.append_assoc, List.cons_append]
      exact iff_of_false (not_isBase64 hx) (not_not_intro hsplit)
    · have hbreak : breakBefore breakAfter breakSequence (4 * ((s.length + 2) / 3) - 1) = [] := by
        rw [breakBefore, ite_eq_right_iff]
        intro hbreak
        by_contra hbreaks
        exact hsplit ⟨hmod, hbreak.1, hbreak.2.2, hbreaks⟩
      rw [hbreak, List.nil_append]
      exact iff_of_true (haccept _ 2 (Nat.le_refl 2)) hsplit
  · have hnot : ¬ PaddingSplit s breakAfter breakSequence := fun hsplit =>
      absurd (hmod.symm.trans hsplit.1) (by decide)
    rw [hpadding, List.replicate_one, insertBreaks_cons]
    exact iff_of_true (haccept _ 1 (by decide)) hnot

/-- Lines of seven characters divide the padding of four bytes. -/
theorem not_isBase64_base64Encode : ¬ ∀ (s : Bytes) (breakAfter : Nat) (breakSequence : Bytes),
    s ≠ [] → (∀ c ∈ breakSequence, is_whitespace c = true) →
      isBase64 (base64Encode s breakAfter breakSequence) true = true := by
  intro h
  have haccepted := h (bytes "four") 7 crlf (by decide) (List.all_eq_true.mp (by decide))
  revert haccepted
  decide

theorem isBase64_base64Encode_six :
    isBase64 (base64Encode (bytes "four") 6 crlf) true = true :=
  have hsplit : ¬ PaddingSplit (bytes "four") 6 crlf := fun h => absurd h.2.2.1 (by decide)
  (isBase64_base64Encode_iff (by decide) 6 (List.all_eq_true.mp (by decide))).mpr hsplit

/-! ## What the decoder reads -/

/-- Base64 is read back wherever its lines end. -/
theorem base64Decode_base64Encode {breakSequence : Bytes}
    (h : ∀ c ∈ breakSequence, is_whitespace c = true) (s : Bytes) (breakAfter : Nat) :
    base64Decode (base64Encode s breakAfter breakSequence) = s := by
  have hread := base64Decode_encode (t := []) h rfl s breakAfter
  rwa [List.append_nil] at hread

theorem base64Decode_base64Encode_four :
    base64Decode (base64Encode (bytes "four") 7 crlf) = bytes "four" :=
  base64Decode_base64Encode (List.all_eq_true.mp (by decide)) (bytes "four") 7

end Nawa.encoding
