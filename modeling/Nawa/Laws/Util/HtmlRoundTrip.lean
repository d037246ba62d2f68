import Nawa.Laws.Util.Encoding
import Nawa.Laws.Util.Html

/-!
# Numeric references, and the round trip of HTML

A `NumericReference` carries what the decoder's second expression asks of its digits, and the
expression finds exactly the texts of references. Since each is longer than the character that
it stands for, the second pass leaves a text alone only where it holds none of them.
-/

namespace Nawa.encoding

open Lib (Regex)
open Lib.Regex

/-! ## Numeric references -/

/-- The end of a reference, and of the match. -/
def closing (s : Bytes) (g : Captures UInt8) : Option (Bytes × Captures UInt8) :=
  (sat (· = ';'.toUInt8)).run s g fun s' g' => some (s', g')

theorem closing_eq_some_iff {s s' : Bytes} {g g' : Captures UInt8} :
    closing s g = some (s', g') ↔ s = ';'.toUInt8 :: s' ∧ g = g' := by
  cases s with
  | nil => exact iff_of_false nofun fun h => List.cons_ne_nil _ _ h.1.symm
  | cons x s =>
    rw [closing, run_sat_cons]
    by_cases hx : x = ';'.toUInt8
    · simp [hx]
    · simp [hx]

theorem closing_cons_of_ne {x : UInt8} (h : x ≠ ';'.toUInt8) (s : Bytes) (g : Captures UInt8) :
    closing (x :: s) g = none := by
  rw [closing, run_sat_cons, decide_eq_false h, if_neg Bool.false_ne_true]

theorem ne_semicolon_of_isxdigit (c : UInt8) (h : isxdigit c = true) : c ≠ ';'.toUInt8 := by
  rintro rfl
  exact absurd h (by decide)

/-- What the groups of a hexadecimal reference hold. -/
def hexGroups (digits : Bytes) : Captures UInt8 :=
  Function.update (Function.update (fun _ => none) 2 (some digits)) 1
    (some ('x'.toUInt8 :: digits))

def decimalGroups (digits : Bytes) : Captures UInt8 :=
  Function.update (Function.update (fun _ => none) 3 (some digits)) 1 (some digits)

/-- Digits behind `&#x`, up to where they end. -/
theorem matchAt_hex {digits s : Bytes} (hdigits : ∀ c ∈ digits, isxdigit c = true)
    (hs : ∀ c ∈ s.head?, isxdigit c = false) :
    matchUnicode.matchAt (bytes "&#" ++ 'x'.toUInt8 :: (digits ++ s)) =
      if 1 ≤ digits.length ∧ digits.length ≤ 5 then closing s (hexGroups digits) else none := by
  have htake : ('x'.toUInt8 :: (digits ++ s)).take
      (('x'.toUInt8 :: (digits ++ s)).length - s.length) = 'x'.toUInt8 :: digits :=
    take_sub_length (w := 'x'.toUInt8 :: digits)
  have hnot : ∀ c ∈ ('x'.toUInt8 :: (digits ++ s)).head?, isdigit c = false := by
    rintro c ⟨⟩
    decide
  rw [matchAt, matchUnicode, run_lit_append, run_seq, run_group, run_alt, run_seq, run_sat_cons,
    decide_eq_true rfl, if_pos rfl, run_group_rep_sat hdigits hs ?closes 2 true (by decide), htake,
    run_group 3, run_rep_sat_none hnot true (by decide) (by decide), Option.or_none]
  case closes =>
    intro x t d hx
    exact closing_cons_of_ne (ne_semicolon_of_isxdigit x hx) t _
  rfl

/-- Digits behind `&#`, up to where they end. -/
theorem matchAt_decimal {digits s : Bytes} (hdigits : ∀ c ∈ digits, isdigit c = true)
    (hs : ∀ c ∈ s.head?, isdigit c = false) (hx : ∀ c ∈ (digits ++ s).head?, c ≠ 'x'.toUInt8) :
    matchUnicode.matchAt (bytes "&#" ++ (digits ++ s)) =
      if 1 ≤ digits.length ∧ digits.length ≤ 6 then closing s (decimalGroups digits) else none := by
  have hhex : ∀ (r : Regex UInt8) (c : Captures UInt8)
      (k : Continuation UInt8 (Bytes × Captures UInt8)),
      ((sat (· = 'x'.toUInt8)).seq r).run (digits ++ s) c k = none := by
    intro r c k
    cases h : digits ++ s with
    | nil => rfl
    | cons x t =>
      rw [run_seq, run_sat_cons, decide_eq_false (hx x (by rw [h]; rfl)),
        if_neg Bool.false_ne_true]
  rw [matchAt, matchUnicode, run_lit_append, run_seq, run_group, run_alt, hhex, Option.none_or,
    run_group_rep_sat hdigits hs ?closes 3 true (by decide), take_sub_length]
  case closes =>
    intro x t d hx
    exact closing_cons_of_ne (ne_semicolon_of_isxdigit x (isdigit_plain x hx).2.2) t _
  rfl

/-- A numeric reference: one to five hexadecimal digits or one to six decimal ones. -/
inductive NumericReference where
  | hex (digits : Bytes) (h : ∀ c ∈ digits, isxdigit c = true)
      (hlen : 1 ≤ digits.length ∧ digits.length ≤ 5)
  | decimal (digits : Bytes) (h : ∀ c ∈ digits, isdigit c = true)
      (hlen : 1 ≤ digits.length ∧ digits.length ≤ 6)

namespace NumericReference

def text : NumericReference → Bytes
  | hex digits _ _ => bytes "&#" ++ 'x'.toUInt8 :: (digits ++ [';'.toUInt8])
  | decimal digits _ _ => bytes "&#" ++ (digits ++ [';'.toUInt8])

def codePoint : NumericReference → Nat
  | hex digits _ _ => xdigitsValue digits
  | decimal digits _ _ => digitsValue digits

def groups : NumericReference → Captures UInt8
  | hex digits _ _ => hexGroups digits
  | decimal digits _ _ => decimalGroups digits

theorem text_ne_nil (r : NumericReference) : r.text ≠ [] := by
  cases r <;> exact fun h => absurd (List.append_eq_nil_iff.mp h).1 (by decide)

/-- Every reference is found where it stands. -/
theorem matchAt_text (r : NumericReference) (s : Bytes) :
    matchUnicode.matchAt (r.text ++ s) = some (s, r.groups) := by
  have hdigit : isxdigit ';'.toUInt8 = false ∧ isdigit ';'.toUInt8 = false := by decide
  cases r with
  | hex digits h hlen =>
    have hmatch := matchAt_hex h (s := ';'.toUInt8 :: s) (by rintro c ⟨⟩; exact hdigit.1)
    rw [if_pos hlen, closing_eq_some_iff.mpr ⟨rfl, rfl⟩] at hmatch
    simpa [text, groups] using hmatch
  | decimal digits h hlen =>
    have hfirst : ∀ c ∈ (digits ++ ';'.toUInt8 :: s).head?, c ≠ 'x'.toUInt8 := by
      cases digits with
      | nil => exact absurd hlen.1 (by decide)
      | cons d digits =>
        rintro c ⟨⟩ rfl
        exact absurd (h _ List.mem_cons_self) (by decide)
    have hmatch := matchAt_decimal h (s := ';'.toUInt8 :: s) (by rintro c ⟨⟩; exact hdigit.2) hfirst
    rw [if_pos hlen, closing_eq_some_iff.mpr ⟨rfl, rfl⟩] at hmatch
    simpa [text, groups] using hmatch

end NumericReference

/-- Nothing but references is found. -/
theorem reference_of_matchAt {t s : Bytes} {g : Captures UInt8}
    (h : matchUnicode.matchAt t = some (s, g)) :
    ∃ r : NumericReference, t = r.text ++ s ∧ g = r.groups := by
  by_cases hbegins : bytes "&#" <+: t
  · obtain ⟨l, rfl⟩ := hbegins
    by_cases hx : ∃ l', l = 'x'.toUInt8 :: l'
    · obtain ⟨l', rfl⟩ := hx
      obtain ⟨digits, rest, rfl, hdigits, hrest⟩ := exists_run isxdigit l'
      rw [matchAt_hex hdigits hrest, Option.ite_none_right_eq_some] at h
      obtain ⟨hlen, hclosing⟩ := h
      obtain ⟨rfl, rfl⟩ := closing_eq_some_iff.mp hclosing
      exact ⟨.hex digits hdigits hlen, by simp [NumericReference.text], rfl⟩
    · obtain ⟨digits, rest, rfl, hdigits, hrest⟩ := exists_run isdigit l
      have hfirst : ∀ c ∈ (digits ++ rest).head?, c ≠ 'x'.toUInt8 := by
        rintro c hc rfl
        obtain ⟨l', hl'⟩ := List.head?_eq_some_iff.mp hc
        exact hx ⟨l', hl'⟩
      rw [matchAt_decimal hdigits hrest hfirst, Option.ite_none_right_eq_some] at h
      obtain ⟨hlen, hclosing⟩ := h
      obtain ⟨rfl, rfl⟩ := closing_eq_some_iff.mp hclosing
      exact ⟨.decimal digits hdigits hlen, by simp [NumericReference.text], rfl⟩
  · rw [matchAt, matchUnicode, run_lit_of_not_prefix _ hbegins] at h
    cases h

/-- A reference is replaced by the code point that its digits spell. -/
theorem replaceUnicode_groups (cv : Codecvt) (r : NumericReference) (w : Bytes) :
    replaceUnicode cv (w :: groupTexts matchUnicode.markCount r.groups) =
      toBytes cv r.codePoint := by
  cases r with
  | hex digits h hlen =>
    have hne : digits ≠ [] := List.length_pos_iff.mp hlen.1
    have hlt : xdigitsValue digits < 2 ^ 32 :=
      (xdigitsValue_lt h).trans_le ((Nat.pow_le_pow_right (by decide) hlen.2).trans (by decide))
    have hcall : replaceUnicode cv [w, 'x'.toUInt8 :: digits, digits, []] =
        (stoulHex digits).bind fun c => toBytes cv (c % 2 ^ 32) := by
      simp [replaceUnicode, hne]
    refine hcall.trans ?_
    rw [stoulHex_of_digits hne h (hlen.2.trans (by decide))]
    exact congrArg (toBytes cv) (Nat.mod_eq_of_lt hlt)
  | decimal digits h hlen =>
    have hne : digits ≠ [] := List.length_pos_iff.mp hlen.1
    have hlt : digitsValue digits < 2 ^ 32 :=
      (digitsValue_lt h).trans_le ((Nat.pow_le_pow_right (by decide) hlen.2).trans (by decide))
    have hcall : replaceUnicode cv [w, digits, [], digits] =
        (stoul digits).bind fun c => toBytes cv (c % 2 ^ 32) := by
      simp [replaceUnicode, hne]
    refine hcall.trans ?_
    rw [stoul_of_digits hne h (hlen.2.trans (by decide))]
    exact congrArg (toBytes cv) (Nat.mod_eq_of_lt hlt)

theorem length_toBytes {cv : Codecvt} {c : Nat} {v : Bytes} (h : toBytes cv c = .ok v) :
    v.length ≤ 4 ∧ (c < 128 → v.length = 1) := by
  rw [toBytes] at h
  split at h
  · next hvalid =>
    cases h
    rw [String.length_utf8EncodeChar]
    refine ⟨Char.utf8Size_le_four _, fun hc => Char.utf8Size_eq_one_iff.mpr ?_⟩
    have hnat : (Char.ofNat c).toNat = c := by
      rw [Char.ofNat, dif_pos hvalid]
      rfl
    rw [UInt32.le_iff_toNat_le]
    exact hnat.le.trans (Nat.le_of_lt_succ hc)
  · next hvalid =>
    split at h
    · cases h
      exact ⟨Nat.le_succ 3, fun hc => absurd (.inl (by omega)) hvalid⟩
    · cases h

/-- A reference is longer than the character that it stands for. -/
theorem shortens_replaceUnicode (cv : Codecvt) :
    Shortens matchUnicode fun w g =>
      replaceUnicode cv (w :: groupTexts matchUnicode.markCount g) := by
  intro t s g hmatch
  obtain ⟨r, rfl, rfl⟩ := reference_of_matchAt hmatch
  refine ⟨r.text, r.text_ne_nil, rfl, fun v hv => ?_⟩
  have hv := (replaceUnicode_groups cv r r.text).symm.trans hv
  obtain ⟨hfour, hone⟩ := length_toBytes hv
  have hbegin : (bytes "&#").length = 2 := by decide
  cases r with
  | hex digits h hlen =>
    simp only [NumericReference.text, List.length_append, List.length_cons, List.length_nil,
      hbegin]
    omega
  | decimal digits h hlen =>
    have hdigits := digitsValue_lt h
    simp only [NumericReference.text, List.length_append, List.length_cons, List.length_nil,
      hbegin]
    by_cases hlong : 2 ≤ digits.length
    · omega
    · have hlen' : digits.length = 1 := by omega
      rw [hlen'] at hdigits
      have hv' := hone (show digitsValue digits < 128 by omega)
      omega

/-- A text stands for itself in the second pass when it holds no numeric reference. -/
theorem decodeNumbers_eq_self_iff (cv : Codecvt) (s : Bytes) :
    decodeNumbers cv s = .ok s ↔ ∀ r : NumericReference, ¬ r.text <:+: s := by
  rw [decodeNumbers, utils.regexReplaceCallback_eq,
    render_eq_self_iff (shortens_replaceUnicode cv)]
  constructor
  · rintro hunmatched r ⟨before, after, rfl⟩
    have hnone := hunmatched (r.text ++ after) ⟨before, List.append_assoc .. |>.symm⟩
    rw [r.matchAt_text] at hnone
    cases hnone
  · intro hnone t ht
    cases hmatch : matchUnicode.matchAt t with
    | none => rfl
    | some m =>
      obtain ⟨r, rfl, -⟩ := reference_of_matchAt (s := m.1) (g := m.2) hmatch
      exact absurd ((List.prefix_append _ _).isInfix.trans ht.isInfix) (hnone r)

/-- Encoding and decoding come to the second pass of the decoder alone. -/
theorem htmlDecode_htmlEncode (cv : Codecvt) (s : String) (encodeAll : Bool) :
    (htmlEncode (bytes s) encodeAll).bind (htmlDecode cv) = decodeNumbers cv (bytes s) := by
  obtain ⟨encoded, hencoded, hnames⟩ := bind_eq_ok_iff.mp (decodeNames_htmlEncode cv s encodeAll)
  rw [hencoded]
  show htmlDecode cv encoded = _
  rw [htmlDecode_eq, hnames]
  rfl

/-! ## The round trip -/

/-- What is encoded is decoded to the same text. -/
def HtmlRoundTrips (cv : Codecvt) (s : String) (encodeAll : Bool) : Prop :=
  (htmlEncode (bytes s) encodeAll).bind (htmlDecode cv) = .ok (bytes s)

/-- **Decoding undoes encoding** exactly where the text holds no numeric reference: the decoder's
second pass also replaces the references that the first pass has brought back. -/
theorem htmlRoundTrips_iff (cv : Codecvt) (s : String) (encodeAll : Bool) :
    HtmlRoundTrips cv s encodeAll ↔ ∀ r : NumericReference, ¬ r.text <:+: bytes s := by
  rw [HtmlRoundTrips, htmlDecode_htmlEncode, decodeNumbers_eq_self_iff]

/-- The text `&#65;` comes back as `A`, whichever version of the library is used. -/
theorem not_htmlRoundTrips_reference :
    ¬ (∀ (s : String) (encodeAll : Bool), HtmlRoundTrips .strict s encodeAll) ∧
      ¬ ∀ (s : String) (encodeAll : Bool), HtmlRoundTrips .lenient s encodeAll := by
  have hlost : ∀ cv, decodeNumbers cv (bytes "&#65;") = .ok (bytes "A") := by
    have hboth : decodeNumbers .strict (bytes "&#65;") = .ok (bytes "A") ∧
        decodeNumbers .lenient (bytes "&#65;") = .ok (bytes "A") := by decide +kernel
    intro cv
    cases cv
    exacts [hboth.1, hboth.2]
  have hnot : ∀ cv, ¬ HtmlRoundTrips cv "&#65;" false := by
    intro cv hself
    rw [HtmlRoundTrips, htmlDecode_htmlEncode, hlost] at hself
    exact absurd (Except.ok.inj hself) (by decide)
  exact ⟨fun hall => hnot .strict (hall _ _), fun hall => hnot .lenient (hall _ _)⟩

end Nawa.encoding
