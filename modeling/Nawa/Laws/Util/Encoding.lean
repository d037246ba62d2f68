import Nawa.Util.Encoding
import Nawa.Laws.Util.Bytes
import Nawa.Laws.Util.Utils

/-!
# Laws of `nawa::encoding`

Decoding undoes encoding, for base64 with line breaks of white space and for quoted-printable in
all of its modes. The decoders that replace the matches of a regular expression have one lemma
for each thing that the encoder can have written in front of any text.
-/

namespace Nawa.encoding

open Lib (Regex)
open Lib.Regex

/-! ## Base64 -/

/-- What the encoder's bit operations do to a byte. -/
theorem encodeBits : ∀ c : UInt8,
    ((c &&& 0xfc) >>> 2).toNat = c.toNat / 4 ∧ ((c &&& 0x03) <<< 4).toNat = c.toNat % 4 * 16 ∧
      ((c &&& 0xf0) >>> 4).toNat = c.toNat / 16 ∧ ((c &&& 0x0f) <<< 2).toNat = c.toNat % 16 * 4 ∧
      ((c &&& 0xc0) >>> 6).toNat = c.toNat / 64 ∧ (c &&& 0x3f).toNat = c.toNat % 64 :=
  forall_byte (by decide +kernel)

/-- What the decoder's bit operations do to the value of a character. -/
theorem decodeBits : ∀ v : UInt8,
    (v <<< 2).toNat = v.toNat * 4 % 256 ∧ ((v &&& 0x30) >>> 4).toNat = v.toNat / 16 % 4 ∧
      ((v &&& 0xf) <<< 4).toNat = v.toNat % 16 * 16 ∧
      ((v &&& 0x3c) >>> 2).toNat = v.toNat / 4 % 16 ∧
      ((v &&& 0x3) <<< 6).toNat = v.toNat % 4 * 64 :=
  forall_byte (by decide +kernel)

theorem base64Value_char : ∀ v : UInt8, v.toNat < 64 →
    is_base64 (base64Char v) = true ∧ base64Value (base64Char v) = v :=
  forall_byte (by decide +kernel)

theorem not_base64_of_whitespace (c : UInt8) (h : is_whitespace c = true) :
    ¬ is_base64 c = true := by
  rcases of_decide_eq_true h with rfl | rfl | rfl | rfl <;> decide

/-- The characters that the decoder takes as the message. -/
def letters (s : Bytes) : Bytes :=
  (s.takeWhile fun c => is_base64 c || is_whitespace c).filter is_base64

theorem base64Decode_eq (s : Bytes) :
    base64Decode s = decodeGroups ((letters s).map base64Value) := rfl

theorem letters_letter {c : UInt8} (h : is_base64 c = true) (s : Bytes) :
    letters (c :: s) = c :: letters s := by
  rw [letters, List.takeWhile_cons, h, Bool.true_or, if_pos rfl, List.filter_cons_of_pos h]
  rfl

theorem letters_whitespace {c : UInt8} (h : is_whitespace c = true) (s : Bytes) :
    letters (c :: s) = letters s := by
  rw [letters, List.takeWhile_cons, h, Bool.or_true, if_pos rfl,
    List.filter_cons_of_neg (not_base64_of_whitespace c h)]
  rfl

theorem letters_other {c : UInt8} (h : is_base64 c = false) (h' : is_whitespace c = false)
    (s : Bytes) : letters (c :: s) = [] := by
  rw [letters, List.takeWhile_cons, h, h', Bool.or_false, if_neg (by decide), List.filter_nil]

theorem letters_append_letters {cs : Bytes} (h : ∀ c ∈ cs, is_base64 c = true) (t : Bytes) :
    letters (cs ++ t) = cs ++ letters t := by
  induction cs with
  | nil => rfl
  | cons c cs ih =>
    rw [List.forall_mem_cons] at h
    rw [List.cons_append, letters_letter h.1, ih h.2, List.cons_append]

theorem letters_padding (n : Nat) : letters (List.replicate n '='.toUInt8) = [] := by
  cases n with
  | zero => rfl
  | succ n => exact letters_other (by decide) (by decide) _

theorem letters_append_whitespace {w : Bytes} (h : ∀ c ∈ w, is_whitespace c = true) (s : Bytes) :
    letters (w ++ s) = letters s := by
  induction w with
  | nil => rfl
  | cons c w ih =>
    rw [List.forall_mem_cons] at h
    rw [List.cons_append, letters_whitespace h.1, ih h.2]

/-- Line breaks and what follows the message do not count. -/
theorem letters_insertBreaks {breakAfter : Nat} {breakSequence t : Bytes}
    (h : ∀ c ∈ breakSequence, is_whitespace c = true) (ht : letters t = []) (breakCount : Nat)
    (s : Bytes) :
    letters (insertBreaks breakAfter breakSequence breakCount s ++ t) = letters s := by
  induction s generalizing breakCount with
  | nil => exact ht
  | cons c s ih =>
    have hcons : ∀ n, letters (c :: (insertBreaks breakAfter breakSequence n s ++ t)) =
        letters (c :: s) := by
      intro n
      cases hc : is_base64 c with
      | true => rw [letters_letter hc, letters_letter hc, ih]
      | false =>
        cases hw : is_whitespace c with
        | true => rw [letters_whitespace hw, letters_whitespace hw, ih]
        | false => rw [letters_other hc hw, letters_other hc hw]
    rw [insertBreaks]
    split
    · rw [List.append_assoc, letters_append_whitespace h]
      exact hcons 1
    · exact hcons _

/-- A character that the encoder has written is read as its value. -/
theorem values_char {v : UInt8} (h : v.toNat < 64) (s : Bytes) :
    (letters (base64Char v :: s)).map base64Value = v :: (letters s).map base64Value := by
  obtain ⟨hletter, hvalue⟩ := base64Value_char v h
  rw [letters_letter hletter, List.map_cons, hvalue]

theorem toNat_add (x y : UInt8) : (x + y).toNat = (x.toNat + y.toNat) % 256 := UInt8.toNat_add x y

/-- The second character of a group, from the bytes on both sides of it. -/
theorem toNat_second (a b : UInt8) :
    (((a &&& 0x03) <<< 4) + ((b &&& 0xf0) >>> 4)).toNat = a.toNat % 4 * 16 + b.toNat / 16 := by
  have ha := encodeBits a
  have hb := encodeBits b
  have hlt := b.toNat_lt
  rw [toNat_add]
  omega

theorem toNat_third (b c : UInt8) :
    (((b &&& 0x0f) <<< 2) + ((c &&& 0xc0) >>> 6)).toNat = b.toNat % 16 * 4 + c.toNat / 64 := by
  have hb := encodeBits b
  have hc := encodeBits c
  have hlt := c.toNat_lt
  rw [toNat_add]
  omega

/-- The first byte of a group is the first character and the beginning of the second. -/
theorem first_byte {a v : UInt8} (h : v.toNat / 16 % 4 = a.toNat % 4) :
    (((a &&& 0xfc) >>> 2) <<< 2) + ((v &&& 0x30) >>> 4) = a := by
  have ha := encodeBits a
  have hlt := a.toNat_lt
  have hfirst := decodeBits ((a &&& 0xfc) >>> 2)
  have hsecond := decodeBits v
  apply UInt8.toNat_inj.mp
  rw [toNat_add]
  omega

theorem second_byte {b v w : UInt8} (hv : v.toNat % 16 = b.toNat / 16)
    (hw : w.toNat / 4 % 16 = b.toNat % 16) :
    ((v &&& 0xf) <<< 4) + ((w &&& 0x3c) >>> 2) = b := by
  have hlt := b.toNat_lt
  have hfirst := decodeBits v
  have hsecond := decodeBits w
  apply UInt8.toNat_inj.mp
  rw [toNat_add]
  omega

theorem third_byte {c w : UInt8} (hw : w.toNat % 4 = c.toNat / 64) :
    ((w &&& 0x3) <<< 6) + (c &&& 0x3f) = c := by
  have hlt := c.toNat_lt
  have hfirst := decodeBits w
  have hsecond := encodeBits c
  apply UInt8.toNat_inj.mp
  rw [toNat_add]
  omega

/-- The groups of the encoder are those of the decoder. -/
theorem decodeGroups_encodeGroups (s : Bytes) :
    decodeGroups ((letters (encodeGroups s)).map base64Value) = s := by
  have hpad : ∀ t, letters ('='.toUInt8 :: t) = [] := letters_other (by decide) (by decide)
  fun_induction encodeGroups s with
  | case1 a b c rest ih =>
    have ha := encodeBits a
    have hc := encodeBits c
    have hsecond := toNat_second a b
    have hthird := toNat_third b c
    have hlt := a.toNat_lt
    have hlt' := b.toNat_lt
    have hlt'' := c.toNat_lt
    rw [values_char (by omega), values_char (by omega), values_char (by omega),
      values_char (by omega), decodeGroups, ih, first_byte (by omega),
      second_byte (b := b) (by omega) (by omega), third_byte (by omega)]
  | case2 a b =>
    have ha := encodeBits a
    have hb := encodeBits b
    have hsecond := toNat_second a b
    have hlt := a.toNat_lt
    have hlt' := b.toNat_lt
    rw [values_char (by omega), values_char (by omega), values_char (by omega), hpad,
      List.map_nil, decodeGroups, first_byte (by omega), second_byte (b := b) (by omega) (by omega)]
  | case3 a =>
    have ha := encodeBits a
    have hlt := a.toNat_lt
    rw [values_char (by omega), values_char (by omega), hpad, List.map_nil, decodeGroups,
      first_byte (by omega)]
  | case4 => rfl

/-- Base64 with line breaks of white space is read back, whatever white space or other text
without a message follows. -/
theorem base64Decode_encode {breakSequence t : Bytes}
    (h : ∀ c ∈ breakSequence, is_whitespace c = true) (ht : letters t = []) (s : Bytes)
    (breakAfter : Nat) : base64Decode (base64Encode s breakAfter breakSequence ++ t) = s := by
  rw [base64Decode_eq, base64Encode, letters_insertBreaks h ht, decodeGroups_encodeGroups]

/-! ## Hexadecimal codes -/

theorem isxdigit_of_upperHex (c : UInt8) (h : upperHex c = true) : isxdigit c = true :=
  decide_eq_true ((of_decide_eq_true h).imp_right .inl)

/-- A pair of digits is a byte. -/
theorem byteOfHex_pair {a b : UInt8} (ha : upperHex a = true) (hb : upperHex b = true) :
    byteOfHex [a, b] = .ok [UInt8.ofNat (xdigitsValue [a, b])] := by
  have hdigits : ∀ c ∈ [a, b], isxdigit c = true := by
    simp only [List.forall_mem_cons]
    exact ⟨isxdigit_of_upperHex a ha, isxdigit_of_upperHex b hb, nofun⟩
  rw [byteOfHex, stoulHex_of_digits (List.cons_ne_nil a _) hdigits (show 2 ≤ 15 by decide)]
  rfl

/-- The two digits that the encoders write for a byte, in upper case. -/
def upperDigit (n : Nat) : UInt8 := toupper (utils.hexDigit n)

theorem toUppercase_hexDump (c : UInt8) :
    utils.toUppercase (utils.hexDump [c]) =
      [upperDigit (c.toNat / 16), upperDigit (c.toNat % 16)] :=
  rfl

theorem upperHex_upperDigit {n : Nat} (h : n < 16) : upperHex (upperDigit n) = true := by
  have hall : (List.range 16).all (fun n => upperHex (upperDigit n)) = true := by decide
  exact List.all_eq_true.mp hall n (List.mem_range.mpr h)

theorem upperHex_digits (c : UInt8) :
    upperHex (upperDigit (c.toNat / 16)) = true ∧ upperHex (upperDigit (c.toNat % 16)) = true := by
  have hlt := c.toNat_lt
  exact ⟨upperHex_upperDigit (by omega), upperHex_upperDigit (by omega)⟩

theorem upperHex_of_mem_toUppercase {c x : UInt8} (h : x ∈ utils.toUppercase (utils.hexDump [c])) :
    upperHex x = true := by
  rw [toUppercase_hexDump] at h
  rcases List.mem_pair.mp h with rfl | rfl
  · exact (upperHex_digits c).1
  · exact (upperHex_digits c).2

theorem upperHex_range {c : UInt8} (h : upperHex c = true) : 48 ≤ c ∧ c ≤ 70 := by
  rcases of_decide_eq_true h with hdigit | ⟨hlow, hhigh⟩
  · obtain ⟨hlow, hhigh⟩ := of_decide_eq_true hdigit
    exact ⟨hlow, UInt8.le_trans hhigh (by decide)⟩
  · exact ⟨UInt8.le_trans (by decide) hlow, hhigh⟩

theorem xdigitValue_upperDigit {n : Nat} (h : n < 16) : xdigitValue (upperDigit n) = n := by
  have hall : (List.range 16).all (fun n => xdigitValue (upperDigit n) = n) = true := by decide
  exact of_decide_eq_true (List.all_eq_true.mp hall n (List.mem_range.mpr h))

theorem xdigitsValue_upperDigits (c : UInt8) :
    UInt8.ofNat (xdigitsValue [upperDigit (c.toNat / 16), upperDigit (c.toNat % 16)]) = c := by
  have hlt := c.toNat_lt
  have hvalue : xdigitsValue [upperDigit (c.toNat / 16), upperDigit (c.toNat % 16)] = c.toNat := by
    rw [xdigitsValue, List.foldl_cons, List.foldl_cons, List.foldl_nil,
      xdigitValue_upperDigit (by omega), xdigitValue_upperDigit (by omega)]
    omega
  rw [hvalue, UInt8.ofNat_toNat]

theorem run_hexPair {β : Type} (a b : UInt8) (s : Bytes) (c : Captures UInt8)
    (k : Continuation UInt8 β) :
    hexPair.run (a :: b :: s) c k =
      if upperHex a then if upperHex b then k s c else none else none := by
  simp only [hexPair, run_times_succ, run_sat_cons, run_times_zero]

/-- What a group 1 with a text gives to the callback. -/
def groupOne (w : Bytes) : Captures UInt8 := Function.update (fun _ => none) 1 (some w)

/-! ## URLs -/

theorem matchAt_urlCode_ne {x : UInt8} (h : x ≠ '%'.toUInt8) (s : Bytes) :
    urlCode.matchAt (x :: s) = none := by
  simp only [matchAt, urlCode, run_seq, run_sat_cons, h, decide_false, Bool.false_eq_true,
    if_false]

theorem matchAt_urlCode_pair {a b : UInt8} (ha : upperHex a = true) (hb : upperHex b = true)
    (s : Bytes) : urlCode.matchAt ('%'.toUInt8 :: a :: b :: s) = some (s, groupOne [a, b]) := by
  have htake : (a :: b :: s).take ((a :: b :: s).length - s.length) = [a, b] :=
    take_sub_length (w := [a, b])
  simp only [matchAt, urlCode, run_seq, run_sat_cons, decide_true, if_true, run_group, run_hexPair,
    ha, hb, htake]
  rfl

theorem matchAt_urlCode_other {a b : UInt8} (h : ¬ (upperHex a = true ∧ upperHex b = true))
    (s : Bytes) : urlCode.matchAt ('%'.toUInt8 :: a :: b :: s) = none := by
  simp only [matchAt, urlCode, run_seq, run_sat_cons, decide_true, if_true, run_group, run_hexPair]
  rw [ite_eq_right_iff]
  intro ha
  exact if_neg fun hb => h ⟨ha, hb⟩

/-- Only a percent sign begins a code. -/
theorem urlDecode_cons {x : UInt8} (h : x ≠ '%'.toUInt8) (s : Bytes) :
    urlDecode (x :: s) = (urlDecode s).map (x :: ·) :=
  utils.regexReplaceCallback_cons (matchAt_urlCode_ne h s)

theorem urlDecode_pair {a b : UInt8} (ha : upperHex a = true) (hb : upperHex b = true)
    (s : Bytes) :
    urlDecode ('%'.toUInt8 :: a :: b :: s) =
      (urlDecode s).map (UInt8.ofNat (xdigitsValue [a, b]) :: ·) := by
  refine utils.regexReplaceCallback_append (w := ['%'.toUInt8, a, b])
    (v := [UInt8.ofNat (xdigitsValue [a, b])]) (List.cons_ne_nil _ _)
    (matchAt_urlCode_pair ha hb s) ?_
  exact byteOfHex_pair ha hb

/-- A percent sign in front of anything but two digits in upper case stands for itself. -/
theorem urlDecode_other {a b : UInt8} (h : ¬ (upperHex a = true ∧ upperHex b = true))
    (s : Bytes) :
    urlDecode ('%'.toUInt8 :: a :: b :: s) =
      (urlDecode (a :: b :: s)).map ('%'.toUInt8 :: ·) :=
  utils.regexReplaceCallback_cons (matchAt_urlCode_other h s)

/-- A percent sign with less than two characters behind it stands for itself. -/
theorem urlDecode_short {s : Bytes} (h : s.length < 2) :
    urlDecode ('%'.toUInt8 :: s) = (urlDecode s).map ('%'.toUInt8 :: ·) := by
  refine utils.regexReplaceCallback_cons ?_
  match s, h with
  | [], _ => rfl
  | [a], _ =>
    simp only [matchAt, urlCode, run_seq, run_sat_cons, decide_true, run_group, hexPair,
      run_times_succ, run_sat_nil, ite_self]

/-- A byte that does not begin a code: it is no percent sign, or two digits in upper case do not
follow. -/
def BeginsNoCode (x : UInt8) (s : Bytes) : Prop :=
  x = '%'.toUInt8 → ∀ a b t, s = a :: b :: t → ¬ (upperHex a = true ∧ upperHex b = true)

theorem urlDecode_literal {x : UInt8} {s : Bytes} (h : BeginsNoCode x s) :
    urlDecode (x :: s) = (urlDecode s).map (x :: ·) := by
  by_cases hx : x = '%'.toUInt8
  · subst hx
    match s with
    | [] => exact urlDecode_short (by decide)
    | [a] => exact urlDecode_short (Nat.lt_succ_self 1)
    | a :: b :: s => exact urlDecode_other (h rfl a b s rfl) s
  · exact urlDecode_cons hx s

/-- A text is read from the left by literals and codes. -/
theorem codes_induction {P : Bytes → Prop} (nil : P [])
    (literal : ∀ x s, BeginsNoCode x s → P s → P (x :: s))
    (code : ∀ a b s, upperHex a = true → upperHex b = true → P s → P ('%'.toUInt8 :: a :: b :: s))
    (s : Bytes) : P s := by
  induction hlen : s.length using Nat.strongRecOn generalizing s with
  | ind n ih =>
    have hrest : ∀ t : Bytes, t.length < s.length → P t := fun t ht => ih t.length (hlen ▸ ht) t rfl
    match s with
    | [] => exact nil
    | x :: s =>
      by_cases hcode : BeginsNoCode x s
      · exact literal x s hcode (hrest s (Nat.lt_succ_self _))
      · simp only [BeginsNoCode, not_forall, not_not] at hcode
        obtain ⟨rfl, a, b, t, rfl, ha, hb⟩ := hcode
        refine code a b t ha hb (hrest t ?_)
        simp only [List.length_cons]
        omega

/-- The decoder finds nothing that it could not read. -/
theorem urlDecode_returns (s : Bytes) : ∃ out, urlDecode s = .ok out := by
  induction s using codes_induction with
  | nil => exact ⟨[], rfl⟩
  | literal x s hx ih =>
    obtain ⟨out, hout⟩ := ih
    exact ⟨x :: out, by rw [urlDecode_literal hx, hout]; rfl⟩
  | code a b s ha hb ih =>
    obtain ⟨out, hout⟩ := ih
    exact ⟨_, by rw [urlDecode_pair ha hb, hout]; rfl⟩

/-- What stands on the two sides of a byte that belongs to no code is decoded separately. -/
theorem urlDecode_append_cons {c : UInt8} (hc : c ≠ '%'.toUInt8) (hhex : upperHex c = false)
    {s t out out' : Bytes} (hs : urlDecode s = .ok out) (ht : urlDecode t = .ok out') :
    urlDecode (s ++ c :: t) = .ok (out ++ c :: out') := by
  induction s using codes_induction generalizing out with
  | nil =>
    cases hs
    rw [List.nil_append, urlDecode_cons hc, ht]
    rfl
  | literal x s hx ih =>
    rw [urlDecode_literal hx] at hs
    obtain ⟨rest, hrest⟩ := urlDecode_returns s
    rw [hrest] at hs
    cases hs
    have hliteral : BeginsNoCode x (s ++ c :: t) := by
      rintro rfl a b u heq ⟨ha, hb⟩
      match s with
      | [] => exact absurd ((List.cons.inj heq).1 ▸ ha) (by rw [hhex]; exact Bool.false_ne_true)
      | [d] =>
        have hb' := (List.cons.inj (List.cons.inj heq).2).1
        exact absurd (hb' ▸ hb) (by rw [hhex]; exact Bool.false_ne_true)
      | d :: e :: s =>
        have hd := (List.cons.inj heq).1
        have he := (List.cons.inj (List.cons.inj heq).2).1
        exact hx rfl d e s rfl ⟨hd ▸ ha, he ▸ hb⟩
    rw [List.cons_append, urlDecode_literal hliteral, ih hrest]
    rfl
  | code a b s ha hb ih =>
    rw [urlDecode_pair ha hb] at hs
    obtain ⟨rest, hrest⟩ := urlDecode_returns s
    rw [hrest] at hs
    cases hs
    rw [List.cons_append, List.cons_append, List.cons_append, urlDecode_pair ha hb, ih hrest]
    rfl

/-! ## Quoted-printable -/

theorem matchAt_quotedCode_ne {x : UInt8} (h : x ≠ '='.toUInt8) (s : Bytes) :
    quotedCode.matchAt (x :: s) = none := by
  simp only [matchAt, quotedCode, run_seq, run_sat_cons, h, decide_false, Bool.false_eq_true,
    if_false]

theorem matchAt_quotedCode_pair {a b : UInt8} (ha : upperHex a = true) (hb : upperHex b = true)
    (s : Bytes) :
    quotedCode.matchAt ('='.toUInt8 :: a :: b :: s) = some (s, groupOne [a, b]) := by
  have htake : (a :: b :: s).take ((a :: b :: s).length - s.length) = [a, b] :=
    take_sub_length (w := [a, b])
  simp only [matchAt, quotedCode, run_seq, run_sat_cons, decide_true, if_true, run_group, run_alt,
    run_hexPair, ha, hb, htake, Option.some_or]
  rfl

theorem matchAt_quotedCode_crlf (s : Bytes) :
    quotedCode.matchAt ('='.toUInt8 :: 13 :: 10 :: s) = some (s, groupOne crlf) := by
  have htake : (13 :: 10 :: s).take ((13 :: 10 :: s).length - s.length) = crlf :=
    take_sub_length (w := crlf)
  have hdigit : upperHex 13 = false := by decide
  have hcr : decide ((13 : UInt8) = 13) = true := by decide
  simp only [matchAt, quotedCode, run_seq, run_sat_cons, decide_true, if_true, run_group, run_alt,
    run_hexPair, hdigit, Bool.false_eq_true, if_false, Option.none_or,
    run_opt_sat (p := fun x => decide (x = 13)) hcr, htake, Option.some_or]
  rfl

theorem matchAt_quotedCode_lf (s : Bytes) :
    quotedCode.matchAt ('='.toUInt8 :: 10 :: s) = some (s, groupOne [10]) := by
  have htake : ((10 : UInt8) :: s).take (((10 : UInt8) :: s).length - s.length) = [10] :=
    take_sub_length (w := [10])
  have hdigit : upperHex 10 = false := by decide
  have hcr : decide ((10 : UInt8) = 13) = false := by decide
  simp only [matchAt, quotedCode, run_seq, run_sat_cons, decide_true, if_true, run_group, run_alt,
    hexPair, run_times_succ, hdigit, Bool.false_eq_true, if_false, Option.none_or,
    run_opt_sat_of_not (p := fun x => decide (x = 13)) hcr, htake]
  rfl

@[simp] theorem quotedPrintableDecode_nil : quotedPrintableDecode [] false = .ok [] := rfl

/-- Only an equals sign begins a code. -/
theorem quotedPrintableDecode_cons {x : UInt8} (h : x ≠ '='.toUInt8) (s : Bytes) :
    quotedPrintableDecode (x :: s) false = (quotedPrintableDecode s false).map (x :: ·) :=
  utils.regexReplaceCallback_cons (matchAt_quotedCode_ne h s)

theorem quotedPrintableDecode_pair {a b : UInt8} (ha : upperHex a = true) (hb : upperHex b = true)
    (s : Bytes) :
    quotedPrintableDecode ('='.toUInt8 :: a :: b :: s) false =
      (quotedPrintableDecode s false).map (UInt8.ofNat (xdigitsValue [a, b]) :: ·) := by
  have hbreak : ¬ ([a, b] = crlf ∨ [a, b] = [10]) := by
    rintro (h | h)
    · cases h
      exact absurd ha (by decide)
    · cases h
  refine utils.regexReplaceCallback_append (w := ['='.toUInt8, a, b])
    (v := [UInt8.ofNat (xdigitsValue [a, b])]) (List.cons_ne_nil _ _)
    (matchAt_quotedCode_pair ha hb s) ?_
  show (if [a, b] = crlf ∨ [a, b] = [10] then _ else byteOfHex [a, b]) = _
  rw [if_neg hbreak, byteOfHex_pair ha hb]

/-- A soft line break stands for nothing. -/
theorem quotedPrintableDecode_softBreak {lineEnding : Bytes}
    (h : lineEnding = crlf ∨ lineEnding = [10]) (s : Bytes) :
    quotedPrintableDecode ('='.toUInt8 :: lineEnding ++ s) false =
      quotedPrintableDecode s false := by
  have hdrop : ∀ x : Except StdException Bytes, x.map ([] ++ ·) = x := by
    intro x
    cases x <;> rfl
  rcases h with rfl | rfl
  · refine (utils.regexReplaceCallback_append (List.cons_ne_nil _ _)
      (matchAt_quotedCode_crlf s) ?_).trans (hdrop _)
    rfl
  · refine (utils.regexReplaceCallback_append (List.cons_ne_nil _ _)
      (matchAt_quotedCode_lf s) ?_).trans (hdrop _)
    rfl

/-- How a character of the encoded text is read before the codes are. -/
def readChar (qEncoding : Bool) (c : UInt8) : UInt8 :=
  if qEncoding = true ∧ c = '_'.toUInt8 then ' '.toUInt8 else c

theorem quotedPrintableDecode_eq (s : Bytes) (qEncoding : Bool) :
    quotedPrintableDecode s qEncoding =
      quotedPrintableDecode (s.map (readChar qEncoding)) false := by
  cases qEncoding with
  | false =>
    have hid : readChar false = id := rfl
    rw [hid, List.map_id]
  | true =>
    have hchars : utils.replaceChars s [('_'.toUInt8, ' '.toUInt8)] = s.map (readChar true) := by
      rw [utils.replaceChars, List.foldl_cons, List.foldl_nil]
      congr 1
      funext c
      simp only [readChar, true_and]
    rw [← hchars]
    rfl

theorem readChar_of_ne {c : UInt8} (h : c ≠ '_'.toUInt8) (qEncoding : Bool) :
    readChar qEncoding c = c :=
  if_neg fun hc => h hc.2

/-- An escaped byte is read back. -/
theorem quotedPrintableDecode_escape (c : UInt8) (qEncoding : Bool) (t : Bytes) :
    quotedPrintableDecode
        (('='.toUInt8 :: utils.toUppercase (utils.hexDump [c])).map (readChar qEncoding) ++ t)
        false =
      (quotedPrintableDecode t false).map (c :: ·) := by
  have hhi : c.toNat / 16 < 16 := by
    have := c.toNat_lt
    omega
  have hlo : c.toNat % 16 < 16 := Nat.mod_lt _ (by decide)
  have hdigit : ∀ {n}, n < 16 → readChar qEncoding (upperDigit n) = upperDigit n := by
    intro n hn
    refine readChar_of_ne (fun hc => ?_) qEncoding
    have hhex := upperHex_upperDigit hn
    rw [hc] at hhex
    exact absurd hhex (by decide)
  have heq : readChar qEncoding '='.toUInt8 = '='.toUInt8 := readChar_of_ne (by decide) qEncoding
  rw [toUppercase_hexDump]
  simp only [List.map_cons, List.map_nil, hdigit hhi, hdigit hlo, heq, List.cons_append,
    List.nil_append]
  rw [quotedPrintableDecode_pair (upperHex_upperDigit hhi) (upperHex_upperDigit hlo),
    xdigitsValue_upperDigits]

/-- What the encoder's loop has written is read back in front of any text, whatever the line
count was. -/
theorem quotedPrintableDecode_loop {lineEnding rest out : Bytes}
    (hending : lineEnding = crlf ∨ lineEnding = [10]) (replaceCrlf qEncoding : Bool)
    (lineCount : Nat) (s : Bytes) (hrest : quotedPrintableDecode rest false = .ok out) :
    quotedPrintableDecode ((quotedPrintableLoop lineEnding replaceCrlf qEncoding lineCount s).map
      (readChar qEncoding) ++ rest) false = .ok (s ++ out) := by
  have hbreak : ∀ t : Bytes, quotedPrintableDecode
      (('='.toUInt8 :: lineEnding).map (readChar false) ++ t) false =
        quotedPrintableDecode t false := by
    have hid : readChar false = id := rfl
    intro t
    rw [hid, List.map_id, quotedPrintableDecode_softBreak hending]
  have hplain : ∀ {c : UInt8} (t : Bytes), readChar qEncoding c = c → c ≠ '='.toUInt8 →
      quotedPrintableDecode ((c :: t).map (readChar qEncoding) ++ rest) false =
        (quotedPrintableDecode (t.map (readChar qEncoding) ++ rest) false).map (c :: ·) := by
    intro c t hread hc
    rw [List.map_cons, hread, List.cons_append, quotedPrintableDecode_cons hc]
  induction s generalizing lineCount with
  | nil => exact hrest
  | cons c s ih =>
    rw [quotedPrintableLoop]
    split
    · -- a character that stands for itself
      next h =>
      obtain ⟨-, -, heq, hspecial⟩ := h
      have hread : readChar qEncoding c = c :=
        if_neg fun hc => hspecial ⟨hc.1, .inr (.inr hc.2)⟩
      split
      · next hsoft =>
        obtain ⟨rfl, -⟩ := hsoft
        rw [List.map_append, List.append_assoc, hbreak, hplain _ hread heq, ih]
        rfl
      · rw [hplain _ hread heq, ih]
        rfl
    · split
      · -- a raw line break
        next h =>
        have hne : c ≠ '='.toUInt8 ∧ c ≠ '_'.toUInt8 := by
          rcases h.2 with rfl | rfl <;> decide
        rw [hplain _ (readChar_of_ne hne.2 qEncoding) hne.1, ih]
        rfl
      · split
        · -- a space of the Q-encoding
          next h =>
          obtain ⟨rfl, rfl⟩ := h
          have hread : readChar true '_'.toUInt8 = ' '.toUInt8 := rfl
          rw [List.map_cons, hread, List.cons_append, quotedPrintableDecode_cons (by decide), ih]
          rfl
        · split
          · next h =>
            obtain ⟨rfl, -⟩ := h
            rw [List.append_assoc, List.map_append, List.append_assoc, hbreak, List.map_append,
              List.append_assoc, quotedPrintableDecode_escape, ih]
            rfl
          · rw [List.map_append, List.append_assoc, quotedPrintableDecode_escape, ih]
            rfl

/-- **Quoted-printable decoding undoes the encoding in every mode.** -/
theorem quotedPrintableDecode_encode (s : Bytes) {lineEnding : Bytes}
    (h : lineEnding = crlf ∨ lineEnding = [10]) (replaceCrlf qEncoding : Bool) :
    quotedPrintableDecode (quotedPrintableEncode s lineEnding replaceCrlf qEncoding) qEncoding =
      .ok s := by
  have hloop := quotedPrintableDecode_loop h replaceCrlf qEncoding 0 s quotedPrintableDecode_nil
  rw [List.append_nil, List.append_nil] at hloop
  rw [quotedPrintableDecode_eq]
  exact hloop

theorem quotedPrintableDecode_encode_sample :
    (crlf = crlf ∨ crlf = [10]) ∧ quotedPrintableDecode
      (quotedPrintableEncode (bytes "a_b=?") crlf false true) true = .ok (bytes "a_b=?") :=
  ⟨.inl rfl, quotedPrintableDecode_encode (bytes "a_b=?") (.inl rfl) false true⟩

end Nawa.encoding
