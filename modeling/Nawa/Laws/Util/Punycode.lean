import Nawa.Laws.Util.HtmlValid
import Nawa.Util.Punycode

/-!
# Internationalised domains

The decoder of punycode reads what the encoder has written. Both go through the same sequence of
states, a code point and a position each: the encoder counts the states that it passes over
(`Sync.delta`), and the decoder jumps over as many. The counts are what the size of the encoder's
buffer rests on: all states together bound their sum, and a count takes few digits (`digitsFor`).
-/

namespace Nawa

open Lib.Utf8

/-! ## Digits -/

namespace punycode

/-- What the encoder writes for a value, and all that it writes behind the delimiter. -/
def IsDigit (c : UInt8) : Prop := isdigit c = true ∨ (97 ≤ c ∧ c ≤ 122)

theorem IsDigit.range {c : UInt8} (h : IsDigit c) : 48 ≤ c ∧ c ≤ 122 := by
  rcases h with h | ⟨hlow, hhigh⟩
  · obtain ⟨hlow, hhigh⟩ := of_decide_eq_true h
    exact ⟨hlow, UInt8.le_trans hhigh (by decide)⟩
  · exact ⟨UInt8.le_trans (by decide) hlow, hhigh⟩

theorem IsDigit.ascii {c : UInt8} (h : IsDigit c) : c < 128 :=
  UInt8.lt_of_le_of_lt h.range.2 (by decide)

/-- The delimiter and the dot are no digits. -/
theorem IsDigit.ne {c x : UInt8} (h : IsDigit c) (hx : x < 48) : c ≠ x := by
  rintro rfl
  exact UInt8.lt_irrefl _ (UInt8.lt_of_lt_of_le hx h.range.1)

theorem decodeDigit_encodeDigit {c : Nat} (h : c < 36) :
    decodeDigit (encodeDigit c) = some c ∧ IsDigit (encodeDigit c) := by
  have hall : (List.range 36).all (fun c => decodeDigit (encodeDigit c) = some c ∧
      (isdigit (encodeDigit c) = true ∨ (97 ≤ encodeDigit c ∧ encodeDigit c ≤ 122))) = true := by
    decide
  have hdigit := List.all_eq_true.mp hall c (List.mem_range.mpr h)
  rwa [decide_eq_true_eq] at hdigit

/-- The threshold of a digit. -/
def threshold (bias k : Nat) : Nat :=
  if k ≤ bias then 1 else if bias + 26 ≤ k then 26 else k - bias

theorem threshold_range (bias k : Nat) : 1 ≤ threshold bias k ∧ threshold bias k ≤ 26 := by
  rw [threshold]
  split
  · omega
  · split <;> omega

theorem encodeVarInt_last {bias k q : Nat} (h : q < threshold bias k) (room : Nat) :
    encodeVarInt bias (room + 1) k q = [encodeDigit q] := if_pos h

theorem encodeVarInt_more {bias k q : Nat} (h : threshold bias k ≤ q) (room : Nat) :
    encodeVarInt bias (room + 1) k q =
      encodeDigit (threshold bias k + (q - threshold bias k) % (36 - threshold bias k)) ::
        encodeVarInt bias room (k + 36) ((q - threshold bias k) / (36 - threshold bias k)) :=
  if_neg (Nat.not_lt_of_le h)

theorem decodeVarInt_digit {digit : Nat} (h : digit < 36) (bias : Nat) (src : Bytes) (k w i : Nat) :
    decodeVarInt bias (encodeDigit digit :: src) k w i =
      if digit < threshold bias k then some (i + digit * w, src)
      else decodeVarInt bias src (k + 36) (w * (36 - threshold bias k)) (i + digit * w) := by
  rw [decodeVarInt, (decodeDigit_encodeDigit h).1]
  rfl

/-- Numbers below this bound have at most one digit more than the argument says. -/
def digitsFor : Nat → Nat
  | 0 => 1
  | m + 1 => 26 + 10 * digitsFor m

theorem digitsFor_pos (m : Nat) : 0 < digitsFor m := by
  cases m with
  | zero => exact Nat.one_pos
  | succ m =>
    rw [digitsFor]
    omega

theorem lt_digitsFor (q : Nat) : q < digitsFor (6 + q / 3888886) := by
  have hbound : ∀ j, 3888886 * (j + 1) ≤ digitsFor (6 + j) := by
    intro j
    induction j with
    | zero => decide
    | succ j ih =>
      rw [← Nat.add_assoc, digitsFor]
      omega
  exact Nat.lt_of_lt_of_le (Nat.lt_mul_div_succ q (by decide)) (hbound _)

/-- A digit taken off leaves a number that the bound with one digit less holds for. -/
theorem rest_lt_digitsFor {q t m : Nat} (h : q < digitsFor (m + 1)) (ht : t ≤ 26) (hq : t ≤ q) :
    (q - t) / (36 - t) < digitsFor m := by
  obtain ⟨d, hd⟩ := Nat.exists_eq_add_of_le ht
  have hpos := digitsFor_pos m
  rw [digitsFor] at h
  have hspare := Nat.le_mul_of_pos_left d hpos
  have hfactor : digitsFor m * (36 - t) = digitsFor m * d + 10 * digitsFor m := by
    rw [show 36 - t = d + 10 by omega, Nat.mul_add, Nat.mul_comm _ 10]
  rw [Nat.div_lt_iff_lt_mul (by omega)]
  omega

theorem exists_last_digit {bias k q : Nat} (h : q < threshold bias k) (m : Nat) :
    ∃ digits : Bytes,
      (∀ room, m < room → encodeVarInt bias room k q = digits) ∧ digits ≠ [] ∧
        digits.length ≤ m + 1 ∧ (∀ c ∈ digits, IsDigit c) ∧
        ∀ rest w i, decodeVarInt bias (digits ++ rest) k w i = some (i + q * w, rest) := by
  have hdigit : q < 36 := by
    have hrange := threshold_range bias k
    omega
  refine ⟨[encodeDigit q], ?_, List.cons_ne_nil _ _, Nat.succ_le_succ (Nat.zero_le m),
    List.forall_mem_singleton.mpr (decodeDigit_encodeDigit hdigit).2, ?_⟩
  · intro room hroom
    obtain ⟨room, rfl⟩ := Nat.exists_eq_add_of_lt (Nat.zero_lt_of_lt hroom)
    rw [Nat.zero_add, encodeVarInt_last h]
  · intro rest w i
    rw [List.singleton_append, decodeVarInt_digit hdigit, if_pos h]

/-- A number is read back in front of any text, and more room makes no difference. -/
theorem exists_digits (bias : Nat) {m k q : Nat} (h : q < digitsFor m) : ∃ digits : Bytes,
    (∀ room, m < room → encodeVarInt bias room k q = digits) ∧ digits ≠ [] ∧
      digits.length ≤ m + 1 ∧ (∀ c ∈ digits, IsDigit c) ∧
      ∀ rest w i, decodeVarInt bias (digits ++ rest) k w i = some (i + q * w, rest) := by
  induction m generalizing k q with
  | zero => exact exists_last_digit (Nat.lt_of_lt_of_le h (threshold_range bias k).1) 0
  | succ m ih =>
    obtain ⟨hone, hmany⟩ := threshold_range bias k
    by_cases hq : q < threshold bias k
    · exact exists_last_digit hq (m + 1)
    · have hle := Nat.le_of_not_lt hq
      obtain ⟨digits, henc, hne, hlen, hdigits, hdec⟩ := ih (k := k + 36)
        (rest_lt_digitsFor h hmany hle)
      have hmod := Nat.mod_lt (q - threshold bias k) (show 0 < 36 - threshold bias k by omega)
      have hdigit : threshold bias k + (q - threshold bias k) % (36 - threshold bias k) < 36 := by
        omega
      refine ⟨_ :: digits, ?_, List.cons_ne_nil _ _, Nat.succ_le_succ hlen,
        List.forall_mem_cons.mpr ⟨(decodeDigit_encodeDigit hdigit).2, hdigits⟩, ?_⟩
      · intro room hroom
        obtain ⟨room, rfl⟩ := Nat.exists_eq_add_of_lt (Nat.zero_lt_of_lt hroom)
        rw [Nat.zero_add, encodeVarInt_more hle, henc room (by omega)]
      · intro rest w i
        rw [List.cons_append, decodeVarInt_digit hdigit, if_neg (by omega), hdec]
        have hparts : threshold bias k + (q - threshold bias k) % (36 - threshold bias k) +
            (36 - threshold bias k) * ((q - threshold bias k) / (36 - threshold bias k)) = q := by
          rw [Nat.add_assoc, Nat.mod_add_div]
          omega
        have hvalue := calc
          (threshold bias k + (q - threshold bias k) % (36 - threshold bias k)) * w +
              (q - threshold bias k) / (36 - threshold bias k) * (w * (36 - threshold bias k))
          _ = (threshold bias k + (q - threshold bias k) % (36 - threshold bias k) +
              (36 - threshold bias k) * ((q - threshold bias k) / (36 - threshold bias k))) *
                w := by
            rw [Nat.add_mul _ ((36 - threshold bias k) * _), Nat.mul_comm w, ← Nat.mul_assoc,
              Nat.mul_comm (36 - threshold bias k)]
          _ = q * w := by rw [hparts]
        rw [Nat.add_assoc, hvalue]

/-! ## The states that both sides go through -/

/-- What the encoder has written behind the delimiter: the digits, the number of code points that
they stand for, the sum of the numbers, and where the decoder is behind them. -/
structure Written where
  text : Bytes
  count : Nat
  passed : Nat
  decoded : DecodeState

/-- The encoder is in the round for `m`, behind `before` and in front of `after`. The decoder has
the code points up to `m` there and the smaller ones here, and `delta` is the number of states from
the decoder's to the encoder's. -/
structure Sync (start : DecodeState) (head : Bytes) (m : Nat) (before after : List Nat)
    (st : EncodeState) (w : Written) : Prop where
  dst : st.dst = head ++ w.text
  h : st.h = start.dst.length + w.count
  bias : st.bias = w.decoded.bias
  decoded : w.decoded.dst = before.filter (· ≤ m) ++ after.filter (· < m)
  length : w.decoded.dst.length = st.h
  n_le : w.decoded.n ≤ m
  delta : st.delta + w.decoded.i =
    (m - w.decoded.n) * (st.h + 1) + (before.filter (· ≤ m)).length
  first : w.decoded.i = 0 ↔ w.count = 0
  total : w.passed + st.delta ≤ (m - 128) * (st.h + 1) + (before.filter (· ≤ m)).length
  short : w.text.length ≤ 7 * w.count + w.passed / 3888886
  count_le : w.count ≤ w.text.length
  digits : ∀ c ∈ w.text, IsDigit c
  reads : ∀ room t, decodePoints (room + w.count) start (w.text ++ t) =
    decodePoints room w.decoded t

/-- Room for all that the encoder writes, with a number of code points of which some are basic. -/
def capacity (head : Bytes) (basic total : Nat) : Nat :=
  head.length + 7 * (total - basic) + 0x110000 * total / 3888886

theorem insertPoint_eq {st : DecodeState} {before after : List Nat} {k : Nat}
    (hdst : st.dst = before ++ after) (hn : st.n + k < 2 ^ 32) :
    insertPoint st (k * (st.dst.length + 1) + before.length) =
      { dst := before ++ (st.n + k) :: after
        i := before.length + 1
        n := st.n + k
        bias := adaptBias (k * (st.dst.length + 1) + before.length - st.i) (st.dst.length + 1)
          (st.i = 0) } := by
  have hlt : before.length < st.dst.length + 1 := by
    rw [hdst, List.length_append]
    omega
  have hdiv : (k * (st.dst.length + 1) + before.length) / (st.dst.length + 1) = k := by
    rw [Nat.mul_comm, Nat.mul_add_div (Nat.succ_pos _), Nat.div_eq_of_lt hlt, Nat.add_zero]
  have hmod : (k * (st.dst.length + 1) + before.length) % (st.dst.length + 1) = before.length := by
    rw [Nat.mul_comm, Nat.mul_add_mod, Nat.mod_eq_of_lt hlt]
  have htake : st.dst.take before.length = before := by rw [hdst, List.take_left]
  have hdrop : st.dst.drop before.length = after := by rw [hdst, List.drop_left]
  simp only [insertPoint, hdiv, hmod, htake, hdrop, Nat.mod_eq_of_lt hn]

theorem decodePoints_step {st : DecodeState} {digits : Bytes} {q : Nat} (hne : digits ≠ [])
    (h : ∀ rest w i, decodeVarInt st.bias (digits ++ rest) 36 w i = some (i + q * w, rest))
    (room : Nat) (t : Bytes) :
    decodePoints (room + 1) st (digits ++ t) = decodePoints room (insertPoint st (st.i + q)) t := by
  obtain ⟨c, digits, rfl⟩ := List.exists_cons_of_ne_nil hne
  have hread := h t 1 st.i
  rw [List.cons_append, Nat.mul_one] at hread
  rw [List.cons_append, decodePoints, hread]

section Rounds

variable {start : DecodeState} {head : Bytes} {m : Nat} {before after : List Nat}
  {st : EncodeState} {w : Written}

/-- The position is one of the decoder's. -/
theorem Sync.position_le (hs : Sync start head m before after st w) :
    (before.filter (· ≤ m)).length ≤ st.h := by
  rw [← hs.length, hs.decoded, List.length_append]
  omega

/-- The numbers that have been written, and the next one, are states passed over. -/
theorem Sync.passed_le (hs : Sync start head m before after st w) (hm : m < 0x110000 + 127)
    {total : Nat} (hlt : st.h < total) : w.passed + st.delta ≤ 0x110000 * total := by
  have hposition := hs.position_le
  have htotal := hs.total
  have hmul : (m - 128 + 1) * (st.h + 1) ≤ 0x110000 * total := Nat.mul_le_mul (by omega) hlt
  rw [Nat.add_mul, Nat.one_mul] at hmul
  omega

/-- There is room for the next number as long as code points are left. -/
theorem Sync.room (hs : Sync start head m before after st w) (hm : m < 0x110000 + 127)
    {total : Nat} (hlt : st.h < total) :
    st.dst.length + 7 + st.delta / 3888886 ≤ capacity head start.dst.length total := by
  have hpassed := hs.passed_le hm hlt
  have hshort := hs.short
  have hh := hs.h
  rw [hs.dst, List.length_append, capacity]
  omega

theorem filter_snoc_of_le (before : List Nat) {c : Nat} (h : c ≤ m) :
    (before ++ [c]).filter (· ≤ m) = before.filter (· ≤ m) ++ [c] := by
  rw [List.filter_append, List.filter_cons_of_pos (p := (· ≤ m)) (decide_eq_true h),
    List.filter_nil]

theorem filter_snoc_of_lt (before : List Nat) {c : Nat} (h : m < c) :
    (before ++ [c]).filter (· ≤ m) = before.filter (· ≤ m) := by
  rw [List.filter_append, List.filter_cons_of_neg (by simpa using h), List.filter_nil,
    List.append_nil]

/-- A smaller code point is passed over. -/
theorem Sync.smaller {c : Nat} (hs : Sync start head m before (c :: after) st w) (hlt : c < m) :
    Sync start head m (before ++ [c]) after { st with delta := st.delta + 1 } w := by
  have hdelta := hs.delta
  have htotal := hs.total
  have hsnoc := filter_snoc_of_le before (Nat.le_of_lt hlt)
  refine { hs with decoded := ?_, delta := ?_, total := ?_ }
  · rw [hs.decoded, hsnoc, List.filter_cons_of_pos (p := (· < m)) (decide_eq_true hlt),
      List.append_assoc, List.singleton_append]
  · rw [hsnoc, List.length_append]
    dsimp only [List.length_singleton]
    omega
  · rw [hsnoc, List.length_append]
    dsimp only [List.length_singleton]
    omega

/-- A larger code point is left for a later round. -/
theorem Sync.larger {c : Nat} (hs : Sync start head m before (c :: after) st w) (hgt : m < c) :
    Sync start head m (before ++ [c]) after st w := by
  have hsnoc := filter_snoc_of_lt before hgt
  refine { hs with decoded := ?_, delta := ?_, total := ?_ }
  · rw [hs.decoded, hsnoc, List.filter_cons_of_neg (by simpa using Nat.le_of_lt hgt)]
  · rw [hsnoc]
    exact hs.delta
  · rw [hsnoc]
    exact hs.total

/-- The number for a code point of the round is written, and the decoder puts it in its place. -/
theorem Sync.equal (hs : Sync start head m before (m :: after) st w) (hm : m < 0x110000) :
    ∃ digits : Bytes,
      (∀ dstlen, capacity head start.dst.length (before ++ m :: after).length ≤ dstlen →
        encodeVarInt st.bias (dstlen - st.dst.length) 36 st.delta = digits) ∧
      Sync start head m (before ++ [m]) after
        { dst := st.dst ++ digits
          delta := 0
          bias := adaptBias st.delta (st.h + 1) (st.h = start.dst.length)
          h := st.h + 1 }
        { text := w.text ++ digits
          count := w.count + 1
          passed := w.passed + st.delta
          decoded := insertPoint w.decoded (w.decoded.i + st.delta) } := by
  have hdecoded : w.decoded.dst = before.filter (· ≤ m) ++ after.filter (· < m) := by
    rw [hs.decoded, List.filter_cons_of_neg (by simp)]
  have hlength := congrArg List.length hdecoded
  have hbefore := List.length_filter_le (fun c => decide (c ≤ m)) before
  have hafter := List.length_filter_le (fun c => decide (c < m)) after
  rw [hs.length, List.length_append] at hlength
  have hlt : st.h < (before ++ m :: after).length := by
    rw [List.length_append, List.length_cons]
    omega
  obtain ⟨digits, henc, hne, hlen, hdigits, hdec⟩ :=
    exists_digits st.bias (k := 36) (lt_digitsFor st.delta)
  have hn := hs.n_le
  have hnext : w.decoded.n + (m - w.decoded.n) = m := by omega
  have hinsert := insertPoint_eq (k := m - w.decoded.n) hdecoded (by omega)
  rw [hs.length, ← hs.delta, hnext, Nat.add_sub_cancel, Nat.add_comm st.delta] at hinsert
  have hfirst : (w.decoded.i = 0) = (st.h = start.dst.length) := by
    rw [hs.first, hs.h, Nat.add_eq_left]
  have hsnoc := filter_snoc_of_le before (Nat.le_refl m)
  refine ⟨digits, fun dstlen hdstlen => henc _ ?_, ?_⟩
  · have hroom := hs.room (by omega) hlt
    omega
  rw [hinsert]
  have htotal := hs.total
  have hshort := hs.short
  have hcount := hs.count_le
  have hpos := List.length_pos_iff.mpr hne
  have hgrows : (m - 128) * (st.h + 1) ≤ (m - 128) * (st.h + 1 + 1) :=
    Nat.mul_le_mul_left _ (Nat.le_succ _)
  refine
    { dst := ?_, h := ?_, bias := ?_, decoded := ?_, length := ?_, n_le := Nat.le_refl m,
      delta := ?_, first := ?_, total := ?_, short := ?_, count_le := ?_, digits := ?_,
      reads := ?_ }
  · rw [hs.dst, List.append_assoc]
  · rw [hs.h, Nat.add_assoc]
  · simp only [hfirst]
  · rw [hsnoc, List.append_assoc, List.singleton_append]
  · rw [List.length_append, List.length_cons, ← Nat.add_assoc, ← hlength]
  · rw [hsnoc, List.length_append, Nat.sub_self, Nat.zero_mul, Nat.zero_add, Nat.zero_add,
      List.length_singleton]
  · exact iff_of_false (Nat.succ_ne_zero _) (Nat.succ_ne_zero _)
  · rw [hsnoc, List.length_append]
    dsimp only
    omega
  · rw [List.length_append]
    dsimp only
    omega
  · rw [List.length_append]
    dsimp only
    omega
  · exact List.forall_mem_append.mpr ⟨hs.digits, hdigits⟩
  · intro room t
    rw [← Nat.add_assoc, Nat.add_right_comm, List.append_assoc, hs.reads,
      decodePoints_step hne (hs.bias ▸ hdec), hinsert]

/-- The inner loop at one code point. -/
theorem Sync.point {c : Nat} (hs : Sync start head m before (c :: after) st w)
    (hm : m < 0x110000) : ∃ st' w', Sync start head m (before ++ [c]) after st' w' ∧
      ∀ dstlen, capacity head start.dst.length (before ++ c :: after).length ≤ dstlen →
        encodePoint dstlen start.dst.length m st c = st' := by
  rcases Nat.lt_trichotomy c m with hlt | rfl | hgt
  · exact ⟨_, w, hs.smaller hlt, fun _ _ => if_pos hlt⟩
  · obtain ⟨digits, henc, hnext⟩ := hs.equal hm
    refine ⟨_, _, hnext, fun dstlen hdstlen => ?_⟩
    rw [encodePoint, if_neg (Nat.lt_irrefl c), if_pos rfl, henc dstlen hdstlen]
  · refine ⟨st, w, hs.larger hgt, fun _ _ => ?_⟩
    rw [encodePoint, if_neg (Nat.not_lt_of_gt hgt), if_neg (Nat.ne_of_gt hgt)]

/-- The whole inner loop. -/
theorem Sync.points (hs : Sync start head m before after st w) (hm : m < 0x110000) :
    ∃ st' w', Sync start head m (before ++ after) [] st' w' ∧
      ∀ dstlen, capacity head start.dst.length (before ++ after).length ≤ dstlen →
        after.foldl (encodePoint dstlen start.dst.length m) st = st' := by
  induction after generalizing before st w with
  | nil =>
    rw [List.append_nil]
    exact ⟨st, w, hs, fun _ _ => rfl⟩
  | cons c after ih =>
    obtain ⟨st₁, w₁, hs₁, hpoint⟩ := hs.point hm
    obtain ⟨st₂, w₂, hs₂, hpoints⟩ := ih hs₁
    rw [List.append_assoc, List.singleton_append] at hs₂ hpoints
    refine ⟨st₂, w₂, hs₂, fun dstlen hdstlen => ?_⟩
    rw [List.foldl_cons, hpoint dstlen hdstlen, hpoints dstlen hdstlen]

/-- Behind a round all code points up to `m` are in their places. -/
theorem Sync.next (hs : Sync start head m before [] st w) (hm : 128 ≤ m) :
    Sync start head (m + 1) [] before { st with delta := st.delta + 1 } w := by
  have hdecoded : w.decoded.dst = before.filter (· ≤ m) := by
    rw [hs.decoded, List.filter_nil, List.append_nil]
  have hposition : (before.filter (· ≤ m)).length = st.h := by rw [← hdecoded, hs.length]
  have hdelta := hs.delta
  have htotal := hs.total
  have hrow : ∀ n ≤ m, (m + 1 - n) * (st.h + 1) = (m - n) * (st.h + 1) + (st.h + 1) := by
    intro n hn
    rw [Nat.succ_sub hn, Nat.succ_mul]
  refine { hs with
    decoded := ?_, n_le := Nat.le_succ_of_le hs.n_le, delta := ?_, total := ?_ }
  · rw [hdecoded, List.filter_nil, List.nil_append]
    exact List.filter_congr fun c _ => decide_eq_decide.mpr Nat.lt_succ_iff.symm
  · rw [List.filter_nil, List.length_nil, hrow _ hs.n_le]
    dsimp only
    omega
  · rw [List.filter_nil, List.length_nil, hrow _ hm]
    dsimp only
    omega

/-- The rounds without a code point are passed over at once. -/
theorem Sync.jump {n : Nat} (hs : Sync start head n [] after st w) (hnm : n ≤ m) (hn : 128 ≤ n)
    (h : ∀ c ∈ after, n ≤ c → m ≤ c) :
    Sync start head m [] after { st with delta := st.delta + (m - n) * (st.h + 1) } w := by
  have hdelta := hs.delta
  have htotal := hs.total
  have hrows : ∀ n' ≤ n,
      (m - n') * (st.h + 1) = (n - n') * (st.h + 1) + (m - n) * (st.h + 1) := by
    intro n' hn'
    rw [← Nat.add_mul]
    congr 1
    omega
  rw [List.filter_nil, List.length_nil] at hdelta htotal
  refine { hs with
    decoded := ?_, n_le := Nat.le_trans hs.n_le hnm, delta := ?_, total := ?_ }
  · rw [hs.decoded, List.filter_nil, List.filter_nil, List.nil_append, List.nil_append]
    refine List.filter_congr fun c hc => decide_eq_decide.mpr ⟨fun hlt => ?_, fun hlt => ?_⟩
    · exact Nat.lt_of_lt_of_le hlt hnm
    · by_contra hle
      exact Nat.not_lt_of_le (h c hc (Nat.le_of_not_lt hle)) hlt
  · rw [List.filter_nil, List.length_nil, hrows _ hs.n_le]
    dsimp only
    omega
  · rw [List.filter_nil, List.length_nil, hrows _ hn]
    dsimp only
    omega

/-- The code points below `n` are the decoder's between two rounds. -/
theorem Sync.between {src : List Nat} (hs : Sync start head m [] src st w) :
    w.decoded.dst = src.filter (· < m) ∧ (src.filter (· < m)).length = st.h := by
  have hdecoded : w.decoded.dst = src.filter (· < m) := by
    rw [hs.decoded, List.filter_nil, List.nil_append]
  exact ⟨hdecoded, by rw [← hdecoded, hs.length]⟩

theorem Sync.done {src : List Nat} (hs : Sync start head m [] src st w)
    (hle : src.length ≤ st.h) : w.decoded.dst = src := by
  obtain ⟨hdecoded, hlength⟩ := hs.between
  rw [hdecoded]
  exact List.filter_sublist.eq_of_length_le (by omega)

/-- As long as code points are left there is a smallest one among those. -/
theorem Sync.exists_smallest {src : List Nat} (hs : Sync start head m [] src st w)
    (hlt : st.h < src.length) : ∃ c ∈ src, m ≤ c ∧ (∀ d ∈ src, m ≤ d → c ≤ d) ∧
      (src.filter (m ≤ ·)).min? = some c ∧ st.h < (src.filter (· ≤ c)).length := by
  obtain ⟨hdecoded, hlength⟩ := hs.between
  cases hmin : (src.filter (m ≤ ·)).min? with
  | none =>
    rw [List.min?_eq_none_iff, List.filter_eq_nil_iff] at hmin
    have hall : src.filter (· < m) = src := by
      refine List.filter_eq_self.mpr fun c hc => ?_
      simpa using hmin c hc
    rw [hall] at hlength
    omega
  | some c =>
    obtain ⟨hmem, hleast⟩ := List.min?_eq_some_iff.mp hmin
    simp only [List.mem_filter, decide_eq_true_eq] at hmem hleast
    refine ⟨c, hmem.1, hmem.2, fun d hd hmd => hleast d ⟨hd, hmd⟩, rfl, ?_⟩
    have hsub : (src.filter (· ≤ c)).filter (· < m) = src.filter (· < m) := by
      rw [List.filter_filter]
      refine List.filter_congr fun d _ => ?_
      rw [Bool.and_eq_left_iff_imp, decide_eq_true_eq, decide_eq_true_eq]
      omega
    rw [← hlength, ← hsub, List.length_filter_lt_length_iff_exists]
    exact ⟨c, List.mem_filter.mpr ⟨hmem.1, decide_eq_true (Nat.le_refl c)⟩, by simpa using hmem.2⟩

/-- The main loop writes all code points that are left. -/
theorem Sync.rounds {src : List Nat} (hsrc : ∀ c ∈ src, c < 0x110000) {fuel n : Nat}
    (hs : Sync start head n [] src st w) (hn : 128 ≤ n) (hlow : n ≤ 0x110000)
    (hfuel : src.length ≤ fuel + st.h) :
    ∃ n' st' w', Sync start head n' [] src st' w' ∧ w'.decoded.dst = src ∧
      ∀ dstlen, capacity head start.dst.length src.length ≤ dstlen →
        encodeRounds src dstlen start.dst.length fuel n st = head ++ w'.text := by
  induction fuel generalizing n st w with
  | zero => exact ⟨n, st, w, hs, hs.done (by omega), fun _ _ => hs.dst⟩
  | succ fuel ih =>
    by_cases hlt : st.h < src.length
    · obtain ⟨c, hc, hle, hleast, hmin, hless⟩ := hs.exists_smallest hlt
      have hbound := hsrc c hc
      obtain ⟨st₁, w₁, hs₁, hpoints⟩ := (hs.jump hle hn hleast).points hbound
      rw [List.nil_append] at hs₁ hpoints
      have hmore : src.length ≤ fuel + st₁.h := by
        rw [← hs₁.length, hs₁.decoded, List.length_append]
        omega
      obtain ⟨n', st', w', hs', hsrc', hrounds⟩ :=
        ih (hs₁.next (Nat.le_trans hn hle)) (by omega) hbound hmore
      refine ⟨n', st', w', hs', hsrc', fun dstlen hdstlen => ?_⟩
      have hroom : st.dst.length < dstlen := by
        have hroom := hs.room (by omega) hlt
        omega
      rw [encodeRounds, if_pos ⟨hlt, hroom⟩, hmin]
      dsimp only [Option.getD_some]
      rw [hpoints dstlen hdstlen, hrounds dstlen hdstlen]
    · refine ⟨n, st, w, hs, hs.done (Nat.le_of_not_lt hlt), fun _ _ => ?_⟩
      rw [encodeRounds, if_neg fun h => hlt h.1, hs.dst]

end Rounds

/-! ## A text of code points -/

/-- The basic code points of a text. -/
def basicPoints (src : List Nat) : List Nat := src.filter (· < 128)

/-- The basic code points as bytes, and the delimiter if there are any. -/
def frame (src : List Nat) : Bytes :=
  (basicPoints src).map UInt8.ofNat ++ if 0 < (basicPoints src).length then bytes "-" else []

theorem toNat_basic (src : List Nat) :
    ((basicPoints src).map UInt8.ofNat).map UInt8.toNat = basicPoints src := by
  have hid : ∀ c ∈ basicPoints src, (UInt8.toNat ∘ UInt8.ofNat) c = id c := by
    intro c hc
    have hlt := of_decide_eq_true (List.mem_filter.mp hc).2
    exact toNat_byte (by omega)
  rw [List.map_map, List.map_congr_left hid, List.map_id]

theorem length_frame (src : List Nat) :
    (frame src).length =
      (basicPoints src).length + if 0 < (basicPoints src).length then 1 else 0 := by
  rw [frame, List.length_append, List.length_map]
  split <;> rfl

/-- A byte of the frame is the delimiter or a basic code point. -/
theorem mem_frame {src : List Nat} {c : UInt8} (h : c ∈ frame src) :
    c = '-'.toUInt8 ∨ c.toNat ∈ basicPoints src := by
  rcases List.mem_append.mp h with hbasic | hdelimiter
  · right
    rw [← toNat_basic]
    exact List.mem_map_of_mem hbasic
  · left
    split at hdelimiter
    · exact List.mem_singleton.mp hdelimiter
    · cases hdelimiter

theorem frame_ascii {src : List Nat} {c : UInt8} (h : c ∈ frame src) : c < 128 := by
  rcases mem_frame h with rfl | hbasic
  · decide
  · exact UInt8.lt_iff_toNat_lt.mpr (of_decide_eq_true (List.mem_filter.mp hbasic).2)

/-- The delimiter in front of the digits is the last one. -/
theorem findLastElem_frame (src : List Nat) {digits : Bytes} (h : '-'.toUInt8 ∉ digits) :
    (Lib.Search.findLastElem '-'.toUInt8 (frame src ++ digits)).getD 0 =
      (basicPoints src).length := by
  rw [frame]
  split
  · have hlast : Lib.Search.findLastElem '-'.toUInt8
        ((basicPoints src).map UInt8.ofNat ++ '-'.toUInt8 :: digits) =
          some ((basicPoints src).map UInt8.ofNat).length :=
      Lib.Search.findLastElem_append_sep h
    rw [List.length_map] at hlast
    rw [List.append_assoc]
    exact congrArg (Option.getD · 0) hlast
  · next hnone =>
    have hnil : basicPoints src = [] := List.length_eq_zero_iff.mp (Nat.eq_zero_of_not_pos hnone)
    rw [hnil, List.map_nil, List.nil_append, List.nil_append,
      Lib.Search.findLastElem_eq_none.mpr h]
    rfl

/-- The encoder begins with the frame. -/
theorem punycodeEncode_eq {src : List Nat} (h : (basicPoints src).length < src.length)
    {dstlen : Nat} (hdstlen : (frame src).length ≤ dstlen) :
    punycodeEncode src dstlen =
      encodeRounds src dstlen (basicPoints src).length src.length 128
        { dst := frame src, h := (basicPoints src).length } := by
  rw [length_frame] at hdstlen
  have htake : ((src.filter (· < 128)).map UInt8.ofNat).take dstlen =
      (basicPoints src).map UInt8.ofNat := by
    refine List.take_of_length_le ?_
    rw [List.length_map]
    exact Nat.le_trans (Nat.le_add_right _ _) hdstlen
  have hnot : ¬ (basicPoints src).length = src.length := Nat.ne_of_lt h
  have hframe : (if 0 < (basicPoints src).length ∧ (basicPoints src).length < dstlen then
      (basicPoints src).map UInt8.ofNat ++ bytes "-" else (basicPoints src).map UInt8.ofNat) =
        frame src := by
    rw [frame]
    by_cases hpos : 0 < (basicPoints src).length
    · rw [if_pos hpos] at hdstlen ⊢
      rw [if_pos ⟨hpos, hdstlen⟩]
    · rw [if_neg hpos, if_neg fun h => hpos h.1, List.append_nil]
  simp only [punycodeEncode, htake, List.length_map, hnot, and_false, if_false, hframe]

theorem decodePoints_nil (room : Nat) (st : DecodeState) : decodePoints room st [] = st.dst := by
  cases room <;> rfl

/-- The decoder goes on behind the frame. -/
theorem punycodeDecode_eq {src : List Nat} {digits : Bytes} (h : ∀ c ∈ digits, IsDigit c)
    {dstlen : Nat} (hdstlen : (basicPoints src).length ≤ dstlen) :
    punycodeDecode (frame src ++ digits) dstlen =
      decodePoints (dstlen - (basicPoints src).length) { dst := basicPoints src } digits := by
  have hascii : ¬ ∃ c ∈ frame src ++ digits, 128 ≤ c := by
    rintro ⟨c, hc, hle⟩
    have hlt : c < 128 := (List.mem_append.mp hc).elim frame_ascii fun hc => (h c hc).ascii
    exact absurd hle (UInt8.not_le.mpr hlt)
  have hlast := findLastElem_frame src fun hmem => (h _ hmem).ne (by decide) rfl
  have htake : (frame src ++ digits).take (basicPoints src).length =
      (basicPoints src).map UInt8.ofNat := by
    rw [frame, List.append_assoc]
    exact List.take_left' (List.length_map _)
  have hdrop : (frame src ++ digits).drop
      ((basicPoints src).length + if 0 < (basicPoints src).length then 1 else 0) = digits :=
    List.drop_left' (length_frame src)
  simp only [punycodeDecode, hascii, if_false, hlast, Nat.min_eq_left hdstlen, htake, toNat_basic,
    hdrop]

/-- Encoding needs room for the frame and the numbers, and decoding for no more code points than
the encoded text has characters. -/
theorem exists_encoded {src : List Nat} (hsrc : ∀ c ∈ src, c < 0x110000)
    (hmore : (basicPoints src).length < src.length) : ∃ digits : Bytes,
      (∀ dstlen, capacity (frame src) (basicPoints src).length src.length ≤ dstlen →
        punycodeEncode src dstlen = frame src ++ digits) ∧
      (∀ c ∈ digits, IsDigit c) ∧ digits ≠ [] ∧
      ∀ dstlen, (frame src ++ digits).length ≤ dstlen →
        punycodeDecode (frame src ++ digits) dstlen = src := by
  have hs : Sync { dst := basicPoints src } (frame src) 128 [] src
      { dst := frame src, h := (basicPoints src).length }
      { text := [], count := 0, passed := 0, decoded := { dst := basicPoints src } } :=
    { dst := (List.append_nil _).symm, h := rfl, bias := rfl, decoded := rfl, length := rfl,
      n_le := Nat.le_refl 128, delta := by simp, first := Iff.rfl, total := Nat.zero_le _,
      short := Nat.zero_le _, count_le := Nat.zero_le _, digits := List.forall_mem_nil _,
      reads := fun _ _ => rfl }
  obtain ⟨n, st, w, hs', hdone, hrounds⟩ :=
    hs.rounds hsrc (Nat.le_refl 128) (by decide) (Nat.le_add_right _ _)
  have hcount : src.length = (basicPoints src).length + w.count := by
    rw [← hs'.h, ← hs'.length, hdone]
  have hle := hs'.count_le
  refine ⟨w.text, fun dstlen hdstlen => ?_, hs'.digits, ?_, fun dstlen hdstlen => ?_⟩
  · rw [punycodeEncode_eq hmore, hrounds dstlen hdstlen]
    rw [capacity] at hdstlen
    omega
  · exact List.length_pos_iff.mp (by omega)
  · rw [List.length_append, length_frame] at hdstlen
    have hroom : dstlen - (basicPoints src).length =
        dstlen - (basicPoints src).length - w.count + w.count := by omega
    have hreads := hs'.reads (dstlen - (basicPoints src).length - w.count) []
    rw [List.append_nil, ← hroom] at hreads
    rw [punycodeDecode_eq hs'.digits (by omega), hreads, decodePoints_nil, hdone]

end punycode

/-! ## Labels of ASCII characters -/

theorem encoding.utf8EncodeChar_ascii : ∀ c : UInt8, c < 128 →
    String.utf8EncodeChar (Char.ofNat c.toNat) = [c] ∧ (Char.ofNat c.toNat).toNat = c.toNat :=
  forall_byte (by decide +kernel)

/-- ASCII text is read as one character for each byte. -/
theorem encoding.fromBytes_ascii {s : Bytes} (h : ∀ c ∈ s, c < 128) :
    ∃ text, fromBytes s = .ok text ∧ text.toList.map Char.toNat = s.map UInt8.toNat := by
  have hbytes : (s.map fun c => Char.ofNat c.toNat).flatMap String.utf8EncodeChar = s := by
    induction s with
    | nil => rfl
    | cons c s ih =>
      rw [List.forall_mem_cons] at h
      rw [List.map_cons, List.flatMap_cons, (utf8EncodeChar_ascii c h.1).1, ih h.2]
      rfl
  have htext := fromBytes_bytes (String.ofList (s.map fun c => Char.ofNat c.toNat))
  rw [bytes_eq_flatMap, String.toList_ofList, hbytes] at htext
  refine ⟨_, htext, ?_⟩
  rw [String.toList_ofList, List.map_map]
  exact List.map_congr_left fun c hc => (utf8EncodeChar_ascii c (h c hc)).2

/-- There is nothing to encode: the basic code points are all there are. -/
theorem punycode.punycodeEncode_ascii {s : Bytes} (h : ∀ c ∈ s, c < 128) {dstlen : Nat}
    (hlen : s.length * 4 ≤ dstlen) : punycodeEncode (s.map UInt8.toNat) dstlen = s := by
  have hfilter : (s.map UInt8.toNat).filter (· < 128) = s.map UInt8.toNat := by
    rw [List.filter_eq_self]
    intro n hn
    obtain ⟨c, hc, rfl⟩ := List.mem_map.mp hn
    exact decide_eq_true (UInt8.lt_iff_toNat_lt.mp (h c hc))
  have hbasic : ((s.map UInt8.toNat).map UInt8.ofNat).take dstlen = s := by
    have hid : ∀ c ∈ s, (UInt8.ofNat ∘ UInt8.toNat) c = id c := fun c _ => UInt8.ofNat_toNat
    rw [List.map_map, List.map_congr_left hid, List.map_id, List.take_of_length_le]
    omega
  simp only [punycodeEncode, hfilter, hbasic, List.length_map]
  cases s with
  | nil => rfl
  | cons c s =>
    rw [List.length_cons] at hlen ⊢
    exact if_pos ⟨Nat.succ_pos _, by omega, trivial⟩

namespace encoding

theorem encodeLabel_ascii {s : Bytes} (h : ∀ c ∈ s, c < 128) : encodeLabel s = .ok s := by
  obtain ⟨text, htext, hpoints⟩ := fromBytes_ascii h
  rw [encodeLabel, htext, Except.map, hpoints, punycode.punycodeEncode_ascii h (Nat.le_refl _)]
  dsimp only
  rw [if_neg (not_not_intro rfl), List.nil_append]

/-! ## Labels of other characters -/

/-- The code points of a text. -/
def codePoints (cs : List Char) : List Nat := cs.map Char.toNat

theorem fromBytes_utf8 (cs : List Char) : fromBytes (utf8 cs) = .ok (String.ofList cs) := by
  rw [← bytes_ofList, fromBytes_bytes]

theorem utf8Size_ge (c : Char) : (if c.toNat < 128 then 1 else 2) ≤ c.utf8Size := by
  split
  · exact Char.utf8Size_pos c
  · next h =>
    have hne : c.utf8Size ≠ 1 := fun hone => h (by
      have hle := UInt32.le_iff_toNat_le.mp (Char.utf8Size_eq_one_iff.mp hone)
      exact Nat.lt_succ_of_le hle)
    have hpos := Char.utf8Size_pos c
    omega

/-- Characters that are not basic have two bytes at least. -/
theorem length_utf8_ge (cs : List Char) :
    2 * (codePoints cs).length ≤
      (utf8 cs).length + (punycode.basicPoints (codePoints cs)).length := by
  induction cs with
  | nil => exact Nat.le_refl 0
  | cons c cs ih =>
    have hsize := utf8Size_ge c
    simp only [codePoints, punycode.basicPoints, List.map_cons, List.filter_cons,
      decide_eq_true_eq, List.length_cons] at ih ⊢
    rw [utf8_cons, List.length_append, String.length_utf8EncodeChar]
    split at hsize
    · next h =>
      rw [if_pos h, List.length_cons]
      omega
    · next h =>
      rw [if_neg h]
      omega

theorem encodeChar_basic {c : Char} (h : c.toNat < 128) :
    String.utf8EncodeChar c = [UInt8.ofNat c.toNat] := by
  have hbyte := Valid.encodeChar_ofNat h
  rwa [Char.ofNat_toNat] at hbyte

/-- A text is ASCII where all of its code points are basic. -/
theorem ascii_utf8_iff (cs : List Char) : Ascii (utf8 cs) ↔ ∀ c ∈ cs, c.toNat < 128 := by
  constructor
  · intro h c hc
    obtain ⟨b, rest, hbytes⟩ := List.exists_cons_of_ne_nil (String.utf8EncodeChar_ne_nil (c := c))
    have hmem : b ∈ String.utf8EncodeChar c := by
      rw [hbytes]
      exact List.mem_cons_self
    have hb := h b (List.mem_flatMap.mpr ⟨c, hc, hmem⟩)
    rw [(Valid.encodeChar_of_mem hmem hb).2]
    exact UInt8.lt_iff_toNat_lt.mp hb
  · intro h b hb
    obtain ⟨c, hc, hmem⟩ := List.mem_flatMap.mp hb
    have hlt := h c hc
    rw [encodeChar_basic hlt] at hmem
    rw [List.mem_singleton.mp hmem, UInt8.lt_iff_toNat_lt, toNat_byte (by omega)]
    exact hlt

theorem mem_utf8 {cs : List Char} {b : UInt8} (hb : b < 128) (h : b.toNat ∈ codePoints cs) :
    b ∈ utf8 cs := by
  obtain ⟨c, hc, hcode⟩ := List.mem_map.mp h
  have hlt := UInt8.lt_iff_toNat_lt.mp hb
  refine List.mem_flatMap.mpr ⟨c, hc, ?_⟩
  rw [encodeChar_basic (hcode ▸ hlt), hcode, UInt8.ofNat_toNat]
  exact List.mem_singleton_self b

theorem mapM_toBytes (cv : Codecvt) (cs : List Char) :
    ((codePoints cs).mapM (toBytes cv)).map List.flatten = .ok (utf8 cs) := by
  have hmap : (codePoints cs).mapM (toBytes cv) = .ok (cs.map String.utf8EncodeChar) := by
    induction cs with
    | nil => rfl
    | cons c cs ih =>
      rw [codePoints] at ih ⊢
      rw [List.map_cons, List.mapM_cons, toBytes_char, ih]
      rfl
  rw [hmap, Except.map, utf8, List.flatMap_def]

/-- What is promised of a label and what it becomes: the texts that the two functions are given,
and buffers that more room would not change. -/
structure EncodesLabel (label text : Bytes) : Prop where
  ascii : Ascii text
  no_dot : '.'.toUInt8 ∉ text
  ne_nil : text ≠ []
  unchanged : Ascii label → text = label
  encodeBuffer : ∀ wstr dstlen, fromBytes label = .ok wstr → label.length * 4 ≤ dstlen →
    punycode.punycodeEncode (codePoints wstr.toList) dstlen =
      punycode.punycodeEncode (codePoints wstr.toList) (label.length * 4)
  decodeBuffer : ∀ part dstlen, text = bytes "xn--" ++ part → part.length ≤ dstlen →
    punycode.punycodeDecode part dstlen = punycode.punycodeDecode part part.length

theorem decodeLabel_unmarked (cv : Codecvt) {label : Bytes} (h : ¬ bytes "xn--" <+: label) :
    decodeLabel cv label = .ok label :=
  if_neg fun htake => h (List.prefix_iff_eq_take.mpr htake.symm)

/-- A label of ASCII characters stays as it is in both directions. -/
theorem exists_asciiLabel (cv : Codecvt) {label : Bytes} (hne : label ≠ [])
    (hdot : '.'.toUInt8 ∉ label) (hascii : Ascii label) (hmarked : ¬ bytes "xn--" <+: label) :
    ∃ text, encodeLabel label = .ok text ∧ EncodesLabel label text ∧
      decodeLabel cv text = .ok label := by
  refine ⟨label, encodeLabel_ascii hascii, ?_, decodeLabel_unmarked cv hmarked⟩
  refine
    { ascii := hascii, no_dot := hdot, ne_nil := hne, unchanged := fun _ => rfl,
      encodeBuffer := ?_, decodeBuffer := ?_ }
  · intro wstr dstlen hwstr hdstlen
    obtain ⟨text, htext, hpoints⟩ := fromBytes_ascii hascii
    obtain rfl : text = wstr := Except.ok.inj (htext.symm.trans hwstr)
    rw [codePoints, hpoints, punycode.punycodeEncode_ascii hascii hdstlen,
      punycode.punycodeEncode_ascii hascii (Nat.le_refl _)]
  · rintro part dstlen rfl -
    exact absurd (List.prefix_append _ part) hmarked

/-- Another label is marked, and the decoder reads it back. -/
theorem exists_otherLabel (cv : Codecvt) {cs : List Char} (hdot : '.'.toUInt8 ∉ utf8 cs)
    (hother : ¬ Ascii (utf8 cs)) :
    ∃ text, encodeLabel (utf8 cs) = .ok text ∧ EncodesLabel (utf8 cs) text ∧
      decodeLabel cv text = .ok (utf8 cs) := by
  have hpoints : ∀ c ∈ codePoints cs, c < 0x110000 := by
    intro c hc
    obtain ⟨d, -, rfl⟩ := List.mem_map.mp hc
    exact d.valid.elim (fun h => Nat.lt_trans h (by decide)) And.right
  have hmore : (punycode.basicPoints (codePoints cs)).length < (codePoints cs).length := by
    rw [ascii_utf8_iff, not_forall₂] at hother
    obtain ⟨c, hc, hle⟩ := hother
    exact List.length_filter_lt_length_iff_exists.mpr
      ⟨c.toNat, List.mem_map_of_mem hc, by simpa using hle⟩
  obtain ⟨digits, henc, hdigits, hne, hdec⟩ := punycode.exists_encoded hpoints hmore
  have hcapacity : punycode.capacity (punycode.frame (codePoints cs))
      (punycode.basicPoints (codePoints cs)).length (codePoints cs).length ≤
        (utf8 cs).length * 4 := by
    have hlen := length_utf8_ge cs
    rw [punycode.capacity, punycode.length_frame]
    split <;> omega
  have hascii : Ascii (punycode.frame (codePoints cs) ++ digits) := fun b hb =>
    (List.mem_append.mp hb).elim punycode.frame_ascii fun hb => (hdigits b hb).ascii
  have hnodot : '.'.toUInt8 ∉ punycode.frame (codePoints cs) ++ digits := by
    intro hmem
    rcases List.mem_append.mp hmem with hmem | hmem
    · rcases punycode.mem_frame hmem with h | h
      · exact absurd h (by decide)
      · exact hdot (mem_utf8 (by decide) (List.mem_filter.mp h).1)
    · exact (hdigits _ hmem).ne (by decide) rfl
  have hlabel : encodeLabel (utf8 cs) =
      .ok (bytes "xn--" ++ (punycode.frame (codePoints cs) ++ digits)) := by
    have hchanged : punycode.frame (codePoints cs) ++ digits ≠ utf8 cs :=
      fun heq => hother (heq ▸ hascii)
    have hpoints' : (String.ofList cs).toList.map Char.toNat = codePoints cs := by
      rw [String.toList_ofList, codePoints]
    rw [encodeLabel, fromBytes_utf8, Except.map, hpoints', henc _ hcapacity]
    dsimp only
    rw [if_pos hchanged]
  refine ⟨_, hlabel, ?_, ?_⟩
  · refine
      { ascii := ?_, no_dot := ?_, ne_nil := ?_, unchanged := fun h => absurd h hother,
        encodeBuffer := ?_, decodeBuffer := ?_ }
    · exact List.forall_mem_append.mpr ⟨List.all_iff_forall_prop.mp (by decide), hascii⟩
    · exact fun hmem => (List.mem_append.mp hmem).elim (by decide) hnodot
    · exact List.append_ne_nil_of_left_ne_nil (by decide) _
    · intro wstr dstlen hwstr hdstlen
      obtain rfl : String.ofList cs = wstr :=
        Except.ok.inj ((fromBytes_utf8 cs).symm.trans hwstr)
      rw [String.toList_ofList, henc dstlen (Nat.le_trans hcapacity hdstlen), henc _ hcapacity]
    · intro part dstlen hpart hdstlen
      obtain rfl := List.append_cancel_left hpart
      rw [hdec dstlen hdstlen, hdec _ (Nat.le_refl _)]
  · have htake : (bytes "xn--" ++ (punycode.frame (codePoints cs) ++ digits)).take 4 =
        bytes "xn--" := List.take_left' rfl
    have hdrop : (bytes "xn--" ++ (punycode.frame (codePoints cs) ++ digits)).drop 4 =
        punycode.frame (codePoints cs) ++ digits := List.drop_left' rfl
    rw [decodeLabel, if_pos htake, hdrop]
    dsimp only
    rw [hdec _ (Nat.le_refl _), mapM_toBytes]

/-! ## Domains -/

theorem exists_encodedLabels {cv : Codecvt} {labels : List Bytes}
    (h : ∀ label ∈ labels, ∃ text, encodeLabel label = .ok text ∧ EncodesLabel label text ∧
      decodeLabel cv text = .ok label) :
    ∃ texts, labels.mapM encodeLabel = .ok texts ∧ List.Forall₂ EncodesLabel labels texts ∧
      texts.mapM (decodeLabel cv) = .ok labels := by
  induction labels with
  | nil => exact ⟨[], rfl, .nil, rfl⟩
  | cons label labels ih =>
    rw [List.forall_mem_cons] at h
    obtain ⟨⟨text, henc, htext, hdec⟩, hlabels⟩ := h
    obtain ⟨texts, hencs, htexts, hdecs⟩ := ih hlabels
    refine ⟨text :: texts, ?_, .cons htext htexts, ?_⟩
    · rw [List.mapM_cons, henc, hencs]
      rfl
    · rw [List.mapM_cons, hdec, hdecs]
      rfl

theorem separate_of_encodesLabel {labels texts : List Bytes}
    (h : List.Forall₂ EncodesLabel labels texts) : ∀ t ∈ texts, t ≠ [] ∧ '.'.toUInt8 ∉ t := by
  induction h with
  | nil => exact List.forall_mem_nil _
  | cons htext _ ih => exact List.forall_mem_cons.mpr ⟨⟨htext.ne_nil, htext.no_dot⟩, ih⟩

/-- A label that the encoder can be given: valid UTF-8 without a dot, which is not marked itself. -/
structure IsLabel (label : Bytes) : Prop where
  ne_nil : label ≠ []
  valid : Valid label
  no_dot : '.'.toUInt8 ∉ label
  unmarked : ¬ (Ascii label ∧ bytes "xn--" <+: label)

/-- A domain is encoded label by label, with buffers that are large enough, and read back. -/
theorem punycodeDecode_punycodeEncode (cv : Codecvt) (labels : List Bytes)
    (h : ∀ label ∈ labels, IsLabel label) :
    ∃ texts,
      punycodeEncode ((bytes ".").intercalate labels) = .ok ((bytes ".").intercalate texts) ∧
      List.Forall₂ EncodesLabel labels texts ∧
      punycodeDecode cv ((bytes ".").intercalate texts) = .ok ((bytes ".").intercalate labels) := by
  have hlabels : ∀ label ∈ labels, ∃ text, encodeLabel label = .ok text ∧
      EncodesLabel label text ∧ decodeLabel cv text = .ok label := by
    intro label hlabel
    obtain ⟨hne, ⟨cs, rfl⟩, hdot, hunmarked⟩ := h label hlabel
    by_cases hascii : Ascii (utf8 cs)
    · exact exists_asciiLabel cv hne hdot hascii fun hmark => hunmarked ⟨hascii, hmark⟩
    · exact exists_otherLabel cv hdot hascii
  obtain ⟨texts, hencs, htexts, hdecs⟩ := exists_encodedLabels hlabels
  have hsplit : utils.splitString ((bytes ".").intercalate labels) '.'.toUInt8 true = labels :=
    utils.splitString_intercalate fun label hlabel =>
      ⟨(h label hlabel).ne_nil, (h label hlabel).no_dot⟩
  have hsplit' : utils.splitString ((bytes ".").intercalate texts) '.'.toUInt8 true = texts :=
    utils.splitString_intercalate (separate_of_encodesLabel htexts)
  refine ⟨texts, ?_, htexts, ?_⟩
  · rw [punycodeEncode, hsplit, hencs]
    rfl
  · rw [punycodeDecode, hsplit', hdecs]
    rfl

theorem punycodeDecode_punycodeEncode_de :
    ∃ texts, punycodeEncode ((bytes ".").intercalate [bytes "bücher", bytes "de"]) =
        .ok ((bytes ".").intercalate texts) ∧
      List.Forall₂ EncodesLabel [bytes "bücher", bytes "de"] texts ∧
      punycodeDecode .strict ((bytes ".").intercalate texts) =
        .ok ((bytes ".").intercalate [bytes "bücher", bytes "de"]) := by
  refine punycodeDecode_punycodeEncode .strict [bytes "bücher", bytes "de"] ?_
  simp only [List.forall_mem_cons]
  refine ⟨⟨by decide, valid_iff.mpr ⟨_, rfl⟩, by decide, fun h => ?_⟩,
    ⟨by decide, valid_iff.mpr ⟨_, rfl⟩, by decide, fun h => ?_⟩, List.forall_mem_nil _⟩
  · exact absurd h.2 (by decide)
  · exact absurd h.2 (by decide)

end encoding

end Nawa
