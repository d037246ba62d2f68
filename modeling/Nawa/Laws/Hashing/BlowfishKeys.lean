import Mathlib.Data.List.GetD
import Mathlib.Data.Nat.Bitwise
import Nawa.Hashing.CryptBlowfish
import Nawa.Laws.Hashing.Bcrypt

/-!
# The keys of `crypt_blowfish`

A key is read in a circle, with its terminating zero, so what is expanded are the first 72
characters of that circle. `BF_set_key_eq_iff` says when two passwords have one key, and
`BF_set_key_safe_eq_bug` what the safety measure is for: no key of the subtype `$2a$` is a key of
`$2x$` with another password. What the cipher makes of a key is not looked at.
-/

namespace Nawa.hashing

/-! ## The characters of a key -/

theorem zero_notMem_cString (s : Bytes) : 0 ∉ cString s := by
  intro hmem
  have hne := List.mem_takeWhile_imp hmem
  exact of_decide_eq_true hne rfl

/-- Where the next character of a key is read. -/
def keyPtr (key : Bytes) : Nat → Nat
  | 0 => 0
  | n + 1 => if charAt key (keyPtr key n) = 0 then 0 else keyPtr key n + 1

def keyChar (key : Bytes) (n : Nat) : UInt8 := charAt key (keyPtr key n)

theorem charAt_eq_zero_iff {s : Bytes} (h : 0 ∉ s) (i : Nat) : charAt s i = 0 ↔ s.length ≤ i := by
  rw [charAt]
  constructor
  · intro hzero
    by_contra hlt
    rw [List.getD_eq_getElem _ _ (Nat.lt_of_not_le hlt)] at hzero
    exact h (hzero ▸ List.getElem_mem _)
  · intro hle
    exact List.getD_eq_default _ _ hle

/-- Up to the end, a key is read as it stands. -/
theorem keyPtr_eq_self {key : Bytes} (h : 0 ∉ key) {n : Nat} (hn : n ≤ key.length) :
    keyPtr key n = n := by
  induction n with
  | zero => rfl
  | succ n ih =>
    rw [keyPtr, ih (Nat.le_of_succ_le hn), if_neg]
    intro hzero
    exact absurd ((charAt_eq_zero_iff h n).mp hzero) (Nat.not_le_of_lt hn)

/-- The characters of a key give the key back, up to their number. -/
theorem takeWhile_keyChar {key : Bytes} (h : 0 ∉ key) (n : Nat) :
    ((List.range n).map (keyChar key)).takeWhile (· ≠ 0) = key.take n := by
  have hchar : ∀ i ≤ key.length, keyChar key i = charAt key i := by
    intro i hi
    rw [keyChar, keyPtr_eq_self h hi]
  by_cases hn : n ≤ key.length
  · have hmap : (List.range n).map (keyChar key) = key.take n := by
      apply List.ext_getElem (by simp [hn])
      intro i h₁ h₂
      rw [List.length_map, List.length_range] at h₁
      rw [List.getElem_map, List.getElem_range, hchar i (h₁.le.trans hn), List.getElem_take,
        charAt, List.getD_eq_getElem _ _ (h₁.trans_le hn)]
    rw [hmap]
    exact cString_eq_self fun hmem => h (List.mem_of_mem_take hmem)
  · obtain ⟨m, rfl⟩ := Nat.exists_eq_add_of_le (Nat.lt_of_not_le hn)
    have hmap : (List.range key.length).map (keyChar key) = key := by
      apply List.ext_getElem (by simp)
      intro i h₁ h₂
      rw [List.getElem_map, List.getElem_range, hchar i h₂.le, charAt, List.getD_eq_getElem]
    have hend : keyChar key key.length = 0 := by
      rw [hchar _ le_rfl, charAt_eq_zero_iff h]
    rw [List.range_add, List.range_succ, List.map_append, List.map_append, hmap, List.map_singleton,
      hend, List.append_assoc, List.singleton_append]
    exact (cString_append h _).trans (List.take_of_length_le (by omega)).symm

/-- The first characters of two keys are the same if the keys begin alike. -/
theorem forall_keyChar_eq_iff {p q : Bytes} (hp : 0 ∉ p) (hq : 0 ∉ q) (n : Nat) :
    (∀ i < n, keyChar p i = keyChar q i) ↔ p.take n = q.take n := by
  constructor
  · intro h
    rw [← takeWhile_keyChar hp, ← takeWhile_keyChar hq]
    congr 1
    exact List.map_congr_left fun i hi => h i (List.mem_range.mp hi)
  · intro h i hi
    by_cases hlen : n ≤ p.length
    · have hlen' : n ≤ q.length := by
        have := congrArg List.length h
        rw [List.length_take, List.length_take] at this
        omega
      have hget := congrArg (fun s => charAt s i) h
      simp only [charAt, List.getD_eq_getElem?_getD, List.getElem?_take_of_lt hi] at hget
      rw [keyChar, keyPtr_eq_self hp (by omega), keyChar, keyPtr_eq_self hq (by omega)]
      simpa only [charAt, List.getD_eq_getElem?_getD] using hget
    · have hlen' : q.length < n := by
        have := congrArg List.length h
        rw [List.length_take, List.length_take] at this
        omega
      rw [List.take_of_length_le (by omega), List.take_of_length_le (by omega)] at h
      rw [h]

/-! ## Words of four characters -/

/-- What the correct algorithm makes of four characters. -/
def plainWord (c : Nat → UInt8) (i : Nat) : UInt32 :=
  (List.range 4).foldl (fun w j => (w <<< 8) ||| (c (4 * i + j)).toUInt32) 0

/-- What the older one makes of them. -/
def signedWord (c : Nat → UInt8) (i : Nat) : UInt32 :=
  (List.range 4).foldl (fun w j => (w <<< 8) ||| signExtend (c (4 * i + j))) 0

theorem toNat_shift_or (w : UInt32) (c : UInt8) :
    ((w <<< 8) ||| c.toUInt32).toNat = w.toNat * 2 ^ 8 % 2 ^ 32 + c.toNat := by
  have hc : c.toNat < 2 ^ 8 := c.toNat_lt
  have hshift : (w <<< 8).toNat = 2 ^ 8 * (w.toNat % 2 ^ 24) := by
    rw [UInt32.toNat_shiftLeft, show (8 : UInt32).toNat % 32 = 8 from rfl, Nat.shiftLeft_eq]
    omega
  rw [UInt32.toNat_or, hshift, UInt8.toNat_toUInt32, ← Nat.two_pow_add_eq_or_of_lt hc]
  omega

theorem getElem_mask : ∀ i : Fin 32, (0xFFFFFF00#32)[i] = decide (8 ≤ i.val) := by decide

theorem shift_or_mask (w : UInt32) : (w <<< 8) ||| (0xFFFFFF00 : UInt32) = 0xFFFFFF00 := by
  apply UInt32.toBitVec_inj.mp
  ext i hi
  have hmask := getElem_mask ⟨i, hi⟩
  rw [Fin.getElem_fin] at hmask
  have h8 : UInt32.toBitVec 8 % 32 = 8#32 := rfl
  simp only [UInt32.toBitVec_or, UInt32.toBitVec_shiftLeft, UInt32.toBitVec_ofNat,
    BitVec.getElem_or]
  rw [hmask]
  by_cases h : 8 ≤ i <;> simp [h]

theorem lt_sign_iff {c : UInt8} : c < 0x80 ↔ c.toNat < 128 := UInt8.lt_iff_toNat_lt

/-- The value of a word when a character is added to it by the older algorithm: the sign bit
overwrites what is in front of it. -/
def signedValue (w c : Nat) : Nat := if c < 128 then w * 2 ^ 8 % 2 ^ 32 + c else 2 ^ 32 - 2 ^ 8 + c

theorem toNat_shift_or_signExtend (w : UInt32) (c : UInt8) :
    ((w <<< 8) ||| signExtend c).toNat = signedValue w.toNat c.toNat := by
  rw [signExtend, signedValue]
  split
  · next h => rw [toNat_shift_or, if_pos (lt_sign_iff.mp h)]
  · next h =>
    have hmask : (0xFFFFFF00 : UInt32) = 0xFFFFFF <<< (8 : UInt32) := rfl
    rw [UInt32.or_comm c.toUInt32, ← UInt32.or_assoc, shift_or_mask, hmask, toNat_shift_or,
      if_neg fun hlt => h (lt_sign_iff.mpr hlt)]
    rfl

theorem signedValue_cases (w c : Nat) :
    (c < 128 ∧ signedValue w c = w * 2 ^ 8 % 2 ^ 32 + c) ∨
      (128 ≤ c ∧ signedValue w c = 2 ^ 32 - 2 ^ 8 + c) := by
  rw [signedValue]
  split
  · next h => exact .inl ⟨h, rfl⟩
  · next h => exact .inr ⟨Nat.le_of_not_lt h, rfl⟩

section Words

variable (c : Nat → UInt8) (i : Nat)

theorem toNat_chars_lt : (c (4 * i)).toNat < 256 ∧ (c (4 * i + 1)).toNat < 256 ∧
    (c (4 * i + 2)).toNat < 256 ∧ (c (4 * i + 3)).toNat < 256 :=
  ⟨UInt8.toNat_lt _, UInt8.toNat_lt _, UInt8.toNat_lt _, UInt8.toNat_lt _⟩

theorem toNat_plainWord : (plainWord c i).toNat = (c (4 * i)).toNat * 2 ^ 24 +
    (c (4 * i + 1)).toNat * 2 ^ 16 + (c (4 * i + 2)).toNat * 2 ^ 8 + (c (4 * i + 3)).toNat := by
  have hlt := toNat_chars_lt c i
  simp only [plainWord, show List.range 4 = [0, 1, 2, 3] from rfl, List.foldl_cons, List.foldl_nil,
    toNat_shift_or, Nat.add_zero, UInt32.toNat_zero]
  omega

/-- What the older algorithm goes through. -/
theorem toNat_signedWord : ∃ w0 w1 w2 : Nat,
    ((c (4 * i)).toNat < 128 ∧ w0 = (c (4 * i)).toNat ∨
      128 ≤ (c (4 * i)).toNat ∧ w0 = 2 ^ 32 - 2 ^ 8 + (c (4 * i)).toNat) ∧
    ((c (4 * i + 1)).toNat < 128 ∧ w1 = w0 * 2 ^ 8 % 2 ^ 32 + (c (4 * i + 1)).toNat ∨
      128 ≤ (c (4 * i + 1)).toNat ∧ w1 = 2 ^ 32 - 2 ^ 8 + (c (4 * i + 1)).toNat) ∧
    ((c (4 * i + 2)).toNat < 128 ∧ w2 = w1 * 2 ^ 8 % 2 ^ 32 + (c (4 * i + 2)).toNat ∨
      128 ≤ (c (4 * i + 2)).toNat ∧ w2 = 2 ^ 32 - 2 ^ 8 + (c (4 * i + 2)).toNat) ∧
    ((c (4 * i + 3)).toNat < 128 ∧
        (signedWord c i).toNat = w2 * 2 ^ 8 % 2 ^ 32 + (c (4 * i + 3)).toNat ∨
      128 ≤ (c (4 * i + 3)).toNat ∧
        (signedWord c i).toNat = 2 ^ 32 - 2 ^ 8 + (c (4 * i + 3)).toNat) := by
  have hword : (signedWord c i).toNat = signedValue (signedValue (signedValue
      (signedValue 0 (c (4 * i)).toNat) (c (4 * i + 1)).toNat) (c (4 * i + 2)).toNat)
      (c (4 * i + 3)).toNat := by
    simp only [signedWord, show List.range 4 = [0, 1, 2, 3] from rfl, List.foldl_cons,
      List.foldl_nil, toNat_shift_or_signExtend, Nat.add_zero, UInt32.toNat_zero]
  rw [hword]
  have hfirst := signedValue_cases 0 (c (4 * i)).toNat
  rw [Nat.zero_mul, Nat.zero_mod, Nat.zero_add] at hfirst
  exact ⟨_, _, _, hfirst, signedValue_cases _ _, signedValue_cases _ _, signedValue_cases _ _⟩

end Words

theorem plainWord_eq_iff {c d : Nat → UInt8} {i : Nat} :
    plainWord c i = plainWord d i ↔ ∀ j < 4, c (4 * i + j) = d (4 * i + j) := by
  constructor
  · intro h
    have hvalue := congrArg UInt32.toNat h
    rw [toNat_plainWord, toNat_plainWord] at hvalue
    have hc := toNat_chars_lt c i
    have hd := toNat_chars_lt d i
    intro j hj
    apply UInt8.toNat_inj.mp
    obtain rfl | rfl | rfl | rfl : j = 0 ∨ j = 1 ∨ j = 2 ∨ j = 3 := by omega
    · rw [Nat.add_zero]
      omega
    all_goals omega
  · intro h
    apply UInt32.toNat_inj.mp
    rw [toNat_plainWord, toNat_plainWord, ← h 1 (by decide), ← h 2 (by decide), ← h 3 (by decide)]
    rw [show c (4 * i) = d (4 * i) from h 0 (by decide)]

/-- No character of a word but the first has the sign bit. -/
def Unsigned (c : Nat → UInt8) (i : Nat) : Prop := ∀ j < 4, j ≠ 0 → c (4 * i + j) < 0x80

instance (c : Nat → UInt8) (i : Nat) : Decidable (Unsigned c i) :=
  inferInstanceAs (Decidable (∀ j < 4, j ≠ 0 → c (4 * i + j) < 0x80))

theorem Unsigned.toNat_lt {c : Nat → UInt8} {i : Nat} (h : Unsigned c i) :
    (c (4 * i + 1)).toNat < 128 ∧ (c (4 * i + 2)).toNat < 128 ∧ (c (4 * i + 3)).toNat < 128 :=
  ⟨lt_sign_iff.mp (h 1 (by decide) (by decide)), lt_sign_iff.mp (h 2 (by decide) (by decide)),
    lt_sign_iff.mp (h 3 (by decide) (by decide))⟩

/-- Such a word is the same for both algorithms. -/
theorem Unsigned.signedWord_eq {c : Nat → UInt8} {i : Nat} (h : Unsigned c i) :
    signedWord c i = plainWord c i := by
  have hsign := h.toNat_lt
  have hlt := toNat_chars_lt c i
  obtain ⟨w0, w1, w2, h0, h1, h2, h3⟩ := toNat_signedWord c i
  apply UInt32.toNat_inj.mp
  rw [toNat_plainWord]
  omega

/-- If the correct algorithm makes of one word what the older one makes of some word, both make the
same of it. -/
theorem signedWord_eq_of_eq {c d : Nat → UInt8} {i : Nat} (h : plainWord c i = signedWord d i) :
    signedWord c i = plainWord c i := by
  have hvalue := congrArg UInt32.toNat h
  rw [toNat_plainWord] at hvalue
  have hlt := toNat_chars_lt c i
  have hlt' := toNat_chars_lt d i
  obtain ⟨w0, w1, w2, h0, h1, h2, h3⟩ := toNat_signedWord c i
  obtain ⟨v0, v1, v2, h0', h1', h2', h3'⟩ := toNat_signedWord d i
  apply UInt32.toNat_inj.mp
  rw [toNat_plainWord]
  -- the last sign bit decides what is in front of it, in both words
  rcases h3 with h3 | h3
  · rcases h2 with h2 | h2
    · rcases h1 with h1 | h1 <;> omega
    · omega
  · omega

/-- Without the sign bit, it has made it of the same characters. -/
theorem Unsigned.plainWord_eq {c d : Nat → UInt8} {i : Nat} (hsign : Unsigned c i)
    (h : plainWord c i = signedWord d i) : plainWord c i = plainWord d i := by
  have hvalue := congrArg UInt32.toNat h
  rw [toNat_plainWord] at hvalue
  have hsign := hsign.toNat_lt
  have hlt := toNat_chars_lt c i
  have hlt' := toNat_chars_lt d i
  obtain ⟨v0, v1, v2, h0', h1', h2', h3'⟩ := toNat_signedWord d i
  apply UInt32.toNat_inj.mp
  rw [toNat_plainWord, toNat_plainWord]
  omega

/-! ## The loop -/

/-- A mask of one bit. -/
theorem and_bit {k : Nat} (mask : UInt32) (hmask : mask.toNat = 2 ^ k) (x : UInt32) :
    x &&& mask = if x.toNat / 2 ^ k % 2 = 1 then mask else 0 := by
  apply UInt32.toNat_inj.mp
  rw [UInt32.toNat_and, hmask, Nat.and_two_pow, Nat.testBit_eq_decide_div_mod_eq]
  by_cases h : x.toNat / 2 ^ k % 2 = 1
  · rw [if_pos h, decide_eq_true h, Bool.toNat_true, Nat.one_mul, hmask]
  · rw [if_neg h, decide_eq_false h, Bool.toNat_false, Nat.zero_mul]
    rfl

/-- What the loop has in `sign` after some characters. -/
def signOf (c : Nat → UInt8) (n : Nat) : UInt32 :=
  if ∀ k < n, k % 4 ≠ 0 → c k < 0x80 then 0 else 0x80

theorem sign_shift_or_signExtend (w : UInt32) (c : UInt8) :
    ((w <<< 8) ||| signExtend c) &&& 0x80 = if c < 0x80 then 0 else 0x80 := by
  have hlt := c.toNat_lt
  rw [and_bit (k := 7) 0x80 rfl, toNat_shift_or_signExtend]
  rcases signedValue_cases w.toNat c.toNat with ⟨hsign, hvalue⟩ | ⟨hsign, hvalue⟩
  · rw [if_neg (by omega), if_pos (lt_sign_iff.mpr hsign)]
  · rw [if_pos (by omega), if_neg fun h => absurd (lt_sign_iff.mp h) (Nat.not_lt_of_le hsign)]

theorem signOf_succ (c : Nat → UInt8) (n : Nat) (w : UInt32) :
    signOf c (n + 1) = if n % 4 ≠ 0 then
      signOf c n ||| (((w <<< 8) ||| signExtend (c n)) &&& 0x80) else signOf c n := by
  rw [sign_shift_or_signExtend]
  simp only [signOf, Nat.forall_lt_succ_right]
  by_cases hn : n % 4 ≠ 0
  · by_cases hbefore : ∀ k < n, k % 4 ≠ 0 → c k < 0x80
    · by_cases hc : c n < 0x80
      · rw [if_pos ⟨hbefore, fun _ => hc⟩, if_pos hn, if_pos hbefore, if_pos hc]
        rfl
      · rw [if_neg fun h => hc (h.2 hn), if_pos hn, if_pos hbefore, if_neg hc]
        rfl
    · rw [if_neg fun h => hbefore h.1, if_pos hn, if_neg hbefore]
      split <;> rfl
  · simp only [hn, false_imp_iff, and_true, if_false]

/-- What it has in `diff` after some words. -/
def diffOf (c : Nat → UInt8) (n : Nat) : UInt32 :=
  (List.range n).foldl (fun d i => d ||| (plainWord c i ^^^ signedWord c i)) 0

theorem diffOf_succ (c : Nat → UInt8) (n : Nat) :
    diffOf c (n + 1) = diffOf c n ||| (plainWord c n ^^^ signedWord c n) := by
  rw [diffOf, List.range_succ, List.foldl_append, List.foldl_cons, List.foldl_nil, diffOf]

theorem diffOf_eq_zero_iff {c : Nat → UInt8} {n : Nat} :
    diffOf c n = 0 ↔ ∀ i < n, plainWord c i = signedWord c i := by
  induction n with
  | zero => exact iff_of_true rfl fun i hi => absurd hi (Nat.not_lt_zero i)
  | succ n ih => rw [diffOf_succ, UInt32.or_eq_zero_iff, ih, UInt32.xor_eq_zero_iff,
      Nat.forall_lt_succ_right]

/-- The word that goes into the key. -/
def keyWord (bug : Bool) (c : Nat → UInt8) (i : Nat) : UInt32 :=
  if bug then signedWord c i else plainWord c i

section Loop

variable (key : Bytes)

theorem BF_set_key_char_eq (i : Nat) {j : Nat} (hj : j < 4) (tmp0 tmp1 : UInt32) :
    BF_set_key_char key j
        (tmp0, tmp1, signOf (keyChar key) (4 * i + j), keyPtr key (4 * i + j)) =
      ((tmp0 <<< 8) ||| (keyChar key (4 * i + j)).toUInt32,
        (tmp1 <<< 8) ||| signExtend (keyChar key (4 * i + j)),
        signOf (keyChar key) (4 * i + (j + 1)), keyPtr key (4 * i + (j + 1))) := by
  rw [← Nat.add_assoc, signOf_succ _ _ tmp1, show (4 * i + j) % 4 = j by omega]
  rfl

/-- The loop over the characters of a word. -/
theorem foldl_BF_set_key_char (i : Nat) {n : Nat} (hn : n ≤ 4) :
    (List.range n).foldl (fun s j => BF_set_key_char key j s)
        (0, 0, signOf (keyChar key) (4 * i), keyPtr key (4 * i)) =
      ((List.range n).foldl (fun (w : UInt32) j =>
          (w <<< 8) ||| (keyChar key (4 * i + j)).toUInt32) 0,
        (List.range n).foldl (fun (w : UInt32) j =>
          (w <<< 8) ||| signExtend (keyChar key (4 * i + j))) 0,
        signOf (keyChar key) (4 * i + n), keyPtr key (4 * i + n)) := by
  induction n with
  | zero => rfl
  | succ n ih =>
    rw [List.range_succ, List.foldl_append, ih (Nat.le_of_succ_le hn), List.foldl_cons,
      List.foldl_nil, BF_set_key_char_eq key i hn, List.foldl_append, List.foldl_append]
    rfl

theorem foldl_BF_set_key_word (bug : Bool) (n : Nat) :
    (List.range n).foldl (BF_set_key_word key bug) ⟨0, 0, 0, [], []⟩ =
      { ptr := keyPtr key (4 * n)
        sign := signOf (keyChar key) (4 * n)
        diff := diffOf (keyChar key) n
        expanded := (List.range n).map (keyWord bug (keyChar key))
        initial := (List.range n).map fun i =>
          BF_init_state_P.getD i 0 ^^^ keyWord bug (keyChar key) i } := by
  induction n with
  | zero =>
    have hsign : signOf (keyChar key) 0 = 0 :=
      if_pos fun k hk => absurd hk (Nat.not_lt_zero k)
    rw [Nat.mul_zero, hsign]
    rfl
  | succ n ih =>
    rw [List.range_succ, List.foldl_append, ih, List.foldl_cons, List.foldl_nil, BF_set_key_word,
      foldl_BF_set_key_char key n le_rfl, List.map_append, List.map_append, diffOf_succ]
    rfl

end Loop

/-! ## The safety measure -/

/-- No character has the sign bit but, perhaps, the first ones of the words. -/
def AllUnsigned (c : Nat → UInt8) : Prop := ∀ i < 18, Unsigned c i

instance (c : Nat → UInt8) : Decidable (AllUnsigned c) :=
  Nat.decidableBallLT 18 fun i _ => Unsigned c i

/-- Whether the correct key of these characters is changed for the subtype `$2a$`: the older
algorithm makes the same key of them, and of others as well. -/
def Deviates (c : Nat → UInt8) : Prop :=
  (∀ i < 18, plainWord c i = signedWord c i) ∧ ¬ AllUnsigned c

instance (c : Nat → UInt8) : Decidable (Deviates c) := inferInstanceAs (Decidable (_ ∧ _))

theorem signOf_eq (c : Nat → UInt8) : signOf c 72 = if AllUnsigned c then 0 else 0x80 := by
  rw [signOf]
  apply if_congr _ rfl rfl
  constructor
  · intro h i hi j hj hj0
    exact h (4 * i + j) (by omega) (by omega)
  · intro h k hk hk0
    have := h (k / 4) (by omega) (k % 4) (by omega) hk0
    rwa [Nat.div_add_mod] at this

/-- Whether a word is zero, as a bit. -/
theorem toNat_fold (x : UInt32) :
    (((x ||| (x >>> 16)) &&& 0xffff) + 0xffff).toNat / 2 ^ 16 % 2 = if x = 0 then 0 else 1 := by
  have hmask : (0xffff : UInt32).toNat = 2 ^ 16 - 1 := rfl
  have hshift : (x >>> 16).toNat = x.toNat / 2 ^ 16 := by
    rw [UInt32.toNat_shiftRight, Nat.shiftRight_eq_div_pow]
    rfl
  have hlt := x.toNat_lt
  have hvalue : ((x ||| (x >>> 16)) &&& 0xffff).toNat =
      (x.toNat % 2 ^ 16) ||| (x.toNat / 2 ^ 16) := by
    rw [UInt32.toNat_and, hmask, Nat.and_two_pow_sub_one_eq_mod, UInt32.toNat_or, hshift,
      Nat.or_mod_two_pow, Nat.mod_eq_of_lt (a := x.toNat / 2 ^ 16) (by omega)]
  have hbound : ((x ||| (x >>> 16)) &&& 0xffff).toNat < 2 ^ 16 := by
    rw [hvalue]
    exact Nat.or_lt_two_pow (Nat.mod_lt _ (by decide)) (by omega)
  have hzero : ((x ||| (x >>> 16)) &&& 0xffff).toNat = 0 ↔ x = 0 := by
    rw [hvalue, Nat.or_eq_zero_iff, ← UInt32.toNat_inj, UInt32.toNat_zero]
    omega
  rw [UInt32.toNat_add, hmask]
  split
  · next h =>
    have := hzero.mpr h
    omega
  · next h =>
    have := mt hzero.mp h
    omega

/-- The bit operations that say whether to change the key. -/
theorem safety_bit (x : UInt32) {sign safety : UInt32} (hsign : sign = 0 ∨ sign = 0x80)
    (hsafety : safety = 0 ∨ safety = 0x10000) :
    (sign <<< 9) &&& (~~~ (((x ||| (x >>> 16)) &&& 0xffff) + 0xffff) &&& safety) =
      if safety ≠ 0 ∧ x = 0 ∧ sign ≠ 0 then 0x10000 else 0 := by
  rcases hsign with rfl | rfl
  · rw [if_neg fun h => h.2.2 rfl]
    exact UInt32.zero_and
  · rcases hsafety with rfl | rfl
    · rw [if_neg fun h => h.1 rfl, UInt32.and_zero]
      exact UInt32.and_zero
    · have hbit := toNat_fold x
      have hlt := (((x ||| (x >>> 16)) &&& 0xffff) + 0xffff).toNat_lt
      rw [and_bit (k := 16) 0x10000 rfl, UInt32.toNat_not,
        show UInt32.size = 2 ^ 32 from rfl]
      split at hbit
      · next h =>
        rw [if_pos (by omega), if_pos ⟨by decide, h, by decide⟩]
        rfl
      · next h =>
        rw [if_neg (by omega), if_neg fun hx => h hx.2.1]
        rfl

theorem BF_set_key_eq (key : Bytes) (flags : UInt32) :
    BF_set_key key flags =
      ((List.range 18).map (keyWord (flags &&& 1 ≠ 0) (keyChar key)),
        ((List.range 18).map fun i =>
          BF_init_state_P.getD i 0 ^^^ keyWord (flags &&& 1 ≠ 0) (keyChar key) i).modify 0
          (· ^^^ if flags &&& 2 ≠ 0 ∧ Deviates (keyChar key) then 0x10000 else 0)) := by
  have hrun := foldl_BF_set_key_word key (flags &&& 1 ≠ 0) 18
  have hsafety : (flags &&& 2) <<< 15 = if flags &&& 2 ≠ 0 then (0x10000 : UInt32) else 0 := by
    rw [and_bit (k := 1) 2 rfl]
    split <;> rfl
  rw [BF_set_key, show BF_N + 2 = 18 from rfl, hrun, hsafety, signOf_eq]
  dsimp only
  refine congrArg (fun s : UInt32 => (_, List.modify _ 0 (· ^^^ s))) ?_
  refine (safety_bit _ ?_ ?_).trans (if_congr ?_ rfl rfl)
  · exact (ite_eq_or_eq _ _ _)
  · exact (ite_eq_or_eq _ _ _).symm
  · rw [diffOf_eq_zero_iff, Deviates]
    apply and_congr
    · split <;> simp [*]
    · apply and_congr Iff.rfl
      split <;> simp [*]

theorem signedWord_congr {c d : Nat → UInt8} {i : Nat}
    (h : ∀ j < 4, c (4 * i + j) = d (4 * i + j)) : signedWord c i = signedWord d i := by
  apply List.foldl_ext
  intro w j hj
  rw [h j (List.mem_range.mp hj)]

/-- The key is made of the first characters alone. -/
theorem BF_set_key_congr {p q : Bytes} (h : ∀ n < 72, keyChar p n = keyChar q n)
    (flags : UInt32) : BF_set_key p flags = BF_set_key q flags := by
  have hchars : ∀ i < 18, ∀ j < 4, keyChar p (4 * i + j) = keyChar q (4 * i + j) :=
    fun i hi j hj => h (4 * i + j) (by omega)
  have hplain : ∀ i < 18, plainWord (keyChar p) i = plainWord (keyChar q) i :=
    fun i hi => plainWord_eq_iff.mpr (hchars i hi)
  have hsigned : ∀ i < 18, signedWord (keyChar p) i = signedWord (keyChar q) i :=
    fun i hi => signedWord_congr (hchars i hi)
  have hword : ∀ i < 18, keyWord (flags &&& 1 ≠ 0) (keyChar p) i =
      keyWord (flags &&& 1 ≠ 0) (keyChar q) i := by
    intro i hi
    rw [keyWord, keyWord, hplain i hi, hsigned i hi]
  have hdeviates : Deviates (keyChar p) ↔ Deviates (keyChar q) := by
    apply and_congr
    · exact forall₂_congr fun i hi => by rw [hplain i hi, hsigned i hi]
    · apply not_congr
      exact forall₂_congr fun i hi => forall₂_congr fun j hj => by rw [hchars i hi j hj]
  rw [BF_set_key_eq, BF_set_key_eq, Prod.mk.injEq]
  refine ⟨List.map_congr_left fun i hi => hword i (List.mem_range.mp hi), ?_⟩
  simp only [hdeviates]
  refine congrArg (fun l : List UInt32 => List.modify l 0 _) ?_
  exact List.map_congr_left fun i hi => by rw [hword i (List.mem_range.mp hi)]

/-- The words of two keys that are the same. -/
theorem keyWord_eq_of_BF_set_key_eq {p q : Bytes} {flags flags' : UInt32}
    (h : BF_set_key p flags = BF_set_key q flags') {i : Nat} (hi : i < 18) :
    keyWord (flags &&& 1 ≠ 0) (keyChar p) i = keyWord (flags' &&& 1 ≠ 0) (keyChar q) i := by
  rw [BF_set_key_eq, BF_set_key_eq, Prod.mk.injEq, List.map_inj_left] at h
  exact h.1 i (List.mem_range.mpr hi)

/-- Which correct keys are the same: those of passwords that begin alike. -/
theorem BF_set_key_eq_iff {p q : Bytes} (hp : 0 ∉ p) (hq : 0 ∉ q) {flags : UInt32}
    (hflags : flags &&& 1 = 0) :
    BF_set_key p flags = BF_set_key q flags ↔ p.take 72 = q.take 72 := by
  rw [← forall_keyChar_eq_iff hp hq]
  constructor
  · intro h n hn
    have hword := keyWord_eq_of_BF_set_key_eq h (i := n / 4) (by omega)
    simp only [hflags, ne_eq, not_true_eq_false, decide_false, keyWord, Bool.false_eq_true,
      if_false] at hword
    have hchar := plainWord_eq_iff.mp hword (n % 4) (Nat.mod_lt _ (by decide))
    rwa [Nat.div_add_mod] at hchar
  · intro h
    exact BF_set_key_congr h flags

/-- If the P-boxes are the same that two keys start with, both have been changed or none has. -/
theorem deviates_iff_of_BF_set_key_eq {p q : Bytes} {flags flags' : UInt32}
    (h : BF_set_key p flags = BF_set_key q flags') :
    (flags &&& 2 ≠ 0 ∧ Deviates (keyChar p)) ↔ (flags' &&& 2 ≠ 0 ∧ Deviates (keyChar q)) := by
  have hword := keyWord_eq_of_BF_set_key_eq h (i := 0) (by decide)
  rw [BF_set_key_eq, BF_set_key_eq, Prod.mk.injEq] at h
  have hhead := congrArg (fun l => l[0]?) h.2
  simp only [List.getElem?_modify_eq, List.getElem?_map,
    List.getElem?_range (show 0 < 18 by decide), Option.map_eq_map, Option.map_some,
    Option.some.injEq, hword, UInt32.xor_right_inj] at hhead
  constructor
  · intro hdeviates
    by_contra hno
    rw [if_pos hdeviates, if_neg hno] at hhead
    exact absurd hhead (by decide)
  · intro hdeviates
    by_contra hno
    rw [if_pos hdeviates, if_neg hno] at hhead
    exact absurd hhead (by decide)

/-- A key of the subtype `$2a$` is a key of `$2x$` for one password only, and only if that has no
sign bits that count. -/
theorem BF_set_key_safe_eq_bug {p q : Bytes} (hp : 0 ∉ p) (hq : 0 ∉ q) :
    BF_set_key p 2 = BF_set_key q 1 ↔ p.take 72 = q.take 72 ∧ AllUnsigned (keyChar p) := by
  rw [← forall_keyChar_eq_iff hp hq]
  constructor
  · intro h
    have hword : ∀ i < 18, plainWord (keyChar p) i = signedWord (keyChar q) i :=
      fun i hi => keyWord_eq_of_BF_set_key_eq h hi
    have hunsigned : AllUnsigned (keyChar p) := by
      by_contra hsign
      have hdeviates := (deviates_iff_of_BF_set_key_eq h).mp
        ⟨by decide, fun i hi => (signedWord_eq_of_eq (hword i hi)).symm, hsign⟩
      exact hdeviates.1 rfl
    refine ⟨fun n hn => ?_, hunsigned⟩
    have hsame := (hunsigned (n / 4) (by omega)).plainWord_eq (hword (n / 4) (by omega))
    have hchar := plainWord_eq_iff.mp hsame (n % 4) (Nat.mod_lt _ (by decide))
    rwa [Nat.div_add_mod] at hchar
  · rintro ⟨h, hunsigned⟩
    rw [BF_set_key_congr (fun n hn => (h n hn).symm) 1, BF_set_key_eq, BF_set_key_eq]
    have hword : ∀ i ∈ List.range 18, keyWord ((2 : UInt32) &&& 1 ≠ 0) (keyChar p) i =
        keyWord ((1 : UInt32) &&& 1 ≠ 0) (keyChar p) i :=
      fun i hi => (hunsigned i (List.mem_range.mp hi)).signedWord_eq.symm
    rw [if_neg fun hdeviates => hdeviates.2.2 hunsigned, if_neg fun hdeviates => hdeviates.1 rfl,
      Prod.mk.injEq]
    refine ⟨List.map_congr_left hword, congrArg (fun l => List.modify l 0 (· ^^^ 0)) ?_⟩
    exact List.map_congr_left fun i hi => by rw [hword i hi]

/-- What the safety measure is for: a hash of the subtype `$2a$` can be one of `$2x$` by its key for
the same password only. -/
theorem safe_key_eq_bug_key_iff (p q : Bytes) :
    BF_set_key (cString p) (subtypeFlags 'a'.toUInt8) =
        BF_set_key (cString q) (subtypeFlags 'x'.toUInt8) ↔
      (cString p).take 72 = (cString q).take 72 ∧ AllUnsigned (keyChar (cString p)) :=
  BF_set_key_safe_eq_bug (zero_notMem_cString p) (zero_notMem_cString q)

end Nawa.hashing
