import Nawa.Laws.Hashing.BlowfishSelfTest

/-!
# Laws of `crypt_blowfish`, and of the engine with it

Texts of bytes are read back, a hash is a setting that reproduces it, and nothing behind the 72nd
character of a password matters. With these, `passwordVerify_passwordHash` says what the engine does
with the library of the repository: the hash of a password is verified with those passwords that the
cipher does not tell from it. What is documented of the library elsewhere is `documented` here.
-/

namespace Nawa.hashing

/-! ## Letters -/

/-- The parts of a byte in the values of letters. -/
def FitLetters (c : UInt8) : Prop :=
  (c >>> 2).toNat < 64 ∧ ((c &&& 0x03) <<< 4).toNat < 64 ∧ (c >>> 4).toNat < 64 ∧
    ((c &&& 0x0f) <<< 2).toNat < 64 ∧ (c >>> 6).toNat < 64 ∧ (c &&& 0x3f).toNat < 64

/-- What is read of them. -/
def ReadLetters (c : UInt8) : Prop :=
  ((c >>> 2) <<< 2) ||| ((((c &&& 0x03) <<< 4) &&& 0x30) >>> 4) = c ∧
    ((c >>> 4) &&& 0x30) >>> 4 = 0 ∧ (((c &&& 0x03) <<< 4) &&& 0x0F) <<< 4 = 0 ∧
    (((c >>> 4) &&& 0x0F) <<< 4) ||| ((((c &&& 0x0f) <<< 2) &&& 0x3C) >>> 2) = c ∧
    ((c >>> 6) &&& 0x3C) >>> 2 = 0 ∧ (((c &&& 0x0f) <<< 2) &&& 0x03) <<< 6 = 0 ∧
    (((c >>> 6) &&& 0x03) <<< 6) ||| (c &&& 0x3f) = c

instance : DecidablePred FitLetters := fun _ => inferInstanceAs (Decidable (_ ∧ _))

instance : DecidablePred ReadLetters := fun _ => inferInstanceAs (Decidable (_ ∧ _))

theorem atoi_itoa : ∀ v : UInt8, v.toNat < 64 → BF_safe_atoi64 (itoa v) = some v :=
  forall_byte (by decide +kernel)

theorem itoa_ne_zero : ∀ v : UInt8, v.toNat < 64 → itoa v ≠ 0 := forall_byte (by decide +kernel)

theorem atoi_mem : ∀ c : UInt8, ∀ v ∈ BF_safe_atoi64 c,
    v.toNat < 64 ∧ BF_atoi64.getD (c.toNat - 0x20) 64 = v ∧ c ≠ 0 :=
  forall_byte (by decide +kernel)

theorem atoi_spec (c v : UInt8) (h : BF_safe_atoi64 c = some v) :
    v.toNat < 64 ∧ BF_atoi64.getD (c.toNat - 0x20) 64 = v ∧ c ≠ 0 := atoi_mem c v h

theorem bits : ∀ c : UInt8, FitLetters c := forall_byte (by decide +kernel)

theorem bits_read : ∀ c : UInt8, ReadLetters c := forall_byte (by decide +kernel)

theorem two_bits : ∀ c : UInt8,
    (c &&& 0x30).toNat < 64 ∧ (c &&& 0x30) &&& (0x30 : UInt8) = c &&& 0x30 ∧
      ((c &&& 0x03) <<< 4) &&& (0x30 : UInt8) = (c &&& 0x03) <<< 4 :=
  forall_byte (by decide +kernel)

theorem or_and_shiftRight (x y m k : UInt8) :
    ((x ||| y) &&& m) >>> k = ((x &&& m) >>> k) ||| ((y &&& m) >>> k) := by
  apply UInt8.toBitVec_inj.mp
  simp only [UInt8.toBitVec_shiftRight, UInt8.toBitVec_and, UInt8.toBitVec_or,
    BitVec.and_or_distrib_right]
  exact BitVec.ushiftRight_or_distrib _ _ _

theorem or_and_shiftLeft (x y m k : UInt8) :
    ((x ||| y) &&& m) <<< k = ((x &&& m) <<< k) ||| ((y &&& m) <<< k) := by
  apply UInt8.toBitVec_inj.mp
  simp only [UInt8.toBitVec_shiftLeft, UInt8.toBitVec_and, UInt8.toBitVec_or,
    BitVec.and_or_distrib_right]
  exact BitVec.shiftLeft_or_distrib _ _ _

theorem toNat_or_lt {x y : UInt8} (hx : x.toNat < 64) (hy : y.toNat < 64) :
    (x ||| y).toNat < 64 := by
  rw [UInt8.toNat_or]
  exact Nat.or_lt_two_pow (n := 6) hx hy

section Groups

variable (c1 c2 c3 : UInt8)

theorem first_read : ((c1 >>> 2) <<< 2) |||
    (((((c1 &&& 0x03) <<< 4) ||| (c2 >>> 4)) &&& 0x30) >>> 4) = c1 := by
  rw [or_and_shiftRight, (bits_read c2).2.1, UInt8.or_zero, (bits_read c1).1]

theorem second_read : (((((c1 &&& 0x03) <<< 4) ||| (c2 >>> 4)) &&& 0x0F) <<< 4) |||
    (((((c2 &&& 0x0f) <<< 2) ||| (c3 >>> 6)) &&& 0x3C) >>> 2) = c2 := by
  obtain ⟨-, -, -, h2, -⟩ := bits_read c2
  obtain ⟨-, -, -, -, h3, -⟩ := bits_read c3
  rw [or_and_shiftLeft, (bits_read c1).2.2.1, UInt8.zero_or, or_and_shiftRight, h3, UInt8.or_zero,
    h2]

theorem third_read : (((((c2 &&& 0x0f) <<< 2) ||| (c3 >>> 6)) &&& 0x03) <<< 6) ||| (c3 &&& 0x3f) =
    c3 := by
  obtain ⟨-, -, -, -, -, h2, -⟩ := bits_read c2
  obtain ⟨-, -, -, -, -, -, h3⟩ := bits_read c3
  rw [or_and_shiftLeft, h2, UInt8.zero_or, h3]

end Groups

/-- A group of four letters in front of any text. -/
theorem BF_decode_group (c1 c2 c3 : UInt8) (size : Nat) (src : Bytes) :
    BF_decode (size + 3) (itoa (c1 >>> 2) :: itoa (((c1 &&& 0x03) <<< 4) ||| (c2 >>> 4)) ::
        itoa (((c2 &&& 0x0f) <<< 2) ||| (c3 >>> 6)) :: itoa (c3 &&& 0x3f) :: src) =
      (if size = 0 then some [] else BF_decode size src).map
        fun rest => c1 :: c2 :: c3 :: rest := by
  obtain ⟨h1, h2, -⟩ := bits c1
  obtain ⟨-, -, h3, h4, -⟩ := bits c2
  obtain ⟨-, -, -, -, h5, h6⟩ := bits c3
  simp only [BF_decode, charAt, List.getD_cons_zero, List.getD_cons_succ, atoi_itoa _ h1,
    atoi_itoa _ (toNat_or_lt h2 h3), atoi_itoa _ (toNat_or_lt h4 h5), atoi_itoa _ h6,
    Option.bind_eq_bind, Option.bind_some, List.drop_succ_cons, List.drop_zero, first_read,
    second_read, third_read]
  by_cases hsize : size = 0
  · rw [if_pos hsize, if_pos hsize]
    rfl
  · rw [if_neg hsize, if_neg hsize]
    cases BF_decode size src <;> rfl

/-- A text is read back, whatever follows it. -/
theorem BF_decode_encode (bs t : Bytes) (h : bs ≠ []) :
    BF_decode bs.length (BF_encode bs ++ t) = some bs := by
  fun_induction BF_encode bs with
  | case1 => exact absurd rfl h
  | case2 c1 =>
    obtain ⟨h1, h2, -⟩ := bits c1
    simp only [List.length_singleton, BF_decode, charAt, List.cons_append, List.getD_cons_zero,
      List.getD_cons_succ, atoi_itoa _ h1, atoi_itoa _ h2, Option.bind_eq_bind, Option.bind_some,
      (bits_read c1).1]
    rfl
  | case3 c1 c2 =>
    obtain ⟨h1, h2, -⟩ := bits c1
    obtain ⟨-, -, h3, h4, -⟩ := bits c2
    have hsecond := second_read c1 c2 0
    rw [UInt8.zero_shiftRight, UInt8.or_zero] at hsecond
    simp only [List.length_cons, List.length_nil, BF_decode, charAt, List.cons_append,
      List.getD_cons_zero, List.getD_cons_succ, atoi_itoa _ h1, atoi_itoa _ (toNat_or_lt h2 h3),
      atoi_itoa _ h4, Option.bind_eq_bind, Option.bind_some, first_read, hsecond]
    rfl
  | case4 c1 c2 c3 rest ih =>
    rw [List.cons_append, List.cons_append, List.cons_append, List.cons_append]
    refine (BF_decode_group c1 c2 c3 rest.length _).trans ?_
    by_cases hrest : rest = []
    · rw [hrest]
      rfl
    · rw [if_neg (mt List.length_eq_zero_iff.mp hrest), ih hrest]
      rfl

theorem length_BF_encode (bs : Bytes) : (BF_encode bs).length = (4 * bs.length + 2) / 3 := by
  fun_induction BF_encode bs with
  | case1 => rfl
  | case2 => simp only [List.length_cons, List.length_nil]
  | case3 => simp only [List.length_cons, List.length_nil]
  | case4 c1 c2 c3 rest ih =>
    simp only [List.length_cons, ih]
    omega

/-- All letters are characters of a C string. -/
theorem zero_notMem_BF_encode (bs : Bytes) : 0 ∉ BF_encode bs := by
  have hletter : ∀ {v : UInt8}, v.toNat < 64 → (0 : UInt8) ≠ itoa v :=
    fun h => (itoa_ne_zero _ h).symm
  fun_induction BF_encode bs with
  | case1 => exact List.not_mem_nil
  | case2 c1 =>
    obtain ⟨h1, h2, -⟩ := bits c1
    simp only [List.mem_cons, hletter h1, hletter h2, List.not_mem_nil, or_false, not_false_eq_true]
  | case3 c1 c2 =>
    obtain ⟨h1, h2, -⟩ := bits c1
    obtain ⟨-, -, h3, h4, -⟩ := bits c2
    simp only [List.mem_cons, hletter h1, hletter (toNat_or_lt h2 h3), hletter h4,
      List.not_mem_nil, or_false, not_false_eq_true]
  | case4 c1 c2 c3 rest ih =>
    obtain ⟨h1, h2, -⟩ := bits c1
    obtain ⟨-, -, h3, h4, -⟩ := bits c2
    obtain ⟨-, -, -, -, h5, h6⟩ := bits c3
    simp only [List.mem_cons, hletter h1, hletter (toNat_or_lt h2 h3), hletter (toNat_or_lt h4 h5),
      hletter h6, ih, or_false, not_false_eq_true]

/-! ## Salts -/

theorem charAt_drop (s : Bytes) (n i : Nat) : charAt (s.drop n) i = charAt s (n + i) := by
  rw [charAt, charAt, List.getD_eq_getElem?_getD, List.getElem?_drop, List.getD_eq_getElem?_getD]

theorem charAt_append_left {s : Bytes} {i : Nat} (h : i < s.length) (t : Bytes) :
    charAt (s ++ t) i = charAt s i := by
  rw [charAt, charAt, List.getD_append _ _ _ _ h]

theorem lt_length_of_charAt {s : Bytes} {i : Nat} (h : charAt s i ≠ 0) : i < s.length := by
  by_contra hle
  exact h (List.getD_eq_default _ _ (Nat.le_of_not_lt hle))

theorem atoi_zero : BF_safe_atoi64 0 = none := by decide

theorem atoi_lastLetter {c v : UInt8} (h : BF_safe_atoi64 c = some v) :
    BF_safe_atoi64 (lastLetter c) = some (v &&& 0x30) := by
  rw [lastLetter, (atoi_spec c v h).2.1, atoi_itoa _ (two_bits v).1]

/-- What is read first of a text. -/
theorem BF_decode_one_eq_some {s d : Bytes} (h : BF_decode 1 s = some d) :
    ∃ a b rest c1 c2, s = a :: b :: rest ∧ BF_safe_atoi64 a = some c1 ∧
      BF_safe_atoi64 b = some c2 ∧ d = [(c1 <<< 2) ||| ((c2 &&& 0x30) >>> 4)] := by
  obtain _ | ⟨a, _ | ⟨b, rest⟩⟩ := s
  · cases h
  · simp only [BF_decode, charAt, List.getD_cons_zero, List.getD_cons_succ, List.getD_nil,
      atoi_zero] at h
    cases hc : BF_safe_atoi64 a <;> rw [hc] at h <;> cases h
  · simp only [BF_decode, charAt, List.getD_cons_zero, List.getD_cons_succ] at h
    obtain ⟨c1, hc1, h⟩ := Option.bind_eq_some_iff.mp h
    obtain ⟨c2, hc2, h⟩ := Option.bind_eq_some_iff.mp h
    exact ⟨a, b, rest, c1, c2, rfl, hc1, hc2, (Option.some.inj h).symm⟩

theorem exists_four {s : Bytes} (h : 3 < s.length) :
    ∃ a1 a2 a3 a4 rest, s = a1 :: a2 :: a3 :: a4 :: rest := by
  obtain _ | ⟨a1, _ | ⟨a2, _ | ⟨a3, _ | ⟨a4, rest⟩⟩⟩⟩ := s
  case cons.cons.cons.cons => exact ⟨a1, a2, a3, a4, rest, rfl⟩
  all_goals
    simp only [List.length_cons, List.length_nil] at h
    omega

/-- What is read first of a longer one. -/
theorem BF_decode_succ_eq_some {size : Nat} {s d : Bytes}
    (h : BF_decode (size + 1 + 3) s = some d) :
    ∃ a1 a2 a3 a4 rest group d', s = a1 :: a2 :: a3 :: a4 :: rest ∧ group.length = 3 ∧
      0 ∉ [a1, a2, a3, a4] ∧ BF_decode (size + 1) rest = some d' ∧ d = group ++ d' ∧
      ∀ t, BF_decode (size + 1 + 3) (a1 :: a2 :: a3 :: a4 :: t) =
        (BF_decode (size + 1) t).map (group ++ ·) := by
  have hstep : ∀ s, BF_decode (size + 1 + 3) s = (BF_safe_atoi64 (charAt s 0)).bind fun c1 =>
      (BF_safe_atoi64 (charAt s 1)).bind fun c2 => (BF_safe_atoi64 (charAt s 2)).bind fun c3 =>
        (BF_safe_atoi64 (charAt s 3)).bind fun c4 =>
          (BF_decode (size + 1) (s.drop 4)).map
            ([(c1 <<< 2) ||| ((c2 &&& 0x30) >>> 4), ((c2 &&& 0x0F) <<< 4) ||| ((c3 &&& 0x3C) >>> 2),
              ((c3 &&& 0x03) <<< 6) ||| c4] ++ ·) := by
    intro s
    simp only [BF_decode, Nat.add_eq_zero_iff, one_ne_zero, and_false, if_false,
      Option.map_eq_bind]
    rfl
  rw [hstep] at h
  obtain ⟨c1, hc1, h⟩ := Option.bind_eq_some_iff.mp h
  obtain ⟨c2, hc2, h⟩ := Option.bind_eq_some_iff.mp h
  obtain ⟨c3, hc3, h⟩ := Option.bind_eq_some_iff.mp h
  obtain ⟨c4, hc4, h⟩ := Option.bind_eq_some_iff.mp h
  obtain ⟨d', hd', hd⟩ := Option.map_eq_some_iff.mp h
  have hlen := lt_length_of_charAt (atoi_spec _ _ hc4).2.2
  obtain ⟨a1, a2, a3, a4, rest, rfl⟩ := exists_four hlen
  refine ⟨a1, a2, a3, a4, rest, _, d', rfl, rfl, ?_, hd', hd.symm, ?_⟩
  · have h1 := (atoi_spec _ _ hc1).2.2
    have h2 := (atoi_spec _ _ hc2).2.2
    have h3 := (atoi_spec _ _ hc3).2.2
    have h4 := (atoi_spec _ _ hc4).2.2
    simp only [List.mem_cons, List.not_mem_nil, or_false, not_or]
    exact ⟨h1.symm, h2.symm, h3.symm, h4.symm⟩
  · intro t
    rw [hstep]
    show (BF_safe_atoi64 a1).bind _ = _
    rw [show BF_safe_atoi64 a1 = some c1 from hc1, Option.bind_some]
    show (BF_safe_atoi64 a2).bind _ = _
    rw [show BF_safe_atoi64 a2 = some c2 from hc2, Option.bind_some]
    show (BF_safe_atoi64 a3).bind _ = _
    rw [show BF_safe_atoi64 a3 = some c3 from hc3, Option.bind_some]
    show (BF_safe_atoi64 a4).bind _ = _
    rw [show BF_safe_atoi64 a4 = some c4 from hc4, Option.bind_some]
    rfl

/-- Of a text that spells `3 * k + 1` bytes, `4 * k + 2` letters are read, and of the last one two
bits are used. -/
theorem BF_decode_eq_some {k : Nat} {s d : Bytes} (h : BF_decode (3 * k + 1) s = some d) :
    d.length = 3 * k + 1 ∧ 4 * k + 2 ≤ s.length ∧ 0 ∉ s.take (4 * k + 2) ∧
      (∃ v, BF_safe_atoi64 (charAt s (4 * k + 1)) = some v) ∧
      ∀ t, BF_decode (3 * k + 1) (s.take (4 * k + 1) ++ lastLetter (charAt s (4 * k + 1)) :: t) =
        some d := by
  induction k generalizing s d with
  | zero =>
    obtain ⟨a, b, rest, c1, c2, rfl, hc1, hc2, rfl⟩ := BF_decode_one_eq_some h
    have ha := (atoi_spec a c1 hc1).2.2
    have hb := (atoi_spec b c2 hc2).2.2
    refine ⟨rfl, Nat.le_add_left _ _, ?_, ⟨c2, hc2⟩, fun t => ?_⟩
    · simp only [Nat.mul_zero, Nat.zero_add, List.take_succ_cons, List.take_zero, List.mem_cons,
        List.not_mem_nil, or_false, not_or]
      exact ⟨ha.symm, hb.symm⟩
    · show (BF_safe_atoi64 a).bind (fun c1 => (BF_safe_atoi64 (lastLetter b)).bind fun c2 =>
        some [(c1 <<< 2) ||| ((c2 &&& 0x30) >>> 4)]) = _
      rw [hc1, atoi_lastLetter hc2, Option.bind_some, Option.bind_some, (two_bits c2).2.1]
  | succ k ih =>
    obtain ⟨a1, a2, a3, a4, rest, group, d', rfl, hgroup, hzero, hd', rfl, hstep⟩ :=
      BF_decode_succ_eq_some (show BF_decode (3 * k + 1 + 3) s = some d from h)
    obtain ⟨hlen, hle, hnot, hletter, hlast⟩ := ih hd'
    refine ⟨?_, ?_, ?_, hletter, fun t => ?_⟩
    · rw [List.length_append, hgroup, hlen]
      omega
    · simp only [List.length_cons]
      omega
    · rw [show 4 * (k + 1) + 2 = 4 * k + 2 + 1 + 1 + 1 + 1 by omega]
      simp only [List.take_succ_cons]
      intro hmem
      exact (List.mem_append.mp (show (0 : UInt8) ∈ [a1, a2, a3, a4] ++ rest.take (4 * k + 2) from
        hmem)).elim hzero hnot
    · have htake : (a1 :: a2 :: a3 :: a4 :: rest).take (4 * (k + 1) + 1) =
          a1 :: a2 :: a3 :: a4 :: rest.take (4 * k + 1) := by
        rw [show 4 * (k + 1) + 1 = 4 * k + 1 + 1 + 1 + 1 + 1 by omega]
        simp only [List.take_succ_cons]
      rw [htake]
      exact (hstep _).trans (congrArg (Option.map (group ++ ·)) (hlast t))

/-! ## Hashes -/

theorem lastLetter_idem {c v : UInt8} (h : BF_safe_atoi64 c = some v) :
    lastLetter (lastLetter c) = lastLetter c := by
  rw [lastLetter, (atoi_spec _ _ (atoi_lastLetter h)).2.1, (two_bits v).2.1, lastLetter,
    (atoi_spec _ _ h).2.1]

/-- What a setting is read for, when nothing is read behind it. -/
theorem accepts_congr {s t : Bytes} (h : ∀ i < 28, charAt s i = charAt t i) :
    acceptsSetting s = acceptsSetting t ∧ settingCount s = settingCount t ∧
      subtypeFlags (charAt s 2) = subtypeFlags (charAt t 2) := by
  rw [acceptsSetting, acceptsSetting, settingCount, settingCount]
  simp only [h 0 (by decide), h 1 (by decide), h 2 (by decide), h 3 (by decide), h 4 (by decide),
    h 5 (by decide), h 6 (by decide), and_self]

/-- The parts of a setting that is hashed with. -/
structure Setting (setting : Bytes) (min : Nat) where
  salt : Bytes
  accepts : acceptsSetting setting = true
  strong : min ≤ settingCount setting
  decoded : BF_decode 16 (setting.drop 7) = some salt

namespace Setting

variable {setting : Bytes} {min : Nat} (p : Setting setting min)

/-- The hash of a key with it. -/
def output (key : Bytes) : Bytes :=
  setting.take 28 ++ lastLetter (charAt setting 28) ::
    hashText key (subtypeFlags (charAt setting 2)) ((words p.salt).map BF_swap)
      (settingCount setting)

theorem BF_crypt_eq_some (key : Bytes) : BF_crypt key setting min = some (p.output key) := by
  rw [BF_crypt_eq, if_pos ⟨p.accepts, p.strong⟩, p.decoded, Option.map_some, List.append_assoc]
  rfl

include p

theorem salt_spec : p.salt.length = 16 ∧ 22 ≤ (setting.drop 7).length ∧
    0 ∉ (setting.drop 7).take 22 ∧ (∃ v, BF_safe_atoi64 (charAt (setting.drop 7) 21) = some v) ∧
    ∀ t, BF_decode 16 ((setting.drop 7).take 21 ++ lastLetter (charAt (setting.drop 7) 21) :: t) =
      some p.salt :=
  BF_decode_eq_some (k := 5) p.decoded

theorem le_length : 29 ≤ setting.length := by
  have := p.salt_spec.2.1
  rw [List.length_drop] at this
  omega

/-- The letter that is not copied as it is. -/
theorem exists_letter : ∃ v, BF_safe_atoi64 (charAt setting 28) = some v := by
  have hletter := p.salt_spec.2.2.2.1
  rwa [charAt_drop] at hletter

theorem length_take : (setting.take 28).length = 28 := by
  rw [List.length_take]
  have := p.le_length
  omega

/-- What a hash has of its setting. -/
theorem charAt_output (key : Bytes) {i : Nat} (hi : i < 28) :
    charAt (p.output key) i = charAt setting i := by
  rw [output, charAt_append_left (p.length_take.symm ▸ hi), charAt, List.getD_eq_getElem?_getD,
    List.getElem?_take_of_lt hi, charAt, List.getD_eq_getElem?_getD]

theorem charAt_output_last (key : Bytes) :
    charAt (p.output key) 28 = lastLetter (charAt setting 28) := by
  rw [output, charAt, List.getD_append_right _ _ _ _ p.length_take.le, p.length_take]
  rfl

/-- A hash is a setting with the same salt. -/
def ofOutput (key : Bytes) : Setting (p.output key) min where
  salt := p.salt
  accepts := (accepts_congr fun _ hi => p.charAt_output key hi).1.trans p.accepts
  strong := by
    rw [(accepts_congr fun _ hi => p.charAt_output key hi).2.1]
    exact p.strong
  decoded := by
    have hdrop : (p.output key).drop 7 = (setting.drop 7).take 21 ++
        lastLetter (charAt (setting.drop 7) 21) :: hashText key (subtypeFlags (charAt setting 2))
          ((words p.salt).map BF_swap) (settingCount setting) := by
      rw [output, List.drop_append_of_le_length (by rw [p.length_take]; decide), List.drop_take,
        charAt_drop]
    rw [hdrop]
    exact p.salt_spec.2.2.2.2 _

/-- It makes the same hashes as its setting. -/
theorem output_ofOutput (key key' : Bytes) : (p.ofOutput key).output key' = p.output key' := by
  obtain ⟨-, hcount, hflags⟩ := accepts_congr fun _ hi => p.charAt_output key hi
  obtain ⟨v, hv⟩ := p.exists_letter
  have htake : (p.output key).take 28 = setting.take 28 := by
    rw [output, List.take_append_of_le_length p.length_take.ge, List.take_take]
    rfl
  rw [output, htake, p.charAt_output_last, lastLetter_idem hv, hflags, hcount]
  rfl

end Setting

/-- Whether there is a hash does not depend on the key. -/
theorem exists_setting {key setting output : Bytes} {min : Nat}
    (h : BF_crypt key setting min = some output) :
    ∃ p : Setting setting min, output = p.output key := by
  have hcrypt := h
  rw [BF_crypt_eq] at h
  by_cases hif : acceptsSetting setting = true ∧ min ≤ settingCount setting
  · rw [if_pos hif] at h
    obtain ⟨salt, hsalt, -⟩ := Option.map_eq_some_iff.mp h
    refine ⟨⟨salt, hif.1, hif.2, hsalt⟩, Option.some.inj ?_⟩
    rw [← Setting.BF_crypt_eq_some, hcrypt]
  · rw [if_neg hif] at h
    cases h

/-- A hash of a password, as a setting, makes the same hash of any password as the setting that it
has been made with. -/
theorem BF_crypt_bind (key key' setting : Bytes) (min : Nat) :
    (BF_crypt key setting min).bind (fun output => BF_crypt key' output min) =
      BF_crypt key' setting min := by
  cases h : BF_crypt key setting min with
  | none =>
    cases h' : BF_crypt key' setting min with
    | none => rfl
    | some output =>
      obtain ⟨p, -⟩ := exists_setting h'
      rw [p.BF_crypt_eq_some] at h
      cases h
  | some output =>
    obtain ⟨p, rfl⟩ := exists_setting h
    rw [Option.bind_some, (p.ofOutput key).BF_crypt_eq_some, p.output_ofOutput, p.BF_crypt_eq_some]

theorem length_memory (ws : List UInt32) : (memory ws).length = 4 * ws.length := by
  induction ws with
  | nil => rfl
  | cons w ws ih =>
    rw [memory, List.flatMap_cons, List.length_append, ← memory, ih, List.length_cons]
    simp only [List.length_cons, List.length_nil]
    omega

theorem length_BF_hash (key : Bytes) (flags : UInt32) (salt : List UInt32) (count : Nat) :
    (BF_hash key flags salt count).length = 6 := rfl

/-- The bytes that a hash spells. -/
def digest (key : Bytes) (flags : UInt32) (salt : Bytes) (count : Nat) : Bytes :=
  (memory ((BF_hash key flags ((words salt).map BF_swap) count).map BF_swap)).take 23

theorem length_digest (key : Bytes) (flags : UInt32) (salt : Bytes) (count : Nat) :
    (digest key flags salt count).length = 23 := by
  rw [digest, List.length_take, length_memory, List.length_map, length_BF_hash]
  rfl

namespace Setting

variable {setting : Bytes} {min : Nat} (p : Setting setting min)

theorem length_output (key : Bytes) : (p.output key).length = 60 := by
  rw [output, List.length_append, p.length_take, List.length_cons, hashText, length_BF_encode,
    ← digest, length_digest]

theorem accepts_ne_zero (h : acceptsSetting setting = true) : ∀ i < 7, charAt setting i ≠ 0 := by
  have hdigit : ∀ c : UInt8, '0'.toUInt8 ≤ c → c ≠ 0 := by
    intro c hc hzero
    rw [hzero] at hc
    exact absurd hc (by decide)
  have hsubtype : ∀ c : UInt8, subtypeFlags c ≠ 0 → c ≠ 0 := by
    intro c hc hzero
    rw [hzero] at hc
    exact hc (by decide)
  obtain ⟨h0, h1, h2, h3, h4, h5, -, h6⟩ := of_decide_eq_true h
  intro i hi
  obtain rfl | rfl | rfl | rfl | rfl | rfl | rfl :
    i = 0 ∨ i = 1 ∨ i = 2 ∨ i = 3 ∨ i = 4 ∨ i = 5 ∨ i = 6 := by omega
  · exact h0.symm ▸ by decide
  · exact h1.symm ▸ by decide
  · exact hsubtype _ h2
  · exact h3.symm ▸ by decide
  · exact hdigit _ h4.1
  · exact hdigit _ h5.1
  · exact h6.symm ▸ by decide

/-- A hash is a C string. -/
theorem zero_notMem_output (key : Bytes) : 0 ∉ p.output key := by
  obtain ⟨v, hv⟩ := p.exists_letter
  have hlast : lastLetter (charAt setting 28) ≠ 0 := (atoi_spec _ _ (atoi_lastLetter hv)).2.2
  have hsplit : setting.take 28 = setting.take 7 ++ (setting.drop 7).take 21 :=
    List.take_add (i := 7) (j := 21)
  have hhead : 0 ∉ setting.take 7 := by
    intro hmem
    obtain ⟨i, hi, hzero⟩ := List.mem_iff_getElem.mp hmem
    have hlt : i < 7 := lt_of_lt_of_le hi (List.length_take_le _ _)
    rw [List.getElem_take] at hzero
    have hlen := p.le_length
    apply accepts_ne_zero p.accepts i hlt
    rw [charAt, List.getD_eq_getElem _ _ (by omega), hzero]
  have hsalt : 0 ∉ (setting.drop 7).take 21 := fun hmem =>
    p.salt_spec.2.2.1 ((List.take_subset_take_left _ (by decide)) hmem)
  rw [output, hsplit]
  intro hmem
  rcases List.mem_append.mp hmem with hmem | hmem
  · exact (List.mem_append.mp hmem).elim hhead hsalt
  · rcases List.mem_cons.mp hmem with hmem | hmem
    · exact hlast hmem.symm
    · exact zero_notMem_BF_encode _ hmem

theorem take_output (key : Bytes) : (p.output key).take 4 = setting.take 4 := by
  rw [output, List.take_append_of_le_length (by rw [p.length_take]; decide), List.take_take]
  rfl

end Setting

/-! ## Settings -/

/-- A setting of a subtype, a work factor below 32, and a salt. -/
def settingText (kind : UInt8) (cost : Nat) (salt : Bytes) : Bytes :=
  '$'.toUInt8 :: '2'.toUInt8 :: kind :: '$'.toUInt8 :: UInt8.ofNat (48 + cost / 10) ::
    UInt8.ofNat (48 + cost % 10) :: '$'.toUInt8 :: BF_encode salt

/-- A setting is made of a work factor that can be one and of the first bytes of the input. -/
theorem gensalt_eq (count : Nat) (input : Bytes) :
    crypt_gensalt_rn (bytes "$2a$") count input =
      if 16 ≤ input.length ∧ (count = 0 ∨ (4 ≤ count ∧ count < 32)) then
        some (settingText 'a'.toUInt8 (if count = 0 then 5 else count) (input.take 16))
      else none := by
  have hkind : crypt_gensalt_rn (bytes "$2a$") count input =
      _crypt_gensalt_blowfish_rn (bytes "$2a$") count input := if_pos (.inl rfl)
  have hchars : charAt (bytes "$2a$") 0 = '$'.toUInt8 ∧ charAt (bytes "$2a$") 1 = '2'.toUInt8 ∧
      charAt (bytes "$2a$") 2 = 'a'.toUInt8 := by decide
  rw [hkind, _crypt_gensalt_blowfish_rn]
  simp only [hchars, ne_eq, not_true_eq_false, false_and, or_false]
  by_cases h : 16 ≤ input.length ∧ (count = 0 ∨ (4 ≤ count ∧ count < 32))
  · rw [if_neg (by omega), if_pos h]
    rfl
  · rw [if_pos (by omega), if_neg h]

/-- The last letter of `3 * k + 1` bytes is one that is copied as it is. -/
theorem lastLetter_BF_encode {k : Nat} {bs : Bytes} (h : bs.length = 3 * k + 1) :
    lastLetter (charAt (BF_encode bs) (4 * k + 1)) = charAt (BF_encode bs) (4 * k + 1) := by
  have hletter : ∀ c : UInt8, lastLetter (itoa ((c &&& 0x03) <<< 4)) =
      itoa ((c &&& 0x03) <<< 4) := fun c => by
    rw [lastLetter, (atoi_spec _ _ (atoi_itoa _ (bits c).2.1)).2.1, (two_bits c).2.2]
  induction k generalizing bs with
  | zero =>
    obtain ⟨c, rfl⟩ := List.length_eq_one_iff.mp h
    exact hletter c
  | succ k ih =>
    obtain ⟨c1, c2, c3, c4, rest, rfl⟩ := exists_four (s := bs) (by omega)
    simp only [List.length_cons] at h
    rw [BF_encode, show 4 * (k + 1) + 1 = 4 * k + 1 + 1 + 1 + 1 + 1 by omega]
    simp only [charAt, List.getD_cons_succ]
    refine @ih (c4 :: rest) ?_
    rw [List.length_cons]
    omega

/-- The digits of a work factor are such as settings have, and they spell it. -/
theorem costDigits (cost : Fin 32) :
    ('0'.toUInt8 ≤ UInt8.ofNat (48 + cost / 10) ∧ UInt8.ofNat (48 + cost / 10) ≤ '3'.toUInt8) ∧
      ('0'.toUInt8 ≤ UInt8.ofNat (48 + cost % 10) ∧ UInt8.ofNat (48 + cost % 10) ≤ '9'.toUInt8) ∧
      ¬ (UInt8.ofNat (48 + cost / 10) = '3'.toUInt8 ∧
        '1'.toUInt8 < UInt8.ofNat (48 + cost % 10)) ∧
      ((UInt8.ofNat (48 + cost / 10)).toNat - 48) * 10 +
        ((UInt8.ofNat (48 + cost % 10)).toNat - 48) = cost := by
  revert cost
  decide +kernel

section SettingText

variable {kind : UInt8} {cost : Nat} {salt : Bytes}

theorem settingCount_settingText (h : cost < 32) :
    settingCount (settingText kind cost salt) = 2 ^ cost :=
  congrArg (2 ^ ·) (costDigits ⟨cost, h⟩).2.2.2

theorem length_settingText (h : salt.length = 16) : (settingText kind cost salt).length = 29 := by
  rw [settingText]
  simp only [List.length_cons, length_BF_encode, h]

theorem zero_notMem_settingText (hkind : kind ≠ 0) (hcost : cost < 32) :
    0 ∉ settingText kind cost salt := by
  have hdigit : ∀ c : UInt8, '0'.toUInt8 ≤ c → (0 : UInt8) ≠ c := by
    rintro c hc rfl
    exact absurd hc (by decide)
  simp only [settingText, List.mem_cons, not_or]
  exact ⟨by decide, by decide, hkind.symm, by decide, hdigit _ (costDigits ⟨cost, hcost⟩).1.1,
    hdigit _ (costDigits ⟨cost, hcost⟩).2.1.1, by decide, zero_notMem_BF_encode salt⟩

/-- Such a setting is hashed with. -/
def settingOfText (hkind : subtypeFlags kind ≠ 0) (hcost : 4 ≤ cost ∧ cost < 32)
    (hsalt : salt.length = 16) : Setting (settingText kind cost salt) 16 where
  salt := salt
  accepts := by
    obtain ⟨htens, hones, hrange, -⟩ := costDigits ⟨cost, hcost.2⟩
    exact decide_eq_true ⟨rfl, rfl, hkind, rfl, htens, hones, hrange, rfl⟩
  strong := by
    rw [settingCount_settingText hcost.2]
    exact Nat.pow_le_pow_right (show 0 < 2 by decide) hcost.1
  decoded := by
    have h := BF_decode_encode salt [] (List.ne_nil_of_length_eq_add_one hsalt)
    rwa [hsalt, List.append_nil] at h

theorem output_settingOfText (hkind : subtypeFlags kind ≠ 0) (hcost : 4 ≤ cost ∧ cost < 32)
    (hsalt : salt.length = 16) (key : Bytes) :
    (settingOfText hkind hcost hsalt).output key =
      settingText kind cost salt ++ BF_encode (digest key (subtypeFlags kind) salt (2 ^ cost)) := by
  have hlen : (settingText kind cost salt).length = 29 := length_settingText hsalt
  have hlast : lastLetter (charAt (settingText kind cost salt) 28) =
      charAt (settingText kind cost salt) 28 := lastLetter_BF_encode (k := 5) hsalt
  have htake : (settingText kind cost salt).take 28 ++ [charAt (settingText kind cost salt) 28] =
      settingText kind cost salt := by
    rw [charAt, List.getD_eq_getElem _ _ (by omega), List.take_concat_get' _ _ (by omega),
      List.take_of_length_le hlen.le]
  rw [Setting.output, hlast, settingCount_settingText hcost.2, List.append_cons, htake]
  rfl

end SettingText

/-- The library of the repository is what is documented of it. -/
theorem documented : vendoredCrypt.Documented where
  gensalt := by
    intro workf input setting h
    rw [show vendoredCrypt.crypt_gensalt_rn = crypt_gensalt_rn from rfl, gensalt_eq] at h
    split at h
    · next hcount =>
      obtain rfl := Option.some.inj h
      exact ⟨zero_notMem_settingText (by decide) (by split <;> omega), rfl⟩
    · cases h
  hash := by
    intro key setting output h
    rw [show vendoredCrypt.crypt_rn = _crypt_blowfish_rn from rfl, _crypt_blowfish_rn_eq] at h
    obtain ⟨p, rfl⟩ := exists_setting h
    exact ⟨p.zero_notMem_output key, p.length_output key, p.take_output key⟩
  reproduces := by
    intro key setting output h
    have hbind := BF_crypt_bind key key setting 16
    rw [show vendoredCrypt.crypt_rn = _crypt_blowfish_rn from rfl, _crypt_blowfish_rn_eq] at h ⊢
    rwa [h, Option.bind_some] at hbind

theorem BF_encode_inj {bs cs : Bytes} (hlen : bs.length = cs.length)
    (h : BF_encode bs = BF_encode cs) (hne : bs ≠ []) : bs = cs := by
  have hcs : cs ≠ [] := by
    rintro rfl
    exact hne (List.length_eq_zero_iff.mp hlen)
  have hbs := BF_decode_encode bs [] hne
  rw [h, hlen, BF_decode_encode cs [] hcs] at hbs
  exact (Option.some.inj hbs).symm

/-- Nothing behind the 72nd character of a key matters. -/
theorem BF_crypt_take {key : Bytes} (h : 0 ∉ key) (setting : Bytes) (min : Nat) :
    BF_crypt (key.take 72) setting min = BF_crypt key setting min := by
  have hkey : ∀ flags, BF_set_key (key.take 72) flags = BF_set_key key flags := by
    intro flags
    apply BF_set_key_congr
    rw [forall_keyChar_eq_iff (fun hmem => h (List.mem_of_mem_take hmem)) h, List.take_take]
    rfl
  simp only [BF_crypt_eq, hashText, BF_hash, hkey]

/-! ## The engine -/

theorem vendoredCrypt_crypt_rn_eq : vendoredCrypt.crypt_rn = fun key setting =>
    BF_crypt key setting 16 := by
  funext key setting
  exact _crypt_blowfish_rn_eq key setting

namespace BcryptHashingEngine

/-- The work factor that a salt is made with. -/
def effectiveFactor (workFactor : Int) : Nat :=
  if workFactor < 4 ∨ 31 < workFactor then 12 else workFactor.toNat

theorem effectiveFactor_lt (workFactor : Int) :
    4 ≤ effectiveFactor workFactor ∧ effectiveFactor workFactor < 32 := by
  rw [effectiveFactor]
  split <;> omega

/-- What the engine stores for a password. -/
def storedHash (kind : UInt8) (factor : Nat) (salt p : Bytes) : Bytes :=
  settingText kind factor salt ++
    BF_encode (digest (cString p) (subtypeFlags kind) salt (2 ^ factor))

theorem generateHash_eq {s : Surroundings} {salt : Bytes} (hurandom : s.urandom = .ok salt)
    (hsalt : salt.length = 16) (workFactor : Int) (p : Bytes) :
    generateHash vendoredCrypt { workFactor := workFactor } s p =
      .ok (storedHash 'a'.toUInt8 (effectiveFactor workFactor) salt p) := by
  have hfactor := effectiveFactor_lt workFactor
  have hgensalt : vendoredCrypt.crypt_gensalt_rn (bytes "$2a$") (effectiveFactor workFactor) salt =
      some (settingText 'a'.toUInt8 (effectiveFactor workFactor) salt) := by
    refine (gensalt_eq _ _).trans ?_
    rw [if_pos ⟨hsalt.ge, .inr hfactor⟩, if_neg (by omega), List.take_of_length_le hsalt.le]
  have hkind : subtypeFlags 'a'.toUInt8 ≠ 0 := by decide
  have hcrypt := (settingOfText hkind hfactor hsalt).BF_crypt_eq_some (cString p)
  rw [output_settingOfText hkind hfactor hsalt, ← storedHash] at hcrypt
  have hlen : (storedHash 'a'.toUInt8 (effectiveFactor workFactor) salt p).length = 60 := by
    rw [storedHash, List.length_append, length_settingText hsalt, length_BF_encode, length_digest]
  have hprepare : prepare vendoredCrypt { workFactor := workFactor } s.urandom =
      .ok (Buffer.uninitialised.write
        (settingText 'a'.toUInt8 (effectiveFactor workFactor) salt ++ [0]),
        Buffer.uninitialised) := by
    rw [prepare, if_neg (not_not_intro rfl), hurandom]
    simp only [bcrypt_gensalt]
    rw [← effectiveFactor, hgensalt]
    rfl
  have hzero : 0 ∉ settingText 'a'.toUInt8 (effectiveFactor workFactor) salt :=
    zero_notMem_settingText (by decide) hfactor.2
  have htaken := take_read_write Buffer.uninitialised s.hash
    (storedHash 'a'.toUInt8 (effectiveFactor workFactor) salt p)
  rw [hlen] at htaken
  rw [generateHash, hprepare]
  simp only [Except.bind, cString_read_write _ _ hzero, bcrypt_hashpw, vendoredCrypt_crypt_rn_eq,
    hcrypt, ne_eq, not_true_eq_false, if_false, htaken]

theorem verifyHash_storedHash {kind : UInt8} (hkind : subtypeFlags kind ≠ 0) {factor : Nat}
    (hfactor : 4 ≤ factor ∧ factor < 32) {salt : Bytes} (hsalt : salt.length = 16)
    (s : Surroundings) (p q : Bytes) :
    verifyHash vendoredCrypt s q (storedHash kind factor salt p) =
      decide (digest (cString q) (subtypeFlags kind) salt (2 ^ factor) =
        digest (cString p) (subtypeFlags kind) salt (2 ^ factor)) := by
  have hstored : ∀ p, (settingOfText hkind hfactor hsalt).output (cString p) =
      storedHash kind factor salt p := fun p => output_settingOfText hkind hfactor hsalt _
  have hzero := (settingOfText hkind hfactor hsalt).zero_notMem_output (cString p)
  have hcrypt := ((settingOfText hkind hfactor hsalt).ofOutput (cString p)).BF_crypt_eq_some
    (cString q)
  rw [Setting.output_ofOutput] at hcrypt
  simp only [hstored] at hzero hcrypt
  apply Bool.eq_iff_iff.mpr
  rw [verifyHash_iff documented s hzero, vendoredCrypt_crypt_rn_eq, decide_eq_true_eq]
  simp only [hcrypt, Option.some.injEq]
  rw [storedHash, storedHash, List.append_cancel_left_eq]
  constructor
  · intro h
    apply BF_encode_inj _ h
    · exact List.ne_nil_of_length_eq_add_one (length_digest _ _ _ _)
    · rw [length_digest, length_digest]
  · exact congrArg BF_encode

/-- Of a password, nothing counts but its first 72 characters as a C string. Two passwords have one
key exactly if these are the same. -/
theorem password_take (p q : Bytes) :
    (∀ engine s, generateHash vendoredCrypt engine s ((cString p).take 72) =
        generateHash vendoredCrypt engine s p) ∧
      (∀ s h, verifyHash vendoredCrypt s ((cString p).take 72) h =
        verifyHash vendoredCrypt s p h) ∧
      (BF_set_key (cString p) (subtypeFlags 'a'.toUInt8) =
          BF_set_key (cString q) (subtypeFlags 'a'.toUInt8) ↔
        (cString p).take 72 = (cString q).take 72) := by
  have hzero := zero_notMem_cString p
  have hcString : cString ((cString p).take 72) = (cString p).take 72 :=
    cString_eq_self fun hmem => hzero (List.mem_of_mem_take hmem)
  have hhashpw : ∀ setting hash, bcrypt_hashpw vendoredCrypt ((cString p).take 72) setting hash =
      bcrypt_hashpw vendoredCrypt (cString p) setting hash := by
    intro setting hash
    rw [bcrypt_hashpw, bcrypt_hashpw, vendoredCrypt_crypt_rn_eq]
    simp only [BF_crypt_take hzero]
  refine ⟨fun engine s => ?_, fun s h => ?_, ?_⟩
  · simp only [generateHash, hcString, hhashpw]
  · rw [verifyHash, verifyHash, bcrypt_checkpw, bcrypt_checkpw, hcString, hhashpw]
  · exact BF_set_key_eq_iff hzero (zero_notMem_cString q) (by decide)

end BcryptHashingEngine

/-- A hash is as good a setting as the one that it has been made with, whatever is hashed. -/
theorem crypt_rn_bind (p q setting : Bytes) :
    (vendoredCrypt.crypt_rn p setting).bind (vendoredCrypt.crypt_rn q) =
      vendoredCrypt.crypt_rn q setting := by
  rw [vendoredCrypt_crypt_rn_eq]
  exact BF_crypt_bind p q setting 16

end Nawa.hashing

/-! ## Passwords -/

namespace Nawa.crypto

open hashing
open BcryptHashingEngine (storedHash effectiveFactor)

/-- What is stored for a password has the random salt, the work factor and the digest in it; it is
verified with the passwords that have this digest with them. -/
theorem passwordVerify_passwordHash (argon2 : Argon2) (workFactor : Int) (salt : Fin 16 → UInt8)
    (s : Surroundings) (p : Bytes) :
    passwordHash ⟨vendoredCrypt, argon2⟩
        { s with bcrypt := { s.bcrypt with urandom := .ok (List.ofFn salt) } } p
        (.bcrypt { workFactor := workFactor }) =
      .ok (storedHash 'a'.toUInt8 (effectiveFactor workFactor) (List.ofFn salt) p) ∧
    ∀ (s' : Surroundings) (q : Bytes),
      passwordVerify ⟨vendoredCrypt, argon2⟩ s' q
          (storedHash 'a'.toUInt8 (effectiveFactor workFactor) (List.ofFn salt) p) getEngine =
        .ok (decide (
          digest (cString q) 2 (List.ofFn salt) (2 ^ effectiveFactor workFactor) =
            digest (cString p) 2 (List.ofFn salt) (2 ^ effectiveFactor workFactor))) := by
  have hsalt : (List.ofFn salt).length = 16 := List.length_ofFn
  constructor
  · exact BcryptHashingEngine.generateHash_eq rfl hsalt workFactor p
  · intro s' q
    have hkind : (storedHash 'a'.toUInt8 (effectiveFactor workFactor) (List.ofFn salt) p).take 4 =
        bytes "$2a$" := by
      rw [storedHash, settingText]
      rfl
    rw [passwordVerify_bcrypt s' q hkind, BcryptHashingEngine.verifyHash_storedHash (by decide)
      (BcryptHashingEngine.effectiveFactor_lt workFactor) hsalt]
    rfl

end Nawa.crypto
