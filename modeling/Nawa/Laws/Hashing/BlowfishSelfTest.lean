import Nawa.Lib.PackedWords
import Nawa.Laws.Hashing.BlowfishKeys
import Nawa.Laws.Util.Bytes

/-!
# The self-test of `crypt_blowfish`

The library computes one known hash after each hash that it is asked for, and answers nothing if
that fails. `selfTest_some` says that it never fails, so that `_crypt_blowfish_rn` is `BF_crypt`.
The cipher is carried out on packed words for this: `Holds` relates these to the arrays, and each
step of the one computation keeps the relation with the same step of the other.
-/

namespace Nawa.hashing

open Lib.PackedWords

/-! ## The cipher on packed words -/

/-- The state of the setup, with the arrays as numbers. -/
structure Packed where
  S : Nat
  P : Nat
  L : Nat
  R : Nat

namespace Packed

def sbox (S k i : Nat) : Nat := word (nat_lit 32) S (Nat.add (Nat.mul (nat_lit 256) k) i)

def key (P i : Nat) : Nat := word (nat_lit 32) P i

def add (a b : Nat) : Nat := Nat.mod (Nat.add a b) (nat_lit 4294967296)

def round (S P L R N : Nat) : Nat :=
  Nat.xor (Nat.xor R (key P (Nat.succ N)))
    (add (Nat.xor
        (add (sbox S (nat_lit 1) (Nat.mod (Nat.div L (nat_lit 65536)) (nat_lit 256)))
          (sbox S (nat_lit 0) (Nat.div L (nat_lit 16777216))))
        (sbox S (nat_lit 2) (Nat.mod (Nat.div L (nat_lit 256)) (nat_lit 256))))
      (sbox S (nat_lit 3) (Nat.mod L (nat_lit 256))))

/-- Some rounds from one on, with the halves exchanged after each. -/
def rounds (S P : Nat) : Nat → Nat → Nat → Nat → Nat × Nat
  | 0, N, L, R => (Nat.xor R (key P (Nat.succ N)), L)
  | n + 1, N, L, R => rounds S P n (Nat.succ N) (round S P L R N) L

def encrypt (S P L R : Nat) : Nat × Nat :=
  rounds S P (nat_lit 16) (nat_lit 0) (Nat.xor L (key P (nat_lit 0))) R

def fillP (m : Packed) (saltL saltR i : Nat) : Packed :=
  match encrypt m.S m.P (Nat.xor m.L saltL) (Nat.xor m.R saltR) with
  | (L, R) => ⟨m.S, replace (nat_lit 32) (replace (nat_lit 32) m.P i L) (Nat.succ i) R, L, R⟩

def fillS (m : Packed) (saltL saltR i : Nat) : Packed :=
  match encrypt m.S m.P (Nat.xor m.L saltL) (Nat.xor m.R saltR) with
  | (L, R) => ⟨replace (nat_lit 32) (replace (nat_lit 32) m.S i L) (Nat.succ i) R, m.P, L, R⟩

/-- A step for each of `n` numbers, from `i` on. -/
def loop {α : Type} (f : α → Nat → α) : Nat → Nat → α → α
  | 0, _, a => a
  | n + 1, i, a => loop f n (Nat.succ i) (f a i)

def body (m : Packed) : Packed :=
  loop (fun m k => m.fillS 0 0 (2 * k)) 512 0
    (loop (fun m k => m.fillP 0 0 (2 * k)) 9 0 ⟨m.S, m.P, 0, 0⟩)

def setup (salt initial : List Nat) : Packed :=
  loop (fun m k => (m.fillS (salt.getD 2 0) (salt.getD 3 0) (4 * k)).fillS (salt.getD 0 0)
      (salt.getD 1 0) (4 * k + 2)) 256 0
    (loop (fun m k => m.fillP (salt.getD (2 * k % 4) 0) (salt.getD (2 * k % 4 + 1) 0) (2 * k)) 9 0
      ⟨pack 32 (BF_init_state_S.toList.map UInt32.toNat), pack 32 initial, 0, 0⟩)

/-- Words are added to the P-box. -/
def xorP (m : Packed) (ws : Nat → Nat) : Packed :=
  ⟨m.S, loop (fun P i => replace 32 P i (Nat.xor (key P i) (ws i))) 18 0 m.P, m.L, m.R⟩

def turn (salt expanded : List Nat) (m : Packed) : Packed :=
  body (xorP (body (xorP m fun i => expanded.getD i 0)) fun i => salt.getD (i % 4) 0)

def outputBlock (S P : Nat) (block : Nat × Nat) : List Nat :=
  match loop (fun b _ => encrypt S P b.1 b.2) 64 0 block with
  | (L, R) => [L, R]

def output (m : Packed) : List Nat :=
  BF_magic_w.flatMap fun block => outputBlock m.S m.P (block.1.toNat, block.2.toNat)

/-- The hash of a key after one turn. -/
def hash (key : List Nat × List Nat) (salt : List Nat) : List Nat :=
  (turn salt key.1 (setup salt key.2)).output

end Packed

/-! ## The arrays it stands for -/

section Rounds

variable {S P : Nat} {ctx : BF_ctx}

theorem toNat_sbox (hS : Shows S ctx.S) (k : Nat) (i : UInt32) :
    (ctx.sbox k i).toNat = Packed.sbox S k i.toNat := (hS _).symm

theorem toNat_key (hP : Shows P ctx.P) (i : Nat) : (ctx.key i).toNat = Packed.key P i :=
  (hP i).symm

theorem toNat_add (a b : UInt32) : (a + b).toNat = Packed.add a.toNat b.toNat :=
  UInt32.toNat_add a b

/-- The four bytes of a word. -/
theorem toNat_bytes (L : UInt32) :
    (L &&& 0xFF).toNat = L.toNat % 256 ∧ ((L >>> 8) &&& 0xFF).toNat = L.toNat / 256 % 256 ∧
      ((L >>> 16) &&& 0xFF).toNat = L.toNat / 65536 % 256 ∧
      (L >>> 24).toNat = L.toNat / 16777216 := by
  have hand : ∀ x : UInt32, (x &&& 0xFF).toNat = x.toNat % 256 := fun x => by
    rw [UInt32.toNat_and]
    exact Nat.and_two_pow_sub_one_eq_mod x.toNat 8
  refine ⟨hand L, ?_, ?_, ?_⟩
  · rw [hand, UInt32.toNat_shiftRight, Nat.shiftRight_eq_div_pow]
    rfl
  · rw [hand, UInt32.toNat_shiftRight, Nat.shiftRight_eq_div_pow]
    rfl
  · rw [UInt32.toNat_shiftRight, Nat.shiftRight_eq_div_pow]
    rfl

theorem toNat_round (hS : Shows S ctx.S) (hP : Shows P ctx.P) (L R : UInt32) (N : Nat) :
    (BF_ROUND ctx L R N).toNat = Packed.round S P L.toNat R.toNat N := by
  obtain ⟨h0, h1, h2, h3⟩ := toNat_bytes L
  rw [BF_ROUND]
  simp only [UInt32.toNat_xor, toNat_add, toNat_sbox hS, toNat_key hP, h0, h1, h2, h3]
  rfl

/-- The rounds of `BF_ENCRYPT`, one after the other. -/
def feistel (ctx : BF_ctx) : Nat → Nat → UInt32 → UInt32 → UInt32 × UInt32
  | 0, N, L, R => (R ^^^ ctx.key (N + 1), L)
  | n + 1, N, L, R => feistel ctx n (N + 1) (BF_ROUND ctx L R N) L

theorem BF_ENCRYPT_eq (ctx : BF_ctx) (L R : UInt32) :
    BF_ENCRYPT ctx L R = feistel ctx 16 0 (L ^^^ ctx.key 0) R := rfl

theorem toNat_feistel (hS : Shows S ctx.S) (hP : Shows P ctx.P) (n N : Nat) (L R : UInt32) :
    Packed.rounds S P n N L.toNat R.toNat =
      ((feistel ctx n N L R).1.toNat, (feistel ctx n N L R).2.toNat) := by
  induction n generalizing N L R with
  | zero =>
    rw [Packed.rounds, feistel, UInt32.toNat_xor, toNat_key hP]
    rfl
  | succ n ih => rw [Packed.rounds, feistel, ← toNat_round hS hP, ih]

theorem toNat_BF_ENCRYPT (hS : Shows S ctx.S) (hP : Shows P ctx.P) (L R : UInt32) :
    Packed.encrypt S P L.toNat R.toNat =
      ((BF_ENCRYPT ctx L R).1.toNat, (BF_ENCRYPT ctx L R).2.toNat) := by
  rw [BF_ENCRYPT_eq, ← toNat_feistel hS hP, UInt32.toNat_xor, toNat_key hP]
  rfl

end Rounds

/-- The packed state stands for the arrays and for both halves of the block. -/
structure Holds (m : Packed) (r : Registers) : Prop where
  S : Shows m.S r.ctx.S
  P : Shows m.P r.ctx.P
  L : m.L = r.L.toNat
  R : m.R = r.R.toNat
  sizeS : r.ctx.S.size = 1024
  sizeP : r.ctx.P.size = 18

namespace Holds

variable {m : Packed} {r : Registers}

theorem encrypt (h : Holds m r) (saltL saltR : UInt32) :
    Packed.encrypt m.S m.P (Nat.xor m.L saltL.toNat) (Nat.xor m.R saltR.toNat) =
      ((BF_ENCRYPT r.ctx (r.L ^^^ saltL) (r.R ^^^ saltR)).1.toNat,
        (BF_ENCRYPT r.ctx (r.L ^^^ saltL) (r.R ^^^ saltR)).2.toNat) := by
  rw [← toNat_BF_ENCRYPT h.S h.P, UInt32.toNat_xor, UInt32.toNat_xor, ← h.L, ← h.R]
  rfl

theorem fillP (h : Holds m r) (saltL saltR : UInt32) {i : Nat} (hi : i + 1 < 18) :
    Holds (m.fillP saltL.toNat saltR.toNat i) (r.fillP saltL saltR i) := by
  rw [Packed.fillP, h.encrypt]
  refine ⟨h.S, ?_, rfl, rfl, h.sizeS, ?_⟩
  · apply (h.P.set (h.sizeP ▸ Nat.lt_of_succ_lt hi) _).set
    rw [Array.size_setIfInBounds, h.sizeP]
    exact hi
  · show ((r.ctx.P.setIfInBounds i _).setIfInBounds (i + 1) _).size = 18
    rw [Array.size_setIfInBounds, Array.size_setIfInBounds, h.sizeP]

theorem fillS (h : Holds m r) (saltL saltR : UInt32) {i : Nat} (hi : i + 1 < 1024) :
    Holds (m.fillS saltL.toNat saltR.toNat i) (r.fillS saltL saltR i) := by
  rw [Packed.fillS, h.encrypt]
  refine ⟨?_, h.P, rfl, rfl, ?_, h.sizeP⟩
  · apply (h.S.set (h.sizeS ▸ Nat.lt_of_succ_lt hi) _).set
    rw [Array.size_setIfInBounds, h.sizeS]
    exact hi
  · show ((r.ctx.S.setIfInBounds i _).setIfInBounds (i + 1) _).size = 1024
    rw [Array.size_setIfInBounds, Array.size_setIfInBounds, h.sizeS]

end Holds

/-- Two loops that keep a relation in each step keep it. -/
theorem loop_induction {α β : Type} (rel : α → β → Prop) {f : α → Nat → α} {g : β → Nat → β}
    {n : Nat} (hstep : ∀ a b k, k < n → rel a b → rel (f a k) (g b k)) {a : α} {b : β}
    (h : rel a b) : rel (Packed.loop f n 0 a) ((List.range n).foldl g b) := by
  have hrun : ∀ m i a b, i + m = n → rel a b →
      rel (Packed.loop f m i a) ((List.range' i m).foldl g b) := by
    intro m
    induction m with
    | zero =>
      intro i a b _ h
      exact h
    | succ m ih =>
      intro i a b hi h
      rw [Packed.loop, List.range'_succ, List.foldl_cons]
      exact ih (i + 1) _ _ (by omega) (hstep a b i (by omega) h)
  rw [List.range_eq_range']
  exact hrun n 0 a b (Nat.zero_add n) h

/-- The packed state stands for the arrays. -/
def HoldsCtx (m : Packed) (ctx : BF_ctx) : Prop :=
  Shows m.S ctx.S ∧ Shows m.P ctx.P ∧ ctx.S.size = 1024 ∧ ctx.P.size = 18

theorem Holds.ctx {m : Packed} {r : Registers} (h : Holds m r) : HoldsCtx m r.ctx :=
  ⟨h.S, h.P, h.sizeS, h.sizeP⟩

theorem holdsCtx_body {m : Packed} {ctx : BF_ctx} (h : HoldsCtx m ctx) :
    HoldsCtx m.body (BF_body ctx) := by
  obtain ⟨hS, hP, hsizeS, hsizeP⟩ := h
  have hstart : Holds ⟨m.S, m.P, 0, 0⟩ ⟨ctx, 0, 0⟩ := ⟨hS, hP, rfl, rfl, hsizeS, hsizeP⟩
  apply Holds.ctx
  apply loop_induction Holds
  · intro m r k hk h
    exact h.fillS 0 0 (by omega)
  · apply loop_induction Holds _ hstart
    intro m r k hk h
    exact h.fillP 0 0 (by omega)

theorem toNat_getD (ws : List UInt32) (i : Nat) :
    (ws.map UInt32.toNat).getD i 0 = (ws.getD i 0).toNat := List.getD_map ws 0 UInt32.toNat

theorem holds_start {a : Array UInt32} (ha : a.size = 1024) {initial : List UInt32}
    (h : initial.length = 18) :
    Holds ⟨pack 32 (a.toList.map UInt32.toNat), pack 32 (initial.map UInt32.toNat), 0, 0⟩
      ⟨⟨a, initial.toArray⟩, 0, 0⟩ :=
  ⟨shows_pack a.toList, shows_pack initial, rfl, rfl, ha, h⟩

theorem size_BF_init_state_S : BF_init_state_S.size = 1024 := by decide +kernel

theorem holdsCtx_setup (salt : List UInt32) {initial : List UInt32} (h : initial.length = 18) :
    HoldsCtx (Packed.setup (salt.map UInt32.toNat) (initial.map UInt32.toNat))
      (BF_setup salt initial) := by
  have hstart := holds_start size_BF_init_state_S h
  apply Holds.ctx
  simp only [Packed.setup, toNat_getD]
  apply loop_induction Holds
  · intro m r k hk h
    exact (h.fillS _ _ (by omega)).fillS _ _ (by omega)
  · apply loop_induction Holds _ hstart
    intro m r k hk h
    exact h.fillP _ _ (by omega)

theorem holdsCtx_xorP {m : Packed} {ctx : BF_ctx} (h : HoldsCtx m ctx) (ws : Nat → UInt32) :
    HoldsCtx (m.xorP fun i => (ws i).toNat)
      ((List.range (BF_N + 2)).foldl (fun ctx i => ctx.xorP i (ws i)) ctx) := by
  obtain ⟨hS, hP, hsizeS, hsizeP⟩ := h
  apply loop_induction (fun P ctx => HoldsCtx ⟨m.S, P, m.L, m.R⟩ ctx) (n := 18)
  · rintro P ctx k hk ⟨hS, hP, hsizeS, hsizeP⟩
    refine ⟨hS, ?_, hsizeS, ?_⟩
    · have hword : Nat.xor (Packed.key P k) (ws k).toNat = (ctx.key k ^^^ ws k).toNat := by
        rw [UInt32.toNat_xor, toNat_key hP]
        rfl
      rw [hword]
      exact hP.set (hsizeP ▸ hk) _
    · exact (Array.size_setIfInBounds ..).trans hsizeP
  · exact ⟨hS, hP, hsizeS, hsizeP⟩

theorem holdsCtx_turn {m : Packed} {ctx : BF_ctx} (h : HoldsCtx m ctx)
    (salt expanded : List UInt32) :
    HoldsCtx (m.turn (salt.map UInt32.toNat) (expanded.map UInt32.toNat))
      (BF_turn salt expanded ctx) := by
  simp only [Packed.turn, toNat_getD]
  exact holdsCtx_body (holdsCtx_xorP (holdsCtx_body (holdsCtx_xorP h _)) _)

theorem toNat_outputBlock {m : Packed} {ctx : BF_ctx} (h : HoldsCtx m ctx)
    (block : UInt32 × UInt32) :
    Packed.outputBlock m.S m.P (block.1.toNat, block.2.toNat) =
      (let (L, R) := (fun b : UInt32 × UInt32 => BF_ENCRYPT ctx b.1 b.2)^[64] block
      [L, R]).map UInt32.toNat := by
  have hrun : ∀ n i (b : UInt32 × UInt32),
      Packed.loop (fun b _ => Packed.encrypt m.S m.P b.1 b.2) n i (b.1.toNat, b.2.toNat) =
        (((fun b : UInt32 × UInt32 => BF_ENCRYPT ctx b.1 b.2)^[n] b).1.toNat,
          ((fun b : UInt32 × UInt32 => BF_ENCRYPT ctx b.1 b.2)^[n] b).2.toNat) := by
    intro n
    induction n with
    | zero => exact fun i b => rfl
    | succ n ih =>
      intro i b
      rw [Packed.loop, toNat_BF_ENCRYPT h.1 h.2.1, ih, Function.iterate_succ_apply]
  rw [Packed.outputBlock, hrun]
  rfl

theorem toNat_output {m : Packed} {ctx : BF_ctx} (h : HoldsCtx m ctx) :
    m.output = (BF_output ctx).map UInt32.toNat := by
  rw [Packed.output, BF_output, List.map_flatMap]
  simp only [toNat_outputBlock h]

theorem length_BF_set_key (key : Bytes) (flags : UInt32) :
    (BF_set_key key flags).2.length = 18 := by
  rw [BF_set_key_eq, List.length_modify, List.length_map, List.length_range]

/-- The packed computation of a hash after one turn. -/
theorem toNat_BF_hash (key : Bytes) (flags : UInt32) (salt : List UInt32) :
    Packed.hash ((BF_set_key key flags).1.map UInt32.toNat,
        (BF_set_key key flags).2.map UInt32.toNat) (salt.map UInt32.toNat) =
      (BF_hash key flags salt 1).map UInt32.toNat := by
  have hlen := length_BF_set_key key flags
  rw [Packed.hash, BF_hash]
  generalize BF_set_key key flags = k at hlen ⊢
  obtain ⟨expanded, initial⟩ := k
  dsimp only
  rw [Function.iterate_one]
  apply toNat_output
  apply holdsCtx_turn
  exact holdsCtx_setup salt hlen

/-! ## The test -/

/-- The salt of the test. -/
def test_salt : List UInt32 :=
  (words ((BF_decode 16 (test_setting.drop 7)).getD [])).map BF_swap

/-- The text of a hash, from the packed computation. -/
def packedText (ws : List Nat) : Bytes :=
  BF_encode ((memory ((ws.map UInt32.ofNat).map BF_swap)).take 23)

theorem packedText_toNat (ws : List UInt32) :
    packedText (ws.map UInt32.toNat) = BF_encode ((memory (ws.map BF_swap)).take 23) := by
  have hid : (ws.map UInt32.toNat).map UInt32.ofNat = ws := by
    rw [List.map_map]
    exact List.map_id'' (fun w => UInt32.ofNat_toNat) ws
  rw [packedText, hid]

/-- The hash of the test without the sign extension, carried out on packed words. -/
theorem packedText_plain :
    packedText (Packed.hash ((BF_set_key test_key 2).1.map UInt32.toNat,
      (BF_set_key test_key 2).2.map UInt32.toNat) (test_salt.map UInt32.toNat)) =
        bytes "i1D709vfamulimlGcq0qq3UvuUasvEa" := by decide +kernel

/-- The hash of the test with the sign extension. -/
theorem packedText_signed :
    packedText (Packed.hash ((BF_set_key test_key 1).1.map UInt32.toNat,
      (BF_set_key test_key 1).2.map UInt32.toNat) (test_salt.map UInt32.toNat)) =
        bytes "VUrPmXD6q/nVSSp7pNDhCR9071IfIRe" := by decide +kernel

/-- The letters of a hash: those that the words of the cipher's output are written with. -/
def hashText (key : Bytes) (flags : UInt32) (salt : List UInt32) (count : Nat) : Bytes :=
  BF_encode ((memory ((BF_hash key flags salt count).map BF_swap)).take 23)

/-- The last letter of the salt, as a hash has it. -/
def lastLetter (c : UInt8) : UInt8 := itoa (BF_atoi64.getD (c.toNat - 0x20) 64 &&& 0x30)

/-- A setting is hashed with if it begins as settings do, is not too weak, and spells a salt. -/
theorem BF_crypt_eq (key setting : Bytes) (min : Nat) :
    BF_crypt key setting min =
      if acceptsSetting setting ∧ min ≤ settingCount setting then
        (BF_decode 16 (setting.drop 7)).map fun decoded =>
          setting.take 28 ++ [lastLetter (charAt setting 28)] ++
            hashText key (subtypeFlags (charAt setting 2)) ((words decoded).map BF_swap)
              (settingCount setting)
      else none := by
  rw [BF_crypt]
  by_cases haccepts : acceptsSetting setting = true
  · rw [if_neg (not_not_intro haccepts)]
    by_cases hmin : settingCount setting < min
    · rw [if_pos hmin, if_neg fun h => Nat.not_le_of_lt hmin h.2]
    · rw [if_neg hmin, if_pos ⟨haccepts, Nat.le_of_not_lt hmin⟩]
      cases BF_decode 16 (setting.drop 7) with
      | none => rfl
      | some decoded => rfl
  · rw [if_pos haccepts, if_neg fun h => haccepts h.1]

/-- The key that the schedule itself is tested with. -/
def scheduleKey : Bytes := [0xff, 0xa3] ++ bytes "34" ++ [0xff, 0xff, 0xff, 0xa3] ++ bytes "345"

/-- What the self-test asks of the schedule. -/
theorem scheduleKey_tested :
    ((BF_set_key scheduleKey 2).2.modify 0 (· ^^^ 0x10000)).getD 0 0 = 0xdb9c59bc ∧
      (BF_set_key scheduleKey 4).1.getD 17 0 = 0x33343500 ∧
      (BF_set_key scheduleKey 2).1 = (BF_set_key scheduleKey 4).1 ∧
      (BF_set_key scheduleKey 2).2.modify 0 (· ^^^ 0x10000) = (BF_set_key scheduleKey 4).2 := by
  decide +kernel

/-- The key of the known answers is the same with and without the safety measure. -/
theorem BF_set_key_test_key : BF_set_key test_key 4 = BF_set_key test_key 2 := by decide +kernel

theorem hashText_test {flags : UInt32} (h : flags = 1 ∨ flags = 2 ∨ flags = 4) :
    hashText test_key flags test_salt 1 = test_hashes.getD (flags &&& 1).toNat [] := by
  rcases h with rfl | rfl | rfl
  · rw [hashText, ← packedText_toNat, ← toNat_BF_hash, packedText_signed]
    rfl
  · rw [hashText, ← packedText_toNat, ← toNat_BF_hash, packedText_plain]
    rfl
  · rw [hashText, ← packedText_toNat, ← toNat_BF_hash, BF_set_key_test_key,
      packedText_plain]
    rfl

theorem subtypeFlags_cases : ∀ c : UInt8, subtypeFlags c ≠ 0 →
    subtypeFlags c = 1 ∨ subtypeFlags c = 2 ∨ subtypeFlags c = 4 :=
  forall_byte (by decide +kernel)

/-- The setting of the test is hashed with for each subtype. -/
theorem acceptsSetting_test : ∀ c : UInt8, subtypeFlags c ≠ 0 →
    acceptsSetting (test_setting.set 2 c) = true ∧ settingCount (test_setting.set 2 c) = 1 ∧
      charAt (test_setting.set 2 c) 2 = c :=
  forall_byte (by decide +kernel)

/-- Its salt ends in a letter that a hash keeps. -/
theorem take_test_setting : ∀ c : UInt8, subtypeFlags c ≠ 0 →
    (test_setting.set 2 c).take 28 ++ [lastLetter (charAt (test_setting.set 2 c) 28)] =
      (test_setting.set 2 c).take (7 + 22) :=
  forall_byte (by decide +kernel)

/-- The self-test passes for each subtype. -/
theorem selfTest_some {c : UInt8} (h : subtypeFlags c ≠ 0) : selfTest (some c) = true := by
  obtain ⟨haccepts, hcount, hsubtype⟩ := acceptsSetting_test c h
  have hkept := take_test_setting c h
  have hdecoded : BF_decode 16 ((test_setting.set 2 c).drop 7) =
      some ((BF_decode 16 (test_setting.drop 7)).getD []) := by
    rw [List.drop_set_of_lt (by decide)]
    rfl
  have hcrypt : BF_crypt test_key (test_setting.set 2 c) 1 =
      some ((test_setting.set 2 c).take (7 + 22) ++
        test_hashes.getD (subtypeFlags c &&& 1).toNat []) := by
    rw [BF_crypt_eq, if_pos ⟨haccepts, hcount.ge⟩, hdecoded, Option.map_some,
      hcount, hsubtype, ← hashText_test (subtypeFlags_cases c h)]
    exact congrArg some (congrArg (· ++ _) hkept)
  rw [selfTest]
  exact decide_eq_true ⟨hcrypt, scheduleKey_tested⟩

theorem selfTest_none : selfTest none = true := by
  have hset : test_setting.set 2 'a'.toUInt8 = test_setting := by decide
  have hsome : selfTest (some 'a'.toUInt8) = selfTest none := by
    simp only [selfTest, hset]
    rfl
  rw [← hsome]
  exact selfTest_some (by decide)

/-- What fails the self-test is never seen: a hash is what `BF_crypt` makes, at the least work
factor of 4. -/
theorem _crypt_blowfish_rn_eq (key setting : Bytes) :
    _crypt_blowfish_rn key setting = BF_crypt key setting 16 := by
  rw [_crypt_blowfish_rn]
  cases hretval : BF_crypt key setting 16 with
  | none => rw [Option.isSome_none, if_neg Bool.false_ne_true, selfTest_none, if_pos rfl]
  | some output =>
    have haccepts : acceptsSetting setting = true := by
      rw [BF_crypt_eq] at hretval
      by_contra h
      rw [if_neg fun h' => h h'.1] at hretval
      cases hretval
    have hflags : subtypeFlags (charAt setting 2) ≠ 0 := (of_decide_eq_true haccepts).2.2.1
    rw [Option.isSome_some, if_pos rfl, selfTest_some hflags, if_pos rfl]

/-- The same for the library as a whole: no hash that could be computed is held back. -/
theorem crypt_rn_eq_BF_crypt (key setting : Bytes) :
    vendoredCrypt.crypt_rn key setting = BF_crypt key setting 16 :=
  _crypt_blowfish_rn_eq key setting

end Nawa.hashing
