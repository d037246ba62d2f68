import Mathlib.Data.List.GetD
import Mathlib.Data.Nat.Bitwise

/-!
# Words packed into a number

An array of words of one width as a number, the first word in the lowest bits. Reading and replacing
a word are a few operations on numbers, which the kernel does at once, so a long computation on
arrays can be carried out on numbers instead; `Shows` says of a number that it stands for an array.

The operations are written with the functions of `Nat` themselves, not with the instances of the
operators, and are unfolded as often as a word is read.
-/

namespace Lib.PackedWords

def word (width row k : Nat) : Nat :=
  Nat.mod (Nat.shiftRight row (Nat.mul width k)) (Nat.pow 2 width)

def replace (width row k w : Nat) : Nat :=
  Nat.xor row (Nat.shiftLeft (Nat.xor (word width row k) w) (Nat.mul width k))

def pack (width : Nat) (ws : List Nat) : Nat :=
  ws.foldr (fun w row => Nat.add w (Nat.mul row (Nat.pow 2 width))) 0

section Words

variable (width row k : Nat)

theorem word_eq : word width row k = row / 2 ^ (width * k) % 2 ^ width :=
  congrArg (· % 2 ^ width) (Nat.shiftRight_eq_div_pow row (width * k))

theorem testBit_word (b : Nat) :
    (word width row k).testBit b = (decide (b < width) && row.testBit (width * k + b)) := by
  rw [word_eq, Nat.testBit_mod_two_pow, Nat.testBit_div_two_pow, Nat.add_comm b]

theorem testBit_replace (w b : Nat) :
    (replace width row k w).testBit b =
      (row.testBit b ^^ (decide (width * k ≤ b) &&
        ((word width row k).testBit (b - width * k) ^^ w.testBit (b - width * k)))) := by
  show (row ^^^ ((word width row k ^^^ w) <<< (width * k))).testBit b = _
  rw [Nat.testBit_xor, Nat.testBit_shiftLeft, Nat.testBit_xor]

end Words

/-- The word is replaced, and no other one. -/
theorem word_replace {width w : Nat} (hw : w < 2 ^ width) (row k j : Nat) :
    word width (replace width row k w) j = if j = k then w else word width row j := by
  have hover : ∀ b, ¬ b < width → w.testBit b = false := fun b hb =>
    Nat.testBit_lt_two_pow (hw.trans_le (Nat.pow_le_pow_right (by decide) (Nat.le_of_not_lt hb)))
  apply Nat.eq_of_testBit_eq
  intro b
  rw [testBit_word, testBit_replace]
  by_cases hb : b < width
  · rw [decide_eq_true hb, Bool.true_and]
    split
    · next h =>
      subst h
      rw [Nat.add_sub_cancel_left, testBit_word, decide_eq_true hb,
        decide_eq_true (Nat.le_add_right _ b), Bool.true_and, Bool.true_and, ← Bool.xor_assoc,
        Bool.xor_self, Bool.false_xor]
    · next h =>
      rw [testBit_word width row j, decide_eq_true hb, Bool.true_and]
      rcases Nat.lt_or_gt_of_ne h with hlt | hlt
      · have hle : width * (j + 1) ≤ width * k := Nat.mul_le_mul_left width hlt
        rw [Nat.mul_succ] at hle
        rw [decide_eq_false (by omega), Bool.false_and, Bool.xor_false]
      · have hle : width * (k + 1) ≤ width * j := Nat.mul_le_mul_left width hlt
        rw [Nat.mul_succ] at hle
        have hfar : ¬ width * j + b - width * k < width := by omega
        rw [hover _ hfar, testBit_word, decide_eq_false hfar, Bool.false_and, Bool.xor_false,
          Bool.and_false, Bool.xor_false]
  · rw [decide_eq_false hb, Bool.false_and]
    split
    · exact (hover b hb).symm
    · rw [testBit_word, decide_eq_false hb, Bool.false_and]

theorem word_pack {width : Nat} {ws : List Nat} (h : ∀ w ∈ ws, w < 2 ^ width) (k : Nat) :
    word width (pack width ws) k = ws.getD k 0 := by
  induction ws generalizing k with
  | nil => rw [word_eq, pack, List.foldr_nil, Nat.zero_div, Nat.zero_mod, List.getD_nil]
  | cons w ws ih =>
    rw [List.forall_mem_cons] at h
    have hpack : pack width (w :: ws) = w + 2 ^ width * pack width ws := by
      rw [Nat.mul_comm]
      rfl
    rw [word_eq, hpack]
    cases k with
    | zero =>
      rw [Nat.mul_zero, Nat.pow_zero, Nat.div_one, Nat.add_mul_mod_self_left,
        Nat.mod_eq_of_lt h.1, List.getD_cons_zero]
    | succ k =>
      rw [Nat.mul_succ, Nat.pow_add, Nat.mul_comm (2 ^ (width * k)), ← Nat.div_div_eq_div_mul,
        Nat.add_mul_div_left _ _ (Nat.two_pow_pos width), Nat.div_eq_of_lt h.1, Nat.zero_add,
        List.getD_cons_succ, ← ih h.2, word_eq]

/-! ## Arrays -/

/-- A number stands for an array. -/
def Shows (row : Nat) (a : Array UInt32) : Prop := ∀ i, word 32 row i = (a.getD i 0).toNat

theorem Shows.set {row : Nat} {a : Array UInt32} (h : Shows row a) {i : Nat} (hi : i < a.size)
    (w : UInt32) : Shows (replace 32 row i w.toNat) (a.setIfInBounds i w) := by
  intro j
  rw [word_replace w.toNat_lt, Array.getD_eq_getD_getElem?, Array.getElem?_setIfInBounds]
  by_cases hj : j = i
  · rw [if_pos hj, if_pos hj.symm, if_pos (hj ▸ hi), Option.getD_some]
  · rw [if_neg hj, if_neg (Ne.symm hj), h j, Array.getD_eq_getD_getElem?]

theorem shows_pack (ws : List UInt32) : Shows (pack 32 (ws.map UInt32.toNat)) ws.toArray := by
  intro i
  have hlt : ∀ w ∈ ws.map UInt32.toNat, w < 2 ^ 32 := by
    intro w hw
    obtain ⟨w, -, rfl⟩ := List.mem_map.mp hw
    exact w.toNat_lt
  rw [word_pack hlt, Array.getD_eq_getD_getElem?, List.getElem?_toArray,
    ← List.getD_eq_getElem?_getD]
  exact List.getD_map ws 0 UInt32.toNat

end Lib.PackedWords
