import Mathlib.Data.List.Chain
import Nawa.Lib.Marked

/-!
# Valid UTF-8, and what replacements keep valid

A text is valid where it is the encoding of some characters. A valid text may be cut behind a text
of ASCII (`Valid.of_ascii_append`), and it has no sequence for a surrogate (`Valid.follows`). What
an expression replaces in it keeps it valid if the matches are ASCII and the replacements valid.
-/

namespace Lib.Utf8

/-- The bytes of some characters. -/
def utf8 (cs : List Char) : List UInt8 := cs.flatMap String.utf8EncodeChar

def Valid (s : List UInt8) : Prop := ∃ cs, s = utf8 cs

def Ascii (s : List UInt8) : Prop := ∀ b ∈ s, b < 128

theorem utf8_cons (c : Char) (cs : List Char) :
    utf8 (c :: cs) = String.utf8EncodeChar c ++ utf8 cs := List.flatMap_cons

theorem toNat_byte {n : Nat} (h : n < 256) : (UInt8.ofNat n).toNat = n :=
  UInt8.toNat_ofNat_of_lt' h

namespace Valid

theorem nil : Valid [] := ⟨[], rfl⟩

theorem append {s t : List UInt8} (hs : Valid s) (ht : Valid t) : Valid (s ++ t) := by
  obtain ⟨cs, rfl⟩ := hs
  obtain ⟨ds, rfl⟩ := ht
  exact ⟨cs ++ ds, List.flatMap_append.symm⟩

theorem encodeChar (c : Char) : Valid (String.utf8EncodeChar c) := ⟨[c], (List.append_nil _).symm⟩

/-- A character with a byte of ASCII is that byte. -/
theorem encodeChar_of_mem {c : Char} {b : UInt8} (h : b ∈ String.utf8EncodeChar c) (hb : b < 128) :
    String.utf8EncodeChar c = [b] ∧ c.toNat = b.toNat := by
  have hlow := UInt8.lt_iff_toNat_lt.mp hb
  have hne : ∀ {n : Nat}, n < 256 → 128 ≤ n → b ≠ UInt8.ofNat n := by
    rintro n hn hle rfl
    rw [toNat_byte hn] at hlow
    exact Nat.not_lt_of_le hle hlow
  unfold String.utf8EncodeChar at h ⊢
  dsimp only at h ⊢
  split at h
  · next hone =>
    rw [if_pos hone, List.mem_singleton.mp h]
    exact ⟨rfl, (toNat_byte (show c.val.toNat < 256 by omega)).symm⟩
  · exfalso
    revert h
    split
    · simp only [List.mem_cons, List.not_mem_nil, or_false]
      rintro (h | h)
      exacts [hne (by omega) (by omega) h, hne (by omega) (by omega) h]
    · split
      · simp only [List.mem_cons, List.not_mem_nil, or_false]
        rintro (h | h | h)
        exacts [hne (by omega) (by omega) h, hne (by omega) (by omega) h,
          hne (by omega) (by omega) h]
      · simp only [List.mem_cons, List.not_mem_nil, or_false]
        rintro (h | h | h | h)
        exacts [hne (by omega) (by omega) h, hne (by omega) (by omega) h,
          hne (by omega) (by omega) h, hne (by omega) (by omega) h]

theorem mem_of_append_eq_cons {c : Char} {b : UInt8} {s t : List UInt8}
    (h : String.utf8EncodeChar c ++ t = b :: s) : b ∈ String.utf8EncodeChar c := by
  obtain ⟨x, xs, hx⟩ := List.exists_cons_of_ne_nil (String.utf8EncodeChar_ne_nil (c := c))
  rw [hx] at h ⊢
  rw [(List.cons.inj h).1]
  exact List.mem_cons_self

/-- What stands behind a text of ASCII is valid if the whole is. -/
theorem of_ascii_append {w s : List UInt8} (hw : Ascii w) (h : Valid (w ++ s)) : Valid s := by
  induction w with
  | nil => exact h
  | cons b w ih =>
    rw [Ascii, List.forall_mem_cons] at hw
    obtain ⟨cs, hcs⟩ := h
    cases cs with
    | nil => cases hcs
    | cons c cs =>
      rw [utf8_cons] at hcs
      rw [(encodeChar_of_mem (mem_of_append_eq_cons hcs.symm) hw.1).1] at hcs
      exact ih hw.2 ⟨cs, (List.cons.inj hcs).2⟩

theorem toNat_ofNat {n : Nat} (h : n.isValidChar) : (Char.ofNat n).toNat = n := by
  rw [Char.ofNat, dif_pos h]
  rfl

/-- Of a code point beyond ASCII no byte is ASCII. -/
theorem eq_toNat_of_mem {n : Nat} (hn : n.isValidChar) {b : UInt8}
    (h : b ∈ String.utf8EncodeChar (Char.ofNat n)) (hb : b < 128) : n = b.toNat := by
  rw [← (encodeChar_of_mem h hb).2, toNat_ofNat hn]

theorem encodeChar_ofNat {n : Nat} (h : n < 128) :
    String.utf8EncodeChar (Char.ofNat n) = [UInt8.ofNat n] := by
  have hval : (Char.ofNat n).val.toNat = n := toNat_ofNat (.inl (by omega))
  unfold String.utf8EncodeChar
  dsimp only
  rw [hval, if_pos (Nat.le_of_lt_succ h)]

theorem of_ascii {s : List UInt8} (h : Ascii s) : Valid s := by
  induction s with
  | nil => exact nil
  | cons b s ih =>
    rw [Ascii, List.forall_mem_cons] at h
    obtain ⟨cs, hcs⟩ := ih h.2
    refine ⟨Char.ofNat b.toNat :: cs, ?_⟩
    rw [utf8_cons, encodeChar_ofNat (UInt8.lt_iff_toNat_lt.mp h.1), UInt8.ofNat_toNat, hcs]
    rfl

/-! ## Surrogates -/

/-- The byte with which a surrogate would begin has a low byte behind it. -/
def Follows (a b : UInt8) : Prop := a = 0xED → b < 0xA0

theorem follows_encodeChar (c : Char) :
    (String.utf8EncodeChar c).IsChain Follows ∧
      ∀ a ∈ (String.utf8EncodeChar c).getLast?, a ≠ 0xED := by
  have hne : ∀ {n : Nat}, n < 256 → n ≠ 0xED → UInt8.ofNat n ≠ 0xED := by
    intro n hn hne heq
    have hnat := congrArg UInt8.toNat heq
    rw [toNat_byte hn] at hnat
    exact hne hnat
  have hfollows : ∀ {n : Nat} (b : UInt8), n < 256 → n ≠ 0xED → Follows (UInt8.ofNat n) b :=
    fun _ hn hnot heq => absurd heq (hne hn hnot)
  have hvalid : c.val.toNat.isValidChar := c.valid
  unfold String.utf8EncodeChar
  dsimp only
  split
  · exact ⟨.singleton _, by rintro a ⟨⟩; exact hne (by omega) (by omega)⟩
  · split
    · exact ⟨.cons_cons (hfollows _ (by omega) (by omega)) (.singleton _),
        by rintro a ⟨⟩; exact hne (by omega) (by omega)⟩
    · split
      · refine ⟨.cons_cons ?_ (.cons_cons (hfollows _ (by omega) (by omega)) (.singleton _)),
          by rintro a ⟨⟩; exact hne (by omega) (by omega)⟩
        intro heq
        have hnat := congrArg UInt8.toNat heq
        rw [toNat_byte (by omega)] at hnat
        rw [UInt8.lt_iff_toNat_lt, toNat_byte (by omega)]
        change _ < 0xA0
        change _ = 0xED at hnat
        rcases hvalid with hlow | ⟨hhigh, -⟩ <;> omega
      · exact ⟨.cons_cons (hfollows _ (by omega) (by omega)) (.cons_cons
          (hfollows _ (by omega) (by omega)) (.cons_cons (hfollows _ (by omega) (by omega))
            (.singleton _))), by rintro a ⟨⟩; exact hne (by omega) (by omega)⟩

theorem follows {s : List UInt8} (h : Valid s) : s.IsChain Follows := by
  obtain ⟨cs, rfl⟩ := h
  induction cs with
  | nil => exact .nil
  | cons c cs ih =>
    obtain ⟨hchain, hlast⟩ := follows_encodeChar c
    rw [utf8_cons]
    exact hchain.append ih fun a ha b _ heq => absurd heq (hlast a ha)

end Valid

/-! ## Replacement -/

section Replacement

open Lib.Regex

variable {ε : Type} {r : Regex UInt8} {mark : UInt8} {key : List UInt8 → Captures UInt8 → Prop}
  {fmt : List UInt8 → Captures UInt8 → Except ε (List UInt8)}

/-- A valid text is still valid when matches of ASCII have been replaced by valid texts. -/
theorem valid_render (h : Marked r mark key) (hmark : mark < 128)
    (hkey : ∀ w g, key w g → Ascii w) {s : List UInt8} (hs : Valid s)
    (hfmt : ∀ w g, key w g → w <:+: s → ∃ v, fmt w g = .ok v ∧ Valid v) :
    ∃ v, render fmt (r.pieces s) = .ok v ∧ Valid v := by
  induction hlen : s.length using Nat.strongRecOn generalizing s with
  | ind n ih =>
    subst hlen
    obtain ⟨cs, hcs⟩ := hs
    cases cs with
    | nil =>
      rw [hcs, utf8, List.flatMap_nil, h.pieces_nil]
      exact ⟨[], rfl, .nil⟩
    | cons c cs =>
      rw [utf8_cons] at hcs
      -- the part behind a match or a character is shorter
      have hrest : ∀ {w t : List UInt8}, w ≠ [] → s = w ++ t → Valid t →
          ∃ v, render fmt (r.pieces t) = .ok v ∧ Valid v := by
        rintro w t hne rfl ht
        refine ih t.length ?_ ht (fun u g hu hinfix => hfmt u g hu ?_) rfl
        · rw [List.length_append]
          exact Nat.lt_add_of_pos_left (List.length_pos_iff.mpr hne)
        · exact hinfix.trans (List.suffix_append w t).isInfix
      cases hmatch : r.matchAt s with
      | some m =>
        obtain ⟨w, hw, hwm⟩ := h.only (s := m.1) (g := m.2) hmatch
        have hm : Valid m.1 := .of_ascii_append (hkey w m.2 hw) (hwm ▸ ⟨c :: cs, hcs⟩)
        obtain ⟨v, hv, hvalid⟩ := hrest (h.ne_nil hw) hwm hm
        obtain ⟨u, hu, huvalid⟩ := hfmt w m.2 hw (hwm ▸ (List.prefix_append w m.1).isInfix)
        rw [hwm, h.pieces_key hw, render_matched _ hu, hv]
        exact ⟨u ++ v, rfl, huvalid.append hvalid⟩
      | none =>
        obtain ⟨v, hv, hvalid⟩ := hrest String.utf8EncodeChar_ne_nil hcs ⟨cs, rfl⟩
        have hpieces : r.pieces s =
            (String.utf8EncodeChar c).map .skipped ++ r.pieces (utf8 cs) := by
          by_cases hmem : mark ∈ String.utf8EncodeChar c
          · rw [hcs, (Valid.encodeChar_of_mem hmem hmark).1] at hmatch ⊢
            exact pieces_cons_of_none hmatch
          · rw [hcs, h.pieces_unmarked hmem]
        rw [hpieces, render_skipped_append, hv]
        exact ⟨_, rfl, (Valid.encodeChar c).append hvalid⟩

end Replacement

end Lib.Utf8
