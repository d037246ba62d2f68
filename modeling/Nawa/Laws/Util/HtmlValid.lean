import Nawa.Laws.Util.HtmlRoundTrip
import Nawa.Lib.Utf8

/-!
# HTML decoding and valid UTF-8

The first pass keeps every text valid. The second one keeps it valid exactly where it holds no
reference to a surrogate, and such a reference comes from one whose `&`, `#` and `;` may be
written as entities (`htmlDecode_valid_iff`).
-/

namespace Nawa.encoding

open Lib (Regex mem_of_lookup)
open Lib.Regex
open Lib.Utf8

/-! ## The matches of both passes -/

theorem ascii_of_isalnum (c : UInt8) (h : isalnum c = true) : c < 128 := by
  rcases of_decide_eq_true h with hdigit | hupper | hlower
  · exact UInt8.lt_of_le_of_lt (of_decide_eq_true hdigit).2 (by decide)
  · exact UInt8.lt_of_le_of_lt hupper.2 (by decide)
  · exact UInt8.lt_of_le_of_lt hlower.2 (by decide)

theorem ne_ampersand_of_isalnum (c : UInt8) (h : isalnum c = true) : c ≠ '&'.toUInt8 := by
  rintro rfl
  exact absurd h (by decide)

namespace EntityText

variable {w : Bytes}

theorem ascii (h : EntityText w) : Ascii w := by
  obtain ⟨letters, rfl, hletters, -⟩ := h
  rw [Ascii, List.forall_mem_cons, List.forall_mem_append, List.forall_mem_singleton]
  exact ⟨by decide, fun c hc => ascii_of_isalnum c (hletters c hc), by decide⟩

theorem begins (h : EntityText w) : ∃ tail, w = '&'.toUInt8 :: tail ∧ '&'.toUInt8 ∉ tail := by
  obtain ⟨letters, rfl, hletters, -⟩ := h
  refine ⟨_, rfl, fun hmem => ?_⟩
  rcases List.mem_append.mp hmem with hmem | hmem
  · exact ne_ampersand_of_isalnum _ (hletters _ hmem) rfl
  · exact absurd (List.mem_singleton.mp hmem) (by decide)

end EntityText

/-- The first expression finds the texts of entities. -/
theorem marked_matchEntity :
    Marked matchEntity '&'.toUInt8 fun w g => EntityText w ∧ g = fun _ => none where
  begins h := h.1.begins
  found := by
    rintro w _ ⟨htext, rfl⟩ s
    exact matchAt_matchEntity htext s
  only := by
    intro t s g h
    cases t with
    | nil => cases h
    | cons x t =>
      by_cases hx : x = '&'.toUInt8
      · subst hx
        obtain ⟨letters, rest, rfl, hletters, hrest⟩ := exists_run isalnum t
        rw [matchAt, matchEntity, run_seq, run_sat_cons, decide_eq_true rfl, if_pos rfl, run_seq,
          run_rep_sat hletters hrest ?closes false (by decide), Option.ite_none_right_eq_some] at h
        case closes =>
          intro x t hx
          exact closing_cons_of_ne (ne_semicolon_of_isalnum hx) t _
        obtain ⟨⟨hpos, hlen⟩, hend⟩ := h
        obtain ⟨rfl, rfl⟩ := closing_eq_some_iff.mp hend
        refine ⟨_, ⟨⟨letters, rfl, hletters, hpos, hlen⟩, rfl⟩, ?_⟩
        rw [List.cons_append, List.append_assoc, List.singleton_append]
      · rw [matchAt, matchEntity, run_seq, run_sat_cons, decide_eq_false hx,
          if_neg Bool.false_ne_true] at h
        cases h

namespace NumericReference

/-- What stands behind `&#`. -/
def body : NumericReference → Bytes
  | hex digits _ _ => 'x'.toUInt8 :: (digits ++ [';'.toUInt8])
  | decimal digits _ _ => digits ++ [';'.toUInt8]

theorem text_eq (r : NumericReference) :
    r.text = '&'.toUInt8 :: '#'.toUInt8 :: r.body := by
  cases r <;> rfl

theorem isalnum_of_isxdigit (c : UInt8) (h : isxdigit c = true) : isalnum c = true := by
  rcases of_decide_eq_true h with hdigit | hupper | hlower
  · exact decide_eq_true (.inl hdigit)
  · exact decide_eq_true (.inr (.inl ⟨hupper.1, UInt8.le_trans hupper.2 (by decide)⟩))
  · exact decide_eq_true (.inr (.inr ⟨hlower.1, UInt8.le_trans hlower.2 (by decide)⟩))

/-- Behind `&#` a reference has letters, digits and the closing semicolon. -/
theorem mem_body (r : NumericReference) {c : UInt8} (h : c ∈ r.body) :
    c = ';'.toUInt8 ∨ c = 'x'.toUInt8 ∨ isxdigit c = true := by
  cases r with
  | hex digits hdigits hlen =>
    rcases List.mem_cons.mp h with rfl | h
    · exact .inr (.inl rfl)
    · rcases List.mem_append.mp h with h | h
      · exact .inr (.inr (hdigits c h))
      · exact .inl (List.mem_singleton.mp h)
  | decimal digits hdigits hlen =>
    rcases List.mem_append.mp h with h | h
    · exact .inr (.inr (isdigit_plain c (hdigits c h)).2.2)
    · exact .inl (List.mem_singleton.mp h)

/-- All but the last byte of a reference. -/
theorem text_init (r : NumericReference) :
    ∃ u, r.text = u ++ [';'.toUInt8] ∧ ∀ c ∈ u, isReferenceByte c = true := by
  have hdigit : ∀ c, isxdigit c = true → isReferenceByte c = true := by
    intro c hc
    rw [isReferenceByte, hc, Bool.or_true]
  cases r with
  | hex digits h hlen =>
    refine ⟨'&'.toUInt8 :: '#'.toUInt8 :: 'x'.toUInt8 :: digits, rfl, ?_⟩
    simp only [List.forall_mem_cons]
    exact ⟨by decide, by decide, by decide, fun c hc => hdigit c (h c hc)⟩
  | decimal digits h hlen =>
    refine ⟨'&'.toUInt8 :: '#'.toUInt8 :: digits, rfl, ?_⟩
    simp only [List.forall_mem_cons]
    exact ⟨by decide, by decide, fun c hc => hdigit c (isdigit_plain c (h c hc)).2.2⟩

theorem body_plain (r : NumericReference) {c : UInt8} (h : c ∈ r.body) :
    c < 128 ∧ c ≠ '&'.toUInt8 := by
  rcases r.mem_body h with rfl | rfl | hdigit
  · decide
  · decide
  · have halnum := isalnum_of_isxdigit c hdigit
    exact ⟨ascii_of_isalnum c halnum, ne_ampersand_of_isalnum c halnum⟩

theorem ascii (r : NumericReference) : Ascii r.text := by
  rw [text_eq, Ascii, List.forall_mem_cons, List.forall_mem_cons]
  exact ⟨by decide, by decide, fun c hc => (r.body_plain hc).1⟩

theorem begins (r : NumericReference) :
    ∃ tail, r.text = '&'.toUInt8 :: tail ∧ '&'.toUInt8 ∉ tail := by
  refine ⟨_, r.text_eq, fun hmem => ?_⟩
  rcases List.mem_cons.mp hmem with heq | hmem
  · exact absurd heq (by decide)
  · exact (r.body_plain hmem).2 rfl

theorem codePoint_lt (r : NumericReference) : r.codePoint < 0x110000 := by
  cases r with
  | hex digits h hlen =>
    have hpow : 16 ^ digits.length ≤ 16 ^ 5 := Nat.pow_le_pow_right (by decide) hlen.2
    exact Nat.lt_of_lt_of_le (xdigitsValue_lt h) (Nat.le_trans hpow (by decide))
  | decimal digits h hlen =>
    have hpow : 10 ^ digits.length ≤ 10 ^ 6 := Nat.pow_le_pow_right (by decide) hlen.2
    exact Nat.lt_of_lt_of_le (digitsValue_lt h) (Nat.le_trans hpow (by decide))

end NumericReference

/-- The second expression finds the texts of references. -/
theorem marked_matchUnicode : Marked matchUnicode '&'.toUInt8 fun w g =>
    ∃ r : NumericReference, w = r.text ∧ g = r.groups where
  begins := by
    rintro _ _ ⟨r, rfl, rfl⟩
    exact r.begins
  found := by
    rintro _ _ ⟨r, rfl, rfl⟩ s
    exact r.matchAt_text s
  only h := by
    obtain ⟨r, ht, hg⟩ := reference_of_matchAt h
    exact ⟨r.text, ⟨r, rfl, hg⟩, ht⟩

/-! ## The second pass -/

/-- The code points that UTF-8 has no sequence for. -/
def Surrogate (c : Nat) : Prop := 0xD800 ≤ c ∧ c ≤ 0xDFFF

theorem toBytes_of_not_surrogate (cv : Codecvt) {c : Nat} (hlt : c < 0x110000)
    (h : ¬ Surrogate c) : ∃ v, toBytes cv c = .ok v ∧ Valid v := by
  have hvalid : c.isValidChar := by
    rw [Surrogate] at h
    rw [Nat.isValidChar]
    omega
  rw [toBytes, if_pos hvalid]
  exact ⟨_, rfl, .encodeChar _⟩

/-- What is written for a surrogate, where nothing is thrown. -/
theorem surrogate_of_toBytes {cv : Codecvt} {c : Nat} {v : Bytes} (h : Surrogate c)
    (hv : toBytes cv c = .ok v) : ∃ b u, v = 0xED :: b :: u ∧ ¬ b < 0xA0 := by
  obtain ⟨hlow, hhigh⟩ := h
  rw [toBytes] at hv
  split at hv
  · next hvalid => rcases hvalid with h | ⟨h, -⟩ <;> omega
  · split at hv
    · cases hv
      have hlead : 0xE0 + c / 0x1000 = 0xED := by omega
      refine ⟨_, _, by rw [hlead]; rfl, ?_⟩
      rw [UInt8.not_lt, UInt8.le_iff_toNat_le, toNat_byte (by omega)]
      change 0xA0 ≤ _
      omega
    · cases hv

/-- The second pass keeps a text valid where it holds no reference to a surrogate. -/
theorem decodeNumbers_valid_iff (cv : Codecvt) {t : Bytes} (ht : Valid t) :
    (∃ v, decodeNumbers cv t = .ok v ∧ Valid v) ↔
      ∀ r : NumericReference, Surrogate r.codePoint → ¬ r.text <:+: t := by
  rw [decodeNumbers, utils.regexReplaceCallback_eq]
  constructor
  · rintro ⟨v, hv, hvalid⟩ r hsurrogate ⟨a, b, rfl⟩
    rw [List.append_assoc, marked_matchUnicode.pieces_append_key ⟨r, rfl, rfl⟩, render_append,
      render, replaceUnicode_groups] at hv
    obtain ⟨x, -, hv⟩ := bind_eq_ok_iff.mp hv
    obtain ⟨y, hy, rfl⟩ := map_eq_ok_iff.mp hv
    obtain ⟨z, hz, hy⟩ := bind_eq_ok_iff.mp hy
    obtain ⟨u, -, rfl⟩ := map_eq_ok_iff.mp hy
    obtain ⟨low, rest, rfl, hlow⟩ := surrogate_of_toBytes hsurrogate hz
    have hinfix : [0xED, low] <:+: x ++ (0xED :: low :: rest ++ u) := ⟨x, rest ++ u, by simp⟩
    have hfollows := hvalid.follows.infix hinfix
    exact hlow (hfollows.rel rfl)
  · intro h
    refine valid_render marked_matchUnicode (by decide) ?_ ht ?_
    · rintro _ _ ⟨r, rfl, -⟩
      exact r.ascii
    · rintro _ _ ⟨r, rfl, rfl⟩ hinfix
      rw [replaceUnicode_groups]
      exact toBytes_of_not_surrogate cv r.codePoint_lt fun hsurrogate => h r hsurrogate hinfix

/-! ## The first pass -/

theorem bytes_ofList (cs : List Char) : bytes (String.ofList cs) = utf8 cs := by
  rw [bytes_eq_flatMap, String.toList_ofList, utf8]

theorem valid_iff {s : Bytes} : Valid s ↔ ∃ text : String, s = bytes text := by
  constructor
  · rintro ⟨cs, rfl⟩
    exact ⟨String.ofList cs, (bytes_ofList cs).symm⟩
  · rintro ⟨text, rfl⟩
    exact ⟨text.toList, bytes_eq_flatMap text⟩

/-- The characters of an entity. -/
def expansion (e : Nat × Nat) : Bytes :=
  String.utf8EncodeChar (Char.ofNat e.1) ++
    if e.2 ≠ 0 then String.utf8EncodeChar (Char.ofNat e.2) else []

theorem valid_expansion (e : Nat × Nat) : Valid (expansion e) := by
  refine (Valid.encodeChar _).append ?_
  split
  · exact .encodeChar _
  · exact .nil

theorem characters_of_mem {e : String × Nat × Nat} (h : e ∈ namedEntries) :
    e.2.1.isValidChar ∧ e.2.2.isValidChar ∧ e.2.2 ≠ 0x26 ∧
      (e.2.1 < 128 → isReferenceByte (UInt8.ofNat e.2.1) = true → e ∈ referenceEntries) := by
  have he := areCharacters_of_mem h
  simp only [areCharacters, Bool.and_eq_true, Bool.or_eq_true, decide_eq_true_eq,
    Bool.not_eq_true', List.contains_iff_mem] at he
  obtain ⟨⟨⟨hfirst, hsecond⟩, hne⟩, hrest⟩ := he
  refine ⟨hfirst, hsecond, hne, fun hlt hbyte => ?_⟩
  rcases hrest with (hle | hbyte') | hmem
  · exact absurd hlt (Nat.not_lt.mpr hle)
  · rw [hbyte] at hbyte'
    cases hbyte'
  · exact hmem

/-- An entity is replaced by its characters if it has a name, and by itself otherwise. -/
theorem replaceEntity_of (cv : Codecvt) {w : Bytes} (h : EntityText w) :
    ∃ v, replaceEntity cv (w :: groupTexts matchEntity.markCount fun _ => none) = .ok v ∧
      (v = w ∨ ∃ e ∈ namedEntries, w = bytes e.1 ∧ v = expansion e.2) := by
  obtain ⟨name, rfl⟩ := valid_iff.mp (Valid.of_ascii h.ascii)
  simp only [replaceEntity, utils.at', List.getElem?_cons_zero, Except.bind, fromBytes_bytes]
  cases hlookup : htmlDecodeTable.lookup name with
  | none => exact ⟨_, rfl, .inl rfl⟩
  | some e =>
    obtain ⟨first, second⟩ := e
    have hmem := mem_namedEntries (mem_of_lookup hlookup)
    obtain ⟨hfirst, hsecond, -⟩ := characters_of_mem hmem
    refine ⟨expansion (first, second), ?_, .inr ⟨_, hmem, rfl, rfl⟩⟩
    dsimp only at hfirst hsecond ⊢
    rw [toBytes, if_pos hfirst, toBytes, if_pos hsecond, expansion]
    dsimp only
    split
    · rfl
    · rw [List.append_nil]

/-- A text of which some entities have been replaced by their characters. -/
inductive Expands : Bytes → Bytes → Prop
  | nil : Expands [] []
  | skip (x : UInt8) {s t : Bytes} (h : Expands s t) : Expands (x :: s) (x :: t)
  | entity {e : String × Nat × Nat} (he : e ∈ namedEntries) {s t : Bytes} (h : Expands s t) :
    Expands (bytes e.1 ++ s) (expansion e.2 ++ t)

theorem Expands.skipAll (w : Bytes) {s t : Bytes} (h : Expands s t) :
    Expands (w ++ s) (w ++ t) := by
  induction w with
  | nil => exact h
  | cons x w ih => exact .skip x ih

/-- The first pass reads every text. -/
theorem exists_decodeNames (cv : Codecvt) (s : Bytes) :
    ∃ t, decodeNames cv s = .ok t ∧ Expands s t := by
  rw [decodeNames, utils.regexReplaceCallback_eq]
  induction s using marked_matchEntity.induction with
  | nil =>
    rw [marked_matchEntity.pieces_nil]
    exact ⟨[], rfl, .nil⟩
  | skip x s hnone ih =>
    obtain ⟨t, ht, hexpands⟩ := ih
    rw [pieces_cons_of_none hnone, render_skipped, ht]
    exact ⟨x :: t, rfl, .skip x hexpands⟩
  | hit w g s hw ih =>
    obtain ⟨t, ht, hexpands⟩ := ih
    obtain ⟨hentity, rfl⟩ := hw
    obtain ⟨v, hv, hcases⟩ := replaceEntity_of cv hentity
    rw [marked_matchEntity.pieces_key ⟨hentity, rfl⟩, render_matched _ hv, ht]
    refine ⟨v ++ t, rfl, ?_⟩
    rcases hcases with rfl | ⟨e, he, rfl, rfl⟩
    · exact hexpands.skipAll v
    · exact .entity he hexpands

theorem valid_decodeNames {cv : Codecvt} {s t : Bytes} (hs : Valid s)
    (ht : decodeNames cv s = .ok t) : Valid t := by
  have hvalid : ∃ v, decodeNames cv s = .ok v ∧ Valid v := by
    rw [decodeNames, utils.regexReplaceCallback_eq]
    refine valid_render marked_matchEntity (by decide) (fun w g hw => hw.1.ascii) hs ?_
    rintro w _ ⟨hentity, rfl⟩ -
    obtain ⟨v, hv, rfl | ⟨e, -, -, rfl⟩⟩ := replaceEntity_of cv hentity
    · exact ⟨v, hv, .of_ascii hentity.ascii⟩
    · exact ⟨_, hv, valid_expansion e.2⟩
  obtain ⟨v, hv, hvalid⟩ := hvalid
  rw [ht] at hv
  exact Except.ok.inj hv ▸ hvalid

/-! ## References that the first pass brings about -/

/-- The texts of a byte of a reference. -/
inductive Writes : UInt8 → Bytes → Prop
  | plain (x : UInt8) : Writes x [x]
  | amp : Writes '&'.toUInt8 (bytes "&amp;")
  | num : Writes '#'.toUInt8 (bytes "&num;")
  | semi : Writes ';'.toUInt8 (bytes "&semi;")

/-- The texts that a text may be written as, byte by byte. -/
inductive Spells : Bytes → Bytes → Prop
  | nil : Spells [] []
  | cons {x : UInt8} {w u v : Bytes} (hx : Writes x w) (h : Spells u v) : Spells (x :: u) (w ++ v)

theorem ascii_of_isReferenceByte (c : UInt8) (h : isReferenceByte c = true) : c < 128 := by
  simp only [isReferenceByte, Bool.or_eq_true, decide_eq_true_eq] at h
  rcases h with (((rfl | rfl) | rfl) | rfl) | h
  · decide
  · decide
  · decide
  · decide
  · exact ascii_of_isalnum c (NumericReference.isalnum_of_isxdigit c h)

/-- Few entities begin with a byte of a reference. -/
theorem mem_referenceEntries {e : String × Nat × Nat} (he : e ∈ namedEntries) {x : UInt8}
    (hx : isReferenceByte x = true) (h : x ∈ String.utf8EncodeChar (Char.ofNat e.2.1)) :
    e ∈ referenceEntries ∧ e.2.1 = x.toNat := by
  obtain ⟨hfirst, -, -, hreference⟩ := characters_of_mem he
  have hlt := ascii_of_isReferenceByte x hx
  have hnat := Valid.eq_toNat_of_mem hfirst h hlt
  refine ⟨hreference (hnat ▸ UInt8.lt_iff_toNat_lt.mp hlt) ?_, hnat⟩
  rw [hnat, UInt8.ofNat_toNat, hx]

theorem expansion_of_ampersand {e : String × Nat × Nat} (he : e ∈ namedEntries)
    (h : '&'.toUInt8 ∈ expansion e.2) : expansion e.2 = ['&'.toUInt8] := by
  obtain ⟨-, hsecond, hne, -⟩ := characters_of_mem he
  rcases List.mem_append.mp h with h | h
  · obtain ⟨hentry, hnat⟩ := mem_referenceEntries he (by decide) h
    simp only [referenceEntries, List.mem_cons, List.not_mem_nil, or_false] at hentry
    rcases hentry with rfl | rfl | rfl | rfl
    · decide
    · exact absurd hnat (by decide)
    · exact absurd hnat (by decide)
    · exact absurd hnat (by decide)
  · split at h
    · exact absurd (Valid.eq_toNat_of_mem hsecond h (by decide)) hne
    · cases h

/-- A byte of a reference is there from the beginning, or is written as an entity. Only an `f` may
come from another one, and it has a `j` behind it. -/
theorem Expands.head {x : UInt8} {s t : Bytes} (hx : isReferenceByte x = true)
    (h : Expands s (x :: t)) :
    (∃ w s', Writes x w ∧ s = w ++ s' ∧ Expands s' t) ∨
      x = 'f'.toUInt8 ∧ t.head? = some 'j'.toUInt8 := by
  generalize hl : x :: t = l at h
  cases h with
  | nil => cases hl
  | skip y h =>
    obtain ⟨rfl, rfl⟩ := List.cons.inj hl
    exact .inl ⟨[x], _, .plain x, rfl, h⟩
  | @entity e he s' t' h =>
    have hmem : x ∈ String.utf8EncodeChar (Char.ofNat e.2.1) := by
      rw [expansion, List.append_assoc] at hl
      exact Valid.mem_of_append_eq_cons hl.symm
    have hentry := (mem_referenceEntries he hx hmem).1
    simp only [referenceEntries, List.mem_cons, List.not_mem_nil, or_false] at hentry
    have hone : ∀ y : UInt8, expansion e.2 = [y] → x = y ∧ t = t' := by
      intro y hy
      rw [hy] at hl
      exact List.cons.inj hl
    rcases hentry with rfl | rfl | rfl | rfl
    · obtain ⟨rfl, rfl⟩ := hone '&'.toUInt8 (by decide)
      exact .inl ⟨_, s', .amp, rfl, h⟩
    · obtain ⟨rfl, rfl⟩ := hone '#'.toUInt8 (by decide)
      exact .inl ⟨_, s', .num, rfl, h⟩
    · obtain ⟨rfl, rfl⟩ := hone ';'.toUInt8 (by decide)
      exact .inl ⟨_, s', .semi, rfl, h⟩
    · have htwo : expansion (0x66, 0x6A) = ['f'.toUInt8, 'j'.toUInt8] := by decide
      rw [htwo] at hl
      obtain ⟨rfl, rfl⟩ := List.cons.inj hl
      exact .inr ⟨rfl, rfl⟩

/-- A text with the bytes of a reference up to a semicolon is spelled by what it has come from. -/
theorem Expands.spelled {u s t : Bytes} (hu : ∀ c ∈ u, isReferenceByte c = true)
    (h : Expands s (u ++ ';'.toUInt8 :: t)) :
    ∃ w s', Spells (u ++ [';'.toUInt8]) w ∧ s = w ++ s' := by
  have hletter : isReferenceByte 'j'.toUInt8 = false := by decide
  induction u generalizing s with
  | nil =>
    rcases h.head (by decide) with ⟨w, s', hx, rfl, -⟩ | ⟨hf, -⟩
    · exact ⟨w ++ [], s', .cons hx .nil, by rw [List.append_nil]⟩
    · exact absurd hf (by decide)
  | cons x u ih =>
    rw [List.forall_mem_cons] at hu
    rcases h.head hu.1 with ⟨w, s', hx, rfl, h'⟩ | ⟨-, hj⟩
    · obtain ⟨v, s'', hspells, rfl⟩ := ih hu.2 h'
      exact ⟨w ++ v, s'', .cons hx hspells, (List.append_assoc w v s'').symm⟩
    · -- a byte of the reference would be a `j`
      exfalso
      cases u with
      | nil => exact absurd (Option.some.inj hj) (by decide)
      | cons y u =>
        have hy := hu.2 y List.mem_cons_self
        rw [Option.some.inj hj, hletter] at hy
        cases hy

/-- A text with a first byte that another text does not have begins behind that one. -/
theorem infix_of_not_mem {x : UInt8} {u l t : Bytes} (hx : x ∉ l) (h : x :: u <:+: l ++ t) :
    x :: u <:+: t := by
  induction l with
  | nil => exact h
  | cons y l ih =>
    rw [List.mem_cons, not_or] at hx
    rcases List.infix_cons_iff.mp h with ⟨v, hv⟩ | h
    · exact absurd (List.cons.inj hv).1 hx.1
    · exact ih hx.2 h

/-- What the first pass makes a reference was one before, in one of its spellings. -/
theorem Expands.spelled_of_infix (r : NumericReference) {s t : Bytes} (h : Expands s t)
    (hr : r.text <:+: t) : ∃ w, Spells r.text w ∧ w <:+: s := by
  obtain ⟨u, hu, hbytes⟩ := r.text_init
  have hprefix : ∀ {s t : Bytes}, Expands s t → r.text <+: t →
      ∃ w, Spells r.text w ∧ w <:+: s := by
    rintro s _ h ⟨v, rfl⟩
    rw [hu, List.append_assoc] at h
    obtain ⟨w, s', hspells, rfl⟩ := h.spelled hbytes
    exact ⟨w, hu ▸ hspells, (List.prefix_append w s').isInfix⟩
  induction h with
  | nil => exact absurd (List.infix_nil.mp hr) r.text_ne_nil
  | @skip x s t h ih =>
    rcases List.infix_cons_iff.mp hr with hr | hr
    · exact hprefix (.skip x h) hr
    · obtain ⟨w, hw, hinfix⟩ := ih hr
      exact ⟨w, hw, hinfix.trans (List.suffix_cons x s).isInfix⟩
  | @entity e he s t h ih =>
    have hrest : r.text <:+: t → ∃ w, Spells r.text w ∧ w <:+: bytes e.1 ++ s := by
      intro hr
      obtain ⟨w, hw, hinfix⟩ := ih hr
      exact ⟨w, hw, hinfix.trans (List.suffix_append (bytes e.1) s).isInfix⟩
    by_cases hamp : '&'.toUInt8 ∈ expansion e.2
    · have hone := expansion_of_ampersand he hamp
      have hwhole := Expands.entity he h
      rw [hone] at hr hwhole
      rcases List.infix_cons_iff.mp hr with hr | hr
      · exact hprefix hwhole hr
      · exact hrest hr
    · refine hrest ?_
      rw [r.text_eq] at hr ⊢
      exact infix_of_not_mem hamp hr

/-! ## Spelled references -/

section Spelled

variable {cv : Codecvt}

/-- Every spelling of a text without `&` is decoded to it. -/
theorem decodeNames_spelled {u w : Bytes} (h : Spells u w) (hu : '&'.toUInt8 ∉ u) (s : Bytes) :
    decodeNames cv (w ++ s) = (decodeNames cv s).map (u ++ ·) := by
  obtain ⟨hnum, hsemi⟩ := lookup_spelled
  induction h with
  | nil =>
    rw [List.nil_append, map_nil_append]
  | @cons x w u v hx h ih =>
    rw [List.mem_cons, not_or] at hu
    have hrest : decodeNames cv (w ++ (v ++ s)) = (decodeNames cv (v ++ s)).map (x :: ·) := by
      cases hx with
      | plain => exact decodeNames_cons (Ne.symm hu.1) _
      | amp => exact absurd rfl hu.1
      | num => exact decodeNames_name hnum (by decide) _
      | semi => exact decodeNames_name hsemi (by decide) _
    rw [List.append_assoc, hrest, ih hu.2, map_cons_append]

/-- No entity begins with an `&` that something other than a letter or digit follows. -/
theorem matchAt_ampersand {s : Bytes} (h : ∀ c ∈ s.head?, isalnum c = false) :
    matchEntity.matchAt ('&'.toUInt8 :: s) = none := by
  cases hmatch : matchEntity.matchAt ('&'.toUInt8 :: s) with
  | none => rfl
  | some m =>
    obtain ⟨w, ⟨⟨letters, rfl, hletters, hpos, -⟩, -⟩, hw⟩ :=
      marked_matchEntity.only (s := m.1) (g := m.2) hmatch
    obtain ⟨y, ys, rfl⟩ := List.exists_cons_of_length_pos hpos
    have hy := hletters y List.mem_cons_self
    rw [h y (by rw [(List.cons.inj hw).2]; rfl)] at hy
    cases hy

theorem decodeNames_reference (r : NumericReference) {w : Bytes} (h : Spells r.text w)
    (s : Bytes) : decodeNames cv (w ++ s) = (decodeNames cv s).map (r.text ++ ·) := by
  rw [r.text_eq] at h ⊢
  have hbody : '&'.toUInt8 ∉ '#'.toUInt8 :: r.body := by
    rw [List.mem_cons, not_or]
    exact ⟨by decide, fun hmem => (r.body_plain hmem).2 rfl⟩
  cases h with
  | @cons _ w _ v hamp h =>
    have hrest : decodeNames cv (w ++ (v ++ s)) =
        (decodeNames cv (v ++ s)).map ('&'.toUInt8 :: ·) := by
      cases hamp with
      | plain =>
        refine utils.regexReplaceCallback_cons (matchAt_ampersand ?_)
        cases h with
        | cons hnum _ =>
          cases hnum with
          | plain =>
            rintro c ⟨⟩
            decide
          | num =>
            have hnum : bytes "&num;" = '&'.toUInt8 :: bytes "num;" := by decide
            rw [hnum]
            rintro c ⟨⟩
            decide
      | amp => exact decodeNames_name lookup_escaped.1 (by decide) _
    rw [List.append_assoc, hrest, decodeNames_spelled h hbody, map_cons_append]

theorem Spells.begins {r : NumericReference} {w : Bytes} (h : Spells r.text w) :
    ∃ tail, w = '&'.toUInt8 :: tail := by
  rw [r.text_eq] at h
  cases h with
  | @cons _ _ _ v hamp _ =>
    cases hamp with
    | plain => exact ⟨v, rfl⟩
    | amp =>
      have hamp : bytes "&amp;" = '&'.toUInt8 :: bytes "amp;" := by decide
      exact ⟨bytes "amp;" ++ v, by rw [hamp]; rfl⟩

/-- A text is decoded up to an `&` and from there on. -/
theorem decodeNames_cut (s t : Bytes) :
    decodeNames cv (s ++ '&'.toUInt8 :: t) =
      (decodeNames cv s).bind fun v => (decodeNames cv ('&'.toUInt8 :: t)).map (v ++ ·) := by
  rw [decodeNames, decodeNames, decodeNames, utils.regexReplaceCallback_eq,
    utils.regexReplaceCallback_eq, utils.regexReplaceCallback_eq, marked_matchEntity.pieces_cut,
    render_append]

/-- The references after the first pass are those that were spelled before it. -/
theorem infix_decodeNames_iff {s t : Bytes} (ht : decodeNames cv s = .ok t)
    (r : NumericReference) : r.text <:+: t ↔ ∃ w, Spells r.text w ∧ w <:+: s := by
  constructor
  · intro hr
    obtain ⟨t', ht', hexpands⟩ := exists_decodeNames cv s
    rw [ht, Except.ok.injEq] at ht'
    subst ht'
    exact hexpands.spelled_of_infix r hr
  · rintro ⟨w, hw, a, b, rfl⟩
    obtain ⟨tail, rfl⟩ := hw.begins
    have hreference : decodeNames cv ('&'.toUInt8 :: (tail ++ b)) =
        (decodeNames cv b).map (r.text ++ ·) := decodeNames_reference r hw b
    rw [List.append_assoc, List.cons_append, decodeNames_cut, hreference] at ht
    obtain ⟨x, -, ht⟩ := bind_eq_ok_iff.mp ht
    obtain ⟨y, hy, rfl⟩ := map_eq_ok_iff.mp ht
    obtain ⟨z, -, rfl⟩ := map_eq_ok_iff.mp hy
    exact ⟨x, z, List.append_assoc x r.text z⟩

end Spelled

/-! ## Decoding -/

theorem valid_htmlDecode_iff (cv : Codecvt) {s : Bytes} (hs : Valid s) :
    (∃ v, htmlDecode cv s = .ok v ∧ Valid v) ↔
      ∀ (r : NumericReference) (w : Bytes), Surrogate r.codePoint → Spells r.text w →
        ¬ w <:+: s := by
  obtain ⟨t, ht, -⟩ := exists_decodeNames cv s
  rw [htmlDecode_eq, ht]
  refine (decodeNumbers_valid_iff cv (valid_decodeNames hs ht)).trans (forall_congr' fun r => ?_)
  rw [infix_decodeNames_iff ht]
  constructor
  · exact fun h w hsurrogate hw hinfix => h hsurrogate ⟨w, hw, hinfix⟩
  · rintro h hsurrogate ⟨w, hw, hinfix⟩
    exact h w hsurrogate hw hinfix

/-- **Decoding keeps text valid** exactly where the text holds no reference to a surrogate, also
none of which the `&`, the `#` or the `;` is written as an entity. -/
theorem htmlDecode_valid_iff (cv : Codecvt) (s : String) :
    (∃ v : String, htmlDecode cv (bytes s) = .ok (bytes v)) ↔
      ∀ (r : NumericReference) (w : Bytes), Surrogate r.codePoint → Spells r.text w →
        ¬ w <:+: bytes s := by
  rw [← valid_htmlDecode_iff cv (valid_iff.mpr ⟨s, rfl⟩)]
  constructor
  · rintro ⟨v, hv⟩
    exact ⟨bytes v, hv, valid_iff.mpr ⟨v, rfl⟩⟩
  · rintro ⟨_, hv, hvalid⟩
    obtain ⟨v, rfl⟩ := valid_iff.mp hvalid
    exact ⟨v, hv⟩

theorem Spells.refl (u : Bytes) : Spells u u := by
  induction u with
  | nil => exact .nil
  | cons x u ih => exact .cons (.plain x) ih

/-- A text that is a reference becomes what is written for its code point. -/
theorem htmlDecode_reference (cv : Codecvt) (r : NumericReference) :
    htmlDecode cv r.text = toBytes cv r.codePoint := by
  have hnames : decodeNames cv r.text = .ok r.text := by
    rw [← List.append_nil r.text, decodeNames_reference r (.refl r.text)]
    exact congrArg Except.ok rfl
  have hnumbers : decodeNumbers cv r.text = toBytes cv r.codePoint := by
    rw [decodeNumbers, utils.regexReplaceCallback_eq, ← List.append_nil r.text,
      marked_matchUnicode.pieces_key ⟨r, rfl, rfl⟩, marked_matchUnicode.pieces_nil, render,
      replaceUnicode_groups]
    cases toBytes cv r.codePoint with
    | error e => rfl
    | ok v => exact congrArg Except.ok (List.append_nil v)
  rw [htmlDecode_eq, hnames]
  exact hnumbers

/-- The reference `&#xD800;`. -/
def surrogateReference : NumericReference :=
  .hex (bytes "D800") (List.all_eq_true.mp (by decide)) (by decide)

/-- For the reference `&#xD800;` the library throws, or writes what is no UTF-8. -/
theorem not_htmlDecode_surrogate :
    htmlDecode .strict (bytes "&#xD800;") = .error .rangeError ∧
      htmlDecode .lenient (bytes "&#xD800;") = .ok [0xED, 0xA0, 0x80] ∧
      (¬ ∀ s : String, ∃ v : String, htmlDecode .strict (bytes s) = .ok (bytes v)) ∧
      ¬ ∀ s : String, ∃ v : String, htmlDecode .lenient (bytes s) = .ok (bytes v) := by
  have htext : bytes "&#xD800;" = surrogateReference.text := by decide
  have hstrict : htmlDecode .strict (bytes "&#xD800;") = .error .rangeError := by
    rw [htext, htmlDecode_reference]
    decide
  have hlenient : htmlDecode .lenient (bytes "&#xD800;") = .ok [0xED, 0xA0, 0x80] := by
    rw [htext, htmlDecode_reference]
    decide
  refine ⟨hstrict, hlenient, fun h => ?_, fun h => ?_⟩
  · obtain ⟨v, hv⟩ := h "&#xD800;"
    rw [hstrict] at hv
    cases hv
  · obtain ⟨v, hv⟩ := h "&#xD800;"
    rw [hlenient, Except.ok.injEq] at hv
    have hvalid : Valid [0xED, 0xA0, 0x80] := valid_iff.mpr ⟨v, hv⟩
    exact absurd (hvalid.follows.rel rfl) (by decide)

end Nawa.encoding
