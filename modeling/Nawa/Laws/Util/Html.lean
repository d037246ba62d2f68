import Nawa.Laws.Util.HtmlEntities
import Nawa.Laws.Util.Utils
import Nawa.Lib.Utf8

/-!
# HTML decoding after HTML encoding

Both modes of the encoder are undone by the first pass of the decoder, which replaces the named
entities (`decodeNames_htmlEncode`). The second pass then works on the text itself, and changes
it wherever it holds a numeric reference.
-/

namespace Nawa.encoding

open Lib (Regex)
open Lib.Regex

/-! ## UTF-8 -/

theorem bytes_eq_flatMap (s : String) : bytes s = s.toList.flatMap String.utf8EncodeChar := by
  rw [bytes, ← String.utf8Encode_toList, List.utf8Encode, List.toList_data_toByteArray]

theorem fromBytes_bytes (s : String) : fromBytes (bytes s) = .ok s := by
  have harray : (⟨(bytes s).toArray⟩ : ByteArray) = s.toByteArray := by
    rw [bytes, Array.toArray_toList]
  rw [fromBytes, harray, String.fromUTF8?, dif_pos s.isValidUTF8]
  rfl

theorem toBytes_char (cv : Codecvt) (c : Char) :
    toBytes cv c.toNat = .ok (String.utf8EncodeChar c) := by
  have hvalid : c.toNat.isValidChar := c.valid
  rw [toBytes, if_pos hvalid, Char.ofNat_toNat]

/-- Of the bytes of a character, only that of `&` is the byte of `&`. -/
theorem ne_ampersand {c : Char} (h : c ≠ '&') :
    ∀ b ∈ String.utf8EncodeChar c, b ≠ '&'.toUInt8 := by
  rintro b hb rfl
  have hnat := (Lib.Utf8.Valid.encodeChar_of_mem hb (by decide)).2
  exact h (Char.ext (UInt32.toNat_inj.mp hnat))

/-! ## Named entities -/

/-- The first pass of the decoder. -/
def decodeNames (cv : Codecvt) (s : Bytes) : Except StdException Bytes :=
  utils.regexReplaceCallback s matchEntity (replaceEntity cv)

/-- The second pass of the decoder. -/
def decodeNumbers (cv : Codecvt) (s : Bytes) : Except StdException Bytes :=
  utils.regexReplaceCallback s matchUnicode (replaceUnicode cv)

theorem htmlDecode_eq (cv : Codecvt) (s : Bytes) :
    htmlDecode cv s = (decodeNames cv s).bind (decodeNumbers cv) := rfl

section Names

variable {cv : Codecvt}

theorem decodeNames_cons {x : UInt8} (h : x ≠ '&'.toUInt8) (s : Bytes) :
    decodeNames cv (x :: s) = (decodeNames cv s).map (x :: ·) := by
  apply utils.regexReplaceCallback_cons
  simp only [matchAt, matchEntity, run_seq, run_sat_cons, h, decide_false, Bool.false_eq_true,
    if_false]

/-- A text without `&` is not touched. -/
theorem decodeNames_append {w : Bytes} (h : ∀ b ∈ w, b ≠ '&'.toUInt8) (s : Bytes) :
    decodeNames cv (w ++ s) = (decodeNames cv s).map (w ++ ·) := by
  induction w with
  | nil =>
    rw [List.nil_append, map_nil_append]
  | cons x w ih =>
    rw [List.forall_mem_cons] at h
    rw [List.cons_append, decodeNames_cons h.1, ih h.2, map_cons_append]

theorem ne_semicolon_of_isalnum {c : UInt8} (h : isalnum c = true) : c ≠ ';'.toUInt8 := by
  rintro rfl
  exact absurd h (by decide)

theorem matchAt_matchEntity {w : Bytes} (h : EntityText w) (s : Bytes) :
    matchEntity.matchAt (w ++ s) = some (s, fun _ => none) := by
  obtain ⟨letters, rfl, hletters, hpos, hlen⟩ := h
  have hclosing : isalnum ';'.toUInt8 = false := by decide
  have hend : ∀ c ∈ (';'.toUInt8 :: s).head?, isalnum c = false := by
    rintro c ⟨⟩
    exact hclosing
  have htext : '&'.toUInt8 :: (letters ++ [';'.toUInt8]) ++ s =
      '&'.toUInt8 :: (letters ++ ';'.toUInt8 :: s) := by
    rw [List.cons_append, List.append_assoc, List.singleton_append]
  rw [htext, matchAt, matchEntity, run_seq, run_sat_cons, decide_eq_true rfl, if_pos rfl, run_seq,
    run_rep_sat hletters hend ?closes false (Nat.le_trans hpos hlen), if_pos ⟨hpos, hlen⟩,
    run_sat_cons, decide_eq_true rfl, if_pos rfl]
  case closes =>
    intro x t hx
    rw [run_sat_cons, decide_eq_false (ne_semicolon_of_isalnum hx), if_neg Bool.false_ne_true]

/-- An entity of the decode table is replaced by its characters. -/
theorem decodeNames_entity {name : String} {first second : Nat} {v : Bytes}
    (htext : EntityText (bytes name)) (hlookup : htmlDecodeTable.lookup name = some (first, second))
    (hv : ((toBytes cv first).bind fun ret =>
      if second ≠ 0 then (toBytes cv second).map (ret ++ ·) else .ok ret) = .ok v) (s : Bytes) :
    decodeNames cv (bytes name ++ s) = (decodeNames cv s).map (v ++ ·) := by
  have hne : bytes name ≠ [] := by
    obtain ⟨letters, hletters, -⟩ := htext
    rw [hletters]
    exact List.cons_ne_nil _ _
  refine utils.regexReplaceCallback_append hne (matchAt_matchEntity htext s) ?_
  simp only [replaceEntity, utils.at', List.getElem?_cons_zero, Except.bind, fromBytes_bytes,
    hlookup]
  exact hv

/-- The name of a character is replaced by the character. -/
theorem decodeNames_name {c : Char} {name : String}
    (h : htmlEntities.lookup c.toNat = some name) (hne : name ≠ "") (s : Bytes) :
    decodeNames cv (bytes name ++ s) = (decodeNames cv s).map (String.utf8EncodeChar c ++ ·) := by
  obtain ⟨htext, hlookup⟩ := decoded_of_entry h (by rw [decodeEntry, if_pos hne])
  exact decodeNames_entity htext hlookup (by rw [toBytes_char]; rfl) s

/-- The name of a pair of characters is replaced by both. -/
theorem decodeNames_pair {c d : Char} {name : String}
    (h : htmlEntities.lookup c.toNat = some "")
    (hpair : htmlLookaheads.lookup c.toNat = some (d.toNat, name)) (s : Bytes) :
    decodeNames cv (bytes name ++ s) =
      (decodeNames cv s).map (String.utf8EncodeChar c ++ String.utf8EncodeChar d ++ ·) := by
  obtain ⟨htext, hlookup⟩ := decoded_of_entry h
    (by rw [decodeEntry, if_neg (not_not.mpr rfl), hpair, Option.map_some])
  have hsecond : d.toNat ≠ 0 := second_ne_nul _ (Lib.mem_of_lookup hpair)
  refine decodeNames_entity htext hlookup ?_ s
  rw [toBytes_char, toBytes_char]
  exact if_pos hsecond

end Names

/-! ## Encoding of all entities -/

section Loop

variable {lookahead c : Char} {cs : List Char} {name : String}

theorem htmlEncodeLoop_entity (h : htmlEntities.lookup c.toNat = some name) (hne : name ≠ "") :
    htmlEncodeLoop '\x00' (c :: cs) = bytes name ++ htmlEncodeLoop '\x00' cs := by
  simp only [htmlEncodeLoop, h, if_true, if_neg hne]

theorem htmlEncodeLoop_held (h : htmlEntities.lookup c.toNat = some "") :
    htmlEncodeLoop '\x00' (c :: cs) = htmlEncodeLoop c cs := by
  simp only [htmlEncodeLoop, h, if_true]

theorem htmlEncodeLoop_other (h : htmlEntities.lookup c.toNat = none) :
    htmlEncodeLoop '\x00' (c :: cs) = String.utf8EncodeChar c ++ htmlEncodeLoop '\x00' cs := by
  simp only [htmlEncodeLoop, h, if_true]

/-- The character that was held back and the next one have an entity. -/
theorem htmlEncodeLoop_pair (hheld : lookahead ≠ '\x00')
    (h : htmlLookaheads.lookup lookahead.toNat = some (c.toNat, name)) :
    htmlEncodeLoop lookahead (c :: cs) = bytes name ++ htmlEncodeLoop '\x00' cs := by
  simp only [htmlEncodeLoop, h, if_neg hheld, if_true]

/-- The character that was held back stands alone, and the next one is encoded as if none had
been held back. -/
theorem htmlEncodeLoop_alone (hheld : lookahead ≠ '\x00')
    (h : ∀ name, htmlLookaheads.lookup lookahead.toNat ≠ some (c.toNat, name)) :
    htmlEncodeLoop lookahead (c :: cs) =
      String.utf8EncodeChar lookahead ++ htmlEncodeLoop '\x00' (c :: cs) := by
  cases hlookup : htmlLookaheads.lookup lookahead.toNat with
  | none => simp only [htmlEncodeLoop, hlookup, if_neg hheld, if_true]
  | some e =>
    have hne : e.1 ≠ c.toNat := fun heq => h e.2 (by rw [hlookup, ← heq])
    simp only [htmlEncodeLoop, hlookup, if_neg hheld, if_neg hne, if_true]

end Loop

/-- A character that is written as it is. -/
theorem decodeNames_char (cv : Codecvt) {c : Char} (h : htmlEntities.lookup c.toNat ≠ some "&amp;")
    (s : Bytes) : decodeNames cv (String.utf8EncodeChar c ++ s) =
      (decodeNames cv s).map (String.utf8EncodeChar c ++ ·) := by
  refine decodeNames_append (ne_ampersand ?_) s
  rintro rfl
  exact h lookup_escaped.1

theorem decodeNames_held (cv : Codecvt) {c : Char} (h : htmlEntities.lookup c.toNat = some "")
    (s : Bytes) : decodeNames cv (String.utf8EncodeChar c ++ s) =
      (decodeNames cv s).map (String.utf8EncodeChar c ++ ·) :=
  decodeNames_char cv (by rw [h]; decide) s

theorem ne_nul_of_held {c : Char} (h : htmlEntities.lookup c.toNat = some "") : c ≠ '\x00' := by
  rintro rfl
  rw [lookup_nul] at h
  cases h

/-- What the loop writes is read as the characters that it has gone through, and before them the
character that was held back. -/
theorem decodeNames_htmlEncodeLoop (cv : Codecvt) (cs : List Char) :
    decodeNames cv (htmlEncodeLoop '\x00' cs) = .ok (cs.flatMap String.utf8EncodeChar) ∧
      ∀ lookahead : Char, htmlEntities.lookup lookahead.toNat = some "" →
        decodeNames cv (htmlEncodeLoop lookahead cs) =
          .ok (String.utf8EncodeChar lookahead ++ cs.flatMap String.utf8EncodeChar) := by
  induction cs with
  | nil =>
    refine ⟨rfl, fun lookahead hheld => ?_⟩
    have hchar := decodeNames_held cv hheld []
    rw [List.append_nil] at hchar
    rw [htmlEncodeLoop, if_pos (ne_nul_of_held hheld), hchar]
    rfl
  | cons c cs ih =>
    obtain ⟨hrest, hafter⟩ := ih
    have hnext : decodeNames cv (htmlEncodeLoop '\x00' (c :: cs)) =
        .ok ((c :: cs).flatMap String.utf8EncodeChar) := by
      cases hc : htmlEntities.lookup c.toNat with
      | none =>
        rw [htmlEncodeLoop_other hc, decodeNames_char cv (by rw [hc]; nofun), hrest]
        rfl
      | some name =>
        by_cases hname : name = ""
        · subst hname
          rw [htmlEncodeLoop_held hc, hafter c hc]
          rfl
        · rw [htmlEncodeLoop_entity hc hname, decodeNames_name hc hname, hrest]
          rfl
    refine ⟨hnext, fun lookahead hheld => ?_⟩
    have hne := ne_nul_of_held hheld
    by_cases hpair : ∃ name, htmlLookaheads.lookup lookahead.toNat = some (c.toNat, name)
    · obtain ⟨name, hlookup⟩ := hpair
      rw [htmlEncodeLoop_pair hne hlookup, decodeNames_pair hheld hlookup, hrest, List.flatMap_cons,
        ← List.append_assoc]
      rfl
    · rw [htmlEncodeLoop_alone hne (not_exists.mp hpair), decodeNames_held cv hheld, hnext]
      rfl

/-! ## Plain encoding -/

/-- What becomes of a byte where only the special characters are encoded. -/
def escaped (c : UInt8) : Bytes :=
  if c = '&'.toUInt8 then bytes "&amp;"
  else if c = quote then bytes "&quot;"
  else if c = '<'.toUInt8 then bytes "&lt;"
  else if c = '>'.toUInt8 then bytes "&gt;"
  else [c]

/-- The four replacements, one after the other, are one: only the first one finds a character
that the others put in, and it comes before them. -/
theorem htmlEncode_plain (s : Bytes) : htmlEncode s false = .ok (s.flatMap escaped) := by
  have hpatterns : bytes "&" = ['&'.toUInt8] ∧ bytes "<" = ['<'.toUInt8] ∧
      bytes ">" = ['>'.toUInt8] := by decide
  obtain ⟨hamp, hlt, hgt⟩ := hpatterns
  simp only [htmlEncode, Bool.not_false, if_true, hamp, hlt, hgt, replaceAll_singleton,
    List.flatMap_assoc]
  congr 2
  funext c
  unfold escaped
  by_cases h₁ : c = '&'.toUInt8
  · subst h₁
    decide
  by_cases h₂ : c = quote
  · subst h₂
    decide
  by_cases h₃ : c = '<'.toUInt8
  · subst h₃
    decide
  by_cases h₄ : c = '>'.toUInt8
  · subst h₄
    decide
  simp [h₁, h₂, h₃, h₄]

theorem decodeNames_escaped (cv : Codecvt) (s : Bytes) :
    decodeNames cv (s.flatMap escaped) = .ok s := by
  obtain ⟨hamp, hquot, hlt, hgt⟩ := lookup_escaped
  induction s with
  | nil => rfl
  | cons c s ih =>
    have hname : ∀ {x : Char} {name : String}, htmlEntities.lookup x.toNat = some name →
        name ≠ "" → String.utf8EncodeChar x = [c] →
          decodeNames cv (bytes name ++ s.flatMap escaped) = .ok (c :: s) := by
      intro x name h hne hchar
      rw [decodeNames_name h hne, ih, hchar]
      rfl
    rw [List.flatMap_cons, escaped]
    split
    · next h => exact hname hamp (by decide) (h ▸ rfl)
    · next hne =>
      split
      · next h => exact hname hquot (by decide) (h ▸ rfl)
      · split
        · next h => exact hname hlt (by decide) (h ▸ rfl)
        · split
          · next h => exact hname hgt (by decide) (h ▸ rfl)
          · rw [List.singleton_append, decodeNames_cons hne, ih]
            rfl

/-- **The first pass undoes the encoder in both modes.** -/
theorem decodeNames_htmlEncode (cv : Codecvt) (s : String) (encodeAll : Bool) :
    (htmlEncode (bytes s) encodeAll).bind (decodeNames cv) = .ok (bytes s) := by
  cases encodeAll with
  | false =>
    rw [htmlEncode_plain]
    exact decodeNames_escaped cv (bytes s)
  | true =>
    rw [htmlEncode, Bool.not_true, if_neg Bool.false_ne_true, fromBytes_bytes]
    rw [bytes_eq_flatMap]
    exact (decodeNames_htmlEncodeLoop cv s.toList).1

end Nawa.encoding
