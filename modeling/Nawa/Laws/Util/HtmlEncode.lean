import Nawa.Laws.Util.Html

/-!
# What the HTML encoder writes

Plain escaping is one substitution for the bytes (`htmlEncode_simultaneous`). The encoder of all
entities writes one piece for each token of the greedy reading of the text, in which a character
and the one that may follow it in an entity of two are one token (`htmlEncode_greedy`).
-/

namespace Nawa.encoding

/-! ## Plain escaping -/

/-- What plain escaping puts in for a special character. -/
def escapes : List Bytes := [bytes "&amp;", bytes "&quot;", bytes "&lt;", bytes "&gt;"]

/-- A byte becomes an entity, which has no other special character in it, or stays what it is. -/
theorem escaped_cases (c : UInt8) :
    (∃ w : Bytes, escaped c = '&'.toUInt8 :: w ∧ escaped c ∈ escapes ∧
      ∀ x ∈ w, x ≠ '&'.toUInt8 ∧ x ≠ '<'.toUInt8 ∧ x ≠ '>'.toUInt8 ∧ x ≠ quote) ∨
    escaped c = [c] ∧ c ≠ '&'.toUInt8 ∧ c ≠ '<'.toUInt8 ∧ c ≠ '>'.toUInt8 ∧ c ≠ quote := by
  unfold escaped
  split
  · exact .inl ⟨bytes "amp;", by decide, by decide, List.all_iff_forall_prop.mp (by decide)⟩
  · split
    · exact .inl ⟨bytes "quot;", by decide, by decide, List.all_iff_forall_prop.mp (by decide)⟩
    · split
      · exact .inl ⟨bytes "lt;", by decide, by decide, List.all_iff_forall_prop.mp (by decide)⟩
      · split
        · exact .inl ⟨bytes "gt;", by decide, by decide, List.all_iff_forall_prop.mp (by decide)⟩
        · next hamp hquot hlt hgt => exact .inr ⟨rfl, hamp, hlt, hgt, hquot⟩

/-- Escaped text has none of the characters that end a text or an attribute. -/
theorem ne_special_of_mem_escaped {s : Bytes} {x : UInt8} (h : x ∈ s.flatMap escaped) :
    x ≠ '<'.toUInt8 ∧ x ≠ '>'.toUInt8 ∧ x ≠ quote := by
  have hfirst : '&'.toUInt8 ≠ '<'.toUInt8 ∧ '&'.toUInt8 ≠ '>'.toUInt8 ∧ '&'.toUInt8 ≠ quote := by
    decide
  obtain ⟨c, -, hx⟩ := List.mem_flatMap.mp h
  obtain ⟨w, hw, -, hrest⟩ | ⟨hc, -, hspecial⟩ := escaped_cases c
  · rw [hw, List.mem_cons] at hx
    obtain rfl | hx := hx
    · exact hfirst
    · exact (hrest x hx).2
  · rw [hc, List.mem_singleton] at hx
    rw [hx]
    exact hspecial

/-- The only `&` in what a byte becomes is the first byte of an entity. -/
theorem escape_of_escaped_eq {c : UInt8} {before after : Bytes}
    (h : escaped c = before ++ '&'.toUInt8 :: after) : before = [] ∧ escaped c ∈ escapes := by
  obtain ⟨w, hw, hmem, hrest⟩ | ⟨hc, hne, -⟩ := escaped_cases c
  · refine ⟨?_, hmem⟩
    cases before with
    | nil => rfl
    | cons x before =>
      rw [hw, List.cons_append, List.cons.injEq] at h
      have hinner : '&'.toUInt8 ∈ w := h.2 ▸ List.mem_append_right _ List.mem_cons_self
      exact absurd rfl (hrest _ hinner).1
  · have hmem : '&'.toUInt8 ∈ escaped c := h ▸ List.mem_append_right _ List.mem_cons_self
    rw [hc, List.mem_singleton] at hmem
    exact absurd hmem.symm hne

/-- Every `&` of an escaped text begins an entity. -/
theorem exists_escape {s before after : Bytes}
    (h : s.flatMap escaped = before ++ '&'.toUInt8 :: after) :
    ∃ e ∈ escapes, e <+: '&'.toUInt8 :: after := by
  induction s generalizing before with
  | nil => exact absurd h.symm (List.append_ne_nil_of_right_ne_nil _ (List.cons_ne_nil _ _))
  | cons c s ih =>
    rw [List.flatMap_cons, List.append_eq_append_iff] at h
    obtain ⟨w, -, hrest⟩ | ⟨w, hw, hafter⟩ := h
    · exact ih hrest
    · cases w with
      | nil =>
        have hrest : s.flatMap escaped = [] ++ '&'.toUInt8 :: after := hafter.symm
        exact ih hrest
      | cons x w =>
        rw [List.cons_append, List.cons.injEq] at hafter
        obtain ⟨rfl, rfl⟩ := hafter
        obtain ⟨rfl, hmem⟩ := escape_of_escaped_eq hw
        rw [List.nil_append] at hw
        exact ⟨escaped c, hmem, s.flatMap escaped, by rw [hw, List.cons_append]⟩

/-- **Plain escaping is one substitution for all bytes.** No special character is left, every `&`
begins an entity, and texts can be escaped one by one. -/
theorem htmlEncode_simultaneous (s t : Bytes) :
    htmlEncode s false = .ok (s.flatMap escaped) ∧
      (∀ x ∈ s.flatMap escaped, x ≠ '<'.toUInt8 ∧ x ≠ '>'.toUInt8 ∧ x ≠ quote) ∧
      (∀ before after : Bytes, s.flatMap escaped = before ++ '&'.toUInt8 :: after →
        ∃ e ∈ escapes, e <+: '&'.toUInt8 :: after) ∧
      htmlEncode (s ++ t) false =
        (htmlEncode s false).bind fun v => (htmlEncode t false).map (v ++ ·) := by
  refine ⟨htmlEncode_plain s, fun x => ne_special_of_mem_escaped, fun before after => exists_escape,
    ?_⟩
  rw [htmlEncode_plain, htmlEncode_plain, htmlEncode_plain, List.flatMap_append]
  rfl

/-! ## Greedy tokens -/

/-- A token of the text: one character, or two that have an entity of their own. -/
inductive Token where
  | single (c : Char)
  | pair (c d : Char) (entity : String)

/-- The entity of two characters, if the first one has an empty name and the second one is the
one listed for it. -/
def pairEntity (c d : Char) : Option String :=
  if htmlEntities.lookup c.toNat = some "" then
    match htmlLookaheads.lookup c.toNat with
    | some (second, name) => if second = d.toNat then some name else none
    | none => none
  else none

/-- The greedy reading from left to right. -/
def tokens : List Char → List Token
  | [] => []
  | [c] => [.single c]
  | c :: d :: cs =>
    match pairEntity c d with
    | some name => .pair c d name :: tokens cs
    | none => .single c :: tokens (d :: cs)

/-- The characters of a token. -/
def Token.chars : Token → List Char
  | .single c => [c]
  | .pair c d _ => [c, d]

/-- What is written for a token. -/
def Token.text : Token → Bytes
  | .single c =>
    match htmlEntities.lookup c.toNat with
    | some name => if name = "" then String.utf8EncodeChar c else bytes name
    | none => String.utf8EncodeChar c
  | .pair _ _ entity => bytes entity

theorem pairEntity_eq_some {c d : Char} {name : String} (h : pairEntity c d = some name) :
    htmlEntities.lookup c.toNat = some "" ∧
      htmlLookaheads.lookup c.toNat = some (d.toNat, name) := by
  unfold pairEntity at h
  split at h
  · next hheld =>
    refine ⟨hheld, ?_⟩
    split at h
    · next second entity hlookup =>
      split at h
      · next hd =>
        cases h
        rw [hlookup, hd]
      · cases h
    · cases h
  · cases h

theorem pairEntity_eq_none {c d : Char} (hheld : htmlEntities.lookup c.toNat = some "")
    (h : pairEntity c d = none) (name : String) :
    htmlLookaheads.lookup c.toNat ≠ some (d.toNat, name) := by
  intro hlookup
  simp only [pairEntity, if_pos hheld, hlookup, if_true] at h
  cases h

/-- A token of one character is written before the rest, unless the character is held back. -/
theorem htmlEncodeLoop_single {c : Char} (h : htmlEntities.lookup c.toNat ≠ some "")
    (cs : List Char) :
    htmlEncodeLoop '\x00' (c :: cs) = (Token.single c).text ++ htmlEncodeLoop '\x00' cs := by
  cases hc : htmlEntities.lookup c.toNat with
  | none =>
    rw [htmlEncodeLoop_other hc]
    simp only [Token.text, hc]
  | some name =>
    have hname : name ≠ "" := fun heq => h (heq ▸ hc)
    rw [htmlEncodeLoop_entity hc hname]
    simp only [Token.text, hc, if_neg hname]

theorem text_of_held {c : Char} (h : htmlEntities.lookup c.toNat = some "") :
    (Token.single c).text = String.utf8EncodeChar c := by
  simp only [Token.text, h, if_true]

/-- With nothing held back the loop writes the tokens that follow. -/
theorem htmlEncodeLoop_eq_tokens (cs : List Char) :
    htmlEncodeLoop '\x00' cs = (tokens cs).flatMap Token.text := by
  induction cs using tokens.induct with
  | case1 => rfl
  | case2 c =>
    rw [tokens, List.flatMap_singleton]
    by_cases hheld : htmlEntities.lookup c.toNat = some ""
    · rw [htmlEncodeLoop_held hheld, htmlEncodeLoop, if_pos (ne_nul_of_held hheld),
        text_of_held hheld]
    · rw [htmlEncodeLoop_single hheld]
      exact List.append_nil _
  | case3 c d cs name hpair ih =>
    obtain ⟨hheld, hlookup⟩ := pairEntity_eq_some hpair
    simp only [tokens, hpair, List.flatMap_cons]
    rw [htmlEncodeLoop_held hheld, htmlEncodeLoop_pair (ne_nul_of_held hheld) hlookup, ih]
    rfl
  | case4 c d cs hpair ih =>
    simp only [tokens, hpair, List.flatMap_cons]
    by_cases hheld : htmlEntities.lookup c.toNat = some ""
    · -- the mismatch writes what was held back, and goes on with `d` from the start
      rw [htmlEncodeLoop_held hheld,
        htmlEncodeLoop_alone (ne_nul_of_held hheld) (pairEntity_eq_none hheld hpair),
        text_of_held hheld, ih]
    · rw [htmlEncodeLoop_single hheld, ih]

theorem tokens_chars (cs : List Char) : (tokens cs).flatMap Token.chars = cs := by
  induction cs using tokens.induct with
  | case1 => rfl
  | case2 c => rfl
  | case3 c d cs name hpair ih =>
    simp only [tokens, hpair, List.flatMap_cons, ih]
    rfl
  | case4 c d cs hpair ih =>
    simp only [tokens, hpair, List.flatMap_cons, ih]
    rfl

/-- **The encoder of all entities writes the tokens of the text in order**, and these are all of
its characters. -/
theorem htmlEncode_greedy (s : String) :
    htmlEncode (bytes s) true = .ok ((tokens s.toList).flatMap Token.text) ∧
      (tokens s.toList).flatMap Token.chars = s.toList := by
  refine ⟨?_, tokens_chars s.toList⟩
  rw [htmlEncode, Bool.not_true, if_neg Bool.false_ne_true, fromBytes_bytes, Except.map,
    htmlEncodeLoop_eq_tokens]

end Nawa.encoding
