import Nawa.Laws.Util.Bytes
import Nawa.Lib.Distinct
import Nawa.Util.Html

/-!
# The entity tables

What the encoder and the decoder of HTML rely on: every name is found by the decoder's
expression, no two entities have the same name, and `&` has one. With these the decode table
undoes the tables of the encoder (`lookup_decode_entity`, `lookup_decode_lookahead`).
-/

namespace Nawa.encoding

open Lib (mem_of_lookup lookup_of_mem)
open Lib.Distinct

/-- The text of an entity, as `matchEntity` finds it. -/
def EntityText (w : Bytes) : Prop :=
  ∃ letters : Bytes, w = '&'.toUInt8 :: (letters ++ [';'.toUInt8]) ∧
    (∀ c ∈ letters, isalnum c = true) ∧ 1 ≤ letters.length ∧ letters.length ≤ 25

/-- At most `n` letters or digits, and then the end of a name. -/
def endsName : Nat → Bytes → Bool
  | 0, w => w = [';'.toUInt8]
  | _ + 1, [] => false
  | n + 1, c :: w => if isalnum c then endsName n w else c :: w = [';'.toUInt8]

def isEntityText : Bytes → Bool
  | c :: d :: w => c = '&'.toUInt8 && isalnum d && endsName 24 w
  | _ => false

theorem endsName_sound {n : Nat} {w : Bytes} (h : endsName n w = true) :
    ∃ letters : Bytes, w = letters ++ [';'.toUInt8] ∧ (∀ c ∈ letters, isalnum c = true) ∧
      letters.length ≤ n := by
  have hnone : ∀ {n : Nat} {w : Bytes}, w = [';'.toUInt8] →
      ∃ letters : Bytes, w = letters ++ [';'.toUInt8] ∧ (∀ c ∈ letters, isalnum c = true) ∧
        letters.length ≤ n := fun h => ⟨[], h, nofun, Nat.zero_le _⟩
  induction n generalizing w with
  | zero => exact hnone (of_decide_eq_true h)
  | succ n ih =>
    cases w with
    | nil => cases h
    | cons c w =>
      rw [endsName] at h
      split at h
      · next hc =>
        obtain ⟨letters, rfl, hletters, hlen⟩ := ih h
        refine ⟨c :: letters, rfl, ?_, Nat.succ_le_succ hlen⟩
        rw [List.forall_mem_cons]
        exact ⟨hc, hletters⟩
      · exact hnone (of_decide_eq_true h)

theorem entityText_of_isEntityText {w : Bytes} (h : isEntityText w = true) : EntityText w := by
  match w, h with
  | c :: d :: w, h =>
    rw [isEntityText, Bool.and_eq_true, Bool.and_eq_true, decide_eq_true_eq] at h
    obtain ⟨⟨rfl, hd⟩, hend⟩ := h
    obtain ⟨letters, rfl, hletters, hlen⟩ := endsName_sound hend
    refine ⟨d :: letters, rfl, ?_, Nat.succ_le_succ (Nat.zero_le _), Nat.succ_le_succ hlen⟩
    rw [List.forall_mem_cons]
    exact ⟨hd, hletters⟩

/-! ## Names -/

/-- Every name, with the characters that it stands for. -/
def namedEntries : List (String × Nat × Nat) :=
  (htmlEntities.filter fun e => !(bytes e.2).isEmpty).map (fun e => (e.2, e.1, 0)) ++
    htmlLookaheads.map (fun e => (e.2.2, e.1, e.2.1)) ++ [("&fjlig;", 0x66, 0x6A)]

def names : List Bytes := namedEntries.map fun e => bytes e.1

/-- A number for a name. The modulus is one that tells all names of the tables apart. -/
def nameNumber (w : Bytes) : Nat := w.foldl (fun n c => n * 256 + c.toNat) 0 % 122023

/-- The bytes that a numeric reference is written with. -/
def isReferenceByte (c : UInt8) : Bool :=
  c = '&'.toUInt8 || c = '#'.toUInt8 || c = ';'.toUInt8 || c = 'x'.toUInt8 || isxdigit c

/-- The entities with a character of a numeric reference. -/
def referenceEntries : List (String × Nat × Nat) :=
  [("&amp;", 0x26, 0), ("&num;", 0x23, 0), ("&semi;", 0x3B, 0), ("&fjlig;", 0x66, 0x6A)]

/-- The code points of an entity are characters, of which only the entities above have one of a
numeric reference at their beginning. -/
def areCharacters (e : String × Nat × Nat) : Bool :=
  e.2.1.isValidChar && e.2.2.isValidChar && e.2.2 ≠ 0x26 &&
    (128 ≤ e.2.1 || !isReferenceByte (UInt8.ofNat e.2.1) || referenceEntries.contains e)

/-- What holds of the tables entry by entry, in one run of the kernel through them. -/
theorem tables_checked :
    names.all isEntityText = true ∧ distinctFrom 0 (names.map nameNumber) = true ∧
      htmlEntities.lookup '&'.toNat = some "&amp;" ∧
      htmlEntities.lookup '"'.toNat = some "&quot;" ∧
      htmlEntities.lookup '<'.toNat = some "&lt;" ∧
      htmlEntities.lookup '>'.toNat = some "&gt;" ∧
      htmlEntities.lookup '\x00'.toNat = none ∧ (∀ e ∈ htmlLookaheads, e.2.1 ≠ 0) ∧
      namedEntries.all areCharacters = true ∧ htmlEntities.lookup '#'.toNat = some "&num;" ∧
      htmlEntities.lookup ';'.toNat = some "&semi;" := by
  decide +kernel

theorem entityText_of_mem {e : String × Nat × Nat} (h : e ∈ namedEntries) :
    EntityText (bytes e.1) := by
  have hall := tables_checked.1
  exact entityText_of_isEntityText (List.all_eq_true.mp hall _ (List.mem_map_of_mem h))

/-- A name stands for one thing. -/
theorem namedEntries_unique {e e' : String × Nat × Nat} (h : e ∈ namedEntries)
    (h' : e' ∈ namedEntries) (hname : e.1 = e'.1) : e = e' := by
  have hnodup : names.Nodup := nodup_of_distinct tables_checked.2.1
  exact List.inj_on_of_nodup_map hnodup h h' (congrArg bytes hname)

/-! ## The decode table -/

theorem bytes_ne_nil {s : String} (h : s ≠ "") : bytes s ≠ [] := by
  intro hnil
  apply h
  rw [← String.toByteArray_inj]
  exact ByteArray.ext (Array.toList_inj.mp hnil)

theorem mem_namedEntries {e : String × Nat × Nat} (h : e ∈ htmlDecodeTable) :
    e ∈ namedEntries := by
  rw [namedEntries]
  rcases List.mem_append.mp h with h | h
  · apply List.mem_append_left
    obtain ⟨⟨c, name⟩, hentry, hdecode⟩ := List.mem_filterMap.mp h
    rw [decodeEntry] at hdecode
    split at hdecode
    · next hname =>
      cases hdecode
      refine List.mem_append_left _ (List.mem_map.mpr ⟨(c, name), ?_, rfl⟩)
      rw [List.mem_filter, Bool.not_eq_true', List.isEmpty_eq_false_iff]
      exact ⟨(List.mem_filter.mp hentry).1, bytes_ne_nil hname⟩
    · obtain ⟨lookahead, hlookup, rfl⟩ := Option.map_eq_some_iff.mp hdecode
      exact List.mem_append_right _ (List.mem_map.mpr ⟨_, mem_of_lookup hlookup, rfl⟩)
  · exact List.mem_append_right _ h

theorem lookup_of_mem_decodeTable {e : String × Nat × Nat} (h : e ∈ htmlDecodeTable) :
    htmlDecodeTable.lookup e.1 = some e.2 := by
  refine lookup_of_mem h fun v hv => ?_
  have heq := namedEntries_unique (mem_namedEntries hv) (mem_namedEntries h) rfl
  exact congrArg Prod.snd heq

theorem mem_elements {entries : List (Nat × String)} {c : Nat} {name : String}
    (h : entries.lookup c = some name) : (c, name) ∈ elements entries :=
  List.mem_filter.mpr ⟨mem_of_lookup h, decide_eq_true h⟩

/-- What an entity becomes in the decode table is found there, under a text that the expression
finds. -/
theorem decoded_of_entry {c : Nat} {name : String} {e : String × Nat × Nat}
    (h : htmlEntities.lookup c = some name) (hentry : decodeEntry (c, name) = some e) :
    EntityText (bytes e.1) ∧ htmlDecodeTable.lookup e.1 = some e.2 := by
  have hmem : e ∈ htmlDecodeTable :=
    List.mem_append_left _ (List.mem_filterMap.mpr ⟨(c, name), mem_elements h, hentry⟩)
  exact ⟨entityText_of_mem (mem_namedEntries hmem), lookup_of_mem_decodeTable hmem⟩

/-! ## Single entries -/

theorem lookup_escaped :
    htmlEntities.lookup '&'.toNat = some "&amp;" ∧
      htmlEntities.lookup '"'.toNat = some "&quot;" ∧
      htmlEntities.lookup '<'.toNat = some "&lt;" ∧
      htmlEntities.lookup '>'.toNat = some "&gt;" := by
  obtain ⟨-, -, hamp, hquot, hlt, hgt, -⟩ := tables_checked
  exact ⟨hamp, hquot, hlt, hgt⟩

/-- What marks that no character is held back is not a character that could be. -/
theorem lookup_nul : htmlEntities.lookup '\x00'.toNat = none := by
  obtain ⟨-, -, -, -, -, -, hnul, -⟩ := tables_checked
  exact hnul

/-- The other bytes of a numeric reference that have a name. -/
theorem lookup_spelled :
    htmlEntities.lookup '#'.toNat = some "&num;" ∧
      htmlEntities.lookup ';'.toNat = some "&semi;" := by
  obtain ⟨-, -, -, -, -, -, -, -, -, hnum, hsemi⟩ := tables_checked
  exact ⟨hnum, hsemi⟩

theorem areCharacters_of_mem {e : String × Nat × Nat} (h : e ∈ namedEntries) :
    areCharacters e = true := by
  obtain ⟨-, -, -, -, -, -, -, -, hall, -⟩ := tables_checked
  exact List.all_eq_true.mp hall e h

theorem second_ne_nul : ∀ e ∈ htmlLookaheads, e.2.1 ≠ 0 := by
  obtain ⟨-, -, -, -, -, -, -, hsecond, -⟩ := tables_checked
  exact hsecond

end Nawa.encoding
