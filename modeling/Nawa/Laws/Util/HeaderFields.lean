import Nawa.Laws.Util.Separators

/-!
# Header fields, written and read

A field written with a colon and a blank between its name and its value, as `parseHeaders` reads
it.
-/

namespace Nawa.utils

open Lib (AssocMap)
open Lib.Search

/-- A text without line breaks. -/
def Unbroken (s : Bytes) : Prop := ∀ c ∈ s, c ≠ 13 ∧ c ≠ 10

def fieldLine (f : Bytes × Bytes) : Bytes := f.1 ++ bytes ": " ++ f.2

/-- A field as a reader takes it: what stands before the first colon, in lower case, and what
stands behind it, without leading white space. -/
def readField (f : Bytes × Bytes) : Bytes × Bytes :=
  let name := f.1.takeWhile (· ≠ ':'.toUInt8)
  (toLowercase name, trimLeft ((fieldLine f).drop (name.length + 1)))

theorem fieldLine_line {f : Bytes × Bytes} (h : Unbroken f.1 ∧ Unbroken f.2) :
    Line (fieldLine f) := by
  have hcolon : ∀ c ∈ bytes ": ", c ≠ 13 ∧ c ≠ 10 := List.all_iff_forall_prop.mp (by decide)
  refine ⟨fun hnil => ?_, ?_⟩
  · rw [fieldLine, List.append_assoc, List.append_eq_nil_iff, List.append_eq_nil_iff] at hnil
    exact absurd hnil.2.1 (by decide)
  · rw [fieldLine, List.forall_mem_append, List.forall_mem_append]
    exact ⟨⟨h.1, hcolon⟩, h.2⟩

/-- The reader takes the line of a field for that field. -/
theorem headerLine_fieldLine (f : Bytes × Bytes) :
    headerLine (fieldLine f) = some (readField f) := by
  have hline : fieldLine f = f.1 ++ ':'.toUInt8 :: (bytes " " ++ f.2) := List.append_assoc ..
  have hpos := findElem_append_cons ':'.toUInt8 f.1 (bytes " " ++ f.2)
  have hbegins : f.1.takeWhile (· ≠ ':'.toUInt8) <+: f.1 := List.takeWhile_prefix _
  have hle := hbegins.length_le
  have hlen : ¬ (fieldLine f).length < (f.1.takeWhile (· ≠ ':'.toUInt8)).length + 2 := by
    have hblank : (bytes " ").length = 1 := rfl
    rw [hline, List.length_append, List.length_cons, List.length_append, hblank]
    omega
  have htake : (fieldLine f).take (f.1.takeWhile (· ≠ ':'.toUInt8)).length =
      f.1.takeWhile (· ≠ ':'.toUInt8) := by
    rw [hline]
    exact (List.prefix_iff_eq_take.mp (hbegins.trans (List.prefix_append _ _))).symm
  rw [← hline] at hpos
  rw [headerLine, hpos]
  dsimp only
  rw [if_neg hlen, htake, readField]

theorem filterMap_fieldLine (fields : List (Bytes × Bytes)) :
    (fields.map fieldLine).filterMap headerLine = fields.map readField := by
  rw [List.filterMap_map]
  have hcomp : headerLine ∘ fieldLine = some ∘ readField := by
    funext f
    exact headerLine_fieldLine f
  rw [hcomp, List.filterMap_eq_map]

theorem readField_of_noColon {f : Bytes × Bytes} (h : ':'.toUInt8 ∉ f.1) :
    readField f = (toLowercase f.1, trimLeft f.2) := by
  have hname : f.1.takeWhile (· ≠ ':'.toUInt8) = f.1 :=
    List.takeWhile_eq_self_iff.mpr fun c hc => decide_eq_true fun heq => h (heq ▸ hc)
  have hvalue : (fieldLine f).drop (f.1.length + 1) = 32 :: f.2 := by
    have hline : fieldLine f = (f.1 ++ [':'.toUInt8]) ++ 32 :: f.2 := by
      simp only [fieldLine, List.append_assoc]
      rfl
    rw [hline]
    exact List.drop_left' List.length_append
  have htrim : trimLeft (32 :: f.2) = trimLeft f.2 := rfl
  simp only [readField, hname, hvalue, htrim]

/-- With the names distinct, every field has the last word on its name. -/
theorem lastValue_of_mem {fields : List (Bytes × Bytes)} (h : (fields.map Prod.fst).Nodup)
    {f : Bytes × Bytes} (hf : f ∈ fields) : lastValue f.1 fields = some f.2 := by
  have hlookup : (⟨fields, h⟩ : AssocMap Bytes Bytes).lookup f.1 = some f.2 :=
    AssocMap.lookup_eq_some_iff.mpr hf
  have hfilter := AssocMap.filter_eq_lookup ⟨fields, h⟩ f.1
  rw [lastValue, hfilter, hlookup]
  rfl

end Nawa.utils
