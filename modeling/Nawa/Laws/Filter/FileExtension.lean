import Nawa.Filter.AccessFilter
import Nawa.Lib.Search

/-!
# File names without a dot

`getFileExtension` is to be empty where the name has no dot, but `npos + 1` is 0, so the name
itself is taken for its extension. An access filter is misled by that exactly where such a name
is on its list of extensions (`extension_without_dot_iff`).
-/

namespace Nawa

open Lib.Search

namespace utils

/-- What the extension of a file name is to be. -/
structure SplitsExtension (filename : Bytes) : Prop where
  without_dot : '.'.toUInt8 ∉ filename → getFileExtension filename = []
  with_dot : '.'.toUInt8 ∈ filename →
    ∃ stem, filename = stem ++ '.'.toUInt8 :: getFileExtension filename ∧
      '.'.toUInt8 ∉ getFileExtension filename

theorem getFileExtension_of_not_mem {filename : Bytes} (h : '.'.toUInt8 ∉ filename) :
    getFileExtension filename = filename := by
  rw [getFileExtension, findLastElem_eq_none.mpr h]

theorem getFileExtension_append {extension : Bytes} (h : '.'.toUInt8 ∉ extension) (stem : Bytes) :
    getFileExtension (stem ++ '.'.toUInt8 :: extension) = extension := by
  rw [getFileExtension, findLastElem_append_sep h]
  exact drop_append_sep stem extension _

/-- A text with a dot, cut at the last one. -/
theorem exists_last_dot {filename : Bytes} (h : '.'.toUInt8 ∈ filename) :
    ∃ stem extension, filename = stem ++ '.'.toUInt8 :: extension ∧ '.'.toUInt8 ∉ extension := by
  obtain ⟨after, before, hrev, hafter⟩ :=
    List.eq_append_cons_of_mem (List.mem_reverse.mpr h)
  refine ⟨before.reverse, after.reverse, ?_, fun hmem => hafter (List.mem_reverse.mp hmem)⟩
  rw [← filename.reverse_reverse, hrev, List.reverse_append, List.reverse_cons, List.append_assoc,
    List.singleton_append]

theorem splitsExtension_iff (filename : Bytes) :
    SplitsExtension filename ↔ filename = [] ∨ '.'.toUInt8 ∈ filename := by
  constructor
  · intro h
    by_cases hdot : '.'.toUInt8 ∈ filename
    · exact .inr hdot
    · exact .inl (getFileExtension_of_not_mem hdot ▸ h.without_dot hdot)
  · rintro (rfl | hdot)
    · exact ⟨fun _ => rfl, fun h => absurd h List.not_mem_nil⟩
    · obtain ⟨stem, extension, rfl, hnot⟩ := exists_last_dot hdot
      refine ⟨fun h => absurd hdot h, fun _ => ⟨stem, ?_⟩⟩
      rw [getFileExtension_append hnot]
      exact ⟨rfl, hnot⟩

end utils

namespace AccessFilter

/-- The conditions apart from the one on the extension. -/
def otherConditions (flt : AccessFilter) (requestPath : List Bytes) : Bool :=
  (flt.pathFilter = [] || flt.pathMatches requestPath != flt.invertPathFilter) &&
    flt.regexMatches requestPath

/-- A file without an extension does not match a list of extensions, and it always satisfies the
inverted condition, so that the others decide. -/
structure SkipsFile (flt : AccessFilter) (requestPath : List Bytes) : Prop where
  plain : flt.invertExtensionFilter = false → flt.isMatch requestPath = some false
  inverted : flt.invertExtensionFilter = true →
    flt.isMatch requestPath = some (flt.otherConditions requestPath)

/-- The three conditions, for a path with a file. -/
theorem isMatch_eq {flt : AccessFilter} {requestPath : List Bytes} {filename : Bytes}
    (hfile : requestPath.getLast? = some filename) (hext : flt.extensionFilter ≠ []) :
    flt.isMatch requestPath = some (flt.otherConditions requestPath &&
      (decide (utils.getFileExtension filename ∈ flt.extensionFilter) !=
        flt.invertExtensionFilter)) := by
  rw [isMatch, if_neg hext, hfile, otherConditions]
  dsimp only
  by_cases hpath : flt.pathFilter = []
  · rw [if_neg fun h => h.1 hpath, hpath, decide_eq_true rfl, Bool.true_or, Bool.true_and]
    split
    · next heq => rw [heq, bne_self_eq_false, Bool.and_false]
    · next hne => rw [bne_iff_ne.mpr hne, Bool.and_true]
  · rw [decide_eq_false hpath, Bool.false_or]
    split
    · next h => rw [h.2, bne_self_eq_false, Bool.false_and, Bool.false_and]
    · next h =>
      rw [bne_iff_ne.mpr fun heq => h ⟨hpath, heq⟩, Bool.true_and]
      split
      · next heq => rw [heq, bne_self_eq_false, Bool.and_false]
      · next hne => rw [bne_iff_ne.mpr hne, Bool.and_true]

theorem skipsFile_iff {flt : AccessFilter} {requestPath : List Bytes} {filename : Bytes}
    (hfile : requestPath.getLast? = some filename) (hdot : '.'.toUInt8 ∉ filename)
    (hext : flt.extensionFilter ≠ []) :
    flt.SkipsFile requestPath ↔
      filename ∉ flt.extensionFilter ∨ flt.otherConditions requestPath = false := by
  have hmatch := isMatch_eq hfile hext
  rw [utils.getFileExtension_of_not_mem hdot] at hmatch
  constructor
  · rintro ⟨hplain, hinverted⟩
    by_contra hnot
    obtain ⟨hlisted, hothers⟩ := not_or.mp hnot
    rw [decide_eq_true (not_not.mp hlisted), eq_true_of_ne_false hothers, Bool.true_and] at hmatch
    cases hinv : flt.invertExtensionFilter with
    | false =>
      rw [hinv, hplain hinv] at hmatch
      cases hmatch
    | true =>
      rw [hinv, hinverted hinv, eq_true_of_ne_false hothers] at hmatch
      cases hmatch
  · rintro (hlisted | hothers)
    · rw [decide_eq_false hlisted] at hmatch
      refine ⟨fun hinv => ?_, fun hinv => ?_⟩
      · rw [hmatch, hinv, bne_self_eq_false, Bool.and_false]
      · rw [hmatch, hinv, Bool.false_bne, Bool.and_true]
    · rw [hothers, Bool.false_and] at hmatch
      exact ⟨fun _ => hmatch, fun _ => by rw [hmatch, hothers]⟩

end AccessFilter

/-- **Where names without a dot are told from extensions.** Only the empty name is, and a filter
takes such a name in the path for an extension exactly when it is one of its extensions. -/
theorem extension_without_dot_iff (filename : Bytes) (flt : AccessFilter)
    (requestPath : List Bytes) :
    (utils.SplitsExtension filename ↔ filename = [] ∨ '.'.toUInt8 ∈ filename) ∧
      (requestPath.getLast? = some filename → '.'.toUInt8 ∉ filename →
        flt.extensionFilter ≠ [] → (∀ e ∈ flt.extensionFilter, e ≠ []) →
          (flt.SkipsFile requestPath ↔
            filename ∉ flt.extensionFilter ∨ flt.otherConditions requestPath = false)) :=
  ⟨utils.splitsExtension_iff filename,
    fun hfile hdot hext _ => AccessFilter.skipsFile_iff hfile hdot hext⟩

/-- A file `txt` has the extension `txt`, and a filter for text files blocks it. -/
theorem extension_of_txt :
    (¬ ∀ filename : Bytes, utils.SplitsExtension filename) ∧
      ¬ ∀ (flt : AccessFilter) (requestPath : List Bytes) (filename : Bytes),
        requestPath.getLast? = some filename → '.'.toUInt8 ∉ filename →
          flt.extensionFilter ≠ [] → (∀ e ∈ flt.extensionFilter, e ≠ []) →
            flt.SkipsFile requestPath := by
  refine ⟨fun h => ?_, fun h => ?_⟩
  · have hext := (h (bytes "txt")).without_dot (by decide)
    exact absurd hext (by decide)
  · have hskips := h { extensionFilter := [bytes "txt"] } [bytes "txt"] (bytes "txt") rfl
      (by decide) (List.cons_ne_nil _ _) (List.forall_mem_singleton.mpr (by decide))
    exact absurd (hskips.plain rfl) (by decide)

end Nawa
