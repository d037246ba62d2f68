import Nawa.Laws.Config.Ini
import Nawa.Laws.Nawarun.Overrides

/-!
# The values of a configuration

`Config.get_of_document`: what `nawarun` finds under a key, given the configuration file and the
overrides of its command line.
-/

namespace Nawa

/-- The first value that a list of entries gives to a key. -/
def firstValue (entries : List Ini.Entry) (key : Bytes × Bytes) : Option Bytes :=
  (entries.find? fun e => e.1 = key).map (·.2)

namespace Config

theorem lookup_insert (config : Config) (entries : List Ini.Entry) (key : Bytes × Bytes) :
    (config.insert entries).values.lookup key =
      (config.values.lookup key).or (firstValue entries key) := by
  induction entries generalizing config with
  | nil => exact (Option.or_none).symm
  | cons e entries ih =>
    rw [insert, List.foldl_cons, ← insert, ih, firstValue, firstValue, List.find?_cons, isSet]
    by_cases he : e.1 = key
    · subst he
      cases hlookup : config.values.lookup e.1 with
      | none =>
        simp only [Option.isSome_none, Bool.false_eq_true, if_false, set,
          Lib.AssocMap.lookup_insert, if_true, Option.some_or, Option.none_or, decide_true,
          Option.map_some]
      | some value =>
        simp only [Option.isSome_some, if_true, hlookup, Option.some_or]
    · rw [decide_eq_false he]
      split
      · rfl
      · rw [set, Lib.AssocMap.lookup_insert, if_neg (Ne.symm he)]

/-- The value of a key is the last override of it, else the first value in the file, else empty. A
layout, comments and a byte order mark make no difference. -/
theorem get_of_document (d : Ini.Document) (overrides : List ((Bytes × Bytes) × Bytes)) :
    ∃ config, Config.read {} (some d.text) = .ok config ∧ ∀ sectionName key,
      (config.override overrides).get sectionName key =
        ((lastOverride overrides (sectionName, key)).or
          (firstValue d.entries (sectionName, key))).getD [] := by
  refine ⟨_, rfl, fun sectionName key => ?_⟩
  rw [get, lookup_override, lookup_insert, Ini.parse_text, Lib.AssocMap.lookup_empty,
    Option.none_or]

open Ini

theorem commentless_of_not_mem {s : Bytes} (h : ';'.toUInt8 ∉ s) : Commentless s :=
  fun _ _ hpart => h (hpart.subset (List.mem_cons_of_mem _ List.mem_cons_self))

theorem forall_mem_of_eq_some {o : Option UInt8} {c : UInt8} {P : UInt8 → Prop} (h : o = some c)
    (hc : P c) : ∀ d ∈ o, P d :=
  fun _ hd => Option.some.inj (h.symm.trans hd) ▸ hc

def space : Blanks := ⟨bytes " ", List.forall_mem_singleton.mpr (by decide)⟩

/-- The line `port = 8080 ; HTTP`. -/
def samplePair : Pair where
  name := bytes "port"
  gap := space
  separator := '='.toUInt8
  indent := space
  value := bytes "8080"
  remark :=
    { gap := space
      comment := some (bytes " HTTP")
      spaced := fun _ => by decide
      oneLine := by
        rintro s ⟨⟩
        exact List.all_iff_forall_prop.mp (by decide) }
  nameOneLine := List.all_iff_forall_prop.mp (by decide)
  nameTrimmed :=
    ⟨forall_mem_of_eq_some rfl (by decide), forall_mem_of_eq_some rfl (by decide)⟩
  nameCommentless := commentless_of_not_mem (by decide)
  nameNonempty := by decide
  nameFirst := forall_mem_of_eq_some rfl (by decide)
  noSeparator := List.all_iff_forall_prop.mp (by decide)
  isSeparator := by decide
  valueOneLine := List.all_iff_forall_prop.mp (by decide)
  valueTrimmed :=
    ⟨forall_mem_of_eq_some rfl (by decide), forall_mem_of_eq_some rfl (by decide)⟩
  valueCommentless := commentless_of_not_mem (by decide)

/-- A section with that line, below a blank one and behind a byte order mark. -/
def sampleDocument : Document where
  marked := true
  leading := []
  sections :=
    [{ before := [.blank space]
       header :=
         { name := bytes "http"
           rest := []
           oneLine := List.all_iff_forall_prop.mp (by decide)
           noBracket := by decide
           commentless := commentless_of_not_mem (by decide) }
       items := [⟨[], samplePair, []⟩] }]
  trailing := []
  fits := List.all_iff_forall_prop.mp (by decide)
  markFits := fun _ => by decide
  unmarked := by decide

/-- The last override of the host counts, and the port is read from the file. -/
theorem get_of_document_sample : ∃ config,
    Config.read {} (some (byteOrderMark ++ bytes " \n[http]\nport = 8080 ; HTTP\n")) = .ok config ∧
      (config.override [((bytes "http", bytes "host"), bytes "a"),
        ((bytes "http", bytes "host"), bytes "b")]).get (bytes "http") (bytes "port") =
          bytes "8080" ∧
      (config.override [((bytes "http", bytes "host"), bytes "a"),
        ((bytes "http", bytes "host"), bytes "b")]).get (bytes "http") (bytes "host") =
          bytes "b" := by
  obtain ⟨config, hread, hget⟩ := get_of_document sampleDocument
    [((bytes "http", bytes "host"), bytes "a"), ((bytes "http", bytes "host"), bytes "b")]
  exact ⟨config, hread, hget _ _, hget _ _⟩

end Config

end Nawa
