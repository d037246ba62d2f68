import Nawa.Nawarun.CommandLine
import Nawa.Laws.Util.Utils

/-!
# Laws of the command line

The overrides are those of the arguments that can be taken apart, in order, whatever stands
between them. An argument in the documented format can be, unless its value has an equals sign.
-/

namespace Nawa.Nawarun

open utils (splitString)

/-! ## The documented format -/

/-- `--<category>:<key>=<value>` -/
def argument (override : (Bytes × Bytes) × Bytes) : Bytes :=
  bytes "--" ++ (override.1.1 ++ ':'.toUInt8 :: override.1.2) ++ '='.toUInt8 :: override.2

def lastArgument : Option Bytes → Bytes
  | some path => path
  | none => bytes "--no-config-file"

structure IsName (s : Bytes) : Prop where
  nonempty : s ≠ []
  colon : ':'.toUInt8 ∉ s
  equals : '='.toUInt8 ∉ s

structure IsOverride (override : (Bytes × Bytes) × Bytes) : Prop where
  category : IsName override.1.1
  key : IsName override.1.2
  value : override.2 ≠ []

/-! ## One argument -/

theorem IsOverride.identifier {override : (Bytes × Bytes) × Bytes} (h : IsOverride override) :
    splitString (override.1.1 ++ ':'.toUInt8 :: override.1.2) ':'.toUInt8 true =
      [override.1.1, override.1.2] := by
  rw [utils.splitString_append_sep,
    utils.splitString_singleton h.category.nonempty h.category.colon,
    utils.splitString_singleton h.key.nonempty h.key.colon]
  rfl

theorem parseOverride_argument {override : (Bytes × Bytes) × Bytes} (h : IsOverride override) :
    parseOverride (argument override) =
      match splitString override.2 '='.toUInt8 true with
      | [value] => some (override.1, value)
      | _ => none := by
  have htake : (argument override).take 2 = bytes "--" := rfl
  have hdrop : (argument override).drop 2 =
      (override.1.1 ++ ':'.toUInt8 :: override.1.2) ++ '='.toUInt8 :: override.2 := rfl
  have hne : override.1.1 ++ ':'.toUInt8 :: override.1.2 ≠ [] :=
    List.append_ne_nil_of_left_ne_nil h.category.nonempty _
  have hequals : '='.toUInt8 ∉ override.1.1 ++ ':'.toUInt8 :: override.1.2 := by
    rw [List.mem_append, List.mem_cons, not_or, not_or]
    exact ⟨h.category.equals, by decide, h.key.equals⟩
  rw [parseOverride, if_pos htake, hdrop, utils.splitString_append_sep,
    utils.splitString_singleton hne hequals, List.singleton_append]
  split
  · next hsplit =>
    obtain ⟨rfl, hvalue⟩ := List.cons.inj hsplit
    rw [hvalue, h.identifier]
  · next hsplit =>
    split
    · next value hvalue => exact absurd (congrArg _ hvalue) (hsplit _ value)
    · rfl

/-- An override is read as it was meant where its value has no equals sign. -/
theorem parseOverride_argument_iff {override : (Bytes × Bytes) × Bytes} (h : IsOverride override) :
    parseOverride (argument override) = some override ↔ '='.toUInt8 ∉ override.2 := by
  rw [parseOverride_argument h]
  constructor
  · intro hread
    split at hread
    · next value hvalue =>
      have hmem := utils.mem_splitString (hvalue ▸ List.mem_singleton_self value)
      rw [← Option.some.inj hread]
      exact hmem.2
    · cases hread
  · intro hequals
    rw [utils.splitString_singleton h.value hequals]

theorem parseOverride_lastArgument {configFile : Option Bytes}
    (h : ∀ path ∈ configFile, path.head? ≠ some '-'.toUInt8) :
    parseOverride (lastArgument configFile) = none := by
  cases configFile with
  | none => decide
  | some path =>
    have hdashes : (lastArgument (some path)).take 2 ≠ bytes "--" := by
      intro htake
      refine h path rfl ?_
      have hhead := congrArg List.head? htake
      rwa [List.head?_take] at hhead
    exact if_neg hdashes

/-! ## The loop -/

namespace CommandLine

theorem overrides_parseArgument (line : CommandLine) (currentArg : Bytes) (last : Bool) :
    (line.parseArgument currentArg last).overrides =
      line.overrides ++ (parseOverride currentArg).toList := by
  rw [parseArgument]
  cases parseOverride currentArg with
  | some override => rfl
  | none =>
    rw [Option.toList_none, List.append_nil]
    dsimp only
    repeat' split
    all_goals rfl

theorem overrides_parseArguments (line : CommandLine) (arguments : List Bytes) :
    (line.parseArguments arguments).overrides =
      line.overrides ++ arguments.filterMap parseOverride := by
  induction arguments generalizing line with
  | nil => rw [parseArguments, List.filterMap_nil, List.append_nil]
  | cons currentArg rest ih =>
    rw [parseArguments, ih, overrides_parseArgument, List.append_assoc, List.filterMap_cons]
    cases parseOverride currentArg <;> rfl

/-- Only the last argument has to do with the config file. -/
theorem configPath_parseArgument (line : CommandLine) (currentArg : Bytes) :
    (line.parseArgument currentArg false).configPath = line.configPath ∧
      (line.parseArgument currentArg false).noConfigFile = line.noConfigFile := by
  rw [parseArgument]
  cases parseOverride currentArg <;> exact ⟨rfl, rfl⟩

theorem configPath_parseArguments {line : CommandLine} {configFile : Option Bytes}
    (hline : line.configPath = none ∧ line.noConfigFile = false)
    (h : ∀ path ∈ configFile, path.head? ≠ some '-'.toUInt8) (arguments : List Bytes) :
    (line.parseArguments (arguments ++ [lastArgument configFile])).configPath = configFile ∧
      (line.parseArguments (arguments ++ [lastArgument configFile])).noConfigFile =
        configFile.isNone := by
  induction arguments generalizing line with
  | nil =>
    rw [List.nil_append, parseArguments, parseArguments, parseArgument,
      parseOverride_lastArgument h, List.isEmpty_nil, if_pos rfl]
    cases configFile with
    | none => exact hline.imp id fun _ => rfl
    | some path =>
      have hpath : lastArgument (some path) ≠ bytes "--no-config-file" :=
        fun heq => h path rfl (congrArg List.head? heq)
      rw [if_pos hpath]
      exact ⟨rfl, hline.2⟩
  | cons currentArg rest ih =>
    have hlast : (rest ++ [lastArgument configFile]).isEmpty = false :=
      List.isEmpty_eq_false_iff.mpr (List.append_ne_nil_of_right_ne_nil _ (List.cons_ne_nil _ _))
    rw [List.cons_append, parseArguments, hlast]
    obtain ⟨hpath, hno⟩ := line.configPath_parseArgument currentArg
    exact ih ⟨hpath.trans hline.1, hno.trans hline.2⟩

end CommandLine

/-! ## The command line -/

/-- The first argument asks neither for the help nor for the version. -/
theorem head_ne_exit {overrides : List ((Bytes × Bytes) × Bytes)} {configFile : Option Bytes}
    (h : ∀ path ∈ configFile, path.head? ≠ some '-'.toUInt8) {exit : Bytes}
    (hdash : exit.head? = some '-'.toUInt8) (hcolon : ':'.toUInt8 ∉ exit)
    (hne : exit ≠ bytes "--no-config-file") :
    (overrides.map argument ++ [lastArgument configFile]).head? ≠ some exit := by
  intro heq
  cases overrides with
  | nil =>
    have hlast : lastArgument configFile = exit := Option.some.inj heq
    cases configFile with
    | none => exact hne hlast.symm
    | some path => exact h path rfl ((congrArg List.head? hlast).trans hdash)
  | cons override overrides =>
    have hfirst : argument override = exit := Option.some.inj heq
    refine hcolon (hfirst ▸ ?_)
    rw [argument, List.mem_append, List.mem_append, List.mem_append]
    exact .inl (.inr (.inr List.mem_cons_self))

theorem parseCommandLine_arguments (program : Bytes)
    (overrides : List ((Bytes × Bytes) × Bytes)) {configFile : Option Bytes}
    (h : ∀ path ∈ configFile, path.head? ≠ some '-'.toUInt8) :
    parseCommandLine (program :: (overrides.map argument ++ [lastArgument configFile])) =
      .ok
        { configFile := configFile
          configOverrides := overrides.filterMap fun o => parseOverride (argument o) } := by
  have hexit : ∀ exit : Bytes, exit.head? = some '-'.toUInt8 → ':'.toUInt8 ∉ exit →
      exit ≠ bytes "--no-config-file" →
        (overrides.map argument ++ [lastArgument configFile]).head? ≠ some exit :=
    fun exit => head_ne_exit h
  have hhelp := hexit (bytes "--help") (by decide) (by decide) (by decide)
  have hh := hexit (bytes "-h") (by decide) (by decide) (by decide)
  have hversion := hexit (bytes "--version") (by decide) (by decide) (by decide)
  have hv := hexit (bytes "-v") (by decide) (by decide) (by decide)
  have hinitial : ({} : CommandLine).configPath = none ∧ ({} : CommandLine).noConfigFile = false :=
    ⟨rfl, rfl⟩
  obtain ⟨hpath, hno⟩ := CommandLine.configPath_parseArguments hinitial h (overrides.map argument)
  have hread := CommandLine.overrides_parseArguments {} (overrides.map argument ++
    [lastArgument configFile])
  rw [List.filterMap_append, List.filterMap_map, List.filterMap_cons_none
    (parseOverride_lastArgument h), List.filterMap_nil, List.append_nil] at hread
  have hdefault : (if configFile = none ∧ configFile.isNone = false then
      some (bytes "config.ini") else configFile) = configFile := by
    cases configFile <;> rfl
  simp only [parseCommandLine, List.drop_one, List.tail_cons]
  rw [if_neg (not_or.mpr ⟨hhelp, hh⟩), if_neg (not_or.mpr ⟨hversion, hv⟩), hpath, hno, hdefault,
    hread]
  rfl

/-- The command line is read as it was meant where no value has an equals sign. -/
theorem parseCommandLine_iff (program : Bytes) {overrides : List ((Bytes × Bytes) × Bytes)}
    (hoverrides : ∀ override ∈ overrides, IsOverride override) {configFile : Option Bytes}
    (hfile : ∀ path ∈ configFile, path.head? ≠ some '-'.toUInt8) :
    parseCommandLine (program :: (overrides.map argument ++ [lastArgument configFile])) =
        .ok { configFile := configFile, configOverrides := overrides } ↔
      ∀ override ∈ overrides, '='.toUInt8 ∉ override.2 := by
  have hread : overrides.filterMap (fun o => parseOverride (argument o)) = overrides ↔
      ∀ override ∈ overrides, parseOverride (argument override) = some override := by
    have hmap := List.filterMap_eq_map_iff_forall_eq_some (l := overrides)
      (f := fun o => parseOverride (argument o)) (g := id)
    rwa [List.map_id] at hmap
  rw [parseCommandLine_arguments program overrides hfile, Except.ok.injEq, Parameters.mk.injEq,
    and_iff_right rfl, hread]
  exact forall₂_congr fun override hmem => parseOverride_argument_iff (hoverrides override hmem)

theorem parseCommandLine_iff_port :
    parseCommandLine [bytes "nawarun", bytes "--http:port=8080", bytes "nawa.ini"] =
        .ok
          { configFile := some (bytes "nawa.ini")
            configOverrides := [((bytes "http", bytes "port"), bytes "8080")] } := by
  have hoverrides : ∀ override ∈ [((bytes "http", bytes "port"), bytes "8080")],
      IsOverride override := by
    intro override hmem
    obtain rfl := List.mem_singleton.mp hmem
    exact ⟨⟨by decide, by decide, by decide⟩, ⟨by decide, by decide, by decide⟩, by decide⟩
  have hfile : ∀ path ∈ some (bytes "nawa.ini"), path.head? ≠ some '-'.toUInt8 := by
    intro path hpath
    obtain rfl := Option.some.inj hpath
    decide
  have hparse := parseCommandLine_iff (bytes "nawarun") hoverrides hfile
  exact hparse.mpr (List.forall_mem_singleton.mpr (by decide))

/-- A URL with a query is not taken apart, and the override is ignored. -/
theorem not_parseCommandLine : ¬ ∀ (program : Bytes) (overrides : List ((Bytes × Bytes) × Bytes)),
    (∀ override ∈ overrides, IsOverride override) → ∀ configFile : Option Bytes,
      (∀ path ∈ configFile, path.head? ≠ some '-'.toUInt8) →
        parseCommandLine (program :: (overrides.map argument ++ [lastArgument configFile])) =
          .ok { configFile := configFile, configOverrides := overrides } := by
  intro h
  have hparse := h (bytes "nawarun") [((bytes "app", bytes "url"), bytes "http://host/?a=b")]
    (fun override hmem => by
      obtain rfl := List.mem_singleton.mp hmem
      exact ⟨⟨by decide, by decide, by decide⟩, ⟨by decide, by decide, by decide⟩, by decide⟩)
    none (fun path hpath => absurd hpath (Option.not_mem_none path))
  have hoverrides := congrArg (fun r => r.toOption.map Parameters.configOverrides) hparse
  revert hoverrides
  decide

end Nawa.Nawarun
