import Nawa.Connection.ApplyFilters
import Nawa.Laws.Util.Utils
import Nawa.Lib.LexicalPath

/-!
# Where forward filters read

The path that `applyFilters` sends a file from, on behalf of a forward filter, against the base
path of the filter. `splitPath` keeps elements `..`, and nothing on the way to `sendFile` looks at
what an element means; so whether the path stays below the base path is a matter of the request.

Symbolic links and the decoding of percent signs play no part: the path is the text of the
request, and it is resolved as a text.
-/

namespace Nawa.Connection

open Lib.LexicalPath

variable {Fn V : Type}

/-- The spelling of paths of the operating system. -/
def pathSyntax : Syntax UInt8 := ⟨'/'.toUInt8, bytes ".", bytes ".."⟩

/-- The elements that a filter appends to its base path. -/
def appendedElements (flt : ForwardFilter) (requestPath : List Bytes) : List Bytes :=
  match flt.basePathExtension with
  | .byPath => requestPath
  | .byFilename => requestPath.getLast?.toList

/-- The appended elements climb above the base path by no levels, or they go back down to it by
the very names of its last elements. -/
def StaysBelow (flt : ForwardFilter) (requestPath : List Bytes) : Prop :=
  let base := resolve pathSyntax flt.basePath
  let climbed := climb pathSyntax ((appendedElements flt requestPath).filter (· ≠ bytes "."))
  base.drop (base.length - climbed.1) <+: climbed.2

instance (flt : ForwardFilter) (requestPath : List Bytes) :
    Decidable (StaysBelow flt requestPath) :=
  inferInstanceAs (Decidable (_ <+: _))

/-! ## The path of a forward filter -/

theorem forwardPath_eq {flt : ForwardFilter} {requestPath : List Bytes} {path : Bytes}
    (h : forwardPath flt requestPath = some path) :
    path = flt.basePath ++ (appendedElements flt requestPath).flatMap ('/'.toUInt8 :: ·) := by
  cases hext : flt.basePathExtension with
  | byPath =>
    simp only [forwardPath, appendedElements, hext] at h ⊢
    cases h
    rfl
  | byFilename =>
    simp only [forwardPath, appendedElements, hext] at h ⊢
    obtain ⟨filename, hlast, rfl⟩ := Option.map_eq_some_iff.mp h
    rw [hlast, Option.toList_some, List.flatMap_cons, List.flatMap_nil, List.append_nil]

theorem mem_appendedElements {flt : ForwardFilter} {requestPath : List Bytes} {e : Bytes}
    (h : e ∈ appendedElements flt requestPath) : e ∈ requestPath := by
  unfold appendedElements at h
  split at h
  · exact h
  · rw [Option.mem_toList] at h
    exact List.mem_of_getLast? h

/-- The elements of a request path are neither empty nor do they hold a slash. -/
theorem mem_getRequestPath {request : Request} {e : Bytes} (h : e ∈ request.getRequestPath) :
    e ≠ [] ∧ '/'.toUInt8 ∉ e :=
  utils.mem_splitString h

/-- Whether the path of a forward filter stays below its base path. -/
theorem below_forwardPath_iff {flt : ForwardFilter} {request : Request} {path : Bytes}
    (h : forwardPath flt request.getRequestPath = some path) :
    Below pathSyntax flt.basePath path ↔ StaysBelow flt request.getRequestPath := by
  rw [forwardPath_eq h]
  exact below_join_iff pathSyntax flt.basePath fun e he =>
    mem_getRequestPath (mem_appendedElements he)

/-! ## The events of a run of the filters -/

/-- The filter that is found stands at its position. -/
theorem findApplicable_getElem? {Flt : Type} {toAccessFilter : Flt → AccessFilter}
    {requestPath : List Bytes} {filters : List Flt} {k n : Nat} {flt : Flt}
    (h : findApplicable toAccessFilter requestPath k filters = .ok (some (n, flt))) :
    ∃ i, n = k + i ∧ filters[i]? = some flt := by
  induction filters generalizing k with
  | nil => cases h
  | cons f rest ih =>
    unfold findApplicable at h
    split at h
    · cases h
    · cases h
      exact ⟨0, rfl, rfl⟩
    · obtain ⟨i, hi, hget⟩ := ih h
      exact ⟨i + 1, by omega, hget⟩

theorem sentFile_of_forwardStage {env : FilterContext Fn V} {filters : List ForwardFilter}
    {requestPath : List Bytes} {store : SessionStore V} {conn : Connection} {flt : ForwardFilter}
    {path : Bytes}
    (h : .sentFile flt path ∈ (forwardStage env filters requestPath store conn).events) :
    flt ∈ filters ∧ forwardPath flt requestPath = some path := by
  unfold forwardStage at h
  split at h
  · cases h
  · cases h
  · next n f hfind =>
    obtain ⟨i, -, hget⟩ := findApplicable_getElem? hfind
    have hmem : f ∈ filters := List.mem_of_getElem? hget
    split at h
    · cases h
    · next p hpath =>
      split at h <;>
      · obtain ⟨rfl, rfl⟩ := FilterEvent.sentFile.inj (List.mem_singleton.mp h)
        exact ⟨hmem, hpath⟩

/-- Authentication sends no file. -/
theorem not_sentFile_of_authStage {env : FilterContext Fn V} {n : Nat} {auth : AuthFilter Fn}
    {store : SessionStore V} {conn : Connection} {flt : ForwardFilter} {path : Bytes} :
    .sentFile flt path ∉ (authStage env n auth store conn).events := by
  have hauth : ∀ (store : SessionStore V) (conn : Connection),
      .sentFile flt path ∉ (authenticate env n auth store conn).events := by
    intro store conn
    unfold authenticate
    dsimp only
    split
    · exact List.not_mem_nil
    · exact List.not_mem_nil
    · exact List.not_mem_nil
    · split
      · exact fun h => nomatch List.mem_singleton.mp h
      · split
        · split <;> exact fun h => nomatch List.mem_singleton.mp h
        · exact fun h => nomatch List.mem_singleton.mp h
  unfold authStage
  split
  · split
    · exact List.not_mem_nil
    · split
      · exact fun h => nomatch List.mem_singleton.mp h
      · exact hauth _ _
  · exact hauth _ _

/-- A file is sent on behalf of a forward filter of the list, from the path of that filter. -/
theorem sentFile_of_applyFilters {env : FilterContext Fn V} {filters : AccessFilterList Fn}
    {store : SessionStore V} {conn : Connection} {flt : ForwardFilter} {path : Bytes}
    (h : .sentFile flt path ∈ (applyFilters env filters store conn).events) :
    flt ∈ filters.forwardFilters ∧ forwardPath flt conn.request.getRequestPath = some path := by
  unfold applyFilters at h
  split at h
  · cases h
  · dsimp only at h
    split at h
    · cases h
    · exact nomatch List.mem_singleton.mp h
    · split at h
      · cases h
      · exact sentFile_of_forwardStage h
      · split at h
        · rcases List.mem_append.mp h with h | h
          · exact absurd h not_sentFile_of_authStage
          · exact sentFile_of_forwardStage h
        · exact absurd h not_sentFile_of_authStage
        · exact absurd h not_sentFile_of_authStage

/-- **A forward filter stays below its base path exactly when the elements it appends do.** -/
theorem sentFile_below_iff {env : FilterContext Fn V} {filters : AccessFilterList Fn}
    {store : SessionStore V} {conn : Connection} {flt : ForwardFilter} {path : Bytes}
    (h : .sentFile flt path ∈ (applyFilters env filters store conn).events) :
    Below pathSyntax flt.basePath path ↔ StaysBelow flt conn.request.getRequestPath :=
  below_forwardPath_iff (sentFile_of_applyFilters h).2

/-! ## A request that leaves the base path -/

def mediaFilter : ForwardFilter :=
  { basePath := bytes "/srv/www", basePathExtension := .byPath }

def mediaFilters : AccessFilterList Unit :=
  { filtersEnabled := true, forwardFilters := [mediaFilter] }

/-- A context without files, sessions or credentials. -/
def emptyContext : FilterContext Unit Unit where
  files := fun _ => none
  start := ⟨0, [], 0⟩
  invoke := fun _ _ _ => false
  any := fun _ => ()

def requestOf (uri : Bytes) : Connection :=
  { request := { env := Lib.AssocMap.empty.insert (bytes "REQUEST_URI") uri } }

theorem sentFile_below_sample :
    Below pathSyntax (bytes "/srv/www") (bytes "/srv/www/a/../b") := by
  have hevent : .sentFile mediaFilter (bytes "/srv/www/a/../b") ∈
      (applyFilters emptyContext mediaFilters .empty (requestOf (bytes "/a/../b"))).events :=
    List.mem_cons_self
  exact (sentFile_below_iff hevent).mpr (by decide)

/-- The request `/../etc/passwd` is answered from outside the base path. -/
theorem sentFile_above : ¬ ∀ (conn : Connection) (flt : ForwardFilter) (path : Bytes),
    .sentFile flt path ∈ (applyFilters emptyContext mediaFilters .empty conn).events →
      Below pathSyntax flt.basePath path := by
  intro hall
  have hbelow := hall (requestOf (bytes "/../etc/passwd")) mediaFilter
    (bytes "/srv/www/../etc/passwd") List.mem_cons_self
  revert hbelow
  decide

end Nawa.Connection
