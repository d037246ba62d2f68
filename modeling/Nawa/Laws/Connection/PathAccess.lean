import Nawa.Connection.PathAccess
import Nawa.Laws.Connection.Precedence

/-!
# Which accesses to the request path are in range

What the model of the filters leaves undefined are exactly the accesses to elements that are not
there (`findAccesses_inRange_iff`). All of them are accesses to the last element of an empty path,
by an extension condition or by a forward filter that goes by the file name, and
`pathAccesses_inRange_iff` says which lists of filters come to one.
-/

namespace Nawa

open Lib.FirstMatch

theorem inRange_nil (requestPath : List Bytes) :
    ∀ a ∈ ([] : List PathAccess), a.InRange requestPath :=
  fun _ ha => absurd ha List.not_mem_nil

namespace AccessFilter

variable {flt : AccessFilter} {requestPath : List Bytes}

/-! ## One filter -/

/-- A path of the filter that is not longer than the request path is compared within it. -/
theorem compareAccesses_inRange {elements : List Bytes} {i : Nat}
    (h : i + elements.length ≤ requestPath.length) :
    ∀ a ∈ compareAccesses requestPath i elements, a.InRange requestPath := by
  induction elements generalizing i with
  | nil => exact inRange_nil _
  | cons e rest ih =>
    rw [List.length_cons] at h
    have hrest : i + 1 + rest.length ≤ requestPath.length := by omega
    have hi : i < requestPath.length := by omega
    rw [compareAccesses, List.forall_mem_cons]
    refine ⟨hi, ?_⟩
    split
    · exact ih hrest
    · exact inRange_nil _

theorem pathFilterAccesses_inRange (filters : List (List Bytes)) :
    ∀ a ∈ pathFilterAccesses requestPath filters, a.InRange requestPath := by
  induction filters with
  | nil => exact inRange_nil _
  | cons filter rest ih =>
    rw [pathFilterAccesses]
    by_cases hlong : requestPath.length < filter.length
    · rw [if_pos hlong]
      exact ih
    · have hcompare : 0 + filter.length ≤ requestPath.length := by omega
      rw [if_neg hlong, List.forall_mem_append]
      refine ⟨compareAccesses_inRange hcompare, ?_⟩
      split
      · exact inRange_nil _
      · exact ih

/-- `matches` is undefined exactly where it makes an access that is out of range. -/
theorem matchAccesses_inRange_iff :
    (∀ a ∈ flt.matchAccesses requestPath, a.InRange requestPath) ↔
      flt.isMatch requestPath ≠ none := by
  rw [matchAccesses, List.forall_mem_append, and_iff_right (pathFilterAccesses_inRange _)]
  refine Iff.trans ?_ (not_congr isMatch_eq_none_iff).symm
  by_cases hback : (!flt.failsPath requestPath) = true ∧ flt.extensionFilter ≠ []
  · rw [if_pos hback, List.forall_mem_singleton]
    have hpasses : ¬ (flt.pathFilter ≠ [] ∧
        flt.pathMatches requestPath = flt.invertPathFilter) := by
      simpa only [failsPath, Bool.not_eq_true', decide_eq_false_iff_not] using hback.1
    exact not_congr (iff_self_and.mpr fun _ => ⟨hback.2, hpasses⟩)
  · rw [if_neg hback]
    refine iff_of_true (inRange_nil _) ?_
    rintro ⟨-, hext, hpasses⟩
    refine hback ⟨?_, hext⟩
    simpa only [failsPath, Bool.not_eq_true', decide_eq_false_iff_not] using hpasses

/-- An extension condition that is come to on an empty path, of which only an empty path is a
prefix. -/
def AsksForLast (flt : AccessFilter) : Prop :=
  flt.extensionFilter ≠ [] ∧
    (flt.pathFilter ≠ [] → ([] ∈ flt.pathFilter ↔ flt.invertPathFilter = false))

theorem isMatch_empty_iff : flt.isMatch [] = none ↔ flt.AsksForLast := by
  have hmatches : flt.pathMatches [] = true ↔ [] ∈ flt.pathFilter := by
    simp only [pathMatches_iff, List.prefix_nil, exists_eq_right]
  rw [isMatch_eq_none_iff, and_iff_right rfl, AsksForLast, not_and, eq_invert_iff hmatches,
    not_not]

end AccessFilter

namespace Connection

variable {Fn V Flt : Type}

/-! ## The loops -/

section Loops

variable {toAccessFilter : Flt → AccessFilter} {requestPath : List Bytes} {filters : List Flt}

theorem findAccesses_inRange_iff {k : Nat} :
    (∀ a ∈ findAccesses toAccessFilter requestPath filters, a.InRange requestPath) ↔
      ∃ found, findApplicable toAccessFilter requestPath k filters = .ok found := by
  induction filters generalizing k with
  | nil => exact iff_of_true (inRange_nil _) ⟨none, rfl⟩
  | cons f rest ih =>
    rw [findAccesses, List.forall_mem_append, AccessFilter.matchAccesses_inRange_iff,
      findApplicable]
    cases happlies : (toAccessFilter f).applies requestPath with
    | none =>
      have hmatch := Option.map_eq_none_iff.mp happlies
      refine iff_of_false (fun h => h.1 hmatch) ?_
      rintro ⟨found, hfound⟩
      cases hfound
    | some b =>
      have hmatch : (toAccessFilter f).isMatch requestPath ≠ none := by
        intro hnone
        rw [AccessFilter.applies, hnone] at happlies
        cases happlies
      rw [and_iff_right hmatch]
      cases b with
      | true => exact iff_of_true (inRange_nil _) ⟨some (k, f), rfl⟩
      | false =>
        rw [if_pos rfl]
        exact ih

/-- On an empty path the loop goes on as long as no filter asks for the last element. -/
theorem findApplicable_empty_iff {k : Nat} :
    (∃ found, findApplicable toAccessFilter [] k filters = .ok found) ↔
      ∀ flt, Reached (fun flt => (toAccessFilter flt).Applicable []) filters flt →
        ¬ (toAccessFilter flt).AsksForLast := by
  induction filters generalizing k with
  | nil => exact iff_of_true ⟨none, rfl⟩ fun flt h => absurd h not_reached_nil
  | cons f rest ih =>
    rw [findApplicable]
    simp only [reached_cons_iff]
    cases happlies : (toAccessFilter f).applies [] with
    | none =>
      have hasks := AccessFilter.isMatch_empty_iff.mp (Option.map_eq_none_iff.mp happlies)
      refine iff_of_false ?_ fun h => h f (.inl rfl) hasks
      rintro ⟨found, hfound⟩
      cases hfound
    | some b =>
      have hiff := AccessFilter.applies_sound happlies
      have hasks : ¬ (toAccessFilter f).AsksForLast := by
        intro hasks
        rw [AccessFilter.applies, AccessFilter.isMatch_empty_iff.mpr hasks] at happlies
        cases happlies
      cases b with
      | true =>
        refine iff_of_true ⟨some (k, f), rfl⟩ ?_
        rintro flt (rfl | ⟨hnot, -⟩)
        · exact hasks
        · exact absurd (hiff.mp rfl) hnot
      | false =>
        have hnot : ¬ (toAccessFilter f).Applicable [] :=
          fun ha => Bool.false_ne_true (hiff.mpr ha)
        refine (ih (k := k + 1)).trans ⟨?_, fun h flt hreached => h flt (.inr ⟨hnot, hreached⟩)⟩
        rintro h flt (rfl | ⟨-, hreached⟩)
        · exact hasks
        · exact h flt hreached

end Loops

/-- The forward filters, on any path. -/
theorem forwardAccesses_inRange_iff {filters : List ForwardFilter} {requestPath : List Bytes} :
    (∀ a ∈ forwardAccesses filters requestPath, a.InRange requestPath) ↔
      ∃ found, findApplicable ForwardFilter.toAccessFilter requestPath 0 filters = .ok found ∧
        ∀ n flt, found = some (n, flt) → flt.basePathExtension = .byFilename →
          requestPath ≠ [] := by
  rw [forwardAccesses, List.forall_mem_append, findAccesses_inRange_iff (k := 0)]
  cases hfind : findApplicable ForwardFilter.toAccessFilter requestPath 0 filters with
  | error e =>
    refine iff_of_false ?_ ?_
    · rintro ⟨⟨found, hfound⟩, -⟩
      cases hfound
    · rintro ⟨found, hfound, -⟩
      cases hfound
  | ok found =>
    rw [and_iff_right ⟨found, rfl⟩]
    cases found with
    | none =>
      refine iff_of_true (inRange_nil _) ⟨none, rfl, ?_⟩
      intro n flt hfound
      cases hfound
    | some found =>
      obtain ⟨n, flt⟩ := found
      dsimp only
      cases hextension : flt.basePathExtension with
      | byPath =>
        refine iff_of_true (inRange_nil _) ⟨some (n, flt), rfl, ?_⟩
        intro m g hfound hfilename
        cases hfound
        rw [hextension] at hfilename
        cases hfilename
      | byFilename =>
        rw [List.forall_mem_singleton]
        constructor
        · intro hpath
          exact ⟨some (n, flt), rfl, fun _ _ _ _ => hpath⟩
        · rintro ⟨found, hfound, hlast⟩
          exact hlast n flt (Except.ok.inj hfound).symm hextension

theorem forwardAccesses_of_defined {env : FilterContext Fn V} {filters : List ForwardFilter}
    {requestPath : List Bytes} {store : SessionStore V} {conn : Connection}
    (h : (forwardStage env filters requestPath store conn).result ≠ .error .undefined) :
    ∀ a ∈ forwardAccesses filters requestPath, a.InRange requestPath := by
  rw [forwardAccesses_inRange_iff]
  rw [forwardStage] at h
  cases hfind : findApplicable ForwardFilter.toAccessFilter requestPath 0 filters with
  | error e =>
    rw [hfind, (findApplicable_error hfind).2] at h
    exact absurd rfl h
  | ok found =>
    refine ⟨found, rfl, ?_⟩
    rintro n flt rfl hextension rfl
    rw [hfind] at h
    dsimp only at h
    rw [forwardPath, hextension] at h
    exact absurd rfl h

/-! ## All stages -/

/-- The forward filters ask for no last element: not the conditions of those that are looked at,
and not the one that sends. -/
structure SparesForward (filters : List ForwardFilter) : Prop where
  reached : ∀ flt, Reached (fun flt => flt.toAccessFilter.Applicable []) filters flt →
    ¬ flt.toAccessFilter.AsksForLast
  sends : ∀ n flt, FirstApplicable ForwardFilter.toAccessFilter [] filters n flt →
    flt.basePathExtension = .byPath

/-- No filter that a request for an empty path comes to asks for the last element. -/
structure SparesEmptyPath (env : FilterContext Fn V) (filters : AccessFilterList Fn)
    (store : SessionStore V) (conn : Connection) : Prop where
  block : ∀ flt, Reached (fun flt => flt.toAccessFilter.Applicable []) filters.blockFilters flt →
    ¬ flt.toAccessFilter.AsksForLast
  auth : NoneApplicable BlockFilter.toAccessFilter [] filters.blockFilters →
    ∀ flt, Reached (fun flt => flt.toAccessFilter.Applicable []) filters.authFilters flt →
      ¬ flt.toAccessFilter.AsksForLast
  /-- The forward filters are come to where no authentication filter applies, and where the first
  that does admits the request. -/
  forward : NoneApplicable BlockFilter.toAccessFilter [] filters.blockFilters →
    (∀ n flt, FirstApplicable AuthFilter.toAccessFilter [] filters.authFilters n flt →
      (authStage env n flt store conn).result = .ok true) →
    SparesForward filters.forwardFilters

theorem forwardAccesses_empty_iff {filters : List ForwardFilter} :
    (∀ a ∈ forwardAccesses filters [], a.InRange []) ↔ SparesForward filters := by
  rw [forwardAccesses_inRange_iff]
  constructor
  · rintro ⟨found, hfound, hlast⟩
    refine ⟨findApplicable_empty_iff.mp ⟨found, hfound⟩, ?_⟩
    intro n flt hfirst
    rcases findApplicable_sound hfound with ⟨-, hnone⟩ | ⟨m, g, rfl, hfirst'⟩
    · exact absurd hnone (not_noneApplicable hfirst)
    · obtain ⟨rfl, rfl⟩ := hfirst.unique hfirst'
      cases hextension : flt.basePathExtension with
      | byPath => rfl
      | byFilename => exact absurd rfl (hlast _ flt rfl hextension)
  · intro h
    obtain ⟨found, hfound⟩ := findApplicable_empty_iff.mpr h.reached
    refine ⟨found, hfound, ?_⟩
    intro n flt hsome hextension
    rcases findApplicable_sound hfound with ⟨hnone, -⟩ | ⟨m, g, hfirst, hfirst'⟩
    · rw [hsome] at hnone
      cases hnone
    · rw [hsome] at hfirst
      cases hfirst
      have hpath := h.sends m flt hfirst'
      rw [hextension] at hpath
      cases hpath

section All

variable {env : FilterContext Fn V} {filters : AccessFilterList Fn} {store : SessionStore V}
  {conn : Connection}

/-- What the authentication and forward filters must not do on an empty path. -/
theorem authAccesses_empty_iff :
    (∀ a ∈ authAccesses env filters [] store conn, a.InRange []) ↔
      (∀ flt, Reached (fun flt => flt.toAccessFilter.Applicable []) filters.authFilters flt →
        ¬ flt.toAccessFilter.AsksForLast) ∧
      ((∀ n flt, FirstApplicable AuthFilter.toAccessFilter [] filters.authFilters n flt →
        (authStage env n flt store conn).result = .ok true) →
          SparesForward filters.forwardFilters) := by
  rw [authAccesses, List.forall_mem_append, findAccesses_inRange_iff (k := 0),
    ← findApplicable_empty_iff (k := 0)]
  refine and_congr_right fun ⟨found, hfound⟩ => ?_
  rw [hfound]
  rcases findApplicable_sound hfound with ⟨rfl, hnone⟩ | ⟨m, flt, rfl, hfirst⟩
  · -- no authentication filter applies
    have hadmits : ∀ n flt, FirstApplicable AuthFilter.toAccessFilter [] filters.authFilters n flt →
        (authStage env n flt store conn).result = .ok true :=
      fun n flt hfirst => absurd hnone (not_noneApplicable hfirst)
    rw [forall_prop_of_true hadmits]
    exact forwardAccesses_empty_iff
  · rw [Nat.zero_add]
    dsimp only
    by_cases hresult : (authStage env m flt store conn).result = .ok true
    · have hadmits : ∀ n flt,
          FirstApplicable AuthFilter.toAccessFilter [] filters.authFilters n flt →
            (authStage env n flt store conn).result = .ok true := by
        intro n g hfirst'
        obtain ⟨rfl, rfl⟩ := hfirst.unique hfirst'
        exact hresult
      rw [hresult, forall_prop_of_true hadmits]
      exact forwardAccesses_empty_iff
    · refine iff_of_true ?_ fun hadmits => absurd (hadmits m flt hfirst) hresult
      split
      · next hadmitted => exact absurd hadmitted hresult
      · exact inRange_nil _

theorem pathAccesses_empty_iff (henabled : filters.filtersEnabled = true)
    (hpath : conn.request.getRequestPath = []) :
    (∀ a ∈ pathAccesses env filters store conn, a.InRange []) ↔
      SparesEmptyPath env filters store conn := by
  have hblock : (∃ found, findApplicable BlockFilter.toAccessFilter [] 0 filters.blockFilters =
      .ok found) ↔ _ := findApplicable_empty_iff
  rw [pathAccesses, henabled, hpath, if_neg (by decide), List.forall_mem_append,
    findAccesses_inRange_iff (k := 0), hblock]
  constructor
  · rintro ⟨hreached, hrest⟩
    obtain ⟨found, hfound⟩ := hblock.mpr hreached
    rw [hfound] at hrest
    rcases findApplicable_sound hfound with ⟨rfl, hnone⟩ | ⟨m, flt, rfl, hfirst⟩
    · obtain ⟨hauth, hforward⟩ := authAccesses_empty_iff.mp hrest
      exact ⟨hreached, fun _ => hauth, fun _ => hforward⟩
    · have hsome := not_noneApplicable hfirst
      exact ⟨hreached, fun hnone => absurd hnone hsome, fun hnone => absurd hnone hsome⟩
  · intro h
    refine ⟨h.block, ?_⟩
    obtain ⟨found, hfound⟩ := hblock.mpr h.block
    rw [hfound]
    rcases findApplicable_sound hfound with ⟨rfl, hnone⟩ | ⟨m, flt, rfl, hfirst⟩
    · exact authAccesses_empty_iff.mpr ⟨h.auth hnone, h.forward hnone⟩
    · exact inRange_nil _

theorem authAccesses_of_nonempty {requestPath : List Bytes} (hpath : requestPath ≠ []) :
    ∀ a ∈ authAccesses env filters requestPath store conn, a.InRange requestPath := by
  have hforward : ∀ a ∈ forwardAccesses filters.forwardFilters requestPath,
      a.InRange requestPath := by
    obtain ⟨found, hfound⟩ := findApplicable_returns ForwardFilter.toAccessFilter 0
      filters.forwardFilters hpath
    exact forwardAccesses_inRange_iff.mpr ⟨found, hfound, fun _ _ _ _ => hpath⟩
  obtain ⟨found, hfound⟩ := findApplicable_returns AuthFilter.toAccessFilter 0
    filters.authFilters hpath
  rw [authAccesses, List.forall_mem_append]
  refine ⟨findAccesses_inRange_iff.mpr ⟨found, hfound⟩, ?_⟩
  rw [hfound]
  cases found with
  | none => exact hforward
  | some found =>
    dsimp only
    split
    · exact hforward
    · exact inRange_nil _

/-- **The elements that the filters look at are there**, unless the path is empty and they come
to a filter that asks for its last one. -/
theorem pathAccesses_inRange_iff (env : FilterContext Fn V) (filters : AccessFilterList Fn)
    (store : SessionStore V) (conn : Connection) :
    (∀ a ∈ pathAccesses env filters store conn, a.InRange conn.request.getRequestPath) ↔
      filters.filtersEnabled = false ∨ conn.request.getRequestPath ≠ [] ∨
        SparesEmptyPath env filters store conn := by
  cases henabled : filters.filtersEnabled with
  | false =>
    rw [pathAccesses, henabled]
    exact iff_of_true (inRange_nil _) (.inl rfl)
  | true =>
    rw [or_iff_right (by decide)]
    by_cases hpath : conn.request.getRequestPath = []
    · rw [or_iff_right (not_not.mpr hpath), hpath]
      exact pathAccesses_empty_iff henabled hpath
    · refine iff_of_true ?_ (.inl hpath)
      obtain ⟨found, hfound⟩ := findApplicable_returns BlockFilter.toAccessFilter 0
        filters.blockFilters hpath
      rw [pathAccesses, henabled, if_neg (by decide), List.forall_mem_append]
      refine ⟨findAccesses_inRange_iff.mpr ⟨found, hfound⟩, ?_⟩
      rw [hfound]
      cases found with
      | none => exact authAccesses_of_nonempty hpath
      | some found => exact inRange_nil _

/-- What `applyFilters` leaves undefined is all that is out of range. -/
theorem pathAccesses_of_defined
    (h : (applyFilters env filters store conn).result ≠ .error .undefined) :
    ∀ a ∈ pathAccesses env filters store conn, a.InRange conn.request.getRequestPath := by
  rw [applyFilters] at h
  rw [pathAccesses]
  cases henabled : filters.filtersEnabled with
  | false => exact inRange_nil _
  | true =>
    rw [henabled, if_neg (by decide)] at h
    rw [if_neg (by decide), List.forall_mem_append, findAccesses_inRange_iff (k := 0)]
    dsimp only at h
    cases hblock : findApplicable BlockFilter.toAccessFilter conn.request.getRequestPath 0
        filters.blockFilters with
    | error e =>
      rw [hblock, (findApplicable_error hblock).2] at h
      exact absurd rfl h
    | ok found =>
      refine ⟨⟨found, rfl⟩, ?_⟩
      cases found with
      | some found => exact inRange_nil _
      | none =>
        rw [hblock] at h
        dsimp only at h ⊢
        rw [authAccesses, List.forall_mem_append, findAccesses_inRange_iff (k := 0)]
        cases hauth : findApplicable AuthFilter.toAccessFilter conn.request.getRequestPath 0
            filters.authFilters with
        | error e =>
          rw [hauth, (findApplicable_error hauth).2] at h
          exact absurd rfl h
        | ok found =>
          refine ⟨⟨found, rfl⟩, ?_⟩
          rw [hauth] at h
          cases found with
          | none => exact forwardAccesses_of_defined h
          | some found =>
            obtain ⟨n, flt⟩ := found
            dsimp only at h ⊢
            cases hresult : (authStage env n flt store conn).result with
            | error e => exact inRange_nil _
            | ok passed =>
              cases passed with
              | false => exact inRange_nil _
              | true =>
                rw [hresult] at h
                exact forwardAccesses_of_defined h

end All

/-! ## The smallest URI -/

/-- Scripts are blocked. -/
def scriptFilters : AccessFilterList Unit :=
  { filtersEnabled := true
    blockFilters := [{ extensionFilter := [bytes "php"], status := 403 }] }

/-- Every request is answered with the file of its name. -/
def fileFilters : AccessFilterList Unit :=
  { filtersEnabled := true, forwardFilters := [{ basePath := bytes "/srv" }] }

/-- A request for `/` makes both look for its last element. -/
theorem not_inRange_root :
    (¬ ∀ a ∈ pathAccesses emptyContext scriptFilters .empty (requestOf (bytes "/")),
      a.InRange (requestOf (bytes "/")).request.getRequestPath) ∧
    ¬ ∀ a ∈ pathAccesses emptyContext fileFilters .empty (requestOf (bytes "/")),
      a.InRange (requestOf (bytes "/")).request.getRequestPath := by
  have hpath : (requestOf (bytes "/")).request.getRequestPath = [] := by decide
  exact ⟨fun h => h .back (by decide) hpath, fun h => h .back (by decide) hpath⟩

end Connection

end Nawa
