import Nawa.Connection.ApplyFilters

/-!
# Accesses to the request path

The elements of the request path that `AccessFilter::matches` and `Connection::applyFilters` look
at, in the order in which they do, up to the first that is not there: what follows it is
undefined. Loops over all elements look at no element of their own.
-/

namespace Nawa

/-- `back()` or `at(i)` on the request path. -/
inductive PathAccess where
  | back
  | at (i : Nat)
  deriving DecidableEq

/-- The element is there. -/
def PathAccess.InRange (requestPath : List Bytes) : PathAccess → Prop
  | .back => requestPath ≠ []
  | .at i => i < requestPath.length

namespace AccessFilter

/-- The elements that are compared with those of a path of the filter, from a position on. -/
def compareAccesses (requestPath : List Bytes) : Nat → List Bytes → List PathAccess
  | _, [] => []
  | i, e :: rest =>
    .at i :: if requestPath[i]? = some e then compareAccesses requestPath (i + 1) rest else []

/-- The path condition: the first path that matches ends the loop, and a path that is longer than
the request path is skipped. -/
def pathFilterAccesses (requestPath : List Bytes) : List (List Bytes) → List PathAccess
  | [] => []
  | filter :: rest =>
    if requestPath.length < filter.length then pathFilterAccesses requestPath rest
    else
      compareAccesses requestPath 0 filter ++
        if filter.isPrefixOf requestPath then [] else pathFilterAccesses requestPath rest

/-- The path condition is set and not met. -/
def failsPath (flt : AccessFilter) (requestPath : List Bytes) : Bool :=
  flt.pathFilter ≠ [] ∧ flt.pathMatches requestPath = flt.invertPathFilter

/-- The accesses of `matches`. -/
def matchAccesses (flt : AccessFilter) (requestPath : List Bytes) : List PathAccess :=
  pathFilterAccesses requestPath flt.pathFilter ++
    if !flt.failsPath requestPath ∧ flt.extensionFilter ≠ [] then [.back] else []

end AccessFilter

namespace Connection

variable {Fn V F : Type}

/-- The accesses of a loop over a list of filters. -/
def findAccesses (toAccessFilter : F → AccessFilter) (requestPath : List Bytes) :
    List F → List PathAccess
  | [] => []
  | flt :: rest =>
    (toAccessFilter flt).matchAccesses requestPath ++
      if (toAccessFilter flt).applies requestPath = some false then
        findAccesses toAccessFilter requestPath rest
      else []

def forwardAccesses (forwardFilters : List ForwardFilter) (requestPath : List Bytes) :
    List PathAccess :=
  findAccesses ForwardFilter.toAccessFilter requestPath forwardFilters ++
    match findApplicable ForwardFilter.toAccessFilter requestPath 0 forwardFilters with
    | .ok (some (_, flt)) =>
      match flt.basePathExtension with
      | .byPath => []
      | .byFilename => [.back]
    | _ => []

/-- The accesses from the authentication filters on. -/
def authAccesses (env : FilterContext Fn V) (filters : AccessFilterList Fn)
    (requestPath : List Bytes) (store : SessionStore V) (conn : Connection) : List PathAccess :=
  findAccesses AuthFilter.toAccessFilter requestPath filters.authFilters ++
    match findApplicable AuthFilter.toAccessFilter requestPath 0 filters.authFilters with
    | .ok none => forwardAccesses filters.forwardFilters requestPath
    | .ok (some (n, flt)) =>
      match (authStage env n flt store conn).result with
      | .ok true => forwardAccesses filters.forwardFilters requestPath
      | _ => []
    | .error _ => []

/-- The accesses of `applyFilters`. -/
def pathAccesses (env : FilterContext Fn V) (filters : AccessFilterList Fn)
    (store : SessionStore V) (conn : Connection) : List PathAccess :=
  if !filters.filtersEnabled then []
  else
    let requestPath := conn.request.getRequestPath
    findAccesses BlockFilter.toAccessFilter requestPath filters.blockFilters ++
      match findApplicable BlockFilter.toAccessFilter requestPath 0 filters.blockFilters with
      | .ok none => authAccesses env filters requestPath store conn
      | _ => []

end Connection

end Nawa
