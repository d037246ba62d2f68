import Nawa.Util.Utils

/-!
# Access filters

`nawa::AccessFilter` with its extensions, and the list of filters that a request handler holds.

A regular expression is the predicate of the texts that it matches as a whole. The function of an
authentication filter is a value of a type `Fn`, so that it can be told from another one; what it
answers is for its user to say. Looking at the last element of an empty path is undefined, which
a result of `none` says.
-/

namespace Nawa

structure AccessFilter where
  invert : Bool := false
  pathFilter : List (List Bytes) := []
  invertPathFilter : Bool := false
  extensionFilter : List Bytes := []
  invertExtensionFilter : Bool := false
  regexFilterEnabled : Bool := false
  regexFilter : Bytes → Bool := fun _ => false
  response : Bytes := []

structure BlockFilter extends AccessFilter where
  status : Nat := 404

structure AuthFilter (Fn : Type) extends AccessFilter where
  authFunction : Option Fn := none
  authName : Bytes := []
  useSessions : Bool := false

inductive BasePathExtension where
  | byFilename
  | byPath
  deriving DecidableEq

structure ForwardFilter extends AccessFilter where
  basePath : Bytes := []
  basePathExtension : BasePathExtension := .byFilename

structure AccessFilterList (Fn : Type) where
  filtersEnabled : Bool := false
  blockFilters : List BlockFilter := []
  authFilters : List (AuthFilter Fn) := []
  forwardFilters : List ForwardFilter := []

namespace AccessFilter

/-- The path condition: some path of the filter is a prefix of the request path. -/
def pathMatches (flt : AccessFilter) (requestPath : List Bytes) : Bool :=
  flt.pathFilter.any fun path => path.isPrefixOf requestPath

/-- The request path as one text, for the regular expression. -/
def pathString (requestPath : List Bytes) : Bytes :=
  requestPath.flatMap fun e => '/'.toUInt8 :: e

/-- The regular expression, where it is enabled. -/
def regexMatches (flt : AccessFilter) (requestPath : List Bytes) : Bool :=
  !flt.regexFilterEnabled || flt.regexFilter (pathString requestPath)

/-- `AccessFilter::matches`. -/
def isMatch (flt : AccessFilter) (requestPath : List Bytes) : Option Bool :=
  if flt.pathFilter ≠ [] ∧ flt.pathMatches requestPath = flt.invertPathFilter then some false
  else if flt.extensionFilter = [] then some (flt.regexMatches requestPath)
  else
    match requestPath.getLast? with
    | none => none
    | some filename =>
      if (utils.getFileExtension filename ∈ flt.extensionFilter : Bool) =
          flt.invertExtensionFilter then some false
      else some (flt.regexMatches requestPath)

/-- Whether the filter is to be applied: it matches, or it is inverted and does not match. -/
def applies (flt : AccessFilter) (requestPath : List Bytes) : Option Bool :=
  (flt.isMatch requestPath).map (· != flt.invert)

end AccessFilter

end Nawa
