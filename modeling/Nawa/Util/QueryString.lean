import Nawa.Util.Encoding

/-!
# `utils::splitQueryString` and `utils::parseCookies`

The reader of query strings and of form bodies, and the one of cookies. The multimaps that they
fill are lists here, whose order says nothing.
-/

namespace Nawa.utils

open Lib.Search

/-- One pair. Without an equals sign the whole of it is the key, and there is no value. -/
def queryPair (p : Bytes) : Except StdException (Bytes × Bytes) :=
  match findElem '='.toUInt8 p with
  | some eqPos =>
    if eqPos < p.length - 1 then
      (encoding.urlDecode (p.drop (eqPos + 1))).map fun v => (p.take eqPos, v)
    else .ok (p.take eqPos, [])
  | none => .ok (p, [])

/-- The pairs of the query string, each with its value decoded. -/
def splitQueryString (queryString : Bytes) : Except StdException (List (Bytes × Bytes)) :=
  let qs := match findElem '?'.toUInt8 queryString with
    | some qmrkPos => queryString.drop (qmrkPos + 1)
    | none => queryString
  (splitString qs '&'.toUInt8 true).mapM queryPair

example : splitQueryString (bytes "/p?a=1&b=%41&&c") =
    .ok [(bytes "a", bytes "1"), (bytes "b", bytes "A"), (bytes "c", [])] := by decide

/-! ## Cookies -/

/-- One cookie. Without an equals sign, the positions computed from `npos` wrap around, and the
whole of it is both the key and the value. -/
def parseCookie (c : Bytes) : Option (Bytes × Bytes) :=
  let c := trim c
  match findElem '='.toUInt8 c with
  | some eqPos => if c.length < eqPos + 2 then none else some (c.take eqPos, c.drop (eqPos + 1))
  | none => if c = [] then none else some (c, c)

def parseCookies (rawCookies : Bytes) : List (Bytes × Bytes) :=
  (splitString rawCookies ';'.toUInt8 true).filterMap parseCookie

example : parseCookies (bytes "a=1; b=; c") = [(bytes "a", bytes "1"), (bytes "c", bytes "c")] := by
  decide

end Nawa.utils
