import Nawa.Util.Bytes

/-!
# `nawa::Cookie`
-/

namespace Nawa

inductive SameSite where
  | off
  | lax
  | strict
  deriving DecidableEq

/-- A cookie with its attributes; also the shape of a cookie policy. -/
structure Cookie where
  content : Bytes := []
  expires : Option Int := none
  maxAge : Option Nat := none
  domain : Option Bytes := none
  path : Option Bytes := none
  secure : Bool := false
  httpOnly : Bool := false
  sameSite : SameSite := .off
  deriving DecidableEq

end Nawa
