import Nawa.Util.Punycode

/-!
# `nawa::mail::EmailAddress`
-/

namespace Nawa.mail

open Lib (Regex)

structure EmailAddress where
  name : Bytes := []
  address : Bytes := []

/-- The domain is what follows the at-sign, if splitting at it gives two parts. -/
def applyPunycodeToDomain (address : Bytes) : Except StdException Bytes :=
  match utils.splitString address '@'.toUInt8 false with
  | [part, domain] => (encoding.punycodeEncode domain).map fun domain => part ++ bytes "@" ++ domain
  | _ => .ok address

def EmailAddress.get (email : EmailAddress) (includeName applyPunycode : Bool) :
    Except StdException Bytes :=
  let name := if includeName ∧ email.name ≠ [] then email.name ++ bytes " " else []
  (if applyPunycode then applyPunycodeToDomain email.address else .ok email.address).map
    fun address => name ++ bytes "<" ++ address ++ bytes ">"

/-! ## The check of an address -/

/-- A class of characters with `regex::icase`. -/
def ignoreCase (p : UInt8 → Bool) (c : UInt8) : Bool := p (tolower c) || p (toupper c)

/-- The class `[a-z0-9_!#$%&'*+/=?`{|}~^.-]`. -/
def nameClass (c : UInt8) : Bool :=
  (97 ≤ c ∧ c ≤ 122 : Bool) || isdigit c || c ∈ bytes "_!#$%&'*+/=?`\x7b|\x7d~^.-"

/-- The class `[a-z0-9.-]`. -/
def domainClass (c : UInt8) : Bool :=
  (97 ≤ c ∧ c ≤ 122 : Bool) || isdigit c || c ∈ bytes ".-"

/-- A name, an at-sign and a domain. -/
def emCheck : Regex UInt8 :=
  .seq (.plus (.sat (ignoreCase nameClass))) <|
    .seq (.sat (· = '@'.toUInt8)) (.plus (.sat (ignoreCase domainClass)))

def EmailAddress.isValid (email : EmailAddress) : Except StdException Bool :=
  (applyPunycodeToDomain email.address).map fun address =>
    if address = [] then false else (emCheck.fullMatch address).isSome

example : EmailAddress.isValid { address := bytes "hello world@example.com" } = .ok false := by
  decide

end Nawa.mail
