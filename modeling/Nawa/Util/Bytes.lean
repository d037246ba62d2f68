import Mathlib.Algebra.Group.Int.Defs
import Mathlib.Algebra.Group.Nat.Defs
import Nawa.Lib.Search

/-!
# Byte strings

A C++ `std::string` is a byte string here, and a string literal is the bytes of its UTF-8
spelling. This module also holds what the sources take from the standard library and from
Boost: character classes of the C locale, number parsing, decimal output.

A search that finds nothing answers `none` for the source's `npos`. Where the source computes
with an answer that may be `npos`, the definition that models it says what the wrapped result is.
-/

namespace Nawa

abbrev Bytes := List UInt8

/-- The bytes of a string literal. -/
def bytes (s : String) : Bytes := s.toByteArray.data.toList

/-- The line ending of HTTP and MIME. -/
def crlf : Bytes := [13, 10]

/-- The double quote character. -/
def quote : UInt8 := 34

/-- A `nawa::Exception`: its code and its message (the location prefix is left out). -/
structure Exception where
  errorCode : Nat
  message : Bytes
  deriving DecidableEq

/-- The standard library's exceptions that the modelled code can meet. -/
inductive StdException where
  | invalidArgument
  | outOfRange
  | rangeError
  | lengthError
  deriving DecidableEq

/-- How a modelled call can fail to return: with an exception of the framework or of the
standard library, in undefined behaviour (`back` of an empty vector, a division by zero), or not
at all, because a loop has used up the inputs it was given and asks for more. -/
inductive Failure where
  | nawa (e : Exception)
  | std (e : StdException)
  | undefined
  | diverges
  deriving DecidableEq

/-! ## Characters, in the C locale -/

/-- `::tolower`. -/
def tolower (c : UInt8) : UInt8 := if 65 ≤ c ∧ c ≤ 90 then c + 32 else c

/-- `::toupper`. -/
def toupper (c : UInt8) : UInt8 := if 97 ≤ c ∧ c ≤ 122 then c - 32 else c

/-- `isspace`: blank, tab, line feed, vertical tab, form feed, carriage return. -/
def isspace (c : UInt8) : Bool := c = 32 ∨ (9 ≤ c ∧ c ≤ 13)

def isdigit (c : UInt8) : Bool := 48 ≤ c ∧ c ≤ 57

def isalnum (c : UInt8) : Bool := isdigit c ∨ (65 ≤ c ∧ c ≤ 90) ∨ (97 ≤ c ∧ c ≤ 122)

def isxdigit (c : UInt8) : Bool := isdigit c ∨ (65 ≤ c ∧ c ≤ 70) ∨ (97 ≤ c ∧ c ≤ 102)

/-- `boost::trim_left`. -/
def trimLeft (s : Bytes) : Bytes := s.dropWhile isspace

/-- `boost::trim`. -/
def trim (s : Bytes) : Bytes := (trimLeft (trimLeft s).reverse).reverse

/-- `boost::replace_all` behind an occurrence of which `skip` bytes are left. -/
def replaceAllFrom (search format : Bytes) : Nat → Bytes → Bytes
  | _, [] => []
  | skip + 1, _ :: s => replaceAllFrom search format skip s
  | 0, c :: s =>
    if search ≠ [] ∧ search <+: c :: s then
      format ++ replaceAllFrom search format (search.length - 1) s
    else c :: replaceAllFrom search format 0 s

/-- `boost::replace_all`: what has been put in is not searched again. -/
def replaceAll (search format s : Bytes) : Bytes := replaceAllFrom search format 0 s

/-! ## Numbers -/

/-- `to_string` of an unsigned number, and what a stream writes for one. -/
def decimal (n : Nat) : Bytes := (Nat.toDigits 10 n).map fun c => UInt8.ofNat c.toNat

/-- The number that a run of decimal digits spells. -/
def digitsValue (s : Bytes) : Nat := s.foldl (fun n c => n * 10 + (c.toNat - 48)) 0

/-- What `strtol` and `strtoul` read: leading space, an optional sign, a run of digits. -/
def readDigits (s : Bytes) : Bool × Bytes :=
  match trimLeft s with
  | 45 :: rest => (true, rest.takeWhile isdigit)
  | 43 :: rest => (false, rest.takeWhile isdigit)
  | rest => (false, rest.takeWhile isdigit)

/-- `std::stoul` with 64-bit `unsigned long`: a negative number is negated in the unsigned type. -/
def stoul (s : Bytes) : Except StdException Nat :=
  let (negative, digits) := readDigits s
  if digits = [] then .error .invalidArgument
  else if 2 ^ 64 ≤ digitsValue digits then .error .outOfRange
  else .ok (if negative then (2 ^ 64 - digitsValue digits) % 2 ^ 64 else digitsValue digits)

/-- The value of a hexadecimal digit in either case. -/
def xdigitValue (c : UInt8) : Nat :=
  if isdigit c then c.toNat - 48 else if c ≤ 70 then c.toNat - 55 else c.toNat - 87

def xdigitsValue (s : Bytes) : Nat := s.foldl (fun n c => n * 16 + xdigitValue c) 0

/-- What `strtoul` reads in base 16: the digits may follow `0x` or `0X`. -/
def readHexDigits (s : Bytes) : Bool × Bytes :=
  let (negative, rest) := match trimLeft s with
    | 45 :: rest => (true, rest)
    | 43 :: rest => (false, rest)
    | rest => (false, rest)
  let rest := match rest with
    | 48 :: x :: d :: more => if tolower x = 120 ∧ isxdigit d then d :: more else rest
    | _ => rest
  (negative, rest.takeWhile isxdigit)

/-- `std::stoul` in base 16. -/
def stoulHex (s : Bytes) : Except StdException Nat :=
  let (negative, digits) := readHexDigits s
  if digits = [] then .error .invalidArgument
  else if 2 ^ 64 ≤ xdigitsValue digits then .error .outOfRange
  else .ok (if negative then (2 ^ 64 - xdigitsValue digits) % 2 ^ 64 else xdigitsValue digits)

/-- `std::stol` with 64-bit `long`. -/
def stol (s : Bytes) : Except StdException Int :=
  let (negative, digits) := readDigits s
  if digits = [] then .error .invalidArgument
  else if negative then
    if 2 ^ 63 < digitsValue digits then .error .outOfRange else .ok (-(digitsValue digits : Int))
  else
    if 2 ^ 63 ≤ digitsValue digits then .error .outOfRange else .ok (digitsValue digits)

end Nawa
