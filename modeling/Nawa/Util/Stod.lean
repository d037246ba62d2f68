import Nawa.Util.Bytes

/-!
# `std::stod`

A `double` as the rational number that it stands for, and the numbers that `strtod` reads, as
exact rationals that are then rounded to 53 bits. What the C library says of a number that is too
large for the type, or so small that it loses digits, is a range error.
-/

namespace Nawa

/-- A `double`. The sign of a zero is left out. -/
inductive Double where
  | nan
  | infinite (negative : Bool)
  | finite (value : Rat)
  deriving DecidableEq

namespace Double

/-! ## Rounding -/

def roundHalfEven (q : Rat) : Int :=
  let n := q.floor
  let rest := q - n
  if rest < 1 / 2 then n
  else if 1 / 2 < rest then n + 1
  else if n % 2 = 0 then n
  else n + 1

/-- The exponent of the largest power of two that is not above a number. -/
def binade (q : Rat) : Int :=
  let e : Int := q.num.natAbs.log2 - q.den.log2
  if q.abs < (2 : Rat) ^ e then e - 1 else e

/-- The nearest multiple of a power of two. -/
def roundTo (e : Int) (q : Rat) : Rat := roundHalfEven (q / (2 : Rat) ^ e) * (2 : Rat) ^ e

/-- The nearest number with 53 bits, and with 1074 binary places at most. -/
def nearest (q : Rat) : Rat := roundTo (max (binade q - 52) (-1074)) q

def ofRat (q : Rat) : Double :=
  if q = 0 then .finite 0
  else if (2 : Rat) ^ (1024 : Nat) ≤ (nearest q).abs then .infinite (q < 0)
  else .finite (nearest q)

/-- The result overflows, or it is tiny and inexact. -/
def IsRangeError (q : Rat) : Prop :=
  q ≠ 0 ∧ ((2 : Rat) ^ (1024 : Nat) ≤ (nearest q).abs ∨
    (roundTo (binade q - 52) q).abs < (2 : Rat) ^ (-1022 : Int) ∧ nearest q ≠ q)

instance (q : Rat) : Decidable (IsRangeError q) := inferInstanceAs (Decidable (_ ∧ _))

/-! ## Operations -/

/-- The product with an unsigned number. -/
def mulNat (n : Nat) : Double → Double
  | nan => nan
  | infinite negative => if n = 0 then nan else infinite negative
  | finite q => ofRat (n * q)

/-- `std::max(1.0, x)`, which is `1.0` where the two cannot be compared. -/
def maxOne : Double → Double
  | nan => finite 1
  | infinite negative => if negative then finite 1 else infinite false
  | finite q => finite (if 1 < q then q else 1)

/-- The conversion to `unsigned int`, undefined where the type does not hold the whole part. -/
def toUnsigned : Double → Option Nat
  | finite q => if -1 < q ∧ q < (2 : Rat) ^ (32 : Nat) then some q.floor.toNat else none
  | _ => none

end Double

/-! ## Reading -/

def readSign : Bytes → Bool × Bytes
  | 45 :: s => (true, s)
  | 43 :: s => (false, s)
  | s => (false, s)

/-- An exponent behind its mark; where there is none, it is zero. -/
def readExponent (mark : UInt8) : Bytes → Int
  | [] => 0
  | c :: s =>
    let (negative, rest) := readSign s
    let exponent : Int := digitsValue (rest.takeWhile isdigit)
    if tolower c ≠ mark then 0 else if negative then -exponent else exponent

/-- A number with a fractional part and an exponent, in base 10 or 16. -/
def readFraction (digit : UInt8 → Bool) (value : Bytes → Nat) (base exponentBase : Nat)
    (mark : UInt8) (s : Bytes) : Option Rat :=
  let whole := s.takeWhile digit
  let rest := s.dropWhile digit
  let (fraction, rest) := match rest with
    | 46 :: more => (more.takeWhile digit, more.dropWhile digit)
    | _ => ([], rest)
  if whole = [] ∧ fraction = [] then none
  else some ((value (whole ++ fraction) : Rat) / (base : Rat) ^ fraction.length *
    (exponentBase : Rat) ^ readExponent mark rest)

def readHexadecimal : Bytes → Option Rat
  | 48 :: x :: s =>
    if tolower x = 120 then readFraction isxdigit xdigitsValue 16 2 112 s else none
  | _ => none

/-- What `strtod` reads behind the sign, before it is rounded. -/
def readMagnitude (s : Bytes) : Option Double :=
  let lower := s.map tolower
  if lower.take 3 = bytes "inf" then some (.infinite false)
  else if lower.take 3 = bytes "nan" then some .nan
  else ((readHexadecimal s).or (readFraction isdigit digitsValue 10 10 101 s)).map .finite

def stod (s : Bytes) : Except StdException Double :=
  let (negative, rest) := readSign (trimLeft s)
  match readMagnitude rest with
  | none => .error .invalidArgument
  | some .nan => .ok .nan
  | some (.infinite _) => .ok (.infinite negative)
  | some (.finite q) =>
    let q := if negative then -q else q
    if Double.IsRangeError q then .error .outOfRange else .ok (.ofRat q)

example : stod (bytes " -2.50e1x") = .ok (.finite (-25)) := by decide +kernel

example : stod (bytes "1e400") = .error .outOfRange := by decide +kernel

end Nawa
