import Nawa.Util.Http

/-!
# Reading HTTP times

`readHttpTime` and what it uses of `get_time`. In a format white space stands for any amount of
it, a name may be abbreviated or full and in any letter case, and a number has at most the digits
of its conversion. A text that ends right behind a conversion sets `eofbit` alone: the rest of the
format is not looked at, and nothing has failed.
-/

namespace Nawa.utils

/-! ## `get_time` -/

/-- The names of the days of the week, each before its abbreviation. -/
def weekdayNames : List (Bytes × Nat) := [
    (bytes "sunday", 0), (bytes "sun", 0),
    (bytes "monday", 1), (bytes "mon", 1),
    (bytes "tuesday", 2), (bytes "tue", 2),
    (bytes "wednesday", 3), (bytes "wed", 3),
    (bytes "thursday", 4), (bytes "thu", 4),
    (bytes "friday", 5), (bytes "fri", 5),
    (bytes "saturday", 6), (bytes "sat", 6)
  ]

def monthNames : List (Bytes × Nat) := [
    (bytes "january", 0), (bytes "jan", 0),
    (bytes "february", 1), (bytes "feb", 1),
    (bytes "march", 2), (bytes "mar", 2),
    (bytes "april", 3), (bytes "apr", 3),
    (bytes "may", 4),
    (bytes "june", 5), (bytes "jun", 5),
    (bytes "july", 6), (bytes "jul", 6),
    (bytes "august", 7), (bytes "aug", 7),
    (bytes "september", 8), (bytes "sep", 8),
    (bytes "october", 9), (bytes "oct", 9),
    (bytes "november", 10), (bytes "nov", 10),
    (bytes "december", 11), (bytes "dec", 11)
  ]

/-- One of the names at the head of a text, and the text behind it. -/
def scanName (names : List (Bytes × Nat)) (s : Bytes) : Option (Nat × Bytes) :=
  (names.find? fun name => name.1.isPrefixOf (toLowercase s)).map fun name =>
    (name.2, s.drop name.1.length)

/-- A number of at most `width` digits at the head of a text, and the text behind it. -/
def scanNumber (width lo hi : Nat) (s : Bytes) : Option (Nat × Bytes) :=
  let digits := (s.take width).takeWhile isdigit
  if digits ≠ [] ∧ lo ≤ digitsValue digits ∧ digitsValue digits ≤ hi then
    some (digitsValue digits, s.drop digits.length)
  else none

/-- The conversion `%c`. -/
def convert (c : UInt8) (tm : Tm) (s : Bytes) : Option (Tm × Bytes) :=
  if c = 'a'.toUInt8 then
    (scanName weekdayNames s).map fun r => ({ tm with wday := r.1 }, r.2)
  else if c = 'b'.toUInt8 then
    (scanName monthNames s).map fun r => ({ tm with mon := r.1 }, r.2)
  else if c = 'd'.toUInt8 then
    (scanNumber 2 1 31 s).map fun r => ({ tm with mday := r.1 }, r.2)
  else if c = 'Y'.toUInt8 then
    (scanNumber 4 0 9999 s).map fun r => ({ tm with year := r.1 }, r.2)
  else if c = 'H'.toUInt8 then
    (scanNumber 2 0 23 s).map fun r => ({ tm with hour := r.1 }, r.2)
  else if c = 'M'.toUInt8 then
    (scanNumber 2 0 59 s).map fun r => ({ tm with min := r.1 }, r.2)
  else if c = 'S'.toUInt8 then
    (scanNumber 2 0 60 s).map fun r => ({ tm with sec := r.1 }, r.2)
  else none

/-- The format against the text. What follows the end of the format is left unread. -/
def matchFormat : Bytes → Tm → Bytes → Option Tm
  | [], tm, _ => some tm
  | _ :: _, _, [] => none
  | [f], tm, c :: _ =>
    if f = '%'.toUInt8 then none
    else if isspace f ∨ tolower c = tolower f then some tm
    else none
  | f :: g :: fmt, tm, c :: s =>
    if f = '%'.toUInt8 then
      match convert g tm (c :: s) with
      | some (tm, []) => some tm
      | some (tm, s) => matchFormat fmt tm s
      | none => none
    else if isspace f then matchFormat (g :: fmt) tm (trimLeft (c :: s))
    else if tolower c = tolower f then matchFormat (g :: fmt) tm s
    else none

/-- `>> get_time`, which skips white space first. -/
def getTime (format s : Bytes) : Option Tm :=
  matchFormat format ⟨1900, 0, 0, 0, 0, 0, 0⟩ (trimLeft s)

/-! ## Seconds -/

/-- The days from 1970-01-01 to a day of a year and month (from 0), with years from March. -/
def daysFromCivil (year : Int) (mon mday : Nat) : Int :=
  let y := if mon < 2 then year - 1 else year
  let mp := if mon < 2 then mon + 10 else mon - 2
  y * 365 + y.fdiv 4 - y.fdiv 100 + y.fdiv 400 + ((153 * mp + 2) / 5 : Nat) + mday - 1 - 719468

/-- `timegm`. A day behind the end of its month counts on into the next. -/
def timegm (tm : Tm) : Int :=
  daysFromCivil tm.year tm.mon tm.mday * 86400 + tm.hour * 3600 + tm.min * 60 + tm.sec

def parsingFailed : Exception := ⟨1, bytes "Parsing of HTTP timestamp failed."⟩

def conversionFailed : Exception :=
  ⟨1, bytes "Conversion of parsed HTTP timestamp to a UNIX timestamp failed."⟩

def readHttpTime (httpTime : Bytes) : Except Exception Int :=
  match getTime (bytes "%a, %d %b %Y %H:%M:%S GMT") httpTime with
  | none => .error parsingFailed
  | some timeStruct =>
    let unixTime := timegm timeStruct
    if unixTime = -1 then .error conversionFailed else .ok unixTime

example : readHttpTime (bytes "Sun, 06 Nov 1994 08:49:37 GMT") = .ok 784111777 := by decide

example : readHttpTime (bytes "Sun, 06 Nov 1994 08:49:37") = .ok 784111777 := by decide

end Nawa.utils
