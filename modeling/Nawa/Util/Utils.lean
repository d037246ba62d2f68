import Nawa.Lib.AssocMap
import Nawa.Lib.MatchIterator
import Nawa.Util.Bytes

/-!
# `nawa::utils`

The string functions of `src/util/utils.cpp` that requests, decoders and emails use.
-/

namespace Nawa.utils

open Lib (AssocMap Regex)
open Lib.Search

/-! ## Replacement -/

/-- The loop of `regexReplaceCallback` over the tokens, which alternate between the text before
a match and the `marks + 1` texts of the match. `submatch` is the next of these, and `none` is
the source's -1. -/
def replaceLoop (marks : Nat) (fmt : List Bytes → Except StdException Bytes) :
    Option Nat → List Bytes → List Bytes → Except StdException Bytes
  | _, _, [] => .ok []
  | none, submatchVector, t :: ts =>
    (replaceLoop marks fmt (some 0) submatchVector ts).map (t ++ ·)
  | some submatch, submatchVector, t :: ts =>
    if submatch < marks then
      replaceLoop marks fmt (some (submatch + 1)) (submatchVector ++ [t]) ts
    else
      (fmt (submatchVector ++ [t])).bind fun replacement =>
        (replaceLoop marks fmt none [] ts).map (replacement ++ ·)

/-- `regexReplaceCallback`: the callback gets the text of a match and of each of its groups. -/
def regexReplaceCallback (s : Bytes) (rgx : Regex UInt8)
    (fmt : List Bytes → Except StdException Bytes) : Except StdException Bytes :=
  replaceLoop rgx.markCount fmt none [] (rgx.tokens s)

/-- The numbers -1 to `marks`, for the text before a match, the match and its groups. -/
def submatchList (marks : Nat) : List Int :=
  (List.range (marks + 2)).map fun n : Nat => (n : Int) - 1

/-- `regexReplaceCallback` with an expression of any kind, which is known by its searches only. -/
def regexReplaceCallbackBy (s : Bytes) (rgx : Lib.Searcher UInt8)
    (fmt : List Bytes → Except StdException Bytes) : Except StdException Bytes :=
  replaceLoop rgx.markCount fmt none [] (rgx.tokens (submatchList rgx.markCount) s)

/-- `vector::at`. -/
def at' (v : List Bytes) (n : Nat) : Except StdException Bytes :=
  match v[n]? with
  | some s => .ok s
  | none => .error .outOfRange

/-- `stringReplace` of characters, the patterns in the order of the map. -/
def replaceChars (input : Bytes) (patterns : List (UInt8 × UInt8)) : Bytes :=
  patterns.foldl (fun input e => input.map fun c => if c = e.1 then e.2 else c) input

/-- The replacement of one key, at most `fuel` times; `input` is the text from where the next
search begins. -/
def replaceKey (key val : Bytes) : Nat → Bytes → Except Failure Bytes
  | 0, _ => .error .diverges
  | fuel + 1, input =>
    match find key input with
    | none => .ok input
    | some pos =>
      (replaceKey key val fuel (input.drop (pos + key.length))).map (input.take pos ++ val ++ ·)

/-- `stringReplace` of strings, the patterns in the order of the map. An empty key is found again
after each replacement, so the loop has no end for it; any other key is found at most once for
each byte. -/
def stringReplace (input : Bytes) (patterns : List (Bytes × Bytes)) : Except Failure Bytes :=
  patterns.foldlM (fun input e => replaceKey e.1 e.2 (input.length + 1) input) input

/-! ## Characters and numbers -/

def hexDigit (n : Nat) : UInt8 := UInt8.ofNat (if n < 10 then 48 + n else 87 + n)

def hexDump (s : Bytes) : Bytes :=
  s.flatMap fun c => [hexDigit (c.toNat / 16), hexDigit (c.toNat % 16)]

def toUppercase (s : Bytes) : Bytes := s.map toupper

def toLowercase (s : Bytes) : Bytes := s.map tolower

/-! ## Splitting -/

/-- One turn of `splitString`'s loop for each unit of fuel; a turn removes at least one byte. -/
def splitLoop (delimiter : UInt8) (ignoreEmpty : Bool) : Nat → Bytes → List Bytes
  | 0, _ => []
  | _ + 1, [] => []
  | fuel + 1, str =>
    let pos := findElem delimiter str
    let token := match pos with
      | some n => str.take n
      | none => str
    let pushed := if !ignoreEmpty || !token.isEmpty then [token] else []
    match pos with
    | some n => pushed ++ splitLoop delimiter ignoreEmpty fuel (str.drop (n + 1))
    | none => pushed

def splitString (str : Bytes) (delimiter : UInt8) (ignoreEmpty : Bool) : List Bytes :=
  splitLoop delimiter ignoreEmpty str.length str

/-- The elements of a request path: the query string is cut off, empty elements are dropped. -/
def splitPath (pathString : Bytes) : List Bytes :=
  let rawPath := match findElem '?'.toUInt8 pathString with
    | some n => pathString.take n
    | none => pathString
  splitString rawPath '/'.toUInt8 true

/-- The text of a path: a slash before each element, and one slash for no elements. -/
def mergePath (path : List Bytes) : Bytes :=
  if path.isEmpty then bytes "/" else path.flatMap fun e => '/'.toUInt8 :: e

/-- `filename.substr(filename.find_last_of('.') + 1)`: without a dot, `npos + 1` is 0. -/
def getFileExtension (filename : Bytes) : Bytes :=
  match findLastElem '.'.toUInt8 filename with
  | some n => filename.drop (n + 1)
  | none => filename

/-! ## Header blocks -/

/-- One header line. Without a colon, `colonPos + 2` wraps to 1, which no line is shorter than,
and both `substr` calls answer the whole line. -/
def headerLine (line : Bytes) : Option (Bytes × Bytes) :=
  match findElem ':'.toUInt8 line with
  | some colonPos =>
    if line.length < colonPos + 2 then none
    else some (toLowercase (line.take colonPos), trimLeft (line.drop (colonPos + 1)))
  | none => some (toLowercase line, trimLeft line)

def parseHeaders (rawHeaders : Bytes) : AssocMap Bytes Bytes :=
  (splitString (rawHeaders.filter (· ≠ '\r'.toUInt8)) '\n'.toUInt8 true).foldl
    (fun ret line => match headerLine line with
      | some (key, val) => ret.insert key val
      | none => ret) .empty

end Nawa.utils
