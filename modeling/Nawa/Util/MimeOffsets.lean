import Nawa.Util.MimeMultipart

/-!
# The multipart parser by offsets

`MimeMultipart::parse` and `utils::parseHeaders` once more, with the calls of `substr` and the
differences of positions that the source writes. Here `substr` throws for a position behind the
end, a difference below zero counts as a failure, and a loop fails when it takes more turns than
its text has bytes.

The library searches for a regular expression by recursion on the text, and a text that is too
long for the stack ends the program. Which texts are not is a parameter, `fits`.
-/

namespace Nawa.MimeMultipart.Offsets

open Lib (AssocMap Regex)
open Lib.Search

/-- `substr`. The count may be `npos`, and there is none for all the rest. -/
def substr (s : Bytes) (pos : Nat) (count : Option Nat) : Except Failure Bytes :=
  if s.length < pos then .error (.std .outOfRange)
  else
    match count with
    | some n => .ok ((s.drop pos).take n)
    | none => .ok (s.drop pos)

/-- The difference of two positions, which must not wrap around. -/
def minus (a b : Nat) : Except Failure Nat := if a < b then .error .undefined else .ok (a - b)

/-- A position plus a small number, where `npos` wraps around. -/
def plus (pos : Option Nat) (n : Nat) : Nat :=
  match pos with
  | some pos => pos + n
  | none => n - 1

/-! ## Header blocks -/

def splitLoop (delimiter : UInt8) (ignoreEmpty : Bool) : Nat → Bytes → Except Failure (List Bytes)
  | _, [] => .ok []
  | 0, _ :: _ => .error .diverges
  | fuel + 1, c :: cs => do
    let str := c :: cs
    let pos := findElem delimiter str
    let token ← substr str 0 pos
    let ret := if !ignoreEmpty || !token.isEmpty then [token] else []
    match pos with
    | some n =>
      if n < str.length then
        let str ← substr str (n + 1) none
        let rest ← splitLoop delimiter ignoreEmpty fuel str
        return ret ++ rest
      else return ret
    | none => return ret

def splitString (str : Bytes) (delimiter : UInt8) (ignoreEmpty : Bool) :
    Except Failure (List Bytes) :=
  splitLoop delimiter ignoreEmpty str.length str

def headerLine (line : Bytes) : Except Failure (Option (Bytes × Bytes)) := do
  let colonPos := findElem ':'.toUInt8 line
  if line.length < plus colonPos 2 then return none
  else
    let key ← substr line 0 colonPos
    let val ← substr line (plus colonPos 1) none
    return some (utils.toLowercase key, trimLeft val)

def parseHeaders (rawHeaders : Bytes) : Except Failure (AssocMap Bytes Bytes) := do
  let lines ← splitString (rawHeaders.filter (· ≠ '\r'.toUInt8)) '\n'.toUInt8 true
  lines.foldlM (fun ret line => do
    match ← headerLine line with
    | some (key, val) => return ret.insert key val
    | none => return ret) .empty

/-! ## The parser -/

/-- `std::regex_search`. -/
def regexSearch (fits : Regex UInt8 → Bytes → Bool) (e : Regex UInt8) (s : Bytes) :
    Except Failure (Option (Nat → Option Bytes)) :=
  if fits e s then .ok (e.searchGroups s) else .error .undefined

def extractPartAndFileName (fits : Regex UInt8 → Bytes → Bool) (contentDisposition : Bytes) :
    Except Failure (Bytes × Bytes) := do
  match ← regexSearch fits matchPartAndFileName contentDisposition with
  | some sm => return ((sm 2).getD [], (sm 4).getD [])
  | none => return ([], [])

/-- The name and file name of the part with these headers. -/
def partNames (fits : Regex UInt8 → Bytes → Bool) (headers : AssocMap Bytes Bytes) :
    Except Failure (Bytes × Bytes) :=
  match headers.lookup (bytes "content-disposition") with
  | some contentDisposition => extractPartAndFileName fits contentDisposition
  | none => return ([], [])

/-- One turn of the loop on a non-empty text. -/
def parsePart (fits : Regex UInt8 → Bytes → Bool) (boundary content : Bytes) :
    Except Failure PartStep := do
  if content.length < boundary.length + 2 then return .malformed
  else if (← substr content 0 (some boundary.length)) ≠ boundary then return .malformed
  else
    let content ← substr content boundary.length none
    if (← substr content 0 (some 2)) = bytes "--" then return .finished
    else if content.length < boundary.length + 6 then return .malformed
    else if (← substr content 0 (some 2)) ≠ crlf then return .malformed
    else
      let content ← substr content 2 none
      match find boundary content with
      | none => return .malformed
      | some nextBoundaryPos =>
        let headersEndPos := headersEnd content nextBoundaryPos
        if headersEndPos < 4 then return .malformed
        else
          let headers ← parseHeaders (← substr content 0 (some headersEndPos))
          let names ← partNames fits headers
          let partContent ←
            if nextBoundaryPos > headersEndPos + 7 then do
              let length ← minus (← minus nextBoundaryPos 2) (headersEndPos + 4)
              substr content (headersEndPos + 4) (some length)
            else pure []
          let rest ← substr content nextBoundaryPos none
          return .part
            { partName := names.1
              filename := names.2
              contentType := (headers.lookup (bytes "content-type")).getD []
              headers := headers
              content := partContent } rest

/-- The loop, with at most one turn for each unit of fuel. -/
def parseParts (fits : Regex UInt8 → Bytes → Bool) (boundary : Bytes) :
    Nat → Bytes → List Part → List Part × Except Failure Unit
  | _, [], parts => (parts, .ok ())
  | 0, _ :: _, parts => (parts, .error .diverges)
  | fuel + 1, c :: cs, parts =>
    match parsePart fits boundary (c :: cs) with
    | .error e => (parts, .error e)
    | .ok .finished => (parts, .ok ())
    | .ok .malformed => (parts, .error (.nawa malformedPayload))
    | .ok (.part p rest) => parseParts fits boundary fuel rest (parts ++ [p])

def parse (fits : Regex UInt8 → Bytes → Bool) (data : Data) (contentType content : Bytes) :
    Data × Except Failure Unit :=
  match regexSearch fits findBoundary contentType with
  | .error e => (data, .error e)
  | .ok none => (data, .error (.nawa couldNotFindBoundary))
  | .ok (some boundaryMatch) =>
    let boundary := bytes "--" ++ (boundaryMatch 1).getD []
    match parseParts fits boundary content.length content data.parts with
    | (parts, .error e) => ({ data with parts := parts }, .error e)
    | (parts, .ok ()) =>
      match substr contentType 0 (findElem ';'.toUInt8 contentType) with
      | .error e => ({ data with parts := parts }, .error e)
      | .ok contentType => ({ contentType := contentType, parts := parts }, .ok ())

end Nawa.MimeMultipart.Offsets
