import Nawa.Lib.Regex
import Nawa.Util.Utils

/-!
# `nawa::MimeMultipart`

The multipart parser of `src/util/MimeMultipart.cpp`. `parsePart` is one turn of the parser's
loop, up to the point where the text left is handed to the next turn; `parseParts` is the loop,
which keeps the parts pushed so far when a later turn throws.
-/

namespace Nawa

open Lib (AssocMap Regex)
open Lib.Search

namespace MimeMultipart

structure Part where
  partName : Bytes
  filename : Bytes
  contentType : Bytes
  headers : AssocMap Bytes Bytes
  content : Bytes
  deriving DecidableEq

structure Data where
  contentType : Bytes := []
  parts : List Part := []
  deriving DecidableEq

/-! ## The two regular expressions -/

/-- The class `[A-Za-z0-9'()+_,\-.\/:=? ]`. -/
def boundaryChar (c : UInt8) : Bool := isalnum c ∨ c ∈ bytes "'()+_,-./:=? "

def notQuote (c : UInt8) : Bool := c ≠ quote

def optQuote : Regex UInt8 := Regex.opt (.sat (· = quote))

/-- The expression `boundary="?([A-Za-z0-9'()+_,\-.\/:=? ]+)"?`. -/
def findBoundary : Regex UInt8 :=
  Regex.lit (bytes "boundary=") <|
    .seq optQuote <| .seq (.group 1 (Regex.plus (.sat boundaryChar))) optQuote

/-- The expression `; ?filename="?([^"]+)"?`. -/
def matchFileName : Regex UInt8 :=
  .seq (.sat (· = ';'.toUInt8)) <| .seq (Regex.opt (.sat (· = ' '.toUInt8))) <|
    Regex.lit (bytes "filename=") <|
      .seq optQuote <| .seq (.group 4 (Regex.plus (.sat notQuote))) optQuote

/-- The expression `(;| )name="?([^"]+)"?(; ?filename="?([^"]+)"?)?`. -/
def matchPartAndFileName : Regex UInt8 :=
  .seq (.group 1 (.alt (.sat (· = ';'.toUInt8)) (.sat (· = ' '.toUInt8)))) <|
    Regex.lit (bytes "name=") <|
      .seq optQuote <| .seq (.group 2 (Regex.plus (.sat notQuote))) <|
        .seq optQuote (Regex.opt (.group 3 matchFileName))

/-- The name and file name of a part; a group that did not take part reads as empty. -/
def extractPartAndFileName (contentDisposition : Bytes) : Bytes × Bytes :=
  match matchPartAndFileName.searchGroups contentDisposition with
  | some sm => ((sm 2).getD [], (sm 4).getD [])
  | none => ([], [])

/-! ## The parser -/

def couldNotFindBoundary : Exception := ⟨1, bytes "Could not find boundary in content type."⟩

def malformedPayload : Exception := ⟨2, bytes "Malformed MIME payload."⟩

/-- How one turn of the loop ends: the closing delimiter, an exception, or a part and the text
for the next turn. -/
inductive PartStep where
  | finished
  | malformed
  | part (p : Part) (rest : Bytes)
  deriving DecidableEq

/-- The part between the delimiter line and the next boundary, from its header block and the
text between the two. -/
def makePart (rawHeaders content : Bytes) : Part :=
  let headers := utils.parseHeaders rawHeaders
  let names := match headers.lookup (bytes "content-disposition") with
    | some contentDisposition => extractPartAndFileName contentDisposition
    | none => ([], [])
  { partName := names.1
    filename := names.2
    contentType := (headers.lookup (bytes "content-type")).getD []
    headers := headers
    content := content }

/-- Where the header block ends: at the first blank line or, if that is earlier, at the next
boundary. Without a blank line `npos` is larger than every position. -/
def headersEnd (content : Bytes) (nextBoundaryPos : Nat) : Nat :=
  match find (crlf ++ crlf) content with
  | some n => if n > nextBoundaryPos then nextBoundaryPos else n
  | none => nextBoundaryPos

/-- One turn of the loop on a non-empty text. -/
def parsePart (boundary content : Bytes) : PartStep :=
  if content.length < boundary.length + 2 ∨ content.take boundary.length ≠ boundary then
    .malformed
  else
    let content := content.drop boundary.length
    if content.take 2 = bytes "--" then .finished
    else if content.length < boundary.length + 6 ∨ content.take 2 ≠ crlf then .malformed
    else
      let content := content.drop 2
      match find boundary content with
      | none => .malformed
      | some nextBoundaryPos =>
        let headersEndPos := headersEnd content nextBoundaryPos
        if headersEndPos < 4 then .malformed
        else
          let partContent :=
            if nextBoundaryPos > headersEndPos + 7 then
              (content.drop (headersEndPos + 4)).take (nextBoundaryPos - 2 - (headersEndPos + 4))
            else []
          .part (makePart (content.take headersEndPos) partContent) (content.drop nextBoundaryPos)

/-- A turn that yields a part shortens the text. -/
theorem parsePart_shrinks {boundary content rest : Bytes} {p : Part}
    (h : parsePart boundary content = .part p rest) : rest.length < content.length := by
  unfold parsePart at h
  split at h
  · cases h
  · next hlen =>
    dsimp only at h
    split at h
    · cases h
    · split at h
      · cases h
      · split at h
        · cases h
        · split at h
          · cases h
          · cases h
            simp only [List.length_drop]
            omega

/-- The loop: the parts pushed on `parts`, and the exception that ended it, if any. -/
def parseParts (boundary content : Bytes) (parts : List Part) : List Part × Option Exception :=
  match content with
  | [] => (parts, none)
  | c :: cs =>
    match _h : parsePart boundary (c :: cs) with
    | .finished => (parts, none)
    | .malformed => (parts, some malformedPayload)
    | .part p rest => parseParts boundary rest (parts ++ [p])
termination_by content.length
decreasing_by exact parsePart_shrinks _h

/-- `MimeMultipart::parse` on the object's data. Parts of an earlier call are not cleared, and
parts pushed before an exception stay. -/
def parse (data : Data) (contentType content : Bytes) : Data × Except Exception Unit :=
  match findBoundary.searchGroups contentType with
  | none => (data, .error couldNotFindBoundary)
  | some boundaryMatch =>
    let boundary := bytes "--" ++ (boundaryMatch 1).getD []
    match parseParts boundary content data.parts with
    | (parts, some e) => ({ data with parts := parts }, .error e)
    | (parts, none) =>
      ({ contentType := match findElem ';'.toUInt8 contentType with
          | some n => contentType.take n
          | none => contentType
         parts := parts }, .ok ())

def clear (_ : Data) : Data := {}

end MimeMultipart

end Nawa
