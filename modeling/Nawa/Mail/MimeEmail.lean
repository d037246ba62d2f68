import Nawa.Util.Encoding

/-!
# `nawa::mail::MimeEmail`

MIME parts and lists of them, and their text in an email. A map of headers or of replacement
rules is the list of its entries in the order in which the source goes through it.

Boundaries of nested lists are MD5 digests of random numbers; `digest n` is the digest that the
call number `n` of `genBoundary` gets.
-/

namespace Nawa.mail

abbrev ReplacementRules := List (Bytes × Bytes)

inductive ApplyEncoding where
  | base64
  | quotedPrintable
  | none
  deriving DecidableEq

structure MimePart where
  contentType : Bytes
  contentDisposition : Bytes := []
  applyEncoding : ApplyEncoding := .quotedPrintable
  partHeaders : List (Bytes × Bytes) := []
  allowReplacements : Bool := false
  partData : Bytes := []

inductive MultipartType where
  | mixed
  | digest
  | alternative
  | related
  | report
  | signed
  | encrypted

/-- The two pointers of a `MimePartOrList`. A list is its type and its elements. -/
inductive MimePartOrList where
  | mk (mimePart : Option MimePart)
    (mimePartList : Option (MultipartType × List MimePartOrList))

def genBoundary (digest : Bytes) : Bytes := bytes "----=_" ++ utils.hexDump digest

def multipartTypeToString : MultipartType → Bytes
  | .mixed => bytes "mixed"
  | .digest => bytes "digest"
  | .alternative => bytes "alternative"
  | .related => bytes "related"
  | .report => bytes "report"
  | .signed => bytes "signed"
  | .encrypted => bytes "encrypted"

/-- The data of a part, with the replacement rules applied where the part allows it. -/
def MimePart.replaced (p : MimePart) (replacementRules : Option ReplacementRules) :
    Except Failure Bytes :=
  match p.allowReplacements, replacementRules with
  | true, some rules => utils.stringReplace p.partData rules
  | _, _ => .ok p.partData

/-- The header fields of a part but for its transfer encoding. -/
def MimePart.headers (p : MimePart) : Bytes :=
  bytes "Content-Type: " ++ p.contentType ++ crlf ++
    (if p.contentDisposition ≠ [] then
      bytes "Content-Disposition: " ++ p.contentDisposition ++ crlf
    else []) ++
    p.partHeaders.flatMap fun e => e.1 ++ bytes ": " ++ e.2 ++ crlf

/-- The end of the header block and the encoded data. -/
def MimePart.encoded (p : MimePart) (data : Bytes) : Bytes :=
  match p.applyEncoding with
  | .base64 =>
    bytes "Content-Transfer-Encoding: base64\r\n\r\n" ++ encoding.base64Encode data 76 crlf
  | .quotedPrintable =>
    bytes "Content-Transfer-Encoding: quoted-printable\r\n\r\n" ++
      encoding.quotedPrintableEncode data crlf false false
  | .none => crlf ++ data

/-- What `mergeMimePartList` writes for a part behind the delimiter line. -/
def MimePart.text (p : MimePart) (replacementRules : Option ReplacementRules) :
    Except Failure Bytes :=
  (p.replaced replacementRules).map fun data => p.headers ++ p.encoded data ++ crlf ++ crlf

mutual

/-- The text of an element, of which a part counts before a list, and the number of calls of
`genBoundary` after it. -/
def elementText (replacementRules : Option ReplacementRules) (digest : Nat → Bytes)
    (calls : Nat) : MimePartOrList → Except Failure (Bytes × Nat)
  | .mk (some mimePart) _ => (mimePart.text replacementRules).map fun text => (text, calls)
  | .mk none none => .ok ([], calls)
  | .mk none (some (multipartType, mimeParts)) =>
    let partBoundary := genBoundary (digest calls)
    (mergeMimePartList replacementRules digest partBoundary (calls + 1) mimeParts).map fun r =>
      (bytes "Content-Type: multipart/" ++ multipartTypeToString multipartType ++
        bytes "; boundary=\"" ++ partBoundary ++ bytes "\"\r\n\r\n" ++ r.1 ++ crlf ++ crlf, r.2)

def mergeMimePartList (replacementRules : Option ReplacementRules) (digest : Nat → Bytes)
    (boundary : Bytes) (calls : Nat) : List MimePartOrList → Except Failure (Bytes × Nat)
  | [] => .ok (bytes "--" ++ boundary ++ bytes "--", calls)
  | part :: parts =>
    (elementText replacementRules digest calls part).bind fun r =>
      (mergeMimePartList replacementRules digest boundary r.2 parts).map fun rest =>
        (bytes "--" ++ boundary ++ crlf ++ r.1 ++ rest.1, rest.2)

end

end Nawa.mail
