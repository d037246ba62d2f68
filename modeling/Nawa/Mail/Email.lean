import Nawa.Connection.Connection
import Nawa.Mail.MimeEmail

/-!
# `nawa::mail::Email`

The two kinds of emails, and the raw source that `getRaw` makes of them. The headers of an email
are written in the order of a hash map.
-/

namespace Nawa.mail

open Lib (AssocMap)

abbrev HeadersMap := AssocMap Bytes Bytes

/-- What `SimpleEmail` and `MimeEmail` have beyond the headers. -/
inductive Content where
  | simpleEmail (text : Bytes) (quotedPrintableEncode : Bool)
  | mimeEmail (multipartType : MultipartType) (mimeParts : List MimePartOrList)

structure Email where
  headers : HeadersMap := .empty
  content : Content := .simpleEmail [] true

/-- The lines of those headers that `getRaw` does not write itself. -/
def headersText (own : Bytes → Bool) (headers : List (Bytes × Bytes)) : Bytes :=
  (headers.filter fun e => !own e.1).flatMap fun e => e.1 ++ bytes ": " ++ e.2 ++ crlf

namespace SimpleEmail

def ownHeader (quotedPrintableEncode : Bool) (name : Bytes) : Bool :=
  name = bytes "MIME-Version" ||
    (quotedPrintableEncode && name = bytes "Content-Transfer-Encoding")

/-- The text, with the replacement rules applied if there are any. -/
def replaced (text : Bytes) (replacementRules : Option ReplacementRules) :
    Except Failure Bytes :=
  match replacementRules with
  | some rules => utils.stringReplace text rules
  | none => .ok text

def getRaw (headers : List (Bytes × Bytes)) (text : Bytes) (quotedPrintableEncode : Bool)
    (replacementRules : Option ReplacementRules) : Except Failure Bytes :=
  (replaced text replacementRules).map fun text =>
    headersText (ownHeader quotedPrintableEncode) headers ++ bytes "MIME-Version: 1.0\r\n" ++
      if quotedPrintableEncode then
        bytes "Content-Transfer-Encoding: quoted-printable\r\n\r\n" ++
          encoding.quotedPrintableEncode text crlf false false
      else crlf ++ text

end SimpleEmail

namespace MimeEmail

def ownHeader (name : Bytes) : Bool :=
  name = bytes "MIME-Version" || name = bytes "Content-Type"

/-- The text before the first delimiter line. -/
def preamble : Bytes := bytes "This is a multi-part message in MIME format\r\n\r\n"

/-- The raw source, and the number of calls of `genBoundary` after it. -/
def getRaw (headers : List (Bytes × Bytes)) (multipartType : MultipartType)
    (mimeParts : List MimePartOrList) (digest : Nat → Bytes) (calls : Nat)
    (replacementRules : Option ReplacementRules) : Except Failure (Bytes × Nat) :=
  let boundary := genBoundary (digest calls)
  (mergeMimePartList replacementRules digest boundary (calls + 1) mimeParts).map fun merged =>
    (headersText ownHeader headers ++
        bytes "MIME-Version: 1.0\r\nContent-Type: multipart/" ++
        multipartTypeToString multipartType ++ bytes "; boundary=\"" ++ boundary ++
        bytes "\"\r\n\r\n" ++ preamble ++ merged.1,
      merged.2)

end MimeEmail

/-- The virtual `getRaw`, with the number of calls of `genBoundary`. -/
def Email.getRaw (order : HashOrder) (digest : Nat → Bytes) (calls : Nat) (email : Email)
    (replacementRules : Option ReplacementRules) : Except Failure (Bytes × Nat) :=
  let headers := order.order email.headers.entries
  match email.content with
  | .simpleEmail text quotedPrintableEncode =>
    (SimpleEmail.getRaw headers text quotedPrintableEncode replacementRules).map (·, calls)
  | .mimeEmail multipartType mimeParts =>
    MimeEmail.getRaw headers multipartType mimeParts digest calls replacementRules

end Nawa.mail
