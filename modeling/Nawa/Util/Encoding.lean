import Nawa.Util.Utils

/-!
# `nawa::encoding`

The base64 coder of `libs/base64`, as `encoding::base64Encode` and `encoding::base64Decode` use
it, URL encoding and quoted-printable in both directions, and the encoded words of email headers.
The decoders for URLs and quoted-printable replace the matches of a regular expression.
-/

namespace Nawa.encoding

open Lib (Regex)

/-! ## Base64 -/

/-- The character of `base64_chars` at a position. -/
def base64Char (v : UInt8) : UInt8 :=
  if v < 26 then v + 65
  else if v < 52 then v + 71
  else if v < 62 then v - 4
  else if v = 62 then '+'.toUInt8
  else '/'.toUInt8

/-- Three bytes give four characters; a last group of `i` bytes gives `i + 1` characters and is
padded. -/
def encodeGroups : Bytes → Bytes
  | a :: b :: c :: rest =>
    base64Char ((a &&& 0xfc) >>> 2) ::
      base64Char (((a &&& 0x03) <<< 4) + ((b &&& 0xf0) >>> 4)) ::
      base64Char (((b &&& 0x0f) <<< 2) + ((c &&& 0xc0) >>> 6)) ::
      base64Char (c &&& 0x3f) :: encodeGroups rest
  | [a, b] =>
    [base64Char ((a &&& 0xfc) >>> 2), base64Char (((a &&& 0x03) <<< 4) + ((b &&& 0xf0) >>> 4)),
      base64Char ((b &&& 0x0f) <<< 2), '='.toUInt8]
  | [a] =>
    [base64Char ((a &&& 0xfc) >>> 2), base64Char ((a &&& 0x03) <<< 4), '='.toUInt8, '='.toUInt8]
  | [] => []

/-- The check before each character: a line that has `break_after` characters is ended. -/
def insertBreaks (breakAfter : Nat) (breakSequence : Bytes) : Nat → Bytes → Bytes
  | _, [] => []
  | breakCount, c :: cs =>
    if 0 < breakAfter ∧ breakCount = breakAfter then
      breakSequence ++ c :: insertBreaks breakAfter breakSequence 1 cs
    else c :: insertBreaks breakAfter breakSequence (breakCount + 1) cs

def base64Encode (input : Bytes) (breakAfter : Nat) (breakSequence : Bytes) : Bytes :=
  insertBreaks breakAfter breakSequence 0 (encodeGroups input)

/-- The position of a character in `base64_chars`. -/
def base64Value (c : UInt8) : UInt8 :=
  if 65 ≤ c ∧ c ≤ 90 then c - 65
  else if 97 ≤ c ∧ c ≤ 122 then c - 97 + 26
  else if isdigit c then c - 48 + 52
  else if c = '+'.toUInt8 then 62
  else 63

def is_base64 (c : UInt8) : Bool := isalnum c ∨ c = '+'.toUInt8 ∨ c = '/'.toUInt8

def is_whitespace (c : UInt8) : Bool := c = 13 ∨ c = 10 ∨ c = 9 ∨ c = 32

/-- Four characters give three bytes; a last group of `i` characters gives `i - 1` bytes. -/
def decodeGroups : Bytes → Bytes
  | a :: b :: c :: d :: rest =>
    ((a <<< 2) + ((b &&& 0x30) >>> 4)) :: (((b &&& 0xf) <<< 4) + ((c &&& 0x3c) >>> 2)) ::
      (((c &&& 0x3) <<< 6) + d) :: decodeGroups rest
  | [a, b, c] => [(a <<< 2) + ((b &&& 0x30) >>> 4), ((b &&& 0xf) <<< 4) + ((c &&& 0x3c) >>> 2)]
  | [a, b] => [(a <<< 2) + ((b &&& 0x30) >>> 4)]
  | _ => []

/-- Decoding stops at the first character that is neither of the alphabet nor white space. -/
def base64Decode (input : Bytes) : Bytes :=
  decodeGroups <|
    ((input.takeWhile fun c => is_base64 c || is_whitespace c).filter is_base64).map base64Value

example : base64Decode (bytes "dXNlcjpw YXNz") = bytes "user:pass" := by decide

/-- The expression `[A-Za-z0-9\+/]+={0,2}`, and with white space
`[A-Za-z0-9\+/ \t\n\r]+={0,2}`. -/
def base64Text (allowWhitespaces : Bool) : Regex UInt8 :=
  .seq (Regex.plus (.sat fun c => is_base64 c || (allowWhitespaces && is_whitespace c)))
    (.rep true 0 (some 2) (.sat (· = '='.toUInt8)))

def isBase64 (input : Bytes) (allowWhitespaces : Bool) : Bool :=
  ((base64Text allowWhitespaces).fullMatch input).isSome

/-! ## URLs -/

/-- What `copyfmt` copies of a stream, as far as the encoder sets it. -/
structure StreamFormat where
  hex : Bool := false
  uppercase : Bool := false
  width : Nat := 0
  fill : UInt8 := ' '.toUInt8
  deriving DecidableEq

/-- A `stringstream` that is written to. -/
structure StringStream where
  str : Bytes := []
  format : StreamFormat := {}

namespace StringStream

/-- Formatted output: it is filled up to the width, which is used up by that. -/
def put (out : StringStream) (s : Bytes) : StringStream where
  str := out.str ++ List.replicate (out.format.width - s.length) out.format.fill ++ s
  format := { out.format with width := 0 }

/-- Output of a number that is not negative. -/
def putInt (out : StringStream) (n : Nat) : StringStream :=
  let digits := (Nat.toDigits (if out.format.hex then 16 else 10) n).map fun c =>
    UInt8.ofNat c.toNat
  out.put (if out.format.uppercase then utils.toUppercase digits else digits)

def copyfmt (out : StringStream) (format : StreamFormat) : StringStream :=
  { out with format := format }

end StringStream

/-- The characters of `urlUnreserved`. -/
def urlUnreserved (c : UInt8) : Bool := isalnum c ∨ c ∈ bytes "-_.~"

/-- One turn of the encoder's loop. A byte that is escaped is written in hexadecimal, and the
format of the stream is put back behind it. -/
def urlEncodeChar (out : StringStream) (c : UInt8) : StringStream :=
  if urlUnreserved c then out.put [c]
  else
    let init := out.format
    let out := out.put (bytes "%")
    let out := out.copyfmt
      { out.format with uppercase := true, hex := true, width := 2, fill := '0'.toUInt8 }
    (out.putInt c.toNat).copyfmt init

def urlEncode (input : Bytes) : Bytes := (input.foldl urlEncodeChar {}).str

example : urlEncode (bytes "a b/~\n") = bytes "a%20b%2F~%0A" := by decide

/-- The class `[0-9A-F]`. -/
def upperHex (c : UInt8) : Bool := isdigit c ∨ (65 ≤ c ∧ c ≤ 70)

/-- `[0-9A-F]{2}`. -/
def hexPair : Regex UInt8 := Regex.times 2 (.sat upperHex)

/-- `string(1, (char) stoul(s, nullptr, 16))`. -/
def byteOfHex (s : Bytes) : Except StdException Bytes :=
  (stoulHex s).map fun n => [UInt8.ofNat n]

/-- The expression `%([0-9A-F]{2})`. -/
def urlCode : Regex UInt8 := .seq (.sat (· = '%'.toUInt8)) (.group 1 hexPair)

def urlDecode (input : Bytes) : Except StdException Bytes :=
  utils.regexReplaceCallback input urlCode fun submatches =>
    (utils.at' submatches 1).bind byteOfHex

/-! ## Quoted-printable -/

/-- The loop of the encoder. A `char` is signed, so that bytes from 128 on are below 32. -/
def quotedPrintableLoop (lineEnding : Bytes) (replaceCrlf qEncoding : Bool) : Nat → Bytes → Bytes
  | _, [] => []
  | lineCount, c :: input =>
    if 32 ≤ c ∧ c ≤ 126 ∧ c ≠ 61 ∧ ¬ (qEncoding = true ∧ (c = 32 ∨ c = 63 ∨ c = 95)) then
      if qEncoding = false ∧ 75 ≤ lineCount then
        '='.toUInt8 :: lineEnding ++
          c :: quotedPrintableLoop lineEnding replaceCrlf qEncoding 1 input
      else c :: quotedPrintableLoop lineEnding replaceCrlf qEncoding (lineCount + 1) input
    else if replaceCrlf = false ∧ (c = 10 ∨ c = 13) then
      c :: quotedPrintableLoop lineEnding replaceCrlf qEncoding 0 input
    else if qEncoding = true ∧ c = 32 then
      '_'.toUInt8 :: quotedPrintableLoop lineEnding replaceCrlf qEncoding (lineCount + 1) input
    else if qEncoding = false ∧ 73 ≤ lineCount then
      '='.toUInt8 :: lineEnding ++ '='.toUInt8 :: utils.toUppercase (utils.hexDump [c]) ++
        quotedPrintableLoop lineEnding replaceCrlf qEncoding 3 input
    else
      '='.toUInt8 :: utils.toUppercase (utils.hexDump [c]) ++
        quotedPrintableLoop lineEnding replaceCrlf qEncoding (lineCount + 3) input

def quotedPrintableEncode (input lineEnding : Bytes) (replaceCrlf qEncoding : Bool) : Bytes :=
  quotedPrintableLoop lineEnding replaceCrlf qEncoding 0 input

/-- The expression `=([0-9A-F]{2}|\r?\n)`. -/
def quotedCode : Regex UInt8 :=
  .seq (.sat (· = '='.toUInt8)) <|
    .group 1 (.alt hexPair (.seq (Regex.opt (.sat (· = 13))) (.sat (· = 10))))

def quotedPrintableDecode (input : Bytes) (qEncoding : Bool) : Except StdException Bytes :=
  let input :=
    if qEncoding then utils.replaceChars input [('_'.toUInt8, ' '.toUInt8)] else input
  utils.regexReplaceCallback input quotedCode fun submatches =>
    (utils.at' submatches 1).bind fun code =>
      if code = crlf ∨ code = [10] then .ok [] else byteOfHex code

/-! ## Encoded words -/

/-- The text itself where nothing in it had to be encoded, if that is asked for. -/
def makeEncodedWord (input : Bytes) (base64 onlyIfNecessary : Bool) : Except Failure Bytes :=
  if base64 then .ok (bytes "=?utf-8?" ++ bytes "B?" ++ base64Encode input 0 [] ++ bytes "?=")
  else
    let qpEncoded := quotedPrintableEncode input [] true true
    (utils.stringReplace input [(bytes " ", bytes "_")]).map fun replaced =>
      if onlyIfNecessary ∧ qpEncoded = replaced then input
      else bytes "=?utf-8?" ++ bytes "Q?" ++ qpEncoded ++ bytes "?="

example : makeEncodedWord (bytes "a b?") false true = .ok (bytes "=?utf-8?Q?a_b=3F?=") := by
  decide

end Nawa.encoding
