import Nawa.Util.HtmlEntities
import Nawa.Util.Utils

/-!
# `encoding::htmlEncode` and `encoding::htmlDecode`

A `std::u32string` is a `String` here, and a code point that need not be a character is a number.
The encoder that knows all entities reads one character ahead; the decoder replaces the matches
of two regular expressions, the named entities before the numeric ones.
-/

namespace Nawa.encoding

open Lib (Regex)

/-! ## `wstring_convert` -/

/-- What a version of the library does with a surrogate, for which UTF-8 has no sequence: newer
ones throw, older ones write three bytes. -/
inductive Codecvt where
  | strict
  | lenient
  deriving DecidableEq

/-- `from_bytes`, which throws on text that is not UTF-8. -/
def fromBytes (s : Bytes) : Except StdException String :=
  match String.fromUTF8? ⟨s.toArray⟩ with
  | some text => .ok text
  | none => .error .rangeError

/-- `to_bytes` of one code point. -/
def toBytes (cv : Codecvt) (c : Nat) : Except StdException Bytes :=
  if c.isValidChar then .ok (String.utf8EncodeChar (Char.ofNat c))
  else if cv = .lenient ∧ c < 0x110000 then
    .ok [UInt8.ofNat (0xE0 + c / 0x1000), UInt8.ofNat (0x80 + c / 0x40 % 0x40),
      UInt8.ofNat (0x80 + c % 0x40)]
  else .error .rangeError

/-! ## Encoding -/

/-- The loop over the characters. `lookahead` is a character that may begin an entity of two
characters, and `'\x00'` where there is none. -/
def htmlEncodeLoop : Char → List Char → Bytes
  | lookahead, [] => if lookahead ≠ '\x00' then String.utf8EncodeChar lookahead else []
  | lookahead, c :: uinput =>
    let encoded := match htmlEntities.lookup c.toNat with
      | some name =>
        if name = "" then htmlEncodeLoop c uinput else bytes name ++ htmlEncodeLoop '\x00' uinput
      | none => String.utf8EncodeChar c ++ htmlEncodeLoop '\x00' uinput
    if lookahead = '\x00' then encoded
    else match htmlLookaheads.lookup lookahead.toNat with
      | none => String.utf8EncodeChar lookahead ++ encoded
      | some (second, name) =>
        if second = c.toNat then bytes name ++ htmlEncodeLoop '\x00' uinput
        else String.utf8EncodeChar lookahead ++ encoded

def htmlEncode (input : Bytes) (encodeAll : Bool) : Except StdException Bytes :=
  if !encodeAll then
    let input := replaceAll (bytes "&") (bytes "&amp;") input
    let input := replaceAll [quote] (bytes "&quot;") input
    let input := replaceAll (bytes "<") (bytes "&lt;") input
    .ok (replaceAll (bytes ">") (bytes "&gt;") input)
  else (fromBytes input).map fun uinput => htmlEncodeLoop '\x00' uinput.toList

/-! ## Decoding -/

/-- The elements of the hash map that an initializer list gives. -/
def elements (entries : List (Nat × String)) : List (Nat × String) :=
  entries.filter fun e => entries.lookup e.1 = some e.2

/-- What the decode table gets for an entity: its name and its characters, where the second one
is 0 if there is none. -/
def decodeEntry (e : Nat × String) : Option (String × Nat × Nat) :=
  if e.2 ≠ "" then some (e.2, e.1, 0)
  else (htmlLookaheads.lookup e.1).map fun lookahead => (lookahead.2, e.1, lookahead.1)

/-- The table after `initializeHtmlDecodeTable`; an `insert` keeps what is there. The order of
the entities is that of the initializer list, for the unspecified one of the hash map. -/
def htmlDecodeTable : List (String × Nat × Nat) :=
  (elements htmlEntities).filterMap decodeEntry ++ [("&fjlig;", 0x66, 0x6A)]

/-- The expression `&[A-Za-z0-9]{1,25}?;`. -/
def matchEntity : Regex UInt8 :=
  .seq (.sat (· = '&'.toUInt8)) <|
    .seq (.rep false 1 (some 25) (.sat isalnum)) (.sat (· = ';'.toUInt8))

def replaceEntity (cv : Codecvt) (submatches : List Bytes) : Except StdException Bytes :=
  (utils.at' submatches 0).bind fun text => (fromBytes text).bind fun entity32 =>
    match htmlDecodeTable.lookup entity32 with
    | none => .ok text
    | some (first, second) =>
      (toBytes cv first).bind fun ret =>
        if second ≠ 0 then (toBytes cv second).map (ret ++ ·) else .ok ret

/-- The expression `&#(x([A-Fa-f0-9]{1,5})|([0-9]{1,6}));`. -/
def matchUnicode : Regex UInt8 :=
  Regex.lit (bytes "&#") <|
    .seq
      (.group 1 (.alt
        (.seq (.sat (· = 'x'.toUInt8)) (.group 2 (.rep true 1 (some 5) (.sat isxdigit))))
        (.group 3 (.rep true 1 (some 6) (.sat isdigit)))))
      (.sat (· = ';'.toUInt8))

def replaceUnicode (cv : Codecvt) (submatches : List Bytes) : Except StdException Bytes :=
  if submatches.length < 3 then .ok []
  else if submatches.getD 3 [] ≠ [] then
    (stoul (submatches.getD 3 [])).bind fun c => toBytes cv (c % 2 ^ 32)
  else if submatches.getD 2 [] ≠ [] then
    (stoulHex (submatches.getD 2 [])).bind fun c => toBytes cv (c % 2 ^ 32)
  else .ok []

def htmlDecode (cv : Codecvt) (input : Bytes) : Except StdException Bytes :=
  (utils.regexReplaceCallback input matchEntity (replaceEntity cv)).bind fun input =>
    utils.regexReplaceCallback input matchUnicode (replaceUnicode cv)

example : htmlDecode .strict (bytes "&#x41;&#66;&#;") = .ok (bytes "AB&#;") := by decide +kernel

end Nawa.encoding
