import Nawa.Util.Html

/-!
# Punycode

`punycode_encode` and `punycode_decode` of `libs/punycode`, and `encoding::punycodeEncode` and
`encoding::punycodeDecode` for domains. The C functions write into a buffer and stop where it is
full, so the size of the buffer is an argument here. Their counters are far below 2^64 for any text
that there is room for and for what the encoder has made of it, and the checks for their overflow,
which would fail an assertion, are left out.
-/

namespace Nawa

namespace punycode

/-- The loop of `adapt_bias`; a turn makes `delta` smaller, so it takes at most `delta` turns. -/
def adaptLoop : Nat → Nat → Nat → Nat
  | 0, k, delta => k + 36 * delta / (delta + 38)
  | fuel + 1, k, delta =>
    if 455 < delta then adaptLoop fuel (k + 36) (delta / 35) else k + 36 * delta / (delta + 38)

/-- `adapt_bias`; its `delta` has 32 bits. -/
def adaptBias (delta nPoints : Nat) (isFirst : Bool) : Nat :=
  let delta := delta % 2 ^ 32 / if isFirst then 700 else 2
  let delta := delta + delta / nPoints
  adaptLoop delta 0 delta

def encodeDigit (c : Nat) : UInt8 := UInt8.ofNat (if 25 < c then c + 22 else c + 97)

/-- `encode_var_int`, into a buffer with room for some digits. -/
def encodeVarInt (bias : Nat) : Nat → Nat → Nat → Bytes
  | 0, _, _ => []
  | room + 1, k, q =>
    let t := if k ≤ bias then 1 else if bias + 26 ≤ k then 26 else k - bias
    if q < t then [encodeDigit q]
    else
      encodeDigit (t + (q - t) % (36 - t)) ::
        encodeVarInt bias room (k + 36) ((q - t) / (36 - t))

/-- The variables of the encoder's main loop, with what has been written. -/
structure EncodeState where
  dst : Bytes
  delta : Nat := 0
  bias : Nat := 72
  h : Nat

/-- The inner loop at one code point, in the round for the code point `n`. -/
def encodePoint (dstlen b n : Nat) (st : EncodeState) (c : Nat) : EncodeState :=
  if c < n then { st with delta := st.delta + 1 }
  else if c = n then
    { dst := st.dst ++ encodeVarInt st.bias (dstlen - st.dst.length) 36 st.delta
      delta := 0
      bias := adaptBias st.delta (st.h + 1) (st.h = b)
      h := st.h + 1 }
  else st

/-- The rounds of the main loop, each for the next smallest code point. A round handles at least
one position, so it takes at most as many rounds as there are positions. -/
def encodeRounds (src : List Nat) (dstlen b : Nat) : Nat → Nat → EncodeState → Bytes
  | 0, _, st => st.dst
  | fuel + 1, n, st =>
    if st.h < src.length ∧ st.dst.length < dstlen then
      let m := (src.filter fun c => n ≤ c).min?.getD (2 ^ 64 - 1)
      let st := { st with delta := st.delta + (m - n) * (st.h + 1) }
      let st := src.foldl (encodePoint dstlen b m) st
      encodeRounds src dstlen b fuel (m + 1) { st with delta := st.delta + 1 }
    else st.dst

/-- `punycode_encode`: what it writes into a buffer of `dstlen` bytes. -/
def punycodeEncode (src : List Nat) (dstlen : Nat) : Bytes :=
  let basic := ((src.filter (· < 128)).map UInt8.ofNat).take dstlen
  let b := basic.length
  if 0 < b ∧ b < dstlen ∧ b = src.length then basic
  else
    let dst := if 0 < b ∧ b < dstlen then basic ++ bytes "-" else basic
    encodeRounds src dstlen b src.length 128 { dst := dst, h := b }

example : punycodeEncode ([98, 252, 99, 104, 101, 114]) 28 = bytes "bcher-kva" := by decide

/-! ## Decoding -/

/-- `decode_digit`, which answers `SIZE_MAX` for what is no digit. -/
def decodeDigit (v : UInt8) : Option Nat :=
  if isdigit v then some (26 + (v.toNat - 48))
  else if 97 ≤ v ∧ v ≤ 122 then some (v.toNat - 97)
  else if 65 ≤ v ∧ v ≤ 90 then some (v.toNat - 65)
  else none

/-- The decoder's inner loop: a number is added to `i`, and its digits are taken off the text. The
zero that stands behind a text is no digit. -/
def decodeVarInt (bias : Nat) : Bytes → Nat → Nat → Nat → Option (Nat × Bytes)
  | [], _, _, _ => none
  | c :: src, k, w, i =>
    match decodeDigit c with
    | none => none
    | some digit =>
      let i := i + digit * w
      let t := if k ≤ bias then 1 else if bias + 26 ≤ k then 26 else k - bias
      if digit < t then some (i, src) else decodeVarInt bias src (k + 36) (w * (36 - t)) i

/-- The variables of the decoder's main loop; `di` is the length of `dst`. -/
structure DecodeState where
  dst : List Nat
  i : Nat := 0
  n : Nat := 128
  bias : Nat := 72

/-- What the main loop does with a number that it has read: the code points behind a position are
moved by one, and another is put there. -/
def insertPoint (st : DecodeState) (i : Nat) : DecodeState :=
  let di := st.dst.length
  let n := st.n + i / (di + 1)
  { dst := st.dst.take (i % (di + 1)) ++ n % 2 ^ 32 :: st.dst.drop (i % (di + 1))
    i := i % (di + 1) + 1
    n := n
    bias := adaptBias (i - st.i) (di + 1) (st.i = 0) }

/-- The main loop, into a buffer with room for some more code points. -/
def decodePoints : Nat → DecodeState → Bytes → List Nat
  | 0, st, _ => st.dst
  | _ + 1, st, [] => st.dst
  | room + 1, st, c :: src =>
    match decodeVarInt st.bias (c :: src) 36 1 st.i with
    | none => st.dst
    | some (i, rest) => decodePoints room (insertPoint st i) rest

/-- `punycode_decode`: what it writes into a buffer for `dstlen` code points. A delimiter at the
beginning of the text is not found. -/
def punycodeDecode (src : Bytes) (dstlen : Nat) : List Nat :=
  if ∃ c ∈ src, 128 ≤ c then []
  else
    let b := (Lib.Search.findLastElem '-'.toUInt8 src).getD 0
    let basic := (src.take (min b dstlen)).map UInt8.toNat
    decodePoints (dstlen - basic.length) { dst := basic } (src.drop (b + if 0 < b then 1 else 0))

example : punycodeDecode (bytes "bcher-kva") 9 = [98, 252, 99, 104, 101, 114] := by decide

end punycode

namespace encoding

/-- One part of a domain. -/
def encodeLabel (part : Bytes) : Except StdException Bytes :=
  (fromBytes part).map fun wstr =>
    let pret := punycode.punycodeEncode (wstr.toList.map Char.toNat) (part.length * 4)
    (if pret ≠ part then bytes "xn--" else []) ++ pret

/-- Encodes the parts between dots that are not empty, and joins them again. -/
def punycodeEncode (input : Bytes) : Except StdException Bytes :=
  ((utils.splitString input '.'.toUInt8 true).mapM encodeLabel).map (bytes ".").intercalate

/-- One part of a domain; `to_bytes` of the decoded code points may throw. -/
def decodeLabel (cv : Codecvt) (part : Bytes) : Except StdException Bytes :=
  if part.take 4 = bytes "xn--" then
    let part := part.drop 4
    ((punycode.punycodeDecode part part.length).mapM (toBytes cv)).map List.flatten
  else .ok part

def punycodeDecode (cv : Codecvt) (input : Bytes) : Except StdException Bytes :=
  ((utils.splitString input '.'.toUInt8 true).mapM (decodeLabel cv)).map (bytes ".").intercalate

end encoding

end Nawa
