import Nawa.Laws.Util.Encoding

/-!
# URL encoding

The encoder changes the format of its stream for each byte that it escapes and puts it back, so
every byte is written on its own: as itself, or as a code that the decoder's expression matches.
-/

namespace Nawa.encoding

/-- What the encoder writes for a byte. -/
def urlText (c : UInt8) : Bytes :=
  if urlUnreserved c then [c]
  else ['%'.toUInt8, upperDigit (c.toNat / 16), upperDigit (c.toNat % 16)]

/-- An unreserved character, or a percent sign with two hexadecimal digits. -/
inductive UrlPiece : Bytes → Prop
  | unreserved {c : UInt8} (h : urlUnreserved c = true) : UrlPiece [c]
  | triplet {a b : UInt8} (ha : upperHex a = true) (hb : upperHex b = true) :
    UrlPiece ['%'.toUInt8, a, b]

/-- The format in which the encoder writes the number of a byte. -/
def codeFormat : StreamFormat :=
  { hex := true, uppercase := true, width := 2, fill := '0'.toUInt8 }

/-- A number in that format is filled up to two digits. -/
theorem putInt_code (str : Bytes) (c : UInt8) :
    (({ str := str, format := codeFormat } : StringStream).putInt c.toNat).str =
      str ++ [upperDigit (c.toNat / 16), upperDigit (c.toNat % 16)] := by
  have hdigits : ∀ c : UInt8,
      (({ format := codeFormat } : StringStream).putInt c.toNat).str =
        [upperDigit (c.toNat / 16), upperDigit (c.toNat % 16)] :=
    forall_byte (by decide +kernel)
  rw [← hdigits]
  simp only [StringStream.putInt, StringStream.put, List.nil_append, List.append_assoc]

/-- One turn of the loop, on a stream with the default format. -/
theorem urlEncodeChar_eq (str : Bytes) (c : UInt8) :
    urlEncodeChar { str := str } c = { str := str ++ urlText c } := by
  have hput : ∀ s : Bytes, ({ str := str } : StringStream).put s = { str := str ++ s } := by
    intro s
    rw [StringStream.put, Nat.zero_sub, List.replicate_zero, List.append_nil]
  rw [urlEncodeChar, urlText]
  split
  · exact hput [c]
  · -- the format of the stream is that of before, whatever it was while the code was written
    have hcode := putInt_code (str ++ bytes "%") c
    rw [List.append_assoc] at hcode
    rw [hput]
    exact congrArg (fun str => ({ str := str } : StringStream)) hcode

theorem urlEncode_eq (s : Bytes) : urlEncode s = s.flatMap urlText := by
  have hloop : ∀ str : Bytes,
      s.foldl urlEncodeChar { str := str } = { str := str ++ s.flatMap urlText } := by
    induction s with
    | nil =>
      intro str
      rw [List.foldl_nil, List.flatMap_nil, List.append_nil]
    | cons c s ih =>
      intro str
      rw [List.foldl_cons, urlEncodeChar_eq, ih, List.flatMap_cons, List.append_assoc]
  rw [urlEncode, hloop, List.nil_append]

theorem urlPiece_urlText (c : UInt8) : UrlPiece (urlText c) := by
  rw [urlText]
  split
  · next h => exact .unreserved h
  · exact .triplet (upperHex_digits c).1 (upperHex_digits c).2

/-- The code of a byte is read back in front of any text. -/
theorem urlDecode_urlText (c : UInt8) (t : Bytes) :
    urlDecode (urlText c ++ t) = (urlDecode t).map (c :: ·) := by
  rw [urlText]
  split
  · next h =>
    have hne : c ≠ '%'.toUInt8 := fun heq => absurd (heq ▸ h) (by decide)
    exact urlDecode_cons hne t
  · refine (urlDecode_pair (upperHex_digits c).1 (upperHex_digits c).2 t).trans ?_
    rw [xdigitsValue_upperDigits]

/-- **URL decoding undoes URL encoding**, whose output is made of unreserved characters and
triplets. -/
theorem urlDecode_urlEncode (s : Bytes) :
    (∃ pieces : List Bytes, urlEncode s = pieces.flatten ∧ ∀ p ∈ pieces, UrlPiece p) ∧
      urlDecode (urlEncode s) = .ok s := by
  rw [urlEncode_eq]
  constructor
  · refine ⟨s.map urlText, List.flatMap_def, ?_⟩
    rintro p hp
    obtain ⟨c, -, rfl⟩ := List.mem_map.mp hp
    exact urlPiece_urlText c
  · induction s with
    | nil => rfl
    | cons c s ih =>
      rw [List.flatMap_cons, urlDecode_urlText, ih]
      rfl

end Nawa.encoding
