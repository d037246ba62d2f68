import Nawa.Util.Bytes

/-!
# Textual IP addresses

What the web server hands over as the source of a request: the text of an IPv4 or IPv6 address,
which a colon and the port may follow. An IPv6 address has many texts: its fields may have
leading zeros and digits in either case, a run of zeros may be left out, and the last 32 bits may
be written like an IPv4 address.
-/

namespace Nawa

structure Ipv4 where
  a : UInt8
  b : UInt8
  c : UInt8
  d : UInt8
  deriving DecidableEq

/-- Eight groups of sixteen bits. -/
structure Ipv6 where
  groups : List UInt16
  length_groups : groups.length = 8
  deriving DecidableEq

inductive IpAddress where
  | v4 (address : Ipv4)
  | v6 (address : Ipv6)
  deriving DecidableEq

namespace Ipv4

def numbers (x : Ipv4) : List Bytes := [x.a, x.b, x.c, x.d].map fun n => decimal n.toNat

def text (x : Ipv4) : Bytes := List.intercalate ['.'.toUInt8] x.numbers

/-- The groups that the address stands for at the end of an IPv6 address. -/
def groups (x : Ipv4) : List UInt16 :=
  [x.a.toUInt16 * 256 + x.b.toUInt16, x.c.toUInt16 * 256 + x.d.toUInt16]

end Ipv4

/-- A group in hexadecimal. -/
structure Ipv6Field where
  text : Bytes
  nonempty : text ≠ []
  length_le : text.length ≤ 4
  digits : ∀ c ∈ text, isxdigit c = true

def Ipv6Field.value (field : Ipv6Field) : UInt16 := .ofNat (xdigitsValue field.text)

/-- The groups of some fields, and of an IPv4 address behind them. -/
def fieldGroups (fields : List Ipv6Field) (quad : Option Ipv4) : List UInt16 :=
  fields.map Ipv6Field.value ++ quad.toList.flatMap Ipv4.groups

def fieldTexts (fields : List Ipv6Field) (quad : Option Ipv4) : List Bytes :=
  fields.map Ipv6Field.text ++ quad.toList.map Ipv4.text

/-- A text of an IPv6 address: all fields, or those around a run of zeros. -/
inductive Ipv6Text where
  | full (fields : List Ipv6Field) (quad : Option Ipv4)
      (length : (fieldGroups fields quad).length = 8)
  | compressed (before after : List Ipv6Field) (quad : Option Ipv4)
      (length : before.length + (fieldGroups after quad).length < 8)

namespace Ipv6Text

def groups : Ipv6Text → List UInt16
  | full fields quad _ => fieldGroups fields quad
  | compressed before after quad _ =>
    before.map Ipv6Field.value ++
      (List.replicate (8 - (before.length + (fieldGroups after quad).length)) 0 ++
        fieldGroups after quad)

def text : Ipv6Text → Bytes
  | full fields quad _ => List.intercalate [':'.toUInt8] (fieldTexts fields quad)
  | compressed before after quad _ =>
    List.intercalate [':'.toUInt8] (before.map Ipv6Field.text) ++ (':'.toUInt8 :: ':'.toUInt8 ::
      List.intercalate [':'.toUInt8] (fieldTexts after quad))

/-- The fields in front of the run of zeros. -/
def front : Ipv6Text → List Ipv6Field
  | full fields _ _ => fields
  | compressed before _ _ _ => before

/-- The field with which the text begins; it is empty if a run of zeros has been left out
there. -/
def leading (t : Ipv6Text) : Bytes := (t.front.map Ipv6Field.text).headD []

theorem length_groups (t : Ipv6Text) : t.groups.length = 8 := by
  cases t with
  | full fields quad length => exact length
  | compressed before after quad length =>
    rw [groups, List.length_append, List.length_append, List.length_map, List.length_replicate]
    omega

def address (t : Ipv6Text) : Ipv6 := ⟨t.groups, t.length_groups⟩

end Ipv6Text

/-- A text of an address. -/
inductive AddressText where
  | v4 (address : Ipv4)
  | v6 (text : Ipv6Text)

namespace AddressText

def address : AddressText → IpAddress
  | v4 x => .v4 x
  | v6 t => .v6 t.address

def text : AddressText → Bytes
  | v4 x => x.text
  | v6 t => t.text

/-- The address, and behind a colon the port. -/
def source (t : AddressText) : Option Nat → Bytes
  | some port => t.text ++ ':'.toUInt8 :: decimal port
  | none => t.text

/-- Both are IPv6 addresses, and their texts begin with the same field. -/
def SameLeading : AddressText → AddressText → Prop
  | v6 t, v6 t' => t.leading = t'.leading
  | _, _ => False

end AddressText

end Nawa
