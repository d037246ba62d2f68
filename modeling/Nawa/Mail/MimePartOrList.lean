import Nawa.Mail.MimeEmail

/-!
# Assigning to a `MimePartOrList`

`MimePartOrList::Data`, with the assignments and the copy constructor that the source writes by
hand. Copying a list copies a `std::vector`, which assigns to the elements it has where the new
ones fit into its storage, and constructs new ones otherwise; so a list has a capacity here. The
object that is copied is not the one assigned to, nor a part of it.
-/

namespace Nawa.mail.MimePartOrList

/-- An object: its two pointers. A list is its type, the capacity of its vector and the elements. -/
inductive Data where
  | mk (mimePart : Option MimePart) (mimePartList : Option (MultipartType × Nat × List Data))

namespace Data

/-- `Data() = default`. -/
def empty : Data := .mk none none

/-- The elements of a vector that are assigned to when `n` elements are copied into it. -/
def reused (mimePartList : Option (MultipartType × Nat × List Data)) (n : Nat) : List Data :=
  match mimePartList with
  | some (_, capacity, mimeParts) => if capacity < n then [] else mimeParts
  | none => []

/-- The capacity of a vector behind that. -/
def capacityFor (mimePartList : Option (MultipartType × Nat × List Data)) (n : Nat) : Nat :=
  match mimePartList with
  | some (_, capacity, _) => max capacity n
  | none => n

mutual

/-- `operator=(Data const&)`. -/
def assign : Data → Data → Data
  | _, .mk (some mimePart) _ => .mk (some mimePart) none
  | .mk _ mimePartList, .mk none (some (multipartType, _, mimeParts)) =>
    .mk none (some (multipartType, capacityFor mimePartList mimeParts.length,
      assignParts (reused mimePartList mimeParts.length) mimeParts))
  | self, .mk none none => self

/-- The elements are assigned to as far as there are any; the others are copy-constructed, which
is an assignment to a new object. -/
def assignParts : List Data → List Data → List Data
  | _, [] => []
  | mimeParts, part :: parts =>
    assign (mimeParts.headD empty) part :: assignParts mimeParts.tail parts

end

/-- `Data(Data const&)`. -/
def copy (other : Data) : Data := assign empty other

/-- `operator=(MimePart::Data const&)`. -/
def assignMimePart : Data → MimePart → Data
  | .mk _ _, otherMimePartData => .mk (some otherMimePartData) none

/-- `operator=(MimePartList::Data const&)`. -/
def assignMimePartList : Data → MultipartType → List Data → Data
  | .mk _ mimePartList, multipartType, mimeParts =>
    .mk none (some (multipartType, capacityFor mimePartList mimeParts.length,
      assignParts (reused mimePartList mimeParts.length) mimeParts))

mutual

/-- What an object holds. -/
def value : Data → MimePartOrList
  | .mk mimePart none => .mk mimePart none
  | .mk mimePart (some (multipartType, _, mimeParts)) =>
    .mk mimePart (some (multipartType, values mimeParts))

def values : List Data → List MimePartOrList
  | [] => []
  | part :: parts => value part :: values parts

end

end Data

end Nawa.mail.MimePartOrList
