import Nawa.Mail.MimePartOrList

/-!
# Copies of MIME trees

A copy that is constructed holds what the original holds. An assignment does so unless it comes
upon an object without a part and a list: that one leaves what is assigned to as it is. It may be
the object itself, or an element of a list that is copied into a vector with room for it.
-/

namespace Nawa.mail.MimePartOrList

mutual

/-- What counts of an object: a list next to a part does not. -/
def picked : MimePartOrList → MimePartOrList
  | .mk (some mimePart) _ => .mk (some mimePart) none
  | .mk none (some (multipartType, mimeParts)) =>
    .mk none (some (multipartType, pickedParts mimeParts))
  | .mk none none => .mk none none

def pickedParts : List MimePartOrList → List MimePartOrList
  | [] => []
  | part :: parts => picked part :: pickedParts parts

end

namespace Data

mutual

/-- Nothing of the old object stays behind in an assignment: where the new one holds nothing, the
old one held nothing, and so on for the elements of a list that are assigned to. -/
def Replaces : Data → Data → Prop
  | _, .mk (some _) _ => True
  | .mk _ mimePartList, .mk none (some (_, _, mimeParts)) =>
    ReplacesParts (reused mimePartList mimeParts.length) mimeParts
  | self, .mk none none => self = empty

def ReplacesParts : List Data → List Data → Prop
  | _, [] => True
  | mimeParts, part :: parts =>
    Replaces (mimeParts.headD empty) part ∧ ReplacesParts mimeParts.tail parts

end

/-! ## Assignment -/

theorem value_eq_empty_iff (self : Data) : self.value = .mk none none ↔ self = empty := by
  obtain ⟨mimePart, mimePartList⟩ := self
  cases mimePartList with
  | none => simp only [value, empty, MimePartOrList.mk.injEq, Data.mk.injEq]
  | some l =>
    simp only [value, empty, MimePartOrList.mk.injEq, Data.mk.injEq, reduceCtorEq, and_false]

mutual

theorem value_assign_iff (self other : Data) :
    (assign self other).value = picked other.value ↔ Replaces self other := by
  match self, other with
  | _, .mk (some mimePart) none => exact iff_of_true rfl trivial
  | _, .mk (some mimePart) (some (multipartType, capacity, mimeParts)) =>
    exact iff_of_true rfl trivial
  | .mk _ mimePartList, .mk none (some (multipartType, capacity, mimeParts)) =>
    have hparts := values_assignParts_iff (reused mimePartList mimeParts.length) mimeParts
    rw [assign, value, value, picked, Replaces, ← hparts]
    simp only [MimePartOrList.mk.injEq, Option.some.injEq, Prod.mk.injEq, true_and]
  | self, .mk none none =>
    rw [assign, Replaces, ← value_eq_empty_iff]
    rfl

theorem values_assignParts_iff (mimeParts parts : List Data) :
    values (assignParts mimeParts parts) = pickedParts (values parts) ↔
      ReplacesParts mimeParts parts := by
  match parts with
  | [] => exact iff_of_true rfl trivial
  | part :: parts =>
    rw [assignParts, values, values, pickedParts, List.cons.injEq, value_assign_iff,
      values_assignParts_iff, ReplacesParts]

end

/-! ## Construction -/

mutual

/-- A new object has nothing to leave behind. -/
theorem replaces_empty (other : Data) : Replaces empty other := by
  match other with
  | .mk (some mimePart) mimePartList => exact trivial
  | .mk none (some (multipartType, capacity, mimeParts)) =>
    rw [empty, Replaces]
    exact replacesParts_nil mimeParts
  | .mk none none => exact rfl

theorem replacesParts_nil (parts : List Data) : ReplacesParts [] parts := by
  match parts with
  | [] => exact trivial
  | part :: parts =>
    rw [ReplacesParts]
    exact ⟨replaces_empty part, replacesParts_nil parts⟩

end

theorem value_copy (other : Data) : other.copy.value = picked other.value :=
  (value_assign_iff empty other).mpr (replaces_empty other)

theorem value_assignMimePart (self : Data) (p : MimePart) :
    (self.assignMimePart p).value = .mk (some p) none := by
  cases self
  rfl

/-! ## What a copy holds -/

/-- What is asked for: `a` holds what `b` holds after an assignment and after a construction, and
after the assignment of a part or a list nothing but a part or a list. -/
structure Copies (a b : Data) : Prop where
  assigned : (a.assign b).value = picked b.value
  constructed : b.copy.value = picked b.value
  mimePart : ∀ p, (a.assignMimePart p).value = .mk (some p) none
  mimePartList : ∀ multipartType mimeParts, ∃ parts,
    (a.assignMimePartList multipartType mimeParts).value = .mk none (some (multipartType, parts))

/-- Trees are copied unless something stays behind. -/
theorem copies_iff (a b : Data) : Copies a b ↔ Replaces a b := by
  constructor
  · intro h
    exact (value_assign_iff a b).mp h.assigned
  · intro h
    refine ⟨(value_assign_iff a b).mpr h, value_copy b, value_assignMimePart a, ?_⟩
    intro multipartType mimeParts
    cases a
    exact ⟨_, rfl⟩

/-- Nothing that is assigned to a part leaves the part. -/
theorem not_copies : ¬ ∀ a b : Data, Copies a b := by
  intro h
  have hassigned := (h (.mk (some { contentType := bytes "text/plain" }) none) empty).assigned
  cases hassigned

end Data

end Nawa.mail.MimePartOrList
