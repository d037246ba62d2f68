import Nawa.Laws.Util.MimeMultipart

/-!
# Several calls on one multipart object

The documentation of `parse` says that it clears the existing content first. It does not: the
parts of a call stand behind those that the object holds (`parse_append`), also where the call
throws. A call on a used object is then like one on a fresh object exactly if the object holds no
parts (`parse_replaces_iff`).
-/

namespace Nawa.MimeMultipart

open Lib.Search

/-- What a caller may do with an object; an exception of `parse` is caught. -/
inductive Call where
  | parse (contentType content : Bytes)
  | clear

def Call.run (data : Data) : Call → Data
  | .parse contentType content => (MimeMultipart.parse data contentType content).1
  | .clear => MimeMultipart.clear data

def runCalls (data : Data) (calls : List Call) : Data := calls.foldl Call.run data

/-- The parts of a call's own text. -/
def pushed (contentType content : Bytes) : List Part := (parse {} contentType content).1.parts

/-! ## One call -/

/-- On any object `parse` does what it does on a fresh one, with the parts that were there in
front. -/
theorem parse_append (data : Data) (contentType content : Bytes) :
    (parse data contentType content).1.parts = data.parts ++ pushed contentType content ∧
      (parse data contentType content).2 = (parse {} contentType content).2 ∧
      ((parse data contentType content).2 = .ok () →
        (parse data contentType content).1.contentType =
          (parse {} contentType content).1.contentType) := by
  rw [pushed, parse, parse]
  cases findBoundary.searchGroups contentType with
  | none =>
    refine ⟨(List.append_nil _).symm, rfl, ?_⟩
    intro h
    cases h
  | some boundaryMatch =>
    dsimp only
    generalize bytes "--" ++ (boundaryMatch 1).getD [] = boundary
    have happend := parseParts_append boundary content data.parts []
    rw [List.append_nil] at happend
    rw [happend]
    obtain ⟨parts, _ | e⟩ := parseParts boundary content []
    · exact ⟨rfl, rfl, fun _ => rfl⟩
    · refine ⟨rfl, rfl, ?_⟩
      intro h
      cases h

theorem parse_eq_fresh_iff {data fresh : Data} {contentType content : Bytes}
    (h : parse {} contentType content = (fresh, .ok ())) :
    parse data contentType content = (fresh, .ok ()) ↔ data.parts = [] := by
  obtain ⟨hparts, hresult, htype⟩ := parse_append data contentType content
  rw [pushed] at hparts
  rw [h] at hparts hresult htype
  constructor
  · intro heq
    rw [heq] at hparts
    exact List.self_eq_append_left.mp hparts
  · intro hnil
    rw [hnil, List.nil_append] at hparts
    have htype := htype hresult
    generalize parse data contentType content = result at hparts hresult htype
    obtain ⟨⟨contentType', parts'⟩, outcome⟩ := result
    obtain rfl : parts' = fresh.parts := hparts
    obtain rfl : contentType' = fresh.contentType := htype
    obtain rfl : outcome = .ok () := hresult
    rfl

/-! ## Several calls -/

/-- **A call replaces what the object held exactly if it held no parts.** -/
theorem parse_replaces_iff (data : Data) (calls : List Call) {contentType content : Bytes}
    {fresh : Data} (h : parse {} contentType content = (fresh, .ok ())) :
    parse (runCalls data calls) contentType content = (fresh, .ok ()) ↔
      (runCalls data calls).parts = [] :=
  parse_eq_fresh_iff h

/-! ## One form twice -/

def fieldType : Bytes := bytes "multipart/form-data; boundary=b"

def fieldContent : Bytes := bytes "--b\r\na: b\r\n\r\nxy\r\n--b--"

/-- The one part of the form. -/
def fieldPart : Part := makePart (bytes "a: b") (bytes "xy")

theorem parse_field (data : Data) :
    parse data fieldType fieldContent =
      ({ contentType := bytes "multipart/form-data", parts := data.parts ++ [fieldPart] },
        .ok ()) := by
  obtain ⟨g, hsearch, hg⟩ := findBoundary_boundary (b := oneByteBoundary) (by decide)
  have hboundary : bytes "--" ++ (g 1).getD [] = bytes "--b" := by
    rw [hg]
    rfl
  have htype : findBoundary.searchGroups fieldType = some g := hsearch
  have hpart : parsePart (bytes "--b") fieldContent = .part fieldPart (bytes "--b--") := by
    decide
  have hclosing : parsePart (bytes "--b") (bytes "--b--") = .finished := by decide
  rw [parse, htype]
  dsimp only
  rw [hboundary, parseParts_part hpart, parseParts_finished (by decide) hclosing]
  rfl

/-- The second time, the field is there twice. -/
theorem not_replaced_field :
    ∃ fresh, parse {} fieldType fieldContent = (fresh, .ok ()) ∧
      parse (runCalls {} [.parse fieldType fieldContent]) fieldType fieldContent ≠
        (fresh, .ok ()) := by
  refine ⟨_, parse_field {}, ?_⟩
  rw [Ne, parse_eq_fresh_iff (parse_field {})]
  show (parse {} fieldType fieldContent).1.parts ≠ []
  rw [parse_field]
  exact List.cons_ne_nil _ _

/-- After `clear` it is there once. -/
theorem parse_replaces_iff_cleared :
    parse {} fieldType fieldContent =
        ({ contentType := bytes "multipart/form-data", parts := [fieldPart] }, .ok ()) ∧
      parse (runCalls {} [.parse fieldType fieldContent, .clear]) fieldType fieldContent =
        ({ contentType := bytes "multipart/form-data", parts := [fieldPart] }, .ok ()) :=
  have hreplaces :=
    parse_replaces_iff {} [.parse fieldType fieldContent, .clear] (parse_field {})
  ⟨parse_field {}, hreplaces.mpr rfl⟩

end Nawa.MimeMultipart
