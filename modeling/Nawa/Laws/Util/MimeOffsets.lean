import Nawa.Laws.Util.MimeMultipart
import Nawa.Util.MimeOffsets

/-!
# What a call of the multipart parser comes to

On any object and any text the parser by offsets does what `MimeMultipart.parse` says, so that all
its offsets stay within their texts and its loop ends, unless the library runs out of stack in a
search (`parse_total_iff`).
-/

namespace Nawa.MimeMultipart

open Lib (AssocMap Regex)
open Lib.Search

namespace Offsets

/-! ## Offsets within the text -/

theorem ok_bind {α β : Type} (a : α) (f : α → Except Failure β) : Except.ok a >>= f = f a := rfl

theorem substr_all {s : Bytes} {pos : Nat} (h : pos ≤ s.length) :
    substr s pos none = .ok (s.drop pos) := if_neg (Nat.not_lt.mpr h)

theorem substr_count {s : Bytes} {pos : Nat} (h : pos ≤ s.length) (n : Nat) :
    substr s pos (some n) = .ok ((s.drop pos).take n) := if_neg (Nat.not_lt.mpr h)

theorem substr_begin (s : Bytes) (n : Nat) : substr s 0 (some n) = .ok (s.take n) :=
  substr_count (Nat.zero_le _) n

theorem minus_of_le {a b : Nat} (h : b ≤ a) : minus a b = .ok (a - b) := if_neg (Nat.not_lt.mpr h)

/-! ## Header blocks -/

theorem splitLoop_eq (delimiter : UInt8) (ignoreEmpty : Bool) {fuel : Nat} {str : Bytes}
    (h : str.length ≤ fuel) :
    splitLoop delimiter ignoreEmpty fuel str =
      .ok (utils.splitLoop delimiter ignoreEmpty fuel str) := by
  induction fuel generalizing str with
  | zero =>
    obtain rfl := List.length_eq_zero_iff.mp (Nat.le_zero.mp h)
    rfl
  | succ fuel ih =>
    cases str with
    | nil => rfl
    | cons c cs =>
      rw [splitLoop, utils.splitLoop]
      · cases hpos : findElem delimiter (c :: cs) with
        | none => rfl
        | some n =>
          have hn := findElem_lt hpos
          have hrest : ((c :: cs).drop (n + 1)).length ≤ fuel := by
            rw [List.length_drop]
            omega
          rw [substr_begin]
          show (if n < (c :: cs).length then _ else _) = _
          rw [if_pos hn, substr_all hn]
          show (splitLoop delimiter ignoreEmpty fuel ((c :: cs).drop (n + 1)) >>= _) = _
          rw [ih hrest]
          rfl
      · exact List.cons_ne_nil c cs

theorem splitString_eq (str : Bytes) (delimiter : UInt8) (ignoreEmpty : Bool) :
    splitString str delimiter ignoreEmpty = .ok (utils.splitString str delimiter ignoreEmpty) :=
  splitLoop_eq delimiter ignoreEmpty (Nat.le_refl _)

/-- Without a colon, the sums with `npos` wrap around to positions that every line has. -/
theorem headerLine_eq {line : Bytes} (h : line ≠ []) :
    headerLine line = .ok (utils.headerLine line) := by
  have hpositive := List.length_pos_iff.mpr h
  cases hpos : findElem ':'.toUInt8 line with
  | none =>
    have hlen : ¬ line.length < plus none 2 := by
      simp only [plus]
      omega
    have hzero : plus none 1 = 0 := rfl
    rw [headerLine, utils.headerLine, hpos]
    dsimp only
    rw [if_neg hlen, hzero, substr_all (Nat.zero_le _)]
    rfl
  | some colonPos =>
    have hlt := findElem_lt hpos
    have hone : plus (some colonPos) 1 = colonPos + 1 := rfl
    have htwo : plus (some colonPos) 2 = colonPos + 2 := rfl
    rw [headerLine, utils.headerLine, hpos]
    dsimp only
    rw [hone, htwo]
    by_cases hlen : line.length < colonPos + 2
    · rw [if_pos hlen, if_pos hlen]
      rfl
    · rw [if_neg hlen, if_neg hlen, substr_begin, substr_all hlt]
      rfl

/-- A loop in which nothing fails. -/
theorem foldlM_ok {α β : Type} {f : β → α → Except Failure β} {g : β → α → β} {l : List α}
    (h : ∀ a ∈ l, ∀ b, f b a = .ok (g b a)) (b : β) : l.foldlM f b = .ok (l.foldl g b) := by
  induction l generalizing b with
  | nil => rfl
  | cons a l ih =>
    rw [List.forall_mem_cons] at h
    rw [List.foldlM_cons, h.1, ok_bind, List.foldl_cons]
    exact ih h.2 (g b a)

theorem parseHeaders_eq (rawHeaders : Bytes) :
    parseHeaders rawHeaders = .ok (utils.parseHeaders rawHeaders) := by
  rw [parseHeaders, utils.parseHeaders, splitString_eq, ok_bind]
  refine foldlM_ok ?_ AssocMap.empty
  intro line hline ret
  rw [headerLine_eq (utils.mem_splitString hline).1]
  cases utils.headerLine line with
  | none => rfl
  | some f => rfl

/-! ## The parser -/

/-- The next boundary and the header block end within the text, in this order. -/
theorem headersEnd_le (content : Bytes) (nextBoundaryPos : Nat) :
    headersEnd content nextBoundaryPos ≤ nextBoundaryPos := by
  rw [headersEnd]
  cases find (crlf ++ crlf) content with
  | none => exact Nat.le_refl _
  | some n =>
    by_cases hn : n > nextBoundaryPos
    · exact (if_pos hn).trans_le (Nat.le_refl _)
    · exact (if_neg hn).trans_le (Nat.not_lt.mp hn)

/-- The stack suffices for the search in the `content-disposition` of these headers. -/
def NamesFit (fits : Regex UInt8 → Bytes → Bool) (headers : AssocMap Bytes Bytes) : Prop :=
  ∀ contentDisposition ∈ headers.lookup (bytes "content-disposition"),
    fits matchPartAndFileName contentDisposition = true

variable {fits : Regex UInt8 → Bytes → Bool} {boundary : Bytes}

theorem partNames_of_fit {headers : AssocMap Bytes Bytes} (h : NamesFit fits headers) :
    partNames fits headers = .ok (match headers.lookup (bytes "content-disposition") with
      | some contentDisposition => MimeMultipart.extractPartAndFileName contentDisposition
      | none => ([], [])) := by
  rw [partNames]
  cases hlookup : headers.lookup (bytes "content-disposition") with
  | none => rfl
  | some contentDisposition =>
    dsimp only
    rw [extractPartAndFileName, regexSearch, if_pos (h _ hlookup), ok_bind,
      MimeMultipart.extractPartAndFileName]
    cases matchPartAndFileName.searchGroups contentDisposition <;> rfl

theorem partNames_of_not_fit {headers : AssocMap Bytes Bytes} (h : ¬ NamesFit fits headers) :
    partNames fits headers = .error .undefined := by
  simp only [NamesFit, not_forall] at h
  obtain ⟨contentDisposition, hlookup, hfits⟩ := h
  rw [partNames, hlookup]
  dsimp only
  rw [extractPartAndFileName, regexSearch, if_neg hfits]
  rfl

theorem fits_of_finished (p : Part) (rest : Bytes) (h : PartStep.finished = .part p rest) :
    NamesFit fits p.headers := by
  cases h

theorem fits_of_malformed (p : Part) (rest : Bytes) (h : PartStep.malformed = .part p rest) :
    NamesFit fits p.headers := by
  cases h

/-- A turn stays within its text, and comes to what it should or to the end of the stack. -/
theorem parsePart_eq (hne : boundary ≠ []) (content : Bytes) :
    (∀ p rest, MimeMultipart.parsePart boundary content = .part p rest → NamesFit fits p.headers) ∧
        parsePart fits boundary content = .ok (MimeMultipart.parsePart boundary content) ∨
      (∃ p rest, MimeMultipart.parsePart boundary content = .part p rest ∧
          ¬ NamesFit fits p.headers) ∧
        parsePart fits boundary content = .error .undefined := by
  rw [parsePart, MimeMultipart.parsePart]
  by_cases hlen : content.length < boundary.length + 2
  · rw [if_pos hlen, if_pos (.inl hlen)]
    exact .inl ⟨fits_of_malformed, rfl⟩
  rw [if_neg hlen, substr_begin, ok_bind]
  by_cases hbegin : content.take boundary.length ≠ boundary
  · rw [if_pos hbegin, if_pos (.inr hbegin)]
    exact .inl ⟨fits_of_malformed, rfl⟩
  have hboundary : boundary.length ≤ content.length := by omega
  rw [if_neg hbegin, if_neg (not_or.mpr ⟨hlen, hbegin⟩), substr_all hboundary, ok_bind]
  dsimp only
  -- what follows the delimiter
  generalize content.drop boundary.length = content
  rw [substr_begin, ok_bind]
  by_cases hclosing : content.take 2 = bytes "--"
  · rw [if_pos hclosing, if_pos hclosing]
    exact .inl ⟨fits_of_finished, rfl⟩
  rw [if_neg hclosing, if_neg hclosing]
  by_cases hlong : content.length < boundary.length + 6
  · rw [if_pos hlong, if_pos (.inl hlong)]
    exact .inl ⟨fits_of_malformed, rfl⟩
  rw [if_neg hlong, ok_bind]
  by_cases hbreak : content.take 2 ≠ crlf
  · rw [if_pos hbreak, if_pos (.inr hbreak)]
    exact .inl ⟨fits_of_malformed, rfl⟩
  have htwo : 2 ≤ content.length := by omega
  rw [if_neg hbreak, if_neg (not_or.mpr ⟨hlong, hbreak⟩), substr_all htwo, ok_bind]
  -- what follows the delimiter line
  generalize content.drop 2 = content
  cases hnext : find boundary content with
  | none => exact .inl ⟨fits_of_malformed, rfl⟩
  | some nextBoundaryPos =>
    have hin : nextBoundaryPos ≤ content.length :=
      (Nat.le_add_right _ _).trans (find_add_length_le hnext hne)
    have hend := headersEnd_le content nextBoundaryPos
    dsimp only
    by_cases hshort : headersEnd content nextBoundaryPos < 4
    · rw [if_pos hshort, if_pos hshort]
      exact .inl ⟨fits_of_malformed, rfl⟩
    rw [if_neg hshort, if_neg hshort, substr_begin, ok_bind, parseHeaders_eq, ok_bind]
    by_cases hfits :
        NamesFit fits (utils.parseHeaders (content.take (headersEnd content nextBoundaryPos)))
    · rw [partNames_of_fit hfits, ok_bind]
      refine .inl ⟨?_, ?_⟩
      · rintro p rest ⟨⟩
        exact hfits
      by_cases hcontent : nextBoundaryPos > headersEnd content nextBoundaryPos + 7
      · have hstart : headersEnd content nextBoundaryPos + 4 ≤ content.length := by omega
        have hminus : 2 ≤ nextBoundaryPos := by omega
        have hlength : headersEnd content nextBoundaryPos + 4 ≤ nextBoundaryPos - 2 := by omega
        rw [if_pos hcontent, if_pos hcontent, minus_of_le hminus, ok_bind, minus_of_le hlength,
          ok_bind, substr_count hstart, ok_bind, substr_all hin]
        rfl
      · rw [if_neg hcontent, if_neg hcontent, substr_all hin]
        rfl
    · rw [partNames_of_not_fit hfits]
      exact .inr ⟨⟨_, _, rfl, hfits⟩, rfl⟩

/-- How the loop ends, as a result. -/
def ending : Option Exception → Except Failure Unit
  | none => .ok ()
  | some e => .error (.nawa e)

/-- The values of `content-disposition` that the loop comes to in a payload. -/
def dispositions (boundary content : Bytes) : List Bytes :=
  match content with
  | [] => []
  | c :: cs =>
    match _h : MimeMultipart.parsePart boundary (c :: cs) with
    | .part p rest =>
      (p.headers.lookup (bytes "content-disposition")).toList ++ dispositions boundary rest
    | .finished => []
    | .malformed => []
termination_by content.length
decreasing_by exact parsePart_shrinks _h

theorem dispositions_nil : dispositions boundary [] = [] := by rw [dispositions]

/-- The loop asks for nothing in the turn in which it ends. -/
theorem dispositions_eq_nil {content : Bytes}
    (h : ∀ p rest, MimeMultipart.parsePart boundary content ≠ .part p rest) :
    dispositions boundary content = [] := by
  cases content with
  | nil => exact dispositions_nil
  | cons c cs =>
    rw [dispositions]
    split
    · next p rest hstep => exact absurd hstep (h p rest)
    · rfl
    · rfl

theorem dispositions_part {content rest : Bytes} {p : Part}
    (h : MimeMultipart.parsePart boundary content = .part p rest) :
    dispositions boundary content =
      (p.headers.lookup (bytes "content-disposition")).toList ++ dispositions boundary rest := by
  cases content with
  | nil => exact absurd (parsePart_shrinks h) (Nat.not_lt_zero _)
  | cons c cs =>
    rw [dispositions]
    split
    · next p' rest' hstep =>
      rw [h] at hstep
      cases hstep
      rfl
    · next hstep => cases h.symm.trans hstep
    · next hstep => cases h.symm.trans hstep

theorem dispositions_fit_part {content rest : Bytes} {p : Part}
    (h : MimeMultipart.parsePart boundary content = .part p rest) :
    (∀ s ∈ dispositions boundary content, fits matchPartAndFileName s = true) ↔
      NamesFit fits p.headers ∧
        ∀ s ∈ dispositions boundary rest, fits matchPartAndFileName s = true := by
  simp only [dispositions_part h, List.forall_mem_append, Option.mem_toList, NamesFit,
    Option.mem_def]

/-- Each turn takes at least one byte away, and asks for one search at most. -/
theorem parseParts_eq (fits : Regex UInt8 → Bytes → Bool) (hne : boundary ≠ []) {fuel : Nat}
    {content : Bytes} (parts : List Part) (h : content.length ≤ fuel) :
    (∀ s ∈ dispositions boundary content, fits matchPartAndFileName s = true) ∧
        parseParts fits boundary fuel content parts =
          ((MimeMultipart.parseParts boundary content parts).1,
            ending (MimeMultipart.parseParts boundary content parts).2) ∨
      (¬ ∀ s ∈ dispositions boundary content, fits matchPartAndFileName s = true) ∧
        (parseParts fits boundary fuel content parts).2 = .error .undefined := by
  induction fuel generalizing content parts with
  | zero =>
    obtain rfl := List.length_eq_zero_iff.mp (Nat.le_zero.mp h)
    refine .inl ⟨?_, ?_⟩
    · rw [dispositions_nil]
      exact List.forall_mem_nil _
    · rw [parseParts, MimeMultipart.parseParts, ending]
  | succ fuel ih =>
    cases content with
    | nil =>
      refine .inl ⟨?_, ?_⟩
      · rw [dispositions_nil]
        exact List.forall_mem_nil _
      · rw [parseParts, MimeMultipart.parseParts, ending]
    | cons c cs =>
      have hcons := List.cons_ne_nil c cs
      rw [parseParts]
      rcases parsePart_eq hne (c :: cs) with ⟨hfits, hturn⟩ | ⟨⟨p, rest, hstep, hunfit⟩, hturn⟩
      · rw [hturn]
        cases hstep : MimeMultipart.parsePart boundary (c :: cs) with
        | finished =>
          refine .inl ⟨?_, by rw [parseParts_finished hcons hstep, ending]⟩
          rw [dispositions_eq_nil (by rw [hstep]; rintro p rest ⟨⟩)]
          exact List.forall_mem_nil _
        | malformed =>
          refine .inl ⟨?_, by rw [parseParts_malformed hcons hstep, ending]⟩
          rw [dispositions_eq_nil (by rw [hstep]; rintro p rest ⟨⟩)]
          exact List.forall_mem_nil _
        | part p rest =>
          rw [parseParts_part hstep, dispositions_fit_part hstep,
            and_iff_right (hfits p rest hstep)]
          exact ih (parts ++ [p]) (Nat.le_of_lt_succ ((parsePart_shrinks hstep).trans_le h))
      · rw [hturn]
        exact .inr ⟨fun hall => hunfit ((dispositions_fit_part hstep).mp hall).1, rfl⟩

/-- The library gets through every search that the call asks for. -/
def SearchesFit (fits : Regex UInt8 → Bytes → Bool) (contentType content : Bytes) : Prop :=
  fits findBoundary contentType = true ∧
    ∀ boundaryMatch, findBoundary.searchGroups contentType = some boundaryMatch →
      ∀ s ∈ dispositions (bytes "--" ++ (boundaryMatch 1).getD []) content,
        fits matchPartAndFileName s = true

/-- A call does what it should, or it comes to the end of the stack in a search. -/
theorem parse_eq (fits : Regex UInt8 → Bytes → Bool) (data : Data) (contentType content : Bytes) :
    SearchesFit fits contentType content ∧
        parse fits data contentType content =
          ((MimeMultipart.parse data contentType content).1,
            (MimeMultipart.parse data contentType content).2.mapError .nawa) ∨
      ¬ SearchesFit fits contentType content ∧
        (parse fits data contentType content).2 = .error .undefined := by
  rw [parse, MimeMultipart.parse, SearchesFit, regexSearch]
  by_cases hfits : fits findBoundary contentType = true
  · rw [if_pos hfits, and_iff_right hfits]
    cases findBoundary.searchGroups contentType with
    | none =>
      refine .inl ⟨?_, rfl⟩
      rintro boundaryMatch ⟨⟩
    | some boundaryMatch =>
      have hne : bytes "--" ++ (boundaryMatch 1).getD [] ≠ [] :=
        List.append_ne_nil_of_left_ne_nil (by decide) _
      simp only [Option.some.injEq, forall_eq']
      rcases parseParts_eq fits hne data.parts (Nat.le_refl content.length) with
        ⟨hall, hloop⟩ | ⟨hsome, hloop⟩
      · refine .inl ⟨hall, ?_⟩
        rw [hloop]
        obtain ⟨parts, _ | e⟩ := MimeMultipart.parseParts _ content data.parts
        · cases findElem ';'.toUInt8 contentType with
          | none => rfl
          | some n => dsimp only [ending]; rw [substr_begin]; rfl
        · rfl
      · refine .inr ⟨hsome, ?_⟩
        generalize parseParts fits _ content.length content data.parts = loop at hloop ⊢
        obtain ⟨parts, e | _⟩ := loop
        · exact hloop
        · cases hloop
  · rw [if_neg hfits]
    exact .inr ⟨fun h => hfits h.1, rfl⟩

/-! ## The texts of the searches -/

/-- The header block of a part is a stretch of the text. -/
theorem headers_of_parsePart {content rest : Bytes} {p : Part}
    (h : MimeMultipart.parsePart boundary content = .part p rest) :
    ∃ rawHeaders, rawHeaders <:+: content ∧ p.headers = utils.parseHeaders rawHeaders := by
  unfold MimeMultipart.parsePart at h
  split at h
  · cases h
  · dsimp only at h
    split at h
    · cases h
    · split at h
      · cases h
      · split at h
        · cases h
        · split at h
          · cases h
          · cases h
            refine ⟨_, ?_, rfl⟩
            exact (List.take_prefix _ _).isInfix.trans
              ((List.drop_suffix _ _).trans (List.drop_suffix _ _)).isInfix

/-- What is searched in the parts is no longer than the text. -/
theorem length_of_mem_dispositions {content s : Bytes} (h : s ∈ dispositions boundary content) :
    s.length ≤ content.length := by
  fun_induction dispositions boundary content with
  | case1 => cases h
  | case2 c cs p rest hstep ih =>
    rcases List.mem_append.mp h with h | h
    · obtain ⟨rawHeaders, hinfix, hheaders⟩ := headers_of_parsePart hstep
      rw [hheaders, Option.mem_toList] at h
      calc
        s.length ≤ (rawHeaders.filter (· ≠ '\r'.toUInt8)).length :=
          (utils.lookup_parseHeaders_isInfix h).length_le
        _ ≤ rawHeaders.length := List.length_filter_le _ _
        _ ≤ (c :: cs).length := hinfix.length_le
    · exact (ih h).trans (Nat.le_of_lt (parsePart_shrinks hstep))
  | case3 c cs hstep => cases h
  | case4 c cs hstep => cases h

end Offsets

theorem parseParts_error {boundary content : Bytes} {parts : List Part} {e : Exception}
    (h : (parseParts boundary content parts).2 = some e) : e = malformedPayload := by
  fun_induction parseParts boundary content parts with
  | case1 parts => cases h
  | case2 parts c cs hfin => cases h
  | case3 parts c cs hbad => exact (Option.some.inj h).symm
  | case4 parts c cs p rest hpart ih => exact ih h

/-- The codes that `parse` documents. -/
theorem errorCode_of_parse {data : Data} {contentType content : Bytes} {e : Exception}
    (h : (parse data contentType content).2 = .error e) : e.errorCode = 1 ∨ e.errorCode = 2 := by
  rw [parse] at h
  cases hboundary : findBoundary.searchGroups contentType with
  | none =>
    rw [hboundary] at h
    cases h
    exact .inl rfl
  | some boundaryMatch =>
    rw [hboundary] at h
    dsimp only at h
    cases hparts : parseParts (bytes "--" ++ (boundaryMatch 1).getD []) content data.parts with
    | mk parts failure =>
      rw [hparts] at h
      cases failure with
      | none => cases h
      | some e' =>
        cases h
        rw [parseParts_error (congrArg Prod.snd hparts)]
        exact .inr rfl

/-- The call ends as it documents: with its text read, or with one of two exceptions. -/
def Ends (r : Except Failure Unit) : Prop :=
  r = .ok () ∨ ∃ e, r = .error (.nawa e) ∧ (e.errorCode = 1 ∨ e.errorCode = 2)

theorem ends_mapError_parse (data : Data) (contentType content : Bytes) :
    Ends ((parse data contentType content).2.mapError .nawa) := by
  cases h : (parse data contentType content).2 with
  | ok _ => exact .inl rfl
  | error e => exact .inr ⟨e, rfl, errorCode_of_parse h⟩

/-- **The parser ends exactly on the inputs whose searches the library gets through.** There, no
offset has left its text. All the texts that are searched come from the two that the call is given,
so that a length which the library takes is enough for both. -/
theorem parse_total_iff (fits : Regex UInt8 → Bytes → Bool) (data : Data)
    (contentType content : Bytes) :
    (Ends (Offsets.parse fits data contentType content).2 ↔
        Offsets.SearchesFit fits contentType content) ∧
      (Offsets.SearchesFit fits contentType content →
        Offsets.parse fits data contentType content =
          ((parse data contentType content).1,
            (parse data contentType content).2.mapError .nawa)) ∧
      ((∀ e s, s.length ≤ max contentType.length content.length → fits e s = true) →
        Offsets.SearchesFit fits contentType content) := by
  refine ⟨?_, ?_, ?_⟩
  · rcases Offsets.parse_eq fits data contentType content with ⟨hfits, h⟩ | ⟨hunfit, h⟩
    · rw [h]
      exact iff_of_true (ends_mapError_parse data contentType content) hfits
    · rw [h]
      refine iff_of_false ?_ hunfit
      rintro (hok | ⟨e, herror, _⟩)
      · cases hok
      · cases herror
  · intro hfits
    rcases Offsets.parse_eq fits data contentType content with ⟨_, h⟩ | ⟨hunfit, _⟩
    · exact h
    · exact absurd hfits hunfit
  · intro hlength
    refine ⟨hlength _ _ (Nat.le_max_left _ _), ?_⟩
    intro boundaryMatch _ s hs
    exact hlength _ _ ((Offsets.length_of_mem_dispositions hs).trans (Nat.le_max_right _ _))

/-- A boundary of 50000 bytes, where a search gets through 30000. -/
theorem not_total_longBoundary :
    ¬ Ends (Offsets.parse (fun _ s => decide (s.length ≤ 30000)) {}
      (bytes "multipart/form-data; boundary=" ++ List.replicate 50000 'b'.toUInt8) []).2 := by
  have hlong : ¬ decide ((bytes "multipart/form-data; boundary=" ++
      List.replicate 50000 'b'.toUInt8).length ≤ 30000) = true := by
    rw [decide_eq_true_iff, List.length_append, List.length_replicate]
    omega
  rw [Offsets.parse, Offsets.regexSearch, if_neg hlong]
  rintro (hok | ⟨e, herror, _⟩)
  · cases hok
  · cases herror

end Nawa.MimeMultipart
