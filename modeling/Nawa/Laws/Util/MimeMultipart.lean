import Mathlib.Data.Bool.AllAny
import Nawa.Util.MimeMultipart
import Nawa.Laws.Util.HeaderBlock

/-!
# Decoding of multipart form data

`FormPart` is a part of a form as an encoder may send it, `serialise` is the usual encoding, and
the module settles for which lists of parts `MimeMultipart.parse` gives the parts back.

One part at a time, `parsePart_encode` says what a turn of the parser's loop makes of an encoded
part: a part whose delimiter string does not occur early comes back with its name, file name
and text; one whose header block holds the delimiter string is cut there.
-/

namespace Nawa.MimeMultipart

open Lib (AssocMap Regex)
open Lib.Regex
open Lib.Search
open utils (Line)

/-! ## Forms -/

/-- The characters a boundary is made of. -/
def boundaryLetter (c : UInt8) : Bool := isalnum c ∨ c = '-'.toUInt8 ∨ c = '_'.toUInt8

structure Boundary where
  text : Bytes
  letters : ∀ c ∈ text, boundaryLetter c = true

/-- The text that opens every delimiter line. -/
def Boundary.delimiter (b : Boundary) : Bytes := bytes "--" ++ b.text

/-- A name that may stand between double quotes. -/
structure Quotable (s : Bytes) : Prop where
  nonempty : s ≠ []
  clean : ∀ c ∈ s, c ≠ quote ∧ c ≠ 13 ∧ c ≠ 10

/-- A part of a form: any content that does not hold the delimiter string. -/
structure FormPart (b : Boundary) where
  name : Bytes
  filename : Option Bytes
  contentType : Option Bytes
  content : Bytes
  name_ok : Quotable name
  filename_ok : ∀ f ∈ filename, Quotable f
  contentType_ok : ∀ t ∈ contentType,
    (∀ c ∈ t, c ≠ 13 ∧ c ≠ 10) ∧ ∀ c ∈ t.head?, c ≠ ' '.toUInt8 ∧ c ≠ '\t'.toUInt8
  content_ok : ¬ b.delimiter <:+: content

variable {b : Boundary}

/-- The value of the content disposition header. -/
def FormPart.disposition (p : FormPart b) : Bytes :=
  bytes "form-data; name=\"" ++ p.name ++ [quote] ++
    match p.filename with
    | none => []
    | some f => bytes "; filename=\"" ++ f ++ [quote]

def FormPart.dispositionLine (p : FormPart b) : Bytes :=
  bytes "Content-Disposition: " ++ p.disposition

def contentTypeLine (t : Bytes) : Bytes := bytes "Content-Type: " ++ t

/-- The header lines, without the line ending of the last. -/
def FormPart.headerBlock (p : FormPart b) : Bytes :=
  p.dispositionLine ++
    match p.contentType with
    | none => []
    | some t => crlf ++ contentTypeLine t

def FormPart.encode (p : FormPart b) : Bytes :=
  b.delimiter ++ crlf ++ p.headerBlock ++ crlf ++ crlf ++ p.content ++ crlf

/-- The form as `multipart/form-data`. -/
def serialise (parts : List (FormPart b)) : Bytes :=
  parts.flatMap FormPart.encode ++ b.delimiter ++ bytes "--"

/-- The parsed part that gives a form's part back. -/
structure Decoded (p : FormPart b) (q : Part) : Prop where
  partName : q.partName = p.name
  filename : q.filename = p.filename.getD []
  contentType : q.contentType = p.contentType.getD []
  content : q.content = p.content

/-- Parsing the encoded form on a fresh object succeeds and gives its parts back in order. -/
def RoundTrips (b : Boundary) (parts : List (FormPart b)) : Prop :=
  ∃ data, parse {} (bytes "multipart/form-data; boundary=" ++ b.text) (serialise parts) =
    (data, .ok ()) ∧ List.Forall₂ Decoded parts data.parts

/-- What the parser needs of a part beyond its being well formed: no content of exactly one
byte, no delimiter string in a header, and no other white space before the content type. -/
structure Survives (p : FormPart b) : Prop where
  content : p.content.length ≠ 1
  name : ¬ b.delimiter <:+: p.name
  filename : ∀ f ∈ p.filename, ¬ b.delimiter <:+: f
  contentType : ∀ t ∈ p.contentType, ¬ b.delimiter <:+: t ∧ ∀ c ∈ t.head?, isspace c = false

/-! ## The delimiter -/

theorem Boundary.delimiter_ne_nil (b : Boundary) : b.delimiter ≠ [] := nofun

theorem Boundary.letter_of_mem (b : Boundary) {c : UInt8} (hc : c ∈ b.delimiter) :
    boundaryLetter c = true := by
  rcases List.mem_append.mp hc with hc | hc
  · have hdash : c ∈ ([45, 45] : Bytes) := hc
    rw [List.mem_cons, List.mem_singleton, or_self] at hdash
    rw [hdash]
    decide
  · exact b.letters c hc

theorem Boundary.not_mem_delimiter (b : Boundary) {c : UInt8} (hc : boundaryLetter c = false) :
    c ∉ b.delimiter := by
  intro hmem
  rw [b.letter_of_mem hmem] at hc
  cases hc

/-- A literal without a double hyphen holds no delimiter. -/
theorem Boundary.not_infix_literal (b : Boundary) {s : Bytes} (h : find (bytes "--") s = none) :
    ¬ b.delimiter <:+: s :=
  find_eq_none.mp (find_append_pattern h)

/-- A delimiter lies on one side of a character that it cannot hold. -/
theorem Boundary.infix_append_sep (b : Boundary) {xs ys : Bytes} {c : UInt8}
    (hc : boundaryLetter c = false) :
    b.delimiter <:+: xs ++ c :: ys ↔ b.delimiter <:+: xs ∨ b.delimiter <:+: ys :=
  Lib.Search.infix_append_sep (b.not_mem_delimiter hc) b.delimiter_ne_nil

/-- The delimiter is searched for line by line. -/
theorem Boundary.find_line (b : Boundary) {l : Bytes} (h : ¬ b.delimiter <:+: l) (s : Bytes) :
    find b.delimiter (l ++ (crlf ++ s)) = (find b.delimiter s).map (· + (l.length + 2)) := by
  have hnil : find b.delimiter [] = none := find_eq_none.mpr (b.not_infix_literal (by decide))
  have hlf : find b.delimiter (10 :: s) = (find b.delimiter s).map (· + 1) := by
    have hsep : find b.delimiter ([] ++ 10 :: s) = _ :=
      find_append_sep (b.not_mem_delimiter (by decide)) b.delimiter_ne_nil
    rwa [hnil, Option.none_or, List.nil_append] at hsep
  have hcr : find b.delimiter (l ++ 13 :: 10 :: s) = _ :=
    find_append_sep (b.not_mem_delimiter (by decide)) b.delimiter_ne_nil
  rw [find_eq_none.mpr h, Option.none_or, hlf, Option.map_map] at hcr
  have hadd : ((· + (l.length + 1)) ∘ (· + 1) : Nat → Nat) = (· + (l.length + 2)) := by
    funext n
    simp only [Function.comp_apply]
    omega
  rw [hadd] at hcr
  exact hcr

/-! ## The header block -/

/-- The disposition line, cut at its double quotes. -/
theorem FormPart.dispositionLine_eq (p : FormPart b) :
    p.dispositionLine =
      bytes "Content-Disposition: form-data; name=" ++ quote :: (p.name ++ quote ::
        match p.filename with
        | none => []
        | some f => bytes "; filename=" ++ quote :: (f ++ [quote])) := by
  unfold dispositionLine disposition
  cases p.filename with
  | none => simp only [List.append_nil, List.append_assoc]; rfl
  | some f => simp only [List.append_assoc, List.singleton_append]; rfl

theorem FormPart.infix_dispositionLine (p : FormPart b) :
    b.delimiter <:+: p.dispositionLine ↔
      b.delimiter <:+: p.name ∨ ∃ f ∈ p.filename, b.delimiter <:+: f := by
  have hquote : boundaryLetter quote = false := by decide
  have hlead : ¬ b.delimiter <:+: bytes "Content-Disposition: form-data; name=" :=
    b.not_infix_literal (by decide)
  have hfile : ¬ b.delimiter <:+: bytes "; filename=" := b.not_infix_literal (by decide)
  have hnil : ¬ b.delimiter <:+: [] := b.not_infix_literal (by decide)
  rw [p.dispositionLine_eq, b.infix_append_sep hquote, b.infix_append_sep hquote]
  cases p.filename with
  | none => simp only [hlead, hnil, or_false, false_or, Option.mem_def, reduceCtorEq, false_and,
      exists_false]
  | some f =>
    rw [b.infix_append_sep hquote, b.infix_append_sep hquote]
    simp only [hlead, hfile, hnil, or_false, false_or, Option.mem_def, Option.some.injEq,
      exists_eq_left']

theorem infix_contentTypeLine {t : Bytes} :
    b.delimiter <:+: contentTypeLine t ↔ b.delimiter <:+: t := by
  have hlead : ¬ b.delimiter <:+: bytes "Content-Type:" := b.not_infix_literal (by decide)
  have hline : contentTypeLine t = bytes "Content-Type:" ++ ' '.toUInt8 :: t := rfl
  rw [hline, b.infix_append_sep (by decide), or_iff_right hlead]

/-- No line of the header block is broken. -/
theorem FormPart.dispositionLine_line (p : FormPart b) : Line p.dispositionLine := by
  have hlead : ∀ c ∈ bytes "Content-Disposition: form-data; name=", c ≠ 13 ∧ c ≠ 10 :=
    List.all_iff_forall_prop.mp (by decide)
  have hfile : ∀ c ∈ bytes "; filename=", c ≠ 13 ∧ c ≠ 10 :=
    List.all_iff_forall_prop.mp (by decide)
  have hquote : quote ≠ 13 ∧ quote ≠ 10 := by decide
  rw [p.dispositionLine_eq]
  refine ⟨nofun, ?_⟩
  simp only [List.forall_mem_append, List.forall_mem_cons]
  refine ⟨hlead, hquote, fun c hc => (p.name_ok.clean c hc).2, hquote, ?_⟩
  cases hf : p.filename with
  | none => nofun
  | some f =>
    simp only [List.forall_mem_append, List.forall_mem_cons]
    exact ⟨hfile, hquote, fun c hc => ((p.filename_ok f hf).clean c hc).2, hquote, nofun⟩

theorem FormPart.contentTypeLine_line (p : FormPart b) {t : Bytes} (ht : p.contentType = some t) :
    Line (contentTypeLine t) := by
  have hlead : ∀ c ∈ bytes "Content-Type: ", c ≠ 13 ∧ c ≠ 10 :=
    List.all_iff_forall_prop.mp (by decide)
  refine ⟨nofun, ?_⟩
  rw [contentTypeLine, List.forall_mem_append]
  exact ⟨hlead, (p.contentType_ok t ht).1⟩

theorem FormPart.headerLine_disposition (p : FormPart b) :
    utils.headerLine p.dispositionLine = some (bytes "content-disposition", p.disposition) := by
  have hline : p.dispositionLine =
      bytes "Content-Disposition" ++ ':'.toUInt8 :: ' '.toUInt8 :: p.disposition := rfl
  rw [hline, utils.headerLine_colon (by decide) (List.cons_ne_nil _ _)]
  rfl

theorem headerLine_contentType (t : Bytes) :
    utils.headerLine (contentTypeLine t) = some (bytes "content-type", trimLeft t) := by
  have hline : contentTypeLine t = bytes "Content-Type" ++ ':'.toUInt8 :: ' '.toUInt8 :: t := rfl
  rw [hline, utils.headerLine_colon (by decide) (List.cons_ne_nil _ _)]
  rfl

def FormPart.lines (p : FormPart b) : List Bytes :=
  p.dispositionLine :: (p.contentType.map contentTypeLine).toList

theorem FormPart.headerBlock_eq (p : FormPart b) : p.headerBlock = utils.block p.lines := by
  unfold headerBlock lines
  cases p.contentType with
  | none => rw [List.append_nil]; exact (utils.block_singleton _).symm
  | some t =>
    have hblock := utils.block_cons p.dispositionLine (List.cons_ne_nil (contentTypeLine t) [])
    rw [utils.block_singleton] at hblock
    exact hblock.symm

theorem FormPart.lines_line (p : FormPart b) : ∀ l ∈ p.lines, Line l := by
  rw [lines, List.forall_mem_cons]
  refine ⟨p.dispositionLine_line, fun l hl => ?_⟩
  obtain ⟨t, ht, rfl⟩ := Option.map_eq_some_iff.mp (Option.mem_toList.mp hl)
  exact p.contentTypeLine_line ht

/-- What the parser reads back from the whole header block. -/
theorem FormPart.lookup_headerBlock (p : FormPart b) (name : Bytes) :
    (utils.parseHeaders p.headerBlock).lookup name =
      utils.lastValue name ((bytes "content-disposition", p.disposition) ::
        (p.contentType.map fun t => (bytes "content-type", trimLeft t)).toList) := by
  rw [p.headerBlock_eq, utils.lookup_parseHeaders_block p.lines_line, lines,
    List.filterMap_cons_some p.headerLine_disposition]
  cases p.contentType with
  | none => rfl
  | some t =>
    show utils.lastValue name (_ :: List.filterMap _ [contentTypeLine t]) = _
    rw [List.filterMap_cons_some (headerLine_contentType t)]
    rfl

theorem FormPart.lookup_disposition (p : FormPart b) :
    (utils.parseHeaders p.headerBlock).lookup (bytes "content-disposition") =
      some p.disposition := by
  rw [p.lookup_headerBlock]
  cases p.contentType <;> rfl

theorem FormPart.lookup_contentType (p : FormPart b) :
    (utils.parseHeaders p.headerBlock).lookup (bytes "content-type") =
      p.contentType.map trimLeft := by
  rw [p.lookup_headerBlock]
  cases p.contentType <;> rfl

/-! ## Names -/

/-- The expression for part and file names passes over everything up to the first blank. -/
theorem matchPartAndFileName_skip {x : UInt8} (h : x ≠ ';'.toUInt8 ∧ x ≠ ' '.toUInt8) (t : Bytes) :
    matchPartAndFileName.matchAt (x :: t) = none := by
  simp only [matchAt, matchPartAndFileName, run_seq, run_group, run_alt, run_sat_cons, h.1, h.2,
    decide_false, Bool.false_eq_true, if_false, Option.none_or]

theorem notQuote_of_mem {s : Bytes} (h : Quotable s) : ∀ c ∈ s, notQuote c = true := by
  intro c hc
  exact decide_eq_true (h.clean c hc).1

/-- A name after an opening quote is captured up to the closing quote. -/
theorem run_quoted {β : Type} {s t : Bytes} {n : Nat} {c : Captures UInt8}
    {k : Continuation UInt8 β} {v : β} {r : Regex UInt8} (hs : Quotable s)
    (hk : r.run (quote :: t) (Function.update c n (some s)) k = some v) :
    (Regex.seq optQuote (.seq (.group n (Regex.plus (.sat notQuote))) r)).run
      (quote :: (s ++ quote :: t)) c k = some v := by
  have hend : ∀ y ∈ (quote :: t).head?, notQuote y = false := by
    intro y hy
    cases hy
    decide
  have hname : (Regex.seq (.group n (Regex.plus (.sat notQuote))) r).run
      (s ++ quote :: t) c k = some v := by
    rw [run_seq]
    exact run_group_plus_sat hs.nonempty (notQuote_of_mem hs) hend hk
  rw [run_seq, optQuote, run_opt_sat (by decide), hname, Option.some_or]

theorem run_closing {β : Type} {t : Bytes} {c : Captures UInt8} {k : Continuation UInt8 β} {v : β}
    (hk : k t c = some v) : optQuote.run (quote :: t) c k = some v := by
  rw [optQuote, run_opt_sat (by decide), hk, Option.some_or]

/-- The file name parameter as an encoder writes it. -/
theorem run_matchFileName {β : Type} {f : Bytes} {c : Captures UInt8}
    {k : Continuation UInt8 β} {v : β} (hf : Quotable f)
    (hk : k [] (Function.update c 4 (some f)) = some v) :
    matchFileName.run (bytes "; filename=" ++ quote :: (f ++ [quote])) c k = some v := by
  have hvalue : (Regex.lit (bytes "filename=") (.seq optQuote
      (.seq (.group 4 (Regex.plus (.sat notQuote))) optQuote))).run
      (bytes "filename=" ++ quote :: (f ++ [quote])) c k = some v := by
    rw [run_lit_append]
    exact run_quoted hf (run_closing hk)
  have hsplit : bytes "; filename=" ++ quote :: (f ++ [quote]) =
      ';'.toUInt8 :: ' '.toUInt8 :: (bytes "filename=" ++ quote :: (f ++ [quote])) := rfl
  rw [hsplit, matchFileName, run_seq, run_sat_cons, if_pos (by decide), run_seq,
    run_opt_sat (by decide), hvalue, Option.some_or]

/-- The captures of a match on a part without a file name. -/
private def nameCaptures (name : Bytes) : Captures UInt8 :=
  Function.update (Function.update (fun _ => none) 1 (some [' '.toUInt8])) 2 (some name)

/-- The match at the blank before `name`, up to the text after the closing quote. -/
private theorem matchAt_name {name t s' : Bytes} {g : Captures UInt8} (hname : Quotable name)
    (hrest : (Regex.opt (.group 3 matchFileName)).run t (nameCaptures name)
      (fun s' c' => some (s', c')) = some (s', g)) :
    matchPartAndFileName.matchAt (' '.toUInt8 :: (bytes "name=" ++ quote ::
      (name ++ quote :: t))) = some (s', g) := by
  have hlead : ∀ (t : Bytes) (k : Continuation UInt8 (Bytes × Captures UInt8)) (c : Captures UInt8),
      (Regex.group 1 (.alt (.sat (· = ';'.toUInt8)) (.sat (· = ' '.toUInt8)))).run
        (' '.toUInt8 :: t) c k = k t (Function.update c 1 (some [' '.toUInt8])) := by
    intro t k c
    have hone : (' '.toUInt8 :: t).take ((' '.toUInt8 :: t).length - t.length) =
        [' '.toUInt8] := by
      rw [List.length_cons, Nat.add_sub_cancel_left]
      rfl
    rw [run_group, run_alt, run_sat_cons, run_sat_cons, if_neg (by decide), if_pos (by decide),
      Option.none_or, hone]
  rw [matchAt, matchPartAndFileName, run_seq, hlead, run_lit_append]
  exact run_quoted hname (run_closing hrest)

/-- The file name parameters, matched after the name. -/
private theorem run_fileNames (p : FormPart b) :
    ∃ s' g, (Regex.opt (.group 3 matchFileName)).run (match p.filename with
        | none => []
        | some f => bytes "; filename=" ++ quote :: (f ++ [quote])) (nameCaptures p.name)
      (fun s' c' => some (s', c')) = some (s', g) ∧ g 2 = some p.name ∧ g 4 = p.filename := by
  cases hf : p.filename with
  | none => exact ⟨[], nameCaptures p.name, rfl, rfl, rfl⟩
  | some f =>
    refine ⟨[], Function.update (Function.update (nameCaptures p.name) 4 (some f)) 3
      (some ((bytes "; filename=" ++ quote :: (f ++ [quote])).take
        ((bytes "; filename=" ++ quote :: (f ++ [quote])).length - 0))), ?_, rfl, rfl⟩
    refine run_opt_some nofun ?_
    rw [run_group]
    exact run_matchFileName (p.filename_ok f hf) rfl

/-- **The names of a disposition header are read back.** -/
theorem FormPart.extract_disposition (p : FormPart b) :
    extractPartAndFileName p.disposition = (p.name, p.filename.getD []) := by
  have hsplit : p.disposition = bytes "form-data" ++ ';'.toUInt8 :: ' '.toUInt8 ::
      (bytes "name=" ++ quote :: (p.name ++ quote :: match p.filename with
        | none => []
        | some f => bytes "; filename=" ++ quote :: (f ++ [quote]))) := by
    unfold disposition
    cases p.filename with
    | none => simp only [List.append_nil, List.append_assoc]; rfl
    | some f => simp only [List.append_assoc, List.singleton_append]; rfl
  have hskip : ∀ x ∈ bytes "form-data", ∀ t, matchPartAndFileName.matchAt (x :: t) = none := by
    have hchars : ∀ x ∈ bytes "form-data", x ≠ ';'.toUInt8 ∧ x ≠ ' '.toUInt8 :=
      List.all_iff_forall_prop.mp (by decide)
    exact fun x hx t => matchPartAndFileName_skip (hchars x hx) t
  -- the alternative of the expression that begins with `;` wants `name=` right after it
  have hsemi : ∀ t, matchPartAndFileName.matchAt (';'.toUInt8 :: ' '.toUInt8 :: t) = none :=
    fun _ => rfl
  obtain ⟨s', g, hrun, hname, hfile⟩ := run_fileNames p
  rw [hsplit, extractPartAndFileName, searchGroups_append hskip, searchGroups_cons (hsemi _),
    searchGroups_of_matchAt (matchAt_name p.name_ok hrun)]
  simp only [hname, hfile, Option.getD_some]

/-! ## One part -/

/-- From an uncut header block every field but the content is read back, the content type up to
its leading white space. -/
theorem FormPart.makePart_headerBlock (p : FormPart b) (content : Bytes) :
    (makePart p.headerBlock content).partName = p.name ∧
      (makePart p.headerBlock content).filename = p.filename.getD [] ∧
      (makePart p.headerBlock content).contentType = (p.contentType.map trimLeft).getD [] ∧
      (makePart p.headerBlock content).content = content := by
  simp only [makePart, p.lookup_disposition, p.extract_disposition, p.lookup_contentType, and_self]

/-- No field of a part shows anything that its raw header block does not hold. -/
theorem makePart_infix (content : Bytes) {raw w : Bytes} (hne : w ≠ [])
    (hw : w <:+: (makePart raw content).partName ∨ w <:+: (makePart raw content).filename ∨
      w <:+: (makePart raw content).contentType) :
    w <:+: raw.filter (· ≠ '\r'.toUInt8) := by
  have hgroup : ∀ {v : Bytes} {g : Captures UInt8} {n : Nat},
      matchPartAndFileName.searchGroups v = some g → w <:+: (g n).getD [] → w <:+: v := by
    intro v g n hg hin
    cases hn : g n with
    | none => rw [hn, Option.getD_none, List.infix_nil] at hin; exact absurd hin hne
    | some x => rw [hn, Option.getD_some] at hin; exact hin.trans (searchGroups_isInfix hg hn)
  have hnames : w <:+: (makePart raw content).partName ∨ w <:+: (makePart raw content).filename →
      w <:+: raw.filter (· ≠ '\r'.toUInt8) := by
    simp only [makePart]
    cases hv : (utils.parseHeaders raw).lookup (bytes "content-disposition") with
    | none => simp only [List.infix_nil, hne, or_self, false_implies]
    | some v =>
      intro h
      refine .trans ?_ (utils.lookup_parseHeaders_isInfix hv)
      simp only [extractPartAndFileName] at h
      cases hg : matchPartAndFileName.searchGroups v with
      | none =>
        simp only [hg, List.infix_nil, hne, or_self] at h
      | some g =>
        rw [hg] at h
        exact h.elim (hgroup hg) (hgroup hg)
  rcases hw with hw | hw | hw
  · exact hnames (.inl hw)
  · exact hnames (.inr hw)
  · cases hv : (utils.parseHeaders raw).lookup (bytes "content-type") with
    | none =>
      simp only [makePart, hv, Option.getD_none, List.infix_nil] at hw
      exact absurd hw hne
    | some v =>
      simp only [makePart, hv, Option.getD_some] at hw
      exact hw.trans (utils.lookup_parseHeaders_isInfix hv)

/-- What stands between one delimiter line and the text that follows the part. -/
def FormPart.body (p : FormPart b) (next : Bytes) : Bytes :=
  p.headerBlock ++ (crlf ++ (crlf ++ (p.content ++ (crlf ++ next))))

theorem FormPart.encode_append (p : FormPart b) (next : Bytes) :
    p.encode ++ next = b.delimiter ++ (crlf ++ p.body next) := by
  simp only [encode, body, List.append_assoc]

theorem FormPart.four_le_headerBlock (p : FormPart b) : 4 ≤ p.headerBlock.length := by
  simp only [headerBlock, dispositionLine, List.length_append]
  have hlead : (bytes "Content-Disposition: ").length = 21 := rfl
  omega

/-- The blank line that ends the header block is the first of the body. -/
theorem FormPart.find_blank (p : FormPart b) (next : Bytes) :
    find (crlf ++ crlf) (p.body next) = some p.headerBlock.length := by
  rw [body, p.headerBlock_eq]
  exact utils.find_blank p.lines_line (List.cons_ne_nil _ _) _

/-! ## The next boundary -/

theorem FormPart.body_line (p : FormPart b) (next : Bytes) :
    ∃ s, p.body next = p.dispositionLine ++ (crlf ++ s) := by
  unfold body headerBlock
  cases p.contentType with
  | none => exact ⟨_, by rw [List.append_nil]⟩
  | some t => exact ⟨contentTypeLine t ++ (crlf ++ (crlf ++ (p.content ++ (crlf ++ next)))),
      by simp only [List.append_assoc]⟩

theorem FormPart.four_le_of_find (p : FormPart b) {next : Bytes} {n : Nat}
    (h : find b.delimiter (p.body next) = some n) : 4 ≤ n := by
  obtain ⟨s, hs⟩ := p.body_line next
  have hlead : find b.delimiter (bytes "Content-Disposition: form-data; name=") = none :=
    find_eq_none.mpr (b.not_infix_literal (by decide))
  have hquote : quote ∉ b.delimiter := b.not_mem_delimiter (by decide)
  rw [hs, p.dispositionLine_eq, List.append_assoc, List.cons_append,
    find_append_sep hquote b.delimiter_ne_nil, hlead, Option.none_or] at h
  obtain ⟨m, -, rfl⟩ := Option.map_eq_some_iff.mp h
  have hlen : (bytes "Content-Disposition: form-data; name=").length = 37 := rfl
  omega

/-- A delimiter string in the disposition line cuts the part there. -/
theorem FormPart.find_body_disposition (p : FormPart b) (next : Bytes) {m : Nat}
    (h : find b.delimiter p.dispositionLine = some m) :
    find b.delimiter (p.body next) = some m ∧ m < p.headerBlock.length ∧
      (p.body next).take m = p.dispositionLine.take m := by
  have hbound := find_add_length_le h b.delimiter_ne_nil
  have hpos := List.length_pos_iff.mpr b.delimiter_ne_nil
  obtain ⟨s, hs⟩ := p.body_line next
  refine ⟨by rw [hs]; exact find_append_left h b.delimiter_ne_nil, ?_, ?_⟩
  · rw [headerBlock, List.length_append]
    omega
  · rw [hs, List.take_append_of_le_length (by omega)]

/-- A delimiter string in the content type cuts the part there. -/
theorem FormPart.find_body_contentType (p : FormPart b) (next : Bytes) {t : Bytes} {m : Nat}
    (hd : ¬ b.delimiter <:+: p.dispositionLine) (ht : p.contentType = some t)
    (h : find b.delimiter (contentTypeLine t) = some m) :
    find b.delimiter (p.body next) = some (p.dispositionLine.length + 2 + m) ∧
      p.dispositionLine.length + 2 + m < p.headerBlock.length ∧
      (p.body next).take (p.dispositionLine.length + 2 + m) =
        p.dispositionLine ++ crlf ++ (contentTypeLine t).take m := by
  have hbound := find_add_length_le h b.delimiter_ne_nil
  have hpos := List.length_pos_iff.mpr b.delimiter_ne_nil
  have hcrlf : crlf.length = 2 := rfl
  have hbody : p.body next = p.dispositionLine ++ (crlf ++ (contentTypeLine t ++
      (crlf ++ (crlf ++ (p.content ++ (crlf ++ next)))))) := by
    simp only [body, headerBlock, ht, List.append_assoc]
  refine ⟨?_, ?_, ?_⟩
  · rw [hbody, b.find_line hd, find_append_left h b.delimiter_ne_nil, Option.map_some, Nat.add_comm]
  · simp only [headerBlock, ht, List.length_append]
    omega
  · rw [hbody, List.append_assoc, List.take_append, List.take_of_length_le (by omega),
      List.take_append, List.take_of_length_le (by omega),
      List.take_append_of_le_length (by omega)]
    congr 3
    omega

/-- Without one, the next boundary is the one after the part. -/
theorem FormPart.find_body_next (p : FormPart b) {next : Bytes} (hnext : b.delimiter <+: next)
    (h : ¬ b.delimiter <:+: p.headerBlock) :
    find b.delimiter (p.body next) =
      some (p.headerBlock.length + 4 + p.content.length + 2) := by
  have hblank := b.find_line (b.not_infix_literal (s := []) (by decide))
    (p.content ++ (crlf ++ next))
  rw [List.nil_append] at hblank
  rw [body, b.find_line h, hblank, b.find_line p.content_ok, find_of_prefixed hnext]
  simp only [Option.map_some, List.length_nil, Nat.zero_add]
  congr 1
  omega

theorem FormPart.infix_headerBlock (p : FormPart b) :
    b.delimiter <:+: p.headerBlock ↔
      b.delimiter <:+: p.dispositionLine ∨ ∃ t ∈ p.contentType, b.delimiter <:+: t := by
  have hnil : ¬ b.delimiter <:+: [] := b.not_infix_literal (by decide)
  unfold headerBlock
  cases p.contentType with
  | none => simp only [List.append_nil, Option.mem_def, reduceCtorEq, false_and, exists_false,
      or_false]
  | some t =>
    have hsplit : p.dispositionLine ++ (crlf ++ contentTypeLine t) =
        p.dispositionLine ++ 13 :: ([] ++ 10 :: contentTypeLine t) := rfl
    dsimp only
    rw [hsplit, b.infix_append_sep (by decide), b.infix_append_sep (by decide), or_iff_right hnil,
      infix_contentTypeLine]
    simp only [Option.mem_def, Option.some.injEq, exists_eq_left']

/-! ## One turn of the loop -/

/-- A turn on a delimiter line with the rest of the text behind it. -/
theorem parsePart_line {boundary body : Bytes} {n h : Nat}
    (hlen : boundary.length + 4 ≤ body.length) (hn : find boundary body = some n)
    (hend : headersEnd body n = h) (hfour : 4 ≤ h) :
    parsePart boundary (boundary ++ (crlf ++ body)) =
      .part (makePart (body.take h)
        (if n > h + 7 then (body.drop (h + 4)).take (n - 2 - (h + 4)) else [])) (body.drop n) := by
  have hcrlf : crlf.length = 2 := rfl
  have htake : (crlf ++ body).take 2 = crlf := rfl
  have hdrop : (crlf ++ body).drop 2 = body := rfl
  have hopen : ¬ ((boundary ++ (crlf ++ body)).length < boundary.length + 2 ∨
      (boundary ++ (crlf ++ body)).take boundary.length ≠ boundary) := by
    rintro (hlt | hne)
    · rw [List.length_append, List.length_append] at hlt
      omega
    · exact hne List.take_left
  have hlong : ¬ ((crlf ++ body).length < boundary.length + 6 ∨ (crlf ++ body).take 2 ≠ crlf) := by
    rintro (hlt | hne)
    · rw [List.length_append] at hlt
      omega
    · exact hne htake
  have hdash : ¬ (crlf ++ body).take 2 = bytes "--" := by
    rw [htake]
    decide
  rw [parsePart, if_neg hopen, List.drop_left]
  dsimp only
  rw [if_neg hdash, if_neg hlong, hdrop, hn]
  dsimp only
  rw [hend, if_neg (Nat.not_lt.mpr hfour)]

/-- A turn on the closing delimiter. -/
theorem parsePart_closing (boundary : Bytes) :
    parsePart boundary (boundary ++ bytes "--") = .finished := by
  have hopen : ¬ ((boundary ++ bytes "--").length < boundary.length + 2 ∨
      (boundary ++ bytes "--").take boundary.length ≠ boundary) := by
    rintro (hlt | hne)
    · rw [List.length_append] at hlt
      exact absurd hlt (Nat.lt_irrefl _)
    · exact hne List.take_left
  rw [parsePart, if_neg hopen, List.drop_left]
  exact if_pos rfl

theorem FormPart.length_body (p : FormPart b) (next : Bytes) :
    (p.body next).length = p.headerBlock.length + p.content.length + next.length + 6 := by
  have hcrlf : crlf.length = 2 := rfl
  simp only [body, List.length_append, hcrlf]
  omega

/-- A part whose header block holds the delimiter string is cut there, and one of the fields
that hold it is not read back. -/
theorem FormPart.parsePart_cut (p : FormPart b) {next : Bytes} (hnext : b.delimiter <+: next)
    (h : b.delimiter <:+: p.headerBlock) :
    ∃ q rest, parsePart b.delimiter (p.encode ++ next) = .part q rest ∧ ¬ Decoded p q := by
  have hlen : b.delimiter.length + 4 ≤ (p.body next).length := by
    have := hnext.length_le
    rw [p.length_body]
    omega
  -- whatever the cut header block is, the part is read from it
  have cut : ∀ {n : Nat}, find b.delimiter (p.body next) = some n → n < p.headerBlock.length →
      ∃ q rest content, parsePart b.delimiter (p.encode ++ next) = .part q rest ∧
        q = makePart ((p.body next).take n) content := by
    intro n hn hlt
    have hend : headersEnd (p.body next) n = n := by
      rw [headersEnd, p.find_blank]
      exact if_pos hlt
    have hpart := parsePart_line hlen hn hend (p.four_le_of_find hn)
    rw [← p.encode_append] at hpart
    exact ⟨_, _, _, hpart, rfl⟩
  have hfilter : p.dispositionLine.filter (· ≠ '\r'.toUInt8) = p.dispositionLine :=
    p.dispositionLine_line.filter
  cases hd : find b.delimiter p.dispositionLine with
  | some m =>
    obtain ⟨hn, hlt, htake⟩ := p.find_body_disposition next hd
    obtain ⟨q, rest, content, hpart, rfl⟩ := cut hn hlt
    refine ⟨_, rest, hpart, fun hdec => not_infix_take hd b.delimiter_ne_nil ?_⟩
    have hraw : ((p.body next).take m).filter (· ≠ '\r'.toUInt8) = p.dispositionLine.take m := by
      rw [htake, List.filter_eq_self]
      exact fun c hc => decide_eq_true
        (p.dispositionLine_line.noBreak c (List.mem_of_mem_take hc)).1
    rw [← hraw]
    refine makePart_infix content b.delimiter_ne_nil ?_
    rw [hdec.partName, hdec.filename]
    have hin : b.delimiter <:+: p.dispositionLine := by
      rw [← not_not (a := b.delimiter <:+: _), ← find_eq_none, hd]
      nofun
    rcases p.infix_dispositionLine.mp hin with hname | ⟨f, hf, hin⟩
    · exact .inl hname
    · rw [Option.mem_def.mp hf]
      exact .inr (.inl hin)
  | none =>
    have hd' := find_eq_none.mp hd
    obtain ⟨t, ht, hin⟩ := (p.infix_headerBlock.mp h).resolve_left hd'
    have ht' := Option.mem_def.mp ht
    cases hm : find b.delimiter (contentTypeLine t) with
    | none => exact absurd (infix_contentTypeLine.mpr hin) (find_eq_none.mp hm)
    | some m =>
      obtain ⟨hn, hlt, htake⟩ := p.find_body_contentType next hd' ht' hm
      obtain ⟨q, rest, content, hpart, rfl⟩ := cut hn hlt
      refine ⟨_, rest, hpart, fun hdec => ?_⟩
      have hraw : ((p.body next).take (p.dispositionLine.length + 2 + m)).filter
          (· ≠ '\r'.toUInt8) = p.dispositionLine ++ 10 :: (contentTypeLine t).take m := by
        have htype : ((contentTypeLine t).take m).filter (· ≠ '\r'.toUInt8) =
            (contentTypeLine t).take m := List.filter_eq_self.mpr fun c hc => decide_eq_true
              ((p.contentTypeLine_line ht').noBreak c (List.mem_of_mem_take hc)).1
        rw [htake, List.filter_append, List.filter_append, hfilter, htype, List.append_assoc]
        rfl
      have hfield : b.delimiter <:+: p.dispositionLine ++ 10 :: (contentTypeLine t).take m := by
        rw [← hraw]
        refine makePart_infix content b.delimiter_ne_nil (.inr (.inr ?_))
        rw [hdec.contentType, ht']
        exact hin
      rcases (b.infix_append_sep (by decide)).mp hfield with hbad | hbad
      · exact hd' hbad
      · exact not_infix_take hm b.delimiter_ne_nil hbad

/-- A part whose header block is free of the delimiter string is read to its end. All of it is
read back, except for white space before the content type and a content of one byte. -/
theorem FormPart.parsePart_whole (p : FormPart b) {next : Bytes} (hnext : b.delimiter <+: next)
    (h : ¬ b.delimiter <:+: p.headerBlock) :
    parsePart b.delimiter (p.encode ++ next) =
      .part (makePart p.headerBlock (if p.content.length > 1 then p.content else [])) next := by
  have hlen : b.delimiter.length + 4 ≤ (p.body next).length := by
    have := hnext.length_le
    rw [p.length_body]
    omega
  have hcrlf : crlf.length = 2 := rfl
  have hend : headersEnd (p.body next) (p.headerBlock.length + 4 + p.content.length + 2) =
      p.headerBlock.length := by
    rw [headersEnd, p.find_blank]
    exact if_neg (by omega)
  have hsplit : p.body next = p.headerBlock ++ crlf ++ crlf ++ (p.content ++ (crlf ++ next)) := by
    simp only [body, List.append_assoc]
  have htake : (p.body next).take p.headerBlock.length = p.headerBlock := List.take_left
  have hdrop : (p.body next).drop (p.headerBlock.length + 4) = p.content ++ (crlf ++ next) := by
    rw [hsplit]
    exact List.drop_left' (by simp only [List.length_append, hcrlf])
  have hrest : (p.body next).drop (p.headerBlock.length + 4 + p.content.length + 2) = next := by
    rw [Nat.add_assoc _ p.content.length, ← List.drop_drop, hdrop, ← List.append_assoc]
    exact List.drop_left' (by simp only [List.length_append, hcrlf])
  have hcontent : p.headerBlock.length + 4 + p.content.length + 2 - 2 -
      (p.headerBlock.length + 4) = p.content.length := by
    omega
  have hlong : p.headerBlock.length + 4 + p.content.length + 2 > p.headerBlock.length + 7 ↔
      p.content.length > 1 := by
    omega
  rw [p.encode_append, parsePart_line hlen (p.find_body_next hnext h) hend p.four_le_headerBlock]
  simp only [htake, hdrop, hrest, hcontent, hlong, List.take_left]

theorem FormPart.survives_iff (p : FormPart b) :
    Survives p ↔ ¬ b.delimiter <:+: p.headerBlock ∧ p.content.length ≠ 1 ∧
      ∀ t ∈ p.contentType, ∀ c ∈ t.head?, isspace c = false := by
  rw [p.infix_headerBlock, p.infix_dispositionLine]
  constructor
  · intro h
    refine ⟨?_, h.content, fun t ht => (h.contentType t ht).2⟩
    rintro ((hin | ⟨f, hf, hin⟩) | ⟨t, ht, hin⟩)
    · exact h.name hin
    · exact h.filename f hf hin
    · exact (h.contentType t ht).1 hin
  · rintro ⟨hin, hcontent, hspace⟩
    exact ⟨hcontent, fun h => hin (.inl (.inl h)), fun f hf h => hin (.inl (.inr ⟨f, hf, h⟩)),
      fun t ht => ⟨fun h => hin (.inr ⟨t, ht, h⟩), hspace t ht⟩⟩

/-- **What a turn makes of an encoded part**: a part that survives is read back and the next
turn begins at the next delimiter line; any other part is not read back. -/
theorem FormPart.parsePart_encode (p : FormPart b) {next : Bytes} (hnext : b.delimiter <+: next) :
    ∃ q rest, parsePart b.delimiter (p.encode ++ next) = .part q rest ∧
      (Decoded p q ↔ Survives p) ∧ (Survives p → rest = next) := by
  by_cases h : b.delimiter <:+: p.headerBlock
  · obtain ⟨q, rest, hpart, hdec⟩ := p.parsePart_cut hnext h
    have hnot : ¬ Survives p := fun hs => (p.survives_iff.mp hs).1 h
    exact ⟨q, rest, hpart, iff_of_false hdec hnot, fun hs => absurd hs hnot⟩
  · refine ⟨_, next, p.parsePart_whole hnext h, ?_, fun _ => rfl⟩
    obtain ⟨hname, hfile, htype, hcontent⟩ :=
      p.makePart_headerBlock (if p.content.length > 1 then p.content else [])
    have hbody : (if p.content.length > 1 then p.content else []) = p.content ↔
        p.content.length ≠ 1 := by
      split
      · exact iff_of_true rfl (by omega)
      · rw [eq_comm, ← List.length_eq_zero_iff]
        omega
    have hspace : (p.contentType.map trimLeft).getD [] = p.contentType.getD [] ↔
        ∀ t ∈ p.contentType, ∀ c ∈ t.head?, isspace c = false := by
      cases p.contentType with
      | none => exact iff_of_true rfl nofun
      | some t =>
        simp only [Option.map_some, Option.getD_some, trimLeft_eq_self, Option.mem_def,
          Option.some.injEq, forall_eq']
    rw [p.survives_iff]
    constructor
    · intro hdec
      exact ⟨h, hbody.mp (hcontent.symm.trans hdec.content),
        hspace.mp (htype.symm.trans hdec.contentType)⟩
    · rintro ⟨-, hone, htrim⟩
      exact ⟨hname, hfile, htype.trans (hspace.mpr htrim), hcontent.trans (hbody.mpr hone)⟩

/-! ## The loop -/

theorem parseParts_part {boundary content rest : Bytes} {p : Part} {parts : List Part}
    (h : parsePart boundary content = .part p rest) :
    parseParts boundary content parts = parseParts boundary rest (parts ++ [p]) := by
  cases content with
  | nil => exact absurd (parsePart_shrinks h) (Nat.not_lt_zero _)
  | cons c cs =>
    rw [parseParts]
    split
    · next hfin => rw [h] at hfin; cases hfin
    · next hbad => rw [h] at hbad; cases hbad
    · next heq => rw [h] at heq; cases heq; rfl

theorem parseParts_finished {boundary content : Bytes} {parts : List Part} (hne : content ≠ [])
    (h : parsePart boundary content = .finished) :
    parseParts boundary content parts = (parts, none) := by
  cases content with
  | nil => exact absurd rfl hne
  | cons c cs =>
    rw [parseParts]
    split
    · rfl
    · next hbad => rw [h] at hbad; cases hbad
    · next heq => rw [h] at heq; cases heq

theorem parseParts_malformed {boundary content : Bytes} {parts : List Part} (hne : content ≠ [])
    (h : parsePart boundary content = .malformed) :
    parseParts boundary content parts = (parts, some malformedPayload) := by
  cases content with
  | nil => exact absurd rfl hne
  | cons c cs =>
    rw [parseParts]
    split
    · next hfin => rw [h] at hfin; cases hfin
    · rfl
    · next heq => rw [h] at heq; cases heq

/-- What the loop does does not depend on the parts that it starts from. -/
theorem parseParts_append (boundary content : Bytes) (before parts : List Part) :
    parseParts boundary content (before ++ parts) =
      (before ++ (parseParts boundary content parts).1,
        (parseParts boundary content parts).2) := by
  fun_induction parseParts boundary content parts with
  | case1 parts => rw [parseParts]
  | case2 parts c cs hfin => exact parseParts_finished (List.cons_ne_nil c cs) hfin
  | case3 parts c cs hbad => exact parseParts_malformed (List.cons_ne_nil c cs) hbad
  | case4 parts c cs p rest hpart ih => rw [parseParts_part hpart, List.append_assoc, ih]

/-- The loop only adds parts at the end. -/
theorem prefix_parseParts (boundary content : Bytes) (parts : List Part) :
    parts <+: (parseParts boundary content parts).1 := by
  have h := parseParts_append boundary content parts []
  rw [List.append_nil] at h
  rw [h]
  exact List.prefix_append _ _

theorem serialise_cons (p : FormPart b) (parts : List (FormPart b)) :
    serialise (p :: parts) = p.encode ++ serialise parts := by
  simp only [serialise, List.flatMap_cons, List.append_assoc]

theorem delimiter_prefix_serialise (parts : List (FormPart b)) :
    b.delimiter <+: serialise parts := by
  cases parts with
  | nil => exact List.prefix_append _ _
  | cons p parts =>
    rw [serialise_cons, p.encode_append]
    exact List.prefix_append _ _

/-- The loop on an encoded form, whatever parts were there before. -/
theorem parseParts_serialise_iff (parts : List (FormPart b)) (before : List Part) :
    (∃ qs, parseParts b.delimiter (serialise parts) before = (before ++ qs, none) ∧
      List.Forall₂ Decoded parts qs) ↔ ∀ p ∈ parts, Survives p := by
  induction parts generalizing before with
  | nil =>
    refine iff_of_true ⟨[], ?_, .nil⟩ nofun
    have hne : serialise ([] : List (FormPart b)) ≠ [] := fun h => nomatch h
    have hclosing : parsePart b.delimiter (serialise ([] : List (FormPart b))) = .finished :=
      parsePart_closing b.delimiter
    rw [parseParts_finished hne hclosing, List.append_nil]
  | cons p parts ih =>
    obtain ⟨q, rest, hpart, hdec, hrest⟩ := p.parsePart_encode (delimiter_prefix_serialise parts)
    rw [← serialise_cons] at hpart
    rw [parseParts_part hpart, List.forall_mem_cons]
    constructor
    · rintro ⟨qs, hparse, hall⟩
      cases hall with
      | @cons _ q' _ qs' hq hqs =>
        have hprefix := prefix_parseParts b.delimiter rest (before ++ [q])
        rw [hparse] at hprefix
        obtain rfl : q = q' := by
          have hlist := (List.prefix_append_right_inj before).mp hprefix
          exact (List.cons_prefix_cons.mp hlist).1
        have hp := hdec.mp hq
        refine ⟨hp, (ih (before ++ [q])).mp ⟨qs', ?_, hqs⟩⟩
        rw [← hrest hp, hparse, List.append_assoc, List.singleton_append]
    · rintro ⟨hp, hall⟩
      obtain ⟨qs, hparse, hqs⟩ := (ih (before ++ [q])).mpr hall
      refine ⟨q :: qs, ?_, .cons (hdec.mpr hp) hqs⟩
      rw [hrest hp, hparse, List.append_assoc, List.singleton_append]

/-! ## The boundary parameter -/

theorem boundaryChar_of_letter {c : UInt8} (h : boundaryLetter c = true) :
    boundaryChar c = true := by
  have hletter := of_decide_eq_true h
  refine decide_eq_true ?_
  rcases hletter with h | rfl | rfl
  · exact .inl h
  · exact .inr (by decide)
  · exact .inr (by decide)

theorem findBoundary_boundary {b : Boundary} (hne : b.text ≠ []) :
    ∃ g, findBoundary.searchGroups (bytes "multipart/form-data; boundary=" ++ b.text) = some g ∧
      g 1 = some b.text := by
  have hskip : ∀ x ∈ bytes "multipart/form-data; ", ∀ t,
      findBoundary.matchAt (x :: t) = none := by
    have hchars : ∀ x ∈ bytes "multipart/form-data; ", x ≠ 98 :=
      List.all_iff_forall_prop.mp (by decide)
    intro x hx t
    refine run_lit_of_not_prefix _ fun h => hchars x hx ?_
    exact (List.cons_prefix_cons.mp h).1.symm
  have hletters : ∀ c ∈ b.text, boundaryChar c = true :=
    fun c hc => boundaryChar_of_letter (b.letters c hc)
  -- the class takes the whole boundary, and nothing follows it
  have hgroup : (Regex.seq (.group 1 (Regex.plus (.sat boundaryChar))) optQuote).run
      b.text (fun _ => none) (fun s' c' => some (s', c')) =
        some ([], Function.update (fun _ => none) 1 (some b.text)) := by
    have hrun : (Regex.seq (.group 1 (Regex.plus (.sat boundaryChar))) optQuote).run
        (b.text ++ []) (fun _ => none) (fun s' c' => some (s', c')) =
          some ([], Function.update (fun _ => none) 1 (some b.text)) := by
      rw [run_seq]
      exact run_group_plus_sat hne hletters nofun rfl
    rwa [List.append_nil] at hrun
  refine ⟨Function.update (fun _ => none) 1 (some b.text), ?_, rfl⟩
  have hmatch : findBoundary.matchAt (bytes "boundary=" ++ b.text) =
      some ([], Function.update (fun _ => none) 1 (some b.text)) := by
    rw [matchAt, findBoundary, run_lit_append, run_seq, optQuote]
    rw [optQuote] at hgroup
    cases htext : b.text with
    | nil => exact absurd htext hne
    | cons c t =>
      have hc : boundaryLetter c = true := b.letters c (htext ▸ List.mem_cons_self)
      have hquote : decide (c = quote) = false := by
        refine decide_eq_false ?_
        rintro rfl
        cases hc
      rw [run_opt_sat_of_not (p := (· = quote)) hquote, ← htext, hgroup]
  have hsplit : bytes "multipart/form-data; boundary=" =
      bytes "multipart/form-data; " ++ bytes "boundary=" := rfl
  rw [hsplit, List.append_assoc, searchGroups_append hskip, searchGroups_of_matchAt hmatch]

/-- Without a boundary parameter there is nothing to parse. -/
theorem not_roundTrips_of_empty {parts : List (FormPart b)} (h : b.text = []) :
    ¬ RoundTrips b parts := by
  have hnone : findBoundary.searchGroups (bytes "multipart/form-data; boundary=") = none := rfl
  rintro ⟨data, hparse, -⟩
  rw [h, List.append_nil, parse, hnone] at hparse
  cases hparse

/-- With one, the parts have to survive. -/
theorem roundTrips_iff_survive {parts : List (FormPart b)} (h : b.text ≠ []) :
    RoundTrips b parts ↔ ∀ p ∈ parts, Survives p := by
  obtain ⟨g, hsearch, hg⟩ := findBoundary_boundary h
  rw [← parseParts_serialise_iff parts [], RoundTrips]
  have hdelim : bytes "--" ++ (g 1).getD [] = b.delimiter := by rw [hg]; rfl
  simp only [parse, hsearch, hdelim, List.nil_append]
  constructor
  · rintro ⟨data, hparse, hall⟩
    split at hparse
    · cases hparse
    · next qs hqs =>
      cases hparse
      exact ⟨_, hqs, hall⟩
  · rintro ⟨qs, hqs, hall⟩
    rw [hqs]
    exact ⟨_, rfl, hall⟩

/-- **The parser undoes the encoding exactly on a non-empty boundary and parts that survive.** -/
theorem roundTrips_iff (b : Boundary) (parts : List (FormPart b)) :
    RoundTrips b parts ↔ b.text ≠ [] ∧ ∀ p ∈ parts, Survives p := by
  by_cases h : b.text = []
  · exact iff_of_false (not_roundTrips_of_empty h) fun hsurvive => hsurvive.1 h
  · rw [roundTrips_iff_survive h]
    exact ⟨fun hall => ⟨h, hall⟩, fun hall => hall.2⟩

/-- The boundary `b`. -/
def oneByteBoundary : Boundary where
  text := bytes "b"
  letters := List.all_eq_true.mp (by decide)

/-- A form field `a` with the content `x`. -/
def oneByteField : FormPart oneByteBoundary where
  name := bytes "a"
  filename := none
  contentType := none
  content := bytes "x"
  name_ok := ⟨by decide, List.all_iff_forall_prop.mp (by decide)⟩
  filename_ok := nofun
  contentType_ok := nofun
  content_ok := find_eq_none.mp (by decide)

/-- A content of one byte is lost. -/
theorem not_roundTrips_oneByteField : ¬ RoundTrips oneByteBoundary [oneByteField] := by
  rw [roundTrips_iff_survive (by decide)]
  intro hall
  exact (hall oneByteField List.mem_cons_self).content rfl

end Nawa.MimeMultipart
