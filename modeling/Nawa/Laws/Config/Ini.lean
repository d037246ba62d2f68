import Nawa.Config.Config
import Nawa.Config.Document
import Nawa.Laws.Util.Bytes

/-!
# Reading a configuration file

What the reader makes of a `Document` is what the document says (`parse_text`), whatever its
layout. A line is taken apart in `parseLine_indented`; what a group of lines does to the section
and the name that the reader remembers, and to the entries, is `Reads`, which composes.

In the other direction, whatever a file contains, its entries are well formed
(`wellFormed_of_parse`).
-/

namespace Nawa.Ini

/-! ## White space -/

theorem lskip_append {gap : Bytes} (h : ∀ c ∈ gap, isspace c = true) (s : Bytes) :
    lskip (gap ++ s) = lskip s := by
  rw [lskip, trimLeft, List.dropWhile_append_of_pos h]
  rfl

theorem lskip_cons {c : UInt8} (h : isspace c = false) (s : Bytes) : lskip (c :: s) = c :: s := by
  rw [lskip, trimLeft_eq_self]
  simpa only [List.head?_cons, Option.mem_def, Option.some.injEq, forall_eq'] using h

theorem rstrip_append {gap : Bytes} (h : ∀ c ∈ gap, isspace c = true) (s : Bytes) :
    rstrip (s ++ gap) = rstrip s := by
  rw [rstrip, List.reverse_append, ← lskip,
    lskip_append (fun c hc => h c (List.mem_reverse.mp hc))]
  rfl

/-- Nothing before a character that is not white space is stripped. -/
theorem rstrip_append_cons {c : UInt8} (h : isspace c = false) (s t : Bytes) :
    rstrip (s ++ c :: t) = s ++ c :: rstrip t := by
  have hc : (c :: s.reverse).dropWhile isspace = c :: s.reverse :=
    List.dropWhile_cons_of_neg (by rw [h]; exact Bool.false_ne_true)
  rw [rstrip, trimLeft, List.reverse_append, List.reverse_cons, List.append_assoc,
    List.singleton_append, List.dropWhile_append, rstrip, trimLeft]
  cases hd : t.reverse.dropWhile isspace with
  | nil => simp only [List.isEmpty_nil, if_true, hc, List.reverse_cons, List.reverse_reverse,
      List.reverse_nil]
  | cons d ds =>
    simp only [List.isEmpty_cons, Bool.false_eq_true, if_false, List.reverse_append,
      List.reverse_cons, List.reverse_reverse, List.append_assoc, List.singleton_append]

theorem exists_rstrip (s : Bytes) :
    ∃ gap, s = rstrip s ++ gap ∧ ∀ c ∈ gap, isspace c = true := by
  refine ⟨(s.reverse.takeWhile isspace).reverse, ?_, ?_⟩
  · rw [rstrip, trimLeft, ← List.reverse_append, List.takeWhile_append_dropWhile,
      List.reverse_reverse]
  · intro c hc
    exact List.mem_takeWhile_imp (List.mem_reverse.mp hc)

theorem Blanks.isspace (b : Blanks) : ∀ c ∈ b.text, Nawa.isspace c = true :=
  fun c hc => (b.isBlank c hc).1

theorem rstrip_trimmed {s : Bytes} (h : Trimmed s) : rstrip s = s := by
  rw [rstrip, trimLeft_eq_self.mpr, List.reverse_reverse]
  rw [List.head?_reverse]
  exact h.last

theorem strip_of_trimmed {before s after : Bytes} (hs : Trimmed s)
    (hbefore : ∀ c ∈ before, isspace c = true) (hafter : ∀ c ∈ after, isspace c = true) :
    rstrip (lskip (before ++ s ++ after)) = s := by
  rw [List.append_assoc, lskip_append hbefore]
  cases s with
  | nil =>
    have hnil : lskip after = [] := by
      rw [← List.append_nil after, lskip_append hafter]
      rfl
    rw [List.nil_append, hnil]
    rfl
  | cons c s =>
    have hc : isspace c = false := hs.first c rfl
    rw [List.cons_append, lskip_cons hc, ← List.cons_append, rstrip_append hafter,
      rstrip_trimmed hs]

/-! ## The end of a name or a value -/

/-- Text without a character that is searched and without a comment is passed over. -/
theorem findCharsOrComment_append {chars t : Bytes} {wasSpace : Bool}
    (hchars : ∀ c ∈ t, c ∉ chars) (hcomment : Commentless t)
    (hfirst : wasSpace = true → t.head? ≠ some ';'.toUInt8) (s : Bytes) :
    findCharsOrComment chars wasSpace (t ++ s) =
      t.length + findCharsOrComment chars ((t.getLast?.map isspace).getD wasSpace) s := by
  induction t generalizing wasSpace with
  | nil => exact (Nat.zero_add _).symm
  | cons c t ih =>
    rw [List.forall_mem_cons] at hchars
    have hc : ¬ (c ∈ chars ∨ (wasSpace = true ∧ c = ';'.toUInt8)) := by
      rintro (hmem | ⟨hspace, rfl⟩)
      · exact hchars.1 hmem
      · exact hfirst hspace rfl
    have ht : Commentless t := fun d hd hin => hcomment d hd (hin.trans (List.infix_cons_iff.mpr
      (Or.inr (List.infix_refl t))))
    have hnext : isspace c = true → t.head? ≠ some ';'.toUInt8 := by
      intro hspace hhead
      obtain ⟨u, rfl⟩ := List.head?_eq_some_iff.mp hhead
      exact hcomment c hspace ⟨[], u, rfl⟩
    rw [List.cons_append, findCharsOrComment, if_neg hc, ih hchars.2 ht hnext, List.length_cons]
    cases t with
    | nil =>
      simp only [List.getLast?_nil, List.getLast?_singleton, Option.map_none, Option.map_some,
        Option.getD_none, Option.getD_some]
      omega
    | cons d t =>
      rw [List.getLast?_cons_cons]
      obtain ⟨e, he⟩ : ∃ e, (d :: t).getLast? = some e :=
        ⟨_, List.getLast?_eq_some_getLast (List.cons_ne_nil d t)⟩
      rw [he, Option.map_some, Option.getD_some, Option.getD_some]
      omega

theorem Commentless.append_blanks {s : Bytes} (h : Commentless s) (b : Blanks) :
    Commentless (s ++ b.text) := by
  intro c hc hin
  have hsemi : ';'.toUInt8 ∉ b.text := fun hmem => absurd (b.isspace _ hmem) (by decide)
  obtain ⟨u, v, huv⟩ := hin
  -- the semicolon stands in `s`
  rcases List.append_eq_append_iff.mp huv with ⟨w, hw, -⟩ | ⟨w, hw, hv⟩
  · exact h c hc ⟨u, w, hw.symm⟩
  · rcases List.eq_nil_or_concat w with rfl | ⟨w, d, rfl⟩
    · exact h c hc ⟨u, [], by rw [List.append_nil, hw, List.append_nil]⟩
    · rw [List.concat_eq_append] at hw hv
      have hlast : (u ++ [c]) ++ [';'.toUInt8] = (s ++ w) ++ [d] := by
        simpa only [List.append_assoc, List.singleton_append] using hw
      obtain ⟨-, hd⟩ := List.append_inj' hlast rfl
      rw [List.singleton_inj] at hd
      refine hsemi (hv ▸ List.mem_append_left v ?_)
      rw [hd]
      exact List.mem_append_right w (List.mem_singleton_self d)

/-- What the value of a line is read from, behind the separator. -/
def valueText (rest : Bytes) : Bytes :=
  rstrip (lskip (rest.take (findCharsOrComment [] false rest)))

/-- White space at the end does not move the end of the value. -/
theorem take_findCharsOrComment_append {gap : Bytes} (h : ∀ c ∈ gap, isspace c = true)
    (wasSpace : Bool) (s : Bytes) :
    (∃ after, (s ++ gap).take (findCharsOrComment [] wasSpace (s ++ gap)) =
      s.take (findCharsOrComment [] wasSpace s) ++ after ∧ ∀ c ∈ after, isspace c = true) := by
  induction s generalizing wasSpace with
  | nil =>
    exact ⟨gap.take _, rfl, fun c hc => h c (List.mem_of_mem_take hc)⟩
  | cons c s ih =>
    rw [List.cons_append, findCharsOrComment, findCharsOrComment]
    split
    · exact ⟨[], rfl, fun _ hc => absurd hc List.not_mem_nil⟩
    · obtain ⟨after, hafter, hspace⟩ := ih (isspace c)
      exact ⟨after, by rw [List.take_succ_cons, hafter, List.take_succ_cons, List.cons_append],
        hspace⟩

theorem lskip_append_of_rstrip {s gap : Bytes} (h : ∀ c ∈ gap, isspace c = true) :
    rstrip (lskip (s ++ gap)) = rstrip (lskip s) := by
  rw [lskip, lskip, trimLeft, trimLeft, List.dropWhile_append]
  split
  next hempty =>
    have hgap : gap.dropWhile isspace = [] := List.dropWhile_eq_nil_iff.mpr h
    rw [List.isEmpty_iff.mp hempty, hgap]
  next => rw [rstrip_append h]

theorem valueText_rstrip (s : Bytes) : valueText (rstrip s) = valueText s := by
  obtain ⟨gap, hs, hgap⟩ := exists_rstrip s
  obtain ⟨after, hafter, hspace⟩ := take_findCharsOrComment_append hgap false (rstrip s)
  rw [← hs] at hafter
  rw [valueText, valueText, hafter, lskip_append_of_rstrip hspace]

/-- The value of a pair is read from what stands behind the separator. -/
theorem Pair.valueText_rest (p : Pair) :
    valueText (p.indent.text ++ p.value ++ p.remark.text) = p.value := by
  have hcomment := p.valueCommentless.append_blanks p.remark.gap
  have hfind : ∀ s, findCharsOrComment [] false
      (p.indent.text ++ p.value ++ p.remark.gap.text ++ s) = _ := fun s =>
    findCharsOrComment_append (fun _ _ => List.not_mem_nil) hcomment
      (fun h => absurd h Bool.false_ne_true) s
  have hstrip := strip_of_trimmed p.valueTrimmed p.indent.isspace p.remark.gap.isspace
  -- the comment begins behind the white space
  have htake : (p.indent.text ++ p.value ++ p.remark.text).take
      (findCharsOrComment [] false (p.indent.text ++ p.value ++ p.remark.text)) =
        p.indent.text ++ p.value ++ p.remark.gap.text := by
    rw [Remark.text, ← List.append_assoc, hfind]
    cases hc : p.remark.comment with
    | none => exact List.take_left
    | some s =>
      have hgap : p.remark.gap.text ≠ [] :=
        p.remark.spaced (by rw [hc]; exact Option.some_ne_none s)
      obtain ⟨d, hd⟩ : ∃ d, p.remark.gap.text.getLast? = some d :=
        ⟨_, List.getLast?_eq_some_getLast hgap⟩
      have hspace : isspace d = true := p.remark.gap.isspace d (List.mem_of_getLast? hd)
      rw [List.getLast?_append, hd, Option.some_or, Option.map_some, Option.getD_some, hspace,
        Option.map_some, Option.getD_some, findCharsOrComment, if_pos (Or.inr ⟨rfl, rfl⟩),
        Nat.add_zero]
      exact List.take_left
  rw [valueText, htake, hstrip]

/-! ## One line -/

/-- The state as the next line is read. -/
def State.next (s : State) : State := { s with lineno := s.lineno + 1 }

theorem OneLine.of_append {s t : Bytes} (h : OneLine (s ++ t)) : OneLine s ∧ OneLine t :=
  ⟨fun c hc => h c (List.mem_append_left t hc), fun c hc => h c (List.mem_append_right s hc)⟩

theorem OneLine.append {s t : Bytes} (hs : OneLine s) (ht : OneLine t) : OneLine (s ++ t) :=
  fun c hc => (List.mem_append.mp hc).elim (hs c) (ht c)

theorem OneLine.cons {c : UInt8} {s : Bytes} (hc : c ≠ '\n'.toUInt8 ∧ c ≠ 0) (hs : OneLine s) :
    OneLine (c :: s) :=
  List.forall_mem_cons.mpr ⟨hc, hs⟩

theorem Blanks.oneLine (b : Blanks) : OneLine b.text := by
  intro c hc
  refine ⟨(b.isBlank c hc).2, ?_⟩
  rintro rfl
  exact absurd (b.isspace 0 hc) (by decide)

theorem takeWhile_line {l : Bytes} (h : OneLine l) :
    (l ++ ['\n'.toUInt8]).takeWhile (· ≠ 0) = l ++ ['\n'.toUInt8] := by
  refine List.takeWhile_eq_self_iff.mpr fun c hc => decide_eq_true ?_
  rcases List.mem_append.mp hc with hc | hc
  · exact (h c hc).2
  · rw [List.mem_singleton.mp hc]
    decide

/-- The line ending is no part of a byte order mark. -/
theorem mark_prefix_line {l : Bytes} :
    byteOrderMark <+: l ++ ['\n'.toUInt8] ↔ byteOrderMark <+: l := by
  refine ⟨fun h => ?_, fun h => h.trans (List.prefix_append l _)⟩
  rcases List.prefix_concat_iff.mp h with heq | hpre
  · have heq : ([0xEF, 0xBB] : Bytes) ++ [0xBF] = l ++ ['\n'.toUInt8] := heq
    exact absurd (List.append_inj' heq rfl).2 (by decide)
  · exact hpre

theorem mark_prefix_iff {l : Bytes} : byteOrderMark <+: l ↔ l.take 3 = [0xEF, 0xBB, 0xBF] := by
  rw [List.prefix_iff_eq_take]
  exact eq_comm

/-- A line is not taken for one with a byte order mark. -/
theorem not_marked {s : State} {l : Bytes} (hl : s.lineno = 0 → ¬ byteOrderMark <+: l) :
    ¬ (s.lineno + 1 = 1 ∧ (l ++ ['\n'.toUInt8]).take 3 = [0xEF, 0xBB, 0xBF]) := by
  rw [← mark_prefix_iff, mark_prefix_line]
  exact fun h => hl (Nat.succ.inj h.1) h.2

theorem parseLine_blank {s : State} (b : Blanks)
    (hl : s.lineno = 0 → ¬ byteOrderMark <+: b.text) :
    parseLine s (b.text ++ ['\n'.toUInt8]) = s.next := by
  have hstart : lskip (rstrip (b.text ++ ['\n'.toUInt8])) = [] := by
    have hspace : ∀ c ∈ b.text ++ ['\n'.toUInt8], isspace c = true := by
      intro c hc
      rcases List.mem_append.mp hc with hc | hc
      · exact b.isspace c hc
      · rw [List.mem_singleton.mp hc]
        decide
    rw [← List.nil_append (b.text ++ _), rstrip_append hspace]
    rfl
  simp only [parseLine, takeWhile_line b.oneLine, not_marked hl, if_false, hstart]
  rfl

/-- A line that is not blank: what the reader does depends on its first character, and on whether
there is white space before it. -/
theorem parseLine_indented {s : State} (b : Blanks) {c : UInt8} {t : Bytes}
    (hc : isspace c = false) (ht : OneLine (c :: t))
    (hl : s.lineno = 0 → ¬ byteOrderMark <+: b.text ++ c :: t) :
    parseLine s (b.text ++ c :: t ++ ['\n'.toUInt8]) =
      if c ∈ bytes ";#" then s.next
      else if s.prevName ≠ [] ∧ b.text ≠ [] then
        { s.next with
          entries := s.entries ++ [((s.sectionName, s.prevName), c :: rstrip t)] }
      else if c = '['.toUInt8 then beginSection s.next (rstrip t)
      else pair s.next (c :: rstrip t) := by
  have hstripped : rstrip (b.text ++ c :: t ++ ['\n'.toUInt8]) = b.text ++ c :: rstrip t := by
    rw [rstrip_append (List.forall_mem_singleton.mpr rfl), rstrip_append_cons hc]
  have hstart : lskip (b.text ++ c :: rstrip t) = c :: rstrip t := by
    rw [lskip_append b.isspace, lskip_cons hc]
  have hindent : (c :: rstrip t).length < (b.text ++ c :: rstrip t).length ↔ b.text ≠ [] := by
    rw [List.length_append, ← List.length_pos_iff]
    omega
  simp only [parseLine, takeWhile_line (b.oneLine.append ht), not_marked hl, if_false,
    hstripped, hstart, hindent, false_or]
  rfl

/-! ## Groups of lines -/

/-- What the reader remembers from one line to the next. -/
structure Place where
  sectionName : Bytes
  prevName : Bytes

def State.place (s : State) : Place := ⟨s.sectionName, s.prevName⟩

def State.readLines (s : State) (lines : List Bytes) : State :=
  (lines.map (· ++ ['\n'.toUInt8])).foldl parseLine s

/-- Some lines take the reader from one place to another and give it some entries. The first line
of a file must not look as if it had a byte order mark. -/
def Reads (p : Place) (lines : List Bytes) (q : Place) (entries : List Entry) : Prop :=
  ∀ s : State, s.place = p → (s.lineno = 0 → ∀ l ∈ lines.head?, ¬ byteOrderMark <+: l) →
    (s.readLines lines).place = q ∧ (s.readLines lines).entries = s.entries ++ entries ∧
      (s.readLines lines).lineno = s.lineno + lines.length

theorem Reads.nil (p : Place) : Reads p [] p [] :=
  fun s hs _ => ⟨hs, (List.append_nil s.entries).symm, rfl⟩

theorem Reads.append {p q r : Place} {lines lines' : List Bytes} {entries entries' : List Entry}
    (h : Reads p lines q entries) (h' : Reads q lines' r entries') :
    Reads p (lines ++ lines') r (entries ++ entries') := by
  intro s hs hmark
  obtain ⟨hplace, hentries, hlineno⟩ := h s hs fun h0 l hl => hmark h0 l (by
    rw [List.head?_append, Option.mem_def.mp hl]
    rfl)
  obtain ⟨hplace', hentries', hlineno'⟩ := h' (s.readLines lines) hplace fun h0 l hl => by
    rw [hlineno] at h0
    have hempty : lines = [] := List.eq_nil_of_length_eq_zero (Nat.eq_zero_of_add_eq_zero h0).2
    refine hmark (Nat.eq_zero_of_add_eq_zero h0).1 l ?_
    rw [hempty, List.nil_append]
    exact hl
  have happend : s.readLines (lines ++ lines') = (s.readLines lines).readLines lines' := by
    rw [State.readLines, List.map_append, List.foldl_append]
    rfl
  rw [happend]
  refine ⟨hplace', ?_, ?_⟩
  · rw [hentries', hentries, List.append_assoc]
  · rw [hlineno', hlineno, List.length_append, Nat.add_assoc]

/-- One line. -/
theorem Reads.line {p q : Place} {l : Bytes} {entries : List Entry}
    (h : ∀ s : State, s.place = p → (s.lineno = 0 → ¬ byteOrderMark <+: l) →
      parseLine s (l ++ ['\n'.toUInt8]) =
        { s.next with
          sectionName := q.sectionName, prevName := q.prevName, entries := s.entries ++ entries }) :
    Reads p [l] q entries := by
  intro s hs hmark
  have hline : s.readLines [l] = _ := h s hs fun h0 => hmark h0 l rfl
  rw [hline]
  exact ⟨rfl, rfl, rfl⟩

theorem mark_plain :
    ∀ c ∈ bytes ";#", (c ≠ '\n'.toUInt8 ∧ c ≠ 0) ∧ isspace c = false :=
  List.all_iff_forall_prop.mp (by decide)

theorem separator_plain :
    ∀ c ∈ bytes "=:", (c ≠ '\n'.toUInt8 ∧ c ≠ 0) ∧ isspace c = false :=
  List.all_iff_forall_prop.mp (by decide)

theorem Noise.reads (n : Noise) (p : Place) : Reads p [n.line] p [] := by
  refine .line fun s hs hmark => ?_
  subst hs
  have hnext : parseLine s (n.line ++ ['\n'.toUInt8]) = s.next := by
    cases n with
    | blank b => exact parseLine_blank b hmark
    | comment indent mark text hmem htext =>
      obtain ⟨hplain, hspace⟩ := mark_plain mark hmem
      rw [Noise.line, parseLine_indented indent hspace (htext.cons hplain) hmark, if_pos hmem]
  rw [hnext, List.append_nil]
  rfl

theorem Noise.reads_all (ns : List Noise) (p : Place) : Reads p (ns.map Noise.line) p [] := by
  induction ns with
  | nil => exact .nil p
  | cons n ns ih => exact (n.reads p).append ih

/-- Behind its bracket a section line says nothing. -/
theorem Header.reads (h : Header) (p : Place) :
    Reads p [h.line] ⟨h.name.take 49, []⟩ [] := by
  refine .line fun s hs hmark => ?_
  subst hs
  obtain ⟨hname, hrest⟩ := h.oneLine.of_append
  have hline : OneLine ('['.toUInt8 :: (h.name ++ ']'.toUInt8 :: h.rest)) :=
    (hname.append (hrest.cons (by decide))).cons (by decide)
  have hparse := parseLine_indented (s := s) ⟨[], fun _ hc => absurd hc List.not_mem_nil⟩
    (by decide) hline hmark
  rw [if_neg (by decide), if_neg (fun hi => hi.2 rfl), if_pos rfl] at hparse
  -- the bracket is found behind the name
  have hfind : findCharsOrComment (bytes "]") false (h.name ++ ']'.toUInt8 :: rstrip h.rest) =
      h.name.length := by
    rw [findCharsOrComment_append ?_ h.commentless (fun hf => absurd hf Bool.false_ne_true),
      findCharsOrComment, if_pos (Or.inl (by decide)), Nat.add_zero]
    intro c hc hmem
    have hbracket : c = ']'.toUInt8 := List.mem_singleton.mp hmem
    exact h.noBracket (hbracket ▸ hc)
  have hstep : parseLine s (h.line ++ ['\n'.toUInt8]) =
      beginSection s.next (rstrip (h.name ++ ']'.toUInt8 :: h.rest)) := hparse
  rw [hstep, rstrip_append_cons (by decide), beginSection]
  simp only [hfind, List.drop_left, List.head?_cons, if_true, List.take_left, List.append_nil]
  rfl

theorem Remark.oneLine_text (r : Remark) : OneLine r.text := by
  refine r.gap.oneLine.append ?_
  cases hc : r.comment with
  | none => exact fun _ hmem => absurd hmem List.not_mem_nil
  | some s => exact (r.oneLine s hc).cons (by decide)

theorem Pair.oneLine_line (d : Pair) : OneLine d.line :=
  (d.nameOneLine.append d.gap.oneLine).append
    (((d.indent.oneLine.append d.valueOneLine).append d.remark.oneLine_text).cons
      (separator_plain d.separator d.isSeparator).1)

/-- The separator is found behind the name, and the value behind the separator. -/
theorem Pair.pair_line (d : Pair) (s : State) :
    pair s (rstrip d.line) =
      { s with
        prevName := d.name.take 49
        entries := s.entries ++ [((s.sectionName, d.name), d.value)] } := by
  have hspace := (separator_plain d.separator d.isSeparator).2
  have hplain : ∀ c ∈ d.name ++ d.gap.text, c ∉ bytes "=:" := by
    intro c hc hmem
    rcases List.mem_append.mp hc with hc | hc
    · exact d.noSeparator c hc hmem
    · have hspace := d.gap.isspace c hc
      rw [(separator_plain c hmem).2] at hspace
      exact absurd hspace Bool.false_ne_true
  rw [Pair.line, rstrip_append_cons hspace]
  generalize hrest : rstrip (d.indent.text ++ d.value ++ d.remark.text) = rest
  have hfind : findCharsOrComment (bytes "=:") false (d.name ++ d.gap.text ++ d.separator :: rest) =
      (d.name ++ d.gap.text).length := by
    rw [findCharsOrComment_append hplain (d.nameCommentless.append_blanks d.gap)
      (fun hf => absurd hf Bool.false_ne_true), findCharsOrComment, if_pos (Or.inl d.isSeparator),
      Nat.add_zero]
  have hname : rstrip (d.name ++ d.gap.text) = d.name := by
    rw [rstrip_append d.gap.isspace, rstrip_trimmed d.nameTrimmed]
  have hvalue : valueText rest = d.value := by
    rw [← hrest, valueText_rstrip, d.valueText_rest]
  rw [valueText] at hvalue
  simp only [pair, hfind, List.drop_left, List.take_left, if_pos d.isSeparator, hname, hvalue]

theorem Pair.reads (d : Pair) (p : Place) :
    Reads p [d.line] ⟨p.sectionName, d.name.take 49⟩ [((p.sectionName, d.name), d.value)] := by
  refine .line fun s hs hmark => ?_
  subst hs
  obtain ⟨c, t, hct⟩ := List.exists_cons_of_ne_nil d.nameNonempty
  have hspace : isspace c = false := d.nameTrimmed.first c (by rw [hct]; rfl)
  have hfirst : c ∉ bytes ";#" ∧ c ≠ '['.toUInt8 := by
    have hmem := d.nameFirst c (by rw [hct]; rfl)
    exact ⟨fun h => hmem (List.mem_append_left [91] h),
      fun h => hmem (h ▸ List.mem_append_right (bytes ";#") (List.mem_singleton_self 91))⟩
  have hline : d.line = c :: (t ++ d.gap.text ++
      d.separator :: (d.indent.text ++ d.value ++ d.remark.text)) := by
    rw [Pair.line, hct]
    rfl
  have hparse := parseLine_indented (s := s) ⟨[], fun _ hc => absurd hc List.not_mem_nil⟩
    hspace (hline ▸ d.oneLine_line) (by rw [← hline]; exact hmark)
  rw [if_neg hfirst.1, if_neg (fun hi => hi.2 rfl), if_neg hfirst.2,
    ← List.nil_append (c :: rstrip _), ← rstrip_append_cons hspace, List.nil_append, ← hline,
    d.pair_line] at hparse
  exact hparse

/-- An indented line gives the value to the name above it, as far as the reader has kept it. -/
theorem Continuation.reads (l : Continuation) {p : Place} (hname : p.prevName ≠ []) :
    Reads p [l.line] p [((p.sectionName, p.prevName), l.text)] := by
  refine .line fun s hs hmark => ?_
  subst hs
  obtain ⟨c, t, hct⟩ := List.exists_cons_of_ne_nil l.nonempty
  have hspace : isspace c = false := l.trimmed.first c (by rw [hct]; rfl)
  have hfirst : c ∉ bytes ";#" := l.first c (by rw [hct]; rfl)
  have hline : l.line = l.indent.text ++ c :: (t ++ l.gap.text) := by
    rw [Continuation.line, hct, List.append_assoc, List.cons_append]
  have htext : c :: rstrip (t ++ l.gap.text) = l.text := by
    rw [← List.nil_append (c :: _), ← rstrip_append_cons hspace, List.nil_append,
      ← List.cons_append, ← hct, rstrip_append l.gap.isspace, rstrip_trimmed l.trimmed]
  have honeLine : OneLine (c :: (t ++ l.gap.text)) := by
    rw [← List.cons_append, ← hct]
    exact l.oneLine.append l.gap.oneLine
  rw [hline] at hmark ⊢
  rw [parseLine_indented l.indent hspace honeLine hmark, if_neg hfirst,
    if_pos ⟨hname, l.indented⟩, htext]
  rfl

/-! ## Documents -/

theorem Item.reads (i : Item) (p : Place) :
    ∃ q : Place, q.sectionName = p.sectionName ∧
      Reads p i.lines q (i.entries p.sectionName) := by
  have hname : i.pair.name.take 49 ≠ [] := by
    rw [Ne, List.take_eq_nil_iff]
    rintro (h | h)
    · exact absurd h (by decide)
    · exact i.pair.nameNonempty h
  have hmore : Reads ⟨p.sectionName, i.pair.name.take 49⟩
      (i.more.flatMap fun m => m.1.map Noise.line ++ [m.2.line])
      ⟨p.sectionName, i.pair.name.take 49⟩
      (i.more.map fun m => ((p.sectionName, i.pair.name.take 49), m.2.text)) := by
    induction i.more with
    | nil => exact .nil _
    | cons m more ih =>
      rw [List.flatMap_cons, List.map_cons]
      exact ((Noise.reads_all m.1 _).append (m.2.reads hname)).append ih
  exact ⟨⟨p.sectionName, i.pair.name.take 49⟩, rfl,
    (Noise.reads_all i.before p).append ((i.pair.reads p).append hmore)⟩

theorem Item.reads_all (items : List Item) (p : Place) :
    ∃ q : Place, q.sectionName = p.sectionName ∧
      Reads p (items.flatMap Item.lines) q (items.flatMap (Item.entries p.sectionName)) := by
  induction items generalizing p with
  | nil => exact ⟨p, rfl, .nil p⟩
  | cons i items ih =>
    obtain ⟨q, hq, hi⟩ := i.reads p
    obtain ⟨r, hr, hitems⟩ := ih q
    rw [hq] at hr hitems
    exact ⟨r, hr, hi.append hitems⟩

theorem Section.reads (s : Section) (p : Place) : ∃ q, Reads p s.lines q s.entries := by
  obtain ⟨q, -, hitems⟩ := Item.reads_all s.items ⟨s.header.name.take 49, []⟩
  exact ⟨q, (Noise.reads_all s.before p).append ((s.header.reads p).append hitems)⟩

theorem Section.reads_all (sections : List Section) (p : Place) :
    ∃ q, Reads p (sections.flatMap Section.lines) q (sections.flatMap Section.entries) := by
  induction sections generalizing p with
  | nil => exact ⟨p, .nil p⟩
  | cons s sections ih =>
    obtain ⟨q, hs⟩ := s.reads p
    obtain ⟨r, hsections⟩ := ih q
    exact ⟨r, hs.append hsections⟩

theorem Document.reads (d : Document) : ∃ q, Reads ⟨[], []⟩ d.lines q d.entries := by
  obtain ⟨q, hq, hleading⟩ := Item.reads_all d.leading ⟨[], []⟩
  obtain ⟨r, hsections⟩ := Section.reads_all d.sections q
  have h := (hleading.append hsections).append (Noise.reads_all d.trailing r)
  rw [List.append_nil] at h
  exact ⟨r, h⟩

/-- A line that fits into the buffer is read as a whole. -/
theorem readLines_line {l : Bytes} (hl : '\n'.toUInt8 ∉ l) {room : Nat} (hroom : l.length < room)
    (line s : Bytes) :
    readLines room line (l ++ '\n'.toUInt8 :: s) =
      (line ++ l ++ ['\n'.toUInt8]) :: readLines 199 [] s := by
  induction l generalizing room line with
  | nil => rw [List.nil_append, readLines, if_pos (Or.inl rfl), List.append_nil]
  | cons c l ih =>
    rw [List.mem_cons, not_or] at hl
    rw [List.length_cons] at hroom
    have hc : ¬ (c = '\n'.toUInt8 ∨ room ≤ 1) := by
      rintro (h | h)
      · exact hl.1 h.symm
      · omega
    rw [List.cons_append, readLines, if_neg hc, ih hl.2 (by omega), List.append_assoc line,
      List.singleton_append]

theorem readLines_lines {lines : List Bytes} (hline : ∀ l ∈ lines, '\n'.toUInt8 ∉ l)
    (hfits : ∀ l ∈ lines, l.length ≤ 198) :
    readLines 199 [] (lines.flatMap (· ++ ['\n'.toUInt8])) =
      lines.map (· ++ ['\n'.toUInt8]) := by
  induction lines with
  | nil => rfl
  | cons l lines ih =>
    rw [List.forall_mem_cons] at hline hfits
    rw [List.flatMap_cons, List.append_assoc, List.singleton_append,
      readLines_line hline.1 (by omega), ih hline.2 hfits.2, List.nil_append]
    rfl

/-- A byte order mark is passed over at the beginning of a file. -/
theorem parseLine_marked {l : Bytes} (hl : ¬ byteOrderMark <+: l) :
    parseLine {} (byteOrderMark ++ l) = parseLine {} l := by
  have hnul : (byteOrderMark ++ l).takeWhile (· ≠ 0) = byteOrderMark ++ l.takeWhile (· ≠ 0) :=
    List.takeWhile_append_of_pos (List.all_iff_forall_prop.mp (by decide))
  have hunmarked : ¬ (l.takeWhile (· ≠ 0)).take 3 = [0xEF, 0xBB, 0xBF] := fun h =>
    hl ((mark_prefix_iff.mpr h).trans (List.takeWhile_prefix _))
  have hmarked : (byteOrderMark ++ l.takeWhile (· ≠ 0)).take 3 = [0xEF, 0xBB, 0xBF] :=
    List.take_left' rfl
  have hdrop : (byteOrderMark ++ l.takeWhile (· ≠ 0)).drop 3 = l.takeWhile (· ≠ 0) :=
    List.drop_left' rfl
  simp only [parseLine, hnul, hmarked, hdrop, hunmarked, and_false, if_false, and_true, if_true,
    Nat.zero_add, ne_eq, not_true_eq_false, false_and]

theorem Noise.oneLine_line (n : Noise) : OneLine n.line := by
  cases n with
  | blank b => exact b.oneLine
  | comment indent mark text hmem htext =>
    exact indent.oneLine.append (htext.cons (mark_plain mark hmem).1)

theorem Header.oneLine_line (h : Header) : OneLine h.line :=
  (h.oneLine.of_append.1.cons (by decide)).append (h.oneLine.of_append.2.cons (by decide))

theorem Continuation.oneLine_line (l : Continuation) : OneLine l.line :=
  (l.indent.oneLine.append l.oneLine).append l.gap.oneLine

theorem Noise.oneLine_all {ns : List Noise} : ∀ l ∈ ns.map Noise.line, OneLine l := by
  rw [List.forall_mem_map]
  exact fun n _ => n.oneLine_line

theorem Item.oneLine_lines (i : Item) : ∀ l ∈ i.lines, OneLine l := by
  rw [Item.lines, List.forall_mem_append, List.forall_mem_cons]
  refine ⟨Noise.oneLine_all, i.pair.oneLine_line, fun l hl => ?_⟩
  obtain ⟨m, -, hl⟩ := List.mem_flatMap.mp hl
  rcases List.mem_append.mp hl with hl | hl
  · exact Noise.oneLine_all l hl
  · rw [List.mem_singleton.mp hl]
    exact m.2.oneLine_line

theorem Section.oneLine_lines (s : Section) : ∀ l ∈ s.lines, OneLine l := by
  rw [Section.lines, List.forall_mem_append, List.forall_mem_cons]
  refine ⟨Noise.oneLine_all, s.header.oneLine_line, fun l hl => ?_⟩
  obtain ⟨i, -, hl⟩ := List.mem_flatMap.mp hl
  exact i.oneLine_lines l hl

namespace Document

theorem oneLine_lines (d : Document) : ∀ l ∈ d.lines, OneLine l := by
  rw [lines, documentLines, List.forall_mem_append, List.forall_mem_append]
  refine ⟨⟨fun l hl => ?_, fun l hl => ?_⟩, Noise.oneLine_all⟩
  · obtain ⟨i, -, hl⟩ := List.mem_flatMap.mp hl
    exact i.oneLine_lines l hl
  · obtain ⟨s, -, hl⟩ := List.mem_flatMap.mp hl
    exact s.oneLine_lines l hl

/-- The lines are read one after the other, the first without its byte order mark. -/
theorem parse_eq_readLines (d : Document) :
    parse d.text = (State.readLines {} d.lines).entries := by
  have hline : ∀ l ∈ d.lines, '\n'.toUInt8 ∉ l :=
    fun l hl hmem => (d.oneLine_lines l hl _ hmem).1 rfl
  have hfits : ∀ l ∈ d.lines, l.length ≤ 198 := d.fits
  have hmarkFits : d.marked = true → ∀ l ∈ d.lines.head?, l.length ≤ 195 := d.markFits
  have hunmarked : ∀ l ∈ d.lines.head?, ¬ byteOrderMark <+: l := d.unmarked
  rw [parse, text]
  cases hmarked : d.marked with
  | false => rw [if_neg Bool.false_ne_true, List.nil_append, readLines_lines hline hfits]; rfl
  | true =>
    rw [if_pos rfl]
    cases hlines : d.lines with
    | nil => decide
    | cons l lines =>
      rw [hlines] at hline hfits hmarkFits hunmarked
      rw [List.forall_mem_cons] at hline hfits
      have hmark : '\n'.toUInt8 ∉ byteOrderMark ++ l := fun h =>
        (List.mem_append.mp h).elim (by decide) hline.1
      have hroom : (byteOrderMark ++ l).length < 199 := by
        have hl : l.length ≤ 195 := hmarkFits hmarked l rfl
        rw [List.length_append]
        exact Nat.lt_succ_of_le (Nat.add_le_add_left hl 3)
      have hfirst : ¬ byteOrderMark <+: l ++ ['\n'.toUInt8] :=
        fun h => hunmarked l rfl (mark_prefix_line.mp h)
      rw [List.flatMap_cons, ← List.append_assoc, ← List.append_assoc,
        List.append_assoc _ ['\n'.toUInt8], List.singleton_append, readLines_line hmark hroom,
        readLines_lines hline.2 hfits.2, List.foldl_cons, List.nil_append, List.append_assoc,
        parseLine_marked hfirst]
      rfl

end Document

/-- What is read from a file is what it says, in that order. -/
theorem parse_text (d : Document) : parse d.text = d.entries := by
  obtain ⟨q, hreads⟩ := d.reads
  rw [d.parse_eq_readLines]
  exact (hreads {} rfl fun _ => d.unmarked).2.1

end Nawa.Ini
