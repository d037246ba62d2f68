import Mathlib.Data.List.DropRight
import Nawa.Laws.Config.Ini

/-!
# What the reader of configuration files accepts

Whatever a file contains, and wherever its lines are cut, the entries that are read from it are
well formed (`wellFormed_of_parse`). The invariant is `Sound`: what the reader remembers from one
line to the next is as good as what it has handed on.
-/

namespace Nawa.Ini

/-- The name of a section. -/
structure SectionName (s : Bytes) : Prop where
  length_le : s.length ≤ 49
  oneLine : OneLine s
  commentless : Commentless s
  noBracket : ']'.toUInt8 ∉ s

/-- The name of a value, which may have been cut. -/
structure Name (s : Bytes) : Prop where
  length_le : s.length ≤ 198
  oneLine : OneLine s
  commentless : Commentless s
  first : ∀ c ∈ s.head?, isspace c = false
  noSeparator : ∀ c ∈ s, c ∉ bytes "=:"

structure Value (s : Bytes) : Prop where
  length_le : s.length ≤ 198
  oneLine : OneLine s
  trimmed : Trimmed s

structure WellFormed (e : Entry) : Prop where
  sectionName : SectionName e.1.1
  name : Name e.1.2
  value : Value e.2

/-! ## Parts of a text -/

theorem OneLine.of_isInfix {s t : Bytes} (h : OneLine t) (hs : s <:+: t) : OneLine s :=
  fun c hc => h c (hs.subset hc)

theorem Commentless.of_isInfix {s t : Bytes} (h : Commentless t) (hs : s <:+: t) : Commentless s :=
  fun c hc hin => h c hc (hin.trans hs)

theorem rstrip_isPrefix (s : Bytes) : rstrip s <+: s := by
  obtain ⟨gap, hs, -⟩ := exists_rstrip s
  exact ⟨gap, hs.symm⟩

theorem lskip_suffix (s : Bytes) : lskip s <:+ s := List.dropWhile_suffix isspace

theorem lskip_first (s : Bytes) : ∀ c ∈ (lskip s).head?, isspace c = false := by
  exact trimLeft_eq_self.mp (List.dropWhile_idempotent isspace s)

theorem rstrip_last (s : Bytes) : ∀ c ∈ (rstrip s).getLast?, isspace c = false := by
  rw [rstrip, List.getLast?_reverse]
  exact lskip_first s.reverse

theorem mem_head_of_isPrefix {s t : Bytes} (h : s <+: t) : ∀ c ∈ s.head?, c ∈ t.head? := by
  obtain ⟨u, rfl⟩ := h
  intro c hc
  rw [List.head?_append, Option.mem_def.mp hc]
  rfl

theorem trimmed_strip (s : Bytes) : Trimmed (rstrip (lskip s)) where
  first := fun c hc => lskip_first s c (mem_head_of_isPrefix (rstrip_isPrefix _) c hc)
  last := rstrip_last _

/-- What stands before the end that is found. -/
theorem findCharsOrComment_spec (chars : Bytes) (wasSpace : Bool) (s : Bytes) :
    (∀ c ∈ s.take (findCharsOrComment chars wasSpace s), c ∉ chars) ∧
      Commentless (s.take (findCharsOrComment chars wasSpace s)) ∧
      (wasSpace = true →
        (s.take (findCharsOrComment chars wasSpace s)).head? ≠ some ';'.toUInt8) := by
  have hnil : Commentless [] := fun c _ hin => absurd (List.infix_nil.mp hin) (List.cons_ne_nil _ _)
  induction s generalizing wasSpace with
  | nil =>
    rw [List.take_nil]
    exact ⟨fun _ hc => absurd hc List.not_mem_nil, hnil, fun _ h => nomatch h⟩
  | cons c s ih =>
    rw [findCharsOrComment]
    split
    next =>
      rw [List.take_zero]
      exact ⟨fun _ hc => absurd hc List.not_mem_nil, hnil, fun _ h => nomatch h⟩
    next hc =>
      rw [not_or, not_and] at hc
      obtain ⟨hchars, hcomment, hfirst⟩ := ih (isspace c)
      rw [List.take_succ_cons, List.forall_mem_cons, List.head?_cons]
      refine ⟨⟨hc.1, hchars⟩, fun d hd hin => ?_, fun hspace h => hc.2 hspace (Option.some.inj h)⟩
      rcases List.infix_cons_iff.mp hin with hpre | hin
      · obtain ⟨rfl, hpre⟩ := List.cons_prefix_cons.mp hpre
        refine hfirst hd ?_
        obtain ⟨u, hu⟩ := hpre
        rw [← hu]
        rfl
      · exact hcomment d hd hin

/-! ## Lines -/

/-- A line fits into the buffer, and ends where it says so. -/
theorem readLines_spec {room : Nat} {line s : Bytes} (hline : '\n'.toUInt8 ∉ line)
    (hroom : line.length + room = 199) (hpos : 1 ≤ room) :
    ∀ l ∈ readLines room line s, l.length ≤ 199 ∧ '\n'.toUInt8 ∉ l.dropLast := by
  induction s generalizing room line with
  | nil =>
    cases line with
    | nil => exact fun _ hl => absurd hl List.not_mem_nil
    | cons c line =>
      intro l hl
      have hlast : readLines room (c :: line) [] = [c :: line] := by
        rw [readLines]
        exact List.cons_ne_nil c line
      rw [hlast, List.mem_singleton] at hl
      subst hl
      exact ⟨by omega, fun h => hline (List.dropLast_subset _ h)⟩
  | cons c s ih =>
    rw [readLines]
    split
    next =>
      rw [List.forall_mem_cons, List.length_append, List.dropLast_concat]
      refine ⟨⟨?_, hline⟩, ih List.not_mem_nil rfl (by decide)⟩
      rw [List.length_singleton]
      omega
    next hc =>
      rw [not_or] at hc
      refine ih ?_ ?_ (by omega)
      · rw [List.mem_append, List.mem_singleton, not_or]
        exact ⟨hline, Ne.symm hc.1⟩
      · rw [List.length_append, List.length_singleton]
        omega

/-- Without the white space at its end a part of a line contains no line ending. -/
theorem oneLine_rstrip {l t : Bytes} (hl : '\n'.toUInt8 ∉ l.dropLast) (ht : t <:+: l)
    (hnul : ∀ c ∈ t, c ≠ 0) : OneLine (rstrip t) := by
  refine fun c hc => ⟨?_, hnul c ((rstrip_isPrefix t).subset hc)⟩
  rintro rfl
  have hlast := rstrip_last t
  have hin := (rstrip_isPrefix t).isInfix.trans ht
  rcases List.eq_nil_or_concat (rstrip t) with hnil | ⟨u, d, hu⟩
  · rw [hnil] at hc
    exact absurd hc List.not_mem_nil
  · rw [List.concat_eq_append] at hu
    rw [hu] at hc hlast hin
    rcases List.mem_append.mp hc with hc | hc
    · obtain ⟨a, b, hab⟩ := hin
      refine hl ?_
      rw [← hab, List.append_assoc, List.append_assoc, List.singleton_append, ← List.append_assoc,
        List.dropLast_append_of_ne_nil (List.cons_ne_nil d b)]
      exact List.mem_append_left _ (List.mem_append_right a hc)
    · -- the last character is not white space
      have hd := hlast d List.getLast?_concat
      rw [← List.mem_singleton.mp hc] at hd
      exact absurd hd (by decide)

/-! ## The invariant -/

structure Sound (s : State) : Prop where
  sectionName : SectionName s.sectionName
  prevName : s.prevName ≠ [] → Name s.prevName ∧ s.prevName.length ≤ 49
  entries : ∀ e ∈ s.entries, WellFormed e

theorem sectionName_nil : SectionName [] where
  length_le := by decide
  oneLine := fun _ hc => absurd hc List.not_mem_nil
  commentless := fun c _ hin => absurd (List.infix_nil.mp hin) (List.cons_ne_nil _ _)
  noBracket := List.not_mem_nil

theorem Sound.append {s : State} (h : Sound s) {e : Entry} (he : WellFormed e) :
    ∀ e' ∈ s.entries ++ [e], WellFormed e' := by
  rw [List.forall_mem_append, List.forall_mem_singleton]
  exact ⟨h.entries, he⟩

theorem Sound.beginSection {s : State} (h : Sound s) {rest : Bytes} (hrest : OneLine rest) :
    Sound (beginSection s rest) := by
  rw [Ini.beginSection]
  split
  next =>
    obtain ⟨hchars, hcomment, -⟩ := findCharsOrComment_spec (bytes "]") false rest
    have hcut := List.take_prefix 49 (rest.take (findCharsOrComment (bytes "]") false rest))
    refine ⟨⟨List.length_take_le 49 _, ?_, hcomment.of_isInfix hcut.isInfix, fun hmem => ?_⟩,
      fun hne => absurd rfl hne, h.entries⟩
    · exact hrest.of_isInfix (hcut.trans (List.take_prefix _ rest)).isInfix
    · exact hchars _ (hcut.subset hmem) (by decide)
  next => exact h

theorem Name.take {s : Bytes} (h : Name s) (n : Nat) : Name (s.take n) where
  length_le := Nat.le_trans (List.length_take_le' n s) h.length_le
  oneLine := h.oneLine.of_isInfix (List.take_prefix n s).isInfix
  commentless := h.commentless.of_isInfix (List.take_prefix n s).isInfix
  first := fun c hc => h.first c (mem_head_of_isPrefix (List.take_prefix n s) c hc)
  noSeparator := fun c hc => h.noSeparator c (List.mem_of_mem_take hc)

theorem Sound.pair {s : State} (h : Sound s) {start : Bytes} (hline : OneLine start)
    (hlength : start.length ≤ 199) (hfirst : ∀ c ∈ start.head?, isspace c = false) :
    Sound (pair s start) := by
  rw [Ini.pair]
  split
  next => exact h
  next separator rest hdrop =>
    split
    next =>
      obtain ⟨hchars, hcomment, -⟩ := findCharsOrComment_spec (bytes "=:") false start
      have hsplit := List.take_append_drop (findCharsOrComment (bytes "=:") false start) start
      generalize start.take (findCharsOrComment (bytes "=:") false start) = before at *
      rw [hdrop] at hsplit
      subst hsplit
      rw [List.length_append, List.length_cons] at hlength
      have hstrip := (rstrip_isPrefix before).length_le
      have hname : Name (rstrip before) :=
        { length_le := by omega
          oneLine := hline.of_append.1.of_isInfix (rstrip_isPrefix before).isInfix
          commentless := hcomment.of_isInfix (rstrip_isPrefix before).isInfix
          first := fun c hc => hfirst c (by
            have hhead := mem_head_of_isPrefix (rstrip_isPrefix before) c hc
            rw [List.head?_append, Option.mem_def.mp hhead]
            rfl)
          noSeparator := fun c hc => hchars c ((rstrip_isPrefix before).subset hc) }
      have hin : valueText rest <:+: rest :=
        (rstrip_isPrefix _).isInfix.trans
          ((lskip_suffix _).isInfix.trans (List.take_prefix _ rest).isInfix)
      have hrest : OneLine rest :=
        hline.of_append.2.of_isInfix (List.suffix_cons separator rest).isInfix
      have hvalue : Value (valueText rest) :=
        { length_le := Nat.le_trans hin.length_le (by omega)
          oneLine := hrest.of_isInfix hin
          trimmed := trimmed_strip _ }
      exact ⟨h.sectionName, fun _ => ⟨hname.take 49, List.length_take_le 49 _⟩,
        h.append ⟨h.sectionName, hname, hvalue⟩⟩
    next => exact h

/-- What is left of a line behind a byte order mark and before the white space at its end. -/
theorem stripped_spec {l t : Bytes} {marked : Prop} [Decidable marked] (hlength : l.length ≤ 199)
    (hl : '\n'.toUInt8 ∉ l.dropLast)
    (ht : rstrip (if marked then (l.takeWhile (· ≠ 0)).drop 3 else l.takeWhile (· ≠ 0)) = t) :
    OneLine t ∧ t.length ≤ 199 ∧ (marked → t.length ≤ 196) ∧
      ∀ c ∈ t.getLast?, isspace c = false := by
  subst ht
  have hprefix : l.takeWhile (· ≠ 0) <+: l := List.takeWhile_prefix _
  have hnul : ∀ c ∈ l.takeWhile (· ≠ 0), c ≠ 0 := by
    intro c hc
    have hp := List.mem_takeWhile_imp hc
    exact of_decide_eq_true hp
  have hle := hprefix.length_le
  split
  next hmarked =>
    have hdrop := List.drop_suffix 3 (l.takeWhile (· ≠ 0))
    have hstrip := (rstrip_isPrefix ((l.takeWhile (· ≠ 0)).drop 3)).length_le
    rw [List.length_drop] at hstrip
    exact ⟨oneLine_rstrip hl (hdrop.isInfix.trans hprefix.isInfix)
      (fun c hc => hnul c (hdrop.subset hc)), by omega, fun _ => by omega, rstrip_last _⟩
  next hmarked =>
    have hstrip := (rstrip_isPrefix (l.takeWhile (· ≠ 0))).length_le
    exact ⟨oneLine_rstrip hl hprefix.isInfix hnul, by omega, fun h => absurd h hmarked,
      rstrip_last _⟩

theorem last_of_suffix {s t : Bytes} (h : s <:+ t) : ∀ c ∈ s.getLast?, c ∈ t.getLast? := by
  obtain ⟨u, rfl⟩ := h
  intro c hc
  rw [List.getLast?_append, Option.mem_def.mp hc]
  rfl

/-- One line keeps the invariant. -/
theorem Sound.parseLine {s : State} (h : Sound s) {l : Bytes} (hlength : l.length ≤ 199)
    (hl : '\n'.toUInt8 ∉ l.dropLast) : Sound (parseLine s l) := by
  have hnext : Sound { s with lineno := s.lineno + 1 } := ⟨h.sectionName, h.prevName, h.entries⟩
  rw [Ini.parseLine]
  dsimp only
  generalize ht : rstrip (if s.lineno + 1 = 1 ∧ (l.takeWhile (· ≠ 0)).take 3 = [0xEF, 0xBB, 0xBF]
    then (l.takeWhile (· ≠ 0)).drop 3 else l.takeWhile (· ≠ 0)) = stripped
  obtain ⟨hline, hle, hmarked, hlast⟩ := stripped_spec hlength hl ht
  have hfirst := lskip_first stripped
  have hsuffix := lskip_suffix stripped
  cases hstart : lskip stripped with
  | nil => exact hnext
  | cons c rest =>
    rw [hstart] at hfirst hsuffix
    have hshort := hsuffix.length_le
    have hstartLine := hline.of_isInfix hsuffix.isInfix
    dsimp only
    split
    next => exact hnext
    next =>
      split
      next hmore =>
        -- there is white space or a mark before the value
        have hvalue : Value (c :: rest) :=
          { length_le := by
              rcases hmore.2 with hm | hm
              · exact Nat.le_trans hshort (Nat.le_trans (hmarked hm) (by decide))
              · omega
            oneLine := hstartLine
            trimmed := ⟨hfirst, fun d hd => hlast d (last_of_suffix hsuffix d hd)⟩ }
        exact ⟨h.sectionName, h.prevName,
          h.append ⟨h.sectionName, (h.prevName hmore.1).1, hvalue⟩⟩
      next =>
        split
        next => exact hnext.beginSection (hstartLine.of_isInfix (List.suffix_cons c rest).isInfix)
        next => exact hnext.pair hstartLine (Nat.le_trans hshort hle) hfirst

/-- Every entry that is read from a file is well formed. -/
theorem wellFormed_of_parse (content : Bytes) : ∀ e ∈ parse content, WellFormed e := by
  have hlines : ∀ l ∈ readLines 199 [] content, _ :=
    readLines_spec List.not_mem_nil rfl (by decide)
  have hstart : Sound {} :=
    ⟨sectionName_nil, fun hne => absurd rfl hne, fun _ he => absurd he List.not_mem_nil⟩
  rw [parse]
  generalize readLines 199 [] content = lines at *
  suffices h : ∀ s, Sound s → Sound (lines.foldl Ini.parseLine s) from (h {} hstart).entries
  clear hstart
  induction lines with
  | nil => exact fun s hs => hs
  | cons l lines ih =>
    rw [List.forall_mem_cons] at hlines
    exact fun s hs => ih hlines.2 _ (hs.parseLine hlines.1.1 hlines.1.2)

theorem wellFormed_of_parse_sample :
    WellFormed ((bytes "http", bytes "port"), bytes "80 # web") :=
  wellFormed_of_parse (bytes "[http] \n port : 80 # web ; site\r\n") _ (by decide)

end Nawa.Ini
