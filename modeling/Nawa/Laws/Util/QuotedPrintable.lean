import Nawa.Laws.Util.Encoding
import Nawa.Lib.Lines

/-!
# The lines of quoted-printable text

One turn of the encoder's loop writes what stands for a byte, behind a soft line break where the
line has no room for it. All that follows is read off from that: no line is longer than 76
characters and a soft break divides no code, while a blank is left bare at the end of a line
exactly where the input puts one there or the encoder breaks the line behind it.
-/

namespace Nawa.encoding

open Lib.Lines

/-- The bytes that are written as they are. -/
def literal (c : UInt8) : Bool := 32 ≤ c ∧ c ≤ 126 ∧ c ≠ 61

/-- The bytes of a line ending that is taken over. -/
def takenOver (replaceCrlf : Bool) (c : UInt8) : Bool := replaceCrlf = false ∧ (c = 10 ∨ c = 13)

def escape (c : UInt8) : Bytes := '='.toUInt8 :: utils.toUppercase (utils.hexDump [c])

/-- What is written for a byte. -/
def glyph (replaceCrlf : Bool) (c : UInt8) : Bytes :=
  if literal c || takenOver replaceCrlf c then [c] else escape c

/-- In this column the line is broken before what is written for the byte. -/
def brokenBefore (replaceCrlf : Bool) (column : Nat) (c : UInt8) : Bool :=
  if literal c then 75 ≤ column else !takenOver replaceCrlf c && (73 ≤ column : Bool)

/-- The column behind what is written for a byte. -/
def nextColumn (replaceCrlf : Bool) (column : Nat) (c : UInt8) : Nat :=
  if takenOver replaceCrlf c then 0
  else (if brokenBefore replaceCrlf column c then 0 else column) + (glyph replaceCrlf c).length

def softBreak (lineEnding : Bytes) : Bytes := '='.toUInt8 :: lineEnding

/-- The bytes that end a line. -/
def endsLine (c : UInt8) : Bool := c = 13 ∨ c = 10

section Turn

variable {lineEnding : Bytes} {replaceCrlf : Bool} {column : Nat} {c : UInt8}

theorem not_takenOver_of_literal (h : literal c = true) (replaceCrlf : Bool) :
    takenOver replaceCrlf c = false := by
  refine decide_eq_false ?_
  rintro ⟨-, rfl | rfl⟩
  · exact absurd h (by decide)
  · exact absurd h (by decide)

/-- One turn of the loop. -/
theorem quotedPrintableLoop_cons (lineEnding : Bytes) (replaceCrlf : Bool) (column : Nat)
    (c : UInt8) (s : Bytes) :
    quotedPrintableLoop lineEnding replaceCrlf false column (c :: s) =
      (if brokenBefore replaceCrlf column c then softBreak lineEnding else []) ++
        (glyph replaceCrlf c ++ quotedPrintableLoop lineEnding replaceCrlf false
          (nextColumn replaceCrlf column c) s) := by
  have hq : ∀ p : Prop, ¬ (false = true ∧ p) := fun _ h => nomatch h.1
  have hliteral : (32 ≤ c ∧ c ≤ 126 ∧ c ≠ 61 ∧ ¬ (false = true ∧ (c = 32 ∨ c = 63 ∨ c = 95))) ↔
      literal c = true := by
    simp only [literal, hq, not_false_eq_true, and_true, decide_eq_true_eq]
  have htaken : (replaceCrlf = false ∧ (c = 10 ∨ c = 13)) ↔ takenOver replaceCrlf c = true :=
    decide_eq_true_iff.symm
  rw [quotedPrintableLoop]
  cases hlit : literal c with
  | true =>
    have htak := not_takenOver_of_literal hlit replaceCrlf
    rw [if_pos (hliteral.mpr hlit)]
    simp only [true_and, brokenBefore, nextColumn, glyph, hlit, htak, if_true, Bool.true_or,
      Bool.false_eq_true, if_false, decide_eq_true_eq, List.length_singleton]
    split <;> rfl
  | false =>
    rw [if_neg fun h => Bool.false_ne_true (hlit ▸ hliteral.mp h)]
    cases htak : takenOver replaceCrlf c with
    | true =>
      rw [if_pos (htaken.mpr htak)]
      simp only [brokenBefore, nextColumn, glyph, hlit, htak]
      rfl
    | false =>
      rw [if_neg fun h => Bool.false_ne_true (htak ▸ htaken.mp h), if_neg (hq _)]
      simp only [true_and, brokenBefore, nextColumn, glyph, hlit, htak, Bool.false_eq_true,
        if_false, Bool.or_self, Bool.not_false, Bool.true_and, decide_eq_true_eq]
      split
      · exact List.append_assoc _ _ _
      · rfl

/-! ## What a turn writes -/

theorem length_glyph_of_literal (h : literal c = true) : (glyph replaceCrlf c).length = 1 := by
  rw [glyph, h, Bool.true_or, if_pos rfl, List.length_singleton]

theorem glyph_of_takenOver (h : takenOver replaceCrlf c = true) : glyph replaceCrlf c = [c] := by
  rw [glyph, h, Bool.or_true, if_pos rfl]

theorem glyph_of_escaped (h : literal c = false) (h' : takenOver replaceCrlf c = false) :
    glyph replaceCrlf c = escape c := by
  rw [glyph, h, h', Bool.or_self, if_neg Bool.false_ne_true]

theorem endsLine_of_upperHex (h : upperHex c = true) : endsLine c = false := by
  refine decide_eq_false ?_
  rintro (rfl | rfl)
  · exact absurd h (by decide)
  · exact absurd h (by decide)

/-- The glyph of a byte that is not taken over stays on its line. -/
theorem endsLine_glyph (h : takenOver replaceCrlf c = false) :
    ∀ x ∈ glyph replaceCrlf c, endsLine x = false := by
  cases hlit : literal c with
  | true =>
    rw [glyph, hlit, Bool.true_or, if_pos rfl]
    refine List.forall_mem_singleton.mpr (decide_eq_false ?_)
    rintro (rfl | rfl)
    · exact absurd hlit (by decide)
    · exact absurd hlit (by decide)
  | false =>
    rw [glyph_of_escaped hlit h]
    intro x hx
    rcases List.mem_cons.mp hx with rfl | hhex
    · rfl
    · exact endsLine_of_upperHex (upperHex_of_mem_toUppercase hhex)

/-- Where the line is not broken, the column moves on and stays in the line's room. -/
theorem nextColumn_le (hcolumn : column ≤ 75) : nextColumn replaceCrlf column c ≤ 75 := by
  rw [nextColumn]
  cases htak : takenOver replaceCrlf c with
  | true => exact Nat.zero_le 75
  | false =>
    rw [if_neg Bool.false_ne_true, brokenBefore]
    cases hlit : literal c with
    | true =>
      rw [length_glyph_of_literal hlit]
      simp only [if_true, decide_eq_true_eq]
      split <;> omega
    | false =>
      have hlength : (escape c).length = 3 := rfl
      rw [glyph_of_escaped hlit htak, hlength, htak]
      simp only [Bool.false_eq_true, if_false, Bool.not_false, Bool.true_and, decide_eq_true_eq]
      split <;> omega

end Turn

/-! ## The length of lines -/

/-- The invariant of the loop: it is never further than column 75, so that the equals sign of a
soft break still has room. -/
theorem fits_quotedPrintableLoop {lineEnding : Bytes} (hne : lineEnding ≠ [])
    (hends : ∀ x ∈ lineEnding, endsLine x = true) (replaceCrlf : Bool) {column : Nat}
    (hcolumn : column ≤ 75) (s : Bytes) :
    Fits endsLine 76 column (quotedPrintableLoop lineEnding replaceCrlf false column s) := by
  induction s generalizing column with
  | nil => exact Nat.le_succ_of_le hcolumn
  | cons c s ih =>
    rw [quotedPrintableLoop_cons]
    have hnext : nextColumn replaceCrlf column c ≤ 75 := nextColumn_le hcolumn
    have hrest := ih hnext
    revert hrest
    rw [nextColumn]
    cases htak : takenOver replaceCrlf c with
    | true =>
      have hbroken : brokenBefore replaceCrlf column c = false := by
        have hlit : literal c = false := by
          by_contra h
          rw [Bool.not_eq_false] at h
          exact Bool.false_ne_true ((not_takenOver_of_literal h replaceCrlf).symm.trans htak)
        rw [brokenBefore, hlit, htak]
        rfl
      have hend : endsLine c = true := decide_eq_true (of_decide_eq_true htak).2.symm
      intro hrest
      rw [hbroken, if_neg Bool.false_ne_true, List.nil_append, glyph_of_takenOver htak,
        fits_append_end (List.cons_ne_nil c []) (List.forall_mem_singleton.mpr hend)]
      exact ⟨Nat.le_succ_of_le hcolumn, hrest⟩
    | false =>
      have hglyph := endsLine_glyph htak
      rw [if_neg Bool.false_ne_true]
      cases brokenBefore replaceCrlf column c with
      | true =>
        intro hrest
        have hequals : ∀ x ∈ ['='.toUInt8], endsLine x = false :=
          List.forall_mem_singleton.mpr (by decide)
        rw [if_pos rfl, softBreak, ← List.singleton_append, List.append_assoc,
          fits_append_run hequals, fits_append_end hne hends, fits_append_run hglyph]
        exact ⟨Nat.succ_le_succ hcolumn, hrest⟩
      | false =>
        intro hrest
        rw [if_neg Bool.false_ne_true, List.nil_append, fits_append_run hglyph]
        exact hrest

/-! ## Codes in one piece -/

/-- What may stand behind an equals sign: two digits, or the rest of a soft break. -/
def CodeFollows (lineEnding t : Bytes) : Prop :=
  (∃ a b rest, t = a :: b :: rest ∧ upperHex a = true ∧ upperHex b = true) ∨ lineEnding <+: t

theorem codeFollows_quotedPrintableLoop {lineEnding : Bytes} (h : '='.toUInt8 ∉ lineEnding)
    (replaceCrlf : Bool) (column : Nat) (s : Bytes) :
    AfterEach (· = '='.toUInt8) (CodeFollows lineEnding)
      (quotedPrintableLoop lineEnding replaceCrlf false column s) := by
  induction s generalizing column with
  | nil => exact afterEach_nil
  | cons c s ih =>
    have hrest := ih (nextColumn replaceCrlf column c)
    have hglyph : AfterEach (· = '='.toUInt8) (CodeFollows lineEnding) (glyph replaceCrlf c ++
        quotedPrintableLoop lineEnding replaceCrlf false (nextColumn replaceCrlf column c) s) := by
      rw [glyph]
      split
      · next hc =>
        have hne : ∀ x ∈ [c], ¬ x = '='.toUInt8 := by
          rw [List.forall_mem_singleton]
          rintro rfl
          rcases (Bool.or_eq_true _ _).mp hc with hlit | htak
          · exact absurd hlit (by decide)
          · exact absurd (of_decide_eq_true htak).2 (by decide)
        exact (afterEach_append hne).mpr hrest
      · have hlt := c.toNat_lt
        have hhi : upperHex (upperDigit (c.toNat / 16)) = true := upperHex_upperDigit (by omega)
        have hlo : upperHex (upperDigit (c.toNat % 16)) = true := upperHex_upperDigit (by omega)
        have hne : ∀ x ∈ [upperDigit (c.toNat / 16), upperDigit (c.toNat % 16)],
            ¬ x = '='.toUInt8 := by
          rw [List.forall_mem_cons, List.forall_mem_singleton]
          exact ⟨fun heq => absurd (heq ▸ hhi) (by decide),
            fun heq => absurd (heq ▸ hlo) (by decide)⟩
        refine afterEach_cons.mpr ⟨fun _ => .inl ⟨_, _, _, rfl, hhi, hlo⟩, ?_⟩
        exact (afterEach_append hne).mpr hrest
    have hending : ∀ x ∈ lineEnding, ¬ x = '='.toUInt8 := fun x hx heq => h (heq ▸ hx)
    rw [quotedPrintableLoop_cons]
    split
    · refine afterEach_cons.mpr ⟨fun _ => .inr (List.prefix_append _ _), ?_⟩
      exact (afterEach_append hending).mpr hglyph
    · exact hglyph

/-- A soft break stands neither behind the first nor behind the second character of a code. -/
theorem not_split_of_codeFollows {lineEnding out : Bytes}
    (hne : lineEnding ≠ []) (hends : ∀ x ∈ lineEnding, endsLine x = true)
    (h : AfterEach (· = '='.toUInt8) (CodeFollows lineEnding) out) {before after : Bytes}
    (hout : out = before ++ softBreak lineEnding ++ after) :
    ¬ bytes "=" <:+ before ∧ ∀ x, upperHex x = true → ¬ '='.toUInt8 :: [x] <:+ before := by
  obtain ⟨y, ending, rfl⟩ := List.exists_cons_of_ne_nil hne
  have hy := hends y List.mem_cons_self
  have hequals : ¬ upperHex '='.toUInt8 = true := by decide
  constructor
  · rintro ⟨w, rfl⟩
    rcases h '='.toUInt8 (softBreak (y :: ending) ++ after)
      ⟨w, by rw [hout, List.append_assoc, List.append_assoc]; rfl⟩ rfl with
      ⟨a, b, rest, heq, ha, -⟩ | hbegins
    · exact hequals ((List.cons.inj heq).1 ▸ ha)
    · rw [softBreak, List.cons_append, List.cons_prefix_cons] at hbegins
      exact absurd (hbegins.1 ▸ hy) (by decide)
  · rintro x hx ⟨w, rfl⟩
    rcases h '='.toUInt8 (x :: (softBreak (y :: ending) ++ after))
      ⟨w, by rw [hout, List.append_assoc, List.append_assoc]; rfl⟩ rfl with
      ⟨a, b, rest, heq, -, hb⟩ | hbegins
    · exact hequals ((List.cons.inj (List.cons.inj heq).2).1 ▸ hb)
    · rw [List.cons_prefix_cons] at hbegins
      exact Bool.false_ne_true ((endsLine_of_upperHex hx).symm.trans (hbegins.1 ▸ hy))

/-- **Lines respect the limit of 76 characters**, and no code is divided by a soft break. -/
theorem quotedPrintable_lines (s : Bytes) (replaceCrlf : Bool) {lineEnding : Bytes}
    (h : lineEnding = crlf ∨ lineEnding = [10]) :
    (∀ run, run <:+: quotedPrintableEncode s lineEnding replaceCrlf false →
      (∀ c ∈ run, c ≠ 13 ∧ c ≠ 10) → run.length ≤ 76) ∧
    ∀ before after, quotedPrintableEncode s lineEnding replaceCrlf false =
        before ++ softBreak lineEnding ++ after →
      ¬ bytes "=" <:+ before ∧ ∀ x, upperHex x = true → ¬ '='.toUInt8 :: [x] <:+ before := by
  have hending : lineEnding ≠ [] ∧ (∀ x ∈ lineEnding, endsLine x = true) ∧
      '='.toUInt8 ∉ lineEnding := by
    rcases h with rfl | rfl
    · exact ⟨by decide, List.all_iff_forall_prop.mp (by decide), by decide⟩
    · exact ⟨by decide, List.all_iff_forall_prop.mp (by decide), by decide⟩
  obtain ⟨hne, hends, hequals⟩ := hending
  constructor
  · intro run hrun hline
    have hfits := fits_quotedPrintableLoop hne hends replaceCrlf (Nat.zero_le 75) s
    refine hfits.length_le hrun fun c hc => decide_eq_false ?_
    exact not_or.mpr (hline c hc)
  · intro before after hout
    exact not_split_of_codeFollows hne hends
      (codeFollows_quotedPrintableLoop hequals replaceCrlf 0 s) hout

theorem quotedPrintable_lines_sample :
    ([10] = crlf ∨ ([10] : Bytes) = [10]) ∧
      ∀ run, run <:+: quotedPrintableEncode (List.replicate 200 'a'.toUInt8) [10] true false →
        (∀ c ∈ run, c ≠ 13 ∧ c ≠ 10) → run.length ≤ 76 :=
  ⟨.inr rfl, (quotedPrintable_lines (List.replicate 200 'a'.toUInt8) true (.inr rfl)).1⟩

/-! ## Blanks at the end of a line -/

/-- The text goes on, with something other than a line ending or a soft break. A CR ends a line for
itself, with or without an LF behind it. -/
def GoesOn (t : Bytes) : Prop :=
  t ≠ [] ∧ (∀ c ∈ t.head?, endsLine c = false) ∧ ¬ softBreak crlf <+: t

/-- No blank and no tab stands bare at the end of a line: the text goes on behind each of them. -/
def SurvivesTransport (out : Bytes) : Prop := AfterEach (fun c => c = 32 ∨ c = 9) GoesOn out

/-- The column in which the text for some bytes ends. -/
def columnAfter (replaceCrlf : Bool) (column : Nat) (s : Bytes) : Nat :=
  s.foldl (nextColumn replaceCrlf) column

/-- The input goes on in this column, with a byte that neither ends the line nor has it broken. -/
def Continues (replaceCrlf : Bool) (column : Nat) (s : Bytes) : Prop :=
  ∃ c rest, s = c :: rest ∧ takenOver replaceCrlf c = false ∧
    brokenBefore replaceCrlf column c = false

/-- Behind each space of the input, the line goes on. -/
def SpacesContinue (replaceCrlf : Bool) (column : Nat) (s : Bytes) : Prop :=
  ∀ before after, s = before ++ 32 :: after →
    Continues replaceCrlf (columnAfter replaceCrlf column (before ++ [32])) after

theorem spacesContinue_cons {replaceCrlf : Bool} {column : Nat} {c : UInt8} {s : Bytes} :
    SpacesContinue replaceCrlf column (c :: s) ↔
      (c = 32 → Continues replaceCrlf (nextColumn replaceCrlf column c) s) ∧
        SpacesContinue replaceCrlf (nextColumn replaceCrlf column c) s := by
  constructor
  · intro h
    refine ⟨?_, fun before after heq => h (c :: before) after (congrArg (c :: ·) heq)⟩
    rintro rfl
    exact h [] s rfl
  · rintro ⟨hhead, htail⟩ before after heq
    cases before with
    | nil =>
      obtain ⟨rfl, rfl⟩ := List.cons.inj heq
      exact hhead rfl
    | cons d before =>
      obtain ⟨rfl, rfl⟩ := List.cons.inj heq
      exact htail before after rfl

/-- The encoder's text goes on exactly when the input does. -/
theorem goesOn_quotedPrintableLoop (replaceCrlf : Bool) (column : Nat) (s : Bytes) :
    GoesOn (quotedPrintableLoop crlf replaceCrlf false column s) ↔
      Continues replaceCrlf column s := by
  cases s with
  | nil => exact iff_of_false (fun h => h.1 rfl) fun ⟨_, _, h, _⟩ => nomatch h
  | cons c s =>
    have hcontinues : Continues replaceCrlf column (c :: s) ↔
        takenOver replaceCrlf c = false ∧ brokenBefore replaceCrlf column c = false := by
      constructor
      · rintro ⟨d, rest, heq, h⟩
        exact (List.cons.inj heq).1 ▸ h
      · exact fun h => ⟨c, s, rfl, h⟩
    rw [hcontinues, quotedPrintableLoop_cons]
    cases hbroken : brokenBefore replaceCrlf column c with
    | true =>
      refine iff_of_false (fun h => h.2.2 ?_) fun h => Bool.false_ne_true h.2.symm
      rw [if_pos rfl]
      exact List.prefix_append _ _
    | false =>
      rw [if_neg Bool.false_ne_true, List.nil_append]
      cases htak : takenOver replaceCrlf c with
      | true =>
        have hend : endsLine c = true := decide_eq_true (of_decide_eq_true htak).2.symm
        refine iff_of_false (fun h => ?_) fun h => Bool.false_ne_true h.1.symm
        rw [glyph_of_takenOver htak] at h
        exact Bool.false_ne_true ((h.2.1 c rfl).symm.trans hend)
      | false =>
        refine iff_of_true ?_ ⟨rfl, rfl⟩
        have hends := endsLine_glyph htak
        revert hends
        cases hlit : literal c with
        | true =>
          have hequals : c ≠ '='.toUInt8 := by
            rintro rfl
            exact absurd hlit (by decide)
          rw [glyph, hlit, Bool.true_or, if_pos rfl]
          intro hends
          refine ⟨List.cons_ne_nil _ _, fun d hd => ?_, fun h => ?_⟩
          · exact (Option.mem_some.mp hd) ▸ hends c (List.mem_singleton_self c)
          · exact hequals (List.cons_prefix_cons.mp h).1.symm
        | false =>
          have hhi := (upperHex_digits c).1
          rw [glyph_of_escaped hlit htak]
          intro hends
          refine ⟨List.cons_ne_nil _ _, fun d hd => ?_, fun h => ?_⟩
          · exact (Option.mem_some.mp hd) ▸ hends _ List.mem_cons_self
          · have hcr : 13 = upperDigit (c.toNat / 16) :=
              (List.cons_prefix_cons.mp (List.cons_prefix_cons.mp h).2).1
            rw [← hcr] at hhi
            exact absurd hhi (by decide)

/-- Only a space of the input is written as a blank. -/
theorem survivesTransport_turn (replaceCrlf : Bool) (column : Nat) (c : UInt8) (s : Bytes) :
    SurvivesTransport (quotedPrintableLoop crlf replaceCrlf false column (c :: s)) ↔
      (c = 32 → GoesOn (quotedPrintableLoop crlf replaceCrlf false
        (nextColumn replaceCrlf column c) s)) ∧
      SurvivesTransport (quotedPrintableLoop crlf replaceCrlf false
        (nextColumn replaceCrlf column c) s) := by
  have hbreak : ∀ x ∈ if brokenBefore replaceCrlf column c then softBreak crlf else [],
      ¬ (x = 32 ∨ x = 9) := by
    split
    · exact List.all_iff_forall_prop.mp (by decide)
    · exact nofun
  rw [SurvivesTransport, quotedPrintableLoop_cons, afterEach_append hbreak]
  by_cases hc : c = 32
  · subst hc
    have hglyph : glyph replaceCrlf 32 = [32] := rfl
    have hblank : ((32 : UInt8) = 32 ∨ (32 : UInt8) = 9) ↔ (32 : UInt8) = 32 :=
      iff_of_true (.inl rfl) rfl
    rw [hglyph, List.singleton_append, afterEach_cons, hblank]
    exact Iff.rfl
  · have hblank : ∀ x ∈ glyph replaceCrlf c, ¬ (x = 32 ∨ x = 9) := by
      rw [glyph]
      split
      · next hself =>
        rw [List.forall_mem_singleton, not_or]
        refine ⟨hc, ?_⟩
        rintro rfl
        rcases (Bool.or_eq_true _ _).mp hself with hlit | htak
        · exact absurd hlit (by decide)
        · exact absurd (of_decide_eq_true htak).2 (by decide)
      · intro x hx
        rcases List.mem_cons.mp hx with rfl | hhex
        · decide
        · rintro (rfl | rfl)
          · exact absurd (upperHex_of_mem_toUppercase hhex) (by decide)
          · exact absurd (upperHex_of_mem_toUppercase hhex) (by decide)
    rw [afterEach_append hblank]
    exact (and_iff_right fun heq => absurd heq hc).symm

theorem survivesTransport_loop_iff (replaceCrlf : Bool) (column : Nat) (s : Bytes) :
    SurvivesTransport (quotedPrintableLoop crlf replaceCrlf false column s) ↔
      SpacesContinue replaceCrlf column s := by
  induction s generalizing column with
  | nil =>
    refine iff_of_true afterEach_nil fun before after h => ?_
    exact absurd h.symm (List.append_ne_nil_of_right_ne_nil _ (List.cons_ne_nil _ _))
  | cons c s ih =>
    rw [survivesTransport_turn, spacesContinue_cons, goesOn_quotedPrintableLoop, ih]

/-- **No blank is left at the end of a line** exactly when no space of the input stands at its
end, before a line ending that is taken over, or where the encoder breaks the line. -/
theorem survivesTransport_iff (s : Bytes) (replaceCrlf : Bool) :
    SurvivesTransport (quotedPrintableEncode s crlf replaceCrlf false) ↔
      SpacesContinue replaceCrlf 0 s :=
  survivesTransport_loop_iff replaceCrlf 0 s

/-- The text `a ` is encoded as itself. -/
theorem not_survivesTransport_trailing :
    ¬ ∀ (s : Bytes) (replaceCrlf : Bool),
      SurvivesTransport (quotedPrintableEncode s crlf replaceCrlf false) := by
  intro h
  exact (h (bytes "a ") false 32 [] ⟨bytes "a", rfl⟩ (.inl rfl)).1 rfl

end Nawa.encoding
