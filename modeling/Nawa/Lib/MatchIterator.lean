import Nawa.Lib.Tokens

/-!
# Match iterators

The iterators of the C++ standard over the matches of a regular expression. All that they know of
an expression is how it is searched for: a `Searcher` answers a search with a stretch of the text,
which is not empty and begins where the text begins if a flag says so. What may stand in an
expression is left open, and so is what it makes of the text before the place where a search begins.

`Searcher.iterate` goes through the successive matches as `regex_iterator` does, and
`Searcher.tokens` through the texts that a `regex_token_iterator` is asked for. The matches and
what lies between them are the whole text (`text_iterate`).

The backtracking matcher is one such expression. Its iterator goes through the matches among the
pieces of a text (`iterate_eq_hitsFrom`), and its token iterator through their tokens
(`tokens_searcher`).
-/

namespace Lib

variable {α : Type}

/-- The flags `match_not_null`, `match_continuous` and `match_prev_avail`. -/
structure SearchFlags where
  notNull : Bool := false
  continuous : Bool := false
  prevAvail : Bool := false

/-- A match in a text: what has been skipped, the match, what is left, and the groups. -/
structure Found (marks : Nat) (s : List α) where
  skipped : List α
  matched : List α
  after : List α
  text : skipped ++ matched ++ after = s
  groups : Fin marks → Option (List α)

/-- An expression, known by its searches of a text behind what has been passed over already. -/
structure Searcher (α : Type) where
  markCount : Nat
  search : List α → (s : List α) → SearchFlags → Option (Found markCount s)
  matched_ne_nil : ∀ {passed s flags m}, flags.notNull = true →
    search passed s flags = some m → m.matched ≠ []
  skipped_eq_nil : ∀ {passed s flags m}, flags.continuous = true →
    search passed s flags = some m → m.skipped = []

/-- One of the successive matches, with the text between it and the match before. -/
structure Hit (α : Type) (marks : Nat) where
  before : List α
  matched : List α
  groups : Fin marks → Option (List α)

namespace Found

variable {marks : Nat} {s : List α}

/-- A match that is found one element later. -/
def cons (x : α) (m : Found marks s) : Found marks (x :: s) where
  skipped := x :: m.skipped
  matched := m.matched
  after := m.after
  text := congrArg (x :: ·) m.text
  groups := m.groups

def hit (m : Found marks s) : Hit α marks := ⟨m.skipped, m.matched, m.groups⟩

/-- A bound of what is left: an empty match leaves less than any other that ends where it ends. -/
def weight (m : Found marks s) : Nat := 2 * m.after.length + if m.matched.isEmpty then 0 else 1

theorem weight_le (m : Found marks s) : m.weight ≤ 2 * s.length := by
  have hlen := congrArg List.length m.text
  rw [List.length_append, List.length_append] at hlen
  rw [weight]
  cases hmatched : m.matched with
  | nil =>
    rw [List.isEmpty_nil, if_pos rfl]
    omega
  | cons x w =>
    rw [hmatched, List.length_cons] at hlen
    rw [List.isEmpty_cons, if_neg Bool.false_ne_true]
    omega

theorem weight_lt {m : Found marks s} (h : m.matched ≠ []) : m.weight < 2 * s.length := by
  have hlen := congrArg List.length m.text
  rw [List.length_append, List.length_append] at hlen
  have hpos := List.length_pos_iff.mpr h
  rw [weight]
  split <;> omega

end Found

namespace Searcher

variable (e : Searcher α)

/-! ## The iterators -/

/-- `regex_iterator::operator++`, with the flag that it keeps: after an empty match a match of
something is tried at the same place before an element is passed over. -/
def next (passed s : List α) (wasEmpty prevAvail : Bool) : Option (Found e.markCount s × Bool) :=
  if wasEmpty then
    match s with
    | [] => none
    | x :: s =>
      match e.search passed (x :: s)
          { notNull := true, continuous := true, prevAvail := prevAvail } with
      | some m => some (m, prevAvail)
      | none =>
        (e.search (passed ++ [x]) s { prevAvail := true }).map fun m => (m.cons x, true)
  else (e.search passed s { prevAvail := true }).map fun m => (m, true)

/-- The next match leaves less. -/
theorem weight_next {passed s : List α} {wasEmpty prevAvail prevAvail' : Bool}
    {m : Found e.markCount s} (h : e.next passed s wasEmpty prevAvail = some (m, prevAvail')) :
    m.weight < 2 * s.length + if wasEmpty then 0 else 1 := by
  unfold next at h
  cases wasEmpty with
  | false =>
    obtain ⟨m, -, heq⟩ := Option.map_eq_some_iff.mp h
    cases heq
    exact Nat.lt_succ_of_le m.weight_le
  | true =>
    rw [if_pos rfl] at h
    cases s with
    | nil => cases h
    | cons x s =>
      dsimp only at h
      split at h
      · next hsearch =>
        cases h
        exact Found.weight_lt (e.matched_ne_nil rfl hsearch)
      · obtain ⟨m, -, heq⟩ := Option.map_eq_some_iff.mp h
        cases heq
        have hle := m.weight_le
        change m.weight < 2 * (x :: s).length
        rw [List.length_cons]
        omega

/-- The matches from one on, and what is left after the last one. -/
def walk (passed : List α) {s : List α} (m : Found e.markCount s) (prevAvail : Bool) :
    List (Hit α e.markCount) × List α :=
  match _h : e.next (passed ++ m.skipped ++ m.matched) m.after m.matched.isEmpty prevAvail with
  | none => ([m.hit], m.after)
  | some (m', prevAvail') =>
    let rest := walk (passed ++ m.skipped ++ m.matched) m' prevAvail'
    (m.hit :: rest.1, rest.2)
termination_by m.weight
decreasing_by exact e.weight_next _h

/-- The successive matches, and what is left after the last one. -/
def iterate (s : List α) : List (Hit α e.markCount) × List α :=
  match e.search [] s {} with
  | none => ([], s)
  | some m => e.walk [] m false

end Searcher

namespace Hit

variable {marks : Nat}

/-- The texts of a match and of its groups, in order. A group that took no part has none. -/
def texts (h : Hit α marks) : List (List α) :=
  h.matched :: List.ofFn fun n => (h.groups n).getD []

/-- What a token iterator answers for one of the numbers that it has been given. -/
def sub (h : Hit α marks) (n : Int) : List α := if n < 0 then h.before else h.texts.getD n.toNat []

theorem length_texts (h : Hit α marks) : h.texts.length = marks + 1 := by
  rw [texts, List.length_cons, List.length_ofFn]

end Hit

namespace Searcher

variable (e : Searcher α)

/-- The texts that a `regex_token_iterator` goes through for a list of numbers, of which -1 asks
for the text before a match. The text behind the last match comes only if it is not empty, or if
there is no match at all. -/
def tokens (submatches : List Int) (s : List α) : List (List α) :=
  let (hits, rest) := e.iterate s
  if hits.isEmpty then if -1 ∈ submatches then [rest] else []
  else hits.flatMap (fun h => submatches.map h.sub) ++
    if -1 ∈ submatches ∧ rest ≠ [] then [rest] else []

/-- The tokens of an iterator that is asked for everything: the text before each match, the match
and its groups. -/
theorem tokens_all {submatches : List Int} (hbefore : -1 ∈ submatches)
    (hsub : ∀ h : Hit α e.markCount, submatches.map h.sub = h.before :: h.texts) (s : List α) :
    e.tokens submatches s =
      if (e.iterate s).1 = [] then [(e.iterate s).2]
      else ((e.iterate s).1.flatMap fun h => h.before :: h.texts) ++
        if (e.iterate s).2 = [] then [] else [(e.iterate s).2] := by
  simp only [tokens, List.isEmpty_iff, hbefore, if_true, true_and, hsub, ne_eq, ite_not]

/-! ## The text -/

theorem text_walk (passed : List α) {s : List α} (m : Found e.markCount s) (prevAvail : Bool) :
    ((e.walk passed m prevAvail).1.flatMap fun h => h.before ++ h.matched) ++
      (e.walk passed m prevAvail).2 = s := by
  fun_induction walk e passed m prevAvail with
  | case1 passed s m prevAvail hnext =>
    rw [List.flatMap_cons, List.flatMap_nil, List.append_nil]
    exact m.text
  | case2 passed s m prevAvail m' prevAvail' hnext rest ih =>
    rw [List.flatMap_cons, List.append_assoc, ih]
    exact m.text

/-- The matches and the texts between them make up the text. -/
theorem text_iterate (s : List α) :
    ((e.iterate s).1.flatMap fun h => h.before ++ h.matched) ++ (e.iterate s).2 = s := by
  rw [iterate]
  split
  · rfl
  · exact e.text_walk [] _ false

end Searcher

/-! ## The backtracking matcher as a searcher -/

namespace Regex

variable (r : Regex α)

/-- A match that begins where the text begins, of something if it is asked for. -/
def matchHere (notNull : Bool) (s : List α) : Option (List α × Captures α) :=
  if notNull then r.matchSome s else r.matchAt s

theorem matchHere_suffix {notNull : Bool} {s s' : List α} {c : Captures α}
    (h : r.matchHere notNull s = some (s', c)) :
    s' <:+ s ∧ (notNull = true → s'.length ≠ s.length) := by
  rw [matchHere] at h
  cases notNull with
  | false =>
    obtain ⟨t, d, heq, hsuffix, -⟩ := run_reaches r h
    cases heq
    exact ⟨hsuffix, fun hfalse => absurd hfalse Bool.false_ne_true⟩
  | true =>
    obtain ⟨t, d, heq, hsuffix, -⟩ := run_reaches r h
    dsimp only at heq
    split at heq
    · cases heq
    · next hlen =>
      cases heq
      exact ⟨hsuffix, fun _ => hlen⟩

def foundAt (notNull : Bool) (s : List α) : Option (Found r.markCount s) :=
  match h : r.matchHere notNull s with
  | none => none
  | some (s', c) =>
    some
      { skipped := []
        matched := s.take (s.length - s'.length)
        after := s'
        text := List.suffix_iff_eq_append.mp (r.matchHere_suffix h).1
        groups := fun n => c (n + 1) }

/-- The leftmost match. -/
def leftmost (notNull : Bool) : (s : List α) → Option (Found r.markCount s)
  | [] => r.foundAt notNull []
  | x :: s =>
    match r.foundAt notNull (x :: s) with
    | some m => some m
    | none => (leftmost notNull s).map (Found.cons x)

theorem foundAt_spec {notNull : Bool} {s : List α} {m : Found r.markCount s}
    (h : r.foundAt notNull s = some m) :
    m.skipped = [] ∧ (notNull = true → m.matched ≠ []) ∧
      ∃ c, r.matchHere notNull s = some (m.after, c) ∧ ∀ n, m.groups n = c (n + 1) := by
  rw [foundAt] at h
  split at h
  · cases h
  · next s' c hmatch =>
    obtain ⟨hsuffix, hlen⟩ := r.matchHere_suffix hmatch
    cases h
    refine ⟨rfl, fun hnotNull hnil => hlen hnotNull ?_, c, hmatch, fun _ => rfl⟩
    have htext := List.suffix_iff_eq_append.mp hsuffix
    dsimp only at hnil
    rw [hnil, List.nil_append] at htext
    rw [htext]

theorem foundAt_eq_none {notNull : Bool} {s : List α} (h : r.foundAt notNull s = none) :
    r.matchHere notNull s = none := by
  rw [foundAt] at h
  split at h
  · next hmatch => exact hmatch
  · cases h

theorem leftmost_matched_ne_nil {s : List α} {m : Found r.markCount s}
    (h : r.leftmost true s = some m) : m.matched ≠ [] := by
  induction s with
  | nil => exact (r.foundAt_spec h).2.1 rfl
  | cons x s ih =>
    rw [leftmost] at h
    split at h
    · next hfound =>
      cases h
      exact (r.foundAt_spec hfound).2.1 rfl
    · obtain ⟨m, hm, rfl⟩ := Option.map_eq_some_iff.mp h
      exact ih hm

/-- The searches of an expression, which what has been passed over already does not change. -/
def searcher : Searcher α where
  markCount := r.markCount
  search _ s flags :=
    if flags.continuous then r.foundAt flags.notNull s else r.leftmost flags.notNull s
  matched_ne_nil := by
    intro passed s flags m hflag h
    rw [hflag] at h
    split at h
    · exact (r.foundAt_spec h).2.1 rfl
    · exact r.leftmost_matched_ne_nil h
  skipped_eq_nil := by
    intro passed s flags m hflag h
    rw [if_pos hflag] at h
    exact (r.foundAt_spec h).1

/-! ### Its hits are the pieces -/

/-- The pieces behind a match, which may have been empty. -/
def piecesAfter (wasEmpty : Bool) (s : List α) : List (Piece α) :=
  if wasEmpty then
    match s with
    | [] => []
    | x :: s =>
      match r.matchSome (x :: s) with
      | none => .skipped x :: r.pieces s
      | some (s', c) => .matched ((x :: s).take (s.length + 1 - s'.length)) c :: r.pieces s'
  else r.pieces s

/-- The pieces of a match that has been found, and of what follows it. -/
def Shows (ps : List (Piece α)) {s : List α} (m : Found r.markCount s) : Prop :=
  ∃ c, (∀ n, m.groups n = c (n + 1)) ∧
    ps = m.skipped.map .skipped ++
      .matched m.matched c :: r.piecesAfter m.matched.isEmpty m.after

variable {r}

theorem Shows.cons {ps : List (Piece α)} {s : List α} {m : Found r.markCount s}
    (h : r.Shows ps m) (x : α) : r.Shows (.skipped x :: ps) (m.cons x) := by
  obtain ⟨c, hgroups, hps⟩ := h
  exact ⟨c, hgroups, congrArg (.skipped x :: ·) hps⟩

/-- A match that begins where the text begins shows in the pieces as the first of them. -/
theorem shows_of_skipped_nil {s : List α} {m : Found r.markCount s} {c : Captures α}
    {ps : List (Piece α)} (hskip : m.skipped = []) (hgroups : ∀ n, m.groups n = c (n + 1))
    (hps : ps = .matched m.matched c :: r.piecesAfter m.matched.isEmpty m.after) :
    r.Shows ps m := by
  refine ⟨c, hgroups, ?_⟩
  rw [hskip, hps]
  rfl

theorem piecesFrom_suffix {s' s : List α} {x : α} (h : s' <:+ x :: s)
    (hlen : s'.length ≠ (x :: s).length) : r.piecesFrom (s.length - s'.length) s = r.pieces s' := by
  have hsuffix : s' <:+ s := (List.suffix_cons_iff.mp h).resolve_left fun heq =>
    hlen (congrArg List.length heq)
  obtain ⟨w, rfl⟩ := hsuffix
  rw [List.length_append, Nat.add_sub_cancel, piecesFrom_length]

theorem pieces_of_empty {s : List α} {c : Captures α} (h : r.matchAt s = some (s, c)) :
    r.pieces s = .matched [] c :: r.piecesAfter true s := by
  cases s with
  | nil =>
    rw [pieces, piecesFrom, h]
    rfl
  | cons x s =>
    rw [pieces, piecesFrom, h]
    dsimp only
    rw [List.length_cons, if_neg (not_not.mpr rfl), piecesAfter, if_pos rfl]
    congr 1
    cases hsome : r.matchSome (x :: s) with
    | none => rfl
    | some m =>
      have hhere : r.matchHere true (x :: s) = some m := hsome
      obtain ⟨hsuffix, hlen⟩ := r.matchHere_suffix hhere
      exact congrArg (List.cons _) (piecesFrom_suffix hsuffix (hlen rfl))

theorem pieces_of_matchAt {w s : List α} {c : Captures α}
    (h : r.matchAt (w ++ s) = some (s, c)) :
    r.pieces (w ++ s) = .matched w c :: r.piecesAfter w.isEmpty s := by
  cases w with
  | nil => exact pieces_of_empty h
  | cons x w => exact pieces_append_of_matchAt (List.cons_ne_nil x w) h

theorem piecesAfter_of_matchSome {w s : List α} {c : Captures α} (hne : w ≠ [])
    (h : r.matchSome (w ++ s) = some (s, c)) :
    r.piecesAfter true (w ++ s) = .matched w c :: r.piecesAfter w.isEmpty s := by
  cases w with
  | nil => exact absurd rfl hne
  | cons x w =>
    have htake := take_sub_length (w := x :: w) (s := s)
    rw [List.cons_append] at h htake ⊢
    rw [List.length_cons] at htake
    rw [piecesAfter, if_pos rfl, h]
    dsimp only
    rw [htake]
    rfl

theorem piecesAfter_of_none {x : α} {s : List α} (h : r.matchSome (x :: s) = none) :
    r.piecesAfter true (x :: s) = .skipped x :: r.pieces s := by
  rw [piecesAfter, if_pos rfl, h]

theorem shows_of_foundAt {s : List α} {m : Found r.markCount s}
    (h : r.foundAt false s = some m) : r.Shows (r.pieces s) m := by
  obtain ⟨hskip, -, c, hmatch, hgroups⟩ := r.foundAt_spec h
  have htext := m.text
  rw [hskip, List.nil_append] at htext
  have hat : r.matchAt (m.matched ++ m.after) = some (m.after, c) := htext.symm ▸ hmatch
  apply shows_of_skipped_nil hskip hgroups
  exact (congrArg r.pieces htext.symm).trans (pieces_of_matchAt hat)

/-- A match of something at the place of an empty one. -/
theorem shows_of_foundAt_notNull {s : List α} {m : Found r.markCount s}
    (h : r.foundAt true s = some m) : r.Shows (r.piecesAfter true s) m := by
  obtain ⟨hskip, hne, c, hmatch, hgroups⟩ := r.foundAt_spec h
  have htext := m.text
  rw [hskip, List.nil_append] at htext
  have hsome : r.matchSome (m.matched ++ m.after) = some (m.after, c) := htext.symm ▸ hmatch
  apply shows_of_skipped_nil hskip hgroups
  exact (congrArg (r.piecesAfter true) htext.symm).trans (piecesAfter_of_matchSome (hne rfl) hsome)

theorem shows_of_leftmost {s : List α} {m : Found r.markCount s}
    (h : r.leftmost false s = some m) : r.Shows (r.pieces s) m := by
  induction s with
  | nil => exact shows_of_foundAt h
  | cons x s ih =>
    rw [leftmost] at h
    split at h
    · next hfound =>
      cases h
      exact shows_of_foundAt hfound
    · next hnone =>
      obtain ⟨m, hm, rfl⟩ := Option.map_eq_some_iff.mp h
      rw [pieces_cons_of_none (r.foundAt_eq_none hnone)]
      exact (ih hm).cons x

theorem pieces_of_leftmost {s : List α} (h : r.leftmost false s = none) :
    r.pieces s = s.map .skipped := by
  induction s with
  | nil => exact pieces_nil_of_none (r.foundAt_eq_none h)
  | cons x s ih =>
    rw [leftmost] at h
    split at h
    · cases h
    · next hnone =>
      rw [pieces_cons_of_none (r.foundAt_eq_none hnone), ih (Option.map_eq_none_iff.mp h)]
      rfl

/-- What the iterator finds next shows in the pieces that are left. -/
theorem shows_of_next {passed s : List α} {wasEmpty prevAvail prevAvail' : Bool}
    {m : Found r.markCount s}
    (h : r.searcher.next passed s wasEmpty prevAvail = some (m, prevAvail')) :
    r.Shows (r.piecesAfter wasEmpty s) m := by
  unfold Searcher.next at h
  cases wasEmpty with
  | false =>
    obtain ⟨m, hm, heq⟩ := Option.map_eq_some_iff.mp h
    cases heq
    exact shows_of_leftmost hm
  | true =>
    rw [if_pos rfl] at h
    cases s with
    | nil => cases h
    | cons x s =>
      dsimp only at h
      split at h
      · next hsearch =>
        cases h
        exact shows_of_foundAt_notNull hsearch
      · next hsearch =>
        obtain ⟨m, hm, heq⟩ := Option.map_eq_some_iff.mp h
        cases heq
        rw [piecesAfter_of_none (r.foundAt_eq_none hsearch)]
        exact (shows_of_leftmost hm).cons x

theorem piecesAfter_of_next {passed s : List α} {wasEmpty prevAvail : Bool}
    (h : r.searcher.next passed s wasEmpty prevAvail = none) :
    r.piecesAfter wasEmpty s = s.map .skipped := by
  unfold Searcher.next at h
  cases wasEmpty with
  | false => exact pieces_of_leftmost (Option.map_eq_none_iff.mp h)
  | true =>
    rw [if_pos rfl] at h
    cases s with
    | nil => rfl
    | cons x s =>
      dsimp only at h
      split at h
      · cases h
      · next hsearch =>
        rw [piecesAfter_of_none (r.foundAt_eq_none hsearch),
          pieces_of_leftmost (Option.map_eq_none_iff.mp h)]
        rfl

/-- The hits of some pieces, `before` being what has been passed over since the last match. -/
def hitsFrom (marks : Nat) : List α → List (Piece α) → List (Hit α marks) × List α
  | before, [] => ([], before)
  | before, .skipped x :: ps => hitsFrom marks (before ++ [x]) ps
  | before, .matched w g :: ps =>
    let rest := hitsFrom marks [] ps
    (⟨before, w, fun n => g (n + 1)⟩ :: rest.1, rest.2)

theorem hitsFrom_map_skipped (marks : Nat) (before l : List α) (ps : List (Piece α)) :
    hitsFrom marks before (l.map .skipped ++ ps) = hitsFrom marks (before ++ l) ps := by
  induction l generalizing before with
  | nil => rw [List.map_nil, List.nil_append, List.append_nil]
  | cons x l ih => rw [List.map_cons, List.cons_append, hitsFrom, ih, List.append_assoc,
      List.singleton_append]

theorem hitsFrom_skipped (marks : Nat) (l : List α) :
    hitsFrom marks [] (l.map .skipped) = ([], l) := by
  rw [← List.append_nil (l.map Piece.skipped), hitsFrom_map_skipped, List.nil_append, hitsFrom]

theorem Shows.hitsFrom_eq {ps : List (Piece α)} {s : List α} {m : Found r.markCount s}
    (h : r.Shows ps m) :
    hitsFrom r.markCount [] ps =
      (m.hit :: (hitsFrom r.markCount [] (r.piecesAfter m.matched.isEmpty m.after)).1,
        (hitsFrom r.markCount [] (r.piecesAfter m.matched.isEmpty m.after)).2) := by
  obtain ⟨c, hgroups, rfl⟩ := h
  have hhit : m.hit = ⟨m.skipped, m.matched, fun n => c (n + 1)⟩ :=
    congrArg (Hit.mk m.skipped m.matched) (funext hgroups)
  rw [hitsFrom_map_skipped, List.nil_append, hitsFrom, hhit]

theorem walk_eq_hitsFrom (passed : List α) {s : List α} (m : Found r.markCount s)
    (prevAvail : Bool) : ∀ {ps : List (Piece α)}, r.Shows ps m →
      r.searcher.walk passed m prevAvail = hitsFrom r.markCount [] ps := by
  fun_induction Searcher.walk r.searcher passed m prevAvail with
  | case1 passed s m prevAvail hnext =>
    intro ps h
    rw [h.hitsFrom_eq, piecesAfter_of_next hnext, hitsFrom_skipped]
    rfl
  | case2 passed s m prevAvail m' prevAvail' hnext rest =>
    rename_i ih
    intro ps h
    rw [h.hitsFrom_eq, ← ih (shows_of_next hnext)]
    rfl

/-- **The iterator goes through the matches among the pieces.** -/
theorem iterate_eq_hitsFrom (r : Regex α) (s : List α) :
    r.searcher.iterate s = hitsFrom r.markCount [] (r.pieces s) := by
  have hsearch : r.searcher.search [] s {} = r.leftmost false s := rfl
  rw [Searcher.iterate, hsearch]
  split
  · next hnone =>
    rw [pieces_of_leftmost hnone, hitsFrom_skipped]
    rfl
  · next hfound => exact walk_eq_hitsFrom [] _ false (shows_of_leftmost hfound)

theorem tokensFrom_eq (marks : Nat) (before : List α) (ps : List (Piece α)) :
    tokensFrom marks before ps =
      ((hitsFrom marks before ps).1.flatMap fun h => h.before :: h.texts) ++
        if (hitsFrom marks before ps).2 = [] then [] else [(hitsFrom marks before ps).2] := by
  induction ps generalizing before with
  | nil => rfl
  | cons p ps ih =>
    cases p with
    | skipped x => exact ih (before ++ [x])
    | matched w g =>
      have htexts : groupTexts marks g = List.ofFn fun n : Fin marks => (g (n + 1)).getD [] := by
        apply List.ext_getElem
        · rw [groupTexts, List.length_map, List.length_range, List.length_ofFn]
        · intro n hn hn'
          rw [List.getElem_ofFn]
          simp only [groupTexts, List.getElem_map, List.getElem_range]
      rw [tokensFrom, ih, htexts, hitsFrom, List.flatMap_cons, Hit.texts, List.append_assoc]

/-- **A token iterator that is asked for everything goes through the tokens.** -/
theorem tokens_searcher (r : Regex α) {submatches : List Int} (hbefore : -1 ∈ submatches)
    (hsub : ∀ h : Hit α r.markCount, submatches.map h.sub = h.before :: h.texts) (s : List α) :
    r.searcher.tokens submatches s = r.tokens s := by
  have hall : r.searcher.tokens submatches s =
      if (hitsFrom r.markCount [] (r.pieces s)).1 = [] then
        [(hitsFrom r.markCount [] (r.pieces s)).2]
      else tokensFrom r.markCount [] (r.pieces s) := by
    rw [r.searcher.tokens_all hbefore hsub, iterate_eq_hitsFrom, tokensFrom_eq]
    rfl
  rw [hall, tokens]
  cases hfound : r.leftmost false s with
  | none =>
    have htokens := tokensFrom_eq r.markCount [] (r.pieces s)
    rw [pieces_of_leftmost hfound, hitsFrom_skipped] at htokens ⊢
    rw [htokens]
    cases s <;> simp
  | some m =>
    obtain ⟨c, -, hps⟩ := shows_of_leftmost hfound
    have hhits : (hitsFrom r.markCount [] (r.pieces s)).1 ≠ [] := by
      rw [(shows_of_leftmost hfound).hitsFrom_eq]
      exact List.cons_ne_nil _ _
    have hpieces : (r.pieces s).isEmpty = false := by
      rw [hps]
      simp
    rw [if_neg hhits, hpieces, if_neg (by simp)]

end Regex

end Lib
