import Nawa.Lib.Regex

/-!
# The successive matches of an expression

`pieces r` reads an input from left to right as the matches of `r` and the elements between them,
in the order in which a match iterator goes through them: the search goes on where the last match
has ended, and after a match of nothing a match of something is tried at the same place before an
element is passed over.

`tokens` is what a token iterator answers that is asked for the text before each match, the match
and all its groups: the texts in one sequence, and a last text only where it is not empty or the
only one. `render` puts a text back together with something in the place of each match.
-/

namespace Lib.Regex

variable {α ε : Type}

/-- An element between two matches, or a match. -/
inductive Piece (α : Type) where
  | skipped (x : α)
  | matched (w : List α) (groups : Captures α)

/-- The match of at least one element that begins where the input begins. -/
def matchSome (r : Regex α) (s : List α) : Option (List α × Captures α) :=
  r.run s (fun _ => none) fun s' c' => if s'.length = s.length then none else some (s', c')

/-- The pieces of an input, of which the first `n` elements belong to the match before. -/
def piecesFrom (r : Regex α) : Nat → List α → List (Piece α)
  | 0, [] =>
    match r.matchAt [] with
    | some (_, c) => [.matched [] c]
    | none => []
  | _ + 1, [] => []
  | n + 1, _ :: s => piecesFrom r n s
  | 0, x :: s =>
    match r.matchAt (x :: s) with
    | none => .skipped x :: piecesFrom r 0 s
    | some (s', c) =>
      if s'.length ≠ s.length + 1 then
        .matched ((x :: s).take (s.length + 1 - s'.length)) c ::
          piecesFrom r (s.length - s'.length) s
      else
        .matched [] c ::
          match r.matchSome (x :: s) with
          | none => .skipped x :: piecesFrom r 0 s
          | some (s', c) =>
            .matched ((x :: s).take (s.length + 1 - s'.length)) c ::
              piecesFrom r (s.length - s'.length) s

def pieces (r : Regex α) (s : List α) : List (Piece α) := piecesFrom r 0 s

/-- The number of groups. -/
def markCount : Regex α → Nat
  | .sat _ => 0
  | .seq r t => r.markCount + t.markCount
  | .alt r t => r.markCount + t.markCount
  | .rep _ _ _ r => r.markCount
  | .group _ r => r.markCount + 1

/-- The texts of the groups `1` to `marks`; a group that did not take part reads as empty. -/
def groupTexts (marks : Nat) (groups : Captures α) : List (List α) :=
  (List.range marks).map fun n => (groups (n + 1)).getD []

/-- The tokens of some pieces, `before` being what has been passed over since the last match. -/
def tokensFrom (marks : Nat) : List α → List (Piece α) → List (List α)
  | before, [] => if before = [] then [] else [before]
  | before, .skipped x :: ps => tokensFrom marks (before ++ [x]) ps
  | before, .matched w g :: ps => before :: w :: groupTexts marks g ++ tokensFrom marks [] ps

def tokens (r : Regex α) (s : List α) : List (List α) :=
  if s = [] ∧ (r.pieces s).isEmpty then [[]] else tokensFrom r.markCount [] (r.pieces s)

/-- The text in which each match is replaced. The first replacement that fails is the answer. -/
def render (fmt : List α → Captures α → Except ε (List α)) :
    List (Piece α) → Except ε (List α)
  | [] => .ok []
  | .skipped x :: ps => (render fmt ps).map (x :: ·)
  | .matched w g :: ps =>
    (fmt w g).bind fun v => (render fmt ps).map (v ++ ·)

/-! ## Pieces -/

section Pieces

variable {r : Regex α} {x : α} {s s' : List α} {c : Captures α}

/-- An element at which no match begins is passed over. -/
theorem pieces_cons_of_none (h : r.matchAt (x :: s) = none) :
    r.pieces (x :: s) = .skipped x :: r.pieces s := by
  rw [pieces, piecesFrom, h]
  rfl

theorem pieces_nil_of_none (h : r.matchAt [] = none) : r.pieces [] = [] := by
  rw [pieces, piecesFrom, h]

theorem piecesFrom_length (w : List α) : r.piecesFrom w.length (w ++ s) = r.pieces s := by
  induction w with
  | nil => rfl
  | cons y w ih => exact ih

/-- A match of something is one piece, and the search goes on behind it. -/
theorem pieces_append_of_matchAt {w : List α} (hne : w ≠ [])
    (h : r.matchAt (w ++ s) = some (s, c)) :
    r.pieces (w ++ s) = .matched w c :: r.pieces s := by
  cases w with
  | nil => exact absurd rfl hne
  | cons y w =>
    have hlong : s.length ≠ (w ++ s).length + 1 := by
      rw [List.length_append]
      omega
    have htake : (w ++ s).length + 1 - s.length = (y :: w).length := by
      rw [List.length_append, List.length_cons]
      omega
    have hskip : (w ++ s).length - s.length = w.length := by
      rw [List.length_append, Nat.add_sub_cancel]
    rw [List.cons_append] at h ⊢
    rw [pieces, piecesFrom, h]
    dsimp only
    rw [if_pos hlong, htake, hskip, piecesFrom_length, ← List.cons_append, List.take_left]

end Pieces

/-! ## Replacement -/

section Render

variable {fmt : List α → Captures α → Except ε (List α)}

@[simp] theorem render_nil : render fmt [] = .ok [] := rfl

@[simp] theorem render_skipped (x : α) (ps : List (Piece α)) :
    render fmt (.skipped x :: ps) = (render fmt ps).map (x :: ·) := rfl

theorem render_matched {w v : List α} {g : Captures α} (ps : List (Piece α))
    (h : fmt w g = .ok v) : render fmt (.matched w g :: ps) = (render fmt ps).map (v ++ ·) := by
  rw [render, h]
  rfl

/-! What is put in front of an answer can be put there at once. -/

theorem map_nil_append (x : Except ε (List α)) : x.map ([] ++ ·) = x := by cases x <;> rfl

theorem map_append_append (v w : List α) (x : Except ε (List α)) :
    (x.map (w ++ ·)).map (v ++ ·) = x.map (v ++ w ++ ·) := by
  cases x with
  | error e => rfl
  | ok u => exact congrArg Except.ok (List.append_assoc v w u).symm

theorem map_cons_append (y : α) (w : List α) (x : Except ε (List α)) :
    (x.map (w ++ ·)).map (y :: ·) = x.map (y :: w ++ ·) := map_append_append [y] w x

end Render

/-! ## Replacements that are shorter than the match -/

section Shorter

variable {r : Regex α} {fmt : List α → Captures α → Except ε (List α)}

/-- Each match takes something, and what replaces it is shorter. -/
def Shortens (r : Regex α) (fmt : List α → Captures α → Except ε (List α)) : Prop :=
  ∀ t s c, r.matchAt t = some (s, c) →
    ∃ w, w ≠ [] ∧ t = w ++ s ∧ ∀ v, fmt w c = .ok v → v.length < w.length

/-- At no place of the text a match begins. -/
def Unmatched (r : Regex α) (s : List α) : Prop := ∀ t, t <:+ s → r.matchAt t = none

theorem unmatched_cons {x : α} {s : List α} :
    Unmatched r (x :: s) ↔ r.matchAt (x :: s) = none ∧ Unmatched r s := by
  constructor
  · intro h
    exact ⟨h _ (List.suffix_refl _), fun t ht => h t (ht.trans (List.suffix_cons x s))⟩
  · intro h t ht
    rcases List.suffix_cons_iff.mp ht with rfl | ht
    · exact h.1
    · exact h.2 t ht

/-- What replaces the matches of a text is together no longer than the text, and shorter if the
text begins with a match. -/
theorem render_length (h : Shortens r fmt) {s out : List α}
    (hout : render fmt (r.pieces s) = .ok out) :
    out.length ≤ s.length ∧ (r.matchAt s ≠ none → out.length < s.length) := by
  induction hlen : s.length using Nat.strongRecOn generalizing s out with
  | _ n ih =>
    cases hmatch : r.matchAt s with
    | none =>
      refine ⟨?_, fun hsome => absurd rfl hsome⟩
      cases s with
      | nil =>
        rw [pieces_nil_of_none hmatch] at hout
        cases hout
        exact Nat.zero_le n
      | cons x s =>
        rw [pieces_cons_of_none hmatch, render_skipped] at hout
        cases hrest : render fmt (r.pieces s) with
        | error e => rw [hrest] at hout; cases hout
        | ok rest =>
          rw [hrest] at hout
          cases hout
          rw [List.length_cons] at hlen ⊢
          have hle := (ih s.length (by omega) hrest rfl).1
          omega
    | some m =>
      obtain ⟨w, hne, rfl, hshort⟩ := h s m.1 m.2 hmatch
      have hpos := List.length_pos_iff.mpr hne
      rw [pieces_append_of_matchAt hne hmatch, render] at hout
      cases hv : fmt w m.2 with
      | error e => rw [hv] at hout; cases hout
      | ok v =>
        rw [hv] at hout
        cases hrest : render fmt (r.pieces m.1) with
        | error e => rw [hrest] at hout; cases hout
        | ok rest =>
          rw [hrest] at hout
          cases hout
          have hlt := hshort v hv
          rw [List.length_append] at hlen
          have hle := (ih m.1.length (by omega) hrest rfl).1
          have hless : (v ++ rest).length < n := by
            rw [List.length_append]
            omega
          exact ⟨Nat.le_of_lt hless, fun _ => hless⟩

/-- **A text is left as it is exactly when there is nothing to replace.** -/
theorem render_eq_self_iff (h : Shortens r fmt) (s : List α) :
    render fmt (r.pieces s) = .ok s ↔ Unmatched r s := by
  have hself : ∀ t, r.matchAt t ≠ none → render fmt (r.pieces t) ≠ .ok t := fun t hsome hout =>
    Nat.lt_irrefl _ ((render_length h hout).2 hsome)
  induction s with
  | nil =>
    cases hmatch : r.matchAt [] with
    | none =>
      rw [pieces_nil_of_none hmatch]
      exact iff_of_true rfl fun t ht => List.suffix_nil.mp ht ▸ hmatch
    | some m =>
      have hsome : r.matchAt [] ≠ none := by rw [hmatch]; exact Option.some_ne_none m
      exact iff_of_false (hself [] hsome) fun hnone => hsome (hnone [] (List.suffix_refl []))
  | cons x s ih =>
    rw [unmatched_cons]
    cases hmatch : r.matchAt (x :: s) with
    | none =>
      rw [pieces_cons_of_none hmatch, render_skipped]
      apply Iff.trans _ ((and_iff_right rfl).trans ih.symm).symm
      cases render fmt (r.pieces s) with
      | error e => exact iff_of_false nofun nofun
      | ok rest => simp [Except.map]
    | some m =>
      refine iff_of_false (hself _ ?_) fun hnone => Option.some_ne_none m hnone.1
      rw [hmatch]
      exact Option.some_ne_none m

end Shorter

end Lib.Regex
