import Nawa.Lib.Tokens

/-!
# Expressions whose matches begin with a mark

Where each match begins with the mark and holds no other one, the text before a mark has no part
in what is matched behind it: the pieces of an input can be cut there (`Marked.pieces_cut`).
-/

namespace Lib.Regex

variable {α ε : Type}

/-- The matches of an expression are the texts of `key`, and each is found wherever it stands. -/
structure Marked (r : Regex α) (mark : α) (key : List α → Captures α → Prop) : Prop where
  begins : ∀ {w g}, key w g → ∃ tail, w = mark :: tail ∧ mark ∉ tail
  found : ∀ {w g}, key w g → ∀ s, r.matchAt (w ++ s) = some (s, g)
  only : ∀ {t s g}, r.matchAt t = some (s, g) → ∃ w, key w g ∧ t = w ++ s

namespace Marked

variable {r : Regex α} {mark : α} {key : List α → Captures α → Prop}

theorem ne_nil (h : Marked r mark key) {w : List α} {g : Captures α} (hkey : key w g) :
    w ≠ [] := by
  obtain ⟨tail, rfl, -⟩ := h.begins hkey
  exact List.cons_ne_nil mark tail

theorem matchAt_nil (h : Marked r mark key) : r.matchAt [] = none := by
  cases hmatch : r.matchAt [] with
  | none => rfl
  | some m =>
    obtain ⟨w, hkey, hw⟩ := h.only (s := m.1) (g := m.2) hmatch
    exact absurd (List.append_eq_nil_iff.mp hw.symm).1 (h.ne_nil hkey)

theorem matchAt_cons_of_ne (h : Marked r mark key) {x : α} (hx : x ≠ mark) (s : List α) :
    r.matchAt (x :: s) = none := by
  cases hmatch : r.matchAt (x :: s) with
  | none => rfl
  | some m =>
    obtain ⟨w, hkey, hw⟩ := h.only (s := m.1) (g := m.2) hmatch
    obtain ⟨tail, rfl, -⟩ := h.begins hkey
    exact absurd (List.cons.inj hw).1 hx

/-- An input is empty, or begins with an element that is passed over, or with a match. -/
theorem induction (h : Marked r mark key) {motive : List α → Prop} (nil : motive [])
    (skip : ∀ x s, r.matchAt (x :: s) = none → motive s → motive (x :: s))
    (hit : ∀ w g s, key w g → motive s → motive (w ++ s)) (s : List α) : motive s := by
  induction hlen : s.length using Nat.strongRecOn generalizing s with
  | ind n ih =>
    subst hlen
    cases s with
    | nil => exact nil
    | cons x s =>
      cases hmatch : r.matchAt (x :: s) with
      | none => exact skip x s hmatch (ih s.length (Nat.lt_succ_self _) s rfl)
      | some m =>
        obtain ⟨w, hkey, hw⟩ := h.only (s := m.1) (g := m.2) hmatch
        have hpos : 0 < w.length := List.length_pos_iff.mpr (h.ne_nil hkey)
        rw [hw] at ih ⊢
        refine hit w m.2 m.1 hkey (ih m.1.length ?_ m.1 rfl)
        rw [List.length_append]
        exact Nat.lt_add_of_pos_left hpos

/-! ## Pieces -/

theorem pieces_nil (h : Marked r mark key) : r.pieces [] = [] := pieces_nil_of_none h.matchAt_nil

theorem pieces_key (h : Marked r mark key) {w : List α} {g : Captures α} (hkey : key w g)
    (s : List α) : r.pieces (w ++ s) = .matched w g :: r.pieces s :=
  pieces_append_of_matchAt (h.ne_nil hkey) (h.found hkey s)

theorem pieces_unmarked (h : Marked r mark key) {w : List α} (hw : mark ∉ w) (s : List α) :
    r.pieces (w ++ s) = w.map .skipped ++ r.pieces s := by
  induction w with
  | nil => rfl
  | cons x w ih =>
    rw [List.mem_cons, not_or] at hw
    rw [List.cons_append, pieces_cons_of_none (h.matchAt_cons_of_ne (Ne.symm hw.1) _), ih hw.2]
    rfl

/-- Where no match begins, none begins with what follows a mark further on. -/
theorem matchAt_cut (h : Marked r mark key) {x : α} {s : List α}
    (hnone : r.matchAt (x :: s) = none) (t : List α) :
    r.matchAt (x :: (s ++ mark :: t)) = none := by
  cases hmatch : r.matchAt (x :: (s ++ mark :: t)) with
  | none => rfl
  | some m =>
    obtain ⟨w, hkey, hw⟩ := h.only (s := m.1) (g := m.2) hmatch
    obtain ⟨tail, rfl, htail⟩ := h.begins hkey
    obtain ⟨rfl, hrest⟩ := List.cons.inj hw
    rcases List.append_eq_append_iff.mp hrest with ⟨u, rfl, hu⟩ | ⟨u, rfl, -⟩
    · -- the match would go beyond the mark, and hold it
      cases u with
      | nil =>
        rw [List.append_nil] at hkey
        have hmatch := h.found hkey []
        rw [List.append_nil, hnone] at hmatch
        cases hmatch
      | cons y u =>
        obtain ⟨rfl, -⟩ := List.cons.inj hu
        exact absurd (List.mem_append_right s List.mem_cons_self) htail
    · have hmatch := h.found hkey u
      rw [List.cons_append, hnone] at hmatch
      cases hmatch

theorem pieces_cut (h : Marked r mark key) (s t : List α) :
    r.pieces (s ++ mark :: t) = r.pieces s ++ r.pieces (mark :: t) := by
  induction s using h.induction with
  | nil => rw [h.pieces_nil, List.nil_append, List.nil_append]
  | skip x s hnone ih =>
    rw [List.cons_append, pieces_cons_of_none (h.matchAt_cut hnone t), pieces_cons_of_none hnone,
      ih, List.cons_append]
  | hit w g s hkey ih =>
    rw [List.append_assoc, h.pieces_key hkey, h.pieces_key hkey, ih, List.cons_append]

/-- A match is a piece wherever it stands. -/
theorem pieces_append_key (h : Marked r mark key) {w : List α} {g : Captures α} (hkey : key w g)
    (s t : List α) : r.pieces (s ++ (w ++ t)) = r.pieces s ++ .matched w g :: r.pieces t := by
  rw [← h.pieces_key hkey]
  obtain ⟨tail, rfl, -⟩ := h.begins hkey
  exact h.pieces_cut s (tail ++ t)

end Marked

/-! ## Replacement -/

variable {fmt : List α → Captures α → Except ε (List α)}

theorem render_append (ps qs : List (Piece α)) :
    render fmt (ps ++ qs) = (render fmt ps).bind fun v => (render fmt qs).map (v ++ ·) := by
  induction ps with
  | nil =>
    rw [List.nil_append, render_nil, Except.bind, map_nil_append]
  | cons p ps ih =>
    cases p with
    | skipped x =>
      rw [List.cons_append, render_skipped, render_skipped, ih]
      cases render fmt ps <;> cases render fmt qs <;> rfl
    | matched w g =>
      rw [List.cons_append, render, render, ih]
      cases fmt w g with
      | error e => rfl
      | ok v =>
        cases render fmt ps with
        | error e => rfl
        | ok a =>
          cases render fmt qs with
          | error e => rfl
          | ok b => exact congrArg Except.ok (List.append_assoc v a b).symm

/-- Elements between two matches are put in front. -/
theorem render_skipped_append (w : List α) (ps : List (Piece α)) :
    render fmt (w.map .skipped ++ ps) = (render fmt ps).map (w ++ ·) := by
  induction w with
  | nil =>
    rw [List.map_nil, List.nil_append, map_nil_append]
  | cons x w ih =>
    rw [List.map_cons, List.cons_append, render_skipped, ih, map_cons_append]

end Lib.Regex
