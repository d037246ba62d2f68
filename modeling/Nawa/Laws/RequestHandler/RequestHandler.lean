import Nawa.RequestHandler.RequestHandler

/-!
# The handler under its mutex

What the operations on a guarded handler ask for and what they do, and what a call of
`handleRequest` invokes.
-/

namespace Nawa

variable {F L C Fn V : Type}

namespace Guarded

variable {g g' : Guarded F L C}

theorem lock_eq_some {r : Reconfiguration F L C} :
    g.lock r = some g' ↔ g.writer = none ∧ g' = { g with writer := some r.assignments } := by
  unfold lock
  split
  · next hwriter => rw [Option.some.injEq, eq_comm, and_iff_right hwriter]
  · next hwriter => simp only [hwriter, reduceCtorEq, false_and]

theorem assign_eq_some {member : Member} :
    g.assign member = some g' ↔ ∃ a pending, g.writer = some (a :: pending) ∧
      a.member = member ∧ g' = ⟨g.handler.assign a, some pending⟩ := by
  unfold assign
  split
  · next a pending hwriter =>
    constructor
    · intro h
      split at h
      · next hmember => exact ⟨a, pending, hwriter, hmember, (Option.some.inj h).symm⟩
      · cases h
    · rintro ⟨a', pending', hwriter', hmember, rfl⟩
      cases hwriter.symm.trans hwriter'
      rw [if_pos hmember]
  · next hwriter =>
    refine iff_of_false nofun ?_
    rintro ⟨a, pending, hwriter', -⟩
    exact hwriter a pending hwriter'

theorem unlock_eq_some :
    g.unlock = some g' ↔ g.writer = some [] ∧ g' = { g with writer := none } := by
  unfold unlock
  split
  · next hwriter => rw [Option.some.injEq, eq_comm, and_iff_right hwriter]
  · next hwriter => exact iff_of_false nofun fun h => hwriter h.1

theorem snapshot_eq_some {copies : F × Option L} :
    g.snapshot = some copies ↔ g.writer = none ∧
      copies = (g.handler.handleRequestFunction, g.handler.accessFilters) := by
  unfold snapshot
  split
  · next hwriter => rw [Option.some.injEq, eq_comm, and_iff_right hwriter]
  · next hwriter => simp only [hwriter, reduceCtorEq, false_and]

end Guarded

/-- What is invoked is the function that was copied. -/
theorem RequestHandler.handleRequest_invoked (env : FilterContext Fn V) {f g : F}
    (l : Option (AccessFilterList Fn)) (store : SessionStore V) (conn : Connection)
    (h : (handleRequest env f l store conn).2 = some g) : g = f := by
  unfold handleRequest at h
  split at h
  · exact (Option.some.inj h).symm
  · dsimp only at h
    split at h
    · exact (Option.some.inj h).symm
    · cases h

end Nawa
