import Mathlib.Tactic.Tauto
import Nawa.Lib.AssocMap

/-!
# Shared ownership

Objects that are owned by pointers together. `Owners` are the pointers that exist, by name, each
with the object that it points to, and the objects that have been destroyed, the latest one
first. To point a pointer elsewhere or to drop it gives its object up, and the last pointer to an
object destroys it.

`mem_destroyed_point` and `mem_destroyed_drop` say exactly what an operation destroys, and
`known_point` and `known_drop` that no object is lost. `Sound`
holds in every use in which no pointer is pointed at a destroyed object.
-/

namespace Lib

structure Owners (σ ρ : Type*) where
  pointers : AssocMap σ ρ := .empty
  destroyed : List ρ := []
  deriving DecidableEq

namespace Owners

variable {σ ρ : Type*} [DecidableEq σ]

def target (o : Owners σ ρ) (p : σ) : Option ρ := o.pointers.lookup p

/-- Some pointer points to the object. -/
def Owned (o : Owners σ ρ) (r : ρ) : Prop := ∃ p, o.target p = some r

/-- Some pointer other than the given one points to the object. -/
def OwnedBeside (o : Owners σ ρ) (p : σ) (r : ρ) : Prop := ∃ p', p' ≠ p ∧ o.target p' = some r

theorem owned_iff {o : Owners σ ρ} {r : ρ} :
    o.Owned r ↔ r ∈ o.pointers.entries.map Prod.snd := by
  simp only [Owned, target, AssocMap.lookup_eq_some_iff, List.mem_map, Prod.exists,
    exists_eq_right]

theorem owned_iff_or (o : Owners σ ρ) (p : σ) (r : ρ) :
    o.Owned r ↔ o.target p = some r ∨ o.OwnedBeside p r := by
  constructor
  · rintro ⟨p', hp'⟩
    by_cases hp : p' = p
    · exact .inl (hp ▸ hp')
    · exact .inr ⟨p', hp, hp'⟩
  · rintro (hp | ⟨p', -, hp'⟩)
    · exact ⟨p, hp⟩
    · exact ⟨p', hp'⟩

private theorem owned_insert {o : Owners σ ρ} {p : σ} {r r' : ρ} :
    ({ o with pointers := o.pointers.insert p r } : Owners σ ρ).Owned r' ↔
      r' = r ∨ o.OwnedBeside p r' := by
  simp only [Owned, OwnedBeside, target, AssocMap.lookup_insert]
  constructor
  · rintro ⟨p', hp'⟩
    split at hp'
    · exact .inl (Option.some.inj hp').symm
    · next hne => exact .inr ⟨p', hne, hp'⟩
  · rintro (rfl | ⟨p', hne, hp'⟩)
    · exact ⟨p, if_pos rfl⟩
    · exact ⟨p', (if_neg hne).trans hp'⟩

private theorem owned_erase {o : Owners σ ρ} {p : σ} {r : ρ} :
    ({ o with pointers := o.pointers.erase p } : Owners σ ρ).Owned r ↔ o.OwnedBeside p r := by
  simp only [Owned, OwnedBeside, target, AssocMap.lookup_erase]
  constructor
  · rintro ⟨p', hp'⟩
    split at hp'
    · cases hp'
    · next hne => exact ⟨p', hne, hp'⟩
  · rintro ⟨p', hne, hp'⟩
    exact ⟨p', (if_neg hne).trans hp'⟩

variable [DecidableEq ρ]

instance (o : Owners σ ρ) (r : ρ) : Decidable (o.Owned r) := decidable_of_iff' _ owned_iff

/-- What happens to an object when a pointer to it has just gone. -/
def giveUp (o : Owners σ ρ) : Option ρ → Owners σ ρ
  | none => o
  | some r => if o.Owned r then o else { o with destroyed := r :: o.destroyed }

/-- The pointer, which may be new, points to an object from now on. -/
def point (o : Owners σ ρ) (p : σ) (r : ρ) : Owners σ ρ :=
  ({ o with pointers := o.pointers.insert p r } : Owners σ ρ).giveUp (o.target p)

/-- The pointer goes out of existence. -/
def drop (o : Owners σ ρ) (p : σ) : Owners σ ρ :=
  ({ o with pointers := o.pointers.erase p } : Owners σ ρ).giveUp (o.target p)

/-! ## Pointers -/

@[simp] theorem pointers_giveUp (o : Owners σ ρ) (old : Option ρ) :
    (o.giveUp old).pointers = o.pointers := by
  unfold giveUp
  split
  · rfl
  · split <;> rfl

theorem target_point (o : Owners σ ρ) (p p' : σ) (r : ρ) :
    (o.point p r).target p' = if p' = p then some r else o.target p' := by
  rw [target, point, pointers_giveUp, AssocMap.lookup_insert]
  rfl

theorem target_drop (o : Owners σ ρ) (p p' : σ) :
    (o.drop p).target p' = if p' = p then none else o.target p' := by
  rw [target, drop, pointers_giveUp, AssocMap.lookup_erase]
  rfl

/-! ## Destroyed objects -/

theorem destroyed_giveUp (o : Owners σ ρ) (old : Option ρ) :
    (o.giveUp old).destroyed = o.destroyed ∨
      ∃ r, old = some r ∧ ¬ o.Owned r ∧ (o.giveUp old).destroyed = r :: o.destroyed := by
  cases old with
  | none => exact .inl rfl
  | some r =>
    by_cases h : o.Owned r
    · simp only [giveUp, if_pos h]
      exact .inl trivial
    · simp only [giveUp, if_neg h]
      exact .inr ⟨r, rfl, h, rfl⟩

theorem mem_destroyed_giveUp {o : Owners σ ρ} {old : Option ρ} {r : ρ} :
    r ∈ (o.giveUp old).destroyed ↔ r ∈ o.destroyed ∨ (old = some r ∧ ¬ o.Owned r) := by
  cases old with
  | none => simp only [giveUp, reduceCtorEq, false_and, or_false]
  | some r' =>
    by_cases h : o.Owned r'
    · simp only [giveUp, if_pos h]
      refine (or_iff_left ?_).symm
      rintro ⟨heq, hr⟩
      exact hr (Option.some.inj heq ▸ h)
    · simp only [giveUp, if_neg h]
      rw [List.mem_cons, or_comm, Option.some.injEq, eq_comm (a := r)]
      exact or_congr_right ⟨fun heq => ⟨heq, heq ▸ h⟩, And.left⟩

/-! ## What an operation destroys -/

theorem owned_giveUp {o : Owners σ ρ} {old : Option ρ} {r : ρ} :
    (o.giveUp old).Owned r ↔ o.Owned r := by
  simp only [Owned, target, pointers_giveUp]

theorem owned_point {o : Owners σ ρ} {p : σ} {r r' : ρ} :
    (o.point p r).Owned r' ↔ r' = r ∨ o.OwnedBeside p r' :=
  owned_giveUp.trans owned_insert

theorem owned_drop {o : Owners σ ρ} {p : σ} {r : ρ} : (o.drop p).Owned r ↔ o.OwnedBeside p r :=
  owned_giveUp.trans owned_erase

/-- A new pointer takes nothing away. -/
theorem Owned.point_of_new {o : Owners σ ρ} {p : σ} {r r' : ρ} (h : o.Owned r')
    (hnew : o.target p = none) : (o.point p r).Owned r' := by
  rw [owned_point]
  refine .inr (((o.owned_iff_or p r').mp h).resolve_left ?_)
  rw [hnew]
  nofun

/-- An object is destroyed when its last pointer is pointed elsewhere. -/
theorem mem_destroyed_point {o : Owners σ ρ} {p : σ} {r r' : ρ} :
    r' ∈ (o.point p r).destroyed ↔
      r' ∈ o.destroyed ∨ (o.target p = some r' ∧ r' ≠ r ∧ ¬ o.OwnedBeside p r') := by
  rw [point, mem_destroyed_giveUp, owned_insert, not_or]

/-- An object is destroyed when its last pointer is dropped. -/
theorem mem_destroyed_drop {o : Owners σ ρ} {p : σ} {r : ρ} :
    r ∈ (o.drop p).destroyed ↔
      r ∈ o.destroyed ∨ (o.target p = some r ∧ ¬ o.OwnedBeside p r) := by
  rw [drop, mem_destroyed_giveUp, owned_erase]

/-- The object is owned or has been destroyed. -/
def Known (o : Owners σ ρ) (r : ρ) : Prop := o.Owned r ∨ r ∈ o.destroyed

/-- No object gets lost: what is not owned any more has been destroyed. -/
theorem known_drop {o : Owners σ ρ} {p : σ} {r : ρ} : (o.drop p).Known r ↔ o.Known r := by
  rw [Known, Known, owned_drop, mem_destroyed_drop, o.owned_iff_or p]
  tauto

theorem known_point {o : Owners σ ρ} {p : σ} {r r' : ρ} :
    (o.point p r).Known r' ↔ r' = r ∨ o.Known r' := by
  rw [Known, Known, owned_point, mem_destroyed_point, o.owned_iff_or p]
  tauto

/-! ## The invariant -/

/-- No object is destroyed twice, and none that a pointer points to. -/
structure Sound (o : Owners σ ρ) : Prop where
  once : o.destroyed.Nodup
  live : ∀ {p r}, o.target p = some r → r ∉ o.destroyed

omit [DecidableEq ρ] in
theorem sound_empty : ({} : Owners σ ρ).Sound := ⟨List.nodup_nil, nofun⟩

theorem sound_giveUp {o : Owners σ ρ} {old : Option ρ} (h : o.destroyed.Nodup)
    (hold : ∀ r, old = some r → r ∉ o.destroyed)
    (hlive : ∀ {p r}, o.target p = some r → r ∉ o.destroyed) : (o.giveUp old).Sound := by
  refine ⟨?_, fun {p r} hp => ?_⟩
  · rcases o.destroyed_giveUp old with heq | ⟨r, hr, -, heq⟩ <;> rw [heq]
    · exact h
    · exact List.nodup_cons.mpr ⟨hold r hr, h⟩
  · rw [target, pointers_giveUp] at hp
    rw [mem_destroyed_giveUp, not_or]
    exact ⟨hlive hp, fun hr => hr.2 ⟨p, hp⟩⟩

theorem Sound.drop {o : Owners σ ρ} (h : o.Sound) (p : σ) : (o.drop p).Sound := by
  refine sound_giveUp (o := { o with pointers := o.pointers.erase p }) h.once
    (fun r hr => h.live hr) ?_
  intro p' r hp'
  simp only [target, AssocMap.lookup_erase] at hp'
  split at hp'
  · cases hp'
  · exact h.live hp'

theorem Sound.point {o : Owners σ ρ} (h : o.Sound) {r : ρ} (hr : r ∉ o.destroyed) (p : σ) :
    (o.point p r).Sound := by
  refine sound_giveUp (o := { o with pointers := o.pointers.insert p r }) h.once
    (fun r' hr' => h.live hr') ?_
  intro p' r' hp'
  simp only [target, AssocMap.lookup_insert] at hp'
  split at hp'
  · exact Option.some.inj hp' ▸ hr
  · exact h.live hp'

end Owners

end Lib
