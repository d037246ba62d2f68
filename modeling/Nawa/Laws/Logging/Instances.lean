import Nawa.Logging.Log

/-!
# Laws of the instance counter

The counter is the number of loggers that are alive, and so the lock and the log file go with the
last of them, as long as no logger is assigned from another one: an assignment counts as if it
made an object (`counts_iff`).
-/

namespace Nawa.Log

open Lib.Transition (Run)

/-- The constructors. -/
def Step.Creates : Step → Prop
  | .construct .. | .constructNamed .. | .constructLevel .. | .copy .. => True
  | _ => False

/-- The constructors, the assignment and the destructor. -/
def Step.IsLifetime : Step → Prop
  | .construct .. | .constructNamed .. | .constructLevel .. | .copy .. | .assign .. | .destroy .. =>
    True
  | _ => False

namespace State

/-- The counter is right, and what is shared is given up with the last logger and not before. -/
structure CountsInstances (s : State) : Prop where
  count : s.instanceCount.toNat = s.live
  last : ∀ {this t}, s.step (.destroy this) = some t → t.live = 0 →
    t.isLocked = false ∧ t.logFile = none
  before : ∀ {a t}, a.IsLifetime → s.step a = some t → t.live ≠ 0 →
    t.isLocked = s.isLocked ∧ t.logFile = s.logFile

/-- No logger is assigned from another one, and a new one still has a number. -/
def Countable (s : State) : Step → Prop
  | .assign this other => this = other
  | a => a.Creates → s.live + 1 < 2 ^ 32

/-! ## What the steps do -/

theorem construct_shared (s : Shared) (host : Host) :
    (s.construct host).2.instanceCount = s.instanceCount + 1 ∧
      (s.construct host).2.locked = s.locked ∧ (s.construct host).2.logFile = s.logFile := by
  rw [Shared.construct]
  split <;> exact ⟨rfl, rfl, rfl⟩

/-- An object more. -/
theorem place_eq_some {s t : State} {this : Nat} {made : Data × Shared}
    (h : s.place this made = some t) : t.live = s.live + 1 ∧ t.toShared = made.2 := by
  rw [place] at h
  split at h
  · cases h
  · next hnone =>
    have hlen := s.objects.length_insert this made.1
    rw [hnone] at hlen
    obtain rfl := Option.some.inj h
    exact ⟨hlen, rfl⟩

/-- A constructor makes an object and counts it. -/
theorem step_creates {s t : State} {a : Step} (ha : a.Creates) (h : s.step a = some t) :
    t.live = s.live + 1 ∧ t.instanceCount = s.instanceCount + 1 ∧ t.locked = s.locked ∧
      t.logFile = s.logFile := by
  have hshared : ∀ {this made}, s.place this made = some t →
      made.2.instanceCount = s.instanceCount + 1 ∧ made.2.locked = s.locked ∧
        made.2.logFile = s.logFile →
      t.live = s.live + 1 ∧ t.instanceCount = s.instanceCount + 1 ∧ t.locked = s.locked ∧
        t.logFile = s.logFile := by
    intro this made hplace hmade
    obtain ⟨hlive, hshared⟩ := place_eq_some hplace
    exact ⟨hlive, hshared ▸ hmade⟩
  cases a with
  | construct this host => exact hshared h (construct_shared _ host)
  | constructNamed this host appname level => exact hshared h (construct_shared _ host)
  | constructLevel this host level => exact hshared h (construct_shared _ host)
  | copy this other =>
    obtain ⟨data, -, hplace⟩ := Option.bind_eq_some_iff.mp h
    exact hshared hplace ⟨rfl, rfl, rfl⟩
  | _ => exact ha.elim

theorem live_insert {s : State} {this : Nat} {data : Data} (h : s.objects.lookup this = some data)
    (data' : Data) : (s.objects.insert this data').entries.length = s.live := by
  have hlen := s.objects.length_insert this data'
  rw [h] at hlen
  exact Nat.succ.inj hlen

/-- An assignment from another logger counts one more, and there is no object more. -/
theorem step_assign {s t : State} {this other : Nat} (hne : this ≠ other)
    (h : s.step (.assign this other) = some t) :
    t.live = s.live ∧ t.instanceCount = s.instanceCount + 1 ∧ t.locked = s.locked ∧
      t.logFile = s.logFile := by
  rw [step] at h
  split at h
  · next hthis _ =>
    rw [if_pos hne] at h
    obtain rfl := Option.some.inj h
    exact ⟨live_insert hthis _, rfl, rfl, rfl⟩
  · cases h

theorem step_assign_self {s t : State} {this : Nat} (h : s.step (.assign this this) = some t) :
    t = s := by
  rw [step] at h
  split at h
  · rw [if_neg (not_not_intro rfl)] at h
    exact (Option.some.inj h).symm
  · cases h

/-- A destructor takes an object away and a count, and looks whether none is left. -/
theorem step_destroy {s t : State} {this : Nat} (h : s.step (.destroy this) = some t) :
    t.live + 1 = s.live ∧ t.instanceCount = s.instanceCount - 1 ∧
      (t.instanceCount = 0 → t.locked = false ∧ t.logFile = none) ∧
      (t.instanceCount ≠ 0 → t.locked = s.locked ∧ t.logFile = s.logFile) := by
  obtain ⟨data, hdata, rfl⟩ := Option.map_eq_some_iff.mp h
  have hlen := s.objects.length_erase this
  rw [hdata] at hlen
  refine ⟨hlen, ?_⟩
  by_cases hzero : s.instanceCount - 1 = 0
  · simp only [Shared.destruct, if_pos hzero]
    exact ⟨trivial, fun _ => ⟨trivial, trivial⟩, fun hne => absurd hzero hne⟩
  · simp only [Shared.destruct, if_neg hzero]
    exact ⟨trivial, fun heq => absurd heq hzero, fun _ => ⟨trivial, trivial⟩⟩

theorem setData_eq_some {s t : State} {this : Nat} {change : Data → Data}
    (h : s.setData this change = some t) : t.live = s.live ∧ t.toShared = s.toShared := by
  obtain ⟨data, hdata, rfl⟩ := Option.map_eq_some_iff.mp h
  exact ⟨live_insert hdata _, rfl⟩

/-- A call leaves the objects and their number alone. -/
theorem call_eq_some {s t : State} {c : Call} (h : s.call c = some t) :
    t.objects = s.objects ∧ t.instanceCount = s.instanceCount := by
  cases c with
  | write this msg level moment =>
    obtain ⟨data, -, rfl⟩ := Option.map_eq_some_iff.mp h
    rw [write]
    split <;> exact ⟨rfl, rfl⟩
  | _ =>
    obtain rfl := Option.some.inj h
    refine ⟨rfl, ?_⟩
    simp only [Shared.setStream, Shared.setOutfile, Shared.setOutputLevel,
      Shared.setExtendedFormat, Shared.lockStream]
    repeat' split
    all_goals rfl

/-- All other steps have nothing to do with the number of objects. -/
theorem step_other {s t : State} {a : Step} (ha : ¬ a.IsLifetime) (h : s.step a = some t) :
    t.live = s.live ∧ t.instanceCount = s.instanceCount := by
  cases a with
  | setAppname this appname =>
    obtain ⟨hlive, hshared⟩ := setData_eq_some h
    exact ⟨hlive, congrArg Shared.instanceCount hshared⟩
  | setDefaultLogLevel this level =>
    obtain ⟨hlive, hshared⟩ := setData_eq_some h
    exact ⟨hlive, congrArg Shared.instanceCount hshared⟩
  | call c =>
    obtain ⟨hobjects, hcount⟩ := call_eq_some h
    exact ⟨congrArg (·.entries.length) hobjects, hcount⟩
  | _ => exact absurd trivial ha

/-! ## The counter -/

theorem toNat_add_one_eq_iff {n : UInt32} {l : Nat} (h : n.toNat = l) :
    (n + 1).toNat = l + 1 ↔ l + 1 < 2 ^ 32 := by
  have hlt := n.toNat_lt
  rw [UInt32.toNat_add, UInt32.toNat_one, h]
  omega

/-- Where the counter is right, it stays right with the steps that are countable, and with no
others. -/
theorem count_iff {s t : State} {a : Step} (hs : s.instanceCount.toNat = s.live)
    (h : s.step a = some t) : t.instanceCount.toNat = t.live ↔ s.Countable a := by
  have hcreates : a.Creates →
      (t.instanceCount.toNat = t.live ↔ (a.Creates → s.live + 1 < 2 ^ 32)) := by
    intro ha
    obtain ⟨hlive, hcount, -⟩ := step_creates ha h
    rw [hlive, hcount, forall_prop_of_true ha]
    exact toNat_add_one_eq_iff hs
  have hother : ¬ a.IsLifetime → t.instanceCount.toNat = t.live := by
    intro ha
    obtain ⟨hlive, hcount⟩ := step_other ha h
    rw [hlive, hcount, hs]
  cases a with
  | assign this other =>
    by_cases heq : this = other
    · obtain rfl := heq
      exact iff_of_true (step_assign_self h ▸ hs) rfl
    · obtain ⟨hlive, hcount, -⟩ := step_assign heq h
      refine iff_of_false (fun hcontra => ?_) heq
      have hlt := s.instanceCount.toNat_lt
      rw [hlive, hcount, UInt32.toNat_add, UInt32.toNat_one] at hcontra
      omega
  | destroy this =>
    obtain ⟨hlive, hcount, -⟩ := step_destroy h
    refine iff_of_true ?_ fun hc => hc.elim
    have hle : 1 ≤ s.instanceCount := by
      rw [UInt32.le_iff_toNat_le, UInt32.toNat_one]
      omega
    rw [hcount, UInt32.toNat_sub_of_le _ _ hle, UInt32.toNat_one]
    omega
  | construct this host => exact hcreates trivial
  | constructNamed this host appname level => exact hcreates trivial
  | constructLevel this host level => exact hcreates trivial
  | copy this other => exact hcreates trivial
  | setAppname this appname => exact iff_of_true (hother id) fun hc => hc.elim
  | setDefaultLogLevel this level => exact iff_of_true (hother id) fun hc => hc.elim
  | call c => exact iff_of_true (hother id) fun hc => hc.elim

/-- With the right count, what is shared goes with the last logger. -/
theorem countsInstances_of_count {s : State} (hs : s.instanceCount.toNat = s.live) :
    s.CountsInstances := by
  have hdestroy : ∀ {this t}, s.step (.destroy this) = some t →
      (t.instanceCount = 0 ↔ t.live = 0) := by
    intro this t h
    rw [← (count_iff hs h).mpr fun hc => hc.elim, ← UInt32.toNat_inj]
    rfl
  refine ⟨hs, ?_, ?_⟩
  · intro this t h hlive
    exact (step_destroy h).2.2.1 ((hdestroy h).mpr hlive)
  · intro a t ha h hlive
    have hcreates : a.Creates → t.isLocked = s.isLocked ∧ t.logFile = s.logFile :=
      fun ha => (step_creates ha h).2.2
    cases a with
    | destroy this => exact (step_destroy h).2.2.2 fun hzero => hlive ((hdestroy h).mp hzero)
    | assign this other =>
      by_cases heq : this = other
      · obtain rfl := heq
        obtain rfl := step_assign_self h
        exact ⟨rfl, rfl⟩
      · exact (step_assign heq h).2.2
    | construct this host => exact hcreates trivial
    | constructNamed this host appname level => exact hcreates trivial
    | constructLevel this host level => exact hcreates trivial
    | copy this other => exact hcreates trivial
    | _ => exact ha.elim

end State

/-! ## Runs -/

/-- The instances are counted in all states of a run where every step can be counted. -/
theorem counts_iff {as : List Step} {t : State} (h : Run State.step (fun _ _ => True) {} as t) :
    (∀ before after u, as = before ++ after →
        Run State.step (fun _ _ => True) {} before u → u.CountsInstances) ↔
      Run State.step State.Countable {} as t := by
  constructor
  · intro hcounts
    induction as using List.reverseRecOn generalizing t with
    | nil =>
      cases h
      exact .nil _
    | append_singleton as a ih =>
      obtain ⟨u, hu, hlast⟩ := h.split
      have hrest : Run State.step State.Countable {} as u := ih hu fun before after v heq =>
        hcounts before (after ++ [a]) v (by rw [heq, List.append_assoc])
      have hcount := (hcounts as [a] u rfl hu).count
      have hcount' := (hcounts (as ++ [a]) [] t (List.append_nil _).symm h).count
      cases hlast with
      | cons _ hstep rest =>
        cases rest
        exact hrest.append (.single ((State.count_iff hcount hstep).mp hcount') hstep)
  · intro hcountable before after u heq hu
    obtain ⟨u', hu', -⟩ := (heq ▸ hcountable).split
    obtain rfl := hu.unique hu'
    refine State.countsInstances_of_count ?_
    exact hu'.invariant (fun s => s.instanceCount.toNat = s.live)
      (fun hok hs hstep => (State.count_iff hs hstep).mpr hok) rfl

theorem counts_iff_construct :
    let host : Host := { hostname := bytes "host", pid := 1 }
    let t : State :=
      { toShared := (({} : Shared).construct host).2
        objects := Lib.AssocMap.empty.insert 0 { appname := bytes "nawa" } }
    t.instanceCount = 1 ∧ t.CountsInstances := by
  intro host t
  have hrun : Run State.step (fun _ _ => True) {} [.construct 0 host] t := .single trivial rfl
  have hcountable : Run State.step State.Countable {} [.construct 0 host] t :=
    .single (fun _ => by decide) rfl
  exact ⟨rfl, (counts_iff hrun).mpr hcountable _ [] t rfl hrun⟩

/-- Once a logger has been assigned from another one, the lock outlives all loggers. -/
theorem not_countsInstances : ¬ ∀ (as : List Step) (t : State),
    Run State.step (fun _ _ => True) {} as t → t.CountsInstances := by
  intro h
  let host : Host := { hostname := bytes "host", pid := 1 }
  have hrun : Run State.step (fun _ _ => True) {}
      [.construct 0 host, .construct 1 host, .call .lockStream, .assign 0 1, .destroy 1, .destroy 0]
      _ :=
    .cons trivial rfl (.cons trivial rfl (.cons trivial rfl (.cons trivial rfl
      (.cons trivial rfl (.cons trivial rfl (.nil _))))))
  have hcount := (h _ _ hrun).count
  revert hcount
  decide

end Nawa.Log
