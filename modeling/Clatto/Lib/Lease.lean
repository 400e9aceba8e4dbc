import Mathlib.Logic.Function.Basic
import Mathlib.Tactic.Common

/-! Places that are leased to tenants. A tenant that does not show up for a while falls
asleep; a tenant that is asleep can lose its place to another one when there is no free
place left, and after a longer while it loses it anyway. -/

namespace Clatto.Lease

structure Tenant (ν : Type) where
  name : ν
  used : Int
  asleep : Bool

abbrev Tenancy (κ ν : Type) := κ → Option (Tenant ν)

/-- How long a tenant stays awake, and how long it keeps its place at all. -/
structure Terms where
  minLease : Int
  maxLease : Int

variable {κ ν : Type} [DecidableEq κ]

/-- What happens at a point in time; `full` says that there is no free place. -/
inductive Move (terms : Terms) (full : Prop) (now : Int) (T : Tenancy κ ν) : Tenancy κ ν → Prop
  | stay : Move terms full now T T
  | renew {k : κ} {x : Tenant ν} (held : T k = some x) :
      Move terms full now T (Function.update T k (some ⟨x.name, now, false⟩))
  | grant {k : κ} (vacant : T k = none) (name : ν) :
      Move terms full now T (Function.update T k (some ⟨name, now, false⟩))
  | steal {k : κ} {x : Tenant ν} {name : ν} (none : full) (held : T k = some x)
      (asleep : x.asleep = true) (unknown : ∀ l y, T l = some y → y.name ≠ name) :
      Move terms full now T (Function.update T k (some ⟨name, now, false⟩))
  | age {T' : Tenancy κ ν}
      (awake : ∀ k x, T k = some x → x.used ≤ now → x.asleep = false →
        now ≤ x.used + terms.minLease → T' k = some x)
      (kept : ∀ k x, T k = some x → x.used ≤ now → now ≤ x.used + terms.maxLease →
        ∃ asleep, T' k = some { x with asleep }) :
      Move terms full now T T'

/-- A tenant has its place, and was there at some time since `since`. -/
structure Kept (T : Tenancy κ ν) (k : κ) (name : ν) (since now : Int) (x : Tenant ν) : Prop where
  held : T k = some x
  name : x.name = name
  since : since ≤ x.used
  past : x.used ≤ now

variable {terms : Terms} {full : Prop} {T T' : Tenancy κ ν} {k : κ} {name : ν}
  {since now now' : Int} {x : Tenant ν}

omit [DecidableEq κ] in
theorem Kept.later (kept : Kept T k name since now x) (le : now ≤ now') :
    Kept T k name since now' x :=
  ⟨kept.held, kept.name, kept.since, Int.le_trans kept.past le⟩

theorem Kept.elsewhere (kept : Kept T k name since now x) {l : κ} (other : l ≠ k)
    (y : Option (Tenant ν)) : Kept (Function.update T l y) k name since now x :=
  ⟨(Function.update_of_ne other.symm ..).trans kept.held, kept.name, kept.since, kept.past⟩

theorem Kept.renew (kept : Kept T k name since now x) :
    Kept (Function.update T k (some ⟨x.name, now, false⟩)) k name since now ⟨x.name, now, false⟩ :=
  ⟨Function.update_self .., kept.name, Int.le_trans kept.since kept.past, Int.le_refl _⟩

/-- Within the first lease, a tenant that is awake stays awake at its place. -/
theorem Kept.stays_awake (kept : Kept T k name since now x) (awake : x.asleep = false)
    (le : now ≤ now') (early : now' ≤ since + terms.minLease)
    (move : Move terms full now' T T') :
    ∃ y, Kept T' k name since now' y ∧ y.asleep = false := by
  have kept := kept.later le
  cases move with
  | stay => exact ⟨x, kept, awake⟩
  | @renew l y held =>
    by_cases same : l = k
    · subst same
      cases held.symm.trans kept.held
      exact ⟨_, kept.renew, rfl⟩
    · exact ⟨x, kept.elsewhere same _, awake⟩
  | @grant l vacant other =>
    have different : l ≠ k := by
      rintro rfl
      cases vacant.symm.trans kept.held
    exact ⟨x, kept.elsewhere different _, awake⟩
  | @steal l y other none held asleep unknown =>
    have different : l ≠ k := by
      rintro rfl
      cases held.symm.trans kept.held
      cases awake.symm.trans asleep
    exact ⟨x, kept.elsewhere different _, awake⟩
  | age stays _ =>
    have := kept.since
    have held := stays k x kept.held kept.past awake (by omega)
    exact ⟨x, ⟨held, kept.name, kept.since, kept.past⟩, awake⟩

/-- Within the second lease, a tenant loses its place only to a newcomer who finds no
free place. -/
theorem Kept.stays (kept : Kept T k name since now x) (le : now ≤ now')
    (early : now' ≤ since + terms.maxLease) (move : Move terms full now' T T') :
    (∃ y, Kept T' k name since now' y) ∨
      full ∧ ∃ other, other ≠ name ∧ T' k = some ⟨other, now', false⟩ := by
  have kept := kept.later le
  cases move with
  | stay => exact .inl ⟨x, kept⟩
  | @renew l y held =>
    by_cases same : l = k
    · subst same
      cases held.symm.trans kept.held
      exact .inl ⟨_, kept.renew⟩
    · exact .inl ⟨x, kept.elsewhere same _⟩
  | @grant l vacant other =>
    have different : l ≠ k := by
      rintro rfl
      cases vacant.symm.trans kept.held
    exact .inl ⟨x, kept.elsewhere different _⟩
  | @steal l y other none held asleep unknown =>
    by_cases same : l = k
    · subst same
      refine .inr ⟨none, other, fun eq => ?_, Function.update_self ..⟩
      exact unknown l x kept.held (kept.name.trans eq.symm)
    · exact .inl ⟨x, kept.elsewhere same _⟩
  | age _ stays =>
    have := kept.since
    obtain ⟨asleep, held⟩ := stays k x kept.held kept.past (by omega)
    exact .inl ⟨_, held, kept.name, kept.since, kept.past⟩

end Clatto.Lease
