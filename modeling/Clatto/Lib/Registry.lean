import Clatto.Lib.Dict
import Clatto.Lib.Heap

/-! Records that are found by a key, and by a name in one of two maps: one for the
active records, one for the parked ones. -/

namespace Clatto

structure Filing (κ ν H : Type) where
  key : H → κ
  name : H → ν
  parked : H → Bool

structure Registry (κ ν H : Type) where
  byKey : Dict κ Ref
  active : Dict ν Ref
  parked : Dict ν Ref
  heap : Heap H

namespace Registry

variable {κ ν H : Type} [DecidableEq κ] [DecidableEq ν]

/-- The maps agree on the set of records, and each record is filed as it says. -/
structure Consistent (f : Filing κ ν H) (g : Registry κ ν H) : Prop where
  live {k : κ} {r : Ref} : g.byKey.get k = some r → r < g.heap.next
  key {k : κ} {r : Ref} : g.byKey.get k = some r → f.key (g.heap.get r) = k
  awake {k : κ} {r : Ref} : g.byKey.get k = some r → f.parked (g.heap.get r) = false →
    g.active.get (f.name (g.heap.get r)) = some r
  asleep {k : κ} {r : Ref} : g.byKey.get k = some r → f.parked (g.heap.get r) = true →
    g.parked.get (f.name (g.heap.get r)) = some r
  active {n : ν} {r : Ref} : g.active.get n = some r → f.name (g.heap.get r) = n ∧
    f.parked (g.heap.get r) = false ∧ g.byKey.get (f.key (g.heap.get r)) = some r
  parked {n : ν} {r : Ref} : g.parked.get n = some r → f.name (g.heap.get r) = n ∧
    f.parked (g.heap.get r) = true ∧ g.byKey.get (f.key (g.heap.get r)) = some r
  apart {n : ν} {r : Ref} : g.active.get n = some r → g.parked.get n = none

def view (g : Registry κ ν H) (k : κ) : Option H := (g.byKey.get k).map g.heap.get

/-- Write a record anew, filed as before. -/
def rewrite (g : Registry κ ν H) (r : Ref) (x : H) : Registry κ ν H :=
  { g with heap := g.heap.set r x }

def wake (f : Filing κ ν H) (g : Registry κ ν H) (r : Ref) (x : H) : Registry κ ν H :=
  { g with
    heap := g.heap.set r x
    active := g.active.put (f.name x) r
    parked := g.parked.del (f.name x) }

def park (f : Filing κ ν H) (g : Registry κ ν H) (r : Ref) (x : H) : Registry κ ν H :=
  { g with
    heap := g.heap.set r x
    active := g.active.del (f.name x)
    parked := g.parked.put (f.name x) r }

/-- Give a parked record a new name, under which it is active. -/
def pass (f : Filing κ ν H) (g : Registry κ ν H) (r : Ref) (x : H) : Registry κ ν H :=
  { g with
    heap := g.heap.set r x
    active := g.active.put (f.name x) r
    parked := (g.parked.del (f.name (g.heap.get r))).del (f.name x) }

def enter (f : Filing κ ν H) (g : Registry κ ν H) (x : H) : Registry κ ν H where
  heap := g.heap.alloc x
  byKey := g.byKey.put (f.key x) g.heap.next
  active := if f.parked x then g.active else g.active.put (f.name x) g.heap.next
  parked := if f.parked x then g.parked.put (f.name x) g.heap.next else g.parked.del (f.name x)

def discard (f : Filing κ ν H) (g : Registry κ ν H) (r : Ref) : Registry κ ν H :=
  { g with
    byKey := g.byKey.del (f.key (g.heap.get r))
    parked := g.parked.del (f.name (g.heap.get r)) }

variable {f : Filing κ ν H} {g : Registry κ ν H} {r : Ref} {n : ν} {x : H}

namespace Consistent

theorem empty (heap : Heap H) : Consistent f (⟨∅, ∅, ∅, heap⟩ : Registry κ ν H) := by
  constructor <;> simp

theorem rewrite (ok : g.Consistent f) (key : f.key x = f.key (g.heap.get r))
    (name : f.name x = f.name (g.heap.get r)) (parked : f.parked x = f.parked (g.heap.get r)) :
    (g.rewrite r x).Consistent f := by
  obtain ⟨live, keyed, awake, asleep, active, sleeping, apart⟩ := ok
  constructor <;> grind [Registry.rewrite]

theorem wake (ok : g.Consistent f) (present : g.parked.get (f.name (g.heap.get r)) = some r)
    (key : f.key x = f.key (g.heap.get r)) (name : f.name x = f.name (g.heap.get r))
    (parked : f.parked x = false) : (g.wake f r x).Consistent f := by
  obtain ⟨live, keyed, awake, asleep, active, sleeping, apart⟩ := ok
  constructor <;> grind [Registry.wake]

theorem park (ok : g.Consistent f) (present : g.active.get (f.name (g.heap.get r)) = some r)
    (key : f.key x = f.key (g.heap.get r)) (name : f.name x = f.name (g.heap.get r))
    (parked : f.parked x = true) : (g.park f r x).Consistent f := by
  obtain ⟨live, keyed, awake, asleep, active, sleeping, apart⟩ := ok
  constructor <;> grind [Registry.park]

theorem pass (ok : g.Consistent f) (present : g.parked.get (f.name (g.heap.get r)) = some r)
    (key : f.key x = f.key (g.heap.get r)) (inactive : g.active.get (f.name x) = none)
    (unknown : g.parked.get (f.name x) = none) (parked : f.parked x = false) :
    (g.pass f r x).Consistent f := by
  obtain ⟨live, keyed, awake, asleep, active, sleeping, apart⟩ := ok
  constructor <;> grind [Registry.pass]

theorem enter (ok : g.Consistent f) (unused : g.byKey.get (f.key x) = none)
    (inactive : g.active.get (f.name x) = none) (unknown : g.parked.get (f.name x) = none) :
    (g.enter f x).Consistent f := by
  obtain ⟨live, keyed, awake, asleep, active, sleeping, apart⟩ := ok
  constructor <;> grind [Registry.enter]

theorem discard (ok : g.Consistent f) (present : g.parked.get (f.name (g.heap.get r)) = some r) :
    (g.discard f r).Consistent f := by
  obtain ⟨live, keyed, awake, asleep, active, sleeping, apart⟩ := ok
  constructor <;> grind [Registry.discard]

end Consistent

section View

variable {k : κ}

omit [DecidableEq ν] in
theorem view_eq_some : g.view k = some x ↔ ∃ r, g.byKey.get k = some r ∧ g.heap.get r = x := by
  simp [view, Option.map_eq_some_iff]

omit [DecidableEq ν] in
theorem view_eq_none : g.view k = none ↔ g.byKey.get k = none := by
  simp [view]

theorem Consistent.key_view (ok : g.Consistent f) (found : g.view k = some x) : f.key x = k := by
  obtain ⟨r, held, rfl⟩ := view_eq_some.mp found
  exact ok.key held

theorem Consistent.active_iff (ok : g.Consistent f) :
    (∃ r, g.active.get n = some r ∧ g.heap.get r = x) ↔
      g.view (f.key x) = some x ∧ f.name x = n ∧ f.parked x = false := by
  rw [view_eq_some]
  constructor
  · rintro ⟨r, found, rfl⟩
    obtain ⟨name, awake, held⟩ := ok.active found
    exact ⟨⟨r, held, rfl⟩, name, awake⟩
  · rintro ⟨⟨r, held, rfl⟩, rfl, awake⟩
    exact ⟨r, ok.awake held awake, rfl⟩

theorem Consistent.parked_iff (ok : g.Consistent f) :
    (∃ r, g.parked.get n = some r ∧ g.heap.get r = x) ↔
      g.view (f.key x) = some x ∧ f.name x = n ∧ f.parked x = true := by
  rw [view_eq_some]
  constructor
  · rintro ⟨r, found, rfl⟩
    obtain ⟨name, asleep, held⟩ := ok.parked found
    exact ⟨⟨r, held, rfl⟩, name, asleep⟩
  · rintro ⟨⟨r, held, rfl⟩, rfl, asleep⟩
    exact ⟨r, ok.asleep held asleep, rfl⟩

theorem Consistent.name_unique (ok : g.Consistent f) {l : κ} {y : H}
    (one : g.view k = some x) (other : g.view l = some y) (same : f.name x = f.name y) : k = l := by
  obtain ⟨r, held, rfl⟩ := view_eq_some.mp one
  obtain ⟨s, held', rfl⟩ := view_eq_some.mp other
  obtain ⟨live, keyed, awake, asleep, active, sleeping, apart⟩ := ok
  cases flag : f.parked (g.heap.get r) <;> cases flag' : f.parked (g.heap.get s) <;> grind

theorem Consistent.unknown (ok : g.Consistent f) (inactive : g.active.get n = none)
    (unknown : g.parked.get n = none) (found : g.view k = some x) : f.name x ≠ n := by
  obtain ⟨r, held, rfl⟩ := view_eq_some.mp found
  rintro rfl
  cases flag : f.parked (g.heap.get r) with
  | false => simp [ok.awake held flag] at inactive
  | true => simp [ok.asleep held flag] at unknown

theorem Consistent.view_set (ok : g.Consistent f) (held : g.byKey.get k = some r)
    {g' : Registry κ ν H} (byKey : g'.byKey = g.byKey) (heap : g'.heap = g.heap.set r x) :
    g'.view = Function.update g.view k (some x) := by
  funext l
  by_cases same : l = k
  · subst same
    rw [Function.update_self, view, byKey, heap, held, Option.map_some, Heap.get_set, if_pos rfl]
  · rw [Function.update_of_ne same, view, view, byKey, heap]
    cases other : g.byKey.get l with
    | none => rfl
    | some s =>
      have apart : s ≠ r := fun eq => same ((ok.key other).symm.trans (eq ▸ ok.key held))
      rw [Option.map_some, Option.map_some, Heap.get_set, if_neg apart]

theorem Consistent.view_enter (ok : g.Consistent f) :
    (g.enter f x).view = Function.update g.view (f.key x) (some x) := by
  funext l
  by_cases same : l = f.key x
  · subst same
    simp [view, Registry.enter, Dict.get_put, Heap.get_alloc]
  · rw [Function.update_of_ne same, view, view, Registry.enter, Dict.get_put, if_neg same]
    cases other : g.byKey.get l with
    | none => rfl
    | some s =>
      have old : s ≠ g.heap.next := Nat.ne_of_lt (ok.live other)
      rw [Option.map_some, Option.map_some, Heap.get_alloc, if_neg old]

theorem view_discard :
    (g.discard f r).view = Function.update g.view (f.key (g.heap.get r)) none := by
  funext l
  by_cases same : l = f.key (g.heap.get r)
  · subst same
    simp [view, Registry.discard, Dict.get_del]
  · rw [Function.update_of_ne same, view, view, Registry.discard, Dict.get_del, if_neg same]

end View

end Registry

end Clatto
