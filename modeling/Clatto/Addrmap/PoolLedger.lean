import Clatto.Addrmap.PoolLoad
import Clatto.Addrmap.PoolStill

/-! What the observer of a pool is told suffices to know who has which address. -/

namespace Clatto.Addrmap

open Netip

/-- For each IPv4 address the host that has it, and whether it is dormant. -/
abbrev Ledger := Addr → Option (Addr × Bool)

def Ledger.note (l : Ledger) (e : Xlate.Event) : Ledger :=
  match e.reason with
  | .dynamicAssigned | .dynamicReactivated | .dynamicReassigned =>
    Function.update l e.src (some (e.dst, false))
  | .dynamicDormant => Function.update l e.src (some (e.dst, true))
  | .dynamicReleased => Function.update l e.src none
  | _ => l

namespace Pool

def ledger (p : Pool) : Ledger
  | .v4 bits => ((p.table (bits &&& p.max)).filter fun d => d.v4 = .v4 bits).map
      fun d => (d.v6, d.dormant)
  | _ => none

variable {p p' q base : Pool}

theorem ledger_still : p.still.ledger = p.ledger := by
  funext a
  cases a with
  | zero => rfl
  | v6 => rfl
  | v4 bits =>
    have range : p.still.max = p.max := rfl
    simp only [ledger, table_still, range]
    cases p.table (bits &&& p.max) with
    | none => rfl
    | some d =>
      by_cases here : d.v4 = .v4 bits <;> simp [Option.filter, DynHost.usedAt, here]

theorem Sound.ledger_eq_some (sound : p.Sound) {v4 v6 : Addr} {dormant : Bool} :
    p.ledger v4 = some (v6, dormant) ↔
      ∃ off d, p.table off = some d ∧ d.v4 = v4 ∧ d.v6 = v6 ∧ d.dormant = dormant := by
  constructor
  · intro found
    cases v4 with
    | zero => cases found
    | v6 => cases found
    | v4 bits =>
      obtain ⟨d, held, same⟩ := Option.map_eq_some_iff.mp found
      obtain ⟨held, v4⟩ := Option.filter_eq_some_iff.mp held
      cases same
      exact ⟨_, d, held, of_decide_eq_true v4, rfl, rfl⟩
  · rintro ⟨off, d, held, rfl, rfl, rfl⟩
    obtain ⟨inside, v4⟩ := sound.placed held
    rw [v4, addr]
    refine Option.map_eq_some_iff.mpr ⟨d, Option.filter_eq_some_iff.mpr ⟨?_, decide_eq_true v4⟩, rfl⟩
    rw [p.addr_and_max inside.2]
    exact held

theorem Writes.ledger {off : BitVec 32} {d : Option DynHost} {dirty : Bool} (sound : p.Sound)
    (writes : p.Writes off d dirty p') (inside : off ≤ p.max) :
    p'.ledger = Function.update p.ledger (p.addr off) (d.map fun d => (d.v6, d.dormant)) := by
  -- where a host of the new pool is
  have placed {k : BitVec 32} {e : DynHost} (held : Function.update p.table off d k = some e) :
      k ≤ p.max ∧ e.v4 = p.addr k := by
    rw [← writes.table] at held
    obtain ⟨⟨-, le⟩, v4⟩ := writes.sound.placed held
    rw [writes.keeps.range] at le
    rw [addr, writes.keeps.range] at v4
    exact ⟨le, v4⟩
  funext a
  refine Option.ext fun entry => ?_
  obtain ⟨v6, dormant⟩ := entry
  rw [writes.sound.ledger_eq_some, writes.table]
  by_cases here : a = p.addr off
  · subst here
    rw [Function.update_self, Option.map_eq_some_iff]
    constructor
    · rintro ⟨k, e, held, v4, rfl, rfl⟩
      obtain ⟨le, place⟩ := placed held
      obtain rfl := addr_injective le inside (place.symm.trans v4)
      rw [Function.update_self] at held
      exact ⟨e, held, rfl⟩
    · rintro ⟨e, rfl, same⟩
      cases same
      exact ⟨off, e, Function.update_self .., (placed (Function.update_self ..)).2, rfl, rfl⟩
  · rw [Function.update_of_ne here, sound.ledger_eq_some]
    refine exists_congr fun k => exists_congr fun e => ?_
    by_cases same : k = off
    · subst same
      constructor
      · rintro ⟨held, rfl, -⟩
        exact absurd (placed held).2 here
      · rintro ⟨held, rfl, -⟩
        exact absurd (sound.placed held).2 here
    · rw [Function.update_of_ne same]

/-- The events since some moment tell what has changed since then. -/
def Logged (base p : Pool) : Prop :=
  ∃ es, p.obs = base.obs ++ es ∧ p.ledger = es.foldl Ledger.note base.ledger

namespace Logged

theorem refl (p : Pool) : Logged p p := ⟨[], (List.append_nil _).symm, rfl⟩

theorem still : Logged base p.still ↔ Logged base p := by
  rw [Logged, Logged, ledger_still]
  rfl

theorem same (logged : Logged base p) (same : p.Same q) : Logged base q := by
  rw [← Logged.still, same.eq, Logged.still] at logged
  exact logged

theorem write {off : BitVec 32} {d : Option DynHost} {dirty : Bool} {e : Xlate.Event}
    (logged : Logged base p) (sound : p.Sound) (writes : p.Writes off d dirty p')
    (inside : off ≤ p.max) (told : p'.obs = p.obs ++ [e])
    (means : ∀ l : Ledger, l.note e = Function.update l (p.addr off) (d.map fun d => (d.v6, d.dormant))) :
    Logged base p' := by
  obtain ⟨es, obs, ledger⟩ := logged
  refine ⟨es ++ [e], ?_, ?_⟩
  · rw [told, obs, List.append_assoc]
  · rw [writes.ledger sound inside, List.foldl_append, ← ledger]
    exact (means _).symm

section Steps

variable {r : Ref} {a : Addr} {off : BitVec 32}

theorem activate (logged : Logged base p) (sound : p.Sound)
    (found : p.dormant.get (p.host r).v6 = some r) (now : Int64) :
    Logged base ((p.activate r now).event .dynamicReactivated ((p.activate r now).host r)) := by
  obtain ⟨-, seen, -, -⟩ := sound.dormant found
  obtain ⟨inside, v4⟩ := sound.placed seen
  refine logged.write sound ((sound.activate now found).report _) inside.2 rfl fun l => ?_
  simp only [Ledger.note, v4_activate, v4]
  simp [Pool.activate, host, Heap.modify, Heap.get_set, DynHost.wake, DynHost.usedAt]

theorem fresh (logged : Logged base p) (sound : p.Sound) (inside : p.InRange off)
    (unused : p.isUsed off = false) (inactive : p.mapped.get a = none)
    (unknown : p.dormant.get a = none) (now : Int64) :
    Logged base ((p.fresh a off now).event .dynamicAssigned ((p.fresh a off now).host p.heap.next)) := by
  refine logged.write sound ((sound.fresh now inside unused inactive unknown).report _) inside.2 rfl
    fun l => ?_
  simp [Ledger.note, Pool.fresh, Pool.activate, setUsed, host, Heap.modify, Heap.get_set,
    Heap.get_alloc, DynHost.wake, DynHost.usedAt]

theorem steal (logged : Logged base p) (sound : p.Sound)
    (found : p.dormant.get (p.host r).v6 = some r) (inactive : p.mapped.get a = none)
    (unknown : p.dormant.get a = none) (now : Int64) :
    Logged base ((p.steal r a now).event .dynamicReassigned ((p.steal r a now).host r)) := by
  obtain ⟨-, seen, -, -⟩ := sound.dormant found
  obtain ⟨inside, v4⟩ := sound.placed seen
  refine logged.write sound ((sound.steal now found inactive unknown).report _) inside.2 rfl
    fun l => ?_
  simp only [Ledger.note, v4_steal, v4]
  simp [Pool.steal, Pool.activate, host, Heap.modify, Heap.get_set, DynHost.wake, DynHost.usedAt,
    DynHost.rename]

theorem exhausted (logged : Logged base p) (a : Addr) :
    Logged base (p.report { kind := .dynamic, reason := .dynamicExhausted, dst := a }) := by
  obtain ⟨es, obs, ledger⟩ := logged
  refine ⟨es ++ [{ kind := .dynamic, reason := .dynamicExhausted, dst := a }], ?_, ?_⟩
  · rw [report, obs, List.append_assoc]
  · rw [List.foldl_append, ← ledger]
    rfl

theorem sleep (logged : Logged base p) (sound : p.Sound) (found : p.mapped.get a = some r) :
    Logged base (p.sleep a r) := by
  obtain ⟨-, seen, -, -⟩ := sound.mapped found
  obtain ⟨inside, v4⟩ := sound.placed seen
  refine logged.write sound (sound.sleep found) inside.2 rfl fun l => ?_
  rw [← v4]
  simp [Ledger.note, host, Heap.modify, Heap.get_set, DynHost.doze]

theorem release (logged : Logged base p) (sound : p.Sound) (found : p.dormant.get a = some r) :
    Logged base (p.release a r) := by
  obtain ⟨-, seen, -, -⟩ := sound.dormant found
  obtain ⟨inside, v4⟩ := sound.placed seen
  refine logged.write sound (sound.release found) inside.2 rfl fun l => ?_
  rw [← v4]
  rfl

end Steps

end Logged

end Pool

end Clatto.Addrmap
