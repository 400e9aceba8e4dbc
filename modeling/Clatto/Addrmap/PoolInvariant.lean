import Clatto.Addrmap.PoolFile
import Clatto.Lib.Registry

/-! What holds of a pool at all times: the three maps and the bitmap describe the
same set of hosts. -/

namespace Clatto.Addrmap

open Netip

namespace Pool

/-- Hosts are found by their offset, and by their IPv6 address. -/
def filing : Filing (BitVec 32) Addr DynHost where
  key := DynHost.off
  name := DynHost.v6
  parked := DynHost.dormant

def registry (p : Pool) : Registry (BitVec 32) Addr DynHost where
  byKey := p.by4
  active := p.mapped
  parked := p.dormant
  heap := p.heap

def table (p : Pool) : BitVec 32 → Option DynHost := p.registry.view

def InRange (p : Pool) (off : BitVec 32) : Prop := off ≠ 0 ∧ off ≤ p.max

/-- The maps agree, every host is at its place, and the bitmap marks their offsets. -/
structure Sound (p : Pool) : Prop where
  size : p.used.length = (p.max.toNat + 64) / 64
  filed : p.registry.Consistent filing
  placed {off : BitVec 32} {d : DynHost} : p.table off = some d → p.InRange off ∧ d.v4 = p.addr off
  used (off : BitVec 32) : p.isUsed off ↔ off = 0 ∨ p.table off ≠ none

section Effects

variable (p : Pool) (r : Ref) (a : Addr) (off : BitVec 32) (now : Int64)

theorem registry_touch :
    (p.touch r now).registry = p.registry.rewrite r ((p.host r).usedAt now) := rfl

theorem registry_activate :
    (p.activate r now).registry = p.registry.wake filing r ((p.host r).wake.usedAt now) := rfl

theorem registry_fresh : (p.fresh a off now).registry =
    p.registry.enter filing { v4 := p.addr off, v6 := a, off, lastUse := now, dormant := false } := by
  simp [fresh, activate, registry, Registry.enter, filing, setUsed, host, Heap.modify, Heap.set,
    Heap.alloc, Heap.get, DynHost.wake, DynHost.usedAt]

theorem registry_steal : (p.steal r a now).registry =
    p.registry.pass filing r (((p.host r).rename a).wake.usedAt now) := by
  simp [steal, activate, registry, Registry.pass, filing, host, Heap.modify, Heap.set,
    Heap.get, DynHost.wake, DynHost.usedAt, DynHost.rename]

theorem registry_sleep :
    (p.sleep (p.host r).v6 r).registry = p.registry.park filing r (p.host r).doze := rfl

theorem registry_release :
    (p.release (p.host r).v6 r).registry = p.registry.discard filing r := rfl

theorem registry_restore (row : Row) : (p.restore row off).registry = p.registry.enter filing
    { v4 := row.v4, v6 := row.v6, off, lastUse := row.last, dormant := true } := rfl

end Effects

variable {p : Pool}

theorem Sound.room (sound : p.Sound) {off : BitVec 32} (le : off ≤ p.max) :
    off.toNat < 64 * p.used.length := by
  rw [sound.size]
  have := BitVec.le_def.mp le
  omega

theorem Sound.replace {p' : Pool} (sound : p.Sound) (range : p'.toRange = p.toRange)
    (bitmap : p'.used = p.used) (filed : p'.registry.Consistent filing) {off : BitVec 32}
    {d d' : DynHost} (held : p.table off = some d)
    (change : p'.table = Function.update p.table off (some d')) (v4 : d'.v4 = d.v4) :
    p'.Sound where
  size := by rw [bitmap, range, sound.size]
  filed := filed
  placed := by
    intro l e found
    have place := sound.placed held
    rw [change] at found
    rw [InRange, addr, range]
    by_cases same : l = off
    · subst same
      rw [Function.update_self, Option.some.injEq] at found
      subst found
      rw [v4]
      exact place
    · rw [Function.update_of_ne same] at found
      exact sound.placed found
  used := by
    intro l
    rw [isUsed, bitmap, change]
    by_cases same : l = off
    · subst same
      have marked := sound.used l
      rw [held] at marked
      simpa [Function.update_self, isUsed] using marked
    · rw [Function.update_of_ne same]
      exact sound.used l

theorem Sound.occupy {p' : Pool} (sound : p.Sound) (range : p'.toRange = p.toRange)
    {off : BitVec 32} {d : DynHost} (bitmap : p'.used = p.used.set off.toNat)
    (filed : p'.registry.Consistent filing) (inside : p.InRange off)
    (change : p'.table = Function.update p.table off (some d)) (v4 : d.v4 = p.addr off) :
    p'.Sound where
  size := by rw [bitmap, range, Bitmap.length_set, sound.size]
  filed := filed
  placed := by
    intro l e found
    rw [change] at found
    rw [InRange, addr, range]
    by_cases same : l = off
    · subst same
      rw [Function.update_self, Option.some.injEq] at found
      subst found
      exact ⟨inside, v4⟩
    · rw [Function.update_of_ne same] at found
      exact sound.placed found
  used := by
    intro l
    rw [isUsed, bitmap, Bitmap.test_set (sound.room inside.2), change]
    by_cases same : l = off
    · subst same
      simp
    · have other : l.toNat ≠ off.toNat := fun eq => same (BitVec.eq_of_toNat_eq eq)
      rw [Function.update_of_ne same, decide_eq_false other, Bool.false_or]
      exact sound.used l

theorem Sound.vacate {p' : Pool} (sound : p.Sound) (range : p'.toRange = p.toRange)
    {off : BitVec 32} (bitmap : p'.used = p.used.clear off.toNat)
    (filed : p'.registry.Consistent filing) (inside : p.InRange off)
    (change : p'.table = Function.update p.table off none) : p'.Sound where
  size := by rw [bitmap, range, Bitmap.length_clear, sound.size]
  filed := filed
  placed := by
    intro l e found
    rw [change] at found
    rw [InRange, addr, range]
    by_cases same : l = off
    · subst same
      rw [Function.update_self] at found
      cases found
    · rw [Function.update_of_ne same] at found
      exact sound.placed found
  used := by
    intro l
    rw [isUsed, bitmap, Bitmap.test_clear (sound.room inside.2), change]
    by_cases same : l = off
    · subst same
      simpa using inside.1
    · have other : l.toNat ≠ off.toNat := fun eq => same (BitVec.eq_of_toNat_eq eq)
      rw [Function.update_of_ne same, decide_eq_false other, Bool.not_false, Bool.true_and]
      exact sound.used l

theorem newPool_sound {pfx : Prefix} {o : PoolOptions} (made : newPool pfx o = .ok p) :
    p.Sound ∧ p.table = fun _ => none := by
  simp only [newPool, Except.map] at made
  split at made <;> cases made
  rename_i range _
  refine ⟨⟨by simp, .empty _, @fun off d found => ?_, fun off => ?_⟩, rfl⟩
  · cases found
  · rw [isUsed, Bitmap.test_set (by simp), Bitmap.test_replicate, Bool.or_false,
      decide_eq_true_iff]
    constructor
    · exact fun zero => .inl (BitVec.eq_of_toNat_eq zero)
    · rintro (rfl | held)
      · rfl
      · exact absurd rfl held

theorem newPool_pfx {pfx : Prefix} {o : PoolOptions} (made : newPool pfx o = .ok p) :
    p.pfx = pfx := by
  simp only [newPool, Except.map] at made
  split at made <;> cases made
  rename_i range found
  unfold newRange at found
  split at found
  · split at found
    · split at found
      · split at found
        · split at found <;> cases found
          rfl
        · cases found
      · cases found
    · cases found
  · cases found

theorem newPool_leases {pfx : Prefix} {o : PoolOptions} (made : newPool pfx o = .ok p) :
    p.minLease = orDefault o.minLease defaultMinLease ∧
      p.maxLease = orDefault o.maxLease defaultMaxLease := by
  simp only [newPool, Except.map] at made
  split at made <;> cases made
  exact ⟨rfl, rfl⟩

theorem exists_newPool (p : Pool) (o : PoolOptions) :
    ∃ q, newPool p.pfx o = .ok q ∧ q.toRange = p.toRange := by
  have made : newRange p.pfx = .ok p.toRange := by
    obtain ⟨⟨pfx, base, max, bits, four, len, ge, le, aligned, max_eq, unreserved⟩, _⟩ := p
    subst max_eq
    unfold newRange
    split
    · rename_i base' four'
      obtain rfl : base = base' := Addr.v4.inj (four.symm.trans four')
      rw [dif_pos aligned]
      split
      · rename_i bits' len'
        obtain rfl : bits = bits' := Option.some.inj (len.symm.trans len')
        rw [dif_pos ⟨ge, le⟩, dif_pos unreserved]
      · rename_i none
        cases len.symm.trans none
    · rename_i other
      exact absurd four (other base)
  rw [newPool, made]
  exact ⟨_, rfl, rfl⟩

end Pool

end Clatto.Addrmap
