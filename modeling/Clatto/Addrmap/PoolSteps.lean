import Clatto.Addrmap.PoolInvariant
import Mathlib.Data.Nat.Bitwise

/-! What the calls of a pool do, seen through the host at each offset. -/

namespace Clatto.Addrmap

open Netip

namespace Pool

/-- Only `SetLeases` and a new table change these. -/
structure Keeps (p p' : Pool) : Prop where
  range : p'.toRange = p.toRange
  minLease : p'.minLease = p.minLease
  maxLease : p'.maxLease = p.maxLease
  reserved : p'.reserved = p.reserved

theorem Keeps.refl (p : Pool) : p.Keeps p := ⟨rfl, rfl, rfl, rfl⟩

theorem Keeps.trans {p q s : Pool} (one : p.Keeps q) (two : q.Keeps s) : p.Keeps s where
  range := two.range.trans one.range
  minLease := two.minLease.trans one.minLease
  maxLease := two.maxLease.trans one.maxLease
  reserved := two.reserved.trans one.reserved

/-- The host at one offset changes, and the pool stays sound. -/
structure Writes (p : Pool) (off : BitVec 32) (d : Option DynHost) (dirty : Bool) (p' : Pool) :
    Prop where
  sound : p'.Sound
  keeps : p.Keeps p'
  table : p'.table = Function.update p.table off d
  dirty : p'.dirty = dirty

variable {p : Pool}

theorem Writes.report {off : BitVec 32} {d : Option DynHost} {dirty : Bool} {p' : Pool}
    (writes : p.Writes off d dirty p') (e : Xlate.Event) : p.Writes off d dirty (p'.report e) :=
  ⟨⟨writes.sound.size, writes.sound.filed, writes.sound.placed, writes.sound.used⟩,
    ⟨writes.keeps.range, writes.keeps.minLease, writes.keeps.maxLease, writes.keeps.reserved⟩,
    writes.table, writes.dirty⟩

section Found

variable {a : Addr} {r : Ref}

theorem Sound.mapped (sound : p.Sound) (found : p.mapped.get a = some r) :
    p.by4.get (p.host r).off = some r ∧ p.table (p.host r).off = some (p.host r) ∧
      (p.host r).v6 = a ∧ (p.host r).dormant = false := by
  obtain ⟨name, awake, held⟩ := sound.filed.active found
  exact ⟨held, Registry.view_eq_some.mpr ⟨r, held, rfl⟩, name, awake⟩

theorem Sound.dormant (sound : p.Sound) (found : p.dormant.get a = some r) :
    p.by4.get (p.host r).off = some r ∧ p.table (p.host r).off = some (p.host r) ∧
      (p.host r).v6 = a ∧ (p.host r).dormant = true := by
  obtain ⟨name, asleep, held⟩ := sound.filed.parked found
  exact ⟨held, Registry.view_eq_some.mpr ⟨r, held, rfl⟩, name, asleep⟩

theorem Sound.off_eq (sound : p.Sound) {off : BitVec 32} {d : DynHost}
    (held : p.table off = some d) : d.off = off := sound.filed.key_view held

theorem Sound.find_mapped (sound : p.Sound) {off : BitVec 32} {d : DynHost}
    (held : p.table off = some d) (awake : d.dormant = false) :
    ∃ r, p.mapped.get d.v6 = some r ∧ p.host r = d := by
  obtain rfl := sound.off_eq held
  exact sound.filed.active_iff.mpr ⟨held, rfl, awake⟩

theorem Sound.find_dormant (sound : p.Sound) {off : BitVec 32} {d : DynHost}
    (held : p.table off = some d) (asleep : d.dormant = true) :
    ∃ r, p.dormant.get d.v6 = some r ∧ p.host r = d := by
  obtain rfl := sound.off_eq held
  exact sound.filed.parked_iff.mpr ⟨held, rfl, asleep⟩

end Found

section Steps

variable {a : Addr} {r : Ref} {off : BitVec 32} (now : Int64)

theorem Sound.touch (sound : p.Sound) (held : p.by4.get off = some r) :
    p.Writes off (some ((p.host r).usedAt now)) p.dirty (p.touch r now) := by
  have filed : (p.touch r now).registry.Consistent filing := by
    rw [registry_touch]
    exact sound.filed.rewrite rfl rfl rfl
  have table : (p.touch r now).table =
      Function.update p.table off (some ((p.host r).usedAt now)) :=
    sound.filed.view_set held rfl rfl
  have seen : p.table off = some (p.host r) := Registry.view_eq_some.mpr ⟨r, held, rfl⟩
  exact ⟨sound.replace rfl rfl filed seen table rfl, ⟨rfl, rfl, rfl, rfl⟩, table, rfl⟩

theorem Sound.activate (sound : p.Sound) (found : p.dormant.get (p.host r).v6 = some r) :
    p.Writes (p.host r).off (some ((p.host r).wake.usedAt now)) p.dirty (p.activate r now) := by
  obtain ⟨held, seen, -, -⟩ := sound.dormant found
  have filed : (p.activate r now).registry.Consistent filing := by
    rw [registry_activate]
    exact sound.filed.wake found rfl rfl rfl
  have table : (p.activate r now).table =
      Function.update p.table (p.host r).off (some ((p.host r).wake.usedAt now)) :=
    sound.filed.view_set held rfl rfl
  exact ⟨sound.replace rfl rfl filed seen table rfl, ⟨rfl, rfl, rfl, rfl⟩, table, rfl⟩

theorem Sound.sleep (sound : p.Sound) (found : p.mapped.get a = some r) :
    p.Writes (p.host r).off (some (p.host r).doze) p.dirty (p.sleep a r) := by
  obtain ⟨held, seen, rfl, -⟩ := sound.mapped found
  have filed : (p.sleep (p.host r).v6 r).registry.Consistent filing := by
    rw [registry_sleep]
    exact sound.filed.park found rfl rfl rfl
  have table : (p.sleep (p.host r).v6 r).table =
      Function.update p.table (p.host r).off (some (p.host r).doze) :=
    sound.filed.view_set held rfl rfl
  exact ⟨sound.replace rfl rfl filed seen table rfl, ⟨rfl, rfl, rfl, rfl⟩, table, rfl⟩

theorem Sound.release (sound : p.Sound) (found : p.dormant.get a = some r) :
    p.Writes (p.host r).off none true (p.release a r) := by
  obtain ⟨held, seen, rfl, -⟩ := sound.dormant found
  have filed : (p.release (p.host r).v6 r).registry.Consistent filing := by
    rw [registry_release]
    exact sound.filed.discard found
  have table : (p.release (p.host r).v6 r).table =
      Function.update p.table (p.host r).off none := by
    rw [Pool.table, registry_release]
    exact Registry.view_discard
  exact ⟨sound.vacate rfl rfl filed (sound.placed seen).1 table, ⟨rfl, rfl, rfl, rfl⟩, table, rfl⟩

theorem Sound.vacant (sound : p.Sound) (unused : p.isUsed off = false) : p.table off = none := by
  by_contra held
  have marked := (sound.used off).mpr (.inr held)
  simp [unused] at marked

theorem Sound.fresh (sound : p.Sound) (inside : p.InRange off) (unused : p.isUsed off = false)
    (inactive : p.mapped.get a = none) (unknown : p.dormant.get a = none) :
    p.Writes off
      (some { v4 := p.addr off, v6 := a, off, lastUse := now, dormant := false }) true
      (p.fresh a off now) := by
  have vacant : p.by4.get off = none := Registry.view_eq_none.mp (sound.vacant unused)
  have filed : (p.fresh a off now).registry.Consistent filing := by
    rw [registry_fresh]
    exact sound.filed.enter vacant inactive unknown
  have table : (p.fresh a off now).table = Function.update p.table off
      (some { v4 := p.addr off, v6 := a, off, lastUse := now, dormant := false }) := by
    rw [Pool.table, registry_fresh]
    exact sound.filed.view_enter
  exact ⟨sound.occupy rfl rfl filed inside table rfl, ⟨rfl, rfl, rfl, rfl⟩, table, rfl⟩

theorem Sound.steal (sound : p.Sound) (found : p.dormant.get (p.host r).v6 = some r)
    (inactive : p.mapped.get a = none) (unknown : p.dormant.get a = none) :
    p.Writes (p.host r).off (some (((p.host r).rename a).wake.usedAt now)) true
      (p.steal r a now) := by
  obtain ⟨held, seen, -, -⟩ := sound.dormant found
  have filed : (p.steal r a now).registry.Consistent filing := by
    rw [registry_steal]
    exact sound.filed.pass found rfl inactive unknown rfl
  have table : (p.steal r a now).table = Function.update p.table (p.host r).off
      (some (((p.host r).rename a).wake.usedAt now)) := by
    refine sound.filed.view_set held rfl ?_
    rw [registry_steal]
    rfl
  exact ⟨sound.replace rfl rfl filed seen table rfl, ⟨rfl, rfl, rfl, rfl⟩, table, rfl⟩

theorem Sound.restore (sound : p.Sound) (row : Row) (inside : p.InRange off)
    (unused : p.isUsed off = false) (inactive : p.mapped.get row.v6 = none)
    (unknown : p.dormant.get row.v6 = none) (v4 : row.v4 = p.addr off) :
    p.Writes off
      (some { v4 := row.v4, v6 := row.v6, off, lastUse := row.last, dormant := true }) p.dirty
      (p.restore row off) := by
  have vacant : p.by4.get off = none := Registry.view_eq_none.mp (sound.vacant unused)
  have filed : (p.restore row off).registry.Consistent filing := by
    rw [registry_restore]
    exact sound.filed.enter vacant inactive unknown
  have table : (p.restore row off).table = Function.update p.table off
      (some { v4 := row.v4, v6 := row.v6, off, lastUse := row.last, dormant := true }) := by
    rw [Pool.table, registry_restore]
    exact sound.filed.view_enter
  exact ⟨sound.occupy rfl rfl filed inside table v4, ⟨rfl, rfl, rfl, rfl⟩, table, rfl⟩

end Steps

section Search

variable (p)

theorem toNat_max : p.max.toNat = 2 ^ (32 - p.bits) - 1 := by
  have small := p.bits_le
  have split : (2 : Nat) ^ 32 = 2 ^ (32 - p.bits) * 2 ^ p.bits := by
    rw [← Nat.pow_add]
    congr 1
    omega
  rw [p.toRange.max_eq, BitVec.toNat_ushiftRight, Nat.shiftRight_eq_div_pow]
  change (2 ^ 32 - 1) / 2 ^ p.bits = _
  have pos : 0 < 2 ^ p.bits := Nat.two_pow_pos _
  rw [split, Nat.div_eq_iff pos]
  have one : 1 ≤ 2 ^ (32 - p.bits) := Nat.one_le_two_pow
  constructor
  · rw [Nat.sub_mul]
    omega
  · have : (2 ^ (32 - p.bits) - 1) * 2 ^ p.bits + 2 ^ p.bits =
        2 ^ (32 - p.bits) * 2 ^ p.bits := by
      rw [← Nat.succ_mul, Nat.succ_eq_add_one, Nat.sub_add_cancel one]
    omega

theorem toNat_and_max (x : BitVec 32) : (x &&& p.max).toNat = x.toNat % 2 ^ (32 - p.bits) := by
  rw [BitVec.toNat_and, toNat_max, Nat.and_two_pow_sub_one_eq_mod]

theorem and_max_le (x : BitVec 32) : x &&& p.max ≤ p.max := by
  rw [BitVec.le_def, toNat_and_max, toNat_max]
  exact Nat.le_pred_of_lt (Nat.mod_lt _ (Nat.two_pow_pos _))

theorem and_not_max {h : BitVec 32} (small : h.toNat < 2 ^ (32 - p.bits)) :
    h &&& ~~~ p.max = 0 := by
  have same : h &&& p.max = h :=
    BitVec.eq_of_toNat_eq (by rw [toNat_and_max, Nat.mod_eq_of_lt small])
  rw [← same, BitVec.and_assoc, BitVec.and_not_self]
  exact BitVec.and_zero

/-- The loop that folds a hash ends: every round makes the number smaller. -/
theorem foldHash_done (fuel : Nat) (h : BitVec 32) (enough : h.toNat ≤ fuel) :
    foldHash p.max (32 - p.bits) fuel h &&& ~~~ p.max = 0 := by
  induction fuel generalizing h with
  | zero => exact p.and_not_max (Nat.lt_of_le_of_lt enough (Nat.two_pow_pos _))
  | succ fuel ih =>
    rw [foldHash]
    split
    · rename_i outside
      have large : 2 ^ (32 - p.bits) ≤ h.toNat := by
        by_contra small
        exact outside (p.and_not_max (Nat.lt_of_not_le small))
      have two : 2 ≤ 2 ^ (32 - p.bits) :=
        Nat.le_self_pow (by have := p.bits_le; omega) 2
      have quotient : h.toNat / 2 ^ (32 - p.bits) * 2 ≤
          h.toNat / 2 ^ (32 - p.bits) * 2 ^ (32 - p.bits) := Nat.mul_le_mul_left _ two
      have whole := Nat.div_add_mod' h.toNat (2 ^ (32 - p.bits))
      have pos : 0 < h.toNat / 2 ^ (32 - p.bits) := Nat.div_pos large (Nat.two_pow_pos _)
      refine ih _ ?_
      rw [BitVec.toNat_add, toNat_and_max, BitVec.toNat_ushiftRight, Nat.shiftRight_eq_div_pow]
      have := h.isLt
      have := Nat.mod_le (h.toNat % 2 ^ (32 - p.bits) + h.toNat / 2 ^ (32 - p.bits)) (2 ^ 32)
      omega
    · rename_i inside
      exact not_not.mp inside

theorem visited (h off : BitVec 32) (le : off ≤ p.max) :
    ∃ i ≤ p.max.toNat, (h + BitVec.ofNat 32 i) &&& p.max = off := by
  have small : off.toNat < 2 ^ (32 - p.bits) := by
    have := BitVec.le_def.mp le
    rw [toNat_max] at this
    have := @Nat.one_le_two_pow (32 - p.bits)
    omega
  have bound := BitVec.le_def.mp (p.and_max_le (off - h))
  refine ⟨((off - h) &&& p.max).toNat, bound, BitVec.eq_of_toNat_eq ?_⟩
  rw [toNat_and_max, BitVec.ofNat_toNat, BitVec.setWidth_eq, BitVec.toNat_add, toNat_and_max]
  have divides : 2 ^ (32 - p.bits) ∣ 2 ^ 32 := Nat.pow_dvd_pow 2 (by omega)
  rw [Nat.mod_mod_of_dvd _ divides, Nat.add_mod_mod, ← Nat.mod_mod_of_dvd _ divides,
    ← BitVec.toNat_add, BitVec.add_comm, BitVec.sub_add_cancel, Nat.mod_eq_of_lt small]

theorem findFree_some {h off : BitVec 32} (found : p.findFree h = some off) :
    p.isFree off = true ∧ off ≤ p.max := by
  have member := List.mem_of_find?_eq_some found
  obtain ⟨i, -, rfl⟩ := List.mem_map.mp member
  exact ⟨List.find?_some found, p.and_max_le _⟩

theorem findFree_none {h : BitVec 32} (none : p.findFree h = none) {off : BitVec 32}
    (le : off ≤ p.max) : p.isFree off = false := by
  obtain ⟨i, bound, rfl⟩ := p.visited h off le
  refine Bool.eq_false_iff.mpr (List.find?_eq_none.mp none _ (List.mem_map.mpr ⟨i, ?_, rfl⟩))
  exact List.mem_range.mpr (by omega)

/-- The fold behind `oldest`: the best so far is a member or the start, and no member
was used earlier. -/
theorem oldest_fold (l : List (Sigma fun _ : Addr => Ref)) (start : Option Ref) :
    let best := l.foldl (fun oldest d =>
      match oldest with
      | none => some d.2
      | some o => if (p.host d.2).lastUse < (p.host o).lastUse then some d.2 else some o) start
    (best = none ↔ l = [] ∧ start = none) ∧
      ∀ r, best = some r → (start = some r ∨ ∃ d ∈ l, d.2 = r) ∧
        ((∀ o, start = some o → (p.host r).lastUse ≤ (p.host o).lastUse) ∧
          ∀ d ∈ l, (p.host r).lastUse ≤ (p.host d.2).lastUse) := by
  induction l generalizing start with
  | nil =>
    refine ⟨by simp, fun r found => ⟨.inl found, fun o same => ?_, by simp⟩⟩
    have : r = o := Option.some.inj (found.symm.trans same)
    subst this
    exact Int64.le_refl _
  | cons d l ih =>
    rw [List.foldl_cons]
    cases start with
    | none =>
      obtain ⟨empty, member⟩ := ih (some d.2)
      refine ⟨by simpa using empty, fun r found => ?_⟩
      obtain ⟨origin, first, rest⟩ := member r found
      refine ⟨.inr ?_, by simp, ?_⟩
      · rcases origin with same | ⟨e, inside, same⟩
        · exact ⟨d, List.mem_cons_self, Option.some.inj same⟩
        · exact ⟨e, List.mem_cons_of_mem _ inside, same⟩
      · exact List.forall_mem_cons.mpr ⟨first _ rfl, rest⟩
    | some o =>
      by_cases earlier : (p.host d.2).lastUse < (p.host o).lastUse
      · obtain ⟨empty, member⟩ := ih (some d.2)
        simp only [earlier, if_true]
        refine ⟨by simpa using empty, fun r found => ?_⟩
        obtain ⟨origin, first, rest⟩ := member r found
        refine ⟨.inr ?_, ?_, List.forall_mem_cons.mpr ⟨first _ rfl, rest⟩⟩
        · rcases origin with same | ⟨e, inside, same⟩
          · exact ⟨d, List.mem_cons_self, Option.some.inj same⟩
          · exact ⟨e, List.mem_cons_of_mem _ inside, same⟩
        · intro _ same
          cases same
          exact Int64.le_trans (first _ rfl) (Int64.le_of_lt earlier)
      · obtain ⟨empty, member⟩ := ih (some o)
        simp only [earlier, if_false]
        refine ⟨by simpa using empty, fun r found => ?_⟩
        obtain ⟨origin, first, rest⟩ := member r found
        refine ⟨?_, first, List.forall_mem_cons.mpr ⟨?_, rest⟩⟩
        · rcases origin with same | ⟨e, inside, same⟩
          · exact .inl same
          · exact .inr ⟨e, List.mem_cons_of_mem _ inside, same⟩
        · exact Int64.le_trans (first _ rfl) (Int64.not_lt.mp earlier)

theorem mem_order (order : Order) (m : HostMap) {a : Addr} {r : Ref} :
    ⟨a, r⟩ ∈ order.list m ↔ m.get a = some r :=
  (order.perm m).mem_iff.trans (Dict.mem_entries m)

theorem oldest_some {order : Order} {r : Ref} (found : p.oldest order = some r) :
    (∃ a, p.dormant.get a = some r) ∧
      ∀ a s, p.dormant.get a = some s → (p.host r).lastUse ≤ (p.host s).lastUse := by
  obtain ⟨-, member⟩ := p.oldest_fold (order.list p.dormant) none
  obtain ⟨origin, -, least⟩ := member r found
  constructor
  · rcases origin with none | ⟨⟨a, _⟩, inside, rfl⟩
    · cases none
    · exact ⟨a, (mem_order order _).mp inside⟩
  · intro a s held
    exact least ⟨a, s⟩ ((mem_order order _).mpr held)

theorem oldest_none {order : Order} (none : p.oldest order = none) (a : Addr) :
    p.dormant.get a = .none := by
  obtain ⟨empty, -⟩ := (p.oldest_fold (order.list p.dormant) .none).1.mp none
  by_contra some
  obtain ⟨r, held⟩ := Option.ne_none_iff_exists'.mp some
  have member := (mem_order order _).mpr held
  simp [empty] at member

end Search

def Unknown (p : Pool) (a : Addr) : Prop := ∀ off d, p.table off = some d → d.v6 ≠ a

def Full (p : Pool) : Prop := ∀ off ≤ p.max, p.isFree off = false

/-- What `lookup6` does, with its answer. -/
inductive Asked (p : Pool) (a : Addr) (allocate : Bool) (now : Int64) : Option Addr → Pool → Prop
  | known {d : DynHost} {p' : Pool} (held : p.table d.off = some d) (own : d.v6 = a)
      (awake : d.dormant = false) (writes : p.Writes d.off (some (d.usedAt now)) p.dirty p') :
      Asked p a allocate now (some d.v4) p'
  | refused (never : allocate = false)
      (asleep : ∀ off d, p.table off = some d → d.v6 = a → d.dormant = true) :
      Asked p a allocate now none p
  | woken {d : DynHost} {p' : Pool} (will : allocate = true) (held : p.table d.off = some d)
      (own : d.v6 = a) (asleep : d.dormant = true)
      (writes : p.Writes d.off (some (d.wake.usedAt now)) p.dirty p') :
      Asked p a allocate now (some d.v4) p'
  | granted {off : BitVec 32} {p' : Pool} (will : allocate = true) (unknown : p.Unknown a)
      (inside : p.InRange off) (free : p.isFree off = true)
      (writes : p.Writes off
        (some { v4 := p.addr off, v6 := a, off, lastUse := now, dormant := false }) true p') :
      Asked p a allocate now (some (p.addr off)) p'
  | stolen {d : DynHost} {p' : Pool} (will : allocate = true) (unknown : p.Unknown a)
      (full : p.Full) (held : p.table d.off = some d) (asleep : d.dormant = true)
      (oldest : ∀ off e, p.table off = some e → e.dormant = true → d.lastUse ≤ e.lastUse)
      (writes : p.Writes d.off (some ((d.rename a).wake.usedAt now)) true p') :
      Asked p a allocate now (some d.v4) p'
  | exhausted (will : allocate = true) (unknown : p.Unknown a) (full : p.Full)
      (awake : ∀ off d, p.table off = some d → d.dormant = false) (e : Xlate.Event) :
      Asked p a allocate now none (p.report e)

section Asking

variable {a : Addr}

theorem Sound.unknown (sound : p.Sound) (inactive : p.mapped.get a = none)
    (unknown : p.dormant.get a = none) : p.Unknown a :=
  fun _ _ held => sound.filed.unknown inactive unknown held

theorem Sound.asleep (sound : p.Sound) (inactive : p.mapped.get a = none) {off : BitVec 32}
    {d : DynHost} (held : p.table off = some d) (own : d.v6 = a) : d.dormant = true := by
  by_contra awake
  obtain ⟨r, found, -⟩ := sound.find_mapped held (Bool.eq_false_iff.mpr awake)
  rw [own, inactive] at found
  cases found

/-- A host keeps its IPv4 address when it wakes, and also when it is renamed. -/
theorem v4_activate (p : Pool) (r : Ref) (now : Int64) :
    ((p.activate r now).host r).v4 = (p.host r).v4 := by
  simp [activate, host, Heap.modify, Heap.get_set, DynHost.wake, DynHost.usedAt]

theorem v4_steal (p : Pool) (r : Ref) (a : Addr) (now : Int64) :
    ((p.steal r a now).host r).v4 = (p.host r).v4 := by
  simp [steal, activate, host, Heap.modify, Heap.get_set, DynHost.wake, DynHost.usedAt,
    DynHost.rename]

theorem assign_asked (sound : p.Sound) (m : Moment) (inactive : p.mapped.get a = none) :
    Asked p a true m.now.unix (p.assign a m).1 (p.assign a m).2 := by
  rw [assign, inactive]
  cases sleeping : p.dormant.get a with
  | some r =>
    obtain ⟨-, held, rfl, asleep⟩ := sound.dormant sleeping
    dsimp only
    rw [v4_activate]
    exact .woken rfl held rfl asleep ((sound.activate _ sleeping).report _)
  | none =>
    have unknown := sound.unknown inactive sleeping
    dsimp only
    cases search : p.findFree (p.hash a) with
    | some off =>
      obtain ⟨free, le⟩ := p.findFree_some search
      have parts := free
      simp only [isFree, Bool.and_eq_true, decide_eq_true_eq, Bool.not_eq_true'] at parts
      exact .granted rfl unknown ⟨parts.1.1, le⟩ free
        ((sound.fresh _ ⟨parts.1.1, le⟩ parts.1.2 inactive sleeping).report _)
    | none =>
      have full : p.Full := fun off le => p.findFree_none search le
      cases choice : p.oldest m.order with
      | none =>
        refine .exhausted rfl unknown full (fun off d held => ?_) _
        by_contra asleep
        obtain ⟨r, found, -⟩ := sound.find_dormant held ((Bool.not_eq_false _).mp asleep)
        cases (p.oldest_none choice d.v6).symm.trans found
      | some r =>
        obtain ⟨⟨b, found⟩, least⟩ := p.oldest_some choice
        obtain ⟨-, held, rfl, asleep⟩ := sound.dormant found
        dsimp only
        rw [v4_steal]
        refine .stolen rfl unknown full held asleep (fun off e held' asleep' => ?_)
          ((sound.steal _ found inactive sleeping).report _)
        obtain ⟨s, found', rfl⟩ := sound.find_dormant held' asleep'
        exact least _ _ found'

theorem lookup6_asked (sound : p.Sound) (a : Addr) (allocate : Bool) (m : Moment) :
    Asked p a allocate m.now.unix (p.lookup6 a allocate m).1 (p.lookup6 a allocate m).2 := by
  rw [lookup6]
  cases active : p.mapped.get a with
  | some r =>
    obtain ⟨here, held, own, awake⟩ := sound.mapped active
    exact .known held own awake (sound.touch _ here)
  | none =>
    cases allocate with
    | false => exact .refused rfl fun _ _ held own => sound.asleep active held own
    | true => exact assign_asked sound m active

end Asking

end Pool

end Clatto.Addrmap
