import Clatto.Addrmap.PoolMaintain

/-! Reading the state file: the assignments that are taken over line by line, and
what becomes of them at the end. -/

namespace Clatto.Addrmap

open Netip

namespace Pool

variable {p : Pool}

section Offsets

variable (p)

theorem offset_ofNat (bits : BitVec 32) : p.offset (Bytes.ofNat 4 bits.toNat) = bits &&& p.max := by
  have whole : bits.toNat % 256 ^ 4 = bits.toNat := Nat.mod_eq_of_lt bits.isLt
  rw [offset, Bytes.toNat_ofNat, whole, BitVec.ofNat_toNat, BitVec.setWidth_eq]

theorem base_dvd : 2 ^ (32 - p.bits) ∣ p.base.toNat := by
  have aligned := (Prefix.eq_masked_iff p.len).mp p.aligned
  rwa [p.four] at aligned

theorem toNat_lt {off : BitVec 32} (le : off ≤ p.max) : off.toNat < 2 ^ (32 - p.bits) := by
  have bound := BitVec.le_def.mp le
  rw [toNat_max] at bound
  have := @Nat.one_le_two_pow (32 - p.bits)
  omega

theorem toNat_addr {off : BitVec 32} (le : off ≤ p.max) :
    (p.base ||| off).toNat = p.base.toNat + off.toNat := by
  obtain ⟨net, same⟩ := p.base_dvd
  have small := p.toNat_lt le
  rw [BitVec.toNat_or, same, Nat.two_pow_add_eq_or_of_lt small]

theorem contains_iff_toNat (bits : BitVec 32) :
    p.pfx.contains (.v4 bits) ↔ bits.toNat / 2 ^ (32 - p.bits) = p.base.toNat / 2 ^ (32 - p.bits) := by
  rw [Prefix.contains_iff p.len, p.four]
  simp [Addr.bitLen, Addr.hasZone, Addr.value]

/-- The addresses of the prefix are the base address with an offset. -/
theorem addr_of_contains {bits : BitVec 32} (inside : p.pfx.contains (.v4 bits)) :
    p.addr (bits &&& p.max) = .v4 bits := by
  rw [contains_iff_toNat] at inside
  refine congrArg Addr.v4 (BitVec.eq_of_toNat_eq ?_)
  rw [toNat_addr _ (p.and_max_le bits), toNat_and_max]
  have whole := Nat.div_add_mod' bits.toNat (2 ^ (32 - p.bits))
  have net := Nat.div_mul_cancel p.base_dvd
  rw [← inside] at net
  omega

theorem contains_addr {off : BitVec 32} (le : off ≤ p.max) : p.pfx.contains (p.addr off) := by
  rw [addr, contains_iff_toNat, toNat_addr _ le]
  obtain ⟨net, same⟩ := p.base_dvd
  have small := p.toNat_lt le
  rw [same, Nat.mul_add_div (Nat.two_pow_pos _), Nat.div_eq_of_lt small,
    Nat.mul_div_cancel_left _ (Nat.two_pow_pos _), Nat.add_zero]

theorem addr_and_max {off : BitVec 32} (le : off ≤ p.max) : (p.base ||| off) &&& p.max = off := by
  obtain ⟨net, same⟩ := p.base_dvd
  have small := p.toNat_lt le
  refine BitVec.eq_of_toNat_eq ?_
  rw [toNat_and_max, toNat_addr _ le, same, Nat.mul_add_mod, Nat.mod_eq_of_lt small]

end Offsets

theorem accepts_eq_some {row : Row} {off : BitVec 32} :
    p.accepts row = some off ↔ p.InRange off ∧ row.v4 = p.addr off ∧
      Netutil.validIPv6 row.v6.as16 = true ∧ p.isUsed off = false ∧
      p.reserved row.v4 = false ∧ p.dormant.get row.v6 = none ∧ p.mapped.get row.v6 = none := by
  obtain ⟨v4, v6, last⟩ := row
  cases v4 with
  | zero => simp [accepts, addr]
  | v6 bits zone => simp [accepts, addr]
  | v4 bits =>
    simp only [accepts, offset_ofNat, InRange]
    constructor
    · intro found
      split at found
      · cases found
      split at found
      · cases found
      split at found
      · cases found
      split at found
      · cases found
      rename_i inside free dormant mapped
      cases found
      simp only [Bool.or_eq_true, Bool.not_eq_true', not_or, Bool.not_eq_false,
        decide_eq_true_eq, Bool.not_eq_true, Option.isSome_eq_false_iff,
        Option.isNone_iff_eq_none] at inside free dormant mapped
      exact ⟨⟨free.1.1, p.and_max_le bits⟩, (p.addr_of_contains inside.1).symm, inside.2,
        free.1.2, free.2, dormant, mapped⟩
    · rintro ⟨⟨nonzero, le⟩, same, valid, unused, unreserved, dormant, mapped⟩
      cases same
      simp only [p.addr_and_max le]
      have inside := p.contains_addr le
      rw [addr] at inside
      simpa [inside, valid, unused, unreserved, dormant, mapped] using nonzero

/-- What holds between two lines: every host that was loaded is still dormant. -/
structure Loading.Sound (p : Pool) (l : Loading) : Prop where
  sound : l.pool.Sound
  keeps : p.Keeps l.pool
  dirty : l.pool.dirty = p.dirty
  count : l.count = l.loaded.length
  live : ∀ r ∈ l.loaded, r < l.pool.heap.next
  distinct : l.loaded.Nodup
  dormant : ∀ r ∈ l.loaded, l.pool.dormant.get (l.pool.host r).v6 = some r

theorem Loading.Sound.start (sound : p.Sound) : Loading.Sound p ⟨p, 0, false, []⟩ where
  sound := sound
  keeps := .refl p
  dirty := rfl
  count := rfl
  live := by simp
  distinct := .nil
  dormant := by simp

theorem Loading.Sound.accept {l : Loading} (ok : Loading.Sound p l) {row : Row} {off : BitVec 32}
    (accepted : l.pool.accepts row = some off) :
    l.pool.Writes off
      (some { v4 := row.v4, v6 := row.v6, off, lastUse := row.last, dormant := true })
      l.pool.dirty (l.pool.restore row off) := by
  obtain ⟨inside, v4, -, unused, -, unknown, inactive⟩ := accepts_eq_some.mp accepted
  exact ok.sound.restore row inside unused inactive unknown v4

theorem Loading.Sound.line {l : Loading} (ok : Loading.Sound p l) (now : Int64) (line : Text) :
    Loading.Sound p (l.line now line) := by
  rw [Loading.line]
  split
  · exact ok
  · rename_i row _
    split
    · exact ok
    · rename_i off accepted
      have writes := ok.accept accepted
      obtain ⟨-, -, -, -, -, unknown, -⟩ := accepts_eq_some.mp accepted
      have next : (l.pool.restore row off).heap.next = l.pool.heap.next + 1 := rfl
      have old {r : Ref} (member : r ∈ l.loaded) :
          (l.pool.restore row off).host r = l.pool.host r := by
        exact (Heap.get_alloc ..).trans (if_neg (Nat.ne_of_lt (ok.live r member)))
      refine ⟨writes.sound, ok.keeps.trans writes.keeps, writes.dirty.trans ok.dirty, ?_, ?_, ?_, ?_⟩
      · simp [ok.count]
      · intro r member
        rw [next]
        rcases List.mem_append.mp member with before | here
        · exact Nat.lt_succ_of_lt (ok.live r before)
        · simp [List.mem_singleton.mp here]
      · refine List.nodup_append.mpr ⟨ok.distinct, List.nodup_singleton _, fun r before s here => ?_⟩
        rw [List.mem_singleton.mp here]
        exact Nat.ne_of_lt (ok.live r before)
      · intro r member
        change (l.pool.dormant.put row.v6 l.pool.heap.next).get _ = _
        rw [Dict.get_put]
        rcases List.mem_append.mp member with before | here
        · rw [old before]
          split
          · rename_i same
            have := ok.dormant r before
            rw [same, unknown] at this
            cases this
          · exact ok.dormant r before
        · rw [List.mem_singleton.mp here, if_pos]
          exact congrArg DynHost.v6 ((Heap.get_alloc ..).trans (if_pos rfl))

theorem Loading.Sound.lines {l : Loading} (ok : Loading.Sound p l) (now : Int64)
    (lines : List Text) : Loading.Sound p (lines.foldl (Loading.line now) l) := by
  induction lines generalizing l with
  | nil => exact ok
  | cons line lines ih => exact ih (ok.line now line)

end Pool

/-- What becomes of a loaded host at the end. -/
def DynHost.settled (future : Bool) (now minLease : Int64) (d : DynHost) : DynHost :=
  if future then d.usedAt (now - minLease)
  else if d.lastUse + minLease ≥ now then d.wake
  else d

namespace Pool

variable {p : Pool} (future : Bool) (now minLease : Int64)

theorem Writes.refl (sound : p.Sound) {off : BitVec 32} {d : DynHost}
    (held : p.table off = some d) : p.Writes off (some d) p.dirty p :=
  ⟨sound, .refl p, by rw [← held, Function.update_eq_self], rfl⟩

theorem settle_writes (sound : p.Sound) {r : Ref}
    (dormant : p.dormant.get (p.host r).v6 = some r) :
    p.Writes (p.host r).off (some ((p.host r).settled future now minLease)) p.dirty
      (settle future now minLease p r) := by
  obtain ⟨here, held, -, -⟩ := sound.dormant dormant
  rw [settle, DynHost.settled]
  split
  · exact sound.touch _ here
  split
  · exact sound.activate _ dormant
  · exact .refl sound held

theorem settle_others {r s : Ref} (different : s ≠ r)
    (dormant : p.dormant.get (p.host r).v6 = some r)
    (other : p.dormant.get (p.host s).v6 = some s) :
    (settle future now minLease p r).host s = p.host s ∧
      (settle future now minLease p r).dormant.get (p.host s).v6 = some s := by
  have apart : (p.host s).v6 ≠ (p.host r).v6 := by
    intro same
    rw [same, dormant] at other
    exact different (Option.some.inj other).symm
  rw [settle]
  split
  · exact ⟨(Heap.get_set ..).trans (if_neg different), other⟩
  split
  · exact ⟨(Heap.get_set ..).trans (if_neg different),
      (Dict.get_del ..).trans ((if_neg apart).trans other)⟩
  · exact ⟨rfl, other⟩

structure Settled (p : Pool) (offs : List (BitVec 32)) (change : DynHost → DynHost) (p' : Pool) :
    Prop where
  sound : p'.Sound
  keeps : p.Keeps p'
  dirty : p'.dirty = p.dirty
  table (off : BitVec 32) :
    p'.table off = (p.table off).map fun d => if off ∈ offs then change d else d

theorem settle_all (rs : List Ref) (sound : p.Sound) (distinct : rs.Nodup)
    (dormant : ∀ r ∈ rs, p.dormant.get (p.host r).v6 = some r) :
    Settled p (rs.map fun r => (p.host r).off) (DynHost.settled future now minLease)
      (rs.foldl (settle future now minLease) p) := by
  induction rs generalizing p with
  | nil =>
    refine ⟨sound, .refl p, rfl, fun off => ?_⟩
    simp
  | cons r rs ih =>
    obtain ⟨first, later⟩ := List.nodup_cons.mp distinct
    obtain ⟨head, tail⟩ := List.forall_mem_cons.mp dormant
    obtain ⟨here, held, -, -⟩ := sound.dormant head
    have writes := settle_writes future now minLease sound head
    have others {s : Ref} (member : s ∈ rs) :=
      settle_others future now minLease (fun same : s = r => first (same ▸ member)) head
        (tail s member)
    have rest := ih writes.sound later fun s member => by
      rw [(others member).1]
      exact (others member).2
    have offs : rs.map (fun s => ((settle future now minLease p r).host s).off) =
        rs.map fun s => (p.host s).off :=
      List.map_congr_left fun s member => by rw [(others member).1]
    rw [offs] at rest
    have absent : (p.host r).off ∉ rs.map fun s => (p.host s).off := by
      intro member
      obtain ⟨s, inside, same⟩ := List.mem_map.mp member
      obtain ⟨here', -, -, -⟩ := sound.dormant (tail s inside)
      rw [same, here] at here'
      exact first (Option.some.inj here' ▸ inside)
    refine ⟨rest.sound, writes.keeps.trans rest.keeps, rest.dirty.trans writes.dirty, fun off => ?_⟩
    rw [List.foldl_cons, rest.table, writes.table, List.map_cons]
    by_cases same : off = (p.host r).off
    · subst same
      rw [Function.update_self, held]
      simp only [Option.map_some, absent, List.mem_cons_self, if_true, if_false]
    · simp only [Function.update_of_ne same, List.mem_cons, same, false_or]

/-- Reading a state file keeps a pool sound, whatever the file says. -/
theorem read_sound (sound : p.Sound) (m : Moment) (s : Scan) :
    (p.read m s).2.Sound ∧ p.Keeps (p.read m s).2 := by
  have ok := (Loading.Sound.start sound).lines m.now.unix s.lines
  rw [read]
  split
  · exact ⟨ok.sound, ok.keeps⟩
  · have settled (future : Bool) (now minLease : Int64) :=
      settle_all future now minLease _ ok.sound ok.distinct ok.dormant
    exact ⟨(settled ..).sound, ok.keeps.trans (settled ..).keeps⟩

end Pool

end Clatto.Addrmap
