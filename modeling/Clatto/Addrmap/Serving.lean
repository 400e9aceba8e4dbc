import Clatto.Addrmap.Mapping

/-! A host that is served keeps its address: while no more time than a lease goes by, neither other
hosts nor maintenance take the address away. -/

namespace Clatto.Addrmap

open Netip

/-- A point in time between two others, in whole seconds. -/
def Moment.During (s e : Time) (m : Moment) : Prop :=
  s.unix.toInt ≤ m.now.unix.toInt ∧ m.now.unix.toInt ≤ e.unix.toInt

namespace Pool

variable {p p' : Pool} {a b : Addr} {s e : Time} {m : Moment}

/-- A pool serves the host `b` under the address `a`; the host was last seen between two points
in time. -/
def Serves (p : Pool) (a b : Addr) (s e : Time) : Prop :=
  ∃ off d, p.table off = some d ∧ d.v4 = a ∧ d.v6 = b ∧ d.dormant = false ∧
    s.unix.toInt ≤ d.lastUse.toInt ∧ d.lastUse.toInt ≤ e.unix.toInt

theorem Writes.serves {off : BitVec 32} {d : DynHost} {dirty : Bool}
    (writes : p.Writes off (some d) dirty p') (seen : d.lastUse = m.now.unix)
    (during : m.During s e) (v4 : d.v4 = a) (v6 : d.v6 = b) (awake : d.dormant = false) :
    p'.Serves a b s e := by
  refine ⟨off, d, ?_, v4, v6, awake, ?_, ?_⟩
  · rw [writes.table, Function.update_self]
  · rw [seen]
    exact during.1
  · rw [seen]
    exact during.2

/-- A write to the pool that leaves the host at its place awake, if there was one. -/
theorem Serves.writes (serves : p.Serves a b s e) {off : BitVec 32} {d : DynHost} {dirty : Bool}
    (writes : p.Writes off (some d) dirty p') (seen : d.lastUse = m.now.unix) (during : m.During s e)
    (same : ∀ h, p.table off = some h → h.dormant = false →
      d.v4 = h.v4 ∧ d.v6 = h.v6 ∧ d.dormant = false) : p'.Serves a b s e := by
  obtain ⟨l, h, held, v4, v6, awake, since, till⟩ := serves
  by_cases here : l = off
  · subst here
    obtain ⟨same4, same6, still⟩ := same h held awake
    exact writes.serves seen during (same4.trans v4) (same6.trans v6) still
  · refine ⟨l, h, ?_, v4, v6, awake, since, till⟩
    rw [writes.table, Function.update_of_ne here]
    exact held

theorem Serves.replied (serves : p.Serves a b s e) (during : m.During s e) {off : BitVec 32}
    {answer : Option Addr} (replied : p.Replied off m.now.unix answer p') : p'.Serves a b s e := by
  cases replied with
  | silent => exact serves
  | answer held _ writes =>
    refine serves.writes writes rfl during fun h held' awake => ?_
    cases held.symm.trans held'
    exact ⟨rfl, rfl, awake⟩

theorem Serves.asked (serves : p.Serves a b s e) (sound : p.Sound) (during : m.During s e)
    {c : Addr} {allocate : Bool} {answer : Option Addr}
    (asked : p.Asked c allocate m.now.unix answer p') : p'.Serves a b s e := by
  cases asked with
  | refused => exact serves
  | exhausted => exact serves
  | known held _ _ writes =>
    refine serves.writes writes rfl during fun h held' awake => ?_
    cases held.symm.trans held'
    exact ⟨rfl, rfl, awake⟩
  | woken _ held _ asleep writes =>
    refine serves.writes writes rfl during fun h held' awake => ?_
    cases held.symm.trans held'
    cases asleep.symm.trans awake
  | granted _ _ _ free writes =>
    refine serves.writes writes rfl during fun h held' _ => ?_
    cases held'.symm.trans (sound.vacant_of_free free)
  | stolen _ _ _ held asleep _ writes =>
    refine serves.writes writes rfl during fun h held' awake => ?_
    cases held.symm.trans held'
    cases asleep.symm.trans awake

theorem Serves.maintained (serves : p.Serves a b s e) (during : m.During s e)
    (lease : e.unix.toInt ≤ s.unix.toInt + p.minLease.seconds.toInt)
    (aged : p.Maintained m.now.unix p') : p'.Serves a b s e := by
  obtain ⟨off, d, held, v4, v6, awake, since, till⟩ := serves
  have busy : d.idle p.minLease.seconds m.now.unix = false := by
    have short := p.minLease.seconds_le
    have bound := e.unix_le
    have low := d.lastUse.le_toInt
    have before := during.1
    have after := during.2
    rw [DynHost.idle, decide_eq_false_iff_not, Int64.lt_iff_toInt_lt, Int64.toInt_add,
      Int.bmod_eq_of_le (by omega) (by omega)]
    omega
  refine ⟨off, d, ?_, v4, v6, awake, since, till⟩
  rw [aged.table, held, Option.bind_some, DynHost.aged, DynHost.rested]
  simp [awake, busy]

theorem serves_of_lookup6 (sound : p.Sound) (during : m.During s e) {allocate : Bool}
    (answer : (p.lookup6 b allocate m).1 = some a) : (p.lookup6 b allocate m).2.Serves a b s e := by
  have asked := lookup6_asked sound b allocate m
  generalize p.lookup6 b allocate m = q at asked answer
  obtain ⟨found, q⟩ := q
  cases asked with
  | refused => cases answer
  | exhausted => cases answer
  | known _ own awake writes =>
    cases answer
    exact writes.serves rfl during rfl own awake
  | woken _ _ own _ writes =>
    cases answer
    exact writes.serves rfl during rfl own rfl
  | granted _ _ _ _ writes =>
    cases answer
    exact writes.serves rfl during rfl rfl rfl
  | stolen _ _ _ _ _ _ writes =>
    cases answer
    exact writes.serves rfl during rfl rfl rfl

end Pool

/-- A mapper with the table `t` that serves the host `b` under the address `a`. -/
structure Mapper.Serves (t : Table) (a b : Addr) (s e : Time) (x : Mapper) : Prop where
  table : x.table = t
  pool : ∃ p, x.pool = some p ∧ t.Hosts p ∧ p.Serves a b s e ∧
    e.unix.toInt ≤ s.unix.toInt + p.minLease.seconds.toInt

namespace Mapper.Serves

variable {t : Table} {a b : Addr} {s e : Time} {x : Mapper} {m : Moment}

theorem answer (serves : x.Serves t a b s e) (m : Moment) :
    (x.mapIPv4ToIPv6 a m).1 = .ok (.ok b) := by
  obtain ⟨rfl, p, here, hosts, ⟨off, d, held, rfl, rfl, awake, -, -⟩, -⟩ := serves
  have place := (hosts.sound.placed held).2
  have found := (hosts.clear (hosts.sound.mem_pairs.mpr ⟨off, d, held, rfl⟩)).1
  have reply := Pool.lookup4_awake hosts.sound held awake m
  rw [hosts.entry] at found
  rw [mapIPv4ToIPv6_pool found rfl here, place, reply]
  rfl

theorem mapIPv4ToIPv6 (serves : x.Serves t a b s e) (during : m.During s e) (c : Addr) :
    (x.mapIPv4ToIPv6 c m).2.Serves t a b s e := by
  obtain ⟨table, p, here, hosts, served, lease⟩ := serves
  have works : x.Works := by
    intro q there
    cases here.symm.trans there
    exact table ▸ hosts
  obtain ⟨same, works'⟩ := works_mapIPv4ToIPv6 works c m
  refine ⟨same.trans table, ?_⟩
  unfold Mapper.mapIPv4ToIPv6 at works' ⊢
  split
  · exact ⟨p, here, hosts, served, lease⟩
  split
  · exact ⟨p, here, hosts, served, lease⟩
  · exact ⟨p, here, hosts, served, lease⟩
  · split
    · exact ⟨p, here, hosts, served, lease⟩
    · rename_i q there
      cases here.symm.trans there
      cases four : c.as4 with
      | error fault =>
        rw [Pool.lookup4, four]
        exact ⟨p, rfl, hosts, served, lease⟩
      | ok c4 =>
        obtain ⟨answer, -, replied⟩ := Pool.lookup4_replied hosts.sound four m
        refine ⟨_, rfl, hosts.replied replied, served.replied during replied, ?_⟩
        rw [replied.keeps.minLease]
        exact lease
  · exact ⟨p, here, hosts, served, lease⟩

theorem mapIPv6ToIPv4 (serves : x.Serves t a b s e) (during : m.During s e) (c : Addr)
    (allocate : Bool) : (x.mapIPv6ToIPv4 c allocate m).2.Serves t a b s e := by
  obtain ⟨rfl, p, here, hosts, served, lease⟩ := serves
  cases found : x.table.lookup6 c with
  | none =>
    rw [mapIPv6ToIPv4_pool found here]
    have asked := Pool.lookup6_asked hosts.sound c allocate m
    refine ⟨rfl, _, rfl, hosts.asked asked found, served.asked hosts.sound during asked, ?_⟩
    rw [asked.keeps.minLease]
    exact lease
  | some entry =>
    unfold Mapper.mapIPv6ToIPv4
    rw [found]
    dsimp only
    split <;> exact ⟨rfl, p, here, hosts, served, lease⟩

theorem maintain (serves : x.Serves t a b s e) (during : m.During s e) :
    (x.maintain m).Serves t a b s e := by
  obtain ⟨rfl, p, here, hosts, served, lease⟩ := serves
  have aged := Pool.maintain_maintained m hosts.sound
  refine ⟨rfl, p.maintain m, ?_, hosts.maintained aged, served.maintained during lease aged, ?_⟩
  · rw [Mapper.maintain, here]
    rfl
  · rw [aged.keeps.minLease]
    exact lease

end Mapper.Serves

end Clatto.Addrmap
