import Clatto.Addrmap.Mapping
import Clatto.Daemon.Daemon
import Clatto.Xlate.Frugal

/-! Which packets take addresses from the pool. -/

namespace Clatto.Addrmap

open Netip

namespace Pool

variable {p p' : Pool} {a : Addr} {now : Int64} {answer : Option Addr}

/-- A host takes an address that nobody had, or one that it or another host had while it was
dormant. -/
def Takes (p : Pool) (a : Addr) (p' : Pool) : Prop :=
  ∃ off v4, p'.standing = Function.update p.standing off (some (v4, a, false)) ∧
    (p.standing off = none ∨ ∃ v6, p.standing off = some (v4, v6, true))

theorem Asked.takes {allocate : Bool} (sound : p.Sound) (asked : p.Asked a allocate now answer p') :
    p'.standing = p.standing ∨ p.Takes a p' := by
  have dormant {d : DynHost} (held : p.table d.off = some d) (asleep : d.dormant = true) :
      p.standing d.off = some (d.v4, d.v6, true) := by
    rw [Pool.standing, held, Option.map_some, asleep]
  cases asked with
  | known held _ _ writes => exact .inl (writes.standing held rfl rfl rfl)
  | refused => exact .inl rfl
  | @woken d _ _ held own asleep writes =>
    refine .inr ⟨d.off, d.v4, ?_, .inr ⟨d.v6, dormant held asleep⟩⟩
    rw [writes.standing_eq, ← own]
    rfl
  | @granted off _ _ _ _ free writes =>
    refine .inr ⟨off, p.addr off, writes.standing_eq, .inl ?_⟩
    simp only [isFree, Bool.and_eq_true, Bool.not_eq_true'] at free
    rw [Pool.standing, sound.vacant free.1.2]
    rfl
  | @stolen d _ _ _ _ held asleep _ writes =>
    exact .inr ⟨d.off, d.v4, writes.standing_eq, .inr ⟨d.v6, dormant held asleep⟩⟩
  | exhausted => exact .inl rfl

end Pool

/-- A mapper with the table `t` whose pool has the assignments `standing`. -/
structure Mapper.Stands (t : Table) (standing : Option (BitVec 32 → Option (Addr × Addr × Bool)))
    (s : Mapper) : Prop where
  table : s.table = t
  sound : ∀ p, s.pool = some p → p.Sound
  standing : s.pool.map Pool.standing = standing

namespace Mapper.Stands

variable {t : Table} {standing : Option (BitVec 32 → Option (Addr × Addr × Bool))} {s : Mapper}

theorem mapIPv4ToIPv6 (stands : s.Stands t standing) (a : Addr) (m : Moment) :
    (s.mapIPv4ToIPv6 a m).2.Stands t standing := by
  unfold Mapper.mapIPv4ToIPv6
  split
  · exact stands
  split
  · exact stands
  · exact stands
  · split
    · exact stands
    · rename_i p here
      have sound := stands.sound p here
      have same : (p.lookup4 a m).2.standing = p.standing := by
        cases four : a.as4 with
        | error fault =>
          rw [Pool.lookup4, four]
        | ok a4 =>
          obtain ⟨answer, -, replied⟩ := Pool.lookup4_replied sound four m
          exact replied.standing
      refine ⟨stands.table, ?_, ?_⟩
      · rintro q ⟨⟩
        exact Pool.lookup4_sound sound a m
      · rw [← stands.standing, here]
        exact congrArg some same
  · exact stands

theorem mapIPv6ToIPv4 (stands : s.Stands t standing) (b : Addr) (m : Moment) :
    (s.mapIPv6ToIPv4 b false m).2.Stands t standing := by
  unfold Mapper.mapIPv6ToIPv4
  split
  · split
    · exact stands
    · rename_i p here
      have asked := Pool.lookup6_asked (stands.sound p here) b false m
      refine ⟨stands.table, ?_, ?_⟩
      · rintro q ⟨⟩
        exact asked.sound (stands.sound p here)
      · rw [← stands.standing, here]
        exact congrArg some asked.standing
  · split <;> exact stands

/-- An allocation changes at most the assignment of the host that is asked for. -/
theorem takes (stands : s.Stands t standing) (b : Addr) (m : Moment) :
    (s.mapIPv6ToIPv4 b true m).2.Stands t standing ∨
      ∃ p p', s.pool = some p ∧ p.Takes b p' ∧ (s.mapIPv6ToIPv4 b true m).2 = ⟨t, some p'⟩ ∧
        p'.Sound := by
  unfold Mapper.mapIPv6ToIPv4
  split
  · split
    · exact .inl stands
    · rename_i p here
      have sound := stands.sound p here
      have asked := Pool.lookup6_asked sound b true m
      rcases asked.takes sound with same | takes
      · refine .inl ⟨stands.table, ?_, ?_⟩
        · rintro q ⟨⟩
          exact asked.sound sound
        · rw [← stands.standing, here]
          exact congrArg some same
      · exact .inr ⟨p, _, here, takes, by rw [stands.table], asked.sound sound⟩
  · split <;> exact .inl stands

end Mapper.Stands

end Clatto.Addrmap

namespace Clatto

open Netip Addrmap Xlate

theorem Outside.consult_ok {ω : Type} (outside : Outside ω)
    {call : Mapper → Moment → Checked (Except MapError Addr) × Mapper} {s : Mapper} {x : ω} {a : Addr}
    (answered : (outside.consult call (s, x)).1 = .ok a) :
    (call s (outside.moment x).1).1 = .ok (.ok a) := by
  simp only [consult] at answered
  split at answered
  · rename_i found
    rw [found, answered]
  · cases answered

/-- Surroundings without state, in which it is always the same second. -/
def Outside.still : Outside Unit where
  moment _ := (Occasion.plain.moment, ())
  packet := Env.constant.packet
  randomIdent := Env.constant.randomIdent
  packet_length := Env.constant.packet_length

namespace Daemon

variable {ω : Type}

/-- Questions without an allocation leave all assignments as they are. -/
theorem stands_kept (outside : Outside ω) (t : Table)
    (standing : Option (BitVec 32 → Option (Addr × Addr × Bool))) :
    outside.env.frugal.Keeps fun w => w.1.Stands t standing where
  to6 a _ stands := stands.mapIPv4ToIPv6 a _
  to4 a _ _ stands := stands.mapIPv6ToIPv4 a _
  packet _ _ stands := stands
  ident _ stands := stands

/-- Only a packet that can be delivered takes an address, and only for its source. -/
theorem translate_takes (outside : Outside ω) (tr : Translator) (raw : Bytes) {s : Mapper}
    (sound : ∀ p, s.pool = some p → p.Sound) (x : ω) :
    (translate outside.env tr raw (s, x)).world.1.pool.map Pool.standing =
        s.pool.map Pool.standing ∨
      ∃ p dst4 pool pool', Deliverable tr raw p ∧
        (s.mapIPv6ToIPv4 (.from16 p.dst) false (outside.moment x).1).1 = .ok (.ok (.v4 dst4)) ∧
        s.pool = some pool ∧ (translate outside.env tr raw (s, x)).world.1.pool = some pool' ∧
        pool.Takes (.from16 p.src) pool' := by
  have stands : s.Stands s.table (s.pool.map Pool.standing) := ⟨rfl, sound, rfl⟩
  have kept := stands_kept outside s.table
  rcases translate_keeps (w := (s, x)) (kept _) stands tr raw with same | found
  · exact .inl same.standing
  obtain ⟨p, dst4, deliverable, found, after⟩ := found
  have between : (outside.env.to4 false p.dst (s, x)).2.1.Stands s.table
      (s.pool.map Pool.standing) := (kept _).maps4 stands false p.dst
  rw [Env.to4_world _ true] at after
  generalize (outside.env.to4 false p.dst (s, x)).2 = w at between after
  rcases between.takes (.from16 p.src) (outside.moment w.2).1 with
    same | ⟨q, pool', here, takes, done⟩
  · exact .inl (after _ (kept _) same).standing
  · obtain ⟨bits, mapped⟩ := Env.to4_answer found
    obtain ⟨reached, sound'⟩ := done
    have ended := after (fun w => w.1.Stands s.table (some pool'.standing)) (kept _) (by
      show (w.1.mapIPv6ToIPv4 _ true _).2.Stands _ _
      rw [reached]
      exact ⟨rfl, fun _ same => Option.some.inj same ▸ sound', rfl⟩)
    obtain ⟨final, last, same⟩ := Option.map_eq_some_iff.mp ended.standing
    have begun := between.standing
    rw [here] at begun
    obtain ⟨pool, first, same'⟩ := Option.map_eq_some_iff.mp begun.symm
    refine .inr ⟨p, bits, pool, final, deliverable, outside.consult_ok mapped, first, last, ?_⟩
    rw [Pool.Takes, same, same']
    exact takes

def sessionTable : Table where
  wkpfStrict := false
  pfx := some (prefixEntry (.of (.v6 (0x64ff9b#128 <<< 96) "") 96))
  hosts4 := ∅
  hosts6 := ∅
  nets4 := [poolEntry (.of (.v4 0x0a000000#32) 24),
    prefixEntry (.of (.v6 (0x64ff9b#128 <<< 96) "") 96)]
  nets6 := [prefixEntry (.of (.v6 (0x64ff9b#128 <<< 96) "") 96)]
  poolEntry := some (poolEntry (.of (.v4 0x0a000000#32) 24))

def sessionPool (p : Pool) : Pool :=
  p.reserve fun a => sessionTable.lookup4 a ≠ sessionTable.poolEntry

/-- A packet from 2001:db8::7 to 64:ff9b::c000:205 without a payload. -/
def openingPacket : Bytes :=
  [0x60, 0, 0, 0, 0, 0, 59, 64, 0x20, 0x01, 0x0d, 0xb8, 0, 0, 0, 0, 0, 0, 0, 0, 0, 0, 0, 7,
    0, 0x64, 0xff, 0x9b, 0, 0, 0, 0, 0, 0, 0, 0, 192, 0, 2, 5]

/-- The same packet with a hop limit of one. -/
def expiredPacket : Bytes :=
  [0x60, 0, 0, 0, 0, 0, 59, 1, 0x20, 0x01, 0x0d, 0xb8, 0, 0, 0, 0, 0, 0, 0, 0, 0, 0, 0, 7,
    0, 0x64, 0xff, 0x9b, 0, 0, 0, 0, 0, 0, 0, 0, 192, 0, 2, 5]

/-- The first packet takes the address 10.0.0.237, the second one takes none. -/
theorem translate_takes_opening : ∃ p q pool',
    newPool (.of (.v4 0x0a000000#32) 24) {} = .ok p ∧
    (translate Outside.still.env (.sample 1500 .drop) openingPacket
      (⟨sessionTable, some (sessionPool p)⟩, ())).world.1.pool = some pool' ∧
    Deliverable (.sample 1500 .drop) openingPacket q ∧
    (sessionPool p).Takes (.from16 q.src) pool' ∧
    pool'.standing 237 = some (.v4 0x0a0000ed#32, .v6 (0x20010db8 <<< 96 + 7) "", false) ∧
    (translate Outside.still.env (.sample 1500 .drop) expiredPacket
      (⟨sessionTable, some (sessionPool p)⟩, ())).world.1.pool.map Pool.standing =
        some (sessionPool p).standing := by
  obtain ⟨p, made⟩ : ∃ p, newPool (.of (.v4 0x0a000000#32) 24) {} = .ok p := ⟨_, rfl⟩
  have sound : ∀ q, some (sessionPool p) = some q → q.Sound := by
    rintro q ⟨⟩
    have sound := (Pool.newPool_sound made).1
    exact ⟨sound.size, sound.filed, sound.placed, sound.used⟩
  have takes (raw : Bytes) := translate_takes Outside.still (.sample 1500 .drop) raw
    (s := ⟨sessionTable, some (sessionPool p)⟩) sound ()
  have host : (translate Outside.still.env (.sample 1500 .drop) openingPacket
        (⟨sessionTable, some (sessionPool p)⟩, ())).world.1.pool.map (·.standing 237) =
          some (some (.v4 0x0a0000ed#32, .v6 (0x20010db8 <<< 96 + 7) "", false)) ∧
      (sessionPool p).standing 237 = none := by
    have ran : (newPool (.of (.v4 0x0a000000#32) 24) {}).toOption.all (fun p =>
        decide ((translate Outside.still.env (.sample 1500 .drop) openingPacket
          (⟨sessionTable, some (sessionPool p)⟩, ())).world.1.pool.map (·.standing 237) =
            some (some (.v4 0x0a0000ed#32, .v6 (0x20010db8 <<< 96 + 7) "", false)) ∧
          (sessionPool p).standing 237 = none)) = true := by decide +kernel
    rw [made] at ran
    exact of_decide_eq_true ran
  obtain ⟨q, dst4, pool, pool', deliverable, -, here, after, taken⟩ :=
    (takes openingPacket).resolve_left fun same => by
      have before := congrArg (Option.map (· 237)) same
      rw [Option.map_map, Option.map_map] at before
      cases host.1.symm.trans (before.trans (congrArg some host.2))
  cases here
  rw [after] at host
  refine ⟨p, q, pool', made, after, deliverable, taken, Option.some.inj host.1, (takes expiredPacket).resolve_right ?_⟩
  rintro ⟨p, -, -, -, deliverable, -⟩
  have hop := (parse6_ok deliverable.parsed).byteAt_hdr (show 7 < 40 by decide)
  have far := deliverable.hop
  rw [Packet6.hop, hop] at far
  exact absurd far (by decide)

end Daemon

end Clatto
