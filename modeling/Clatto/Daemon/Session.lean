import Clatto.Addrmap.Serving
import Clatto.Daemon.Consumption
import Clatto.Daemon.Reloads
import Clatto.Xlate.Forwarding

/-! A conversation that a host begins. Its first packet leaves under an address of the pool, and
while the lease runs whatever is sent to that address comes back to the host. -/

namespace Clatto

open Netip Addrmap Xlate Effect

variable {ω : Type} {outside : Outside ω} {tr : Translator} {t : Table} {a b : Addr} {s e : Time}

/-- The clock shows times between two points only. -/
def Outside.During (outside : Outside ω) (s e : Time) : Prop :=
  ∀ x, (outside.moment x).1.During s e

theorem Outside.serves_kept (during : outside.During s e) :
    outside.env.Keeps fun w => w.1.Serves t a b s e where
  to6 c w serves := serves.mapIPv4ToIPv6 (during w.2) c
  to4 c allocate w serves := serves.mapIPv6ToIPv4 (during w.2) c allocate
  packet _ _ serves := serves
  ident _ serves := serves

theorem Outside.to6_served (outside : Outside ω) {m : Mapper} (served : m.Serves t a b s e)
    {dst : Bytes} (own : .from4 dst = a) (six : b.is6 = true) (x : ω) : (outside.env.to6 dst (m, x)).1 = .ok b.as16 := by
  have answer : (outside.env.mapIPv4ToIPv6 (.from4 dst) (m, x)).1 = .ok b := by
    show (outside.consult _ (m, x)).1 = _
    rw [own]
    simp only [consult, served.answer]
  unfold Env.to6
  split
  · rename_i found
    rw [found] at answer
    cases answer
  · rename_i found
    rw [found] at answer
    cases answer
    rw [if_pos six]

theorem Outside.to4_minLease (outside : Outside ω) {m : Mapper} {p : Pool} (works : m.Works)
    (here : m.pool = some p) (allocate : Bool) (c : Bytes) (x : ω) :
    ∃ q, (outside.env.to4 allocate c (m, x)).2.1.pool = some q ∧ q.minLease = p.minLease := by
  rw [Env.to4_world]
  show ∃ q, (m.mapIPv6ToIPv4 _ allocate (outside.moment x).1).2.pool = some q ∧ _
  cases found : m.table.lookup6 (.from16 c) with
  | none =>
    rw [Mapper.mapIPv6ToIPv4_pool found here]
    exact ⟨_, rfl, (Pool.lookup6_asked (works p here).sound ..).keeps.minLease⟩
  | some entry =>
    unfold Mapper.mapIPv6ToIPv4
    rw [found]
    dsimp only
    split <;> exact ⟨p, here, rfl⟩

/-- A host that asks for an address and is given one of the pool is served. -/
theorem Outside.to4_serves {m : Mapper} {x : ω} {p : Pool} (during : outside.During s e)
    (table : m.table = t) (works : m.Works) (here : m.pool = some p)
    (lease : e.unix.toInt ≤ s.unix.toInt + p.minLease.seconds.toInt) {src src4 : Bytes}
    (dynamic : t.lookup6 (.from16 src) = none)
    (answered : (outside.env.to4 true src (m, x)).1 = .ok src4) :
    (outside.env.to4 true src (m, x)).2.1.Serves t (.from4 src4) (.from16 src) s e := by
  subst table
  have hosts := works p here
  have mapped : m.mapIPv6ToIPv4 (.from16 src) true (outside.moment x).1 = _ :=
    Mapper.mapIPv6ToIPv4_pool dynamic here
  have asked := Pool.lookup6_asked hosts.sound (.from16 src) true (outside.moment x).1
  have world : (outside.env.to4 true src (m, x)).2.1 =
      ⟨m.table, some (p.lookup6 (.from16 src) true (outside.moment x).1).2⟩ := by
    rw [Env.to4_world]
    show (m.mapIPv6ToIPv4 _ _ _).2 = _
    rw [mapped]
  have answer : (p.lookup6 (.from16 src) true (outside.moment x).1).1 = some (.from4 src4) := by
    unfold Env.to4 at answered
    split at answered
    · cases answered
    · rename_i bits _ found
      cases answered
      have told := outside.consult_ok (s := m) (x := x) (congrArg Prod.fst found)
      rw [mapped] at told
      rw [Netutil.from4_ofNat]
      cases given : (p.lookup6 (.from16 src) true (outside.moment x).1).1 with
      | none =>
        rw [given] at told
        cases told
      | some c =>
        rw [given] at told
        cases told
        rfl
    · cases answered
  rw [world]
  refine ⟨rfl, _, rfl, hosts.asked asked dynamic,
    Pool.serves_of_lookup6 hosts.sound (during x) answer, ?_⟩
  rw [asked.keeps.minLease]
  exact lease

namespace Daemon

/-- A daemon whose translator serves the host `b` under the address `a`. -/
structure Session (tr : Translator) (t : Table) (a b : Addr) (s e : Time) (d : Daemon) : Prop where
  engine : d.engine = some ⟨.ok tr, t⟩
  serves : Mapper.Serves t a b s e ⟨t, d.cur.pool⟩

variable {d : Daemon}

theorem receive_running (running : d.engine = some ⟨.ok tr, t⟩) (raw : Bytes) (x : ω) :
    receive outside raw (d, x) =
      let out := translate outside.env tr raw (⟨t, d.cur.pool⟩, x)
      ⟨out.result, out.acts, (d.consulted out.world.1.pool, out.world.2)⟩ := by
  rw [receive, running]

theorem Session.consulted {m : Mapper} (running : d.engine = some ⟨.ok tr, t⟩)
    (serves : m.Serves t a b s e) : (d.consulted m.pool).Session tr t a b s e :=
  ⟨running, rfl, serves.pool⟩

theorem Session.receive (session : d.Session tr t a b s e) (during : outside.During s e)
    (raw : Bytes) (x : ω) : (receive outside raw (d, x)).world.1.Session tr t a b s e := by
  rw [receive_running session.engine]
  exact .consulted session.engine
    ((Outside.serves_kept during).translate session.serves tr raw)

theorem serves_save {p : Pool} (serves : p.Serves a b s e) (m : Moment) (stamp : Stamp)
    (faults : Pool.Faults) (file : Option Text) :
    (p.save m stamp faults file).2.Serves a b s e ∧
      (p.save m stamp faults file).2.minLease = p.minLease := by
  have written : (if faults.write then p else { p with dirty := false }).Serves a b s e ∧
      (if faults.write then p else { p with dirty := false }).minLease = p.minLease := by
    split <;> exact ⟨serves, rfl⟩
  rw [Pool.save]
  split
  · exact ⟨serves, rfl⟩
  · dsimp only
    split
    · exact written
    · split <;> exact written

/-- Maintenance and the file it writes leave a host alone whose lease runs. -/
theorem Session.tick (session : d.Session tr t a b s e) {o : Occasion}
    (during : o.moment.During s e) : (d.tick o).Session tr t a b s e := by
  refine ⟨session.engine, rfl, ?_⟩
  obtain ⟨-, p, here, hosts, serves, lease⟩ := session.serves.maintain during
  change d.cur.pool.map (·.maintain o.moment) = some p at here
  unfold Daemon.tick Config.Resolved.savePoolState
  dsimp only
  split
  · rw [here, Option.map_some]
    split
    · obtain ⟨kept, same⟩ := serves_save serves o.moment o.stamp o.faults none
      exact ⟨_, rfl, hosts_save hosts .., kept, same ▸ lease⟩
    · exact ⟨p, rfl, hosts, serves, lease⟩
  · exact ⟨p, here, hosts, serves, lease⟩

/-- The ticks among some events fall between two points in time. -/
def TicksDuring (s e : Time) (events : List Event) : Prop :=
  ∀ o, .tick o ∈ events → o.moment.During s e

theorem Session.handle (session : d.Session tr t a b s e) (during : outside.During s e)
    {event : Event} (timely : TicksDuring s e [event]) (x : ω) :
    (handle outside event (d, x)).world.1.Session tr t a b s e := by
  cases event with
  | packet raw => exact session.receive during raw x
  | tick o => exact session.tick (timely o List.mem_cons_self)

theorem Session.serve (during : outside.During s e) {events : List Event}
    (timely : TicksDuring s e events) {w : Daemon × ω} (session : w.1.Session tr t a b s e) :
    (serve outside events w).world.1.Session tr t a b s e := by
  induction events generalizing w with
  | nil => exact session
  | cons event events ih =>
    have now : TicksDuring s e [event] := fun o tick =>
      timely o (List.mem_cons.mpr (.inl (List.mem_singleton.mp tick)))
    have first := session.handle during now w.2
    rw [Daemon.serve, bind_run]
    -- a packet that faults ends the run where it is
    rcases ran : Daemon.handle outside event w with ⟨_ | _, acts, w'⟩
    · rw [ran] at first
      exact first
    · rw [ran] at first
      exact ih (fun o tick => timely o (List.mem_cons_of_mem _ tick)) first

/-- A data packet from IPv4 that can be sent on to the host `dst6`. -/
structure Inbound (outside : Outside ω) (tr : Translator) (t : Table) (raw : Bytes) (q : Packet4)
    (src6 dst6 data : Bytes) (whole : Bool) : Prop where
  found : parse4 raw = .ok q
  through : Through4 tr q
  kind : q.proto = protoICMP → q.icmpType = 8 ∨ q.icmpType = 0
  remote : ∀ pool y, (outside.env.to6 q.src (⟨t, pool⟩, y)).1 = .ok src6
  fits : noFragHdr tr q.flagsOff tr.room q.hdr.length q.data.length = some whole
  payload : rewrite4to6 tr.cfg.udpChecksum q src6 dst6 = .ok data

/-- A packet for the address of a host that is served is sent to the host. -/
theorem Session.delivers (session : d.Session tr t a b s e) (during : outside.During s e)
    (willing : outside.env.Willing) (usable : mtuMin ≤ tr.cfg.mtu) {raw src6 data : Bytes}
    {q : Packet4} {whole : Bool} (inbound : Inbound outside tr t raw q src6 b.as16 data whole)
    (own : .from4 q.dst = a) (six : b.is6 = true) (x : ω) :
    (Daemon.receive outside raw (d, x)).acts =
      (pieces4to6 tr q src6 b.as16 data whole).map .packet ++ [.translated 4 q.size] := by
  rw [receive_running session.engine,
    translate_through4 inbound.found inbound.through inbound.kind]
  have dst := outside.to6_served session.serves own six x
  have src : (outside.env.to6 q.src (outside.env.to6 q.dst (⟨t, d.cur.pool⟩, x)).2).1 =
      .ok src6 := by
    have kept : (outside.env.to6 q.dst (⟨t, d.cur.pool⟩, x)).2.1.Serves t a b s e :=
      (Outside.serves_kept during).maps6 session.serves q.dst
    generalize (outside.env.to6 q.dst (⟨t, d.cur.pool⟩, x)).2 = w at kept ⊢
    obtain ⟨⟨table, pool⟩, y⟩ := w
    cases kept.table
    exact inbound.remote pool y
  dsimp only
  rw [data4_run dst src]
  exact forward4_sends willing usable inbound.fits inbound.payload _

/-- The first packet of a host opens a session, under the source it leaves with. -/
theorem Session.opened {pool : Pool} (order : d.InOrder) (running : d.engine = some ⟨.ok tr, t⟩)
    (here : d.cur.pool = some pool) (during : outside.During s e)
    (lease : e.unix.toInt ≤ s.unix.toInt + pool.minLease.seconds.toInt) {raw : Bytes} {p : Packet6}
    (deliverable : Deliverable tr raw p) (dynamic : t.lookup6 (.from16 p.src) = none) {n : Nat}
    {x : ω} (translated : .translated 6 n ∈ (Daemon.receive outside raw (d, x)).acts) :
    ∃ y, (Daemon.receive outside raw (d, x)).acts = [.packet y, .translated 6 p.size] ∧
      (Daemon.receive outside raw (d, x)).world.1.Session tr t (.from4 (Bytes.sub y 12 16))
        (.from16 p.src) s e := by
  have works : Mapper.Works ⟨t, d.cur.pool⟩ := by
    have same : t = d.cur.table := order.engine _ running
    rw [same]
    exact order.works
  rw [receive_running running, deliverable.through] at translated ⊢
  obtain ⟨src4, dst4, ident, flags, data, dst, src, sent⟩ := data6_translated translated
  refine ⟨_, sent, .consulted running ?_⟩
  rw [source_whole6to4 (Env.to4_length src), data6_run dst src]
  obtain ⟨table, works'⟩ := (works_kept outside t).maps4 (w := (⟨t, d.cur.pool⟩, x)) ⟨rfl, works⟩
    false p.dst
  obtain ⟨pool', here', same⟩ := outside.to4_minLease works here false p.dst x
  have serves := Outside.to4_serves (x := (outside.env.to4 false p.dst (⟨t, d.cur.pool⟩, x)).2.2)
    during table works' here' (same ▸ lease) dynamic src
  exact ((Outside.serves_kept during).alike.forward6 _ _ ⟨rfl, serves⟩).2.2.2

/-- Whatever happens while the lease runs, replies to a packet of a host reach the host: what is
sent to the source that the packet left with is sent on in full to the source it came with. -/
theorem replies_arrive {pool : Pool} (order : d.InOrder) (running : d.engine = some ⟨.ok tr, t⟩)
    (here : d.cur.pool = some pool) (during : outside.During s e)
    (lease : e.unix.toInt ≤ s.unix.toInt + pool.minLease.seconds.toInt)
    (willing : outside.env.Willing) (usable : mtuMin ≤ tr.cfg.mtu) {raw : Bytes} {p : Packet6}
    (deliverable : Deliverable tr raw p) (dynamic : t.lookup6 (.from16 p.src) = none) {n : Nat}
    {x : ω} (translated : .translated 6 n ∈ (receive outside raw (d, x)).acts) :
    ∃ y, (receive outside raw (d, x)).acts = [.packet y, .translated 6 p.size] ∧
      ∀ events, TicksDuring s e events → ∀ reply q src6 data whole,
        Inbound outside tr t reply q src6 p.src data whole → q.dst = Bytes.sub y 12 16 →
        (receive outside reply
            (serve outside events (receive outside raw (d, x)).world).world).acts =
          (pieces4to6 tr q src6 p.src data whole).map .packet ++ [.translated 4 q.size] := by
  obtain ⟨y, sent, session⟩ :=
    Session.opened order running here during lease deliverable dynamic translated
  refine ⟨y, sent, ?_⟩
  intro events timely reply q src6 data whole inbound own
  have host : (Addr.from16 p.src).as16 = p.src := Netutil.as16_from16 p.length_src
  rw [← host] at inbound ⊢
  exact (Session.serve during timely session).delivers during willing usable inbound
    (congrArg Addr.from4 own) rfl _

/-- A packet from 192.0.2.5 to 10.0.0.237, the address that the pool picks. -/
def replyPacket : Bytes :=
  [69, 0, 0, 20, 0, 0, 0, 0, 64, 59, 173, 189, 192, 0, 2, 5, 10, 0, 0, 237]

theorem opening_translated {p : Pool} (made : newPool (.of (.v4 0x0a000000#32) 24) {} = .ok p) :
    (translate Outside.still.env (.sample 1500 .drop) openingPacket
      (⟨sessionTable, some (sessionPool p)⟩, ())).acts =
        [.packet [69, 0, 0, 20, 0, 0, 0, 0, 63, 59, 174, 189, 10, 0, 0, 237, 192, 0, 2, 5],
          .translated 6 40] := by
  have ran : (newPool (.of (.v4 0x0a000000#32) 24) {}).toOption.all (fun p =>
      decide ((translate Outside.still.env (.sample 1500 .drop) openingPacket
        (⟨sessionTable, some (sessionPool p)⟩, ())).acts =
          [.packet [69, 0, 0, 20, 0, 0, 0, 0, 63, 59, 174, 189, 10, 0, 0, 237, 192, 0, 2, 5],
            .translated 6 40])) = true := by decide +kernel
  rw [made] at ran
  exact of_decide_eq_true ran

theorem opening_deliverable : ∃ p, Deliverable (.sample 1500 .drop) openingPacket p ∧ p.size = 40 ∧
    p.src = [0x20, 0x01, 0x0d, 0xb8, 0, 0, 0, 0, 0, 0, 0, 0, 0, 0, 0, 7] := by
  obtain ⟨p, parsed, facts⟩ : ∃ p, parse6 openingPacket = .ok p ∧
      (p.extLen + p.data.length = p.payloadLen ∧ p.proto ≠ protoICMPv6 ∧
        p.dst ≠ (Translator.sample 1500 .drop).local6 ∧ 2 ≤ p.hop.toNat ∧ p.size = 40 ∧
        p.src = [0x20, 0x01, 0x0d, 0xb8, 0, 0, 0, 0, 0, 0, 0, 0, 0, 0, 0, 7]) :=
    ⟨_, rfl, by decide +kernel⟩
  obtain ⟨length, other, away, far, size, src⟩ := facts
  exact ⟨p, ⟨by decide, parsed, length, fun icmp => absurd icmp other, away, far,
    fun icmp => absurd icmp other⟩, size, src⟩

theorem reply_inbound : ∃ q, q.dst = [10, 0, 0, 237] ∧
    Inbound Outside.still (.sample 1500 .drop) sessionTable replyPacket q
      [0, 0x64, 0xff, 0x9b, 0, 0, 0, 0, 0, 0, 0, 0, 192, 0, 2, 5]
      [0x20, 0x01, 0x0d, 0xb8, 0, 0, 0, 0, 0, 0, 0, 0, 0, 0, 0, 7] [] true ∧
    (pieces4to6 (.sample 1500 .drop) q [0, 0x64, 0xff, 0x9b, 0, 0, 0, 0, 0, 0, 0, 0, 192, 0, 2, 5]
        [0x20, 0x01, 0x0d, 0xb8, 0, 0, 0, 0, 0, 0, 0, 0, 0, 0, 0, 7] [] true).map Action.packet ++
      [.translated 4 q.size] =
        [.packet [0x60, 0, 0, 0, 0, 0, 59, 63, 0, 0x64, 0xff, 0x9b, 0, 0, 0, 0, 0, 0, 0, 0, 192, 0,
          2, 5, 0x20, 0x01, 0x0d, 0xb8, 0, 0, 0, 0, 0, 0, 0, 0, 0, 0, 0, 7], .translated 4 20] := by
  refine ⟨⟨replyPacket, [], by decide, by decide⟩, rfl, ⟨by rfl, ⟨⟨?_, ?_, ?_, ?_⟩, ?_, ?_⟩, ?_, ?_,
    ?_, ?_⟩, ?_⟩
  case refine_8 =>
    intro pool y
    rfl
  all_goals decide +kernel

theorem exists_sessionPool : ∃ p, newPool (.of (.v4 0x0a000000#32) 24) {} = .ok p ∧
    0 ≤ p.minLease.seconds.toInt ∧ sessionTable.poolEntry = some (poolEntry p.pfx) :=
  ⟨_, rfl, by decide +kernel, rfl⟩

theorem exists_session {p : Pool} (hosts : sessionTable.Hosts p) : ∃ d : Daemon,
    d.engine = some ⟨.ok (.sample 1500 .drop), sessionTable⟩ ∧ d.cur.pool = some p ∧ d.InOrder := by
  obtain ⟨r, -⟩ := exists_filed false none
  refine ⟨{ Daemon.new r nowhere .plain with
    cur := { r with table := sessionTable, pool := some p }
    engine := some ⟨.ok (.sample 1500 .drop), sessionTable⟩ }, rfl, rfl, ?_, ?_⟩
  · rintro q ⟨⟩
    exact hosts
  · rintro e ⟨⟩
    rfl

/-- The reply reaches 2001:db8::7 after any packets and ticks of the same second. -/
theorem replies_arrive_once : ∃ d : Daemon,
    (receive Outside.still openingPacket (d, ())).acts =
      [.packet [69, 0, 0, 20, 0, 0, 0, 0, 63, 59, 174, 189, 10, 0, 0, 237, 192, 0, 2, 5],
        .translated 6 40] ∧
    ∀ events, TicksDuring Occasion.plain.moment.now Occasion.plain.moment.now events →
      (receive Outside.still replyPacket (serve Outside.still events
        (receive Outside.still openingPacket (d, ())).world).world).acts =
          [.packet [0x60, 0, 0, 0, 0, 0, 59, 63, 0, 0x64, 0xff, 0x9b, 0, 0, 0, 0, 0, 0, 0, 0, 192,
            0, 2, 5, 0x20, 0x01, 0x0d, 0xb8, 0, 0, 0, 0, 0, 0, 0, 0, 0, 0, 0, 7], .translated 4 20] := by
  obtain ⟨p, made, lasting, entry⟩ := exists_sessionPool
  have hosts : sessionTable.Hosts (sessionPool p) := .of_fresh made entry
  obtain ⟨d, running, here, order⟩ := exists_session hosts
  have acts : (receive Outside.still openingPacket (d, ())).acts =
      [.packet [69, 0, 0, 20, 0, 0, 0, 0, 63, 59, 174, 189, 10, 0, 0, 237, 192, 0, 2, 5],
        .translated 6 40] := by
    rw [receive_running running, here, ← opening_translated made]
  have translated : .translated 6 40 ∈ (receive Outside.still openingPacket (d, ())).acts := by
    rw [acts]
    decide
  have lease : Occasion.plain.moment.now.unix.toInt ≤
      Occasion.plain.moment.now.unix.toInt + (sessionPool p).minLease.seconds.toInt :=
    Int.le_add_of_nonneg_right lasting
  have willing : Outside.still.env.Willing := fun n w => Env.constant_willing n w.2
  obtain ⟨p6, deliverable, -, src⟩ := opening_deliverable
  obtain ⟨q, dst, inbound, pieces⟩ := reply_inbound
  obtain ⟨y, sent, arrives⟩ := replies_arrive order running here (fun _ => ⟨le_rfl, le_rfl⟩) lease
    willing (by decide) deliverable (by rw [src]; decide +kernel) translated
  refine ⟨d, acts, fun events timely => ?_⟩
  rw [acts] at sent
  cases (List.cons.inj sent).1
  rw [← src] at inbound pieces
  rw [← pieces]
  exact arrives events timely replyPacket q _ [] true inbound dst

end Daemon

end Clatto
