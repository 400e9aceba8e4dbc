import Clatto.Addrmap.Mapping
import Clatto.Addrmap.PoolRuns

/-! Which addresses a mapper can answer with. A map is checked by its first address only,
so that a wide one may lead to addresses that must never be translated. -/

namespace Clatto.Addrmap

open Netip Netutil

/-- Whether an IPv6 address may be translated is decided by its first 32 bits. -/
theorem validIPv6_take (a : Bytes) : validIPv6 a = validIPv6 (a.take 4) := by
  have byte (i : Nat) (lt : i < 4) : Bytes.byteAt (a.take 4) i = Bytes.byteAt a i := by
    simp [Bytes.byteAt, lt]
  simp only [validIPv6, byte _ (show 0 < 4 by decide), byte _ (show 1 < 4 by decide),
    byte _ (show 2 < 4 by decide), byte _ (show 3 < 4 by decide)]

/-- All addresses of a network behind 32 bits or more may be translated, or none. -/
theorem validIPv6_of_contains {p : Prefix} {n : Nat} {b : Addr} (net : p.Network 128 n)
    (long : 32 ≤ n) (inside : p.contains b) : validIPv6 b.as16 = validIPv6 p.addr.as16 := by
  obtain ⟨family, -, same⟩ := net.contains_iff.mp inside
  have head : b.as16.take 4 = p.addr.as16.take 4 := by
    apply Bytes.toNat_inj (by simp)
    rw [toNat_take_as16 family, toNat_take_as16 net.family]
    exact Prefix.div_pow_congr (by omega) same
  rw [validIPv6_take, head, ← validIPv6_take]

/-- An IPv4 address that may be translated. -/
def Unreserved (a : Addr) : Prop :=
  ∃ x, a = .v4 x ∧ classifyIPv4 (Bytes.ofNat 4 x.toNat) ≠ .invalid

/-- The maps and the pool of a builder have no address that must never be translated, and
neither is the translator's own address inside the prefix one. -/
structure Builder.Unreserved (d : Builder) : Prop where
  four : ∀ e ∈ d.entries, e.kind ≠ .rfc6052 → ∀ x, e.v4.contains (.v4 x) →
    classifyIPv4 (Bytes.ofNat 4 x.toNat) ≠ .invalid
  six : ∀ e ∈ d.entries, e.v4Only = true → validIPv6 e.v6.addr.as16 = true

namespace Pool

variable {p p' : Pool}

/-- The hosts of a pool have addresses that may be translated. -/
def ValidHosts (p : Pool) : Prop := ∀ off h, p.table off = some h → validIPv6 h.v6.as16 = true

theorem Step.range (step : Step p p') (sound : p.Sound) : p'.toRange = p.toRange := by
  cases step with
  | lookup4 a m =>
    cases four : a.as4 with
    | error fault => rw [Pool.lookup4, four]
    | ok a4 =>
      obtain ⟨answer, -, replied⟩ := lookup4_replied sound four m
      exact replied.keeps.range
  | lookup6 a allocate m => exact (lookup6_asked sound a allocate m).keeps.range
  | maintain m => exact (maintain_maintained m sound).keeps.range
  | setLeases => rfl
  | read m s => exact (read_sound sound m s).2.range
  | reserve => rfl

theorem Run.range (run : Run p p') (sound : p.Sound) : p'.toRange = p.toRange := by
  induction run with
  | refl => rfl
  | tail before step ih => exact (step.range (Run.sound before sound)).trans ih

/-- An address of a pool that must never be translated is not its network address. -/
theorem inRange_of_invalid (p : Pool) {x : BitVec 32} (inside : p.pfx.contains (.v4 x))
    (invalid : classifyIPv4 (Bytes.ofNat 4 x.toNat) = .invalid) : p.InRange (x &&& p.max) := by
  have place := p.addr_of_contains inside
  refine ⟨fun zero => p.unreserved ?_, ?_⟩
  · have base : p.base ||| 0#32 = x := by
      rw [zero] at place
      exact Addr.v4.inj place
    rw [BitVec.or_zero] at base
    rw [base, invalid]
  · rw [BitVec.le_def, BitVec.toNat_and]
    exact Nat.and_le_right

/-- An empty pool with one address that is not withheld hands it out. -/
theorem grant_only (sound : p.Sound) (empty : p.table = fun _ => none) {off : BitVec 32}
    (inside : p.InRange off) (withheld : ∀ a, p.reserved a = decide (a ≠ p.addr off))
    (b : Addr) :
    ∃ q h, Step p q ∧ q.Sound ∧ q.table = Function.update p.table off (some h) ∧ h.v6 = b ∧
      h.v4 = p.addr off ∧ h.dormant = false := by
  have asked := lookup6_asked sound b true (.second 0)
  have step := Step.lookup6 p b true (.second 0)
  generalize p.lookup6 b true (.second 0) = q at asked step
  obtain ⟨answer, q⟩ := q
  have absent {h : DynHost} (held : p.table h.off = some h) : False := by
    rw [empty] at held
    cases held
  cases asked with
  | known held => exact (absent held).elim
  | refused never => cases never
  | woken _ held => exact (absent held).elim
  | stolen _ _ _ held => exact (absent held).elim
  | exhausted _ _ full =>
    have used : p.isUsed off = false := by
      rw [Bool.eq_false_iff, Ne, sound.used, empty]
      exact not_or.mpr ⟨inside.1, fun other => other rfl⟩
    have free := full off inside.2
    rw [isFree, used, withheld, decide_eq_true inside.1] at free
    simp at free
  | @granted l _ _ _ inside' free writes =>
    simp only [isFree, Bool.and_eq_true, Bool.not_eq_true', withheld] at free
    obtain rfl := addr_inj inside'.2 inside.2 (not_not.mp (of_decide_eq_false free.2))
    exact ⟨q, _, step, writes.sound, writes.table, rfl, rfl, rfl⟩

/-- A host may get any address of a pool, when the table withholds all others. -/
theorem exists_host (p : Pool) {x : BitVec 32} (inside : p.pfx.contains (.v4 x))
    (invalid : classifyIPv4 (Bytes.ofNat 4 x.toNat) = .invalid) {b : Addr}
    (valid : validIPv6 b.as16 = true) (reserved : Addr → Bool) :
    ∃ o p₀ q, newPool p.pfx o = .ok p₀ ∧ Run p₀ q ∧ q.reserved = reserved ∧ q.ValidHosts ∧
      ∀ m, (q.lookup6 b false m).1 = some (.v4 x) := by
  obtain ⟨p₀, made, range⟩ := p.exists_newPool {}
  obtain ⟨sound, empty⟩ := newPool_sound made
  have inside₀ : p₀.pfx.contains (.v4 x) := by
    rw [range]
    exact inside
  have place := p₀.addr_of_contains inside₀
  -- a table that withholds everything but `x`, and then the one that was asked for
  obtain ⟨q, h, step, sound', table, rfl, v4, awake⟩ :=
    @grant_only (p₀.reserve fun a => a ≠ .v4 x)
      ⟨sound.size, sound.filed, sound.placed, sound.used⟩ empty (x &&& p₀.max)
      (p₀.inRange_of_invalid inside₀ invalid) (fun a => by rw [← place]; rfl) b
  have held : (q.reserve reserved).table (x &&& p₀.max) = some h :=
    (congrFun table _).trans (Function.update_self _ _ _)
  refine ⟨_, p₀, q.reserve reserved, made, ?_, rfl, fun l h' here => ?_, fun m => ?_⟩
  · exact ((Relation.ReflTransGen.single (.reserve p₀ _)).tail step).tail (.reserve q reserved)
  · by_cases same : l = x &&& p₀.max
    · rw [same, held] at here
      cases here
      exact valid
    · have other := (congrFun table l).trans (Function.update_of_ne same _ _)
      have vacant : p₀.table l = none := congrFun empty l
      cases here.symm.trans (other.trans vacant)
  · have answer := @lookup6_held (q.reserve reserved) _ _
      ⟨sound'.size, sound'.filed, sound'.placed, sound'.used⟩ held false (.inr awake) m
    rw [answer, v4, ← place]
    rfl

end Pool

namespace Entry

variable {e : Entry}

theorem Valid.usable (valid : e.Valid) (six : e.onSix) : validIPv6 e.v6.addr.as16 = true := by
  cases valid with
  | pfx ok => exact ok.usable
  | static ok => exact ok.usable
  | self => cases six
  | pool => cases six

end Entry

/-- A table that was built, with any state of its pool whose hosts may be translated. -/
structure Mapper.Reached (d : Builder) (t : Table) (s : Mapper) : Prop where
  table : s.table = t
  pool : s.pool = none ↔ d.pool = none
  run : ∀ p, s.pool = some p → ∃ q o p₀, d.pool = some q ∧ newPool q.pfx o = .ok p₀ ∧ Pool.Run p₀ p
  reserved : ∀ p, s.pool = some p → p.reserved = fun a => decide (t.lookup4 a ≠ t.poolEntry)
  hosts : ∀ p, s.pool = some p → p.ValidHosts

namespace Mapper

variable {d : Builder} {s s₀ : Mapper} {a b : Addr} {m : Moment}

theorem Reached.sound (reached : Reached d s₀.table s) {p : Pool} (here : s.pool = some p) :
    p.Sound ∧ ∃ q, d.pool = some q ∧ p.pfx = q.pfx := by
  obtain ⟨q, o, p₀, found, made, run⟩ := reached.run p here
  have sound := (Pool.newPool_sound made).1
  refine ⟨run.sound sound, q, found, ?_⟩
  rw [run.range sound, Pool.newPool_pfx made]

theorem exists_reached (d : Builder) (t : Table) : ∃ s, Reached d t s := by
  cases pool : d.pool with
  | none => exact ⟨⟨t, none⟩, rfl, by simp [pool], by simp, by simp, by simp⟩
  | some q =>
    obtain ⟨p₀, made, -⟩ := q.exists_newPool {}
    let p := p₀.reserve fun a => t.lookup4 a ≠ t.poolEntry
    refine ⟨⟨t, some p⟩, rfl, by simp [pool], ?_, ?_, ?_⟩
    · rintro _ ⟨⟩
      exact ⟨q, {}, p₀, pool, made, .single (.reserve p₀ _)⟩
    · rintro _ ⟨⟩
      rfl
    · rintro _ ⟨⟩ off h held
      have empty := congrFun (Pool.newPool_sound made).2 off
      cases empty.symm.trans held

theorem Reached.unreserved6 (built : s₀.table.Built d) (unreserved : d.Unreserved)
    (reached : Reached d s₀.table s) {allocate : Bool}
    (sent : (s.mapIPv6ToIPv4 b allocate m).1 = .ok (.ok a)) : Unreserved a := by
  rw [← reached.table] at built
  have mapped := mapped6 sent
  generalize (s.mapIPv6ToIPv4 b allocate m).2 = s' at mapped
  cases mapped with
  | @static e _ found kind joined =>
    obtain ⟨member, six, inside⟩ := built.lookup6_eq_some.mp found
    rcases static_cases member kind with ⟨n, net4, net6, -⟩ | ⟨-, only⟩
    · obtain ⟨inside4, -⟩ := joinStatic6_joinStatic4 net4 net6 inside joined
      obtain ⟨x, rfl⟩ := eq_v4_of_bitLen (net4.contains_iff.mp inside4).1
      exact ⟨x, rfl, unreserved.four e member (by simp [kind]) x inside4⟩
    · simp [Entry.onSix, kind, only] at six
  | embedded found kind extracted =>
    obtain ⟨member, -, inside⟩ := built.lookup6_eq_some.mp found
    obtain ⟨p, ok, rfl⟩ := rfc6052_cases member kind
    have back := (embed_unembed ok inside extracted).2
    obtain ⟨v4, -, -, -, rfl⟩ := unembed_eq_ok.mp extracted
    obtain ⟨admits, -⟩ := (Table.embed_eq_ok rfl).mp back
    refine ⟨_, rfl, ?_⟩
    rw [admits.valid]
    decide
  | @pool p _ found here answer =>
    obtain ⟨sound, q, attached, same⟩ := reached.sound here
    obtain ⟨sound', keeps, off, rfl, kept⟩ := (Pool.Returned.lookup6 answer).kept sound
    obtain ⟨h, held, -⟩ := Pool.tenancy_some.mp kept.held
    have le := (sound'.placed held).1.2
    rw [keeps.range] at le
    have inside := p.contains_addr le
    rw [same] at inside
    exact ⟨_, rfl, unreserved.four _ (d.attached q attached) (by simp [poolEntry]) _ inside⟩

theorem Reached.valid4 (built : s₀.table.Built d) (unreserved : d.Unreserved)
    (reached : Reached d s₀.table s)
    (sent : (s.mapIPv4ToIPv6 a m).1 = .ok (.ok b)) : validIPv6 b.as16 = true := by
  rw [← reached.table] at built
  have mapped := mapped4 sent
  generalize (s.mapIPv4ToIPv6 a m).2 = s' at mapped
  cases mapped with
  | @static e _ found kind joined =>
    obtain ⟨member, inside, -⟩ := built.lookup4_some found
    rcases static_cases member kind with ⟨n, net4, net6, both⟩ | ⟨full, only⟩
    · obtain ⟨inside6, -⟩ := joinStatic4_joinStatic6 net4 net6 inside joined
      rw [validIPv6_of_contains net6 (by omega) inside6]
      exact (d.valid e member).usable (by simp [Entry.onSix, kind, both])
    · rw [joinStatic6, if_pos full] at joined
      cases joined
      exact unreserved.six e member only
  | @embedded e _ found kind embedded =>
    obtain ⟨member, inside, -⟩ := built.lookup4_some found
    obtain ⟨p, ok, rfl⟩ := rfc6052_cases member kind
    obtain ⟨x, rfl⟩ := eq_v4_of_bitLen (everything4_network.contains_iff.mp inside).1
    obtain ⟨inside6, -⟩ := unembed_embed ok found embedded
    obtain ⟨l, -, net⟩ := ok.network
    rw [validIPv6_of_contains net (by cases l <;> decide) inside6]
    exact ok.usable
  | @pool e p _ found kind here answer =>
    obtain ⟨off, h, held, -, rfl, -⟩ := pool_answer (reached.sound here).1 answer
    exact reached.hosts p here off h held

/-- Every address of a map or of the pool is what some host is mapped to. -/
theorem exists_sent (built : s₀.table.Built d) {e : Entry} (member : e ∈ d.entries)
    (kind : e.kind ≠ .rfc6052) {x : BitVec 32} (inside : e.v4.contains (.v4 x))
    (invalid : classifyIPv4 (Bytes.ofNat 4 x.toNat) = .invalid) :
    ∃ s b allocate m, Reached d s₀.table s ∧ validIPv6 b.as16 = true ∧
      (s.mapIPv6ToIPv4 b allocate m).1 = .ok (.ok (.v4 x)) := by
  cases d.valid e member with
  | pfx => exact absurd rfl kind
  | @static v4 v6 ok =>
    obtain ⟨n, net4, net6⟩ := ok.networks
    obtain ⟨y, sent, -⟩ := joinStatic6_eq (e := staticEntry v4 v6) net4 net6
      (net4.contains_iff.mp inside).1
    obtain ⟨inside6, back⟩ := joinStatic4_joinStatic6 (e := staticEntry v4 v6) net4 net6 inside sent
    obtain ⟨s, reached⟩ := exists_reached d s₀.table
    refine ⟨s, .v6 y "", true, .second 0, reached, ?_, ?_⟩
    · rw [validIPv6_of_contains net6 (by omega) inside6]
      exact ok.usable
    · have found : s.table.lookup6 (.v6 y "") = some (staticEntry v4 v6) := by
        rw [reached.table]
        exact built.lookup6_eq_some.mpr ⟨member, rfl, inside6⟩
      rw [mapIPv6ToIPv4_static found rfl]
      exact map_ok_ok.mpr back
  | @self bits ok v6 =>
    have same := (Table.Built.contains_host4 member rfl).mp inside
    cases same
    exact absurd invalid ok
  | pool p =>
    obtain ⟨q, attached, same⟩ := d.pooled _ member rfl
    rw [congrArg Entry.v4 same] at inside
    -- an address with a zone is in no prefix, so that the pool is asked for it
    let b : Addr := .v6 (0x20010db8#128 <<< 96) "lo"
    have unclaimed : s₀.table.lookup6 b = none := by
      cases found : s₀.table.lookup6 b with
      | none => rfl
      | some o =>
        obtain ⟨member', six, inside'⟩ := built.lookup6_eq_some.mp found
        obtain ⟨n, net⟩ := (d.valid o member').network6 six
        cases (net.contains_iff.mp inside').2.1
    obtain ⟨o, p₀, p', made, run, reserved, hosts, answer⟩ := q.exists_host inside invalid
      (b := b) (by decide) fun a => decide (s₀.table.lookup4 a ≠ s₀.table.poolEntry)
    refine ⟨⟨s₀.table, some p'⟩, b, false, .second 0, ⟨rfl, by simp [attached], ?_, ?_, ?_⟩,
      by decide, ?_⟩
    · rintro _ ⟨⟩
      exact ⟨q, o, p₀, attached, made, run⟩
    · rintro _ ⟨⟩
      exact reserved
    · rintro _ ⟨⟩
      exact hosts
    · rw [@mapIPv6ToIPv4_pool ⟨s₀.table, some p'⟩ _ _ _ _ unclaimed rfl, answer]
      rfl

/-- A mapper answers with addresses that may be translated, provided that no map reaches
one that must not be. -/
theorem answers_unreserved_iff (built : d.build = .ok s₀) :
    (∀ s, Reached d s₀.table s →
      (∀ b allocate m a, validIPv6 b.as16 = true →
        (s.mapIPv6ToIPv4 b allocate m).1 = .ok (.ok a) → Unreserved a) ∧
      ∀ a m b, (s.mapIPv4ToIPv6 a m).1 = .ok (.ok b) → validIPv6 b.as16 = true) ↔
    d.Unreserved := by
  have built := Table.built_of_build built
  constructor
  · intro answers
    refine ⟨fun e member kind x inside invalid => ?_, fun e member only => ?_⟩
    · obtain ⟨s, b, allocate, m, reached, valid, sent⟩ :=
        exists_sent built member kind inside invalid
      obtain ⟨_, ⟨⟩, other⟩ := (answers s reached).1 b allocate m _ valid sent
      exact other invalid
    · obtain ⟨s, reached⟩ := exists_reached d s₀.table
      have valid := d.valid e member
      have kind : e.kind = .static := by cases valid <;> cases only; rfl
      have full : e.v4.bits = 32 := by
        rcases static_cases member kind with ⟨-, -, -, both⟩ | ⟨full, -⟩
        · cases both.symm.trans only
        · exact full
      have host : e.isHost4 = true := Entry.isHost4_iff.mpr ⟨kind, full⟩
      have found : s.table.lookup4 e.v4.addr = some e := by
        rw [reached.table, Table.lookup4, (built.hosts4 _ _).mpr ⟨member, host, rfl⟩]
      refine (answers s reached).2 e.v4.addr (.second 0) _ ?_
      rw [mapIPv4ToIPv6_static found kind, joinStatic6, if_pos full]
      rfl
  · intro unreserved s reached
    exact ⟨fun b allocate m a _ sent => reached.unreserved6 built unreserved sent,
      fun a m b sent => reached.valid4 built unreserved sent⟩

/-- A host with an address of its own. -/
theorem answers_unreserved_iff_host : ∃ d s, (Builder.new false).addStatic
      (.of (.v4 0x0a000005#32) 32) (.of (.v6 (0x20010db8#128 <<< 96) "") 128) = .ok d ∧
    d.build = .ok s ∧ ∀ s', Reached d s.table s' →
      (∀ b allocate m a, validIPv6 b.as16 = true →
        (s'.mapIPv6ToIPv4 b allocate m).1 = .ok (.ok a) → Unreserved a) ∧
      ∀ a m b, (s'.mapIPv4ToIPv6 a m).1 = .ok (.ok b) → validIPv6 b.as16 = true := by
  refine ⟨_, _, rfl, Builder.build_of_sorted _ (by decide +kernel) rfl rfl (by decide +kernel) rfl,
    (answers_unreserved_iff ?_).mpr ⟨fun e member _ x inside => ?_, fun e member only => ?_⟩⟩
  · exact Builder.build_of_sorted _ (by decide +kernel) rfl rfl (by decide +kernel) rfl
  · obtain rfl := List.mem_singleton.mp member
    cases (Table.Built.contains_host4 member (by decide)).mp inside
    decide
  · obtain rfl := List.mem_singleton.mp member
    cases only

/-- A map of 126.0.0.0/7 leads to the loopback addresses. -/
theorem answers_loopback : ∃ d s, (Builder.new false).addStatic
      (.of (.v4 0x7e000000#32) 7) (.of (.v6 (0x20010db8#128 <<< 96) "") 103) = .ok d ∧
    d.build = .ok s ∧ Reached d s.table s ∧
    validIPv6 (Addr.v6 (0x20010db8#128 <<< 96 ||| 0x1000001) "").as16 = true ∧
    (s.mapIPv6ToIPv4 (.v6 (0x20010db8#128 <<< 96 ||| 0x1000001) "") true (.second 0)).1 =
      .ok (.ok (.v4 0x7f000001#32)) ∧ ¬ Unreserved (.v4 0x7f000001#32) := by
  refine ⟨_, _, rfl, Builder.build_of_sorted _ (by decide +kernel) rfl rfl (by decide +kernel) rfl,
    ⟨rfl, by decide, ?_, ?_, ?_⟩, by decide, by decide +kernel, ?_⟩
  · nofun
  · nofun
  · nofun
  · rintro ⟨_, ⟨⟩, other⟩
    exact other (by decide)

end Mapper

end Clatto.Addrmap
