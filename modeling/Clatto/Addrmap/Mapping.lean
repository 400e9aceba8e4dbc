import Clatto.Addrmap.Across
import Clatto.Addrmap.PoolSave

/-! A table and its pool at work: an address that was mapped leads back to where it came
from. -/

namespace Clatto.Addrmap

open Netip Netutil
open Xlate (MapError)

namespace Pool

/-- Which host has which address, and whether it is dormant. -/
def standing (p : Pool) : BitVec 32 → Option (Addr × Addr × Bool) :=
  fun off => (p.table off).map fun d => (d.v4, d.v6, d.dormant)

variable {p p' : Pool} {a : Addr} {now : Int64} {answer : Option Addr}

theorem Writes.standing_eq {off : BitVec 32} {d : DynHost} {dirty : Bool}
    (writes : p.Writes off (some d) dirty p') :
    p'.standing = Function.update p.standing off (some (d.v4, d.v6, d.dormant)) := by
  funext l
  rw [Pool.standing, writes.table]
  by_cases same : l = off
  · subst same
    simp
  · simp [Pool.standing, Function.update_of_ne same]

theorem Writes.standing {off : BitVec 32} {d d' : DynHost} {dirty : Bool}
    (writes : p.Writes off (some d') dirty p') (held : p.table off = some d)
    (v4 : d'.v4 = d.v4) (v6 : d'.v6 = d.v6) (dormant : d'.dormant = d.dormant) :
    p'.standing = p.standing := by
  have here : p.standing off = some (d'.v4, d'.v6, d'.dormant) := by
    rw [Pool.standing, held, v4, v6, dormant]
    rfl
  rw [writes.standing_eq, ← here, Function.update_eq_self]

theorem Replied.standing {off : BitVec 32} (replied : p.Replied off now answer p') :
    p'.standing = p.standing := by
  cases replied with
  | silent => rfl
  | answer held _ writes => exact writes.standing held rfl rfl rfl

theorem Asked.standing (asked : p.Asked a false now answer p') : p'.standing = p.standing := by
  cases asked with
  | known held _ _ writes => exact writes.standing held rfl rfl rfl
  | refused => rfl
  | woken will => cases will
  | granted will => cases will
  | stolen will => cases will
  | exhausted will => cases will

theorem Sound.pairs_eq (sound : p.Sound) (sound' : p'.Sound) (same : p'.standing = p.standing) :
    p'.pairs = p.pairs := by
  have half {q q' : Pool} (sound : q.Sound) (sound' : q'.Sound) (same : q'.standing = q.standing)
      {pair : Addr × Addr} (member : pair ∈ q'.pairs) : pair ∈ q.pairs := by
    obtain ⟨off, d, held, rfl⟩ := sound'.mem_pairs.mp member
    have here := congrFun same off
    simp only [Pool.standing, held, Option.map_some] at here
    obtain ⟨e, held', triple⟩ := Option.map_eq_some_iff.mp here.symm
    simp only [Prod.mk.injEq] at triple
    exact sound.mem_pairs.mpr ⟨off, e, held', by rw [DynHost.pair, DynHost.pair, triple.1, triple.2.1]⟩
  exact Set.ext fun pair => ⟨half sound sound' same, half sound' sound same.symm⟩

/-- Asking for an address makes at most one new assignment, of an address that is not
reserved or was assigned before. -/
theorem Asked.mem_pairs {allocate : Bool} (sound : p.Sound)
    (asked : p.Asked a allocate now answer p') {pair : Addr × Addr} (member : pair ∈ p'.pairs) :
    pair ∈ p.pairs ∨ pair.2 = a ∧ answer = some pair.1 ∧
      (p.reserved pair.1 = false ∨ ∃ v6, (pair.1, v6) ∈ p.pairs) := by
  have moved {off : BitVec 32} {d : DynHost} {dirty : Bool} {q : Pool}
      (writes : p.Writes off (some d) dirty q) (member : pair ∈ q.pairs) :
      pair ∈ p.pairs ∨ d.pair = pair := by
    obtain ⟨l, e, held, rfl⟩ := writes.sound.mem_pairs.mp member
    rw [writes.table] at held
    by_cases here : l = off
    · subst here
      rw [Function.update_self] at held
      cases held
      exact .inr rfl
    · rw [Function.update_of_ne here] at held
      exact .inl (sound.mem_pairs.mpr ⟨l, e, held, rfl⟩)
  cases asked with
  | known held _ _ writes => exact .inl (writes.pairs sound held rfl ▸ member)
  | woken _ held _ _ writes => exact .inl (writes.pairs sound held rfl ▸ member)
  | refused => exact .inl member
  | exhausted => exact .inl member
  | granted _ _ _ free writes =>
    refine (moved writes member).imp_right ?_
    rintro rfl
    have parts := free
    simp only [isFree, Bool.and_eq_true, Bool.not_eq_true'] at parts
    exact ⟨rfl, rfl, .inl parts.2⟩
  | stolen _ _ _ held _ _ writes =>
    refine (moved writes member).imp_right ?_
    rintro rfl
    exact ⟨rfl, rfl, .inr ⟨_, sound.mem_pairs.mpr ⟨_, _, held, rfl⟩⟩⟩

theorem Maintained.pairs_subset (sound : p.Sound) (aged : p.Maintained now p') :
    p'.pairs ⊆ p.pairs := by
  intro pair member
  obtain ⟨off, e, held', rfl⟩ := aged.sound.mem_pairs.mp member
  rw [aged.table] at held'
  obtain ⟨d, held, result⟩ := Option.bind_eq_some_iff.mp held'
  refine sound.mem_pairs.mpr ⟨off, d, held, ?_⟩
  rw [DynHost.aged] at result
  split at result
  · cases result
  · cases result
    rw [DynHost.rested]
    split <;> rfl

end Pool

/-- A pool works under a table: the table knows its addresses, and nothing that the pool
has assigned is claimed by another entry. -/
structure Table.Hosts (t : Table) (p : Pool) : Prop where
  sound : p.Sound
  entry : t.poolEntry = some (Addrmap.poolEntry p.pfx)
  reserved : p.reserved = fun a => decide (t.lookup4 a ≠ t.poolEntry)
  clear {v4 v6 : Addr} : (v4, v6) ∈ p.pairs → t.lookup4 v4 = t.poolEntry ∧ t.lookup6 v6 = none

namespace Table.Hosts

variable {t : Table} {p p' : Pool} {a : Addr} {now : Int64} {answer : Option Addr}

theorem next (hosts : t.Hosts p) (sound : p'.Sound) (keeps : p.Keeps p')
    (clear : ∀ {v4 v6}, (v4, v6) ∈ p'.pairs → t.lookup4 v4 = t.poolEntry ∧ t.lookup6 v6 = none) :
    t.Hosts p' where
  sound := sound
  entry := by rw [hosts.entry, keeps.range]
  reserved := keeps.reserved.trans hosts.reserved
  clear := clear

theorem replied (hosts : t.Hosts p) {off : BitVec 32} (replied : p.Replied off now answer p') :
    t.Hosts p' := by
  refine hosts.next (replied.sound hosts.sound) replied.keeps fun member => hosts.clear ?_
  rwa [← hosts.sound.pairs_eq (replied.sound hosts.sound) replied.standing]

theorem asked (hosts : t.Hosts p) {allocate : Bool} (asked : p.Asked a allocate now answer p')
    (unclaimed : t.lookup6 a = none) : t.Hosts p' := by
  refine hosts.next (asked.sound hosts.sound) asked.keeps @fun v4 v6 member => ?_
  rcases asked.mem_pairs hosts.sound member with old | ⟨new, -, free⟩
  · exact hosts.clear old
  · refine ⟨?_, by rw [show v6 = a from new]; exact unclaimed⟩
    rcases free with free | ⟨other, old⟩
    · rw [hosts.reserved, decide_eq_false_iff_not] at free
      exact not_not.mp free
    · exact (hosts.clear old).1

theorem maintained (hosts : t.Hosts p) (aged : p.Maintained now p') : t.Hosts p' :=
  hosts.next aged.sound aged.keeps fun member => hosts.clear (aged.pairs_subset hosts.sound member)

/-- A pool without assignments works under every table that it was added to. -/
theorem of_fresh {pfx : Prefix} {o : PoolOptions} (made : newPool pfx o = .ok p)
    (entry : t.poolEntry = some (Addrmap.poolEntry p.pfx)) :
    t.Hosts (p.reserve fun a => t.lookup4 a ≠ t.poolEntry) := by
  obtain ⟨sound, -⟩ := Pool.newPool_sound made
  refine ⟨⟨sound.size, sound.filed, sound.placed, sound.used⟩, entry, rfl, @fun v4 v6 member => ?_⟩
  have nobody : (v4, v6) ∈ p.pairs := member
  rw [Pool.newPool_pairs made] at nobody
  cases nobody

end Table.Hosts

namespace Mapper

variable {s s' : Mapper} {a b : Addr} {m : Moment}

inductive Mapped4 (s : Mapper) (a : Addr) (m : Moment) : Addr → Mapper → Prop
  | static {e : Entry} {b : Addr} (found : s.table.lookup4 a = some e) (kind : e.kind = .static)
      (joined : joinStatic6 e a = .ok b) : Mapped4 s a m b s
  | embedded {e : Entry} {b : Addr} (found : s.table.lookup4 a = some e)
      (kind : e.kind = .rfc6052) (embedded : s.table.embed a e.v6 = .ok (.ok b)) :
      Mapped4 s a m b s
  | pool {e : Entry} {p : Pool} {b : Addr} (found : s.table.lookup4 a = some e)
      (kind : e.kind = .dynamicPool) (here : s.pool = some p)
      (answer : (p.lookup4 a m).1 = .ok (some b)) :
      Mapped4 s a m b { s with pool := some (p.lookup4 a m).2 }

theorem map_ok_ok {x : Checked Addr} :
    (x.map .ok : Checked (Except MapError Addr)) = .ok (.ok a) ↔ x = .ok a := by
  cases x with
  | error fault => exact ⟨nofun, nofun⟩
  | ok c => simp [Except.map]

theorem mapIPv4ToIPv6_static {e : Entry} (found : s.table.lookup4 a = some e)
    (kind : e.kind = .static) : s.mapIPv4ToIPv6 a m = ((joinStatic6 e a).map .ok, s) := by
  simp only [mapIPv4ToIPv6, found, kind]

theorem mapIPv4ToIPv6_embedded {e : Entry} (found : s.table.lookup4 a = some e)
    (kind : e.kind = .rfc6052) : s.mapIPv4ToIPv6 a m = (s.table.embed a e.v6, s) := by
  simp only [mapIPv4ToIPv6, found, kind]

theorem mapIPv4ToIPv6_pool {e : Entry} {p : Pool} (found : s.table.lookup4 a = some e)
    (kind : e.kind = .dynamicPool) (here : s.pool = some p) :
    s.mapIPv4ToIPv6 a m = ((p.lookup4 a m).1.map (Option.elim · (.error .reject) .ok),
      { s with pool := some (p.lookup4 a m).2 }) := by
  simp only [mapIPv4ToIPv6, found, kind, here]
  congr 2
  funext answer
  cases answer <;> rfl

theorem mapped4 (sent : (s.mapIPv4ToIPv6 a m).1 = .ok (.ok b)) :
    s.Mapped4 a m b (s.mapIPv4ToIPv6 a m).2 := by
  cases found : s.table.lookup4 a with
  | none =>
    rw [mapIPv4ToIPv6, found] at sent
    cases sent
  | some e =>
    cases kind : e.kind with
    | static =>
      rw [mapIPv4ToIPv6_static found kind] at sent ⊢
      exact .static found kind (map_ok_ok.mp sent)
    | rfc6052 =>
      rw [mapIPv4ToIPv6_embedded found kind] at sent ⊢
      exact .embedded found kind sent
    | dynamicPool =>
      cases here : s.pool with
      | none =>
        simp only [mapIPv4ToIPv6, found, kind, here] at sent
        cases sent
      | some p =>
        rw [mapIPv4ToIPv6_pool found kind here] at sent ⊢
        refine .pool found kind here ?_
        rcases result : (p.lookup4 a m).1 with fault | _ | c
        · rw [result] at sent
          cases sent
        · rw [result] at sent
          cases sent
        · rw [result] at sent
          cases sent
          rfl
    | dynamicHost =>
      simp only [mapIPv4ToIPv6, found, kind] at sent
      cases sent

inductive Mapped6 (s : Mapper) (b : Addr) (allocate : Bool) (m : Moment) : Addr → Mapper → Prop
  | static {e : Entry} {a : Addr} (found : s.table.lookup6 b = some e) (kind : e.kind = .static)
      (joined : joinStatic4 e b = .ok a) : Mapped6 s b allocate m a s
  | embedded {e : Entry} {a : Addr} (found : s.table.lookup6 b = some e)
      (kind : e.kind = .rfc6052) (extracted : s.unembed e b = .ok a) : Mapped6 s b allocate m a s
  | pool {p : Pool} {a : Addr} (found : s.table.lookup6 b = none) (here : s.pool = some p)
      (answer : (p.lookup6 b allocate m).1 = some a) :
      Mapped6 s b allocate m a { s with pool := some (p.lookup6 b allocate m).2 }

theorem mapIPv6ToIPv4_static {allocate : Bool} {e : Entry} (found : s.table.lookup6 b = some e)
    (kind : e.kind = .static) :
    s.mapIPv6ToIPv4 b allocate m = ((joinStatic4 e b).map .ok, s) := by
  simp only [mapIPv6ToIPv4, found, kind]

theorem mapIPv6ToIPv4_embedded {allocate : Bool} {e : Entry} (found : s.table.lookup6 b = some e)
    (kind : e.kind = .rfc6052) : s.mapIPv6ToIPv4 b allocate m = (.ok (s.unembed e b), s) := by
  simp only [mapIPv6ToIPv4, found, kind]

theorem mapIPv6ToIPv4_pool {allocate : Bool} {p : Pool} (found : s.table.lookup6 b = none)
    (here : s.pool = some p) :
    s.mapIPv6ToIPv4 b allocate m = (.ok ((p.lookup6 b allocate m).1.elim (.error .reject) .ok),
      { s with pool := some (p.lookup6 b allocate m).2 }) := by
  simp only [mapIPv6ToIPv4, found, here]
  cases (p.lookup6 b allocate m).1 <;> rfl

theorem mapped6 {allocate : Bool} (sent : (s.mapIPv6ToIPv4 b allocate m).1 = .ok (.ok a)) :
    s.Mapped6 b allocate m a (s.mapIPv6ToIPv4 b allocate m).2 := by
  cases found : s.table.lookup6 b with
  | none =>
    cases here : s.pool with
    | none =>
      simp only [mapIPv6ToIPv4, found, here] at sent
      cases sent
    | some p =>
      rw [mapIPv6ToIPv4_pool found here] at sent ⊢
      refine .pool found here ?_
      cases result : (p.lookup6 b allocate m).1 with
      | none =>
        rw [result] at sent
        cases sent
      | some c =>
        rw [result] at sent
        cases sent
        rfl
  | some e =>
    cases kind : e.kind with
    | static =>
      rw [mapIPv6ToIPv4_static found kind] at sent ⊢
      exact .static found kind (map_ok_ok.mp sent)
    | rfc6052 =>
      rw [mapIPv6ToIPv4_embedded found kind] at sent ⊢
      exact .embedded found kind (Except.ok.inj sent)
    | dynamicPool =>
      simp only [mapIPv6ToIPv4, found, kind] at sent
      cases sent
    | dynamicHost =>
      simp only [mapIPv6ToIPv4, found, kind] at sent
      cases sent

inductive Step : Mapper → Mapper → Prop
  | four (s : Mapper) (a : Addr) (m : Moment) : Step s (s.mapIPv4ToIPv6 a m).2
  | six (s : Mapper) (b : Addr) (allocate : Bool) (m : Moment) :
      Step s (s.mapIPv6ToIPv4 b allocate m).2
  | maintain (s : Mapper) (m : Moment) : Step s (s.maintain m)

abbrev Run : Mapper → Mapper → Prop := Relation.ReflTransGen Step

/-- The pool of a mapper, if there is one, works under its table. -/
def Works (s : Mapper) : Prop := ∀ p, s.pool = some p → s.table.Hosts p

theorem works_mapIPv4ToIPv6 (works : s.Works) (a : Addr) (m : Moment) :
    (s.mapIPv4ToIPv6 a m).2.table = s.table ∧ (s.mapIPv4ToIPv6 a m).2.Works := by
  unfold mapIPv4ToIPv6
  split
  · exact ⟨rfl, works⟩
  split
  · exact ⟨rfl, works⟩
  · exact ⟨rfl, works⟩
  · split
    · exact ⟨rfl, works⟩
    · rename_i p here
      refine ⟨rfl, ?_⟩
      rintro q ⟨⟩
      have hosts := works p here
      cases four : a.as4 with
      | error fault =>
        rw [Pool.lookup4, four]
        exact hosts
      | ok a4 =>
        obtain ⟨answer, -, replied⟩ := Pool.lookup4_replied hosts.sound four m
        exact hosts.replied replied
  · exact ⟨rfl, works⟩

theorem works_mapIPv6ToIPv4 (works : s.Works) (b : Addr) (allocate : Bool) (m : Moment) :
    (s.mapIPv6ToIPv4 b allocate m).2.table = s.table ∧
      (s.mapIPv6ToIPv4 b allocate m).2.Works := by
  unfold mapIPv6ToIPv4
  split
  · rename_i unclaimed
    split
    · exact ⟨rfl, works⟩
    · rename_i p here
      refine ⟨rfl, ?_⟩
      rintro q ⟨⟩
      have hosts := works p here
      exact hosts.asked (Pool.lookup6_asked hosts.sound b allocate m) unclaimed
  · split <;> exact ⟨rfl, works⟩

theorem works_maintain (works : s.Works) (m : Moment) : (s.maintain m).Works := by
  intro q there
  obtain ⟨p, here, rfl⟩ := Option.map_eq_some_iff.mp there
  have hosts := works p here
  exact hosts.maintained (Pool.maintain_maintained m hosts.sound)

theorem Run.works (run : Run s s') (works : s.Works) : s'.table = s.table ∧ s'.Works := by
  induction run with
  | refl => exact ⟨rfl, works⟩
  | tail _ step ih =>
    obtain ⟨table, works⟩ := ih
    rw [← table]
    cases step with
    | four a m => exact works_mapIPv4ToIPv6 works a m
    | six b allocate m => exact works_mapIPv6ToIPv4 works b allocate m
    | maintain m => exact ⟨rfl, works_maintain works m⟩

theorem works_of_build {d : Builder} (built : d.build = .ok s)
    (fresh : ∀ p, d.pool = some p → ∃ pfx o, newPool pfx o = .ok p) : s.Works := by
  obtain ⟨-, -, -, -, -, -, pool⟩ := Builder.build_eq built
  intro q here
  rw [pool] at here
  obtain ⟨p, added, rfl⟩ := Option.map_eq_some_iff.mp here
  obtain ⟨pfx, o, made⟩ := fresh p added
  refine .of_fresh made ?_
  rw [(Table.built_of_build built).pool, added]
  rfl

section Return

variable {d : Builder} {e : Entry} {x : BitVec 32} {p : Pool}

/-- An entry for static maps is one, or the translator's own address. -/
theorem static_cases (member : e ∈ d.entries) (kind : e.kind = .static) :
    (∃ n, e.v4.Network 32 n ∧ e.v6.Network 128 (n + 96) ∧ e.v4Only = false) ∨
      e.v4.bits = 32 ∧ e.v4Only = true := by
  cases d.valid e member with
  | pfx => cases kind
  | static ok =>
    obtain ⟨n, net4, net6⟩ := ok.networks
    exact .inl ⟨n, net4, net6, rfl⟩
  | @self bits ok v6 => exact .inr ⟨(Prefix.of_network (.v4 bits) nofun).bits, rfl⟩
  | pool => cases kind

theorem rfc6052_cases (member : e ∈ d.entries) (kind : e.kind = .rfc6052) :
    ∃ p, TranslationPrefix p ∧ e = prefixEntry p := by
  cases d.valid e member with
  | @pfx p ok => exact ⟨p, ok, rfl⟩
  | static => cases kind
  | self => cases kind
  | pool => cases kind

theorem pool_answer (sound : p.Sound) (answer : (p.lookup4 a m).1 = .ok (some b)) :
    ∃ off h, p.table off = some h ∧ h.dormant = false ∧ h.v6 = b ∧
      (∀ x, a = .v4 x → off = x &&& p.max) ∧
      (p.lookup4 a m).2.table = Function.update p.table off (some (h.usedAt m.now.unix)) := by
  cases four : a.as4 with
  | error fault =>
    rw [Pool.lookup4, four] at answer
    cases answer
  | ok a4 =>
    obtain ⟨found, result, replied⟩ := Pool.lookup4_replied sound four m
    cases answer.symm.trans result
    generalize (p.lookup4 a m).2 = q at replied ⊢
    cases replied with
    | @answer h _ held awake writes =>
      refine ⟨_, h, held, awake, rfl, ?_, writes.table⟩
      rintro x rfl
      cases four
      exact p.offset_ofNat x

theorem pool_answer_unclaimed (hosts : s.table.Hosts p)
    (answer : (p.lookup4 a m).1 = .ok (some b)) : s.table.lookup6 b = none := by
  obtain ⟨off, h, held, -, rfl, -⟩ := pool_answer hosts.sound answer
  exact (hosts.clear (hosts.sound.mem_pairs.mpr ⟨off, h, held, rfl⟩)).2

theorem pool_cases (built : s.table.Built d) (hosts : s.table.Hosts p) (member : e ∈ d.entries)
    (kind : e.kind = .dynamicPool) : e = poolEntry p.pfx := by
  obtain ⟨q, added, rfl⟩ := d.pooled e member kind
  have entry := hosts.entry
  rw [built.pool, added] at entry
  exact Option.some.inj entry

end Return

variable {d : Builder} {s₀ : Mapper}

/-- An IPv4 address that was mapped leads back to itself, and no assignment changes. -/
theorem return4 (built : d.build = .ok s₀)
    (fresh : ∀ p, d.pool = some p → ∃ pfx o, newPool pfx o = .ok p) (run : Run s₀ s)
    {x : BitVec 32} (other : ∀ e ∈ d.entries, e.v4Only = true → e.v4.addr ≠ .v4 x)
    (sent : (s.mapIPv4ToIPv6 (.v4 x) m).1 = .ok (.ok b)) (m' : Moment) :
    ((s.mapIPv4ToIPv6 (.v4 x) m).2.mapIPv6ToIPv4 b false m').1 = .ok (.ok (.v4 x)) ∧
      ((s.mapIPv4ToIPv6 (.v4 x) m).2.mapIPv6ToIPv4 b false m').2.pool.map Pool.standing =
        s.pool.map Pool.standing := by
  obtain ⟨table, works⟩ := run.works (works_of_build built fresh)
  have built : s.table.Built d := table ▸ Table.built_of_build built
  have mapped := mapped4 sent
  generalize (s.mapIPv4ToIPv6 (.v4 x) m).2 = s' at mapped ⊢
  cases mapped with
  | @static e _ found kind joined =>
    obtain ⟨member, inside, -⟩ := built.lookup4_some found
    rcases static_cases member kind with ⟨n, net4, net6, six⟩ | ⟨full, only⟩
    · obtain ⟨inside6, back⟩ := joinStatic4_joinStatic6 net4 net6 inside joined
      have found6 : s.table.lookup6 b = some e :=
        built.lookup6_eq_some.mpr ⟨member, by simp [Entry.onSix, kind, six], inside6⟩
      rw [mapIPv6ToIPv4_static found6 kind]
      exact ⟨map_ok_ok.mpr back, rfl⟩
    · have host : e.isHost4 = true := Entry.isHost4_iff.mpr ⟨kind, full⟩
      exact absurd ((Table.Built.contains_host4 member host).mp inside).symm (other e member only)
  | @embedded e _ found kind embedded =>
    obtain ⟨member, inside, -⟩ := built.lookup4_some found
    obtain ⟨p, ok, rfl⟩ := rfc6052_cases member kind
    obtain ⟨inside6, back⟩ := unembed_embed ok found embedded
    have found6 : s.table.lookup6 b = some (prefixEntry p) :=
      built.lookup6_eq_some.mpr ⟨member, rfl, inside6⟩
    rw [mapIPv6ToIPv4_embedded found6 kind, back]
    exact ⟨rfl, rfl⟩
  | @pool e p _ found kind here answer =>
    have hosts := works p here
    obtain ⟨member, inside, -⟩ := built.lookup4_some found
    obtain rfl := pool_cases built hosts member kind
    have unclaimed := pool_answer_unclaimed hosts answer
    obtain ⟨off, h, held, awake, rfl, place, after⟩ := pool_answer hosts.sound answer
    obtain rfl := place x rfl
    have hosts' : s.table.Hosts (p.lookup4 (.v4 x) m).2 := by
      obtain ⟨_, -, replied⟩ := Pool.lookup4_replied hosts.sound (a := .v4 x) rfl m
      exact hosts.replied replied
    have held' : (p.lookup4 (.v4 x) m).2.table (x &&& p.max) = some (h.usedAt m.now.unix) := by
      rw [after, Function.update_self]
    have v4 : h.v4 = .v4 x := (hosts.sound.placed held).2.trans (p.addr_of_contains inside)
    have answer' : ((p.lookup4 (.v4 x) m).2.lookup6 h.v6 false m').1 = some h.v4 :=
      Pool.lookup6_held hosts'.sound held' (.inr awake) m'
    rw [@mapIPv6ToIPv4_pool ⟨s.table, some (p.lookup4 (.v4 x) m).2⟩ _ _ _ _ unclaimed rfl, answer',
      v4]
    refine ⟨rfl, ?_⟩
    obtain ⟨_, -, replied⟩ := Pool.lookup4_replied hosts.sound (a := .v4 x) rfl m
    have asked := Pool.lookup6_asked hosts'.sound h.v6 false m'
    rw [here]
    exact congrArg some (asked.standing.trans replied.standing)

/-- Host 5 of a network that is mapped to another one. -/
theorem return4_host : ∃ d s, (Builder.new false).addStatic (.of (.v4 0x0a000000#32) 24)
      (.of (.v6 (0x20010db8#128 <<< 96) "") 120) = .ok d ∧ d.build = .ok s ∧
    (s.mapIPv4ToIPv6 (.v4 0x0a000005#32) (.second 0)).1 =
      .ok (.ok (.v6 (0x20010db8#128 <<< 96 ||| 5) "")) ∧
    ((s.mapIPv4ToIPv6 (.v4 0x0a000005#32) (.second 0)).2.mapIPv6ToIPv4
      (.v6 (0x20010db8#128 <<< 96 ||| 5) "") false (.second 0)).1 =
        .ok (.ok (.v4 0x0a000005#32)) :=
  have built := Builder.build_of_sorted _ (by decide +kernel) rfl rfl (by decide +kernel) rfl
  have sent := by decide +kernel
  ⟨_, _, rfl, built, sent, (return4 built nofun .refl (by decide +kernel) sent (.second 0)).1⟩

end Mapper

/-- No entry with a longer IPv4 prefix takes the address that a static map pairs with `b`,
except for the translator's own address when it has `b` on its other side. -/
def Builder.Unshadowed (d : Builder) (b : Addr) : Prop :=
  ∀ e ∈ d.entries, e.kind = .static → e.onSix = true → e.v6.contains b = true →
    (∀ o ∈ d.entries, o.v4.contains (e.partner4 b) = true → o.v4.bits ≤ e.v4.bits) ∨
      ∃ o ∈ d.entries, o.v4Only = true ∧ o.v4.contains (e.partner4 b) = true ∧ o.v6.addr = b

instance (d : Builder) (b : Addr) : Decidable (d.Unshadowed b) :=
  inferInstanceAs (Decidable (∀ e ∈ d.entries, _ → _ → _ → _))

namespace Mapper

variable {s s₀ : Mapper} {a b : Addr} {m : Moment} {d : Builder} {e : Entry}

/-- Whether an address that a static map has led to is mapped back. -/
theorem static_returns_iff (built : s.table.Built d) (works : s.Works)
    (found : s.table.lookup6 b = some e) (kind : e.kind = .static)
    (joined : joinStatic4 e b = .ok a) (m : Moment) :
    (s.mapIPv4ToIPv6 a m).1 = .ok (.ok b) ↔ d.Unshadowed b := by
  obtain ⟨member, six, inside⟩ := built.lookup6_eq_some.mp found
  rcases static_cases member kind with ⟨n, net4, net6, -⟩ | ⟨-, only⟩
  swap
  · simp [Entry.onSix, kind, only] at six
  obtain ⟨inside4, back⟩ := joinStatic6_joinStatic4 net4 net6 inside joined
  have family := (net6.contains_iff.mp inside).1
  obtain rfl : e.partner4 b = a := Except.ok.inj ((joinStatic4_eq net4 net6 family).symm.trans joined)
  constructor
  · intro returned e' member' _ six' inside'
    obtain rfl := built.apart member' member six' six inside' inside
    have mapped := mapped4 returned
    generalize (s.mapIPv4ToIPv6 (e'.partner4 b) m).2 = s' at mapped
    cases mapped with
    | @static o _ taken kind' joined' =>
      obtain ⟨listed, within, longest⟩ := built.lookup4_some taken
      rcases static_cases listed kind' with ⟨k, net4', net6', both⟩ | ⟨full, only⟩
      · -- the map that leads to `b` is the one that `b` is in
        have there := (joinStatic4_joinStatic6 net4' net6' within joined').1
        obtain rfl := built.apart listed member (by simp [Entry.onSix, kind', both]) six there inside
        exact .inl longest
      · rw [joinStatic6, if_pos full] at joined'
        exact .inr ⟨o, listed, only, within, Except.ok.inj joined'⟩
    | @embedded o _ taken kind' _ =>
      obtain ⟨listed, -, longest⟩ := built.lookup4_some taken
      obtain ⟨p, -, rfl⟩ := rfc6052_cases listed kind'
      refine .inl fun q listed within => Int.le_trans (longest q listed within) ?_
      rw [net4.bits, show (prefixEntry p).v4.bits = _ from everything4_network.bits]
      omega
    | pool _ _ here answer =>
      have unclaimed := pool_answer_unclaimed (works _ here) answer
      cases found.symm.trans unclaimed
  · intro unshadowed
    rcases unshadowed e member kind six inside with longest | ⟨o, listed, only, within, own⟩
    · rw [mapIPv4ToIPv6_static (built.lookup4_eq_some.mpr ⟨member, inside4, longest⟩) kind]
      exact map_ok_ok.mpr back
    · have kind' : o.kind = .static := by
        cases d.valid o listed with
        | self => rfl
        | pfx => cases only
        | static => cases only
        | pool => cases only
      have full : o.v4.bits = 32 := by
        rcases static_cases listed kind' with ⟨-, -, -, both⟩ | ⟨full, -⟩
        · cases both.symm.trans only
        · exact full
      have longest : ∀ q ∈ d.entries, q.v4.contains (e.partner4 b) → q.v4.bits ≤ o.v4.bits := by
        intro q listed _
        obtain ⟨k, net⟩ := (d.valid q listed).network4
        have := net.le
        rw [full, net.bits]
        omega
      rw [mapIPv4ToIPv6_static (built.lookup4_eq_some.mpr ⟨listed, within, longest⟩) kind',
        joinStatic6, if_pos full, own]
      rfl

theorem pool_returns {p : Pool} (hosts : s.table.Hosts p) {allocate : Bool}
    (unclaimed : s.table.lookup6 b = none) (answer : (p.lookup6 b allocate m).1 = some a)
    (m' : Moment) :
    (mapIPv4ToIPv6 ⟨s.table, some (p.lookup6 b allocate m).2⟩ a m').1 = .ok (.ok b) := by
  have hosts' := hosts.asked (Pool.lookup6_asked hosts.sound b allocate m) unclaimed
  obtain ⟨sound, keeps, off, rfl, kept⟩ := (Pool.Returned.lookup6 answer).kept hosts.sound
  obtain ⟨h, held, same⟩ := Pool.tenancy_some.mp kept.held
  obtain rfl : h.v6 = b := congrArg Lease.Tenant.name same
  have awake : h.dormant = false := congrArg Lease.Tenant.asleep same
  have place : (p.lookup6 h.v6 allocate m).2.addr off = p.addr off := by
    rw [Pool.addr, Pool.addr, keeps.range]
  have found : s.table.lookup4 h.v4 = s.table.poolEntry :=
    (hosts'.clear (sound.mem_pairs.mpr ⟨off, h, held, rfl⟩)).1
  rw [(sound.placed held).2, hosts'.entry, place] at found
  have reply := Pool.lookup4_awake sound held awake m'
  rw [place] at reply
  rw [@mapIPv4ToIPv6_pool ⟨s.table, some (p.lookup6 h.v6 allocate m).2⟩ _ _ _ _ found rfl rfl, reply]
  rfl

/-- An IPv6 address that was mapped leads back to itself, unless a static map has led it
to an address that another entry takes. -/
theorem return6_iff (built : d.build = .ok s₀)
    (fresh : ∀ p, d.pool = some p → ∃ pfx o, newPool pfx o = .ok p) (run : Run s₀ s)
    {allocate : Bool} (sent : (s.mapIPv6ToIPv4 b allocate m).1 = .ok (.ok a)) (m' : Moment) :
    ((s.mapIPv6ToIPv4 b allocate m).2.mapIPv4ToIPv6 a m').1 = .ok (.ok b) ↔ d.Unshadowed b := by
  obtain ⟨table, works⟩ := run.works (works_of_build built fresh)
  have built : s.table.Built d := table ▸ Table.built_of_build built
  have mapped := mapped6 sent
  generalize (s.mapIPv6ToIPv4 b allocate m).2 = s' at mapped ⊢
  cases mapped with
  | static found kind joined => exact static_returns_iff built works found kind joined m'
  | @embedded e _ found kind extracted =>
    obtain ⟨member, six, inside⟩ := built.lookup6_eq_some.mp found
    obtain ⟨p, ok, rfl⟩ := rfc6052_cases member kind
    obtain ⟨found4, back⟩ := embed_unembed ok inside extracted
    rw [mapIPv4ToIPv6_embedded found4 kind]
    refine iff_of_true back fun e' member' kind' six' inside' => ?_
    rw [built.apart member' member six' six inside' inside] at kind'
    cases kind'
  | @pool p _ found here answer =>
    refine iff_of_true (pool_returns (works p here) found answer m') ?_
    intro e member _ six inside
    have taken := built.lookup6_eq_some.mpr ⟨member, six, inside⟩
    cases found.symm.trans taken

/-- Host 5 of a network that is mapped to another one. -/
theorem return6_iff_host : ∃ d s, (Builder.new false).addStatic (.of (.v4 0x0a000000#32) 24)
      (.of (.v6 (0x20010db8#128 <<< 96) "") 120) = .ok d ∧ d.build = .ok s ∧
    (s.mapIPv6ToIPv4 (.v6 (0x20010db8#128 <<< 96 ||| 5) "") true (.second 0)).1 =
      .ok (.ok (.v4 0x0a000005#32)) ∧
    ((s.mapIPv6ToIPv4 (.v6 (0x20010db8#128 <<< 96 ||| 5) "") true (.second 0)).2.mapIPv4ToIPv6
      (.v4 0x0a000005#32) (.second 0)).1 = .ok (.ok (.v6 (0x20010db8#128 <<< 96 ||| 5) "")) :=
  have built := Builder.build_of_sorted _ (by decide +kernel) rfl rfl (by decide +kernel) rfl
  have sent := by decide +kernel
  ⟨_, _, rfl, built, sent, (return6_iff built nofun .refl sent (.second 0)).mpr (by decide +kernel)⟩

/-- A host with a map of its own inside a network that is mapped elsewhere: the host that
the network maps to the same address is not answered. -/
theorem return6_fails : ∃ d s,
    ((Builder.new false).addStatic (.of (.v4 0x0a000005#32) 32)
        (.of (.v6 (0x20010db80001#128 <<< 80 ||| 5) "") 128) >>= fun d =>
      d.addStatic (.of (.v4 0x0a000000#32) 24) (.of (.v6 (0x20010db8#128 <<< 96) "") 120)) = .ok d ∧
    d.build = .ok s ∧
    (s.mapIPv6ToIPv4 (.v6 (0x20010db8#128 <<< 96 ||| 5) "") true (.second 0)).1 =
      .ok (.ok (.v4 0x0a000005#32)) ∧
    ((s.mapIPv6ToIPv4 (.v6 (0x20010db8#128 <<< 96 ||| 5) "") true (.second 0)).2.mapIPv4ToIPv6
      (.v4 0x0a000005#32) (.second 0)).1 = .ok (.ok (.v6 (0x20010db80001#128 <<< 80 ||| 5) "")) :=
  ⟨_, _, rfl, Builder.build_of_sorted _ (by decide +kernel) rfl rfl (by decide +kernel) rfl,
    by decide +kernel, by decide +kernel⟩

end Mapper

end Clatto.Addrmap
