import Clatto.Addrmap.PoolLoad
import Clatto.Daemon.Rejected
import Clatto.Xlate.Frugal

/-! The pool and the table over a whole life of the daemon: state files that are loaded, packets,
maintenance and configurations that replace one another. -/

namespace Clatto.Config

open Netip Addrmap Collect

variable {listing : Listing} {ro : ResolveOptions} {cfg : Config} {r : Resolved} {o : Occasion}

/-- A row of a state file for which there is a place in a pool, if nobody has taken it. -/
structure Offers (cfg : Config) (pool : Prefix) (row : Row) : Prop where
  host : row.v4 ≠ pool.addr
  usable : Netutil.validIPv6 row.v6.as16 = true
  spared : cfg.Spares4 pool row.v4

/-- The hosts of the pool are left alone by a configuration: those that the pool has if it goes on
being used, or those that a new pool takes over from its state file. -/
structure Admits (cfg : Config) (ro : ResolveOptions) (o : Occasion) : Prop where
  kept : ∀ p dp, ro.existingPool = some p → cfg.dynamicPool = some dp → p.pfx = dp.pfx →
    ∀ pair ∈ p.pairs, cfg.Spares4 p.pfx pair.1 ∧ cfg.Spares6 ro.sourceAddr pair.2
  loaded : ∀ dp scan, cfg.dynamicPool = some dp →
    (∀ p, ro.existingPool = some p → p.pfx ≠ dp.pfx) → dp.stateFile ≠ "" →
    o.opened = some scan →
    ∀ pair ∈ takeOver (cfg.Offers dp.pfx) ∅ (scan.lines.filterMap parseRow),
      cfg.Spares6 ro.sourceAddr pair.2

/-- What `Apply` goes on with: a new pool takes over the assignments in its state file. -/
def Resolved.taken (r : Resolved) (o : Occasion) : Resolved :=
  if r.pool.isSome ∧ ¬ r.reuses then r.loadPoolState o else r

theorem Resolved.taken_of_reuses (reuses : r.reuses = true) (o : Occasion) : r.taken o = r := by
  rw [Resolved.taken, reuses]
  exact if_neg fun fresh => fresh.2 rfl

/-- The table and the pool of a configuration fit together. -/
def Resolved.Fits (r : Resolved) : Prop := ∀ p, r.pool = some p → r.table.Fits p

def Resolved.Consistent (r : Resolved) : Prop := ∀ p, r.pool = some p → r.table.Consistent p

theorem offers_iff {p : Pool} (reserved : p.reserved = fun a => !decide (cfg.Spares4 p.pfx a)) :
    p.Offers = cfg.Offers p.pfx := by
  funext row
  refine propext ⟨fun offers => ⟨offers.host, offers.usable, ?_⟩,
    fun offers => ⟨offers.spared.1, offers.host, offers.usable, ?_⟩⟩
  · have free := offers.unreserved
    rw [reserved, Bool.not_eq_false', decide_eq_true_iff] at free
    exact free
  · rw [reserved]
    simp [offers.spared]

section

variable {f : Findings} {b : Builder} {s : Mapper}

theorem Resolves.result (resolves : Resolves listing cfg ro f b s r) :
    r.table = s.table ∧ r.pool = s.pool ∧ r.reuses = ro.reuses cfg ∧ r.config = f.config := by
  obtain ⟨warnings, level, json, kinds, -, -, -, rfl⟩ := resolves.read
  exact ⟨rfl, rfl, rfl, rfl⟩

/-- A host may have an address of the pool if nothing else is found for it. -/
theorem Resolves.spares6 (resolves : Resolves listing cfg ro f b s r) (a : Addr) :
    r.table.lookup6 a = none ↔ cfg.Spares6 ro.sourceAddr a := by
  obtain ⟨b₁, b₂, b₃, b₄, e⟩ := examine_passes.mp resolves.examined
  rw [resolves.result.1]
  exact e.lookup6_none resolves.built a

/-- A pool as it has been given to the table of a configuration. -/
structure Attached (cfg : Config) (r : Resolved) (p : Pool) : Prop where
  fits : r.table.Fits p
  reserved : p.reserved = fun a => !decide (cfg.Spares4 p.pfx a)
  spares4 : ∀ a, r.table.lookup4 a = some (poolEntry p.pfx) ↔ cfg.Spares4 p.pfx a

/-- Where the pool of a configuration comes from, and with it its hosts. -/
inductive Source (ro : ResolveOptions) (r : Resolved) (p : Pool) : Prop
  | existing (q : Pool) (here : ro.existingPool = some q) (pfx : q.pfx = p.pfx)
      (hosts : p.pairs = q.pairs) (reuses : r.reuses = true) : Source ro r p
  | fresh (other : ∀ q, ro.existingPool = some q → q.pfx ≠ p.pfx) (empty : p.pairs = ∅)
      (reuses : r.reuses = false) : Source ro r p

theorem Resolves.attached (resolves : Resolves listing cfg ro f b s r)
    (sound : ∀ p, ro.existingPool = some p → p.Sound) {dp : DynamicPool}
    (configured : cfg.dynamicPool = some dp) :
    ∃ p, r.pool = some p ∧ p.pfx = dp.pfx ∧ Attached cfg r p ∧ Source ro r p := by
  obtain ⟨b₁, b₂, b₃, b₄, e⟩ := examine_passes.mp resolves.examined
  obtain ⟨table, pool, reuses, -⟩ := resolves.result
  obtain ⟨p, set, pfx, origin⟩ := e.pool_cases configured
  have entry : s.table.poolEntry = some (poolEntry p.pfx) := by
    rw [(Table.built_of_build resolves.built).pool, set, Option.map_some]
  have spares := e.lookup4_pool resolves.built set
  have sound' : p.Sound ∧ Source ro r (p.reserve fun a => !decide (cfg.Spares4 p.pfx a)) := by
    rcases origin with ⟨reused, q, here, rfl⟩ | ⟨unused, made⟩
    · have old := sound q here
      exact ⟨⟨old.size, old.filed, old.placed, old.used⟩,
        .existing q here rfl rfl (reuses.trans reused)⟩
    · have nobody : p.pairs = ∅ := Pool.newPool_pairs made
      refine ⟨(Pool.newPool_sound made).1, .fresh ?_ nobody (reuses.trans unused)⟩
      intro q here same
      have reused : ro.reuses cfg = true := reuses_iff.mpr ⟨q, dp, here, configured, same.trans pfx⟩
      exact absurd (unused.symm.trans reused) (by decide)
  obtain ⟨proper, source⟩ := sound'
  refine ⟨_, pool.trans (reserved_of_build resolves.examined resolves.built set), pfx, ⟨⟨?_, ?_, ?_⟩,
    rfl, ?_⟩, source⟩
  · exact ⟨proper.size, proper.filed, proper.placed, proper.used⟩
  · rw [table]
    exact entry
  · rw [table]
    funext a
    show (!decide (cfg.Spares4 p.pfx a)) = _
    rw [← decide_not, decide_eq_decide]
    exact not_congr (spares a).symm
  · intro a
    show _ = some (poolEntry p.pfx) ↔ cfg.Spares4 p.pfx a
    rw [table, ← entry]
    exact spares a

end

/-- The pool after its state file has been loaded, if it has one that can be opened. -/
theorem Resolved.loadPoolState_pool {dp : DynamicPool} {p : Pool} (here : r.pool = some p)
    (configured : r.config.dynamicPool = some dp) (o : Occasion) :
    (r.loadPoolState o).pool = some (if dp.stateFile = "" then p
      else o.opened.elim p fun scan => (p.read o.moment scan).2) := by
  rw [loadPoolState, stateFile, here, configured]
  dsimp only
  by_cases unnamed : dp.stateFile = ""
  · rw [if_pos unnamed, if_pos unnamed]
    exact here
  · rw [if_neg unnamed, if_neg unnamed]
    cases o.opened with
    | none => exact here
    | some scan => rfl

theorem admits_existing {q : Pool} {dp : DynamicPool} (here : ro.existingPool = some q)
    (configured : cfg.dynamicPool = some dp) (same : q.pfx = dp.pfx) :
    cfg.Admits ro o ↔
      ∀ pair ∈ q.pairs, cfg.Spares4 q.pfx pair.1 ∧ cfg.Spares6 ro.sourceAddr pair.2 := by
  constructor
  · intro admits
    exact admits.kept q dp here configured same
  · intro kept
    constructor
    · intro q' dp' here' _ _
      obtain rfl : q = q' := Option.some.inj (here.symm.trans here')
      exact kept
    · intro dp' _ configured' other
      obtain rfl : dp = dp' := Option.some.inj (configured.symm.trans configured')
      exact absurd same (other q here)

theorem admits_fresh {dp : DynamicPool} (configured : cfg.dynamicPool = some dp)
    (other : ∀ q, ro.existingPool = some q → q.pfx ≠ dp.pfx) :
    cfg.Admits ro o ↔ (dp.stateFile ≠ "" → ∀ scan, o.opened = some scan →
      ∀ pair ∈ takeOver (cfg.Offers dp.pfx) ∅ (scan.lines.filterMap parseRow),
        cfg.Spares6 ro.sourceAddr pair.2) := by
  constructor
  · intro admits named scan opened
    exact admits.loaded dp scan configured other named opened
  · intro loaded
    constructor
    · intro q dp' here configured' same
      obtain rfl : dp = dp' := Option.some.inj (configured.symm.trans configured')
      exact absurd same (other q here)
    · intro dp' scan configured' _ named opened
      obtain rfl : dp = dp' := Option.some.inj (configured.symm.trans configured')
      exact loaded named scan opened

theorem Attached.loaded {p : Pool} {dp : DynamicPool} {source : Option SourceAddr}
    (attached : Attached cfg r p) (empty : p.pairs = ∅) (pfx : p.pfx = dp.pfx)
    (spares6 : ∀ a, r.table.lookup6 a = none ↔ cfg.Spares6 source a) :
    r.table.Fits (if dp.stateFile = "" then p
        else o.opened.elim p fun scan => (p.read o.moment scan).2) ∧
      (r.table.Consistent (if dp.stateFile = "" then p
          else o.opened.elim p fun scan => (p.read o.moment scan).2) ↔
        (dp.stateFile ≠ "" → ∀ scan, o.opened = some scan →
          ∀ pair ∈ takeOver (cfg.Offers dp.pfx) ∅ (scan.lines.filterMap parseRow),
            cfg.Spares6 source pair.2)) := by
  have nobody {pair : Addr × Addr} (member : pair ∈ p.pairs) : False := by
    rw [empty] at member
    exact member
  have consistent : r.table.Consistent p :=
    attached.fits.consistent fun _ _ member => absurd member nobody
  by_cases unnamed : dp.stateFile = ""
  · rw [if_pos unnamed]
    exact ⟨attached.fits, iff_of_true consistent fun named => absurd unnamed named⟩
  · rw [if_neg unnamed]
    cases o.opened with
    | none => exact ⟨attached.fits, iff_of_true consistent fun _ _ opened => by cases opened⟩
    | some scan =>
      refine ⟨attached.fits.read o.moment scan, ?_⟩
      have read := attached.fits.read_consistent_iff
        (fun _ member => absurd member nobody) o.moment scan
      rw [offers_iff attached.reserved, empty, pfx] at read
      rw [Option.elim_some, read]
      simp only [spares6, ne_eq, unnamed, not_false_eq_true, forall_const, Option.some.injEq,
        forall_eq']

/-- Which assignments a configuration starts with is up to the hosts that it leaves alone. -/
theorem taken_spec (resolved : (resolveWith listing cfg ro).1 = .ok r)
    (sound : ∀ p, ro.existingPool = some p → p.Sound) :
    (r.taken o).table = r.table ∧ (r.taken o).Fits ∧
      ((r.taken o).Consistent ↔ cfg.Admits ro o) := by
  obtain ⟨f, b, s, resolves⟩ := resolves_of_ok resolved
  cases configured : cfg.dynamicPool with
  | none =>
    have unpooled : r.pool = none := resolves.result.2.1.trans (resolves.unpooled configured)
    have same : r.taken o = r := by rw [Resolved.taken, unpooled]; rfl
    rw [same]
    refine ⟨rfl, ?_, iff_of_true ?_ ⟨?_, ?_⟩⟩
    · intro p here
      rw [unpooled] at here
      cases here
    · intro p here
      rw [unpooled] at here
      cases here
    · intro p dp _ some
      rw [configured] at some
      cases some
    · intro dp scan some
      rw [configured] at some
      cases some
  | some dp =>
    obtain ⟨p, here, pfx, attached, source⟩ := resolves.attached sound configured
    have spares6 := resolves.spares6
    cases source with
    | existing q existing same hosts reuses =>
      rw [Resolved.taken_of_reuses reuses, admits_existing existing configured (same.trans pfx)]
      refine ⟨rfl, fun q here' => ?_, fun consistent pair member => ?_, fun admitted q here' => ?_⟩
      · obtain rfl : p = q := Option.some.inj (here.symm.trans here')
        exact attached.fits
      · rw [← hosts] at member
        obtain ⟨four, six⟩ := (consistent p here).held pair.1 pair.2 member
        rw [same, ← spares6]
        exact ⟨(attached.spares4 _).mp four, six⟩
      · obtain rfl : p = q := Option.some.inj (here.symm.trans here')
        refine attached.fits.consistent fun v4 v6 member => ?_
        rw [hosts] at member
        obtain ⟨four, six⟩ := admitted _ member
        rw [same] at four
        exact ⟨(attached.spares4 v4).mpr four, (spares6 v6).mpr six⟩
    | fresh other empty reuses =>
      have given : r.config.dynamicPool = some dp := by
        obtain ⟨b₁, b₂, b₃, b₄, e⟩ := examine_passes.mp resolves.examined
        rw [resolves.result.2.2.2, e.given.dynamicPool, configured]
      have taken : r.taken o = r.loadPoolState o := by
        rw [Resolved.taken, here, reuses]
        rfl
      rw [pfx] at other
      rw [taken, admits_fresh configured other, Resolved.Fits, Resolved.Consistent,
        Resolved.loadPoolState_pool here given, r.loadPoolState_table]
      simp only [Option.some.injEq, forall_eq', true_and]
      exact attached.loaded empty pfx spares6

end Clatto.Config

namespace Clatto.Daemon

open Netip Addrmap Netconf Config Xlate

variable {d d' : Daemon} {o : Occasion} {cfg : Config} {r : Resolved} {source : String}
  {w : World Kernel}

theorem exchangePools_taken (d : Daemon) (o : Occasion) (r : Resolved) :
    (d.exchangePools o r).1 = r.taken o ∧ (d.exchangePools o r).2.engine = d.engine := by
  rw [exchangePools, Resolved.taken]
  split <;> exact ⟨rfl, rfl⟩

theorem apply_done (done : (d.apply o cfg source w).1 = .ok ()) :
    ∃ r, (resolveWith o.listing cfg d.resolveOptions).1 = .ok r ∧
      (d.apply o cfg source w).2.1.cur = r.taken o ∧
      (d.apply o cfg source w).2.1.engine = d.engine.map fun _ => (r.taken o).engine := by
  cases checked : (d.validate o.listing cfg).1 with
  | error err =>
    rw [apply_of_error checked] at done
    cases done
  | ok r =>
    refine ⟨r, (validate_ok.mp checked).1, ?_⟩
    obtain ⟨taken, engine⟩ := exchangePools_taken
      (d.consulted (resolveWith o.listing cfg d.resolveOptions).2) o r
    rw [apply_of_ok checked, switch] at done ⊢
    dsimp only at done ⊢
    rw [taken] at done ⊢
    split at done
    · cases done
    · exact ⟨rfl, congrArg (Option.map _) engine⟩

inductive Change where
  | start (device : Except String String) (w : World Kernel)
  | packet (raw : Bytes)
  | tick (o : Occasion)
  | load (o : Occasion)
  | apply (o : Occasion) (cfg : Config) (source : String) (w : World Kernel)
  | applyYAML (o : Occasion) (parsed : Except String Config) (source : String) (w : World Kernel)
  | reload (o : Occasion) (loaded : Option (Except String Config)) (source : String)
      (w : World Kernel)
  | stop (o : Occasion)

/-- What becomes of a daemon: it is started, a packet goes through in any surroundings, its ticker
goes off, its state file is loaded, it takes over a configuration, which it may have been sent or
read from its file, or it comes to its end. -/
inductive Step : Daemon → Change → Daemon → Prop
  | start {d d' : Daemon} {device : Except String String} {w : World Kernel}
      (started : (d.start device w).1 = .ok d') : Step d (.start device w) d'
  | packet {ω : Type} (d : Daemon) (outside : Outside ω) (x : ω) (raw : Bytes) :
      Step d (.packet raw) (receive outside raw (d, x)).world.1
  | tick (d : Daemon) (o : Occasion) : Step d (.tick o) (d.tick o)
  | load (d : Daemon) (o : Occasion) : Step d (.load o) { d with cur := d.cur.loadPoolState o }
  | apply {d : Daemon} {o : Occasion} {cfg : Config} {source : String} {w : World Kernel}
      (done : (d.apply o cfg source w).1 = .ok ()) :
      Step d (.apply o cfg source w) (d.apply o cfg source w).2.1
  | applyYAML {d : Daemon} {o : Occasion} {parsed : Except String Config} {source : String}
      {w : World Kernel} (done : (d.applyYAML o parsed source w).1 = .ok ()) :
      Step d (.applyYAML o parsed source w) (d.applyYAML o parsed source w).2.1
  | reload {d : Daemon} {o : Occasion} {loaded : Option (Except String Config)} {source : String}
      {w : World Kernel} (done : (d.reload o loaded source w).1 = .ok ()) :
      Step d (.reload o loaded source w) (d.reload o loaded source w).2.1
  | stop (d : Daemon) (o : Occasion) : Step d (.stop o) (d.stop o)

/-- The hosts that are loaded from a state file are not claimed by the table. -/
def AdmitsFile (d : Daemon) (o : Occasion) : Prop :=
  ∀ p scan, d.cur.pool = some p → d.cur.stateFile ≠ none → o.opened = some scan →
    ∀ pair ∈ takeOver p.Offers p.pairs (scan.lines.filterMap parseRow),
      d.cur.table.lookup6 pair.2 = none

/-- The hosts of the pool are left alone by what happens. -/
def Admits (d : Daemon) : Change → Prop
  | .load o => d.AdmitsFile o
  | .apply o cfg _ _ => cfg.Admits d.resolveOptions o
  | .applyYAML o parsed _ _ => ∀ cfg, parsed = .ok cfg → cfg.Admits d.resolveOptions o
  | .reload o loaded _ _ => ∀ cfg, loaded = some (.ok cfg) → cfg.Admits d.resolveOptions o
  | _ => True

/-- The pool of a daemon works under its table, and so does the one that the engine asks. -/
structure InOrder (d : Daemon) : Prop where
  works : Mapper.Works ⟨d.cur.table, d.cur.pool⟩
  engine : ∀ e, d.engine = some e → e.table = d.cur.table

def Consistent (d : Daemon) : Prop := d.cur.Consistent

theorem InOrder.consistent (order : d.InOrder) : d.Consistent :=
  fun p here => (Table.hosts_iff.mp (order.works p here)).2

theorem inOrder_of_fits (fits : d.cur.Fits) (engine : ∀ e, d.engine = some e → e.table = d.cur.table)
    (consistent : d.Consistent) : d.InOrder :=
  ⟨fun p here => Table.hosts_iff.mpr ⟨fits p here, consistent p here⟩, engine⟩

theorem works_kept {ω : Type} (outside : Outside ω) (t : Table) :
    outside.env.Keeps fun w => w.1.table = t ∧ w.1.Works where
  to6 a w := by
    rintro ⟨rfl, works⟩
    exact Mapper.works_mapIPv4ToIPv6 works a _
  to4 a allocate w := by
    rintro ⟨rfl, works⟩
    exact Mapper.works_mapIPv6ToIPv4 works a allocate _
  packet _ _ works := works
  ident _ works := works

theorem InOrder.receive {ω : Type} (order : d.InOrder) (outside : Outside ω) (x : ω) (raw : Bytes) :
    (receive outside raw (d, x)).world.1.InOrder := by
  rw [Daemon.receive]
  split
  · exact order
  rename_i engine running
  split
  · exact order
  · rename_i t _
    have table := order.engine engine running
    have works := order.works
    rw [← table] at works
    obtain ⟨same, works'⟩ := (works_kept outside engine.table).translate
      (w := (⟨engine.table, d.cur.pool⟩, x)) ⟨rfl, works⟩ t raw
    refine ⟨?_, order.engine⟩
    intro p here
    have hosts := works' p here
    rw [same, table] at hosts
    exact hosts

theorem hosts_save {t : Table} {p : Pool} (hosts : t.Hosts p) (m : Moment) (stamp : Stamp)
    (faults : Pool.Faults) (file : Option Text) : t.Hosts (p.save m stamp faults file).2 := by
  have clean : t.Hosts { p with dirty := false } :=
    ⟨⟨hosts.sound.size, hosts.sound.filed, hosts.sound.placed, hosts.sound.used⟩, hosts.entry,
      hosts.reserved, hosts.clear⟩
  have written : t.Hosts (if faults.write then p else { p with dirty := false }) := by
    split
    · exact hosts
    · exact clean
  rw [Pool.save]
  split
  · exact hosts
  · dsimp only
    split
    · exact written
    · split <;> exact written

theorem works_savePoolState (works : Mapper.Works ⟨r.table, r.pool⟩) (o : Occasion) (force : Bool) :
    Mapper.Works ⟨(r.savePoolState o force).table, (r.savePoolState o force).pool⟩ := by
  rw [Resolved.savePoolState]
  split
  · intro q saved
    obtain ⟨p, here, rfl⟩ := Option.map_eq_some_iff.mp saved
    split
    · exact hosts_save (works p here) ..
    · exact works p here
  · exact works

theorem InOrder.tick (order : d.InOrder) (o : Occasion) : (d.tick o).InOrder where
  works := works_savePoolState (r := { d.cur with pool := d.cur.pool.map (·.maintain o.moment) })
    (Mapper.works_maintain order.works o.moment) o false
  engine e running := by
    have same : (d.tick o).cur.table = d.cur.table :=
      Resolved.savePoolState_table { d.cur with pool := d.cur.pool.map (·.maintain o.moment) } o false
    rw [same]
    exact order.engine e running

theorem InOrder.stop (order : d.InOrder) (o : Occasion) : (d.stop o).InOrder where
  works := works_savePoolState order.works o true
  engine e running :=
    (order.engine e running).trans (Resolved.savePoolState_table d.cur o true).symm

theorem InOrder.start {device : Except String String} (order : d.InOrder)
    (started : (d.start device w).1 = .ok d') : d'.InOrder := by
  have running (applied : Options) : (d.running applied).InOrder := by
    refine ⟨order.works, ?_⟩
    rintro e ⟨⟩
    rfl
  unfold Daemon.start at started
  split at started
  · cases started
  · split at started
    · dsimp only at started
      split at started
      · cases started
      · cases started
        exact running _
    · cases started
      exact running _

theorem load_consistent_iff (order : d.InOrder) (o : Occasion) :
    (d.cur.loadPoolState o).Fits ∧ ((d.cur.loadPoolState o).Consistent ↔ d.AdmitsFile o) := by
  have fits : d.cur.Fits := fun p here => (Table.hosts_iff.mp (order.works p here)).1
  by_cases loads : ∃ p scan, d.cur.pool = some p ∧ d.cur.stateFile ≠ none ∧ o.opened = some scan
  · obtain ⟨p, scan, here, named, opened⟩ := loads
    obtain ⟨path, file⟩ := Option.ne_none_iff_exists'.mp named
    have pool : (d.cur.loadPoolState o).pool = some (p.read o.moment scan).2 := by
      rw [Resolved.loadPoolState, file, opened, here]
      rfl
    have held (pair : Addr × Addr) (member : pair ∈ p.pairs) :=
      ((order.consistent p here).held pair.1 pair.2 member).1
    have read := (fits p here).read_consistent_iff held o.moment scan
    rw [Resolved.Fits, Resolved.Consistent, d.cur.loadPoolState_table, pool]
    simp only [Option.some.injEq, forall_eq']
    refine ⟨(fits p here).read o.moment scan, read.trans ⟨?_, ?_⟩⟩
    · intro clear q scan' here' _ opened'
      obtain rfl : p = q := Option.some.inj (here.symm.trans here')
      obtain rfl : scan = scan' := Option.some.inj (opened.symm.trans opened')
      exact clear
    · intro admits
      exact admits p scan here named opened
  · have same : d.cur.loadPoolState o = d.cur := by
      rw [Resolved.loadPoolState]
      split
      · rename_i path scan file opened
        cases here : d.cur.pool with
        | none =>
          rw [Resolved.stateFile, here] at file
          cases file
        | some p =>
          exact absurd ⟨p, scan, here, by rw [file]; exact Option.some_ne_none _, opened⟩ loads
      · rfl
    rw [same]
    refine ⟨fits, iff_of_true order.consistent ?_⟩
    intro p scan here named opened
    exact absurd ⟨p, scan, here, named, opened⟩ loads

theorem apply_consistent_iff (order : d.InOrder) (done : (d.apply o cfg source w).1 = .ok ()) :
    ((d.apply o cfg source w).2.1.Consistent ↔ cfg.Admits d.resolveOptions o) ∧
      ((d.apply o cfg source w).2.1.Consistent → (d.apply o cfg source w).2.1.InOrder) := by
  obtain ⟨r, resolved, cur, engine⟩ := apply_done done
  have sound (p : Pool) (here : d.resolveOptions.existingPool = some p) : p.Sound :=
    (order.works p here).sound
  obtain ⟨-, fits, consistent⟩ := @taken_spec _ _ _ _ o resolved sound
  rw [← cur] at fits consistent
  refine ⟨consistent, inOrder_of_fits fits ?_⟩
  intro e running
  rw [engine] at running
  obtain ⟨before, -, rfl⟩ := Option.map_eq_some_iff.mp running
  rw [cur]
  rfl

theorem applyYAML_consistent_iff {parsed : Except String Config} (order : d.InOrder)
    (done : (d.applyYAML o parsed source w).1 = .ok ()) :
    ((d.applyYAML o parsed source w).2.1.Consistent ↔
        ∀ cfg, parsed = .ok cfg → cfg.Admits d.resolveOptions o) ∧
      ((d.applyYAML o parsed source w).2.1.Consistent →
        (d.applyYAML o parsed source w).2.1.InOrder) := by
  cases parsed with
  | error err => cases done
  | ok cfg =>
    obtain ⟨consistent, next⟩ := apply_consistent_iff order done
    refine ⟨consistent.trans ⟨?_, fun admits => admits cfg rfl⟩, next⟩
    rintro admits _ ⟨⟩
    exact admits

/-- After a step the pool and the table are consistent if the step leaves the hosts alone. -/
theorem Step.consistent_iff {c : Change} (step : Step d c d') (order : d.InOrder) :
    (d'.Consistent ↔ d.Admits c) ∧ (d'.Consistent → d'.InOrder) := by
  have always (after : d'.InOrder) :
      (d'.Consistent ↔ True) ∧ (d'.Consistent → d'.InOrder) :=
    ⟨iff_of_true after.consistent trivial, fun _ => after⟩
  cases step with
  | start started => exact always (order.start started)
  | packet _ outside x raw => exact always (order.receive outside x raw)
  | tick _ o => exact always (order.tick o)
  | load _ o =>
    obtain ⟨fits, consistent⟩ := load_consistent_iff order o
    refine ⟨consistent, inOrder_of_fits fits ?_⟩
    intro e running
    exact (order.engine e running).trans (d.cur.loadPoolState_table o).symm
  | apply done => exact apply_consistent_iff order done
  | applyYAML done => exact applyYAML_consistent_iff order done
  | @reload _ o loaded source w done =>
    cases loaded with
    | none => cases done
    | some parsed =>
      obtain ⟨consistent, next⟩ := applyYAML_consistent_iff order done
      exact ⟨consistent.trans (by simp only [Admits, Option.some.injEq, Option.getD_some]), next⟩
  | stop _ o => exact always (order.stop o)

/-- A run of a daemon, with the states that it goes through. -/
inductive Path : Daemon → List (Change × Daemon) → Prop
  | nil (d : Daemon) : Path d []
  | cons {d d' : Daemon} {c : Change} {steps : List (Change × Daemon)} (step : Step d c d')
      (rest : Path d' steps) : Path d ((c, d') :: steps)

/-- Every step of a run leaves the hosts of the pool alone. -/
def AdmitsAll : Daemon → List (Change × Daemon) → Prop
  | _, [] => True
  | d, (c, d') :: steps => d.Admits c ∧ AdmitsAll d' steps

theorem Path.consistent_iff {steps : List (Change × Daemon)} (path : Path d steps)
    (order : d.InOrder) : (∀ step ∈ steps, step.2.Consistent) ↔ AdmitsAll d steps := by
  induction path with
  | nil d => exact iff_of_true (by simp) trivial
  | cons step rest ih =>
    obtain ⟨first, next⟩ := step.consistent_iff order
    rw [List.forall_mem_cons, AdmitsAll, first]
    exact and_congr_right fun admits => ih (next (first.mpr admits))

theorem new_consistent_iff {listing : Listing} {sourceAddr : SourceAddr}
    (resolved : (resolveWith listing cfg { sourceAddr := some sourceAddr }).1 = .ok r) :
    (Daemon.new r sourceAddr o).cur.Fits ∧
      ((Daemon.new r sourceAddr o).Consistent ↔ cfg.Admits { sourceAddr := some sourceAddr } o) := by
  obtain ⟨f, b, s, resolves⟩ := resolves_of_ok resolved
  have alone : ¬ r.reuses = true := by
    rw [resolves.result.2.2.1]
    intro reuses
    obtain ⟨p, -, here, -⟩ := reuses_iff.mp reuses
    cases here
  have taken : r.taken o = r.loadPoolState o := by
    rw [Resolved.taken]
    split
    · rfl
    · rename_i unloaded
      have unpooled : r.pool = none := by
        by_contra pooled
        exact unloaded ⟨Option.isSome_iff_ne_none.mpr pooled, alone⟩
      rw [Resolved.loadPoolState, Resolved.stateFile, unpooled]
  obtain ⟨-, spec⟩ := @taken_spec _ _ _ _ o resolved fun p here => by cases here
  rw [taken] at spec
  exact spec

/-- In a life that begins with a configuration and its state file, the pool and the table stay
consistent as long as the hosts of the pool are left alone. -/
theorem life_consistent_iff {listing : Listing} {sourceAddr : SourceAddr}
    {steps : List (Change × Daemon)}
    (resolved : (resolveWith listing cfg { sourceAddr := some sourceAddr }).1 = .ok r)
    (path : Path (Daemon.new r sourceAddr o) steps) :
    ((Daemon.new r sourceAddr o).Consistent ∧ ∀ step ∈ steps, step.2.Consistent) ↔
      cfg.Admits { sourceAddr := some sourceAddr } o ∧
        AdmitsAll (Daemon.new r sourceAddr o) steps := by
  obtain ⟨fits, first⟩ := new_consistent_iff (o := o) resolved
  rw [first]
  refine and_congr_right fun admits => path.consistent_iff ?_
  exact inOrder_of_fits fits (fun e running => by cases running) (first.mpr admits)

/-- A pool with a state file, and perhaps a map for one of its addresses. -/
def filedConfig (mapped : Bool) : Config :=
  { poolConfig with
    dynamicPool := some { pfx := .of (.v4 0x0a000000#32) 24, stateFile := "/var/lib/clatto.map" }
    maps := if mapped then [⟨"10.0.0.5", "2001:db8:1::5"⟩] else [] }

def heldRow : Row := ⟨.v4 0x0a000005#32, .v6 (0x20010db8#128 <<< 96 ||| 5) "", 100⟩

def fileScan : Scan := ⟨["10.0.0.5\t2001:db8::5\t100".toList], false⟩

def fileOccasion : Occasion := { Occasion.plain with opened := some fileScan }

theorem rows_fileScan : fileScan.lines.filterMap parseRow = [heldRow] := by decide +kernel

theorem offers_heldRow : (filedConfig false).Offers (.of (.v4 0x0a000000#32) 24) heldRow :=
  ⟨by decide, by decide +kernel, by decide +kernel⟩

theorem filedConfig_admits :
    (filedConfig false).Admits { sourceAddr := some nowhere } fileOccasion where
  kept := by
    intro p dp here
    cases here
  loaded := by
    rintro dp scan ⟨⟩ - - ⟨⟩ pair member
    rw [rows_fileScan] at member
    rcases mem_takeOver member with nobody | ⟨row, only, -, rfl⟩
    · cases nobody
    · rw [List.mem_singleton.mp only]
      decide +kernel

theorem exists_filed (mapped : Bool) (existing : Option Pool) : ∃ r,
    (resolveWith .standard (filedConfig mapped)
      { existingPool := existing, sourceAddr := some nowhere }).1 = .ok r ∧
    r.config.interface = ({} : Interface).filled ∧ r.httpListen = httpListen "" ∧
    r.logJSON = true := by
  obtain ⟨f, b, s, warnings, r, resolves, -, found, -⟩ := exists_resolves_of_clean .standard
    { sourceAddr := some nowhere } (filedConfig mapped) (by revert mapped; decide +kernel)
    (by revert mapped; decide +kernel) (show parseLevel "" = .ok .info by decide +kernel)
    (show parseFormat "" = .ok true by decide +kernel) (show List.mapM parseKind [] = .ok [] from rfl)
  obtain ⟨b₁, b₂, b₃, b₄, e⟩ := examine_passes.mp resolves.examined
  obtain ⟨r', resolved, config, http, json⟩ := resolves.with_pool existing
  refine ⟨r', resolved, ?_, ?_, ?_⟩
  · rw [config, found]
    exact e.given.interface
  · rw [http, found]
    show httpListen f.config.http.listen = _
    rw [e.given.http]
    rfl
  · rw [json, found]
    rfl

theorem holds_heldRow {r : Resolved}
    (resolved :
      (resolveWith .standard (filedConfig false) { sourceAddr := some nowhere }).1 = .ok r) :
    ∃ p, (Daemon.new r nowhere fileOccasion).cur.pool = some p ∧
      p.pfx = .of (.v4 0x0a000000#32) 24 ∧ p.Sound ∧ (heldRow.v4, heldRow.v6) ∈ p.pairs := by
  obtain ⟨f, b, s, resolves⟩ := resolves_of_ok resolved
  obtain ⟨b₁, b₂, b₃, b₄, e⟩ := examine_passes.mp resolves.examined
  obtain ⟨p, here, pfx, attached, source⟩ := resolves.attached (fun p here => by cases here) rfl
  have given : r.config.dynamicPool = (filedConfig false).dynamicPool := by
    rw [resolves.result.2.2.2, e.given.dynamicPool]
  cases source with
  | existing q existing => cases existing
  | fresh _ empty =>
    obtain ⟨sound, keeps⟩ := Pool.read_sound attached.fits.sound (.second 0) fileScan
    refine ⟨_, Resolved.loadPoolState_pool here given fileOccasion,
      (congrArg Range.pfx keeps.range).trans pfx, sound, ?_⟩
    show _ ∈ (p.read (.second 0) fileScan).2.pairs
    rw [Pool.read_pairs attached.fits.sound, offers_iff attached.reserved, empty, rows_fileScan, pfx]
    show _ ∈ Row.take _ ∅ heldRow
    rw [Row.take, if_pos ⟨offers_heldRow, fun _ nobody => nobody.elim⟩]
    exact Set.mem_insert _ _

/-- Before the interface is up, a configuration that is valid is taken over. -/
theorem apply_ok_of_valid (down : d.started = false) (valid : (d.validate o.listing cfg).1 = .ok r) :
    (d.apply o cfg source w).1 = .ok () := by
  rw [apply_of_ok valid]
  have still : (d.consulted (resolveWith o.listing cfg d.resolveOptions).2).started = false := down
  generalize d.consulted (resolveWith o.listing cfg d.resolveOptions).2 = d' at still ⊢
  rw [← (d'.exchangePools_setup o r).1.started] at still
  rw [switch]
  dsimp only
  rw [configure, if_neg fun up => Bool.eq_false_iff.mp still up.1]

/-- Nothing happens to a host that was loaded. -/
theorem life_consistent_iff_loaded : ∃ r,
    (resolveWith .standard (filedConfig false) { sourceAddr := some nowhere }).1 = .ok r ∧
    (∃ p, (Daemon.new r nowhere fileOccasion).cur.pool = some p ∧
      (heldRow.v4, heldRow.v6) ∈ p.pairs) ∧
    (Daemon.new r nowhere fileOccasion).Consistent ∧
    ((Daemon.new r nowhere fileOccasion).tick .plain).Consistent := by
  obtain ⟨r, resolved, -⟩ := exists_filed false none
  obtain ⟨p, here, -, -, held⟩ := holds_heldRow resolved
  have path : Path (Daemon.new r nowhere fileOccasion)
      [(.tick .plain, (Daemon.new r nowhere fileOccasion).tick .plain)] :=
    .cons (.tick _ .plain) (.nil _)
  obtain ⟨first, later⟩ := (life_consistent_iff resolved path).mpr
    ⟨filedConfig_admits, trivial, trivial⟩
  exact ⟨r, resolved, ⟨p, here, held⟩, first, later _ List.mem_cons_self⟩

/-- A configuration that maps 10.0.0.5 is taken over, and the host keeps the address. -/
theorem life_consistent_fails : ∃ r d' p,
    (resolveWith .standard (filedConfig false) { sourceAddr := some nowhere }).1 = .ok r ∧
    (Daemon.new r nowhere fileOccasion).Consistent ∧
    Step (Daemon.new r nowhere fileOccasion) (.apply .plain (filedConfig true) "api" bareWorld) d' ∧
    d'.cur.pool = some p ∧ (heldRow.v4, heldRow.v6) ∈ p.pairs ∧
    d'.cur.table.lookup4 heldRow.v4 ≠ some (poolEntry p.pfx) := by
  obtain ⟨r, resolved, interface, http, json⟩ := exists_filed false none
  obtain ⟨q, here, pfx, sound, held⟩ := holds_heldRow resolved
  obtain ⟨r', resolved', interface', http', json'⟩ :=
    exists_filed true (Daemon.new r nowhere fileOccasion).cur.pool
  have config : (Daemon.new r nowhere fileOccasion).cur.config = r.config :=
    r.loadPoolState_config fileOccasion
  obtain ⟨httpListen, logJSON⟩ := r.loadPoolState_settings fileOccasion
  have same : r'.config.interface = (Daemon.new r nowhere fileOccasion).cur.config.interface := by
    rw [config, interface, interface']
  have unchanged : immutableChanges (Daemon.new r nowhere fileOccasion).cur r' = [] := by
    refine immutableChanges_eq_nil (by rw [same]) (by rw [same]) ?_ ?_
      (http'.trans (httpListen.trans http).symm) (json'.trans (logJSON.trans json).symm)
    · rw [Resolved.configure, Resolved.configure, same]
    · rw [Resolved.sysctl, Resolved.sysctl, Resolved.configure, Resolved.configure, same]
  have done : ((Daemon.new r nowhere fileOccasion).apply .plain (filedConfig true) "api"
      bareWorld).1 = .ok () := apply_ok_of_valid rfl (validate_ok.mpr ⟨resolved', unchanged⟩)
  obtain ⟨r'', again, cur, -⟩ := apply_done done
  obtain rfl : r' = r'' := Except.ok.inj (resolved'.symm.trans again)
  obtain ⟨f, b, s, resolves⟩ := resolves_of_ok resolved'
  obtain ⟨p, pool, pfx', attached, source⟩ := resolves.attached
    (fun p existing => Option.some.inj (here.symm.trans existing) ▸ sound) rfl
  cases source with
  | fresh other => exact absurd (pfx.trans pfx'.symm) (other q here)
  | existing q' existing _ hosts reuses =>
    obtain rfl : q = q' := Option.some.inj (here.symm.trans existing)
    rw [Resolved.taken_of_reuses reuses] at cur
    refine ⟨r, _, p, resolved, (new_consistent_iff resolved).2.mpr filedConfig_admits, .apply done,
      by rw [cur, pool], by rw [hosts]; exact held, ?_⟩
    rw [cur, Ne, attached.spares4, pfx']
    decide +kernel

end Clatto.Daemon
