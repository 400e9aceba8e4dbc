import Clatto.Config.Claims
import Clatto.Daemon.Apply

/-! What a configuration that is rejected leaves behind. It is resolved against the pool that
is in use, and the pool is changed on the way. -/

namespace Clatto.Config

open Netip Addrmap Collect

variable {listing : Listing} {ro : ResolveOptions} {cfg : Config}

/-- A configuration with other log settings. -/
def withLog (cfg : Config) (log : Log) : Config := { cfg with log }

theorem withTranslator_withLog (cfg : Config) (log : Log) :
    (cfg.withLog log).withTranslator = cfg.withTranslator.withLog log := by
  by_cases missing : cfg.clat.isSome ∧ ¬ cfg.ipv4Address.isValid
  · have filled : cfg.withTranslator = { cfg with ipv4Address := defaultCLATTranslatorIPv4 } :=
      if_pos missing
    rw [filled]
    exact if_pos missing
  · have same : cfg.withTranslator = cfg := if_neg missing
    rw [same]
    exact if_neg missing

theorem examine_withLog (ro : ResolveOptions) (cfg : Config) (log : Log) :
    examine ro (cfg.withLog log) = (examine ro cfg).map fun f =>
      { f with config := f.config.withLog log } := by
  simp only [examine, withTranslator_withLog]
  rw [show (cfg.withLog log).wkpfStrict = cfg.wkpfStrict from rfl]
  simp only [map_bind, map_pure, withLog]
  rfl

/-- Nothing is wrong with a configuration, except perhaps its log settings. -/
def Tabled (listing : Listing) (ro : ResolveOptions) (cfg : Config) : Prop :=
  ∃ r, (resolveWith listing (cfg.withLog {}) ro).1 = .ok r

theorem tabled_iff :
    Tabled listing ro cfg ↔
      ∃ f b s, (examine ro cfg).Passes (.new (boolOr cfg.wkpfStrict true)) f b ∧
        b.build = .ok s := by
  have strict : (cfg.withLog {}).wkpfStrict = cfg.wkpfStrict := rfl
  constructor
  · rintro ⟨r, resolved⟩
    obtain ⟨f, b, s, resolves⟩ := resolves_of_ok resolved
    have examined := resolves.examined
    rw [strict, examine_withLog] at examined
    obtain ⟨f', passed, -⟩ := passes_map.mp examined
    exact ⟨f', b, s, passed, resolves.built⟩
  · rintro ⟨f, b, s, passed, built⟩
    have examined : (examine ro (cfg.withLog {})).Passes (.new (boolOr cfg.wkpfStrict true))
        { f with config := f.config.withLog {} } b := by
      rw [examine_withLog]
      exact passes_map.mpr ⟨f, passed, rfl⟩
    obtain ⟨warnings, resolved⟩ := exists_resolves listing examined built
      (show parseLevel "" = .ok .info by decide +kernel)
      (show parseFormat "" = .ok true by decide +kernel) (show [].mapM parseKind = .ok [] from rfl)
    exact ⟨_, resolved⟩

/-- A configuration asks of the pool that is there only what the pool does already: to keep its
leases and, if a table gets built over it, to withhold the same addresses. -/
structure Harmless (listing : Listing) (ro : ResolveOptions) (cfg : Config) : Prop where
  leases : ∀ p dp, ro.existingPool = some p → cfg.dynamicPool = some dp → p.pfx = dp.pfx →
    orDefault dp.minLease defaultMinLease = p.minLease ∧
      orDefault dp.maxLease defaultMaxLease = p.maxLease
  reserved : ∀ p dp, ro.existingPool = some p → cfg.dynamicPool = some dp → p.pfx = dp.pfx →
    Tabled listing ro cfg → ∀ a, p.reserved a = !decide (cfg.Spares4 p.pfx a)

theorem harmless_iff {p : Pool} {dp : DynamicPool} (here : ro.existingPool = some p)
    (configured : cfg.dynamicPool = some dp) (same : p.pfx = dp.pfx) :
    Harmless listing ro cfg ↔
      (orDefault dp.minLease defaultMinLease = p.minLease ∧
        orDefault dp.maxLease defaultMaxLease = p.maxLease) ∧
      (Tabled listing ro cfg → ∀ a, p.reserved a = !decide (cfg.Spares4 p.pfx a)) := by
  constructor
  · intro harmless
    exact ⟨harmless.leases p dp here configured same, harmless.reserved p dp here configured same⟩
  · rintro ⟨leases, reserved⟩
    constructor
    all_goals
      intro q dp' here' configured' _
      obtain rfl : p = q := Option.some.inj (here.symm.trans here')
      obtain rfl : dp = dp' := Option.some.inj (configured.symm.trans configured')
    · exact leases
    · exact reserved

theorem setLeases_eq_self {p : Pool} {minLease maxLease : Duration} :
    p.setLeases minLease maxLease = p ↔
      orDefault minLease defaultMinLease = p.minLease ∧
        orDefault maxLease defaultMaxLease = p.maxLease := by
  constructor
  · intro same
    exact ⟨congrArg Pool.minLease same, congrArg Pool.maxLease same⟩
  · rintro ⟨min, max⟩
    rw [Pool.setLeases, min, max]

theorem reserve_setLeases_eq_self {p : Pool} {minLease maxLease : Duration} {reserved : Addr → Bool} :
    (p.setLeases minLease maxLease).reserve reserved = p ↔
      (orDefault minLease defaultMinLease = p.minLease ∧
        orDefault maxLease defaultMaxLease = p.maxLease) ∧ ∀ a, p.reserved a = reserved a := by
  constructor
  · intro same
    exact ⟨⟨congrArg Pool.minLease same, congrArg Pool.maxLease same⟩,
      fun a => (congrFun (congrArg Pool.reserved same) a).symm⟩
  · rintro ⟨leases, withheld⟩
    rw [setLeases_eq_self.mpr leases, ← funext withheld, Pool.reserve]

theorem reuses_iff :
    ro.reuses cfg = true ↔
      ∃ p dp, ro.existingPool = some p ∧ cfg.dynamicPool = some dp ∧ p.pfx = dp.pfx := by
  constructor
  · intro reuses
    cases configured : cfg.dynamicPool with
    | none =>
      rw [ResolveOptions.reuses, configured] at reuses
      cases reuses
    | some dp =>
      obtain ⟨-, p, here, same⟩ := (ResolveOptions.reuses_eq_true configured).mp reuses
      exact ⟨p, dp, here, rfl, same⟩
  · rintro ⟨p, dp, here, configured, same⟩
    refine (ResolveOptions.reuses_eq_true configured).mpr ⟨?_, p, here, same⟩
    rw [← same, Prefix.isValid, p.len]
    rfl

theorem touched_of_same {p : Pool} {dp : DynamicPool} (here : ro.existingPool = some p)
    (configured : cfg.dynamicPool = some dp) (same : p.pfx = dp.pfx) :
    ro.touched cfg = some (p.setLeases dp.minLease dp.maxLease) := by
  have reuses : ro.reuses cfg = true := reuses_iff.mpr ⟨p, dp, here, configured, same⟩
  rw [ResolveOptions.touched, configured]
  dsimp only
  rw [if_pos reuses, here, Option.map_some]

theorem resolveWith_pool_of_build {f : Findings} {b : Builder} {s : Mapper}
    (passed : (examine ro cfg).Passes (.new (boolOr cfg.wkpfStrict true)) f b)
    (built : b.build = .ok s) :
    (resolveWith listing cfg ro).2 = if ro.reuses cfg then s.pool else ro.existingPool := by
  obtain ⟨warnings, ran⟩ := passed
  simp only [resolveWith, ran, ne_eq, not_true, if_false, built]

/-- An error before the table is built comes too late for the leases. -/
theorem resolveWith_pool_of_not_tabled (fails : ¬ Tabled listing ro cfg) :
    (resolveWith listing cfg ro).2 = ro.touched cfg := by
  rw [resolveWith]
  split
  · rfl
  rename_i clean
  split
  · rfl
  · rename_i s built
    exact absurd (tabled_iff.mpr ⟨_, _, s, passes_of_errs (not_not.mp clean), built⟩) fails

theorem reserved_of_build {f : Findings} {b : Builder} {s : Mapper}
    (passed : (examine ro cfg).Passes (.new (boolOr cfg.wkpfStrict true)) f b)
    (built : b.build = .ok s) {p : Pool} (pool : b.pool = some p) :
    s.pool = some (p.reserve fun a => !decide (cfg.Spares4 p.pfx a)) := by
  obtain ⟨b₁, b₂, b₃, b₄, e⟩ := examine_passes.mp passed
  obtain ⟨-, -, -, -, -, -, set⟩ := Builder.build_eq built
  rw [set, pool, Option.map_some]
  congr 2
  funext a
  rw [← decide_not, decide_eq_decide]
  exact not_congr (e.lookup4_pool built pool a)

/-- The pool that is there stays as it is if nothing new is asked of it. -/
theorem resolveWith_pool_eq_iff (listing : Listing) (ro : ResolveOptions) (cfg : Config) :
    (resolveWith listing cfg ro).2 = ro.existingPool ↔ Harmless listing ro cfg := by
  by_cases reuses : ro.reuses cfg = true
  · obtain ⟨p, dp, here, configured, same⟩ := reuses_iff.mp reuses
    rw [harmless_iff here configured same]
    by_cases tabled : Tabled listing ro cfg
    · obtain ⟨f, b, s, passed, built⟩ := tabled_iff.mp tabled
      obtain ⟨b₁, b₂, b₃, b₄, e⟩ := examine_passes.mp passed
      obtain ⟨pool, set, -, ⟨-, q, here', rfl⟩ | ⟨fresh, -⟩⟩ := e.pool_cases configured
      · obtain rfl : p = q := Option.some.inj (here.symm.trans here')
        rw [resolveWith_pool_of_build passed built, if_pos reuses, reserved_of_build passed built set,
          here, Option.some_inj, reserve_setLeases_eq_self]
        exact and_congr_right fun _ => ⟨fun withheld _ => withheld, fun withheld => withheld tabled⟩
      · exact absurd (fresh.symm.trans reuses) (by decide)
    · rw [resolveWith_pool_of_not_tabled tabled, touched_of_same here configured same, here,
        Option.some_inj, setLeases_eq_self]
      exact ⟨fun kept => ⟨kept, fun complete => absurd complete tabled⟩, And.left⟩
  · have unused : ∀ p dp, ro.existingPool = some p → cfg.dynamicPool = some dp → p.pfx ≠ dp.pfx :=
      fun p dp here configured same => reuses (reuses_iff.mpr ⟨p, dp, here, configured, same⟩)
    refine iff_of_true ?_ ⟨fun p dp here configured same => absurd same (unused p dp here configured),
      fun p dp here configured same => absurd same (unused p dp here configured)⟩
    by_cases tabled : Tabled listing ro cfg
    · obtain ⟨f, b, s, passed, built⟩ := tabled_iff.mp tabled
      rw [resolveWith_pool_of_build passed built, if_neg reuses]
    · rw [resolveWith_pool_of_not_tabled tabled, ResolveOptions.touched]
      split
      · rw [if_neg reuses]
      · rfl

end Clatto.Config

namespace Clatto.Daemon

open Netip Addrmap Netconf Config

variable {d d' : Daemon}

/-- Two daemons that differ at most in the status that they report. -/
structure Alike (d d' : Daemon) : Prop where
  sourceAddr : d'.sourceAddr = d.sourceAddr
  cur : d'.cur = d.cur
  engine : d'.engine = d.engine
  applied : d'.applied = d.applied
  started : d'.started = d.started
  level : d'.level = d.level
  packetKinds : d'.packetKinds = d.packetKinds

theorem alike_iff : Alike d d' ↔ d' = { d with status := d'.status } := by
  constructor
  · intro alike
    obtain ⟨sourceAddr, cur, engine, applied, started, level, packetKinds⟩ := alike
    cases d'
    cases d
    simp_all
  · intro same
    rw [same]
    exact ⟨rfl, rfl, rfl, rfl, rfl, rfl, rfl⟩

section

variable {ω : Type} (outside : Outside ω)

theorem handle_status (d : Daemon) (status : Status) (event : Event) (x : ω) :
    handle outside event ({ d with status }, x) =
      { handle outside event (d, x) with
        world := ({ (handle outside event (d, x)).world.1 with status },
          (handle outside event (d, x)).world.2) } := by
  cases event with
  | tick o => rfl
  | packet raw =>
    obtain ⟨sourceAddr, cur, engine, applied, started, level, packetKinds, before⟩ := d
    rcases engine with _ | ⟨translator, table⟩
    · rfl
    · cases translator <;> rfl

theorem serve_status (events : List Event) (d : Daemon) (status : Status) (x : ω) :
    serve outside events ({ d with status }, x) =
      { serve outside events (d, x) with
        world := ({ (serve outside events (d, x)).world.1 with status },
          (serve outside events (d, x)).world.2) } := by
  induction events generalizing d x with
  | nil => rfl
  | cons event events ih =>
    simp only [serve, Effect.bind_run, handle_status]
    rcases handle outside event (d, x) with ⟨result, acts, d', x'⟩
    cases result with
    | error fault => rfl
    | ok u =>
      dsimp only
      rw [ih]

end

/-- Nothing has happened to a daemon but that its status has changed, and nothing that happens
later will be different. -/
structure Unaffected (d d' : Daemon) : Prop extends Alike d d' where
  later : ∀ {ω : Type} (outside : Outside ω) (events : List Event) (x : ω),
    (serve outside events (d', x)).result = (serve outside events (d, x)).result ∧
    (serve outside events (d', x)).acts = (serve outside events (d, x)).acts ∧
    Alike (serve outside events (d, x)).world.1 (serve outside events (d', x)).world.1 ∧
    (serve outside events (d', x)).world.2 = (serve outside events (d, x)).world.2

theorem Alike.unaffected (alike : Alike d d') : Unaffected d d' where
  toAlike := alike
  later outside events x := by
    rw [alike_iff.mp alike, serve_status]
    exact ⟨rfl, rfl, alike_iff.mpr rfl, rfl⟩

variable {o : Occasion} {cfg : Config} {source : String} {w : World Kernel}

/-- A configuration that is rejected has no effect, provided that it asks nothing new of the
pool. -/
theorem apply_rejected_iff {reason : String}
    (rejected : (d.apply o cfg source w).1 = .error (.invalid reason)) :
    (Unaffected d (d.apply o cfg source w).2.1 ∧ (d.apply o cfg source w).2.2 = w) ↔
      Harmless o.listing d.resolveOptions cfg := by
  rw [apply_invalid rejected, ← resolveWith_pool_eq_iff]
  constructor
  · rintro ⟨unaffected, -⟩
    exact congrArg Resolved.pool unaffected.cur
  · intro kept
    refine ⟨Alike.unaffected ?_, rfl⟩
    rw [kept]
    exact ⟨rfl, rfl, rfl, rfl, rfl, rfl, rfl⟩

/-- A prefix and a pool of 254 addresses. -/
def poolConfig : Config where
  pfx := .of (.v6 (0x20010db80064#128 <<< 80) "") 96
  ipv4Address := .v4 0xc0000201#32
  dynamicPool := some { pfx := .of (.v4 0x0a000000#32) 24 }

def launched (r : Resolved) : Daemon :=
  (Daemon.new r nowhere .plain).running (r.netconfOptions "clat0")

theorem exists_launched : ∃ f b s r p,
    Resolves .standard poolConfig { sourceAddr := some nowhere } f b s r ∧
    (resolveWith .standard poolConfig { sourceAddr := some nowhere }).1 = .ok r ∧
    newPool (.of (.v4 0x0a000000#32) 24) {} = .ok p ∧ b.pool = some p ∧
    (launched r).cur = r ∧
    r.pool = some (p.reserve fun a => !decide (poolConfig.Spares4 p.pfx a)) := by
  obtain ⟨f, b, s, warnings, r, resolves, resolved, found, -⟩ := exists_resolves_of_clean .standard
    { sourceAddr := some nowhere } poolConfig (by decide +kernel) (by decide +kernel)
    (show parseLevel "" = .ok .info by decide +kernel)
    (show parseFormat "" = .ok true by decide +kernel) (show List.mapM parseKind [] = .ok [] from rfl)
  obtain ⟨b₁, b₂, b₃, b₄, e⟩ := examine_passes.mp resolves.examined
  obtain ⟨p, set, -, ⟨reuses, -⟩ | ⟨-, made⟩⟩ := e.pool_cases rfl
  · exact absurd reuses (by decide)
  · have pool : r.pool = s.pool := by rw [found, Findings.resolved]
    exact ⟨f, b, s, r, p, resolves, resolved, made, set, r.loadPoolState_plain,
      pool.trans (reserved_of_build resolves.examined resolves.built set)⟩

/-- A configuration with an interface that cannot be. -/
def tinyConfig (minLease : Duration) : Config :=
  { poolConfig with
    interface := { mtu := 100 }
    dynamicPool := some { pfx := .of (.v4 0x0a000000#32) 24, minLease } }

theorem tinyConfig_unusable (minLease : Duration) :
    ¬ UsableInterface (tinyConfig minLease).filled := by
  intro usable
  have wide : (1280 : Int) ≤ 100 := usable.mtu.1
  exact absurd wide (by decide)

theorem not_tabled_tinyConfig {listing : Listing} {ro : ResolveOptions} (minLease : Duration) :
    ¬ Tabled listing ro (tinyConfig minLease) := by
  intro tabled
  obtain ⟨f, b, s, passed, -⟩ := tabled_iff.mp tabled
  obtain ⟨b₁, b₂, b₃, b₄, e⟩ := examine_passes.mp passed
  exact tinyConfig_unusable minLease e.usable

theorem rejects_tinyConfig (d : Daemon) (minLease : Duration) (w : World Kernel) :
    ∃ reason, (d.apply .plain (tinyConfig minLease) "api" w).1 = .error (.invalid reason) := by
  cases checked : (d.validate .standard (tinyConfig minLease)).1 with
  | error err =>
    obtain ⟨reason, rfl⟩ := validate_error checked
    rw [apply_of_error (o := .plain) checked]
    exact ⟨reason, rfl⟩
  | ok r =>
    obtain ⟨f, b, s, resolves⟩ := resolves_of_ok (validate_ok.mp checked).1
    obtain ⟨b₁, b₂, b₃, b₄, e⟩ := examine_passes.mp resolves.examined
    exact absurd e.usable (tinyConfig_unusable minLease)

/-- It has no effect if it leaves the leases alone. -/
theorem apply_rejected_tiny : ∃ r,
    (resolveWith .standard poolConfig { sourceAddr := some nowhere }).1 = .ok r ∧
    ∃ reason,
      ((launched r).apply .plain (tinyConfig 0) "api" bareWorld).1 = .error (.invalid reason) ∧
      Unaffected (launched r) ((launched r).apply .plain (tinyConfig 0) "api" bareWorld).2.1 := by
  obtain ⟨f, b, s, r, p, -, resolved, made, -, cur, pool⟩ := exists_launched
  obtain ⟨reason, rejected⟩ := rejects_tinyConfig (launched r) 0 bareWorld
  refine ⟨r, resolved, reason, rejected, ((apply_rejected_iff rejected).mpr ⟨?_, ?_⟩).1⟩
  · intro q dp here configured same
    obtain rfl := Option.some.inj configured
    obtain rfl := Option.some.inj (((congrArg Resolved.pool cur).trans pool).symm.trans here)
    obtain ⟨minLease, maxLease⟩ := Pool.newPool_leases made
    exact ⟨minLease.symm, maxLease.symm⟩
  · intro _ _ _ _ _ tabled
    exact absurd tabled (not_tabled_tinyConfig 0)

/-- A minimal lease of one second stays, though the configuration is rejected. -/
theorem apply_rejected_changes : ∃ r,
    (resolveWith .standard poolConfig { sourceAddr := some nowhere }).1 = .ok r ∧
    ∃ reason,
      ((launched r).apply .plain (tinyConfig 1000000000) "api" bareWorld).1 =
        .error (.invalid reason) ∧
      (launched r).cur.pool.map Pool.minLease = some defaultMinLease ∧
      ((launched r).apply .plain (tinyConfig 1000000000) "api" bareWorld).2.1.cur.pool.map
        Pool.minLease = some 1000000000 := by
  obtain ⟨f, b, s, r, p, -, resolved, made, -, cur, pool⟩ := exists_launched
  obtain ⟨reason, rejected⟩ := rejects_tinyConfig (launched r) 1000000000 bareWorld
  refine ⟨r, resolved, reason, rejected, ?_, ?_⟩
  · rw [cur, pool]
    exact congrArg some (Pool.newPool_leases made).1
  · rw [apply_invalid rejected]
    show (resolveWith .standard (tinyConfig 1000000000) (launched r).resolveOptions).2.map _ = _
    have here : (launched r).resolveOptions.existingPool = _ :=
      (congrArg Resolved.pool cur).trans pool
    have configured : (tinyConfig 1000000000).dynamicPool = some
        { pfx := .of (.v4 0x0a000000#32) 24, minLease := 1000000000 } := rfl
    rw [resolveWith_pool_of_not_tabled (not_tabled_tinyConfig 1000000000),
      touched_of_same here configured (Pool.newPool_pfx made : p.pfx = _)]
    rfl

end Clatto.Daemon
