import Clatto.Addrmap.BuildSpec
import Clatto.Config.Accepted

/-! The entries that a configuration comes to, and with them the addresses to which it lays
claim. -/

namespace Clatto.Config

open Netip Netutil Addrmap Collect

variable {ro : ResolveOptions} {cfg : Config} {b b' : Builder} {u : Unit}

/-- The entry of a map, if both its sides can be read. -/
def Map.entry (m : Map) : Option Entry :=
  match parseAddrOrPrefix m.ipv4, parseAddrOrPrefix m.ipv6 with
  | .ok p4, .ok p6 => some (staticEntry p4 p6)
  | _, _ => none

theorem resolveMap_entries {i : Nat} {m : Map} (passed : (resolveMap i m).Passes b u b') :
    ∃ e, m.entry = some e ∧ b'.entries = b.entries ++ [e] := by
  rw [resolveMap] at passed
  split at passed
  · exact absurd passed passes_fail
  rename_i p4 four
  split at passed
  · exact absurd passed passes_fail
  rename_i p6 six
  obtain ⟨_, _, remarked, added⟩ := passes_bind.mp passed
  obtain rfl := when_remark_passes.mp remarked
  exact ⟨staticEntry p4 p6, by simp [Map.entry, four, six],
    Builder.addStatic_entries (extend_passes.mp added)⟩

theorem resolveMaps_entries {i : Nat} {maps : List Map}
    (passed : (resolveMaps i maps).Passes b u b') :
    b'.entries = b.entries ++ maps.filterMap Map.entry := by
  induction maps generalizing i b with
  | nil => simp [(passes_pure.mp passed).2]
  | cons m maps ih =>
    obtain ⟨_, b₁, first, rest⟩ := passes_bind.mp passed
    obtain ⟨e, read, added⟩ := resolveMap_entries first
    rw [ih rest, added, List.filterMap_cons_some read, List.append_assoc, List.singleton_append]

/-- The entry for an address that is shared. -/
def Sharing.entries (s : Sharing) : List Entry :=
  s.clat.toList.map fun c => staticEntry (.of c.ipv4Address 32) (.of s.shared6 128)

theorem resolveCLAT_entries {sharing : Sharing} (passed : (resolveCLAT ro cfg).Passes b sharing b') :
    b'.entries = b.entries ++ sharing.entries := by
  cases configured : cfg.clat with
  | none =>
    obtain ⟨rfl, rfl⟩ := (resolveCLAT_none configured).mp passed
    exact (List.append_nil _).symm
  | some c =>
    obtain ⟨filters, a, shares, rfl⟩ := (resolveCLAT_some configured).mp passed
    exact Builder.addStatic_entries shares.static

def poolEntries (cfg : Config) : List Entry :=
  cfg.dynamicPool.toList.map fun dp => poolEntry dp.pfx

theorem resolvePool_entries (passed : (resolvePool ro cfg).Passes b u b') :
    b'.entries = b.entries ++ cfg.poolEntries := by
  rw [resolvePool] at passed
  cases configured : cfg.dynamicPool with
  | none =>
    rw [configured] at passed
    obtain ⟨-, rfl⟩ := passes_pure.mp passed
    simp [poolEntries, configured]
  | some dp =>
    rw [configured] at passed
    obtain ⟨-, -, pool, found, set⟩ := addPool_passes.mp passed
    rw [(Builder.setPool_entries set).1, ResolveOptions.pool_pfx configured found]
    simp [poolEntries, configured]

/-- The entry for a prefix that is configured. -/
def prefixEntries (cfg : Config) : List Entry :=
  if cfg.pfx.isValid then [prefixEntry cfg.pfx] else []

theorem addPrefix_entries
    (passed : (when cfg.pfx.isValid (extend "prefix" (·.addPrefix cfg.pfx))).Passes b u b') :
    b'.entries = b.entries ++ cfg.prefixEntries := by
  by_cases valid : cfg.pfx.isValid = true
  · rw [prefixEntries, if_pos valid]
    exact Builder.addPrefix_entries (extend_passes.mp ((passes_when.mp passed).1 valid))
  · rw [prefixEntries, if_neg valid, List.append_nil, (passes_when.mp passed).2 valid]

def Findings.entries (f : Findings) : List Entry :=
  f.config.prefixEntries ++ f.sharing.entries ++ f.config.maps.filterMap Map.entry ++
    [Builder.own f.ipv4Address f.own.local6 f.own.v6Derived] ++ f.config.poolEntries

variable {f : Findings} {b₁ b₂ b₃ b₄ : Builder} {strict : Bool}

/-- What an effective configuration takes from the one that was given. -/
structure Given (cfg cfg' : Config) : Prop where
  interface : cfg'.interface = cfg.filled.interface
  offlinkMTU : cfg'.offlinkMTU = cfg.filled.offlinkMTU
  pfx : cfg'.pfx = cfg.pfx
  wkpfStrict : cfg'.wkpfStrict = cfg.wkpfStrict
  maps : cfg'.maps = cfg.maps
  dynamicPool : cfg'.dynamicPool = cfg.dynamicPool
  log : cfg'.log = cfg.log
  http : cfg'.http = cfg.http

theorem Examined.given (e : Examined ro cfg f b b₁ b₂ b₃ b₄ b') : Given cfg f.config := by
  rw [e.config, withTranslator_eq]
  exact ⟨rfl, rfl, rfl, rfl, rfl, rfl, rfl, rfl⟩

theorem Given.prefixEntries {cfg' : Config} (given : Given cfg cfg') :
    cfg'.prefixEntries = cfg.prefixEntries := by
  rw [Config.prefixEntries, Config.prefixEntries, given.pfx]

theorem Given.poolEntries {cfg' : Config} (given : Given cfg cfg') :
    cfg'.poolEntries = cfg.poolEntries := by
  rw [Config.poolEntries, Config.poolEntries, given.dynamicPool]

theorem Examined.entries (e : Examined ro cfg f b b₁ b₂ b₃ b₄ b') :
    b'.entries = b.entries ++ f.entries := by
  have maps := resolveMaps_entries e.maps
  have pool := resolvePool_entries e.pool
  rw [withTranslator_eq] at maps pool
  rw [Findings.entries, e.given.prefixEntries, e.given.maps, e.given.poolEntries, e.ipv4Address, pool,
    Builder.addSelf_entries e.self, maps, resolveCLAT_entries e.sharing, addPrefix_entries e.pfx]
  simp only [List.append_assoc]
  rfl

/-- The table of a configuration has the entries that were found out. -/
theorem Resolves.entries {listing : Listing} {s : Mapper} {r : Resolved}
    (resolves : Resolves listing cfg ro f b' s r) : b'.entries = f.entries := by
  obtain ⟨b₁, b₂, b₃, b₄, e⟩ := examine_passes.mp resolves.examined
  exact e.entries

theorem Map.static_of_entry {m : Map} {e : Entry} (read : m.entry = some e) :
    ∃ v4 v6, e = staticEntry v4 v6 := by
  rw [Map.entry] at read
  split at read
  · cases read
    exact ⟨_, _, rfl⟩
  · cases read

theorem Findings.mem_entries_cases {e : Entry} (member : e ∈ f.entries) :
    e ∈ f.config.prefixEntries ∨ (∃ v4 v6, e = staticEntry v4 v6) ∨
      e = Builder.own f.ipv4Address f.own.local6 f.own.v6Derived ∨ e ∈ f.config.poolEntries := by
  simp only [entries, List.mem_append, List.mem_singleton] at member
  rcases member with (((pfx | shared) | map) | own) | pool
  · exact .inl pfx
  · obtain ⟨c, -, rfl⟩ := List.mem_map.mp shared
    exact .inr (.inl ⟨_, _, rfl⟩)
  · obtain ⟨m, -, read⟩ := List.mem_filterMap.mp map
    exact .inr (.inl (Map.static_of_entry read))
  · exact .inr (.inr (.inl own))
  · exact .inr (.inr (.inr pool))

theorem mem_prefixEntries {e : Entry} (member : e ∈ cfg.prefixEntries) : e = prefixEntry cfg.pfx := by
  rw [prefixEntries] at member
  split at member
  · exact List.mem_singleton.mp member
  · cases member

/-- The IPv4 networks that belong to somebody else than the pool. -/
def claims4 (cfg : Config) : List Prefix :=
  (cfg.clat.toList.map fun c => .of c.filled.ipv4Address 32) ++
    (cfg.maps.filterMap Map.entry).map Entry.v4 ++ [.of cfg.withTranslator.ipv4Address 32]

/-- The IPv6 networks that belong to somebody else than a host of the pool. -/
def claims6 (cfg : Config) (source : Option SourceAddr) : List Prefix :=
  (if cfg.pfx.isValid then [cfg.pfx] else []) ++
    (cfg.clat.toList.filterMap fun c => (c.hostAddress source cfg.pfx).map (.of · 128)) ++
    (cfg.maps.filterMap Map.entry).map Entry.v6 ++
    if cfg.ipv6Address.isValid ∧
        cfg.ipv6Address ≠ derivedAddress cfg.pfx cfg.withTranslator.ipv4Address then
      [.of cfg.ipv6Address 128]
    else []

/-- An address of a pool that is left to it. -/
def Spares4 (cfg : Config) (pool : Prefix) (a : Addr) : Prop :=
  pool.contains a = true ∧ ∀ c ∈ cfg.claims4, c.contains a = true → c.bits ≤ pool.bits

instance (cfg : Config) (pool : Prefix) (a : Addr) : Decidable (cfg.Spares4 pool a) :=
  inferInstanceAs (Decidable (_ ∧ ∀ c ∈ cfg.claims4, _ → _))

/-- An address of a host that may get an address from a pool. -/
def Spares6 (cfg : Config) (source : Option SourceAddr) (a : Addr) : Prop :=
  ∀ c ∈ cfg.claims6 source, c.contains a = false

instance (cfg : Config) (source : Option SourceAddr) (a : Addr) :
    Decidable (cfg.Spares6 source a) :=
  inferInstanceAs (Decidable (∀ c ∈ cfg.claims6 source, _))

theorem resolveCLAT_sides {sharing : Sharing} (passed : (resolveCLAT ro cfg).Passes b sharing b') :
    sharing.entries.map Entry.v4 = (cfg.clat.toList.map fun c => .of c.filled.ipv4Address 32) ∧
      sharing.entries.map Entry.v6 = cfg.clat.toList.filterMap fun c =>
        (c.hostAddress ro.sourceAddr cfg.pfx).map (.of · 128) := by
  cases configured : cfg.clat with
  | none =>
    obtain ⟨rfl, rfl⟩ := (resolveCLAT_none configured).mp passed
    exact ⟨rfl, rfl⟩
  | some c =>
    obtain ⟨filters, a, shares, rfl⟩ := (resolveCLAT_some configured).mp passed
    obtain ⟨-, -, -, found⟩ := sharedAddress_passes shares.address
    have same : c.hostAddress ro.sourceAddr cfg.pfx = some a := found
    refine ⟨rfl, ?_⟩
    simp [same, Sharing.entries, CLAT.sharing, staticEntry]

theorem Examined.sides4 (e : Examined ro cfg f b b₁ b₂ b₃ b₄ b') :
    f.entries.map Entry.v4 =
      cfg.prefixEntries.map Entry.v4 ++ cfg.claims4 ++ cfg.poolEntries.map Entry.v4 := by
  have shared := (resolveCLAT_sides e.sharing).1
  rw [withTranslator_eq] at shared
  rw [Findings.entries, e.given.prefixEntries, e.given.maps, e.given.poolEntries, claims4]
  simp only [List.map_append, List.append_assoc, List.map_cons, List.map_nil, Builder.own_v4,
    e.ipv4Address, shared]

/-- The translator's own address is claimed unless it is derived from the prefix. -/
theorem Examined.own6 (e : Examined ro cfg f b b₁ b₂ b₃ b₄ b') :
    ([Builder.own f.ipv4Address f.own.local6 f.own.v6Derived].filter Entry.onSix).map Entry.v6 =
      if cfg.ipv6Address.isValid ∧
          cfg.ipv6Address ≠ derivedAddress cfg.pfx cfg.withTranslator.ipv4Address then
        [.of cfg.ipv6Address 128]
      else [] := by
  obtain ⟨bits, four, -⟩ := e.four
  have origin := (resolveIPv6Address_origin four e.own).1
  have ipv6 : cfg.withTranslator.ipv6Address = cfg.ipv6Address := by rw [withTranslator_eq]
  have pfx : cfg.withTranslator.pfx = cfg.pfx := by rw [withTranslator_eq]
  generalize f.own = own at origin ⊢
  rw [four]
  cases origin with
  | written valid same =>
    rw [ipv6, pfx] at same
    rw [if_neg fun claimed => claimed.2 same]
    rfl
  | given valid other =>
    rw [ipv6] at valid
    rw [ipv6, pfx] at other
    rw [if_pos ⟨valid, other⟩, ipv6]
    rfl
  | derived omitted =>
    rw [ipv6] at omitted
    rw [if_neg fun claimed => omitted claimed.1]
    rfl

theorem Map.onSix_of_entry {m : Map} {e : Entry} (read : m.entry = some e) : e.onSix = true := by
  obtain ⟨v4, v6, rfl⟩ := Map.static_of_entry read
  rfl

theorem Examined.sides6 (e : Examined ro cfg f b b₁ b₂ b₃ b₄ b') :
    (f.entries.filter Entry.onSix).map Entry.v6 = cfg.claims6 ro.sourceAddr := by
  have pfx : (f.config.prefixEntries.filter Entry.onSix).map Entry.v6 =
      if cfg.pfx.isValid then [cfg.pfx] else [] := by
    rw [e.given.prefixEntries, prefixEntries]
    split <;> rfl
  have maps : (f.config.maps.filterMap Map.entry).filter Entry.onSix =
      cfg.maps.filterMap Map.entry := by
    rw [e.given.maps, List.filter_eq_self]
    intro o member
    obtain ⟨m, -, read⟩ := List.mem_filterMap.mp member
    exact Map.onSix_of_entry read
  have shared : (f.sharing.entries.filter Entry.onSix).map Entry.v6 =
      cfg.clat.toList.filterMap fun c =>
        (c.hostAddress ro.sourceAddr cfg.pfx).map (.of · 128) := by
    have sides := (resolveCLAT_sides e.sharing).2
    rw [withTranslator_eq] at sides
    rw [← sides, List.filter_eq_self.mpr]
    intro o member
    obtain ⟨c, -, rfl⟩ := List.mem_map.mp member
    rfl
  have pool : f.config.poolEntries.filter Entry.onSix = [] := by
    rw [List.filter_eq_nil_iff]
    intro o member
    obtain ⟨dp, -, rfl⟩ := List.mem_map.mp member
    simp [poolEntry, Entry.onSix]
  rw [Findings.entries, claims6]
  simp only [List.filter_append, List.map_append, pfx, shared, maps, pool, e.own6, List.append_nil]

/-- An entry is for the prefix or for the pool, or its IPv4 side is claimed. -/
theorem Examined.side4_cases (e : Examined ro cfg f (.new strict) b₁ b₂ b₃ b₄ b') {p : Pool}
    (pool : b'.pool = Option.some p) {o : Entry} (member : o ∈ b'.entries) :
    o.v4 = everything4 ∨ o.v4 ∈ cfg.claims4 ∨ o.v4 = p.pfx := by
  have entries : b'.entries = f.entries := e.entries
  have listed : o.v4 ∈ f.entries.map Entry.v4 := List.mem_map_of_mem (entries ▸ member)
  rw [e.sides4, List.mem_append, List.mem_append] at listed
  rcases listed with (pfx | claimed) | pooled
  · obtain ⟨q, found, same⟩ := List.mem_map.mp pfx
    rw [mem_prefixEntries found] at same
    exact .inl same.symm
  · exact .inr (.inl claimed)
  · obtain ⟨q, found, same⟩ := List.mem_map.mp pooled
    obtain ⟨dp, -, rfl⟩ := List.mem_map.mp found
    have there : poolEntry dp.pfx ∈ b'.entries := by
      rw [entries, Findings.entries, e.given.poolEntries]
      exact List.mem_append_right _ found
    obtain ⟨q, here, only⟩ := b'.pooled _ there rfl
    rw [pool] at here
    cases here
    exact .inr (.inr (same.symm.trans (congrArg Entry.v4 only)))

theorem Examined.lookup4_pool (e : Examined ro cfg f (.new strict) b₁ b₂ b₃ b₄ b') {s : Mapper}
    (built : b'.build = .ok s) {p : Pool} (pool : b'.pool = Option.some p) (a : Addr) :
    s.table.lookup4 a = s.table.poolEntry ↔ cfg.Spares4 p.pfx a := by
  have built' := Table.built_of_build built
  have entries : b'.entries = f.entries := e.entries
  rw [built'.pool, pool, Option.map_some, built'.lookup4_eq_some, Spares4]
  constructor
  · rintro ⟨-, inside, longest⟩
    refine ⟨inside, ?_⟩
    intro c claimed inside
    have listed : c ∈ f.entries.map Entry.v4 := by
      rw [e.sides4]
      exact List.mem_append_left _ (List.mem_append_right _ claimed)
    obtain ⟨o, member, rfl⟩ := List.mem_map.mp listed
    exact longest o (entries ▸ member) inside
  · rintro ⟨inside, longest⟩
    refine ⟨b'.attached p pool, inside, ?_⟩
    intro o member inside
    rcases e.side4_cases pool member with all | claimed | same
    · rw [all, show (poolEntry p.pfx).v4.bits = p.bits from Prefix.bits_of_len p.len]
      exact Int.natCast_nonneg _
    · exact longest o.v4 claimed inside
    · rw [same]
      exact le_refl _

theorem Examined.lookup6_none (e : Examined ro cfg f (.new strict) b₁ b₂ b₃ b₄ b') {s : Mapper}
    (built : b'.build = .ok s) (a : Addr) :
    s.table.lookup6 a = none ↔ cfg.Spares6 ro.sourceAddr a := by
  have entries : b'.entries = f.entries := e.entries
  rw [(Table.built_of_build built).finds.six_none, Spares6, ← e.sides6, entries]
  simp only [List.forall_mem_map, List.mem_filter, and_imp, Bool.not_eq_true]

/-- The pool of a configuration is the one that is there, with new leases, or a new one. -/
theorem Examined.pool_cases (e : Examined ro cfg f b b₁ b₂ b₃ b₄ b') {dp : DynamicPool}
    (configured : cfg.dynamicPool = Option.some dp) :
    ∃ pool, b'.pool = Option.some pool ∧ pool.pfx = dp.pfx ∧
      ((ro.reuses cfg = true ∧ ∃ p, ro.existingPool = Option.some p ∧
          pool = p.setLeases dp.minLease dp.maxLease) ∨
        (ro.reuses cfg = false ∧
          newPool dp.pfx { minLease := dp.minLease, maxLease := dp.maxLease } = .ok pool)) := by
  have configured' : cfg.withTranslator.dynamicPool = Option.some dp := by
    rw [withTranslator_eq]
    exact configured
  have reuses : ro.reuses cfg.withTranslator = ro.reuses cfg := by
    rw [withTranslator_eq]
    rfl
  have passed := e.pool
  rw [resolvePool, configured'] at passed
  obtain ⟨-, -, pool, found, set⟩ := addPool_passes.mp passed
  refine ⟨pool, (Builder.setPool_entries set).2, ResolveOptions.pool_pfx configured' found, ?_⟩
  rw [← reuses]
  exact (ResolveOptions.pool_eq_ok configured').mp found

/-- Without a pool in the configuration there is none in the table. -/
theorem Resolves.unpooled {listing : Listing} {s : Mapper} {r : Resolved}
    (resolves : Resolves listing cfg ro f b' s r) (none : cfg.dynamicPool = none) :
    s.pool = Option.none := by
  obtain ⟨b₁, b₂, b₃, b₄, e⟩ := examine_passes.mp resolves.examined
  have empty : f.config.poolEntries = [] := by
    rw [e.given.poolEntries, poolEntries, none]
    rfl
  obtain ⟨-, -, -, -, -, -, set⟩ := Builder.build_eq resolves.built
  cases attached : b'.pool with
  | none =>
    rw [set, attached]
    rfl
  | some p =>
    have member := b'.attached p attached
    rw [resolves.entries] at member
    rcases Findings.mem_entries_cases member with pfx | ⟨v4, v6, static⟩ | own | pool
    · cases mem_prefixEntries pfx
    · cases static
    · rw [Builder.own] at own
      split at own <;> cases own
    · rw [empty] at pool
      cases pool

/-- A configuration that is accepted is accepted whatever pool there is. -/
theorem Resolves.with_pool {listing : Listing} {s : Mapper} {r : Resolved}
    (resolves : Resolves listing cfg ro f b' s r) (existing : Option Pool) :
    ∃ r', (resolveWith listing cfg { ro with existingPool := existing }).1 = .ok r' ∧
      r'.config = r.config ∧ r'.httpListen = r.httpListen ∧ r'.logJSON = r.logJSON := by
  obtain ⟨b₁, b₂, b₃, b₄, e⟩ := examine_passes.mp resolves.examined
  obtain ⟨b'', pool, same⟩ := resolvePool_again { ro with existingPool := existing } rfl e.pool
  have again : Examined { ro with existingPool := existing } cfg f _ b₁ b₂ b₃ b₄ b'' :=
    ⟨e.usable, e.udpChecksum, e.pfx, e.sharing, e.maps, e.some, e.four, e.own, e.self, pool,
      e.ipv4Address, e.config⟩
  obtain ⟨s', built, -⟩ := same.build resolves.built
  obtain ⟨_, level, json, kinds, parsed, formatted, kept, rfl⟩ := resolves.read
  obtain ⟨warnings, resolved⟩ := exists_resolves listing
    (examine_passes.mpr ⟨_, _, _, _, again⟩) built parsed formatted kept
  exact ⟨_, resolved, rfl, rfl, rfl⟩

/-- A configuration whose checks pass one after another is accepted. -/
theorem exists_resolves_of_clean (listing : Listing) (ro : ResolveOptions) (cfg : Config)
    (clean : ((examine ro cfg).run (.new (boolOr cfg.wkpfStrict true)) []).errs = [])
    (passable : Builder.Passable
      ((examine ro cfg).run (.new (boolOr cfg.wkpfStrict true)) []).state.entries)
    {level : Level} {json : Bool} {kinds : List (List Xlate.Kind)}
    (parsed : parseLevel cfg.log.level = .ok level)
    (formatted : parseFormat cfg.log.format = .ok json)
    (kept : cfg.log.packets.mapM parseKind = .ok kinds) :
    ∃ f b s warnings r, Resolves listing cfg ro f b s r ∧ (resolveWith listing cfg ro).1 = .ok r ∧
      r = f.resolved listing s (ro.reuses cfg) warnings level json kinds.flatten ∧
      b.entries = ((examine ro cfg).run (.new (boolOr cfg.wkpfStrict true)) []).state.entries := by
  have examined := passes_of_errs clean
  generalize (examine ro cfg).run (.new (boolOr cfg.wkpfStrict true)) [] = reached
    at examined passable ⊢
  obtain ⟨s, built⟩ := (Builder.build_iff_compatible _).mpr ((Builder.compatible_iff _).mpr passable)
  obtain ⟨b₁, b₂, b₃, b₄, e⟩ := examine_passes.mp examined
  rw [← e.given.log] at parsed formatted kept
  obtain ⟨warnings, resolved⟩ := exists_resolves listing examined built parsed formatted kept
  exact ⟨reached.value, reached.state, s, warnings, _,
    ⟨examined, built, warnings, level, json, kinds, parsed, formatted, kept, rfl⟩, resolved, rfl, rfl⟩

end Clatto.Config
