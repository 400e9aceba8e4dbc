import Clatto.Config.Claims

/-! The effective configuration resolves to itself. -/

namespace Clatto.Config

open Netip Netutil Addrmap Collect
open Xlate (UDPChecksumMode)

variable {ro : ResolveOptions} {cfg cfg' : Config} {b b' : Builder}

theorem Interface.filled_filled (i : Interface) : i.filled.filled = i.filled := by
  have name : (if i.filled.name = "" then defaultInterface else i.filled.name) = i.filled.name := by
    refine if_neg ?_
    simp only [Interface.filled]
    split
    · decide
    · assumption
  have mtu : (if i.filled.mtu = 0 then defaultMTU else i.filled.mtu) = i.filled.mtu := by
    refine if_neg ?_
    simp only [Interface.filled]
    split
    · decide
    · assumption
  rw [Interface.filled, name, mtu]

/-- A configuration that was filled in, whatever became of its other settings. -/
theorem filled_of_filled (interface : cfg'.interface = cfg.filled.interface)
    (offlink : cfg'.offlinkMTU = cfg.filled.offlinkMTU) : cfg'.filled = cfg' := by
  have same : cfg'.interface.filled = cfg'.interface := by
    rw [interface]
    exact cfg.interface.filled_filled
  have kept : (if cfg'.offlinkMTU = 0 then defaultOfflinkMTU else cfg'.offlinkMTU) =
      cfg'.offlinkMTU := by
    refine if_neg ?_
    rw [offlink]
    simp only [filled]
    split
    · decide
    · assumption
  rw [filled, same, kept]

theorem withTranslator_of_valid (valid : cfg.ipv4Address.isValid = true) :
    cfg.withTranslator = cfg :=
  if_neg fun missing => missing.2 valid

theorem parseUDPChecksum_text (mode : UDPChecksumMode) :
    parseUDPChecksum (udpChecksumText mode) = .ok mode := by
  cases mode <;> decide +kernel

theorem CLAT.filled_of_valid {c : CLAT} (valid : c.ipv4Address.isValid = true)
    (table : c.table ≠ 0) : c.filled = c := by
  rw [CLAT.filled, if_pos valid, if_neg table]

theorem resolveCLAT_again {sharing : Sharing} (ro' : ResolveOptions)
    (passed : (resolveCLAT ro cfg).Passes b sharing b') (clat : cfg'.clat = sharing.clat)
    (pfx : cfg'.pfx = cfg.pfx) (ipv4 : cfg'.ipv4Address = cfg.ipv4Address) :
    (resolveCLAT ro' cfg').Passes b sharing b' := by
  cases configured : cfg.clat with
  | none =>
    obtain ⟨rfl, rfl⟩ := (resolveCLAT_none configured).mp passed
    exact (resolveCLAT_none clat).mpr ⟨rfl, rfl⟩
  | some c =>
    obtain ⟨filters, a, shares, rfl⟩ := (resolveCLAT_some configured).mp passed
    have filled : CLAT.filled { c.filled with ipv6Address := a.text } =
        { c.filled with ipv6Address := a.text } := by
      refine CLAT.filled_of_valid ?_ ?_
      · have four : c.filled.ipv4Address.is4 = true := shares.host.1
        show c.filled.ipv4Address.isValid = true
        cases address : c.filled.ipv4Address <;> simp_all [Addr.is4, Addr.isValid]
      · have positive := shares.table.2.2.2.1
        show c.filled.table ≠ 0
        omega
    have shareable := shares.shareable
    refine (resolveCLAT_some clat).mpr ⟨filters, a, ?_, ?_⟩
    · rw [filled]
      refine ⟨by rw [ipv4]; exact shares.host, shares.table, shares.ports, ?_, ?_, shares.static⟩
      · exact sharedAddress_of_text (by rw [pfx]; exact (sharedAddress_passes shares.address).1)
          shareable.six shareable.plain rfl
      · exact ⟨shareable.six, shareable.plain, shareable.usable, by rw [pfx]; exact shareable.outside⟩
    · rw [filled, CLAT.sharing, CLAT.sharing, pfx]

section Examined

variable {f : Findings} {b₁ b₂ b₃ b₄ : Builder}

/-- What was found out is found out again from the effective configuration. -/
theorem Examined.again (e : Examined ro cfg f b b₁ b₂ b₃ b₄ b') (ro' : ResolveOptions) :
    ∃ b'', Examined ro' f.config f b b₁ b₂ b₃ b₄ b'' ∧ SameEntries b' b'' := by
  obtain ⟨bits, four, usable⟩ := e.four
  have interface := e.given.interface
  have offlink := e.given.offlinkMTU
  have ipv4 : f.config.ipv4Address = cfg.withTranslator.ipv4Address := by
    rw [e.config]
    rfl
  have translator : f.config.withTranslator = f.config :=
    withTranslator_of_valid (by rw [ipv4, four]; rfl)
  have pfx : f.config.pfx = cfg.withTranslator.pfx := by
    rw [e.config]
    rfl
  have maps : f.config.maps = cfg.withTranslator.maps := by
    rw [e.config]
    rfl
  have given : cfg.withTranslator.pfx = cfg.pfx := by rw [withTranslator_eq]
  have strict := e.given.wkpfStrict
  have configured : f.config.withTranslator.dynamicPool = cfg.withTranslator.dynamicPool := by
    rw [translator, e.config]
    rfl
  obtain ⟨b'', pool, same⟩ := resolvePool_again ro' configured e.pool
  refine ⟨b'', ⟨?_, ?_, ?_, ?_, ?_, ?_, ?_, ?_, ?_, pool, ?_, ?_⟩, same⟩
  · rw [filled_of_filled interface offlink]
    exact ⟨by rw [interface]; exact e.usable.name, by rw [interface]; exact e.usable.mtu,
      by rw [offlink]; exact e.usable.offlinkMTU⟩
  · rw [e.config]
    exact parseUDPChecksum_text _
  · rw [pfx, given]
    exact e.pfx
  · rw [translator]
    exact resolveCLAT_again ro' e.sharing (by rw [e.config]) pfx ipv4
  · rw [translator, maps]
    exact e.maps
  · rw [translator, pfx, maps]
    exact e.some
  · rw [translator, ipv4]
    exact e.four
  · rw [translator, strict]
    exact resolveIPv6Address_again four e.own pfx ipv4 (by rw [e.config])
  · rw [translator, ipv4]
    exact e.self
  · rw [translator, ipv4]
    exact e.ipv4Address
  · have clat : f.config.clat = f.sharing.clat := by rw [e.config]
    have checksum : f.config.udpChecksum = udpChecksumText f.udpChecksum := by rw [e.config]
    have ipv6 : f.config.ipv6Address = f.own.local6 := by rw [e.config]
    rw [translator, filled_of_filled interface offlink, ← clat, ← checksum, ← ipv6]

end Examined

section Routes

variable {f : Findings} {entries entries' : List Entry} {route : Netconf.Route}

theorem Findings.autoRoutes_plain (member : route ∈ f.autoRoutes entries) :
    route = { pfx := route.pfx } := by
  rw [autoRoutes] at member
  split at member
  · rcases List.mem_append.mp member with routed | routed
    · obtain ⟨e, -, routed⟩ := List.mem_flatMap.mp routed
      rw [entryRoutes] at routed
      split at routed
      all_goals
        repeat' split at routed
        all_goals simp at routed
        all_goals first | rw [routed] | (rcases routed with rfl | rfl <;> rfl)
    · split at routed
      · rw [List.mem_singleton.mp routed]
      · cases routed
  · cases member

/-- The routes are the explicit ones and the automatic ones for other prefixes. -/
theorem Findings.mem_routes :
    route ∈ f.routes entries ↔
      route ∈ firstOfEach Netconf.Route.pfx [] (f.config.interface.routes.map Route.netconf) ∨
      route ∈ f.autoRoutes entries ∧
        route.pfx ∉ (f.config.interface.routes.map Route.netconf).map Netconf.Route.pfx := by
  have plain : ∀ r ∈ f.autoRoutes entries, ∀ r' ∈ f.autoRoutes entries, r.pfx = r'.pfx → r = r' := by
    intro r member r' member' same
    rw [autoRoutes_plain member, autoRoutes_plain member', same]
  rw [routes, firstOfEach.append, List.mem_append, List.append_nil]
  exact or_congr_right (firstOfEach.mem_iff plain)

theorem Findings.mem_routes_congr (same : ∀ e, e ∈ entries' ↔ e ∈ entries) :
    route ∈ f.routes entries' ↔ route ∈ f.routes entries := by
  have auto : route ∈ f.autoRoutes entries' ↔ route ∈ f.autoRoutes entries := by
    rw [autoRoutes, autoRoutes]
    split
    · simp only [List.mem_append, List.mem_flatMap, same]
    · rfl
  rw [mem_routes, mem_routes, auto]

end Routes

/-- Two configurations have the same effect. Entries may be listed in another order, and
routes may be installed in another order. -/
structure SameEffect (listing listing' : Listing) (r r' : Resolved) : Prop where
  xlate : r'.xlate = r.xlate
  table : r'.table = r.table
  entries : ∀ e, e ∈ listing'.entries r'.table ↔ e ∈ listing.entries r.table
  addresses : r'.addresses = r.addresses
  routes4 : ∀ route, route ∈ r'.routes4 ↔ route ∈ r.routes4
  routes6 : ∀ route, route ∈ r'.routes6 ↔ route ∈ r.routes6
  shared : r'.shared = r.shared
  logLevel : r'.logLevel = r.logLevel
  logJSON : r'.logJSON = r.logJSON
  packetKinds : r'.packetKinds = r.packetKinds
  httpListen : r'.httpListen = r.httpListen

/-- The effective configuration is accepted, with or without anybody to find the source
address, and has the same effect. -/
theorem resolve_effective {listing : Listing} {r : Resolved}
    (resolved : (resolveWith listing cfg ro).1 = .ok r) (listing' : Listing)
    (ro' : ResolveOptions) :
    ∃ r', (resolveWith listing' r.config ro').1 = .ok r' ∧ immutableChanges r r' = [] ∧
      r'.config = r.config ∧ SameEffect listing listing' r r' := by
  obtain ⟨f, b, s, examined, built, _, level, json, kinds, parsed, formatted, kept, rfl⟩ :=
    resolves_of_ok resolved
  obtain ⟨b₁, b₂, b₃, b₄, e⟩ := examine_passes.mp examined
  obtain ⟨b', e', same⟩ := e.again ro'
  obtain ⟨s', built', table⟩ := same.build built
  have strict := e.given.wkpfStrict
  have examined' : (examine ro' f.config).Passes (.new (boolOr f.config.wkpfStrict true)) f b' := by
    rw [strict]
    exact examine_passes.mpr ⟨b₁, b₂, b₃, b₄, e'⟩
  obtain ⟨warnings, again⟩ := exists_resolves listing' examined' built' parsed formatted kept
  have entries : ∀ e, e ∈ listing'.entries s'.table ↔ e ∈ listing.entries s.table := by
    intro e
    rw [listing'.mem_entries, listing.mem_entries, table]
  refine ⟨_, again, immutableChanges_eq_nil rfl rfl rfl rfl rfl rfl, rfl, ?_⟩
  refine ⟨rfl, table, entries, rfl, fun route => ?_, fun route => ?_, rfl, rfl, rfl, rfl, rfl⟩
  · simp only [Findings.resolved, List.mem_filter, Findings.mem_routes_congr entries]
  · simp only [Findings.resolved, List.mem_filter, Findings.mem_routes_congr entries]

/-- A CLAT behind 2001:db8:64::/96 that has its address found out. -/
def clatConfig : Config where
  pfx := .of (.v6 (0x20010db80064#128 <<< 80) "") 96
  clat := some {}
  udpChecksum := "Calculate"

def clatSource : SourceAddr where
  ask _ := .ok (.v6 (0x20010db8#128 <<< 96 ||| 5) "")
  answers := by
    rintro _ _ ⟨⟩
    rfl

theorem resolve_effective_clat : ∃ r r',
    (resolveWith .standard clatConfig { sourceAddr := some clatSource }).1 = .ok r ∧
    (resolveWith .standard r.config {}).1 = .ok r' ∧ immutableChanges r r' = [] ∧
    r'.config = r.config ∧ SameEffect .standard .standard r r' := by
  obtain ⟨-, -, -, -, r, -, resolved, -, -⟩ := exists_resolves_of_clean .standard
    { sourceAddr := some clatSource } clatConfig (by decide +kernel) (by decide +kernel)
    (show parseLevel _ = .ok .info by decide +kernel)
    (show parseFormat _ = .ok true by decide +kernel) (show List.mapM parseKind _ = .ok [] from rfl)
  obtain ⟨r', again⟩ := resolve_effective resolved .standard {}
  exact ⟨r, r', resolved, again⟩

end Clatto.Config
