import Clatto.Config.Claims
import Clatto.Config.Fixpoint

/-! The routes of a configuration: what is received through the interface, and nothing that is
sent through it. -/

namespace Clatto.Config

open Netip Netutil Addrmap Collect

variable {ro : ResolveOptions} {cfg : Config} {f : Findings} {e : Entry} {entries : List Entry}
  {route : Netconf.Route} {a : Addr}

theorem resolveCLAT_shared {b b' : Builder} {sharing : Sharing}
    (passed : (resolveCLAT ro cfg).Passes b sharing b') :
    sharing.shared.isSome = cfg.clat.isSome := by
  cases configured : cfg.clat with
  | none =>
    obtain ⟨rfl, -⟩ := (resolveCLAT_none configured).mp passed
    rfl
  | some c =>
    obtain ⟨filters, a, -, rfl⟩ := (resolveCLAT_some configured).mp passed
    rfl

namespace Findings

/-- Packets to an entry are received, unless the host has the address itself. -/
theorem mem_entryRoutes (alone : f.sharing.shared.isSome = false)
    (received : e.kind = .static ∨ e.kind = .dynamicPool) : { pfx := e.v4 } ∈ f.entryRoutes e := by
  rw [entryRoutes]
  rcases received with kind | kind
  · rw [kind]
    simp only [alone, Bool.false_eq_true, false_and, if_false]
    split <;> exact List.mem_cons_self
  · rw [kind]
    exact List.mem_cons_self

/-- An IPv6 route is for the prefix or for the translator's own address. -/
theorem six_of_mem_entryRoutes (member : route ∈ f.entryRoutes e) (four : e.v4.addr.is4 = true)
    (six : route.pfx.addr.is4 = false) :
    route.pfx = e.v6 ∧ (e.kind = .rfc6052 ∨
      e.kind = .static ∧ e.v4 = .of f.ipv4Address 32 ∧ f.own.v6Derived = false) := by
  have other : route ≠ { pfx := e.v4 } := by
    rintro rfl
    rw [four] at six
    cases six
  rw [entryRoutes] at member
  split at member
  · rename_i kind
    repeat' split at member
    · cases member
    · rename_i own
      obtain rfl := List.mem_singleton.mp ((List.mem_cons.mp member).resolve_left other)
      exact ⟨rfl, .inr ⟨kind, own.1, by simpa using own.2⟩⟩
    · exact absurd (List.mem_singleton.mp member) other
  · rename_i kind
    split at member
    · cases member
    · rw [List.mem_singleton.mp member]
      exact ⟨rfl, .inl kind⟩
  · exact absurd (List.mem_singleton.mp member) other
  · cases member

theorem exists_route (member : route ∈ f.autoRoutes entries) :
    ∃ route' ∈ f.routes entries, route'.pfx = route.pfx :=
  firstOfEach.exists_key (List.mem_append_right _ member) List.not_mem_nil

theorem mem_autoRoutes (auto : boolOr f.config.interface.autoRoutes true = true) :
    route ∈ f.autoRoutes entries ↔ (∃ e ∈ entries, route ∈ f.entryRoutes e) ∨
      f.sharing.shared.isSome = true ∧ route = { pfx := everything4 } := by
  rw [autoRoutes, if_pos auto, List.mem_append, List.mem_flatMap]
  refine or_congr_right ?_
  split
  · rename_i shared
    simp [shared]
  · rename_i alone
    simp [alone]

/-- Only the entry for the translator has an IPv6 side that is not its own. -/
theorem eq_own_of_v4Only (member : e ∈ f.entries) (only : e.v4Only = true) :
    e = Builder.own f.ipv4Address f.own.local6 f.own.v6Derived := by
  rcases mem_entries_cases member with pfx | ⟨v4, v6, rfl⟩ | own | pool
  · rw [mem_prefixEntries pfx] at only
    cases only
  · cases only
  · exact own
  · obtain ⟨dp, -, rfl⟩ := List.mem_map.mp pool
    cases only

theorem own_mem_entries : Builder.own f.ipv4Address f.own.local6 f.own.v6Derived ∈ f.entries := by
  simp [entries]

end Findings

namespace Resolves

variable {listing : Listing} {b : Builder} {s : Mapper} {r : Resolved}

theorem interface_routes (resolves : Resolves listing cfg ro f b s r) :
    f.config.interface.routes = cfg.interface.routes ∧
      f.config.interface.autoRoutes = cfg.interface.autoRoutes := by
  obtain ⟨b₁, b₂, b₃, b₄, examined⟩ := examine_passes.mp resolves.examined
  rw [examined.given.interface]
  exact ⟨rfl, rfl⟩

theorem shared_iff (resolves : Resolves listing cfg ro f b s r) :
    f.sharing.shared.isSome = cfg.clat.isSome := by
  obtain ⟨b₁, b₂, b₃, b₄, examined⟩ := examine_passes.mp resolves.examined
  rw [resolveCLAT_shared examined.sharing, withTranslator_eq]

theorem routes_eq (resolves : Resolves listing cfg ro f b s r) :
    r.routes4 = (f.routes (listing.entries r.table)).filter (·.pfx.addr.is4) ∧
      r.routes6 = (f.routes (listing.entries r.table)).filter (!·.pfx.addr.is4) ∧
      r.xlate.localAddr6 = f.own.local6 ∧ r.table = s.table := by
  obtain ⟨-, -, warnings, level, json, kinds, -, -, -, rfl⟩ := resolves
  exact ⟨rfl, rfl, rfl, rfl⟩

theorem mem_entries (resolves : Resolves listing cfg ro f b s r) :
    e ∈ listing.entries r.table ↔ e ∈ f.entries := by
  rw [listing.mem_entries, resolves.routes_eq.2.2.2, (Table.built_of_build resolves.built).mem_all,
    resolves.entries]

theorem is4_of_mem (resolves : Resolves listing cfg ro f b s r) (member : e ∈ f.entries) :
    e.v4.addr.is4 = true := by
  rw [← resolves.entries] at member
  obtain ⟨n, net⟩ := (b.valid e member).network4
  have family := net.family
  cases address : e.v4.addr <;> simp_all [Addr.is4, Addr.bitLen]

variable (resolves : Resolves listing cfg ro f b s r)
  (auto : boolOr cfg.interface.autoRoutes true = true)

include resolves auto

/-- An address that is found in the table is routed to the interface. -/
theorem routes4_cover (alone : cfg.clat = none) (found : r.table.lookup4 a = some e)
    (received : e.kind = .static ∨ e.kind = .dynamicPool) :
    ∃ route ∈ r.routes4, route.pfx.contains a = true := by
  obtain ⟨routes4, -, -, table⟩ := resolves.routes_eq
  have finds := (Table.built_of_build resolves.built).finds
  rw [table] at found
  obtain ⟨member, inside, -⟩ := (finds.four a e).mp found
  rw [resolves.entries] at member
  have unshared : f.sharing.shared.isSome = false := by rw [resolves.shared_iff, alone]; rfl
  rw [← resolves.interface_routes.2] at auto
  have routed := (Findings.mem_autoRoutes auto).mpr
    (.inl ⟨e, resolves.mem_entries.mpr member, Findings.mem_entryRoutes unshared received⟩)
  obtain ⟨route, listed, same⟩ := Findings.exists_route routed
  refine ⟨route, ?_, by rw [same]; exact inside⟩
  rw [routes4]
  exact List.mem_filter.mpr ⟨listed, by rw [same]; exact resolves.is4_of_mem member⟩

theorem routes4_everything (shared : cfg.clat.isSome = true) :
    ∃ route ∈ r.routes4, route.pfx = everything4 := by
  rw [← resolves.interface_routes.2] at auto
  rw [← resolves.shared_iff] at shared
  have routed : { pfx := everything4 } ∈ f.autoRoutes (listing.entries r.table) :=
    (Findings.mem_autoRoutes auto).mpr (.inr ⟨shared, rfl⟩)
  obtain ⟨route, listed, same⟩ := Findings.exists_route routed
  refine ⟨route, ?_, same⟩
  rw [resolves.routes_eq.1]
  exact List.mem_filter.mpr ⟨listed, by rw [same]; rfl⟩

theorem routes6_spare (member : route ∈ r.routes6)
    (automatic : route ∉ cfg.interface.routes.map Route.netconf)
    (listed : e ∈ listing.entries r.table) (static : e.kind = .static)
    (inside : e.v6.contains a = true) (other : a ≠ r.xlate.localAddr6.withoutZone) :
    route.pfx.contains a = false := by
  obtain ⟨-, routes6, local6, -⟩ := resolves.routes_eq
  have built := Table.built_of_build resolves.built
  rw [local6] at other
  rw [← resolves.interface_routes.1] at automatic
  rw [← resolves.interface_routes.2] at auto
  rw [routes6, List.mem_filter, Findings.mem_routes] at member
  obtain ⟨given | ⟨routed, -⟩, six⟩ := member
  · exact absurd (firstOfEach.mem given).1 automatic
  have six : route.pfx.addr.is4 = false := by simpa using six
  rcases (Findings.mem_autoRoutes auto).mp routed with ⟨o, listed', routed⟩ | ⟨-, rfl⟩
  swap
  · cases six
  rw [resolves.mem_entries] at listed listed'
  obtain ⟨pfx, kind⟩ := Findings.six_of_mem_entryRoutes routed (resolves.is4_of_mem listed') six
  by_contra covered
  rw [Bool.not_eq_false, pfx] at covered
  rw [← resolves.entries] at listed'
  rcases kind with kind | ⟨kind, own, -⟩
  · by_cases only : e.v4Only = true
    · rw [Findings.eq_own_of_v4Only listed only] at inside
      exact other (Builder.own_contains inside)
    · rw [← resolves.entries] at listed
      have same := built.apart listed listed' (by simp [Entry.onSix, static, only])
        (by simp [Entry.onSix, kind]) inside covered
      rw [same, kind] at static
      cases static
  · have member := f.own_mem_entries
    rw [← resolves.entries] at member
    rw [built.eq_of_v4 listed' member (own.trans Builder.own_v4.symm)] at covered
    exact other (Builder.own_contains covered)

end Resolves

/-- Automatic routes cover what is received and nothing that is sent on, and explicit routes
stay as they are given. -/
theorem autoRoutes_cover {listing : Listing} {r : Resolved}
    (resolved : (resolveWith listing cfg ro).1 = .ok r)
    (auto : boolOr cfg.interface.autoRoutes true = true) :
    (cfg.clat = none → ∀ a e, r.table.lookup4 a = some e →
      e.kind = .static ∨ e.kind = .dynamicPool → ∃ route ∈ r.routes4, route.pfx.contains a = true) ∧
    (cfg.clat.isSome = true → ∃ route ∈ r.routes4, route.pfx = everything4) ∧
    (∀ route ∈ r.routes6, route ∉ cfg.interface.routes.map Route.netconf →
      ∀ e ∈ listing.entries r.table, e.kind = .static → ∀ a, e.v6.contains a = true →
        a ≠ r.xlate.localAddr6.withoutZone → route.pfx.contains a = false) ∧
    (r.routes4.map (·.pfx)).Nodup ∧ (r.routes6.map (·.pfx)).Nodup ∧
    ∀ before given after, cfg.interface.routes = before ++ given :: after →
      (∀ earlier ∈ before, earlier.netconf.pfx ≠ given.netconf.pfx) →
      given.netconf ∈ if given.netconf.pfx.addr.is4 then r.routes4 else r.routes6 := by
  obtain ⟨f, b, s, resolves⟩ := resolves_of_ok resolved
  obtain ⟨routes4, routes6, -, -⟩ := resolves.routes_eq
  have once := firstOfEach.nodup_keys Netconf.Route.pfx []
    (f.config.interface.routes.map Route.netconf ++ f.autoRoutes (listing.entries r.table))
  refine ⟨fun alone a e => resolves.routes4_cover auto alone, resolves.routes4_everything auto,
    fun route member automatic e listed static a => resolves.routes6_spare auto member automatic
      listed static, ?_, ?_, fun before given after configured first => ?_⟩
  · rw [routes4]
    exact once.sublist (List.filter_sublist.map _)
  · rw [routes6]
    exact once.sublist (List.filter_sublist.map _)
  · have kept : given.netconf ∈ f.routes (listing.entries r.table) := by
      rw [Findings.routes, resolves.interface_routes.1, configured, List.map_append, List.map_cons,
        List.append_assoc, List.cons_append]
      refine firstOfEach.mem_of_first List.not_mem_nil fun earlier member => ?_
      obtain ⟨o, here, rfl⟩ := List.mem_map.mp member
      exact first o here
    split
    · rename_i four
      rw [routes4]
      exact List.mem_filter.mpr ⟨kept, four⟩
    · rename_i six
      rw [routes6]
      exact List.mem_filter.mpr ⟨kept, by simpa using six⟩

/-- A prefix, a host behind a static map, and a route for documentation addresses. -/
def mapConfig : Config where
  pfx := .of (.v6 (0x20010db80064#128 <<< 80) "") 96
  ipv4Address := .v4 0xc0000201#32
  maps := [⟨"198.51.100.7", "2001:db8::7"⟩]
  interface := { routes := [{ pfx := .of (.v4 0xcb007105#32) 24, metric := 7 }] }

def mapHost : Entry :=
  staticEntry (.of (.v4 0xc6336407#32) 32) (.of (.v6 (0x20010db8#128 <<< 96 ||| 7) "") 128)

def mapOwn : Entry :=
  selfEntry (.v4 0xc0000201#32) (.v6 (0x20010db80064#128 <<< 80 ||| 0xc0000201#128) "")

theorem autoRoutes_cover_map : ∃ r, (resolveWith .standard mapConfig {}).1 = .ok r ∧
    (∃ route ∈ r.routes4, route.pfx.contains (.v4 0xc6336407#32) = true) ∧
    (∀ route ∈ r.routes6, route ∉ mapConfig.interface.routes.map Route.netconf →
      route.pfx.contains (.v6 (0x20010db8#128 <<< 96 ||| 7) "") = false) ∧
    { pfx := .of (.v4 0xcb007100#32) 24, metric := 7 } ∈ r.routes4 := by
  obtain ⟨f, b, s, warnings, r, resolves, resolved, -, made⟩ := exists_resolves_of_clean .standard
    {} mapConfig (by decide +kernel) (by decide +kernel)
    (show parseLevel "" = .ok .info by decide +kernel)
    (show parseFormat "" = .ok true by decide +kernel) (show List.mapM parseKind [] = .ok [] from rfl)
  have entries : b.entries = [prefixEntry mapConfig.pfx, mapHost, mapOwn] := by
    rw [made]
    decide +kernel
  have found : r.table.lookup4 (.v4 0xc6336407#32) = some mapHost := by
    rw [resolves.routes_eq.2.2.2, (Table.built_of_build resolves.built).lookup4_eq_some, entries]
    decide +kernel
  have listed : mapHost ∈ Listing.standard.entries r.table := by
    rw [resolves.mem_entries, ← resolves.entries, entries]
    decide +kernel
  have other : .v6 (0x20010db8#128 <<< 96 ||| 7) "" ≠ r.xlate.localAddr6.withoutZone := by
    have self : mapOwn = Builder.own f.ipv4Address f.own.local6 f.own.v6Derived := by
      refine Findings.eq_own_of_v4Only ?_ rfl
      rw [← resolves.entries, entries]
      decide +kernel
    have address : mapOwn.v6.addr = f.own.local6.withoutZone := by
      rw [self, Builder.own_v6]
      rfl
    rw [resolves.routes_eq.2.2.1, ← address]
    decide +kernel
  obtain ⟨four, -, six, -, -, given⟩ := autoRoutes_cover resolved rfl
  refine ⟨r, resolved, four rfl _ mapHost found (.inl rfl), fun route member automatic => ?_,
    given [] _ [] rfl fun _ none => absurd none List.not_mem_nil⟩
  exact six route member automatic mapHost listed rfl _ (by decide +kernel) other

end Clatto.Config
