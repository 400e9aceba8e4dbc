import Clatto.Netconf.Changes

/-! The kernel as one map from the things that are configured to what is configured of them.
`Update` follows a plan there, and so ends where `Apply` would have ended. -/

namespace Clatto.Netconf

open Netip Reconcile

inductive Item where
  | addr (index : Int) (p : Prefix)
  | route (place : Place)
  | rule (r : Rule)
  deriving DecidableEq

/-- What is kept of an item: nothing more than its presence, but for routes. -/
abbrev Content := Option RouteOptions

/-- The rules for the local table that are moved and never moved back. -/
def IsLocalRule (r : Rule) : Prop := r = localRule 0 ∨ r = localRule localRulePriority

instance (r : Rule) : Decidable (IsLocalRule r) := inferInstanceAs (Decidable (_ ∨ _))

/-- What the kernel has, but for the rules for the local table. -/
def Kernel.look (k : Kernel) : Item → Option Content
  | .addr index p => if (index, p) ∈ k.addrs then some none else none
  | .route place => (k.routes place).map some
  | .rule r => if r ∈ k.rules ∧ ¬ IsLocalRule r then some none else none

def Change.writes : Change → List (Item × Option Content)
  | .putAddr index p => [(.addr index p, some none)]
  | .dropAddr index p => [(.addr index p, none)]
  | .putRoute r => [(.route r.place, some (some r.toRouteOptions))]
  | .dropRoute place => [(.route place, none)]
  | .putRule spec => [(.rule spec.rule, some none)]
  | .dropRule spec => [(.rule spec.rule, none)]
  | _ => []

/-- A rule for a shared address is no rule for the local table: the priorities differ. -/
theorem RuleSpec.rule_not_local (spec : RuleSpec) : ¬ IsLocalRule spec.rule := by
  rintro (same | same)
  · exact absurd (show sharedRulePriority = 0 from congrArg Rule.priority same) (by decide)
  · exact absurd (show sharedRulePriority = localRulePriority from congrArg Rule.priority same)
      (by decide)

theorem look_setUp (k : Kernel) (index : Int) : (k.setUp index).look = k.look := by
  funext item
  cases item <;> rfl

theorem look_setSysctl (k : Kernel) (path value : String) :
    (k.setSysctl path value).look = k.look := by
  funext item
  cases item <;> rfl

theorem look_putAddr (k : Kernel) (index : Int) (p : Prefix) :
    (k.putAddr index p).look = Function.update k.look (.addr index p) (some none) := by
  funext item
  cases item with
  | addr index' p' =>
    simp only [Kernel.look, Kernel.putAddr, Finset.mem_insert, Function.update_apply,
      Item.addr.injEq, Prod.mk.injEq]
    by_cases same : index' = index ∧ p' = p
    · rw [if_pos (.inl same), if_pos same]
    · rw [if_neg same]
      simp only [same, false_or]
  | route place => rfl
  | rule r => rfl

theorem look_dropAddr (k : Kernel) (index : Int) (p : Prefix) :
    (k.dropAddr index p).look = Function.update k.look (.addr index p) none := by
  funext item
  cases item with
  | addr index' p' =>
    simp only [Kernel.look, Kernel.dropAddr, Finset.mem_erase, Function.update_apply,
      Item.addr.injEq, Ne, Prod.mk.injEq]
    by_cases same : index' = index ∧ p' = p
    · rw [if_neg (fun kept => kept.1 same), if_pos same]
    · rw [if_neg same]
      simp only [same, not_false_eq_true, true_and]
  | route place => rfl
  | rule r => rfl

theorem look_putRoute (k : Kernel) (place : Place) (options : RouteOptions) :
    (k.putRoute place options).look = Function.update k.look (.route place) (some (some options)) := by
  funext item
  cases item with
  | addr index p => rfl
  | route place' =>
    simp only [Kernel.look, Kernel.putRoute, Function.update_apply, Item.route.injEq]
    split <;> rfl
  | rule r => rfl

theorem look_dropRoute (k : Kernel) (place : Place) :
    (k.dropRoute place).look = Function.update k.look (.route place) none := by
  funext item
  cases item with
  | addr index p => rfl
  | route place' =>
    simp only [Kernel.look, Kernel.dropRoute, Function.update_apply, Item.route.injEq]
    split <;> rfl
  | rule r => rfl

theorem look_putRule (k : Kernel) {r : Rule} (other : ¬ IsLocalRule r) :
    (k.putRule r).look = Function.update k.look (.rule r) (some none) := by
  funext item
  cases item with
  | addr index p => rfl
  | route place => rfl
  | rule r' =>
    simp only [Kernel.look, Kernel.putRule, Finset.mem_insert, Function.update_apply,
      Item.rule.injEq]
    by_cases same : r' = r
    · rw [if_pos ⟨.inl same, same ▸ other⟩, if_pos same]
    · rw [if_neg same]
      simp only [same, false_or]

theorem look_dropRule (k : Kernel) (r : Rule) :
    (k.dropRule r).look = Function.update k.look (.rule r) none := by
  funext item
  cases item with
  | addr index p => rfl
  | route place => rfl
  | rule r' =>
    simp only [Kernel.look, Kernel.dropRule, Finset.mem_erase, Function.update_apply,
      Item.rule.injEq]
    by_cases same : r' = r
    · rw [if_neg (fun kept => kept.1.1 same), if_pos same]
    · rw [if_neg same]
      simp only [Ne, same, not_false_eq_true, true_and]

theorem look_localRule (k : Kernel) {r : Rule} (hidden : IsLocalRule r) :
    k.look (.rule r) = none :=
  if_neg fun shown => shown.2 hidden

theorem look_putRule_local (k : Kernel) {r : Rule} (hidden : IsLocalRule r) :
    (k.putRule r).look = k.look := by
  funext item
  cases item with
  | addr index p => rfl
  | route place => rfl
  | rule r' =>
    by_cases same : r' = r
    · rw [same, look_localRule _ hidden, look_localRule _ hidden]
    · simp only [Kernel.look, Kernel.putRule, Finset.mem_insert, same, false_or]

theorem Change.look_make (c : Change) (k : Kernel) :
    (c.make k).look = writeAll c.writes k.look := by
  cases c with
  | up index => exact look_setUp k index
  | putAddr index p => exact look_putAddr k index p
  | dropAddr index p => exact look_dropAddr k index p
  | putRoute r => exact look_putRoute k r.place r.toRouteOptions
  | dropRoute place => exact look_dropRoute k place
  | putRule spec => exact look_putRule k spec.rule_not_local
  | dropRule spec => exact look_dropRule k spec.rule
  | putLocalRule =>
    rw [make]
    split
    · rfl
    · exact look_putRule_local k (.inr rfl)
  | dropLocalRule =>
    have hidden : k.look (.rule (localRule 0)) = none := look_localRule k (.inl rfl)
    show (k.dropRule (localRule 0)).look = k.look
    rw [look_dropRule, ← hidden, Function.update_eq_self]
  | sysctl path => exact look_setSysctl k path "1"

theorem look_after (changes : List Change) (k : Kernel) :
    (Faulty.after Change.make changes k).look = writeAll (changes.flatMap Change.writes) k.look := by
  induction changes generalizing k with
  | nil => rfl
  | cons c changes ih =>
    rw [List.flatMap_cons, writeAll_append, ← c.look_make]
    exact ih (c.make k)

section

variable (link : Link)

def addrEntry (p : Prefix) : Item × Content := (.addr link.index p, none)

/-- Where a route of the main table is kept. -/
def mainPlace (r : Route) : Place := (kernelRoute link r 0).place

def routeEntry (r : Route) (table : Int) : Item × Content :=
  (.route (kernelRoute link r table).place, some (kernelRoute link r table).toRouteOptions)

def ruleEntry (spec : RuleSpec) : Item × Content := (.rule spec.rule, none)

def Shared.entries (s : Shared) : List (Item × Content) :=
  routeEntry link s.route s.table :: (ruleSpecs (some s)).map ruleEntry

/-- What the kernel is to have for these options. -/
def Options.entries (o : Options) : List (Item × Content) :=
  o.addresses.map (addrEntry link) ++ (o.routes.map (routeEntry link · 0) ++
    o.shared.toList.flatMap (Shared.entries link))

/-- What `Update` removes. -/
def removedItems (prev next : Options) : List Item :=
  (staleRoutes prev.routes4 next.routes4 ++ staleRoutes prev.routes6 next.routes6).map
      (fun r => .route (mainPlace link r)) ++
    ((missingPrefixes next.addresses prev.addresses).map (.addr link.index) ++
      ((staleRules prev.shared next.shared).map (.rule ·.rule) ++
        (movedShared prev.shared next.shared).toList.map
          fun s => .route (kernelRoute link s.route s.table).place))

theorem writes_map {β : Type} {change : β → Change} (write : β → Item × Option Content)
    (one : ∀ b, (change b).writes = [write b]) (elements : List β) :
    (elements.map change).flatMap Change.writes = elements.map write := by
  rw [List.flatMap_map, List.map_eq_flatMap]
  exact List.flatMap_congr fun b _ => one b

theorem Shared.writes_changes (s : Shared) :
    (s.changes link).flatMap Change.writes = setting (s.entries link) := by
  rw [changes, List.flatMap_append, List.flatMap_append,
    writes_map (fun spec => (.rule spec.rule, some none)) fun _ => rfl, setting, entries,
    List.map_cons, List.map_map]
  rfl

theorem writes_sysctl (wanted : Bool) (path : String) :
    (if wanted then [Change.sysctl path] else []).flatMap Change.writes = [] := by
  cases wanted <;> rfl

theorem Options.writes_changes (o : Options) :
    (o.changes link).flatMap Change.writes = setting (o.entries link) := by
  have shared : (o.shared.toList.flatMap (Shared.changes link)).flatMap Change.writes =
      setting (o.shared.toList.flatMap (Shared.entries link)) := by
    cases o.shared with
    | none => rfl
    | some s =>
      rw [Option.toList_some, List.flatMap_singleton, List.flatMap_singleton]
      exact s.writes_changes link
  rw [changes, List.flatMap_append, List.flatMap_append, List.flatMap_append, List.flatMap_append,
    List.flatMap_append, shared, writes_sysctl, writes_sysctl,
    writes_map (fun p => (.addr link.index p, some none)) fun _ => rfl,
    writes_map (fun r => ((routeEntry link r 0).1, some (routeEntry link r 0).2)) fun _ => rfl,
    entries, setting, setting, List.map_append, List.map_append, List.map_map, List.map_map,
    List.append_nil, List.append_nil]
  rfl

theorem writes_removals (prev next : Options) :
    (removals link prev next).flatMap Change.writes = dropping (removedItems link prev next) := by
  have moved (s : Option Shared) :
      (s.toList.flatMap fun s => [Change.dropRoute (kernelRoute link s.route s.table).place]).flatMap
        Change.writes =
      s.toList.map fun s => (.route (kernelRoute link s.route s.table).place, none) := by
    cases s <;> rfl
  rw [removals, List.flatMap_append, List.flatMap_append, List.flatMap_append, moved,
    writes_map (fun r => (.route (mainPlace link r), none)) fun _ => rfl,
    writes_map (fun p => (.addr link.index p, none)) fun _ => rfl,
    writes_map (fun spec => (.rule spec.rule, none)) fun _ => rfl,
    removedItems, dropping]
  simp only [List.map_append, List.map_map]
  rfl

end

/-- Every route has a key of its own, and the shared address a table of its own. -/
structure Options.Distinct (o : Options) : Prop where
  keys : (o.routes.map Route.key).Nodup
  apart : ∀ s, o.shared = some s → 0 < s.table ∧ s.table ≠ mainTable

section

variable {link : Link} {o prev next : Options}

theorem mainPlace_eq {r r' : Route} : mainPlace link r = mainPlace link r' ↔ r.key = r'.key := by
  constructor
  · intro same
    have dst : r.pfx = r'.pfx := congrArg Place.dst same
    have priority : r.metric = r'.metric := congrArg Place.priority same
    rw [Route.key, Route.key, dst, priority]
  · intro same
    have dst : r.pfx = r'.pfx := congrArg RouteKey.pfx same
    have priority : r.metric = r'.metric := congrArg RouteKey.metric same
    rw [mainPlace, mainPlace, KernelRoute.place, KernelRoute.place, kernelRoute, kernelRoute]
    simp only [dst, priority]

theorem addr_mem_entries {index : Int} {p : Prefix} {v : Content} :
    (.addr index p, v) ∈ o.entries link ↔ (link.index = index ∧ p ∈ o.addresses) ∧ v = none := by
  cases shared : o.shared with
  | none =>
    simp [Options.entries, shared, addrEntry, routeEntry, @eq_comm _ none]
    tauto
  | some s =>
    simp [Options.entries, shared, addrEntry, routeEntry, Shared.entries, ruleEntry, @eq_comm _ none]
    tauto

theorem route_mem_entries {place : Place} {v : Content} :
    (.route place, v) ∈ o.entries link ↔
      (∃ r ∈ o.routes, mainPlace link r = place ∧
        some (kernelRoute link r 0).toRouteOptions = v) ∨
      ∃ s, o.shared = some s ∧ (kernelRoute link s.route s.table).place = place ∧
        some (kernelRoute link s.route s.table).toRouteOptions = v := by
  cases shared : o.shared with
  | none => simp [Options.entries, shared, addrEntry, routeEntry, mainPlace]
  | some s =>
    simp [Options.entries, shared, addrEntry, routeEntry, Shared.entries, ruleEntry, mainPlace,
      @eq_comm _ place, @eq_comm _ v]

theorem rule_mem_entries {r : Rule} {v : Content} :
    (.rule r, v) ∈ o.entries link ↔ (∃ spec ∈ ruleSpecs o.shared, spec.rule = r) ∧ v = none := by
  cases shared : o.shared with
  | none => simp [Options.entries, shared, addrEntry, routeEntry, ruleSpecs]
  | some s =>
    simp [Options.entries, shared, addrEntry, routeEntry, Shared.entries, ruleEntry]
    grind

namespace Options.Distinct

variable (distinct : o.Distinct)

include distinct

theorem route_eq {r r' : Route} (member : r ∈ o.routes) (member' : r' ∈ o.routes)
    (same : mainPlace link r = mainPlace link r') : r = r' :=
  List.inj_on_of_nodup_map distinct.keys member member' (mainPlace_eq.mp same)

theorem not_mainPlace {s : Shared} (shared : o.shared = some s) (r : Route) :
    (kernelRoute link s.route s.table).place ≠ mainPlace link r := by
  obtain ⟨positive, other⟩ := distinct.apart s shared
  intro same
  have table : (if 0 < s.table then s.table else mainTable) = mainTable :=
    congrArg Place.table same
  rw [if_pos positive] at table
  exact other table

/-- Routes of one family that are kept are not removed through the other one. -/
theorem not_stale {r r' : Route} {next : Options}
    (kept : r ∈ o.routes4 ∧ r ∈ next.routes4 ∨ r ∈ o.routes6 ∧ r ∈ next.routes6)
    (stale : r' ∈ staleRoutes o.routes4 next.routes4 ++ staleRoutes o.routes6 next.routes6) :
    mainPlace link r' ≠ mainPlace link r := by
  have apart := (List.nodup_append.mp (List.Nodup.of_map _ distinct.keys)).2.2
  have wanted {want : List Route} (member : r ∈ want) (gone : r.key ∉ want.map Route.key) : False :=
    gone (List.mem_map_of_mem member)
  intro same
  have owned : r ∈ o.routes := List.mem_append.mpr (kept.imp And.left And.left)
  rcases List.mem_append.mp stale with stale | stale
  all_goals
    obtain ⟨member, gone⟩ := List.mem_filter.mp stale
  · obtain rfl := distinct.route_eq (List.mem_append_left _ member) owned same
    rcases kept with ⟨-, wanted4⟩ | ⟨member6, -⟩
    · exact wanted wanted4 (of_decide_eq_true gone)
    · exact apart _ member _ member6 rfl
  · obtain rfl := distinct.route_eq (List.mem_append_right _ member) owned same
    rcases kept with ⟨member4, -⟩ | ⟨-, wanted6⟩
    · exact apart _ member4 _ member rfl
    · exact wanted wanted6 (of_decide_eq_true gone)

theorem functional : Functional (o.entries link) := by
  intro item v v' one other
  cases item with
  | addr index p => rw [(addr_mem_entries.mp one).2, (addr_mem_entries.mp other).2]
  | rule r => rw [(rule_mem_entries.mp one).2, (rule_mem_entries.mp other).2]
  | route place =>
    rcases route_mem_entries.mp one with ⟨r, member, rfl, rfl⟩ | ⟨s, shared, rfl, rfl⟩
    · rcases route_mem_entries.mp other with ⟨r', member', same, rfl⟩ | ⟨s, shared, same, -⟩
      · rw [distinct.route_eq member' member same]
      · exact absurd same (distinct.not_mainPlace shared r)
    · rcases route_mem_entries.mp other with ⟨r, -, same, -⟩ | ⟨s', shared', -, rfl⟩
      · exact absurd same.symm (distinct.not_mainPlace shared r)
      · rw [shared] at shared'
        rw [Option.some.inj shared']

end Options.Distinct

theorem addr_mem_removed {index : Int} {p : Prefix} :
    .addr index p ∈ removedItems link prev next ↔
      link.index = index ∧ p ∈ prev.addresses ∧ p ∉ next.addresses := by
  simp [removedItems, missingPrefixes]
  tauto

theorem rule_mem_removed {r : Rule} :
    .rule r ∈ removedItems link prev next ↔
      ∃ spec ∈ ruleSpecs prev.shared, spec ∉ ruleSpecs next.shared ∧ spec.rule = r := by
  simp [removedItems, staleRules, and_assoc]

theorem route_mem_removed {place : Place} :
    .route place ∈ removedItems link prev next ↔
      (∃ r ∈ staleRoutes prev.routes4 next.routes4 ++ staleRoutes prev.routes6 next.routes6,
        mainPlace link r = place) ∨
      ∃ s, movedShared prev.shared next.shared = some s ∧
        (kernelRoute link s.route s.table).place = place := by
  simp [removedItems, or_and_right, exists_or, or_assoc]

theorem movedShared_eq {prev next : Option Shared} {s : Shared} :
    movedShared prev next = some s ↔
      prev = some s ∧ ∀ n, next = some n → s.addr = n.addr → s.table ≠ n.table := by
  rw [movedShared, Option.filter_eq_some_iff]
  refine and_congr_right fun _ => ?_
  cases next with
  | none => simp
  | some n =>
    simp
    tauto

theorem mem_staleRoutes {present want : List Route} {r : Route} :
    r ∈ staleRoutes present want ↔ r ∈ present ∧ ∀ r' ∈ want, r'.key ≠ r.key := by
  simp [staleRoutes]

theorem added_routes_subset {r : Route} (member : r ∈ (prev.added next).routes) :
    r ∈ next.routes := by
  rcases List.mem_append.mp member with missing | missing
  · exact List.mem_append_left _ (List.mem_of_mem_filter missing)
  · exact List.mem_append_right _ (List.mem_of_mem_filter missing)

/-- A route of the new options is added, or stays from the old ones. -/
theorem mem_added_routes (prev : Options) {r : Route} (member : r ∈ next.routes) :
    r ∈ (prev.added next).routes ∨
      (r ∈ prev.routes4 ∧ r ∈ next.routes4 ∨ r ∈ prev.routes6 ∧ r ∈ next.routes6) := by
  rcases List.mem_append.mp member with member4 | member6
  · by_cases old : r ∈ prev.routes4
    · exact .inr (.inl ⟨old, member4⟩)
    · exact .inl (List.mem_append_left _ (List.mem_filter.mpr ⟨member4, decide_eq_true old⟩))
  · by_cases old : r ∈ prev.routes6
    · exact .inr (.inr ⟨old, member6⟩)
    · exact .inl (List.mem_append_right _ (List.mem_filter.mpr ⟨member6, decide_eq_true old⟩))

theorem plan (before : prev.Distinct) :
    Plan (prev.entries link) (next.entries link) (removedItems link prev next)
      ((prev.added next).entries link) where
  owned := by
    intro item removed
    cases item with
    | addr index p =>
      obtain ⟨own, member, -⟩ := addr_mem_removed.mp removed
      exact ⟨none, addr_mem_entries.mpr ⟨⟨own, member⟩, rfl⟩⟩
    | rule r =>
      obtain ⟨spec, member, -, same⟩ := rule_mem_removed.mp removed
      exact ⟨none, rule_mem_entries.mpr ⟨⟨spec, member, same⟩, rfl⟩⟩
    | route place =>
      rcases route_mem_removed.mp removed with ⟨r, stale, same⟩ | ⟨s, moved, same⟩
      · have member : r ∈ prev.routes :=
          (List.mem_append.mp stale).elim
            (fun stale => List.mem_append_left _ (mem_staleRoutes.mp stale).1)
            (fun stale => List.mem_append_right _ (mem_staleRoutes.mp stale).1)
        exact ⟨_, route_mem_entries.mpr (.inl ⟨r, member, same, rfl⟩)⟩
      · exact ⟨_, route_mem_entries.mpr (.inr ⟨s, (movedShared_eq.mp moved).1, same, rfl⟩)⟩
  stale := by
    intro item v member absent
    cases item with
    | addr index p =>
      obtain ⟨⟨own, member⟩, -⟩ := addr_mem_entries.mp member
      refine addr_mem_removed.mpr ⟨own, member, fun kept => ?_⟩
      exact absent none (addr_mem_entries.mpr ⟨⟨own, kept⟩, rfl⟩)
    | rule r =>
      obtain ⟨⟨spec, member, same⟩, -⟩ := rule_mem_entries.mp member
      refine rule_mem_removed.mpr ⟨spec, member, fun kept => ?_, same⟩
      exact absent none (rule_mem_entries.mpr ⟨⟨spec, kept, same⟩, rfl⟩)
    | route place =>
      refine route_mem_removed.mpr ?_
      rcases route_mem_entries.mp member with ⟨r, owned, rfl, -⟩ | ⟨s, shared, rfl, -⟩
      · have gone : ∀ r' ∈ next.routes, r'.key ≠ r.key := fun r' kept same =>
          absent _ (route_mem_entries.mpr (.inl ⟨r', kept, mainPlace_eq.mpr same, rfl⟩))
        refine .inl ⟨r, ?_, rfl⟩
        rcases List.mem_append.mp owned with owned4 | owned6
        · exact List.mem_append_left _ (mem_staleRoutes.mpr
            ⟨owned4, fun r' kept => gone r' (List.mem_append_left _ kept)⟩)
        · exact List.mem_append_right _ (mem_staleRoutes.mpr
            ⟨owned6, fun r' kept => gone r' (List.mem_append_right _ kept)⟩)
      · refine .inr ⟨s, movedShared_eq.mpr ⟨shared, fun n kept addr table => ?_⟩, rfl⟩
        refine absent _ (route_mem_entries.mpr (.inr ⟨n, kept, ?_, rfl⟩))
        rw [Shared.route, Shared.route, addr, table]
  wanted := by
    rintro ⟨item, v⟩ member
    cases item with
    | addr index p =>
      obtain ⟨⟨own, member⟩, same⟩ := addr_mem_entries.mp member
      exact addr_mem_entries.mpr ⟨⟨own, List.mem_of_mem_filter member⟩, same⟩
    | rule r =>
      obtain ⟨found, same⟩ := rule_mem_entries.mp member
      exact rule_mem_entries.mpr ⟨found, same⟩
    | route place =>
      refine route_mem_entries.mpr ?_
      rcases route_mem_entries.mp member with ⟨r, added, same⟩ | shared
      · exact .inl ⟨r, added_routes_subset added, same⟩
      · exact .inr shared
  missing := by
    rintro ⟨item, v⟩ member
    cases item with
    | addr index p =>
      obtain ⟨⟨own, member⟩, same⟩ := addr_mem_entries.mp member
      by_cases old : p ∈ prev.addresses
      · refine .inr ⟨addr_mem_entries.mpr ⟨⟨own, old⟩, same⟩, fun removed => ?_⟩
        exact (addr_mem_removed.mp removed).2.2 member
      · refine .inl (addr_mem_entries.mpr ⟨⟨own, ?_⟩, same⟩)
        exact List.mem_filter.mpr ⟨member, decide_eq_true old⟩
    | rule r =>
      obtain ⟨found, same⟩ := rule_mem_entries.mp member
      exact .inl (rule_mem_entries.mpr ⟨found, same⟩)
    | route place =>
      rcases route_mem_entries.mp member with ⟨r, wanted, rfl, same⟩ | shared
      · rcases mem_added_routes prev wanted with added | kept
        · exact .inl (route_mem_entries.mpr (.inl ⟨r, added, rfl, same⟩))
        · have old : r ∈ prev.routes := List.mem_append.mpr (kept.imp And.left And.left)
          refine .inr ⟨route_mem_entries.mpr (.inl ⟨r, old, rfl, same⟩), fun removed => ?_⟩
          rcases route_mem_removed.mp removed with ⟨r', stale, place⟩ | ⟨s, moved, place⟩
          · exact before.not_stale kept stale place
          · exact before.not_mainPlace (movedShared_eq.mp moved).1 r place
      · exact .inl (route_mem_entries.mpr (.inr shared))

/-- Two kernels have the same routes, addresses and rules, but for the rules for the local
table. -/
structure Alike (k k' : Kernel) : Prop where
  routes : k.routes = k'.routes
  addrs : k.addrs = k'.addrs
  rules : ∀ r, ¬ IsLocalRule r → (r ∈ k.rules ↔ r ∈ k'.rules)

theorem Alike.of_look {k k' : Kernel} (same : k.look = k'.look) : Alike k k' where
  routes := by
    funext place
    exact Option.map_injective (Option.some_injective _) (congrFun same (.route place))
  addrs := by
    ext ⟨index, p⟩
    have shown := congrFun same (.addr index p)
    simp only [Kernel.look] at shown
    split at shown <;> split at shown <;> simp_all
  rules := by
    intro r shown
    have shown := congrFun same (.rule r)
    simp only [Kernel.look] at shown
    split at shown <;> split at shown <;> simp_all

theorem apply_look {name : String} {w : World Kernel} (same : o.name = name)
    (found : w.state.links name = some link) (returned : (apply o w).1 = .ok ()) :
    (apply o w).2.state.look = writeAll (setting (o.entries link)) w.state.look := by
  rw [(apply_does same).state found returned, look_after, o.writes_changes]

theorem update_look {name : String} {w : World Kernel} (same : next.name = name)
    (found : w.state.links name = some link) (returned : (update prev next w).1 = .ok ()) :
    (update prev next w).2.state.look =
      writeAll (setting ((prev.added next).entries link))
        (writeAll (dropping (removedItems link prev next)) w.state.look) := by
  rw [(update_does same).state found returned, look_after, List.flatMap_append, writeAll_append,
    writes_removals, (prev.added next).writes_changes]

theorem Does.links {name : String} {α : Type} {program : Net α} {changes : List Change}
    {post : α → Prop} {w : World Kernel} (does : Does name link program changes post)
    (found : w.state.links name = some link) : (program w).2.state.links name = some link := by
  obtain ⟨-, made, -, reached, -⟩ := does w found
  rw [reached]
  exact Faulty.after_ready stays made found

/-- Going from one configuration to another leads where the second one alone would have led,
if the kernel had nothing of the first one before. -/
theorem update_refines_apply {w : World Kernel} (same : prev.name = next.name)
    (found : w.state.links next.name = some link) (quiet : w.Quiet) (before : prev.Distinct)
    (target : next.Distinct) (clear : ∀ e ∈ prev.entries link, w.state.look e.1 = none) :
    (apply prev w).1 = .ok () ∧ (update prev next (apply prev w).2).1 = .ok () ∧
      (apply next w).1 = .ok () ∧
      Alike (update prev next (apply prev w).2).2.state (apply next w).2.state := by
  have first : Does next.name link (apply prev) (prev.changes link) fun _ => True := apply_does same
  have fresh : Does next.name link (apply next) (next.changes link) fun _ => True := apply_does rfl
  have moving : Does next.name link (update prev next)
      (removals link prev next ++ (prev.added next).changes link) fun _ => True := update_does rfl
  have found' := first.links found
  obtain ⟨⟨⟩, applied⟩ := first.returns found quiet
  obtain ⟨⟨⟩, updated⟩ := moving.returns found' (first.quiet found quiet)
  obtain ⟨⟨⟩, started⟩ := fresh.returns found quiet
  refine ⟨applied, updated, started, .of_look ?_⟩
  rw [update_look rfl found' updated, apply_look same found applied, apply_look rfl found started]
  exact (plan before).reconciles before.functional target.functional clear

end

/-- A kernel with one interface and nothing configured. -/
def bareWorld : World Kernel where
  state :=
    { links := fun name => if name = "clat0" then some ⟨"clat0", 7⟩ else none
      up := ∅, addrs := ∅, routes := fun _ => none, rules := ∅, sysctls := fun _ => "0" }
  faults := fun _ => none

/-- A CLAT that shares an address of the host. -/
def sharingOptions : Options where
  name := "clat0"
  addresses := [.of (.v4 0xc0000001) 32]
  routes4 := [{ pfx := .of (.v4 0) 0, metric := 2048, mtu := 1260 }]
  routes6 := []
  forward4 := false
  forward6 := false
  shared := some
    { addr := .v6 (0x20010db8#128 <<< 96 ||| 1) "", source := .of (.v6 (0x64ff9b#128 <<< 96) "") 96
      table := 0xc1a7
      filters := [{ proto := 6 }, { proto := 6 }, { proto := 17, start := 1024, stop := 2048 }] }

/-- The same interface with an address of its own. -/
def separateOptions : Options where
  name := "clat0"
  addresses := []
  routes4 := [{ pfx := .of (.v4 0) 0, metric := 2048, mtu := 1480 }]
  routes6 := [{ pfx := .of (.v6 (0x20010db8#128 <<< 96 ||| 2) "") 128 }]
  forward4 := true
  forward6 := false
  shared := none

theorem update_refines_apply_sharing :
    (apply sharingOptions bareWorld).1 = .ok () ∧
      (update sharingOptions separateOptions (apply sharingOptions bareWorld).2).1 = .ok () ∧
      (apply separateOptions bareWorld).1 = .ok () ∧
      Alike (update sharingOptions separateOptions (apply sharingOptions bareWorld).2).2.state
        (apply separateOptions bareWorld).2.state := by
  refine @update_refines_apply ⟨"clat0", 7⟩ _ _ _ rfl rfl (fun _ => rfl) ?_ ?_ ?_
  · refine ⟨by decide, fun s shared => ?_⟩
    obtain rfl := Option.some.inj shared
    decide
  · exact ⟨by decide, fun s shared => by cases shared⟩
  · rintro ⟨item, v⟩ -
    cases item <;> rfl

end Clatto.Netconf
