import Clatto.Config.Claims
import Clatto.Daemon.Apply
import Clatto.Lib.Recover

/-! Configurations that are applied one after the other while the kernel may refuse any call.
The daemon goes on from what it has applied last, not from what the kernel is left with. -/

namespace Clatto

open Netip Addrmap Netconf Config Reconcile

namespace Netconf

def Item.IsMain : Item → Prop
  | .route place => place.table = mainTable
  | _ => False

section

variable {link : Link} {o prev next : Options}

/-- However far `Update` gets, it has made the first of its writes. -/
theorem update_begun (prev : Options) {name : String} {w : World Kernel} (same : next.name = name)
    (found : w.state.links name = some link) :
    ∃ made, made <+: dropping (removedItems link prev next) ++
        setting ((prev.added next).entries link) ∧
      (update prev next w).2.state.look = writeAll made w.state.look := by
  obtain ⟨-, made, ⟨rest, whole⟩, reached, -⟩ := update_does same w found
  refine ⟨made.flatMap Change.writes, ⟨rest.flatMap Change.writes, ?_⟩, ?_⟩
  · rw [← List.flatMap_append, whole, List.flatMap_append, writes_removals,
      Options.writes_changes]
  · rw [reached, look_after]

theorem routeEntry_inj {r r' : Route} (same : routeEntry link r 0 = routeEntry link r' 0) :
    r = r' := by
  obtain ⟨pfx, metric, mtu, advMSS⟩ := r
  obtain ⟨pfx', metric', mtu', advMSS'⟩ := r'
  simp only [routeEntry, kernelRoute, KernelRoute.place, Prod.mk.injEq, Item.route.injEq,
    Place.mk.injEq, Option.some.injEq, RouteOptions.mk.injEq] at same
  obtain ⟨⟨-, rfl, rfl⟩, -, -, rfl, rfl⟩ := same
  rfl

theorem mem_entries_main (distinct : o.Distinct) {e : Item × Content} (main : e.1.IsMain) :
    e ∈ o.entries link ↔ ∃ r ∈ o.routes, routeEntry link r 0 = e := by
  obtain ⟨item, v⟩ := e
  cases item with
  | addr index p => exact absurd main id
  | rule r => exact absurd main id
  | route place =>
    rw [route_mem_entries]
    constructor
    · rintro (⟨r, member, rfl, rfl⟩ | ⟨s, shared, rfl, -⟩)
      · exact ⟨r, member, rfl⟩
      · obtain ⟨positive, apart⟩ := distinct.apart s shared
        have table : (if 0 < s.table then s.table else mainTable) = mainTable := main
        rw [if_pos positive] at table
        exact absurd table apart
    · rintro ⟨r, member, same⟩
      cases same
      exact .inl ⟨r, member, rfl, rfl⟩

theorem isMain_routeEntry (r : Route) : (routeEntry link r 0).1.IsMain := rfl

theorem Options.Proper.same_family (before : prev.Proper) (after : next.Proper) {r : Route}
    (member : r ∈ prev.routes) (member' : r ∈ next.routes) :
    r ∈ prev.routes4 ∧ r ∈ next.routes4 ∨ r ∈ prev.routes6 ∧ r ∈ next.routes6 := by
  rcases List.mem_append.mp member with four | six
  · rcases List.mem_append.mp member' with four' | six'
    · exact .inl ⟨four, four'⟩
    · exact absurd (before.four r four) (by rw [after.six r six']; decide)
  · rcases List.mem_append.mp member' with four' | six'
    · exact absurd (after.four r four') (by rw [before.six r six]; decide)
    · exact .inr ⟨six, six'⟩

theorem spared (before : prev.Proper) (after : next.Proper) {e : Item × Content}
    (member : e ∈ prev.entries link) (main : e.1.IsMain) (member' : e ∈ next.entries link) :
    e.1 ∉ removedItems link prev next := by
  obtain ⟨r, old, rfl⟩ := (mem_entries_main before.toDistinct main).mp member
  obtain ⟨r', new, same⟩ := (mem_entries_main after.toDistinct main).mp member'
  obtain rfl := routeEntry_inj same
  intro removed
  rcases route_mem_removed.mp removed with ⟨r', stale, place⟩ | ⟨s, moved, place⟩
  · exact before.toDistinct.not_stale (before.same_family after old new) stale place
  · exact before.toDistinct.not_mainPlace (movedShared_eq.mp moved).1 r' place

/-- Everything that the options name is named by one of two others as well. -/
structure Options.Within (o prev next : Options) : Prop where
  addresses : ∀ p ∈ o.addresses, p ∈ prev.addresses ∨ p ∈ next.addresses
  routes : ∀ r ∈ o.routes, (∃ r' ∈ prev.routes, r'.key = r.key) ∨ ∃ r' ∈ next.routes, r'.key = r.key
  shared : ∀ s, o.shared = some s →
    (∃ s', prev.shared = some s' ∧ s'.addr = s.addr ∧ s'.table = s.table) ∨
      ∃ s', next.shared = some s' ∧ s'.addr = s.addr ∧ s'.table = s.table
  rules : ∀ spec ∈ ruleSpecs o.shared, spec ∈ ruleSpecs prev.shared ∨ spec ∈ ruleSpecs next.shared

theorem has_addr {index : Int} {p : Prefix} :
    Has (o.entries link) (.addr index p) ↔ link.index = index ∧ p ∈ o.addresses := by
  simp only [Has, addr_mem_entries, exists_and_left, exists_eq, and_true]

theorem has_route {place : Place} :
    Has (o.entries link) (.route place) ↔
      (∃ r ∈ o.routes, mainPlace link r = place) ∨
        ∃ s, o.shared = some s ∧ (kernelRoute link s.route s.table).place = place := by
  simp only [Has, route_mem_entries]
  constructor
  · rintro ⟨v, ⟨r, member, here, -⟩ | ⟨s, shared, here, -⟩⟩
    · exact .inl ⟨r, member, here⟩
    · exact .inr ⟨s, shared, here⟩
  · rintro (⟨r, member, here⟩ | ⟨s, shared, here⟩)
    · exact ⟨_, .inl ⟨r, member, here, rfl⟩⟩
    · exact ⟨_, .inr ⟨s, shared, here, rfl⟩⟩

theorem has_rule {r : Rule} :
    Has (o.entries link) (.rule r) ↔ ∃ spec ∈ ruleSpecs o.shared, spec.rule = r := by
  simp only [Has, rule_mem_entries, exists_and_left, exists_eq, and_true]

theorem Options.Within.has (within : o.Within prev next) {x : Item} (has : Has (o.entries link) x) :
    Has (prev.entries link) x ∨ Has (next.entries link) x := by
  cases x with
  | addr index p =>
    obtain ⟨here, member⟩ := has_addr.mp has
    exact (within.addresses p member).imp (fun old => has_addr.mpr ⟨here, old⟩)
      fun new => has_addr.mpr ⟨here, new⟩
  | rule r =>
    obtain ⟨spec, member, here⟩ := has_rule.mp has
    exact (within.rules spec member).imp (fun old => has_rule.mpr ⟨spec, old, here⟩)
      fun new => has_rule.mpr ⟨spec, new, here⟩
  | route place =>
    rcases has_route.mp has with ⟨r, member, rfl⟩ | ⟨s, shared, rfl⟩
    · have main {o : Options} : (∃ r' ∈ o.routes, r'.key = r.key) →
          Has (o.entries link) (.route (mainPlace link r)) := fun ⟨r', member', key⟩ =>
        has_route.mpr (.inl ⟨r', member', mainPlace_eq.mpr key⟩)
      exact (within.routes r member).imp main main
    · have apart {o : Options} :
          (∃ s', o.shared = some s' ∧ s'.addr = s.addr ∧ s'.table = s.table) →
          Has (o.entries link) (.route (kernelRoute link s.route s.table).place) :=
        fun ⟨s', shared', addr, table⟩ => has_route.mpr (.inr ⟨s', shared', by
          rw [Shared.route, Shared.route, addr, table]⟩)
      exact (within.shared s shared).imp apart apart

end

end Netconf

namespace Daemon

/-- An `Apply` that is called for. -/
structure Request where
  o : Occasion
  cfg : Config
  source : String

/-- What a request asks of the kernel, if its configuration is valid. -/
def wants (d : Daemon) (q : Request) : Option Options :=
  match (d.validate q.o.listing q.cfg).1 with
  | .ok r => some (r.netconfOptions d.applied.name)
  | .error _ => none

/-- A daemon and the kernel, what was wanted in vain since the last success, and what attempts
in vain have installed. -/
structure History where
  daemon : Daemon
  world : World Kernel
  failed : List Options := []
  installed : Set Item := ∅

namespace History

variable (h : History) (q : Request)

def outcome : Except ApplyError Unit × Daemon × World Kernel :=
  h.daemon.apply q.o q.cfg q.source h.world

/-- The history goes on with an `Apply`. -/
def next : History :=
  match h.outcome q with
  | (.ok _, daemon, world) => { daemon, world, installed := h.installed }
  | (.error (.invalid _), daemon, world) => { h with daemon, world }
  | (.error (.update _), daemon, world) => {
      daemon, world
      failed := (h.daemon.wants q).toList ++ h.failed
      installed := h.installed ∪ {x | h.world.state.look x = none ∧ world.state.look x ≠ none} }

def nextAll (requests : List Request) : History := requests.foldl next h

def Succeeds : Prop := (h.outcome q).1 = .ok ()

/-- When a configuration makes up for those that were wanted in vain: they have the routes
that it has in common with the last one that was applied, and nothing that neither of these
two has. -/
structure MakesUp (want : Options) : Prop where
  stays : ∀ r ∈ want.routes, r ∈ h.daemon.applied.routes → ∀ b ∈ h.failed, r ∈ b.routes
  within : ∀ b ∈ h.failed, b.Within h.daemon.applied want

/-- The kernel has every route that is wanted, with its options, and nothing that is not
wanted and was installed in vain. -/
structure Recovered (installed : Set Item) (want : Options) (link : Link) (k : Kernel) : Prop where
  found : k.links want.name = some link
  routes : ∀ r ∈ want.routes,
    k.routes (mainPlace link r) = some (kernelRoute link r 0).toRouteOptions
  shared : ∀ s, want.shared = some s → k.routes (kernelRoute link s.route s.table).place =
    some (kernelRoute link s.route s.table).toRouteOptions
  clean : ∀ x ∈ installed, ¬ Has (want.entries link) x → k.look x = none

/-- After the `Apply` the kernel is as it was asked for. -/
def Mended : Prop :=
  ∃ want link, h.daemon.wants q = some want ∧
    Recovered h.installed want link (h.next q).world.state

/-- The history as a course of reconciling. -/
def course (link : Link) : Course Item Content where
  map := h.world.state.look
  applied := h.daemon.applied.entries link
  failed := h.failed.map (Options.entries link)
  installed := h.installed

/-- What holds of the history of a daemon that configures its interface. -/
structure Tracked (name : String) (link : Link) (h : History) : Prop where
  started : h.daemon.started = true
  configure : h.daemon.cur.configure = true
  named : h.daemon.applied.name = name
  found : h.world.state.links name = some link
  proper : h.daemon.applied.Proper
  course : (h.course link).Tracked Item.IsMain

variable {h q} {name : String} {link : Link} {want : Options}

theorem MakesUp.covers (makes : h.MakesUp want) (proper : want.Proper)
    (applied : h.daemon.applied.Proper) : (h.course link).Covers Item.IsMain (want.entries link) where
  stays := by
    intro e member main old b listed
    obtain ⟨options, failed, rfl⟩ := List.mem_map.mp listed
    obtain ⟨r, wanted, rfl⟩ := (mem_entries_main proper.toDistinct main).mp member
    obtain ⟨r', had, same⟩ := (mem_entries_main applied.toDistinct main).mp old
    obtain rfl := routeEntry_inj same
    exact List.mem_append_right _ (List.mem_append_left _
      (List.mem_map_of_mem (makes.stays r' wanted had options failed)))
  listed := by
    intro b listed x has
    obtain ⟨options, failed, rfl⟩ := List.mem_map.mp listed
    exact (makes.within options failed).has has

/-- Whether or not it fails, `Update` leaves the interface in place. -/
theorem update_found {prev next : Options} {w : World Kernel} (same : next.name = name)
    (found : w.state.links name = some link) :
    (update prev next w).2.state.links name = some link :=
  (update_does same).links found

theorem Tracked.giveUp (tracked : h.Tracked name link) (named : want.name = name)
    (proper : want.Proper) {d : Daemon} (setup : SameSetup h.daemon d) :
    Tracked name link ⟨d, (update h.daemon.applied want h.world).2, want :: h.failed,
      h.installed ∪ {x | h.world.state.look x = none ∧
        (update h.daemon.applied want h.world).2.state.look x ≠ none}⟩ where
  started := setup.started.trans tracked.started
  configure := setup.configure.trans tracked.configure
  named := by
    show d.applied.name = name
    rw [setup.applied]
    exact tracked.named
  found := update_found named tracked.found
  proper := by
    show d.applied.Proper
    rw [setup.applied]
    exact tracked.proper
  course := by
    obtain ⟨made, begun, look⟩ := update_begun h.daemon.applied named tracked.found
    have given := tracked.course.giveUp (plan tracked.proper.toDistinct) proper.toDistinct.functional
      begun fun e member main wanted => spared tracked.proper proper member main wanted
    rw [History.course, look, setup.applied]
    exact given

theorem course_finish {d : Daemon} (tracked : h.Tracked name link) (named : want.name = name)
    (returned : (update h.daemon.applied want h.world).1 = .ok ()) (applied : d.applied = want) :
    History.course ⟨d, (update h.daemon.applied want h.world).2, [], h.installed⟩ link =
      (h.course link).finish (want.entries link) (removedItems link h.daemon.applied want)
        ((h.daemon.applied.added want).entries link) := by
  rw [History.course, update_look named tracked.found returned, applied]
  rfl

theorem Tracked.finish (tracked : h.Tracked name link) (named : want.name = name)
    (proper : want.Proper) (makes : h.MakesUp want)
    (returned : (update h.daemon.applied want h.world).1 = .ok ()) {d : Daemon}
    (started : d.started = true) (configure : d.cur.configure = true) (applied : d.applied = want) :
    Tracked name link ⟨d, (update h.daemon.applied want h.world).2, [], h.installed⟩ where
  started := started
  configure := configure
  named := by
    show d.applied.name = name
    rw [applied]
    exact named
  found := update_found named tracked.found
  proper := by
    show d.applied.Proper
    rw [applied]
    exact proper
  course := by
    rw [course_finish tracked named returned applied]
    exact tracked.course.finish (plan tracked.proper.toDistinct) proper.toDistinct.functional
      (makes.covers proper tracked.proper)

theorem routes_of_look {k : Kernel} {place : Place} {options : RouteOptions}
    (seen : k.look (.route place) = some (some options)) : k.routes place = some options := by
  obtain ⟨found, here, same⟩ := Option.map_eq_some_iff.mp seen
  rw [here, same]

theorem Tracked.recovered (tracked : h.Tracked name link) (named : want.name = name)
    (proper : want.Proper) (makes : h.MakesUp want)
    (returned : (update h.daemon.applied want h.world).1 = .ok ()) :
    Recovered h.installed want link (update h.daemon.applied want h.world).2.state := by
  have plan : Plan _ (want.entries link) _ _ := plan tracked.proper.toDistinct
  have covers : (h.course link).Covers _ _ := makes.covers proper tracked.proper
  have look : (update h.daemon.applied want h.world).2.state.look =
      ((h.course link).finish (want.entries link) (removedItems link h.daemon.applied want)
        ((h.daemon.applied.added want).entries link)).map :=
    update_look named tracked.found returned
  have present {e : Item × Content} := Course.finish_present tracked.course plan
    proper.toDistinct.functional covers (e := e)
  refine ⟨by rw [named]; exact update_found named tracked.found, fun r member => ?_,
    fun s shared => ?_, fun x installed unwanted => ?_⟩
  · apply routes_of_look
    rw [look]
    exact present
      ((mem_entries_main proper.toDistinct (isMain_routeEntry r)).mpr ⟨r, member, rfl⟩)
      (.inl (isMain_routeEntry r))
  · apply routes_of_look
    rw [look]
    -- The route of a shared address is set again each time.
    exact present (route_mem_entries.mpr (.inr ⟨s, shared, rfl, rfl⟩))
      (.inr (route_mem_entries.mpr (.inr ⟨s, shared, rfl, rfl⟩)))
  · rw [look]
    exact Course.finish_absent tracked.course plan covers installed unwanted

/-- One `Apply` keeps track of things, and a success makes up for the attempts in vain. -/
theorem Tracked.next (tracked : h.Tracked name link)
    (makes : ∀ want, h.Succeeds q → h.daemon.wants q = some want → h.MakesUp want) :
    (h.next q).Tracked name link ∧ (h.Succeeds q → ∃ want, h.daemon.wants q = some want ∧
      Recovered h.installed want link (h.next q).world.state) := by
  have ends := @apply_ends _ q.o q.cfg q.source h.world tracked.started tracked.configure
  have wants {r : Resolved} (validated : (h.daemon.validate q.o.listing q.cfg).1 = .ok r) :
      h.daemon.wants q = some (r.netconfOptions h.daemon.applied.name) := by
    rw [Daemon.wants, validated]
  have proper {r : Resolved} (validated : (h.daemon.validate q.o.listing q.cfg).1 = .ok r) :
      (r.netconfOptions h.daemon.applied.name).Proper :=
    Resolved.proper (validate_ok.mp validated).1 _
  have named (r : Resolved) : (r.netconfOptions h.daemon.applied.name).name = name := tracked.named
  rw [Succeeds, History.next]
  rw [Succeeds] at makes
  rw [show h.daemon.apply q.o q.cfg q.source h.world = h.outcome q from rfl] at ends
  generalize h.outcome q = out at ends makes
  cases ends with
  | refused _ setup =>
    refine ⟨⟨setup.started.trans tracked.started, setup.configure.trans tracked.configure,
      ?_, tracked.found, ?_, ?_⟩, fun succeeded => by cases succeeded⟩
    · exact (congrArg Options.name setup.applied).trans tracked.named
    · exact setup.applied.symm ▸ tracked.proper
    · rw [History.course, setup.applied]
      exact tracked.course
  | failed validated updated setup =>
    refine ⟨?_, fun succeeded => by cases succeeded⟩
    have given := tracked.giveUp (named _) (proper validated) setup
    rw [updated] at given
    dsimp only
    rw [wants validated]
    exact given
  | done validated updated started configure applied =>
    have returned := congrArg Prod.fst updated
    have makes := makes _ rfl (wants validated)
    have tracked' := tracked.finish (named _) (proper validated) makes returned started configure
      applied
    have recovered := tracked.recovered (named _) (proper validated) makes returned
    rw [updated] at tracked' recovered
    exact ⟨tracked', fun _ => ⟨_, wants validated, recovered⟩⟩

theorem Tracked.nextAll (tracked : h.Tracked name link) (requests : List Request)
    (makes : ∀ before q after want, requests = before ++ q :: after →
      (h.nextAll before).Succeeds q → (h.nextAll before).daemon.wants q = some want →
      (h.nextAll before).MakesUp want) : (h.nextAll requests).Tracked name link := by
  induction requests generalizing h with
  | nil => exact tracked
  | cons q requests ih =>
    have step := tracked.next fun want => makes [] q requests want rfl
    exact ih step.1 fun before q' after want split =>
      makes (q :: before) q' after want (by rw [split, List.cons_append])

end History

theorem found_of_apply {o : Options} {w : World Kernel} (returned : (Netconf.apply o w).1 = .ok ()) :
    ∃ link, w.state.links o.name = some link := by
  cases found : w.state.links o.name with
  | some link => exact ⟨link, rfl⟩
  | none =>
    have unknown : ∃ err w', Net.linkByName o.name w = (.ok (.error err), w') := by
      rw [Net.linkByName, Net.request, Faulty.call]
      cases w.faults w.calls with
      | some reason => exact ⟨_, _, rfl⟩
      | none =>
        rw [found]
        exact ⟨_, _, rfl⟩
    obtain ⟨err, w', unknown⟩ := unknown
    have failed : findLink o.name w = (.error s!"find interface {o.name}: {err}", w') := by
      rw [findLink, Faulty.bind_of_ok unknown]
      rfl
    rw [Netconf.apply, Faulty.bind_of_error failed] at returned
    cases returned

theorem start_tracked {d d' : Daemon} {device : Except String String} {w w' : World Kernel}
    (started : d.start device w = (.ok d', w')) (configure : d.cur.configure = true)
    (proper : ∀ name, (d.cur.netconfOptions name).Proper) :
    ∃ name link, History.Tracked name link { daemon := d', world := w' } := by
  cases device with
  | error err => cases started
  | ok name =>
    rw [start, if_pos configure] at started
    rcases applied : Netconf.apply (d.cur.netconfOptions name) w with ⟨err | _, w₁⟩
    · rw [applied] at started
      cases started
    · rw [applied] at started
      cases started
      have returned := congrArg Prod.fst applied
      obtain ⟨link, found⟩ := found_of_apply returned
      have look := apply_look rfl found returned
      have there := (apply_does (show (d.cur.netconfOptions name).name = name from rfl)).links found
      rw [applied] at look there
      refine ⟨name, link, rfl, configure, rfl, there, proper name, ?_, fun _ installed => ?_⟩
      · intro e member _ _
        show w'.state.look e.1 = some e.2
        rw [look]
        exact writeAll_setting (proper name).toDistinct.functional member _
      · cases installed

/-- Every configuration that is applied is there, and nothing is left of attempts that failed
before, provided that each one that succeeds makes up for those that failed. -/
theorem recovers {listing : Listing} {cfg : Config} {ro : ResolveOptions} {r : Resolved}
    (resolved : (resolveWith listing cfg ro).1 = .ok r) (configure : r.configure = true)
    {sourceAddr : SourceAddr} {o : Occasion} {device : Except String String} {w w' : World Kernel}
    {d : Daemon} (started : (Daemon.new r sourceAddr o).start device w = (.ok d, w'))
    (requests : List Request)
    (makes : ∀ before q after want, requests = before ++ q :: after →
      (History.nextAll ⟨d, w', [], ∅⟩ before).Succeeds q →
      (History.nextAll ⟨d, w', [], ∅⟩ before).daemon.wants q = some want →
      (History.nextAll ⟨d, w', [], ∅⟩ before).MakesUp want) :
    ∀ before q after, requests = before ++ q :: after →
      (History.nextAll ⟨d, w', [], ∅⟩ before).Succeeds q →
      (History.nextAll ⟨d, w', [], ∅⟩ before).Mended q := by
  have configured : (Daemon.new r sourceAddr o).cur.configure = true :=
    (Resolved.configure_congr (r.loadPoolState_config o)).trans configure
  have proper (name : String) : ((Daemon.new r sourceAddr o).cur.netconfOptions name).Proper :=
    (r.loadPoolState_options o name).symm ▸ Resolved.proper resolved name
  obtain ⟨name, link, tracked⟩ := start_tracked started configured proper
  intro before q after split succeeds
  have earlier : (History.nextAll ⟨d, w', [], ∅⟩ before).Tracked name link := by
    refine tracked.nextAll before fun before' q' after' want split' => ?_
    exact makes before' q' (after' ++ q :: after) want (by rw [split, split']; simp)
  obtain ⟨want, wanted, recovered⟩ :=
    (earlier.next fun want => makes before q after want split).2 succeeds
  exact ⟨want, link, wanted, recovered⟩

def routedPrefix : Prefix := .of (.v6 (0x20010db80064#128 <<< 80) "") 96

/-- A translator with an interface that has one route, or none. -/
def routedConfig (routed : Bool) : Config where
  pfx := routedPrefix
  ipv4Address := .v4 0xc0000201#32
  interface :=
    { sysctl := some false, autoRoutes := some false
      routes := if routed then [{ pfx := .of (.v4 0x0a000000#32) 8 }] else [] }

def routedOptions (routed : Bool) (name : String) : Options where
  name := name
  addresses := []
  routes4 := if routed then [{ pfx := .of (.v4 0x0a000000#32) 8 }] else []
  routes6 := []
  forward4 := false
  forward6 := false
  shared := none

/-- What such a configuration resolves to. -/
structure Routed (routed : Bool) (r : Resolved) : Prop where
  pool : r.pool = none
  interface : r.config.interface = (routedConfig routed).interface.filled
  httpListen : r.httpListen = Config.httpListen ""
  logJSON : r.logJSON = true
  options : ∀ name, r.netconfOptions name = routedOptions routed name

theorem exists_routed (routed : Bool) :
    ∃ r, (resolveWith .standard (routedConfig routed)
      { sourceAddr := some nowhere }).1 = .ok r ∧ Routed routed r := by
  obtain ⟨f, b, s, warnings, r, resolves, resolved, rfl, -⟩ := exists_resolves_of_clean .standard
    { sourceAddr := some nowhere } (routedConfig routed) (by revert routed; decide +kernel)
    (by revert routed; decide +kernel) (show parseLevel "" = .ok .info by decide +kernel)
    (show parseFormat "" = .ok true by decide +kernel) (show List.mapM parseKind [] = .ok [] from rfl)
  obtain ⟨b₁, b₂, b₃, b₄, e⟩ := examine_passes.mp resolves.examined
  have config := e.config
  have shared : f.sharing = ⟨none, .zero, none⟩ := ((resolveCLAT_none rfl).mp e.sharing).1
  have interface : f.config.interface = (routedConfig routed).interface.filled := by
    rw [config]
    rfl
  refine ⟨_, resolved, resolves.unpooled rfl, interface, ?_, rfl, fun name => ?_⟩
  · show Config.httpListen f.config.http.listen = Config.httpListen ""
    rw [config]
    rfl
  · have routes : f.routes (Listing.standard.entries s.table) =
        (routedOptions routed name).routes4 := by
      have none : f.autoRoutes (Listing.standard.entries s.table) = [] := by
        rw [Findings.autoRoutes, interface]
        exact if_neg Bool.false_ne_true
      rw [Findings.routes, none, interface]
      cases routed <;> rfl
    have addresses : f.addresses = [] := by
      rw [Findings.addresses, shared, interface]
      rfl
    have sysctl (r : Resolved) (same : r.config = f.config) : r.sysctl = false := by
      rw [Resolved.sysctl, same, interface]
      exact Bool.and_false _
    rw [Resolved.netconfOptions, Resolved.forward4, Resolved.forward6, sysctl _ rfl]
    simp only [Findings.resolved, routes, addresses, shared]
    cases routed <;> rfl

theorem Routed.immutable {a b : Bool} {r r' : Resolved} (old : Routed a r) (new : Routed b r') :
    immutableChanges r r' = [] := by
  have configure : r'.configure = r.configure := by
    rw [Resolved.configure, Resolved.configure, new.interface, old.interface]
    rfl
  have sysctl : r'.sysctl = r.sysctl := by
    rw [Resolved.sysctl, Resolved.sysctl, configure, new.interface, old.interface]
    rfl
  refine immutableChanges_eq_nil ?_ ?_ configure sysctl (new.httpListen.trans old.httpListen.symm)
    (new.logJSON.trans old.logJSON.symm)
  · rw [new.interface, old.interface]
    rfl
  · rw [new.interface, old.interface]
    rfl

def routedRequest (routed : Bool) : Request := ⟨.plain, routedConfig routed, "api"⟩

theorem resolveWith_none {listing : Listing} {cfg : Config} {ro : ResolveOptions}
    (none : ro.existingPool = none) : (resolveWith listing cfg ro).2 = Option.none := by
  have touched : ro.touched cfg = Option.none := by
    rw [ResolveOptions.touched]
    split
    · rw [none]
      split <;> rfl
    · exact none
  have fresh : ro.reuses cfg = false := by
    rw [ResolveOptions.reuses, none]
    cases cfg.dynamicPool <;> rfl
  rw [resolveWith]
  split
  · exact touched
  · split
    · exact touched
    · rw [fresh]
      exact none

/-- A daemon that runs with such a configuration is asked to take over another one. -/
theorem apply_routed {a : Bool} {d : Daemon} (source : d.sourceAddr = nowhere)
    (cur : Routed a d.cur) (up : d.started = true) (b : Bool) (w : World Kernel) :
    d.wants (routedRequest b) = some (routedOptions b d.applied.name) ∧
    ∃ r, Routed b r ∧ d.apply .plain (routedConfig b) "api" w =
      match update d.applied (routedOptions b d.applied.name) w with
      | (.error err, w) => (.error (.update err), d.failed (.update err), w)
      | (.ok _, w) => (.ok (), d.switched r (routedOptions b d.applied.name) "api", w) := by
  obtain ⟨r, resolved, target⟩ := exists_routed b
  have same : d.resolveOptions = { sourceAddr := some nowhere } := by
    rw [resolveOptions, cur.pool, source]
  have validated : (d.validate .standard (routedConfig b)).1 = .ok r :=
    validate_ok.mpr ⟨by rw [same]; exact resolved, cur.immutable target⟩
  have consulted : d.consulted (resolveWith .standard (routedConfig b) d.resolveOptions).2 = d := by
    rw [resolveWith_none cur.pool, consulted, ← cur.pool]
  have configure : r.configure = true := by
    rw [Resolved.configure, target.interface]
    rfl
  have alone : d.exchangePools .plain r = (r, d) := by
    rw [exchangePools, target.pool]
    rfl
  refine ⟨?_, r, target, ?_⟩
  · rw [wants, show (d.validate (routedRequest b).o.listing (routedRequest b).cfg).1 = .ok r from
      validated, ← target.options]
  · rw [apply_of_ok (o := .plain) validated]
    rw [show Occasion.plain.listing = .standard from rfl, consulted, switch_eq up configure,
      target.options]
    rcases update d.applied (routedOptions b d.applied.name) w with ⟨_ | _, w'⟩
    all_goals simp only [alone]

/-- The interface is there, and one call is going to be refused. -/
def refusingWorld (call : Nat) : World Kernel :=
  { bareWorld with faults := fun n => if n = call then some "no buffer space available" else none }

/-- A daemon whose interface has been configured with the route. -/
structure Started (call : Nat) (r : Resolved) (d : Daemon) (w : World Kernel) : Prop where
  resolved : (resolveWith .standard (routedConfig true)
    { sourceAddr := some nowhere }).1 = .ok r
  configure : r.configure = true
  started : (Daemon.new r nowhere .plain).start (.ok "clat0") (refusingWorld call) = (.ok d, w)
  source : d.sourceAddr = nowhere
  cur : Routed true d.cur
  up : d.started = true
  applied : d.applied = routedOptions true "clat0"
  world : w = (Netconf.apply (routedOptions true "clat0") (refusingWorld call)).2

theorem exists_started {call : Nat} (later : call ∈ [3, 6]) : ∃ r d w, Started call r d w := by
  obtain ⟨r, resolved, target⟩ := exists_routed true
  have cur : (Daemon.new r nowhere .plain).cur = r := by
    show r.loadPoolState .plain = r
    rw [Resolved.loadPoolState]
    cases r.stateFile <;> rfl
  have configure : r.configure = true := by
    rw [Resolved.configure, target.interface]
    rfl
  have returned : ∀ call ∈ [3, 6],
      (Netconf.apply (routedOptions true "clat0") (refusingWorld call)).1 = .ok () := by
    decide +kernel
  refine ⟨r, (Daemon.new r nowhere .plain).running (routedOptions true "clat0"), _, resolved,
    configure, ?_, rfl, cur.symm ▸ target, rfl, rfl, rfl⟩
  rw [start, cur, if_pos configure, target.options]
  have returned := returned call later
  generalize Netconf.apply (routedOptions true "clat0") (refusingWorld call) = out at returned ⊢
  obtain ⟨result, w⟩ := out
  obtain rfl : result = .ok () := returned
  rfl

theorem Started.next_failed {call : Nat} {r : Resolved} {d : Daemon} {w : World Kernel}
    (started : Started call r d w) (b : Bool) {err : String}
    (refused : (update (routedOptions true "clat0") (routedOptions b "clat0") w).1 = .error err) :
    History.next ⟨d, w, [], ∅⟩ (routedRequest b) = ⟨d.failed (.update err),
      (update (routedOptions true "clat0") (routedOptions b "clat0") w).2,
      [routedOptions b "clat0"], ∅ ∪ {x | w.state.look x = none ∧
        (update (routedOptions true "clat0") (routedOptions b "clat0") w).2.state.look x ≠ none}⟩ := by
  obtain ⟨wants, r', -, applied⟩ := apply_routed started.source started.cur started.up b w
  rw [started.applied, show (routedOptions true "clat0").name = "clat0" from rfl] at wants applied
  have outcome : History.outcome ⟨d, w, [], ∅⟩ (routedRequest b) = _ := applied
  generalize update (routedOptions true "clat0") (routedOptions b "clat0") w = out at *
  obtain ⟨result, w'⟩ := out
  obtain rfl : result = .error err := refused
  rw [History.next, outcome]
  dsimp only
  rw [wants]
  rfl

theorem Started.next_done {call : Nat} {r : Resolved} {d : Daemon} {w w' : World Kernel}
    (started : Started call r d w) {err : ApplyError} {failed : List Options} {installed : Set Item}
    (done : (update (routedOptions true "clat0") (routedOptions true "clat0") w').1 = .ok ()) :
    History.Succeeds ⟨d.failed err, w', failed, installed⟩ (routedRequest true) ∧
      (d.failed err).wants (routedRequest true) = some (routedOptions true "clat0") ∧
      (History.next ⟨d.failed err, w', failed, installed⟩ (routedRequest true)).world =
        (update (routedOptions true "clat0") (routedOptions true "clat0") w').2 := by
  obtain ⟨wants, r', -, applied⟩ := @apply_routed _ (d.failed err) started.source started.cur
    started.up true w'
  rw [show (d.failed err).applied = _ from started.applied,
    show (routedOptions true "clat0").name = "clat0" from rfl] at wants applied
  have outcome : History.outcome ⟨d.failed err, w', failed, installed⟩ (routedRequest true) = _ :=
    applied
  generalize update (routedOptions true "clat0") (routedOptions true "clat0") w' = out at *
  obtain ⟨result, w''⟩ := out
  obtain rfl : result = .ok () := done
  refine ⟨?_, wants, ?_⟩
  · rw [History.Succeeds, outcome]
  · rw [History.next, outcome]

/-- Nothing is lost when a configuration that could not be applied is applied again. -/
theorem History.makesUp_of_same {h : History} {want : Options} (same : ∀ b ∈ h.failed, b = want) :
    h.MakesUp want where
  stays := by
    intro r member _ b listed
    rw [same b listed]
    exact member
  within := by
    intro b listed
    rw [same b listed]
    exact ⟨fun p member => .inr member, fun r member => .inr ⟨r, member, rfl⟩,
      fun s shared => .inr ⟨s, shared, rfl, rfl⟩, fun spec member => .inr member⟩

/-- Configuring the interface is refused at the first call, and the same configuration is
applied again. -/
theorem recovers_retried : ∃ r d w, Started 3 r d w ∧
    (History.nextAll ⟨d, w, [], ∅⟩ [routedRequest true]).Succeeds (routedRequest true) ∧
    (History.nextAll ⟨d, w, [], ∅⟩ [routedRequest true]).Mended (routedRequest true) := by
  obtain ⟨r, d, w, started⟩ := exists_started (show 3 ∈ [3, 6] by decide)
  have refused : (update (routedOptions true "clat0") (routedOptions true "clat0") w).1 =
      .error "find interface clat0: no buffer space available" := by
    rw [started.world]
    decide +kernel
  have done : (update (routedOptions true "clat0") (routedOptions true "clat0")
      (update (routedOptions true "clat0") (routedOptions true "clat0") w).2).1 = .ok () := by
    rw [started.world]
    decide +kernel
  have after : History.nextAll ⟨d, w, [], ∅⟩ [routedRequest true] = _ :=
    started.next_failed true refused
  obtain ⟨succeeds, wants, -⟩ := started.next_done done
  refine ⟨r, d, w, started, after ▸ succeeds, ?_⟩
  refine recovers started.resolved started.configure started.started
    [routedRequest true, routedRequest true] ?_ [routedRequest true] _ [] rfl (after ▸ succeeds)
  intro before q later want split succeeded wanted
  rcases before with _ | ⟨q', _ | ⟨q'', before⟩⟩
  · exact History.makesUp_of_same fun b listed => by cases listed
  · obtain ⟨rfl, rfl, rfl⟩ : routedRequest true = q' ∧ routedRequest true = q ∧ later = [] := by
      simpa using split
    rw [after] at wanted ⊢
    obtain rfl : routedOptions true "clat0" = want := Option.some.inj (wants.symm.trans wanted)
    exact History.makesUp_of_same fun b listed => List.mem_singleton.mp listed
  · simp at split

/-- The route is removed for another configuration, the interface cannot be brought up, and
the first configuration is applied again: the route is not there any more. -/
theorem recovers_fails : ∃ r d w, Started 6 r d w ∧
    (History.nextAll ⟨d, w, [], ∅⟩ [routedRequest false]).Succeeds (routedRequest true) ∧
    ¬ (History.nextAll ⟨d, w, [], ∅⟩ [routedRequest false]).Mended (routedRequest true) := by
  obtain ⟨r, d, w, started⟩ := exists_started (show 6 ∈ [3, 6] by decide)
  have refused : (update (routedOptions true "clat0") (routedOptions false "clat0") w).1 =
      .error "set clat0 up: no buffer space available" := by
    rw [started.world]
    decide +kernel
  have done : (update (routedOptions true "clat0") (routedOptions true "clat0")
      (update (routedOptions true "clat0") (routedOptions false "clat0") w).2).1 = .ok () := by
    rw [started.world]
    decide +kernel
  have absent : (update (routedOptions true "clat0") (routedOptions true "clat0")
      (update (routedOptions true "clat0") (routedOptions false "clat0") w).2).2.state.routes
        ⟨mainTable, .of (.v4 0x0a000000#32) 8, 0⟩ = none := by
    rw [started.world]
    decide +kernel
  have after : History.nextAll ⟨d, w, [], ∅⟩ [routedRequest false] = _ :=
    started.next_failed false refused
  refine ⟨r, d, w, started, ?_⟩
  rw [after]
  obtain ⟨succeeds, wants, world⟩ := started.next_done done
  refine ⟨succeeds, ?_⟩
  rintro ⟨want, link, wanted, recovered⟩
  obtain rfl : routedOptions true "clat0" = want := Option.some.inj (wants.symm.trans wanted)
  have present := recovered.routes { pfx := .of (.v4 0x0a000000#32) 8 } (by decide)
  rw [world] at present
  exact absurd (absent.symm.trans present) (Option.some_ne_none _).symm

end Daemon

end Clatto
