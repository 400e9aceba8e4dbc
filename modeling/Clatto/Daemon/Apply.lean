import Clatto.Config.Accepted
import Clatto.Daemon.Daemon
import Clatto.Netconf.Reconfigure

/-! What an `Apply` can do to a daemon, and what a configuration asks of the kernel. -/

namespace Clatto

open Netip Addrmap Netconf Config

namespace Daemon

variable {d : Daemon} {o : Occasion} {listing : Listing} {cfg : Config} {r : Resolved}
  {source : String} {w : World Kernel}

theorem validate_daemon (d : Daemon) (listing : Listing) (cfg : Config) :
    (d.validate listing cfg).2 = d.consulted (resolveWith listing cfg d.resolveOptions).2 := by
  rw [validate]
  split
  · rfl
  · dsimp only
    split <;> rfl

theorem validate_ok :
    (d.validate listing cfg).1 = .ok r ↔
      (resolveWith listing cfg d.resolveOptions).1 = .ok r ∧ immutableChanges d.cur r = [] := by
  rw [validate]
  split
  · rename_i found
    rw [found]
    constructor
    · intro accepted
      cases accepted
    · rintro ⟨accepted, -⟩
      cases accepted
  · rename_i r' found
    rw [found]
    dsimp only
    split
    · rename_i changed
      constructor
      · intro accepted
        cases accepted
      · rintro ⟨accepted, same⟩
        cases accepted
        exact absurd same changed
    · rename_i same
      constructor
      · intro accepted
        cases accepted
        exact ⟨rfl, not_not.mp same⟩
      · rintro ⟨accepted, -⟩
        cases accepted
        rfl

theorem validate_error {err : ApplyError} (refused : (d.validate listing cfg).1 = .error err) :
    ∃ reason, err = .invalid reason := by
  rw [validate] at refused
  split at refused
  · cases refused
    exact ⟨_, rfl⟩
  · dsimp only at refused
    split at refused <;> cases refused
    exact ⟨_, rfl⟩

theorem apply_of_error {err : ApplyError} (refused : (d.validate o.listing cfg).1 = .error err) :
    d.apply o cfg source w =
      (.error err, (d.consulted (resolveWith o.listing cfg d.resolveOptions).2).failed err, w) := by
  rw [apply, ← d.validate_daemon o.listing cfg]
  rcases checked : d.validate o.listing cfg with ⟨result, d'⟩
  rw [checked] at refused
  obtain rfl : result = .error err := refused
  rfl

theorem apply_of_ok (accepted : (d.validate o.listing cfg).1 = .ok r) :
    d.apply o cfg source w =
      (d.consulted (resolveWith o.listing cfg d.resolveOptions).2).switch o r source w := by
  rw [apply, ← d.validate_daemon o.listing cfg]
  rcases checked : d.validate o.listing cfg with ⟨result, d'⟩
  rw [checked] at accepted
  obtain rfl : result = .ok r := accepted
  rfl

theorem switch_not_invalid (reason : String) :
    (d.switch o r source w).1 ≠ .error (.invalid reason) := by
  rw [switch]
  dsimp only
  split <;> exact fun invalid => by cases invalid

/-- A rejected configuration has left its traces at most in the pool and in the status. -/
theorem apply_invalid {reason : String}
    (rejected : (d.apply o cfg source w).1 = .error (.invalid reason)) :
    (d.apply o cfg source w).2 =
      ((d.consulted (resolveWith o.listing cfg d.resolveOptions).2).failed (.invalid reason), w) := by
  cases checked : (d.validate o.listing cfg).1 with
  | error err =>
    rw [apply_of_error checked] at rejected ⊢
    cases rejected
    rfl
  | ok r =>
    rw [apply_of_ok checked] at rejected
    exact absurd rejected (switch_not_invalid reason)

/-- Two states of a daemon whose interface is configured alike. -/
structure SameSetup (d d' : Daemon) : Prop where
  started : d'.started = d.started
  applied : d'.applied = d.applied
  configure : d'.cur.configure = d.cur.configure

end Daemon

theorem Config.Resolved.loadPoolState_config (r : Resolved) (o : Occasion) :
    (r.loadPoolState o).config = r.config := by
  rw [loadPoolState]
  split <;> rfl

theorem Config.Resolved.loadPoolState_settings (r : Resolved) (o : Occasion) :
    (r.loadPoolState o).httpListen = r.httpListen ∧ (r.loadPoolState o).logJSON = r.logJSON := by
  rw [loadPoolState]
  split <;> exact ⟨rfl, rfl⟩

theorem Config.Resolved.loadPoolState_plain (r : Resolved) : r.loadPoolState .plain = r := by
  rw [loadPoolState]
  cases r.stateFile <;> rfl

theorem Config.Resolved.loadPoolState_options (r : Resolved) (o : Occasion) (name : String) :
    (r.loadPoolState o).netconfOptions name = r.netconfOptions name := by
  rw [loadPoolState]
  split <;> rfl

theorem Config.Resolved.savePoolState_config (r : Resolved) (o : Occasion) (force : Bool) :
    (r.savePoolState o force).config = r.config := by
  rw [savePoolState]
  split <;> rfl

theorem Config.Resolved.loadPoolState_table (r : Resolved) (o : Occasion) :
    (r.loadPoolState o).table = r.table := by
  rw [loadPoolState]
  split <;> rfl

theorem Config.Resolved.savePoolState_table (r : Resolved) (o : Occasion) (force : Bool) :
    (r.savePoolState o force).table = r.table := by
  rw [savePoolState]
  split <;> rfl

theorem Config.Resolved.configure_congr {r r' : Resolved} (same : r'.config = r.config) :
    r'.configure = r.configure := by
  rw [configure, configure, same]

theorem Config.configure_of_immutable {old new : Resolved}
    (same : immutableChanges old new = []) : new.configure = old.configure := by
  by_contra different
  rw [immutableChanges, if_pos fun same : old.configure = new.configure => different same.symm]
    at same
  simp at same

namespace Daemon

variable {d : Daemon} {o : Occasion} {cfg : Config} {r : Resolved} {source : String}
  {w : World Kernel}

theorem exchangePools_setup (d : Daemon) (o : Occasion) (r : Resolved) :
    SameSetup d (d.exchangePools o r).2 ∧ (d.exchangePools o r).1.config = r.config ∧
      ∀ name, (d.exchangePools o r).1.netconfOptions name = r.netconfOptions name := by
  rw [exchangePools]
  split
  · exact ⟨⟨rfl, rfl, Resolved.configure_congr (d.cur.savePoolState_config o true)⟩,
      r.loadPoolState_config o, r.loadPoolState_options o⟩
  · exact ⟨⟨rfl, rfl, rfl⟩, rfl, fun _ => rfl⟩

theorem switch_eq (up : d.started = true) (configure : r.configure = true) :
    d.switch o r source w =
      match update d.applied (r.netconfOptions d.applied.name) w with
      | (.error err, w) => (.error (.update err), (d.exchangePools o r).2.failed (.update err), w)
      | (.ok _, w) => (.ok (), (d.exchangePools o r).2.switched (d.exchangePools o r).1
          (r.netconfOptions d.applied.name) source, w) := by
  obtain ⟨setup, config, options⟩ := d.exchangePools_setup o r
  rw [switch]
  dsimp only
  rw [Daemon.configure, setup.started, setup.applied, options, Resolved.configure_congr config,
    if_pos ⟨up, configure⟩]
  dsimp only
  rcases update d.applied (r.netconfOptions d.applied.name) w with ⟨_ | _, w'⟩ <;> rfl

/-- How an `Apply` ends when the interface is up: it is refused for the configuration, or it
ends as `Update` does. -/
inductive Ends (d : Daemon) (o : Occasion) (cfg : Config) (w : World Kernel) :
    Except ApplyError Unit × Daemon × World Kernel → Prop
  | refused {reason : String} {d' : Daemon}
      (validated : (d.validate o.listing cfg).1 = .error (.invalid reason))
      (setup : SameSetup d d') : Ends d o cfg w (.error (.invalid reason), d', w)
  | failed {r : Resolved} {err : String} {d' : Daemon} {w' : World Kernel}
      (validated : (d.validate o.listing cfg).1 = .ok r)
      (updated : update d.applied (r.netconfOptions d.applied.name) w = (.error err, w'))
      (setup : SameSetup d d') : Ends d o cfg w (.error (.update err), d', w')
  | done {r : Resolved} {d' : Daemon} {w' : World Kernel}
      (validated : (d.validate o.listing cfg).1 = .ok r)
      (updated : update d.applied (r.netconfOptions d.applied.name) w = (.ok (), w'))
      (started : d'.started = true) (configure : d'.cur.configure = true)
      (applied : d'.applied = r.netconfOptions d.applied.name) : Ends d o cfg w (.ok (), d', w')

theorem apply_ends (up : d.started = true) (configure : d.cur.configure = true) :
    d.Ends o cfg w (d.apply o cfg source w) := by
  cases checked : (d.validate o.listing cfg).1 with
  | error err =>
    obtain ⟨reason, rfl⟩ := validate_error checked
    rw [apply_of_error checked]
    exact .refused checked ⟨rfl, rfl, rfl⟩
  | ok r =>
    have configure' : r.configure = true :=
      (configure_of_immutable (validate_ok.mp checked).2).trans configure
    rw [apply_of_ok checked]
    generalize resolveWith o.listing cfg d.resolveOptions = found
    obtain ⟨setup, config, -⟩ := (d.consulted found.2).exchangePools_setup o r
    rw [switch_eq (show (d.consulted found.2).started = true from up) configure']
    rcases updated : update d.applied (r.netconfOptions d.applied.name) w with ⟨err | _, w'⟩
    · rw [show (d.consulted found.2).applied = d.applied from rfl, updated]
      exact .failed checked updated ⟨setup.started, setup.applied, setup.configure⟩
    · rw [show (d.consulted found.2).applied = d.applied from rfl, updated]
      exact .done checked updated (setup.started.trans up)
        ((Resolved.configure_congr config).trans configure') rfl

end Daemon

/-- Options whose routes are sorted by family. -/
structure Netconf.Options.Proper (o : Options) : Prop extends o.Distinct where
  four : ∀ r ∈ o.routes4, r.pfx.addr.is4 = true
  six : ∀ r ∈ o.routes6, r.pfx.addr.is4 = false

/-- A configuration that was accepted has one route for each prefix, and a table for the
shared address that is not the main one. -/
theorem Config.Resolved.proper {listing : Listing} {cfg : Config} {ro : ResolveOptions}
    {r : Resolved} (resolved : (resolveWith listing cfg ro).1 = .ok r) (name : String) :
    (r.netconfOptions name).Proper := by
  obtain ⟨f, b, s, examined, built, _, level, json, kinds, -, -, -, rfl⟩ := resolves_of_ok resolved
  obtain ⟨b₁, b₂, b₃, b₄, e⟩ := examine_passes.mp examined
  refine { keys := ?_, apart := ?_, four := ?_, six := ?_ }
  · have perm := List.filter_append_perm (fun route : Netconf.Route => route.pfx.addr.is4)
      (f.routes (listing.entries s.table))
    have nodup : ((f.routes (listing.entries s.table)).map Route.key).Nodup := by
      refine List.Nodup.of_map RouteKey.pfx ?_
      rw [List.map_map]
      exact firstOfEach.nodup_keys _ _ _
    exact ((perm.map Route.key).nodup_iff).mpr nodup
  · intro shared found
    have sharing : f.sharing.shared = some shared := found
    cases configured : cfg.withTranslator.clat with
    | none =>
      obtain ⟨nothing, -⟩ := (resolveCLAT_none configured).mp e.sharing
      rw [nothing] at sharing
      cases sharing
    | some c =>
      obtain ⟨filters, a, shares, sharing'⟩ := (resolveCLAT_some configured).mp e.sharing
      rw [sharing'] at sharing
      cases sharing
      obtain ⟨-, main, -, positive, -⟩ := shares.table
      exact ⟨positive, main⟩
  · intro route member
    exact (List.mem_filter.mp member).2
  · intro route member
    simpa using (List.mem_filter.mp member).2

end Clatto
