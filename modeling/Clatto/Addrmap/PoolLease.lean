import Clatto.Addrmap.PoolRuns
import Clatto.Lib.Lease

/-! A pool leases its addresses: how long a host can rely on the address it was given. -/

namespace Clatto.Addrmap

open Netip Lease

def DynHost.tenant (d : DynHost) : Tenant Addr where
  name := d.v6
  used := d.lastUse.toInt
  asleep := d.dormant

namespace Pool

/-- Offsets are the places, and the hosts are the tenants. -/
def tenancy (p : Pool) : Tenancy (BitVec 32) Addr := fun off => (p.table off).map DynHost.tenant

def terms (p : Pool) : Terms where
  minLease := p.minLease.seconds.toInt
  maxLease := p.maxLease.seconds.toInt

inductive Call where
  | lookup4 (a : Addr)
  | lookup6 (a : Addr) (allocate : Bool)
  | maintain

def perform (p : Pool) (m : Moment) : Call → Pool
  | .lookup4 a => (p.lookup4 a m).2
  | .lookup6 a allocate => (p.lookup6 a allocate m).2
  | .maintain => p.maintain m

/-- The pool after calls at given moments. -/
def performAll (p : Pool) (calls : List (Call × Moment)) : Pool :=
  calls.foldl (fun p c => p.perform c.2 c.1) p

/-- The clock does not go back from `s` through the calls to `t`. -/
def Ticks (s : Time) (calls : List (Call × Moment)) (t : Time) : Prop :=
  match calls with
  | [] => s.ns ≤ t.ns
  | c :: rest => s.ns ≤ c.2.now.ns ∧ Ticks c.2.now rest t

variable {p p' : Pool} {off : BitVec 32} {now : Int64}

theorem Writes.tenancy {d : DynHost} {dirty : Bool} (writes : p.Writes off (some d) dirty p') :
    p'.tenancy = Function.update p.tenancy off (some d.tenant) := by
  funext l
  rw [Pool.tenancy, writes.table]
  by_cases same : l = off
  · subst same
    simp
  · simp [Function.update_of_ne same, Pool.tenancy]

theorem tenancy_some {x : Tenant Addr} :
    p.tenancy off = some x ↔ ∃ d, p.table off = some d ∧ d.tenant = x := by
  simp [tenancy, Option.map_eq_some_iff]

theorem Unknown.tenancy {a : Addr} (unknown : p.Unknown a) (l : BitVec 32) (y : Tenant Addr)
    (held : p.tenancy l = some y) : y.name ≠ a := by
  obtain ⟨d, here, rfl⟩ := tenancy_some.mp held
  exact unknown l d here

theorem Sound.vacant_of_free (sound : p.Sound) (free : p.isFree off = true) :
    p.table off = none := by
  simp only [isFree, Bool.and_eq_true, Bool.not_eq_true'] at free
  exact sound.vacant free.1.2

theorem Asked.move {a : Addr} {allocate : Bool} {answer : Option Addr} (sound : p.Sound)
    (asked : p.Asked a allocate now answer p') :
    Move p.terms p.Full now.toInt p.tenancy p'.tenancy := by
  cases asked with
  | @known d _ held own awake writes =>
    have move := @Move.renew _ _ _ p.terms p.Full now.toInt p.tenancy _ _
      (tenancy_some.mpr ⟨d, held, rfl⟩)
    rw [writes.tenancy]
    simpa [DynHost.tenant, DynHost.usedAt, awake] using move
  | refused => exact .stay
  | @woken d _ _ held own asleep writes =>
    rw [writes.tenancy]
    exact .renew (tenancy_some.mpr ⟨d, held, rfl⟩)
  | granted _ _ _ free writes =>
    rw [writes.tenancy]
    exact .grant (by rw [tenancy, sound.vacant_of_free free]; rfl) a
  | @stolen d _ _ unknown full held asleep _ writes =>
    rw [writes.tenancy]
    exact .steal full (tenancy_some.mpr ⟨d, held, rfl⟩) asleep unknown.tenancy
  | exhausted => exact .stay

theorem Replied.move {answer : Option Addr} (replied : p.Replied off now answer p') :
    Move p.terms p.Full now.toInt p.tenancy p'.tenancy := by
  cases replied with
  | silent => exact .stay
  | @answer d _ held awake writes =>
    have move := @Move.renew _ _ _ p.terms p.Full now.toInt p.tenancy _ _
      (tenancy_some.mpr ⟨d, held, rfl⟩)
    rw [writes.tenancy]
    simpa [DynHost.tenant, DynHost.usedAt, awake] using move

theorem not_idle {d : DynHost} {t : Time} {lease : Duration} (past : d.lastUse.toInt ≤ t.unix.toInt)
    (early : t.unix.toInt ≤ d.lastUse.toInt + lease.seconds.toInt) :
    d.idle lease.seconds t.unix = false := by
  rw [DynHost.idle, decide_eq_false_iff_not]
  exact Time.not_expired past early

theorem Maintained.move {t : Time} (aged : p.Maintained t.unix p') :
    Move p.terms p.Full t.unix.toInt p.tenancy p'.tenancy := by
  refine .age (fun off x held past awake early => ?_) (fun off x held past early => ?_)
  · obtain ⟨d, here, rfl⟩ := tenancy_some.mp held
    have awake : d.dormant = false := awake
    have busy : d.idle p.minLease.seconds t.unix = false := not_idle past early
    refine tenancy_some.mpr ⟨d, ?_, rfl⟩
    rw [aged.table, here, Option.bind_some, DynHost.aged, DynHost.rested]
    simp [awake, busy]
  · obtain ⟨d, here, rfl⟩ := tenancy_some.mp held
    have busy : d.idle p.maxLease.seconds t.unix = false := not_idle past early
    have lastUse : (d.rested p.minLease.seconds t.unix).idle p.maxLease.seconds t.unix = false := by
      rw [DynHost.rested]
      split <;> exact busy
    refine ⟨(d.rested p.minLease.seconds t.unix).dormant, tenancy_some.mpr
      ⟨d.rested p.minLease.seconds t.unix, ?_, ?_⟩⟩
    · rw [aged.table, here, Option.bind_some, DynHost.aged]
      simp [lastUse]
    · rw [DynHost.rested]
      split <;> rfl

theorem Asked.keeps {a : Addr} {allocate : Bool} {answer : Option Addr}
    (asked : p.Asked a allocate now answer p') : p.Keeps p' := by
  cases asked with
  | known _ _ _ writes => exact writes.keeps
  | refused => exact .refl p
  | woken _ _ _ _ writes => exact writes.keeps
  | granted _ _ _ _ writes => exact writes.keeps
  | stolen _ _ _ _ _ _ writes => exact writes.keeps
  | exhausted => exact ⟨rfl, rfl, rfl, rfl⟩

theorem Replied.keeps {answer : Option Addr} (replied : p.Replied off now answer p') :
    p.Keeps p' := by
  cases replied with
  | silent => exact .refl p
  | answer _ _ writes => exact writes.keeps

theorem perform_move (sound : p.Sound) (m : Moment) (c : Call) :
    (p.perform m c).Sound ∧ p.Keeps (p.perform m c) ∧
      Move p.terms p.Full m.now.unix.toInt p.tenancy (p.perform m c).tenancy := by
  cases c with
  | lookup4 a =>
    cases four : a.as4 with
    | error fault =>
      rw [perform, lookup4, four]
      exact ⟨sound, .refl p, .stay⟩
    | ok a4 =>
      obtain ⟨answer, -, replied⟩ := lookup4_replied sound four m
      exact ⟨replied.sound sound, replied.keeps, replied.move⟩
  | lookup6 a allocate =>
    have asked := lookup6_asked sound a allocate m
    exact ⟨asked.sound sound, asked.keeps, asked.move sound⟩
  | maintain =>
    have aged := maintain_maintained m sound
    exact ⟨aged.sound, aged.keeps, aged.move⟩

theorem Keeps.terms (keeps : p.Keeps p') : p'.terms = p.terms := by
  rw [Pool.terms, Pool.terms, keeps.minLease, keeps.maxLease]

section Runs

variable {a : Addr} {since : Int} {x : Tenant Addr} {s t : Time}

theorem Ticks.mono {calls : List (Call × Moment)} (ticks : Ticks s calls t) : s.ns ≤ t.ns := by
  induction calls generalizing s with
  | nil => exact ticks
  | cons c rest ih => exact Int.le_trans ticks.1 (ih ticks.2)

theorem performAll_sound (calls : List (Call × Moment)) (sound : p.Sound) :
    (p.performAll calls).Sound ∧ p.Keeps (p.performAll calls) := by
  induction calls generalizing p with
  | nil => exact ⟨sound, .refl p⟩
  | cons c rest ih =>
    obtain ⟨next, keeps, -⟩ := perform_move sound c.2 c.1
    obtain ⟨last, others⟩ := ih next
    exact ⟨last, keeps.trans others⟩

/-- A host that is awake stays awake as long as its first lease runs. -/
theorem performAll_awake (calls : List (Call × Moment)) (sound : p.Sound)
    (kept : Kept p.tenancy off a since s.unix.toInt x) (awake : x.asleep = false)
    (ticks : Ticks s calls t) (early : t.unix.toInt ≤ since + p.terms.minLease) :
    ∃ y, Kept (p.performAll calls).tenancy off a since t.unix.toInt y ∧ y.asleep = false := by
  induction calls generalizing p s x with
  | nil => exact ⟨x, kept.later (Time.unix_mono ticks), awake⟩
  | cons c rest ih =>
    obtain ⟨next, keeps, move⟩ := perform_move sound c.2 c.1
    have soon := Time.unix_mono ticks.2.mono
    obtain ⟨y, kept, awake⟩ :=
      kept.stays_awake awake (Time.unix_mono ticks.1) (Int.le_trans soon early) move
    exact ih next kept awake ticks.2 (by rw [keeps.terms]; exact early)

/-- Somewhere in a run, an allocation that finds no free address is answered with the
address of another host. -/
def Stolen (p : Pool) (calls : List (Call × Moment)) (v4 v6 : Addr) : Prop :=
  ∃ before after a m, calls = before ++ (.lookup6 a true, m) :: after ∧ a ≠ v6 ∧
    (p.performAll before).Full ∧ ((p.performAll before).lookup6 a true m).1 = some v4

theorem Stolen.cons {c : Call × Moment} {calls : List (Call × Moment)} {v4 v6 : Addr}
    (stolen : (p.perform c.2 c.1).Stolen calls v4 v6) : p.Stolen (c :: calls) v4 v6 := by
  obtain ⟨before, after, a, m, rfl, other, full, answer⟩ := stolen
  exact ⟨c :: before, after, a, m, rfl, other, full, answer⟩

theorem perform_stolen (sound : p.Sound) {m : Moment} {c : Call} {b : Addr} {now : Int}
    (kept : Kept p.tenancy off a since now x) (other : b ≠ a) (full : p.Full)
    (taken : (p.perform m c).tenancy off = some ⟨b, m.now.unix.toInt, false⟩) :
    c = .lookup6 b true ∧ (p.lookup6 b true m).1 = some (p.addr off) := by
  obtain ⟨d, held, rfl⟩ := tenancy_some.mp kept.held
  obtain ⟨e, held', same⟩ := tenancy_some.mp taken
  have own : d.v6 = a := kept.name
  have name : e.v6 = b := congrArg Tenant.name same
  have changed : e.v6 ≠ d.v6 := fun eq => other (name.symm.trans (eq.trans own))
  cases c with
  | lookup4 u =>
    exfalso
    cases four : u.as4 with
    | error fault =>
      rw [perform, lookup4, four] at held'
      cases held.symm.trans held'
      exact changed rfl
    | ok a4 =>
      obtain ⟨answer, -, replied⟩ := lookup4_replied sound four m
      rw [perform] at held'
      generalize (p.lookup4 u m).2 = q at replied held'
      cases replied with
      | silent =>
        cases held.symm.trans held'
        exact changed rfl
      | @answer f _ here _ writes =>
        rw [writes.table] at held'
        by_cases place : off = p.offset a4
        · subst place
          cases held.symm.trans here
          rw [Function.update_self] at held'
          cases held'
          exact changed rfl
        · rw [Function.update_of_ne place] at held'
          cases held.symm.trans held'
          exact changed rfl
  | maintain =>
    exfalso
    have aged := maintain_maintained m sound
    rw [perform, aged.table, held, Option.bind_some, DynHost.aged] at held'
    split at held'
    · cases held'
    · cases held'
      refine changed ?_
      rw [DynHost.rested]
      split <;> rfl
  | lookup6 u allocate =>
    have asked := lookup6_asked sound u allocate m
    rw [perform] at held'
    generalize result : p.lookup6 u allocate m = q at asked held'
    obtain ⟨answer, q⟩ := q
    -- a host at this place that has changed its name was put there by this call
    have moved {l : BitVec 32} {f : DynHost} {dirty : Bool} (writes : p.Writes l (some f) dirty q) :
        l = off ∧ f = e := by
      rw [writes.table] at held'
      by_cases place : off = l
      · subst place
        rw [Function.update_self] at held'
        exact ⟨rfl, Option.some.inj held'⟩
      · rw [Function.update_of_ne place] at held'
        cases held.symm.trans held'
        exact absurd rfl changed
    have unmoved {f : DynHost} (writes : p.table f.off = some f) (here : f.off = off)
        (kept : f.v6 = e.v6) : False := by
      rw [here] at writes
      cases held.symm.trans writes
      exact changed kept.symm
    cases asked with
    | @known f _ held'' _ _ writes =>
      obtain ⟨here, rfl⟩ := moved writes
      exact (unmoved held'' here rfl).elim
    | @woken f _ _ held'' _ _ writes =>
      obtain ⟨here, rfl⟩ := moved writes
      exact (unmoved held'' here rfl).elim
    | refused =>
      cases held.symm.trans held'
      exact absurd rfl changed
    | exhausted =>
      cases held.symm.trans held'
      exact absurd rfl changed
    | granted will _ _ free writes =>
      obtain ⟨rfl, -⟩ := moved writes
      cases held.symm.trans (sound.vacant_of_free free)
    | @stolen f _ will _ _ held'' _ _ writes =>
      obtain ⟨here, rfl⟩ := moved writes
      subst will
      obtain rfl : u = b := name
      refine ⟨rfl, ?_⟩
      rw [result, ← here, (sound.placed held'').2]

/-- A host keeps its place as long as its second lease runs, unless it is stolen. -/
theorem performAll_kept (calls : List (Call × Moment)) (sound : p.Sound)
    (kept : Kept p.tenancy off a since s.unix.toInt x) (ticks : Ticks s calls t)
    (early : t.unix.toInt ≤ since + p.terms.maxLease) :
    (∃ y, Kept (p.performAll calls).tenancy off a since t.unix.toInt y) ∨
      p.Stolen calls (p.addr off) a := by
  induction calls generalizing p s x with
  | nil => exact .inl ⟨x, kept.later (Time.unix_mono ticks)⟩
  | cons c rest ih =>
    obtain ⟨next, keeps, move⟩ := perform_move sound c.2 c.1
    have soon := Time.unix_mono ticks.2.mono
    rcases kept.stays (Time.unix_mono ticks.1) (Int.le_trans soon early) move with
      ⟨y, still⟩ | ⟨full, b, other, taken⟩
    · rcases ih next still ticks.2 (by rw [keeps.terms]; exact early) with here | stolen
      · exact .inl here
      · refine .inr (Stolen.cons ?_)
        rw [addr, keeps.range] at stolen
        exact stolen
    · obtain ⟨call, answer⟩ := perform_stolen sound kept other full taken
      refine .inr ⟨[], rest, b, c.2, ?_, other, full, answer⟩
      rw [List.nil_append, ← call]

end Runs

section Answers

variable {v6 : Addr} {d : DynHost}

theorem addr_inj {off l : BitVec 32} (le : off ≤ p.max) (le' : l ≤ p.max)
    (same : p.addr off = p.addr l) : off = l := by
  rw [← p.addr_and_max le, ← p.addr_and_max le', Addr.v4.inj same]

theorem lookup4_awake (sound : p.Sound) (held : p.table off = some d) (awake : d.dormant = false)
    (m : Moment) : (p.lookup4 (p.addr off) m).1 = .ok (some d.v6) := by
  have le := (sound.placed held).1.2
  have four : (p.addr off).as4 = .ok (Bytes.ofNat 4 (p.base ||| off).toNat) := rfl
  obtain ⟨answer, result, replied⟩ := lookup4_replied sound four m
  rw [offset_ofNat, p.addr_and_max le] at replied
  rw [result]
  generalize (p.lookup4 (p.addr off) m).2 = q at replied
  cases replied with
  | silent asleep => cases awake.symm.trans (asleep d held)
  | answer held' _ _ =>
    cases held.symm.trans held'
    rfl

theorem lookup6_held (sound : p.Sound) (held : p.table off = some d) {allocate : Bool}
    (will : allocate = true ∨ d.dormant = false) (m : Moment) :
    (p.lookup6 d.v6 allocate m).1 = some d.v4 := by
  have asked := lookup6_asked sound d.v6 allocate m
  have only {e : DynHost} (held' : p.table e.off = some e) (own : e.v6 = d.v6) : e = d := by
    have same := sound.filed.name_unique held' held own
    rw [same, held] at held'
    exact (Option.some.inj held').symm
  generalize p.lookup6 d.v6 allocate m = q at asked
  obtain ⟨answer, q⟩ := q
  cases asked with
  | known held' own _ _ => rw [only held' own]
  | woken _ held' own _ _ => rw [only held' own]
  | refused never asleep =>
    rcases will with yes | awake
    · cases yes.symm.trans never
    · cases awake.symm.trans (asleep off d held rfl)
  | granted _ unknown _ _ _ => exact absurd rfl (unknown off d held)
  | stolen _ unknown _ _ _ _ _ => exact absurd rfl (unknown off d held)
  | exhausted _ unknown _ _ _ => exact absurd rfl (unknown off d held)

theorem lookup6_other (sound : p.Sound) (held : p.table off = some d) (awake : d.dormant = false)
    {a : Addr} (other : a ≠ d.v6) (allocate : Bool) (m : Moment) :
    (p.lookup6 a allocate m).1 ≠ some (p.addr off) := by
  have asked := lookup6_asked sound a allocate m
  have inside := (sound.placed held).1.2
  have only {e : DynHost} (held' : p.table e.off = some e) (v4 : e.v4 = p.addr off) : e = d := by
    obtain ⟨⟨-, le⟩, place⟩ := sound.placed held'
    have same := addr_inj le inside (place.symm.trans v4)
    rw [same, held] at held'
    exact (Option.some.inj held').symm
  generalize p.lookup6 a allocate m = q at asked
  obtain ⟨answer, q⟩ := q
  intro same
  cases asked with
  | known held' own _ _ => exact other (own.symm.trans (by rw [only held' (Option.some.inj same)]))
  | woken _ held' own _ _ =>
    exact other (own.symm.trans (by rw [only held' (Option.some.inj same)]))
  | refused => cases same
  | exhausted => cases same
  | granted _ _ place free _ =>
    rw [addr_inj place.2 inside (Option.some.inj same)] at free
    cases held.symm.trans (sound.vacant_of_free free)
  | stolen _ _ _ held' asleep _ _ =>
    rw [only held' (Option.some.inj same), awake] at asleep
    cases asleep

/-- A lookup at some moment has returned a pair of addresses. -/
inductive Returned (p : Pool) (m : Moment) (v4 v6 : Addr) : Pool → Prop
  | lookup4 (inside : p.pfx.contains v4) (answer : (p.lookup4 v4 m).1 = .ok (some v6)) :
      Returned p m v4 v6 (p.lookup4 v4 m).2
  | lookup6 {allocate : Bool} (answer : (p.lookup6 v6 allocate m).1 = some v4) :
      Returned p m v4 v6 (p.lookup6 v6 allocate m).2

theorem Returned.kept {m : Moment} {v4 v6 : Addr} (sound : p.Sound)
    (returned : p.Returned m v4 v6 p') :
    p'.Sound ∧ p.Keeps p' ∧ ∃ off, v4 = p.addr off ∧
      Kept p'.tenancy off v6 m.now.unix.toInt m.now.unix.toInt
        ⟨v6, m.now.unix.toInt, false⟩ := by
  have used {off : BitVec 32} {d : DynHost} {dirty : Bool} {q : Pool}
      (writes : p.Writes off (some d) dirty q) (own : d.v6 = v6) (now : d.lastUse = m.now.unix)
      (awake : d.dormant = false) :
      Kept q.tenancy off v6 m.now.unix.toInt m.now.unix.toInt
        ⟨v6, m.now.unix.toInt, false⟩ := by
    refine ⟨?_, rfl, Int.le_refl _, Int.le_refl _⟩
    rw [writes.tenancy, Function.update_self, DynHost.tenant, own, now, awake]
  cases returned with
  | lookup4 inside answer =>
    obtain ⟨bits, rfl⟩ : ∃ bits, v4 = .v4 bits := by
      have family := ((Prefix.contains_iff p.len v4).mp inside).1
      rw [p.four] at family
      cases v4 <;> simp_all [Addr.bitLen]
    have four : (Addr.v4 bits).as4 = .ok (Bytes.ofNat 4 bits.toNat) := rfl
    obtain ⟨found, result, replied⟩ := lookup4_replied sound four m
    rw [answer] at result
    cases result
    rw [offset_ofNat] at replied
    refine ⟨replied.sound sound, replied.keeps, bits &&& p.max, (p.addr_of_contains inside).symm, ?_⟩
    generalize (p.lookup4 (.v4 bits) m).2 = q at replied
    cases replied with
    | answer held awake writes => exact used writes rfl rfl awake
  | @lookup6 allocate answer =>
    have asked := lookup6_asked sound v6 allocate m
    refine ⟨asked.sound sound, asked.keeps, ?_⟩
    generalize p.lookup6 v6 allocate m = q at asked answer
    obtain ⟨found, q⟩ := q
    cases asked with
    | known held own awake writes =>
      cases answer
      exact ⟨_, (sound.placed held).2, used writes own rfl awake⟩
    | woken _ held own _ writes =>
      cases answer
      exact ⟨_, (sound.placed held).2, used writes own rfl rfl⟩
    | granted _ _ _ _ writes =>
      cases answer
      exact ⟨_, rfl, used writes rfl rfl rfl⟩
    | stolen _ _ _ held _ _ writes =>
      cases answer
      exact ⟨_, (sound.placed held).2, used writes rfl rfl rfl⟩
    | refused => cases answer
    | exhausted => cases answer

end Answers

/-- Once a pair of addresses was returned, it stays in force for the first lease, and the
host gets the same address back for the second one, unless it was stolen. -/
theorem lease_guarantee {pfx : Prefix} {o : PoolOptions} {p₀ : Pool} (made : newPool pfx o = .ok p₀)
    (history : Run p₀ p) (wholeMin : p.minLease.Whole) (wholeMax : p.maxLease.Whole)
    {m : Moment} {v4 v6 : Addr} (returned : p.Returned m v4 v6 p')
    (calls : List (Call × Moment)) (m' : Moment) (ticks : Ticks m.now calls m'.now) :
    (m'.now.ns ≤ m.now.ns + p.minLease.toInt →
      ((p'.performAll calls).lookup4 v4 m').1 = .ok (some v6) ∧
      (∀ allocate, ((p'.performAll calls).lookup6 v6 allocate m').1 = some v4) ∧
      ∀ a ≠ v6, ∀ allocate, ((p'.performAll calls).lookup6 a allocate m').1 ≠ some v4) ∧
    (m'.now.ns ≤ m.now.ns + p.maxLease.toInt →
      ((p'.performAll calls).lookup6 v6 true m').1 = some v4 ∨ p'.Stolen calls v4 v6) := by
  obtain ⟨sound, keeps, off, rfl, kept⟩ := returned.kept (history.sound (newPool_sound made).1)
  obtain ⟨soundLater, keepsLater⟩ := performAll_sound calls sound
  have place : (p'.performAll calls).addr off = p.addr off := by
    rw [addr, addr, keepsLater.range, keeps.range]
  constructor
  · intro early
    have within : m'.now.unix.toInt ≤ m.now.unix.toInt + p'.terms.minLease := by
      rw [keeps.terms]
      exact Time.unix_le_add wholeMin early
    obtain ⟨y, still, awake⟩ := performAll_awake calls sound kept rfl ticks within
    obtain ⟨d, held, rfl⟩ := tenancy_some.mp still.held
    obtain rfl : d.v6 = v6 := still.name
    have v4 : d.v4 = p.addr off := (soundLater.placed held).2.trans place
    refine ⟨?_, fun allocate => ?_, fun a other allocate => ?_⟩
    · rw [← place]
      exact lookup4_awake soundLater held awake m'
    · rw [← v4]
      exact lookup6_held soundLater held (.inr awake) m'
    · rw [← place]
      exact lookup6_other soundLater held awake other allocate m'
  · intro early
    have within : m'.now.unix.toInt ≤ m.now.unix.toInt + p'.terms.maxLease := by
      rw [keeps.terms]
      exact Time.unix_le_add wholeMax early
    rcases performAll_kept calls sound kept ticks within with ⟨y, still⟩ | stolen
    · obtain ⟨d, held, rfl⟩ := tenancy_some.mp still.held
      obtain rfl : d.v6 = v6 := still.name
      have v4 : d.v4 = p.addr off := (soundLater.placed held).2.trans place
      rw [← v4]
      exact .inl (lookup6_held soundLater held (.inl rfl) m')
    · rw [addr, keeps.range] at stolen
      exact .inr stolen

/-- A host asks for an address. It is reached there until the first lease ends, and when it asks
again at the end of the second lease, it gets the same address. -/
theorem lease_guarantee_maintained : ∃ p p', newPool (.of (.v4 0x0a000000#32) 29) {} = .ok p ∧
    p.lookup6 (.v6 5 "") true (.second 10000) = (some (.v4 0x0a000005#32), p') ∧
    ((p'.performAll [(.lookup6 (.v6 13 "") true, .second 12000), (.maintain, .second 15000)]).lookup4
      (.v4 0x0a000005#32) (.second 17440)).1 = .ok (some (.v6 5 "")) ∧
    ((p'.performAll [(.maintain, .second 17441), (.maintain, .second 1219600)]).lookup6
      (.v6 5 "") true (.second 1219600)).1 = some (.v4 0x0a000005#32) := by
  obtain ⟨p, p', made, wholeMin, wholeMax, first, second, answer⟩ : ∃ p p',
      newPool (.of (.v4 0x0a000000#32) 29) {} = .ok p ∧ p.minLease.Whole ∧ p.maxLease.Whole ∧
      p.minLease.toInt = 7440 * 1000000000 ∧ p.maxLease.toInt = 1209600 * 1000000000 ∧
      p.lookup6 (.v6 5 "") true (.second 10000) = (some (.v4 0x0a000005#32), p') :=
    ⟨_, _, rfl, by decide, by decide, by decide, by decide, rfl⟩
  have returned : p.Returned (.second 10000) (.v4 0x0a000005#32) (.v6 5 "") p' := by
    obtain rfl : (p.lookup6 (.v6 5 "") true (.second 10000)).2 = p' := congrArg Prod.snd answer
    exact .lookup6 (congrArg Prod.fst answer)
  have kept := lease_guarantee made .refl wholeMin wholeMax returned
  refine ⟨p, p', made, answer, ?_, ?_⟩
  · have ticks : Ticks (Moment.second 10000).now [(.lookup6 (.v6 13 "") true, .second 12000),
        (.maintain, .second 15000)] (Moment.second 17440).now := by
      simp only [Ticks]
      decide
    exact ((kept _ _ ticks).1 (by rw [first]; decide)).1
  · have ticks : Ticks (Moment.second 10000).now [(.maintain, .second 17441),
        (.maintain, .second 1219600)] (Moment.second 1219600).now := by
      simp only [Ticks]
      decide
    refine ((kept _ _ ticks).2 (by rw [second]; decide)).resolve_right ?_
    rintro ⟨before, after, a, m, same, -⟩
    have member : (Call.lookup6 a true, m) ∈ [(Call.maintain, Moment.second 17441),
        (Call.maintain, Moment.second 1219600)] := by
      rw [same]
      exact List.mem_append_right _ (.head _)
    simp at member

end Pool

end Clatto.Addrmap
