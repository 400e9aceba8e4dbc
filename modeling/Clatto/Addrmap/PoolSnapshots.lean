import Clatto.Addrmap.PoolAnswers
import Clatto.Addrmap.PoolReload
import Mathlib.Data.Prod.Lex
import Mathlib.Data.String.Basic

/-! What is listed, counted and saved of a pool is its state at one moment, however many other
calls are made at the same time. -/

namespace Clatto

namespace Netip.Addr

/-- Addresses are ordered by family, value and zone. -/
def rank (a : Addr) : ℕ ×ₗ ℕ ×ₗ String := toLex (a.bitLen, toLex (a.value, a.zone))

theorem less_iff {a b : Addr} : a.less b = true ↔ a.rank < b.rank := by
  simp [less, rank, Prod.Lex.toLex_lt_toLex]

theorem rank_injective : Function.Injective rank := by
  intro a b same
  have parts := toLex.injective same
  simp only [Prod.mk.injEq, EmbeddingLike.apply_eq_iff_eq] at parts
  obtain ⟨family, value, zone⟩ := parts
  cases a <;> cases b <;> simp_all [bitLen, Addr.value, Addr.zone, BitVec.toNat_inj]

end Netip.Addr

namespace Addrmap

open Netip Guarded Pool

namespace Pool

variable {p : Pool}

/-- The entries of both maps, in any order. -/
def entries (p : Pool) (awake asleep : Order) : List (Sigma fun _ : Addr => Ref) :=
  awake.list p.mapped ++ asleep.list p.dormant

theorem mem_entries {awake asleep : Order} {d : Sigma fun _ : Addr => Ref} :
    d ∈ p.entries awake asleep ↔ p.mapped.get d.1 = some d.2 ∨ p.dormant.get d.1 = some d.2 := by
  rw [entries, List.mem_append, ← mem_order awake, ← mem_order asleep]

theorem length_entries (awake asleep : Order) :
    (p.entries awake asleep).length = p.mapped.entries.length + p.dormant.entries.length := by
  rw [entries, List.length_append, (awake.perm _).length_eq, (asleep.perm _).length_eq]

theorem Sound.offs_nodup (sound : p.Sound) (awake asleep : Order) :
    ((p.entries awake asleep).map fun d => (p.host d.2).off).Nodup := by
  have places := sound.invariant.places awake
  refine (List.Perm.nodup_iff ?_).mp places
  have sorted := (List.mergeSort_perm ((awake.list p.mapped ++ awake.list p.dormant).map
    fun d => p.host d.2) fun d e => d.off ≤ e.off).map DynHost.off
  rw [List.map_map] at sorted
  refine sorted.trans (List.Perm.map _ ?_)
  exact .append_left _ ((awake.perm _).trans (asleep.perm _).symm)

theorem Sound.entry (sound : p.Sound) {awake asleep : Order} {d : Sigma fun _ : Addr => Ref}
    (member : d ∈ p.entries awake asleep) :
    p.table (p.host d.2).off = some (p.host d.2) := by
  rcases mem_entries.mp member with found | found
  · exact (sound.mapped found).2.1
  · exact (sound.dormant found).2.1

theorem Sound.v4s_nodup (sound : p.Sound) (awake asleep : Order) :
    ((p.entries awake asleep).map fun d => (p.host d.2).v4).Nodup := by
  have offs := sound.offs_nodup awake asleep
  rw [List.Nodup, List.pairwise_map] at offs ⊢
  refine offs.imp_of_mem fun {d e} one other different same => different ?_
  obtain ⟨inside, v4⟩ := sound.placed (sound.entry one)
  obtain ⟨inside', v4'⟩ := sound.placed (sound.entry other)
  exact addr_injective inside.2 inside'.2 (by rw [← v4, ← v4', same])

theorem Sound.mem_entries_ledger (sound : p.Sound) (awake asleep : Order) {v4 v6 : Addr}
    {dormant : Bool} : (v4, v6, dormant) ∈ (p.entries awake asleep).map
      (fun d => ((p.host d.2).v4, (p.host d.2).v6, (p.host d.2).dormant)) ↔
    p.ledger v4 = some (v6, dormant) := by
  rw [sound.ledger_eq_some, List.mem_map]
  constructor
  · rintro ⟨d, member, same⟩
    cases same
    exact ⟨_, _, sound.entry member, rfl, rfl, rfl⟩
  · rintro ⟨off, d, held, rfl, rfl, rfl⟩
    cases flag : d.dormant with
    | false =>
      obtain ⟨r, found, rfl⟩ := sound.find_mapped held flag
      exact ⟨⟨_, r⟩, mem_entries.mpr (.inl found), by rw [flag]⟩
    | true =>
      obtain ⟨r, found, rfl⟩ := sound.find_dormant held flag
      exact ⟨⟨_, r⟩, mem_entries.mpr (.inr found), by rw [flag]⟩

theorem Sound.length_le (sound : p.Sound) :
    p.mapped.entries.length + p.dormant.entries.length ≤ p.max.toNat := by
  let order : Order := ⟨AList.entries, fun _ => .rfl⟩
  have offs := sound.offs_nodup order order
  have numbers : ((p.entries order order).map fun d => (p.host d.2).off.toNat).Nodup := by
    have mapped := offs.map_on (f := BitVec.toNat) fun _ _ _ _ same => BitVec.eq_of_toNat_eq same
    rwa [List.map_map] at mapped
  have inside : ((p.entries order order).map fun d => (p.host d.2).off.toNat) ⊆
      List.range' 1 p.max.toNat := by
    intro n member
    obtain ⟨d, listed, rfl⟩ := List.mem_map.mp member
    obtain ⟨⟨nonzero, le⟩, -⟩ := sound.placed (sound.entry listed)
    have positive : (p.host d.2).off.toNat ≠ 0 := fun zero =>
      nonzero (BitVec.eq_of_toNat_eq (by simpa using zero))
    have := BitVec.le_def.mp le
    rw [List.mem_range'_1]
    omega
  have bound := (List.subperm_of_subset numbers inside).length_le
  rwa [List.length_map, length_entries, List.length_range'] at bound

end Pool

namespace Concurrent

/-- A list of assignments shows all there was at some moment, by increasing IPv4 address. -/
structure Lists (l : List Assignment) (q : Pool) : Prop where
  sorted : l.Pairwise fun x y => x.ipv4.less y.ipv4 = true
  complete : ∀ v4 v6 dormant, (∃ x ∈ l, x.ipv4 = v4 ∧ x.ipv6 = v6 ∧ x.dormant = dormant) ↔
    q.ledger v4 = some (v6, dormant)

/-- The hosts that are saved are all there were at some moment, by increasing offset. -/
structure Saves (hosts : List DynHost) (q : Pool) : Prop where
  sorted : hosts.Pairwise fun d e => d.off < e.off
  complete : ∀ pair, (∃ d ∈ hosts, d.pair = pair) ↔ pair ∈ q.pairs

section Lists

variable {q : Pool}

def Assignment.shows (x : Assignment) : Addr × Addr × Bool := (x.ipv4, x.ipv6, x.dormant)

theorem lists_mergeSort (awake asleep : Order) (sound : q.Sound) {l : List Assignment}
    (shows : l.map Assignment.shows = (q.entries awake asleep).map
      fun d => ((q.host d.2).v4, (q.host d.2).v6, (q.host d.2).dormant)) :
    Lists (l.mergeSort fun i j => !(j.ipv4.less i.ipv4)) q := by
  have perm := List.mergeSort_perm l fun i j => !(j.ipv4.less i.ipv4)
  constructor
  · have le (i j : Assignment) : (!(j.ipv4.less i.ipv4)) = true ↔ i.ipv4.rank ≤ j.ipv4.rank := by
      rw [Bool.not_eq_true', ← Bool.not_eq_true, Addr.less_iff, not_lt]
    have sorted := @List.pairwise_mergeSort _ (fun i j : Assignment => !(j.ipv4.less i.ipv4))
      (fun i j k one two => (le i k).mpr (((le i j).mp one).trans ((le j k).mp two)))
      (fun i j => by
        rw [Bool.or_eq_true, le, le]
        exact le_total _ _) l
    have distinct : (l.map Assignment.ipv4).Nodup := by
      have v4s := congrArg (List.map Prod.fst) shows
      rw [List.map_map, List.map_map] at v4s
      exact v4s ▸ sound.v4s_nodup awake asleep
    have apart := (perm.map Assignment.ipv4).nodup_iff.mpr distinct
    rw [List.Nodup, List.pairwise_map] at apart
    refine (sorted.and apart).imp fun {i j} both => Addr.less_iff.mpr ?_
    exact lt_of_le_of_ne ((le i j).mp both.1) fun same => both.2 (Addr.rank_injective same)
  · intro v4 v6 dormant
    rw [← sound.mem_entries_ledger awake asleep, ← shows, List.mem_map]
    refine exists_congr fun x => and_congr perm.mem_iff ?_
    simp [Assignment.shows]

theorem saves_of (awake asleep : Order) (sound : q.Sound) {hosts : List DynHost}
    (shows : hosts.map (·.usedAt 0) = ((q.entries awake asleep).mergeSort fun d e =>
      (q.host d.2).off ≤ (q.host e.2).off).map fun d => (q.host d.2).usedAt 0) : Saves hosts q := by
  have perm := List.mergeSort_perm (q.entries awake asleep) fun d e =>
    decide ((q.host d.2).off ≤ (q.host e.2).off)
  constructor
  · have offs := congrArg (List.map DynHost.off) shows
    rw [List.map_map, List.map_map] at offs
    have sorted := @List.pairwise_mergeSort _
      (fun d e : Sigma fun _ : Addr => Ref => decide ((q.host d.2).off ≤ (q.host e.2).off))
      (fun d e f one two => decide_eq_true
        (BitVec.le_trans (of_decide_eq_true one) (of_decide_eq_true two)))
      (fun d e => by
        rw [Bool.or_eq_true, decide_eq_true_iff, decide_eq_true_iff]
        exact BitVec.le_total _ _) (q.entries awake asleep)
    have apart := (perm.map fun d => (q.host d.2).off).nodup_iff.mpr (sound.offs_nodup awake asleep)
    rw [List.Nodup, List.pairwise_map] at apart
    have strict : (hosts.map DynHost.off).Pairwise (· < ·) := by
      rw [show hosts.map DynHost.off = hosts.map (DynHost.off ∘ (·.usedAt 0)) from rfl, offs,
        List.pairwise_map]
      refine (sorted.and apart).imp fun {d e} both => ?_
      exact BitVec.lt_of_le_ne (of_decide_eq_true both.1) both.2
    exact List.pairwise_map.mp strict
  · intro pair
    have pairs := congrArg (List.map DynHost.pair) shows
    rw [List.map_map, List.map_map] at pairs
    have listed : pair ∈ hosts.map DynHost.pair ↔
        pair ∈ (q.entries awake asleep).map fun d => (q.host d.2).pair := by
      rw [show hosts.map DynHost.pair = hosts.map (DynHost.pair ∘ (·.usedAt 0)) from rfl, pairs]
      exact (perm.map _).mem_iff
    rw [List.mem_map, List.mem_map] at listed
    rw [listed]
    constructor
    · rintro ⟨d, member, rfl⟩
      exact ⟨d.2, (mem_entries.mp member).imp (fun found => ⟨_, found⟩) fun found => ⟨_, found⟩, rfl⟩
    · rintro ⟨r, ⟨a, found⟩ | ⟨a, found⟩, rfl⟩
      · exact ⟨⟨a, r⟩, mem_entries.mpr (.inl found), rfl⟩
      · exact ⟨⟨a, r⟩, mem_entries.mpr (.inr found), rfl⟩

theorem Lists.same {l : List Assignment} {p : Pool} (lists : Lists l q) (same : p.Same q) :
    Lists l p := by
  refine ⟨lists.sorted, fun v4 v6 dormant => ?_⟩
  rw [← ledger_still (p := p), same.eq, ledger_still]
  exact lists.complete v4 v6 dormant

theorem Saves.same {hosts : List DynHost} {p : Pool} (saves : Saves hosts q) (same : p.Same q) :
    Saves hosts p := by
  refine ⟨saves.sorted, fun pair => (saves.complete pair).trans ?_⟩
  refine exists_congr fun r => and_congr ?_ ?_
  · rw [Holds, Holds, same.mapped, same.dormant]
  · rw [DynHost.pair, DynHost.pair, same.v4, same.v6]

end Lists

section Specs

variable {τ : Type} {t : τ} {base : Pool}

/-- Hosts that are read under the lock are as they were when it was taken, up to their last use. -/
theorem collect_spec {place : Station} (inside : place.Inside) {q : Pool}
    {H : Pool → List Pool → Prop} (growing : Growing H) (l : List (Sigma fun _ : Addr => Ref)) :
    Spec t base place (Holding q H) (collect l) place fun hosts v before =>
      hosts.map (·.usedAt 0) = l.map (fun d => (q.host d.2).usedAt 0) ∧ Holding q H v before := by
  induction l with
  | nil => exact .ret fun v before holds => ⟨rfl, holds⟩
  | cons d l ih =>
    refine .bind (holding_read inside growing) fun host => ?_
    refine Spec.mono (F := fun v before => host.usedAt 0 = (q.host d.2).usedAt 0 ∧ Holding q H v before)
      (.given fun same => .bind ih fun hosts => .given fun rest => .ret fun v before holds =>
        ⟨by rw [List.map_cons, List.map_cons, same, rest], holds⟩) (fun v before holds => ?_)
      fun _ _ _ => id
    obtain ⟨view, kept, w, -, equal, rfl⟩ := holds
    exact ⟨equal.host d.2, view, kept⟩

theorem map_shows {q : Pool} {l : List (Sigma fun _ : Addr => Ref)} {hosts : List DynHost}
    (read : hosts.map (·.usedAt 0) = l.map fun d => (q.host d.2).usedAt 0) {dormant : Bool}
    (flag : ∀ d ∈ l, (q.host d.2).dormant = dormant) :
    (hosts.map (shown dormant)).map Assignment.shows =
      l.map fun d => ((q.host d.2).v4, (q.host d.2).v6, (q.host d.2).dormant) := by
  have shows := congrArg (List.map fun h : DynHost => (h.v4, h.v6, dormant)) read
  rw [List.map_map, List.map_map] at shows
  rw [List.map_map]
  refine shows.trans (List.map_congr_left fun d member => ?_)
  rw [flag d member]
  rfl

theorem assignments_spec [DecidableEq τ] :
    Spec t base .outside (fun _ _ => True) (assignments t) .outside fun l => Seen (Lists l) := by
  refine .bind (rLock_spec growing_true) fun _ => .whichever fun q => .given fun ready => ?_
  have growing := (growing_seen fun w : Pool => w.Same q).and growing_true
  refine .bind (holding_list Pool.mapped (by decide) growing fun v same => same.mapped)
    fun mapped => .given fun listed => .bind (collect_spec (by decide) growing mapped) fun awake =>
      .given fun one => ?_
  refine .bind (holding_list Pool.dormant (by decide) growing fun v same => same.dormant)
    fun dormant => .given fun listed' => .bind (collect_spec (by decide) growing dormant) fun asleep =>
      .given fun two => .bind (rUnlock_spec (lasts_holding (by decide) growing)) fun _ =>
      .ret fun v before holds => ?_
  obtain ⟨order, rfl⟩ := listed
  obtain ⟨order', rfl⟩ := listed'
  refine holds.2.1.mono fun w same => Lists.same (lists_mergeSort order order' ready.1 ?_) same
  rw [List.map_append, entries, List.map_append]
  refine congrArg₂ _ (map_shows one fun d member => ?_) (map_shows two fun d member => ?_)
  · exact (ready.1.mapped ((mem_order ..).mp member)).2.2.2
  · exact (ready.1.dormant ((mem_order ..).mp member)).2.2.2

structure Counts (s : Stats) (q : Pool) : Prop where
  size : s.size = q.max.toNat
  mapped : s.mapped = q.mapped.entries.length
  dormant : s.dormant = q.dormant.entries.length
  room : s.mapped + s.dormant ≤ s.size

theorem stats_spec [DecidableEq τ] :
    Spec t base .outside (fun _ _ => True) (stats t) .outside fun s => Seen (Counts s) := by
  refine .bind (rLock_spec growing_true) fun _ => .whichever fun q => .given fun ready => ?_
  have growing := (growing_seen fun w : Pool => w.Same q).and growing_true
  refine .bind (holding_load (by decide) growing fun v same => ?_) fun s => .given fun counted =>
    .bind (rUnlock_spec (lasts_holding (by decide) growing)) fun _ =>
      .ret fun v before holds => ?_
  · rw [same.mapped, same.dormant, same.range]
  · subst counted
    refine holds.2.1.mono fun w same => ⟨?_, ?_, ?_, ready.1.length_le⟩
    · rw [same.range]
    · rw [same.mapped]
    · rw [same.dormant]

theorem dirty_spec [DecidableEq τ] :
    Spec t base .outside (fun _ _ => True) (dirty t) .outside fun d =>
      Seen fun q => q.dirty = d := by
  refine .bind (rLock_spec growing_true) fun _ => .whichever fun q => .given fun ready => ?_
  have growing := (growing_seen fun w : Pool => w.Same q).and growing_true
  refine .bind (holding_read (by decide) growing) fun d => .bind (rUnlock_spec
    (lasts_holding (by decide) (growing.and (growing_seen _)))) fun _ => .ret fun v before holds => ?_
  exact holds.2.2.mono fun w both => both.2

theorem save_spec (failed : Bool) :
    Spec t base .outside (fun _ _ => True) (save t failed) .outside fun hosts =>
      Seen (Saves hosts) := by
  refine .bind (lock_spec growing_true) fun _ => .whichever fun q => .given fun ready => ?_
  have growing := (growing_seen fun w : Pool => w.Same q).and growing_true
  refine .bind (Q := fun l v before => (∃ order : Order, l = (q.entries order order).mergeSort
      fun d e => (q.host d.2).off ≤ (q.host e.2).off) ∧
        Holding q (fun v before => Seen (fun w => w.Same q) v before ∧ True) v before)
    (.quiet (lasts_holding (by decide) growing) (fun _ _ => rfl)
      (fun _ v _ _ => Evolves.refl v) fun o v before holds => ⟨⟨o.order, ?_⟩, holds.1,
        growing _ _ _ holds.2⟩) fun l => .given fun listed => ?_
  · simp only [entries, holds.1.mapped, holds.1.dormant, holds.1.off]
  obtain ⟨order, rfl⟩ := listed
  refine .bind (collect_spec (by decide) growing _) fun hosts => .given fun shows => ?_
  -- the flag is all that changes under the lock
  have sound' (p : Pool) : p.Sound → { p with dirty := false }.Sound :=
    fun sound => ⟨sound.size, sound.filed, sound.placed, sound.used⟩
  refine .bind (holding_write (s := if failed then q else { q with dirty := false }) growing
    (fun v _ => ?_) fun v same => ?_) fun _ => .bind (unlock_spec (G := Seen (Saves hosts))
      (fun v v' before same holds => ⟨same.trans holds.1, growing _ _ _ holds.2⟩)
      (fun v before holds => ?_) fun v before holds => ?_) fun _ => .ret fun _ _ => id
  · cases failed <;> exact .aside rfl rfl rfl
  · cases failed with
    | true => exact same
    | false => exact (congrArg (fun p : Pool => { p with dirty := false }) same.eq :)
  · cases failed with
    | true => exact ⟨holds.1.sound.mpr ready.1, ready.2.same holds.1.symm⟩
    | false =>
      have logged : Logged base { q with dirty := false } := ready.2
      exact ⟨holds.1.sound.mpr (sound' q ready.1), logged.same holds.1.symm⟩
  · refine Seen.later ?_ v
    exact holds.2.1.mono fun w same => (saves_of order order ready.1 shows).same same

theorem setLeases_spec (minLease maxLease : Duration) :
    Spec t base .outside (fun _ _ => True) (setLeases t minLease maxLease) .outside
      fun _ _ _ => True := by
  refine .bind (lock_spec growing_true) fun _ => .whichever fun q => .given fun ready => ?_
  have growing := (growing_seen fun w : Pool => w.Same q).and growing_true
  refine .bind (holding_write (s := { q with minLease := orDefault minLease defaultMinLease }) growing
    (fun v _ => .aside rfl rfl rfl) fun v same => ?_) fun _ =>
      .bind (holding_write (s := q.setLeases minLease maxLease) growing (fun v _ => .aside rfl rfl rfl)
        fun v same => ?_) fun _ => unlock_spec
          (fun v v' before same holds => ⟨same.trans holds.1, growing _ _ _ holds.2⟩)
          (fun v before holds => ?_) fun _ _ _ => trivial
  · exact (congrArg (fun p : Pool => { p with minLease := orDefault minLease defaultMinLease })
      same.eq :)
  · exact (congrArg (fun p : Pool => { p with maxLease := orDefault maxLease defaultMaxLease })
      same.eq :)
  · have logged : Logged base (q.setLeases minLease maxLease) := ready.2
    exact ⟨holds.1.sound.mpr ⟨ready.1.size, ready.1.filed, ready.1.placed, ready.1.used⟩,
      logged.same holds.1.symm⟩

theorem reserve_spec (reserved : Addr → Bool) :
    Spec t base .outside (fun _ _ => True) (reserve reserved) .outside fun _ _ _ => True := by
  unfold reserve write
  exact .quiet (lasts_growing growing_true) (fun _ v => same_reserve v reserved)
    (fun _ _ _ _ => .aside rfl rfl rfl) fun _ _ _ _ => trivial

end Specs

end Concurrent

end Addrmap

end Clatto
