import Clatto.Addrmap.PoolRuns

/-! Handing out addresses: a host gets the first free one from its hash on, and only when
there is none the one that has been asleep for longest. -/

namespace Clatto.Addrmap

open Netip

namespace Pool

/-- An offset that nobody has and that may be handed out. -/
structure Vacant (p : Pool) (off : BitVec 32) : Prop where
  inside : p.InRange off
  unused : p.table off = none
  unreserved : p.reserved (p.addr off) = false

/-- The offset that the search comes to after `i` steps. -/
def probe (p : Pool) (a : Addr) (i : Nat) : BitVec 32 := (p.hash a + BitVec.ofNat 32 i) &&& p.max

/-- What `assign` does for a host without an address. -/
structure Assigns (p : Pool) (a : Addr) (m : Moment) : Prop where
  /-- The loop that folds a hash comes to its end. -/
  folds : ∀ h, foldHash p.max (32 - p.bits) h.toNat h ≤ p.max
  start : p.hash a ≤ p.max
  first : p.dormant.get a = none → (∃ off, p.Vacant off) →
    ∃ i ≤ p.max.toNat, p.Vacant (p.probe a i) ∧ (∀ j < i, ¬ p.Vacant (p.probe a j)) ∧
      (p.assign a m).1 = some (p.addr (p.probe a i)) ∧
      p.Writes (p.probe a i) (some { v4 := p.addr (p.probe a i), v6 := a, off := p.probe a i
                                     lastUse := m.now.unix, dormant := false }) true
        (p.assign a m).2
  oldest : p.dormant.get a = none → (∀ off, ¬ p.Vacant off) →
    (∃ b r, p.dormant.get b = some r) → ∃ b r, p.dormant.get b = some r ∧
      (∀ c s, p.dormant.get c = some s → (p.host r).lastUse ≤ (p.host s).lastUse) ∧
      (p.assign a m).1 = some (p.host r).v4 ∧
      p.Writes (p.host r).off (some (((p.host r).rename a).wake.usedAt m.now.unix)) true
        (p.assign a m).2
  exhausted : p.dormant.get a = none → (∀ off, ¬ p.Vacant off) →
    (∀ b, p.dormant.get b = none) → (p.assign a m).1 = none ∧ ∃ e, (p.assign a m).2 = p.report e
  woken : ∀ r, p.dormant.get a = some r → (p.assign a m).1 = some (p.host r).v4 ∧
    p.Writes (p.host r).off (some ((p.host r).wake.usedAt m.now.unix)) p.dirty (p.assign a m).2

variable {p : Pool}

theorem le_max_of_and {h : BitVec 32} (folded : h &&& ~~~ p.max = 0) : h ≤ p.max := by
  have same : h = h &&& p.max := by
    calc h = h &&& (p.max ||| ~~~ p.max) := by rw [BitVec.or_not_self, BitVec.and_allOnes]
      _ = (h &&& p.max) ||| (h &&& ~~~ p.max) := BitVec.and_or_distrib_left
      _ = h &&& p.max := by rw [folded]; exact BitVec.or_zero
  rw [same]
  exact p.and_max_le h

theorem foldHash_le (fuel : Nat) (h : BitVec 32) (enough : h.toNat ≤ fuel) :
    foldHash p.max (32 - p.bits) fuel h ≤ p.max :=
  le_max_of_and (p.foldHash_done fuel h enough)

theorem hash_le (a : Addr) : p.hash a ≤ p.max := by
  unfold hash
  rw [List.foldl_cons, List.foldl_cons, List.foldl_cons, List.foldl_cons, List.foldl_nil]
  exact foldHash_le _ _ le_rfl

theorem Sound.isFree_iff (sound : p.Sound) {off : BitVec 32} (le : off ≤ p.max) :
    p.isFree off = true ↔ p.Vacant off := by
  have used := sound.used off
  simp only [isFree, Bool.and_eq_true, decide_eq_true_eq, Bool.not_eq_true']
  constructor
  · rintro ⟨⟨inside, unmarked⟩, unreserved⟩
    refine ⟨⟨inside, le⟩, ?_, unreserved⟩
    by_contra taken
    rw [used.mpr (.inr taken)] at unmarked
    cases unmarked
  · rintro ⟨⟨inside, -⟩, unused, unreserved⟩
    refine ⟨⟨inside, ?_⟩, unreserved⟩
    refine Bool.eq_false_iff.mpr fun marked => ?_
    exact (used.mp marked).elim inside fun taken => taken unused

theorem Sound.full_iff (sound : p.Sound) : p.Full ↔ ∀ off, ¬ p.Vacant off := by
  constructor
  · intro full off vacant
    have free := (sound.isFree_iff vacant.inside.2).mpr vacant
    rw [full off vacant.inside.2] at free
    cases free
  · intro none off le
    exact Bool.eq_false_iff.mpr fun free => none off ((sound.isFree_iff le).mp free)

theorem probe_le (a : Addr) (i : Nat) : p.probe a i ≤ p.max := by
  unfold probe
  exact p.and_max_le _

theorem Sound.findFree_first (sound : p.Sound) {a : Addr} {off : BitVec 32}
    (found : p.findFree (p.hash a) = some off) :
    ∃ i ≤ p.max.toNat, off = p.probe a i ∧ p.Vacant off ∧ ∀ j < i, ¬ p.Vacant (p.probe a j) := by
  have search : p.findFree (p.hash a) =
      ((List.range (p.max.toNat + 1)).map (p.probe a)).find? p.isFree := rfl
  rw [search, List.find?_map, Option.map_eq_some_iff] at found
  obtain ⟨i, found, rfl⟩ := found
  obtain ⟨free, inside, before⟩ := List.find?_range_eq_some.mp found
  rw [Function.comp] at free
  refine ⟨i, Nat.le_of_lt_succ (List.mem_range.mp inside), rfl,
    (sound.isFree_iff (probe_le a i)).mp free, fun j earlier vacant => ?_⟩
  have taken := before j earlier
  rw [Function.comp, (sound.isFree_iff (probe_le a j)).mpr vacant] at taken
  cases taken

theorem findFree_of_full (full : p.Full) (h : BitVec 32) : p.findFree h = none := by
  refine Option.eq_none_iff_forall_ne_some.mpr fun off found => ?_
  obtain ⟨free, le⟩ := p.findFree_some found
  rw [full off le] at free
  cases free

/-- The host that loses its address is the one that has not been seen for longest. -/
theorem assign_steals (sound : p.Sound) {a : Addr} {m : Moment}
    (inactive : p.mapped.get a = none) (unknown : p.dormant.get a = none) (full : p.Full)
    (some : ∃ b r, p.dormant.get b = some r) : ∃ b r, p.dormant.get b = .some r ∧
      (∀ c s, p.dormant.get c = .some s → (p.host r).lastUse ≤ (p.host s).lastUse) ∧
      (p.assign a m).1 = .some (p.host r).v4 ∧
      p.Writes (p.host r).off (.some (((p.host r).rename a).wake.usedAt m.now.unix)) true
        (p.assign a m).2 := by
  rw [assign, inactive, unknown]
  dsimp only
  rw [findFree_of_full full]
  cases choice : p.oldest m.order with
  | none =>
    obtain ⟨b, r, found⟩ := some
    cases (p.oldest_none choice b).symm.trans found
  | some r =>
    obtain ⟨⟨b, found⟩, least⟩ := p.oldest_some choice
    obtain rfl : (p.host r).v6 = b := (sound.dormant found).2.2.1
    dsimp only
    rw [v4_steal]
    exact ⟨_, r, found, least, rfl, (sound.steal _ found inactive unknown).report _⟩

theorem Sound.assigns (sound : p.Sound) (a : Addr) (m : Moment)
    (inactive : p.mapped.get a = none) : p.Assigns a m where
  folds h := foldHash_le _ h le_rfl
  start := hash_le a
  first unknown some := by
    rw [assign, inactive, unknown]
    dsimp only
    cases search : p.findFree (p.hash a) with
    | none =>
      obtain ⟨off, vacant⟩ := some
      have taken := p.findFree_none search vacant.inside.2
      rw [(sound.isFree_iff vacant.inside.2).mpr vacant] at taken
      cases taken
    | some off =>
      obtain ⟨i, bound, same, vacant, before⟩ := sound.findFree_first search
      have free := (sound.isFree_iff vacant.inside.2).mpr vacant
      simp only [isFree, Bool.and_eq_true, Bool.not_eq_true'] at free
      refine ⟨i, bound, ?_⟩
      rw [← same]
      refine ⟨vacant, before, rfl, ?_⟩
      exact (sound.fresh _ vacant.inside free.1.2 inactive unknown).report _
  oldest unknown full some := assign_steals sound inactive unknown (sound.full_iff.mpr full) some
  exhausted unknown full empty := by
    rw [assign, inactive, unknown]
    dsimp only
    rw [findFree_of_full (sound.full_iff.mpr full)]
    cases choice : p.oldest m.order with
    | none => exact ⟨rfl, _, rfl⟩
    | some r =>
      obtain ⟨⟨b, found⟩, -⟩ := p.oldest_some choice
      cases (empty b).symm.trans found
  woken r sleeping := by
    obtain rfl : (p.host r).v6 = a := (sound.dormant sleeping).2.2.1
    rw [assign, inactive, sleeping]
    dsimp only
    rw [v4_activate]
    exact ⟨rfl, (sound.activate _ sleeping).report _⟩

/-- The invariant is all there is to a sound pool, besides the room of its bitmap and hosts
that exist. -/
theorem Invariant.sound (invariant : p.Invariant) (size : p.used.length = (p.max.toNat + 64) / 64)
    (live : ∀ r, p.Holds r → r < p.heap.next) : p.Sound where
  size := size
  filed := {
    live := fun here => live _ ((invariant.by4 _ _).mp here).1
    key := fun here => ((invariant.by4 _ _).mp here).2
    awake := by
      intro k r here awake
      rcases ((invariant.by4 _ _).mp here).1 with ⟨a, found⟩ | ⟨a, found⟩
      · obtain rfl := (invariant.mapped a r found).1
        exact found
      · exact absurd ((invariant.dormant a r found).2.symm.trans awake) (by decide)
    asleep := by
      intro k r here asleep
      rcases ((invariant.by4 _ _).mp here).1 with ⟨a, found⟩ | ⟨a, found⟩
      · exact absurd ((invariant.mapped a r found).2.symm.trans asleep) (by decide)
      · obtain rfl := (invariant.dormant a r found).1
        exact found
    active := fun found =>
      ⟨(invariant.mapped _ _ found).1, (invariant.mapped _ _ found).2,
        (invariant.by4 _ _).mpr ⟨.inl ⟨_, found⟩, rfl⟩⟩
    parked := fun found =>
      ⟨(invariant.dormant _ _ found).1, (invariant.dormant _ _ found).2,
        (invariant.by4 _ _).mpr ⟨.inr ⟨_, found⟩, rfl⟩⟩
    apart := fun found => (invariant.apart _).resolve_left fun none => by
      cases none.symm.trans found }
  placed := by
    intro off d seen
    obtain ⟨r, here, rfl⟩ := Registry.view_eq_some.mp seen
    obtain ⟨held, rfl⟩ := (invariant.by4 _ _).mp here
    obtain ⟨positive, le, v4⟩ := invariant.placed r held
    refine ⟨⟨fun zero => ?_, BitVec.le_def.mpr le⟩, v4⟩
    rw [zero] at positive
    exact absurd positive (by decide)
  used := by
    intro off
    refine (invariant.used off.toNat).trans (or_congr ?_ ?_)
    · exact ⟨fun zero => BitVec.eq_of_toNat_eq zero, fun zero => congrArg BitVec.toNat zero⟩
    · rw [Option.ne_none_iff_exists']
      constructor
      · rintro ⟨r, held, same⟩
        exact ⟨_, Registry.view_eq_some.mpr
          ⟨r, (invariant.by4 _ _).mpr ⟨held, BitVec.eq_of_toNat_eq same⟩, rfl⟩⟩
      · rintro ⟨d, seen⟩
        obtain ⟨r, here, -⟩ := Registry.view_eq_some.mp seen
        obtain ⟨held, same⟩ := (invariant.by4 _ _).mp here
        exact ⟨r, held, congrArg BitVec.toNat same⟩

/-- A host without an address gets the first vacant one from its hash on, then the one of
the host that has been asleep for longest, and nothing only when there is neither. -/
theorem assign_complete (invariant : p.Invariant) (size : p.used.length = (p.max.toNat + 64) / 64)
    (live : ∀ r, p.Holds r → r < p.heap.next) (a : Addr) (m : Moment)
    (inactive : p.mapped.get a = none) : p.Assigns a m :=
  (invariant.sound size live).assigns a m inactive

/-- When all addresses are taken, the host that has been asleep for longest loses its own. -/
theorem assign_complete_filled : ∃ p q, newPool (.of (.v4 0x0a000000#32) 30) {} = .ok p ∧
    p.filled (.second 10000) (.second 10001) (.second 10002) (.second 20000) = q ∧
    q.Assigns (.v6 4 "") (.second 20001) ∧
    (q.assign (.v6 4 "") (.second 20001)).1 = some (.v4 0x0a000001#32) ∧
    [1, 2, 3].map (fun n => ((q.assign (.v6 4 "") (.second 20001)).2.dormant.get (.v6 n "")).isSome) =
      [false, true, true] := by
  obtain ⟨p, q, made, ran, inactive, answer, left⟩ : ∃ p q,
      newPool (.of (.v4 0x0a000000#32) 30) {} = .ok p ∧
      p.filled (.second 10000) (.second 10001) (.second 10002) (.second 20000) = q ∧
      q.mapped.get (.v6 4 "") = none ∧
      (q.assign (.v6 4 "") (.second 20001)).1 = some (.v4 0x0a000001#32) ∧
      [1, 2, 3].map (fun n => ((q.assign (.v6 4 "") (.second 20001)).2.dormant.get (.v6 n "")).isSome) =
        [false, true, true] :=
    ⟨_, _, rfl, rfl, by decide +kernel, by decide +kernel, by decide +kernel⟩
  have sound : q.Sound := ran ▸ (run_filled ..).sound (newPool_sound made).1
  refine ⟨p, q, made, ran, assign_complete sound.invariant sound.size ?_ _ _ inactive, answer, left⟩
  exact fun r held => sound.filed.live (sound.holds_iff.mp held)

end Pool

end Clatto.Addrmap
