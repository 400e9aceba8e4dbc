import Clatto.Addrmap.Mapping

/-! Which assignments a pool takes over from a state file, and whether they fit a table. -/

namespace Clatto.Addrmap

open Netip

/-- Neither address of a row is assigned. -/
def Row.Free (held : Set (Addr × Addr)) (row : Row) : Prop :=
  ∀ pair ∈ held, pair.1 ≠ row.v4 ∧ pair.2 ≠ row.v6

open Classical in
/-- A row is taken over if it is fit and both its addresses are free. -/
noncomputable def Row.take (fit : Row → Prop) (held : Set (Addr × Addr)) (row : Row) :
    Set (Addr × Addr) :=
  if fit row ∧ row.Free held then insert (row.v4, row.v6) held else held

/-- The assignments after all rows, of which each may stand in the way of later ones. -/
noncomputable def takeOver (fit : Row → Prop) (held : Set (Addr × Addr)) (rows : List Row) :
    Set (Addr × Addr) :=
  rows.foldl (Row.take fit) held

theorem mem_takeOver {fit : Row → Prop} {held : Set (Addr × Addr)} {rows : List Row}
    {pair : Addr × Addr} (member : pair ∈ takeOver fit held rows) :
    pair ∈ held ∨ ∃ row ∈ rows, fit row ∧ pair = (row.v4, row.v6) := by
  induction rows generalizing held with
  | nil => exact .inl member
  | cons row rows ih =>
    rcases ih member with before | later
    · rw [Row.take] at before
      split at before
      · rename_i fits
        rcases before with rfl | before
        · exact .inr ⟨row, List.mem_cons_self, fits.1, rfl⟩
        · exact .inl before
      · exact .inl before
    · obtain ⟨row', member', found⟩ := later
      exact .inr ⟨row', List.mem_cons_of_mem _ member', found⟩

namespace Pool

variable {p : Pool}

/-- A pool has a place for a row, if nobody has taken it. -/
structure Offers (p : Pool) (row : Row) : Prop where
  inside : p.pfx.contains row.v4 = true
  host : row.v4 ≠ p.pfx.addr
  usable : Netutil.validIPv6 row.v6.as16 = true
  unreserved : p.reserved row.v4 = false

theorem addr_zero (p : Pool) : p.addr 0 = p.pfx.addr := by
  simp [addr, p.four]

theorem addr_injective {off off' : BitVec 32} (le : off ≤ p.max) (le' : off' ≤ p.max)
    (same : p.addr off = p.addr off') : off = off' := by
  rw [addr, addr, Addr.v4.injEq] at same
  rw [← p.addr_and_max le, same, p.addr_and_max le']

theorem four_of_contains {a : Addr} (inside : p.pfx.contains a = true) : ∃ bits, a = .v4 bits := by
  have family := ((Prefix.contains_iff p.len a).mp inside).1
  rw [p.four] at family
  cases a with
  | v4 bits => exact ⟨bits, rfl⟩
  | zero => cases family
  | v6 bits zone => cases family

/-- A row is accepted if there is a place for it and both its addresses are free. -/
theorem accepts_iff (sound : p.Sound) {row : Row} :
    (∃ off, p.accepts row = some off) ↔ p.Offers row ∧ row.Free p.pairs := by
  constructor
  · rintro ⟨off, accepted⟩
    obtain ⟨⟨nonzero, le⟩, place, usable, unused, unreserved, unknown, inactive⟩ :=
      accepts_eq_some.mp accepted
    refine ⟨⟨?_, ?_, usable, unreserved⟩, ?_⟩
    · rw [place]
      exact p.contains_addr le
    · intro network
      rw [place, ← p.addr_zero] at network
      exact nonzero (addr_injective le (BitVec.le_def.mpr (Nat.zero_le _)) network)
    · intro pair member
      obtain ⟨off', d, held, rfl⟩ := sound.mem_pairs.mp member
      refine ⟨fun same => ?_, sound.unknown inactive unknown off' d held⟩
      obtain ⟨⟨-, le'⟩, v4⟩ := sound.placed held
      obtain rfl := addr_injective le' le (v4.symm.trans (same.trans place))
      rw [sound.vacant unused] at held
      cases held
  · rintro ⟨offers, free⟩
    obtain ⟨bits, four⟩ := four_of_contains offers.inside
    have place : p.addr (bits &&& p.max) = row.v4 := by
      rw [four]
      exact p.addr_of_contains (four ▸ offers.inside)
    have nonzero : bits &&& p.max ≠ 0 := by
      intro zero
      rw [zero, p.addr_zero] at place
      exact offers.host place.symm
    have vacant : p.table (bits &&& p.max) = none := by
      by_contra taken
      obtain ⟨d, held⟩ := Option.ne_none_iff_exists'.mp taken
      exact (free _ (sound.mem_pairs.mpr ⟨_, d, held, rfl⟩)).1 ((sound.placed held).2.trans place)
    refine ⟨bits &&& p.max, accepts_eq_some.mpr ⟨⟨nonzero, p.and_max_le bits⟩, place.symm,
      offers.usable, ?_, offers.unreserved, ?_, ?_⟩⟩
    · by_contra used
      rcases (sound.used _).mp (Bool.eq_true_of_not_eq_false used) with zero | taken
      · exact nonzero zero
      · exact taken vacant
    · by_contra known
      obtain ⟨r, found⟩ := Option.ne_none_iff_exists'.mp known
      obtain ⟨-, held, name, -⟩ := sound.dormant found
      exact (free _ (sound.mem_pairs.mpr ⟨_, _, held, rfl⟩)).2 name
    · by_contra known
      obtain ⟨r, found⟩ := Option.ne_none_iff_exists'.mp known
      obtain ⟨-, held, name, -⟩ := sound.mapped found
      exact (free _ (sound.mem_pairs.mpr ⟨_, _, held, rfl⟩)).2 name

theorem Writes.pairs_insert {d : DynHost} {p' : Pool} {off : BitVec 32} {dirty : Bool}
    (sound : p.Sound) (writes : p.Writes off (some d) dirty p') (vacant : p.table off = none) :
    p'.pairs = insert d.pair p.pairs := by
  ext pair
  rw [Set.mem_insert_iff, writes.sound.mem_pairs, sound.mem_pairs, writes.table]
  constructor
  · rintro ⟨l, e, here, rfl⟩
    by_cases place : l = off
    · subst place
      rw [Function.update_self] at here
      cases here
      exact .inl rfl
    · rw [Function.update_of_ne place] at here
      exact .inr ⟨l, e, here, rfl⟩
  · rintro (rfl | ⟨l, e, here, rfl⟩)
    · exact ⟨off, d, Function.update_self .., rfl⟩
    · have place : l ≠ off := by
        rintro rfl
        rw [vacant] at here
        cases here
      exact ⟨l, e, (Function.update_of_ne place ..).trans here, rfl⟩

theorem Keeps.offers {q : Pool} (keeps : p.Keeps q) (row : Row) : q.Offers row ↔ p.Offers row := by
  have pfx : q.pfx = p.pfx := congrArg Range.pfx keeps.range
  constructor
  · rintro ⟨inside, host, usable, unreserved⟩
    rw [pfx] at inside host
    rw [keeps.reserved] at unreserved
    exact ⟨inside, host, usable, unreserved⟩
  · rintro ⟨inside, host, usable, unreserved⟩
    rw [← pfx] at inside host
    rw [← keeps.reserved] at unreserved
    exact ⟨inside, host, usable, unreserved⟩

theorem Loading.Sound.line_pairs {l : Loading} (ok : Loading.Sound p l) (now : Int64) (line : Text) :
    (l.line now line).pool.pairs =
      (parseRow line).elim l.pool.pairs (Row.take p.Offers l.pool.pairs) := by
  rw [Loading.line]
  cases parsed : parseRow line with
  | none => rfl
  | some row =>
    have accepts := @accepts_iff _ ok.sound row
    rw [ok.keeps.offers] at accepts
    rw [Option.elim_some, Row.take]
    cases accepted : l.pool.accepts row with
    | none =>
      have unfit : ¬ (p.Offers row ∧ row.Free l.pool.pairs) := by
        intro fit
        obtain ⟨off, found⟩ := accepts.mpr fit
        rw [accepted] at found
        cases found
      simp only [accepted, if_neg unfit]
    | some off =>
      simp only [accepted, if_pos (accepts.mp ⟨off, accepted⟩)]
      refine (ok.accept accepted).pairs_insert ok.sound ?_
      obtain ⟨-, -, -, unused, -⟩ := accepts_eq_some.mp accepted
      exact ok.sound.vacant unused

theorem Loading.Sound.lines_pairs {l : Loading} (ok : Loading.Sound p l) (now : Int64)
    (lines : List Text) :
    (lines.foldl (Loading.line now) l).pool.pairs =
      takeOver p.Offers l.pool.pairs (lines.filterMap parseRow) := by
  induction lines generalizing l with
  | nil => rfl
  | cons line lines ih =>
    rw [List.foldl_cons, ih (ok.line now line), ok.line_pairs]
    cases parsed : parseRow line with
    | none => rw [List.filterMap_cons_none parsed, Option.elim_none]
    | some row =>
      rw [List.filterMap_cons_some parsed, Option.elim_some, takeOver, takeOver, List.foldl_cons]

theorem Settled.pairs {offs : List (BitVec 32)} {p' : Pool} {future : Bool} {now minLease : Int64}
    (sound : p.Sound) (settled : Settled p offs (DynHost.settled future now minLease) p') :
    p'.pairs = p.pairs := by
  have same (d : DynHost) : (d.settled future now minLease).pair = d.pair := by
    rw [DynHost.settled]
    split
    · rfl
    · split <;> rfl
  ext pair
  rw [settled.sound.mem_pairs, sound.mem_pairs]
  constructor
  · rintro ⟨off, e, held', rfl⟩
    rw [settled.table, Option.map_eq_some_iff] at held'
    obtain ⟨d, held, rfl⟩ := held'
    refine ⟨off, d, held, ?_⟩
    split
    · exact (same d).symm
    · rfl
  · rintro ⟨off, d, held, rfl⟩
    refine ⟨off, _, (settled.table off).trans (by rw [held, Option.map_some]), ?_⟩
    split
    · exact same d
    · rfl

theorem read_pairs (sound : p.Sound) (m : Moment) (s : Scan) :
    (p.read m s).2.pairs = takeOver p.Offers p.pairs (s.lines.filterMap parseRow) := by
  have start := Loading.Sound.start sound
  have ok := start.lines m.now.unix s.lines
  rw [← start.lines_pairs m.now.unix s.lines, read]
  split
  · rfl
  · exact (settle_all _ _ _ _ ok.sound ok.distinct ok.dormant).pairs ok.sound

end Pool

namespace Table

variable {t : Table} {p : Pool}

structure Fits (t : Table) (p : Pool) : Prop where
  sound : p.Sound
  entry : t.poolEntry = some (Addrmap.poolEntry p.pfx)
  reserved : p.reserved = fun a => decide (t.lookup4 a ≠ t.poolEntry)

/-- The table finds the pool for every address that is assigned and nothing for its host, and
finds the pool for every address that the pool is going to hand out. -/
structure Consistent (t : Table) (p : Pool) : Prop where
  held : ∀ v4 v6, (v4, v6) ∈ p.pairs →
    t.lookup4 v4 = some (Addrmap.poolEntry p.pfx) ∧ t.lookup6 v6 = none
  granted : ∀ b m a, (p.lookup6 b true m).1 = some a →
    t.lookup4 a = some (Addrmap.poolEntry p.pfx)

theorem Fits.unreserved (fits : t.Fits p) {a : Addr} (free : p.reserved a = false) :
    t.lookup4 a = some (Addrmap.poolEntry p.pfx) := by
  rw [fits.reserved, decide_eq_false_iff_not, not_not, fits.entry] at free
  exact free

/-- An address that is handed out was assigned before or is not reserved. -/
theorem Fits.consistent (fits : t.Fits p)
    (held : ∀ v4 v6, (v4, v6) ∈ p.pairs →
      t.lookup4 v4 = some (Addrmap.poolEntry p.pfx) ∧ t.lookup6 v6 = none) : t.Consistent p where
  held := held
  granted b m a answer := by
    have known {d : DynHost} (here : p.table d.off = some d) :
        t.lookup4 d.v4 = some (Addrmap.poolEntry p.pfx) :=
      (held d.v4 d.v6 (fits.sound.mem_pairs.mpr ⟨_, _, here, rfl⟩)).1
    have asked := Pool.lookup6_asked fits.sound b true m
    rw [answer] at asked
    cases asked with
    | known here => exact known here
    | woken _ here => exact known here
    | granted _ _ _ free =>
      simp only [Pool.isFree, Bool.and_eq_true, Bool.not_eq_true'] at free
      exact fits.unreserved free.2
    | stolen _ _ _ here => exact known here

theorem hosts_iff : t.Hosts p ↔ t.Fits p ∧ t.Consistent p := by
  constructor
  · intro hosts
    have fits : t.Fits p := ⟨hosts.sound, hosts.entry, hosts.reserved⟩
    refine ⟨fits, fits.consistent fun v4 v6 member => ?_⟩
    rw [← hosts.entry]
    exact hosts.clear member
  · rintro ⟨fits, consistent⟩
    refine ⟨fits.sound, fits.entry, fits.reserved, @fun v4 v6 member => ?_⟩
    rw [fits.entry]
    exact consistent.held v4 v6 member

theorem Fits.read (fits : t.Fits p) (m : Moment) (s : Scan) : t.Fits (p.read m s).2 := by
  obtain ⟨sound, keeps⟩ := Pool.read_sound fits.sound m s
  have pfx : (p.read m s).2.pfx = p.pfx := congrArg Range.pfx keeps.range
  exact ⟨sound, by rw [fits.entry, pfx], keeps.reserved.trans fits.reserved⟩

theorem Fits.read_consistent_iff (fits : t.Fits p)
    (held : ∀ pair ∈ p.pairs, t.lookup4 pair.1 = some (Addrmap.poolEntry p.pfx)) (m : Moment)
    (s : Scan) :
    t.Consistent (p.read m s).2 ↔
      ∀ pair ∈ takeOver p.Offers p.pairs (s.lines.filterMap parseRow), t.lookup6 pair.2 = none := by
  obtain ⟨-, keeps⟩ := Pool.read_sound fits.sound m s
  have pfx : (p.read m s).2.pfx = p.pfx := congrArg Range.pfx keeps.range
  rw [← Pool.read_pairs fits.sound m s]
  constructor
  · intro consistent pair member
    exact (consistent.held pair.1 pair.2 member).2
  · intro clear
    refine (fits.read m s).consistent fun v4 v6 member => ⟨?_, clear (v4, v6) member⟩
    rw [pfx]
    rw [Pool.read_pairs fits.sound m s] at member
    rcases mem_takeOver member with before | ⟨row, -, offers, same⟩
    · exact held _ before
    · rw [(Prod.mk.inj same).1]
      exact fits.unreserved offers.unreserved

end Table

end Clatto.Addrmap
