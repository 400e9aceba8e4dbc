import Clatto.Addrmap.Entries
import Clatto.Addrmap.TableLookup

/-! When a table can be built, and what is found in it, without regard to the order in which
its entries were added. -/

namespace Clatto.Addrmap

open Netip Netutil

/-- Two entries that may be in one table. -/
structure Entry.Compatible (e o : Entry) : Prop where
  statics : e.kind = .static → o.kind = .static → e.v4 ≠ o.v4
  pool : e.kind = .static → o.kind = .dynamicPool → e.v4 ≠ o.v4
  pool' : e.kind = .dynamicPool → o.kind = .static → e.v4 ≠ o.v4
  sides : e.onSix → o.onSix → ∀ ip, e.v6.contains ip → ¬ o.v6.contains ip

theorem Entry.Compatible.symm {e o : Entry} (compatible : e.Compatible o) : o.Compatible e where
  statics static static' same := compatible.statics static' static same.symm
  pool static pool same := compatible.pool' pool static same.symm
  pool' pool static same := compatible.pool static pool same.symm
  sides six six' ip inside inside' := compatible.sides six' six ip inside' inside

section Accepting

variable {es : List Entry} {d : Draft} {e : Entry}

theorem Draft.Covers.addStatic_iff (covers : d.Covers es) (all : ∀ o ∈ es, o.Valid) (valid : e.Valid)
    (kind : e.kind = .static) :
    (∃ d', d.addStatic e = .ok d') ↔ ∀ o ∈ es, o.kind = .static → o.v4 ≠ e.v4 := by
  unfold Draft.addStatic
  split
  · rename_i full
    have len {o : Entry} (long : o.v4.bits = 32) : o.v4.len = some 32 := Prefix.len_of_bits long
    split
    · rename_i taken
      obtain ⟨o, found⟩ := Option.isSome_iff_exists.mp taken
      obtain ⟨member, host, same⟩ := (covers.hosts4 _ _).mp found
      obtain ⟨static, long⟩ := Entry.isHost4_iff.mp host
      refine ⟨?_, fun fresh => absurd ?_ (fresh o member static)⟩
      · rintro ⟨d', ⟨⟩⟩
      · exact Prefix.ext same ((len long).trans (len full).symm)
    · rename_i vacant
      refine ⟨fun _ o member static same => vacant ?_, fun _ => ⟨_, rfl⟩⟩
      have host : o.isHost4 = true := Entry.isHost4_iff.mpr ⟨static, same ▸ full⟩
      rw [(covers.hosts4 e.v4.addr o).mpr ⟨member, host, congrArg Prefix.addr same⟩]
      rfl
  · rename_i short
    have net {o : Entry} (static : o.kind = .static) (same : o.v4 = e.v4) : o.isNet4 = true := by
      simp [Entry.isNet4, Entry.isHost4, static, same, short]
    split
    · rename_i taken
      simp only [List.any_eq_true, decide_eq_true_eq] at taken
      obtain ⟨o, found, unpooled, same⟩ := taken
      rw [covers.nets4] at found
      have member := (List.mem_filter.mp found).1
      -- the translation prefix covers everything, which no static map does
      have static : o.kind = .static := by
        have other := (all o member).v4_eq_everything4
        rw [same, valid.v4_eq_everything4, kind] at other
        have host := (all o member).kind
        cases k : o.kind <;> simp_all
      refine ⟨?_, fun fresh => absurd same (fresh o member static)⟩
      rintro ⟨d', ⟨⟩⟩
    · rename_i fresh
      refine ⟨fun _ o member static same => fresh ?_, fun _ => ⟨_, rfl⟩⟩
      rw [covers.nets4, List.any_eq_true]
      exact ⟨o, List.mem_filter.mpr ⟨member, net static same⟩, by simp [static, same]⟩

theorem Draft.Covers.add_iff (covers : d.Covers es) (all : ∀ o ∈ es, o.Valid) (valid : e.Valid) :
    (∃ d', d.add e = .ok d') ↔
      ∀ o ∈ es, o.kind = .static → e.kind = .static → o.v4 ≠ e.v4 := by
  cases kind : e.kind with
  | rfc6052 | dynamicPool | dynamicHost =>
    simp [Draft.add, kind]
  | static =>
    have same : (∃ d', d.add e = .ok d') ↔ ∃ d', d.addStatic e = .ok d' := by
      cases added : d.addStatic e <;> simp [Draft.add, kind, added, Except.map]
    rw [same, covers.addStatic_iff all valid kind]
    simp

theorem Sides.Covers.add_iff {vs : List Entry} {s : Sides} (covers : s.Covers vs) (e : Entry) :
    (∃ s', s.add e = .ok s') ↔ ∀ o ∈ vs, o.v6.overlaps e.v6 = false := by
  unfold Sides.add
  rw [covers.seen]
  split
  · rename_i o found
    have overlap := List.find?_some found
    refine ⟨?_, fun free => ?_⟩
    · rintro ⟨s', ⟨⟩⟩
    · rw [free o (List.mem_of_find?_eq_some found)] at overlap
      cases overlap
  · rename_i none
    rw [List.find?_eq_none] at none
    refine ⟨fun _ o member => Bool.eq_false_iff.mpr (none o member), fun _ => ?_⟩
    split <;> exact ⟨_, rfl⟩

end Accepting

/-- Entries whose static maps are for different networks. -/
def Entry.Unlike (e o : Entry) : Prop := e.kind = .static → o.kind = .static → e.v4 ≠ o.v4

theorem Draft.foldlM_iff {es : List Entry} (valid : ∀ e ∈ es, e.Valid) :
    (∃ d, es.foldlM Draft.add {} = .ok d) ↔ es.Pairwise Entry.Unlike := by
  refine foldlM_pairwise (P := fun done d => (∀ e ∈ done, e.Valid) ∧ Draft.Covers done d)
    ⟨by simp, .nil⟩ (fun done d e d' ok before added => ⟨?_, ?_⟩)
    (fun done d e ok before => ?_) valid
  · intro o member
    rcases List.mem_append.mp member with old | new
    · exact before.1 o old
    · exact List.mem_singleton.mp new ▸ ok
  · exact before.2.add added ok.kind
  · exact before.2.add_iff before.1 ok

theorem Sides.foldlM_iff (vs : List Entry) :
    (∃ s, vs.foldlM Sides.add {} = .ok s) ↔
      vs.Pairwise fun o e => o.v6.overlaps e.v6 = false :=
  foldlM_pairwise (V := fun _ => True) Sides.Covers.nil
    (fun _ _ _ _ _ before added => before.add added)
    (fun _ _ e _ before => before.add_iff e) fun _ _ => trivial

/-- What is looked up in a table, said of the entries alone. -/
structure Table.Finds (t : Table) (entries : List Entry) : Prop where
  four (a : Addr) (e : Entry) : t.lookup4 a = some e ↔ e ∈ entries ∧ e.v4.contains a ∧
    ∀ o ∈ entries, o ≠ e → o.v4.contains a → o.v4.bits < e.v4.bits
  four_none (a : Addr) : t.lookup4 a = none ↔ ∀ e ∈ entries, ¬ e.v4.contains a
  six (a : Addr) (e : Entry) : t.lookup6 a = some e ↔ (e ∈ entries ∧ e.onSix ∧ e.v6.contains a) ∧
    ∀ o ∈ entries, o.onSix → o.v6.contains a → o = e
  six_none (a : Addr) : t.lookup6 a = none ↔ ∀ e ∈ entries, e.onSix → ¬ e.v6.contains a

theorem Table.Finds.congr {t t' : Table} {entries entries' : List Entry} (finds : t.Finds entries)
    (finds' : t'.Finds entries') (same : ∀ e, e ∈ entries' ↔ e ∈ entries) (a : Addr) :
    t'.lookup4 a = t.lookup4 a ∧ t'.lookup6 a = t.lookup6 a := by
  constructor
  · refine Option.ext fun e => ?_
    simp only [finds.four, finds'.four, same]
  · refine Option.ext fun e => ?_
    simp only [finds.six, finds'.six, same]

namespace Table.Built

variable {b : Builder} {t : Table} {a : Addr} {e : Entry}

theorem finds (built : t.Built b) : t.Finds b.entries where
  four a e := by
    rw [built.lookup4_eq_some]
    refine ⟨fun ⟨member, inside, longest⟩ => ⟨member, inside, fun o member' other inside' => ?_⟩,
      fun ⟨member, inside, longest⟩ => ⟨member, inside, fun o member' inside' => ?_⟩⟩
    · -- a prefix of the same length with the same address in it is the same prefix
      obtain ⟨n, net⟩ := (b.valid e member).network4
      obtain ⟨k, net'⟩ := (b.valid o member').network4
      refine lt_of_le_of_ne (longest o member' inside') fun equal => other ?_
      rw [net.bits, net'.bits] at equal
      obtain rfl : k = n := by omega
      exact built.eq_of_v4 member' member (net'.eq_of_contains net inside' inside)
    · by_cases same : o = e
      · rw [same]
      · exact Int.le_of_lt (longest o member' same inside')
  four_none a := by
    refine ⟨fun none e member => built.lookup4_none none member, fun outside => ?_⟩
    cases found : t.lookup4 a with
    | none => rfl
    | some e =>
      obtain ⟨member, inside, -⟩ := built.lookup4_eq_some.mp found
      exact absurd inside (outside e member)
  six a e := by
    rw [built.lookup6_eq_some]
    refine ⟨fun here => ⟨here, fun o member six inside => ?_⟩, fun here => here.1⟩
    exact built.apart member here.1 six here.2.1 inside here.2.2
  six_none a := by
    refine ⟨fun none e member six inside => ?_, fun outside => ?_⟩
    · rw [built.lookup6_eq_some.mpr ⟨member, six, inside⟩] at none
      cases none
    · cases found : t.lookup6 a with
      | none => rfl
      | some e =>
        obtain ⟨member, six, inside⟩ := built.lookup6_eq_some.mp found
        exact absurd inside (outside e member six)

theorem mem_all (built : t.Built b) : e ∈ t.all ↔ e ∈ b.entries := by
  have listed : e ∈ t.all ↔ (∃ a, t.hosts4.get a = some e) ∨ e ∈ t.nets4 ∨
      (∃ a, t.hosts6.get a = some e) ∨ e ∈ t.nets6 := by
    simp only [Table.all, List.mem_eraseDups, List.mem_append, List.mem_map, Sigma.exists,
      Dict.mem_entries, or_assoc, exists_eq_right]
  rw [listed]
  simp only [built.hosts4, built.mem_nets4, built.hosts6, built.mem_nets6]
  constructor
  · rintro (⟨_, member, -⟩ | ⟨member, -⟩ | ⟨_, ⟨member, -⟩, -⟩ | ⟨⟨member, -⟩, -⟩) <;> exact member
  · intro member
    by_cases host : e.isHost4 = true
    · exact .inl ⟨_, member, host, rfl⟩
    · exact .inr (.inl ⟨member, by simp [Entry.isNet4, (b.valid e member).kind, host]⟩)

end Table.Built

namespace Builder

variable (b : Builder)

/-- The same entries, added in another order. -/
def reorder {l : List Entry} (perm : l.Perm b.entries) : Builder where
  wkpfStrict := b.wkpfStrict
  entries := l
  pool := b.pool
  valid e member := b.valid e (perm.mem_iff.mp member)
  single := perm.symm.pairwise b.single @fun _ _ single same => same.trans (single same.symm)
  pooled e member := b.pooled e (perm.mem_iff.mp member)
  attached p found := perm.mem_iff.mpr (b.attached p found)

/-- The checks of `Build`, over pairs of entries. -/
def Passable (entries : List Entry) : Prop :=
  entries.Pairwise (fun e o => e.kind = .static → o.kind = .static → e.v4 ≠ o.v4) ∧
    (∀ e ∈ entries, ∀ o ∈ entries, e.kind = .static → o.kind = .dynamicPool → e.v4 ≠ o.v4) ∧
    (entries.filter Entry.onSix).Pairwise fun o e => o.v6.overlaps e.v6 = false

instance (entries : List Entry) : Decidable (Passable entries) :=
  inferInstanceAs (Decidable (_ ∧ _ ∧ _))

theorem compatible_iff : b.entries.Pairwise Entry.Compatible ↔ Passable b.entries := by
  have sides {e o : Entry} (member : e ∈ b.entries) (member' : o ∈ b.entries) (six : e.onSix)
      (six' : o.onSix) :
      e.v6.overlaps o.v6 = false ↔ ∀ ip, e.v6.contains ip → ¬ o.v6.contains ip := by
    obtain ⟨n, net⟩ := (b.valid e member).network6 six
    obtain ⟨k, net'⟩ := (b.valid o member').network6 six'
    rw [Bool.eq_false_iff, Ne, Prefix.overlaps_iff net.len net'.len]
    simp
  rw [Passable, List.pairwise_filter]
  constructor
  · intro compatible
    refine ⟨compatible.imp fun pair => pair.statics, ?_, compatible.imp_of_mem ?_⟩
    · intro e member o member' static pool
      have both : Std.Symm fun e o : Entry => e ≠ o → e.Compatible o :=
        ⟨fun e o pair other => (pair other.symm).symm⟩
      have all := (compatible.imp fun {e o} pair (_ : e ≠ o) => pair).forall_of_forall
        (fun _ _ other => absurd rfl other)
      refine (all member member' ?_).pool static pool
      rintro rfl
      cases static.symm.trans pool
    · exact fun member member' pair six six' =>
        (sides member member' six six').mpr (pair.sides six six')
  · rintro ⟨statics, unpooled, apart⟩
    refine (statics.and apart).imp_of_mem fun {e o} member member' pair => ?_
    exact ⟨pair.1, unpooled e member o member',
      fun pool static same => unpooled o member' e member static pool same.symm,
      fun six six' => (sides member member' six six').mp (pair.2 six six')⟩

theorem build_iff_compatible :
    (∃ s, b.build = .ok s) ↔ b.entries.Pairwise Entry.Compatible := by
  have sorted := List.mergeSort_perm b.entries fun e o => decide (e.v4.bits ≥ o.v4.bits)
  have valid (e : Entry) (member : e ∈ b.entries.mergeSort fun e o => e.v4.bits ≥ o.v4.bits) :=
    b.valid e (List.mem_mergeSort.mp member)
  have first := Draft.foldlM_iff valid
  rw [sorted.pairwise_iff @fun _ _ unlike static static' same => unlike static' static same.symm]
    at first
  have second {d : Draft}
      (ran : (b.entries.mergeSort fun e o => e.v4.bits ≥ o.v4.bits).foldlM Draft.add {} = .ok d) :
      (∃ sides, (d.v6s.mergeSort fun e o => e.v6.bits ≥ o.v6.bits).foldlM Sides.add {} = .ok sides) ↔
        (b.entries.filter Entry.onSix).Pairwise fun o e => o.v6.overlaps e.v6 = false := by
    have covers := Draft.covers_of_foldlM ran fun e member => (valid e member).kind
    rw [Sides.foldlM_iff]
    have perm := (List.mergeSort_perm d.v6s fun e o => decide (e.v6.bits ≥ o.v6.bits)).trans
      (covers.v6s ▸ sorted.filter Entry.onSix)
    refine perm.pairwise_iff @fun o e apart => ?_
    rwa [Prefix.overlaps_comm]
  have free {d : Draft}
      (ran : (b.entries.mergeSort fun e o => e.v4.bits ≥ o.v4.bits).foldlM Draft.add {} = .ok d) :=
    (Draft.covers_of_foldlM ran fun e member => (valid e member).kind).poolConflict_none
      fun _ => List.mem_mergeSort
  rw [compatible_iff]
  constructor
  · rintro ⟨s, built⟩
    obtain ⟨d, sides, ran, unpooled, ran', -⟩ := build_eq built
    exact ⟨first.mp ⟨d, ran⟩, (free ran).mp unpooled, (second ran).mp ⟨sides, ran'⟩⟩
  · rintro ⟨statics, unpooled, apart⟩
    obtain ⟨d, ran⟩ := first.mpr statics
    obtain ⟨sides, ran'⟩ := (second ran).mpr apart
    exact ⟨_, b.build_of_checks ran ((free ran).mpr unpooled) ran'⟩

/-- When a table is built and what is found in it, whatever the order of its entries. -/
theorem build_spec :
    ((∃ s, b.build = .ok s) ↔ b.entries.Pairwise Entry.Compatible) ∧
    (∀ s, b.build = .ok s → s.table.Finds b.entries) ∧
    ∀ (l : List Entry) (perm : l.Perm b.entries),
      ((∃ s', (b.reorder perm).build = .ok s') ↔ ∃ s, b.build = .ok s) ∧
      ∀ s s', b.build = .ok s → (b.reorder perm).build = .ok s' → ∀ a,
        s'.table.lookup4 a = s.table.lookup4 a ∧ s'.table.lookup6 a = s.table.lookup6 a := by
  refine ⟨b.build_iff_compatible, fun s built => (Table.built_of_build built).finds,
    fun l perm => ⟨?_, fun s s' built built' a => ?_⟩⟩
  · rw [build_iff_compatible, build_iff_compatible]
    exact perm.pairwise_iff @fun _ _ => Entry.Compatible.symm
  · exact (Table.built_of_build built).finds.congr (Table.built_of_build built').finds
      (fun e => perm.mem_iff) a

end Builder

end Clatto.Addrmap
