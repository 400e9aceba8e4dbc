import Clatto.Addrmap.Table
import Clatto.Lib.Fold

/-! What is found in a table that was built: on the IPv4 side the longest match, on the
IPv6 side the only match. -/

namespace Clatto.Addrmap

open Netip Netutil

namespace Entry

def isHost4 (e : Entry) : Bool := e.kind = .static ∧ e.v4.bits = 32

def isNet4 (e : Entry) : Bool := e.kind ≠ .dynamicHost ∧ ¬ e.isHost4

/-- Whether an entry has an IPv6 side of its own. -/
def onSix (e : Entry) : Bool := e.kind = .rfc6052 ∨ (e.kind = .static ∧ e.v4Only = false)

def isHost6 (e : Entry) : Bool := e.kind = .static ∧ e.v6.bits = 128

theorem isHost4_iff {e : Entry} : e.isHost4 = true ↔ e.kind = .static ∧ e.v4.bits = 32 := by
  simp [isHost4]

theorem isHost6_iff {e : Entry} : e.isHost6 = true ↔ e.kind = .static ∧ e.v6.bits = 128 := by
  simp [isHost6]

end Entry

/-- The two sides of a static map have the same number of host bits. -/
theorem StaticMap.networks {v4 v6 : Prefix} (ok : StaticMap v4 v6) :
    ∃ n, v4.Network 32 n ∧ v6.Network 128 (n + 96) := by
  obtain ⟨bits, four, -⟩ := ok.four
  obtain ⟨n, net4⟩ := Prefix.exists_network ok.v4Masked (by rw [four]; nofun)
  have six := Addr.is6_iff.mp ok.six.1
  obtain ⟨k, net6⟩ := Prefix.exists_network ok.v6Masked
    (by intro zero; simp [zero, Addr.bitLen] at six)
  rw [six] at net6
  have family : v4.addr.bitLen = 32 := by rw [four]; rfl
  rw [family] at net4
  have size := ok.size
  rw [net4.bits, net6.bits] at size
  have := net4.le
  have := net6.le
  obtain rfl : k = n + 96 := by omega
  exact ⟨n, net4, net6⟩

theorem TranslationPrefix.network {v6 : Prefix} (ok : TranslationPrefix v6) :
    ∃ l : PrefixLen, prefixLen? v6.bits = some l ∧ v6.Network 128 (8 * l.bytes) := by
  have six := Addr.is6_iff.mp ok.six.1
  obtain ⟨n, net⟩ := Prefix.exists_network ok.masked
    (by intro zero; simp [zero, Addr.bitLen] at six)
  rw [six] at net
  obtain ⟨l, found⟩ := Option.isSome_iff_exists.mp ok.len
  have len := found
  rw [net.bits] at len
  exact ⟨l, found, prefixLen?_bytes len ▸ net⟩

theorem everything4_network : everything4.Network 32 0 := by
  refine ⟨rfl, rfl, ?_⟩
  rw [Prefix.eq_masked_iff rfl]
  decide

theorem Range.network (r : Range) : r.pfx.Network 32 r.bits :=
  ⟨by rw [r.four]; rfl, r.len, r.aligned⟩

namespace Entry

variable {e : Entry}

theorem Valid.network4 (valid : e.Valid) : ∃ n, e.v4.Network 32 n := by
  cases valid with
  | pfx => exact ⟨0, everything4_network⟩
  | static ok =>
    obtain ⟨n, net, -⟩ := ok.networks
    exact ⟨n, net⟩
  | @self bits _ v6 => exact ⟨32, Prefix.of_network (.v4 bits) nofun⟩
  | pool p => exact ⟨_, p.network⟩

theorem Valid.network6 (valid : e.Valid) (six : e.onSix) : ∃ n, e.v6.Network 128 n := by
  cases valid with
  | pfx ok =>
    obtain ⟨l, -, net⟩ := ok.network
    exact ⟨_, net⟩
  | static ok =>
    obtain ⟨n, -, net⟩ := ok.networks
    exact ⟨_, net⟩
  | self => cases six
  | pool => cases six

/-- Only the translation prefix covers the whole IPv4 address space. -/
theorem Valid.v4_eq_everything4 (valid : e.Valid) : e.v4 = everything4 ↔ e.kind = .rfc6052 := by
  have bits : everything4.bits = 0 := everything4_network.bits
  cases valid with
  | pfx => exact ⟨fun _ => rfl, fun _ => rfl⟩
  | static ok =>
    refine ⟨fun same => ?_, nofun⟩
    obtain ⟨addr, four, usable⟩ := ok.four
    have zero : addr = 0 := by
      have := congrArg Prefix.addr same
      rw [show (staticEntry _ _).v4.addr = _ from four] at this
      exact Addr.v4.inj this
    subst zero
    exact absurd (by decide) usable
  | @self addr _ v6 =>
    refine ⟨fun same => ?_, nofun⟩
    have := congrArg Prefix.bits same
    rw [bits, show (selfEntry (.v4 addr) v6).v4.bits = _ from
      (Prefix.of_network (.v4 addr) nofun).bits] at this
    cases this
  | pool p =>
    refine ⟨fun same => ?_, nofun⟩
    have := congrArg Prefix.bits same
    rw [bits, show (poolEntry p.pfx).v4.bits = _ from p.network.bits] at this
    have := p.bits_ge
    omega

theorem Valid.kind (valid : e.Valid) : e.kind ≠ .dynamicHost := by
  cases valid <;> nofun

end Entry

theorem Builder.only (b : Builder) {e o : Entry} (one : e ∈ b.entries) (other : o ∈ b.entries)
    (same : e.kind = o.kind) (kind : e.kind ≠ .static) : e = o := by
  have all : b.entries.Pairwise fun e o => e.kind = o.kind → e.kind ≠ .static → e = o :=
    b.single.imp fun single same kind => absurd (single same) kind
  have flipped : Std.Symm fun e o : Entry => e.kind = o.kind → e.kind ≠ .static → e = o :=
    ⟨fun e o eq same kind => (eq same.symm (same ▸ kind)).symm⟩
  exact all.forall_of_forall (fun _ _ _ _ => rfl) one other same kind

/-- What is known of the entries that have been added to a draft. -/
structure Draft.Covers (es : List Entry) (d : Draft) : Prop where
  hosts4 (a : Addr) (e : Entry) :
    d.hosts4.get a = some e ↔ e ∈ es ∧ e.isHost4 = true ∧ e.v4.addr = a
  nets4 : d.nets4 = es.filter Entry.isNet4
  v6s : d.v6s = es.filter Entry.onSix
  pool {e : Entry} : d.poolEntry = some e → e ∈ es ∧ e.kind = .dynamicPool
  pooled {e : Entry} : e ∈ es → e.kind = .dynamicPool → d.poolEntry.isSome
  distinct {e o : Entry} : e ∈ es → o ∈ es → e.kind = .static → o.kind = .static →
    e.v4.bits ≠ 32 → e.v4 = o.v4 → e = o

theorem Draft.Covers.nil : Draft.Covers [] {} where
  hosts4 := by simp
  nets4 := rfl
  v6s := rfl
  pool := by simp
  pooled := by simp
  distinct := by simp

section Adding

variable {es : List Entry} {d d' : Draft} {e : Entry}

theorem Draft.Covers.other (covers : d.Covers es) (kind : e.kind = .rfc6052 ∨ e.kind = .dynamicPool)
    (hosts : d'.hosts4 = d.hosts4) (nets : d'.nets4 = d.nets4 ++ [e])
    (v6s : d'.v6s = if e.kind = .rfc6052 then d.v6s ++ [e] else d.v6s)
    (pool : d'.poolEntry = if e.kind = .dynamicPool then some e else d.poolEntry) :
    d'.Covers (es ++ [e]) := by
  have static : e.kind ≠ .static := by rcases kind with k | k <;> simp [k]
  have host : e.isHost4 = false := by simp [Entry.isHost4, static]
  have net : e.isNet4 = true := by
    rcases kind with k | k <;> simp [Entry.isNet4, k, host]
  have six : e.onSix = decide (e.kind = .rfc6052) := by simp [Entry.onSix, static]
  refine ⟨fun a o => ?_, ?_, ?_, @fun o found => ?_, @fun o member pooled => ?_,
    @fun o q one two k k' => ?_⟩
  · rw [hosts, covers.hosts4]
    simp only [List.mem_append, List.mem_singleton]
    constructor
    · exact fun ⟨member, rest⟩ => ⟨.inl member, rest⟩
    · rintro ⟨member | rfl, is, same⟩
      · exact ⟨member, is, same⟩
      · cases host.symm.trans is
  · rw [nets, covers.nets4, List.filter_append]
    simp [net]
  · rw [v6s, covers.v6s, List.filter_append]
    split <;> simp_all
  · rw [pool] at found
    split at found
    · cases found
      exact ⟨List.mem_append_right _ (List.mem_singleton_self _), ‹_›⟩
    · exact ⟨List.mem_append_left _ (covers.pool found).1, (covers.pool found).2⟩
  · rw [pool]
    split
    · rfl
    · rcases List.mem_append.mp member with old | new
      · exact covers.pooled old pooled
      · rw [List.mem_singleton.mp new] at pooled
        contradiction
  · rcases List.mem_append.mp one with one | one
    · rcases List.mem_append.mp two with two | two
      · exact covers.distinct one two k k'
      · rw [List.mem_singleton.mp two] at k'
        exact absurd k' static
    · rw [List.mem_singleton.mp one] at k
      exact absurd k static

theorem Draft.Covers.addStatic (covers : d.Covers es) (kind : e.kind = .static)
    (added : d.addStatic e = .ok d') :
    ({ d' with v6s := if e.v4Only then d'.v6s else d'.v6s ++ [e] } : Draft).Covers (es ++ [e]) := by
  have six : e.onSix = !e.v4Only := by simp [Entry.onSix, kind]
  have v6s (old : List Entry) (same : old = es.filter Entry.onSix) :
      (if e.v4Only then old else old ++ [e]) = (es ++ [e]).filter Entry.onSix := by
    rw [same, List.filter_append]
    cases only : e.v4Only <;> simp [six, only]
  have pooled (old : Option Entry) (same : old = d.poolEntry) :
      (∀ {o}, old = some o → o ∈ es ++ [e] ∧ o.kind = .dynamicPool) ∧
        ∀ {o}, o ∈ es ++ [e] → o.kind = .dynamicPool → old.isSome := by
    subst same
    refine ⟨fun found => ⟨List.mem_append_left _ (covers.pool found).1, (covers.pool found).2⟩,
      fun member pool => ?_⟩
    rcases List.mem_append.mp member with old | new
    · exact covers.pooled old pool
    · rw [List.mem_singleton.mp new, kind] at pool
      cases pool
  unfold Draft.addStatic at added
  split at added
  · rename_i full
    have host : e.isHost4 = true := by simp [Entry.isHost4, kind, full]
    split at added <;> cases added
    rename_i vacant
    rw [Option.not_isSome_iff_eq_none] at vacant
    refine ⟨fun a o => ?_, ?_, v6s _ covers.v6s, (pooled _ rfl).1, (pooled _ rfl).2,
      @fun o q one two k k' long same => ?_⟩
    · change (d.hosts4.put e.v4.addr e).get a = some o ↔ _
      rw [Dict.get_put]
      simp only [List.mem_append, List.mem_singleton]
      split
      · rename_i here
        subst here
        constructor
        · rintro ⟨⟩
          exact ⟨.inr rfl, host, rfl⟩
        · rintro ⟨member | rfl, is, same⟩
          · rw [(covers.hosts4 _ _).mpr ⟨member, is, same⟩] at vacant
            cases vacant
          · rfl
      · rename_i elsewhere
        rw [covers.hosts4]
        constructor
        · exact fun ⟨member, rest⟩ => ⟨.inl member, rest⟩
        · rintro ⟨member | rfl, is, same⟩
          · exact ⟨member, is, same⟩
          · exact absurd same.symm elsewhere
    · change d.nets4 = _
      rw [covers.nets4, List.filter_append]
      simp [Entry.isNet4, host]
    · rcases List.mem_append.mp one with one | one
      · rcases List.mem_append.mp two with two | two
        · exact covers.distinct one two k k' long same
        · rw [List.mem_singleton.mp two] at same
          exact absurd (by rw [same]; exact full) long
      · rw [List.mem_singleton.mp one] at long
        exact absurd full long
  · rename_i short
    have host : e.isHost4 = false := by simp [Entry.isHost4, short]
    have net : e.isNet4 = true := by simp [Entry.isNet4, kind, host]
    split at added <;> cases added
    rename_i fresh
    simp only [List.any_eq_true, decide_eq_true_eq, not_exists, not_and] at fresh
    have new {o : Entry} (member : o ∈ es) (k : o.kind = .static) : o.v4 ≠ e.v4 := by
      intro same
      refine fresh o ?_ (by simp [k]) same
      rw [covers.nets4, List.mem_filter]
      refine ⟨member, ?_⟩
      simp [Entry.isNet4, Entry.isHost4, k, same, short]
    refine ⟨fun a o => ?_, ?_, v6s _ covers.v6s, (pooled _ rfl).1, (pooled _ rfl).2,
      @fun o q one two k k' long same => ?_⟩
    · change d.hosts4.get a = some o ↔ _
      rw [covers.hosts4]
      simp only [List.mem_append, List.mem_singleton]
      constructor
      · exact fun ⟨member, rest⟩ => ⟨.inl member, rest⟩
      · rintro ⟨member | rfl, is, same⟩
        · exact ⟨member, is, same⟩
        · cases host.symm.trans is
    · change d.nets4 ++ [e] = _
      rw [covers.nets4, List.filter_append]
      simp [net]
    · rcases List.mem_append.mp one with one | one
      · rcases List.mem_append.mp two with two | two
        · exact covers.distinct one two k k' long same
        · rw [List.mem_singleton.mp two] at same
          exact absurd same (new one k)
      · rcases List.mem_append.mp two with two | two
        · rw [List.mem_singleton.mp one] at same
          exact absurd same.symm (new two k')
        · rw [List.mem_singleton.mp one, List.mem_singleton.mp two]

theorem Draft.Covers.add (covers : d.Covers es) (added : d.add e = .ok d')
    (kind : e.kind ≠ .dynamicHost) : d'.Covers (es ++ [e]) := by
  unfold Draft.add at added
  split at added
  · rename_i k
    cases added
    exact covers.other (.inl k) rfl rfl (by simp [k]) (by simp [k])
  · rename_i k
    cases added
    exact covers.other (.inr k) rfl rfl (by simp [k]) (by simp [k])
  · rename_i k
    cases result : d.addStatic e with
    | error text =>
      rw [result] at added
      cases added
    | ok draft =>
      rw [result] at added
      cases added
      have covers := covers.addStatic k result
      cases only : e.v4Only <;> simpa [only] using covers
  · contradiction

end Adding

/-- What is known of the entries whose IPv6 side has been gone through. -/
structure Sides.Covers (vs : List Entry) (s : Sides) : Prop where
  seen : s.seen = vs
  hosts6 (a : Addr) (e : Entry) :
    s.hosts6.get a = some e ↔ e ∈ vs ∧ e.isHost6 = true ∧ e.v6.addr = a
  nets6 : s.nets6 = vs.filter fun e => !e.isHost6
  apart : vs.Pairwise fun o e => o.v6.overlaps e.v6 = false

theorem Sides.Covers.nil : Sides.Covers [] {} where
  seen := rfl
  hosts6 := by simp
  nets6 := rfl
  apart := .nil

theorem Sides.Covers.add {vs : List Entry} {s s' : Sides} {e : Entry} (covers : s.Covers vs)
    (added : s.add e = .ok s') : s'.Covers (vs ++ [e]) := by
  unfold Sides.add at added
  split at added
  · cases added
  rename_i free
  rw [covers.seen, List.find?_eq_none] at free
  have apart : (vs ++ [e]).Pairwise fun o e => o.v6.overlaps e.v6 = false := by
    refine List.pairwise_append.mpr ⟨covers.apart, List.pairwise_singleton _ _, ?_⟩
    intro o member n new
    rw [List.mem_singleton.mp new]
    exact Bool.eq_false_iff.mpr (free o member)
  split at added
  · rename_i host
    have is : e.isHost6 = true := by simp [Entry.isHost6, host]
    cases added
    refine ⟨by rw [covers.seen], fun a o => ?_, ?_, apart⟩
    · change (s.hosts6.put e.v6.addr e).get a = some o ↔ _
      rw [Dict.get_put]
      simp only [List.mem_append, List.mem_singleton]
      split
      · rename_i here
        subst here
        constructor
        · rintro ⟨⟩
          exact ⟨.inr rfl, is, rfl⟩
        · rintro ⟨member | rfl, is', same⟩
          · -- two hosts with one address overlap
            exfalso
            have len {e : Entry} (is : e.isHost6 = true) : e.v6.len = some 128 :=
              Prefix.len_of_bits (Entry.isHost6_iff.mp is).2
            have equal : o.v6 = e.v6 := Prefix.ext same ((len is').trans (len is).symm)
            refine free o member ?_
            rw [equal]
            exact Prefix.overlaps_self (len is)
          · rfl
      · rename_i elsewhere
        rw [covers.hosts6]
        constructor
        · exact fun ⟨member, rest⟩ => ⟨.inl member, rest⟩
        · rintro ⟨member | rfl, is, same⟩
          · exact ⟨member, is, same⟩
          · exact absurd same.symm elsewhere
    · change s.nets6 = _
      rw [covers.nets6, List.filter_append]
      simp [is]
  · rename_i net
    have is : e.isHost6 = false := by simpa [Entry.isHost6] using net
    cases added
    refine ⟨by rw [covers.seen], fun a o => ?_, ?_, apart⟩
    · change s.hosts6.get a = some o ↔ _
      rw [covers.hosts6]
      simp only [List.mem_append, List.mem_singleton]
      constructor
      · exact fun ⟨member, rest⟩ => ⟨.inl member, rest⟩
      · rintro ⟨member | rfl, is', same⟩
        · exact ⟨member, is', same⟩
        · cases is.symm.trans is'
    · change s.nets6 ++ [e] = _
      rw [covers.nets6, List.filter_append]
      simp [is]

/-- A table with the entries of a builder. -/
structure Table.Built (b : Builder) (t : Table) : Prop where
  strict : t.wkpfStrict = b.wkpfStrict
  hosts4 (a : Addr) (e : Entry) :
    t.hosts4.get a = some e ↔ e ∈ b.entries ∧ e.isHost4 = true ∧ e.v4.addr = a
  mem_nets4 (e : Entry) : e ∈ t.nets4 ↔ e ∈ b.entries ∧ e.isNet4 = true
  sorted : t.nets4.Pairwise fun e o => o.v4.bits ≤ e.v4.bits
  hosts6 (a : Addr) (e : Entry) : t.hosts6.get a = some e ↔
    (e ∈ b.entries ∧ e.onSix = true) ∧ e.isHost6 = true ∧ e.v6.addr = a
  mem_nets6 (e : Entry) : e ∈ t.nets6 ↔ (e ∈ b.entries ∧ e.onSix = true) ∧ e.isHost6 = false
  pool : t.poolEntry = b.pool.map fun p => Addrmap.poolEntry p.pfx
  distinct {e o : Entry} : e ∈ b.entries → o ∈ b.entries → e.kind = .static → o.kind = .static →
    e.v4.bits ≠ 32 → e.v4 = o.v4 → e = o
  unpooled {e o : Entry} : e ∈ b.entries → o ∈ b.entries → e.kind = .static →
    o.kind = .dynamicPool → e.v4 ≠ o.v4
  apart {e o : Entry} {ip : Addr} : e ∈ b.entries → o ∈ b.entries → e.onSix = true →
    o.onSix = true → e.v6.contains ip → o.v6.contains ip → e = o

section Build

variable {b : Builder} {s : Mapper}

/-- The table that `Build` puts together. -/
def Builder.tableOf (b : Builder) (d : Draft) (sides : Sides) : Table where
  wkpfStrict := b.wkpfStrict
  pfx := d.pfx
  hosts4 := d.hosts4
  hosts6 := sides.hosts6
  nets4 := d.nets4
  nets6 := sides.nets6
  poolEntry := d.poolEntry

theorem Builder.build_eq (built : b.build = .ok s) :
    ∃ d sides, (b.entries.mergeSort fun e o => e.v4.bits ≥ o.v4.bits).foldlM Draft.add {} = .ok d ∧
      d.poolConflict = none ∧
      (d.v6s.mergeSort fun e o => e.v6.bits ≥ o.v6.bits).foldlM Sides.add {} = .ok sides ∧
      s.table = b.tableOf d sides ∧
      s.pool = b.pool.map fun p => p.reserve fun a => s.table.lookup4 a ≠ s.table.poolEntry := by
  simp only [Builder.build, bind, Except.bind, pure, Except.pure, throw, throwThe,
    MonadExceptOf.throw] at built
  split at built
  · cases built
  rename_i d first
  split at built
  · cases built
  rename_i free
  split at built
  · cases built
  rename_i sides second
  cases built
  exact ⟨d, sides, first, free, second, rfl, rfl⟩

theorem Builder.build_of_checks (b : Builder) {d : Draft} {sides : Sides}
    (first : (b.entries.mergeSort fun e o => e.v4.bits ≥ o.v4.bits).foldlM Draft.add {} = .ok d)
    (free : d.poolConflict = none)
    (second : (d.v6s.mergeSort fun e o => e.v6.bits ≥ o.v6.bits).foldlM Sides.add {} = .ok sides) :
    b.build = .ok ⟨b.tableOf d sides, b.pool.map fun p =>
      p.reserve fun a => (b.tableOf d sides).lookup4 a ≠ d.poolEntry⟩ := by
  simp only [Builder.build, first, free, second, bind, Except.bind, pure, Except.pure]
  rfl

theorem Builder.build_of_sorted (b : Builder) {d : Draft} {sides : Sides}
    (sorted : b.entries.Pairwise fun e o => e.v4.bits ≥ o.v4.bits)
    (first : b.entries.foldlM Draft.add {} = .ok d) (free : d.poolConflict = none)
    (sorted6 : d.v6s.Pairwise fun e o => e.v6.bits ≥ o.v6.bits)
    (second : d.v6s.foldlM Sides.add {} = .ok sides) :
    b.build = .ok ⟨b.tableOf d sides, b.pool.map fun p =>
      p.reserve fun a => (b.tableOf d sides).lookup4 a ≠ d.poolEntry⟩ := by
  have order : b.entries.mergeSort (fun e o => e.v4.bits ≥ o.v4.bits) = b.entries :=
    List.mergeSort_of_pairwise (by simpa using sorted)
  have order6 : d.v6s.mergeSort (fun e o => e.v6.bits ≥ o.v6.bits) = d.v6s :=
    List.mergeSort_of_pairwise (by simpa using sorted6)
  exact b.build_of_checks (by rw [order, first]) free (by rw [order6, second])

/-- The pool is in conflict with a static map for the same network. -/
theorem Draft.Covers.poolConflict_none {es : List Entry} {d : Draft} (covers : d.Covers es)
    (listed : ∀ e, e ∈ es ↔ e ∈ b.entries) :
    d.poolConflict = none ↔ ∀ e ∈ b.entries, ∀ o ∈ b.entries, e.kind = .static →
      o.kind = .dynamicPool → e.v4 ≠ o.v4 := by
  constructor
  · intro free e one o two static pool same
    -- the static map would have been found to be the pool
    obtain ⟨q, found⟩ := Option.isSome_iff_exists.mp (covers.pooled ((listed o).mpr two) pool)
    obtain ⟨member', kind⟩ := covers.pool found
    obtain rfl := b.only ((listed q).mp member') two (kind.trans pool.symm) (by simp [kind])
    rw [Draft.poolConflict, found, Option.bind_some, List.find?_eq_none] at free
    refine free e ?_ ?_
    · rw [covers.nets4, List.mem_filter]
      refine ⟨(listed e).mpr one, ?_⟩
      obtain ⟨p, -, rfl⟩ := b.pooled q two pool
      have short : e.v4.bits ≠ 32 := by
        rw [same]
        change p.pfx.bits ≠ 32
        rw [p.network.bits]
        have := p.bits_le
        omega
      simp [Entry.isNet4, Entry.isHost4, static, short]
    · have other : e ≠ q := by
        rintro rfl
        cases static.symm.trans pool
      simp [other, static, same]
  · intro unpooled
    cases found : d.poolEntry with
    | none => simp [Draft.poolConflict, found]
    | some q =>
      obtain ⟨member, kind⟩ := covers.pool found
      rw [Draft.poolConflict, found, Option.bind_some, List.find?_eq_none]
      intro o net
      rw [covers.nets4, List.mem_filter] at net
      simp only [decide_eq_true_eq, not_and]
      exact fun _ static =>
        unpooled o ((listed o).mp net.1) q ((listed q).mp member) static kind

theorem Draft.covers_of_foldlM {es : List Entry} {d : Draft} (ran : es.foldlM Draft.add {} = .ok d)
    (kinds : ∀ e ∈ es, e.kind ≠ .dynamicHost) : d.Covers es :=
  foldlM_ok Draft.Covers.nil (fun _ _ _ _ kind before added => before.add added kind) kinds ran

theorem Table.built_of_build (built : b.build = .ok s) : s.table.Built b := by
  obtain ⟨d, sides, first, free, second, table, -⟩ := Builder.build_eq built
  have covers := Draft.covers_of_foldlM first fun e member =>
    (b.valid e (List.mem_mergeSort.mp member)).kind
  have six := foldlM_ok (V := fun _ => True) Sides.Covers.nil
    (fun _ _ _ _ _ before added => before.add added) (fun _ _ => trivial) second
  have mem_v6s (e : Entry) : (e ∈ d.v6s.mergeSort fun e o => e.v6.bits ≥ o.v6.bits) ↔
      e ∈ b.entries ∧ e.onSix = true := by
    rw [List.mem_mergeSort, covers.v6s, List.mem_filter, List.mem_mergeSort]
  rw [table, Builder.tableOf]
  refine ⟨rfl, fun a e => ?_, fun e => ?_, ?_, fun a e => ?_, fun e => ?_, ?_,
    @fun e o one two => ?_, @fun e o one two static pool same => ?_,
    @fun e o ip one two six' six'' inside inside' => ?_⟩
  · rw [covers.hosts4, List.mem_mergeSort]
  · rw [covers.nets4, List.mem_filter, List.mem_mergeSort]
  · rw [covers.nets4]
    refine List.Pairwise.filter _ ((List.pairwise_mergeSort ?_ ?_ b.entries).imp ?_)
    · intro e o q
      simp only [decide_eq_true_eq]
      omega
    · intro e o
      simp only [Bool.or_eq_true, decide_eq_true_eq]
      omega
    · intro e o ge
      exact of_decide_eq_true ge
  · rw [six.hosts6, mem_v6s]
  · rw [six.nets6, List.mem_filter, mem_v6s, Bool.not_eq_true']
  · cases pool : b.pool with
    | none =>
      cases found : d.poolEntry with
      | none => rfl
      | some e =>
        obtain ⟨member, kind⟩ := covers.pool found
        obtain ⟨p, attached, -⟩ := b.pooled e (List.mem_mergeSort.mp member) kind
        cases pool.symm.trans attached
    | some p =>
      have member := b.attached p pool
      obtain ⟨e, found⟩ := Option.isSome_iff_exists.mp
        (covers.pooled (List.mem_mergeSort.mpr member) rfl)
      obtain ⟨member', kind⟩ := covers.pool found
      rw [found, b.only (List.mem_mergeSort.mp member') member kind (by simp [kind])]
      rfl
  · exact covers.distinct (List.mem_mergeSort.mpr one) (List.mem_mergeSort.mpr two)
  · exact (covers.poolConflict_none fun _ => List.mem_mergeSort).mp free e one o two static pool same
  · have all : (d.v6s.mergeSort fun e o => e.v6.bits ≥ o.v6.bits).Pairwise fun e o =>
        ∀ ip, e.v6.contains ip → o.v6.contains ip → e = o := by
      refine six.apart.imp_of_mem fun {e o} here there apart ip inside inside' => ?_
      obtain ⟨member, is⟩ := (mem_v6s e).mp here
      obtain ⟨member', is'⟩ := (mem_v6s o).mp there
      obtain ⟨n, net⟩ := (b.valid e member).network6 is
      obtain ⟨m, net'⟩ := (b.valid o member').network6 is'
      rw [(Prefix.overlaps_iff net.len net'.len).mpr ⟨ip, inside, inside'⟩] at apart
      cases apart
    have flipped : Std.Symm fun e o : Entry => ∀ ip, e.v6.contains ip → o.v6.contains ip → e = o :=
      ⟨fun e o eq ip inside inside' => (eq ip inside' inside).symm⟩
    exact all.forall_of_forall (fun _ _ _ _ _ => rfl) ((mem_v6s e).mpr ⟨one, six'⟩)
      ((mem_v6s o).mpr ⟨two, six''⟩) ip inside inside'

end Build

namespace Table.Built

variable {b : Builder} {t : Table} {a : Addr} {e : Entry}

theorem contains_host4 (member : e ∈ b.entries) (host : e.isHost4 = true) :
    e.v4.contains a ↔ a = e.v4.addr := by
  obtain ⟨n, net⟩ := (b.valid e member).network4
  have full := (Entry.isHost4_iff.mp host).2
  rw [net.bits] at full
  obtain rfl : n = 32 := by omega
  exact net.contains_host

theorem contains_host6 (member : e ∈ b.entries) (six : e.onSix = true) (host : e.isHost6 = true) :
    e.v6.contains a ↔ a = e.v6.addr := by
  obtain ⟨n, net⟩ := (b.valid e member).network6 six
  have full := (Entry.isHost6_iff.mp host).2
  rw [net.bits] at full
  obtain rfl : n = 128 := by omega
  exact net.contains_host

theorem lookup6_eq_some (built : t.Built b) :
    t.lookup6 a = some e ↔ e ∈ b.entries ∧ e.onSix = true ∧ e.v6.contains a := by
  constructor
  · intro found
    unfold Table.lookup6 at found
    split at found
    · rename_i host
      cases found
      obtain ⟨⟨member, six⟩, is, same⟩ := (built.hosts6 _ _).mp host
      exact ⟨member, six, (contains_host6 member six is).mpr same.symm⟩
    · obtain ⟨⟨member, six⟩, -⟩ := (built.mem_nets6 e).mp (List.mem_of_find?_eq_some found)
      have inside : e.v6.contains a := by simpa using List.find?_some found
      exact ⟨member, six, inside⟩
  · rintro ⟨member, six, inside⟩
    unfold Table.lookup6
    split
    · rename_i o host
      obtain ⟨⟨member', six'⟩, is, same⟩ := (built.hosts6 _ _).mp host
      have inside' := (contains_host6 member' six' is).mpr same.symm
      rw [built.apart member' member six' six inside' inside]
    · rename_i none
      cases found : t.nets6.find? fun e => e.v6.contains a with
      | none =>
        exfalso
        cases is : e.isHost6 with
        | true =>
          have same := (contains_host6 member six is).mp inside
          rw [(built.hosts6 _ _).mpr ⟨⟨member, six⟩, is, same.symm⟩] at none
          cases none
        | false =>
          exact List.find?_eq_none.mp found e ((built.mem_nets6 e).mpr ⟨⟨member, six⟩, is⟩) inside
      | some o =>
        obtain ⟨⟨member', six'⟩, -⟩ := (built.mem_nets6 o).mp (List.mem_of_find?_eq_some found)
        have inside' : o.v6.contains a := by simpa using List.find?_some found
        rw [built.apart member' member six' six inside' inside]

theorem lookup4_some (built : t.Built b) (found : t.lookup4 a = some e) :
    e ∈ b.entries ∧ e.v4.contains a ∧
      ∀ o ∈ b.entries, o.v4.contains a → o.v4.bits ≤ e.v4.bits := by
  unfold Table.lookup4 at found
  split at found
  · rename_i host
    cases found
    obtain ⟨member, is, same⟩ := (built.hosts4 _ _).mp host
    refine ⟨member, (contains_host4 member is).mpr same.symm, fun o member' _ => ?_⟩
    obtain ⟨n, net⟩ := (b.valid o member').network4
    rw [net.bits, (Entry.isHost4_iff.mp is).2]
    have := net.le
    omega
  · rename_i none
    obtain ⟨inside, before, after, split, earlier⟩ := List.find?_eq_some_iff_append.mp found
    have member := (built.mem_nets4 e).mp (List.mem_of_find?_eq_some found)
    refine ⟨member.1, inside, fun o member' inside' => ?_⟩
    -- a host would have been found first
    have net : o.isNet4 = true := by
      have kind := (b.valid o member').kind
      cases is : o.isHost4 with
      | true =>
        have same := (contains_host4 member' is).mp inside'
        rw [(built.hosts4 _ _).mpr ⟨member', is, same.symm⟩] at none
        cases none
      | false => simp [Entry.isNet4, kind, is]
    have place := (built.mem_nets4 o).mpr ⟨member', net⟩
    have sorted := built.sorted
    rw [split] at place sorted
    rcases List.mem_append.mp place with early | late
    · have := earlier o early
      simp [inside'] at this
    · rcases List.mem_cons.mp late with rfl | late
      · exact Int.le_refl _
      · exact (List.pairwise_cons.mp (List.pairwise_append.mp sorted).2.1).1 o late

theorem lookup4_none (built : t.Built b) (found : t.lookup4 a = none) (member : e ∈ b.entries) :
    ¬ e.v4.contains a := by
  intro inside
  unfold Table.lookup4 at found
  split at found
  · cases found
  · rename_i none
    cases is : e.isHost4 with
    | true =>
      have same := (contains_host4 member is).mp inside
      rw [(built.hosts4 _ _).mpr ⟨member, is, same.symm⟩] at none
      cases none
    | false =>
      have net : e.isNet4 = true := by simp [Entry.isNet4, (b.valid e member).kind, is]
      exact List.find?_eq_none.mp found e ((built.mem_nets4 e).mpr ⟨member, net⟩) inside

theorem eq_of_v4 (built : t.Built b) {o : Entry} (member : e ∈ b.entries) (member' : o ∈ b.entries)
    (same : e.v4 = o.v4) : e = o := by
  have valid := b.valid e member
  have valid' := b.valid o member'
  have everything : e.kind = .rfc6052 ↔ o.kind = .rfc6052 := by
    rw [← valid.v4_eq_everything4, ← valid'.v4_eq_everything4, same]
  by_cases kinds : e.kind = o.kind
  · by_cases static : e.kind = .static
    · by_cases full : e.v4.bits = 32
      · have host : e.isHost4 = true := Entry.isHost4_iff.mpr ⟨static, full⟩
        have host' : o.isHost4 = true := Entry.isHost4_iff.mpr ⟨kinds ▸ static, same ▸ full⟩
        have here := (built.hosts4 _ _).mpr ⟨member, host, rfl⟩
        have there := (built.hosts4 _ _).mpr ⟨member', host', rfl⟩
        rw [same] at here
        exact Option.some.inj (here.symm.trans there)
      · exact built.distinct member member' static (kinds ▸ static) full same
    · exact b.only member member' kinds static
  · exfalso
    have host := valid.kind
    have host' := valid'.kind
    cases k : e.kind <;> cases k' : o.kind <;> simp_all
    · exact built.unpooled member member' k k' same
    · exact built.unpooled member' member k' k same.symm

theorem lookup4_eq_some (built : t.Built b) :
    t.lookup4 a = some e ↔ e ∈ b.entries ∧ e.v4.contains a ∧
      ∀ o ∈ b.entries, o.v4.contains a → o.v4.bits ≤ e.v4.bits := by
  refine ⟨built.lookup4_some, ?_⟩
  rintro ⟨member, inside, longest⟩
  cases found : t.lookup4 a with
  | none => exact absurd inside (built.lookup4_none found member)
  | some o =>
    obtain ⟨member', inside', longest'⟩ := built.lookup4_some found
    obtain ⟨n, net⟩ := (b.valid e member).network4
    obtain ⟨m, net'⟩ := (b.valid o member').network4
    have le := longest o member' inside'
    have ge := longest' e member inside
    rw [net.bits, net'.bits] at le ge
    obtain rfl : n = m := by omega
    rw [built.eq_of_v4 member member' (net.eq_of_contains net' inside inside')]

end Table.Built

end Clatto.Addrmap
