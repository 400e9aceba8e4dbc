import Clatto.Addrmap.PoolInvariant
import Clatto.Addrmap.TableLookup
import Clatto.Config.Resolve
import Clatto.Netip.TextFacts

/-! What it takes for a configuration to be accepted, step by step. -/

namespace Clatto.Config

open Netip Netutil Addrmap Collect
open Xlate (UDPChecksumMode)

variable {ro : ResolveOptions} {cfg : Config} {b b' : Builder} {u : Unit}

theorem extend_passes {what : String} {change : Builder → Except String Builder} :
    (extend what change).Passes b u b' ↔ change b = .ok b' :=
  passes_attempt

theorem noAddress_passes {err : String} {a : Addr} : ¬ (noAddress err).Passes b a b' := by
  rw [noAddress, passes_bind]
  rintro ⟨_, _, failed, -⟩
  exact passes_fail failed

theorem fail_then_passes {α : Type} {err : String} {value value' : α} :
    ¬ (do fail err; return value : Resolving α).Passes b value' b' := by
  rw [passes_bind]
  rintro ⟨_, _, failed, -⟩
  exact passes_fail failed

theorem resolveUDPChecksum_passes {mode : UDPChecksumMode} :
    (resolveUDPChecksum cfg).Passes b mode b' ↔
      parseUDPChecksum cfg.udpChecksum = .ok mode ∧ b = b' := by
  rw [resolveUDPChecksum]
  cases parsed : parseUDPChecksum cfg.udpChecksum with
  | ok mode' => simp [passes_pure]
  | error err => simp [fail_then_passes]

section CLAT

variable {c c' : CLAT} {a : Addr}

theorem checkCLATAddress_passes :
    (checkCLATAddress cfg c).Passes b u b' ↔
      (c.ipv4Address.is4 = true ∧ c.ipv4Address ≠ cfg.ipv4Address) ∧ b = b' := by
  rw [checkCLATAddress]
  split
  · rename_i other
    simp [passes_fail, other]
  · rename_i four
    by_cases own : c.ipv4Address = cfg.ipv4Address
    · simp [passes_when, passes_fail, own]
    · simp [passes_when, not_not.mp four, own]

def UsableTable (table : Int) : Prop :=
  table ≠ rtTableLocal ∧ table ≠ rtTableMain ∧ table ≠ rtTableDefault ∧
    1 ≤ table ∧ table ≤ 0xfffffffe

theorem checkCLATTable_passes :
    (checkCLATTable c).Passes b u b' ↔ UsableTable c.table ∧ b = b' := by
  rw [checkCLATTable, UsableTable]
  split
  · rename_i reserved
    constructor
    · exact fun failed => absurd failed passes_fail
    · rintro ⟨usable, -⟩
      tauto
  · rename_i free
    rw [passes_when]
    constructor
    · rintro ⟨refuse, keep⟩
      by_cases outside : c.table < 1 ∨ 0xfffffffe < c.table
      · exact absurd (refuse outside) passes_fail
      · refine ⟨?_, keep outside⟩
        push Not at free outside
        tauto
    · rintro ⟨usable, rfl⟩
      refine ⟨fun outside => ?_, fun _ => rfl⟩
      omega

/-- The address that a CLAT shares: the one that is written out, or that of the host towards
the prefix. -/
def CLAT.hostAddress (source : Option SourceAddr) (pfx : Prefix) (c : CLAT) : Option Addr :=
  if c.ipv6Address = "" ∨ isAuto c.ipv6Address then
    source.bind fun source => (source.ask pfx.addr).toOption
  else parseAddr c.ipv6Address

theorem sharedAddress_passes (shared : (sharedAddress ro cfg c).Passes b a b') :
    cfg.pfx.isValid = true ∧ a.isValid = true ∧ b = b' ∧
      c.hostAddress ro.sourceAddr cfg.pfx = some a := by
  rw [sharedAddress] at shared
  split at shared
  · exact absurd shared noAddress_passes
  rename_i valid
  refine ⟨not_not.mp valid, ?_⟩
  rw [CLAT.hostAddress]
  split at shared
  · rename_i automatic
    rw [if_pos automatic]
    split at shared
    · exact absurd shared noAddress_passes
    · rename_i source found
      split at shared
      · exact absurd shared noAddress_passes
      · rename_i answered
        simp only [passes_bind, passes_remark, passes_pure] at shared
        obtain ⟨_, _, rfl, rfl, rfl⟩ := shared
        rw [found, Option.bind_some, answered]
        exact ⟨source.answers answered, rfl, rfl⟩
  · rename_i given
    rw [if_neg given]
    split at shared
    · exact absurd shared noAddress_passes
    · rename_i parsed
      obtain ⟨rfl, rfl⟩ := passes_pure.mp shared
      exact ⟨isValid_of_parseAddr parsed, rfl, parsed⟩

theorem sharedAddress_of_text (valid : cfg.pfx.isValid = true) (six : a.is6 = true)
    (plain : a.is4In6 = false) (text : c.ipv6Address = a.text) :
    (sharedAddress ro cfg c).Passes b a b := by
  have colon := colon_mem_text six plain
  have given : ¬ (c.ipv6Address = "" ∨ isAuto c.ipv6Address = true) := by
    rw [text]
    rintro (empty | auto)
    · rw [empty] at colon
      cases colon
    · have lowered := List.mem_map_of_mem (f := Char.toLower) colon
      rw [of_decide_eq_true auto] at lowered
      exact absurd lowered (by decide)
  rw [sharedAddress, if_neg (not_not.mpr valid), if_neg given, text, parseAddr_text six plain]
  exact passes_pure.mpr ⟨rfl, rfl⟩

/-- What is asked of an address that is shared. -/
structure Shareable (cfg : Config) (a : Addr) : Prop where
  six : a.is6 = true
  plain : a.is4In6 = false
  usable : validIPv6 a.as16 = true
  outside : ¬ (cfg.pfx.isValid = true ∧ cfg.pfx.contains a = true)

theorem addShared_passes (valid : a.isValid = true) :
    (addShared cfg c a).Passes b c' b' ↔
      Shareable cfg a ∧ b.addStatic (.of c.ipv4Address 32) (.of a 128) = .ok b' ∧
        c' = { c with ipv6Address := a.text } := by
  rw [addShared, if_neg (not_not.mpr valid)]
  split
  · rename_i other
    constructor
    · exact fun failed => absurd failed fail_then_passes
    · rintro ⟨shareable, -⟩
      rcases other with other | mapped
      · exact absurd shareable.six other
      · rw [shareable.plain] at mapped
        cases mapped
  rename_i family
  split
  · rename_i reserved
    constructor
    · exact fun failed => absurd failed fail_then_passes
    · exact fun accepted => absurd accepted.1.usable reserved
  rename_i usable
  split
  · rename_i inside
    constructor
    · exact fun failed => absurd failed fail_then_passes
    · exact fun accepted => absurd inside accepted.1.outside
  rename_i outside
  push Not at family
  simp only [passes_bind, extend_passes, passes_pure]
  constructor
  · rintro ⟨_, _, added, rfl, rfl⟩
    exact ⟨⟨family.1, by simpa using family.2, not_not.mp usable, outside⟩, added, rfl⟩
  · rintro ⟨-, added, rfl⟩
    exact ⟨(), b', added, rfl, rfl⟩

theorem resolvePorts_keeps {ports : List String} {filters : List Netconf.Filter}
    (passed : (resolvePorts ports).Passes b filters b') : b = b' := by
  induction ports generalizing b filters with
  | nil => exact (passes_pure.mp passed).2
  | cons s ports ih =>
    rw [resolvePorts] at passed
    split at passed
    · obtain ⟨_, _, failed, -⟩ := passes_bind.mp passed
      exact absurd failed passes_fail
    · obtain ⟨_, _, rest, ended⟩ := passes_bind.mp passed
      obtain ⟨-, rfl⟩ := passes_pure.mp ended
      exact ih rest

/-- What comes of a CLAT when its ports have been read and its address has been found. -/
def CLAT.sharing (cfg : Config) (c : CLAT) (filters : List Netconf.Filter) (a : Addr) : Sharing where
  clat := some { c with ipv6Address := a.text }
  shared6 := a
  shared := some { addr := a, source := cfg.pfx, table := c.table, filters }

structure Shares (ro : ResolveOptions) (cfg : Config) (c : CLAT) (filters : List Netconf.Filter)
    (a : Addr) (b b' : Builder) : Prop where
  host : c.ipv4Address.is4 = true ∧ c.ipv4Address ≠ cfg.ipv4Address
  table : UsableTable c.table
  ports : (resolvePorts c.ports).Passes b filters b
  address : (sharedAddress ro cfg c).Passes b a b
  shareable : Shareable cfg a
  static : b.addStatic (.of c.ipv4Address 32) (.of a 128) = .ok b'

theorem resolveCLAT_none {sharing : Sharing} (none : cfg.clat = none) :
    (resolveCLAT ro cfg).Passes b sharing b' ↔
      sharing = ⟨Option.none, .zero, Option.none⟩ ∧ b = b' := by
  rw [resolveCLAT, none]
  exact passes_pure.trans (and_congr_left fun _ => eq_comm)

theorem resolveCLAT_some {sharing : Sharing} (configured : cfg.clat = some c) :
    (resolveCLAT ro cfg).Passes b sharing b' ↔
      ∃ filters a, Shares ro cfg c.filled filters a b b' ∧
        sharing = c.filled.sharing cfg filters a := by
  rw [resolveCLAT, configured]
  simp only [passes_bind, checkCLATAddress_passes, checkCLATTable_passes, passes_clean, passes_pure]
  constructor
  · rintro ⟨_, _, ⟨host, rfl⟩, _, _, ⟨table, rfl⟩, filters, b₁, ports, a, b₂, address, c', b₃, added,
      _, _, ⟨rfl, rfl⟩, rfl, rfl⟩
    obtain rfl := resolvePorts_keeps ports
    obtain ⟨-, known, rfl, -⟩ := sharedAddress_passes address
    obtain ⟨shareable, static, rfl⟩ := (addShared_passes known).mp added
    exact ⟨filters, a, ⟨host, table, ports, address, shareable, static⟩, rfl⟩
  · rintro ⟨filters, a, shares, rfl⟩
    obtain ⟨-, known, -⟩ := sharedAddress_passes shares.address
    exact ⟨(), b, ⟨shares.host, rfl⟩, (), b, ⟨shares.table, rfl⟩, filters, b, shares.ports, a, b,
      shares.address, { c.filled with ipv6Address := a.text }, b',
      (addShared_passes known).mpr ⟨shares.shareable, shares.static, rfl⟩, true, b', ⟨rfl, rfl⟩, rfl,
      rfl⟩

end CLAT

structure UsableInterface (cfg : Config) : Prop where
  name : cfg.interface.name.utf8ByteSize ≤ 15
  mtu : 1280 ≤ cfg.interface.mtu ∧ cfg.interface.mtu ≤ 65535
  offlinkMTU : 1280 ≤ cfg.offlinkMTU

theorem when_fail_passes {condition : Prop} [Decidable condition] {err : String} :
    (when condition (fail err) : Resolving Unit).Passes b u b' ↔ ¬ condition ∧ b = b' := by
  rw [passes_when]
  constructor
  · rintro ⟨refuse, keep⟩
    have fine : ¬ condition := fun holds => passes_fail (refuse holds)
    exact ⟨fine, keep fine⟩
  · rintro ⟨fine, rfl⟩
    exact ⟨fun holds => absurd holds fine, fun _ => rfl⟩

theorem when_remark_passes {condition : Prop} [Decidable condition] {text : String} :
    (when condition (remark text) : Resolving Unit).Passes b u b' ↔ b = b' := by
  rw [passes_when, passes_remark]
  tauto

theorem checkInterface_passes :
    (checkInterface cfg).Passes b u b' ↔ UsableInterface cfg ∧ b = b' := by
  simp only [checkInterface, passes_bind, when_fail_passes]
  constructor
  · rintro ⟨_, _, ⟨name, rfl⟩, _, _, ⟨mtu, rfl⟩, offlink, rfl⟩
    exact ⟨⟨by omega, by omega, by omega⟩, rfl⟩
  · rintro ⟨usable, rfl⟩
    have mtu := usable.mtu
    exact ⟨(), b, ⟨by simpa using usable.name, rfl⟩, (), b, ⟨by omega, rfl⟩,
      by simpa using usable.offlinkMTU, rfl⟩

section Own

variable {strict : Bool} {own : Own} {a : Addr}

theorem checkIPv4Address_passes :
    (checkIPv4Address a).Passes b u b' ↔
      (∃ bits, a = .v4 bits ∧ classifyIPv4 (Bytes.ofNat 4 bits.toNat) ≠ .invalid) ∧ b = b' := by
  rw [checkIPv4Address]
  cases a with
  | zero => simp [Addr.isValid, passes_fail]
  | v6 bits zone => simp [Addr.isValid, classOf, passes_fail]
  | v4 bits =>
    cases kind : classifyIPv4 (Bytes.ofNat 4 bits.toNat) <;>
      simp [Addr.isValid, classOf, kind, passes_fail, passes_remark, passes_pure]

/-- What is asked of an address from which the translator's own is derived. -/
structure Derivable (strict : Bool) (pfx : Prefix) (bits : BitVec 32) : Prop where
  known : ¬ (strict = true ∧ isWellKnownPrefix pfx = true ∧
    isPrivateIPv4 (Bytes.ofNat 4 bits.toNat) = true)
  plain : classifyIPv4 (Bytes.ofNat 4 bits.toNat) = .valid

theorem deriveIPv6Address_passes {pfx : Prefix} {bits : BitVec 32} {derived : Option Addr}
    (valid : pfx.isValid = true)
    (passed : (deriveIPv6Address strict pfx (.v4 bits)).Passes b derived b') :
    derived = some (derivedAddress pfx (.v4 bits)) ∧
      (derivedAddress pfx (.v4 bits)).isValid = true ∧ Derivable strict pfx bits ∧ b = b' := by
  simp only [deriveIPv6Address] at passed
  split at passed
  · exact absurd passed fail_then_passes
  · rename_i a16 embedded
    split at passed
    · exact absurd passed fail_then_passes
    rename_i known
    split at passed
    · exact absurd passed fail_then_passes
    rename_i plain
    obtain ⟨rfl, rfl⟩ := passes_pure.mp passed
    have made : derivedAddress pfx (.v4 bits) = .from16 a16 := by
      simp [derivedAddress, valid, embedded]
    rw [made]
    exact ⟨rfl, rfl, ⟨known, not_not.mp plain⟩, rfl⟩

theorem checkIPv6Address_passes {pfx : Prefix}
    (passed : (checkIPv6Address strict pfx a).Passes b u b') :
    ¬ (strict = true ∧ wellKnownPrefix.contains a = true) ∧ b = b' := by
  rw [checkIPv6Address] at passed
  split at passed
  · exact absurd passed passes_fail
  split at passed
  · exact absurd passed passes_fail
  split at passed
  · exact absurd passed passes_fail
  rename_i outside
  exact ⟨outside, (when_fail_passes.mp passed).2⟩

/-- Where the translator's own IPv6 address comes from. -/
inductive Origin (strict : Bool) (cfg : Config) (bits : BitVec 32) (b : Builder) : Own → Prop
  | written (valid : cfg.ipv6Address.isValid = true)
      (same : cfg.ipv6Address = derivedAddress cfg.pfx (.v4 bits)) :
      Origin strict cfg bits b ⟨derivedAddress cfg.pfx (.v4 bits), true⟩
  | given (valid : cfg.ipv6Address.isValid = true)
      (other : cfg.ipv6Address ≠ derivedAddress cfg.pfx (.v4 bits))
      (checked : (checkIPv6Address strict cfg.pfx cfg.ipv6Address).Passes b () b) :
      Origin strict cfg bits b ⟨cfg.ipv6Address, false⟩
  | derived (omitted : ¬ cfg.ipv6Address.isValid = true) (valid : cfg.pfx.isValid = true)
      (known : (derivedAddress cfg.pfx (.v4 bits)).isValid = true)
      (derivable : Derivable strict cfg.pfx bits) :
      Origin strict cfg bits b ⟨derivedAddress cfg.pfx (.v4 bits), true⟩

theorem resolveIPv6Address_origin {bits : BitVec 32} (four : cfg.ipv4Address = .v4 bits)
    (passed : (resolveIPv6Address strict cfg).Passes b own b') :
    Origin strict cfg bits b own ∧ b = b' := by
  simp only [resolveIPv6Address, four] at passed
  by_cases derived : cfg.ipv6Address.isValid = true ∧
      cfg.ipv6Address = derivedAddress cfg.pfx (.v4 bits)
  · rw [if_pos derived] at passed
    obtain ⟨rfl, rfl⟩ := passes_pure.mp passed
    rw [derived.2]
    exact ⟨.written derived.1 derived.2, rfl⟩
  rw [if_neg derived] at passed
  by_cases given : cfg.ipv6Address.isValid = true
  · rw [if_pos given, passes_bind] at passed
    obtain ⟨_, t, checked, passed⟩ := passed
    obtain ⟨rfl, rfl⟩ := passes_pure.mp passed
    obtain ⟨-, rfl⟩ := checkIPv6Address_passes checked
    exact ⟨.given given (fun same => derived ⟨given, same⟩) checked, rfl⟩
  rw [if_neg given] at passed
  by_cases valid : cfg.pfx.isValid = true
  · rw [if_neg (not_not.mpr valid), passes_bind] at passed
    obtain ⟨_, t, made, passed⟩ := passed
    obtain ⟨rfl, known, derivable, rfl⟩ := deriveIPv6Address_passes valid made
    obtain ⟨rfl, rfl⟩ := passes_pure.mp passed
    exact ⟨.derived given valid known derivable, rfl⟩
  · rw [if_pos valid] at passed
    exact absurd passed fail_then_passes

/-- An address that is written out as it is derived needs no check. -/
theorem resolveIPv6Address_written {bits : BitVec 32} (four : cfg.ipv4Address = .v4 bits)
    (valid : cfg.ipv6Address.isValid = true)
    (same : cfg.ipv6Address = derivedAddress cfg.pfx (.v4 bits)) :
    resolveIPv6Address strict cfg = pure ⟨derivedAddress cfg.pfx (.v4 bits), true⟩ := by
  rw [resolveIPv6Address, four]
  exact (if_pos ⟨valid, same⟩).trans (by rw [same])

/-- The translator's own address is found again when it is written out. -/
theorem resolveIPv6Address_again {cfg' : Config} {bits : BitVec 32}
    (four : cfg.ipv4Address = .v4 bits) (passed : (resolveIPv6Address strict cfg).Passes b own b')
    (pfx : cfg'.pfx = cfg.pfx) (ipv4 : cfg'.ipv4Address = cfg.ipv4Address)
    (ipv6 : cfg'.ipv6Address = own.local6) :
    (resolveIPv6Address strict cfg').Passes b own b' := by
  obtain ⟨origin, rfl⟩ := resolveIPv6Address_origin four passed
  rw [four] at ipv4
  cases origin with
  | written valid same =>
    rw [resolveIPv6Address_written ipv4 (by rw [ipv6, ← same]; exact valid) (by rw [ipv6, pfx]), pfx]
    exact passes_pure.mpr ⟨rfl, rfl⟩
  | given valid other checked =>
    simp only [resolveIPv6Address, pfx, ipv4, ipv6]
    rw [if_neg fun derived => other derived.2, if_pos valid, passes_bind]
    exact ⟨_, b, checked, passes_pure.mpr ⟨rfl, rfl⟩⟩
  | derived omitted valid known derivable =>
    rw [resolveIPv6Address_written ipv4 (by rw [ipv6]; exact known) (by rw [ipv6, pfx]), pfx]
    exact passes_pure.mpr ⟨rfl, rfl⟩

end Own

section Pool

variable {dp : DynamicPool} {pool : Pool}

theorem ResolveOptions.reuses_eq_true (configured : cfg.dynamicPool = some dp) :
    ro.reuses cfg = true ↔
      dp.pfx.isValid = true ∧ ∃ p, ro.existingPool = some p ∧ p.pfx = dp.pfx := by
  rw [reuses, configured]
  cases ro.existingPool with
  | none => simp
  | some p => simp

theorem ResolveOptions.pool_eq_ok (configured : cfg.dynamicPool = some dp) :
    ro.pool cfg dp = .ok pool ↔
      (ro.reuses cfg = true ∧ ∃ p, ro.existingPool = some p ∧
        pool = p.setLeases dp.minLease dp.maxLease) ∨
      (ro.reuses cfg = false ∧
        newPool dp.pfx { minLease := dp.minLease, maxLease := dp.maxLease } = .ok pool) := by
  cases again : ro.reuses cfg with
  | true =>
    obtain ⟨-, p, existing, -⟩ := (reuses_eq_true configured).mp again
    simp [ResolveOptions.pool, touched, configured, again, existing, eq_comm]
  | false =>
    simp only [ResolveOptions.pool, touched, configured, again]
    simp

theorem ResolveOptions.pool_pfx (configured : cfg.dynamicPool = some dp)
    (found : ro.pool cfg dp = .ok pool) : pool.pfx = dp.pfx := by
  rcases (pool_eq_ok configured).mp found with ⟨again, p, existing, rfl⟩ | ⟨-, made⟩
  · obtain ⟨-, q, existing', same⟩ := (reuses_eq_true configured).mp again
    rw [existing] at existing'
    obtain rfl := Option.some.inj existing'
    exact same
  · exact Pool.newPool_pfx made

theorem ResolveOptions.pool_again (ro' : ResolveOptions) {cfg' : Config}
    (configured : cfg.dynamicPool = some dp) (configured' : cfg'.dynamicPool = some dp)
    (found : ro.pool cfg dp = .ok pool) :
    ∃ pool', ro'.pool cfg' dp = .ok pool' ∧ pool'.pfx = pool.pfx := by
  have same := pool_pfx configured found
  obtain ⟨pool', found'⟩ : ∃ pool', ro'.pool cfg' dp = .ok pool' := by
    cases again : ro'.reuses cfg' with
    | true =>
      obtain ⟨-, p, existing, -⟩ := (reuses_eq_true configured').mp again
      exact ⟨_, (pool_eq_ok configured').mpr (.inl ⟨again, p, existing, rfl⟩)⟩
    | false =>
      obtain ⟨q, made, -⟩ := pool.exists_newPool { minLease := dp.minLease, maxLease := dp.maxLease }
      rw [same] at made
      exact ⟨q, (pool_eq_ok configured').mpr (.inr ⟨again, made⟩)⟩
  exact ⟨pool', found', (pool_pfx configured' found').trans same.symm⟩

theorem addPool_passes :
    (addPool ro cfg dp).Passes b u b' ↔
      dp.pfx.isValid = true ∧ ¬ (dp.stateFile ≠ "" ∧ dp.stateFile.toList.head? ≠ some '/') ∧
        ∃ pool, ro.pool cfg dp = .ok pool ∧ b.setPool pool = .ok b' := by
  rw [addPool]
  split
  · rename_i invalid
    simp [passes_fail, invalid]
  rename_i valid
  split
  · rename_i refused
    simp [passes_fail, refused]
  · rename_i pool found
    simp only [passes_bind, when_remark_passes, when_fail_passes, extend_passes]
    constructor
    · rintro ⟨_, _, rfl, _, _, ⟨file, rfl⟩, set⟩
      exact ⟨not_not.mp valid, file, pool, found, set⟩
    · rintro ⟨-, file, pool', found', set⟩
      rw [found] at found'
      obtain rfl := Except.ok.inj found'
      exact ⟨(), b, rfl, (), b, ⟨file, rfl⟩, set⟩

/-- Builders with the same entries, which may differ in their pools. -/
structure SameEntries (b b' : Builder) : Prop where
  entries : b'.entries = b.entries
  strict : b'.wkpfStrict = b.wkpfStrict

theorem SameEntries.build (same : SameEntries b b') {s : Mapper} (built : b.build = .ok s) :
    ∃ s', b'.build = .ok s' ∧ s'.table = s.table := by
  obtain ⟨d, sides, first, free, second, table, -⟩ := Builder.build_eq built
  rw [← same.entries] at first
  refine ⟨_, b'.build_of_checks first free second, ?_⟩
  rw [table, Builder.tableOf, Builder.tableOf, same.strict]

theorem setPool_same {p p' : Pool} (pfx : p'.pfx = p.pfx) (set : b.setPool p = .ok b') :
    ∃ b'', b.setPool p' = .ok b'' ∧ SameEntries b' b'' := by
  rw [Builder.setPool] at set
  split at set
  · cases set
  · rename_i alone
    cases set
    refine ⟨_, dif_neg alone, ?_, rfl⟩
    simp only [pfx]

theorem resolvePool_again (ro' : ResolveOptions) {cfg' : Config}
    (configured : cfg'.dynamicPool = cfg.dynamicPool)
    (passed : (resolvePool ro cfg).Passes b u b') :
    ∃ b'', (resolvePool ro' cfg').Passes b u b'' ∧ SameEntries b' b'' := by
  rw [resolvePool] at passed
  rw [resolvePool, configured]
  cases configured' : cfg.dynamicPool with
  | none =>
    rw [configured'] at passed
    exact ⟨b', passed, rfl, rfl⟩
  | some dp =>
    rw [configured'] at passed configured
    obtain ⟨valid, file, pool, found, set⟩ := addPool_passes.mp passed
    obtain ⟨pool', found', pfx⟩ := ResolveOptions.pool_again ro' configured' configured found
    obtain ⟨b'', set', same⟩ := setPool_same pfx set
    exact ⟨b'', addPool_passes.mpr ⟨valid, file, pool', found', set'⟩, same⟩

end Pool

theorem withTranslator_eq (cfg : Config) :
    cfg.withTranslator = { cfg with ipv4Address := cfg.withTranslator.ipv4Address } := by
  rw [withTranslator]
  split <;> rfl

/-- A configuration without errors, with what is found out and with the builder after every
step that may add to it. -/
structure Examined (ro : ResolveOptions) (cfg : Config) (f : Findings)
    (start prefixed shared mapped owned finish : Builder) : Prop where
  usable : UsableInterface cfg.filled
  udpChecksum : parseUDPChecksum cfg.udpChecksum = .ok f.udpChecksum
  pfx : (when cfg.pfx.isValid (extend "prefix" (·.addPrefix cfg.pfx))).Passes start () prefixed
  sharing : (resolveCLAT ro cfg.withTranslator).Passes prefixed f.sharing shared
  maps : (resolveMaps 0 cfg.withTranslator.maps).Passes shared () mapped
  some : ¬ (¬ cfg.withTranslator.pfx.isValid ∧ cfg.withTranslator.maps = [])
  four : ∃ bits, cfg.withTranslator.ipv4Address = .v4 bits ∧
    classifyIPv4 (Bytes.ofNat 4 bits.toNat) ≠ .invalid
  own : (resolveIPv6Address (boolOr cfg.wkpfStrict true) cfg.withTranslator).Passes mapped f.own
    mapped
  self : mapped.addSelf cfg.withTranslator.ipv4Address f.own.local6 f.own.v6Derived = .ok owned
  pool : (resolvePool ro cfg.withTranslator).Passes owned () finish
  ipv4Address : f.ipv4Address = cfg.withTranslator.ipv4Address
  config : f.config = { cfg.withTranslator.filled with
    clat := f.sharing.clat
    udpChecksum := udpChecksumText f.udpChecksum
    ipv6Address := f.own.local6 }

theorem examine_passes {f : Findings} :
    (examine ro cfg).Passes b f b' ↔
      ∃ b₁ b₂ b₃ b₄, Examined ro cfg f b b₁ b₂ b₃ b₄ b' := by
  simp only [examine, passes_bind, checkInterface_passes, resolveUDPChecksum_passes,
    when_fail_passes, checkIPv4Address_passes, passes_clean, passes_pure]
  constructor
  · rintro ⟨_, _, ⟨usable, rfl⟩, mode, _, ⟨udpChecksum, rfl⟩, _, b₁, pfx, sharing, b₂, clat, _, b₃,
      maps, _, _, ⟨some, rfl⟩, _, _, ⟨four, rfl⟩, own, b₄, address, _, _, ⟨rfl, rfl⟩, _, b₅, self, _,
      b₆, pool, rfl, rfl⟩
    have four' := four
    obtain ⟨bits, same, -⟩ := four'
    obtain ⟨-, rfl⟩ := resolveIPv6Address_origin same address
    have added := extend_passes.mp ((passes_when.mp self).1 rfl)
    exact ⟨b₁, b₂, b₃, b₅, usable, udpChecksum, pfx, clat, maps, some, four, address, added, pool,
      rfl, rfl⟩
  · rintro ⟨b₁, b₂, b₃, b₄, e⟩
    refine ⟨(), b, ⟨e.usable, rfl⟩, f.udpChecksum, b, ⟨e.udpChecksum, rfl⟩, (), b₁, e.pfx, f.sharing,
      b₂, e.sharing, (), b₃, e.maps, (), b₃, ⟨e.some, rfl⟩, (), b₃, ⟨e.four, rfl⟩, f.own, b₃, e.own,
      true, b₃, ⟨rfl, rfl⟩, (), b₄,
      passes_when.mpr ⟨fun _ => extend_passes.mpr e.self, fun no => absurd rfl no⟩, (), b', e.pool,
      ?_, rfl⟩
    rw [if_pos rfl, ← e.config, ← e.ipv4Address]

/-- A run of `resolveWith` that does not fail. -/
structure Resolves (listing : Listing) (cfg : Config) (ro : ResolveOptions) (f : Findings)
    (finish : Builder) (s : Mapper) (r : Resolved) : Prop where
  examined : (examine ro cfg).Passes (.new (boolOr cfg.wkpfStrict true)) f finish
  built : finish.build = .ok s
  read : ∃ warnings level json kinds,
    parseLevel f.config.log.level = .ok level ∧ parseFormat f.config.log.format = .ok json ∧
    f.config.log.packets.mapM parseKind = .ok kinds ∧
    r = f.resolved listing s (ro.reuses cfg) warnings level json kinds.flatten

theorem finish_eq_ok {f : Findings} {listing : Listing} {s : Mapper} {reuses : Bool}
    {warnings : List String} {r : Resolved} :
    f.finish listing s reuses warnings = .ok r ↔
      ∃ level json kinds, parseLevel f.config.log.level = .ok level ∧
        parseFormat f.config.log.format = .ok json ∧
        f.config.log.packets.mapM parseKind = .ok kinds ∧
        r = f.resolved listing s reuses warnings level json kinds.flatten := by
  rw [Findings.finish]
  cases parseLevel f.config.log.level with
  | error err => simp [bind, Except.bind]
  | ok level =>
    cases parseFormat f.config.log.format with
    | error err => simp [bind, Except.bind]
    | ok json =>
      cases f.config.log.packets.mapM parseKind with
      | error err => simp [bind, Except.bind]
      | ok kinds => simp [bind, Except.bind, pure, Except.pure, eq_comm]

variable {f : Findings} {s : Mapper} {r : Resolved}

theorem resolves_of_ok {listing : Listing} (resolved : (resolveWith listing cfg ro).1 = .ok r) :
    ∃ f finish s, Resolves listing cfg ro f finish s r := by
  rw [resolveWith] at resolved
  rcases ran : (examine ro cfg).run (.new (boolOr cfg.wkpfStrict true)) [] with
    ⟨f, b, errs, warnings⟩
  simp only [ran] at resolved
  split at resolved
  · cases resolved
  rename_i clean
  obtain rfl := not_not.mp clean
  split at resolved
  · cases resolved
  · rename_i s built
    obtain ⟨level, json, kinds, read⟩ := finish_eq_ok.mp resolved
    exact ⟨f, b, s, ⟨warnings, ran⟩, built, warnings, level, json, kinds, read⟩

theorem exists_resolves (listing : Listing)
    (examined : (examine ro cfg).Passes (.new (boolOr cfg.wkpfStrict true)) f b)
    (built : b.build = .ok s) {level : Level} {json : Bool} {kinds : List (List Xlate.Kind)}
    (parsed : parseLevel f.config.log.level = .ok level)
    (formatted : parseFormat f.config.log.format = .ok json)
    (kept : f.config.log.packets.mapM parseKind = .ok kinds) :
    ∃ warnings, (resolveWith listing cfg ro).1 =
      .ok (f.resolved listing s (ro.reuses cfg) warnings level json kinds.flatten) := by
  obtain ⟨warnings, ran⟩ := examined
  refine ⟨warnings, ?_⟩
  simp only [resolveWith, ran, ne_eq, not_true, if_false, built]
  exact finish_eq_ok.mpr ⟨level, json, kinds, parsed, formatted, kept, rfl⟩

theorem immutableChanges_eq_nil {old new : Resolved}
    (name : new.config.interface.name = old.config.interface.name)
    (mtu : new.config.interface.mtu = old.config.interface.mtu)
    (configure : new.configure = old.configure) (sysctl : new.sysctl = old.sysctl)
    (http : new.httpListen = old.httpListen) (json : new.logJSON = old.logJSON) :
    immutableChanges old new = [] := by
  simp [immutableChanges, name, mtu, configure, sysctl, http, json]

end Clatto.Config
