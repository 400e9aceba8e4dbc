import Clatto.Config.Routes
import Clatto.Netutil.Embedding

/-! The translator's own IPv6 address, derived from the prefix or written out. -/

namespace Clatto.Config

open Netip Netutil Addrmap Collect

variable {ro : ResolveOptions} {cfg : Config} {bits : BitVec 32} {a16 : Bytes} {listing : Listing}

/-- A configuration with another own IPv6 address. -/
def withIPv6 (cfg : Config) (a : Addr) : Config := { cfg with ipv6Address := a }

/-- Nothing is wrong with a configuration, if the translator may have the address `own` that the
prefix embeds. -/
structure Faultless (ro : ResolveOptions) (cfg : Config) (own : Addr) : Prop where
  usable : UsableInterface cfg.filled
  udpChecksum : ∃ mode, parseUDPChecksum cfg.udpChecksum = .ok mode
  level : ∃ level, parseLevel cfg.log.level = .ok level
  format : ∃ json, parseFormat cfg.log.format = .ok json
  packets : ∃ kinds, cfg.log.packets.mapM parseKind = .ok kinds
  builds : ∃ sharing b₁ b₂ b₃ b₄ b₅ s,
    (Builder.new (boolOr cfg.wkpfStrict true)).addPrefix cfg.pfx = .ok b₁ ∧
    (resolveCLAT ro cfg).Passes b₁ sharing b₂ ∧ (resolveMaps 0 cfg.maps).Passes b₂ () b₃ ∧
    b₃.addSelf cfg.ipv4Address own true = .ok b₄ ∧ (resolvePool ro cfg).Passes b₄ () b₅ ∧
    b₅.build = .ok s

/-- The same computation, up to the address that is reported after an error. -/
theorem examine_withIPv6 {a : Addr} (valid : cfg.ipv4Address.isValid = true)
    (omitted : resolveIPv6Address (boolOr cfg.wkpfStrict true) (cfg.withIPv6 .zero) = pure ⟨a, true⟩)
    (given : resolveIPv6Address (boolOr cfg.wkpfStrict true) (cfg.withIPv6 a) = pure ⟨a, true⟩) :
    examine ro (cfg.withIPv6 a) = (examine ro (cfg.withIPv6 .zero)).map fun f =>
      { f with config := f.config.withIPv6 a } := by
  have translator (b : Addr) : (cfg.withIPv6 b).withTranslator = cfg.withIPv6 b :=
    withTranslator_of_valid valid
  simp only [examine, translator]
  rw [show (cfg.withIPv6 a).wkpfStrict = cfg.wkpfStrict from rfl,
    show (cfg.withIPv6 .zero).wkpfStrict = cfg.wkpfStrict from rfl, omitted, given]
  simp only [map_bind, map_pure, Collect.pure_bind, withIPv6, ite_self]
  rfl

theorem resolveWith_withIPv6 {a : Addr} (valid : cfg.ipv4Address.isValid = true)
    (omitted : resolveIPv6Address (boolOr cfg.wkpfStrict true) (cfg.withIPv6 .zero) = pure ⟨a, true⟩)
    (given : resolveIPv6Address (boolOr cfg.wkpfStrict true) (cfg.withIPv6 a) = pure ⟨a, true⟩) :
    resolveWith listing (cfg.withIPv6 a) ro = resolveWith listing (cfg.withIPv6 .zero) ro := by
  have translator : (cfg.withIPv6 .zero).withTranslator = cfg.withIPv6 .zero :=
    withTranslator_of_valid valid
  have clean := @passes_of_errs _ _ _ _ (examine ro (cfg.withIPv6 .zero))
    (.new (boolOr cfg.wkpfStrict true))
  simp only [resolveWith, examine_withIPv6 valid omitted given, Collect.map,
    show (cfg.withIPv6 a).wkpfStrict = cfg.wkpfStrict from rfl,
    show (cfg.withIPv6 .zero).wkpfStrict = cfg.wkpfStrict from rfl]
  generalize (examine ro (cfg.withIPv6 .zero)).run (.new (boolOr cfg.wkpfStrict true)) [] = reached
    at clean ⊢
  obtain ⟨f, b, errs, remarks⟩ := reached
  by_cases none : errs = []
  · obtain ⟨b₁, b₂, b₃, b₄, e⟩ := examine_passes.mp (clean none)
    have own : f.own = ⟨a, true⟩ := by
      have passed := e.own
      rw [translator] at passed
      change (resolveIPv6Address (boolOr cfg.wkpfStrict true) _).Passes _ _ _ at passed
      rw [omitted] at passed
      exact (passes_pure.mp passed).1.symm
    have same : f.config.withIPv6 a = f.config := by
      have address : f.config.ipv6Address = a := by
        rw [e.config]
        exact congrArg Own.local6 own
      rw [withIPv6, ← address]
    rw [same]
    rfl
  · simp only [if_pos none]
    rfl

theorem length_of_embed {pfx : Addr} {n : Int}
    (embedded : embed pfx.as16 n (Bytes.ofNat 4 bits.toNat) = .ok a16) : a16.length = 16 := by
  rw [embed] at embedded
  split at embedded
  · obtain rfl := Except.ok.inj embedded
    exact length_embedAt pfx.length_as16 (Bytes.length_ofNat 4 bits.toNat)
  · cases embedded

/-- The embedded form of a usable address is inside the well-known prefix only behind it. -/
theorem wellKnown_of_embedded {pfx : Prefix}
    (usable : classifyIPv4 (Bytes.ofNat 4 bits.toNat) ≠ .invalid)
    (translation : TranslationPrefix pfx)
    (embedded : embed pfx.addr.as16 pfx.bits (Bytes.ofNat 4 bits.toNat) = .ok a16)
    (inside : wellKnownPrefix.contains (.from16 a16) = true) :
    isWellKnownPrefix pfx = true ∧ a16.drop 12 = Bytes.ofNat 4 bits.toNat := by
  have sixteen := length_of_embed embedded
  obtain ⟨l, found, net⟩ := translation.network
  rw [embed, found] at embedded
  obtain rfl := Except.ok.inj embedded
  have known : wellKnownPrefix.Network 128 (8 * 12) := ⟨rfl, by decide, by decide +kernel⟩
  have start := (contains_iff_take known rfl rfl).mp inside
  rw [as16_from16 sixteen] at start
  obtain ⟨rfl, rest⟩ := wellKnown_of_embedAt pfx.addr.length_as16 (Bytes.length_ofNat 4 bits.toNat)
    usable (start.trans (by decide +kernel))
  refine ⟨?_, rest⟩
  have behind : pfx.contains (.from16 (embedAt pfx.addr.as16 (Bytes.ofNat 4 bits.toNat) .l96)) := by
    rw [contains_iff_take net rfl rfl, as16_from16 sixteen]
    exact take_embedAt pfx.addr.length_as16 _
  rw [net.eq_of_contains known behind inside]
  decide +kernel

/-- The translation prefix of a configuration that has been accepted. -/
theorem Faultless.translation {own : Addr} (faultless : Faultless ro cfg own) :
    TranslationPrefix cfg.pfx := by
  obtain ⟨-, b₁, -, -, -, -, -, added, -⟩ := faultless.builds
  have member : prefixEntry cfg.pfx ∈ b₁.entries := by
    rw [Builder.addPrefix_entries added]
    exact List.mem_append_right _ (List.mem_singleton_self _)
  generalize same : prefixEntry cfg.pfx = e at member
  cases b₁.valid e member with
  | pfx ok =>
    rw [show cfg.pfx = _ from congrArg Entry.v6 same]
    exact ok
  | static => cases same
  | self => cases same
  | pool => cases same

section Accepted

variable (four : cfg.ipv4Address = .v4 bits) {a : Addr} {f : Findings} {b : Builder} {s : Mapper}
  {r : Resolved}

include four

/-- What is known of a configuration that is accepted, whatever its own address. -/
theorem Resolves.origin (resolves : Resolves listing (cfg.withIPv6 a) ro f b s r) :
    ∃ b', Origin (boolOr cfg.wkpfStrict true) (cfg.withIPv6 a) bits b' f.own := by
  obtain ⟨b₁, b₂, b₃, b₄, e⟩ := examine_passes.mp resolves.examined
  have translator : (cfg.withIPv6 a).withTranslator = cfg.withIPv6 a :=
    withTranslator_of_valid (show cfg.ipv4Address.isValid = true by rw [four]; rfl)
  have own := e.own
  rw [translator] at own
  exact ⟨b₃, (resolveIPv6Address_origin (show (cfg.withIPv6 a).ipv4Address = _ from four) own).1⟩

theorem Resolves.faultless (resolves : Resolves listing (cfg.withIPv6 a) ro f b s r)
    (valid : cfg.pfx.isValid = true) {own : Addr} (derived : f.own = ⟨own, true⟩) :
    Faultless ro cfg own := by
  obtain ⟨b₁, b₂, b₃, b₄, e⟩ := examine_passes.mp resolves.examined
  obtain ⟨-, level, json, kinds, parsed, formatted, kept, -⟩ := resolves.read
  have translator : (cfg.withIPv6 a).withTranslator = cfg.withIPv6 a :=
    withTranslator_of_valid (show cfg.ipv4Address.isValid = true by rw [four]; rfl)
  have config := e.config
  rw [translator] at config
  have log : f.config.log = cfg.log := by
    rw [config]
    rfl
  rw [log] at parsed formatted kept
  have sharing := e.sharing
  have maps := e.maps
  have self := e.self
  have pool := e.pool
  rw [translator] at sharing maps self pool
  rw [derived] at self
  exact ⟨⟨e.usable.name, e.usable.mtu, e.usable.offlinkMTU⟩, ⟨_, e.udpChecksum⟩, ⟨_, parsed⟩,
    ⟨_, formatted⟩, ⟨_, kept⟩, f.sharing, b₁, b₂, b₃, b₄, b, s,
    extend_passes.mp ((passes_when.mp e.pfx).1 valid), sharing, maps, self, pool, resolves.built⟩

theorem Faultless.usable4 {own : Addr} (faultless : Faultless ro cfg own) :
    classifyIPv4 (Bytes.ofNat 4 bits.toNat) ≠ .invalid := by
  obtain ⟨-, -, -, b₃, b₄, -, -, -, -, -, self, -⟩ := faultless.builds
  intro reserved
  rw [four] at self
  simp [Builder.addSelf, reserved] at self

/-- The address that the prefix embeds is accepted when it is written out. -/
theorem Faultless.resolves (listing : Listing) {own : Addr} (faultless : Faultless ro cfg own)
    (valid : cfg.pfx.isValid = true) (known : own.isValid = true)
    (derived : own = derivedAddress cfg.pfx (.v4 bits)) :
    ∃ r, (resolveWith listing (cfg.withIPv6 own) ro).1 = .ok r := by
  have usable4 := faultless.usable4 four
  obtain ⟨usable, ⟨mode, checksum⟩, ⟨level, parsed⟩, ⟨json, formatted⟩, ⟨kinds, kept⟩, sharing,
    b₁, b₂, b₃, b₄, b₅, s, pfx, shared, maps, self, pool, built⟩ := faultless
  have translator : (cfg.withIPv6 own).withTranslator = cfg.withIPv6 own :=
    withTranslator_of_valid (show cfg.ipv4Address.isValid = true by rw [four]; rfl)
  let f : Findings := {
    config := { (cfg.withIPv6 own).filled with
      clat := sharing.clat
      udpChecksum := udpChecksumText mode }
    udpChecksum := mode, sharing, ipv4Address := cfg.ipv4Address, own := ⟨own, true⟩ }
  have found : (resolveIPv6Address (boolOr cfg.wkpfStrict true) (cfg.withIPv6 own)).Passes b₃
      ⟨own, true⟩ b₃ := by
    rw [resolveIPv6Address_written (show (cfg.withIPv6 own).ipv4Address = _ from four) known derived]
    exact passes_pure.mpr ⟨by rw [derived]; rfl, rfl⟩
  have examined : Examined ro (cfg.withIPv6 own) f (.new (boolOr cfg.wkpfStrict true)) b₁ b₂ b₃ b₄
      b₅ := by
    refine ⟨⟨usable.name, usable.mtu, usable.offlinkMTU⟩, checksum, ?_, ?_, ?_, ?_, ?_, ?_, ?_, ?_, ?_,
      ?_⟩
    · exact passes_when.mpr ⟨fun _ => extend_passes.mpr pfx, fun missing => absurd valid missing⟩
    all_goals rw [translator]
    · exact shared
    · exact maps
    · exact fun missing => missing.1 valid
    · exact ⟨bits, four, usable4⟩
    · exact found
    · exact self
    · exact pool
    · rfl
    · rfl
  obtain ⟨warnings, resolved⟩ := exists_resolves listing
    (examine_passes.mpr ⟨b₁, b₂, b₃, b₄, examined⟩) built parsed formatted kept
  exact ⟨_, resolved⟩

/-- Whoever is accepted without an address has one that may be derived. -/
theorem derivable_of_omitted (resolved : (resolveWith listing (cfg.withIPv6 .zero) ro).1 = .ok r) :
    Derivable (boolOr cfg.wkpfStrict true) cfg.pfx bits := by
  obtain ⟨f, b, s, resolves⟩ := resolves_of_ok resolved
  obtain ⟨b', origin⟩ := resolves.origin four
  cases own : f.own
  rw [own] at origin
  cases origin with
  | written known => cases known
  | given known => cases known
  | derived _ _ _ derivable => exact derivable

end Accepted

/-- Writing out the address that the prefix embeds changes nothing: under `wkpf_strict` no
private address is behind 64:ff9b::/96, and no link-local one is embedded. -/
structure WritingOut (listing : Listing) (ro : ResolveOptions) (cfg : Config) (bits : BitVec 32)
    (own : Addr) : Prop where
  same : (∃ err err', (resolveWith listing (cfg.withIPv6 .zero) ro).1 = .error err ∧
      (resolveWith listing (cfg.withIPv6 own) ro).1 = .error err') ∨
    ∃ r, (resolveWith listing (cfg.withIPv6 .zero) ro).1 = .ok r ∧
      (resolveWith listing (cfg.withIPv6 own) ro).1 = .ok r
  strict : boolOr cfg.wkpfStrict true = true → ∀ a r,
    (resolveWith listing (cfg.withIPv6 a) ro).1 = .ok r →
    wellKnownPrefix.contains r.xlate.localAddr6 = true →
    isPrivateIPv4 (r.xlate.localAddr6.as16.drop 12) = false
  linkLocal : classifyIPv4 (Bytes.ofNat 4 bits.toNat) = .linkLocal → ∀ r,
    (resolveWith listing (cfg.withIPv6 own) ro).1 ≠ .ok r

/-- An IPv4 address whose embedded form the translator may have as its own. -/
structure Ordinary (cfg : Config) (bits : BitVec 32) : Prop where
  known : ¬ (boolOr cfg.wkpfStrict true = true ∧ isWellKnownPrefix cfg.pfx = true ∧
    isPrivateIPv4 (Bytes.ofNat 4 bits.toNat) = true)
  plain : classifyIPv4 (Bytes.ofNat 4 bits.toNat) ≠ .linkLocal

section WritingOut

variable (valid : cfg.pfx.isValid = true) (four : cfg.ipv4Address = .v4 bits)
  (embedded : embed cfg.pfx.addr.as16 cfg.pfx.bits (Bytes.ofNat 4 bits.toNat) = .ok a16)
  {r : Resolved}

include valid embedded in
theorem derivedAddress_eq : derivedAddress cfg.pfx (.v4 bits) = .from16 a16 := by
  simp [derivedAddress, valid, embedded]

include valid four embedded

/-- Whoever is accepted with the address that the prefix embeds has no other fault. -/
theorem faultless_of_written
    (resolved : (resolveWith listing (cfg.withIPv6 (.from16 a16)) ro).1 = .ok r) :
    Faultless ro cfg (.from16 a16) := by
  obtain ⟨f, b, s, resolves⟩ := resolves_of_ok resolved
  obtain ⟨b', origin⟩ := resolves.origin four
  refine resolves.faultless four valid ?_
  have derived := derivedAddress_eq valid embedded
  rcases own : f.own with ⟨local6, v6Derived⟩
  rw [own] at origin
  cases origin with
  | written => rw [← derived]; rfl
  | given _ other => exact absurd derived.symm other
  | derived omitted => exact absurd rfl omitted

/-- An address that may be derived is derived, whether or not it is written out. -/
theorem resolveWith_written (derivable : Derivable (boolOr cfg.wkpfStrict true) cfg.pfx bits) :
    resolveWith listing (cfg.withIPv6 (.from16 a16)) ro =
      resolveWith listing (cfg.withIPv6 .zero) ro := by
  have derived := derivedAddress_eq valid embedded
  refine resolveWith_withIPv6 (by rw [four]; rfl) ?_ ?_
  · have made : deriveIPv6Address (boolOr cfg.wkpfStrict true) cfg.pfx (.v4 bits) =
        pure (some (.from16 a16)) := by
      simp only [deriveIPv6Address, embedded]
      rw [if_neg derivable.known, if_neg (not_not.mpr derivable.plain)]
    simp only [resolveIPv6Address, withIPv6, four, made, valid, Addr.isValid]
    rfl
  · have four' : (cfg.withIPv6 (.from16 a16)).ipv4Address = .v4 bits := four
    rw [resolveIPv6Address_written four' rfl derived.symm]
    show pure (⟨derivedAddress cfg.pfx (.v4 bits), true⟩ : Own) = _
    rw [derived]

/-- Inside the well-known prefix there is only the address that it embeds. -/
theorem Resolves.not_private {a : Addr} {f : Findings} {b : Builder} {s : Mapper}
    (resolves : Resolves listing (cfg.withIPv6 a) ro f b s r)
    (strict : boolOr cfg.wkpfStrict true = true)
    (inside : wellKnownPrefix.contains f.own.local6 = true)
    (condition : Faultless ro cfg (.from16 a16) → Ordinary cfg bits) :
    isPrivateIPv4 (f.own.local6.as16.drop 12) = false := by
  have derived := derivedAddress_eq valid embedded
  have embeds (own : f.own = ⟨derivedAddress cfg.pfx (.v4 bits), true⟩) :
      isPrivateIPv4 (f.own.local6.as16.drop 12) = false := by
    rw [derived] at own
    have faultless := resolves.faultless four valid own
    rw [own] at inside ⊢
    obtain ⟨known, rest⟩ := wellKnown_of_embedded (faultless.usable4 four) faultless.translation
      embedded inside
    rw [as16_from16 (length_of_embed embedded), rest, Bool.eq_false_iff]
    exact fun hidden => (condition faultless).known ⟨strict, known, hidden⟩
  obtain ⟨b', origin⟩ := resolves.origin four
  rcases own : f.own with ⟨local6, v6Derived⟩
  rw [own] at origin inside embeds
  cases origin with
  | written => exact embeds rfl
  | given _ _ checked => exact absurd ⟨strict, inside⟩ (checkIPv6Address_passes checked).1
  | derived => exact embeds rfl

/-- Writing out the address that the prefix embeds changes nothing, unless the configuration
would be refused for that address and for nothing else. -/
theorem writingOut_iff : WritingOut listing ro cfg bits (.from16 a16) ↔
    (Faultless ro cfg (.from16 a16) → Ordinary cfg bits) := by
  have derived := derivedAddress_eq valid embedded
  constructor
  · intro out faultless
    obtain ⟨r, resolved⟩ := faultless.resolves four listing valid rfl derived.symm
    rcases out.same with ⟨_, _, -, failed⟩ | ⟨r', omitted, -⟩
    · rw [resolved] at failed
      cases failed
    · have derivable := derivable_of_omitted four omitted
      exact ⟨derivable.known, by rw [derivable.plain]; decide⟩
  intro condition
  have derivable (faultless : Faultless ro cfg (.from16 a16)) :
      Derivable (boolOr cfg.wkpfStrict true) cfg.pfx bits := by
    have usable := faultless.usable4 four
    obtain ⟨known, plain⟩ := condition faultless
    refine ⟨known, ?_⟩
    cases kind : classifyIPv4 (Bytes.ofNat 4 bits.toNat) with
    | valid => rfl
    | linkLocal => exact absurd kind plain
    | invalid => exact absurd kind usable
  refine ⟨?_, fun strict a r resolved inside => ?_, fun local4 r resolved => ?_⟩
  · by_cases may : Derivable (boolOr cfg.wkpfStrict true) cfg.pfx bits
    · rw [resolveWith_written valid four embedded may]
      cases (resolveWith listing (cfg.withIPv6 .zero) ro).1 with
      | error err => exact .inl ⟨err, err, rfl, rfl⟩
      | ok r => exact .inr ⟨r, rfl, rfl⟩
    · cases omitted : (resolveWith listing (cfg.withIPv6 .zero) ro).1 with
      | ok r => exact absurd (derivable_of_omitted four omitted) may
      | error err =>
        cases written : (resolveWith listing (cfg.withIPv6 (.from16 a16)) ro).1 with
        | ok r => exact absurd (derivable (faultless_of_written valid four embedded written)) may
        | error err' => exact .inl ⟨err, err', rfl, rfl⟩
  · obtain ⟨f, b, s, resolves⟩ := resolves_of_ok resolved
    rw [resolves.routes_eq.2.2.1] at inside ⊢
    exact resolves.not_private valid four embedded strict inside condition
  · exact (condition (faultless_of_written valid four embedded resolved)).plain local4

end WritingOut

/-- 192.0.2.1 behind 2001:db8:64::/96. -/
theorem writingOut_ordinary : WritingOut .standard {}
    { pfx := .of (.v6 (0x20010db80064#128 <<< 80) "") 96, ipv4Address := .v4 0xc0000201#32 }
    0xc0000201#32
    (.from16 [0x20, 0x01, 0x0d, 0xb8, 0, 0x64, 0, 0, 0, 0, 0, 0, 192, 0, 2, 1]) :=
  (writingOut_iff (by decide) rfl (by decide +kernel)).mpr fun _ =>
    ⟨by decide +kernel, by decide +kernel⟩

/-- 192.168.255.1 behind the well-known prefix. -/
def privateConfig : Config where
  pfx := wellKnownPrefix
  ipv4Address := .v4 0xc0a8ff01#32

/-- The address that is refused when it is derived is accepted when it is written out. -/
theorem writingOut_fails :
    (∃ err, (resolveWith .standard (privateConfig.withIPv6 .zero) {}).1 = .error err) ∧
    ∃ r, (resolveWith .standard (privateConfig.withIPv6
        (.v6 (0x64ff9b#128 <<< 96 ||| 0xc0a8ff01#128) "")) {}).1 = .ok r ∧
      derivedAddress privateConfig.pfx privateConfig.ipv4Address = r.xlate.localAddr6 ∧
      boolOr privateConfig.wkpfStrict true = true ∧
      wellKnownPrefix.contains r.xlate.localAddr6 = true ∧
      isPrivateIPv4 (r.xlate.localAddr6.as16.drop 12) = true := by
  constructor
  · cases omitted : (resolveWith .standard (privateConfig.withIPv6 .zero) {}).1 with
    | error err => exact ⟨err, rfl⟩
    | ok r =>
      have four : privateConfig.ipv4Address = .v4 0xc0a8ff01#32 := rfl
      have derivable := derivable_of_omitted four omitted
      exact absurd (by decide +kernel) derivable.known
  · obtain ⟨f, b, s, -, r, resolves, resolved, -, -⟩ := exists_resolves_of_clean .standard {}
      (privateConfig.withIPv6 (.v6 (0x64ff9b#128 <<< 96 ||| 0xc0a8ff01#128) ""))
      (by decide +kernel) (by decide +kernel) (show parseLevel "" = .ok .info by decide +kernel)
      (show parseFormat "" = .ok true by decide +kernel)
      (show List.mapM parseKind [] = .ok [] from rfl)
    obtain ⟨b', origin⟩ := resolves.origin
      (show privateConfig.ipv4Address = .v4 0xc0a8ff01#32 from rfl)
    refine ⟨r, resolved, ?_⟩
    rw [resolves.routes_eq.2.2.1]
    cases own : f.own
    rw [own] at origin
    cases origin with
    | written => decide +kernel
    | given _ other => exact absurd (by decide +kernel) other
    | derived omitted => exact absurd rfl omitted

end Clatto.Config
