import Mathlib.Data.Finset.Dedup
import Clatto.Addrmap.Entries
import Clatto.Config.Config
import Clatto.Lib.Collect
import Clatto.Lib.Firsts

/-! From a configuration to what the daemon runs on. Errors are collected as long as it makes
sense to go on. -/

namespace Clatto.Config

open Netip Netutil Addrmap Collect
open Xlate (UDPChecksumMode)

/-- What finds the source address towards a destination: it answers with an address, or
fails. -/
structure SourceAddr where
  ask : Addr → Except String Addr
  answers : ∀ {dst a}, ask dst = .ok a → a.isValid = true

/-- `config.ResolveOptions`. -/
structure ResolveOptions where
  existingPool : Option Pool := none
  sourceAddr : Option SourceAddr := none

/-- `slog.Level`. -/
inductive Level where
  | debug
  | info
  | warn
  | error
  deriving DecidableEq

/-- `config.Resolved`. A pool that was there before is shared with the earlier
configuration: `reuses` tells it from a new one. -/
structure Resolved where
  config : Config
  xlate : Xlate.Config
  table : Table
  pool : Option Pool
  reuses : Bool
  addresses : List Prefix
  routes4 : List Netconf.Route
  routes6 : List Netconf.Route
  shared : Option Netconf.Shared
  warnings : List String
  logLevel : Level
  logJSON : Bool
  packetKinds : Finset Xlate.Kind
  httpListen : String

namespace Resolved

variable (r : Resolved)

def configure : Bool := boolOr r.config.interface.configure true

def sysctl : Bool := r.configure && boolOr r.config.interface.sysctl true

def forward4 : Bool := r.sysctl && r.shared.isNone

def forward6 : Bool := r.sysctl

end Resolved

/-- `ImmutableChanges`. -/
def immutableChanges (old new : Resolved) : List String :=
  (if old.config.interface.name ≠ new.config.interface.name then ["interface.name"] else []) ++
  (if old.config.interface.mtu ≠ new.config.interface.mtu then ["interface.mtu"] else []) ++
  (if old.configure ≠ new.configure then ["interface.configure"] else []) ++
  (if old.sysctl ≠ new.sysctl then ["interface.sysctl"] else []) ++
  (if old.httpListen ≠ new.httpListen then ["http.listen"] else []) ++
  (if old.logJSON ≠ new.logJSON then ["log.format"] else [])

/-- Entries are added to the builder while errors are collected. -/
abbrev Resolving := Collect Builder String String

def extend (what : String) (change : Builder → Except String Builder) : Resolving Unit :=
  attempt (fun err => s!"{what}: {err}") change

def Interface.filled (i : Interface) : Interface :=
  { i with
    name := if i.name = "" then defaultInterface else i.name
    mtu := if i.mtu = 0 then defaultMTU else i.mtu }

/-- Missing values that do not depend on others are filled in. -/
def filled (cfg : Config) : Config :=
  { cfg with
    interface := cfg.interface.filled
    offlinkMTU := if cfg.offlinkMTU = 0 then defaultOfflinkMTU else cfg.offlinkMTU }

def checkInterface (cfg : Config) : Resolving Unit := do
  let name := quote cfg.interface.name
  when (15 < cfg.interface.name.utf8ByteSize)
    (fail s!"interface.name {name} is longer than 15 characters")
  when (cfg.interface.mtu < 1280 ∨ 65535 < cfg.interface.mtu)
    (fail s!"interface.mtu {cfg.interface.mtu} must be between 1280 and 65535")
  when (cfg.offlinkMTU < 1280) (fail s!"offlink_mtu {cfg.offlinkMTU} must be at least 1280")

def resolveUDPChecksum (cfg : Config) : Resolving UDPChecksumMode :=
  match parseUDPChecksum cfg.udpChecksum with
  | .ok mode => pure mode
  | .error err => do
    fail err
    return .drop

def CLAT.filled (c : CLAT) : CLAT :=
  { c with
    ipv4Address := if c.ipv4Address.isValid then c.ipv4Address else defaultCLATHostIPv4
    table := if c.table = 0 then defaultCLATTable else c.table }

/-- A CLAT has an IPv4 address to itself. -/
def withTranslator (cfg : Config) : Config :=
  if cfg.clat.isSome ∧ ¬ cfg.ipv4Address.isValid then
    { cfg with ipv4Address := defaultCLATTranslatorIPv4 }
  else cfg

def checkCLATAddress (cfg : Config) (c : CLAT) : Resolving Unit :=
  if ¬ c.ipv4Address.is4 then fail s!"clat.ipv4_address {c.ipv4Address} is not IPv4"
  else
    when (c.ipv4Address = cfg.ipv4Address)
      (fail s!"clat.ipv4_address {c.ipv4Address} is the translator's own ipv4_address")

def checkCLATTable (c : CLAT) : Resolving Unit :=
  if c.table = rtTableLocal ∨ c.table = rtTableMain ∨ c.table = rtTableDefault then
    fail s!"clat.table {c.table} is a reserved table"
  else
    when (c.table < 1 ∨ 0xfffffffe < c.table)
      (fail s!"clat.table {c.table} must be between 1 and 4294967294")

/-- The filters of `clat.ports`; those that cannot be read are passed over. -/
def resolvePorts : List String → Resolving (List Netconf.Filter)
  | [] => pure []
  | s :: rest =>
    match parseFilter s with
    | .error err => do
      fail s!"clat.ports: {err}"
      resolvePorts rest
    | .ok f => do
      let filters ← resolvePorts rest
      return f :: filters

def noAddress (err : String) : Resolving Addr := do
  fail err
  return .zero

/-- The address that is shared, which is unset after an error. -/
def sharedAddress (ro : ResolveOptions) (cfg : Config) (c : CLAT) : Resolving Addr :=
  if ¬ cfg.pfx.isValid then noAddress "clat: prefix is required"
  else if c.ipv6Address = "" ∨ isAuto c.ipv6Address then
    match ro.sourceAddr with
    | none =>
      noAddress "clat.ipv6_address: automatic detection is not available here, set the address"
    | some source =>
      match source.ask cfg.pfx.addr with
      | .error err => noAddress s!"clat.ipv6_address: {err}"
      | .ok a => do
        remark s!"clat: sharing the host address {a} (source address towards {cfg.pfx})"
        return a
  else
    match parseAddr c.ipv6Address with
    | none =>
      let text := quote c.ipv6Address
      noAddress s!"clat.ipv6_address: ParseAddr({text})"
    | some a => pure a

/-- The shared address is mapped to the host's IPv4 address. -/
def addShared (cfg : Config) (c : CLAT) (shared6 : Addr) : Resolving CLAT :=
  if ¬ shared6.isValid then pure c
  else if ¬ shared6.is6 ∨ shared6.is4In6 then do
    fail s!"clat.ipv6_address {shared6} is not IPv6"
    return c
  else if ¬ validIPv6 shared6.as16 then do
    fail s!"clat.ipv6_address {shared6} is a reserved address"
    return c
  else if cfg.pfx.isValid ∧ cfg.pfx.contains shared6 then do
    fail s!"clat.ipv6_address {shared6} must not be inside prefix {cfg.pfx}"
    return c
  else do
    extend "clat" (·.addStatic (.of c.ipv4Address 32) (.of shared6 128))
    return { c with ipv6Address := shared6.text }

/-- What comes of `clat`. -/
structure Sharing where
  clat : Option CLAT
  shared6 : Addr
  shared : Option Netconf.Shared

def resolveCLAT (ro : ResolveOptions) (cfg : Config) : Resolving Sharing :=
  match cfg.clat with
  | none => pure ⟨none, .zero, none⟩
  | some c => do
    let c := c.filled
    checkCLATAddress cfg c
    checkCLATTable c
    let filters ← resolvePorts c.ports
    let shared6 ← sharedAddress ro cfg c
    let c ← addShared cfg c shared6
    let good ← clean
    return {
      clat := some c
      shared6
      shared :=
        if good then some { addr := shared6, source := cfg.pfx, table := c.table, filters }
        else none }

/-- `netutil.ClassifyIPv4`, for IPv4 addresses. -/
def classOf : Addr → Option IPv4Class
  | .v4 bits => some (classifyIPv4 (Bytes.ofNat 4 bits.toNat))
  | _ => none

def resolveMap (i : Nat) (m : Map) : Resolving Unit :=
  match parseAddrOrPrefix m.ipv4 with
  | .error err => fail s!"maps[{i}].ipv4: {err}"
  | .ok p4 =>
    match parseAddrOrPrefix m.ipv6 with
    | .error err => fail s!"maps[{i}].ipv6: {err}"
    | .ok p6 => do
      when (classOf p4.addr = some .linkLocal)
        (remark s!"maps[{i}]: using link-local address {p4}, use with caution")
      extend s!"maps[{i}]" (·.addStatic p4 p6)

def resolveMaps : Nat → List Map → Resolving Unit
  | _, [] => pure ()
  | i, m :: rest => do
    resolveMap i m
    resolveMaps (i + 1) rest

def checkIPv4Address (a : Addr) : Resolving Unit :=
  if ¬ a.isValid then fail "ipv4_address is required"
  else
    match classOf a with
    | none => fail s!"ipv4_address {a} is not IPv4"
    | some .invalid => fail s!"ipv4_address {a} is a reserved address"
    | some .linkLocal => remark s!"ipv4_address {a} is link-local, use with caution"
    | some .valid => pure ()

/-- The address at which the prefix embeds an IPv4 address, unset if there is none. -/
def derivedAddress (pfx : Prefix) (ipv4 : Addr) : Addr :=
  match ipv4 with
  | .v4 bits =>
    if pfx.isValid then
      match Netutil.embed pfx.addr.as16 pfx.bits (Bytes.ofNat 4 bits.toNat) with
      | .ok a16 => .from16 a16
      | .error _ => .zero
    else .zero
  | _ => .zero

/-- An address that is not derived from the prefix. -/
def checkIPv6Address (strict : Bool) (pfx : Prefix) (a : Addr) : Resolving Unit :=
  if ¬ a.is6 ∨ a.is4In6 then fail s!"ipv6_address {a} is not IPv6"
  else if ¬ validIPv6 a.as16 then fail s!"ipv6_address {a} is a reserved address"
  else if strict ∧ wellKnownPrefix.contains a then
    fail "ipv6_address must not be inside the well-known prefix 64:ff9b::/96"
  else
    when (pfx.isValid ∧ pfx.contains a) (fail s!"ipv6_address {a} must not be inside prefix {pfx}")

/-- An address that has to be derived from the prefix. -/
def deriveIPv6Address (strict : Bool) (pfx : Prefix) (ipv4 : Addr) : Resolving (Option Addr) :=
  match ipv4 with
  | .v4 bits =>
    let a4 := Bytes.ofNat 4 bits.toNat
    match Netutil.embed pfx.addr.as16 pfx.bits a4 with
    | .error err => do
      let reason := err.text
      fail s!"ipv6_address: cannot derive from prefix: {reason}"
      return none
    | .ok a16 =>
      if strict ∧ isWellKnownPrefix pfx ∧ isPrivateIPv4 a4 then do
        fail ("ipv6_address must be specified when prefix is 64:ff9b::/96 and ipv4_address is " ++
          "a private address")
        return none
      else if classifyIPv4 a4 ≠ .valid then do
        fail "ipv6_address must be specified when ipv4_address is link-local"
        return none
      else pure (some (.from16 a16))
  | _ => pure none

/-- The translator's own IPv6 address, and whether it is derived from the prefix. -/
structure Own where
  local6 : Addr
  v6Derived : Bool

def resolveIPv6Address (strict : Bool) (cfg : Config) : Resolving Own :=
  let local6 := cfg.ipv6Address
  if local6.isValid ∧ local6 = derivedAddress cfg.pfx cfg.ipv4Address then pure ⟨local6, true⟩
  else if local6.isValid then do
    checkIPv6Address strict cfg.pfx local6
    return ⟨local6, false⟩
  else if ¬ cfg.pfx.isValid then do
    fail "ipv6_address is required when no prefix is configured"
    return ⟨local6, false⟩
  else do
    let derived ← deriveIPv6Address strict cfg.pfx cfg.ipv4Address
    return ⟨derived.getD local6, derived.isSome⟩

/-- Whether the pool that is there goes on being used. -/
def ResolveOptions.reuses (ro : ResolveOptions) (cfg : Config) : Bool :=
  match cfg.dynamicPool, ro.existingPool with
  | some dp, some pool => dp.pfx.isValid && pool.pfx == dp.pfx
  | _, _ => false

/-- The pool that is there, with new leases if it goes on being used. -/
def ResolveOptions.touched (ro : ResolveOptions) (cfg : Config) : Option Pool :=
  match cfg.dynamicPool with
  | some dp =>
    if ro.reuses cfg then ro.existingPool.map (·.setLeases dp.minLease dp.maxLease)
    else ro.existingPool
  | none => ro.existingPool

def ResolveOptions.pool (ro : ResolveOptions) (cfg : Config) (dp : DynamicPool) :
    Except String Pool :=
  match ro.touched cfg, ro.reuses cfg with
  | some pool, true => .ok pool
  | _, _ => newPool dp.pfx { minLease := dp.minLease, maxLease := dp.maxLease }

def addPool (ro : ResolveOptions) (cfg : Config) (dp : DynamicPool) : Resolving Unit :=
  if ¬ dp.pfx.isValid then fail "dynamic_pool.prefix is required"
  else
    match ro.pool cfg dp with
    | .error err => fail s!"dynamic_pool: {err}"
    | .ok pool => do
      when (classOf dp.pfx.addr = some .linkLocal)
        (remark s!"dynamic_pool {dp.pfx} is link-local, use with caution")
      when (dp.stateFile ≠ "" ∧ dp.stateFile.toList.head? ≠ some '/')
        (fail "dynamic_pool.state_file must be an absolute path")
      extend "dynamic_pool" (·.setPool pool)

def resolvePool (ro : ResolveOptions) (cfg : Config) : Resolving Unit :=
  match cfg.dynamicPool with
  | none => pure ()
  | some dp => addPool ro cfg dp

/-- What has been found out when the table is built. -/
structure Findings where
  config : Config
  udpChecksum : UDPChecksumMode
  sharing : Sharing
  ipv4Address : Addr
  own : Own

def examine (ro : ResolveOptions) (cfg : Config) : Resolving Findings := do
  let strict := boolOr cfg.wkpfStrict true
  checkInterface cfg.filled
  let udpChecksum ← resolveUDPChecksum cfg
  when cfg.pfx.isValid (extend "prefix" (·.addPrefix cfg.pfx))
  let cfg := cfg.withTranslator
  let sharing ← resolveCLAT ro cfg
  resolveMaps 0 cfg.maps
  when (¬ cfg.pfx.isValid ∧ cfg.maps = []) (fail "no translation maps or NAT64 prefix configured")
  checkIPv4Address cfg.ipv4Address
  let own ← resolveIPv6Address strict cfg
  let good ← clean
  when good
    (extend "ipv4_address/ipv6_address" (·.addSelf cfg.ipv4Address own.local6 own.v6Derived))
  resolvePool ro cfg
  return {
    config := { cfg.filled with
      clat := sharing.clat
      udpChecksum := udpChecksumText udpChecksum
      ipv6Address := if good then own.local6 else cfg.ipv6Address }
    udpChecksum, sharing, ipv4Address := cfg.ipv4Address, own }

/-- `dedupe`. -/
def dedupe (ps : List Prefix) : List Prefix := firstOfEach id [] ps

def Findings.entryRoutes (f : Findings) (e : Entry) : List Netconf.Route :=
  match e.kind with
  | .static =>
    if f.sharing.shared.isSome ∧ e.v6 = .of f.sharing.shared6 128 then []
    else if e.v4 = .of f.ipv4Address 32 ∧ ¬ f.own.v6Derived then [{ pfx := e.v4 }, { pfx := e.v6 }]
    else [{ pfx := e.v4 }]
  | .rfc6052 => if f.sharing.shared.isSome then [] else [{ pfx := e.v6 }]
  | .dynamicPool => [{ pfx := e.v4 }]
  | .dynamicHost => []

def Findings.autoRoutes (f : Findings) (entries : List Entry) : List Netconf.Route :=
  if boolOr f.config.interface.autoRoutes true then
    entries.flatMap f.entryRoutes ++
      if f.sharing.shared.isSome then [{ pfx := everything4 }] else []
  else []

/-- Explicit routes come first and replace automatic ones. -/
def Findings.routes (f : Findings) (entries : List Entry) : List Netconf.Route :=
  firstOfEach Netconf.Route.pfx []
    (f.config.interface.routes.map Route.netconf ++ f.autoRoutes entries)

def Findings.addresses (f : Findings) : List Prefix :=
  dedupe (f.config.interface.addresses ++
    match f.sharing.shared, f.sharing.clat with
    | some _, some c => [.of c.ipv4Address 32]
    | _, _ => [])

def parseLevel (s : String) : Except String Level :=
  if lower s = "" ∨ lower s = "info" then .ok .info
  else if lower s = "debug" then .ok .debug
  else if lower s = "warn" ∨ lower s = "warning" then .ok .warn
  else if lower s = "error" then .ok .error
  else
    let text := quote s
    .error s!"log.level: expected debug, info, warn or error, got {text}"

def parseFormat (s : String) : Except String Bool :=
  if lower s = "" ∨ lower s = "json" then .ok true
  else if lower s = "text" then .ok false
  else
    let text := quote s
    .error s!"log.format: expected json or text, got {text}"

def parseKind (s : String) : Except String (List Xlate.Kind) :=
  if lower s = "drop" then .ok [.drop]
  else if lower s = "reject" then .ok [.reject]
  else if lower s = "icmp" then .ok [.icmp]
  else if lower s = "self" then .ok [.self]
  else if lower s = "dyn" ∨ lower s = "dynamic" then .ok [.dynamic]
  else if lower s = "all" then .ok [.drop, .reject, .icmp, .self, .dynamic]
  else
    let text := quote s
    .error s!"log.packets: unknown kind {text}"

def httpListen (s : String) : String :=
  if lower s = "" then defaultHTTPListen
  else if lower s = "off" ∨ lower s = "none" ∨ lower s = "disabled" then ""
  else s

/-- All that was found out, when the table is built and the rest is read. -/
def Findings.resolved (f : Findings) (listing : Listing) (s : Mapper) (reuses : Bool)
    (warnings : List String) (logLevel : Level) (logJSON : Bool) (packetKinds : List Xlate.Kind) :
    Resolved where
  config := f.config
  xlate := {
    localAddr4 := f.ipv4Address
    localAddr6 := f.own.local6
    mtu := f.config.interface.mtu
    offlinkMTU := f.config.offlinkMTU
    udpChecksum := f.udpChecksum }
  table := s.table
  pool := s.pool
  reuses := reuses
  addresses := f.addresses
  routes4 := (f.routes (listing.entries s.table)).filter (·.pfx.addr.is4)
  routes6 := (f.routes (listing.entries s.table)).filter (!·.pfx.addr.is4)
  shared := f.sharing.shared
  warnings := warnings
  logLevel := logLevel
  logJSON := logJSON
  packetKinds := packetKinds.toFinset
  httpListen := httpListen f.config.http.listen

/-- What is left to do when the table is built. -/
def Findings.finish (f : Findings) (listing : Listing) (s : Mapper) (reuses : Bool)
    (warnings : List String) : Except String Resolved := do
  let logLevel ← parseLevel f.config.log.level
  let logJSON ← parseFormat f.config.log.format
  let packetKinds ← f.config.log.packets.mapM parseKind
  return f.resolved listing s reuses warnings logLevel logJSON packetKinds.flatten

/-- `ResolveWith`, and what becomes of the pool that is there: its leases are set, and
`Build` chooses anew what it must not hand out. -/
def resolveWith (listing : Listing) (cfg : Config) (ro : ResolveOptions) :
    Except String Resolved × Option Pool :=
  let found := (examine ro cfg).run (.new (boolOr cfg.wkpfStrict true)) []
  if found.errs ≠ [] then (.error ("\n".intercalate found.errs), ro.touched cfg)
  else
    match found.state.build with
    | .error err => (.error err, ro.touched cfg)
    | .ok s =>
      (found.value.finish listing s (ro.reuses cfg) found.remarks,
        if ro.reuses cfg then s.pool else ro.existingPool)

end Clatto.Config
