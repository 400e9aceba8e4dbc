import Clatto.Addrmap.Pool
import Clatto.Netutil.Embed
import Clatto.Xlate.Translator

/-! The mapping table: static maps, the RFC 6052 prefix and the dynamic pool, how they
are put together and how addresses are looked up in them. -/

namespace Clatto.Addrmap

open Netip Netutil
open Xlate (MapError)

/-- `addrmap.Kind`. -/
inductive Kind where
  | static
  | rfc6052
  | dynamicPool
  | dynamicHost
  deriving DecidableEq

def Kind.text : Kind → String
  | .static => "static"
  | .rfc6052 => "rfc6052"
  | .dynamicPool => "dynamic-pool"
  | .dynamicHost => "dynamic-host"

/-- `addrmap.Entry`. No two entries of a table are equal, so that equality stands for the
comparison of pointers. -/
structure Entry where
  kind : Kind
  v4 : Prefix
  v6 : Prefix
  v4Only : Bool := false
  deriving DecidableEq

/-- `Entry.String`. -/
def Entry.text (e : Entry) : String :=
  match e.kind with
  | .rfc6052 => s!"prefix {e.v6}"
  | .dynamicPool => s!"dynamic-pool {e.v4}"
  | kind => s!"{kind.text} {e.v4} <-> {e.v6}"

instance : ToString Entry := ⟨Entry.text⟩

/-- What `AddStatic` checks. -/
structure StaticMap (v4 v6 : Prefix) : Prop where
  four : ∃ bits, v4.addr = .v4 bits ∧ classifyIPv4 (Bytes.ofNat 4 bits.toNat) ≠ .invalid
  six : v6.addr.is6 = true ∧ v6.addr.is4In6 = false
  size : 32 - v4.bits = 128 - v6.bits
  v4Masked : v4 = v4.masked
  v6Masked : v6 = v6.masked
  usable : validIPv6 v6.addr.as16 = true

/-- What `AddPrefix` checks. -/
structure TranslationPrefix (v6 : Prefix) : Prop where
  six : v6.addr.is6 = true ∧ v6.addr.is4In6 = false
  len : validRFC6052PrefixLen v6.bits = true
  masked : v6 = v6.masked
  usable : validIPv6 v6.addr.as16 = true

def everything4 : Prefix := .of (.v4 0) 0

def prefixEntry (v6 : Prefix) : Entry := { kind := .rfc6052, v4 := everything4, v6 }

def staticEntry (v4 v6 : Prefix) : Entry := { kind := .static, v4, v6 }

/-- The translator's own IPv4 address, when its IPv6 address is inside the prefix. -/
def selfEntry (v4 v6 : Addr) : Entry :=
  { kind := .static, v4 := .of v4 32, v6 := .of v6 128, v4Only := true }

def poolEntry (p : Prefix) : Entry := { kind := .dynamicPool, v4 := p, v6 := .zero }

inductive Entry.Valid : Entry → Prop
  | pfx {v6 : Prefix} (ok : TranslationPrefix v6) : Valid (prefixEntry v6)
  | static {v4 v6 : Prefix} (ok : StaticMap v4 v6) : Valid (staticEntry v4 v6)
  | self {bits : BitVec 32} (ok : classifyIPv4 (Bytes.ofNat 4 bits.toNat) ≠ .invalid) (v6 : Addr) :
      Valid (selfEntry (.v4 bits) v6)
  | pool (p : Pool) : Valid (poolEntry p.pfx)

/-- `addrmap.Builder`: there is at most one prefix and at most one pool. -/
structure Builder where
  wkpfStrict : Bool
  entries : List Entry
  pool : Option Pool
  valid : ∀ e ∈ entries, e.Valid
  single : entries.Pairwise fun e o => e.kind = o.kind → e.kind = .static
  pooled : ∀ e ∈ entries, e.kind = .dynamicPool → ∃ p, pool = some p ∧ e = poolEntry p.pfx
  attached : ∀ p, pool = some p → poolEntry p.pfx ∈ entries

def errConflict : String := "mapping conflict"

namespace Builder

/-- `NewBuilder`. -/
def new (wkpfStrict : Bool) : Builder where
  wkpfStrict := wkpfStrict
  entries := []
  pool := none
  valid := by simp
  single := .nil
  pooled := by simp
  attached := nofun

variable (b : Builder)

def push (e : Entry) (valid : e.Valid) (static : e.kind = .static) : Builder where
  wkpfStrict := b.wkpfStrict
  entries := b.entries ++ [e]
  pool := b.pool
  valid := by
    intro o member
    rcases List.mem_append.mp member with old | new
    · exact b.valid o old
    · exact List.mem_singleton.mp new ▸ valid
  single := by
    refine List.pairwise_append.mpr ⟨b.single, List.pairwise_singleton _ _, ?_⟩
    intro o _ n new same
    rw [List.mem_singleton.mp new] at same
    exact same.trans static
  pooled := by
    intro o member pool
    rcases List.mem_append.mp member with old | new
    · exact b.pooled o old pool
    · rw [List.mem_singleton.mp new, static] at pool
      cases pool
  attached := fun p found => List.mem_append_left _ (b.attached p found)

/-- `AddPrefix`. -/
def addPrefix (p : Prefix) : Except String Builder :=
  if six : !p.addr.is6 || p.addr.is4In6 then .error s!"prefix {p} is not IPv6"
  else if len : !validRFC6052PrefixLen p.bits then
    let reason := EmbedError.text .invalidPrefixLen
    .error s!"prefix {p}: {reason}"
  else if masked : p ≠ p.masked then .error s!"prefix {p} has host bits set"
  else if usable : !validIPv6 p.addr.as16 then .error s!"prefix {p} is in a reserved range"
  else if dup : b.entries.any fun e => e.kind = .rfc6052 then
    .error s!"{errConflict}: duplicate prefix {p}"
  else .ok {
    wkpfStrict := b.wkpfStrict
    entries := b.entries ++ [prefixEntry p]
    pool := b.pool
    valid := by
      intro o member
      rcases List.mem_append.mp member with old | new
      · exact b.valid o old
      · rw [List.mem_singleton.mp new]
        exact .pfx ⟨by simpa using six, by simpa using len, not_not.mp masked, by simpa using usable⟩
    single := by
      refine List.pairwise_append.mpr ⟨b.single, List.pairwise_singleton _ _, ?_⟩
      intro o old n new same
      rw [List.mem_singleton.mp new] at same
      have again : o.kind = .rfc6052 := same
      exact absurd (List.any_eq_true.mpr ⟨o, old, by simpa using again⟩) dup
    pooled := by
      intro o member pool
      rcases List.mem_append.mp member with old | new
      · exact b.pooled o old pool
      · rw [List.mem_singleton.mp new] at pool
        cases pool
    attached := fun p found => List.mem_append_left _ (b.attached p found) }

/-- `AddStatic`. -/
def addStatic (v4 v6 : Prefix) : Except String Builder :=
  match four : v4.addr with
  | .v4 bits =>
    if six : !v6.addr.is6 || v6.addr.is4In6 then .error s!"map {v6}: not an IPv6 prefix"
    else if size : 32 - v4.bits ≠ 128 - v6.bits then
      .error s!"map {v4} <-> {v6}: subnets must be the same size"
    else if masked : v4 ≠ v4.masked ∨ v6 ≠ v6.masked then
      .error s!"map {v4} <-> {v6}: host bits set"
    else if reserved : classifyIPv4 (Bytes.ofNat 4 bits.toNat) = .invalid then
      .error s!"map {v4}: reserved IPv4 address"
    else if usable : !validIPv6 v6.addr.as16 then .error s!"map {v6}: reserved IPv6 address"
    else .ok (b.push (staticEntry v4 v6)
      (.static ⟨⟨bits, four, reserved⟩, by simpa using six, not_not.mp size,
        not_not.mp (not_or.mp masked).1, not_not.mp (not_or.mp masked).2, by simpa using usable⟩)
      rfl)
  | _ => .error s!"map {v4}: not an IPv4 prefix"

/-- `AddSelf`. -/
def addSelf (v4 v6 : Addr) (v6Derived : Bool) : Except String Builder :=
  if !v6Derived then b.addStatic (.of v4 32) (.of v6 128)
  else
    match v4 with
    | .v4 bits =>
      if reserved : classifyIPv4 (Bytes.ofNat 4 bits.toNat) = .invalid then
        .error s!"ipv4 address {v4} is reserved"
      else .ok (b.push (selfEntry (.v4 bits) v6) (.self reserved v6) rfl)
    | _ => .error s!"ipv4 address {v4} is reserved"

/-- `SetPool`. -/
def setPool (p : Pool) : Except String Builder :=
  if dup : b.pool ≠ none then .error s!"{errConflict}: duplicate dynamic pool"
  else .ok {
    wkpfStrict := b.wkpfStrict
    entries := b.entries ++ [poolEntry p.pfx]
    pool := some p
    valid := by
      intro o member
      rcases List.mem_append.mp member with old | new
      · exact b.valid o old
      · exact List.mem_singleton.mp new ▸ .pool p
    single := by
      refine List.pairwise_append.mpr ⟨b.single, List.pairwise_singleton _ _, ?_⟩
      intro o old n new same
      rw [List.mem_singleton.mp new] at same
      obtain ⟨q, found, -⟩ := b.pooled o old same
      rw [not_not.mp dup] at found
      cases found
    pooled := by
      intro o member pool
      rcases List.mem_append.mp member with old | new
      · obtain ⟨q, found, -⟩ := b.pooled o old pool
        rw [not_not.mp dup] at found
        cases found
      · exact ⟨p, rfl, List.mem_singleton.mp new⟩
    attached := by
      rintro q ⟨⟩
      simp }

end Builder

/-- `addrmap.Table`, without the pool. -/
structure Table where
  wkpfStrict : Bool
  pfx : Option Entry
  hosts4 : Dict Addr Entry
  hosts6 : Dict Addr Entry
  nets4 : List Entry
  nets6 : List Entry
  poolEntry : Option Entry

namespace Table

variable (t : Table)

/-- `lookup4`: the longest match. -/
def lookup4 (a : Addr) : Option Entry :=
  match t.hosts4.get a with
  | some e => some e
  | none => t.nets4.find? fun e => e.v4.contains a

/-- `lookup6`. -/
def lookup6 (a : Addr) : Option Entry :=
  match t.hosts6.get a with
  | some e => some e
  | none => t.nets6.find? fun e => e.v6.contains a

/-- `embed`. -/
def embed (a : Addr) (pfx : Prefix) : Checked (Except MapError Addr) := do
  let a4 ← a.as4
  if classifyIPv4 a4 ≠ .valid then return .error .drop
  if t.wkpfStrict && isWellKnownPrefix pfx && isPrivateIPv4 a4 then return .error .reject
  match Netutil.embed pfx.addr.as16 pfx.bits a4 with
  | .error _ => return .error .drop
  | .ok out => return .ok (.from16 out)

end Table

/-- The mask of the host part of an IPv4 prefix. -/
def hostMask (p : Prefix) : BitVec 32 := 0xffffffff#32 >>> p.bits.toNat

/-- `joinStatic6`: the last four bytes take the host bits of `a`. -/
def joinStatic6 (e : Entry) (a : Addr) : Checked Addr :=
  if e.v4.bits = 32 then .ok e.v6.addr
  else do
    let a4 ← a.as4
    let host := BitVec.ofNat 32 (Bytes.toNat a4) &&& hostMask e.v4
    let v6 := BitVec.ofNat 128 (Bytes.toNat e.v6.addr.as16)
    return .v6 (v6 ||| host.setWidth 128) ""

/-- `joinStatic4`: the host bits of `a` are in its last four bytes. -/
def joinStatic4 (e : Entry) (a : Addr) : Checked Addr :=
  if e.v6.bits = 128 then .ok e.v4.addr
  else do
    let host := BitVec.ofNat 32 (Bytes.toNat a.as16) &&& hostMask e.v4
    let v4 ← e.v4.addr.as4
    return .v4 (BitVec.ofNat 32 (Bytes.toNat v4) ||| host)

structure Mapper where
  table : Table
  pool : Option Pool

namespace Mapper

variable (s : Mapper)

/-- `MapIPv4ToIPv6`. Without a pool the last case would be a nil pointer. -/
def mapIPv4ToIPv6 (a : Addr) (m : Moment) : Checked (Except MapError Addr) × Mapper :=
  match s.table.lookup4 a with
  | none => (.ok (.error .reject), s)
  | some e =>
    match e.kind with
    | .static => ((joinStatic6 e a).map .ok, s)
    | .rfc6052 => (s.table.embed a e.v6, s)
    | .dynamicPool =>
      match s.pool with
      | none => (.error .outOfRange, s)
      | some p =>
        let found := p.lookup4 a m
        (found.1.map fun
          | some v6 => .ok v6
          | none => .error .reject, { s with pool := some found.2 })
    | .dynamicHost => (.ok (.error .drop), s)

/-- The RFC 6052 case of `MapIPv6ToIPv4`. -/
def unembed (e : Entry) (a : Addr) : Except MapError Addr :=
  match Netutil.extract a.as16 e.v6.bits with
  | .error _ => .error .drop
  | .ok v4b =>
    if classifyIPv4 v4b ≠ .valid then .error .drop
    else if s.table.wkpfStrict && isWellKnownPrefix e.v6 && isPrivateIPv4 v4b then .error .reject
    else if s.table.lookup4 (.from4 v4b) ≠ some e then .error .drop
    else .ok (.from4 v4b)

/-- `MapIPv6ToIPv4`. -/
def mapIPv6ToIPv4 (a : Addr) (allocate : Bool) (m : Moment) :
    Checked (Except MapError Addr) × Mapper :=
  match s.table.lookup6 a with
  | none =>
    match s.pool with
    | none => (.ok (.error .reject), s)
    | some p =>
      let found := p.lookup6 a allocate m
      (.ok (match found.1 with
        | some v4 => .ok v4
        | none => .error .reject), { s with pool := some found.2 })
  | some e =>
    match e.kind with
    | .static => ((joinStatic4 e a).map .ok, s)
    | .rfc6052 => (.ok (s.unembed e a), s)
    | _ => (.ok (.error .drop), s)

/-- `Maintain` of the pool, if there is one. -/
def maintain (m : Moment) : Mapper := { s with pool := s.pool.map fun p => p.maintain m }

end Mapper

/-- The state of `Build` while it goes through the entries: what is known of the IPv4 side,
and the entries with an IPv6 side. -/
structure Draft where
  pfx : Option Entry := none
  hosts4 : Dict Addr Entry := ∅
  nets4 : List Entry := []
  poolEntry : Option Entry := none
  v6s : List Entry := []

namespace Draft

variable (d : Draft)

/-- The IPv4 side of a static map: only exact duplicates conflict. -/
def addStatic (e : Entry) : Except String Draft :=
  if e.v4.bits = 32 then
    if (d.hosts4.get e.v4.addr).isSome then
      .error s!"{errConflict}: IPv4 address {e.v4.addr} mapped twice"
    else .ok { d with hosts4 := d.hosts4.put e.v4.addr e }
  else if d.nets4.any fun o => o.kind ≠ .dynamicPool ∧ o.v4 = e.v4 then
    .error s!"{errConflict}: IPv4 prefix {e.v4} mapped twice"
  else .ok { d with nets4 := d.nets4 ++ [e] }

def add (e : Entry) : Except String Draft :=
  match e.kind with
  | .rfc6052 => .ok { d with pfx := some e, v6s := d.v6s ++ [e], nets4 := d.nets4 ++ [e] }
  | .dynamicPool => .ok { d with poolEntry := some e, nets4 := d.nets4 ++ [e] }
  | .static => (d.addStatic e).map fun d => if e.v4Only then d else { d with v6s := d.v6s ++ [e] }
  | .dynamicHost => .ok d

/-- Whether the pool is also a static map. -/
def poolConflict : Option Entry :=
  d.poolEntry.bind fun pool =>
    d.nets4.find? fun o => o ≠ pool ∧ o.kind = .static ∧ o.v4 = pool.v4

end Draft

/-- The state of `Build` while it goes through the IPv6 side. -/
structure Sides where
  seen : List Entry := []
  hosts6 : Dict Addr Entry := ∅
  nets6 : List Entry := []

/-- Any overlap on the IPv6 side is a conflict. -/
def Sides.add (s : Sides) (e : Entry) : Except String Sides :=
  match s.seen.find? fun o => o.v6.overlaps e.v6 with
  | some o => .error s!"{errConflict}: {e} overlaps {o}"
  | none =>
    if e.kind = .static ∧ e.v6.bits = 128 then
      .ok { s with seen := s.seen ++ [e], hosts6 := s.hosts6.put e.v6.addr e }
    else .ok { s with seen := s.seen ++ [e], nets6 := s.nets6 ++ [e] }

/-- `Build`. The new table decides which addresses the pool may hand out. -/
def Builder.build (b : Builder) : Except String Mapper := do
  let entries := b.entries.mergeSort fun e o => e.v4.bits ≥ o.v4.bits
  let d ← entries.foldlM Draft.add {}
  match d.poolConflict with
  | some o => throw s!"{errConflict}: dynamic pool {o.v4} is also a static map"
  | none => pure ()
  let v6s := d.v6s.mergeSort fun e o => e.v6.bits ≥ o.v6.bits
  let s ← v6s.foldlM Sides.add {}
  let table : Table := {
    wkpfStrict := b.wkpfStrict
    pfx := d.pfx
    hosts4 := d.hosts4
    hosts6 := s.hosts6
    nets4 := d.nets4
    nets6 := s.nets6
    poolEntry := d.poolEntry }
  return {
    table
    pool := b.pool.map fun p => p.reserve fun a => table.lookup4 a ≠ table.poolEntry }

end Clatto.Addrmap
