import Clatto.Lib.Bitmap
import Clatto.Lib.Clock
import Clatto.Lib.Dict
import Clatto.Lib.Heap
import Clatto.Netip.Text
import Clatto.Netutil.Classify
import Clatto.Xlate.Event

/-! The dynamic pool: IPv4 addresses that are handed out to IPv6 hosts on demand. -/

namespace Clatto.Addrmap

open Netip

/-- `dynHost`, one dynamic assignment. -/
structure DynHost where
  v4 : Addr
  v6 : Addr
  off : BitVec 32
  lastUse : Int64
  dormant : Bool
  deriving DecidableEq, Inhabited

namespace DynHost

variable (d : DynHost)

/-- `d.lastUse.Store`. -/
def usedAt (now : Int64) : DynHost := { d with lastUse := now }

def wake : DynHost := { d with dormant := false }

def doze : DynHost := { d with dormant := true }

def rename (a : Addr) : DynHost := { d with v6 := a }

end DynHost

/-- `map[netip.Addr]*dynHost`. -/
abbrev HostMap := Dict Addr Ref

/-- The order in which a map is ranged over: any order will do. -/
structure Order where
  list : HostMap → List (Sigma fun _ : Addr => Ref)
  perm : ∀ m, (list m).Perm m.entries

/-- What a call of the pool finds around it: the clock, and how maps are ranged over. -/
structure Moment where
  now : Time
  order : Order

/-- A second since 1970, with maps ranged over as they are stored. -/
def Moment.second (unix : Int64) (unix_le : unix.toInt ≤ 2 ^ 63 - 1 - 62135596800 := by decide) :
    Moment where
  now := { unix, nano := 0, nano_lt := by decide, unix_le }
  order := { list := AList.entries, perm := fun _ => .rfl }

/-- The addresses of a pool, which never change: `max` is the host mask. -/
structure Range where
  pfx : Prefix
  base : BitVec 32
  max : BitVec 32
  bits : Nat
  four : pfx.addr = .v4 base
  len : pfx.len = some bits
  bits_ge : 8 ≤ bits
  bits_le : bits ≤ 31
  aligned : pfx = pfx.masked
  max_eq : max = 0xffffffff#32 >>> bits
  unreserved : Netutil.classifyIPv4 (Bytes.ofNat 4 base.toNat) ≠ .invalid

/-- `Pool`. Hosts are shared between the three maps, so they live in a heap; `obs` is
what the observer has been told. -/
structure Pool extends Range where
  minLease : Duration
  maxLease : Duration
  obs : List Xlate.Event
  reserved : Addr → Bool
  used : Bitmap
  heap : Heap DynHost
  by4 : Dict (BitVec 32) Ref
  mapped : HostMap
  dormant : HostMap
  dirty : Bool

def defaultMinLease : Duration := 7440 * 1000000000

def defaultMaxLease : Duration := 14 * 24 * 3600 * 1000000000

/-- A lease that is not positive stands for the default. -/
def orDefault (lease standard : Duration) : Duration := if lease ≤ 0 then standard else lease

/-- The leases of `PoolOptions`. -/
structure PoolOptions where
  minLease : Duration := 0
  maxLease : Duration := 0

/-- The addresses of a new pool, or what is wrong with the prefix. -/
def newRange (pfx : Prefix) : Except String Range :=
  match four : pfx.addr with
  | .v4 base =>
    if aligned : pfx = pfx.masked then
      match len : pfx.len with
      | some bits =>
        if size : 8 ≤ bits ∧ bits ≤ 31 then
          if unreserved : Netutil.classifyIPv4 (Bytes.ofNat 4 base.toNat) ≠ .invalid then
            .ok {
              pfx, base, max := 0xffffffff#32 >>> bits, bits, four, len
              bits_ge := size.1, bits_le := size.2, aligned, max_eq := rfl, unreserved }
          else .error s!"dynamic pool {pfx}: reserved address"
        else .error s!"dynamic pool {pfx}: prefix length must be between 8 and 31"
      | none => .error s!"dynamic pool {pfx}: prefix length must be between 8 and 31"
    else .error s!"dynamic pool {pfx} has host bits set"
  | _ => .error s!"dynamic pool {pfx}: not an IPv4 prefix"

/-- `NewPool`. The network address is never handed out. -/
def newPool (pfx : Prefix) (o : PoolOptions) : Except String Pool :=
  (newRange pfx).map fun range => {
    range with
    minLease := orDefault o.minLease defaultMinLease
    maxLease := orDefault o.maxLease defaultMaxLease
    obs := []
    reserved := fun _ => false
    used := Bitmap.set (List.replicate ((range.max.toNat + 64) / 64) 0) 0
    heap := .empty
    by4 := ∅
    mapped := ∅
    dormant := ∅
    dirty := false }

namespace Pool

variable (p : Pool)

def setLeases (minLease maxLease : Duration) : Pool :=
  { p with
    minLease := orDefault minLease defaultMinLease
    maxLease := orDefault maxLease defaultMaxLease }

/-- The addresses that must not be handed out are chosen anew. -/
def reserve (reserved : Addr → Bool) : Pool := { p with reserved }

def addr (off : BitVec 32) : Addr := .v4 (p.base ||| off)

def isUsed (off : BitVec 32) : Bool := p.used.test off.toNat

def setUsed (off : BitVec 32) : Pool := { p with used := p.used.set off.toNat }

def clearUsed (off : BitVec 32) : Pool := { p with used := p.used.clear off.toNat }

def host (r : Ref) : DynHost := p.heap.get r

def touch (r : Ref) (now : Int64) : Pool :=
  { p with heap := p.heap.modify r (·.usedAt now) }

def report (e : Xlate.Event) : Pool := { p with obs := p.obs ++ [e] }

def event (reason : Xlate.Reason) (d : DynHost) : Pool :=
  p.report { kind := .dynamic, reason, src := d.v4, dst := d.v6 }

/-- The offset of an IPv4 address in the pool. -/
def offset (a4 : Bytes) : BitVec 32 := BitVec.ofNat 32 (Bytes.toNat a4) &&& p.max

/-- `lookup4`. -/
def lookup4 (a : Addr) (m : Moment) : Checked (Option Addr) × Pool :=
  match a.as4 with
  | .error fault => (.error fault, p)
  | .ok a4 =>
    match p.by4.get (p.offset a4) with
    | none => (.ok none, p)
    | some r =>
      if (p.host r).dormant then (.ok none, p)
      else (.ok (some (p.host r).v6), p.touch r m.now.unix)

/-- `activate`: move a host to the mapped set. -/
def activate (r : Ref) (now : Int64) : Pool :=
  { p with
    dormant := p.dormant.del (p.host r).v6
    heap := p.heap.modify r (·.wake.usedAt now)
    mapped := p.mapped.put (p.host r).v6 r }

/-- Fold a hash into the host part; every round makes it smaller. -/
def foldHash (max : BitVec 32) (shift : Nat) : (fuel : Nat) → BitVec 32 → BitVec 32
  | 0, h => h
  | fuel + 1, h =>
    if h &&& ~~~ max ≠ 0 then foldHash max shift fuel ((h &&& max) + (h >>> shift)) else h

/-- The offset at which the search for a free address starts. -/
def hash (a : Addr) : BitVec 32 :=
  [0, 4, 8, 12].foldl (fun h i =>
    let sum := h + BitVec.ofNat 32 (Bytes.be32 a.as16 i)
    foldHash p.max (32 - p.bits) sum.toNat sum) 0

def isFree (off : BitVec 32) : Bool := off ≠ 0 && !p.isUsed off && !p.reserved (p.addr off)

/-- The first free offset from `h` on. -/
def findFree (h : BitVec 32) : Option (BitVec 32) :=
  ((List.range (p.max.toNat + 1)).map fun i => (h + BitVec.ofNat 32 i) &&& p.max).find? p.isFree

/-- The least recently used dormant host. -/
def oldest (order : Order) : Option Ref :=
  (order.list p.dormant).foldl (fun oldest d =>
    match oldest with
    | none => some d.2
    | some o => if (p.host d.2).lastUse < (p.host o).lastUse then some d.2 else some o) none

def fresh (a : Addr) (off : BitVec 32) (now : Int64) : Pool :=
  let d : DynHost := { v4 := p.addr off, v6 := a, off, lastUse := 0, dormant := false }
  let r := p.heap.next
  let p := { p.setUsed off with heap := p.heap.alloc d, by4 := p.by4.put off r }
  { p.activate r now with dirty := true }

/-- Hand the address of a dormant host to another one. -/
def steal (r : Ref) (a : Addr) (now : Int64) : Pool :=
  let p := { p with
    dormant := p.dormant.del (p.host r).v6
    heap := p.heap.modify r (·.rename a) }
  { p.activate r now with dirty := true }

/-- `assign`. -/
def assign (a : Addr) (m : Moment) : Option Addr × Pool :=
  match p.mapped.get a with
  | some r => (some (p.host r).v4, p.touch r m.now.unix)
  | none =>
    match p.dormant.get a with
    | some r =>
      let p := p.activate r m.now.unix
      (some (p.host r).v4, p.event .dynamicReactivated (p.host r))
    | none =>
      match p.findFree (p.hash a) with
      | some off =>
        let r := p.heap.next
        let p := p.fresh a off m.now.unix
        (some (p.addr off), p.event .dynamicAssigned (p.host r))
      | none =>
        match p.oldest m.order with
        | none =>
          (none, p.report { kind := .dynamic, reason := .dynamicExhausted, dst := a })
        | some r =>
          let p := p.steal r a m.now.unix
          (some (p.host r).v4, p.event .dynamicReassigned (p.host r))

/-- `lookup6`. -/
def lookup6 (a : Addr) (allocate : Bool) (m : Moment) : Option Addr × Pool :=
  match p.mapped.get a with
  | some r => (some (p.host r).v4, p.touch r m.now.unix)
  | none => if allocate then p.assign a m else (none, p)

def sleep (v6 : Addr) (r : Ref) : Pool :=
  let p := { p with
    mapped := p.mapped.del v6
    heap := p.heap.modify r (·.doze)
    dormant := p.dormant.put v6 r }
  p.event .dynamicDormant (p.host r)

def release (v6 : Addr) (r : Ref) : Pool :=
  let p := { p with dormant := p.dormant.del v6, by4 := p.by4.del (p.host r).off }
  let p := { p.clearUsed (p.host r).off with dirty := true }
  p.event .dynamicReleased (p.host r)

/-- Whether a host has not been used for longer than a lease. -/
def idle (lease : Duration) (now : Int64) (r : Ref) : Bool :=
  (p.host r).lastUse + lease.seconds < now

/-- `Maintain`. -/
def maintain (m : Moment) : Pool :=
  let minLease := p.minLease
  let maxLease := p.maxLease
  let p := (m.order.list p.mapped).foldl
    (fun p d => if p.idle minLease m.now.unix d.2 then p.sleep d.1 d.2 else p) p
  (m.order.list p.dormant).foldl
    (fun p d => if p.idle maxLease m.now.unix d.2 then p.release d.1 d.2 else p) p

end Pool

end Clatto.Addrmap
