import Clatto.Addrmap.PoolFile
import Clatto.Lib.RWMutex
import Clatto.Netip.Prefix

/-! The pool as it is used by several goroutines at once: each call as the steps that others
can come between. What is only touched under the lock needs no step of its own, so that each
step has one access at most to what is shared without it: the last use of a host, its flag and
its IPv6 address, which `lookup4` reads without the lock, the leases and `reserved`. An
address is stored and read word by word, so that a reader can see half of a change. -/

namespace Clatto

namespace Netip.Addr

/-- The last word of an address, which tells the families and the zones apart. -/
inductive Handle where
  | z0
  | z4
  | z6 (zone : String)
  deriving DecidableEq

/-- The three words of an address in memory. -/
structure Words where
  hi : BitVec 64
  lo : BitVec 64
  z : Handle
  deriving DecidableEq

def words : Addr → Words
  | .zero => ⟨0, 0, .z0⟩
  | .v4 bits => ⟨0, 0xffff00000000#64 ||| bits.setWidth 64, .z4⟩
  | .v6 bits zone => ⟨bits.extractLsb' 64 64, bits.setWidth 64, .z6 zone⟩

def zone : Addr → String
  | .v6 _ zone => zone
  | _ => ""

/-- `Addr.Less`. -/
def less (a b : Addr) : Bool :=
  a.bitLen < b.bitLen ||
    (a.bitLen = b.bitLen && (a.value < b.value || (a.value = b.value && a.zone < b.zone)))

end Netip.Addr

namespace Addrmap

open Netip Guarded

/-- `Assignment`, with the last use in seconds. -/
structure Assignment where
  ipv4 : Addr
  ipv6 : Addr
  lastUse : Int64
  dormant : Bool
  deriving DecidableEq

/-- `Stats`. -/
structure Stats where
  size : Nat
  mapped : Nat
  dormant : Nat
  deriving DecidableEq

namespace Pool

variable (p : Pool)

/-- The flag of a host says that it is awake. -/
def rouse (r : Ref) : Pool :=
  { p with dormant := p.dormant.del (p.host r).v6, heap := p.heap.modify r (·.wake) }

def enlist (r : Ref) (now : Int64) : Pool :=
  { p with heap := p.heap.modify r (·.usedAt now), mapped := p.mapped.put (p.host r).v6 r }

def forsake (r : Ref) : Pool := { p with dormant := p.dormant.del (p.host r).v6 }

def rename (r : Ref) (a : Addr) : Pool := { p with heap := p.heap.modify r (·.rename a) }

/-- A dormant host gets another IPv6 address. -/
def handOver (r : Ref) (a : Addr) : Pool := (p.forsake r).rename r a

end Pool

/-- The address that a host is about to have: its first word has been stored, and perhaps the
second one. -/
structure Handover where
  ref : Ref
  heir : Addr
  lo : Bool

/-- A pool in memory, where a host may have a part of an address only. -/
structure Memory where
  pool : Pool
  handover : Option Handover

namespace Memory

variable (m : Memory)

/-- The words of the address of a host as they stand in memory. -/
def v6Words (r : Ref) : Addr.Words :=
  let old := (m.pool.host r).v6.words
  match m.handover with
  | some h =>
    if h.ref = r then ⟨h.heir.words.hi, if h.lo then h.heir.words.lo else old.lo, old.z⟩ else old
  | none => old

def storeHi (r : Ref) (a : Addr) : Memory := ⟨m.pool.forsake r, some ⟨r, a, false⟩⟩

def storeLo (r : Ref) (a : Addr) : Memory := ⟨m.pool, some ⟨r, a, true⟩⟩

def storeZ (r : Ref) (a : Addr) : Memory := ⟨m.pool.rename r a, none⟩

end Memory

namespace Concurrent

abbrev Proc (τ α : Type) := Prog Moment (Guarded τ Memory) α

section Calls

variable {τ α : Type}

def access (f : Moment → Pool → α × Pool) : Proc τ α :=
  Guarded.access fun o m => ((f o m.pool).1, { m with pool := (f o m.pool).2 })

def read (f : Pool → α) : Proc τ α := access fun _ p => (f p, p)

def write (f : Pool → Pool) : Proc τ Unit := access fun _ p => ((), f p)

variable [DecidableEq τ] (t : τ)

/-- `p.now().Unix()`. -/
def clock : Proc τ Int64 := .ask fun m => m.now.unix

def copyV6 (r : Ref) : Proc τ Addr.Words := do
  let hi ← Guarded.read fun m => (m.v6Words r).hi
  let lo ← Guarded.read fun m => (m.v6Words r).lo
  let z ← Guarded.read fun m => (m.v6Words r).z
  return ⟨hi, lo, z⟩

/-- `lookup4`. -/
def lookup4 (a : Addr) : Proc τ (Checked (Option Addr.Words)) :=
  match a.as4 with
  | .error fault => pure (.error fault)
  | .ok a4 => do
    rLock t
    let d ← read fun p => p.by4.get (p.offset a4)
    rUnlock t
    match d with
    | none => return .ok none
    | some r =>
      let dormant ← read fun p => (p.host r).dormant
      if dormant then return .ok none
      else
        let now ← clock
        write fun p => p.touch r now
        let v6 ← copyV6 r
        return .ok (some v6)

/-- The field is never written after the host has been made. -/
def v4Of (r : Ref) : Proc τ (Option Addr) := read fun p => some (p.host r).v4

/-- `activate`. -/
def activate (r : Ref) (now : Int64) : Proc τ Unit := do
  write fun p => p.rouse r
  write fun p => p.enlist r now

/-- `delete(p.dormant, oldest.v6)` and `oldest.v6 = a`. -/
def handOver (r : Ref) (a : Addr) : Proc τ Unit := do
  Guarded.write fun m => m.storeHi r a
  Guarded.write fun m => m.storeLo r a
  Guarded.write fun m => m.storeZ r a

/-- The loop over the offsets from the hash on. -/
def findFree : List (BitVec 32) → Proc τ (Option (BitVec 32))
  | [] => return none
  | off :: offs => do
    let free ← read fun p => p.isFree off
    if free then return some off
    else findFree offs

def oldest : List (Sigma fun _ : Addr => Ref) → Option Ref → Proc τ (Option Ref)
  | [], best => return best
  | d :: ds, none => oldest ds (some d.2)
  | d :: ds, some best => do
    let one ← read fun p => (p.host d.2).lastUse
    let other ← read fun p => (p.host best).lastUse
    oldest ds (if one < other then some d.2 else some best)

def event (reason : Xlate.Reason) (r : Ref) : Proc τ Unit :=
  write fun p => p.event reason (p.host r)

/-- What `assign` does for a host that it does not know. -/
def assignUnknown (a : Addr) (now : Int64) (offs : List (BitVec 32)) : Proc τ (Option Addr) := do
  let free ← findFree offs
  match free with
  | some off =>
    -- nobody else can reach the new host before the lock is given back
    write fun p =>
      (p.fresh a off now).event .dynamicAssigned ((p.fresh a off now).host p.heap.next)
    read fun p => some (p.addr off)
  | none =>
    let hosts ← access fun m p => (m.order.list p.dormant, p)
    let choice ← oldest hosts none
    match choice with
    | none =>
      write fun p => p.report { kind := .dynamic, reason := .dynamicExhausted, dst := a }
      return none
    | some r =>
      handOver r a
      activate r now
      write fun p => { p with dirty := true }
      event .dynamicReassigned r
      v4Of r

/-- What `assign` does between `Lock` and the deferred `Unlock`. -/
def assignLocked (a : Addr) (now : Int64) : Proc τ (Option Addr) := do
  let mapped ← read fun p => p.mapped.get a
  match mapped with
  | some r =>
    write fun p => p.touch r now
    v4Of r
  | none =>
    let dormant ← read fun p => p.dormant.get a
    match dormant with
    | some r =>
      activate r now
      event .dynamicReactivated r
      v4Of r
    | none =>
      let offs ← read fun p =>
        (List.range (p.max.toNat + 1)).map fun i => (p.hash a + BitVec.ofNat 32 i) &&& p.max
      assignUnknown a now offs

/-- `assign`. -/
def assign (a : Addr) : Proc τ (Option Addr) := do
  let now ← clock
  lock t
  let answer ← assignLocked a now
  unlock
  return answer

/-- `lookup6`. -/
def lookup6 (a : Addr) (allocate : Bool) : Proc τ (Option Addr) := do
  rLock t
  let d ← read fun p => p.mapped.get a
  rUnlock t
  match d with
  | some r =>
    let now ← clock
    write fun p => p.touch r now
    v4Of r
  | none => if allocate then assign t a else return none

/-- A loop of `Maintain` over the entries of a map. -/
def expire (lease : Duration) (now : Int64) (drop : Pool → Addr → Ref → Pool) :
    List (Sigma fun _ : Addr => Ref) → Proc τ Unit
  | [] => return ()
  | d :: ds => do
    let idle ← read fun p => p.idle lease now d.2
    if idle then
      write fun p => drop p d.1 d.2
      expire lease now drop ds
    else expire lease now drop ds

/-- `Maintain`. -/
def maintain : Proc τ Unit := do
  let now ← clock
  let minLease ← read fun p => p.minLease
  let maxLease ← read fun p => p.maxLease
  lock t
  let mapped ← access fun m p => (m.order.list p.mapped, p)
  expire minLease now Pool.sleep mapped
  let dormant ← access fun m p => (m.order.list p.dormant, p)
  expire maxLease now Pool.release dormant
  unlock

/-- `SetLeases`. -/
def setLeases (minLease maxLease : Duration) : Proc τ Unit := do
  lock t
  write fun p => { p with minLease := orDefault minLease defaultMinLease }
  write fun p => { p with maxLease := orDefault maxLease defaultMaxLease }
  unlock

/-- The hosts that some entries lead to, one after the other. -/
def collect : List (Sigma fun _ : Addr => Ref) → Proc τ (List DynHost)
  | [] => return []
  | d :: ds => do
    let host ← read fun p => p.host d.2
    let hosts ← collect ds
    return host :: hosts

/-- The display of a host in one of the two maps. -/
def shown (dormant : Bool) (d : DynHost) : Assignment :=
  { ipv4 := d.v4, ipv6 := d.v6, lastUse := d.lastUse, dormant }

/-- `Assignments`. -/
def assignments : Proc τ (List Assignment) := do
  rLock t
  let mapped ← access fun m p => (m.order.list p.mapped, p)
  let awake ← collect mapped
  let dormant ← access fun m p => (m.order.list p.dormant, p)
  let asleep ← collect dormant
  rUnlock t
  return (awake.map (shown false) ++ asleep.map (shown true)).mergeSort
    fun i j => !(j.ipv4.less i.ipv4)

/-- `Stats`. -/
def stats : Proc τ Stats := do
  rLock t
  let stats ← read fun p =>
    { size := p.max.toNat, mapped := p.mapped.entries.length, dormant := p.dormant.entries.length }
  rUnlock t
  return stats

/-- `Dirty`. -/
def dirty : Proc τ Bool := do
  rLock t
  let dirty ← read fun p => p.dirty
  rUnlock t
  return dirty

/-- What `Save` does under the lock: the hosts go to a file by increasing offset, and when they
have all been written the pool is clean. -/
def save (failed : Bool) : Proc τ (List DynHost) := do
  lock t
  let entries ← access fun m p =>
    ((m.order.list p.mapped ++ m.order.list p.dormant).mergeSort fun d e =>
      (p.host d.2).off ≤ (p.host e.2).off, p)
  let hosts ← collect entries
  write fun p => if failed then p else { p with dirty := false }
  unlock
  return hosts

def reserve (reserved : Addr → Bool) : Proc τ Unit := write fun p => p.reserve reserved

end Calls

/-- The calls that can be made of a pool that is in use. -/
inductive Call where
  | lookup4 (a : Addr)
  | lookup6 (a : Addr) (allocate : Bool)
  | maintain
  | setLeases (minLease maxLease : Duration)
  | assignments
  | stats
  | dirty
  | save (failed : Bool)
  | reserve (reserved : Addr → Bool)

inductive Answer where
  | words (answer : Checked (Option Addr.Words))
  | address (answer : Option Addr)
  | list (assignments : List Assignment)
  | stats (stats : Stats)
  | dirty (dirty : Bool)
  | saved (hosts : List DynHost)
  | none
  deriving DecidableEq

def Call.proc {τ : Type} [DecidableEq τ] (t : τ) : Call → Proc τ Answer
  | lookup4 a => do return .words (← Concurrent.lookup4 t a)
  | lookup6 a allocate => do return .address (← Concurrent.lookup6 t a allocate)
  | maintain => do
    Concurrent.maintain t
    return .none
  | setLeases minLease maxLease => do
    Concurrent.setLeases t minLease maxLease
    return .none
  | assignments => do return .list (← Concurrent.assignments t)
  | stats => do return .stats (← Concurrent.stats t)
  | dirty => do return .dirty (← Concurrent.dirty t)
  | save failed => do return .saved (← Concurrent.save t failed)
  | reserve reserved => do
    Concurrent.reserve reserved
    return .none

/-- A pool and any number of calls, none of which has begun. -/
def start {τ : Type} [DecidableEq τ] (p : Pool) (calls : τ → Call) :
    Ensemble τ Moment (Guarded τ Memory) Answer :=
  .start (.free ⟨p, none⟩) fun t => (calls t).proc t

end Concurrent

end Addrmap

end Clatto
