import Clatto.Addrmap.Mapping
import Clatto.Addrmap.PoolThreads

/-! What the lock of a pool protects, and how hosts change from one step to the next. -/

namespace Clatto.Addrmap

open Netip

namespace Pool

/-- A pool without what changes outside the lock: when hosts were last used, and which
addresses are withheld. -/
def still (p : Pool) : Pool :=
  { p with heap := p.heap.map (·.usedAt 0), reserved := fun _ => false }

section Fields

variable (p : Pool)

@[simp] theorem host_still (r : Ref) : p.still.host r = (p.host r).usedAt 0 := rfl

theorem table_still (off : BitVec 32) : p.still.table off = (p.table off).map (·.usedAt 0) := by
  rw [table, table, Registry.view, Registry.view, Option.map_map]
  rfl

end Fields

variable {p q : Pool}

theorem sound_still : p.still.Sound ↔ p.Sound := by
  have vacant (off : BitVec 32) : p.still.table off ≠ none ↔ p.table off ≠ none := by
    rw [table_still]
    simp
  constructor
  · intro sound
    have filed := sound.filed
    refine ⟨sound.size, ⟨filed.live, filed.key, filed.awake, filed.asleep, filed.active, filed.parked,
      filed.apart⟩, fun {off d} held => ?_, fun off => (sound.used off).trans (or_congr_right (vacant off))⟩
    exact sound.placed (d := d.usedAt 0) (by rw [table_still, held]; rfl)
  · intro sound
    have filed := sound.filed
    refine ⟨sound.size, ⟨filed.live, filed.key, filed.awake, filed.asleep, filed.active, filed.parked,
      filed.apart⟩, fun {off d} held => ?_,
      fun off => (sound.used off).trans (or_congr_right (vacant off).symm)⟩
    rw [table_still, Option.map_eq_some_iff] at held
    obtain ⟨e, held, rfl⟩ := held
    exact sound.placed (d := e) held

/-- Two pools under the lock are the same. -/
def Same (p q : Pool) : Prop := p.still = q.still

namespace Same

theorem refl (p : Pool) : p.Same p := rfl

theorem symm (same : p.Same q) : q.Same p := Eq.symm same

theorem trans {s : Pool} (one : p.Same q) (two : q.Same s) : p.Same s := Eq.trans one two

theorem sound (same : p.Same q) : p.Sound ↔ q.Sound := by
  rw [← sound_still, same, sound_still]

theorem eq (same : p.Same q) : p.still = q.still := same

theorem range (same : p.Same q) : p.toRange = q.toRange := (congrArg Pool.toRange same.eq :)

theorem by4 (same : p.Same q) : p.by4 = q.by4 := (congrArg Pool.by4 same.eq :)

theorem mapped (same : p.Same q) : p.mapped = q.mapped := (congrArg Pool.mapped same.eq :)

theorem dormant (same : p.Same q) : p.dormant = q.dormant := (congrArg Pool.dormant same.eq :)

theorem used (same : p.Same q) : p.used = q.used := (congrArg Pool.used same.eq :)

theorem next (same : p.Same q) : p.heap.next = q.heap.next :=
  (congrArg (fun p : Pool => p.heap.next) same.eq :)

theorem host (same : p.Same q) (r : Ref) : (p.host r).usedAt 0 = (q.host r).usedAt 0 :=
  (congrArg (fun p : Pool => p.host r) same.eq :)

theorem report (same : p.Same q) (e : Xlate.Event) : (p.report e).Same (q.report e) :=
  congrArg (fun p : Pool => p.report e) same

theorem v4 (same : p.Same q) (r : Ref) : (p.host r).v4 = (q.host r).v4 :=
  (congrArg DynHost.v4 (same.host r) :)

theorem v6 (same : p.Same q) (r : Ref) : (p.host r).v6 = (q.host r).v6 :=
  (congrArg DynHost.v6 (same.host r) :)

theorem off (same : p.Same q) (r : Ref) : (p.host r).off = (q.host r).off :=
  (congrArg DynHost.off (same.host r) :)

end Same

theorem same_touch (p : Pool) (r : Ref) (now : Int64) : (p.touch r now).Same p := by
  unfold Same still touch
  congr 1
  rw [Heap.modify, Heap.map_set]
  unfold Heap.map Heap.set
  congr 1
  exact Function.update_eq_self r _

theorem same_reserve (p : Pool) (reserved : Addr → Bool) : (p.reserve reserved).Same p := rfl

section Steps

variable (p) (r : Ref) (a : Addr) (now : Int64) (off : BitVec 32)

theorem still_rouse : (p.rouse r).still = p.still.rouse r := by
  unfold still rouse Heap.modify
  rw [Heap.map_set]
  rfl

theorem still_enlist : (p.enlist r now).still = p.still.enlist r 0 := by
  unfold still enlist Heap.modify
  rw [Heap.map_set]
  rfl

theorem still_forsake : (p.forsake r).still = p.still.forsake r := rfl

theorem still_rename : (p.rename r a).still = p.still.rename r a := by
  unfold still rename Heap.modify
  rw [Heap.map_set]
  rfl

theorem still_sleep : (p.sleep a r).still = p.still.sleep a r := by
  simp [still, sleep, event, report, host, Heap.modify, Heap.map_set, Heap.get_set, DynHost.usedAt,
    DynHost.doze]

theorem still_release : (p.release a r).still = p.still.release a r := rfl

theorem still_fresh : (p.fresh a off now).still = p.still.fresh a off 0 := by
  simp [still, fresh, activate, setUsed, addr, host, Heap.modify, Heap.map_set, Heap.map_alloc,
    Heap.get_alloc, DynHost.usedAt, DynHost.wake]

theorem still_event (reason : Xlate.Reason) :
    (p.event reason (p.host r)).still = p.still.event reason (p.still.host r) := rfl

theorem activate_eq : p.activate r now = (p.rouse r).enlist r now := by
  simp [activate, enlist, rouse, host, Heap.modify, Heap.set, Heap.get, DynHost.wake, DynHost.usedAt]

end Steps

/-- What every step does to the hosts, by those who hold the lock and by those who do not:
a host keeps its IPv4 address, it is asleep when it is forgotten and never comes back, and it
wakes up or gets another IPv6 address only while it can be found. -/
structure Evolves (p p' : Pool) : Prop where
  range : p'.toRange = p.toRange
  next : p.heap.next ≤ p'.heap.next
  v4 {r : Ref} : r < p.heap.next → (p'.host r).v4 = (p.host r).v4
  off {r : Ref} : r < p.heap.next → (p'.host r).off = (p.host r).off
  found {r : Ref} {off : BitVec 32} : r < p.heap.next → p'.by4.get off = some r →
    p.by4.get off = some r
  gone {r : Ref} {off : BitVec 32} : p.by4.get off = some r → p'.by4.get off ≠ some r →
    p'.by4.get off = none ∧ (p'.host r).dormant = true
  woken {r : Ref} : r < p.heap.next → (p.host r).dormant = true → (p'.host r).dormant = false →
    p.by4.get (p.host r).off = some r
  renamed {r : Ref} : r < p.heap.next → (p'.host r).v6 ≠ (p.host r).v6 →
    p'.by4.get (p'.host r).off = some r

namespace Evolves

variable {p' : Pool} {r : Ref} {a : Addr}

theorem rewrite (range : p'.toRange = p.toRange) (by4 : p'.by4 = p.by4) {d : DynHost}
    (heap : p'.heap = p.heap.set r d) (v4 : d.v4 = (p.host r).v4) (off : d.off = (p.host r).off)
    (held : p.by4.get (p.host r).off = some r ∨
      d.v6 = (p.host r).v6 ∧ (d.dormant = false → (p.host r).dormant = false)) : Evolves p p' := by
  have host (s : Ref) : p'.host s = if s = r then d else p.host s := by
    rw [Pool.host, heap, Heap.get_set]
    rfl
  refine ⟨range, ?_, fun {s} _ => ?_, fun {s} _ => ?_, fun _ => ?_, fun held' lost => ?_,
    fun {s} _ asleep awake => ?_, fun {s} _ other => ?_⟩
  · rw [heap]
    exact le_rfl
  · rw [host]
    split
    · rename_i same
      rw [v4, same]
    · rfl
  · rw [host]
    split
    · rename_i same
      rw [off, same]
    · rfl
  · rw [by4]
    exact id
  · rw [by4] at lost
    exact absurd held' lost
  · rw [host] at awake
    split at awake
    · rename_i same
      subst same
      rcases held with held | ⟨-, flag⟩
      · exact held
      · exact absurd ((flag awake).symm.trans asleep) (by decide)
    · exact absurd (awake.symm.trans asleep) (by decide)
  · rw [host] at other ⊢
    split at other
    · rename_i same
      subst same
      rw [if_pos rfl, off, by4]
      rcases held with held | ⟨v6, -⟩
      · exact held
      · exact absurd v6 other
    · exact absurd rfl other

theorem aside (range : p'.toRange = p.toRange) (by4 : p'.by4 = p.by4) (heap : p'.heap = p.heap) :
    Evolves p p' := by
  have host (s : Ref) : p'.host s = p.host s := by rw [Pool.host, Pool.host, heap]
  refine ⟨range, heap ▸ le_rfl, fun _ => by rw [host], fun _ => by rw [host], fun _ => by4 ▸ id,
    fun held lost => absurd held (by4 ▸ lost), fun {s} _ asleep awake => ?_,
    fun {s} _ other => absurd (by rw [host]) other⟩
  rw [host] at awake
  exact absurd (awake.symm.trans asleep) (by decide)

theorem refl (p : Pool) : Evolves p p := aside rfl rfl rfl

theorem report (evolves : Evolves p p') (e : Xlate.Event) : Evolves p (p'.report e) :=
  ⟨evolves.range, evolves.next, evolves.v4, evolves.off, evolves.found, evolves.gone, evolves.woken,
    evolves.renamed⟩

theorem touch (p : Pool) (r : Ref) (now : Int64) : Evolves p (p.touch r now) :=
  rewrite rfl rfl rfl rfl rfl (.inr ⟨rfl, id⟩)

theorem enlist (p : Pool) (r : Ref) (now : Int64) : Evolves p (p.enlist r now) :=
  rewrite rfl rfl rfl rfl rfl (.inr ⟨rfl, id⟩)

theorem rouse (held : p.by4.get (p.host r).off = some r) : Evolves p (p.rouse r) :=
  rewrite rfl rfl rfl rfl rfl (.inl held)

theorem rename (held : p.by4.get (p.host r).off = some r) (a : Addr) :
    Evolves p (p.rename r a) :=
  rewrite rfl rfl rfl rfl rfl (.inl held)

theorem sleep (held : p.by4.get (p.host r).off = some r) (a : Addr) : Evolves p (p.sleep a r) :=
  rewrite rfl rfl rfl rfl rfl (.inl held)

theorem release (held : p.by4.get (p.host r).off = some r) (asleep : (p.host r).dormant = true)
    (a : Addr) : Evolves p (p.release a r) := by
  have by4 (k : BitVec 32) :
      (p.release a r).by4.get k = if k = (p.host r).off then none else p.by4.get k :=
    Dict.get_del ..
  refine ⟨rfl, le_rfl, fun _ => rfl, fun _ => rfl, fun {s k} _ found => ?_,
    fun {s k} here lost => ?_, fun _ asleep awake => absurd (awake.symm.trans asleep) (by decide),
    fun _ other => absurd rfl other⟩
  · rw [by4] at found
    split at found
    · cases found
    · exact found
  · rw [by4] at lost ⊢
    split at lost
    · rename_i same
      subst same
      obtain rfl : r = s := Option.some.inj (held.symm.trans here)
      exact ⟨if_pos rfl, asleep⟩
    · exact absurd here lost

theorem fresh {off : BitVec 32} (vacant : p.by4.get off = none) (a : Addr) (now : Int64) :
    Evolves p (p.fresh a off now) := by
  have host {s : Ref} (old : s < p.heap.next) : (p.fresh a off now).host s = p.host s := by
    have other : s ≠ p.heap.next := Nat.ne_of_lt old
    simp [Pool.fresh, activate, setUsed, Pool.host, Heap.modify, Heap.get_set, Heap.get_alloc, other]
  have by4 (k : BitVec 32) : (p.fresh a off now).by4.get k =
      if k = off then some p.heap.next else p.by4.get k := Dict.get_put ..
  refine ⟨rfl, Nat.le_succ _, fun old => by rw [host old], fun old => by rw [host old],
    fun {s k} old found => ?_, fun {s k} here lost => ?_, fun old asleep awake => ?_,
    fun old other => absurd (by rw [host old]) other⟩
  · rw [by4] at found
    split at found
    · exact absurd (Option.some.inj found) (Nat.ne_of_gt old)
    · exact found
  · rw [by4] at lost
    split at lost
    · rename_i same
      subst same
      cases vacant.symm.trans here
    · exact absurd here lost
  · rw [host old] at awake
    exact absurd (awake.symm.trans asleep) (by decide)

end Evolves

end Pool

namespace Memory

/-- A host that is about to get another address can be found. -/
def Placed (m : Memory) : Prop :=
  ∀ h, m.handover = some h → m.pool.by4.get (m.pool.host h.ref).off = some h.ref

/-- What every step does to a pool in memory. -/
structure Evolves (m m' : Memory) : Prop where
  pool : m.pool.Evolves m'.pool
  placed : m.Placed → m'.Placed

namespace Evolves

variable {m : Memory} {p : Pool}

theorem refl (m : Memory) : Evolves m m := ⟨.refl _, id⟩

theorem same (evolves : m.pool.Evolves p) (same : p.Same m.pool) : Evolves m { m with pool := p } where
  pool := evolves
  placed placed h here := by
    show p.by4.get (p.host h.ref).off = some h.ref
    rw [same.by4, same.off]
    exact placed h here

theorem idle (evolves : m.pool.Evolves p) (none : m.handover = none) :
    Evolves m { m with pool := p } :=
  ⟨evolves, fun _ _ here => by cases none.symm.trans here⟩

end Evolves

/-- The words in memory are those of the address that a host has and of the one that it is about to
have. -/
theorem v6Words_of {m : Memory} {r : Ref} {P : Addr → Prop} (now : P (m.pool.host r).v6)
    (next : ∀ h, m.handover = some h → h.ref = r → P h.heir) :
    (∃ b, P b ∧ (m.v6Words r).hi = b.words.hi) ∧ (∃ b, P b ∧ (m.v6Words r).lo = b.words.lo) ∧
      ∃ b, P b ∧ (m.v6Words r).z = b.words.z := by
  unfold v6Words
  dsimp only
  split
  · rename_i h here
    split
    · rename_i same
      refine ⟨⟨_, next h here same, rfl⟩, ?_, _, now, rfl⟩
      cases h.lo with
      | true => exact ⟨_, next h here same, rfl⟩
      | false => exact ⟨_, now, rfl⟩
    · exact ⟨⟨_, now, rfl⟩, ⟨_, now, rfl⟩, _, now, rfl⟩
  · exact ⟨⟨_, now, rfl⟩, ⟨_, now, rfl⟩, _, now, rfl⟩

end Memory

end Clatto.Addrmap
