import Clatto.Addrmap.PoolSteps

/-! Calls that visit the hosts of a pool: the answer to an IPv4 address, and the
passes that expire idle assignments. -/

namespace Clatto.Addrmap

open Netip

namespace DynHost

/-- Whether a host has not been used for longer than a lease. -/
def idle (d : DynHost) (lease now : Int64) : Bool := d.lastUse + lease < now

/-- What the first pass of `Maintain` makes of a host. -/
def rested (d : DynHost) (lease now : Int64) : DynHost :=
  if d.dormant = false ∧ d.idle lease now then d.doze else d

def aged (minLease maxLease now : Int64) (d : DynHost) : Option DynHost :=
  let d := d.rested minLease now
  if d.dormant = true ∧ d.idle maxLease now then none else some d

end DynHost

namespace Pool

variable {p : Pool}

/-- What `lookup4` does for the address at an offset, with its answer. -/
inductive Replied (p : Pool) (off : BitVec 32) (now : Int64) : Option Addr → Pool → Prop
  | silent (asleep : ∀ d, p.table off = some d → d.dormant = true) : Replied p off now none p
  | answer {d : DynHost} {p' : Pool} (held : p.table off = some d) (awake : d.dormant = false)
      (writes : p.Writes off (some (d.usedAt now)) p.dirty p') :
      Replied p off now (some d.v6) p'

theorem lookup4_replied (sound : p.Sound) {a : Addr} {a4 : Bytes} (four : a.as4 = .ok a4)
    (m : Moment) : ∃ answer, (p.lookup4 a m).1 = .ok answer ∧
      Replied p (p.offset a4) m.now.unix answer (p.lookup4 a m).2 := by
  rw [lookup4, four]
  dsimp only
  cases here : p.by4.get (p.offset a4) with
  | none =>
    refine ⟨none, rfl, .silent fun d held => ?_⟩
    obtain ⟨r, found, -⟩ := Registry.view_eq_some.mp held
    cases here.symm.trans found
  | some r =>
    have held : p.table (p.offset a4) = some (p.host r) :=
      Registry.view_eq_some.mpr ⟨r, here, rfl⟩
    dsimp only
    split
    · rename_i asleep
      refine ⟨none, rfl, .silent fun d held' => ?_⟩
      cases held.symm.trans held'
      exact asleep
    · rename_i awake
      exact ⟨_, rfl, .answer held (Bool.eq_false_iff.mpr awake) (sound.touch _ here)⟩

/-- The result of visiting the hosts of one map: those with the given addresses that
are idle are replaced. -/
structure Visited (p : Pool) (keys : List Addr) (lease now : Int64)
    (replace : DynHost → Option DynHost) (marks : Bool) (p' : Pool) : Prop where
  sound : p'.Sound
  keeps : p.Keeps p'
  table (off : BitVec 32) : p'.table off = (p.table off).bind fun d =>
    if d.v6 ∈ keys ∧ d.idle lease now then replace d else some d
  dirty : p'.dirty = true ↔ p.dirty = true ∨
    (marks = true ∧ ∃ off d, p.table off = some d ∧ d.v6 ∈ keys ∧ d.idle lease now = true)

section Visit

variable {which : Pool → HostMap} {act : Pool → Addr → Ref → Pool}
  {replace : DynHost → Option DynHost} {marks : Bool} {lease now : Int64}

theorem Visited.nil (sound : p.Sound) : Visited p [] lease now replace marks p where
  sound := sound
  keeps := .refl p
  table off := by simp
  dirty := by simp

theorem Visited.skip {a : Addr} {keys : List Addr} {p' : Pool} {d : DynHost} {off : BitVec 32}
    (sound : p.Sound) (held : p.table off = some d) (own : d.v6 = a)
    (busy : d.idle lease now = false) (rest : Visited p keys lease now replace marks p') :
    Visited p (a :: keys) lease now replace marks p' := by
  have other {l : BitVec 32} {e : DynHost} (held' : p.table l = some e)
      (idle : e.idle lease now = true) : e.v6 ∈ a :: keys ↔ e.v6 ∈ keys := by
    have different : e.v6 ≠ a := by
      intro same
      obtain rfl := sound.filed.name_unique held' held (same.trans own.symm)
      cases held.symm.trans held'
      cases busy.symm.trans idle
    simp [different]
  refine ⟨rest.sound, rest.keeps, fun l => ?_, ?_⟩
  · rw [rest.table]
    cases held' : p.table l with
    | none => rfl
    | some e =>
      by_cases idle : e.idle lease now = true
      · simp only [Option.bind_some, idle, other held' idle]
      · simp [idle]
  · rw [rest.dirty]
    refine or_congr_right (and_congr_right fun _ => exists_congr fun l => exists_congr fun e => ?_)
    refine and_congr_right fun held' => ?_
    constructor
    · exact fun both => ⟨(other held' both.2).mpr both.1, both.2⟩
    · exact fun both => ⟨(other held' both.2).mp both.1, both.2⟩

theorem Visited.cons {a : Addr} {keys : List Addr} {p₁ p' : Pool} {d : DynHost} {off : BitVec 32}
    (sound : p.Sound) (same : ∀ d e, replace d = some e → e.v6 = d.v6) (fresh : a ∉ keys)
    (held : p.table off = some d) (own : d.v6 = a) (idle : d.idle lease now = true)
    (writes : p.Writes off (replace d) (marks || p.dirty) p₁)
    (rest : Visited p₁ keys lease now replace marks p') :
    Visited p (a :: keys) lease now replace marks p' := by
  have other {l : BitVec 32} {e : DynHost} (different : l ≠ off) (held' : p.table l = some e) :
      e.v6 ∈ a :: keys ↔ e.v6 ∈ keys := by
    have : e.v6 ≠ a := fun eq =>
      different (sound.filed.name_unique held' held (eq.trans own.symm))
    simp [this]
  refine ⟨rest.sound, writes.keeps.trans rest.keeps, fun l => ?_, ?_⟩
  · rw [rest.table, writes.table]
    by_cases here : l = off
    · subst here
      rw [Function.update_self, held]
      simp only [Option.bind_some, own, List.mem_cons_self, idle, and_self, if_true]
      cases replaced : replace d with
      | none => rfl
      | some e =>
        have absent : e.v6 ∉ keys := by rwa [same _ _ replaced, own]
        simp [absent]
    · rw [Function.update_of_ne here]
      cases held' : p.table l with
      | none => rfl
      | some e => simp only [Option.bind_some, other here held']
  · rw [rest.dirty, writes.dirty, writes.table]
    cases marks with
    | false => simp
    | true =>
      simp only [Bool.true_or, true_or, true_and, true_iff]
      exact .inr ⟨off, d, held, by simp [own], idle⟩

theorem visit (lease : Duration) (acts : ∀ (p : Pool) a r, p.Sound → (which p).get a = some r →
      p.Writes (p.host r).off (replace (p.host r)) (marks || p.dirty) (act p a r))
    (others : ∀ p a r b, b ≠ a → (which (act p a r)).get b = (which p).get b)
    (found : ∀ (p : Pool) a r, p.Sound → (which p).get a = some r →
      p.table (p.host r).off = some (p.host r) ∧ (p.host r).v6 = a)
    (same : ∀ d e, replace d = some e → e.v6 = d.v6)
    (l : List (Sigma fun _ : Addr => Ref)) (p : Pool) (sound : p.Sound)
    (distinct : (l.map Sigma.fst).Nodup) (here : ∀ d ∈ l, (which p).get d.1 = some d.2) :
    Visited p (l.map Sigma.fst) lease.seconds now replace marks
      (l.foldl (fun p d => if p.idle lease now d.2 then act p d.1 d.2 else p) p) := by
  induction l generalizing p with
  | nil => exact .nil sound
  | cons d l ih =>
    obtain ⟨first, later⟩ := List.nodup_cons.mp (List.map_cons ▸ distinct)
    obtain ⟨head, tail⟩ := List.forall_mem_cons.mp here
    obtain ⟨held, own⟩ := found p d.1 d.2 sound head
    rw [List.foldl_cons, List.map_cons]
    by_cases idle : p.idle lease now d.2 = true
    · rw [if_pos idle]
      have writes := acts p d.1 d.2 sound head
      refine .cons sound same first held own idle writes (ih _ writes.sound later fun e member => ?_)
      have different : e.1 ≠ d.1 := fun eq => first (eq ▸ List.mem_map_of_mem member)
      rw [others p d.1 d.2 e.1 different]
      exact tail e member
    · rw [if_neg idle]
      exact .skip sound held own (Bool.eq_false_iff.mpr idle) (ih p sound later tail)

end Visit

section Maintain

variable (m : Moment)

theorem distinct_keys (order : Order) (hosts : HostMap) :
    ((order.list hosts).map Sigma.fst).Nodup :=
  ((order.perm hosts).map Sigma.fst).nodup_iff.mpr hosts.nodupKeys

/-- The first pass of `Maintain`: mapped hosts that are idle go dormant. -/
theorem sleep_pass (sound : p.Sound) (lease : Duration) :
    Visited p ((m.order.list p.mapped).map Sigma.fst) lease.seconds m.now.unix
      (fun d => some d.doze) false
      ((m.order.list p.mapped).foldl
        (fun p d => if p.idle lease m.now.unix d.2 then p.sleep d.1 d.2 else p) p) := by
  refine @visit Pool.mapped _ _ _ _ lease (fun p a r sound found => ?_) (fun p a r b other => ?_)
    (fun p a r sound found => ?_) (fun d e same => ?_) _ p sound (distinct_keys ..)
    (fun d member => (mem_order m.order p.mapped).mp member)
  · exact sound.sleep found
  · exact (Dict.get_del ..).trans (if_neg other)
  · obtain ⟨-, held, own, -⟩ := sound.mapped found
    exact ⟨held, own⟩
  · cases same
    rfl

theorem release_pass (sound : p.Sound) (lease : Duration) :
    Visited p ((m.order.list p.dormant).map Sigma.fst) lease.seconds m.now.unix
      (fun _ => none) true
      ((m.order.list p.dormant).foldl
        (fun p d => if p.idle lease m.now.unix d.2 then p.release d.1 d.2 else p) p) := by
  refine @visit Pool.dormant _ _ _ _ lease (fun p a r sound found => ?_) (fun p a r b other => ?_)
    (fun p a r sound found => ?_) (fun d e same => ?_) _ p sound (distinct_keys ..)
    (fun d member => (mem_order m.order p.dormant).mp member)
  · exact sound.release found
  · exact (Dict.get_del ..).trans (if_neg other)
  · obtain ⟨-, held, own, -⟩ := sound.dormant found
    exact ⟨held, own⟩
  · cases same

theorem mem_mapped_keys (sound : p.Sound) (order : Order) {off : BitVec 32} {d : DynHost}
    (held : p.table off = some d) :
    d.v6 ∈ (order.list p.mapped).map Sigma.fst ↔ d.dormant = false := by
  rw [List.mem_map]
  constructor
  · rintro ⟨⟨a, r⟩, member, same⟩
    obtain ⟨-, held', own, awake⟩ := sound.mapped ((mem_order ..).mp member)
    obtain rfl := sound.filed.name_unique held held' (same.symm.trans own.symm)
    cases held.symm.trans held'
    exact awake
  · intro awake
    obtain ⟨r, found, -⟩ := sound.find_mapped held awake
    exact ⟨⟨d.v6, r⟩, (mem_order ..).mpr found, rfl⟩

theorem mem_dormant_keys (sound : p.Sound) (order : Order) {off : BitVec 32} {d : DynHost}
    (held : p.table off = some d) :
    d.v6 ∈ (order.list p.dormant).map Sigma.fst ↔ d.dormant = true := by
  rw [List.mem_map]
  constructor
  · rintro ⟨⟨a, r⟩, member, same⟩
    obtain ⟨-, held', own, asleep⟩ := sound.dormant ((mem_order ..).mp member)
    obtain rfl := sound.filed.name_unique held held' (same.symm.trans own.symm)
    cases held.symm.trans held'
    exact asleep
  · intro asleep
    obtain ⟨r, found, -⟩ := sound.find_dormant held asleep
    exact ⟨⟨d.v6, r⟩, (mem_order ..).mpr found, rfl⟩

/-- What `Maintain` does to the hosts. -/
structure Maintained (p : Pool) (now : Int64) (p' : Pool) : Prop where
  sound : p'.Sound
  keeps : p.Keeps p'
  table (off : BitVec 32) : p'.table off =
    (p.table off).bind (DynHost.aged p.minLease.seconds p.maxLease.seconds now)
  dirty : p'.dirty = true ↔ p.dirty = true ∨
    ∃ off d, p.table off = some d ∧ d.aged p.minLease.seconds p.maxLease.seconds now = none

theorem maintain_maintained (sound : p.Sound) : Maintained p m.now.unix (p.maintain m) := by
  have first := sleep_pass m sound p.minLease
  rw [maintain]
  generalize (m.order.list p.mapped).foldl _ p = q at first ⊢
  have second := release_pass m first.sound p.maxLease
  -- the hosts after the first pass
  have slept {off : BitVec 32} {d : DynHost} (held : p.table off = some d) :
      q.table off = some (d.rested p.minLease.seconds m.now.unix) := by
    simp only [first.table, held, Option.bind_some, mem_mapped_keys sound m.order held,
      DynHost.rested]
    split <;> rfl
  refine ⟨second.sound, first.keeps.trans second.keeps, fun off => ?_, ?_⟩
  · rw [second.table]
    cases held : p.table off with
    | none => simp [first.table, held]
    | some d =>
      simp only [slept held, Option.bind_some,
        mem_dormant_keys first.sound m.order (slept held)]
      rfl
  · rw [second.dirty, first.dirty]
    simp only [Bool.false_eq_true, false_and, or_false, true_and]
    refine or_congr_right ⟨?_, ?_⟩
    · rintro ⟨off, e, held', member, idle⟩
      cases held : p.table off with
      | none => simp [first.table, held] at held'
      | some d =>
        refine ⟨off, d, held, ?_⟩
        rw [mem_dormant_keys first.sound m.order held'] at member
        rw [slept held, Option.some.injEq] at held'
        rw [DynHost.aged, held']
        exact if_pos ⟨member, idle⟩
    · rintro ⟨off, d, held, gone⟩
      rw [DynHost.aged] at gone
      split at gone
      · rename_i both
        exact ⟨off, _, slept held,
          (mem_dormant_keys first.sound m.order (slept held)).mpr both.1, both.2⟩
      · cases gone

end Maintain

end Pool

end Clatto.Addrmap
