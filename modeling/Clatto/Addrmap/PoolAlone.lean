import Clatto.Addrmap.PoolStill

/-! A call of a pool that nobody interrupts does in its steps what the call does as a whole. -/

namespace Clatto

namespace Addrmap

open Netip Guarded

namespace Concurrent

variable {τ α β : Type} {t : τ} (m : Moment) {p : Pool}

/-- A pool whose lock at most a writer holds. -/
def held (w : Option τ) (p : Pool) : Guarded τ Memory := ⟨⟨p, none⟩, w, none, [], []⟩

@[simp] theorem alone_pure (value : α) (s : Guarded τ Memory) :
    (pure value : Proc τ α).alone m s = some (value, s) := rfl

@[simp] theorem alone_clock (s : Guarded τ Memory) :
    (clock : Proc τ _).alone m s = some (m.now.unix, s) := rfl

@[simp] theorem alone_access (f : Moment → Pool → α × Pool) (w : Option τ) (p : Pool) :
    (access f).alone m (held w p) = some ((f m p).1, held w (f m p).2) := rfl

@[simp] theorem alone_read (f : Pool → α) (w : Option τ) (p : Pool) :
    (read f).alone m (held w p) = some (f p, held w p) := rfl

@[simp] theorem alone_write (f : Pool → Pool) (w : Option τ) (p : Pool) :
    (write f).alone m (held w p) = some ((), held w (f p)) := rfl

@[simp] theorem alone_lock (t : τ) (p : Pool) :
    (lock t : Proc τ _).alone m (held none p) = some ((), held (some t) p) := rfl

@[simp] theorem alone_unlock (w : Option τ) (p : Pool) :
    (unlock : Proc τ _).alone m (held w p) = some ((), held none p) := rfl

theorem alone_locked_read [DecidableEq τ] (f : Pool → α) (k : α → Proc τ β) (p : Pool) :
    (do
      rLock t
      let d ← read f
      rUnlock t
      k d).alone m (held none p) = (k (f p)).alone m (held none p) := by
  have enters : (rLock t : Proc τ _).alone m (held none p) =
      some ((), ⟨⟨p, none⟩, none, none, [t], []⟩) := by
    rw [rLock, Prog.alone_bind]
    simp [Prog.store, Prog.step, Prog.await, Prog.alone, enter, held]
  have leaves : (rUnlock t : Proc τ _).alone m ⟨⟨p, none⟩, none, none, [t], []⟩ =
      some ((), held none p) := by
    simp [rUnlock, Prog.store, Prog.step, Prog.alone, held]
  rw [Prog.alone_bind, enters, Option.bind_some]
  change ((rUnlock t >>= fun _ => k (f p)) : Proc τ β).alone m _ = _
  rw [Prog.alone_bind, leaves, Option.bind_some]

theorem alone_findFree (offs : List (BitVec 32)) (w : Option τ) (p : Pool) :
    (findFree offs).alone m (held w p) = some (offs.find? p.isFree, held w p) := by
  induction offs with
  | nil => rfl
  | cons off offs ih =>
    rw [findFree, Prog.alone_bind, alone_read, Option.bind_some, List.find?_cons]
    cases p.isFree off with
    | true => rfl
    | false => exact ih

theorem alone_oldest (l : List (Sigma fun _ : Addr => Ref)) (best : Option Ref)
    (w : Option τ) (p : Pool) : (oldest l best).alone m (held w p) = some (l.foldl (fun oldest d =>
      match oldest with
      | none => some d.2
      | some o => if (p.host d.2).lastUse < (p.host o).lastUse then some d.2 else some o)
      best, held w p) := by
  induction l generalizing best with
  | nil => rfl
  | cons d l ih =>
    cases best with
    | none => exact ih _
    | some o =>
      rw [oldest, Prog.alone_bind, alone_read, Option.bind_some, Prog.alone_bind, alone_read,
        Option.bind_some]
      exact ih _

theorem alone_expire (lease : Duration) (now : Int64) (drop : Pool → Addr → Ref → Pool)
    (l : List (Sigma fun _ : Addr => Ref)) (p : Pool) (w : Option τ) :
    (expire lease now drop l).alone m (held w p) = some ((), held w (l.foldl (fun p d =>
      if p.idle lease now d.2 then drop p d.1 d.2 else p) p)) := by
  induction l generalizing p with
  | nil => rfl
  | cons d l ih =>
    rw [expire, Prog.alone_bind, alone_read, Option.bind_some, List.foldl_cons]
    dsimp only
    split
    · rw [Prog.alone_bind, alone_write, Option.bind_some]
      exact ih _
    · exact ih _

theorem alone_activate (r : Ref) (now : Int64) (p : Pool) (w : Option τ) :
    (activate r now).alone m (held w p) = some ((), held w (p.activate r now)) := by
  rw [p.activate_eq]
  rfl

theorem alone_handOver (r : Ref) (a : Addr) (p : Pool) (w : Option τ) :
    (handOver r a).alone m (held w p) = some ((), held w (p.handOver r a)) := rfl

theorem alone_copyV6 (r : Ref) (p : Pool) (w : Option τ) :
    (copyV6 r).alone m (held w p) = some ((p.host r).v6.words, held w p) := rfl

theorem v4Of_touch (p : Pool) (r : Ref) (now : Int64) :
    ((p.touch r now).host r).v4 = (p.host r).v4 := (Pool.same_touch p r now).v4 r

theorem alone_lookup4 [DecidableEq τ] (a : Addr) : (lookup4 t a).alone m (held none p) =
    some ((p.lookup4 a m).1.map (Option.map Addr.words), held none (p.lookup4 a m).2) := by
  unfold lookup4 Pool.lookup4
  cases a.as4 with
  | error fault => rfl
  | ok a4 =>
    refine (alone_locked_read m (fun p => p.by4.get (p.offset a4)) _ p).trans ?_
    dsimp only
    cases p.by4.get (p.offset a4) with
    | none => rfl
    | some r =>
      simp only [Prog.alone_bind, alone_read, Option.bind_some]
      cases (p.host r).dormant with
      | true => rfl
      | false =>
        simp only [Bool.false_eq_true, if_false, Prog.alone_bind, alone_clock, alone_write,
          Option.bind_some, alone_copyV6, alone_pure, (Pool.same_touch p r m.now.unix).v6 r]
        rfl

section Assign

variable (p) (a : Addr) (w : Option τ)

theorem alone_assignUnknown (inactive : p.mapped.get a = none) (unknown : p.dormant.get a = none) :
    (assignUnknown a m.now.unix ((List.range (p.max.toNat + 1)).map fun i =>
        (p.hash a + BitVec.ofNat 32 i) &&& p.max)).alone m (held w p) =
      some ((p.assign a m).1, held w (p.assign a m).2) := by
  have search : ((List.range (p.max.toNat + 1)).map fun i =>
      (p.hash a + BitVec.ofNat 32 i) &&& p.max).find? p.isFree = p.findFree (p.hash a) := rfl
  unfold assignUnknown Pool.assign
  rw [inactive, unknown, Prog.alone_bind, alone_findFree, Option.bind_some]
  dsimp only
  rw [search]
  cases p.findFree (p.hash a) with
  | some off => rfl
  | none =>
    dsimp only
    have choice : (m.order.list p.dormant).foldl (fun oldest d =>
        match oldest with
        | none => some d.2
        | some o => if (p.host d.2).lastUse < (p.host o).lastUse then some d.2 else some o) none =
      p.oldest m.order := rfl
    rw [Prog.alone_bind, alone_access, Option.bind_some, Prog.alone_bind, alone_oldest,
      Option.bind_some]
    dsimp only
    rw [choice]
    cases p.oldest m.order with
    | none => rfl
    | some r =>
      simp only [Prog.alone_bind, alone_handOver, alone_write, Option.bind_some, alone_activate,
        event, v4Of, alone_read]
      rfl

theorem alone_assignLocked : (assignLocked a m.now.unix).alone m (held w p) =
    some ((p.assign a m).1, held w (p.assign a m).2) := by
  unfold assignLocked
  rw [Prog.alone_bind, alone_read, Option.bind_some]
  dsimp only
  cases active : p.mapped.get a with
  | some r =>
    simp only [Prog.alone_bind, alone_write, Option.bind_some, v4Of, alone_read, v4Of_touch, Pool.assign,
      active]
  | none =>
    dsimp only
    rw [Prog.alone_bind, alone_read, Option.bind_some]
    dsimp only
    cases asleep : p.dormant.get a with
    | some r =>
      simp only [Prog.alone_bind, alone_activate, Option.bind_some, event, alone_write, v4Of, alone_read,
        Pool.assign, active, asleep]
      rfl
    | none => exact alone_assignUnknown m p a w active asleep

end Assign

theorem alone_lookup6 [DecidableEq τ] (a : Addr) (allocate : Bool) :
    (lookup6 t a allocate).alone m (held none p) =
      some ((p.lookup6 a allocate m).1, held none (p.lookup6 a allocate m).2) := by
  unfold lookup6 Pool.lookup6
  refine (alone_locked_read m (fun p => p.mapped.get a) _ p).trans ?_
  cases p.mapped.get a with
  | some r =>
    simp only [Prog.alone_bind, alone_clock, alone_write, Option.bind_some, v4Of, alone_read, v4Of_touch]
  | none =>
    cases allocate with
    | false => rfl
    | true =>
      simp only [if_true, assign, Prog.alone_bind, alone_clock, alone_lock, Option.bind_some,
        alone_assignLocked, alone_unlock, alone_pure]

theorem alone_maintain : (maintain t).alone m (held none p) =
    some ((), held none (p.maintain m)) := by
  rw [maintain, Prog.alone_bind, alone_clock, Option.bind_some, Prog.alone_bind, alone_read,
    Option.bind_some, Prog.alone_bind, alone_read, Option.bind_some, Prog.alone_bind, alone_lock,
    Option.bind_some, Prog.alone_bind, alone_access, Option.bind_some, Prog.alone_bind, alone_expire,
    Option.bind_some, Prog.alone_bind, alone_access, Option.bind_some, Prog.alone_bind, alone_expire,
    Option.bind_some, alone_unlock]
  rfl

end Concurrent

end Addrmap

end Clatto
