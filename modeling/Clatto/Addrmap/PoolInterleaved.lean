import Clatto.Addrmap.PoolLedger

/-! The calls that change a pool, interrupted anywhere by others: when the lock is given back
the pool is sound, and its observer knows what has changed. -/

namespace Clatto.Addrmap

open Netip Guarded Pool

namespace Concurrent

/-- The lock protects all of a pool but the last use of its hosts and the addresses that are
withheld. An address is handed over under the lock, too. -/
def discipline (base : Pool) : Discipline Memory (Pool × Option Handover) where
  view m := (m.pool.still, m.handover)
  sound v := (v.1.Sound ∧ Logged base v.1) ∧ v.2 = none
  evolves := Memory.Evolves
  idle := .refl
  always := Memory.Placed
  kept placed evolves := evolves.placed placed

/-- Something was so at one of the moments since the call. -/
def Seen {ρ : Type} (X : ρ → Prop) (v : ρ) (before : List ρ) : Prop := ∃ q ∈ v :: before, X q

section Seen

variable {ρ : Type} {X Y : ρ → Prop} {v v' : ρ} {before : List ρ}

theorem Seen.now (holds : X v) : Seen X v before := ⟨v, List.mem_cons_self, holds⟩

theorem Seen.later (seen : Seen X v before) (v' : ρ) : Seen X v' (v :: before) := by
  obtain ⟨q, member, holds⟩ := seen
  exact ⟨q, List.mem_cons_of_mem _ member, holds⟩

theorem Seen.mono (seen : Seen X v before) (weaker : ∀ q, X q → Y q) : Seen Y v before := by
  obtain ⟨q, member, holds⟩ := seen
  exact ⟨q, member, weaker q holds⟩

end Seen

def Growing {ρ : Type} (H : ρ → List ρ → Prop) : Prop := ∀ v v' before, H v before → H v' (v :: before)

section Growing

variable {ρ : Type}

theorem growing_seen (X : ρ → Prop) : Growing (Seen X) := fun _ v' _ seen => seen.later v'

theorem growing_true : Growing fun (_ : ρ) _ => True := fun _ _ _ _ => trivial

theorem Growing.and {H H' : ρ → List ρ → Prop} (one : Growing H) (two : Growing H') :
    Growing fun v before => H v before ∧ H' v before :=
  fun v v' before holds => ⟨one v v' before holds.1, two v v' before holds.2⟩

end Growing

def pools (before : List Memory) : List Pool := before.map Memory.pool

/-- Something holds of the pool now and before. Who holds the lock finds no address that is being
handed over. -/
def OnPools (place : Station) (F : Pool → List Pool → Prop) (m : Memory) (before : List Memory) :
    Prop :=
  F m.pool (pools before) ∧ (place.Inside → m.handover = none)

/-- Nothing that others do at this place makes an assertion about pools false. -/
def Lasts (place : Station) (F : Pool → List Pool → Prop) : Prop :=
  ∀ v v' before, F v before → Pool.Evolves v v' → (place.Inside → v'.Same v) → F v' (v :: before)

theorem Lasts.again {place : Station} {F : Pool → List Pool → Prop} (lasts : Lasts place F) {v : Pool}
    {before : List Pool} (holds : F v before) : F v (v :: before) :=
  lasts v v before holds (.refl v) fun _ => .refl v

theorem Lasts.lasting {base : Pool} {place : Station} {F : Pool → List Pool → Prop}
    (lasts : Lasts place F) : Lasting (discipline base) place (OnPools place F) := by
  rintro m m' before ⟨holds, none⟩ evolves view
  refine ⟨lasts _ _ _ holds evolves.pool fun inside => congrArg Prod.fst (view inside), ?_⟩
  exact fun inside => (congrArg Prod.snd (view inside)).trans (none inside)

/-- Under the lock a pool is as it was, up to what the lock does not protect. -/
def Holding (q : Pool) (H : Pool → List Pool → Prop) (v : Pool) (before : List Pool) : Prop :=
  v.Same q ∧ H v before

section Rules

variable {τ α β : Type} {t : τ} {base : Pool}

variable (t base) in
/-- From `F` at one place, a call comes to `Q` at another. -/
def Spec (place : Station) (F : Pool → List Pool → Prop) (m : Proc τ α) (place' : Station)
    (Q : α → Pool → List Pool → Prop) : Prop :=
  Triple (contract (discipline base) t) (Asserts (discipline base) t place (OnPools place F)) m
    fun a => Asserts (discipline base) t place' (OnPools place' (Q a))

namespace Spec

variable {place place' place'' : Station} {F F' : Pool → List Pool → Prop} {m : Proc τ α}
  {Q Q' : α → Pool → List Pool → Prop}

theorem ret {value : α} (holds : ∀ v before, F v before → Q value v before) :
    Spec t base place F (pure value) place Q :=
  Triple.ret fun _ _ pre => ⟨pre.1, pre.2.1, holds _ _ pre.2.2.1, pre.2.2.2⟩

theorem bind {k : α → Proc τ β} {P : β → Pool → List Pool → Prop}
    (first : Spec t base place F m place' Q)
    (second : ∀ a, Spec t base place' (Q a) (k a) place'' P) :
    Spec t base place F (m >>= k) place'' P :=
  Triple.bind first second

theorem mono (spec : Spec t base place F m place' Q) (pre : ∀ v before, F' v before → F v before)
    (post : ∀ a v before, Q a v before → Q' a v before) : Spec t base place F' m place' Q' :=
  Triple.mono spec (fun _ _ holds => ⟨holds.1, holds.2.1, pre _ _ holds.2.2.1, holds.2.2.2⟩)
    fun a _ _ holds => ⟨holds.1, holds.2.1, post a _ _ holds.2.2.1, holds.2.2.2⟩

theorem given {P : Prop} (spec : P → Spec t base place F m place' Q) :
    Spec t base place (fun v before => P ∧ F v before) m place' Q :=
  fun s before holds =>
    spec holds.2.2.1.1 s before ⟨holds.1, holds.2.1, holds.2.2.1.2, holds.2.2.2⟩

theorem whichever {ι : Sort*} {F : ι → Pool → List Pool → Prop}
    (spec : ∀ i, Spec t base place (F i) m place' Q) :
    Spec t base place (fun v before => ∃ i, F i v before) m place' Q := by
  rintro s before ⟨here, proper, ⟨i, holds⟩, none⟩
  exact spec i s before ⟨here, proper, holds, none⟩

theorem quiet {f : Moment → Pool → α × Pool} (lasts : Lasts place F)
    (same : ∀ o v, (f o v).2.Same v) (evolves : ∀ o v before, F v before → Evolves v (f o v).2)
    (post : ∀ o v before, F v before → Q (f o v).1 (f o v).2 (v :: before)) :
    Spec t base place F (access f) place Q :=
  triple_quiet lasts.lasting (fun o m => congrArg (·, m.handover) (same o m.pool))
    (fun o m _ holds => .same (evolves o _ _ holds.1) (same o m.pool))
    fun o _ _ holds _ => ⟨post o _ _ holds.1, holds.2⟩

theorem read {f : Pool → α} (lasts : Lasts place F)
    (post : ∀ v before, F v before → Q (f v) v (v :: before)) :
    Spec t base place F (read f) place Q :=
  .quiet lasts (fun _ _ => rfl) (fun _ v _ _ => .refl v) fun _ => post

theorem clock (lasts : Lasts place F) : Spec t base place F clock place fun _ => F :=
  triple_ask lasts.lasting fun _ _ _ holds => ⟨lasts.again holds.1, holds.2⟩

theorem write {f : Pool → Pool} (lasts : Lasts .writing F)
    (does : ∀ v before, F v before → Evolves v (f v) ∧ F' (f v) (v :: before)) :
    Spec t base .writing F (write f) .writing fun _ => F' := by
  have stores (m : Memory) (before : List Memory) (holds : OnPools .writing F m before) :
      m.Evolves { m with pool := f m.pool } ∧
        OnPools .writing F' { m with pool := f m.pool } (m :: before) :=
    ⟨.idle (does _ _ holds.1).1 (holds.2 (by decide)), (does _ _ holds.1).2, holds.2⟩
  exact triple_write lasts.lasting stores

end Spec

theorem lasts_inside {place : Station} {F : Pool → List Pool → Prop} (inside : place.Inside)
    (keeps : ∀ v v' before, v'.Same v → F v before → F v' (v :: before)) : Lasts place F :=
  fun v v' before holds _ view => keeps v v' before (view inside) holds

theorem lasts_evolves {place : Station} {F : Pool → List Pool → Prop}
    (keeps : ∀ v v' before, F v before → Evolves v v' → F v' (v :: before)) : Lasts place F :=
  fun v v' before holds evolves _ => keeps v v' before holds evolves

theorem lasts_growing {place : Station} {H : Pool → List Pool → Prop} (growing : Growing H) :
    Lasts place H :=
  lasts_evolves fun v v' before holds _ => growing v v' before holds

section Holding

variable {place : Station} {q s : Pool} {H : Pool → List Pool → Prop}

theorem lasts_holding (inside : place.Inside) (growing : Growing H) : Lasts place (Holding q H) :=
  lasts_inside inside fun v v' before same holds =>
    ⟨same.trans holds.1, growing v v' before holds.2⟩

theorem holding_read {f : Pool → α} (inside : place.Inside) (growing : Growing H) :
    Spec t base place (Holding q H) (read f) place fun a =>
      Holding q fun v before => H v before ∧ Seen (fun w => w.Same q ∧ f w = a) v before :=
  .read (lasts_holding inside growing) fun v _ holds =>
    ⟨holds.1, growing _ _ _ holds.2, Seen.later (.now ⟨holds.1, rfl⟩) v⟩

theorem holding_load {f : Pool → α} (inside : place.Inside) (growing : Growing H)
    (same : ∀ v : Pool, v.Same q → f v = f q) :
    Spec t base place (Holding q H) (read f) place fun a v before =>
      a = f q ∧ Holding q H v before := by
  refine (holding_read inside growing).mono (fun _ _ => id) fun a v before holds => ?_
  obtain ⟨view, seen, w, -, equal, rfl⟩ := holds
  exact ⟨same w equal, view, seen⟩

theorem holding_list (which : Pool → HostMap) (inside : place.Inside) (growing : Growing H)
    (same : ∀ v : Pool, v.Same q → which v = which q) :
    Spec t base place (Holding q H) (access fun m p => (m.order.list (which p), p)) place
      fun l v before => (∃ order : Order, l = order.list (which q)) ∧ Holding q H v before :=
  .quiet (lasts_holding inside growing) (fun _ _ => rfl) (fun _ v _ _ => Evolves.refl v)
    fun o v _ holds =>
      ⟨⟨o.order, congrArg o.order.list (same v holds.1)⟩, holds.1, growing _ _ _ holds.2⟩

theorem holding_write {f : Pool → Pool} (growing : Growing H)
    (evolves : ∀ v : Pool, v.Same q → Evolves v (f v))
    (same : ∀ v : Pool, v.Same q → (f v).Same s) :
    Spec t base .writing (Holding q H) (write f) .writing fun _ => Holding s H :=
  .write (lasts_holding (by decide) growing) fun v _ holds =>
    ⟨evolves v holds.1, same v holds.1, growing _ _ _ holds.2⟩

theorem holding_touch (inside : place.Inside) (growing : Growing H) (r : Ref) (now : Int64) :
    Spec t base place (Holding q H) (write fun p => p.touch r now) place fun _ => Holding q H :=
  .quiet (lasts_holding inside growing) (fun _ v => same_touch v r now)
    (fun _ v _ _ => Evolves.touch v r now) fun _ v _ holds =>
      ⟨(same_touch v r now).trans holds.1, growing _ _ _ holds.2⟩

/-- An address that is being handed over, as the holder of the lock knows it. -/
def Handing (q : Pool) (H : Pool → List Pool → Prop) (h : Handover) (m : Memory)
    (before : List Memory) : Prop :=
  Holding q H m.pool (pools before) ∧ m.handover = some h

theorem lasting_handing (growing : Growing H) (h : Handover) :
    Lasting (discipline base) .writing (Handing q H h) := by
  rintro m m' before ⟨⟨same, holds⟩, here⟩ evolves view
  have view := view (by decide)
  exact ⟨⟨(congrArg Prod.fst view : m'.pool.Same m.pool).trans same, growing _ _ _ holds⟩,
    (congrArg Prod.snd view).trans here⟩

theorem handOver_spec (growing : Growing H) {r : Ref} (a : Addr)
    (held : q.by4.get (q.host r).off = some r) :
    Spec t base .writing (Holding q H) (handOver r a) .writing
      fun _ => Holding (q.handOver r a) H := by
  have found {p : Pool} (same : p.Same (q.forsake r)) : p.by4.get (p.host r).off = some r := by
    rw [same.by4, same.off]
    exact held
  refine Triple.bind (M := fun _ => Asserts (discipline base) t .writing
      (Handing (q.forsake r) H ⟨r, a, false⟩)) (triple_write (lasts_holding (by decide)
        growing).lasting fun m before holds => ?_) fun _ =>
    Triple.bind (M := fun _ => Asserts (discipline base) t .writing
      (Handing (q.forsake r) H ⟨r, a, true⟩)) (triple_write (lasting_handing growing _)
        fun m before holds => ?_) fun _ =>
    triple_write (lasting_handing growing _) fun m before holds => ?_
  · obtain ⟨⟨same, holds⟩, -⟩ := holds
    have same' : (m.pool.forsake r).Same (q.forsake r) := by
      rw [Same, still_forsake, still_forsake, same.eq]
    refine ⟨⟨.aside rfl rfl rfl, fun _ h here => ?_⟩, ⟨same', growing _ _ _ holds⟩, rfl⟩
    cases here
    exact found same'
  · obtain ⟨⟨same, holds⟩, -⟩ := holds
    refine ⟨⟨.refl _, fun _ h here => ?_⟩, ⟨same, growing _ _ _ holds⟩, rfl⟩
    cases here
    exact found same
  · obtain ⟨⟨same, holds⟩, -⟩ := holds
    refine ⟨⟨.rename (found same) a, fun _ h here => by cases here⟩, ⟨?_, growing _ _ _ holds⟩,
      fun _ => rfl⟩
    rw [Same, Memory.storeZ, Pool.handOver, still_rename, still_rename, same.eq]

end Holding

end Rules

/-- What a plain lookup of an IPv6 address finds. -/
def look (p : Pool) (a : Addr) : Option Addr := (p.mapped.get a).map fun r => (p.host r).v4

theorem lookup6_false (p : Pool) (a : Addr) (m : Moment) : (p.lookup6 a false m).1 = look p a := by
  rw [Pool.lookup6, look]
  cases p.mapped.get a <;> rfl

theorem look_same {p q : Pool} (same : p.Same q) (a : Addr) : look p a = look q a := by
  rw [look, look, same.mapped]
  cases q.mapped.get a with
  | none => rfl
  | some r => exact congrArg some (same.v4 r)

theorem look_of_table {p : Pool} (sound : p.Sound) {off : BitVec 32} {d : DynHost}
    (held : p.table off = some d) (awake : d.dormant = false) : look p d.v6 = some d.v4 := by
  obtain ⟨r, found, rfl⟩ := sound.find_mapped held awake
  rw [look, found]
  rfl

/-- At some moment every address was taken, by a host that was awake, or withheld. -/
def Exhausted (a : Addr) (v : Pool) (before : List Pool) : Prop :=
  Seen (fun q => q.Sound ∧ q.Unknown a ∧ (∀ off d, q.table off = some d → d.dormant = false) ∧
    ∀ off, q.InRange off → q.table off ≠ none ∨
      Seen (fun w => w.reserved (q.addr off) = true) v before) v before

/-- What has come of a request for an address when the lock is given back. -/
structure Assigned (base : Pool) (a : Addr) (answer : Option Addr) (v : Pool)
    (before : List Pool) : Prop where
  sound : v.Sound
  logged : Logged base v
  found : ∀ v4, answer = some v4 → look v a = some v4
  exhausted : answer = none → Exhausted a v before

section Assign

variable {τ : Type} {t : τ} {base q : Pool} {H : Pool → List Pool → Prop} {r : Ref} {a : Addr}
  (growing : Growing H)

include growing

theorem activate_spec (now : Int64) (held : q.by4.get (q.host r).off = some r) :
    Spec t base .writing (Holding q H) (activate r now) .writing
      fun _ => Holding (q.activate r now) H := by
  refine .bind (holding_write (s := q.rouse r) growing (fun v same => .rouse ?_) fun v same => ?_)
    fun _ => holding_write growing (fun v _ => .enlist v r now) fun v same => ?_
  · rw [same.by4, same.off]
    exact held
  · rw [Same, still_rouse, still_rouse, same.eq]
  · rw [Same, activate_eq, still_enlist, still_enlist, same.eq]

theorem event_spec (reason : Xlate.Reason) :
    Spec t base .writing (Holding q H) (event reason r) .writing
      fun _ => Holding (q.event reason (q.host r)) H := by
  refine holding_write growing (fun v _ => (Evolves.refl v).report _) fun v same => ?_
  rw [Same, still_event, still_event, same.eq]

theorem v4Of_spec {place : Station} (inside : place.Inside) :
    Spec t base place (Holding q H) (v4Of r) place fun answer v before =>
      answer = some (q.host r).v4 ∧ Holding q H v before :=
  holding_load inside growing fun _ same => congrArg some (same.v4 r)

theorem findFree_spec (offs : List (BitVec 32)) :
    Spec t base .writing (Holding q H) (findFree offs) .writing fun found =>
      Holding q fun v before => H v before ∧
        (∀ off, found = some off →
          off ∈ offs ∧ Seen (fun w => w.Same q ∧ w.isFree off = true) v before) ∧
        (found = none → ∀ off ∈ offs, Seen (fun w => w.Same q ∧ w.isFree off = false) v before) := by
  induction offs generalizing H with
  | nil =>
    refine .ret fun v before holds => ⟨holds.1, holds.2, fun off found => ?_, fun _ off member => ?_⟩
    · cases found
    · cases member
  | cons off offs ih =>
    refine .bind (holding_read (by decide) growing) fun free => ?_
    cases free with
    | true =>
      refine .ret fun v before holds => ⟨holds.1, holds.2.1, fun off' found => ?_, fun none => ?_⟩
      · cases found
        exact ⟨List.mem_cons_self, holds.2.2⟩
      · cases none
    | false =>
      refine (ih (growing.and (growing_seen _))).mono (fun _ _ => id) fun found v before holds => ?_
      obtain ⟨view, ⟨other, first⟩, some, none⟩ := holds
      refine ⟨view, other, fun off' same => ?_, fun same => List.forall_mem_cons.mpr ⟨first, none same⟩⟩
      obtain ⟨member, free⟩ := some off' same
      exact ⟨List.mem_cons_of_mem _ member, free⟩

theorem oldest_spec (hosts : List (Sigma fun _ : Addr => Ref)) (best : Option Ref) :
    Spec t base .writing (Holding q H) (oldest hosts best) .writing fun found v before =>
      ((found = none → hosts = [] ∧ best = none) ∧
        ∀ r, found = some r → best = some r ∨ ∃ d ∈ hosts, d.2 = r) ∧ Holding q H v before := by
  induction hosts generalizing best with
  | nil => exact .ret fun v before holds => ⟨⟨fun none => ⟨rfl, none⟩, fun r same => .inl same⟩, holds⟩
  | cons d ds ih =>
    -- whichever host is kept, it is the best so far or the one at hand
    have rest (next : Ref) (origin : best = some next ∨ d.2 = next) :
        Spec t base .writing (Holding q H) (oldest ds (some next)) .writing fun found v before =>
          ((found = none → d :: ds = [] ∧ best = none) ∧
            ∀ r, found = some r → best = some r ∨ ∃ e ∈ d :: ds, e.2 = r) ∧ Holding q H v before := by
      refine (ih (some next)).mono (fun _ _ => id) fun found v before holds => ?_
      obtain ⟨⟨none, some⟩, kept⟩ := holds
      refine ⟨⟨fun same => ?_, fun r same => ?_⟩, kept⟩
      · cases (none same).2
      · rcases some r same with first | ⟨e, member, found⟩
        · cases first
          exact origin.imp id fun here => ⟨d, List.mem_cons_self, here⟩
        · exact .inr ⟨e, List.mem_cons_of_mem _ member, found⟩
    cases best with
    | none => exact rest d.2 (.inr rfl)
    | some best =>
      have load (s : Ref) : Spec t base .writing (Holding q H) (read fun p => (p.host s).lastUse)
          .writing fun _ => Holding q H :=
        (holding_read (by decide) growing).mono (fun _ _ => id) fun _ _ _ holds =>
          ⟨holds.1, holds.2.1⟩
      refine .bind (load d.2) fun one => .bind (load best) fun other => ?_
      split
      · exact rest d.2 (.inr rfl)
      · exact rest best (.inl rfl)

end Assign

section Locked

variable {τ : Type} {t : τ} {base q : Pool} {a : Addr}

theorem assigned_same {q' : Pool} {H : Pool → List Pool → Prop} {v4 : Addr} (sound : q'.Sound)
    (logged : Logged base q') (found : look q' a = some v4) {v : Pool} {before : List Pool}
    (holds : Holding q' H v before) : Assigned base a (some v4) v before where
  sound := holds.1.sound.mpr sound
  logged := logged.same holds.1.symm
  found _ same := by
    cases same
    rw [look_same holds.1]
    exact found
  exhausted none := by cases none

theorem assigned_writes {q' : Pool} {H : Pool → List Pool → Prop} {off : BitVec 32} {d : DynHost}
    {dirty : Bool} (writes : q.Writes off (some d) dirty q') (awake : d.dormant = false)
    (logged : Logged base q') {v : Pool} {before : List Pool} (holds : Holding q' H v before) :
    Assigned base d.v6 (some d.v4) v before := by
  have held : q'.table off = some d := by
    rw [writes.table]
    exact Function.update_self ..
  exact assigned_same writes.sound logged (look_of_table writes.sound held awake) holds

theorem exhausted_of (sound : q.Sound) (inactive : q.mapped.get a = none)
    (unknown : q.dormant.get a = none) (nobody : ∀ b, q.dormant.get b = none) {v : Pool}
    {before : List Pool} (seen : Seen (fun w => w.Same q) v before)
    (taken : ∀ off, q.InRange off → Seen (fun w => w.Same q ∧ w.isFree off = false) v before) :
    Exhausted a v before := by
  refine seen.mono fun w same => ?_
  have sound' := same.sound.mpr sound
  refine ⟨sound', sound'.unknown (same.mapped ▸ inactive) (same.dormant ▸ unknown),
    fun off d held => ?_, fun off inside => ?_⟩
  · by_contra asleep
    obtain ⟨r, found, -⟩ := sound'.find_dormant held ((Bool.not_eq_false _).mp asleep)
    rw [same.dormant, nobody] at found
    cases found
  · have range := same.range
    obtain ⟨u, member, same', busy⟩ := taken off (by rw [InRange, ← range]; exact inside)
    simp only [isFree, Bool.and_eq_false_iff, Bool.not_eq_false', decide_eq_false_iff_not,
      not_not] at busy
    rcases busy with (zero | used) | withheld
    · exact absurd zero inside.1
    · refine .inl ((sound'.used off).mp ?_ |>.resolve_left inside.1)
      rw [isUsed, same.used, ← same'.used]
      exact used
    · refine .inr ⟨u, member, ?_⟩
      rw [addr, range, ← same'.range]
      exact withheld

/-- A host that has no address gets a free one, one of a host that is asleep, or none. -/
theorem assignUnknown_spec (sound : q.Sound) (logged : Logged base q) (now : Int64)
    (inactive : q.mapped.get a = none) (unknown : q.dormant.get a = none)
    {offs : List (BitVec 32)} (offsets : offs =
      (List.range (q.max.toNat + 1)).map fun i => (q.hash a + BitVec.ofNat 32 i) &&& q.max) :
    Spec t base .writing (Holding q (Seen fun w => w.Same q)) (assignUnknown a now offs) .writing
      (Assigned base a) := by
  have growing := growing_seen fun w : Pool => w.Same q
  refine .bind (findFree_spec growing offs) fun found => ?_
  cases found with
  | some off =>
    -- what the search has found out about the offset
    refine Spec.mono (F := fun v before => (q.InRange off ∧ q.isUsed off = false) ∧
      Holding q (Seen fun w => w.Same q) v before) (.given fun free => ?_) (fun v before holds => ?_)
      fun _ _ _ => id
    · obtain ⟨inside, unused⟩ := free
      have vacant : q.by4.get off = none := Registry.view_eq_none.mp (sound.vacant unused)
      refine .bind (holding_write (s := (q.fresh a off now).event .dynamicAssigned
        ((q.fresh a off now).host q.heap.next)) growing
        (fun v same => (Evolves.fresh (same.by4 ▸ vacant) a now).report _) fun v same => ?_) fun _ => ?_
      · rw [Same, still_event, still_event, still_fresh, still_fresh, same.eq, same.next]
      · refine (holding_load (by decide) growing fun v same => ?_).mono (fun _ _ => id)
          fun answer v before holds => ?_
        · rw [addr, addr, same.range]
        · obtain ⟨rfl, kept⟩ := holds
          exact assigned_writes ((sound.fresh now inside unused inactive unknown).report _) rfl
            (logged.fresh sound inside unused inactive unknown now) kept
    · obtain ⟨view, seen, some, -⟩ := holds
      obtain ⟨member, w, -, same, free⟩ := some off rfl
      refine ⟨?_, view, seen⟩
      rw [offsets] at member
      obtain ⟨i, -, rfl⟩ := List.mem_map.mp member
      simp only [isFree, Bool.and_eq_true, decide_eq_true_eq, Bool.not_eq_true'] at free
      refine ⟨⟨free.1.1, q.and_max_le _⟩, ?_⟩
      rw [isUsed, ← same.used]
      exact free.1.2
  | none =>
    have growing' : Growing fun (v : Pool) before => Seen (fun w => w.Same q) v before ∧
        ∀ off ∈ offs, Seen (fun w => w.Same q ∧ w.isFree off = false) v before :=
      growing.and fun v v' before holds off member => (holds off member).later v'
    refine Spec.mono (F := Holding q _) (.bind (holding_list Pool.dormant (by decide)
      growing' fun v same => same.dormant) fun hosts => .given fun listed => ?_)
      (fun v before holds => ⟨holds.1, holds.2.1, holds.2.2.2 rfl⟩) fun _ _ _ => id
    obtain ⟨order, rfl⟩ := listed
    refine .bind (oldest_spec growing' _ none) fun choice => .given fun chosen => ?_
    cases choice with
    | none =>
      refine .bind (holding_write growing' (fun v _ => (Evolves.refl v).report _)
        fun v same => same.report _) fun _ => ?_
      have nobody (b : Addr) : q.dormant.get b = none := by
        by_contra some
        obtain ⟨r, held⟩ := Option.ne_none_iff_exists'.mp some
        have member := (mem_order order _).mpr held
        rw [(chosen.1 rfl).1] at member
        cases member
      refine .ret fun v before holds => ?_
      obtain ⟨same, seen, taken⟩ := holds
      refine ⟨same.sound.mpr ⟨sound.size, sound.filed, sound.placed, sound.used⟩,
        (logged.exhausted a).same same.symm, fun _ some => (by cases some), fun _ => ?_⟩
      refine exhausted_of sound inactive unknown nobody seen fun off inside => taken off ?_
      obtain ⟨i, bound, rfl⟩ := q.visited (q.hash a) off inside.2
      rw [offsets]
      exact List.mem_map.mpr ⟨i, List.mem_range.mpr (Nat.lt_succ_of_le bound), rfl⟩
    | some r =>
      obtain ⟨⟨b, s⟩, member, same⟩ := (chosen.2 r rfl).resolve_left fun none => by cases none
      obtain rfl : s = r := same
      have found := (mem_order order _).mp member
      obtain ⟨held, -, rfl, -⟩ := sound.dormant found
      have off : ((q.handOver s a).host s).off = (q.host s).off := by
        simp [Pool.handOver, forsake, rename, host, Heap.modify, Heap.get_set, DynHost.rename]
      refine .bind (handOver_spec growing' a held) fun _ => .bind (activate_spec growing' now ?_)
        fun _ => .bind (holding_write (s := q.steal s a now) growing' (fun v _ => .aside rfl rfl rfl)
          fun v same => ?_) fun _ => .bind (event_spec growing' _) fun _ => ?_
      · rw [off]
        exact held
      · exact (congrArg (fun p : Pool => { p with dirty := true }) same.eq :)
      · refine (v4Of_spec growing' (by decide)).mono (fun _ _ => id) fun answer v before holds => ?_
        obtain ⟨rfl, kept⟩ := holds
        change Assigned base a (some ((q.steal s a now).host s).v4) v before
        rw [v4_steal]
        exact assigned_writes ((sound.steal now found inactive unknown).report _) rfl
          (logged.steal sound found inactive unknown now) kept

theorem assignLocked_spec (sound : q.Sound) (logged : Logged base q) (now : Int64) :
    Spec t base .writing (Holding q (Seen fun w => w.Same q)) (assignLocked a now) .writing
      (Assigned base a) := by
  have growing := growing_seen fun w : Pool => w.Same q
  refine .bind (holding_load (by decide) growing fun v same => by rw [same.mapped])
    fun mapped => .given fun active => ?_
  cases mapped with
  | some r =>
    refine .bind (holding_touch (by decide) growing r now) fun _ => ?_
    refine (v4Of_spec growing (by decide)).mono (fun _ _ => id) fun answer v before holds => ?_
    obtain ⟨rfl, kept⟩ := holds
    exact assigned_same sound logged (by rw [look, ← active]; rfl) kept
  | none =>
    refine .bind (holding_load (by decide) growing fun v same => by rw [same.dormant])
      fun dormant => .given fun asleep => ?_
    cases dormant with
    | some r =>
      obtain ⟨held, -, rfl, -⟩ := sound.dormant asleep.symm
      refine .bind (activate_spec growing now held) fun _ => .bind (event_spec growing _) fun _ => ?_
      refine (v4Of_spec growing (by decide)).mono (fun _ _ => id) fun answer v before holds => ?_
      obtain ⟨rfl, kept⟩ := holds
      change Assigned base _ (some ((q.activate r now).host r).v4) v before
      rw [v4_activate]
      exact assigned_writes ((sound.activate now asleep.symm).report _) rfl
        (logged.activate sound asleep.symm now) kept
    | none =>
      exact .bind (holding_load (by decide) growing fun v same => by simp only [Pool.hash, same.range])
        fun offs => .given fun offsets => assignUnknown_spec sound logged now active.symm asleep.symm
          offsets

end Locked

section Calls

variable {τ : Type} {t : τ} {base : Pool}

theorem sound_view {m : Memory} : (discipline base).sound ((discipline base).view m) ↔
    (m.pool.Sound ∧ Logged base m.pool) ∧ m.handover = none :=
  and_congr_left fun _ => and_congr sound_still Logged.still

theorem lock_spec {F : Pool → List Pool → Prop} (growing : Growing F) :
    Spec t base .outside F (lock t) .writing fun _ v before =>
      ∃ q, (q.Sound ∧ Logged base q) ∧
        Holding q (fun v before => Seen (fun w => w.Same q) v before ∧ F v before) v before :=
  triple_lock (lasts_growing growing).lasting fun m _ holds sound =>
    ⟨⟨m.pool, (sound_view.mp sound).1, .refl _, .now (.refl _), growing _ _ _ holds.1⟩,
      fun _ => (sound_view.mp sound).2⟩

theorem rLock_spec [DecidableEq τ] {F : Pool → List Pool → Prop} (growing : Growing F) :
    Spec t base .outside F (rLock t) .reading fun _ v before =>
      ∃ q, (q.Sound ∧ Logged base q) ∧
        Holding q (fun v before => Seen (fun w => w.Same q) v before ∧ F v before) v before :=
  triple_rLock (lasts_growing growing).lasting fun m _ holds sound =>
    ⟨⟨m.pool, (sound_view.mp sound).1, .refl _, .now (.refl _), growing _ _ _ holds.1⟩,
      fun _ => (sound_view.mp sound).2⟩

theorem unlock_spec {F G : Pool → List Pool → Prop}
    (keeps : ∀ v v' before, v'.Same v → F v before → F v' (v :: before))
    (sound : ∀ v before, F v before → v.Sound ∧ Logged base v)
    (post : ∀ v before, F v before → G v (v :: before)) :
    Spec t base .writing F unlock .outside fun _ => G :=
  triple_unlock (lasts_inside (by decide) keeps).lasting
    (fun _ _ holds => sound_view.mpr ⟨sound _ _ holds.1, holds.2 (by decide)⟩)
    fun _ _ holds => ⟨post _ _ holds.1, fun _ => holds.2 (by decide)⟩

theorem rUnlock_spec [DecidableEq τ] {F : Pool → List Pool → Prop} (lasts : Lasts .reading F) :
    Spec t base .reading F (rUnlock t) .outside fun _ => F :=
  triple_rUnlock lasts.lasting fun _ _ holds =>
    ⟨lasts.again holds.1, fun _ => holds.2 (by decide)⟩

end Calls

end Concurrent

end Clatto.Addrmap
