import Clatto.Addrmap.PoolInterleaved

/-! What the calls of a pool answer, whichever calls are made at the same time. -/

namespace Clatto.Addrmap

open Netip Guarded Pool

namespace Concurrent

variable {τ : Type} {t : τ} {base : Pool}

/-- What a lookup of an IPv6 address may answer: something that was so at some moment. -/
structure Answered6 (a : Addr) (allocate : Bool) (answer : Option Addr) (v : Pool)
    (before : List Pool) : Prop where
  found : ∀ v4, answer = some v4 → Seen (fun q => look q a = some v4) v before
  missing : answer = none → allocate = false → Seen (fun q => look q a = none) v before
  exhausted : answer = none → allocate = true → Exhausted a v before

theorem Exhausted.later {a : Addr} {v : Pool} {before : List Pool} (exhausted : Exhausted a v before)
    (v' : Pool) : Exhausted a v' (v :: before) := by
  refine Seen.mono (Seen.later exhausted v') fun q holds => ?_
  obtain ⟨sound, unknown, awake, taken⟩ := holds
  exact ⟨sound, unknown, awake, fun off inside => (taken off inside).imp_right fun seen => seen.later v'⟩

theorem Assigned.keeps {a : Addr} {answer : Option Addr} {v v' : Pool} {before : List Pool}
    (same : v'.Same v) (assigned : Assigned base a answer v before) :
    Assigned base a answer v' (v :: before) where
  sound := same.sound.mpr assigned.sound
  logged := assigned.logged.same same.symm
  found v4 some := (look_same same a).trans (assigned.found v4 some)
  exhausted none := (assigned.exhausted none).later v'

theorem assign_spec (a : Addr) :
    Spec t base .outside (fun _ _ => True) (assign t a) .outside (Answered6 a true) := by
  refine .bind (.clock (lasts_growing growing_true)) fun now =>
    .bind (lock_spec growing_true) fun _ => .whichever fun q => .given fun ready => ?_
  refine .bind ((assignLocked_spec ready.1 ready.2 now).mono
    (fun v before holds => ⟨holds.1, holds.2.1⟩) fun _ _ _ => id) fun answer => ?_
  refine .bind (unlock_spec (fun v v' before same => Assigned.keeps same)
    (fun v before holds => ⟨holds.sound, holds.logged⟩) fun v before holds => ?_) fun _ =>
      .ret fun _ _ => id
  have found v4 (same : answer = some v4) : Seen (fun q => look q a = some v4) v before :=
    .now (holds.found v4 same)
  exact ⟨fun v4 same => (found v4 same).later v, fun _ never => (by cases never),
    fun none _ => (holds.exhausted none).later v⟩

/-- A host that was found keeps its IPv4 address. -/
def Known (a : Addr) (d : Option Ref) (v : Pool) (before : List Pool) : Prop :=
  match d with
  | none => Seen (fun q => look q a = none) v before
  | some r => r < v.heap.next ∧ Seen (fun q => look q a = some (v.host r).v4) v before

theorem Known.evolves {a : Addr} {d : Option Ref} {v v' : Pool} {before : List Pool}
    (known : Known a d v before) (evolves : Evolves v v') : Known a d v' (v :: before) := by
  cases d with
  | none => exact Seen.later known v'
  | some r =>
    refine ⟨Nat.lt_of_lt_of_le known.1 evolves.next, ?_⟩
    rw [evolves.v4 known.1]
    exact known.2.later v'

theorem Known.of_get {a : Addr} {v : Pool} {before : List Pool} (sound : v.Sound) :
    Known a (v.mapped.get a) v before := by
  cases found : v.mapped.get a with
  | none => exact .now (by rw [look, found]; rfl)
  | some r => exact ⟨sound.filed.live (sound.mapped found).1, .now (by rw [look, found]; rfl)⟩

theorem lookup6_spec [DecidableEq τ] (a : Addr) (allocate : Bool) :
    Spec t base .outside (fun _ _ => True) (lookup6 t a allocate) .outside
      (Answered6 a allocate) := by
  have lasts {place : Station} (d : Option Ref) : Lasts place (Known a d) :=
    lasts_evolves fun v v' before holds evolves => holds.evolves evolves
  refine .bind (rLock_spec growing_true) fun _ => .whichever fun q => .given fun ready => ?_
  refine .bind (Q := Known a) (.read (lasts_holding (by decide)
    ((growing_seen _).and growing_true)) fun v before holds => ?_) fun d => ?_
  · exact (Known.of_get (holds.1.sound.mpr ready.1)).evolves (.refl v)
  refine .bind (rUnlock_spec (lasts d)) fun _ => ?_
  cases d with
  | some r =>
    refine .bind (.clock (lasts _)) fun now => ?_
    refine .bind (Q := fun _ => Known a (some r)) (.quiet (lasts _)
      (fun _ v => same_touch v r now) (fun _ v _ _ => .touch v r now) fun _ v before holds =>
        holds.evolves (.touch v r now)) fun _ => ?_
    refine .read (lasts _) fun v before holds => ⟨fun v4 same => ?_, fun none => ?_, fun none => ?_⟩
    · cases same
      exact holds.2.later v
    · cases none
    · cases none
  | none =>
    dsimp only
    split
    · rename_i will
      cases will
      exact (assign_spec a).mono (fun _ _ _ => trivial) fun _ _ _ => id
    · rename_i never
      refine .ret fun v before holds => ⟨fun v4 some => ?_, fun _ _ => holds, fun _ will => ?_⟩
      · cases some
      · exact absurd will never

/-- The hosts of a map that are idle are dropped one after the other. -/
theorem expire_spec (which : Pool → HostMap) {drop : Pool → Addr → Ref → Pool}
    (keeps : ∀ (q : Pool) a r, q.Sound ∧ Logged base q → (which q).get a = some r →
      (drop q a r).Sound ∧ Logged base (drop q a r))
    (others : ∀ q a r b, b ≠ a → (which (drop q a r)).get b = (which q).get b)
    (evolves : ∀ (q : Pool) a r, q.Sound → (which q).get a = some r → Evolves q (drop q a r))
    (same : ∀ p q a r, p.Same q → (drop p a r).Same (drop q a r))
    (views : ∀ p q : Pool, p.Same q → which p = which q)
    (lease : Duration) (now : Int64) (l : List (Sigma fun _ : Addr => Ref)) (q : Pool)
    (ready : q.Sound ∧ Logged base q) (distinct : (l.map Sigma.fst).Nodup)
    (here : ∀ d ∈ l, (which q).get d.1 = some d.2) :
    Spec t base .writing (Holding q fun _ _ => True) (expire lease now drop l) .writing
      fun _ v before => ∃ q, (q.Sound ∧ Logged base q) ∧ Holding q (fun _ _ => True) v before := by
  induction l generalizing q with
  | nil => exact .ret fun v before holds => ⟨q, ready, holds⟩
  | cons d l ih =>
    obtain ⟨first, later⟩ := List.nodup_cons.mp (List.map_cons ▸ distinct)
    obtain ⟨head, tail⟩ := List.forall_mem_cons.mp here
    refine .bind (holding_read (by decide) growing_true) fun idle => ?_
    refine Spec.mono (F := Holding q fun _ _ => True) ?_ (fun v before holds => ⟨holds.1, trivial⟩)
      fun _ _ _ => id
    split
    · refine .bind (holding_write growing_true (fun v equal => evolves v _ _ (equal.sound.mpr ready.1) ?_)
        fun v equal => same v q _ _ equal) fun _ =>
          ih _ (keeps q _ _ ready head) later fun e member => ?_
      · rw [views v q equal]
        exact head
      · have different : e.1 ≠ d.1 := fun eq => first (eq ▸ List.mem_map_of_mem member)
        rw [others q _ _ _ different]
        exact tail e member
    · exact ih q ready later tail

theorem maintain_spec : Spec t base .outside (fun _ _ => True) (maintain t) .outside
    fun _ _ _ => True := by
  have reads {α : Type} (f : Pool → α) : Spec t base .outside (fun _ _ => True) (read f) .outside
      fun _ _ _ => True :=
    .read (lasts_growing growing_true) fun _ _ _ => trivial
  refine .bind (.clock (lasts_growing growing_true)) fun now =>
    .bind (reads _) fun minLease => .bind (reads _) fun maxLease =>
      .bind (lock_spec growing_true) fun _ => .whichever fun q => .given fun ready => ?_
  refine Spec.mono (F := Holding q fun _ _ => True) ?_ (fun v before holds => ⟨holds.1, trivial⟩)
    fun _ _ _ => id
  refine .bind (holding_list Pool.mapped (by decide) growing_true fun v same => same.mapped)
    fun l => .given fun listed => ?_
  obtain ⟨order, rfl⟩ := listed
  refine .bind (expire_spec Pool.mapped (fun q a r ready found => ?_) (fun q a r b other => ?_)
    (fun q a r sound found => ?_) (fun p q a r same => ?_) (fun p q same => same.mapped) minLease now _ q
    ready (distinct_keys ..) fun d member => (mem_order order _).mp member) fun _ =>
      .whichever fun q => .given fun ready => ?_
  · exact ⟨(ready.1.sleep found).sound, ready.2.sleep ready.1 found⟩
  · exact (Dict.get_del ..).trans (if_neg other)
  · exact .sleep (sound.mapped found).1 a
  · rw [Same, still_sleep, still_sleep, same.eq]
  refine .bind (holding_list Pool.dormant (by decide) growing_true fun v same => same.dormant)
    fun l => .given fun listed => ?_
  obtain ⟨order, rfl⟩ := listed
  refine .bind (expire_spec Pool.dormant (fun q a r ready found => ?_) (fun q a r b other => ?_)
    (fun q a r sound found => ?_) (fun p q a r same => ?_) (fun p q same => same.dormant) maxLease now _ q
    ready (distinct_keys ..) fun d member => (mem_order order _).mp member) fun _ =>
      .whichever fun q => .given fun ready => ?_
  · exact ⟨(ready.1.release found).sound, ready.2.release ready.1 found⟩
  · exact (Dict.get_del ..).trans (if_neg other)
  · exact .release (sound.dormant found).1 (sound.dormant found).2.2.2 a
  · rw [Same, still_release, still_release, same.eq]
  exact unlock_spec (fun v v' before same holds => ⟨same.trans holds.1, trivial⟩)
    (fun v before holds => ⟨holds.1.sound.mpr ready.1, ready.2.same holds.1.symm⟩) fun _ _ _ => trivial

variable (t base) in
/-- Without the lock a call comes from `F` to `Q`, which are about all that is in memory. -/
def Unlocked {α : Type} (F : Memory → List Memory → Prop) (m : Proc τ α)
    (Q : α → Memory → List Memory → Prop) : Prop :=
  Triple (contract (discipline base) t) (Asserts (discipline base) t .outside F) m
    fun a => Asserts (discipline base) t .outside (Q a)

/-- An IPv6 host has the IPv4 address at an offset. -/
def Has (a4 : Bytes) (b : Addr) (q : Pool) : Prop :=
  ∃ d, q.table (q.offset a4) = some d ∧ d.v6 = b

/-- An IPv6 host has the IPv4 address, or is about to have it. -/
def Concerns (a4 : Bytes) (b : Addr) (m : Memory) : Prop :=
  Has a4 b m.pool ∨
    ∃ h, m.handover = some h ∧ h.heir = b ∧ m.pool.by4.get (m.pool.offset a4) = some h.ref

/-- A word is that of a host which has had the IPv4 address or has been about to have it. -/
def Drawn {α : Type} (a4 : Bytes) (word : Addr.Words → α) (x : α) (m : Memory)
    (past : List Memory) : Prop :=
  ∃ b, Seen (Concerns a4 b) m past ∧ x = word b.words

/-- What a lookup of an IPv4 address may answer: no host when there was none, and otherwise the
host that there was, unless the address has passed to another one during the call, or has begun to.
Even then each word of the answer belongs to a host that had the address or was about to have it. -/
def Answered4 (a : Addr) : Checked (Option Addr.Words) → Memory → List Memory → Prop
  | .error fault => fun _ _ => a.as4 = .error fault
  | .ok none => Seen fun m => ∀ o, (m.pool.lookup4 a o).1 = .ok none
  | .ok (some w) => fun m past => ∃ a4, a.as4 = .ok a4 ∧
      (∃ b, Seen (fun m => ∀ o, (m.pool.lookup4 a o).1 = .ok (some b)) m past ∧
        (w = b.words ∨ ∃ b', b' ≠ b ∧ Seen (Concerns a4 b') m past)) ∧
      Drawn a4 Addr.Words.hi w.hi m past ∧ Drawn a4 Addr.Words.lo w.lo m past ∧
      Drawn a4 Addr.Words.z w.z m past

section Lookup4

variable {a : Addr} {a4 : Bytes} (four : a.as4 = .ok a4) {r : Ref} {v v' : Pool}
  {before : List Pool}

include four in
theorem lookup4_none (none : v.by4.get (v.offset a4) = none) (m : Moment) :
    (v.lookup4 a m).1 = .ok .none := by
  rw [Pool.lookup4, four]
  dsimp only
  rw [none]

include four in
theorem lookup4_some (found : v.by4.get (v.offset a4) = some r) (m : Moment) :
    (v.lookup4 a m).1 = .ok (if (v.host r).dormant then none else some (v.host r).v6) := by
  rw [Pool.lookup4, four]
  dsimp only
  rw [found]
  dsimp only
  split <;> rfl

theorem offset_evolves (evolves : Evolves v v') (a4 : Bytes) : v'.offset a4 = v.offset a4 := by
  rw [offset, offset, evolves.range]

/-- A host that was found and may have been forgotten since. It is asleep then, and for a moment
nobody had its address. -/
structure Recalled (a4 : Bytes) (r : Ref) (v : Pool) (before : List Pool) : Prop where
  live : r < v.heap.next
  off : (v.host r).off = v.offset a4
  still : v.by4.get (v.offset a4) = some r ∨ v.by4.get (v.offset a4) ≠ some r ∧
    (v.host r).dormant = true ∧ Seen (fun q => q.by4.get (q.offset a4) = none) v before

theorem Recalled.evolves (recalled : Recalled a4 r v before) (evolves : Evolves v v') :
    Recalled a4 r v' (v :: before) := by
  have offset := offset_evolves evolves a4
  refine ⟨Nat.lt_of_lt_of_le recalled.live evolves.next, ?_, ?_⟩
  · rw [evolves.off recalled.live, offset, recalled.off]
  · by_cases found : v'.by4.get (v'.offset a4) = some r
    · exact .inl found
    · refine .inr ⟨found, ?_⟩
      rw [offset] at found
      rcases recalled.still with held | ⟨lost, asleep, seen⟩
      · obtain ⟨vacant, asleep⟩ := evolves.gone held found
        rw [← offset] at vacant
        exact ⟨asleep, .now vacant⟩
      · refine ⟨?_, seen.later v'⟩
        by_contra awake
        have held := evolves.woken recalled.live asleep (Bool.eq_false_iff.mpr awake)
        rw [recalled.off] at held
        exact lost held

def Noted (a : Addr) (a4 : Bytes) (d : Option Ref) (v : Pool) (before : List Pool) : Prop :=
  match d with
  | none => Seen (fun q => ∀ m, (q.lookup4 a m).1 = .ok none) v before
  | some r => Recalled a4 r v before

theorem Noted.evolves {d : Option Ref} (noted : Noted a a4 d v before) (evolves : Evolves v v') :
    Noted a a4 d v' (v :: before) := by
  cases d with
  | none => exact Seen.later noted v'
  | some r => exact Recalled.evolves noted evolves

include four in
theorem Noted.of_get (sound : v.Sound) : Noted a a4 (v.by4.get (v.offset a4)) v before := by
  cases found : v.by4.get (v.offset a4) with
  | none => exact .now fun m => lookup4_none four found m
  | some r => exact ⟨sound.filed.live found, sound.filed.key found, .inl found⟩

include four in
theorem Recalled.silent (recalled : Recalled a4 r v before) (asleep : (v.host r).dormant = true) :
    Seen (fun q => ∀ m, (q.lookup4 a m).1 = .ok none) v before := by
  rcases recalled.still with found | ⟨-, -, seen⟩
  · refine .now fun m => ?_
    rw [lookup4_some four found, asleep]
    rfl
  · exact seen.mono fun q none m => lookup4_none four none m

theorem has_of_found (found : v.by4.get (v.offset a4) = some r) : Has a4 (v.host r).v6 v :=
  ⟨v.host r, Registry.view_eq_some.mpr ⟨r, found, rfl⟩, rfl⟩

variable {m m' : Memory} {past : List Memory}

theorem Seen.of_pools {X : Pool → Prop} (seen : Seen X m.pool (pools past)) :
    Seen (fun m => X m.pool) m past := by
  obtain ⟨q, member, holds⟩ := seen
  obtain ⟨w, among, rfl⟩ := List.mem_map.mp (show q ∈ (m :: past).map Memory.pool from member)
  exact ⟨w, among, holds⟩

/-- A host that was awake when it had the address `b`. The address that it has now goes with the
IPv4 address, or did so during the call. -/
structure Reached (a : Addr) (a4 : Bytes) (r : Ref) (b : Addr) (m : Memory) (past : List Memory) :
    Prop where
  live : r < m.pool.heap.next
  off : (m.pool.host r).off = m.pool.offset a4
  answer : Seen (fun m => ∀ o, (m.pool.lookup4 a o).1 = .ok (some b)) m past
  has : Seen (Concerns a4 (m.pool.host r).v6) m past

theorem Reached.evolves {b : Addr} (reached : Reached a a4 r b m past) (evolves : m.Evolves m') :
    Reached a a4 r b m' (m :: past) := by
  have off : (m'.pool.host r).off = m'.pool.offset a4 := by
    rw [evolves.pool.off reached.live, offset_evolves evolves.pool a4, reached.off]
  refine ⟨Nat.lt_of_lt_of_le reached.live evolves.pool.next, off, reached.answer.later m', ?_⟩
  by_cases same : (m'.pool.host r).v6 = (m.pool.host r).v6
  · rw [same]
    exact reached.has.later m'
  · refine .now (.inl (has_of_found ?_))
    rw [← off]
    exact evolves.pool.renamed reached.live same

include four in
theorem Recalled.reached (recalled : Recalled a4 r m.pool (pools past))
    (awake : (m.pool.host r).dormant = false) : Reached a a4 r (m.pool.host r).v6 m past := by
  have found := recalled.still.resolve_right fun lost =>
    absurd (awake.symm.trans lost.2.1) (by decide)
  refine ⟨recalled.live, recalled.off, .now fun o => ?_, .now (.inl (has_of_found found))⟩
  rw [lookup4_some four found, awake]
  rfl

/-- The words that can be read are those of hosts that had the address or are about to have it. -/
theorem Reached.words {b : Addr} (reached : Reached a a4 r b m past) (placed : m.Placed) :
    Drawn a4 Addr.Words.hi (m.v6Words r).hi m past ∧
      Drawn a4 Addr.Words.lo (m.v6Words r).lo m past ∧
      Drawn a4 Addr.Words.z (m.v6Words r).z m past := by
  refine Memory.v6Words_of reached.has fun h here same => .now (.inr ⟨h, here, rfl, ?_⟩)
  rw [← reached.off, ← same]
  exact placed h here

theorem growing_drawn {α : Type} (word : Addr.Words → α) (x : α) : Growing (Drawn a4 word x) :=
  fun _ m' _ ⟨b, seen, same⟩ => ⟨b, seen.later m', same⟩

/-- One word is read, and what has been read before is kept in mind. -/
theorem word_spec {α : Type} {b : Addr} {H : Memory → List Memory → Prop} (growing : Growing H)
    (word : Addr.Words → α) (drawn : ∀ m past, Reached a a4 r b m past → m.Placed →
      Drawn a4 word (word (m.v6Words r)) m past) :
    Unlocked t base (fun m past => Reached a a4 r b m past ∧ H m past)
      (Guarded.read fun m => word (m.v6Words r)) fun x m past =>
        Reached a a4 r b m past ∧ H m past ∧ Drawn a4 word x m past := by
  refine triple_read (fun m m' past holds evolves _ => ⟨holds.1.evolves evolves,
    growing _ _ _ holds.2⟩) fun m past holds placed => ?_
  exact ⟨holds.1.evolves (.refl m), growing _ _ _ holds.2,
    growing_drawn _ _ _ _ _ (drawn m past holds.1 placed)⟩

theorem copyV6_spec {b : Addr} :
    Unlocked t base (Reached a a4 r b) (copyV6 r) fun w m past =>
      Reached a a4 r b m past ∧ Drawn a4 Addr.Words.hi w.hi m past ∧
        Drawn a4 Addr.Words.lo w.lo m past ∧ Drawn a4 Addr.Words.z w.z m past := by
  refine Triple.mono (.bind (word_spec growing_true Addr.Words.hi fun m past reached placed =>
    (reached.words placed).1) fun hi => ?_) (fun s past holds => ⟨holds.1, holds.2.1, holds.2.2, trivial⟩)
      fun _ _ _ => id
  refine .bind (word_spec (growing_true.and (growing_drawn _ hi)) Addr.Words.lo
    fun m past reached placed => (reached.words placed).2.1) fun lo => ?_
  refine .bind (word_spec ((growing_true.and (growing_drawn _ hi)).and (growing_drawn _ lo))
    Addr.Words.z fun m past reached placed => (reached.words placed).2.2) fun z => .ret ?_
  rintro s past ⟨here, proper, reached, ⟨⟨-, one⟩, two⟩, three⟩
  exact ⟨here, proper, reached, one, two, three⟩

/-- If all that has been read is of one host, its whole address has been read. -/
theorem Drawn.whole {b : Addr} {w : Addr.Words} (one : Drawn a4 Addr.Words.hi w.hi m past)
    (two : Drawn a4 Addr.Words.lo w.lo m past) (three : Drawn a4 Addr.Words.z w.z m past)
    (only : ∀ c, Seen (Concerns a4 c) m past → c = b) : w = b.words := by
  obtain ⟨hi, lo, z⟩ := w
  obtain ⟨c, seen, rfl⟩ := one
  obtain ⟨d, seen', rfl⟩ := two
  obtain ⟨e, seen'', rfl⟩ := three
  rw [only c seen, only d seen', only e seen'']

/-- The host that has been found is asked whether it sleeps, and then for its address. -/
theorem found_spec (four : a.as4 = .ok a4) :
    Unlocked t base (OnPools .outside (Recalled a4 r))
      (do
        let dormant ← read fun p => (p.host r).dormant
        if dormant then return .ok none
        else
          let now ← clock
          write fun p => p.touch r now
          let v6 ← copyV6 r
          return .ok (some v6))
      (Answered4 a) := by
  have lasts : Lasts .outside (Recalled a4 r) :=
    lasts_evolves fun v v' before recalled => recalled.evolves
  refine .bind (M := fun dormant => Asserts (discipline base) t .outside fun m past =>
      if dormant = true then Seen (fun m => ∀ o, (m.pool.lookup4 a o).1 = .ok none) m past
      else ∃ b, Reached a a4 r b m past) (triple_read (f := fun m => (m.pool.host r).dormant)
    lasts.lasting fun m past holds _ => ?_) fun dormant => ?_
  · cases flag : (m.pool.host r).dormant with
    | true => exact (Seen.of_pools (Recalled.silent four holds.1 flag)).later m
    | false => exact ⟨_, (Recalled.reached four holds.1 flag).evolves (.refl m)⟩
  cases dormant with
  | true => exact .ret fun _ _ => id
  | false =>
    rintro s past ⟨here, proper, b, reached⟩
    have lasting : Lasting (discipline base) .outside (Reached a a4 r b) :=
      fun m m' past reached evolves _ => reached.evolves evolves
    have touched (m : Memory) (now : Int64) : m.Evolves { m with pool := m.pool.touch r now } :=
      .same (.touch m.pool r now) (same_touch m.pool r now)
    have touches (now : Int64) : Unlocked t base (Reached a a4 r b)
        (write fun p => p.touch r now) fun _ => Reached a a4 r b :=
      triple_quiet (f := fun _ m => ((), { m with pool := m.pool.touch r now })) lasting
        (fun o m => congrArg (·, m.handover) (same_touch m.pool r now))
        (fun o m past _ => touched m now) fun o m past reached _ => reached.evolves (touched m now)
    refine Triple.bind (triple_ask (Q := fun _ => Reached a a4 r b) lasting fun o m past =>
      lasting.again) (fun now => .bind (touches now) fun _ => .bind copyV6_spec fun w => .ret ?_)
      s past ⟨here, proper, reached⟩
    rintro s past ⟨here, proper, reached, one, two, three⟩
    refine ⟨here, proper, a4, four, ⟨b, reached.answer, ?_⟩, one, two, three⟩
    -- the words are all of one address, unless another one came into play
    by_cases other : ∃ b', b' ≠ b ∧ Seen (Concerns a4 b') s.value (values past)
    · exact .inr other
    · refine .inl (Drawn.whole one two three fun c seen => ?_)
      by_contra different
      exact other ⟨c, different, seen⟩

theorem lookup4_spec [DecidableEq τ] (a : Addr) :
    Unlocked t base (OnPools .outside fun _ _ => True) (lookup4 t a) (Answered4 a) := by
  unfold lookup4
  cases four : a.as4 with
  | error fault => exact .ret fun _ _ holds => ⟨holds.1, holds.2.1, four⟩
  | ok a4 =>
    have lasts {place : Station} (d : Option Ref) : Lasts place (Noted a a4 d) :=
      lasts_evolves fun v v' before noted => noted.evolves
    refine .bind (rLock_spec growing_true) fun _ => ?_
    rintro s past ⟨here, proper, ⟨q, ready, holds⟩, idle⟩
    have finds : Spec t base .reading (Holding q fun _ _ => True)
        (read fun p => p.by4.get (p.offset a4)) .reading (Noted a a4) :=
      .read (lasts_holding (by decide) growing_true) fun v before holds =>
        (Noted.of_get four (holds.1.sound.mpr ready.1)).evolves (.refl v)
    refine Triple.bind finds (fun d => .bind (rUnlock_spec (lasts d)) fun _ => ?_) s past
      ⟨here, proper, ⟨holds.1, trivial⟩, idle⟩
    cases d with
    | none => exact .ret fun _ _ holds => ⟨holds.1, holds.2.1, Seen.of_pools holds.2.2.1⟩
    | some r => exact found_spec four

end Lookup4

end Concurrent

end Clatto.Addrmap
