import Clatto.Addrmap.PoolAlone
import Clatto.Addrmap.PoolSnapshots

/-! A pool and any number of goroutines that use it: what holds at all times, and what each call
comes to, whichever way their steps follow each other. -/

namespace Clatto.Addrmap

open Netip Guarded Pool

namespace Concurrent

def Call.post : Call → Answer → Memory → List Memory → Prop
  | .lookup4 a, .words answer => Answered4 a answer
  | .lookup6 a allocate, .address answer => OnPools .outside (Answered6 a allocate answer)
  | .assignments, .list l => OnPools .outside (Seen (Lists l))
  | .stats, .stats s => OnPools .outside (Seen (Counts s))
  | .dirty, .dirty d => OnPools .outside (Seen fun q => q.dirty = d)
  | .save _, .saved hosts => OnPools .outside (Seen (Saves hosts))
  | .maintain, .none => OnPools .outside fun _ _ => True
  | .setLeases _ _, .none => OnPools .outside fun _ _ => True
  | .reserve _, .none => OnPools .outside fun _ _ => True
  | _, _ => fun _ _ => False

variable {τ : Type} [DecidableEq τ] {base : Pool}

theorem Call.spec (t : τ) (c : Call) :
    Unlocked t base (OnPools .outside fun _ _ => True) (c.proc t) c.post := by
  cases c with
  | lookup4 a => exact .bind (lookup4_spec a) fun answer => .ret fun _ _ => id
  | lookup6 a allocate => exact .bind (lookup6_spec a allocate) fun answer => .ret fun _ _ => id
  | maintain => exact .bind maintain_spec fun _ => .ret fun _ _ => id
  | setLeases minLease maxLease => exact .bind (setLeases_spec _ _) fun _ => .ret fun _ _ => id
  | assignments => exact .bind assignments_spec fun l => .ret fun _ _ => id
  | stats => exact .bind stats_spec fun s => .ret fun _ _ => id
  | dirty => exact .bind dirty_spec fun d => .ret fun _ _ => id
  | save failed => exact .bind (save_spec failed) fun hosts => .ret fun _ _ => id
  | reserve reserved => exact .bind (reserve_spec reserved) fun _ => .ret fun _ _ => id

/-- The states that a call has lived through. -/
abbrev Trace (τ : Type) := List (Guarded τ Memory)

abbrev Calls (τ : Type) := Ensemble τ Moment (Guarded τ Memory) Answer

section Runs

variable {p : Pool} {calls : τ → Call} {c : Calls τ}

def agreement (base : Pool) (calls : τ → Call) : Ensemble.Protocol τ (Guarded τ Memory) Answer :=
  protocol (discipline base) fun t => (calls t).post

omit [DecidableEq τ] in
theorem start_proper (sound : p.Sound) :
    Proper (discipline p) (.free ⟨p, none⟩ : Guarded τ Memory) :=
  proper_free (fun h here => by cases here) (sound_view.mpr ⟨⟨sound, .refl p⟩, rfl⟩)

theorem calls_safe (calls : τ → Call) (t : τ) : Triple (ω := Moment)
    ((agreement base calls).contract t) (fun s before =>
      (agreement base calls).invariant s ∧ (agreement base calls).rest t s ∧ before = [])
    ((calls t).proc t) ((agreement base calls).post t) := by
  rintro s before ⟨proper, outside, rfl⟩
  refine (calls t).spec t s [] ⟨outside, proper, trivial, fun inside => ?_⟩
  rcases inside with never | never <;> cases never

/-- The calls on a new pool, one step after the other as a schedule tells them. -/
def tried (pfx : Prefix) (calls : τ → Call) (schedule : List (τ × Moment)) : Option (Calls τ) :=
  (newPool pfx {}).toOption.bind fun p => (start p calls).exec schedule

theorem exists_tried (pfx : Prefix) (calls : τ → Call) (schedule : List (τ × Moment))
    (P : Calls τ → Bool) (tries : (tried pfx calls schedule).any P = true) :
    ∃ p c, newPool pfx {} = .ok p ∧ p.Sound ∧ Ensemble.Run (start p calls) c ∧ P c = true := by
  obtain ⟨c, ran, holds⟩ := (Option.any_eq_true _ _).mp tries
  obtain ⟨p, made, runs⟩ := Option.bind_eq_some_iff.mp ran
  have made : newPool pfx {} = .ok p := by
    cases new : newPool pfx {} with
    | error fault => simp [new, Except.toOption] at made
    | ok q =>
      rw [new] at made
      cases made
      rfl
  exact ⟨p, c, made, (newPool_sound made).1, Ensemble.exec_run runs, holds⟩

/-- An address whose halves are the same. -/
def twin (half : BitVec 64) : Addr := .v6 (half ++ half) ""

def rivals : Fin 2 → Call
  | 0 => .lookup6 (twin 1) true
  | 1 => .lookup6 (twin 2) true

/-- Both hosts are found missing before one of them asks for the lock, which it gets when the other
one has left it. -/
def rivalry (m : Moment) : List (Fin 2 × Moment) :=
  .replicate 3 (0, m) ++ .replicate 3 (1, m) ++ .replicate 4 (0, m) ++ .replicate 3 (1, m) ++
    .replicate 8 (0, m) ++ .replicate 9 (1, m)

/-- Whenever nobody holds the lock of a pool for writing, its maps and its bitmap describe the
same hosts, and what the observer has been told tells who has which address. -/
theorem interleaved_sound (sound : p.Sound) (run : Ensemble.Run (start p calls) c)
    (free : c.shared.writer = none) :
    c.shared.value.pool.Invariant ∧ ∃ es, c.shared.value.pool.obs = p.obs ++ es ∧
      c.shared.value.pool.ledger = es.foldl Ledger.note p.ledger := by
  have proper := Ensemble.run_keeps (π := agreement p calls) (start_proper sound) (outside_free _)
    (calls_safe calls) run
  obtain ⟨⟨sound, logged⟩, -⟩ := sound_view.mp (proper.sound free)
  exact ⟨sound.invariant, logged⟩

/-- Two new hosts get their addresses. -/
theorem interleaved_sound_rivals : ∃ p c, newPool (.of (.v4 0x0a000000#32) 30) {} = .ok p ∧
    Ensemble.Run (start p rivals) c ∧ c.shared.value.pool.mapped.entries.length = 2 ∧
    c.shared.value.pool.Invariant ∧ ∃ es, c.shared.value.pool.obs = p.obs ++ es ∧
      c.shared.value.pool.ledger = es.foldl Ledger.note p.ledger := by
  obtain ⟨p, c, made, sound, run, state⟩ := exists_tried (.of (.v4 0x0a000000#32) 30) rivals
    (rivalry (.second 0)) (fun c => c.shared.writer = none ∧ c.shared.value.pool.mapped.entries.length = 2)
    (by decide +kernel)
  obtain ⟨free, two⟩ := of_decide_eq_true state
  exact ⟨p, c, made, run, two, interleaved_sound sound run free⟩

/-- The calls of a pool never wait for each other without end: while one is under way, some
goroutine can make its next step. -/
theorem interleaved_proceeds (sound : p.Sound) (run : Ensemble.Run (start p calls) c) {t : τ}
    {prog : Prog Moment (Guarded τ Memory) Answer} {before : Trace τ}
    (busy : c.threads t = .busy prog before) : ∃ u, c.Enabled u :=
  Ensemble.run_proceeds (π := agreement p calls) (start_proper sound) (outside_free _)
    (calls_safe calls) run rank (fun _ _ => waits_rank) busy

/-- A reader that holds the lock, a writer that waits for it to leave, and another reader, which
the writer keeps out. -/
def contenders : Fin 3 → Call
  | 0 => .stats
  | 1 => .maintain
  | 2 => .stats

def contention (m : Moment) : List (Fin 3 × Moment) :=
  .replicate 3 (0, m) ++ .replicate 5 (1, m) ++ .replicate 2 (2, m)

/-- Only the reader that holds the lock can go on. -/
theorem interleaved_proceeds_contended : ∃ p c, newPool (.of (.v4 0x0a000000#32) 30) {} = .ok p ∧
    Ensemble.Run (start p contenders) c ∧ c.shared.readers = [0] ∧ c.shared.pending = some 1 ∧
    c.shared.queue = [2] ∧ ¬ c.Enabled 1 ∧ ¬ c.Enabled 2 ∧ ∃ u, c.Enabled u := by
  obtain ⟨p, c, made, sound, run, state⟩ := exists_tried (.of (.v4 0x0a000000#32) 30) contenders
    (contention (.second 0))
    (fun c => (c.shared.readers = [0] ∧ c.shared.pending = some 1 ∧ c.shared.queue = [2]) ∧
      ∀ t : Fin 3, t ≠ 0 → (c.next t (.second 0)).isNone ∧ (c.threads t).result = none)
    (by decide +kernel)
  obtain ⟨⟨inside, announced, queued⟩, stuck⟩ := of_decide_eq_true state
  have waits t (other : t ≠ 0) := Ensemble.waits_of_next (Option.isNone_iff_eq_none.mp
    (stuck t other).1) (stuck t other).2
  obtain ⟨prog, before, busy⟩ := (waits 2 (by decide)).1
  exact ⟨p, c, made, run, inside, announced, queued, (waits 1 (by decide)).2,
    (waits 2 (by decide)).2, interleaved_proceeds sound run busy⟩

theorem run_answers (sound : p.Sound) (run : Ensemble.Run (start p calls) c) {t : τ}
    {answer : Answer} {seen : Trace τ} (finished : c.threads t = .returned answer seen) :
    ∃ m past, values seen = m :: past ∧ (calls t).post answer m past := by
  obtain ⟨s, before, rfl, here, proper, post⟩ := Ensemble.run_post (π := agreement p calls)
    (start_proper sound) (outside_free _) (calls_safe calls) run finished
  exact ⟨s.value, values before, rfl, post⟩

/-- A lookup of an IPv4 address finds the host that had it at some moment of the call, or none
when there was none. If the address passes from one host to another meanwhile, the answer may be
made of both. -/
theorem lookup4_interleaved (sound : p.Sound) (run : Ensemble.Run (start p calls) c) {t : τ}
    {a : Addr} (called : calls t = .lookup4 a) {answer : Answer} {seen : Trace τ}
    (finished : c.threads t = .returned answer seen) :
    ∃ result m past, answer = .words result ∧ values seen = m :: past ∧
      Answered4 a result m past := by
  obtain ⟨m, past, trace, post⟩ := run_answers sound run finished
  rw [called] at post
  cases answer with
  | words result => exact ⟨result, m, past, rfl, trace, post⟩
  | _ => exact post.elim

/-- A host gets the only address of a pool and sleeps, and another one takes the address over while
the answer to a lookup is read. -/
def heirs : Fin 4 → Call
  | 0 => .lookup6 (twin 1) true
  | 1 => .lookup4 (.v4 0x0a000001#32)
  | 2 => .maintain
  | 3 => .lookup6 (twin 2) true

def succession (early late : Moment) : List (Fin 4 × Moment) :=
  .replicate 15 (0, early) ++ .replicate 8 (1, early) ++ .replicate 12 (2, late) ++
    .replicate 15 (3, late) ++ .replicate 3 (1, late)

/-- The answer has one half of each host's address. -/
theorem lookup4_interleaved_torn : ∃ p c w seen m past,
    newPool (.of (.v4 0x0a000000#32) 31) {} = .ok p ∧ Ensemble.Run (start p heirs) c ∧
    c.threads 1 = .returned (.words (.ok (some w))) seen ∧ w.hi = (twin 2).words.hi ∧
    w.lo = (twin 1).words.lo ∧ values seen = m :: past ∧
    Answered4 (.v4 0x0a000001#32) (.ok (some w)) m past := by
  obtain ⟨p, c, made, sound, run, state⟩ := exists_tried (.of (.v4 0x0a000000#32) 31) heirs
    (succession (.second 0) (.second 10000))
    (fun c => (c.threads 1).result = some (.words (.ok (some ⟨2, 1, .z6 ""⟩))))
    (by decide +kernel)
  obtain ⟨seen, finished⟩ := Thread.returned_of_result (of_decide_eq_true state)
  obtain ⟨result, m, past, same, trace, answered⟩ := lookup4_interleaved sound run rfl finished
  cases same
  exact ⟨p, c, _, seen, m, past, made, run, finished, by decide, by decide, trace, answered⟩

/-- A lookup of an IPv6 address answers with what it had at some moment of the call. If it asks for
an address in vain, then at some moment no host was asleep, and every address was taken or has been
withheld during the call. -/
theorem lookup6_interleaved (sound : p.Sound) (run : Ensemble.Run (start p calls) c) {t : τ}
    {a : Addr} {allocate : Bool} (called : calls t = .lookup6 a allocate) {answer : Answer}
    {seen : Trace τ} (finished : c.threads t = .returned answer seen) :
    ∃ result, answer = .address result ∧
      (∀ v4, result = some v4 → ∃ q ∈ pools (values seen), ∀ m, (q.lookup6 a false m).1 = some v4) ∧
      (result = none → allocate = false → ∃ q ∈ pools (values seen), ∀ m, (q.lookup6 a false m).1 = none) ∧
      (result = none → allocate = true → ∃ q ∈ pools (values seen), q.Unknown a ∧
        (∀ off d, q.table off = some d → d.dormant = false) ∧
        ∀ off, q.InRange off → q.table off ≠ none ∨
          ∃ w ∈ pools (values seen), w.reserved (q.addr off) = true) := by
  obtain ⟨m, past, trace, post⟩ := run_answers sound run finished
  rw [called] at post
  rw [trace]
  cases answer with
  | address result =>
    refine ⟨result, rfl, fun v4 some => ?_, fun none never => ?_, fun none will => ?_⟩
    · exact (post.1.found v4 some).mono fun q found m => (lookup6_false q a m).trans found
    · exact (post.1.missing none never).mono fun q found m => (lookup6_false q a m).trans found
    · exact Seen.mono (post.1.exhausted none will) fun q holds => holds.2
  | _ => exact post.elim

/-- Each of two new hosts gets an address of its own. -/
theorem lookup6_interleaved_rivals : ∃ p c seen seen',
    newPool (.of (.v4 0x0a000000#32) 30) {} = .ok p ∧ Ensemble.Run (start p rivals) c ∧
    c.threads 0 = .returned (.address (some (.v4 0x0a000002#32))) seen ∧
    c.threads 1 = .returned (.address (some (.v4 0x0a000001#32))) seen' ∧
    (∃ q ∈ pools (values seen), ∀ m, (q.lookup6 (twin 1) false m).1 = some (.v4 0x0a000002#32)) ∧
    ∃ q ∈ pools (values seen'), ∀ m, (q.lookup6 (twin 2) false m).1 = some (.v4 0x0a000001#32) := by
  obtain ⟨p, c, made, sound, run, state⟩ := exists_tried (.of (.v4 0x0a000000#32) 30) rivals
    (rivalry (.second 0)) (fun c => (c.threads 0).result = some (.address (some (.v4 0x0a000002#32))) ∧
      (c.threads 1).result = some (.address (some (.v4 0x0a000001#32)))) (by decide +kernel)
  obtain ⟨one, other⟩ := of_decide_eq_true state
  obtain ⟨seen, finished⟩ := Thread.returned_of_result one
  obtain ⟨seen', finished'⟩ := Thread.returned_of_result other
  obtain ⟨result, same, found, -, -⟩ := lookup6_interleaved sound run rfl finished
  obtain ⟨result', same', found', -, -⟩ := lookup6_interleaved sound run rfl finished'
  cases same
  cases same'
  exact ⟨p, c, seen, seen', made, run, finished, finished', found _ rfl, found' _ rfl⟩

/-- What is listed, saved or counted of a pool is its state at one moment of the call. -/
theorem snapshots_interleaved (sound : p.Sound) (run : Ensemble.Run (start p calls) c) {t : τ}
    {answer : Answer} {seen : Trace τ} (finished : c.threads t = .returned answer seen) :
    (calls t = .assignments → ∃ l, answer = .list l ∧ ∃ q ∈ pools (values seen), Lists l q) ∧
      (∀ failed, calls t = .save failed →
        ∃ hosts, answer = .saved hosts ∧ ∃ q ∈ pools (values seen), Saves hosts q) ∧
      (calls t = .stats → ∃ s, answer = .stats s ∧ ∃ q ∈ pools (values seen), Counts s q) := by
  obtain ⟨m, past, trace, post⟩ := run_answers sound run finished
  rw [trace]
  refine ⟨fun called => ?_, fun failed called => ?_, fun called => ?_⟩
  · rw [called] at post
    cases answer with
    | list l => exact ⟨l, rfl, post.1⟩
    | _ => exact post.elim
  · rw [called] at post
    cases answer with
    | saved hosts => exact ⟨hosts, rfl, post.1⟩
    | _ => exact post.elim
  · rw [called] at post
    cases answer with
    | stats s => exact ⟨s, rfl, post.1⟩
    | _ => exact post.elim

/-- A new host, and somebody who wants to see the hosts. -/
def onlookers : Fin 2 → Call
  | 0 => .lookup6 (twin 1) true
  | 1 => .assignments

def onlooking (m : Moment) : List (Fin 2 × Moment) :=
  .replicate 8 (0, m) ++ .replicate 2 (1, m) ++ .replicate 7 (0, m) ++ .replicate 5 (1, m)

/-- The onlooker comes while the host gets its address, waits, and sees it. -/
theorem snapshots_interleaved_listed : ∃ p c seen x, newPool (.of (.v4 0x0a000000#32) 30) {} = .ok p ∧
    Ensemble.Run (start p onlookers) c ∧ c.threads 1 = .returned (.list [x]) seen ∧
    x.ipv4 = .v4 0x0a000002#32 ∧ x.ipv6 = twin 1 ∧ ∃ q ∈ pools (values seen), Lists [x] q := by
  obtain ⟨p, c, made, sound, run, state⟩ := exists_tried (.of (.v4 0x0a000000#32) 30) onlookers
    (onlooking (.second 0))
    (fun c => (c.threads 1).result =
      some (.list [⟨.v4 0x0a000002#32, twin 1, 0, false⟩])) (by decide +kernel)
  obtain ⟨seen, finished⟩ := Thread.returned_of_result (of_decide_eq_true state)
  obtain ⟨l, same, lists⟩ := (snapshots_interleaved sound run finished).1 rfl
  cases same
  exact ⟨p, c, seen, _, made, run, finished, rfl, rfl, lists⟩

/-- Taken alone, the steps of a call make up the call: it never waits, and comes to the same answer
and the same pool. -/
theorem uninterrupted (t : τ) (p : Pool) (m : Moment) :
    (∀ a, (lookup4 t a).alone m (.free ⟨p, none⟩) =
      some ((p.lookup4 a m).1.map (Option.map Addr.words), .free ⟨(p.lookup4 a m).2, none⟩)) ∧
    (∀ a allocate, (lookup6 t a allocate).alone m (.free ⟨p, none⟩) =
      some ((p.lookup6 a allocate m).1, .free ⟨(p.lookup6 a allocate m).2, none⟩)) ∧
    (maintain t).alone m (.free ⟨p, none⟩) = some ((), .free ⟨p.maintain m, none⟩) :=
  ⟨fun a => alone_lookup4 m a, fun a allocate => alone_lookup6 m a allocate, alone_maintain m⟩

end Runs

end Concurrent

end Clatto.Addrmap
