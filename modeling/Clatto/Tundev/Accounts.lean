import Clatto.Tundev.Relay

/-! How long the engine goes on, and what it has counted by then. -/

namespace Clatto.Tundev

open Bytes Xlate

variable {σ : Type}

def Round.Failing (r : Round) : Prop := ∃ err, r.read = .failed err

/-- Whether failed reads stay few enough, when there have been `errors` of them in a row. -/
def Bearable : (errors : Nat) → List Round → Prop
  | _, [] => True
  | errors, r :: rounds =>
    match r.read with
    | .closed => False
    | .failed _ => r.cancelled = false ∧ errors + 1 ≤ 10 ∧ Bearable (errors + 1) rounds
    | .packets _ => Bearable 0 rounds

/-- Rounds that neither close the device nor fail once they are cancelled. -/
def Open (rounds : List Round) : Prop :=
  ∀ r ∈ rounds, r.read ≠ .closed ∧ (r.Failing → r.cancelled = false)

/-- Failed reads are borne as long as there are no eleven in a row. -/
theorem bearable_iff {errors : Nat} {rounds : List Round} (few : errors ≤ 10) :
    Bearable errors rounds ↔ Open rounds ∧
      (∀ l, l <+: rounds → (∀ r ∈ l, r.Failing) → errors + l.length ≤ 10) ∧
      ∀ l, l <:+: rounds → (∀ r ∈ l, r.Failing) → l.length ≤ 10 := by
  induction rounds generalizing errors with
  | nil => simp [Bearable, Open, few]
  | cons r rounds ih =>
    cases read : r.read with
    | closed =>
      have shut : ¬ Open (r :: rounds) := fun fine => (fine r List.mem_cons_self).1 read
      simp [Bearable, read, shut]
    | failed err =>
      have failing : r.Failing := ⟨err, read⟩
      have opened : Open (r :: rounds) ↔ r.cancelled = false ∧ Open rounds := by
        simp [Open, read, failing]
      rw [Bearable, read, opened]
      constructor
      · rintro ⟨active, fewer, bearable⟩
        obtain ⟨fine, start, inside⟩ := (ih fewer).mp bearable
        have first : ∀ l, l <+: r :: rounds → (∀ r ∈ l, r.Failing) → errors + l.length ≤ 10 := by
          intro l before all
          rcases List.prefix_cons_iff.mp before with rfl | ⟨l', rfl, within⟩
          · exact few
          · have := start l' within fun r member => all r (List.mem_cons_of_mem _ member)
            rw [List.length_cons]
            omega
        refine ⟨⟨active, fine⟩, first, fun l within all => ?_⟩
        rcases List.infix_cons_iff.mp within with before | later
        · exact (Nat.le_add_left _ _).trans (first l before all)
        · exact inside l later all
      · rintro ⟨⟨active, fine⟩, start, inside⟩
        have fewer : errors + 1 ≤ 10 := by
          simpa using start [r] (List.prefix_append [r] rounds) (by simpa using failing)
        refine ⟨active, fewer, (ih fewer).mpr ⟨fine, fun l before all => ?_, fun l within all => ?_⟩⟩
        · have := start (r :: l) (List.cons_prefix_cons.mpr ⟨rfl, before⟩)
            (List.forall_mem_cons.mpr ⟨failing, all⟩)
          rw [List.length_cons] at this
          omega
        · exact inside l (List.infix_cons within) all
    | packets batch =>
      have working : ¬ r.Failing := by
        rintro ⟨err, failed⟩
        cases read.symm.trans failed
      have opened : Open (r :: rounds) ↔ Open rounds := by
        simp [Open, read, working]
      rw [Bearable, read, opened]
      dsimp only
      rw [ih (Nat.zero_le _)]
      constructor
      · rintro ⟨fine, -, inside⟩
        have none : ∀ l, l <+: r :: rounds → (∀ r ∈ l, r.Failing) → l = [] := by
          intro l before all
          rcases List.prefix_cons_iff.mp before with rfl | ⟨l', rfl, -⟩
          · rfl
          · exact absurd (all r List.mem_cons_self) working
        refine ⟨fine, fun l before all => ?_, fun l within all => ?_⟩
        · rw [none l before all]
          exact few
        · rcases List.infix_cons_iff.mp within with before | later
          · rw [none l before all]
            exact Nat.zero_le _
          · exact inside l later all
      · rintro ⟨fine, -, inside⟩
        refine ⟨fine, fun l before all => ?_, fun l within all => inside l (List.infix_cons within) all⟩
        rw [Nat.zero_add]
        exact inside l (List.infix_cons before.isInfix) all

namespace Relay

variable (env : Env σ) {s : Relay σ}

theorem step_failed {r : Round} {err : String} (read : r.read = .failed err) :
    (s.step env r).1.offered = s.offered ∧
      ((s.step env r).2 = none ↔ r.cancelled = false ∧ s.consecutiveErrors + 1 ≤ 10) ∧
      (r.cancelled = false → (s.step env r).1.consecutiveErrors = s.consecutiveErrors + 1) ∧
      (s.step env r).1.stats = if r.cancelled then s.stats else s.stats.readError := by
  unfold step
  rw [read]
  dsimp only
  cases r.cancelled with
  | true => simp
  | false => simp

theorem step_packets {r : Round} {batch : List Bytes} (read : r.read = .packets batch) :
    (s.step env r).1.consecutiveErrors = 0 ∧ ∃ out : List Bytes,
      (out = [] ∧ (s.step env r).1.offered = s.offered ∧ (s.step env r).2 = none ∧
        (s.step env r).1.stats = batch.foldl Stats.received s.stats) ∨
      (s.step env r).1.offered = s.offered ++ [(r.write, out)] ∧
        ((s.step env r).2 = none ↔ r.write ≠ .closed) ∧
        (s.step env r).1.stats =
          match r.write with
          | .closed => batch.foldl Stats.received s.stats
          | .failed _ => (batch.foldl Stats.received s.stats).writeError
          | .done => (batch.foldl Stats.received s.stats).sent out := by
  unfold step
  rw [read]
  dsimp only
  generalize packets _ = out
  unfold flush
  by_cases none : out = []
  · rw [if_pos none]
    exact ⟨rfl, out, .inl ⟨none, rfl, rfl, rfl⟩⟩
  · rw [if_neg none]
    cases r.write with
    | done => exact ⟨rfl, out, .inr ⟨rfl, by simp, rfl⟩⟩
    | closed => exact ⟨rfl, out, .inr ⟨rfl, by simp, rfl⟩⟩
    | failed err => exact ⟨rfl, out, .inr ⟨rfl, by simp, rfl⟩⟩

theorem run_cons (r : Round) (rounds : List Round) : s.run env (r :: rounds) =
    if (s.step env r).2 = none then (s.step env r).1.run env rounds else s.step env r := by
  rw [run]
  rcases s.step env r with ⟨s', _ | ending⟩
  · exact (if_pos rfl).symm
  · exact (if_neg (by simp)).symm

/-- The engine goes on while reads do not fail too often and no write finds the device closed. -/
theorem run_none_iff {rounds : List Round} (fine : ∀ o ∈ s.offered, o.1 ≠ .closed) :
    (s.run env rounds).2 = none ↔ Bearable s.consecutiveErrors rounds ∧
      ∀ o ∈ (s.run env rounds).1.offered, o.1 ≠ .closed := by
  induction rounds generalizing s with
  | nil => simpa [run, Bearable] using fine
  | cons r rounds ih =>
    rw [run_cons]
    cases read : r.read with
    | closed =>
      have ended : (s.step env r).2 ≠ none := by simp [step, read]
      rw [if_neg ended, Bearable, read]
      simp [ended]
    | failed err =>
      obtain ⟨offered, goes, next, -⟩ := step_failed (s := s) env read
      rw [Bearable, read]
      by_cases on : (s.step env r).2 = none
      · obtain ⟨active, few⟩ := goes.mp on
        rw [if_pos on, ih (by rw [offered]; exact fine), next active]
        simp [active, few]
      · rw [if_neg on]
        simp only [on, false_iff, not_and]
        rintro ⟨active, few, -⟩
        exact absurd (goes.mpr ⟨active, few⟩) on
    | packets batch =>
      obtain ⟨errors, out, ⟨-, offered, on, -⟩ | ⟨offered, goes, -⟩⟩ := step_packets (s := s) env read
      · rw [if_pos on, ih (by rw [offered]; exact fine), errors, Bearable, read]
      · rw [Bearable, read]
        by_cases shut : r.write = .closed
        · have ended : (s.step env r).2 ≠ none := fun on => goes.mp on shut
          rw [if_neg ended]
          simp only [ended, false_iff, not_and]
          intro _ open'
          refine open' (r.write, out) ?_ shut
          rw [offered]
          exact List.mem_append_right _ (List.mem_singleton_self _)
        · have on := goes.mpr shut
          rw [if_pos on, ih ?_, errors]
          intro o member
          rw [offered, List.mem_append, List.mem_singleton] at member
          rcases member with old | rfl
          · exact fine o old
          · exact shut

end Relay

def Read.batch : Read → List Bytes
  | .packets batch => batch
  | _ => []

/-- Whether a failed read counts: the engine may have been cancelled before. -/
def Round.readFails (r : Round) : Bool :=
  match r.read with
  | .failed _ => !r.cancelled
  | _ => false

def Write.isFailed : Write → Bool
  | .failed _ => true
  | _ => false

def received (rounds : List Round) : List Bytes := rounds.flatMap (·.read.batch)

/-- The packets that the device has taken. -/
def delivered (offered : List (Write × List Bytes)) : List Bytes :=
  offered.flatMap fun o => if o.1 = .done then o.2 else []

def volume (l : List Bytes) : Nat := (l.map List.length).sum

/-- What the counters should say. They are machine words and start again after `2 ^ 64`. -/
def tally (rounds : List Round) (offered : List (Write × List Bytes)) : Stats where
  packetsIn := UInt64.ofNat (received rounds).length
  packetsOut := UInt64.ofNat (delivered offered).length
  bytesIn := UInt64.ofNat (volume (received rounds))
  bytesOut := UInt64.ofNat (volume (delivered offered))
  readErrors := UInt64.ofNat (rounds.countP (·.readFails))
  writeErrors := UInt64.ofNat (offered.countP (·.1.isFailed))

theorem volume_append (l m : List Bytes) : volume (l ++ m) = volume l + volume m := by
  simp [volume]

theorem Stats.foldl_received (batch : List Bytes) (s : Stats) :
    batch.foldl Stats.received s = { s with
      packetsIn := s.packetsIn + UInt64.ofNat batch.length
      bytesIn := s.bytesIn + UInt64.ofNat (volume batch) } := by
  induction batch generalizing s with
  | nil => simp [volume]
  | cons b batch ih =>
    rw [List.foldl_cons, ih]
    have bytes : volume (b :: batch) = b.length + volume batch := by simp [volume]
    rw [bytes, List.length_cons, Nat.add_comm batch.length, UInt64.ofNat_add, UInt64.ofNat_add,
      ← UInt64.add_assoc, ← UInt64.add_assoc]
    rfl

theorem Stats.sent_eq (batch : List Bytes) (s : Stats) :
    s.sent batch = { s with
      packetsOut := s.packetsOut + UInt64.ofNat batch.length
      bytesOut := s.bytesOut + UInt64.ofNat (volume batch) } := by
  have sum (start : UInt64) : batch.foldl (fun sum b => sum + UInt64.ofNat b.length) start =
      start + UInt64.ofNat (volume batch) := by
    induction batch generalizing start with
    | nil => simp [volume]
    | cons b batch ih =>
      have bytes : volume (b :: batch) = b.length + volume batch := by simp [volume]
      rw [List.foldl_cons, ih, bytes, UInt64.ofNat_add, ← UInt64.add_assoc]
  rw [Stats.sent, sum, UInt64.zero_add]

/-- The rounds that are played until one of them ends the run. -/
def played {ς : Type} (step : ς → Round → ς × Option Ending) : ς → List Round → List Round
  | _, [] => []
  | s, r :: rounds => r :: if (step s r).2 = none then played step (step s r).1 rounds else []

theorem played_prefix {ς : Type} (step : ς → Round → ς × Option Ending) (s : ς)
    (rounds : List Round) : played step s rounds <+: rounds := by
  induction rounds generalizing s with
  | nil => exact List.prefix_rfl
  | cons r rounds ih =>
    rw [played, List.prefix_cons_inj]
    split
    · exact ih _
    · exact List.nil_prefix

theorem Relay.step_counted (env : Env σ) {s : Relay σ} {rounds : List Round}
    (counted : s.stats = tally rounds s.offered) (r : Round) :
    (s.step env r).1.stats = tally (rounds ++ [r]) (s.step env r).1.offered := by
  have more : received (rounds ++ [r]) = received rounds ++ r.read.batch := by
    simp [received]
  have counts : (rounds ++ [r]).countP (·.readFails) =
      rounds.countP (·.readFails) + if r.readFails then 1 else 0 := by
    simp [List.countP_append, List.countP_singleton]
  cases read : r.read with
  | closed =>
    rw [step, read, tally, more, counts, Round.readFails, read]
    simpa [Read.batch, tally] using counted
  | failed err =>
    obtain ⟨offered, -, -, stats⟩ := step_failed (s := s) env read
    rw [stats, offered, counted, tally, tally, more, counts, Round.readFails, read]
    cases r.cancelled <;> simp [Stats.readError, Read.batch]
  | packets batch =>
    have fine : r.readFails = false := by rw [Round.readFails, read]
    obtain ⟨-, out, ⟨-, offered, -, stats⟩ | ⟨offered, -, stats⟩⟩ := step_packets (s := s) env read
    · rw [stats, offered, Stats.foldl_received, counted, tally, tally, more, counts, fine, read]
      simp [Read.batch, volume_append]
    · rw [stats, offered, Stats.foldl_received, counted, tally, tally, more, counts, fine, read]
      cases r.write with
      | closed => simp [Read.batch, volume_append, delivered, Write.isFailed]
      | failed err => simp [Stats.writeError, Read.batch, volume_append, delivered, Write.isFailed]
      | done => simp [Stats.sent_eq, Read.batch, volume_append, delivered, Write.isFailed]

theorem Relay.run_counted (env : Env σ) {s : Relay σ} {before : List Round}
    (counted : s.stats = tally before s.offered) (rounds : List Round) :
    (s.run env rounds).1.stats =
      tally (before ++ played (Relay.step env) s rounds) (s.run env rounds).1.offered := by
  induction rounds generalizing s before with
  | nil => simpa [run, played] using counted
  | cons r rounds ih =>
    have next := step_counted env counted r
    rw [run_cons, played]
    by_cases goes : (s.step env r).2 = none
    · rw [if_pos goes, if_pos goes]
      simpa using ih next
    · rw [if_neg goes, if_neg goes]
      exact next

theorem Relay.played_of_none (env : Env σ) {s : Relay σ} {rounds : List Round}
    (on : (s.run env rounds).2 = none) : played (Relay.step env) s rounds = rounds := by
  induction rounds generalizing s with
  | nil => rfl
  | cons r rounds ih =>
    rw [run_cons] at on
    by_cases goes : (s.step env r).2 = none
    · rw [if_pos goes] at on
      rw [played, if_pos goes, ih on]
    · rw [if_neg goes] at on
      exact absurd on goes

theorem Loop.played_bare (env : Env σ) {s : Loop σ} {rounds : List Round}
    (usable : ∀ r ∈ rounds, r.Usable) (idle : s.Idle) :
    played (Loop.step env) s rounds = played (Relay.step env.granting) s.bare rounds := by
  induction rounds generalizing s with
  | nil => rfl
  | cons r rounds ih =>
    have stepped : s.Stepped env r := Loop.step_stepped env (usable r List.mem_cons_self) idle
    rw [played, played, ← stepped.bare,
      ih (fun r member => usable r (List.mem_cons_of_mem _ member)) stepped.idle]

/-- The engine stops when the device is closed, when a read fails after it was cancelled, and
after eleven failed reads in a row; nothing else stops it. -/
theorem engine_goes_on_iff (env : Env σ) (w : σ) {rounds : List Round}
    (usable : ∀ r ∈ rounds, r.Usable) :
    let ran := Loop.run env rounds { world := w }
    ran.2 = none ↔ Open rounds ∧
      (∀ l, l <:+: rounds → (∀ r ∈ l, r.Failing) → l.length ≤ 10) ∧
      ∀ o ∈ ran.1.offered, o.1 ≠ .closed := by
  have bare := (Loop.run_ran env usable ⟨Slab.tidy_empty, rfl⟩ : Loop.Ran env { world := w } rounds).bare
  intro ran
  have ending : ran.2 = (Relay.run env.granting rounds { world := w }).2 := congrArg Prod.snd bare
  have offered : ran.1.offered = (Relay.run env.granting rounds { world := w }).1.offered :=
    congrArg (·.1.offered) bare
  rw [ending, offered, Relay.run_none_iff env.granting (by simp), bearable_iff (Nat.zero_le _)]
  constructor
  · rintro ⟨⟨fine, -, few⟩, shut⟩
    exact ⟨fine, few, shut⟩
  · rintro ⟨fine, few, shut⟩
    refine ⟨⟨fine, fun l before all => ?_, few⟩, shut⟩
    rw [Nat.zero_add]
    exact few l before.isInfix all

def failedRound : Round where
  read := .failed "interrupted system call"
  cancelled := false
  translator := .sample 1500 .calc
  write := .done

theorem failedRound_usable : failedRound.Usable := ⟨by decide, by decide, nofun⟩

/-- The eleventh is one too many. -/
theorem engine_goes_on_iff_failing :
    (Loop.run Env.constant (List.replicate 10 failedRound) { world := () }).2 = none ∧
      (Loop.run Env.constant (List.replicate 11 failedRound) { world := () }).2 ≠ none := by
  have usable (n : Nat) : ∀ r ∈ List.replicate n failedRound, r.Usable := by
    intro r member
    obtain rfl := List.eq_of_mem_replicate member
    exact failedRound_usable
  refine ⟨(engine_goes_on_iff Env.constant () (usable 10)).mpr ⟨?_, ?_, nofun⟩, fun on => ?_⟩
  · intro r member
    obtain rfl := List.eq_of_mem_replicate member
    exact ⟨nofun, fun _ => rfl⟩
  · intro l within _
    simpa using within.length_le
  · have few := ((engine_goes_on_iff Env.constant () (usable 11)).mp on).2.1 _ List.infix_rfl
    refine absurd (few fun r member => ?_) (by simp)
    obtain rfl := List.eq_of_mem_replicate member
    exact ⟨_, rfl⟩

/-- At any time, also when the engine has ended, the counters tell the packets and bytes that were
read, those that the device has taken, the reads that failed before it was cancelled and the
writes that failed. -/
theorem engine_counts (env : Env σ) (w : σ) {rounds : List Round} (usable : ∀ r ∈ rounds, r.Usable) :
    let ran := Loop.run env rounds { world := w }
    let played := played (Loop.step env) { world := w } rounds
    ran.1.stats = tally played ran.1.offered ∧ played <+: rounds ∧
      (ran.2 = none → played = rounds) := by
  have idle : ({ world := w } : Loop σ).Idle := ⟨Slab.tidy_empty, rfl⟩
  have bare := (Loop.run_ran env usable idle).bare
  have same := Loop.played_bare env usable idle
  have stats := congrArg (·.1.stats) bare
  have offered := congrArg (·.1.offered) bare
  refine ⟨?_, played_prefix .., fun on => ?_⟩
  · have counted := @Relay.run_counted σ env.granting { world := w } [] rfl rounds
    rw [same]
    exact stats.trans (counted.trans (congrArg (tally _) offered.symm))
  · rw [same]
    exact Relay.played_of_none env.granting ((congrArg Prod.snd bare).symm.trans on)

/-- A write fails between two others, then a read fails, before the engine is cancelled and
once more after it. -/
def troubled : List Round :=
  [expiredRound, { expiredRound with write := .failed "no buffer space available" }, expiredRound,
    failedRound, { failedRound with cancelled := true }, expiredRound]

theorem engine_counts_troubled :
    (Loop.run Env.constant troubled { world := () }).1.stats =
      ⟨3, 2, UInt64.ofNat (3 * expired.length), 112, 1, 1⟩ := by
  have usable : ∀ r ∈ troubled, r.Usable := by
    have read := expiredRound_usable
    have failed := failedRound_usable
    simp only [troubled, List.forall_mem_cons, List.not_mem_nil]
    exact ⟨read, ⟨read.low, read.high, read.short⟩, read, failed,
      ⟨failed.low, failed.high, failed.short⟩, read, nofun⟩
  have idle : ({ world := () } : Loop Unit).Idle := ⟨Slab.tidy_empty, rfl⟩
  have offered := congrArg (·.1.offered) (Loop.run_ran Env.constant usable idle).bare
  rw [(engine_counts Env.constant () usable).1, Loop.played_bare Env.constant usable idle]
  exact (congrArg (tally _) offered).trans (by decide +kernel)

end Clatto.Tundev
