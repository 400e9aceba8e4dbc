import Clatto.Tundev.Engine

/-! What the engine is for, without its buffers: every batch is translated packet by packet and
the results are written together. The engine does just that. -/

namespace Clatto.Tundev

open Bytes Xlate Effect

variable {σ : Type}

/-- The packets of a batch are translated one after the other. -/
def relay (env : Env σ) (t : Translator) : List Bytes → Xl σ Unit
  | [] => pure ()
  | raw :: batch => do
    translate env t raw
    relay env t batch

/-- An engine that has no buffers to look after. -/
structure Relay (σ : Type) where
  world : σ
  consecutiveErrors : Nat := 0
  stats : Stats := {}
  acts : List Action := []
  offered : List (Write × List Bytes) := []

namespace Relay

variable (env : Env σ) (s : Relay σ)

/-- What there is to be sent is offered to the device. -/
def flush (r : Round) (batch : List Bytes) : Relay σ × Option Ending :=
  if batch = [] then (s, none)
  else
    let s := { s with offered := s.offered ++ [(r.write, batch)] }
    match r.write with
    | .closed => (s, some (.context r.cancelled))
    | .failed _ => ({ s with stats := s.stats.writeError }, none)
    | .done => ({ s with stats := s.stats.sent batch }, none)

def step (r : Round) : Relay σ × Option Ending :=
  match r.read with
  | .closed => (s, some (.context r.cancelled))
  | .failed err =>
    if r.cancelled then (s, some (.context true))
    else
      let s := { s with
        stats := s.stats.readError
        consecutiveErrors := s.consecutiveErrors + 1 }
      (s, if s.consecutiveErrors > 10 then some (.device err) else none)
  | .packets batch =>
    let out := relay env r.translator batch s.world
    let s := { s with
      world := out.world
      consecutiveErrors := 0
      stats := batch.foldl Stats.received s.stats
      acts := s.acts ++ out.acts }
    s.flush r (packets out.acts)

def run : List Round → Relay σ → Relay σ × Option Ending
  | [], s => (s, none)
  | r :: rounds, s =>
    match s.step env r with
    | (s, none) => run rounds s
    | (s, some ending) => (s, some ending)

end Relay

def Loop.bare (s : Loop σ) : Relay σ where
  world := s.world
  consecutiveErrors := s.consecutiveErrors
  stats := s.stats
  acts := s.acts
  offered := s.offered

/-- A link that the translator can use, and packets that fit a buffer. -/
structure Round.Usable (r : Round) : Prop where
  low : mtuMin ≤ r.translator.cfg.mtu
  high : r.translator.cfg.mtu ≤ maxPacket
  short : ∀ batch, r.read = .packets batch → ∀ raw ∈ batch, raw.length ≤ maxPacket

/-- A batch has gone through the translator: nothing shows of the buffers, and what was sent
waits in them. -/
structure Loop.Pumped (s : Loop σ) (batch : List Bytes) (out : Outcome σ Action Unit)
    (s' : Loop σ) : Prop where
  bare : s'.bare = { s.bare with
    world := out.world
    stats := batch.foldl Stats.received s.stats
    acts := s.acts ++ out.acts }
  contents : s'.em.contents = s.em.contents ++ packets out.acts
  tidy : s'.em.Tidy
  made : s'.em.made = max s.em.made (s'.em.out.length)

section

variable (env : Env σ) {t : Translator} {s : Loop σ}

theorem length_contents (m : Emitter) : m.contents.length = m.out.length := List.length_map _

theorem Loop.pump_pumped (low : mtuMin ≤ t.cfg.mtu) (high : t.cfg.mtu ≤ maxPacket) {raw : Bytes}
    (short : raw.length ≤ maxPacket) (tidy : s.em.Tidy) :
    (s.pump env t raw).1 = .ok () ∧
      s.Pumped [raw] (translate env.granting t raw s.world) (s.pump env t raw).2 := by
  have relayed := translate_relayed env high short s.world s.em
  have returned := (translate_sound env.granting t raw s.world).2 low
  have taken : s.em.Taken _ (s.em.takes ((packets (translate env.granting t raw s.world).acts).map
    List.length)) := tidy.takes _
  have filled := Emitter.contents_fill tidy relayed.short
  unfold Loop.pump
  dsimp only
  rw [relayed.acts, relayed.world, relayed.taken, relayed.result]
  refine ⟨returned, rfl, filled, taken.tidy.write, ?_⟩
  obtain ⟨refs, out, same⟩ := taken.out
  change Slab.made (Slab.write _ _ _) = max _ (List.length (Slab.out (Slab.write _ _ _)))
  rw [Slab.made_write, taken.made]
  change _ = max _ (List.length (Slab.out (Emitter.takes _ _)))
  rw [out, List.length_append, List.length_zip, same, Nat.min_self]

theorem Loop.pumpAll_pumped (low : mtuMin ≤ t.cfg.mtu) (high : t.cfg.mtu ≤ maxPacket)
    {batch : List Bytes} (short : ∀ raw ∈ batch, raw.length ≤ maxPacket) (tidy : s.em.Tidy) :
    (Loop.pumpAll env t batch s).1 = .ok () ∧
      s.Pumped batch (relay env.granting t batch s.world) (Loop.pumpAll env t batch s).2 := by
  induction batch generalizing s with
  | nil =>
    have count := tidy.length
    refine ⟨rfl, ?_, ?_, tidy, ?_⟩
    · simp [Loop.pumpAll, Loop.bare, relay, pure_run]
    · simp [Loop.pumpAll, relay, pure_run, packets]
    · change s.em.made = max s.em.made s.em.out.length
      omega
  | cons raw batch ih =>
    obtain ⟨done, first⟩ := Loop.pump_pumped env low high
      (short raw List.mem_cons_self) tidy
    have returned := (translate_sound env.granting t raw s.world).2 low
    unfold Loop.pumpAll relay
    rw [bind_run]
    generalize s.pump env t raw = pumped at done first ⊢
    generalize translate env.granting t raw s.world = out at first returned ⊢
    obtain ⟨result, s₁⟩ := pumped
    obtain ⟨result', acts, w⟩ := out
    obtain rfl : result = .ok () := done
    obtain rfl : result' = .ok () := returned
    have world : s₁.world = w := congrArg Relay.world first.bare
    subst world
    obtain ⟨done, rest⟩ := ih (fun b member => short b (List.mem_cons_of_mem _ member)) first.tidy
    refine ⟨done, ?_, ?_, rest.tidy, ?_⟩
    · rw [rest.bare, first.bare]
      have stats : s₁.stats = s.stats.received raw := congrArg Relay.stats first.bare
      have acts' : s₁.acts = s.acts ++ acts := congrArg Relay.acts first.bare
      dsimp only
      rw [stats, acts', List.append_assoc, List.foldl_cons]
    · rw [rest.contents, first.contents, packets_append, List.append_assoc]
    · have grown := congrArg List.length rest.contents
      rw [List.length_append, length_contents, length_contents] at grown
      rw [rest.made, first.made]
      dsimp only at grown ⊢
      omega

theorem Loop.flush_bare (r : Round) :
    ((s.flush r).1.bare, (s.flush r).2) = s.bare.flush r s.em.contents := by
  unfold Loop.flush Relay.flush
  have empty : s.em.out = [] ↔ s.em.contents = [] := List.map_eq_nil_iff.symm
  by_cases none : s.em.out = []
  · rw [if_pos none, if_pos (empty.mp none)]
  · rw [if_neg none, if_neg (mt empty.mpr none)]
    cases r.write <;> rfl

/-- Between two rounds no buffer is in use. -/
structure Loop.Idle (s : Loop σ) : Prop where
  tidy : s.em.Tidy
  out : s.em.out = []

/-- How many packets the largest batch had. -/
def Loop.peak (s : Loop σ) : Nat := (s.offered.map (·.2.length)).foldl max 0

theorem Loop.flush_idle (r : Round) (tidy : s.em.Tidy) : (s.flush r).1.Idle := by
  unfold Loop.flush
  split
  · rename_i none
    exact ⟨tidy, none⟩
  · cases r.write with
    | done => exact ⟨tidy.giveBack, rfl⟩
    | closed => exact ⟨tidy.giveBack, rfl⟩
    | failed err => exact ⟨tidy.giveBack, rfl⟩

theorem Loop.flush_made (r : Round) {made : Nat} (grown : s.em.made = max made s.em.out.length)
    (before : made = s.peak) : (s.flush r).1.em.made = (s.flush r).1.peak := by
  unfold Loop.flush
  split
  · rename_i none
    rw [none, List.length_nil] at grown
    dsimp only
    omega
  · have peak (write : Write) : ((s.offered ++ [(write, s.em.contents)]).map (·.2.length)).foldl max 0 =
        max s.peak s.em.out.length := by
      rw [List.map_append, List.foldl_append, ← length_contents]
      rfl
    rw [before] at grown
    cases r.write with
    | done => exact grown.trans (peak _).symm
    | closed => exact grown.trans (peak _).symm
    | failed err => exact grown.trans (peak _).symm

structure Loop.Stepped (env : Env σ) (s : Loop σ) (r : Round) : Prop where
  bare : ((s.step env r).1.bare, (s.step env r).2) = s.bare.step env.granting r
  idle : (s.step env r).1.Idle
  made : s.em.made = s.peak → (s.step env r).1.em.made = (s.step env r).1.peak
  crash : ∀ fault, (s.step env r).2 ≠ some (.crash fault)

theorem Loop.flush_crash (r : Round) (fault : Fault) : (s.flush r).2 ≠ some (.crash fault) := by
  unfold Loop.flush
  split
  · exact nofun
  · cases r.write <;> exact nofun

theorem Loop.step_packets {r : Round} {batch : List Bytes} (read : r.read = .packets batch)
    (usable : r.Usable) (idle : s.Idle) : s.Stepped env r := by
  let s₀ : Loop σ := { s with consecutiveErrors := 0 }
  obtain ⟨done, pumped⟩ := Loop.pumpAll_pumped (s := s₀) env usable.low usable.high
    (usable.short batch read) idle.tidy
  have contents : s₀.em.contents = [] := List.map_eq_nil_iff.mpr idle.out
  have step : s.step env r = (Loop.pumpAll env r.translator batch s₀).2.flush r := by
    unfold Loop.step
    rw [read]
    dsimp only
    generalize Loop.pumpAll env r.translator batch s₀ = pumped at done ⊢
    obtain ⟨result, s₁⟩ := pumped
    obtain rfl : result = .ok () := done
    rfl
  generalize (Loop.pumpAll env r.translator batch s₀).2 = s₁ at pumped step
  refine ⟨?_, ?_, fun before => ?_, ?_⟩
  · rw [step, Loop.flush_bare, pumped.contents, contents, List.nil_append, pumped.bare, Relay.step,
      read]
    rfl
  · rw [step]
    exact Loop.flush_idle r pumped.tidy
  · rw [step]
    have offered : s₁.offered = s.offered := congrArg Relay.offered pumped.bare
    refine Loop.flush_made r pumped.made ?_
    rw [Loop.peak, offered]
    exact before
  · rw [step]
    exact Loop.flush_crash r

theorem Loop.step_unread {r : Round} (unread : ∀ batch, r.read ≠ .packets batch) :
    (s.step env r).1.em = s.em ∧ (s.step env r).1.offered = s.offered ∧
      ((s.step env r).1.bare, (s.step env r).2) = s.bare.step env.granting r ∧
      ∀ fault, (s.step env r).2 ≠ some (.crash fault) := by
  unfold Loop.step Relay.step
  cases read : r.read with
  | closed => exact ⟨rfl, rfl, rfl, nofun⟩
  | failed err =>
    dsimp only
    by_cases cancelled : r.cancelled = true
    · rw [if_pos cancelled, if_pos cancelled]
      exact ⟨rfl, rfl, rfl, nofun⟩
    · rw [if_neg cancelled, if_neg cancelled]
      by_cases many : s.consecutiveErrors + 1 > 10
      · rw [if_pos many]
        exact ⟨rfl, rfl, congrArg _ (if_pos many).symm, nofun⟩
      · rw [if_neg many]
        exact ⟨rfl, rfl, congrArg _ (if_neg many).symm, nofun⟩
  | packets batch => exact absurd read (unread batch)

theorem Loop.step_stepped {r : Round} (usable : r.Usable) (idle : s.Idle) : s.Stepped env r := by
  by_cases unread : ∀ batch, r.read ≠ .packets batch
  · obtain ⟨em, offered, bare, crash⟩ := Loop.step_unread (s := s) env unread
    refine ⟨bare, ⟨?_, ?_⟩, fun before => ?_, crash⟩
    · rw [em]
      exact idle.tidy
    · rw [em]
      exact idle.out
    · rw [em, Loop.peak, offered]
      exact before
  · obtain ⟨batch, read⟩ := not_forall_not.mp unread
    exact Loop.step_packets env read usable idle

structure Loop.Ran (env : Env σ) (s : Loop σ) (rounds : List Round) : Prop where
  bare : ((s.run env rounds).1.bare, (s.run env rounds).2) = s.bare.run env.granting rounds
  idle : (s.run env rounds).1.Idle
  made : s.em.made = s.peak → (s.run env rounds).1.em.made = (s.run env rounds).1.peak
  crash : ∀ fault, (s.run env rounds).2 ≠ some (.crash fault)

theorem Loop.run_ran {rounds : List Round} (usable : ∀ r ∈ rounds, r.Usable) (idle : s.Idle) :
    s.Ran env rounds := by
  induction rounds generalizing s with
  | nil => exact ⟨rfl, idle, id, nofun⟩
  | cons r rounds ih =>
    have stepped : s.Stepped env r := Loop.step_stepped env (usable r List.mem_cons_self) idle
    obtain ⟨bare, idle, made, crash⟩ := stepped
    cases ended : s.step env r with
    | mk s₁ ending =>
      rw [ended] at bare idle made crash
      cases ending with
      | some ending =>
        have run : s.run env (r :: rounds) = (s₁, some ending) := by rw [Loop.run, ended]
        refine ⟨?_, ?_, ?_, ?_⟩
        · rw [run, Relay.run, ← bare]
        · rw [run]
          exact idle
        · rw [run]
          exact made
        · rw [run]
          exact crash
      | none =>
        have rest : s₁.Ran env rounds :=
          ih (fun r member => usable r (List.mem_cons_of_mem _ member)) idle
        have run : s.run env (r :: rounds) = s₁.run env rounds := by rw [Loop.run, ended]
        refine ⟨?_, ?_, fun before => ?_, ?_⟩
        · rw [run, Relay.run, ← bare]
          exact rest.bare
        · rw [run]
          exact rest.idle
        · rw [run]
          exact rest.made (made before)
        · rw [run]
          exact rest.crash

end

/-- Whatever is left in the recycled buffers, the engine writes what the translator sends for
each packet, in order, and nothing else; it counts and ends like an engine without buffers,
and no packet crashes it. -/
theorem engine_refines (env : Env σ) (w : σ) {rounds : List Round} (usable : ∀ r ∈ rounds, r.Usable) :
    let ran := Loop.run env rounds { world := w }
    (ran.1.bare, ran.2) = Relay.run env.granting rounds { world := w } ∧
      ∀ fault, ran.2 ≠ some (.crash fault) := by
  have idle : ({ world := w } : Loop σ).Idle := ⟨Slab.tidy_empty, rfl⟩
  have ran := Loop.run_ran env usable idle
  exact ⟨ran.bare, ran.crash⟩

/-- A round in which a packet at the end of its life is read and answered. -/
def expiredRound : Round where
  read := .packets [expired]
  cancelled := false
  translator := .sample 1500 .calc
  write := .done

theorem expiredRound_usable : expiredRound.Usable := by
  refine ⟨by decide, by decide, ?_⟩
  rintro _ ⟨⟩ raw inside
  obtain rfl := List.mem_singleton.mp inside
  decide

/-- Two such rounds. The second one needs no further buffer. -/
def expiredTwice : List Round := [expiredRound, expiredRound]

theorem expiredTwice_usable : ∀ r ∈ expiredTwice, r.Usable := by
  simp [expiredTwice, expiredRound_usable]

theorem engine_refines_expired :
    ((Relay.run Env.constant.granting expiredTwice { world := () }).1.offered.map
        fun o => (o.1, o.2.map List.length)) = [(.done, [56]), (.done, [56])] ∧
      (Loop.run Env.constant expiredTwice { world := () }).1.bare =
        (Relay.run Env.constant.granting expiredTwice { world := () }).1 :=
  ⟨by decide +kernel,
    congrArg Prod.fst (engine_refines Env.constant () expiredTwice_usable).1⟩

/-- Between two rounds every buffer that was ever made is free, once, and there are as many as
the largest batch had packets. At any time of a round the buffers handed out for its packets so
far are distinct, and none of them is free. -/
theorem engine_buffers (env : Env σ) (w : σ) {rounds : List Round} (usable : ∀ r ∈ rounds, r.Usable) :
    let ran := (Loop.run env rounds { world := w }).1
    ran.em.out = [] ∧ ran.em.free.Perm (List.range ran.em.made) ∧ ran.em.made = ran.peak ∧
      ∀ (r : Round) (batch rest : List Bytes), r.Usable → r.read = .packets (batch ++ rest) →
        let em := (Loop.pumpAll env r.translator batch { ran with consecutiveErrors := 0 }).2.em
        (em.out.map Prod.fst).Nodup ∧ ∀ used ∈ em.out, used.1 ∉ em.free := by
  have idle : ({ world := w } : Loop σ).Idle := ⟨Slab.tidy_empty, rfl⟩
  have ran := Loop.run_ran env usable idle
  have tidy := ran.idle.tidy
  rw [Slab.Tidy, ran.idle.out] at tidy
  refine ⟨ran.idle.out, tidy, ran.made rfl, fun r batch rest able read => ?_⟩
  have short : ∀ raw ∈ batch, raw.length ≤ maxPacket :=
    fun raw member => able.short _ read raw (List.mem_append_left rest member)
  have pumped := (Loop.pumpAll_pumped (s := { (Loop.run env rounds { world := w }).1 with
    consecutiveErrors := 0 }) env able.low able.high short ran.idle.tidy).2
  exact ⟨pumped.tidy.nodup, fun used member => pumped.tidy.not_free member⟩

theorem engine_buffers_expired :
    let ran := (Loop.run Env.constant expiredTwice { world := () }).1
    ran.em.out = [] ∧ ran.em.free = [0] ∧
      ((Loop.pumpAll Env.constant expiredRound.translator [expired]
        { ran with consecutiveErrors := 0 }).2.em.out.map Prod.fst).Nodup := by
  have idle : ({ world := () } : Loop Unit).Idle := ⟨Slab.tidy_empty, rfl⟩
  have offered := congrArg (·.1.offered) (Loop.run_ran Env.constant expiredTwice_usable idle).bare
  obtain ⟨out, free, made, distinct⟩ := engine_buffers Env.constant () expiredTwice_usable
  have peak : (Loop.run Env.constant expiredTwice { world := () }).1.peak = 1 :=
    (congrArg (fun offered => (offered.map fun o => o.2.length).foldl max 0) offered).trans
      (by decide +kernel)
  rw [made, peak] at free
  exact ⟨out, List.perm_singleton.mp free,
    (distinct expiredRound [expired] [] expiredRound_usable rfl).1⟩

end Clatto.Tundev
