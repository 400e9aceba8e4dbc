import Mathlib.Logic.Function.Basic
import Mathlib.Logic.Relation

/-! Threads that share a state: programs that are cut into atomic steps, all ways in which
the steps of several programs can follow each other, and rules to reason about one program
when it is known what the others may do. -/

namespace Clatto

/-- A program over a shared state. Between two of its steps other threads may make theirs;
a step that is not enabled has to wait. `ω` is what a step finds around it besides the
shared state. -/
inductive Prog (ω σ α : Type) where
  | ret (value : α)
  | act (enabled : σ → Bool) (write : ω → σ → σ) (next : ω → σ → Prog ω σ α)

namespace Prog

variable {ω σ α β : Type}

def bind : Prog ω σ α → (α → Prog ω σ β) → Prog ω σ β
  | ret value, k => k value
  | act enabled write next, k => act enabled write fun o s => (next o s).bind k

instance : Monad (Prog ω σ) where
  pure := ret
  bind := bind

theorem bind_pure (m : Prog ω σ α) : m >>= pure = m := by
  change m.bind ret = m
  induction m with
  | ret value => rfl
  | act enabled write next ih =>
    rw [bind]
    congr 1
    funext o s
    exact ih o s

/-- One step that reads and writes the shared state. -/
def step (f : ω → σ → α × σ) : Prog ω σ α :=
  act (fun _ => true) (fun o s => (f o s).2) (fun o s => ret (f o s).1)

/-- One step that waits until it is enabled. -/
def await (enabled : σ → Bool) (write : σ → σ) : Prog ω σ Unit :=
  act enabled (fun _ => write) (fun _ _ => ret ())

def ask (f : ω → α) : Prog ω σ α := step fun o s => (f o, s)

def store (f : σ → σ) : Prog ω σ Unit := step fun _ s => ((), f s)

/-- The result of a program that nobody interrupts, unless it has to wait. -/
def alone (o : ω) : Prog ω σ α → σ → Option (α × σ)
  | ret value, s => some (value, s)
  | act enabled write next, s => if enabled s then (next o s).alone o (write o s) else none

theorem alone_bind (o : ω) (m : Prog ω σ α) (k : α → Prog ω σ β) (s : σ) :
    (m >>= k).alone o s = (m.alone o s).bind fun r => (k r.1).alone o r.2 := by
  change (m.bind k).alone o s = _
  induction m generalizing s with
  | ret value => rfl
  | act enabled write next ih =>
    simp only [bind, alone]
    split
    · exact ih o s _
    · rfl

end Prog

/-- What a thread can count on, and what it owes to the others. -/
structure Contract (σ : Type) where
  /-- What the others do to the state. -/
  rely : σ → σ → Prop
  /-- What the thread does to the state. -/
  guarantee : σ → σ → Prop
  /-- Where the thread may have to wait. -/
  waits : σ → Prop

section Rules

variable {ω σ α β : Type}

/-- A state with those before it, after some steps of the others. -/
inductive Grown (rely : σ → σ → Prop) (s : σ) (before : List σ) : σ → List σ → Prop
  | refl : Grown rely s before s before
  | step {s₁ s₂ : σ} {before₁ : List σ} (grown : Grown rely s before s₁ before₁)
      (change : rely s₁ s₂) : Grown rely s before s₂ (s₁ :: before₁)

/-- A program keeps its contract whatever the others do within theirs, and `Q` holds of its
result and of the states from now on. -/
def Prog.Safe (c : Contract σ) (Q : α → σ → List σ → Prop) :
    Prog ω σ α → σ → List σ → Prop
  | .ret value, s, before => Q value s before
  | .act enabled write next, s, before => ∀ s₁ before₁, Grown c.rely s before s₁ before₁ →
      (enabled s₁ = false → c.waits s₁) ∧ (enabled s₁ = true → ∀ o,
        c.guarantee s₁ (write o s₁) ∧ (next o s₁).Safe c Q (write o s₁) (s₁ :: before₁))

/-- Nothing that the others do makes an assertion false. -/
def Stable (c : Contract σ) (P : σ → List σ → Prop) : Prop :=
  ∀ s s' before, P s before → c.rely s s' → P s' (s :: before)

/-- From `P`, a program runs safely to `Q`. -/
def Triple (c : Contract σ) (P : σ → List σ → Prop) (m : Prog ω σ α)
    (Q : α → σ → List σ → Prop) : Prop :=
  ∀ s before, P s before → m.Safe c Q s before

variable {c : Contract σ} {P : σ → List σ → Prop}

theorem Stable.grown (stable : Stable c P) {s s' : σ} {before before' : List σ}
    (holds : P s before) (grown : Grown c.rely s before s' before') : P s' before' := by
  induction grown with
  | refl => exact holds
  | step _ change ih => exact stable _ _ _ ih change

theorem Grown.trans {rely : σ → σ → Prop} {s s₁ s₂ : σ} {before before₁ before₂ : List σ}
    (one : Grown rely s before s₁ before₁) (two : Grown rely s₁ before₁ s₂ before₂) :
    Grown rely s before s₂ before₂ := by
  induction two with
  | refl => exact one
  | step _ change ih => exact .step ih change

/-- Safety outlasts the steps of the others, as long as the program is not over. -/
theorem Prog.Safe.grown {enabled : σ → Bool} {write : ω → σ → σ} {next : ω → σ → Prog ω σ α}
    {Q : α → σ → List σ → Prop} {s s' : σ} {before before' : List σ}
    (safe : (Prog.act enabled write next).Safe c Q s before)
    (grown : Grown c.rely s before s' before') :
    (Prog.act enabled write next).Safe c Q s' before' :=
  fun s₁ before₁ later => safe s₁ before₁ (grown.trans later)

theorem Prog.Safe.bind {M : α → σ → List σ → Prop} {Q : β → σ → List σ → Prop} {m : Prog ω σ α}
    {k : α → Prog ω σ β} {s : σ} {before : List σ} (first : m.Safe c M s before)
    (second : ∀ a s before, M a s before → (k a).Safe c Q s before) :
    (m >>= k).Safe c Q s before := by
  change (m.bind k).Safe c Q s before
  induction m generalizing s before with
  | ret value => exact second value s before first
  | act enabled write next ih =>
    intro s₁ before₁ grown
    obtain ⟨waits, goes⟩ := first s₁ before₁ grown
    refine ⟨waits, fun ready o => ?_⟩
    obtain ⟨owed, rest⟩ := goes ready o
    exact ⟨owed, ih o s₁ rest⟩

namespace Triple

theorem ret {Q : α → σ → List σ → Prop} {value : α}
    (holds : ∀ s before, P s before → Q value s before) :
    Triple (ω := ω) c P (pure value) Q := holds

theorem bind {M : α → σ → List σ → Prop} {Q : β → σ → List σ → Prop} {m : Prog ω σ α}
    {k : α → Prog ω σ β} (first : Triple c P m M) (second : ∀ a, Triple c (M a) (k a) Q) :
    Triple c P (m >>= k) Q :=
  fun s before holds => (first s before holds).bind second

theorem mono {P' : σ → List σ → Prop} {Q Q' : α → σ → List σ → Prop} {m : Prog ω σ α}
    (triple : Triple c P m Q) (pre : ∀ s before, P' s before → P s before)
    (post : ∀ a s before, Q a s before → Q' a s before) : Triple c P' m Q' := by
  intro s before holds
  have safe := (triple s before (pre s before holds)).bind (k := pure) post
  rwa [Prog.bind_pure] at safe

theorem step {Q : α → σ → List σ → Prop} {f : ω → σ → α × σ} (stable : Stable c P)
    (does : ∀ o s before, P s before →
      c.guarantee s (f o s).2 ∧ Q (f o s).1 (f o s).2 (s :: before)) :
    Triple c P (Prog.step f) Q := by
  intro s before holds s₁ before₁ grown
  have now := stable.grown holds grown
  exact ⟨fun never => Bool.noConfusion never, fun _ o => does o s₁ before₁ now⟩

theorem await {Q : Unit → σ → List σ → Prop} {enabled : σ → Bool} {write : σ → σ}
    (stable : Stable c P) (waits : ∀ s before, P s before → enabled s = false → c.waits s)
    (does : ∀ s before, P s before → enabled s = true →
      c.guarantee s (write s) ∧ Q () (write s) (s :: before)) :
    Triple (ω := ω) c P (Prog.await enabled write) Q := by
  intro s before holds s₁ before₁ grown
  have now := stable.grown holds grown
  exact ⟨waits s₁ before₁ now, fun ready _ => does s₁ before₁ now ready⟩

end Triple

end Rules

/-- A call that has not begun, one that is under way with the states since it began, and one
that has returned, with all states from its beginning to its return. -/
inductive Thread (ω σ α : Type) where
  | idle (prog : Prog ω σ α)
  | busy (prog : Prog ω σ α) (before : List σ)
  | returned (value : α) (seen : List σ)

namespace Thread

variable {ω σ α : Type}

/-- A thread whose program has come to a state. -/
def settle (s : σ) (before : List σ) : Prog ω σ α → Thread ω σ α
  | .ret value => returned value (s :: before)
  | prog => busy prog before

/-- The result of a call that has returned. -/
def result : Thread ω σ α → Option α
  | returned value _ => some value
  | _ => none

theorem returned_of_result {t : Thread ω σ α} {value : α} (done : t.result = some value) :
    ∃ seen, t = .returned value seen := by
  cases t with
  | returned value' seen =>
    cases done
    exact ⟨seen, rfl⟩
  | idle => cases done
  | busy => cases done

def endure (s : σ) : Thread ω σ α → Thread ω σ α
  | busy prog before => busy prog (s :: before)
  | t => t

end Thread

/-- A shared state, and the threads by their names. -/
structure Ensemble (τ ω σ α : Type) where
  shared : σ
  threads : τ → Thread ω σ α

namespace Ensemble

variable {τ ω σ α : Type} [DecidableEq τ]

def start (s : σ) (progs : τ → Prog ω σ α) : Ensemble τ ω σ α := ⟨s, fun t => .idle (progs t)⟩

/-- A thread has come to a new state and goes on with the rest of its program. -/
def advance (c : Ensemble τ ω σ α) (t : τ) (before : List σ) (s : σ) (rest : Prog ω σ α) :
    Ensemble τ ω σ α :=
  ⟨s, Function.update (fun u => (c.threads u).endure c.shared) t
    (.settle s (c.shared :: before) rest)⟩

/-- Some thread begins, or makes the next step of its program. -/
inductive Step (c : Ensemble τ ω σ α) : Ensemble τ ω σ α → Prop
  | call {t : τ} {prog : Prog ω σ α} (here : c.threads t = .idle prog) :
      Step c ⟨c.shared, Function.update c.threads t (.settle c.shared [] prog)⟩
  | act {t : τ} {enabled : σ → Bool} {write : ω → σ → σ} {next : ω → σ → Prog ω σ α}
      {before : List σ} (here : c.threads t = .busy (.act enabled write next) before)
      (ready : enabled c.shared = true) (o : ω) :
      Step c (c.advance t before (write o c.shared) (next o c.shared))

/-- The next step of a thread, if it can make one. -/
def next (c : Ensemble τ ω σ α) (t : τ) (o : ω) : Option (Ensemble τ ω σ α) :=
  match c.threads t with
  | .idle prog => some ⟨c.shared, Function.update c.threads t (.settle c.shared [] prog)⟩
  | .busy (.act enabled write next) before =>
    if enabled c.shared then some (c.advance t before (write o c.shared) (next o c.shared)) else none
  | _ => none

/-- The threads make their steps as a schedule says. -/
def exec (c : Ensemble τ ω σ α) : List (τ × ω) → Option (Ensemble τ ω σ α)
  | [] => some c
  | (t, o) :: rest => (c.next t o).bind fun c => c.exec rest

def Enabled (c : Ensemble τ ω σ α) (t : τ) : Prop :=
  ∃ enabled write next before, c.threads t = .busy (.act enabled write next) before ∧
    enabled c.shared = true

/-- Any steps of any threads, in any order. -/
abbrev Run : Ensemble τ ω σ α → Ensemble τ ω σ α → Prop := Relation.ReflTransGen Step

theorem next_step {c c' : Ensemble τ ω σ α} {t : τ} {o : ω} (made : c.next t o = some c') :
    Step c c' := by
  unfold next at made
  split at made
  · rename_i prog here
    cases made
    exact .call here
  · rename_i enabled write next before here
    split at made
    · rename_i ready
      cases made
      exact .act here ready o
    · cases made
  · cases made

theorem waits_of_next {c : Ensemble τ ω σ α} {t : τ} {o : ω} (stuck : c.next t o = none)
    (unfinished : (c.threads t).result = none) :
    (∃ prog before, c.threads t = .busy prog before) ∧ ¬ c.Enabled t := by
  cases here : c.threads t with
  | idle prog =>
    rw [next, here] at stuck
    cases stuck
  | busy prog before =>
    refine ⟨⟨prog, before, rfl⟩, ?_⟩
    rintro ⟨enabled, write, rest, before', same, ready⟩
    rw [next, same] at stuck
    dsimp only at stuck
    rw [if_pos ready] at stuck
    cases stuck
  | returned value seen =>
    rw [here] at unfinished
    cases unfinished

theorem exec_run {c c' : Ensemble τ ω σ α} {schedule : List (τ × ω)}
    (made : c.exec schedule = some c') : Run c c' := by
  induction schedule generalizing c with
  | nil =>
    cases made
    exact .refl
  | cons turn rest ih =>
    obtain ⟨c₁, first, later⟩ := Option.bind_eq_some_iff.mp made
    exact .head (next_step first) (ih later)

/-- What is agreed between the threads: the contract and the purpose of each, and when a
thread is at rest. -/
structure Protocol (τ σ α : Type) where
  contract : τ → Contract σ
  post : τ → α → σ → List σ → Prop
  rest : τ → σ → Prop
  invariant : σ → Prop
  /-- What one thread does, the others count on. -/
  fits {t u : τ} {s s' : σ} : t ≠ u → (contract t).guarantee s s' → (contract u).rely s s'
  /-- Nobody disturbs a thread at rest. -/
  quiet {t u : τ} {s s' : σ} : t ≠ u → (contract t).guarantee s s' → rest u s → rest u s'
  keeps {t : τ} {s s' : σ} : (contract t).guarantee s s' → invariant s → invariant s'
  rests {t : τ} {a : α} {s : σ} {before : List σ} : post t a s before → rest t s

variable (π : Protocol τ σ α)

/-- Each thread is where its contract allows it to be. -/
def Good (c : Ensemble τ ω σ α) (t : τ) : Prop :=
  match c.threads t with
  | .idle prog => π.rest t c.shared ∧ Triple (π.contract t)
      (fun s before => π.invariant s ∧ π.rest t s ∧ before = []) prog (π.post t)
  | .busy prog before => (∀ value, prog ≠ .ret value) ∧
      prog.Safe (π.contract t) (π.post t) c.shared before
  | .returned value seen => π.rest t c.shared ∧ ∃ s before, seen = s :: before ∧ π.post t value s before

variable {π} {c c' : Ensemble τ ω σ α}

theorem good_settle {t : τ} {s : σ} {before : List σ} {prog : Prog ω σ α}
    {threads : τ → Thread ω σ α} (safe : prog.Safe (π.contract t) (π.post t) s before) :
    Good π ⟨s, Function.update threads t (.settle s before prog)⟩ t := by
  rw [Good]
  dsimp only
  rw [Function.update_self]
  cases prog with
  | ret value => exact ⟨π.rests safe, s, before, rfl, safe⟩
  | act enabled write next => exact ⟨fun _ same => (by cases same), safe⟩

theorem good_endure {t u : τ} {s' : σ} (other : t ≠ u)
    (owed : (π.contract t).guarantee c.shared s') (good : Good π c u) (th : Thread ω σ α) :
    Good π ⟨s', Function.update (fun u => (c.threads u).endure c.shared) t th⟩ u := by
  rw [Good] at good ⊢
  dsimp only
  rw [Function.update_of_ne other.symm]
  cases here : c.threads u with
  | idle prog =>
    rw [here] at good
    exact ⟨π.quiet other owed good.1, good.2⟩
  | busy prog before =>
    rw [here] at good
    obtain ⟨unfinished, safe⟩ := good
    refine ⟨unfinished, ?_⟩
    cases prog with
    | ret value => exact absurd rfl (unfinished value)
    | act enabled write next => exact safe.grown (.step .refl (π.fits other owed))
  | returned value seen =>
    rw [here] at good
    exact ⟨π.quiet other owed good.1, good.2⟩

theorem Step.good (step : Step c c') (invariant : π.invariant c.shared)
    (good : ∀ t, Good π c t) : π.invariant c'.shared ∧ ∀ t, Good π c' t := by
  cases step with
  | @call t prog here =>
    refine ⟨invariant, fun u => ?_⟩
    by_cases same : t = u
    · subst same
      have mine := good t
      rw [Good, here] at mine
      exact good_settle (mine.2 c.shared [] ⟨invariant, mine.1, rfl⟩)
    · have other := good u
      rw [Good] at other ⊢
      dsimp only
      rw [Function.update_of_ne (Ne.symm same)]
      exact other
  | @act t enabled write next before here ready o =>
    have mine := good t
    rw [Good, here] at mine
    obtain ⟨owed, safe⟩ := (mine.2 c.shared before .refl).2 ready o
    refine ⟨π.keeps owed invariant, fun u => ?_⟩
    by_cases same : t = u
    · subst same
      exact good_settle safe
    · exact good_endure same owed (good u) _

theorem Run.good (run : Run c c') (invariant : π.invariant c.shared) (good : ∀ t, Good π c t) :
    π.invariant c'.shared ∧ ∀ t, Good π c' t := by
  induction run with
  | refl => exact ⟨invariant, good⟩
  | tail _ step ih => exact step.good ih.1 ih.2

section Start

variable {s : σ} {progs : τ → Prog ω σ α} (invariant : π.invariant s) (rest : ∀ t, π.rest t s)
  (safe : ∀ t, Triple (π.contract t)
    (fun s before => π.invariant s ∧ π.rest t s ∧ before = []) (progs t) (π.post t))

include invariant rest safe

theorem start_good (run : Run (start s progs) c) :
    π.invariant c.shared ∧ ∀ t, Good π c t :=
  run.good invariant fun t => ⟨rest t, safe t⟩

/-- The invariant holds whichever way the steps of the threads follow each other. -/
theorem run_keeps (run : Run (start s progs) c) : π.invariant c.shared :=
  (start_good invariant rest safe run).1

theorem run_post (run : Run (start s progs) c) {t : τ} {value : α} {seen : List σ}
    (finished : c.threads t = .returned value seen) :
    ∃ s before, seen = s :: before ∧ π.post t value s before := by
  have good := (start_good invariant rest safe run).2 t
  rw [Good, finished] at good
  exact good.2

/-- If every thread that waits does so for one that is not at rest and has a lower rank, the calls
under way are never all stuck. -/
theorem run_proceeds (run : Run (start s progs) c) (rank : τ → σ → Nat)
    (waits : ∀ t s, (π.contract t).waits s → ∃ u, ¬ π.rest u s ∧ rank u s < rank t s)
    {t : τ} {prog : Prog ω σ α} {before : List σ} (busy : c.threads t = .busy prog before) :
    ∃ u, c.Enabled u := by
  have good := (start_good invariant rest safe run).2
  -- by the rank of a thread under way, since it waits for one that is under way, too
  generalize height : rank t c.shared = n
  induction n using Nat.strongRecOn generalizing t prog before with
  | ind n ih =>
    have mine := good t
    rw [Good, busy] at mine
    cases prog with
    | ret value => exact absurd rfl (mine.1 value)
    | act enabled write next =>
      cases ready : enabled c.shared with
      | true => exact ⟨t, enabled, write, next, before, busy, ready⟩
      | false =>
        obtain ⟨u, restless, lower⟩ := waits t _ ((mine.2 c.shared before .refl).1 ready)
        have other := good u
        rw [Good] at other
        cases here : c.threads u with
        | idle prog =>
          rw [here] at other
          exact absurd other.1 restless
        | busy prog' before' => exact ih _ (height ▸ lower) here rfl
        | returned value seen =>
          rw [here] at other
          exact absurd other.1 restless

end Start

end Ensemble

end Clatto
