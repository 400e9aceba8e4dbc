import Mathlib.Data.List.Infix

/-! Computations that go on after an error: the errors are collected, and remarks with
them. -/

namespace Clatto

structure Collected (σ ε ω α : Type) where
  value : α
  state : σ
  errs : List ε
  remarks : List ω

/-- A computation sees the errors before it and never takes one back. Nobody sees the
remarks before the end. -/
structure Collect (σ ε ω α : Type) where
  run : σ → List ε → Collected σ ε ω α
  grows : ∀ s errs, errs <+: (run s errs).errs

namespace Collect

variable {σ ε ω α β : Type}

protected def pure (value : α) : Collect σ ε ω α where
  run s errs := ⟨value, s, errs, []⟩
  grows _ _ := List.prefix_rfl

protected def bind (first : Collect σ ε ω α) (next : α → Collect σ ε ω β) : Collect σ ε ω β where
  run s errs :=
    let reached := first.run s errs
    let rest := (next reached.value).run reached.state reached.errs
    { rest with remarks := reached.remarks ++ rest.remarks }
  grows s errs := (first.grows s errs).trans ((next _).grows _ _)

instance : Monad (Collect σ ε ω) where
  pure := Collect.pure
  bind := Collect.bind

def fail (err : ε) : Collect σ ε ω Unit where
  run s errs := ⟨(), s, errs ++ [err], []⟩
  grows _ _ := List.prefix_append _ _

def remark (text : ω) : Collect σ ε ω Unit where
  run s errs := ⟨(), s, errs, [text]⟩
  grows _ _ := List.prefix_rfl

def when (condition : Prop) [Decidable condition] (action : Collect σ ε ω Unit) :
    Collect σ ε ω Unit :=
  if condition then action else pure ()

def attempt (text : String → ε) (change : σ → Except String σ) : Collect σ ε ω Unit where
  run s errs :=
    match change s with
    | .ok s' => ⟨(), s', errs, []⟩
    | .error problem => ⟨(), s, errs ++ [text problem], []⟩
  grows s errs := by
    split
    · exact List.prefix_rfl
    · exact List.prefix_append _ _

def clean : Collect σ ε ω Bool where
  run s errs := ⟨errs.isEmpty, s, errs, []⟩
  grows _ _ := List.prefix_rfl

/-- The same computation with another value. -/
protected def map (change : α → β) (program : Collect σ ε ω α) : Collect σ ε ω β where
  run s errs :=
    let reached := program.run s errs
    ⟨change reached.value, reached.state, reached.errs, reached.remarks⟩
  grows := program.grows

theorem map_pure (change : α → β) (value : α) :
    (pure value : Collect σ ε ω α).map change = pure (change value) := rfl

theorem map_bind {γ : Type} (change : β → γ) (first : Collect σ ε ω α) (next : α → Collect σ ε ω β) :
    (first >>= next).map change = first >>= fun value => (next value).map change := rfl

theorem pure_bind (value : α) (next : α → Collect σ ε ω β) :
    (pure value : Collect σ ε ω α) >>= next = next value := rfl

def Passes (program : Collect σ ε ω α) (s : σ) (value : α) (s' : σ) : Prop :=
  ∃ remarks, program.run s [] = ⟨value, s', [], remarks⟩

theorem passes_of_errs {program : Collect σ ε ω α} {s : σ} (clean : (program.run s []).errs = []) :
    program.Passes s (program.run s []).value (program.run s []).state := by
  refine ⟨(program.run s []).remarks, ?_⟩
  rcases ran : program.run s [] with ⟨value, s', errs, remarks⟩
  rw [ran] at clean
  obtain rfl : errs = [] := clean
  rfl

theorem passes_map {change : α → β} {program : Collect σ ε ω α} {s s' : σ} {value : β} :
    (program.map change).Passes s value s' ↔
      ∃ before, program.Passes s before s' ∧ change before = value := by
  constructor
  · rintro ⟨remarks, ran⟩
    simp only [Collect.map, Collected.mk.injEq] at ran
    obtain ⟨rfl, rfl, clean, -⟩ := ran
    exact ⟨_, passes_of_errs clean, rfl⟩
  · rintro ⟨before, ⟨remarks, ran⟩, rfl⟩
    refine ⟨remarks, ?_⟩
    simp only [Collect.map, ran]

theorem passes_pure {value value' : α} {s s' : σ} :
    (pure value : Collect σ ε ω α).Passes s value' s' ↔ value = value' ∧ s = s' := by
  constructor
  · rintro ⟨remarks, ran⟩
    exact ⟨congrArg Collected.value ran, congrArg Collected.state ran⟩
  · rintro ⟨rfl, rfl⟩
    exact ⟨[], rfl⟩

theorem passes_bind {first : Collect σ ε ω α} {next : α → Collect σ ε ω β} {s s' : σ} {value : β} :
    (first >>= next).Passes s value s' ↔
      ∃ between t, first.Passes s between t ∧ (next between).Passes t value s' := by
  constructor
  · rintro ⟨remarks, ran⟩
    change (Collect.bind first next).run s [] = _ at ran
    simp only [Collect.bind] at ran
    rcases begun : first.run s [] with ⟨between, t, errs, before⟩
    rw [begun] at ran
    rcases ended : (next between).run t errs with ⟨value', s'', errs', after⟩
    simp only [ended, Collected.mk.injEq] at ran
    obtain ⟨rfl, rfl, rfl, -⟩ := ran
    have none : errs = [] := by
      have grown := (next between).grows t errs
      rw [ended] at grown
      exact List.prefix_nil.mp grown
    subst none
    exact ⟨between, t, ⟨before, begun⟩, after, ended⟩
  · rintro ⟨between, t, ⟨remarks, ran⟩, more, ran'⟩
    refine ⟨remarks ++ more, ?_⟩
    show (Collect.bind first next).run s [] = _
    simp only [Collect.bind, ran, ran']

theorem passes_fail {err : ε} {u : Unit} {s s' : σ} :
    ¬ (fail err : Collect σ ε ω Unit).Passes s u s' := by
  rintro ⟨remarks, ran⟩
  exact absurd (congrArg Collected.errs ran) (List.cons_ne_nil _ _)

theorem passes_remark {text : ω} {u : Unit} {s s' : σ} :
    (remark text : Collect σ ε ω Unit).Passes s u s' ↔ s = s' := by
  constructor
  · rintro ⟨remarks, ran⟩
    exact congrArg Collected.state ran
  · rintro rfl
    exact ⟨[text], rfl⟩

theorem passes_when {condition : Prop} [Decidable condition] {action : Collect σ ε ω Unit}
    {u : Unit} {s s' : σ} :
    (when condition action).Passes s u s' ↔
      (condition → action.Passes s u s') ∧ (¬ condition → s = s') := by
  rw [when]
  split
  case isTrue holds => simp [holds]
  case isFalse fails => simp [fails, passes_pure]

theorem passes_attempt {text : String → ε} {change : σ → Except String σ} {u : Unit} {s s' : σ} :
    (attempt text change : Collect σ ε ω Unit).Passes s u s' ↔ change s = .ok s' := by
  constructor
  · rintro ⟨remarks, ran⟩
    simp only [attempt] at ran
    split at ran
    case h_1 s₁ changed =>
      have same : s₁ = s' := congrArg Collected.state ran
      rw [changed, same]
    case h_2 => exact absurd (congrArg Collected.errs ran) (List.cons_ne_nil _ _)
  · intro changed
    refine ⟨[], ?_⟩
    simp only [attempt, changed]

theorem passes_clean {answer : Bool} {s s' : σ} :
    (clean : Collect σ ε ω Bool).Passes s answer s' ↔ answer = true ∧ s = s' := by
  constructor
  · rintro ⟨remarks, ran⟩
    exact ⟨(congrArg Collected.value ran).symm, congrArg Collected.state ran⟩
  · rintro ⟨rfl, rfl⟩
    exact ⟨[], rfl⟩

end Collect

end Clatto
