import Mathlib.Data.List.Induction

/-! Loops over a list that may stop with an error. -/

namespace Clatto

section Fold

variable {α β ε : Type} {f : β → α → Except ε β} {P : List α → β → Prop} {V : α → Prop}
  {start result : β} {l : List α}

theorem foldlM_concat_ok {b : β} (ran : l.foldlM f start = .ok b) (a : α) :
    (l ++ [a]).foldlM f start = f b a := by
  rw [List.foldlM_append, ran]
  show (f b a >>= fun b' => [].foldlM f b') = f b a
  cases f b a <;> rfl

theorem foldlM_concat_error {e : ε} (ran : l.foldlM f start = .error e) (a : α) :
    (l ++ [a]).foldlM f start = .error e := by
  rw [List.foldlM_append, ran]
  rfl

/-- What a loop that may stop with an error establishes, step by step. -/
theorem foldlM_ok (init : P [] start)
    (step : ∀ done b a b', V a → P done b → f b a = .ok b' → P (done ++ [a]) b')
    (valid : ∀ a ∈ l, V a) (ran : l.foldlM f start = .ok result) : P l result := by
  induction l using List.reverseRecOn generalizing result with
  | nil =>
    cases ran
    exact init
  | append_singleton l a ih =>
    cases before : l.foldlM f start with
    | error e =>
      rw [foldlM_concat_error before] at ran
      cases ran
    | ok b =>
      rw [foldlM_concat_ok before] at ran
      have reached := ih (fun o member => valid o (List.mem_append_left _ member)) before
      exact step l b a result (valid a (by simp)) reached ran

/-- A loop that accepts an element when it goes with all before it succeeds when any two
go together. -/
theorem foldlM_pairwise {R : α → α → Prop} (init : P [] start)
    (step : ∀ done b a b', V a → P done b → f b a = .ok b' → P (done ++ [a]) b')
    (accepts : ∀ done b a, V a → P done b → ((∃ b', f b a = .ok b') ↔ ∀ o ∈ done, R o a))
    (valid : ∀ a ∈ l, V a) : (∃ b, l.foldlM f start = .ok b) ↔ l.Pairwise R := by
  induction l using List.reverseRecOn with
  | nil => exact ⟨fun _ => .nil, fun _ => ⟨start, rfl⟩⟩
  | append_singleton l a ih =>
    have valid' : ∀ o ∈ l, V o := fun o member => valid o (List.mem_append_left _ member)
    rw [List.pairwise_append, ← ih valid']
    cases before : l.foldlM f start with
    | error e =>
      rw [foldlM_concat_error before]
      refine ⟨?_, ?_⟩
      · rintro ⟨b, ⟨⟩⟩
      · rintro ⟨⟨b, ⟨⟩⟩, -⟩
    | ok b =>
      have reached := foldlM_ok init step valid' before
      rw [foldlM_concat_ok before, accepts l b a (valid a (by simp)) reached]
      refine ⟨fun goes => ⟨⟨b, rfl⟩, List.pairwise_singleton _ _, fun o member n new => ?_⟩,
        fun goes o member => goes.2.2 o member a (List.mem_singleton_self _)⟩
      rw [List.mem_singleton.mp new]
      exact goes o member

end Fold

end Clatto
