import Clatto.Lib.Bytes

/-! Computations over a hidden world that perform visible actions and may stop
with a fault. The actions are returned rather than stored, so a computation
can only add to what was observed before it. -/

namespace Clatto

/-- What one run of a computation gives back. A fault keeps the actions and the
world reached before it. -/
structure Outcome (σ ο α : Type) where
  result : Checked α
  acts : List ο
  world : σ

def Effect (σ ο α : Type) : Type := σ → Outcome σ ο α

namespace Effect

variable {σ ο α β γ : Type}

protected def pure (value : α) : Effect σ ο α := fun w => ⟨.ok value, [], w⟩

protected def bind (first : Effect σ ο α) (next : α → Effect σ ο β) : Effect σ ο β := fun w =>
  match first w with
  | ⟨.error fault, acts, w'⟩ => ⟨.error fault, acts, w'⟩
  | ⟨.ok value, acts, w'⟩ =>
    let rest := next value w'
    ⟨rest.result, acts ++ rest.acts, rest.world⟩

instance : Monad (Effect σ ο) where
  pure := Effect.pure
  bind := Effect.bind

/-- Run a checked computation; its fault becomes the fault of the whole. -/
def lift (value : Checked α) : Effect σ ο α := fun w => ⟨value, [], w⟩

def act (action : ο) : Effect σ ο Unit := fun w => ⟨.ok (), [action], w⟩

/-- Ask the world a question; the answer may depend on everything asked before. -/
def ask (question : σ → α × σ) : Effect σ ο α := fun w => ⟨.ok (question w).1, [], (question w).2⟩

theorem pure_run (value : α) (w : σ) : (pure value : Effect σ ο α) w = ⟨.ok value, [], w⟩ := rfl

theorem bind_run (first : Effect σ ο α) (next : α → Effect σ ο β) (w : σ) :
    (first >>= next) w =
      match first w with
      | ⟨.error fault, acts, w'⟩ => ⟨.error fault, acts, w'⟩
      | ⟨.ok value, acts, w'⟩ =>
        ⟨(next value w').result, acts ++ (next value w').acts, (next value w').world⟩ := rfl

theorem ask_run (question : σ → α × σ) (w : σ) :
    (ask question : Effect σ ο α) w = ⟨.ok (question w).1, [], (question w).2⟩ := rfl

@[simp] theorem lift_ok (value : α) : (lift (.ok value) : Effect σ ο α) = pure value := rfl

@[simp] theorem lift_error_bind (fault : Fault) (next : α → Effect σ ο β) :
    (lift (.error fault) : Effect σ ο α) >>= next = lift (.error fault) := rfl

protected theorem pure_bind (value : α) (next : α → Effect σ ο β) :
    (pure value : Effect σ ο α) >>= next = next value := by
  funext w
  simp [bind_run, pure_run]

protected theorem bind_pure (first : Effect σ ο α) : first >>= pure = first := by
  funext w
  rw [bind_run]
  rcases first w with ⟨_ | _, acts, w'⟩ <;> simp [pure_run]

protected theorem bind_assoc (first : Effect σ ο α) (second : α → Effect σ ο β)
    (third : β → Effect σ ο γ) :
    first >>= second >>= third = first >>= fun value => second value >>= third := by
  funext w
  rw [bind_run, bind_run, bind_run]
  rcases first w with ⟨_ | value, acts, w'⟩
  · rfl
  · dsimp only
    rw [bind_run]
    rcases second value w' with ⟨_ | _, acts', w''⟩ <;> simp

instance : LawfulMonad (Effect σ ο) :=
  LawfulMonad.mk' _ Effect.bind_pure Effect.pure_bind Effect.bind_assoc

theorem ask_bind_congr {question : σ → α × σ} {next next' : α → Effect σ ο β}
    (agree : ∀ w, next (question w).1 = next' (question w).1) :
    ask question >>= next = ask question >>= next' := by
  funext w
  rw [bind_run, bind_run, ask_run]
  dsimp only
  rw [agree w]

/-- Whatever the world, the actions and the result of a run satisfy `post`. -/
def Meets (program : Effect σ ο α) (post : List ο → Checked α → Prop) : Prop :=
  ∀ w, post (program w).acts (program w).result

section

variable {post : List ο → Checked α → Prop}

theorem Meets.mono {program : Effect σ ο α} {post' : List ο → Checked α → Prop}
    (meets : program.Meets post) (weaker : ∀ acts result, post acts result → post' acts result) :
    program.Meets post' := fun w => weaker _ _ (meets w)

theorem Meets.and {program : Effect σ ο α} {post' : List ο → Checked α → Prop}
    (left : program.Meets post) (right : program.Meets post') :
    program.Meets fun acts result => post acts result ∧ post' acts result :=
  fun w => ⟨left w, right w⟩

theorem meets_pure {value : α} (holds : post [] (.ok value)) :
    (pure value : Effect σ ο α).Meets post := fun _ => holds

theorem meets_act {action : ο} {post : List ο → Checked Unit → Prop}
    (holds : post [action] (.ok ())) : (act action : Effect σ ο Unit).Meets post := fun _ => holds

theorem meets_lift {value : Checked α} (holds : post [] value) :
    (lift value : Effect σ ο α).Meets post := fun _ => holds

theorem meets_bind {first : Effect σ ο β} {next : β → Effect σ ο α}
    (meets : first.Meets fun acts result =>
      match result with
      | .ok value => (next value).Meets fun acts' result => post (acts ++ acts') result
      | .error fault => post acts (.error fault)) : (first >>= next).Meets post := by
  intro w
  have reached := meets w
  rw [bind_run]
  rcases ran : first w with ⟨_ | value, acts, w'⟩
  · rw [ran] at reached
    exact reached
  · rw [ran] at reached
    exact reached w'

theorem meets_act_bind {action : ο} {next : Unit → Effect σ ο α}
    (meets : (next ()).Meets fun acts result => post (action :: acts) result) :
    (act action >>= next).Meets post := meets_bind (meets_act meets)

theorem meets_ask_bind {question : σ → β × σ} {next : β → Effect σ ο α}
    (meets : ∀ w, (next (question w).1).Meets post) : (ask question >>= next).Meets post :=
  meets_bind fun w => meets w

end

/-- From related worlds both computations do the same and end in related worlds. -/
def Agree {σ' : Type} (R : σ → σ' → Prop) (left : Effect σ ο α) (right : Effect σ' ο α) : Prop :=
  ∀ w w', R w w' → (left w).result = (right w').result ∧ (left w).acts = (right w').acts ∧
    R (left w).world (right w').world

section

variable {σ' : Type} {R : σ → σ' → Prop}

theorem agree_pure (value : α) : Agree R (pure value : Effect σ ο α) (pure value) :=
  fun _ _ related => ⟨rfl, rfl, related⟩

theorem agree_act (action : ο) : Agree R (act action) (act action) :=
  fun _ _ related => ⟨rfl, rfl, related⟩

theorem agree_lift (value : Checked α) : Agree R (lift value : Effect σ ο α) (lift value) :=
  fun _ _ related => ⟨rfl, rfl, related⟩

theorem Agree.bind {left : Effect σ ο β} {right : Effect σ' ο β} {next : β → Effect σ ο α}
    {next' : β → Effect σ' ο α} (first : Agree R left right)
    (rest : ∀ value, Agree R (next value) (next' value)) :
    Agree R (left >>= next) (right >>= next') := by
  intro w w' related
  obtain ⟨result, acts, related⟩ := first w w' related
  rw [bind_run, bind_run]
  generalize left w = one at result acts related ⊢
  generalize right w' = other at result acts related ⊢
  rcases one with ⟨_ | value, acts₁, w₁⟩ <;> rcases other with ⟨_ | value', acts₂, w₂⟩ <;>
    cases result
  · exact ⟨rfl, acts, related⟩
  · obtain ⟨result', acts', related'⟩ := rest value w₁ w₂ related
    exact ⟨result', congrArg₂ _ acts acts', related'⟩

/-- Answers need not be the same, as long as what follows does not depend on the difference. -/
theorem agree_ask_bind {γ' : Type} {question : σ → γ × σ} {question' : σ' → γ' × σ'}
    {S : γ → γ' → Prop} {next : γ → Effect σ ο α} {next' : γ' → Effect σ' ο α}
    (answers : ∀ w w', R w w' →
      S (question w).1 (question' w').1 ∧ R (question w).2 (question' w').2)
    (rest : ∀ value value', S value value' → Agree R (next value) (next' value')) :
    Agree R (ask question >>= next) (ask question' >>= next') := by
  intro w w' related
  obtain ⟨same, related⟩ := answers w w' related
  exact rest _ _ same _ _ related

theorem agree_ask {question : σ → β × σ} {question' : σ' → β × σ'} {next : β → Effect σ ο α}
    {next' : β → Effect σ' ο α}
    (answers : ∀ w w', R w w' →
      (question w).1 = (question' w').1 ∧ R (question w).2 (question' w').2)
    (rest : ∀ value, Agree R (next value) (next' value)) :
    Agree R (ask question >>= next) (ask question' >>= next') :=
  agree_ask_bind answers fun value _ same => same ▸ rest value

end

end Effect

end Clatto
