import Mathlib.Data.List.Basic

/-! Programs that change a state by calls, any of which may be refused. What was done
before a program stops with an error stays done. -/

namespace Clatto

/-- A state, and the calls that are going to be refused for no reason of the state's own. -/
structure World (κ : Type) where
  state : κ
  faults : Nat → Option String
  calls : Nat := 0

def World.Quiet {κ : Type} (w : World κ) : Prop := ∀ n, w.faults n = none

def Faulty (κ α : Type) : Type := World κ → Except String α × World κ

namespace Faulty

variable {κ χ ε α β : Type}

protected def pure (value : α) : Faulty κ α := fun w => (.ok value, w)

protected def bind (first : Faulty κ α) (next : α → Faulty κ β) : Faulty κ β := fun w =>
  match first w with
  | (.error message, w') => (.error message, w')
  | (.ok value, w') => next value w'

instance : Monad (Faulty κ) where
  pure := Faulty.pure
  bind := Faulty.bind

def fail (message : String) : Faulty κ α := fun w => (.error message, w)

/-- One call. A refusal reaches the caller as an error, like the answers of the state. -/
def call (refused : String → ε) (operation : κ → Except ε (α × κ)) : Faulty κ (Except ε α) :=
  fun w =>
    match w.faults w.calls with
    | some reason => (.ok (.error (refused reason)), { w with calls := w.calls + 1 })
    | none =>
      match operation w.state with
      | .error problem => (.ok (.error problem), { w with calls := w.calls + 1 })
      | .ok (answer, state) => (.ok (.ok answer), { w with state, calls := w.calls + 1 })

theorem pure_run (value : α) (w : World κ) : (pure value : Faulty κ α) w = (.ok value, w) := rfl

theorem bind_run (first : Faulty κ α) (next : α → Faulty κ β) (w : World κ) :
    (first >>= next) w =
      match first w with
      | (.error message, w') => (.error message, w')
      | (.ok value, w') => next value w' := rfl

theorem bind_of_error {first : Faulty κ α} {next : α → Faulty κ β} {w w' : World κ}
    {message : String} (failed : first w = (.error message, w')) :
    (first >>= next) w = (.error message, w') := by
  rw [bind_run, failed]

theorem bind_of_ok {first : Faulty κ α} {next : α → Faulty κ β} {w w' : World κ} {value : α}
    (done : first w = (.ok value, w')) : (first >>= next) w = next value w' := by
  rw [bind_run, done]

def after (make : χ → κ → κ) (changes : List χ) (k : κ) : κ := changes.foldl (fun k c => make c k) k

theorem after_append (make : χ → κ → κ) (first second : List χ) (k : κ) :
    after make (first ++ second) k = after make second (after make first k) :=
  List.foldl_append

/-- The program makes these changes in this order. If it stops early, which takes a refused
call, it has made the first of them. -/
def Performs (make : χ → κ → κ) (ready : κ → Prop) (program : Faulty κ α) (changes : List χ)
    (post : α → Prop) : Prop :=
  ∀ w, ready w.state → (program w).2.faults = w.faults ∧
    ∃ made, made <+: changes ∧ (program w).2.state = after make made w.state ∧
      match (program w).1 with
      | .ok value => made = changes ∧ post value
      | .error _ => ¬ w.Quiet

section

variable {make : χ → κ → κ} {ready : κ → Prop} {changes : List χ} {post : α → Prop}
  {program : Faulty κ α} {w : World κ}

theorem Performs.returns (performs : Performs make ready program changes post)
    (start : ready w.state) (quiet : w.Quiet) : ∃ value, (program w).1 = .ok value := by
  obtain ⟨-, made, -, -, outcome⟩ := performs w start
  cases result : (program w).1 with
  | ok value => exact ⟨value, rfl⟩
  | error message =>
    rw [result] at outcome
    exact absurd quiet outcome

theorem Performs.state (performs : Performs make ready program changes post)
    (start : ready w.state) {value : α} (returned : (program w).1 = .ok value) :
    (program w).2.state = after make changes w.state := by
  obtain ⟨-, made, -, reached, outcome⟩ := performs w start
  rw [returned] at outcome
  rw [reached, outcome.1]

theorem Performs.quiet (performs : Performs make ready program changes post)
    (start : ready w.state) (quiet : w.Quiet) : (program w).2.Quiet := by
  intro n
  rw [(performs w start).1]
  exact quiet n

theorem performs_pure {value : α} (holds : post value) :
    Performs make ready (pure value) [] post := by
  intro w _
  exact ⟨rfl, [], List.prefix_rfl, rfl, rfl, holds⟩

theorem after_ready (stays : ∀ c k, ready k → ready (make c k)) (changes : List χ) {k : κ}
    (start : ready k) : ready (after make changes k) := by
  induction changes generalizing k with
  | nil => exact start
  | cons c changes ih => exact ih (stays c k start)

theorem performs_seq {ready' : κ → Prop} {next : α → Faulty κ β} {more : List χ} {post' : β → Prop}
    (leads : ∀ k, ready k → ready' (after make changes k))
    (first : Performs make ready program changes post)
    (second : ∀ value, post value → Performs make ready' (next value) more post') :
    Performs make ready (program >>= next) (changes ++ more) post' := by
  intro w start
  obtain ⟨same, made, begun, reached, outcome⟩ := first w start
  rcases run : program w with ⟨result, w'⟩
  rw [run] at same reached outcome
  cases result with
  | error message =>
    rw [bind_of_error run]
    exact ⟨same, made, begun.trans (List.prefix_append _ _), reached, outcome⟩
  | ok value =>
    obtain ⟨rfl, holds⟩ := outcome
    rw [bind_of_ok run]
    have start' : ready' w'.state := by
      rw [show w'.state = after make made w.state from reached]
      exact leads w.state start
    obtain ⟨same', made', begun', reached', outcome'⟩ := second value holds w' start'
    refine ⟨same'.trans same, made ++ made', List.prefix_append_right_inj _ |>.mpr begun', ?_, ?_⟩
    · rw [reached', after_append]
      exact congrArg _ reached
    · cases result : (next value w').1 with
      | ok value' =>
        rw [result] at outcome'
        exact ⟨congrArg _ outcome'.1, outcome'.2⟩
      | error message =>
        rw [result] at outcome'
        intro quiet
        refine outcome' fun n => ?_
        rw [show w'.faults = w.faults from same]
        exact quiet n

theorem performs_bind (stays : ∀ c k, ready k → ready (make c k)) {next : α → Faulty κ β}
    {more : List χ} {post' : β → Prop} (first : Performs make ready program changes post)
    (second : ∀ value, post value → Performs make ready (next value) more post') :
    Performs make ready (program >>= next) (changes ++ more) post' :=
  performs_seq (fun _ => after_ready stays changes) first second

/-- What is left to do may depend on what was read from the state. A refusal ends the program
or is passed over. -/
theorem performs_read {refused : String → ε} {read : κ → α} {next : Except ε α → Faulty κ β}
    {post : β → Prop}
    (stops : ∀ reason, (∃ message, next (.error (refused reason)) = fail message) ∨
      ∀ k, ready k → Performs make (· = k) (next (.error (refused reason))) changes post)
    (goes : ∀ k, ready k → Performs make (· = k) (next (.ok (read k))) changes post) :
    Performs make ready (call refused (fun k => .ok (read k, k)) >>= next) changes post := by
  intro w start
  cases fault : w.faults w.calls with
  | some reason =>
    have run : call refused (fun k => .ok (read k, k)) w =
        (.ok (.error (refused reason)), { w with calls := w.calls + 1 }) := by
      rw [call, fault]
    rw [bind_of_ok run]
    rcases stops reason with ⟨message, stopped⟩ | passed
    · rw [stopped]
      refine ⟨rfl, [], List.nil_prefix, rfl, fun quiet => ?_⟩
      rw [quiet w.calls] at fault
      cases fault
    · exact passed w.state start { w with calls := w.calls + 1 } rfl
  | none =>
    have run : call refused (fun k => .ok (read k, k)) w =
        (.ok (.ok (read w.state)), { w with calls := w.calls + 1 }) := by
      rw [call, fault]
    rw [bind_of_ok run]
    exact goes w.state start { w with calls := w.calls + 1 } rfl

/-- A call that ends the program when it is refused, and changes the state otherwise. -/
theorem performs_call {refused : String → ε} {operation : κ → Except ε (α × κ)}
    {next : Except ε α → Faulty κ β} {post : β → Prop}
    (stops : ∀ reason, ∃ message, next (.error (refused reason)) = fail message)
    (goes : ∀ k, ready k → ∃ value, post value ∧
      match operation k with
      | .ok (answer, k') => next (.ok answer) = pure value ∧ k' = after make changes k
      | .error problem => next (.error problem) = pure value ∧ k = after make changes k) :
    Performs make ready (call refused operation >>= next) changes post := by
  intro w start
  cases fault : w.faults w.calls with
  | some reason =>
    have run : call refused operation w =
        (.ok (.error (refused reason)), { w with calls := w.calls + 1 }) := by
      rw [call, fault]
    obtain ⟨message, stopped⟩ := stops reason
    rw [bind_of_ok run, stopped]
    refine ⟨rfl, [], List.nil_prefix, rfl, fun quiet => ?_⟩
    rw [quiet w.calls] at fault
    cases fault
  | none =>
    obtain ⟨value, holds, going⟩ := goes w.state start
    cases answered : operation w.state with
    | error problem =>
      have run : call refused operation w =
          (.ok (.error problem), { w with calls := w.calls + 1 }) := by
        rw [call, fault]
        simp only [answered]
      rw [answered] at going
      rw [bind_of_ok run, going.1]
      exact ⟨rfl, changes, List.prefix_rfl, going.2, rfl, holds⟩
    | ok answer =>
      obtain ⟨answer, k'⟩ := answer
      have run : call refused operation w =
          (.ok (.ok answer), { w with state := k', calls := w.calls + 1 }) := by
        rw [call, fault]
        simp only [answered]
      rw [answered] at going
      rw [bind_of_ok run, going.1]
      exact ⟨rfl, changes, List.prefix_rfl, going.2, rfl, holds⟩

theorem performs_forM (stays : ∀ c k, ready k → ready (make c k)) {each : β → Faulty κ PUnit}
    {change : β → χ} {elements : List β}
    (performs : ∀ b ∈ elements, Performs make ready (each b) [change b] fun _ => True) :
    Performs make ready (elements.forM each) (elements.map change) fun _ => True := by
  induction elements with
  | nil => exact performs_pure trivial
  | cons b elements ih =>
    exact performs_bind stays (performs b List.mem_cons_self) fun _ _ =>
      ih fun b' member => performs b' (List.mem_cons_of_mem _ member)

theorem performs_option {each : β → Faulty κ PUnit} {changes : β → List χ} (element : Option β)
    (performs : ∀ b, Performs make ready (each b) (changes b) fun _ => True) :
    Performs make ready (element.forM each) (element.toList.flatMap changes) fun _ => True := by
  cases element with
  | none => exact performs_pure trivial
  | some b =>
    rw [Option.toList_some, List.flatMap_singleton]
    exact performs b

end

end Faulty

end Clatto
