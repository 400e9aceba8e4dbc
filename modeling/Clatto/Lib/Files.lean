import Mathlib.Logic.Function.Basic

/-! Replacing a file by way of a temporary one, call by call of the operating system: the new
text goes into a temporary file, which takes the name of the old file once it is complete. -/

namespace Clatto

abbrev Files (ν α : Type) := ν → Option (List α)

namespace Files

variable {ν α : Type}

/-- How a call of the operating system ends. A write may take only a part of what is left to
write; what a call that fails leaves of the temporary file is not known. -/
inductive Reply (α : Type) where
  | done (more : Nat)
  | failed (left : Option (List α))

/-- Where a replacement stands; the text is fixed when the writing begins. -/
inductive Phase (α : Type) where
  | opening
  | opened
  | writing (text left : List α)
  | closing (text : List α) (complete : Bool)
  | moving (text : List α)
  | removing
  | ended (text : Option (List α))

def Phase.text : Phase α → Option (List α)
  | .writing text _ => some text
  | .closing text _ => some text
  | .moving text => some text
  | .ended text => text
  | _ => none

/-- A directory in which a file is being replaced. -/
structure Replacement (ν α : Type) where
  files : Files ν α
  phase : Phase α

namespace Replacement

variable [DecidableEq ν] (tmp path : ν)

/-- The temporary file holds something else. -/
def put (r : Replacement ν α) (content : Option (List α)) (phase : Phase α) : Replacement ν α :=
  ⟨Function.update r.files tmp content, phase⟩

/-- The next call; `text` is what is to be written, should the writing begin now. -/
def step (text : List α) (reply : Reply α) (r : Replacement ν α) : Replacement ν α :=
  match r.phase, reply with
  | .opening, .done _ => r.put tmp (some []) .opened
  | .opening, .failed left => r.put tmp left (.ended none)
  | .opened, _ => { r with phase := .writing text text }
  | .writing text [], _ => { r with phase := .closing text true }
  | .writing text (c :: left), .done more =>
    r.put tmp (some ((r.files tmp).getD [] ++ (c :: left).take (more + 1)))
      (.writing text ((c :: left).drop (more + 1)))
  | .writing text (_ :: _), .failed left => r.put tmp left (.closing text false)
  | .closing text true, .done _ => { r with phase := .moving text }
  | .closing _ false, .done _ => { r with phase := .removing }
  | .closing _ _, .failed left => r.put tmp left .removing
  | .moving text, .done _ =>
    ⟨Function.update (Function.update r.files path (r.files tmp)) tmp none, .ended (some text)⟩
  | .moving _, .failed _ => { r with phase := .removing }
  | .removing, .done _ => r.put tmp none (.ended none)
  | .removing, .failed left => r.put tmp left (.ended none)
  | .ended _, _ => r

/-- What the temporary file holds while it is of use. -/
def Proper (r : Replacement ν α) : Prop :=
  match r.phase with
  | .opened => r.files tmp = some []
  | .writing text left => ∃ part, r.files tmp = some part ∧ part ++ left = text
  | .closing text true => r.files tmp = some text
  | .moving text => r.files tmp = some text
  | _ => True

variable {tmp path} {r : Replacement ν α}

/-- What one call can do to the file and to the text: a text is fixed, the file is replaced by
the whole of the text, or nothing of the kind. -/
inductive Change (path : ν) (text : List α) (reply : Reply α) (r r' : Replacement ν α) : Prop
  | fixed (before : r.phase = .opened) (file : r'.files path = r.files path)
      (after : r'.phase = .writing text text)
  | replaced (new : List α) (more : Nat) (before : r.phase = .moving new) (done : reply = .done more)
      (file : r'.files path = some new) (after : r'.phase = .ended (some new))
  | none (before : r.phase ≠ .opened) (still : ∀ new more, r.phase = .moving new → reply ≠ .done more)
      (file : r'.files path = r.files path)
      (after : r'.phase.text = r.phase.text ∨ r'.phase.text = none)

theorem step_change (apart : path ≠ tmp) (proper : r.Proper tmp) (text : List α)
    (reply : Reply α) :
    Change path text reply r (r.step tmp path text reply) := by
  obtain ⟨files, phase⟩ := r
  have other (content : Option (List α)) : Function.update files tmp content path = files path :=
    Function.update_of_ne apart ..
  cases phase with
  | opened => exact .fixed rfl rfl rfl
  | moving text =>
    cases reply with
    | failed left => exact .none nofun nofun rfl (.inr rfl)
    | done more =>
      refine .replaced text more rfl rfl ?_ rfl
      show Function.update (Function.update files path _) tmp none path = _
      rw [Function.update_of_ne apart, Function.update_self]
      exact proper
  | opening => cases reply <;> exact .none nofun nofun (other _) (.inr rfl)
  | writing text left =>
    cases left with
    | nil => exact .none nofun nofun rfl (.inl rfl)
    | cons c left => cases reply <;> exact .none nofun nofun (other _) (.inl rfl)
  | closing text complete =>
    cases reply with
    | failed left => cases complete <;> exact .none nofun nofun (other _) (.inr rfl)
    | done more =>
      cases complete with
      | true => exact .none nofun nofun rfl (.inl rfl)
      | false => exact .none nofun nofun rfl (.inr rfl)
  | removing => cases reply <;> exact .none nofun nofun (other _) (.inr rfl)
  | ended text => exact .none nofun nofun rfl (.inl rfl)

/-- The temporary file is complete when it takes the name of the file. -/
theorem step_proper (path : ν) (proper : r.Proper tmp) (text : List α) (reply : Reply α) :
    (r.step tmp path text reply).Proper tmp := by
  obtain ⟨files, phase⟩ := r
  have here (content : Option (List α)) : Function.update files tmp content tmp = content :=
    Function.update_self ..
  cases phase with
  | opening =>
    cases reply with
    | done more => exact here _
    | failed left => trivial
  | opened => exact ⟨[], proper, rfl⟩
  | writing text left =>
    obtain ⟨part, held, whole⟩ := proper
    dsimp only at held
    cases left with
    | nil =>
      rw [List.append_nil] at whole
      exact whole ▸ held
    | cons c left =>
      cases reply with
      | failed left => trivial
      | done more =>
        refine ⟨_, here _, ?_⟩
        dsimp only
        rw [held, Option.getD_some, List.append_assoc, List.take_append_drop]
        exact whole
  | closing text complete =>
    cases reply with
    | failed left => cases complete <;> trivial
    | done more =>
      cases complete with
      | true => exact proper
      | false => trivial
  | moving text => cases reply <;> trivial
  | removing => cases reply <;> trivial
  | ended text => trivial

end Replacement

end Files

end Clatto
