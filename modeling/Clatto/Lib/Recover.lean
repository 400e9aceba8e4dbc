import Mathlib.Data.List.Basic
import Mathlib.Data.Set.Basic
import Clatto.Lib.Reconcile

/-! Reconciling again and again, when a plan may be given up halfway: what is recorded as
applied is only what the last plan that was finished was for. -/

namespace Clatto.Reconcile

variable {κ ν : Type} [DecidableEq κ]

def Has (entries : List (κ × ν)) (k : κ) : Prop := ∃ v, (k, v) ∈ entries

/-- A map, what it is recorded to hold, the entries that were attempted in vain since then,
and the keys that attempts in vain have put where there was nothing. -/
structure Course (κ ν : Type) where
  map : κ → Option ν
  applied : List (κ × ν)
  failed : List (List (κ × ν)) := []
  installed : Set κ := ∅

namespace Course

/-- An attempt at `next` that was given up after some of its writes. -/
def giveUp (c : Course κ ν) (next : List (κ × ν)) (made : List (κ × Option ν)) : Course κ ν where
  map := writeAll made c.map
  applied := c.applied
  failed := next :: c.failed
  installed := c.installed ∪ {k | c.map k = none ∧ writeAll made c.map k ≠ none}

/-- An attempt at `next` that was finished. -/
def finish (c : Course κ ν) (next : List (κ × ν)) (drops : List κ) (sets : List (κ × ν)) :
    Course κ ν where
  map := writeAll (setting sets) (writeAll (dropping drops) c.map)
  applied := next
  installed := c.installed

/-- What holds between two attempts, for the keys of interest: an entry that all of the
attempts in vain had in common with the record is still there, and what they have put there
is known to somebody. -/
structure Tracked (P : κ → Prop) (c : Course κ ν) : Prop where
  kept : ∀ e ∈ c.applied, P e.1 → (∀ b ∈ c.failed, e ∈ b) → c.map e.1 = some e.2
  known : ∀ k ∈ c.installed, Has c.applied k ∨ c.map k = none ∨ ∃ b ∈ c.failed, Has b k

/-- When an attempt makes up for those in vain before it. What was recorded and is still
wanted was wanted by them too, so that they have not removed it; and what they wanted was
recorded or is wanted now. -/
structure Covers (P : κ → Prop) (c : Course κ ν) (next : List (κ × ν)) : Prop where
  stays : ∀ e ∈ next, P e.1 → e ∈ c.applied → ∀ b ∈ c.failed, e ∈ b
  listed : ∀ b ∈ c.failed, ∀ k, Has b k → Has c.applied k ∨ Has next k

variable {P : κ → Prop} {c : Course κ ν} {next : List (κ × ν)} {drops : List κ}
  {sets : List (κ × ν)} {made : List (κ × Option ν)}

omit [DecidableEq κ] in
/-- The writes of a plan drop what was recorded or set what is wanted. -/
theorem write_cases (plan : Plan c.applied next drops sets)
    (begun : made <+: dropping drops ++ setting sets) {w : κ × Option ν} (member : w ∈ made) :
    (w.1 ∈ drops ∧ w.2 = none) ∨ ∃ v, (w.1, v) ∈ next ∧ w.2 = some v := by
  rcases List.mem_append.mp (begun.subset member) with dropped | set
  · exact .inl (mem_dropping.mp dropped)
  · obtain ⟨v, listed, value⟩ := mem_setting.mp set
    exact .inr ⟨v, plan.wanted _ listed, value⟩

/-- What is there after an attempt and was not there before is wanted. -/
theorem has_of_written (plan : Plan c.applied next drops sets)
    (begun : made <+: dropping drops ++ setting sets) {k : κ} (absent : c.map k = none)
    (present : writeAll made c.map k ≠ none) : Has next k := by
  by_contra unwanted
  refine present (writeAll_agreeing ?_ absent)
  intro w member same
  rcases write_cases plan begun member with ⟨-, value⟩ | ⟨v, listed, -⟩
  · exact value
  · exact absurd ⟨v, by rwa [same] at listed⟩ unwanted

theorem Tracked.giveUp (tracked : c.Tracked P) (plan : Plan c.applied next drops sets)
    (target : Functional next) (begun : made <+: dropping drops ++ setting sets)
    (spared : ∀ e ∈ c.applied, P e.1 → e ∈ next → e.1 ∉ drops) : (c.giveUp next made).Tracked P where
  kept := by
    intro e member here all
    have wanted : e ∈ next := all next List.mem_cons_self
    have old : c.map e.1 = some e.2 :=
      tracked.kept e member here fun b listed => all b (List.mem_cons_of_mem _ listed)
    refine writeAll_agreeing ?_ old
    intro w written same
    rcases write_cases plan begun written with ⟨dropped, -⟩ | ⟨v, listed, value⟩
    · rw [same] at dropped
      exact absurd dropped (spared e member here wanted)
    · rw [same] at listed
      rw [value, target e.1 v e.2 listed wanted]
  known := by
    have after {k : κ} (absent : c.map k = none) :
        writeAll made c.map k = none ∨ ∃ b ∈ next :: c.failed, Has b k := by
      by_cases still : writeAll made c.map k = none
      · exact .inl still
      · exact .inr ⟨next, List.mem_cons_self, has_of_written plan begun absent still⟩
    intro k installed
    rcases installed with old | ⟨absent, -⟩
    · rcases tracked.known k old with recorded | absent | ⟨b, listed, has⟩
      · exact .inl recorded
      · exact .inr (after absent)
      · exact .inr (.inr ⟨b, List.mem_cons_of_mem _ listed, has⟩)
    · exact .inr (after absent)

/-- What is wanted is there in the end, if it is set or if it was never removed. -/
theorem finish_present (tracked : c.Tracked P) (plan : Plan c.applied next drops sets)
    (target : Functional next) (covers : c.Covers P next) {e : κ × ν} (wanted : e ∈ next)
    (here : P e.1 ∨ e ∈ sets) : (c.finish next drops sets).map e.1 = some e.2 := by
  have agree : ∀ w ∈ setting sets, w.1 = e.1 → w.2 = some e.2 := by
    intro w member same
    obtain ⟨v, listed, value⟩ := mem_setting.mp member
    rw [same] at listed
    rw [value, target e.1 v e.2 (plan.wanted _ listed) wanted]
  have set (listed : e ∈ sets) : (c.finish next drops sets).map e.1 = some e.2 :=
    writeAll_settled agree (mem_setting.mpr ⟨e.2, listed, rfl⟩) _
  rcases plan.missing e wanted with listed | ⟨recorded, kept⟩
  · exact set listed
  · rcases here with here | listed
    · refine writeAll_agreeing agree ?_
      rw [writeAll_dropping_untouched kept]
      exact tracked.kept e recorded here (covers.stays e wanted here recorded)
    · exact set listed

/-- What attempts in vain have put there and nobody wants is gone in the end. -/
theorem finish_absent (tracked : c.Tracked P) (plan : Plan c.applied next drops sets)
    (covers : c.Covers P next) {k : κ} (installed : k ∈ c.installed) (unwanted : ¬ Has next k) :
    (c.finish next drops sets).map k = none := by
  have unset : ∀ v, (k, v) ∉ sets := fun v listed => unwanted ⟨v, plan.wanted _ listed⟩
  have settled : (c.finish next drops sets).map k = writeAll (dropping drops) c.map k :=
    writeAll_setting_untouched unset _
  have recorded (has : Has c.applied k) : writeAll (dropping drops) c.map k = none := by
    obtain ⟨v, listed⟩ := has
    exact writeAll_dropping (plan.stale listed fun v' wanted => unwanted ⟨v', wanted⟩) _
  rw [settled]
  rcases tracked.known k installed with has | absent | ⟨b, listed, has⟩
  · exact recorded has
  · exact writeAll_agreeing (fun w member _ => (mem_dropping.mp member).2) absent
  · exact recorded ((covers.listed b listed k has).resolve_right unwanted)

theorem Tracked.finish (tracked : c.Tracked P) (plan : Plan c.applied next drops sets)
    (target : Functional next) (covers : c.Covers P next) :
    (c.finish next drops sets).Tracked P where
  kept := fun _ wanted here _ => finish_present tracked plan target covers wanted (.inl here)
  known := by
    intro k installed
    by_cases wanted : Has next k
    · exact .inl wanted
    · exact .inr (.inl (finish_absent tracked plan covers installed wanted))

end Course

end Clatto.Reconcile
