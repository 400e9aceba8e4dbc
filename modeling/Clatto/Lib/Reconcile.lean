import Mathlib.Logic.Function.Basic

/-! Maps that are written entry by entry, and how one set of entries is replaced by another:
what is stale is dropped, and what is missing is set. -/

namespace Clatto.Reconcile

variable {κ ν : Type} [DecidableEq κ]

/-- Write or drop one entry after the other. -/
def writeAll (writes : List (κ × Option ν)) (m : κ → Option ν) : κ → Option ν :=
  writes.foldl (fun m w => Function.update m w.1 w.2) m

def setting (entries : List (κ × ν)) : List (κ × Option ν) := entries.map fun e => (e.1, some e.2)

def dropping (keys : List κ) : List (κ × Option ν) := keys.map fun k => (k, none)

theorem writeAll_cons (w : κ × Option ν) (writes : List (κ × Option ν)) (m : κ → Option ν) :
    writeAll (w :: writes) m = writeAll writes (Function.update m w.1 w.2) := rfl

theorem writeAll_append (first second : List (κ × Option ν)) (m : κ → Option ν) :
    writeAll (first ++ second) m = writeAll second (writeAll first m) :=
  List.foldl_append

theorem writeAll_untouched {writes : List (κ × Option ν)} {k : κ}
    (untouched : ∀ w ∈ writes, w.1 ≠ k) (m : κ → Option ν) : writeAll writes m k = m k := by
  induction writes generalizing m with
  | nil => rfl
  | cons w writes ih =>
    rw [writeAll_cons, ih fun w' member => untouched w' (.tail _ member)]
    exact Function.update_of_ne (untouched w (.head _)).symm _ _

theorem writeAll_agreeing {writes : List (κ × Option ν)} {k : κ} {v : Option ν}
    (agree : ∀ w ∈ writes, w.1 = k → w.2 = v) {m : κ → Option ν} (old : m k = v) :
    writeAll writes m k = v := by
  induction writes generalizing m with
  | nil => exact old
  | cons w writes ih =>
    rw [writeAll_cons]
    refine ih (fun w' member => agree w' (.tail _ member)) ?_
    by_cases same : w.1 = k
    · rw [← same, Function.update_self]
      exact agree w (.head _) same
    · rw [Function.update_of_ne (Ne.symm same), old]

theorem writeAll_settled {writes : List (κ × Option ν)} {k : κ} {v : Option ν}
    (agree : ∀ w ∈ writes, w.1 = k → w.2 = v) (written : (k, v) ∈ writes) (m : κ → Option ν) :
    writeAll writes m k = v := by
  induction writes generalizing m with
  | nil => cases written
  | cons w writes ih =>
    have later := fun w' member => agree w' (List.mem_cons_of_mem w member)
    rw [writeAll_cons]
    rcases List.mem_cons.mp written with rfl | member
    · exact writeAll_agreeing later (Function.update_self ..)
    · exact ih later member _

omit [DecidableEq κ] in
theorem mem_setting {entries : List (κ × ν)} {w : κ × Option ν} :
    w ∈ setting entries ↔ ∃ v, (w.1, v) ∈ entries ∧ w.2 = some v := by
  rw [setting, List.mem_map]
  constructor
  · rintro ⟨e, member, rfl⟩
    exact ⟨e.2, member, rfl⟩
  · rintro ⟨v, member, same⟩
    exact ⟨(w.1, v), member, by rw [← same]⟩

omit [DecidableEq κ] in
theorem mem_dropping {keys : List κ} {w : κ × Option ν} :
    w ∈ dropping keys ↔ w.1 ∈ keys ∧ w.2 = none := by
  rw [dropping, List.mem_map]
  constructor
  · rintro ⟨k, member, rfl⟩
    exact ⟨member, rfl⟩
  · rintro ⟨member, same⟩
    exact ⟨w.1, member, by rw [← same]⟩

def Functional (entries : List (κ × ν)) : Prop :=
  ∀ k v v', (k, v) ∈ entries → (k, v') ∈ entries → v = v'

/-- A way from one set of entries to another. -/
structure Plan (prev next : List (κ × ν)) (drops : List κ) (sets : List (κ × ν)) : Prop where
  owned : ∀ k ∈ drops, ∃ v, (k, v) ∈ prev
  stale : ∀ {k v}, (k, v) ∈ prev → (∀ v', (k, v') ∉ next) → k ∈ drops
  wanted : ∀ e ∈ sets, e ∈ next
  missing : ∀ e ∈ next, e ∈ sets ∨ e ∈ prev ∧ e.1 ∉ drops

section

variable {prev next : List (κ × ν)} {drops : List κ} {sets : List (κ × ν)}

theorem writeAll_setting (functional : Functional next) {k : κ} {v : ν} (member : (k, v) ∈ next)
    (m : κ → Option ν) : writeAll (setting next) m k = some v := by
  refine writeAll_settled ?_ (mem_setting.mpr ⟨v, member, rfl⟩) m
  rintro w written rfl
  obtain ⟨v', member', same⟩ := mem_setting.mp written
  rw [same, functional _ _ _ member member']

theorem writeAll_setting_untouched {k : κ} (absent : ∀ v, (k, v) ∉ next) (m : κ → Option ν) :
    writeAll (setting next) m k = m k := by
  refine writeAll_untouched ?_ m
  rintro w written rfl
  obtain ⟨v, member, -⟩ := mem_setting.mp written
  exact absent v member

theorem writeAll_dropping {k : κ} (dropped : k ∈ drops) (m : κ → Option ν) :
    writeAll (dropping drops) m k = none :=
  writeAll_settled (fun _ written _ => (mem_dropping.mp written).2)
    (mem_dropping.mpr ⟨dropped, rfl⟩) m

theorem writeAll_dropping_untouched {k : κ} (kept : k ∉ drops) (m : κ → Option ν) :
    writeAll (dropping drops) m k = m k := by
  refine writeAll_untouched ?_ m
  rintro w written rfl
  exact kept (mem_dropping.mp written).1

theorem Plan.reconciles (plan : Plan prev next drops sets) (before : Functional prev)
    (target : Functional next) {m : κ → Option ν} (clear : ∀ e ∈ prev, m e.1 = none) :
    writeAll (setting sets) (writeAll (dropping drops) (writeAll (setting prev) m)) =
      writeAll (setting next) m := by
  funext k
  have functional : Functional sets := fun k v v' one other =>
    target k v v' (plan.wanted _ one) (plan.wanted _ other)
  by_cases present : ∃ v, (k, v) ∈ next
  · obtain ⟨v, member⟩ := present
    rw [writeAll_setting target member]
    rcases plan.missing _ member with set | ⟨old, kept⟩
    · exact writeAll_setting functional set _
    · -- what is kept may be set again, to what it is
      refine writeAll_agreeing ?_ ?_
      · rintro w written rfl
        obtain ⟨v', set, same⟩ := mem_setting.mp written
        rw [same, target _ _ _ member (plan.wanted _ set)]
      · rw [writeAll_dropping_untouched kept]
        exact writeAll_setting before old m
  · have absent : ∀ v, (k, v) ∉ next := fun v member => present ⟨v, member⟩
    rw [writeAll_setting_untouched absent,
      writeAll_setting_untouched fun v set => absent v (plan.wanted _ set)]
    by_cases old : ∃ v, (k, v) ∈ prev
    · obtain ⟨v, member⟩ := old
      rw [writeAll_dropping (plan.stale member absent)]
      exact (clear _ member).symm
    · rw [writeAll_dropping_untouched fun dropped => old (plan.owned k dropped),
        writeAll_setting_untouched fun v member => old ⟨v, member⟩]

end

end Clatto.Reconcile
