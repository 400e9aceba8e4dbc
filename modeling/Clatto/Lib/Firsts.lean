import Mathlib.Data.List.Nodup

/-! The first element of a list for every key. -/

namespace Clatto

variable {α κ : Type} [DecidableEq κ]

/-- The first element for every key that has not been seen. -/
def firstOfEach (key : α → κ) : (seen : List κ) → List α → List α
  | _, [] => []
  | seen, a :: rest =>
    if key a ∈ seen then firstOfEach key seen rest
    else a :: firstOfEach key (key a :: seen) rest

namespace firstOfEach

variable {key : α → κ} {seen : List κ} {a : α} {l : List α}

theorem mem (member : a ∈ firstOfEach key seen l) : a ∈ l ∧ key a ∉ seen := by
  induction l generalizing seen with
  | nil => cases member
  | cons b l ih =>
    rw [firstOfEach] at member
    split at member
    · obtain ⟨later, unseen⟩ := ih member
      exact ⟨List.mem_cons_of_mem _ later, unseen⟩
    · rename_i unseen
      rcases List.mem_cons.mp member with rfl | member
      · exact ⟨List.mem_cons_self, unseen⟩
      · obtain ⟨later, unseen⟩ := ih member
        exact ⟨List.mem_cons_of_mem _ later, fun old => unseen (List.mem_cons_of_mem _ old)⟩

theorem exists_key (member : a ∈ l) (unseen : key a ∉ seen) :
    ∃ b ∈ firstOfEach key seen l, key b = key a := by
  induction l generalizing seen with
  | nil => cases member
  | cons c l ih =>
    rw [firstOfEach]
    split
    · rename_i old
      rcases List.mem_cons.mp member with rfl | member
      · exact absurd old unseen
      · exact ih member unseen
    · by_cases same : key c = key a
      · exact ⟨c, List.mem_cons_self, same⟩
      · have later : a ∈ l := (List.mem_cons.mp member).resolve_left fun eq => same (eq ▸ rfl)
        have unseen' : key a ∉ key c :: seen := fun old =>
          (List.mem_cons.mp old).elim (fun eq => same eq.symm) unseen
        obtain ⟨b, found, key⟩ := ih later unseen'
        exact ⟨b, List.mem_cons_of_mem _ found, key⟩

theorem nodup_keys (key : α → κ) (seen : List κ) (l : List α) :
    ((firstOfEach key seen l).map key).Nodup := by
  induction l generalizing seen with
  | nil => exact .nil
  | cons a l ih =>
    rw [firstOfEach]
    split
    · exact ih seen
    · rw [List.map_cons, List.nodup_cons]
      refine ⟨fun member => ?_, ih _⟩
      obtain ⟨b, found, same⟩ := List.mem_map.mp member
      exact (mem found).2 (same ▸ List.mem_cons_self)

theorem congr_seen {seen' : List κ} (same : ∀ k, k ∈ seen' ↔ k ∈ seen) (l : List α) :
    firstOfEach key seen' l = firstOfEach key seen l := by
  induction l generalizing seen seen' with
  | nil => rfl
  | cons a l ih =>
    have next : ∀ k, k ∈ key a :: seen' ↔ k ∈ key a :: seen := fun k => by
      rw [List.mem_cons, List.mem_cons, same]
    rw [firstOfEach, firstOfEach, ih same, ih next]
    exact if_congr (same _) rfl rfl

theorem append (l l' : List α) :
    firstOfEach key seen (l ++ l') =
      firstOfEach key seen l ++ firstOfEach key (l.map key ++ seen) l' := by
  induction l generalizing seen with
  | nil => rfl
  | cons a l ih =>
    rw [List.cons_append, firstOfEach, firstOfEach]
    split
    · rename_i old
      have same : ∀ k, k ∈ (a :: l).map key ++ seen ↔ k ∈ l.map key ++ seen := by
        intro k
        simp only [List.map_cons, List.cons_append, List.mem_cons, List.mem_append]
        constructor
        · rintro (rfl | rest)
          · exact .inr old
          · exact rest
        · exact .inr
      rw [ih, congr_seen same]
    · have same : ∀ k, k ∈ (a :: l).map key ++ seen ↔ k ∈ l.map key ++ key a :: seen := by
        intro k
        simp only [List.map_cons, List.cons_append, List.mem_cons, List.mem_append]
        tauto
      rw [ih, congr_seen same, List.cons_append]

theorem mem_of_first {before after : List α} (unseen : key a ∉ seen)
    (first : ∀ b ∈ before, key b ≠ key a) : a ∈ firstOfEach key seen (before ++ a :: after) := by
  have new : key a ∉ before.map key ++ seen := by
    intro old
    rcases List.mem_append.mp old with earlier | earlier
    · obtain ⟨b, member, same⟩ := List.mem_map.mp earlier
      exact first b member same
    · exact unseen earlier
  rw [append, firstOfEach, if_neg new]
  exact List.mem_append_right _ List.mem_cons_self

theorem mem_iff (injective : ∀ b ∈ l, ∀ c ∈ l, key b = key c → b = c) :
    a ∈ firstOfEach key seen l ↔ a ∈ l ∧ key a ∉ seen := by
  refine ⟨mem, fun ⟨member, unseen⟩ => ?_⟩
  obtain ⟨b, found, same⟩ := exists_key member unseen
  rw [← injective b (mem found).1 a member same]
  exact found

end firstOfEach

end Clatto
