import Clatto.Lib.Heap
import Mathlib.Data.List.Induction

/-! Objects that are handed out and given back: a free list over a heap. -/

namespace Clatto

/-- `out` are the objects in use, each with a note on what it is used for; `free` are those
that wait for their next use, the last one given back first. -/
structure Slab (α β : Type) where
  heap : Heap α
  out : List (Ref × β)
  free : List Ref

namespace Slab

variable {α β γ : Type}

def empty [Inhabited α] : Slab α β := ⟨.empty, [], []⟩

/-- Hand out a free object, or a new one. -/
def take (blank : α) (note : β) (s : Slab α β) : Ref × Slab α β :=
  match s.free with
  | r :: free => (r, { s with out := s.out ++ [(r, note)], free })
  | [] =>
    (s.heap.next, { s with heap := s.heap.alloc blank, out := s.out ++ [(s.heap.next, note)] })

def takes (blank : α) (notes : List β) (s : Slab α β) : Slab α β :=
  notes.foldl (fun s note => (s.take blank note).2) s

/-- Everything in use is given back, in order. -/
def giveBack (s : Slab α β) : Slab α β where
  heap := s.heap
  out := []
  free := s.out.foldl (fun free used => used.1 :: free) s.free

def write (f : γ → α → α) (s : Slab α β) (work : List (Ref × γ)) : Slab α β :=
  { s with heap := work.foldl (fun heap item => heap.modify item.1 (f item.2)) s.heap }

def made (s : Slab α β) : Nat := s.heap.next

/-- Every object is in exactly one place. -/
def Tidy (s : Slab α β) : Prop := (s.out.map Prod.fst ++ s.free).Perm (List.range s.made)

variable {s : Slab α β} {blank : α}

theorem tidy_empty [Inhabited α] : (empty : Slab α β).Tidy := .refl _

theorem Tidy.nodup (tidy : s.Tidy) : (s.out.map Prod.fst).Nodup :=
  (List.nodup_append.mp (tidy.nodup_iff.mpr List.nodup_range)).1

theorem Tidy.not_free (tidy : s.Tidy) {used : Ref × β} (member : used ∈ s.out) : used.1 ∉ s.free :=
  fun free => (List.nodup_append.mp (tidy.nodup_iff.mpr List.nodup_range)).2.2 _
    (List.mem_map_of_mem member) _ free rfl

theorem Tidy.length (tidy : s.Tidy) : s.out.length + s.free.length = s.made := by
  have same := tidy.length_eq
  simpa using same

theorem Tidy.take (tidy : s.Tidy) (note : β) : (s.take blank note).2.Tidy := by
  unfold Slab.take Tidy
  split
  · rename_i r free same
    rw [Tidy, same] at tidy
    simpa [made] using tidy
  · rename_i same
    rw [Tidy, same, List.append_nil] at tidy
    simpa [same, made, List.range_succ] using tidy.append_right [s.heap.next]

theorem take_out (note : β) :
    (s.take blank note).2.out = s.out ++ [((s.take blank note).1, note)] := by
  unfold Slab.take
  split <;> rfl

theorem Tidy.made_take (tidy : s.Tidy) (note : β) :
    (s.take blank note).2.made = max s.made (s.out.length + 1) := by
  have count := tidy.length
  unfold Slab.take
  split
  · rename_i r free same
    rw [same, List.length_cons] at count
    change s.made = _
    omega
  · rename_i same
    rw [same, List.length_nil] at count
    change s.made + 1 = _
    omega

/-- An object in use keeps its contents while others are handed out. -/
theorem Tidy.get_take (tidy : s.Tidy) (note : β) {r : Ref} (used : r ∈ s.out.map Prod.fst) :
    (s.take blank note).2.heap.get r = s.heap.get r := by
  unfold Slab.take
  split
  · rfl
  · have old : r < s.heap.next := List.mem_range.mp (tidy.mem_iff.mp (List.mem_append_left _ used))
    rw [Heap.get_alloc, if_neg (Nat.ne_of_lt old)]

/-- The rule for a number of objects: what one `take` keeps is kept. -/
theorem takes_induction {motive : List β → Slab α β → Prop} (nil : motive [] s)
    (snoc : ∀ notes note s', motive notes s' → motive (notes ++ [note]) (s'.take blank note).2)
    (notes : List β) : motive notes (s.takes blank notes) := by
  induction notes using List.reverseRecOn with
  | nil => exact nil
  | append_singleton notes note ih =>
    rw [takes, List.foldl_append]
    exact snoc notes note _ ih

theorem takes_append (notes more : List β) :
    s.takes blank (notes ++ more) = (s.takes blank notes).takes blank more :=
  List.foldl_append

/-- What handing out objects for `notes` leaves: the old ones untouched, the new ones after
them, and no more made than are needed. -/
structure Taken (s : Slab α β) (notes : List β) (s' : Slab α β) : Prop where
  tidy : s'.Tidy
  out : ∃ refs : List Ref, s'.out = s.out ++ refs.zip notes ∧ refs.length = notes.length
  made : s'.made = max s.made (s.out.length + notes.length)
  kept : ∀ r ∈ s.out.map Prod.fst, s'.heap.get r = s.heap.get r

theorem Tidy.takes (tidy : s.Tidy) (notes : List β) : s.Taken notes (s.takes blank notes) := by
  refine takes_induction ?_ ?_ notes
  · have count := tidy.length
    exact ⟨tidy, ⟨[], by simp, rfl⟩, by simp only [List.length_nil]; omega, fun _ _ => rfl⟩
  · rintro notes note s' ⟨tidy', ⟨refs, out, same⟩, made, kept⟩
    have width : s'.out.length = s.out.length + notes.length := by
      rw [out, List.length_append, List.length_zip, same, Nat.min_self]
    refine ⟨tidy'.take note, ⟨refs ++ [(s'.take blank note).1], ?_, by simp [same]⟩, ?_, ?_⟩
    · rw [take_out, out, List.zip_append same, List.append_assoc]
      rfl
    · rw [tidy'.made_take, made, width, List.length_append, List.length_singleton]
      omega
    · intro r used
      rw [tidy'.get_take, kept r used]
      rw [out, List.map_append]
      exact List.mem_append_left _ used

theorem Tidy.giveBack (tidy : s.Tidy) : s.giveBack.Tidy := by
  have back (l : List (Ref × β)) (free : List Ref) :
      (l.foldl (fun free used => used.1 :: free) free).Perm (l.map Prod.fst ++ free) := by
    induction l generalizing free with
    | nil => exact .refl _
    | cons used l ih => exact (ih _).trans List.perm_middle
  exact (back s.out s.free).trans tidy

section Write

variable {f : γ → α → α} {work : List (Ref × γ)}

theorem made_write : (s.write f work).made = s.made := by
  have next (heap : Heap α) :
      (work.foldl (fun heap item => heap.modify item.1 (f item.2)) heap).next = heap.next := by
    induction work generalizing heap with
    | nil => rfl
    | cons item work ih => exact ih _
  exact next s.heap

theorem Tidy.write (tidy : s.Tidy) : (s.write f work).Tidy := by
  rw [Tidy, made_write]
  exact tidy

theorem get_write_of_not_mem {r : Ref} (other : r ∉ work.map Prod.fst) :
    (s.write f work).heap.get r = s.heap.get r := by
  have kept (heap : Heap α) :
      (work.foldl (fun heap item => heap.modify item.1 (f item.2)) heap).get r = heap.get r := by
    induction work generalizing heap with
    | nil => rfl
    | cons item work ih =>
      rw [List.map_cons, List.mem_cons, not_or] at other
      rw [List.foldl_cons, ih other.2, Heap.modify, Heap.get_set, if_neg other.1]
  exact kept s.heap

theorem get_write {r : Ref} {x : γ} (distinct : (work.map Prod.fst).Nodup) (member : (r, x) ∈ work) :
    (s.write f work).heap.get r = f x (s.heap.get r) := by
  induction work generalizing s with
  | nil => cases member
  | cons item work ih =>
    rw [List.map_cons, List.nodup_cons] at distinct
    have first : s.write f (item :: work) =
        ({ s with heap := s.heap.modify item.1 (f item.2) } : Slab α β).write f work := rfl
    rw [first]
    rcases List.mem_cons.mp member with rfl | later
    · rw [get_write_of_not_mem distinct.1, Heap.modify, Heap.get_set, if_pos rfl]
    · have apart : r ≠ item.1 := by
        rintro rfl
        exact distinct.1 (List.mem_map.mpr ⟨_, later, rfl⟩)
      rw [ih distinct.2 later, Heap.modify, Heap.get_set, if_neg apart]

end Write

end Slab

end Clatto
