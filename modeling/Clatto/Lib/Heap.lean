import Mathlib.Logic.Function.Basic

/-! Objects that are shared by reference: cells that are allocated one after the
other and never taken back. -/

namespace Clatto

abbrev Ref := Nat

structure Heap (α : Type) where
  cells : Ref → α
  next : Ref

namespace Heap

variable {α : Type} (h : Heap α)

def empty [Inhabited α] : Heap α where
  cells := fun _ => default
  next := 0

def get (r : Ref) : α := h.cells r

/-- The new object is found at the old `next`. -/
def alloc (x : α) : Heap α where
  cells := Function.update h.cells h.next x
  next := h.next + 1

def set (r : Ref) (x : α) : Heap α where
  cells := Function.update h.cells r x
  next := h.next

def modify (r : Ref) (f : α → α) : Heap α := h.set r (f (h.get r))

@[simp, grind =] theorem next_alloc (x : α) : (h.alloc x).next = h.next + 1 := rfl

@[simp, grind =] theorem next_set (r : Ref) (x : α) : (h.set r x).next = h.next := rfl

@[grind =] theorem get_alloc (x : α) (s : Ref) :
    (h.alloc x).get s = if s = h.next then x else h.get s :=
  Function.update_apply ..

@[grind =] theorem get_set (r s : Ref) (x : α) :
    (h.set r x).get s = if s = r then x else h.get s :=
  Function.update_apply ..

/-- All objects, seen through a function. -/
def map {β : Type} (f : α → β) : Heap β where
  cells r := f (h.cells r)
  next := h.next

section Map

variable {β : Type} (f : α → β)

@[simp] theorem next_map : (h.map f).next = h.next := rfl

@[simp] theorem get_map (r : Ref) : (h.map f).get r = f (h.get r) := rfl

theorem map_set (r : Ref) (x : α) : (h.set r x).map f = (h.map f).set r (f x) := by
  unfold map set
  congr 1
  exact Function.comp_update f h.cells r x

theorem map_alloc (x : α) : (h.alloc x).map f = (h.map f).alloc (f x) := by
  unfold map alloc
  congr 1
  exact Function.comp_update f h.cells h.next x

end Map

end Heap

end Clatto
