import Mathlib.Data.List.Basic
import Mathlib.Tactic.Common

/-! Sets of small numbers packed into 64-bit words. -/

namespace Clatto

/-- Bit `i` of the map is bit `i % 64` of word `i / 64`. -/
abbrev Bitmap := List (BitVec 64)

namespace Bitmap

def mask (i : Nat) : BitVec 64 := 1#64 <<< (i % 64)

def test (words : Bitmap) (i : Nat) : Bool := words.getD (i / 64) 0 &&& mask i != 0

def set (words : Bitmap) (i : Nat) : Bitmap := words.modify (i / 64) (· ||| mask i)

def clear (words : Bitmap) (i : Nat) : Bitmap := words.modify (i / 64) (· &&& ~~~ mask i)

@[simp] theorem length_set (words : Bitmap) (i : Nat) : (words.set i).length = words.length :=
  List.length_modify ..

@[simp] theorem length_clear (words : Bitmap) (i : Nat) : (words.clear i).length = words.length :=
  List.length_modify ..

theorem getLsbD_mask (i j : Nat) : (mask i).getLsbD j = decide (j = i % 64) := by
  have small : i % 64 < 64 := Nat.mod_lt _ (by decide)
  rw [mask, BitVec.getLsbD_shiftLeft, BitVec.getLsbD_one]
  by_cases same : j = i % 64
  · simp [same, small]
  · simp only [same, decide_false]
    by_cases below : j < i % 64
    · simp [below]
    · have above : ¬ j - i % 64 = 0 := by omega
      simp [above]

theorem and_mask_ne_zero (word : BitVec 64) (i : Nat) :
    (word &&& mask i != 0) = word.getLsbD (i % 64) := by
  have small : i % 64 < 64 := Nat.mod_lt _ (by decide)
  rw [Bool.eq_iff_iff, bne_iff_ne]
  constructor
  · intro some
    by_contra missing
    refine some (BitVec.eq_of_getLsbD_eq fun j _ => ?_)
    rw [BitVec.getLsbD_and, getLsbD_mask]
    by_cases same : j = i % 64
    · simpa [same] using missing
    · simp [same]
  · intro present zero
    have bit := congrArg (BitVec.getLsbD · (i % 64)) zero
    simp [BitVec.getLsbD_and, getLsbD_mask, present] at bit

theorem test_eq (words : Bitmap) (i : Nat) :
    words.test i = (words.getD (i / 64) 0).getLsbD (i % 64) := and_mask_ne_zero _ _

theorem getD_modify (words : Bitmap) (k j : Nat) (f : BitVec 64 → BitVec 64)
    (inside : k < words.length) :
    (words.modify k f).getD j 0 = if j = k then f (words.getD k 0) else words.getD j 0 := by
  by_cases same : j = k
  · subst same
    simp [List.getD_eq_getElem?_getD, inside]
  · rw [if_neg same, List.getD_eq_getElem?_getD, List.getD_eq_getElem?_getD,
      List.getElem?_modify]
    simp [Ne.symm same]

theorem test_set {words : Bitmap} {i : Nat} (inside : i < 64 * words.length) (j : Nat) :
    (words.set i).test j = (decide (j = i) || words.test j) := by
  rw [test_eq, test_eq, set, getD_modify _ _ _ _ (by omega)]
  by_cases word : j / 64 = i / 64
  · rw [if_pos word, BitVec.getLsbD_or, getLsbD_mask, word]
    have same : j = i ↔ j % 64 = i % 64 := by omega
    simp [same, Bool.or_comm]
  · have other : j ≠ i := fun same => word (by rw [same])
    rw [if_neg word]
    simp [other]

theorem test_clear {words : Bitmap} {i : Nat} (inside : i < 64 * words.length) (j : Nat) :
    (words.clear i).test j = (!decide (j = i) && words.test j) := by
  rw [test_eq, test_eq, clear, getD_modify _ _ _ _ (by omega)]
  by_cases word : j / 64 = i / 64
  · have small : j % 64 < 64 := Nat.mod_lt _ (by decide)
    have same : j = i ↔ j % 64 = i % 64 := by omega
    rw [if_pos word, BitVec.getLsbD_and, BitVec.getLsbD_not, getLsbD_mask, word]
    simp [same, small, Bool.and_comm]
  · have other : j ≠ i := fun same => word (by rw [same])
    rw [if_neg word]
    simp [other]

theorem test_replicate (n i : Nat) : test (List.replicate n 0) i = false := by
  rw [test_eq, List.getD_eq_getElem?_getD, List.getElem?_replicate]
  split <;> simp

theorem test_outside {words : Bitmap} {i : Nat} (outside : 64 * words.length ≤ i) :
    words.test i = false := by
  rw [test_eq, List.getD_eq_getElem?_getD, List.getElem?_eq_none (by omega)]
  simp

end Bitmap

end Clatto
