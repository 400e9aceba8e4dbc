import Mathlib.Data.List.AList

/-! Finite maps that are updated in place, over association lists without
duplicate keys. -/

namespace Clatto

abbrev Dict (κ ν : Type) := AList fun _ : κ => ν

namespace Dict

variable {κ ν : Type} [DecidableEq κ] (m : Dict κ ν)

def get (k : κ) : Option ν := AList.lookup k m

def put (k : κ) (v : ν) : Dict κ ν := AList.insert k v m

def del (k : κ) : Dict κ ν := AList.erase k m

@[simp, grind =] theorem get_empty (k : κ) : get (∅ : Dict κ ν) k = none := rfl

@[grind =] theorem get_put (k l : κ) (v : ν) :
    (m.put k v).get l = if l = k then some v else m.get l := by
  unfold get put
  by_cases same : l = k
  · subst same
    simp
  · simp [same]

@[grind =] theorem get_del (k l : κ) : (m.del k).get l = if l = k then none else m.get l := by
  unfold get del
  by_cases same : l = k
  · subst same
    simp
  · simp [same]

theorem mem_entries {k : κ} {v : ν} : ⟨k, v⟩ ∈ m.entries ↔ m.get k = some v :=
  AList.mem_lookup_iff.symm

end Dict

end Clatto
