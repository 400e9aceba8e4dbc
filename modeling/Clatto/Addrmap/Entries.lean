import Clatto.Addrmap.Table

/-! The entries of a table in the order in which they are listed. -/

namespace Clatto.Addrmap

open Netip

/-- `Addr.Less` for addresses without a zone. -/
def less (a b : Addr) : Bool :=
  a.bitLen < b.bitLen || (a.bitLen == b.bitLen && a.value < b.value)

def Kind.rank : Kind → Nat
  | .static => 0
  | .rfc6052 => 1
  | .dynamicPool => 2
  | .dynamicHost => 3

def Entry.before (e o : Entry) : Bool :=
  if e.kind ≠ o.kind then e.kind.rank < o.kind.rank else less e.v4.addr o.v4.addr

def Table.all (t : Table) : List Entry :=
  (t.hosts4.entries.map (·.2) ++ t.nets4 ++ t.hosts6.entries.map (·.2) ++ t.nets6).eraseDups

/-- What `Entries` returns. Maps are ranged over in any order, and sorting leaves entries of
one kind with one IPv4 address in any order. -/
structure Listing where
  entries : Table → List Entry
  perm : ∀ t, (entries t).Perm t.all
  sorted : ∀ t, (entries t).Pairwise fun e o => o.before e = false

theorem Kind.rank_inj {k k' : Kind} : k.rank = k'.rank ↔ k = k' := by
  cases k <;> cases k' <;> simp [rank]

theorem Entry.before_iff {e o : Entry} :
    e.before o = true ↔ e.kind.rank < o.kind.rank ∨ e.kind.rank = o.kind.rank ∧
      (e.v4.addr.bitLen < o.v4.addr.bitLen ∨
        e.v4.addr.bitLen = o.v4.addr.bitLen ∧ e.v4.addr.value < o.v4.addr.value) := by
  rw [before]
  split
  · rename_i other
    have apart : e.kind.rank ≠ o.kind.rank := fun same => other (Kind.rank_inj.mp same)
    simp only [apart, false_and, or_false, decide_eq_true_iff]
  · rename_i same
    simp [not_not.mp same, less]

def Listing.standard : Listing where
  entries t := t.all.mergeSort fun e o => !o.before e
  perm t := List.mergeSort_perm _ _
  sorted t := by
    have sorted := @List.pairwise_mergeSort _ (fun e o : Entry => !o.before e) ?_ ?_ t.all
    · simpa using sorted
    · intro e o p first second
      simp only [Bool.not_eq_true', Bool.eq_false_iff, Ne, Entry.before_iff] at first second ⊢
      omega
    · intro e o
      simp only [Bool.or_eq_true, Bool.not_eq_true', Bool.eq_false_iff, Ne, Entry.before_iff]
      omega

theorem Listing.mem_entries (listing : Listing) {t : Table} {e : Entry} :
    e ∈ listing.entries t ↔ e ∈ t.all := (listing.perm t).mem_iff

namespace Builder

variable {b b' : Builder} {v4 v6 : Prefix}

theorem addPrefix_entries (added : b.addPrefix v6 = .ok b') :
    b'.entries = b.entries ++ [prefixEntry v6] := by
  unfold addPrefix at added
  repeat' split at added
  all_goals cases added
  rfl

theorem addStatic_entries (added : b.addStatic v4 v6 = .ok b') :
    b'.entries = b.entries ++ [staticEntry v4 v6] := by
  unfold addStatic at added
  repeat' split at added
  all_goals cases added
  rfl

def own (v4 v6 : Addr) (v6Derived : Bool) : Entry :=
  if v6Derived then selfEntry v4 v6 else staticEntry (.of v4 32) (.of v6 128)

theorem own_v4 {a4 a6 : Addr} {v6Derived : Bool} : (own a4 a6 v6Derived).v4 = .of a4 32 := by
  cases v6Derived <;> rfl

theorem own_v6 {a4 a6 : Addr} {v6Derived : Bool} : (own a4 a6 v6Derived).v6 = .of a6 128 := by
  cases v6Derived <;> rfl

theorem own_contains {a4 a6 ip : Addr} {v6Derived : Bool}
    (inside : (own a4 a6 v6Derived).v6.contains ip) : ip = a6.withoutZone := by
  rw [own_v6] at inside
  exact Prefix.eq_of_contains_of (by cases a6 <;> simp [Addr.bitLen]) inside

theorem addSelf_entries {a4 a6 : Addr} {v6Derived : Bool}
    (added : b.addSelf a4 a6 v6Derived = .ok b') :
    b'.entries = b.entries ++ [own a4 a6 v6Derived] := by
  cases v6Derived with
  | false => exact addStatic_entries added
  | true =>
    cases a4 with
    | v4 bits =>
      simp only [addSelf, Bool.not_true, Bool.false_eq_true, if_false] at added
      split at added
      all_goals cases added
      rfl
    | zero => cases added
    | v6 bits zone => cases added

theorem setPool_entries {p : Pool} (set : b.setPool p = .ok b') :
    b'.entries = b.entries ++ [poolEntry p.pfx] ∧ b'.pool = some p := by
  unfold setPool at set
  split at set
  all_goals cases set
  exact ⟨rfl, rfl⟩

end Builder

end Clatto.Addrmap
