import Clatto.Lib.Bytes

/-! What a receiver makes of IP packets: the addresses and the data each one
brings, and the datagram a list of fragments adds up to. -/

namespace Clatto

open Bytes

/-- A datagram: what the transport layer gets to see. -/
structure Datagram where
  src : Bytes
  dst : Bytes
  proto : UInt8
  data : Bytes
  deriving DecidableEq, Repr

/-- An IP packet as a part of a datagram. Packets that are not fragments start
at offset zero and are the last. -/
structure Piece where
  src : Bytes
  dst : Bytes
  proto : UInt8
  ident : Nat
  offset : Nat
  more : Bool
  data : Bytes
  deriving DecidableEq, Repr

def piece4 (q : Bytes) : Piece where
  src := sub q 12 16
  dst := sub q 16 20
  proto := byteAt q 9
  ident := be16 q 4
  offset := be16 q 6 % 2 ^ 13 * 8
  more := (be16 q 6).testBit 13
  data := sub q ((byteAt q 0).toNat % 16 * 4) (be16 q 2)

/-- Read an IPv6 packet whose only extension header, if any, is a fragment
header. -/
def piece6 (q : Bytes) : Piece :=
  if byteAt q 6 = 44 then {
    src := sub q 8 24
    dst := sub q 24 40
    proto := byteAt q 40
    ident := be32 q 44
    offset := be16 q 42 / 8 * 8
    more := (be16 q 42).testBit 0
    data := sub q 48 (40 + be16 q 4) }
  else {
    src := sub q 8 24
    dst := sub q 24 40
    proto := byteAt q 6
    ident := 0
    offset := 0
    more := false
    data := sub q 40 (40 + be16 q 4) }

/-- Fragments of the same datagram agree on this. -/
def Piece.SameDatagram (p first : Piece) : Prop :=
  p.src = first.src ∧ p.dst = first.dst ∧ p.proto = first.proto ∧ p.ident = first.ident

/-- Pieces in order from an offset on, with nothing left out in between. Only the
last may lack the flag; whether it does is for the caller to say. -/
inductive Contiguous (first : Piece) (more : Bool) : Nat → List Piece → Prop
  | last {off : Nat} {p : Piece} (same : p.SameDatagram first) (start : p.offset = off)
      (flag : p.more = more) : Contiguous first more off [p]
  | cons {off : Nat} {p : Piece} {rest : List Piece} (same : p.SameDatagram first)
      (start : p.offset = off) (flag : p.more = true)
      (next : Contiguous first more (off + p.data.length) rest) :
      Contiguous first more off (p :: rest)

structure Reassembles (pieces : List Piece) (d : Datagram) : Prop where
  complete : ∃ first rest, pieces = first :: rest ∧ Contiguous first false 0 pieces ∧
    d.src = first.src ∧ d.dst = first.dst ∧ d.proto = first.proto
  data : d.data = pieces.flatMap Piece.data

theorem Piece.SameDatagram.euclid {p q base : Piece} (left : p.SameDatagram base)
    (right : q.SameDatagram base) : p.SameDatagram q := by
  obtain ⟨src, dst, proto, ident⟩ := left
  obtain ⟨src', dst', proto', ident'⟩ := right
  exact ⟨src.trans src'.symm, dst.trans dst'.symm, proto.trans proto'.symm,
    ident.trans ident'.symm⟩

namespace Contiguous

variable {base first : Piece} {more : Bool} {off : Nat} {pieces : List Piece}

theorem rebase (run : Contiguous base more off pieces) (same : first.SameDatagram base) :
    Contiguous first more off pieces := by
  induction run with
  | last own start flag => exact .last (own.euclid same) start flag
  | cons own start flag _ ih => exact .cons (own.euclid same) start flag ih

theorem reassembles (run : Contiguous base false 0 pieces) :
    Reassembles pieces ⟨base.src, base.dst, base.proto, pieces.flatMap Piece.data⟩ := by
  have head : ∃ first rest, pieces = first :: rest ∧ first.SameDatagram base := by
    cases run with
    | last own => exact ⟨_, _, rfl, own⟩
    | cons own => exact ⟨_, _, rfl, own⟩
  obtain ⟨first, rest, rfl, same⟩ := head
  exact ⟨⟨first, rest, rfl, run.rebase same, same.1.symm, same.2.1.symm, same.2.2.1.symm⟩, rfl⟩

theorem uncons {p : Piece} (run : Contiguous base more off (p :: pieces)) :
    p.offset = off ∧ (pieces = [] ∧ p.more = more ∨
      p.more = true ∧ Contiguous base more (off + p.data.length) pieces) := by
  cases run with
  | last _ start flag => exact ⟨start, .inl ⟨rfl, flag⟩⟩
  | cons _ start flag next => exact ⟨start, .inr ⟨flag, next⟩⟩

theorem same (run : Contiguous base more off pieces) : ∀ p ∈ pieces, p.SameDatagram base := by
  induction run with
  | last own _ _ =>
    intro p member
    obtain rfl := List.mem_singleton.mp member
    exact own
  | cons own _ _ _ ih =>
    intro p member
    rcases List.mem_cons.mp member with rfl | member
    · exact own
    · exact ih p member

theorem offset_ge (run : Contiguous base more off pieces) : ∀ p ∈ pieces, off ≤ p.offset := by
  induction run with
  | last _ start _ =>
    intro p member
    obtain rfl := List.mem_singleton.mp member
    exact start.ge
  | cons _ start _ _ ih =>
    intro p member
    rcases List.mem_cons.mp member with rfl | member
    · exact start.ge
    · exact le_trans (Nat.le_add_right _ _) (ih p member)

theorem length_le {bound : Nat} (run : Contiguous base more off pieces)
    (fits : ∀ p ∈ pieces, p.offset + p.data.length ≤ bound) :
    off + (pieces.flatMap Piece.data).length ≤ bound := by
  induction run with
  | last _ start _ =>
    have := fits _ (List.mem_singleton_self _)
    simp
    omega
  | cons _ _ _ _ ih =>
    have := ih fun p member => fits p (List.mem_cons_of_mem _ member)
    rw [List.flatMap_cons, List.length_append]
    omega

theorem append {more' : Bool} {rest : List Piece} (run : Contiguous base true off pieces)
    (next : Contiguous base more' (off + (pieces.flatMap Piece.data).length) rest) :
    Contiguous base more' off (pieces ++ rest) := by
  induction run with
  | last same start flag => exact .cons same start flag (by simpa using next)
  | cons same start flag _ ih =>
    refine .cons same start flag (ih ?_)
    rwa [List.flatMap_cons, List.length_append, ← Nat.add_assoc] at next

/-- Pieces that are cut further, each into pieces that follow each other from where it began
to where it ended. -/
theorem expand {ι : Type} {piece : ι → Piece} {parts : ι → List Piece} {l : List ι}
    (run : Contiguous base more off (l.map piece))
    (cut : ∀ i ∈ l, Contiguous first (piece i).more (piece i).offset (parts i) ∧
      ((parts i).flatMap Piece.data).length = (piece i).data.length) :
    Contiguous first more off (l.flatMap parts) := by
  induction l generalizing off with
  | nil => cases run
  | cons i l ih =>
    obtain ⟨own, width⟩ := cut i (.head _)
    obtain ⟨start, ends⟩ := run.uncons
    rw [start] at own
    rw [List.flatMap_cons]
    rcases ends with ⟨none, flag⟩ | ⟨flag, later⟩
    · rw [List.map_eq_nil_iff.mp none, List.flatMap_nil, List.append_nil]
      rwa [flag] at own
    · rw [flag] at own
      refine own.append ?_
      rw [width]
      exact ih later fun i' member => cut i' (List.mem_cons_of_mem _ member)

theorem exists_last (run : Contiguous base more off pieces) : ∃ p ∈ pieces, p.more = more := by
  induction run with
  | last _ _ flag => exact ⟨_, List.mem_singleton_self _, flag⟩
  | cons _ _ _ _ ih =>
    obtain ⟨p, member, flag⟩ := ih
    exact ⟨p, List.mem_cons_of_mem _ member, flag⟩

end Contiguous

theorem Reassembles.unique {pieces : List Piece} {d d' : Datagram} (left : Reassembles pieces d)
    (right : Reassembles pieces d') : d = d' := by
  obtain ⟨⟨first, rest, rfl, -, src, dst, proto⟩, data⟩ := left
  obtain ⟨⟨_, _, ⟨⟩, -, src', dst', proto'⟩, data'⟩ := right
  cases d
  cases d'
  simp_all

/-- The pieces make up the datagram, in whatever order they come in. -/
def Delivers (pieces : List Piece) (d : Datagram) : Prop :=
  ∃ ordered, pieces.Perm ordered ∧ Reassembles ordered d

namespace Delivers

variable {pieces : List Piece} {d : Datagram}

theorem same (arrived : Delivers pieces d) :
    ∀ p ∈ pieces, p.src = d.src ∧ p.dst = d.dst ∧ p.proto = d.proto := by
  intro p member
  obtain ⟨ordered, perm, ⟨first, rest, -, run, src, dst, proto⟩, -⟩ := arrived
  obtain ⟨sameSrc, sameDst, sameProto, -⟩ := run.same p (perm.mem_iff.mp member)
  exact ⟨sameSrc.trans src.symm, sameDst.trans dst.symm, sameProto.trans proto.symm⟩

theorem nonempty (arrived : Delivers pieces d) : ∃ p, p ∈ pieces := by
  obtain ⟨ordered, perm, ⟨first, rest, rfl, -⟩, -⟩ := arrived
  exact ⟨first, perm.mem_iff.mpr (.head _)⟩

theorem length_le {bound : Nat} (arrived : Delivers pieces d)
    (fits : ∀ p ∈ pieces, p.offset + p.data.length ≤ bound) : d.data.length ≤ bound := by
  obtain ⟨ordered, perm, ⟨first, rest, -, run, -⟩, joined⟩ := arrived
  have limit := run.length_le fun p member => fits p (perm.mem_iff.mpr member)
  rwa [Nat.zero_add, ← joined] at limit

end Delivers

/-- What is read from a list in another order is read from the list in another order. -/
theorem exists_perm_of_map {α β : Type} {f : α → β} {l : List α} {m : List β}
    (perm : (l.map f).Perm m) : ∃ l', List.Perm l l' ∧ l'.map f = m := by
  generalize same : l.map f = read at perm
  induction perm generalizing l with
  | nil => exact ⟨l, .refl _, same⟩
  | cons b _ ih =>
    obtain ⟨a, l, rfl, rfl, rfl⟩ := List.map_eq_cons_iff.mp same
    obtain ⟨l', perm, rfl⟩ := ih rfl
    exact ⟨a :: l', perm.cons a, rfl⟩
  | swap b c m =>
    obtain ⟨a, rest, rfl, rfl, next⟩ := List.map_eq_cons_iff.mp same
    obtain ⟨a', rest', rfl, rfl, rfl⟩ := List.map_eq_cons_iff.mp next
    exact ⟨a' :: a :: rest', .swap _ _ _, rfl⟩
  | trans _ _ ih ih' =>
    obtain ⟨l', perm, again⟩ := ih same
    obtain ⟨l'', perm', last⟩ := ih' again
    exact ⟨l'', perm.trans perm', last⟩

end Clatto
