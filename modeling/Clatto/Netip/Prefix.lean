import Mathlib.Data.Nat.Bitwise
import Clatto.Netip.Addr

/-! Address prefixes: when an address lies inside one, and when two of them
overlap. -/

namespace Clatto.Netip

namespace Addr

@[simp] theorem hasZone_withoutZone (a : Addr) : a.withoutZone.hasZone = false := by
  cases a <;> rfl

@[simp] theorem bitLen_withoutZone (a : Addr) : a.withoutZone.bitLen = a.bitLen := by
  cases a <;> rfl

theorem withoutZone_eq_self {a : Addr} (zoneless : a.hasZone = false) : a.withoutZone = a := by
  cases a with
  | v6 bits zone =>
    have none : zone = "" := by simpa [hasZone] using zoneless
    rw [none, withoutZone]
  | _ => rfl

theorem shiftRight_xor_eq_zero {w : Nat} (a b : BitVec w) (k : Nat) :
    (b ^^^ a) >>> k = 0 ↔ b.toNat / 2 ^ k = a.toNat / 2 ^ k := by
  rw [← BitVec.toNat_inj, BitVec.toNat_ushiftRight, BitVec.toNat_xor, Nat.shiftRight_xor_distrib,
    Nat.shiftRight_eq_div_pow, Nat.shiftRight_eq_div_pow]
  exact Nat.xor_eq_zero_iff

theorem and_ones_shiftLeft {w : Nat} (a : BitVec w) (k : Nat) :
    a &&& (BitVec.allOnes w <<< k) = (a >>> k) <<< k := by
  ext i inside
  by_cases low : i < k
  · simp [low]
  · have back : k + (i - k) = i := by omega
    simp [low, back, BitVec.getLsbD_eq_getElem inside]

theorem toNat_and_ones {w : Nat} (a : BitVec w) (k : Nat) :
    (a &&& (BitVec.allOnes w <<< k)).toNat = a.toNat / 2 ^ k * 2 ^ k := by
  have bound : a.toNat / 2 ^ k * 2 ^ k < 2 ^ w :=
    Nat.lt_of_le_of_lt (Nat.div_mul_le_self _ _) a.isLt
  rw [and_ones_shiftLeft, BitVec.toNat_shiftLeft, BitVec.toNat_ushiftRight,
    Nat.shiftRight_eq_div_pow, Nat.shiftLeft_eq, Nat.mod_eq_of_lt bound]

/-- The address with everything past the first `n` bits cleared. -/
def mask : Addr → Nat → Addr
  | .zero, _ => .zero
  | .v4 bits, n => .v4 (bits &&& (BitVec.allOnes 32 <<< (32 - n)))
  | .v6 bits zone, n => .v6 (bits &&& (BitVec.allOnes 128 <<< (128 - n))) zone

@[simp] theorem hasZone_mask (a : Addr) (n : Nat) : (a.mask n).hasZone = a.hasZone := by
  cases a <;> rfl

@[simp] theorem bitLen_mask (a : Addr) (n : Nat) : (a.mask n).bitLen = a.bitLen := by
  cases a <;> rfl

def value : Addr → Nat
  | .zero => 0
  | .v4 bits => bits.toNat
  | .v6 bits _ => bits.toNat

theorem value_lt (a : Addr) : a.value < 2 ^ a.bitLen := by
  cases a with
  | zero => exact Nat.one_pos
  | v4 bits => exact bits.isLt
  | v6 bits zone => exact bits.isLt

theorem value_mask (a : Addr) (n : Nat) :
    (a.mask n).value = a.value / 2 ^ (a.bitLen - n) * 2 ^ (a.bitLen - n) := by
  cases a with
  | zero => simp [mask, value]
  | v4 bits => exact toNat_and_ones bits _
  | v6 bits zone => exact toNat_and_ones bits _

/-- Zoneless addresses of one family are told apart by their values. -/
theorem eq_of_value {a b : Addr} (family : a.bitLen = b.bitLen) (left : a.hasZone = false)
    (right : b.hasZone = false) (same : a.value = b.value) : a = b := by
  rw [← withoutZone_eq_self left, ← withoutZone_eq_self right]
  cases a <;> cases b <;> simp_all [bitLen, value, withoutZone, BitVec.toNat_inj]

theorem is6_iff {a : Addr} : a.is6 = true ↔ a.bitLen = 128 := by
  cases a <;> simp [is6, bitLen]

theorem is4_eq_iff {a b : Addr} (left : a ≠ .zero) (right : b ≠ .zero) :
    a.is4 = b.is4 ↔ a.bitLen = b.bitLen := by
  cases a <;> cases b <;> simp_all [is4, bitLen]

end Addr

/-- `netip.Prefix`: `len` is missing in invalid prefixes, which still have an address. -/
@[ext] structure Prefix where
  addr : Addr
  len : Option Nat
  zoneless : addr.hasZone = false
  inside : ∀ n, len = some n → addr ≠ .zero ∧ n ≤ addr.bitLen
  deriving DecidableEq

namespace Prefix

def zero : Prefix where
  addr := .zero
  len := none
  zoneless := rfl
  inside := nofun

instance : Inhabited Prefix := ⟨zero⟩

/-- `Prefix.Bits`, which is -1 for invalid prefixes. -/
def bits (p : Prefix) : Int := p.len.elim (-1) fun n => n

def isValid (p : Prefix) : Bool := p.len.isSome

/-- `netip.PrefixFrom`. -/
def of (ip : Addr) (bits : Int) : Prefix where
  addr := ip.withoutZone
  len := if ip ≠ .zero ∧ 0 ≤ bits ∧ bits ≤ ip.bitLen then some bits.toNat else none
  zoneless := ip.hasZone_withoutZone
  inside := by
    intro n found
    split at found
    · rename_i fits
      cases found
      refine ⟨?_, by rw [Addr.bitLen_withoutZone]; omega⟩
      cases ip with
      | zero => exact absurd rfl fits.1
      | v4 bits => nofun
      | v6 bits zone => nofun
    · cases found

/-- `Prefix.Masked`. -/
def masked (p : Prefix) : Prefix := p.len.elim zero fun n => of (p.addr.mask n) n

/-- `Prefix.Contains`: the families have to agree, and addresses with a zone are in
no prefix. -/
def contains (p : Prefix) (ip : Addr) : Bool :=
  match p.len, p.addr, ip with
  | some n, .v4 a, .v4 b => (b ^^^ a) >>> (32 - n) == 0
  | some n, .v6 a _, .v6 b zone =>
    zone == "" && (b ^^^ a) &&& (BitVec.allOnes 128 <<< (128 - n)) == 0
  | _, _, _ => false

/-- `Prefix.Overlaps`. -/
def overlaps (p o : Prefix) : Bool :=
  match p.len, o.len with
  | some m, some n =>
    if p = o then true
    else if p.addr.is4 ≠ o.addr.is4 then false
    else if min m n = 0 then true
    else p.addr.mask (min m n) == o.addr.mask (min m n)
  | _, _ => false

variable {p o : Prefix} {m n : Nat}

@[simp] theorem bits_of_len (valid : p.len = some n) : p.bits = n := by
  rw [bits, valid]
  rfl

theorem len_of_bits (bits : p.bits = n) : p.len = some n := by
  cases found : p.len with
  | none =>
    rw [Prefix.bits, found] at bits
    change (-1 : Int) = n at bits
    omega
  | some m =>
    rw [bits_of_len found] at bits
    exact congrArg some (by omega)

theorem contains_iff (valid : p.len = some n) (ip : Addr) :
    p.contains ip ↔ ip.bitLen = p.addr.bitLen ∧ ip.hasZone = false ∧
      ip.value / 2 ^ (p.addr.bitLen - n) = p.addr.value / 2 ^ (p.addr.bitLen - n) := by
  have some := (p.inside n valid).1
  unfold contains
  rw [valid]
  rcases net : p.addr with _ | a | ⟨a, _⟩
  · exact absurd net some
  · rcases ip with _ | b | ⟨b, zone⟩
    · simp [Addr.bitLen]
    · simp [Addr.bitLen, Addr.hasZone, Addr.value, ← Addr.shiftRight_xor_eq_zero]
    · simp [Addr.bitLen]
  · rcases ip with _ | b | ⟨b, zone⟩
    · simp [Addr.bitLen]
    · simp [Addr.bitLen]
    · simp only [Addr.bitLen, Addr.hasZone, Addr.value, ← Addr.shiftRight_xor_eq_zero,
        Bool.and_eq_true, beq_iff_eq, bne_eq_false_iff_eq, true_and, ← BitVec.toNat_inj (y := 0),
        Addr.toNat_and_ones, BitVec.toNat_ushiftRight, Nat.shiftRight_eq_div_pow]
      simp

theorem masked_eq (valid : p.len = some n) :
    p.masked.len = some n ∧ p.masked.addr = p.addr.mask n := by
  obtain ⟨some, fits⟩ := p.inside n valid
  have nonzero : p.addr.mask n ≠ .zero := by
    cases net : p.addr with
    | zero => exact absurd net some
    | v4 bits => nofun
    | v6 bits zone => nofun
  simp only [masked, valid, Option.elim, of]
  refine ⟨?_, Addr.withoutZone_eq_self (by rw [Addr.hasZone_mask]; exact p.zoneless)⟩
  rw [if_pos ⟨nonzero, by omega, by rw [Addr.bitLen_mask]; omega⟩]
  rfl

/-- A prefix equals its masked form when the host part of its address is zero. -/
theorem eq_masked_iff (valid : p.len = some n) :
    p = p.masked ↔ 2 ^ (p.addr.bitLen - n) ∣ p.addr.value := by
  obtain ⟨len, addr⟩ := masked_eq valid
  have ext : p = p.masked ↔ p.addr = p.addr.mask n := by
    rw [← addr]
    constructor
    · exact congrArg Prefix.addr
    · exact fun same => Prefix.ext same (valid.trans len.symm)
  rw [ext]
  constructor
  · intro same
    rw [same, Addr.bitLen_mask, Addr.value_mask]
    exact Nat.dvd_mul_left _ _
  · intro divides
    refine Addr.eq_of_value (Addr.bitLen_mask _ _).symm p.zoneless
      (by rw [Addr.hasZone_mask]; exact p.zoneless) ?_
    rw [Addr.value_mask, Nat.div_mul_cancel divides]

/-- Two prefixes overlap when they agree on the bits that both of them fix. -/
theorem overlaps_eq (left : p.len = some m) (right : o.len = some n) :
    p.overlaps o ↔ p.addr.bitLen = o.addr.bitLen ∧
      p.addr.value / 2 ^ (p.addr.bitLen - min m n) =
        o.addr.value / 2 ^ (p.addr.bitLen - min m n) := by
  have some := (p.inside m left).1
  have some' := (o.inside n right).1
  have whole {a : Addr} : a.value / 2 ^ a.bitLen = 0 := Nat.div_eq_of_lt a.value_lt
  unfold overlaps
  rw [left, right]
  dsimp only
  split
  · rename_i same
    simp [same]
  · split
    · rename_i other
      rw [Ne, Addr.is4_eq_iff some some'] at other
      simp [other]
    · rename_i same
      rw [not_not, Addr.is4_eq_iff some some'] at same
      split
      · rename_i none
        rw [none, Nat.sub_zero, whole, same, whole]
        simp
      · simp only [beq_iff_eq, same, true_and]
        constructor
        · intro masked
          have value := congrArg Addr.value masked
          rw [Addr.value_mask, Addr.value_mask, same] at value
          exact Nat.eq_of_mul_eq_mul_right (Nat.two_pow_pos _) value
        · intro value
          refine Addr.eq_of_value (by simpa using same) (by simpa using p.zoneless)
            (by simpa using o.zoneless) ?_
          rw [Addr.value_mask, Addr.value_mask, same, value]

theorem contains_self (valid : p.len = some n) : p.contains p.addr :=
  (contains_iff valid p.addr).mpr ⟨rfl, p.zoneless, rfl⟩

theorem div_pow_congr {a b j k : Nat} (le : j ≤ k) (same : a / 2 ^ j = b / 2 ^ j) :
    a / 2 ^ k = b / 2 ^ k := by
  obtain ⟨d, rfl⟩ := Nat.exists_eq_add_of_le le
  rw [Nat.pow_add, ← Nat.div_div_eq_div_mul, ← Nat.div_div_eq_div_mul, same]

theorem overlaps_iff (left : p.len = some m) (right : o.len = some n) :
    p.overlaps o ↔ ∃ ip, p.contains ip ∧ o.contains ip := by
  rw [overlaps_eq left right]
  constructor
  · rintro ⟨family, same⟩
    rcases Nat.le_total m n with le | le
    · refine ⟨o.addr, (contains_iff left _).mpr ⟨family.symm, o.zoneless, ?_⟩, contains_self right⟩
      rw [Nat.min_eq_left le] at same
      exact same.symm
    · refine ⟨p.addr, contains_self left, (contains_iff right _).mpr ⟨family, p.zoneless, ?_⟩⟩
      rw [Nat.min_eq_right le, family] at same
      exact same
  · rintro ⟨ip, inside, inside'⟩
    obtain ⟨family, -, same⟩ := (contains_iff left ip).mp inside
    obtain ⟨family', -, same'⟩ := (contains_iff right ip).mp inside'
    have families : p.addr.bitLen = o.addr.bitLen := family.symm.trans family'
    refine ⟨families, ?_⟩
    calc p.addr.value / 2 ^ (p.addr.bitLen - min m n)
        = ip.value / 2 ^ (p.addr.bitLen - min m n) :=
          (div_pow_congr (Nat.sub_le_sub_left (Nat.min_le_left m n) _) same).symm
      _ = o.addr.value / 2 ^ (p.addr.bitLen - min m n) :=
          div_pow_congr (by rw [families]; exact Nat.sub_le_sub_left (Nat.min_le_right m n) _) same'

theorem overlaps_comm (p o : Prefix) : p.overlaps o = o.overlaps p := by
  cases left : p.len with
  | none => cases right : o.len <;> simp [overlaps, left, right]
  | some m =>
    cases right : o.len with
    | none => simp [overlaps, left, right]
    | some n =>
      rw [Bool.eq_iff_iff, overlaps_iff left right, overlaps_iff right left]
      simp only [and_comm]

theorem overlaps_self (valid : p.len = some n) : p.overlaps p := by
  simp [overlaps, valid]

/-- A prefix of one family whose address has no host bits. -/
structure Network (p : Prefix) (width n : Nat) : Prop where
  family : p.addr.bitLen = width
  len : p.len = some n
  aligned : p = p.masked

namespace Network

variable {width : Nat}

theorem le (net : Network p width n) : n ≤ width := net.family ▸ (p.inside n net.len).2

theorem bits (net : Network p width n) : p.bits = n := bits_of_len net.len

theorem dvd (net : Network p width n) : 2 ^ (width - n) ∣ p.addr.value := by
  have aligned := (eq_masked_iff net.len).mp net.aligned
  rwa [net.family] at aligned

theorem contains_iff (net : Network p width n) {ip : Addr} :
    p.contains ip ↔ ip.bitLen = width ∧ ip.hasZone = false ∧
      ip.value / 2 ^ (width - n) = p.addr.value / 2 ^ (width - n) := by
  rw [Prefix.contains_iff net.len, net.family]

theorem eq_of_contains (net : Network p width n) (net' : Network o width n) {ip : Addr}
    (inside : p.contains ip) (inside' : o.contains ip) : p = o := by
  obtain ⟨-, -, same⟩ := net.contains_iff.mp inside
  obtain ⟨-, -, same'⟩ := net'.contains_iff.mp inside'
  have value : p.addr.value = o.addr.value := by
    rw [← Nat.div_mul_cancel net.dvd, ← same, same', Nat.div_mul_cancel net'.dvd]
  exact Prefix.ext (Addr.eq_of_value (net.family.trans net'.family.symm) p.zoneless o.zoneless value)
    (net.len.trans net'.len.symm)

theorem contains_host (net : Network p width width) {ip : Addr} :
    p.contains ip ↔ ip = p.addr := by
  rw [net.contains_iff, Nat.sub_self, Nat.pow_zero, Nat.div_one, Nat.div_one]
  constructor
  · rintro ⟨family, zoneless, same⟩
    exact Addr.eq_of_value (family.trans net.family.symm) zoneless p.zoneless same
  · rintro rfl
    exact ⟨net.family, p.zoneless, rfl⟩

end Network

/-- A prefix that is masked has a length, unless it is the zero value. -/
theorem exists_network (aligned : p = p.masked) (nonzero : p.addr ≠ .zero) :
    ∃ n, Network p p.addr.bitLen n := by
  cases found : p.len with
  | none =>
    rw [masked, found] at aligned
    exact absurd (congrArg Prefix.addr aligned) nonzero
  | some n => exact ⟨n, rfl, found, aligned⟩

theorem of_network (a : Addr) (nonzero : a ≠ .zero) :
    Network (.of a a.bitLen) a.bitLen a.bitLen := by
  have len : (of a a.bitLen).len = some a.bitLen := by simp [of, nonzero]
  refine ⟨by simp [of], len, ?_⟩
  rw [eq_masked_iff len]
  simp [of]

/-- A prefix of full length contains the address it was made of, without its zone. -/
theorem eq_of_contains_of {a ip : Addr} {k : Int} (full : a.bitLen ≤ k)
    (inside : (of a k).contains ip) : ip = a.withoutZone := by
  have fits : a ≠ .zero ∧ 0 ≤ k ∧ k ≤ a.bitLen := by
    by_contra unfit
    have none : (of a k).len = none := if_neg unfit
    simp [contains, none] at inside
  obtain rfl : k = a.bitLen := by omega
  exact (of_network a fits.1).contains_host.mp inside

end Prefix

end Clatto.Netip
