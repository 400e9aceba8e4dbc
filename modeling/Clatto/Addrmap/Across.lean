import Clatto.Addrmap.TableLookup
import Clatto.Netutil.Embedding

/-! One entry takes an address to the other family, and back. -/

namespace Clatto.Addrmap

open Netip Netutil
open Xlate (MapError)

section HostBits

variable {p : Prefix} {n : Nat}

theorem toNat_hostMask (net : p.Network 32 n) : (hostMask p).toNat = 2 ^ (32 - n) - 1 := by
  have le := net.le
  have split : (2 : Nat) ^ 32 = 2 ^ (32 - n) * 2 ^ n := by
    rw [← Nat.pow_add]
    congr 1
    omega
  rw [hostMask, net.bits, Int.toNat_natCast, BitVec.toNat_ushiftRight, Nat.shiftRight_eq_div_pow]
  change (2 ^ 32 - 1) / 2 ^ n = _
  rw [split, Nat.div_eq_iff (Nat.two_pow_pos n)]
  have one := @Nat.one_le_two_pow (32 - n)
  have whole : (2 ^ (32 - n) - 1) * 2 ^ n + 2 ^ n = 2 ^ (32 - n) * 2 ^ n := by
    rw [← Nat.succ_mul, Nat.succ_eq_add_one, Nat.sub_add_cancel one]
  have := @Nat.one_le_two_pow n
  omega

theorem toNat_host (net : p.Network 32 n) (x : BitVec 32) :
    (x &&& hostMask p).toNat = x.toNat % 2 ^ (32 - n) := by
  rw [BitVec.toNat_and, toNat_hostMask net, Nat.and_two_pow_sub_one_eq_mod]

/-- A number without low bits, joined with one that has nothing else. -/
theorem or_eq_add {a b k : Nat} (high : 2 ^ k ∣ a) (low : b < 2 ^ k) : a ||| b = a + b := by
  obtain ⟨c, rfl⟩ := high
  exact (Nat.two_pow_add_eq_or_of_lt low c).symm

theorem move_host {m a b x : Nat} (left : m ∣ a) (right : m ∣ b) (pos : 0 < m)
    (inside : x / m = a / m) : (b + x % m) / m = b / m ∧ a + (b + x % m) % m = x := by
  obtain ⟨c, rfl⟩ := left
  obtain ⟨d, rfl⟩ := right
  have low : x % m < m := Nat.mod_lt x pos
  rw [Nat.mul_div_cancel_left c pos] at inside
  rw [Nat.mul_add_div pos, Nat.div_eq_of_lt low, Nat.mul_div_cancel_left d pos, Nat.mul_add_mod,
    Nat.mod_mod, ← inside, Nat.div_add_mod]
  exact ⟨rfl, rfl⟩

end HostBits

section Joined

variable {e : Entry} {n : Nat} {a b : Addr}

theorem joinStatic6_eq (net4 : e.v4.Network 32 n) (net6 : e.v6.Network 128 (n + 96))
    (four : a.bitLen = 32) : ∃ y : BitVec 128, joinStatic6 e a = .ok (.v6 y "") ∧
      y.toNat = e.v6.addr.value + a.value % 2 ^ (32 - n) := by
  obtain ⟨v6, six⟩ := eq_v6_of_bitLen net6.family e.v6.zoneless
  obtain ⟨x, rfl⟩ := eq_v4_of_bitLen four
  have le := net4.le
  unfold joinStatic6
  split
  · rename_i full
    rw [net4.bits] at full
    obtain rfl : n = 32 := by omega
    refine ⟨v6, by rw [six], ?_⟩
    simp [six, Addr.value, Nat.mod_one]
  · refine ⟨_, rfl, ?_⟩
    have aligned := net6.dvd
    have size : 128 - (n + 96) = 32 - n := by omega
    rw [size, six] at aligned
    have low : x.toNat % 2 ^ (32 - n) < 2 ^ (32 - n) := Nat.mod_lt _ (Nat.two_pow_pos _)
    have host := toNat_host net4 x
    rw [Bytes.toNat_ofNat, six, Addr.as16, Bytes.toNat_ofNat]
    have whole : BitVec.ofNat 32 (x.toNat % 256 ^ 4) = x := by
      apply BitVec.eq_of_toNat_eq
      rw [BitVec.toNat_ofNat]
      have := x.isLt
      omega
    have whole6 : BitVec.ofNat 128 (v6.toNat % 256 ^ 16) = v6 := by
      apply BitVec.eq_of_toNat_eq
      rw [BitVec.toNat_ofNat]
      have := v6.isLt
      omega
    rw [whole, whole6, BitVec.toNat_or, BitVec.toNat_setWidth_of_le (by decide), host]
    exact or_eq_add aligned low

/-- The IPv4 address that an entry pairs with an IPv6 address: the network of the one with
the host bits of the other. -/
def Entry.partner4 (e : Entry) (b : Addr) : Addr :=
  .v4 (BitVec.ofNat 32 e.v4.addr.value ||| (BitVec.ofNat 32 b.value &&& hostMask e.v4))

theorem value_partner4 (net4 : e.v4.Network 32 n) (b : Addr) :
    (e.partner4 b).value = e.v4.addr.value + b.value % 2 ^ (32 - n) := by
  obtain ⟨v4, four⟩ := eq_v4_of_bitLen net4.family
  have low : b.value % 2 ^ (32 - n) < 2 ^ (32 - n) := Nat.mod_lt _ (Nat.two_pow_pos _)
  have host : (BitVec.ofNat 32 b.value).toNat % 2 ^ (32 - n) = b.value % 2 ^ (32 - n) := by
    rw [BitVec.toNat_ofNat]
    exact Nat.mod_mod_of_dvd _ (Nat.pow_dvd_pow 2 (by omega))
  have whole : (BitVec.ofNat 32 e.v4.addr.value).toNat = e.v4.addr.value := by
    rw [four, Addr.value, BitVec.ofNat_toNat, BitVec.setWidth_eq]
  rw [Entry.partner4, Addr.value, BitVec.toNat_or, toNat_host net4, host, whole]
  exact or_eq_add net4.dvd low

theorem joinStatic4_eq (net4 : e.v4.Network 32 n) (net6 : e.v6.Network 128 (n + 96))
    (six : b.bitLen = 128) : joinStatic4 e b = .ok (e.partner4 b) := by
  obtain ⟨v4, four⟩ := eq_v4_of_bitLen net4.family
  unfold joinStatic4
  split
  · rename_i full
    rw [net6.bits] at full
    obtain rfl : n = 32 := by omega
    rw [Addr.eq_of_value (a := e.v4.addr) (b := e.partner4 b) net4.family e.v4.zoneless rfl]
    simp [value_partner4 net4, Nat.mod_one]
  · have bytes : Bytes.toNat b.as16 = b.value := by
      cases b with
      | v6 bits zone =>
        rw [Addr.as16, Bytes.toNat_ofNat, Addr.value]
        have := bits.isLt
        omega
      | zero => cases six
      | v4 bits => cases six
    have whole : BitVec.ofNat 32 (v4.toNat % 256 ^ 4) = BitVec.ofNat 32 v4.toNat := by
      rw [Nat.mod_eq_of_lt (show v4.toNat < 256 ^ 4 from v4.isLt)]
    rw [Entry.partner4, four, bytes, Addr.as4, Checked.ok_bind, Bytes.toNat_ofNat, whole]
    rfl

theorem joinStatic4_joinStatic6 (net4 : e.v4.Network 32 n) (net6 : e.v6.Network 128 (n + 96))
    (inside : e.v4.contains a) (sent : joinStatic6 e a = .ok b) :
    e.v6.contains b ∧ joinStatic4 e b = .ok a := by
  obtain ⟨family, -, same⟩ := net4.contains_iff.mp inside
  obtain ⟨y, result, value⟩ := joinStatic6_eq net4 net6 family
  cases sent.symm.trans result
  have le := net4.le
  have size : 128 - (n + 96) = 32 - n := by omega
  have aligned := net6.dvd
  rw [size] at aligned
  obtain ⟨there, back⟩ := move_host net4.dvd aligned (Nat.two_pow_pos _) same
  refine ⟨net6.contains_iff.mpr ⟨rfl, rfl, ?_⟩, ?_⟩
  · rw [size, Addr.value, value]
    exact there
  · rw [joinStatic4_eq net4 net6 (b := .v6 y "") rfl,
      Addr.eq_of_value (a := e.partner4 (.v6 y "")) (b := a) family.symm rfl ?_ ?_]
    · exact (net4.contains_iff.mp inside).2.1
    · rw [value_partner4 net4, Addr.value, value]
      exact back

theorem joinStatic6_joinStatic4 (net4 : e.v4.Network 32 n) (net6 : e.v6.Network 128 (n + 96))
    (inside : e.v6.contains b) (sent : joinStatic4 e b = .ok a) :
    e.v4.contains a ∧ joinStatic6 e a = .ok b := by
  obtain ⟨family, zoneless, same⟩ := net6.contains_iff.mp inside
  obtain rfl : e.partner4 b = a := Except.ok.inj ((joinStatic4_eq net4 net6 family).symm.trans sent)
  have value := value_partner4 net4 b
  have le := net4.le
  have size : 128 - (n + 96) = 32 - n := by omega
  have aligned := net6.dvd
  rw [size] at aligned same
  obtain ⟨there, back⟩ := move_host aligned net4.dvd (Nat.two_pow_pos _) same
  refine ⟨net4.contains_iff.mpr ⟨rfl, rfl, ?_⟩, ?_⟩
  · rw [value]
    exact there
  · obtain ⟨y, result', value'⟩ := joinStatic6_eq net4 net6 (a := e.partner4 b) rfl
    rw [result', Addr.eq_of_value (a := .v6 y "") (b := b) family.symm rfl zoneless ?_]
    rw [Addr.value, value', value]
    exact back

end Joined

section Embedded

variable {p : Prefix} {a b : Addr}

/-- What lets an IPv4 address go through the translation prefix, in either direction. -/
structure Table.Admits (t : Table) (p : Prefix) (v4 : Bytes) : Prop where
  valid : classifyIPv4 v4 = .valid
  allowed : (t.wkpfStrict && isWellKnownPrefix p && isPrivateIPv4 v4) = false

theorem Table.embed_eq_ok {t : Table} {v4 : Bytes} (four : a.as4 = .ok v4) :
    t.embed a p = .ok (.ok b) ↔ t.Admits p v4 ∧
      ∃ out, Netutil.embed p.addr.as16 p.bits v4 = .ok out ∧ b = .from16 out := by
  unfold Table.embed
  simp only [four, Checked.ok_bind, Checked.pure_eq]
  split
  · rename_i bad
    constructor
    · nofun
    · exact fun ⟨admits, _⟩ => absurd admits.valid bad
  rename_i valid
  split
  · rename_i strict
    constructor
    · nofun
    · exact fun ⟨admits, _⟩ => by cases admits.allowed.symm.trans strict
  rename_i allowed
  have admits : t.Admits p v4 := ⟨not_not.mp valid, Bool.eq_false_iff.mpr allowed⟩
  split
  · rename_i failed
    constructor
    · nofun
    · rintro ⟨-, out, made, -⟩
      cases failed.symm.trans made
  · rename_i out made
    constructor
    · rintro ⟨⟩
      exact ⟨admits, out, made, rfl⟩
    · rintro ⟨-, out', made', rfl⟩
      cases made.symm.trans made'
      rfl

theorem Mapper.unembed_eq_ok {s : Mapper} {e : Entry} :
    s.unembed e b = .ok a ↔ ∃ v4, Netutil.extract b.as16 e.v6.bits = .ok v4 ∧
      s.table.Admits e.v6 v4 ∧ s.table.lookup4 (.from4 v4) = some e ∧ a = .from4 v4 := by
  unfold Mapper.unembed
  split
  · rename_i failed
    constructor
    · nofun
    · rintro ⟨v4, found, -⟩
      cases failed.symm.trans found
  rename_i v4 found
  split
  · rename_i bad
    constructor
    · nofun
    · rintro ⟨_, found', admits, -⟩
      cases found.symm.trans found'
      exact absurd admits.valid bad
  rename_i valid
  split
  · rename_i strict
    constructor
    · nofun
    · rintro ⟨_, found', admits, -⟩
      cases found.symm.trans found'
      cases admits.allowed.symm.trans strict
  rename_i allowed
  split
  · rename_i other
    constructor
    · nofun
    · rintro ⟨_, found', -, own, -⟩
      cases found.symm.trans found'
      exact absurd own other
  rename_i own
  constructor
  · rintro ⟨⟩
    exact ⟨v4, found, ⟨not_not.mp valid, Bool.eq_false_iff.mpr allowed⟩, not_not.mp own, rfl⟩
  · rintro ⟨_, found', -, -, rfl⟩
    cases found.symm.trans found'
    rfl

variable {s : Mapper}

/-- The translation prefix leads back to an IPv4 address that it is used for. -/
theorem unembed_embed (ok : TranslationPrefix p) {x : BitVec 32}
    (own : s.table.lookup4 (.v4 x) = some (prefixEntry p))
    (sent : s.table.embed (.v4 x) p = .ok (.ok b)) :
    p.contains b ∧ s.unembed (prefixEntry p) b = .ok (.v4 x) := by
  obtain ⟨admits, out, made, rfl⟩ := (Table.embed_eq_ok rfl).mp sent
  obtain ⟨l, len, net⟩ := ok.network
  rw [Netutil.embed, len] at made
  cases made
  have four : (Bytes.ofNat 4 x.toNat).length = 4 := Bytes.length_ofNat ..
  have sixteen : (embedAt p.addr.as16 (Bytes.ofNat 4 x.toNat) l).length = 16 :=
    length_embedAt (Addr.length_as16 _) four
  constructor
  · rw [contains_iff_take net rfl rfl, as16_from16 sixteen, take_embedAt (Addr.length_as16 _)]
  · refine Mapper.unembed_eq_ok.mpr ⟨Bytes.ofNat 4 x.toNat, ?_, admits, ?_, (from4_ofNat x).symm⟩
    · change extract _ p.bits = _
      rw [as16_from16 sixteen, extract, len]
      exact extractAt_embedAt (Addr.length_as16 _) four
    · rw [from4_ofNat]
      exact own

/-- The translation prefix leads back to an IPv6 address inside it. -/
theorem embed_unembed (ok : TranslationPrefix p) (inside : p.contains b)
    (sent : s.unembed (prefixEntry p) b = .ok a) :
    s.table.lookup4 a = some (prefixEntry p) ∧ s.table.embed a p = .ok (.ok b) := by
  obtain ⟨v4, found, admits, own, rfl⟩ := Mapper.unembed_eq_ok.mp sent
  obtain ⟨l, len, net⟩ := ok.network
  obtain ⟨family, zoneless, -⟩ := net.contains_iff.mp inside
  change extract b.as16 p.bits = _ at found
  rw [extract, len] at found
  obtain ⟨whole, four⟩ := embedAt_extractAt (Addr.length_as16 b)
    ((contains_iff_take net family zoneless).mp inside) found
  refine ⟨own, (Table.embed_eq_ok (as4_from4 four)).mpr ⟨admits, b.as16, ?_, ?_⟩⟩
  · rw [Netutil.embed, len]
    exact congrArg Except.ok whole
  · exact (from16_as16 family zoneless).symm

end Embedded

end Clatto.Addrmap
