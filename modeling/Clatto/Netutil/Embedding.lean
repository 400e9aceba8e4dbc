import Clatto.Netutil.Embed

/-! Embedding an IPv4 address in a prefix and extracting it are inverse to each other. -/

namespace Clatto.Netutil

open Netip

section Addresses

variable {p : Prefix} {a b : Addr}

theorem eq_v4_of_bitLen (family : a.bitLen = 32) : ∃ bits, a = .v4 bits := by
  cases a with
  | v4 bits => exact ⟨bits, rfl⟩
  | zero => cases family
  | v6 bits zone => cases family

theorem eq_v6_of_bitLen (family : a.bitLen = 128) (zoneless : a.hasZone = false) :
    ∃ bits, a = .v6 bits "" := by
  cases a with
  | v6 bits zone =>
    have none : zone = "" := by simpa [Addr.hasZone] using zoneless
    exact ⟨bits, by rw [none]⟩
  | zero => cases family
  | v4 bits => cases family

theorem toNat_take_as16 {k : Nat} (family : b.bitLen = 128) :
    Bytes.toNat (b.as16.take k) = b.value / 2 ^ (128 - 8 * k) := by
  cases b with
  | v6 bits zone =>
    have width : (256 : Nat) ^ (16 - k) = 2 ^ (128 - 8 * k) := by
      rw [show (256 : Nat) = 2 ^ 8 from rfl, ← Nat.pow_mul]
      congr 1
      omega
    rw [Bytes.toNat_take, Addr.length_as16, width, Addr.as16, Bytes.toNat_ofNat, Addr.value]
    congr 1
    exact Nat.mod_eq_of_lt bits.isLt
  | zero => cases family
  | v4 bits => cases family

/-- A prefix of whole bytes contains the addresses that start with them. -/
theorem contains_iff_take {k : Nat} (net : p.Network 128 (8 * k)) (family : b.bitLen = 128)
    (zoneless : b.hasZone = false) :
    p.contains b ↔ b.as16.take k = p.addr.as16.take k := by
  rw [net.contains_iff, ← toNat_take_as16 family, ← toNat_take_as16 net.family]
  constructor
  · rintro ⟨-, -, same⟩
    exact Bytes.toNat_inj (by simp) same
  · intro same
    exact ⟨family, zoneless, by rw [same]⟩

theorem as16_from16 {out : Bytes} (sixteen : out.length = 16) : (Addr.from16 out).as16 = out := by
  have lt : Bytes.toNat out < 2 ^ 128 := by simpa [sixteen] using Bytes.toNat_lt out
  rw [Addr.from16, Addr.as16, BitVec.toNat_ofNat, Nat.mod_eq_of_lt lt, Bytes.ofNat_toNat sixteen]

theorem from16_as16 (family : b.bitLen = 128) (zoneless : b.hasZone = false) :
    Addr.from16 b.as16 = b := by
  obtain ⟨bits, rfl⟩ := eq_v6_of_bitLen family zoneless
  rw [Addr.as16, Addr.from16, Bytes.toNat_ofNat]
  congr 1
  apply BitVec.eq_of_toNat_eq
  rw [BitVec.toNat_ofNat]
  have := bits.isLt
  omega

theorem from4_ofNat (x : BitVec 32) : Addr.from4 (Bytes.ofNat 4 x.toNat) = .v4 x := by
  rw [Addr.from4, Bytes.toNat_ofNat]
  congr 1
  apply BitVec.eq_of_toNat_eq
  rw [BitVec.toNat_ofNat]
  have := x.isLt
  omega

theorem as4_from4 {v4 : Bytes} (four : v4.length = 4) : (Addr.from4 v4).as4 = .ok v4 := by
  have lt : Bytes.toNat v4 < 2 ^ 32 := by simpa [four] using Bytes.toNat_lt v4
  rw [Addr.from4, Addr.as4, BitVec.toNat_ofNat, Nat.mod_eq_of_lt lt, Bytes.ofNat_toNat four]

end Addresses

theorem exists_prefixLen {n : Int} (legal : validRFC6052PrefixLen n = true) :
    ∃ l, prefixLen? n = some l ∧ n = ((8 * l.bytes : Nat) : Int) := by
  obtain ⟨l, found⟩ := Option.isSome_iff_exists.mp legal
  refine ⟨l, found, ?_⟩
  unfold prefixLen? at found
  split_ifs at found <;> cases found <;> assumption

theorem of_from16_network {pfx : Bytes} {k : Nat} (short : 8 * k ≤ 128)
    (aligned : Prefix.of (.from16 pfx) ((8 * k : Nat) : Int) =
      (Prefix.of (.from16 pfx) ((8 * k : Nat) : Int)).masked) :
    (Prefix.of (.from16 pfx) ((8 * k : Nat) : Int)).Network 128 (8 * k) := by
  refine ⟨rfl, ?_, aligned⟩
  have fits : Addr.from16 pfx ≠ .zero ∧ (0 : Int) ≤ ((8 * k : Nat) : Int) ∧
      ((8 * k : Nat) : Int) ≤ ((Addr.from16 pfx).bitLen : Int) := by
    refine ⟨?_, Int.natCast_nonneg _, Int.ofNat_le.mpr short⟩
    intro zero
    cases zero
  show (if _ then some _ else none) = _
  rw [if_pos fits, Int.toNat_natCast]

theorem PrefixLen.bytes_le (l : PrefixLen) : 8 * l.bytes ≤ 128 := by
  cases l <;> decide

/-- No usable address has an embedded form inside 64:ff9b::/96 but behind that prefix. -/
theorem wellKnown_of_embedAt {pfx v4 : Bytes} {l : PrefixLen} (sixteen : pfx.length = 16)
    (four : v4.length = 4) (usable : classifyIPv4 v4 ≠ .invalid)
    (inside : (embedAt pfx v4 l).take 12 = [0, 0x64, 0xff, 0x9b, 0, 0, 0, 0, 0, 0, 0, 0]) :
    l = .l96 ∧ (embedAt pfx v4 l).drop 12 = v4 := by
  obtain ⟨p0, p1, p2, p3, p4, p5, p6, p7, p8, p9, p10, p11, p12, p13, p14, p15, rfl⟩ :=
    exists_sixteen pfx sixteen
  obtain ⟨a, b, c, d, rfl⟩ := exists_four v4 four
  have first : a ≠ 0 := fun zero => usable (by simp [classifyIPv4, Bytes.byteAt, zero])
  cases l with
  | l96 => exact ⟨rfl, rfl⟩
  | _ => simp [embedAt, Bytes.sub, first] at inside

/-- `Extract` has one reason to refuse an address behind a legal prefix. -/
theorem extractAt_error {b : Bytes} {l : PrefixLen} {err : EmbedError}
    (refused : extractAt b l = .error err) : err = .notEmbedded := by
  cases l <;> simp only [extractAt] at refused
  case l96 => cases refused
  all_goals
    split at refused
    · cases refused
      rfl
    · cases refused

/-- Embedding is a bijection between the IPv4 addresses and those addresses of the prefix that
`Extract` accepts. -/
theorem embed_bijective {n : Int} (legal : validRFC6052PrefixLen n = true) {pfx : Bytes}
    (sixteen : pfx.length = 16)
    (aligned : Prefix.of (.from16 pfx) n = (Prefix.of (.from16 pfx) n).masked) :
    (∀ v4 : Bytes, v4.length = 4 → ∃ out, embed pfx n v4 = .ok out ∧ out.length = 16 ∧
      extract out n = .ok v4 ∧ (Prefix.of (.from16 pfx) n).contains (.from16 out) = true) ∧
    ∀ b : Bytes, b.length = 16 → (Prefix.of (.from16 pfx) n).contains (.from16 b) = true →
      (∀ v4, extract b n = .ok v4 ↔ v4.length = 4 ∧ embed pfx n v4 = .ok b) ∧
      ((∀ v4 : Bytes, v4.length = 4 → embed pfx n v4 ≠ .ok b) → extract b n = .error .notEmbedded) := by
  obtain ⟨l, found, rfl⟩ := exists_prefixLen legal
  have net := of_from16_network l.bytes_le aligned
  have inside {b : Bytes} (length : b.length = 16) :
      (Prefix.of (.from16 pfx) ((8 * l.bytes : Nat) : Int)).contains (.from16 b) ↔
        b.take l.bytes = pfx.take l.bytes := by
    rw [contains_iff_take net rfl rfl, as16_from16 length]
    show b.take _ = (Addr.from16 pfx).as16.take _ ↔ _
    rw [as16_from16 sixteen]
  have embedded (v4 : Bytes) : embed pfx ((8 * l.bytes : Nat) : Int) v4 = .ok (embedAt pfx v4 l) := by
    rw [embed, found]
  have extracted (b : Bytes) : extract b ((8 * l.bytes : Nat) : Int) = extractAt b l := by
    rw [extract, found]
  refine ⟨fun v4 four => ?_, fun b length member => ?_⟩
  · refine ⟨embedAt pfx v4 l, embedded v4, length_embedAt sixteen four, ?_, ?_⟩
    · rw [extracted]
      exact extractAt_embedAt sixteen four
    · exact (inside (length_embedAt sixteen four)).mpr (take_embedAt sixteen v4)
  · have exact_iff (v4 : Bytes) : extractAt b l = .ok v4 ↔ v4.length = 4 ∧ embedAt pfx v4 l = b := by
      constructor
      · intro accepted
        obtain ⟨back, four⟩ := embedAt_extractAt length ((inside length).mp member) accepted
        exact ⟨four, back⟩
      · rintro ⟨four, rfl⟩
        exact extractAt_embedAt sixteen four
    simp only [extracted, embedded, Except.ok.injEq]
    refine ⟨exact_iff, fun foreign => ?_⟩
    cases result : extractAt b l with
    | ok v4 =>
      obtain ⟨four, back⟩ := (exact_iff v4).mp result
      exact absurd (congrArg Except.ok back) (foreign v4 four)
    | error err => rw [extractAt_error result]

/-- 192.0.2.33 behind 2001:db8:122::/48, an example of RFC 6052. -/
theorem embed_bijective_48 :
    ∃ out, embed [0x20, 0x01, 0x0d, 0xb8, 0x01, 0x22, 0, 0, 0, 0, 0, 0, 0, 0, 0, 0] 48
        [192, 0, 2, 33] = .ok out ∧ out.length = 16 ∧ extract out 48 = .ok [192, 0, 2, 33] ∧
      (Prefix.of (.from16 [0x20, 0x01, 0x0d, 0xb8, 0x01, 0x22, 0, 0, 0, 0, 0, 0, 0, 0, 0, 0])
        48).contains (.from16 out) = true :=
  (embed_bijective (by decide) (by decide) (by decide)).1 _ (by decide)

end Clatto.Netutil
