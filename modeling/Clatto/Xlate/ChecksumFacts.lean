import Clatto.Lib.OnesComplement
import Clatto.Xlate.Wire

/-! The checksum functions as one's complement arithmetic: what 64-bit
accumulators compute as long as they do not overflow. -/

namespace Clatto.Xlate

open Bytes Ones

theorem toNat_halve32 (acc : UInt64) :
    ((acc >>> 32) + (acc &&& 0xffffffff)).toNat = acc.toNat / 2 ^ 32 + acc.toNat % 2 ^ 32 := by
  have high : (acc >>> 32).toNat = acc.toNat / 2 ^ 32 := by
    rw [UInt64.toNat_shiftRight]
    exact Nat.shiftRight_eq_div_pow _ 32
  have low : (acc &&& 0xffffffff).toNat = acc.toNat % 2 ^ 32 := by
    rw [UInt64.toNat_and]
    exact Nat.and_two_pow_sub_one_eq_mod _ 32
  have := acc.toNat_lt
  rw [UInt64.toNat_add, high, low]
  omega

theorem toNat_halve16 (acc : UInt64) :
    ((acc >>> 16) + (acc &&& 0xffff)).toNat = acc.toNat / 2 ^ 16 + acc.toNat % 2 ^ 16 := by
  have high : (acc >>> 16).toNat = acc.toNat / 2 ^ 16 := by
    rw [UInt64.toNat_shiftRight]
    exact Nat.shiftRight_eq_div_pow _ 16
  have low : (acc &&& 0xffff).toNat = acc.toNat % 2 ^ 16 := by
    rw [UInt64.toNat_and]
    exact Nat.and_two_pow_sub_one_eq_mod _ 16
  have := acc.toNat_lt
  rw [UInt64.toNat_add, high, low]
  omega

theorem toNat_fold (acc : UInt64) : (fold acc).toNat = carry acc.toNat := by
  have bound := acc.toNat_lt
  rw [fold, UInt64.toNat_toUInt16, toNat_halve16, toNat_halve16, toNat_halve32, toNat_halve32]
  generalize first : acc.toNat / 2 ^ 32 + acc.toNat % 2 ^ 32 = a
  generalize second : a / 2 ^ 32 + a % 2 ^ 32 = b
  generalize third : b / 2 ^ 16 + b % 2 ^ 16 = c
  have narrow : c / 2 ^ 16 + c % 2 ^ 16 ≤ 65535 := by omega
  calc (c / 2 ^ 16 + c % 2 ^ 16) % 2 ^ 16 = carry (c / 2 ^ 16 + c % 2 ^ 16) := by
        rw [carry_of_le narrow, Nat.mod_eq_of_lt (by omega)]
    _ = carry acc.toNat := by
        rw [carry_halve16, ← third, carry_halve16, ← second, carry_halve32, ← first, carry_halve32]

/-- The sums stay far below the accumulator's range for anything a packet can
hold. -/
def Roomy (b : Bytes) (acc : UInt64) : Prop := acc.toNat + b.length * 2 ^ 32 < 2 ^ 64

theorem be16_pair (b0 b1 : UInt8) : be16 [b0, b1] 0 = b0.toNat * 256 + b1.toNat := rfl

theorem be32_quad (b0 b1 b2 b3 : UInt8) :
    be32 [b0, b1, b2, b3] 0 =
      (b0.toNat * 256 + b1.toNat) * 65536 + (b2.toNat * 256 + b3.toNat) := rfl

theorem toNat_sumPairs {b : Bytes} {acc : UInt64} (roomy : Roomy b acc) :
    (sumPairs b acc).toNat = acc.toNat + wordSum b := by
  unfold Roomy at roomy
  fun_induction sumPairs b acc with
  | case1 b0 b1 rest acc ih =>
    have := b0.toNat_lt
    have := b1.toNat_lt
    simp only [List.length_cons] at roomy
    have step : (acc + UInt64.ofNat (be16 [b0, b1] 0)).toNat =
        acc.toNat + (b0.toNat * 256 + b1.toNat) := by
      rw [be16_pair, UInt64.toNat_add, UInt64.toNat_ofNat']
      omega
    rw [ih (by omega), step, wordSum]
    omega
  | case2 b0 acc =>
    have := b0.toNat_lt
    have word : (b0.toUInt64 <<< 8).toNat = b0.toNat * 256 := by
      rw [UInt64.toNat_shiftLeft, UInt8.toNat_toUInt64, Nat.shiftLeft_eq]
      exact Nat.mod_eq_of_lt (by simp; omega)
    simp only [List.length_cons] at roomy
    rw [UInt64.toNat_add, word, wordSum]
    omega
  | case3 acc => rfl

/-- The numbers that `sum16` adds up, without an end to the accumulator. -/
def strideSum : Bytes → Nat
  | b0 :: b1 :: b2 :: b3 :: b4 :: b5 :: b6 :: b7 :: rest =>
    be32 [b0, b1, b2, b3] 0 + be32 [b4, b5, b6, b7] 0 + strideSum rest
  | rest => wordSum rest

theorem be32_quad_lt (b0 b1 b2 b3 : UInt8) : be32 [b0, b1, b2, b3] 0 < 2 ^ 32 := by
  have := b0.toNat_lt
  have := b1.toNat_lt
  have := b2.toNat_lt
  have := b3.toNat_lt
  rw [be32_quad]
  omega

theorem strideSum_le (b : Bytes) : strideSum b ≤ b.length * 2 ^ 32 := by
  fun_induction strideSum b with
  | case1 b0 b1 b2 b3 b4 b5 b6 b7 rest ih =>
    have first := be32_quad_lt b0 b1 b2 b3
    have second := be32_quad_lt b4 b5 b6 b7
    have eight : (b0 :: b1 :: b2 :: b3 :: b4 :: b5 :: b6 :: b7 :: rest).length = rest.length + 8 := rfl
    omega
  | case2 rest => exact (wordSum_le rest).trans (Nat.mul_le_mul_left _ (by decide))

theorem carry_strideSum (n : Nat) (b : Bytes) : carry (n + strideSum b) = carry (n + wordSum b) := by
  fun_induction strideSum b generalizing n with
  | case1 b0 b1 b2 b3 b4 b5 b6 b7 rest ih =>
    rw [← Nat.add_assoc, ih]
    refine carry_eq_iff.mpr ?_
    simp only [be32_quad, wordSum]
    omega
  | case2 rest => rfl

theorem sumOctets_spec {b : Bytes} {acc : UInt64} (roomy : Roomy b acc) :
    (sumOctets b acc).1.toNat + wordSum (sumOctets b acc).2 = acc.toNat + strideSum b ∧
      Roomy (sumOctets b acc).2 (sumOctets b acc).1 := by
  fun_induction sumOctets b acc with
  | case1 b0 b1 b2 b3 b4 b5 b6 b7 rest acc ih =>
    have := be32_quad_lt b0 b1 b2 b3
    have := be32_quad_lt b4 b5 b6 b7
    simp only [Roomy, List.length_cons] at roomy
    have step : (acc + (UInt64.ofNat (be32 [b0, b1, b2, b3] 0) +
        UInt64.ofNat (be32 [b4, b5, b6, b7] 0))).toNat =
        acc.toNat + (be32 [b0, b1, b2, b3] 0 + be32 [b4, b5, b6, b7] 0) := by
      simp only [UInt64.toNat_add, UInt64.toNat_ofNat']
      omega
    obtain ⟨same, roomy'⟩ := ih (by rw [Roomy, step]; omega)
    rw [step, Nat.add_assoc] at same
    exact ⟨same, roomy'⟩
  | case2 b acc different =>
    rw [strideSum.eq_2 b different]
    exact ⟨rfl, roomy⟩

theorem toNat_sum16 {b : Bytes} {acc : UInt64} (roomy : Roomy b acc) :
    (sum16 b acc).toNat = acc.toNat + strideSum b := by
  obtain ⟨same, rest⟩ := sumOctets_spec roomy
  rw [sum16, toNat_sumPairs rest, same]

/-- `sum16` adds the words of `b` to the accumulator, up to end-around carry. -/
theorem carry_sum16 {b : Bytes} {acc : UInt64} (roomy : Roomy b acc) :
    carry (sum16 b acc).toNat = carry (acc.toNat + wordSum b) := by
  rw [toNat_sum16 roomy, carry_strideSum]

theorem sum16_le {b : Bytes} {acc : UInt64} (roomy : Roomy b acc) :
    (sum16 b acc).toNat ≤ acc.toNat + b.length * 2 ^ 32 := by
  rw [toNat_sum16 roomy]
  exact Nat.add_le_add_left (strideSum_le b) _

/-- A checksum verifies when everything summed vanishes modulo 65535 without
being empty. -/
theorem verify_iff {b : Bytes} {extra : UInt64} (roomy : Roomy b extra) :
    verify b extra ↔ extra.toNat + wordSum b ≠ 0 ∧ (extra.toNat + wordSum b) % 65535 = 0 := by
  rw [← carry_eq_full, ← carry_sum16 roomy, ← toNat_fold, verify, beq_iff_eq, ← UInt16.toNat_inj]
  rfl

theorem toNat_not16 (n : UInt16) : (~~~ n).toNat = 65535 - n.toNat :=
  UInt16.toNat_not n

theorem toNat_checksum {b : Bytes} {extra : UInt64} (roomy : Roomy b extra) :
    (checksum b extra).toNat = 65535 - carry (extra.toNat + wordSum b) := by
  rw [checksum, toNat_not16, toNat_fold, carry_sum16 roomy]

theorem toNat_adjust {old : UInt16} {remove add : UInt64} (small : add.toNat < 2 ^ 48) :
    (adjust old remove add).toNat =
      65535 - carry (65535 - old.toNat + (65535 - carry remove.toNat) + add.toNat) := by
  have sum : ((~~~ old).toUInt64 + (~~~ fold remove).toUInt64 + add).toNat =
      65535 - old.toNat + (65535 - carry remove.toNat) + add.toNat := by
    simp only [UInt64.toNat_add, UInt16.toNat_toUInt64, toNat_not16, toNat_fold]
    omega
  rw [adjust, toNat_not16, toNat_fold, sum]

theorem roomy_zero {b : Bytes} (short : b.length < 2 ^ 32) : Roomy b 0 := by
  unfold Roomy
  simp only [UInt64.toNat_zero]
  omega

theorem sum16_short {b : Bytes} (short : b.length ≤ 32) :
    carry (sum16 b 0).toNat = carry (wordSum b) ∧ (sum16 b 0).toNat ≤ 2 ^ 37 := by
  have roomy := roomy_zero (b := b) (by omega)
  have bound := sum16_le roomy
  rw [UInt64.toNat_zero] at bound
  refine ⟨?_, by omega⟩
  rw [carry_sum16 roomy, UInt64.toNat_zero, Nat.zero_add]

theorem pseudo4_spec {src dst : Bytes} (hs : src.length = 4) (hd : dst.length = 4) {len : Nat}
    (small : len < 2 ^ 32) (proto : UInt8) :
    carry (pseudo4 src dst len proto).toNat =
        carry (wordSum src + wordSum dst + len + proto.toNat) ∧
      (pseudo4 src dst len proto).toNat < 2 ^ 40 := by
  obtain ⟨left, leftBound⟩ := sum16_short (b := src) (by omega)
  obtain ⟨right, rightBound⟩ := sum16_short (b := dst) (by omega)
  have := proto.toNat_lt
  have length : (UInt64.ofInt (len : Int)).toNat = len := by
    rw [UInt64.ofInt, UInt64.toNat_ofNat']
    omega
  have sum : (pseudo4 src dst len proto).toNat =
      (sum16 src 0).toNat + (sum16 dst 0).toNat + len + proto.toNat := by
    simp only [pseudo4, List.take_of_length_le (le_of_eq hs), List.take_of_length_le (le_of_eq hd),
      UInt64.toNat_add, UInt8.toNat_toUInt64, length]
    omega
  rw [sum]
  rw [carry_eq_iff] at left right ⊢
  omega

theorem pseudo6_spec {src dst : Bytes} (hs : src.length = 16) (hd : dst.length = 16) {len : Nat}
    (small : len < 2 ^ 32) (next : UInt8) :
    carry (pseudo6 src dst len next).toNat =
        carry (wordSum src + wordSum dst + len + next.toNat) ∧
      (pseudo6 src dst len next).toNat < 2 ^ 40 := by
  obtain ⟨left, leftBound⟩ := sum16_short (b := src) (by omega)
  obtain ⟨right, rightBound⟩ := sum16_short (b := dst) (by omega)
  have := next.toNat_lt
  have sum : (pseudo6 src dst len next).toNat =
      (sum16 src 0).toNat + (sum16 dst 0).toNat + len / 65536 + len % 65536 + next.toNat := by
    simp only [pseudo6, List.take_of_length_le (le_of_eq hs), List.take_of_length_le (le_of_eq hd),
      UInt64.toNat_add, UInt8.toNat_toUInt64, UInt64.toNat_ofNat', uint32_natCast, uint16_natCast,
      Nat.shiftRight_eq_div_pow]
    omega
  rw [sum]
  rw [carry_eq_iff] at left right ⊢
  omega

theorem wordSum_ipv4Header {ck : Nat} (small : ck < 65536) (tos : UInt8) (len ident flags : Nat)
    (ttl proto : UInt8) (src dst : Bytes) :
    wordSum (ipv4Header tos len ident flags ttl proto ck src dst) =
        wordSum (ipv4Header tos len ident flags ttl proto 0 src dst) + ck ∧
      0 < wordSum (ipv4Header tos len ident flags ttl proto 0 src dst) := by
  have split (value : Nat) (rest : Bytes) : wordSum (enc16 value ++ rest) =
      wordSum (enc16 value) + wordSum rest := wordSum_append (by simp) rest
  have front : ∀ rest, wordSum ([0x45, tos] ++ rest) = 0x4500 + tos.toNat + wordSum rest :=
    fun _ => rfl
  have middle : ∀ rest, wordSum ([ttl, proto] ++ rest) =
      ttl.toNat * 256 + proto.toNat + wordSum rest := fun _ => rfl
  simp only [ipv4Header, front, middle, split, wordSum_enc16 small,
    wordSum_enc16 (show 0 < 65536 by decide)]
  omega

theorem verify_sealed {src dst : Bytes} (hs : src.length = 4) (hd : dst.length = 4) (tos : UInt8)
    (len ident flags : Nat) (ttl proto : UInt8) :
    verify (sealedIPv4Header tos len ident flags ttl proto src dst) 0 := by
  have roomy (ck : Nat) : Roomy (ipv4Header tos len ident flags ttl proto ck src dst) 0 :=
    roomy_zero (by simp [hs, hd])
  have value := toNat_checksum (roomy 0)
  have limit := carry_le (wordSum (ipv4Header tos len ident flags ttl proto 0 src dst))
  have folded := carry_mod (wordSum (ipv4Header tos len ident flags ttl proto 0 src dst))
  rw [UInt64.toNat_zero, Nat.zero_add] at value
  obtain ⟨sum, positive⟩ := @wordSum_ipv4Header
    (checksum (ipv4Header tos len ident flags ttl proto 0 src dst) 0).toNat (UInt16.toNat_lt _)
    tos len ident flags ttl proto src dst
  rw [sealedIPv4Header, verify_iff (roomy _), UInt64.toNat_zero, Nat.zero_add, sum, value]
  omega

theorem wordSum_icmpMessage {ck : Nat} (small : ck < 65536) (typ code : UInt8) (word : Nat)
    (body : Bytes) :
    wordSum (icmpMessage typ code ck word body) = wordSum (icmpMessage typ code 0 word body) + ck := by
  have split (value : Nat) (rest : Bytes) : wordSum (enc16 value ++ rest) =
      wordSum (enc16 value) + wordSum rest := wordSum_append (by simp) rest
  have front : ∀ rest, wordSum ([typ, code] ++ rest) =
      typ.toNat * 256 + code.toNat + wordSum rest := fun _ => rfl
  simp only [icmpMessage, front, split, wordSum_enc16 small,
    wordSum_enc16 (show 0 < 65536 by decide)]
  omega

theorem verify_sealedICMP {pseudo : UInt64} {body : Bytes} (small : pseudo.toNat < 2 ^ 40)
    (short : body.length < 65536) (typ code : UInt8) (word : Nat) :
    verify (sealedICMP pseudo typ code word body) pseudo := by
  have roomy (ck : Nat) : Roomy (icmpMessage typ code ck word body) pseudo := by
    rw [Roomy, length_icmpMessage]
    omega
  have value := toNat_checksum (roomy 0)
  have limit := carry_le (pseudo.toNat + wordSum (icmpMessage typ code 0 word body))
  have folded := carry_mod (pseudo.toNat + wordSum (icmpMessage typ code 0 word body))
  have zero := @carry_eq_zero (pseudo.toNat + wordSum (icmpMessage typ code 0 word body))
  have sum := wordSum_icmpMessage (UInt16.toNat_lt (checksum (icmpMessage typ code 0 word body) pseudo))
    typ code word body
  rw [sealedICMP, verify_iff (roomy _), sum, value]
  omega

/-- What `fold` has come to before it is cut off at 16 bits. -/
def foldSteps (acc : UInt64) : UInt64 :=
  let acc := (acc >>> 32) + (acc &&& 0xffffffff)
  let acc := (acc >>> 32) + (acc &&& 0xffffffff)
  let acc := (acc >>> 16) + (acc &&& 0xffff)
  (acc >>> 16) + (acc &&& 0xffff)

theorem toNat_foldSteps (acc : UInt64) : (foldSteps acc).toNat = (fold acc).toNat := by
  have bound := acc.toNat_lt
  rw [show fold acc = (foldSteps acc).toUInt16 from rfl, UInt64.toNat_toUInt16, foldSteps,
    toNat_halve16, toNat_halve16, toNat_halve32, toNat_halve32]
  omega

theorem verify_stored {b : Bytes} {extra : UInt64} (roomy : Roomy b extra) {i : Nat}
    (even : i % 2 = 0) (inside : i + 2 ≤ b.length) (empty : be16 b i = 0) :
    verify (splice b i (enc16 (checksum b extra).toNat)) extra = true := by
  have stored := wordSum_splice even inside (checksum b extra).toNat_lt
  have value := toNat_checksum roomy
  have bound := carry_le (extra.toNat + wordSum b)
  have residue := carry_mod (extra.toNat + wordSum b)
  refine (verify_iff (by rw [Roomy, length_splice]; exact roomy)).mpr ?_
  by_cases nothing : extra.toNat + wordSum b = 0
  · rw [nothing] at value
    rw [carry_eq_zero.mpr rfl] at value
    omega
  · have positive : carry (extra.toNat + wordSum b) ≠ 0 :=
      fun zero => nothing (carry_eq_zero.mp zero)
    omega

/-- The checksum functions compute what RFC 1071 defines. -/
theorem checksum_refines {b : Bytes} {acc : UInt64} (short : b.length ≤ 65575)
    (small : acc.toNat < 2 ^ 48) :
    (fold (sum16 b acc)).toNat = addWords b (fold acc).toNat ∧
    (sum16 b acc).toNat = acc.toNat + strideSum b ∧
    (∀ i, i % 2 = 0 → i + 2 ≤ b.length → be16 b i = 0 →
      verify (splice b i (enc16 (checksum b acc).toNat)) acc = true) ∧
    ∀ x : UInt64, (fold x).toNat = (foldSteps x).toNat ∧
      (fold x).toNat % 65535 = x.toNat % 65535 ∧ (fold x = 0 ↔ x = 0) := by
  have roomy : Roomy b acc := by
    unfold Roomy
    omega
  refine ⟨?_, toNat_sum16 roomy, fun i => verify_stored roomy, fun x => ⟨?_, ?_, ?_⟩⟩
  · have again : carry (carry acc.toNat) = carry acc.toNat := carry_of_le (carry_le _)
    rw [toNat_fold, toNat_fold, carry_sum16 roomy, addWords_eq (carry_le _), carry_add_congr again]
  · exact (toNat_foldSteps x).symm
  · rw [toNat_fold, carry_mod]
  · rw [← UInt16.toNat_inj, ← UInt64.toNat_inj, toNat_fold]
    exact carry_eq_zero

/-- An odd number of bytes, and an accumulator that is more than 16 bits wide. -/
theorem checksum_refines_odd :
    (fold (sum16 [0x45, 0, 0, 0, 0xff] 0x1fffe)).toNat =
      addWords [0x45, 0, 0, 0, 0xff] (fold 0x1fffe).toNat ∧
    verify (splice [0x45, 0, 0, 0, 0xff] 2 (enc16 (checksum [0x45, 0, 0, 0, 0xff] 0x1fffe).toNat))
      0x1fffe = true :=
  have refines := @checksum_refines [0x45, 0, 0, 0, 0xff] 0x1fffe (by decide) (by decide)
  ⟨refines.1, refines.2.2.1 2 (by decide) (by decide) (by decide)⟩

end Clatto.Xlate
