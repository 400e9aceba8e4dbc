import Clatto.Lib.Datagram
import Clatto.Xlate.Trace6

/-! Reading the translator's own output: every field of the headers it writes,
and the pieces a receiver finds in its packets. -/

namespace Clatto.Xlate

open Bytes

theorem toNat_pred {hop : UInt8} (alive : 1 ≤ hop.toNat) : (hop - 1).toNat = hop.toNat - 1 :=
  UInt8.toNat_sub_of_le hop 1 alive

section IPv6

variable (tc : UInt8) (len : Nat) (next hop : UInt8) {src dst : Bytes} (z : Bytes)

theorem ipv6Header_word : be32 (ipv6Header tc len next hop src dst ++ z) 0 =
    6 * 2 ^ 28 + tc.toNat * 2 ^ 20 := by
  have := tc.toNat_lt
  rw [ipv6Header, List.append_assoc, be32_enc32]
  omega

theorem ipv6Header_version : byteAt (ipv6Header tc len next hop src dst ++ z) 0 >>> 4 = 6 := by
  show UInt8.ofNat ((6 * 2 ^ 28 + tc.toNat * 2 ^ 20) / 65536 / 256) >>> 4 = 6
  have := tc.toNat_lt
  rw [← UInt8.toNat_inj, UInt8.toNat_shiftRight, UInt8.toNat_ofNat', Nat.shiftRight_eq_div_pow]
  simp
  omega

theorem ipv6Header_tc :
    UInt8.ofNat (be32 (ipv6Header tc len next hop src dst ++ z) 0 >>> 20) = tc := by
  have := tc.toNat_lt
  rw [ipv6Header_word, ← UInt8.toNat_inj, UInt8.toNat_ofNat', Nat.shiftRight_eq_div_pow]
  omega

theorem ipv6Header_len : be16 (ipv6Header tc len next hop src dst ++ z) 4 = len % 65536 :=
  be16_enc16 len ([next, hop] ++ (src ++ dst) ++ z)

theorem ipv6Header_next : byteAt (ipv6Header tc len next hop src dst ++ z) 6 = next := rfl

theorem ipv6Header_hop : byteAt (ipv6Header tc len next hop src dst ++ z) 7 = hop := rfl

variable (hs : src.length = 16) (hd : dst.length = 16)

include hs hd

theorem ipv6Header_src : sub (ipv6Header tc len next hop src dst ++ z) 8 24 = src := by
  rw [sub, List.take_append_of_le_length (by simp; omega)]
  exact sub_ipv6Header_src hs tc len next hop

theorem ipv6Header_dst : sub (ipv6Header tc len next hop src dst ++ z) 24 40 = dst := by
  rw [sub, List.take_append_of_le_length (by simp; omega)]
  exact sub_ipv6Header_dst hs hd tc len next hop

end IPv6

section IPv4

variable (tos : UInt8) (len ident flags : Nat) (ttl proto : UInt8) (ck : Nat) {src dst : Bytes}
  (z : Bytes)

theorem ipv4Header_first :
    byteAt (ipv4Header tos len ident flags ttl proto ck src dst ++ z) 0 = 0x45 := rfl

theorem ipv4Header_len :
    be16 (ipv4Header tos len ident flags ttl proto ck src dst ++ z) 2 = len % 65536 :=
  be16_enc16 len (enc16 ident ++ (enc16 flags ++ ([ttl, proto] ++ (enc16 ck ++ (src ++ dst)))) ++ z)

theorem ipv4Header_ident :
    be16 (ipv4Header tos len ident flags ttl proto ck src dst ++ z) 4 = ident % 65536 :=
  be16_enc16 ident (enc16 flags ++ ([ttl, proto] ++ (enc16 ck ++ (src ++ dst))) ++ z)

theorem ipv4Header_flags :
    be16 (ipv4Header tos len ident flags ttl proto ck src dst ++ z) 6 = flags % 65536 :=
  be16_enc16 flags ([ttl, proto] ++ (enc16 ck ++ (src ++ dst)) ++ z)

theorem ipv4Header_ttl :
    byteAt (ipv4Header tos len ident flags ttl proto ck src dst ++ z) 8 = ttl := rfl

theorem ipv4Header_proto :
    byteAt (ipv4Header tos len ident flags ttl proto ck src dst ++ z) 9 = proto := rfl

variable (hs : src.length = 4) (hd : dst.length = 4)

include hs hd

theorem ipv4Header_src :
    sub (ipv4Header tos len ident flags ttl proto ck src dst ++ z) 12 16 = src := by
  rw [sub, List.take_append_of_le_length (by simp; omega)]
  exact sub_ipv4Header_src hs tos len ident flags ttl proto ck

theorem ipv4Header_dst :
    sub (ipv4Header tos len ident flags ttl proto ck src dst ++ z) 16 20 = dst := by
  rw [sub, List.take_append_of_le_length (by simp; omega)]
  exact sub_ipv4Header_dst hs hd tos len ident flags ttl proto ck

end IPv4

theorem piece6_whole {src dst data : Bytes} {next : UInt8} (hs : src.length = 16)
    (hd : dst.length = 16) (plain : next ≠ protoFrag) (short : data.length < 65536)
    (tc hop : UInt8) :
    piece6 (ipv6Header tc data.length next hop src dst ++ data) =
      { src, dst, proto := next, ident := 0, offset := 0, more := false, data } := by
  have body : sub (ipv6Header tc data.length next hop src dst ++ data) 40
      (40 + be16 (ipv6Header tc data.length next hop src dst ++ data) 4) = data := by
    rw [ipv6Header_len, Nat.mod_eq_of_lt short]
    simpa using @sub_window (ipv6Header tc data.length next hop src dst) data [] 40 _
      (by simp [hs, hd]) rfl
  rw [piece6, ipv6Header_next, if_neg (show ¬ next = 44 from plain),
    ipv6Header_src _ _ _ _ _ hs hd, ipv6Header_dst _ _ _ _ _ hs hd, body]

theorem piece6_fragment {src dst body : Bytes} (hs : src.length = 16) (hd : dst.length = 16)
    {n : Nat} (width : body.length = n) (short : fragHdrLen + n < 65536) (tc next hop : UInt8)
    (word ident : Nat) :
    piece6 (ipv6Header tc (fragHdrLen + n) protoFrag hop src dst ++
        (fragHeader next word ident ++ body)) =
      { src, dst, proto := next, ident := ident % 4294967296, offset := word % 65536 / 8 * 8
        more := (word % 65536).testBit 0, data := body } := by
  have front : (ipv6Header tc (fragHdrLen + n) protoFrag hop src dst).length = 40 := by
    simp [hs, hd]
  have proto : byteAt (ipv6Header tc (fragHdrLen + n) protoFrag hop src dst ++
      (fragHeader next word ident ++ body)) 40 = next := by
    rw [byteAt_append_right (by omega), front]
    rfl
  have flags : be16 (ipv6Header tc (fragHdrLen + n) protoFrag hop src dst ++
      (fragHeader next word ident ++ body)) 42 = word % 65536 := by
    rw [be16_append_right (by omega), front]
    exact be16_enc16 word (enc32 ident ++ body)
  have number : be32 (ipv6Header tc (fragHdrLen + n) protoFrag hop src dst ++
      (fragHeader next word ident ++ body)) 44 = ident % 4294967296 := by
    rw [be32_append_right (by omega), front]
    exact be32_enc32 ident body
  have data : sub (ipv6Header tc (fragHdrLen + n) protoFrag hop src dst ++
      (fragHeader next word ident ++ body)) 48 (40 + be16 (ipv6Header tc (fragHdrLen + n)
        protoFrag hop src dst ++ (fragHeader next word ident ++ body)) 4) = body := by
    rw [ipv6Header_len, Nat.mod_eq_of_lt short, ← List.append_assoc]
    simpa using @sub_window (ipv6Header tc (fragHdrLen + n) protoFrag hop src dst ++
      fragHeader next word ident) body [] 48 _ (by simp [hs, hd]) (by rw [width, fragHdrLen]; omega)
  rw [piece6, ipv6Header_next, if_pos (show protoFrag = 44 from rfl),
    ipv6Header_src _ _ _ _ _ hs hd, ipv6Header_dst _ _ _ _ _ hs hd, proto, flags, number, data]

theorem piece4_sealed {src dst data : Bytes} (hs : src.length = 4) (hd : dst.length = 4)
    (short : ipv4HdrLen + data.length < 65536) (tos ttl proto : UInt8) (ident flags : Nat) :
    piece4 (sealedIPv4Header tos (ipv4HdrLen + data.length) ident flags ttl proto src dst ++ data) =
      { src, dst, proto, ident := ident % 65536, offset := flags % 65536 % 2 ^ 13 * 8
        more := (flags % 65536).testBit 13, data } := by
  have body : ∀ ck, sub (ipv4Header tos (ipv4HdrLen + data.length) ident flags ttl proto ck src dst
      ++ data) 20 (ipv4HdrLen + data.length) = data := by
    intro ck
    have window := @sub_window (ipv4Header tos (ipv4HdrLen + data.length) ident flags ttl proto ck
      src dst) data [] 20 (ipv4HdrLen + data.length) (by simp [hs, hd]) rfl
    rwa [List.append_nil] at window
  rw [piece4, sealedIPv4Header, ipv4Header_first, ipv4Header_proto, ipv4Header_ident, ipv4Header_flags,
    ipv4Header_len, ipv4Header_src _ _ _ _ _ _ _ _ hs hd, ipv4Header_dst _ _ _ _ _ _ _ _ hs hd,
    Nat.mod_eq_of_lt short]
  refine congrArg _ ?_
  exact body _

/-- The offset and the flag of a fragment header share a word without mixing. -/
theorem fragFlags_word {off : Nat} (aligned : off % 8 = 0) (small : off < 65536) (mf : Bool)
    (len n : Nat) : fragFlags mf off len n = off + (decide (len > n) || mf).toNat := by
  have flagged : off ||| ip6FragMF = off + 1 := by
    have upper : (off ||| 1) / 2 = off / 2 := by simp [Nat.or_div_two]
    have lower : (off ||| 1) % 2 = 1 := by simp
    rw [ip6FragMF]
    omega
  unfold fragFlags
  rw [Nat.mod_eq_of_lt small, flagged]
  split
  · rename_i set
    have bit : (decide (len > n) || mf) = true := by simpa using set
    rw [bit]
    rfl
  · rename_i clear
    have bit : (decide (len > n) || mf) = false := by simpa using clear
    rw [bit]
    rfl

theorem fragFlags_eq {off : Nat} (aligned : off % 8 = 0) (small : off < 65536) (mf : Bool)
    (len n : Nat) :
    fragFlags mf off len n % 65536 / 8 * 8 = off ∧
      (fragFlags mf off len n % 65536).testBit 0 = (decide (len > n) || mf) := by
  rw [fragFlags_word aligned small, Nat.testBit_zero]
  cases decide (len > n) || mf with
  | false => exact ⟨by simp only [Bool.toNat_false]; omega, decide_eq_false (by simp; omega)⟩
  | true => exact ⟨by simp only [Bool.toNat_true]; omega, decide_eq_true (by simp; omega)⟩

theorem take_header {h z : Bytes} {n : Nat} (width : h.length = n) : (h ++ z).take n = h := by
  rw [← width, List.take_left]

theorem parse6_whole {src dst data : Bytes} {next : UInt8} (hs : src.length = 16)
    (hd : dst.length = 16) (validSrc : Netutil.validIPv6 src) (validDst : Netutil.validIPv6 dst)
    (short : data.length < 65536) (plain : ¬ (next = 0 ∨ next = 43 ∨ next = 60))
    (whole : next ≠ protoFrag) (accepted : proto6Reason next 0 data.length = .none)
    (tc hop : UInt8) :
    ∃ v, parse6 (ipv6Header tc data.length next hop src dst ++ data) = .ok v ∧
      v.hdr = ipv6Header tc data.length next hop src dst ∧ v.ext = [] ∧ v.frag = none ∧
      v.proto = next ∧ v.data = data := by
  have front : (ipv6Header tc data.length next hop src dst).length = 40 := by simp [hs, hd]
  have first := @ipv6Header_next tc data.length next hop src dst data
  have good : ¬ badHeader6 (ipv6Header tc data.length next hop src dst ++ data) := by
    rw [badHeader6, ipv6Header_version, ipv6Header_src _ _ _ _ _ hs hd,
      ipv6Header_dst _ _ _ _ _ hs hd]
    simp [validSrc, validDst]
  have stop : dataEnd6 (ipv6Header tc data.length next hop src dst ++ data) =
      40 + data.length := by
    rw [dataEnd6, ipv6Header_len, List.length_append, front, ipv6HdrLen, if_neg (by omega)]
  have body : sub (ipv6Header tc data.length next hop src dst ++ data) 40 (40 + data.length) =
      data := by
    simpa using @sub_window (ipv6Header tc data.length next hop src dst) data [] 40 _ front rfl
  generalize built : ipv6Header tc data.length next hop src dst ++ data = raw at *
  have long : ¬ raw.length < ipv6HdrLen := by
    rw [← built, List.length_append, front, ipv6HdrLen]
    omega
  have walked : walk (raw.take (dataEnd6 raw)) (raw.length + 1) (startScan raw) =
      .ok (startScan raw) := if_neg (by rw [startScan, first]; exact plain)
  have split : splitFrag (startScan raw).proto (sub raw (startScan raw).lo (dataEnd6 raw)) =
      .ok { frag := none, proto := next, data := data, frag_length := fun found => by cases found } := by
    rw [startScan, first, stop, splitFrag, if_neg whole]
    congr 2
  unfold parse6
  rw [dif_neg long, if_neg good]
  simp only [walked, split, Option.elim_none]
  rw [dif_pos accepted, if_neg (by simp [startScan])]
  refine ⟨_, rfl, ?_, ?_, rfl, rfl, rfl⟩
  · show raw.take 40 = _
    rw [← built, take_header front]
  · show sub raw 40 40 = []
    simp [sub]

theorem parse4_sealed {src dst data : Bytes} {proto : UInt8} {len flags : Nat}
    (hs : src.length = 4) (hd : dst.length = 4) (validSrc : Netutil.classifyIPv4 src ≠ .invalid)
    (validDst : Netutil.classifyIPv4 dst ≠ .invalid) (size : len = ipv4HdrLen + data.length)
    (short : len < 65536) (small : flags < 65536)
    (accepted : proto4Reason proto flags data.length = .none) (tos ttl : UInt8) (ident : Nat) :
    ∃ v, parse4 (sealedIPv4Header tos len ident flags ttl proto src dst ++ data) = .ok v ∧
      v.hdr = sealedIPv4Header tos len ident flags ttl proto src dst ∧ v.data = data := by
  unfold sealedIPv4Header
  generalize (checksum (ipv4Header tos len ident flags ttl proto 0 src dst) 0).toNat = ck
  have front : (ipv4Header tos len ident flags ttl proto ck src dst).length = 20 := by
    simp [hs, hd]
  have header : headerLen4 (ipv4Header tos len ident flags ttl proto ck src dst ++ data) = 20 := by
    rw [headerLen4, ipv4Header_first]
    rfl
  have total : be16 (ipv4Header tos len ident flags ttl proto ck src dst ++ data) 2 = len := by
    rw [ipv4Header_len, Nat.mod_eq_of_lt short]
  rw [ipv4HdrLen] at size
  have good : ¬ badHeader4 (ipv4Header tos len ident flags ttl proto ck src dst ++ data) := by
    rw [badHeader4, header, ipv4Header_first, total, ipv4Header_src _ _ _ _ _ _ _ _ hs hd,
      ipv4Header_dst _ _ _ _ _ _ _ _ hs hd, List.length_append, front, ipv4HdrLen]
    simp only [not_or, validSrc, validDst, not_false_eq_true, and_true]
    exact ⟨by decide, by omega, by omega, by omega⟩
  have stop : dataEnd4 (ipv4Header tos len ident flags ttl proto ck src dst ++ data) =
      20 + data.length := by
    rw [dataEnd4, total, List.length_append, front, if_neg (by omega)]
  have body : sub (ipv4Header tos len ident flags ttl proto ck src dst ++ data) 20
      (20 + data.length) = data := by
    simpa using @sub_window (ipv4Header tos len ident flags ttl proto ck src dst) data [] 20 _
      front rfl
  have reason : proto4Reason (byteAt (ipv4Header tos len ident flags ttl proto ck src dst ++ data) 9)
      (be16 (ipv4Header tos len ident flags ttl proto ck src dst ++ data) 6) data.length =
      .none := by
    rw [ipv4Header_proto, ipv4Header_flags, Nat.mod_eq_of_lt small]
    exact accepted
  have long : ¬ (ipv4Header tos len ident flags ttl proto ck src dst ++ data).length <
      ipv4HdrLen := by
    rw [List.length_append, front, ipv4HdrLen]
    omega
  have taken := @take_header _ data _ front
  generalize ipv4Header tos len ident flags ttl proto ck src dst ++ data = raw at *
  unfold parse4
  rw [if_neg long, dif_neg good]
  simp only [header, stop, body]
  rw [dif_pos reason]
  exact ⟨_, rfl, taken, rfl⟩

end Clatto.Xlate
