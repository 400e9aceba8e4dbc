import Clatto.Xlate.SixToFour
import Clatto.Xlate.Wire

/-! What the buffer-filling code leaves in a buffer: every byte of it, whatever
was there before. -/

namespace Clatto.Xlate

open Bytes Effect

/-- Every field of an IPv4 header written in the order of `header6to4`. -/
theorem splice_ipv4Header {h src dst : Bytes} (width : h.length = 20) (hs : src.length = 4)
    (hd : dst.length = 4) (tos : UInt8) (len ident flags : Nat) (ttl proto : UInt8) :
    splice (splice (splice (splice (splice (splice (splice (splice (splice (splice (splice h
      0 [0x45]) 1 [tos]) 2 (enc16 len)) 4 (enc16 ident)) 6 (enc16 flags)) 8 [ttl]) 9 [proto])
      10 [0]) 11 [0]) 12 src) 16 dst = ipv4Header tos len ident flags ttl proto 0 src dst := by
  obtain ⟨f, rest, rfl, -⟩ := exists_prefix 12 h (by omega)
  rw [List.length_append, List.length_map, List.length_range] at width
  have tail : splice (splice rest 0 src) 4 dst = src ++ dst := by
    rw [splice_front (by omega), splice_append (by omega), hs, Nat.sub_self,
      splice_all (by simp; omega)]
  simp only [List.range, List.range.loop, List.map]
  simp [splice_cons_succ, splice_cons_zero, splice_nil, enc16, ipv4Header, tail]

theorem splice_ipv4Checksum (tos : UInt8) (len ident flags : Nat) (ttl proto : UInt8)
    (ck ck' : Nat) (src dst : Bytes) :
    splice (ipv4Header tos len ident flags ttl proto ck src dst) 10 (enc16 ck') =
      ipv4Header tos len ident flags ttl proto ck' src dst := by
  simp [ipv4Header, enc16, splice_cons_succ, splice_cons_zero, splice_nil]

theorem splice_ipv4TTL (tos : UInt8) (len ident flags : Nat) (ttl ttl' proto : UInt8)
    (ck : Nat) (src dst : Bytes) :
    splice (ipv4Header tos len ident flags ttl proto ck src dst) 8 [ttl'] =
      ipv4Header tos len ident flags ttl' proto ck src dst := by
  simp [ipv4Header, enc16, splice_cons_succ, splice_cons_zero, splice_nil]

theorem splice_ipv6Header {h src dst : Bytes} (width : h.length = 40) (hs : src.length = 16)
    (hd : dst.length = 16) (tc : UInt8) (len : Nat) (next hop : UInt8) :
    splice (splice (splice (splice (splice (splice h 0 (enc32 (6 * 2 ^ 28 + tc.toNat * 2 ^ 20)))
      4 (enc16 len)) 6 [next]) 7 [hop]) 8 src) 24 dst = ipv6Header tc len next hop src dst := by
  obtain ⟨f, rest, rfl, -⟩ := exists_prefix 8 h (by omega)
  rw [List.length_append, List.length_map, List.length_range] at width
  have tail : splice (splice rest 0 src) 16 dst = src ++ dst := by
    rw [splice_front (by omega), splice_append (by omega), hs, Nat.sub_self,
      splice_all (by simp; omega)]
  simp only [List.range, List.range.loop, List.map]
  simp [splice_cons_succ, splice_cons_zero, splice_nil, enc16, enc32, ipv6Header, tail]

theorem splice_ipv6Hop (tc : UInt8) (len : Nat) (next hop hop' : UInt8) (src dst : Bytes) :
    splice (ipv6Header tc len next hop src dst) 7 [hop'] =
      ipv6Header tc len next hop' src dst := by
  simp [ipv6Header, enc16, enc32, splice_cons_succ, splice_cons_zero, splice_nil]

theorem splice_ipv6Next (tc : UInt8) (len : Nat) (next next' hop : UInt8) (src dst : Bytes) :
    splice (ipv6Header tc len next hop src dst) 6 [next'] =
      ipv6Header tc len next' hop src dst := by
  simp [ipv6Header, enc16, enc32, splice_cons_succ, splice_cons_zero, splice_nil]

theorem splice_ipv6Length (tc : UInt8) (len len' : Nat) (next hop : UInt8) (src dst : Bytes) :
    splice (ipv6Header tc len next hop src dst) 4 (enc16 len') =
      ipv6Header tc len' next hop src dst := by
  simp [ipv6Header, enc16, enc32, splice_cons_succ, splice_cons_zero, splice_nil]

theorem splice_fragWord (next : UInt8) (word word' ident : Nat) :
    splice (fragHeader next word ident) 2 (enc16 word') = fragHeader next word' ident := by
  simp [fragHeader, enc16, enc32, splice_cons_succ, splice_cons_zero, splice_nil]

/-- Version and traffic class share the first word without overlap. -/
theorem version_word (tc : UInt8) : 6 <<< 28 ||| tc.toNat <<< 20 = 6 * 2 ^ 28 + tc.toNat * 2 ^ 20 := by
  have fits : tc.toNat <<< 20 < 2 ^ 28 := by
    have := tc.toNat_lt
    rw [Nat.shiftLeft_eq]
    omega
  rw [Nat.shiftLeft_eq 6, Nat.mul_comm 6, ← Nat.two_pow_add_eq_or_of_lt fits, Nat.shiftLeft_eq]

theorem putICMPHeader_eq {ic : Bytes} (width : ic.length = 8) (typ code : UInt8) (word : Nat) :
    putICMPHeader ic typ code word = .ok (icmpMessage typ code 0 word []) := by
  obtain ⟨f, rest, rfl, -⟩ := exists_prefix 8 ic (by omega)
  rw [List.length_append, List.length_map, List.length_range] at width
  have empty : rest = [] := List.eq_nil_of_length_eq_zero (by omega)
  subst empty
  simp only [List.range, List.range.loop, List.map]
  simp [putICMPHeader, put8, put32, inRange, Checked.ok_bind, splice_cons_succ,
    splice_cons_zero, splice_nil, enc32, enc16, icmpMessage]

theorem icmpMessage_append (typ code : UInt8) (ck word : Nat) (body rest : Bytes) :
    icmpMessage typ code ck word body ++ rest = icmpMessage typ code ck word (body ++ rest) := by
  simp [icmpMessage]

/-- Setting the checksum of an ICMP message behind a header of `n` bytes. -/
theorem seal_icmp {h : Bytes} {n : Nat} (before : h.length = n) (typ code : UInt8) (word : Nat)
    (body : Bytes) (pseudo : UInt64) :
    (do let message ← slice (h ++ icmpMessage typ code 0 word body) n
          (h ++ icmpMessage typ code 0 word body).length
        put16 (h ++ icmpMessage typ code 0 word body) (n + 2) (checksum message pseudo).toNat) =
      .ok (h ++ sealedICMP pseudo typ code word body) := by
  rw [slice_back before (by simp; omega), Checked.ok_bind, put16_eq (by simp; omega),
    splice_append (by omega), before, Nat.add_sub_cancel_left, sealedICMP]
  simp [icmpMessage, enc16, splice_cons_succ, splice_cons_zero, splice_nil]

theorem putHeader4_eq {h src dst : Bytes} (width : h.length = 20) (hs : src.length = 4)
    (hd : dst.length = 4) (n : Nat) (tos : UInt8) :
    putHeader4 h n tos src dst = .ok (sealedIPv4Header tos n 0 0 64 protoICMP src dst) := by
  simp (disch := first | omega | (simp only [length_splice]; omega)) only [putHeader4, put8_eq,
    put16_eq, copyTo_eq, slice_whole hs, slice_whole hd, Checked.ok_bind,
    splice_ipv4Header width hs hd, uint16_natCast, enc16_mod]
  rw [put16_eq (by simp), splice_ipv4Checksum]
  rfl

theorem putHeader6_eq {h src dst : Bytes} (width : h.length = 40) (hs : src.length = 16)
    (hd : dst.length = 16) (len : Nat) (tc : UInt8) :
    putHeader6 h len tc src dst = .ok (ipv6Header tc len protoICMPv6 64 src dst) := by
  simp (disch := first | omega | (simp only [length_splice]; omega)) only [putHeader6, put8_eq,
    put16_eq, put32_eq, copyTo_eq, slice_whole hs, slice_whole hd, Checked.ok_bind, version_word,
    splice_ipv6Header width hs hd, uint16_natCast, enc16_mod]

/-- The tail of every ICMP fill: header, payload and checksum of the message
behind an IP header that is already in place. -/
theorem finish_icmp {h ic z payload : Bytes} {n : Nat} (before : h.length = n)
    (width : ic.length = 8) (room : z.length = payload.length) (typ code : UInt8) (word : Nat)
    (pseudo : UInt64) :
    (do let ic' ← slice (h ++ (ic ++ z)) n (n + 8)
        let b ← copyTo (h ++ (ic ++ z)) n (n + 8) (← putICMPHeader ic' typ code word)
        let b ← copyFrom b (n + 8) payload
        put16 b (n + 2) (checksum (← slice b n b.length) pseudo).toNat) =
      .ok (h ++ sealedICMP pseudo typ code word payload) := by
  rw [slice_window before (by omega), Checked.ok_bind, putICMPHeader_eq width, Checked.ok_bind,
    copyTo_window before (by omega) (by simp [width]), Checked.ok_bind, ← List.append_assoc,
    copyFrom_window (by simp [before]) room.symm, Checked.ok_bind, List.append_assoc,
    icmpMessage_append, List.nil_append, seal_icmp before]

theorem finish_icmp_pair {h ic z inner data : Bytes} {n m : Nat} (before : h.length = n)
    (width : ic.length = 8) (front : inner.length = m)
    (room : z.length = (inner ++ data).length) (typ code : UInt8) (word : Nat)
    (pseudo : UInt64) :
    (do let ic' ← slice (h ++ (ic ++ z)) n (n + 8)
        let b ← copyTo (h ++ (ic ++ z)) n (n + 8) (← putICMPHeader ic' typ code word)
        let b ← copyFrom b (n + 8) inner
        let b ← copyFrom b (n + 8 + m) data
        put16 b (n + 2) (checksum (← slice b n b.length) pseudo).toNat) =
      .ok (h ++ sealedICMP pseudo typ code word (inner ++ data)) := by
  rw [List.length_append] at room
  rw [slice_window before (by omega), Checked.ok_bind, putICMPHeader_eq width, Checked.ok_bind,
    copyTo_window before (by omega) (by simp [width]), Checked.ok_bind, ← List.append_assoc,
    ← bind_assoc, ← front, copyFrom_pair (by simp [before]) room.symm, Checked.ok_bind,
    List.append_assoc, icmpMessage_append, List.nil_append, seal_icmp before]

theorem fillICMPv4_eq {src dst payload b : Bytes} (hs : src.length = 4) (hd : dst.length = 4)
    (width : b.length = 28 + payload.length) (tos typ code : UInt8) (word : Nat) :
    fillICMPv4 (28 + payload.length) tos src dst typ code word payload b =
      .ok (icmp4Packet tos src dst typ code word payload) := by
  obtain ⟨h, ic, z, rfl, hh, hic, hz⟩ := exists_windows (b := b) (n := 20) (m := 8) (by omega)
  simp only [fillICMPv4, ipv4HdrLen, icmpHdrLen]
  rw [slice_front hh, Checked.ok_bind, putHeader4_eq hh hs hd, Checked.ok_bind,
    copyTo_front hh (by simp [sealedIPv4Header, hs, hd, hh]), Checked.ok_bind,
    finish_icmp (by simp [sealedIPv4Header, hs, hd]) hic (by omega)]
  rfl

theorem sub_ipv6Header_src {src dst : Bytes} (hs : src.length = 16) (tc : UInt8) (len : Nat)
    (next hop : UInt8) : sub (ipv6Header tc len next hop src dst) 8 24 = src := by
  have parts : ipv6Header tc len next hop src dst =
      (enc32 (6 * 2 ^ 28 + tc.toNat * 2 ^ 20) ++ enc16 len ++ [next, hop]) ++ (src ++ dst) := by
    simp [ipv6Header]
  rw [parts, sub_window (by simp) (by omega)]

theorem sub_ipv6Header_dst {src dst : Bytes} (hs : src.length = 16) (hd : dst.length = 16)
    (tc : UInt8) (len : Nat) (next hop : UInt8) :
    sub (ipv6Header tc len next hop src dst) 24 40 = dst := by
  have parts : ipv6Header tc len next hop src dst =
      (enc32 (6 * 2 ^ 28 + tc.toNat * 2 ^ 20) ++ enc16 len ++ [next, hop] ++ src) ++ (dst ++ []) := by
    simp [ipv6Header]
  rw [parts, sub_window (by simp [hs]) (by omega)]

theorem sub_ipv6Header_addrs {src dst : Bytes} (hs : src.length = 16) (hd : dst.length = 16)
    (tc : UInt8) (len : Nat) (next hop : UInt8) :
    sub (ipv6Header tc len next hop src dst) 8 40 = src ++ dst := by
  rw [← @sub_append_sub _ _ 24 _ (by omega) (by omega), sub_ipv6Header_src hs,
    sub_ipv6Header_dst hs hd]

theorem sub_ipv4Header_src {src dst : Bytes} (hs : src.length = 4) (tos : UInt8)
    (len ident flags : Nat) (ttl proto : UInt8) (ck : Nat) :
    sub (ipv4Header tos len ident flags ttl proto ck src dst) 12 16 = src := by
  have parts : ipv4Header tos len ident flags ttl proto ck src dst =
      ([0x45, tos] ++ enc16 len ++ enc16 ident ++ enc16 flags ++ [ttl, proto] ++ enc16 ck) ++
        (src ++ dst) := by
    simp [ipv4Header]
  rw [parts, sub_window (by simp) (by omega)]

theorem sub_ipv4Header_dst {src dst : Bytes} (hs : src.length = 4) (hd : dst.length = 4)
    (tos : UInt8) (len ident flags : Nat) (ttl proto : UInt8) (ck : Nat) :
    sub (ipv4Header tos len ident flags ttl proto ck src dst) 16 20 = dst := by
  have parts : ipv4Header tos len ident flags ttl proto ck src dst =
      ([0x45, tos] ++ enc16 len ++ enc16 ident ++ enc16 flags ++ [ttl, proto] ++ enc16 ck ++ src) ++
        (dst ++ []) := by
    simp [ipv4Header]
  rw [parts, sub_window (by simp [hs]) (by omega)]

theorem sub_ipv4Header_addrs {src dst : Bytes} (hs : src.length = 4) (hd : dst.length = 4)
    (tos : UInt8) (len ident flags : Nat) (ttl proto : UInt8) (ck : Nat) :
    sub (ipv4Header tos len ident flags ttl proto ck src dst) 12 20 = src ++ dst := by
  rw [← @sub_append_sub _ _ 16 _ (by omega) (by omega), sub_ipv4Header_src hs,
    sub_ipv4Header_dst hs hd]

theorem fillICMPv6_eq {src dst payload b : Bytes} (hs : src.length = 16) (hd : dst.length = 16)
    (width : b.length = 48 + payload.length) (tc typ code : UInt8) (word : Nat) :
    fillICMPv6 (48 + payload.length) tc src dst typ code word payload b =
      .ok (icmp6Packet tc src dst typ code word payload) := by
  obtain ⟨h, ic, z, rfl, hh, hic, hz⟩ := exists_windows (b := b) (n := 40) (m := 8) (by omega)
  have len : ((48 + payload.length : Nat) : Int) - (40 : Nat) = (8 + payload.length : Nat) := by
    omega
  simp only [fillICMPv6, ipv6HdrLen, icmpHdrLen]
  rw [slice_front hh, Checked.ok_bind, putHeader6_eq hh hs hd, Checked.ok_bind,
    copyTo_front hh (by simp [hs, hd, hh]), Checked.ok_bind]
  simp only [@slice_eq (ipv6Header _ _ _ _ src dst) 8 24 (by omega)
      (by simp [hs, hd]),
    @slice_eq (ipv6Header _ _ _ _ src dst) 24 40 (by omega)
      (by simp [hs, hd]), Checked.ok_bind, sub_ipv6Header_src hs, sub_ipv6Header_dst hs hd, len]
  rw [finish_icmp (by simp [hs, hd]) hic (by omega)]
  rfl

theorem header4to6_eq {p : Pkt} {h src6 dst6 : Bytes} (long : 20 ≤ p.ipBytes.length)
    (width : h.length = 40) (hs : src6.length = 16) (hd : dst6.length = 16) (len : Int) :
    header4to6 p h len src6 dst6 = .ok (ipv6Header (byteAt p.ipBytes 1) (uint16 len)
      (if p.proto = protoICMP then protoICMPv6 else p.proto) (byteAt p.ipBytes 8) src6 dst6) := by
  simp (disch := first | omega | (simp only [length_splice]; omega)) only [header4to6, put8_eq,
    put16_eq, put32_eq, copyTo_eq, index_eq, Checked.ok_bind, version_word,
    splice_ipv6Header width hs hd]

theorem byteAt_ipv6Header_hop (tc : UInt8) (len : Nat) (next hop : UInt8) (src dst : Bytes) :
    byteAt (ipv6Header tc len next hop src dst) 7 = hop := rfl

theorem byteAt_ipv6Header_next (tc : UInt8) (len : Nat) (next hop : UInt8) (src dst : Bytes) :
    byteAt (ipv6Header tc len next hop src dst) 6 = next := rfl

theorem byteAt_ipv4Header_ttl (tos : UInt8) (len ident flags : Nat) (ttl proto : UInt8)
    (ck : Nat) (src dst : Bytes) :
    byteAt (ipv4Header tos len ident flags ttl proto ck src dst) 8 = ttl := rfl

theorem fillError4to6_eq {p : Pkt} {src6 dst6 inner data b : Bytes} {n : Nat}
    (long : 20 ≤ p.ipBytes.length) (hs : src6.length = 16) (hd : dst6.length = 16)
    (hi : inner.length = 40) (size : n = 48 + (inner ++ data).length) (width : b.length = n)
    (otype ocode : UInt8) (oword : Nat) :
    fillError4to6 p n src6 dst6 otype ocode oword inner data b =
      .ok (ipv6Header (byteAt p.ipBytes 1) (icmpHdrLen + (inner ++ data).length)
          (if p.proto = protoICMP then protoICMPv6 else p.proto) (byteAt p.ipBytes 8 - 1) src6 dst6 ++
        sealedICMP (pseudo6 src6 dst6 (icmpHdrLen + (inner ++ data).length : Nat) protoICMPv6)
          otype ocode oword (inner ++ data)) := by
  obtain ⟨h, ic, z, rfl, hh, hic, hz⟩ := exists_windows (b := b) (n := 40) (m := 8) (by omega)
  have len : (n : Int) - (40 : Nat) = (8 + (inner ++ data).length : Nat) := by omega
  have wide : ∀ tc len next hop, (ipv6Header tc len next hop src6 dst6).length = 40 := by
    simp [hs, hd]
  rw [List.length_append] at size
  simp only [fillError4to6, ipv6HdrLen, icmpHdrLen, len]
  rw [slice_front hh, Checked.ok_bind, header4to6_eq long hh hs hd, Checked.ok_bind,
    index_eq (by simp [wide]), Checked.ok_bind, put8_eq (by simp [wide]), Checked.ok_bind,
    byteAt_ipv6Header_hop, splice_ipv6Hop, copyTo_front hh (by simp [wide, hh]), Checked.ok_bind]
  simp only [@slice_eq (ipv6Header _ _ _ _ src6 dst6) 8 24 (by omega)
      (by simp [wide]),
    @slice_eq (ipv6Header _ _ _ _ src6 dst6) 24 40 (by omega)
      (by simp [wide]), Checked.ok_bind, sub_ipv6Header_src hs, sub_ipv6Header_dst hs hd]
  rw [finish_icmp_pair (wide ..) hic hi (by rw [List.length_append]; omega)]
  simp only [uint16_natCast, ipv6Header, enc16_mod]

theorem trafficClass_eq {h : Bytes} (long : 4 ≤ h.length) :
    trafficClass h = .ok (UInt8.ofNat (be32 h 0 >>> 20)) := by
  rw [trafficClass, ip6VerTcFl, uint32At_eq (by omega)]
  rfl

theorem header6to4_eq {σ : Type} {env : Env σ} {p : Pkt} {h src4 dst4 : Bytes}
    (long : p.ipBytes.length = 40) (width : h.length = 20) (hs : src4.length = 4)
    (hd : dst4.length = 4) (len : Int) :
    header6to4 env p h len src4 dst4 = (do
      let (ident, flags) ← identFlags6to4 env p len
      pure (ipv4Header (UInt8.ofNat (be32 p.ipBytes 0 >>> 20)) (uint16 (ipv4HdrLen + len)) ident
        flags (byteAt p.ipBytes 7) (if p.proto = protoICMPv6 then protoICMP else p.proto) 0
        src4 dst4)) := by
  simp (disch := first | omega | (simp only [length_splice]; omega)) only [header6to4, put8_eq,
    put16_eq, copyTo_eq, index_eq, trafficClass_eq, lift_ok, pure_bind,
    splice_ipv4Header width hs hd]

theorem fillError6to4_eq {σ : Type} {env : Env σ} {p : Pkt} {src4 dst4 inner data b : Bytes}
    {n : Nat} (long : p.ipBytes.length = 40) (hs : src4.length = 4) (hd : dst4.length = 4)
    (hi : inner.length = 20) (size : n = 28 + (inner ++ data).length) (width : b.length = n)
    (otype ocode : UInt8) (oword : Nat) :
    fillError6to4 env p n src4 dst4 otype ocode oword inner data b = (do
      let (ident, flags) ← identFlags6to4 env p (icmpHdrLen + (inner ++ data).length : Nat)
      pure (sealedIPv4Header (UInt8.ofNat (be32 p.ipBytes 0 >>> 20)) n ident flags
          (byteAt p.ipBytes 7 - 1) (if p.proto = protoICMPv6 then protoICMP else p.proto) src4 dst4 ++
        sealedICMP 0 otype ocode oword (inner ++ data))) := by
  obtain ⟨h, ic, z, rfl, hh, hic, hz⟩ := exists_windows (b := b) (n := 20) (m := 8) (by omega)
  have len : (n : Int) - (20 : Nat) = (8 + (inner ++ data).length : Nat) := by omega
  have wide : ∀ tos len ident flags ttl proto ck,
      (ipv4Header tos len ident flags ttl proto ck src4 dst4).length = 20 := by simp [hs, hd]
  have total : uint16 ((20 : Nat) + ((8 + (inner ++ data).length : Nat) : Int)) = n % 65536 := by
    rw [← len, ← uint16_natCast]
    congr 1
    omega
  rw [List.length_append] at size
  simp only [fillError6to4, ipv4HdrLen, icmpHdrLen, len]
  rw [slice_front hh, lift_ok, pure_bind, header6to4_eq long hh hs hd, bind_assoc]
  refine bind_congr fun ⟨ident, flags⟩ => ?_
  simp only [pure_bind, ipv4HdrLen, total]
  rw [index_eq (by simp [wide]), Checked.ok_bind, put8_eq (by simp [wide]), Checked.ok_bind,
    byteAt_ipv4Header_ttl, splice_ipv4TTL, put16_eq (by simp [wide]), Checked.ok_bind,
    splice_ipv4Checksum, copyTo_front hh (by simp [wide, hh]), Checked.ok_bind,
    finish_icmp_pair (wide ..) hic hi (by rw [List.length_append]; omega), lift_ok]
  simp only [sealedIPv4Header, ipv4Header, enc16_mod]

end Clatto.Xlate
