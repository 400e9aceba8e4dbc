import Clatto.Xlate.Refine.View

/-! Rewriting a transport header in its buffer does what rewriting it as a value
does, and writes nothing outside the payload. -/

namespace Clatto.Xlate

open Bytes Effect

/-- The answer of the buffer-level rewriting for a value-level result. -/
def Pkt.rewritten (p : Pkt) : Except Reason Bytes → Reason × Pkt
  | .ok d => (.none, p.withData d)
  | .error reason => (reason, p)

section

variable {p : Pkt} (ordered : p.lo ≤ p.hi) (bounded : p.hi ≤ p.raw.length)

include ordered bounded

theorem Pkt.withData_self : p.withData p.data = p := by
  have before : (p.raw.take p.lo).length = p.lo := by simp; omega
  have parts : p.raw = p.raw.take p.lo ++ (p.data ++ p.raw.drop p.hi) := window_split ordered
  have same : splice p.raw p.lo p.data = p.raw := by
    conv_lhs => enter [1]; rw [parts]
    rw [splice_append (by omega), before, Nat.sub_self, splice_over rfl, ← parts]
  rw [withData, same]

theorem adjustField_eq {field : Nat} (room : field + 2 ≤ p.data.length) (remove add : UInt64) :
    adjustField p field remove add =
      .ok (.none, p.withData (adjustAt (p.proto = protoUDP) p.data field remove add)) := by
  rw [adjustField, uint16At_eq room, Checked.ok_bind]
  dsimp only
  rw [Pkt.putData_eq ordered bounded (by simpa using room)]
  simp [Checked.ok_bind, Checked.pure_eq, adjustAt, nonZero]

theorem zeroChecksum_eq (t : Translator) (room : 8 ≤ p.data.length) (pseudo : UInt64) :
    zeroChecksum t p pseudo = .ok (p.rewritten (fillChecksum t.cfg.udpChecksum p.data pseudo)) := by
  unfold zeroChecksum fillChecksum
  cases t.cfg.udpChecksum with
  | forward => simp [Pkt.rewritten, Pkt.withData_self ordered bounded, Checked.pure_eq]
  | drop => rfl
  | _ =>
    dsimp only
    rw [Pkt.putData_eq ordered bounded (by simp; omega)]
    simp [Checked.ok_bind, Checked.pure_eq, Pkt.rewritten, nonZero]

theorem retype_eq (icmp : p.icmp = some p.lo) (long : 8 ≤ p.data.length) (typ : UInt8)
    (ck : UInt16) :
    (do let q ← p.putICMP 0 [typ]
        return (.none, ← q.putICMP 2 (enc16 ck.toNat))) =
      (.ok (.none, p.withData (retype p.data typ ck)) : Checked (Reason × Pkt)) := by
  have typed : (p.withData (splice p.data 0 [typ])).data = splice p.data 0 [typ] :=
    Pkt.data_withData ordered bounded (by simp)
  rw [Pkt.putICMP_eq ordered bounded icmp long (by simp), Checked.ok_bind,
    Pkt.putICMP_eq (p := p.withData _) ordered (by simpa [Pkt.withData] using bounded) icmp
      (by rw [typed]; simpa using long) (by simp), typed, Pkt.withData_withData (by simp)]
  rfl

end

theorem transport_eq {t : Translator} {p : Pkt} (ordered : p.lo ≤ p.hi)
    (bounded : p.hi ≤ p.raw.length) (pseudo remove add : UInt64) :
    (if p.proto = protoUDP then
        if p.data.length < 8 then pure (.udpHeaderLength, p)
        else uint16At p.data 6 >>= fun ck =>
          if ck = 0 then zeroChecksum t p pseudo else adjustField p 6 remove add
      else if p.proto = protoTCP then
        if p.data.length < 20 then pure (.tcpHeaderLength, p) else adjustField p 16 remove add
      else pure (.none, p)) =
      .ok (p.rewritten
        (rewriteTransport t.cfg.udpChecksum p.proto p.data pseudo remove add)) := by
  unfold rewriteTransport
  by_cases udp : p.proto = protoUDP
  · simp only [udp, if_true]
    by_cases short : p.data.length < 8
    · simp only [short, if_true, Pkt.rewritten, Checked.pure_eq]
    · simp only [short, if_false]
      rw [uint16At_eq (by omega), Checked.ok_bind]
      split
      · rw [zeroChecksum_eq ordered bounded t (by omega)]
      · rw [adjustField_eq ordered bounded (by omega)]
        simp [Pkt.rewritten, udp]
  · simp only [udp, if_false]
    by_cases tcp : p.proto = protoTCP
    · simp only [tcp, if_true]
      by_cases short : p.data.length < 20
      · simp only [short, if_true, Pkt.rewritten, Checked.pure_eq]
      · have other : decide (p.proto = protoUDP) = false := decide_eq_false udp
        simp only [short, if_false]
        rw [adjustField_eq ordered bounded (by omega), other]
        rfl
    · simp only [tcp, if_false, Pkt.rewritten, Pkt.withData_self ordered bounded, Checked.pure_eq]

theorem payload4to6_eq {t : Translator} {p : Pkt} {v : Packet4} (view : View4 p v)
    {src6 dst6 : Bytes} (hs : src6.length = 16) (hd : dst6.length = 16) (tc : UInt8) (len : Nat)
    (next hop : UInt8) :
    payload4to6 t p (ipv6Header tc len next hop src6 dst6) =
      .ok (p.rewritten (rewrite4to6 t.cfg.udpChecksum v src6 dst6)) := by
  have ordered := view.ordered
  have wide : (ipv6Header tc len next hop src6 dst6).length = 40 := by simp [hs, hd]
  have src : slice (ipv6Header tc len next hop src6 dst6) 8 24 = .ok src6 := by
    rw [slice_eq (by omega) (by omega), sub_ipv6Header_src hs]
  have dst : slice (ipv6Header tc len next hop src6 dst6) 24 40 = .ok dst6 := by
    rw [slice_eq (by omega) (by omega), sub_ipv6Header_dst hs hd]
  have addrs : slice (ipv6Header tc len next hop src6 dst6) 8 40 = .ok (src6 ++ dst6) := by
    rw [slice_eq (by omega) (by omega), sub_ipv6Header_addrs hs hd]
  have old : slice p.ipBytes 12 20 = .ok (sub v.hdr 12 20) := by
    rw [view.ipBytes, slice_eq (by omega) v.hdr_ge]
  rw [payload4to6, view.flagsOff, Checked.ok_bind, rewrite4to6]
  split
  · rw [← view.data, Pkt.rewritten, Pkt.withData_self ordered view.hi]
    rfl
  · by_cases icmp : v.proto = protoICMP
    · have long := v.icmp_ge icmp
      have marked : p.icmp = some p.lo := by rw [view.icmp, if_pos icmp]
      have field : uint16At p.icmpBytes 2 = .ok (be16 v.data 2) := by
        rw [view.icmpBytes icmp, uint16At_eq (by simp; omega), ← Bytes.sub_zero,
          be16_sub (by omega), Nat.zero_add]
      have finish := retype_eq ordered view.hi marked (view.data ▸ long)
      rw [if_pos icmp, if_pos (view.proto.trans icmp)]
      simp only [view.total, src, dst, field, view.icmpType icmp, Checked.ok_bind, echo4to6]
      rw [view.hdrLen]
      by_cases request : v.icmpType = 8
      · simp only [request, if_true, finish, Pkt.rewritten, view.data]
      · simp only [request, if_false, finish, Pkt.rewritten, view.data]
    · rw [if_neg icmp, if_neg (view.proto ▸ icmp)]
      simp only [src, dst, addrs, old, Checked.ok_bind]
      rw [← view.data, ← view.proto]
      exact transport_eq ordered view.hi _ _ _

theorem payload6to4_eq {t : Translator} {p : Pkt} {v : Packet6} (view : View6 p v)
    {src4 dst4 : Bytes} (hs : src4.length = 4) (hd : dst4.length = 4) (tos : UInt8)
    (len ident flags : Nat) (ttl proto : UInt8) (ck : Nat) :
    payload6to4 t p (ipv4Header tos len ident flags ttl proto ck src4 dst4) =
      .ok (p.rewritten (rewrite6to4 t.cfg.udpChecksum v src4 dst4)) := by
  have ordered := view.ordered
  have wide : (ipv4Header tos len ident flags ttl proto ck src4 dst4).length = 20 := by
    simp [hs, hd]
  have src : slice (ipv4Header tos len ident flags ttl proto ck src4 dst4) 12 16 = .ok src4 := by
    rw [slice_eq (by omega) (by omega), sub_ipv4Header_src hs]
  have dst : slice (ipv4Header tos len ident flags ttl proto ck src4 dst4) 16 20 = .ok dst4 := by
    rw [slice_eq (by omega) (by omega), sub_ipv4Header_dst hs hd]
  have addrs : slice (ipv4Header tos len ident flags ttl proto ck src4 dst4) 12 20 =
      .ok (src4 ++ dst4) := by
    rw [slice_eq (by omega) (by omega), sub_ipv4Header_addrs hs hd]
  have old : slice p.ipBytes 8 40 = .ok (sub v.hdr 8 40) := by
    rw [view.ipBytes, slice_eq (by omega) v.hdr_length.ge]
  rw [payload6to4, view.offFlags, Checked.ok_bind, rewrite6to4]
  split
  · rw [← view.data, Pkt.rewritten, Pkt.withData_self ordered view.hi]
    rfl
  · by_cases icmp : v.proto = protoICMPv6
    · have long := v.icmp_ge icmp
      have marked : p.icmp = some p.lo := by rw [view.icmp, if_pos icmp]
      have field : uint16At p.icmpBytes 2 = .ok (be16 v.data 2) := by
        rw [view.icmpBytes icmp, uint16At_eq (by simp; omega), ← Bytes.sub_zero,
          be16_sub (by omega), Nat.zero_add]
      have finish := retype_eq ordered view.hi marked (view.data ▸ long)
      rw [if_pos icmp, if_pos (view.proto.trans icmp)]
      simp only [view.payloadLen, view.src, view.dst, field, view.icmpType icmp, Checked.ok_bind,
        echo6to4]
      rw [view.hdrLen]
      by_cases request : v.icmpType = 128
      · simp only [request, if_true, finish, Pkt.rewritten, view.data]
      · simp only [request, if_false, finish, Pkt.rewritten, view.data]
    · rw [if_neg icmp, if_neg (view.proto ▸ icmp)]
      simp only [src, dst, addrs, old, Checked.ok_bind]
      rw [← view.data, ← view.proto]
      exact transport_eq ordered view.hi _ _ _

end Clatto.Xlate
