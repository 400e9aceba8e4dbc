import Clatto.Xlate.Refine.Emit
import Clatto.Xlate.Refine.Parse

/-! Packets from the IPv4 side are handled over buffers exactly as over values. -/

namespace Clatto.Xlate

open Bytes Effect

variable {σ : Type} {env : Env σ} {t : Translator}

theorem sendICMPv4_eq {src dst : Bytes} (hs : src.length = 4) (hd : dst.length = 4)
    (tos typ code : UInt8) (word : Nat) (payload : Bytes) :
    sendICMPv4 env tos src dst typ code word payload = (do
      let _ ← emit env (icmp4Packet tos src dst typ code word payload)) := by
  rw [sendICMPv4, emit, length_icmp4Packet hs hd]
  rw [@emitPacket_eq _ _ _ _ (pure (icmp4Packet tos src dst typ code word payload))]
  · rfl
  · intro b width
    rw [show ipv4HdrLen + icmpHdrLen + payload.length = 28 + payload.length from rfl,
      fillICMPv4_eq hs hd width, lift_ok]

theorem sendICMPv4Error_eq {p : Pkt} {v : Packet4} (view : View4 p v) (typ code : UInt8)
    (word : Nat) : sendICMPv4Error env t typ code word p = complain4 env t typ code word v := by
  rw [sendICMPv4Error, view.icmpTypeOr, lift_ok, pure_bind, complain4]
  by_cases answerable : v.Answerable
  · have about : ¬ (if v.proto = protoICMP then v.icmpType else 8) ≠ 8 := by
      split
      · rename_i icmp
        exact not_not.mpr (answerable icmp)
      · decide
    rw [if_neg about, if_pos answerable]
    dsimp only
    rw [view.src, lift_ok, pure_bind,
      quote_slice view.wire view.hi (by rw [view.hdrLen, view.data, Packet4.wire]; simp), lift_ok,
      pure_bind, sendICMPv4_eq t.local4_length v.length_src]
    rfl
  · have about : (if v.proto = protoICMP then v.icmpType else 8) ≠ 8 := by
      simp only [Packet4.Answerable, Classical.not_imp] at answerable
      rw [if_pos answerable.1]
      exact answerable.2
    rw [if_pos about, if_neg answerable]

theorem hostICMPv4_eq {p : Pkt} {v : Packet4} (view : View4 p v) (icmp : v.proto = protoICMP) :
    hostICMPv4 env p = host4 env v := by
  have long := v.icmp_ge icmp
  rw [hostICMPv4, view.icmpType icmp, lift_ok, pure_bind, host4]
  split
  · rw [view.observe_eq, view.tos, view.src, view.dst, view.icmpCode icmp, view.icmpRest icmp,
      view.data, @slice_eq _ icmpHdrLen _ long le_rfl, Bytes.sub_length]
    simp only [lift_ok, pure_bind, sendICMPv4_eq v.length_dst v.length_src]
  · rw [view.observe_eq]

theorem emitPacket_triple {h fh data : Bytes} (front : h.length = 40) (second : fh.length = 8) :
    (emitPacket env (ipv6HdrLen + fragHdrLen + data.length) fun b => lift do
      let b ← copyFrom b 0 h
      let b ← copyFrom b ipv6HdrLen fh
      copyFrom b (ipv6HdrLen + fragHdrLen) data) = emit env (h ++ (fh ++ data)) := by
  rw [emit, List.length_append, List.length_append, front, second, ← Nat.add_assoc]
  refine emitPacket_eq fun b width => ?_
  simp only [ipv6HdrLen, fragHdrLen] at width ⊢
  obtain ⟨x, y, z, rfl, hx, hy, hz⟩ := exists_windows (b := b) (n := 40) (m := 8) (by omega)
  rw [copyFrom_eq (by simp; omega), Checked.ok_bind, splice_over (by omega),
    copyFrom_eq (by simp; omega), Checked.ok_bind, splice_append (by omega), front, Nat.sub_self,
    splice_over (by omega), ← List.append_assoc, copyFrom_window (by simp [front, second])
    (by simp at width; omega), List.append_assoc, lift_ok]

theorem fragLoop4to6_eq {v : Packet4} {src6 dst6 : Bytes} (hs : src6.length = 16)
    (hd : dst6.length = 16) (room : Int) (fuel off : Nat) (len word : Nat) (data : Bytes) :
    fragLoop4to6 env room (decide (v.flagsOff &&& ip4FlagMF ≠ 0)) fuel
      (ipv6Header v.tos len protoFrag (v.ttl - 1) src6 dst6) (fragHeader v.next word v.ident)
      off data = sendFragments env room v src6 dst6 fuel off data := by
  induction fuel generalizing off len word data with
  | zero => rfl
  | succ fuel ih =>
    rw [fragLoop4to6, sendFragments]
    split
    · dsimp only
      have short : (if data.length < room then (data.length : Int) else room) ≤ data.length := by
        split <;> omega
      generalize (if data.length < room then (data.length : Int) else room) = n at short
      rw [put16_eq (by simp; omega), lift_ok, pure_bind, splice_ipv6Length, put16_eq (by simp),
        lift_ok, pure_bind, splice_fragWord]
      by_cases negative : n < 0
      · rw [if_pos negative, inRange, if_neg (by omega), lift_error_bind]
      · obtain ⟨m, rfl⟩ := Int.eq_ofNat_of_zero_le (Int.not_lt.mp negative)
        have fits : m ≤ data.length := by omega
        have length : uint16 ((fragHdrLen : Int) + (m : Int)) = (fragHdrLen + m) % 65536 := by
          rw [← uint16_natCast]
          rfl
        have size : (data.take m).length = m := by simp; omega
        have word : (if (data.length : Int) > (m : Int) ∨
              decide (v.flagsOff &&& ip4FlagMF ≠ 0) = true then uint16 (off : Int) ||| ip6FragMF
            else uint16 (off : Int)) =
            fragFlags (decide (v.flagsOff &&& ip4FlagMF ≠ 0)) off data.length m := by
          simp only [fragFlags, uint16_natCast, gt_iff_lt, Int.ofNat_lt]
        rw [if_neg negative, inRange_of (by omega), lift_ok, pure_bind, Int.toNat_natCast, word]
        have sends := @emitPacket_triple σ env
          (ipv6Header v.tos (uint16 ((fragHdrLen : Int) + (m : Int))) protoFrag (v.ttl - 1)
            src6 dst6)
          (fragHeader v.next
            (fragFlags (decide (v.flagsOff &&& ip4FlagMF ≠ 0)) off data.length m) v.ident)
          (data.take m) (by simp [hs, hd]) (by simp)
        rw [size] at sends
        simp only [slice_eq (Nat.zero_le m) fits, slice_eq fits le_rfl, Bytes.sub_zero,
          Bytes.sub_length, Checked.ok_bind, sends, lift_ok, pure_bind, ih]
        rw [length, ipv6Header_mod]
        rfl
    · rfl

theorem send4to6_eq {p : Pkt} {v : Packet4} (view : View4 p v) {src6 dst6 : Bytes}
    (hs : src6.length = 16) (hd : dst6.length = 16) :
    send4to6 env t t.room p src6 dst6 = forward4 env t v src6 dst6 := by
  have long : 20 ≤ p.ipBytes.length := view.ipBytes ▸ v.hdr_ge
  have wide : ∀ tc len next hop, (ipv6Header tc len next hop src6 dst6).length = 40 := by
    simp [hs, hd]
  rw [send4to6, view.flagsOff, lift_ok, pure_bind, view.hdrLen, view.data, forward4]
  cases noFragHdr t v.flagsOff t.room v.hdr.length v.data.length with
  | none =>
    dsimp only
    rw [view.observe_eq, sendICMPv4Error_eq view]
  | some whole =>
    dsimp only
    rw [header4to6_eq long (by simp [ipv6HdrLen]) hs hd, lift_ok, pure_bind,
      index_eq (by simp [wide]), lift_ok, pure_bind, put8_eq (by simp [wide]), lift_ok, pure_bind,
      splice_ipv6Hop, byteAt_ipv6Header_hop, payload4to6_eq view hs hd, lift_ok, pure_bind]
    cases rewritten : rewrite4to6 t.cfg.udpChecksum v src6 dst6 with
    | error reason =>
      have failed := rewrite4to6_error rewritten
      simp only [Pkt.rewritten, ne_eq, failed, not_false_eq_true, if_true, view.observe_eq]
    | ok d =>
      have size := length_rewrite4to6 rewritten
      have data : (p.withData d).data = d :=
        Pkt.data_withData view.ordered view.hi (by rw [view.data, size])
      have ipBytes : (p.withData d).ipBytes = p.ipBytes :=
        Pkt.ipBytes_withData view.ip view.lo.ge
      have hdrLen : (p.withData d).hdrLen = v.hdr.length := view.hdrLen
      have header : ipv6Header (byteAt p.ipBytes 1) (uint16 v.data.length)
          (if p.proto = protoICMP then protoICMPv6 else p.proto) (byteAt p.ipBytes 8 - 1)
          src6 dst6 = ipv6Header v.tos d.length v.next (v.ttl - 1) src6 dst6 := by
        rw [uint16_natCast, ipv6Header_mod, size, view.ipBytes, view.proto]
        rfl
      simp only [rewritten_withData, ne_eq, not_true_eq_false, if_false, data, ipBytes, hdrLen,
        header]
      cases whole with
      | true =>
        simp only [if_true, deliver, size, Packet4.size]
        rw [← size, emitPacket_pair (n := ipv6HdrLen) (wide ..) rfl]
      | false =>
        have blank : splice (splice (List.replicate fragHdrLen 0) 0 [v.next]) 4 (enc32 v.ident) =
            fragHeader v.next 0 v.ident := rfl
        simp only [Bool.false_eq_true, if_false, deliver, size]
        rw [index_eq (by simp [wide]), lift_ok, pure_bind, byteAt_ipv6Header_next,
          put8_eq (by simp [fragHdrLen]), lift_ok, pure_bind, put8_eq (by simp [wide]), lift_ok,
          pure_bind, splice_ipv6Next, view.ident, lift_ok, pure_bind,
          put32_eq (by simp [fragHdrLen]), lift_ok, pure_bind, blank, fragLoop4to6_eq hs hd]
        rfl

theorem xlate4to6Data_eq {p : Pkt} {v : Packet4} (view : View4 p v) :
    xlate4to6Data env t p = data4 env t v := by
  have room : (if t.cfg.offlinkMTU > t.cfg.mtu then t.cfg.mtu else t.cfg.offlinkMTU) -
      (ipv6HdrLen : Int) = t.room := by
    rw [Translator.room]
    congr 1
    split <;> omega
  rw [xlate4to6Data, view.dst, lift_ok, pure_bind, map4to6_eq v.length_dst, data4]
  refine ask_bind_congr fun w => ?_
  cases mappedDst : (env.to6 v.dst w).1 with
  | error err =>
    dsimp only
    rw [view.observe_eq, view.observe_eq, sendICMPv4Error_eq view]
    rfl
  | ok dst6 =>
    dsimp only
    rw [view.src, lift_ok, pure_bind, map4to6_eq v.length_src]
    refine ask_bind_congr fun w' => ?_
    cases mappedSrc : (env.to6 v.src w').1 with
    | error err =>
      dsimp only
      rw [view.observe_eq, view.observe_eq, sendICMPv4Error_eq view]
      rfl
    | ok src6 =>
      dsimp only
      rw [room, send4to6_eq view (Env.to6_length mappedSrc) (Env.to6_length mappedDst)]

theorem embedded4_eq {p : Pkt} {v : Packet4} (view : View4 p v) (icmp : v.proto = protoICMP) :
    embedded4 p v.icmpType = .ok v.embedded := by
  have long := v.icmp_ge icmp
  rw [embedded4, view.data, @slice_eq _ icmpHdrLen _ long le_rfl, Checked.ok_bind,
    Bytes.sub_length, view.icmpRest icmp, Packet4.embedded]
  dsimp only
  by_cases extended : v.icmpType = 3 ∨ v.icmpType = 11 ∨ v.icmpType = 12
  · simp only [extended, if_true, true_and, Checked.ok_bind]
    split
    · split
      · rfl
      · rw [slice_eq (Nat.zero_le _) (by omega), Bytes.sub_zero]
        rfl
    · rfl
  · simp only [extended, if_false, false_and]
    rfl

theorem sendErrorFrom4to6_eq {p em : Pkt} {v : Packet4} (view : View4 p v) {src6 inner : Bytes}
    (hs : src6.length = 16) (front : inner.length = 40) (otype ocode : UInt8) (oword : Nat) :
    sendErrorFrom4to6 env p em src6 otype ocode oword inner =
      forwardErrorFrom4 env v src6 otype ocode oword (inner ++ em.data) := by
  have long : 20 ≤ p.ipBytes.length := view.ipBytes ▸ v.hdr_ge
  rw [sendErrorFrom4to6, view.dst, lift_ok, pure_bind, map4to6_eq v.length_dst, forwardErrorFrom4]
  refine ask_bind_congr fun w => ?_
  cases mapped : (env.to6 v.dst w).1 with
  | error err =>
    dsimp only
    rw [view.observe_eq]
  | ok dst6 =>
    have hd := Env.to6_length mapped
    have size : (error4to6 v src6 dst6 otype ocode oword (inner ++ em.data)).length =
        ipv6HdrLen + icmpHdrLen + ipv6HdrLen + em.data.length := by
      simp only [error4to6, List.length_append, length_ipv6Header, length_sealedICMP, hs, hd, front,
        ipv6HdrLen, icmpHdrLen]
      omega
    dsimp only
    rw [emitPacket_eq fun b width => by
      rw [fillError4to6_eq long hs hd front (by simp [front, ipv6HdrLen, icmpHdrLen]; omega) width,
        lift_ok, view.ipBytes, view.proto], deliver, emit, size, view.hdrLen, view.data]
    rfl

theorem sendError4to6_eq {p em : Pkt} {v : Packet4} (view : View4 p v) {inner : Bytes}
    (front : inner.length = 40) (otype ocode : UInt8) (oword : Nat) :
    sendError4to6 env t p em otype ocode oword inner =
      forwardError4 env t v otype ocode oword (inner ++ em.data) := by
  rw [sendError4to6, view.src, lift_ok, pure_bind, map4to6_eq v.length_src, forwardError4]
  refine ask_bind_congr fun w => ?_
  cases mapped : (env.to6 v.src w).1 with
  | error err =>
    dsimp only
    rw [view.observe_eq, sendErrorFrom4to6_eq view t.local6_length front]
  | ok src6 => exact sendErrorFrom4to6_eq view (Env.to6_length mapped) front otype ocode oword

/-- Comparing an ICMP type, or what stands for it, with the echo request type. -/
theorem about_ne_iff {v : Packet4} :
    (if v.proto = protoICMP then v.icmpType else 8) ≠ 8 ↔ ¬ v.Answerable := by
  unfold Packet4.Answerable
  split <;> simp_all

/-- The part of `xlate4to6ICMPError` behind the embedded packet's mappings. -/
theorem sendEmbedded4 {p q : Pkt} {v em clip : Packet4} (view : View4 p v)
    (icmp : v.proto = protoICMP) (emView : View4 q clip) (header : clip.hdr = em.hdr)
    {emSrc emDst : Bytes} (hs : emSrc.length = 16) (hd : emDst.length = 16) :
    (do
      let emTotal ← lift (ip4TotalLen q.ipBytes)
      let inner ← lift (header4to6 q (List.replicate ipv6HdrLen 0)
        ((emTotal : Int) - q.hdrLen) emSrc emDst)
      let word ← lift (icmpWord p.icmpBytes)
      match ← lift (errorType4to6 t v.icmpType v.icmpCode word emTotal) with
      | .error reason => observe p .drop reason
      | .ok (otype, ocode, oword) => do
        let (r, em) ← lift (payload4to6 t q inner)
        if r ≠ .none then observe p .drop .embeddedUntranslatable
        else sendError4to6 env t p em otype ocode oword inner) = (do
      match ← lift (errorType4to6 t v.icmpType v.icmpCode v.icmpRest em.total) with
      | .error reason => report (v.event .drop reason)
      | .ok (otype, ocode, oword) =>
        match rewrite4to6 t.cfg.udpChecksum clip emSrc emDst with
        | .error _ => report (v.event .drop .embeddedUntranslatable)
        | .ok data =>
          forwardError4 env t v otype ocode oword (inner4to6 em emSrc emDst data)) := by
  have total : clip.total = em.total := congrArg (be16 · 2) header
  have proto : clip.proto = em.proto := congrArg (byteAt · 9) header
  rw [emView.total, lift_ok, pure_bind, header4to6_eq (emView.ipBytes ▸ clip.hdr_ge) rfl hs hd,
    lift_ok, pure_bind, view.icmpRest icmp, lift_ok, pure_bind, total]
  refine bind_congr fun answer => ?_
  rcases answer with reason | ⟨otype, ocode, oword⟩
  · exact view.observe_eq _ _
  · dsimp only
    rw [payload4to6_eq emView hs hd, lift_ok, pure_bind]
    cases rewritten : rewrite4to6 t.cfg.udpChecksum clip emSrc emDst with
    | error reason =>
      have failed := rewrite4to6_error rewritten
      simp only [Pkt.rewritten, ne_eq, failed, not_false_eq_true, if_true, view.observe_eq]
    | ok d =>
      have data : (q.withData d).data = d := Pkt.data_withData emView.ordered emView.hi
        (by rw [emView.data, length_rewrite4to6 rewritten])
      simp only [rewritten_withData, ne_eq, not_true_eq_false, if_false]
      rw [sendError4to6_eq view (by simp [hs, hd]), data, emView.hdrLen, emView.ipBytes,
        emView.proto, proto, header]
      rfl

theorem xlate4to6ICMPError_eq {p : Pkt} {v : Packet4} (view : View4 p v)
    (icmp : v.proto = protoICMP) : xlate4to6ICMPError env t p = error4 env t v := by
  rw [xlate4to6ICMPError, view.icmpType icmp, lift_ok, pure_bind, view.icmpCode icmp, lift_ok,
    pure_bind, embedded4_eq view icmp, lift_ok, pure_bind, error4]
  cases v.embedded with
  | none => exact view.observe_eq _ _
  | some raw =>
    dsimp only
    have parses := parseIPv4_refines raw
    cases parsed : parse4 raw with
    | error e =>
      rw [parsed] at parses
      obtain ⟨reason, em, answer, failed, -⟩ := parses
      rw [answer, lift_ok, pure_bind]
      simp only [ne_eq, failed, not_false_eq_true, if_true, view.observe_eq]
    | ok em =>
      rw [parsed] at parses
      obtain ⟨q, answer, emView⟩ := parses
      rw [answer, lift_ok, pure_bind]
      simp only [ne_eq, not_true_eq_false, if_false]
      rw [emView.icmpTypeOr, lift_ok, pure_bind]
      by_cases answerable : em.Answerable
      · rw [if_neg (about_ne_iff.not.mpr (not_not.mpr answerable)), if_pos answerable]
        have clipped := emView.clip (mtuMin - 2 * ipv6HdrLen - icmpHdrLen) (by decide)
        generalize (if q.data.length > mtuMin - 2 * ipv6HdrLen - icmpHdrLen then
          { q with hi := q.lo + (mtuMin - 2 * ipv6HdrLen - icmpHdrLen) } else q) = q' at clipped ⊢
        have src : slice q'.ipBytes 12 16 = .ok em.src := clipped.src
        have dst : slice q'.ipBytes 16 20 = .ok em.dst := clipped.dst
        rw [src, lift_ok, pure_bind, map4to6_eq em.length_src]
        refine ask_bind_congr fun w => ?_
        rw [dst, lift_ok, pure_bind, map4to6_eq em.length_dst]
        refine ask_bind_congr fun w' => ?_
        cases mappedSrc : (env.to6 em.src w).1 with
        | error err => exact view.observe_eq _ _
        | ok emSrc =>
          cases mappedDst : (env.to6 em.dst w').1 with
          | error err => exact view.observe_eq _ _
          | ok emDst =>
            exact sendEmbedded4 view icmp clipped rfl (Env.to6_length mappedSrc)
              (Env.to6_length mappedDst)
      · rw [if_pos (about_ne_iff.mpr answerable), if_neg answerable, view.observe_eq]

theorem handleIPv4_eq {raw : Bytes} (nonempty : 0 < raw.length)
    (family : byteAt raw 0 >>> 4 = 4) : handleIPv4 env t raw = receive4 env t raw := by
  have parses := parseIPv4_refines raw
  rw [handleIPv4, receive4]
  cases parsed : parse4 raw with
  | error e =>
    rw [parsed] at parses
    obtain ⟨reason, p, answer, failed, event⟩ := parses
    rw [answer, lift_ok, pure_bind]
    simp only [ne_eq, failed, not_false_eq_true, if_true]
    rw [observe, event nonempty family, lift_ok, pure_bind, report]
  | ok v =>
    rw [parsed] at parses
    obtain ⟨p, answer, view⟩ := parses
    have marked : p.icmp ≠ none ↔ v.proto = protoICMP := by
      rw [view.icmp]
      split <;> simp_all
    rw [answer, lift_ok, pure_bind]
    simp only [ne_eq, not_true_eq_false, if_false]
    rw [view.ttl, lift_ok, pure_bind, view.total, lift_ok, pure_bind, view.dst, lift_ok, pure_bind,
      view.icmpTypeOr, lift_ok, pure_bind, view.hdrLen, view.data, view.ipBytes, view.proto]
    simp only [view.observe_eq, sendICMPv4Error_eq view, xlate4to6Data_eq view]
    rw [ne_eq] at marked
    by_cases icmp : v.proto = protoICMP
    · simp only [marked, icmp, if_true, true_imp_iff, Packet4.size, hostICMPv4_eq view icmp,
        xlate4to6ICMPError_eq view icmp]
    · simp only [marked, icmp, if_false, false_imp_iff, true_or, if_true, Packet4.size]

end Clatto.Xlate
