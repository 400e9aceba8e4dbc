import Clatto.Xlate.Refine.FromIPv4

/-! Packets from the IPv6 side, and with them the whole translator: over buffers
it asks the same questions and performs the same actions in the same order as
over values. -/

namespace Clatto.Xlate

open Bytes Effect

variable {σ : Type} {env : Env σ} {t : Translator}

theorem sendICMPv6_eq {src dst : Bytes} (hs : src.length = 16) (hd : dst.length = 16)
    (tc typ code : UInt8) (word : Nat) (payload : Bytes) :
    sendICMPv6 env tc src dst typ code word payload = (do
      let _ ← emit env (icmp6Packet tc src dst typ code word payload)) := by
  rw [sendICMPv6, emit, length_icmp6Packet hs hd]
  rw [@emitPacket_eq _ _ _ _ (pure (icmp6Packet tc src dst typ code word payload))]
  · rfl
  · intro b width
    rw [show ipv6HdrLen + icmpHdrLen + payload.length = 48 + payload.length from rfl,
      fillICMPv6_eq hs hd width, lift_ok]

theorem about6_ne_iff {v : Packet6} :
    (if v.proto = protoICMPv6 then v.icmpType else 128) ≠ 128 ↔ ¬ v.Answerable := by
  unfold Packet6.Answerable
  split <;> simp_all

theorem length_wire6 (v : Packet6) : v.wire.length = ipv6HdrLen + v.extLen + v.data.length := by
  simp only [Packet6.wire, Packet6.extLen, List.length_append, v.hdr_length, ipv6HdrLen]
  omega

theorem sendICMPv6Error_eq {p : Pkt} {v : Packet6} (view : View6 p v) (typ code : UInt8)
    (word : Nat) : sendICMPv6Error env t typ code word p = complain6 env t typ code word v := by
  rw [sendICMPv6Error, view.icmpTypeOr, lift_ok, pure_bind, complain6]
  by_cases answerable : v.Answerable
  · rw [if_neg (about6_ne_iff.not.mpr (not_not.mpr answerable)), if_pos answerable]
    dsimp only
    rw [view.src, lift_ok, pure_bind,
      quote_slice view.wire view.hi (by rw [view.hdrLen, view.data, length_wire6]), lift_ok,
      pure_bind, sendICMPv6_eq t.local6_length v.length_src]
    rfl
  · rw [if_pos (about6_ne_iff.mpr answerable), if_neg answerable]

theorem hostICMPv6_eq {p : Pkt} {v : Packet6} (view : View6 p v) (icmp : v.proto = protoICMPv6) :
    hostICMPv6 env p = host6 env v := by
  have long := v.icmp_ge icmp
  rw [hostICMPv6, view.icmpType icmp, lift_ok, pure_bind, host6]
  split
  · rw [view.observe_eq, view.tc, view.src, view.dst, view.icmpCode icmp, view.icmpRest icmp,
      view.data, @slice_eq _ icmpHdrLen _ long le_rfl, Bytes.sub_length]
    simp only [lift_ok, pure_bind, sendICMPv6_eq v.length_dst v.length_src]
  · rw [view.observe_eq]

theorem identFlags6to4_eq {p : Pkt} {v : Packet6} (view : View6 p v) (len : Int) :
    identFlags6to4 env p len = identFlags env v len := by
  rw [identFlags6to4, identFlags, view.hdrLen]
  cases present : v.frag with
  | none => rw [if_neg (by simp [view.frag, present])]
  | some f =>
    have eight := v.frag_length present
    rw [if_pos (by simp [view.frag, present]), view.fragBytes present, fragIdent, fragOffFlags,
      uint32At_eq (by omega), uint16At_eq (by omega)]
    simp only [lift_ok, pure_bind, uint16_natCast]

theorem send6to4_eq {p : Pkt} {v : Packet6} (view : View6 p v) {src4 dst4 : Bytes}
    (hs : src4.length = 4) (hd : dst4.length = 4) :
    send6to4 env t p src4 dst4 = forward6 env t v src4 dst4 := by
  have wide : ∀ tos len ident flags ttl proto ck,
      (ipv4Header tos len ident flags ttl proto ck src4 dst4).length = 20 := by simp [hs, hd]
  rw [send6to4, view.hdrLen, view.data, forward6]
  change (if (v.size : Int) > t.cfg.mtu then _ else _) = _
  split
  · rw [view.observe_eq, sendICMPv6Error_eq view]
  · rw [header6to4_eq view.length_ipBytes (by simp [ipv4HdrLen]) hs hd, identFlags6to4_eq view,
      bind_assoc]
    refine bind_congr fun word => ?_
    obtain ⟨ident, flags⟩ := word
    dsimp only
    rw [pure_bind, index_eq (by simp [wide]), lift_ok, pure_bind, put8_eq (by simp [wide]),
      lift_ok, pure_bind, splice_ipv4TTL, byteAt_ipv4Header_ttl, payload6to4_eq view hs hd, lift_ok,
      pure_bind]
    cases rewritten : rewrite6to4 t.cfg.udpChecksum v src4 dst4 with
    | error reason =>
      have failed := rewrite6to4_error rewritten
      simp only [Pkt.rewritten, ne_eq, failed, not_false_eq_true, if_true, view.observe_eq]
    | ok d =>
      have size := length_rewrite6to4 rewritten
      have data : (p.withData d).data = d :=
        Pkt.data_withData view.ordered view.hi (by rw [view.data, size])
      have total : uint16 ((ipv4HdrLen : Int) + (v.data.length : Int)) =
          (ipv4HdrLen + d.length) % 65536 := by
        rw [size, ← uint16_natCast]
        rfl
      simp only [rewritten_withData, ne_eq, not_true_eq_false, if_false, data]
      rw [put16_eq (by simp [wide]), lift_ok, pure_bind, splice_ipv4Checksum, total,
        emitPacket_pair (n := ipv4HdrLen) (wide ..) rfl, deliver, view.ipBytes, view.proto,
        ← sealedIPv4Header_mod]
      rfl

theorem xlate6to4Data_eq {p : Pkt} {v : Packet6} (view : View6 p v) :
    xlate6to4Data env t p = data6 env t v := by
  rw [xlate6to4Data, view.dst, lift_ok, pure_bind, map6to4_eq v.length_dst, data6]
  refine ask_bind_congr fun w => ?_
  cases mappedDst : (env.to4 false v.dst w).1 with
  | error err =>
    dsimp only
    rw [view.observe_eq, view.observe_eq, sendICMPv6Error_eq view]
    rfl
  | ok dst4 =>
    dsimp only
    rw [view.src, lift_ok, pure_bind, map6to4_eq v.length_src]
    refine ask_bind_congr fun w' => ?_
    cases mappedSrc : (env.to4 true v.src w').1 with
    | error err =>
      dsimp only
      rw [view.observe_eq, view.observe_eq, sendICMPv6Error_eq view]
      rfl
    | ok src4 => exact send6to4_eq view (Env.to4_length mappedSrc) (Env.to4_length mappedDst)

theorem embedded6_eq {p : Pkt} {v : Packet6} (view : View6 p v) (icmp : v.proto = protoICMPv6) :
    embedded6 p v.icmpType = .ok v.embedded := by
  have long := v.icmp_ge icmp
  rw [embedded6, view.data, @slice_eq _ icmpHdrLen _ long le_rfl, Checked.ok_bind,
    Bytes.sub_length, view.icmpRest icmp, Packet6.embedded]
  dsimp only
  by_cases extended : v.icmpType = 1 ∨ v.icmpType = 3
  · simp only [extended, if_true, true_and, Checked.ok_bind]
    split
    · split
      · rfl
      · rw [slice_eq (Nat.zero_le _) (by omega), Bytes.sub_zero]
        rfl
    · rfl
  · simp only [extended, if_false, false_and]
    rfl

theorem sendErrorFrom6to4_eq {p em : Pkt} {v : Packet6} (view : View6 p v) {src4 inner : Bytes}
    (hs : src4.length = 4) (front : inner.length = 20) (otype ocode : UInt8) (oword : Nat) :
    sendErrorFrom6to4 env p em src4 otype ocode oword inner =
      forwardErrorFrom6 env v src4 otype ocode oword (inner ++ em.data) := by
  rw [sendErrorFrom6to4, view.dst, lift_ok, pure_bind, map6to4_eq v.length_dst, forwardErrorFrom6]
  refine ask_bind_congr fun w => ?_
  cases mapped : (env.to4 false v.dst w).1 with
  | error err =>
    dsimp only
    rw [view.observe_eq]
  | ok dst4 =>
    have hd := Env.to4_length mapped
    have size : ipv4HdrLen + icmpHdrLen + ipv4HdrLen + em.data.length =
        ipv4HdrLen + icmpHdrLen + (inner ++ em.data).length := by
      simp only [List.length_append, front, ipv4HdrLen, icmpHdrLen]
      omega
    dsimp only
    have fills : ∀ b : Bytes, b.length = ipv4HdrLen + icmpHdrLen + (inner ++ em.data).length → _ :=
      fun b width =>
        @fillError6to4_eq _ env _ _ _ _ _ _ (ipv4HdrLen + icmpHdrLen + (inner ++ em.data).length)
          view.length_ipBytes hs hd front rfl width otype ocode oword
    rw [size, emitPacket_eq fills, deliver, sendError6, identFlags6to4_eq view, view.hdrLen, view.data,
      view.ipBytes, view.proto]
    rfl

theorem sendError6to4_eq {p em : Pkt} {v : Packet6} (view : View6 p v) {inner : Bytes}
    (front : inner.length = 20) (otype ocode : UInt8) (oword : Nat) :
    sendError6to4 env t p em otype ocode oword inner =
      forwardError6 env t v otype ocode oword (inner ++ em.data) := by
  rw [sendError6to4, view.src, lift_ok, pure_bind, map6to4_eq v.length_src, forwardError6]
  refine ask_bind_congr fun w => ?_
  cases mapped : (env.to4 false v.src w).1 with
  | error err =>
    dsimp only
    rw [view.observe_eq, sendErrorFrom6to4_eq view t.local4_length front]
  | ok src4 => exact sendErrorFrom6to4_eq view (Env.to4_length mapped) front otype ocode oword

/-- The part of `xlate6to4ICMPError` behind the embedded packet's mappings. -/
theorem sendEmbedded6 {p q : Pkt} {v em clip : Packet6} (view : View6 p v) (emView : View6 q clip)
    (header : clip.hdr = em.hdr) (ext : clip.ext = em.ext) (frag : clip.frag = em.frag)
    (proto : clip.proto = em.proto) {emSrc emDst : Bytes} (hs : emSrc.length = 4)
    (hd : emDst.length = 4) (otype ocode : UInt8) (oword : Nat) :
    (do
      let pl ← lift (ip6PayloadLen q.ipBytes)
      let inner ← header6to4 env q (List.replicate ipv4HdrLen 0)
        ((pl : Int) - q.hdrLen) emSrc emDst
      let result ← lift (payload6to4 t q inner)
      if result.1 ≠ .none then observe p .drop .embeddedUntranslatable
      else do
        let inner ← lift (put16 inner 10 (checksum inner 0).toNat)
        sendError6to4 env t p result.2 otype ocode oword inner) = (do
      let word ← identFlags env em ((em.payloadLen : Int) - em.extLen)
      match rewrite6to4 t.cfg.udpChecksum clip emSrc emDst with
      | .error _ => report (v.event .drop .embeddedUntranslatable)
      | .ok data =>
        forwardError6 env t v otype ocode oword (inner6to4 em word.1 word.2 emSrc emDst data)) := by
  have wide : ∀ tos len ident flags ttl proto ck,
      (ipv4Header tos len ident flags ttl proto ck emSrc emDst).length = 20 := by simp [hs, hd]
  have payloadLen : clip.payloadLen = em.payloadLen := congrArg (be16 · 4) header
  have extLen : clip.extLen = em.extLen := by rw [Packet6.extLen, ext, frag, Packet6.extLen]
  have flagsOf : ∀ len, identFlags env clip len = identFlags env em len := by
    intro len
    rw [identFlags, frag, extLen, identFlags]
  rw [emView.payloadLen, lift_ok, pure_bind,
    header6to4_eq emView.length_ipBytes (by simp [ipv4HdrLen]) hs hd, identFlags6to4_eq emView,
    emView.hdrLen, payloadLen, extLen, flagsOf, bind_assoc]
  refine bind_congr fun word => ?_
  obtain ⟨ident, flags⟩ := word
  dsimp only
  rw [pure_bind, payload6to4_eq emView hs hd, lift_ok, pure_bind]
  cases rewritten : rewrite6to4 t.cfg.udpChecksum clip emSrc emDst with
  | error reason =>
    have failed := rewrite6to4_error rewritten
    simp only [Pkt.rewritten, ne_eq, failed, not_false_eq_true, if_true, view.observe_eq]
  | ok d =>
    have data : (q.withData d).data = d := Pkt.data_withData emView.ordered emView.hi
      (by rw [emView.data, length_rewrite6to4 rewritten])
    simp only [rewritten_withData, ne_eq, not_true_eq_false, if_false]
    rw [put16_eq (by simp [wide]), lift_ok, pure_bind, splice_ipv4Checksum,
      sendError6to4_eq view (wide ..), data, emView.ipBytes, emView.proto, proto, header]
    rfl

theorem xlate6to4ICMPError_eq {p : Pkt} {v : Packet6} (view : View6 p v)
    (icmp : v.proto = protoICMPv6) : xlate6to4ICMPError env t p = error6 env t v := by
  rw [xlate6to4ICMPError, view.icmpType icmp, lift_ok, pure_bind, view.icmpCode icmp, lift_ok,
    pure_bind, embedded6_eq view icmp, lift_ok, pure_bind, error6]
  cases v.embedded with
  | none => exact view.observe_eq _ _
  | some raw =>
    dsimp only
    have parses := parseIPv6_refines raw
    cases parsed : parse6 raw with
    | error fail =>
      rw [parsed] at parses
      have answered : ∃ answer, parseIPv6 { raw } = .ok answer ∧ answer.1 ≠ .none := by
        cases fail with
        | silent =>
          obtain ⟨reason, pointer, q, answer, failed⟩ := parses
          exact ⟨_, answer, failed⟩
        | drop e =>
          obtain ⟨reason, pointer, q, answer, failed, -⟩ := parses
          exact ⟨_, answer, failed⟩
        | sourceRoute em pointer =>
          obtain ⟨q, answer, -⟩ := parses
          exact ⟨_, answer, nofun⟩
      obtain ⟨⟨reason, pointer, silent, q⟩, answer, failed⟩ := answered
      rw [answer, lift_ok, pure_bind]
      simp only [ne_eq] at failed
      simp only [ne_eq, failed, not_false_eq_true, if_true, view.observe_eq]
    | ok em =>
      rw [parsed] at parses
      obtain ⟨q, answer, emView⟩ := parses
      rw [answer, lift_ok, pure_bind]
      simp only [ne_eq, not_true_eq_false, if_false]
      rw [emView.icmpTypeOr, lift_ok, pure_bind]
      by_cases answerable : em.Answerable
      · rw [if_neg (about6_ne_iff.not.mpr (not_not.mpr answerable)), if_pos answerable]
        have clipped := emView.clip (icmp4MaxLen - 2 * ipv4HdrLen - icmpHdrLen) (by decide)
        generalize (if q.data.length > icmp4MaxLen - 2 * ipv4HdrLen - icmpHdrLen then
          { q with hi := q.lo + (icmp4MaxLen - 2 * ipv4HdrLen - icmpHdrLen) } else q) = q'
          at clipped ⊢
        have src : slice q'.ipBytes 8 24 = .ok em.src := clipped.src
        have dst : slice q'.ipBytes 24 40 = .ok em.dst := clipped.dst
        rw [view.icmpRest icmp, lift_ok, pure_bind]
        refine bind_congr fun result => ?_
        rcases result with reason | ⟨otype, ocode, oword⟩
        · exact view.observe_eq _ _
        dsimp only
        rw [src, lift_ok, pure_bind, map6to4_eq em.length_src]
        refine ask_bind_congr fun w => ?_
        rw [dst, lift_ok, pure_bind, map6to4_eq em.length_dst]
        refine ask_bind_congr fun w' => ?_
        cases mappedSrc : (env.to4 false em.src w).1 with
        | error err => exact view.observe_eq _ _
        | ok emSrc =>
          cases mappedDst : (env.to4 false em.dst w').1 with
          | error err => exact view.observe_eq _ _
          | ok emDst =>
            exact sendEmbedded6 view clipped rfl rfl rfl rfl (Env.to4_length mappedSrc)
              (Env.to4_length mappedDst) otype ocode oword
      · rw [if_pos (about6_ne_iff.mpr answerable), if_neg answerable, view.observe_eq]

theorem handleIPv6_eq {raw : Bytes} (nonempty : 0 < raw.length)
    (family : byteAt raw 0 >>> 4 = 6) : handleIPv6 env t raw = receive6 env t raw := by
  have parses := parseIPv6_refines raw
  rw [handleIPv6, receive6]
  cases parsed : parse6 raw with
  | error fail =>
    rw [parsed] at parses
    cases fail with
    | silent =>
      obtain ⟨reason, pointer, p, answer, failed⟩ := parses
      rw [answer, lift_ok, pure_bind]
      simp only [ne_eq, failed, not_false_eq_true, if_true]
    | drop e =>
      obtain ⟨reason, pointer, p, answer, failed, other, event⟩ := parses
      rw [answer, lift_ok, pure_bind]
      simp only [ne_eq, failed, not_false_eq_true, if_true, Bool.false_eq_true, other, if_false]
      rw [observe, event nonempty family, lift_ok, pure_bind, report]
    | sourceRoute v pointer =>
      obtain ⟨p, answer, view⟩ := parses
      rw [answer, lift_ok, pure_bind]
      simp only [ne_eq, reduceCtorEq, not_false_eq_true, if_true, Bool.false_eq_true, if_false,
        view.observe_eq, sendICMPv6Error_eq view]
  | ok v =>
    rw [parsed] at parses
    obtain ⟨p, answer, view⟩ := parses
    have marked : ¬ p.icmp = none ↔ v.proto = protoICMPv6 := by
      rw [view.icmp]
      split <;> simp_all
    rw [answer, lift_ok, pure_bind]
    simp only [ne_eq, not_true_eq_false, if_false]
    rw [view.hop, lift_ok, pure_bind, view.payloadLen, lift_ok, pure_bind, view.src, lift_ok,
      pure_bind, view.dst, lift_ok, pure_bind, view.icmpTypeOr, lift_ok, pure_bind, view.hdrLen,
      view.data, view.proto]
    simp only [view.observe_eq, sendICMPv6Error_eq view, xlate6to4Data_eq view]
    by_cases icmp : v.proto = protoICMPv6
    · simp only [marked, icmp, if_true, true_imp_iff, hostICMPv6_eq view icmp,
        xlate6to4ICMPError_eq view icmp]
    · simp only [marked, icmp, if_false, false_imp_iff, true_or, if_true]

theorem translate_eq (env : Env σ) (t : Translator) (raw : Bytes) :
    translate env t raw = receive env t raw := by
  rw [translate, receive]
  by_cases empty : raw.length = 0
  · rw [if_pos empty, if_pos empty]
  · have nonempty : 0 < raw.length := Nat.pos_of_ne_zero empty
    rw [if_neg empty, if_neg empty, index_eq nonempty, lift_ok, pure_bind]
    by_cases four : byteAt raw 0 >>> 4 = 4
    · rw [if_pos four, if_pos four, handleIPv4_eq nonempty four]
    · rw [if_neg four, if_neg four]
      by_cases six : byteAt raw 0 >>> 4 = 6
      · rw [if_pos six, if_pos six, handleIPv6_eq nonempty six]
      · rw [if_neg six, if_neg six, report]

end Clatto.Xlate
