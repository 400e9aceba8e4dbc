import Clatto.Xlate.Refine.Payload

/-! Asking, quoting and sending: the steps both families share, over buffers and
over values. -/

namespace Clatto.Xlate

open Bytes Effect

variable {σ : Type} {env : Env σ} {t : Translator}

theorem emitPacket_eq {n : Nat} {fill : Bytes → Xl σ Bytes} {content : Xl σ Bytes}
    (fills : ∀ b, b.length = n → fill b = content) :
    emitPacket env n fill = emitWith env n content := by
  refine ask_bind_congr fun w => ?_
  cases answer : (env.packet n w).1 with
  | none => rfl
  | some b =>
    dsimp only
    rw [fills b (env.packet_length answer)]

theorem Env.to6_length {a r : Bytes} {w : σ} (mapped : (env.to6 a w).1 = .ok r) :
    r.length = 16 := by
  unfold Env.to6 at mapped
  split at mapped
  · cases mapped
  · split at mapped
    · cases mapped
      unfold Netip.Addr.as16
      split <;> simp
    · cases mapped

theorem Env.to4_length {allocate : Bool} {a r : Bytes} {w : σ}
    (mapped : (env.to4 allocate a w).1 = .ok r) : r.length = 4 := by
  unfold Env.to4 at mapped
  split at mapped <;> cases mapped
  simp

theorem map4to6_eq {a : Bytes} (four : a.length = 4) :
    map4to6 env a = ask (env.to6 a) := by
  funext w
  rw [map4to6, slice_whole four, lift_ok, pure_bind, bind_run, ask_run, ask_run, Env.to6]
  rcases env.mapIPv4ToIPv6 (Netip.Addr.from4 a) w with ⟨err | r, w'⟩
  · rfl
  · dsimp only
    split <;> rfl

theorem map6to4_eq {a : Bytes} (sixteen : a.length = 16) (allocate : Bool) :
    map6to4 env a allocate = ask (env.to4 allocate a) := by
  funext w
  rw [map6to4, slice_whole sixteen, lift_ok, pure_bind, bind_run, ask_run, ask_run, Env.to4]
  rcases env.mapIPv6ToIPv4 (Netip.Addr.from16 a) allocate w with ⟨err | r, w'⟩
  · rfl
  · cases r <;> rfl

theorem Packet4.length_src (p : Packet4) : p.src.length = 4 := by
  have := p.hdr_ge
  rw [Packet4.src, length_sub_of_le (by omega)]

theorem Packet4.length_dst (p : Packet4) : p.dst.length = 4 := by
  have := p.hdr_ge
  rw [Packet4.dst, length_sub_of_le (by omega)]

theorem Packet6.length_src (p : Packet6) : p.src.length = 16 := by
  have := p.hdr_length
  rw [Packet6.src, length_sub_of_le (by omega)]

theorem Packet6.length_dst (p : Packet6) : p.dst.length = 16 := by
  have := p.hdr_length
  rw [Packet6.dst, length_sub_of_le (by omega)]

theorem length_icmp4Packet {src dst : Bytes} (hs : src.length = 4) (hd : dst.length = 4)
    (tos typ code : UInt8) (word : Nat) (body : Bytes) :
    (icmp4Packet tos src dst typ code word body).length = 28 + body.length := by
  simp [icmp4Packet, sealedIPv4Header, sealedICMP, hs, hd]
  omega

theorem length_icmp6Packet {src dst : Bytes} (hs : src.length = 16) (hd : dst.length = 16)
    (tc typ code : UInt8) (word : Nat) (body : Bytes) :
    (icmp6Packet tc src dst typ code word body).length = 48 + body.length := by
  simp [icmp6Packet, sealedICMP, hs, hd]
  omega

theorem length_sealedICMP (pseudo : UInt64) (typ code : UInt8) (word : Nat) (body : Bytes) :
    (sealedICMP pseudo typ code word body).length = 8 + body.length := length_icmpMessage ..

/-- Cutting the quoted bytes to `max` is cutting the packet to `max`. -/
theorem quote_slice {p : Pkt} {wire : Bytes} (whole : p.raw.take p.hi = wire)
    (bounded : p.hi ≤ p.raw.length) {n max : Nat} (size : n = wire.length) :
    slice p.raw 0 (if n > max then max else n) = .ok (wire.take max) := by
  have length : wire.length = p.hi := by rw [← whole]; simp; omega
  rw [slice_eq (Nat.zero_le _) (by split <;> omega), Bytes.sub_zero, ← whole, List.take_take]
  congr 2
  split <;> omega

/-- Copying a header and a payload fills a buffer of their joint size. -/
theorem emitPacket_pair {h data : Bytes} {n m : Nat} (front : h.length = n)
    (size : m = n + data.length) :
    (emitPacket env m fun b => lift do
      let b ← copyFrom b 0 h
      copyFrom b n data) = emit env (h ++ data) := by
  rw [emit, List.length_append, front, ← size]
  refine emitPacket_eq fun b width => ?_
  have both := @copyFrom_pair [] b h data 0 rfl (by omega)
  rw [List.nil_append, front, Nat.zero_add, List.nil_append] at both
  rw [both, lift_ok]

theorem rewritten_withData {p : Pkt} {d : Bytes} : p.rewritten (.ok d) = (.none, p.withData d) := rfl

theorem rewriteTransport_error {mode : UDPChecksumMode} {proto : UInt8} {data : Bytes}
    {pseudo remove add : UInt64} {reason : Reason}
    (failed : rewriteTransport mode proto data pseudo remove add = .error reason) :
    reason ≠ .none := by
  unfold rewriteTransport fillChecksum at failed
  split at failed
  · split at failed
    · cases failed
      decide
    · split at failed
      · split at failed <;> cases failed
        decide
      · cases failed
  · split at failed
    · split at failed <;> cases failed
      decide
    · cases failed

theorem rewrite4to6_error {mode : UDPChecksumMode} {v : Packet4} {src6 dst6 : Bytes}
    {reason : Reason} (failed : rewrite4to6 mode v src6 dst6 = .error reason) :
    reason ≠ .none := by
  unfold rewrite4to6 at failed
  split at failed
  · cases failed
  · split at failed
    · cases failed
    · exact rewriteTransport_error failed

theorem rewrite6to4_error {mode : UDPChecksumMode} {v : Packet6} {src4 dst4 : Bytes}
    {reason : Reason} (failed : rewrite6to4 mode v src4 dst4 = .error reason) :
    reason ≠ .none := by
  unfold rewrite6to4 at failed
  split at failed
  · cases failed
  · split at failed
    · cases failed
    · exact rewriteTransport_error failed

end Clatto.Xlate
