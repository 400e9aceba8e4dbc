import Clatto.Xlate.Lengths

/-! The checksums of the ICMP messages that are sent, whether they were written from
scratch or moved from one family to the other. -/

namespace Clatto.Xlate

open Bytes Ones Effect

variable {σ : Type}

theorem wordSum_retype {data : Bytes} (long : 8 ≤ data.length) (typ : UInt8) (ck : UInt16) :
    wordSum (retype data typ ck) + be16 data 2 + (byteAt data 0).toNat * 256 =
      wordSum data + ck.toNat + typ.toNat * 256 := by
  match data, long with
  | a :: b :: c :: d :: rest, _ =>
    have field : be16 (a :: b :: c :: d :: rest) 2 = c.toNat * 256 + d.toNat := rfl
    rw [retype_cons, field, byteAt_cons_zero]
    simp only [wordSum]
    rw [wordSum_append (by simp), wordSum_enc16 ck.toNat_lt]
    omega

theorem gain_mod {old ps change : Nat} (word : old < 65536) :
    (65535 - carry (65535 - old + ps + change) + ps + change) % 65535 = old % 65535 := by
  have folded := carry_mod (65535 - old + ps + change)
  have limit := carry_le (65535 - old + ps + change)
  omega

/-- The checksum that loses them. Something is left of it, so it is never all ones. -/
theorem lose_mod {old ps change : Nat} (word : old < 65536) (bound : change < 65535) :
    (65535 - carry (65535 - old + (65535 - carry ps) + (65535 - change))) % 65535 =
        (old + ps + change) % 65535 ∧
      65535 - carry (65535 - old + (65535 - carry ps) + (65535 - change)) < 65535 := by
  have inner := carry_mod ps
  have most := carry_le ps
  have folded := carry_mod (65535 - old + (65535 - carry ps) + (65535 - change))
  have limit := carry_le (65535 - old + (65535 - carry ps) + (65535 - change))
  have zero := @carry_eq_zero (65535 - old + (65535 - carry ps) + (65535 - change))
  omega

theorem pseudo6_pos {src dst : Bytes} (hs : src.length = 16) (hd : dst.length = 16) {len : Nat}
    (small : len < 2 ^ 32) : 0 < (pseudo6 src dst len protoICMPv6).toNat := by
  obtain ⟨sum, -⟩ := pseudo6_spec hs hd small protoICMPv6
  rw [carry_eq_iff] at sum
  have : protoICMPv6.toNat = 58 := rfl
  omega

/-- An echo message verifies on the IPv6 side if it did on the IPv4 side. -/
theorem verify_echo4to6 {p : Packet4} (accepted : Accepted4 p) (icmp : p.proto = protoICMP)
    (kind : p.icmpType = 8 ∨ p.icmpType = 0) {src6 dst6 : Bytes} (hs : src6.length = 16)
    (hd : dst6.length = 16) :
    verify (echo4to6 p src6 dst6) (pseudo6 src6 dst6 p.data.length protoICMPv6) := by
  have long := p.icmp_ge icmp
  have short := accepted.total_lt
  have length : (p.total : Int) - p.hdr.length = p.data.length := by
    have size := accepted.size
    rw [Packet4.size] at size
    omega
  obtain ⟨-, small⟩ := pseudo6_spec hs hd (show p.data.length < 2 ^ 32 by omega) protoICMPv6
  have positive := pseudo6_pos hs hd (show p.data.length < 2 ^ 32 by omega)
  obtain ⟨-, valid⟩ := (verify_iff (roomy_zero (by omega))).mp (accepted.message icmp)
  rw [UInt64.toNat_zero, Nat.zero_add] at valid
  rw [echo4to6, length]
  generalize pseudo6 src6 dst6 p.data.length protoICMPv6 = ps at small positive ⊢
  have word := be16_lt p.data 2
  have back : (UInt16.ofNat (be16 p.data 2)).toNat = be16 p.data 2 := by
    rw [UInt16.toNat_ofNat', Nat.mod_eq_of_lt word]
  have finish {change : UInt64} {typ : UInt8} (bound : change.toNat ≤ 65535)
      (same : typ.toNat * 256 = (byteAt p.data 0).toNat * 256 + change.toNat) :
      verify (retype p.data typ
        (~~~ fold ((~~~ UInt16.ofNat (be16 p.data 2)).toUInt64 + ps + change))) ps := by
    have sum := wordSum_retype long typ
      (~~~ fold ((~~~ UInt16.ofNat (be16 p.data 2)).toUInt64 + ps + change))
    rw [toNat_gain small bound, back] at sum
    have gained := @gain_mod (be16 p.data 2) ps.toNat change.toNat word
    rw [verify_iff (by rw [Roomy, length_retype]; omega)]
    omega
  split
  · rename_i request
    exact finish (by decide) (by rw [show byteAt p.data 0 = 8 from request]; decide)
  · rename_i other
    exact finish (by decide) (by rw [show byteAt p.data 0 = 0 from kind.resolve_left other]; decide)

/-- An echo reply of nothing but zeros, apart from its checksum. -/
def Packet6.ZeroReply (p : Packet6) : Prop :=
  p.icmpType = 129 ∧ p.icmpCode = 0 ∧ ∀ x ∈ p.data.drop 4, x = 0

theorem wordSum_split {data : Bytes} (long : 8 ≤ data.length) :
    wordSum data = (byteAt data 0).toNat * 256 + (byteAt data 1).toNat + be16 data 2 +
      wordSum (data.drop 4) := by
  match data, long with
  | a :: b :: c :: d :: rest, _ =>
    have field : be16 (a :: b :: c :: d :: rest) 2 = c.toNat * 256 + d.toNat := rfl
    rw [field]
    simp only [wordSum, byteAt_cons_zero, List.drop_succ_cons, List.drop_zero]
    exact (Nat.add_assoc ..).symm

/-- An echo message verifies on the IPv4 side if it did on the IPv6 side, unless nothing
but zeros is left of it. -/
theorem verify_echo6to4 {p : Packet6} (accepted : Accepted6 p) (icmp : p.proto = protoICMPv6)
    (kind : p.icmpType = 128 ∨ p.icmpType = 129) :
    verify (echo6to4 p) 0 ↔ ¬ p.ZeroReply := by
  have long := p.icmp_ge icmp
  have short : p.data.length < 65536 := by
    have field : p.payloadLen < 65536 := be16_lt _ _
    have := accepted.length
    omega
  have length : (p.payloadLen : Int) - p.extLen = p.data.length := by
    have := accepted.length
    omega
  obtain ⟨-, small⟩ := pseudo6_spec p.length_src p.length_dst
    (show p.data.length < 2 ^ 32 by omega) protoICMPv6
  obtain ⟨-, valid⟩ := (verify_iff (by rw [Roomy]; omega)).mp (accepted.message icmp)
  rw [echo6to4, length]
  generalize pseudo6 p.src p.dst p.data.length protoICMPv6 = ps at small valid ⊢
  have word := be16_lt p.data 2
  have back : (UInt16.ofNat (be16 p.data 2)).toNat = be16 p.data 2 := by
    rw [UInt16.toNat_ofNat', Nat.mod_eq_of_lt word]
  have parts := wordSum_split long
  have sum (typ : UInt8) (change : UInt16) := wordSum_retype long typ (~~~ fold
    ((~~~ UInt16.ofNat (be16 p.data 2)).toUInt64 + (~~~ fold ps).toUInt64 + (~~~ change).toUInt64))
  simp only [toNat_lose, back] at sum
  rw [Packet6.ZeroReply]
  split
  · rename_i request
    have first : byteAt p.data 0 = 128 := request
    have total := sum 8 ((128 - 8 : UInt16) <<< 8)
    have lost := @lose_mod (be16 p.data 2) ps.toNat ((128 - 8 : UInt16) <<< 8).toNat word (by decide)
    rw [first] at total parts
    rw [show ((128 - 8 : UInt16) <<< 8).toNat = 30720 from rfl] at total lost
    rw [show (128 : UInt8).toNat = 128 from rfl] at total parts
    rw [show (8 : UInt8).toNat = 8 from rfl] at total
    rw [verify_iff (roomy_zero (by rw [length_retype]; omega)), UInt64.toNat_zero, Nat.zero_add,
      request]
    refine ⟨fun _ zero => absurd zero.1 (by decide), fun _ => ⟨by omega, by omega⟩⟩
  · rename_i other
    have first : byteAt p.data 0 = 129 := kind.resolve_left other
    have total := sum 0 ((129 - 0 : UInt16) <<< 8)
    have lost := @lose_mod (be16 p.data 2) ps.toNat ((129 - 0 : UInt16) <<< 8).toNat word (by decide)
    rw [first] at total parts
    rw [show ((129 - 0 : UInt16) <<< 8).toNat = 33024 from rfl] at total lost
    rw [show (129 : UInt8).toNat = 129 from rfl] at total parts
    rw [show (0 : UInt8).toNat = 0 from rfl] at total
    rw [verify_iff (roomy_zero (by rw [length_retype]; omega)), UInt64.toNat_zero, Nat.zero_add,
      ← wordSum_eq_zero]
    have code : p.icmpCode = 0 ↔ (byteAt p.data 1).toNat = 0 := (UInt8.toNat_inj (b := 0)).symm
    rw [code]
    constructor
    · rintro ⟨some, -⟩ ⟨-, none, rest⟩
      omega
    · refine fun some => ⟨fun none => some ⟨first, by omega, by omega⟩, by omega⟩

/-- Every ICMP message among the packets of one call verifies. A large ICMPv6 message is
put together from its fragments first, which is possible for every usable MTU. -/
structure MessagesVerify (t : Translator) (sent : List Bytes) : Prop where
  four : ∀ q ∈ sent, version q = 4 → byteAt q 9 = protoICMP → verify (q.drop ipv4HdrLen) 0
  six : ∀ d, (∀ q ∈ sent, version q = 6) → Reassembles (sent.map piece6) d →
    d.proto = protoICMPv6 → verifies6 d
  whole : mtuMin ≤ t.cfg.mtu → ∀ q ∈ sent, version q = 6 → (piece6 q).proto = protoICMPv6 →
    ∃ d, Reassembles (sent.map piece6) d

section

variable {env : Env σ} {t : Translator} {raw q : Bytes} {sent : List Bytes} {acts : List Action}

namespace MessagesVerify

theorem of_nil : MessagesVerify t [] := by
  refine ⟨nofun, fun d _ received => ?_, nofun⟩
  obtain ⟨⟨_, _, none, -⟩, -⟩ := received
  cases none

theorem of_four (four : version q = 4)
    (valid : byteAt q 9 = protoICMP → verify (q.drop ipv4HdrLen) 0) : MessagesVerify t [q] := by
  refine ⟨?_, fun d six => ?_, ?_⟩
  · intro q' member _ icmp
    obtain rfl := List.mem_singleton.mp member
    exact valid icmp
  · cases four.symm.trans (six q (List.mem_singleton_self q))
  · intro _ q' member six
    obtain rfl := List.mem_singleton.mp member
    cases four.symm.trans six

theorem of_datagram {d : Datagram} (six : ∀ q ∈ sent, version q = 6)
    (received : Reassembles (sent.map piece6) d) (valid : verifies6 d) : MessagesVerify t sent := by
  refine ⟨fun q member four => ?_, fun d' _ received' _ => ?_, fun _ _ _ _ _ => ⟨d, received⟩⟩
  · cases four.symm.trans (six q member)
  · rwa [received'.unique received]

theorem of_six {src dst message : Bytes} {len : Nat} (hs : src.length = 16) (hd : dst.length = 16)
    (size : len = message.length) (short : len < 65536) (tc hop : UInt8)
    (valid : verify message (pseudo6 src dst len protoICMPv6)) :
    MessagesVerify t [ipv6Header tc len protoICMPv6 hop src dst ++ message] := by
  subst size
  have piece := piece6_whole hs hd (show protoICMPv6 ≠ protoFrag by decide) short tc hop
  refine of_datagram (d := ⟨src, dst, protoICMPv6, message⟩) (fun q member => ?_) ?_ valid
  · obtain rfl := List.mem_singleton.mp member
    exact ipv6Header_version ..
  · rw [List.map_singleton, piece]
    exact ⟨⟨_, _, rfl, .last ⟨rfl, rfl, rfl, rfl⟩ rfl rfl, rfl, rfl, rfl⟩, by simp⟩

theorem of_foreign (six : ∀ q ∈ sent, version q = 6)
    (foreign : ∀ q ∈ sent, (piece6 q).proto ≠ protoICMPv6) : MessagesVerify t sent := by
  refine ⟨fun q member four => ?_, fun d _ received icmp => ?_, fun _ q member _ icmp => ?_⟩
  · cases four.symm.trans (six q member)
  · obtain ⟨⟨first, rest, same, -, -, -, proto⟩, -⟩ := received
    obtain ⟨q, member, rfl⟩ : ∃ q ∈ sent, piece6 q = first := by
      rw [← List.mem_map, same]
      exact .head _
    exact absurd (proto.symm.trans icmp) (foreign q member)
  · exact absurd icmp (foreign q member)

theorem of_endless (cramped : ¬ mtuMin ≤ t.cfg.mtu) (six : ∀ q ∈ sent, version q = 6)
    (endless : ∀ q ∈ sent, (piece6 q).more = true) : MessagesVerify t sent := by
  refine ⟨fun q member four => ?_, fun d _ received => ?_, fun usable => absurd usable cramped⟩
  · cases four.symm.trans (six q member)
  · obtain ⟨⟨first, rest, -, run, -⟩, -⟩ := received
    obtain ⟨piece, among, last⟩ := run.exists_last
    obtain ⟨q, member, rfl⟩ := List.mem_map.mp among
    cases last.symm.trans (endless q member)

end MessagesVerify

theorem proto_isPiece4 {p : Packet4} (parsed : Parsed4 raw p) {src6 dst6 data : Bytes}
    (hs : src6.length = 16) (hd : dst6.length = 16) {whole : Bool}
    (piece : IsPiece4 t p src6 dst6 data whole q) : (piece6 q).proto = p.next := by
  cases whole with
  | true =>
    obtain rfl : q = whole4to6 p src6 dst6 data := piece
    rw [piece6, whole4to6, ipv6Header_next, if_neg (by exact parsed.next_ne)]
  | false =>
    obtain ⟨k, -, -, rfl⟩ := piece
    rw [piece6, fragment4to6, ipv6Header_next, if_pos (show protoFrag = 44 from rfl)]
    dsimp only
    rw [byteAt_append_right (by simp [hs, hd])]
    simp [hs, hd, fragHeader, byteAt]

/-- Without room for data a fragment is empty, and more is to come. -/
theorem endless_isPiece4 {p : Packet4} (parsed : Parsed4 raw p) {src6 dst6 data : Bytes}
    (hs : src6.length = 16) (hd : dst6.length = 16) (width : data.length = p.data.length)
    (none : t.fragRoom ≤ 0) (piece : IsPiece4 t p src6 dst6 data false q) :
    (piece6 q).more = true := by
  obtain ⟨k, aligned, inside, rfl⟩ := piece
  have bound := parsed.fragment.1
  have zero : min (data.length - k) t.fragRoom.toNat = 0 := by omega
  rw [zero, piece6_fragment4to6 hs hd (by omega) (by omega) (Nat.zero_le _) (by decide)]
  simp only [List.length_drop, gt_iff_lt, Bool.or_eq_true, decide_eq_true_eq]
  exact .inl (Nat.sub_pos_of_lt inside)

theorem packets_synthesised (e : Event) (synth : Bool) (b : Bytes) (family : UInt8) (n : Nat) :
    packets (synthesised e synth ++ [.packet b, .translated family n]) = [b] := by
  cases synth <;> rfl

theorem drop_sealed {src dst : Bytes} (hs : src.length = 4) (hd : dst.length = 4) (tos ttl proto : UInt8)
    (len ident flags : Nat) (message : Bytes) :
    (sealedIPv4Header tos len ident flags ttl proto src dst ++ message).drop ipv4HdrLen = message := by
  refine List.drop_left' ?_
  simp [sealedIPv4Header, hs, hd, ipv4HdrLen]

theorem Trace4.messages {p : Packet4} (found : parse4 raw = .ok p) (trace : Trace4 env t p acts)
    (willing : env.Willing) : MessagesVerify t (packets acts) := by
  have parsed := parse4_ok found
  cases trace with
  | report => exact .of_nil
  | complain =>
    have cut : p.quote.length ≤ 548 := List.length_take_le _ _
    refine .of_four (sealedIPv4Header_first ..) fun _ => ?_
    rw [icmp4Packet, drop_sealed t.local4_length p.length_src]
    exact verify_sealedICMP (by decide) (by omega) ..
  | echo =>
    have short := parsed.data_le
    refine .of_four (sealedIPv4Header_first ..) fun _ => ?_
    rw [icmp4Packet, drop_sealed p.length_dst p.length_src]
    exact verify_sealedICMP (by decide) (by rw [List.length_drop]; omega) ..
  | @data src6 dst6 data forwarded whole fits sent done shape pieces all refused _ =>
    have hs := forwarded.src.length
    have hd := forwarded.dst.length
    have six (q : Bytes) (member : q ∈ sent) : version q = 6 := version_isPiece4 (shape q member)
    have same : packets (sent.map .packet ++ if done then [.translated 4 p.size] else []) = sent := by
      rw [packets_append, packets_map]
      cases done <;> exact List.append_nil _
    rw [same]
    by_cases icmp : p.proto = protoICMP
    · have payload := forwarded.payload
      have width := length_rewrite4to6 payload
      have long := p.icmp_ge icmp
      have short := parsed.data_le
      obtain ⟨start, last⟩ := parsed.icmp_whole icmp
      rw [rewrite4to6, if_neg (not_not.mpr start), if_pos icmp] at payload
      cases payload
      by_cases roomy : t.Roomy whole
      · have finished : done = true := by
          by_contra stopped
          exact refused roomy (Bool.eq_false_iff.mpr stopped) willing
        have next : p.next = protoICMPv6 := if_pos icmp
        have some : echo4to6 p src6 dst6 ≠ [] := List.ne_nil_of_length_pos (by omega)
        have received := pieces4to6_reassemble roomy hs hd some (by rw [fragHdrLen]; omega)
          parsed.next_ne start last
        rw [← all roomy finished] at received
        refine .of_datagram six received ?_
        rw [verifies6, next, width]
        exact verify_echo4to6 forwarded.toAccepted4 icmp (forwarded.kind icmp) hs hd
      · cases whole with
        | true => exact absurd (.inl rfl) roomy
        | false =>
          have none : t.fragRoom ≤ 0 := Int.not_lt.mp fun room => roomy (.inr room)
          refine .of_endless (fun usable => roomy (roomy_of_usable usable _)) six fun q member => ?_
          exact endless_isPiece4 parsed hs hd width none (shape q member)
    · refine .of_foreign six fun q member => ?_
      rw [proto_isPiece4 parsed hs hd (shape q member)]
      exact fun next => icmp (parsed.icmp_of_next next)
  | @error otype ocode oword inner src6 dst6 forwarded synth src dst =>
    have cut := forwarded.length_inner
    have source : src6.length = 16 := by
      cases synth with
      | true => exact (congrArg List.length src).trans t.local6_length
      | false => exact Env.Maps6.length src
    rw [packets_synthesised, error4to6, show p.next = protoICMPv6 from if_pos forwarded.icmp]
    refine .of_six source dst.length ?_ (by rw [icmpHdrLen]; omega) _ _ ?_
    · rw [length_sealedICMP, icmpHdrLen]
    · exact verify_sealedICMP (pseudo6_spec source dst.length (by rw [icmpHdrLen]; omega) _).2
        (by omega) ..
  | errorRefused synth refused => exact absurd willing refused
  | errorUnmapped synth => cases synth <;> exact .of_nil

theorem messages_icmp6Packet {tc : UInt8} {src dst : Bytes} (hs : src.length = 16)
    (hd : dst.length = 16) {body : Bytes} (short : body.length ≤ 65527) (typ code : UInt8)
    (word : Nat) : MessagesVerify t [icmp6Packet tc src dst typ code word body] := by
  refine .of_six hs hd ?_ (by rw [icmpHdrLen]; omega) _ _ ?_
  · rw [length_sealedICMP, icmpHdrLen]
  · exact verify_sealedICMP (pseudo6_spec hs hd (by rw [icmpHdrLen]; omega) _).2 (by omega) ..

theorem Trace6.messages {p : Packet6} (found : parse6 raw = .ok p) (trace : Trace6 env t p acts)
    (willing : env.Willing) (other : Through6 t p → p.proto = protoICMPv6 →
      (p.size : Int) ≤ t.cfg.mtu → ¬ p.ZeroReply) : MessagesVerify t (packets acts) := by
  have parsed := parse6_ok found
  cases trace with
  | report => exact .of_nil
  | complain =>
    have cut : p.quote.length ≤ 1232 := List.length_take_le _ _
    exact messages_icmp6Packet t.local6_length p.length_src (by omega) ..
  | echo accepted =>
    have field : p.payloadLen < 65536 := be16_lt _ _
    have length := accepted.length
    exact messages_icmp6Packet p.length_dst p.length_src (by rw [List.length_drop, icmpHdrLen]; omega) ..
  | @data src4 dst4 data ident flags forwarded fragment =>
    refine .of_four (sealedIPv4Header_first ..) fun next => ?_
    have icmp : p.proto = protoICMPv6 := parsed.icmp_of_next next
    have payload := forwarded.payload
    rw [rewrite6to4, if_neg (not_not.mpr (parsed.icmp_whole icmp).1), if_pos icmp] at payload
    cases payload
    rw [whole6to4, drop_sealed forwarded.src.length forwarded.dst.length,
      verify_echo6to4 forwarded.toAccepted6 icmp (forwarded.kind icmp)]
    exact other forwarded.toThrough6 icmp forwarded.small
  | dataRefused refused => exact absurd willing refused
  | @error otype ocode oword inner src4 dst4 ident flags forwarded synth src dst fragment =>
    have cut := forwarded.length_inner
    have source : src4.length = 4 := by
      cases synth with
      | true => exact (congrArg List.length src).trans t.local4_length
      | false => exact Env.Maps4.length src
    rw [packets_synthesised]
    refine .of_four (sealedIPv4Header_first ..) fun _ => ?_
    rw [error6to4, drop_sealed source dst.length]
    exact verify_sealedICMP (by decide) (by omega) ..
  | errorRefused synth refused => exact absurd willing refused
  | errorUnmapped synth => cases synth <;> exact .of_nil

/-- An echo reply from IPv6 that is translated and has nothing but zeros in it. -/
structure ZeroEcho (t : Translator) (raw : Bytes) (p : Packet6) : Prop extends Through6 t p where
  found : parse6 raw = .ok p
  icmp : p.proto = protoICMPv6
  zero : p.ZeroReply
  small : (p.size : Int) ≤ t.cfg.mtu

theorem Handled.messages (handled : Handled env t raw acts) (willing : env.Willing)
    (other : ∀ p, ¬ ZeroEcho t raw p) : MessagesVerify t (packets acts) := by
  cases handled with
  | empty => exact .of_nil
  | unknown => exact .of_nil
  | four _ _ handled =>
    cases handled with
    | unparsed => exact .of_nil
    | parsed found trace => exact trace.messages found willing
  | six _ _ handled =>
    cases handled with
    | silent => exact .of_nil
    | unparsed => exact .of_nil
    | @sourceRoute p _ _ failed answer =>
      rcases answer with rfl | ⟨-, rfl⟩
      · exact .of_nil
      · have cut : p.quote.length ≤ 1232 := List.length_take_le _ _
        exact messages_icmp6Packet t.local6_length p.length_src (by omega) ..
    | @parsed p _ found trace =>
      exact trace.messages found willing fun through icmp small zero =>
        other p ⟨through, found, icmp, zero, small⟩

/-- Where every address is mapped, such a reply leaves with a checksum of zero. -/
theorem ZeroEcho.not_verify {p : Packet6} (echo : ZeroEcho t raw p) :
    ¬ MessagesVerify t (packets (translate Env.constant t raw ()).acts) := by
  have kind : p.icmpType = 128 ∨ p.icmpType = 129 := .inr echo.zero.1
  have payload (src4 dst4 : Bytes) : rewrite6to4 t.cfg.udpChecksum p src4 dst4 = .ok (echo6to4 p) := by
    rw [rewrite6to4, if_neg (not_not.mpr ((parse6_ok echo.found).icmp_whole echo.icmp).1),
      if_pos echo.icmp]
  rw [translate_through6 echo.found echo.toThrough6 fun _ => kind]
  obtain ⟨ident, flags, -, sent⟩ := data6_sends Env.constant_willing (fun _ => rfl) (fun _ => rfl)
    echo.small (payload _ _) ()
  rw [sent]
  intro verified
  have valid := verified.four _ (.head _) (sealedIPv4Header_first ..)
    (show p.next = protoICMP from if_pos echo.icmp)
  rw [whole6to4, drop_sealed rfl rfl, verify_echo6to4 echo.toAccepted6 echo.icmp kind] at valid
  exact valid echo.zero

end

/-- Every ICMP message verifies, except for an echo reply of zeros on its way to IPv4. -/
theorem messagesVerify_iff (t : Translator) (raw : Bytes) :
    (∀ {σ : Type} (env : Env σ) (w : σ), env.Willing →
      MessagesVerify t (packets (translate env t raw w).acts)) ↔ ∀ p, ¬ ZeroEcho t raw p := by
  constructor
  · exact fun verified p echo =>
      echo.not_verify (verified Env.constant () Env.constant_willing)
  · exact fun other σ env w willing => (translate_sound env t raw w).1.messages willing other

/-- An echo reply with identifier and sequence number zero, without data. -/
def zeroEcho : Bytes :=
  [96, 0, 0, 0, 0, 8, 58, 64, 32, 1, 13, 184, 0, 0, 0, 0, 0, 0, 0, 0, 0, 0, 0, 9, 32, 1, 13, 184,
    0, 0, 0, 0, 0, 0, 0, 0, 0, 0, 0, 7, 129, 0, 35, 59, 0, 0, 0, 0]

/-- It leaves as eight zeros, which do not verify. -/
theorem zeroEcho_fails : Env.constant.Willing ∧
    ∃ q, packets (translate Env.constant (.sample 1500 .calc) zeroEcho ()).acts = [q] ∧
      version q = 4 ∧ byteAt q 9 = protoICMP ∧ q.drop 20 = List.replicate 8 0 ∧
      fold (sum16 (q.drop 20) 0) = 0 ∧ ¬ MessagesVerify (.sample 1500 .calc) [q] := by
  obtain ⟨q, sent, four, icmp, zeros⟩ : ∃ q ∈ packets (translate Env.constant (.sample 1500 .calc)
      zeroEcho ()).acts, version q = 4 ∧ byteAt q 9 = protoICMP ∧ q.drop 20 = List.replicate 8 0 := by
    decide +kernel
  have one : (packets (translate Env.constant (.sample 1500 .calc) zeroEcho ()).acts).length = 1 := by
    decide +kernel
  obtain ⟨q', only⟩ := List.length_eq_one_iff.mp one
  obtain rfl : q = q' := by
    rw [only] at sent
    exact List.mem_singleton.mp sent
  refine ⟨Env.constant_willing, q, only, four, icmp, zeros, by rw [zeros]; decide, fun verified => ?_⟩
  have valid := verified.four q (.head _) four icmp
  rw [show ipv4HdrLen = 20 from rfl, zeros] at valid
  exact absurd valid (by decide)

end Clatto.Xlate
