import Clatto.Xlate.OwnErrors
import Clatto.Xlate.Quote

/-! The length fields of everything that is sent, and of the headers quoted in it. -/

namespace Clatto.Xlate

open Bytes Effect

variable {σ : Type}

/-- The lengths stated in a packet that was made of another one. -/
structure LengthsExact (raw q : Bytes) : Prop where
  total : version q = 4 → be16 q 2 = q.length
  payload : version q = 6 → ipv6HdrLen + be16 q 4 = q.length
  quoted4 : ∀ p inner em, parse6 raw = .ok p → p.proto = protoICMPv6 →
    ¬ (p.icmpType = 128 ∨ p.icmpType = 129) → p.embedded = some inner → parse6 inner = .ok em →
    version q = 4 → (be16 (q.drop (ipv4HdrLen + icmpHdrLen)) 2 : Int) =
      ipv4HdrLen + ((em.payloadLen : Int) - em.extLen)
  quoted6 : ∀ p inner em, parse4 raw = .ok p → p.proto = protoICMP →
    ¬ (p.icmpType = 8 ∨ p.icmpType = 0) → p.embedded = some inner → parse4 inner = .ok em →
    version q = 6 → (be16 (q.drop (ipv6HdrLen + icmpHdrLen)) 4 : Int) =
      (em.total : Int) - em.hdr.length

/-- An ICMPv6 error that is translated although the packet it quotes is too long for
IPv4. -/
structure Overlong (t : Translator) (raw : Bytes) (p em : Packet6) : Prop
    extends Through6 t p where
  found : parse6 raw = .ok p
  icmp : p.proto = protoICMPv6
  kind : ¬ (p.icmpType = 128 ∨ p.icmpType = 129)
  quoted : ∃ inner, p.embedded = some inner ∧ parse6 inner = .ok em
  answerable : em.Answerable
  translated : ∃ otype ocode oword,
    errorType6to4 t p.icmpType p.icmpCode p.icmpRest = .ok (.ok (otype, ocode, oword))
  payload : ∃ src4 dst4 data, rewrite6to4 t.cfg.udpChecksum
    (em.clip (icmp4MaxLen - 2 * ipv4HdrLen - icmpHdrLen) (by decide)) src4 dst4 = .ok data
  long : 65535 < ipv4HdrLen + ((em.payloadLen : Int) - em.extLen)

section

variable {raw : Bytes}

theorem Parsed4.size_le {p : Packet4} (parsed : Parsed4 raw p) : p.size ≤ raw.length := by
  have width := congrArg List.length parsed.wire
  rw [Packet4.wire, List.length_append, List.length_take] at width
  rw [Packet4.size]
  omega

theorem Parsed4.hdr_le_total {p : Packet4} (parsed : Parsed4 raw p) : p.hdr.length ≤ p.total := by
  have good := parsed.good
  simp only [badHeader4, not_or, Nat.not_lt] at good
  rw [parsed.hdr, List.length_take, Packet4.total, parsed.be16_hdr (by decide)]
  omega

theorem Parsed6.size_eq {p : Packet6} (parsed : Parsed6 raw p) : p.size = dataEnd6 raw := by
  have bounds := dataEnd6_bounds parsed.long
  have width := congrArg List.length parsed.wire
  rw [Packet6.wire, List.length_append, List.length_append, List.length_append, List.length_take,
    p.hdr_length] at width
  rw [Packet6.size, Packet6.extLen, ipv6HdrLen]
  omega

theorem Parsed6.size_le {p : Packet6} (parsed : Parsed6 raw p) : p.size ≤ raw.length :=
  parsed.size_eq.trans_le (dataEnd6_bounds parsed.long).2

/-- The extension headers are part of what the length field counts. -/
theorem Parsed6.extLen_le {p : Packet6} (parsed : Parsed6 raw p) : p.extLen ≤ p.payloadLen := by
  have size := parsed.size_eq
  have field : p.payloadLen = be16 raw 4 := by
    rw [Packet6.payloadLen, parsed.hdr]
    exact be16_take (by decide)
  rw [Packet6.size, dataEnd6] at size
  rw [field]
  split at size <;> simp only [ipv6HdrLen] at * <;> omega

end

section

variable {src dst body : Bytes}

theorem total_sealed {len : Nat} (hs : src.length = 4) (hd : dst.length = 4)
    (size : len = ipv4HdrLen + body.length) (short : len < 65536) (tos ttl proto : UInt8)
    (ident flags : Nat) :
    be16 (sealedIPv4Header tos len ident flags ttl proto src dst ++ body) 2 =
      (sealedIPv4Header tos len ident flags ttl proto src dst ++ body).length := by
  rw [sealedIPv4Header, ipv4Header_len, Nat.mod_eq_of_lt short, List.length_append,
    length_ipv4Header, hs, hd, size]
  rfl

theorem payload_ipv6 {len : Nat} (hs : src.length = 16) (hd : dst.length = 16)
    (size : len = body.length) (short : len < 65536) (tc next hop : UInt8) :
    ipv6HdrLen + be16 (ipv6Header tc len next hop src dst ++ body) 4 =
      (ipv6Header tc len next hop src dst ++ body).length := by
  rw [ipv6Header_len, Nat.mod_eq_of_lt short, List.length_append, length_ipv6Header, hs, hd, size]
  rfl

end

section

variable {env : Env σ} {t : Translator} {raw q : Bytes} {qs : List Bytes}

theorem ErrorForwarded4.length_inner {p : Packet4} {otype ocode : UInt8} {oword : Nat}
    {inner : Bytes} (forwarded : ErrorForwarded4 env t p otype ocode oword inner) :
    inner.length ≤ 1232 := by
  obtain ⟨_, em, _, _, data, -, -, -, src, dst, -, payload, rfl⟩ := forwarded.embedded
  have width := length_rewrite4to6 payload
  have cut : (em.clip (mtuMin - 2 * ipv6HdrLen - icmpHdrLen) (by decide)).data.length ≤ 1192 :=
    List.length_take_le _ _
  simp only [inner4to6, List.length_append, length_ipv6Header, src.length, dst.length]
  omega

theorem Sends.lengths (sends : Sends env t raw qs) (short : raw.length ≤ 65535)
    (usable : mtuMin ≤ t.cfg.mtu) (member : q ∈ qs) :
    (version q = 4 ∧ be16 q 2 = q.length) ∨ (version q = 6 ∧ ipv6HdrLen + be16 q 4 = q.length) := by
  cases sends with
  | nothing => cases member
  | @complaint4 p =>
    obtain rfl := List.mem_singleton.mp member
    have cut : p.quote.length ≤ 548 := List.length_take_le _ _
    refine .inl ⟨sealedIPv4Header_first .., total_sealed t.local4_length p.length_src ?_ ?_ ..⟩
    · rw [length_sealedICMP, ipv4HdrLen, icmpHdrLen]
      omega
    · rw [ipv4HdrLen, icmpHdrLen]
      omega
  | @reply4 p found accepted own icmp =>
    obtain rfl := List.mem_singleton.mp member
    have fits := (parse4_ok found).size_le
    have header := p.hdr_ge
    have enough := p.icmp_ge icmp
    rw [Packet4.size] at fits
    refine .inl ⟨sealedIPv4Header_first .., total_sealed p.length_dst p.length_src ?_ ?_ ..⟩
    · rw [length_sealedICMP, ipv4HdrLen, icmpHdrLen]
      omega
    · rw [List.length_drop, ipv4HdrLen, icmpHdrLen]
      omega
  | @data4 p found src6 dst6 data forwarded whole fits sent pieces =>
    have bound := (parse4_ok found).size_le
    have width := length_rewrite4to6 forwarded.payload
    have header := p.hdr_ge
    rw [Packet4.size] at bound
    have piece := (pieces usable).subset member
    refine .inr ⟨version_pieces4to6 piece, ?_⟩
    rcases mem_pieces4to6 piece with ⟨-, rfl⟩ | ⟨-, k, -, inside, rfl⟩
    · exact payload_ipv6 forwarded.src.length forwarded.dst.length rfl (by omega) ..
    · refine payload_ipv6 forwarded.src.length forwarded.dst.length ?_ ?_ ..
      · simp [fragHdrLen]
      · rw [fragHdrLen]
        omega
  | @error4 p found otype ocode oword inner src6 dst6 forwarded src dst =>
    obtain rfl := List.mem_singleton.mp member
    have cut := forwarded.length_inner
    refine .inr ⟨ipv6Header_version .., payload_ipv6 (length_source6 src) dst.length ?_ ?_ ..⟩
    · rw [length_sealedICMP, icmpHdrLen]
    · rw [icmpHdrLen]
      omega
  | @complaint6 p =>
    obtain rfl := List.mem_singleton.mp member
    have cut : p.quote.length ≤ 1232 := List.length_take_le _ _
    refine .inr ⟨ipv6Header_version .., payload_ipv6 t.local6_length p.length_src ?_ ?_ ..⟩
    · rw [length_sealedICMP, icmpHdrLen]
    · rw [icmpHdrLen]
      omega
  | @reply6 p found accepted own icmp =>
    obtain rfl := List.mem_singleton.mp member
    have fits := (parse6_ok found).size_le
    have enough := p.icmp_ge icmp
    rw [Packet6.size] at fits
    refine .inr ⟨ipv6Header_version .., payload_ipv6 p.length_dst p.length_src ?_ ?_ ..⟩
    · rw [length_sealedICMP, icmpHdrLen]
    · rw [List.length_drop, icmpHdrLen]
      omega
  | @data6 p found src4 dst4 data ident flags forwarded fragment =>
    obtain rfl := List.mem_singleton.mp member
    have bound := (parse6_ok found).size_le
    have width := length_rewrite6to4 forwarded.payload
    rw [Packet6.size, ipv6HdrLen] at bound
    exact .inl ⟨sealedIPv4Header_first .., total_sealed forwarded.src.length forwarded.dst.length rfl
      (by rw [ipv4HdrLen]; omega) ..⟩
  | @error6 p found otype ocode oword inner src4 dst4 ident flags forwarded src dst fragment =>
    obtain rfl := List.mem_singleton.mp member
    have cut := forwarded.length_inner
    refine .inl ⟨sealedIPv4Header_first .., total_sealed (length_source4 src) dst.length ?_ ?_ ..⟩
    · rw [length_sealedICMP, ipv4HdrLen, icmpHdrLen]
      omega
    · rw [ipv4HdrLen, icmpHdrLen]
      omega

theorem Sends.lengthsExact (sends : Sends env t raw qs) (short : raw.length ≤ 65535)
    (usable : mtuMin ≤ t.cfg.mtu) (fits : ∀ p em, ¬ Overlong t raw p em) (member : q ∈ qs) :
    LengthsExact raw q := by
  have lengths := sends.lengths short usable member
  refine ⟨fun four => ?_, fun six => ?_, ?_, ?_⟩
  · rcases lengths with ⟨-, same⟩ | ⟨six, -⟩
    · exact same
    · cases four.symm.trans six
  · rcases lengths with ⟨four, -⟩ | ⟨-, same⟩
    · cases four.symm.trans six
    · exact same
  · intro p inner em found icmp kind quoted read four
    obtain ⟨_, _, _, _, forwarded, rest⟩ := sends.errorFrom6 found icmp kind member four
    obtain ⟨_, _, _, _, _, _, data, quoted', read', answerable, translated, -, -, -, payload, rfl⟩ :=
      forwarded.embedded
    cases quoted.symm.trans quoted'
    cases read.symm.trans read'
    have counted := (parse6_ok read).extLen_le
    have bound : ipv4HdrLen + ((em.payloadLen : Int) - em.extLen) ≤ 65535 := by
      by_contra long
      exact fits p em ⟨forwarded.toThrough6, found, icmp, kind, ⟨_, quoted, read⟩, answerable,
        ⟨_, _, _, translated⟩, ⟨_, _, _, payload⟩, Int.not_le.mp long⟩
    rw [rest, inner6to4, sealedIPv4Header, ipv4Header_len, uint16]
    omega
  · intro p inner em found icmp kind quoted read six
    obtain ⟨_, _, _, _, forwarded, rest⟩ := sends.errorFrom4 found icmp kind member six
    obtain ⟨_, _, _, _, data, quoted', read', -, -, -, -, payload, rfl⟩ := forwarded.embedded
    cases quoted.symm.trans quoted'
    cases read.symm.trans read'
    have header : em.hdr.length ≤ em.total := (parse4_ok read).hdr_le_total
    have word : em.total < 65536 := be16_lt _ _
    rw [rest, inner4to6, ipv6Header_len, uint16]
    omega

theorem rewrite6to4_addresses {mode : UDPChecksumMode} {p : Packet6} {src4 dst4 data : Bytes}
    (payload : rewrite6to4 mode p src4 dst4 = .ok data) (src4' dst4' : Bytes) :
    ∃ data', rewrite6to4 mode p src4' dst4' = .ok data' := by
  unfold rewrite6to4 at payload ⊢
  by_cases later : p.offFlags &&& ip6FragMask ≠ 0
  · rw [if_pos later]
    exact ⟨_, rfl⟩
  rw [if_neg later] at payload ⊢
  by_cases icmp : p.proto = protoICMPv6
  · rw [if_pos icmp]
    exact ⟨_, rfl⟩
  · rw [if_neg icmp] at payload ⊢
    exact rewriteTransport_sums payload _ _ _

theorem translate_error6 {p : Packet6} (found : parse6 raw = .ok p) (through : Through6 t p)
    (icmp : p.proto = protoICMPv6) (kind : ¬ (p.icmpType = 128 ∨ p.icmpType = 129)) :
    translate env t raw = error6 env t p := by
  have parsed := parse6_ok found
  have some : raw.length ≠ 0 := by have := parsed.long; omega
  rw [translate_eq, receive, if_neg some, parsed.version, if_neg (by decide), if_pos rfl, receive6,
    found]
  dsimp only
  rw [if_neg (by simp [through.hop, through.length]),
    if_neg (fun bad => bad.2 (through.message bad.1)), if_neg through.foreign,
    if_neg through.alive, if_neg (fun data => kind (data icmp))]

/-- Where every address is mapped, an ICMPv6 error is translated if anything in it can be. -/
theorem error6_sends {p em : Packet6} {inner partner : Bytes} (willing : env.Willing)
    (mapped : ∀ a w, (env.to4 false a w).1 = .ok partner) (quoted : p.embedded = some inner)
    (read : parse6 inner = .ok em) (answerable : em.Answerable) {otype ocode : UInt8} {oword : Nat}
    (translated : errorType6to4 t p.icmpType p.icmpCode p.icmpRest = .ok (.ok (otype, ocode, oword)))
    {data : Bytes} (payload : rewrite6to4 t.cfg.udpChecksum
      (em.clip (icmp4MaxLen - 2 * ipv4HdrLen - icmpHdrLen) (by decide)) partner partner = .ok data) :
    (error6 env t p).Meets fun acts _ => ∃ ident flags ident' flags', packets acts =
      [error6to4 p ident flags partner partner otype ocode oword
        (inner6to4 em ident' flags' partner partner data)] := by
  rw [error6, quoted]
  dsimp only
  rw [read]
  dsimp only
  rw [if_pos answerable, translated, lift_ok, pure_bind]
  refine meets_ask_bind fun w => ?_
  rw [mapped]
  refine meets_ask_bind fun w => ?_
  rw [mapped]
  refine meets_bind ((meets_identFlags em _).mono ?_)
  rintro acts result ⟨rfl, ident', flags', rfl, -⟩
  dsimp only
  rw [payload]
  refine meets_ask_bind fun w => ?_
  rw [mapped]
  refine meets_ask_bind fun w => ?_
  rw [mapped]
  refine meets_bind (meets_sendError6.mono ?_)
  rintro acts result (⟨ident, flags, -, rfl, rfl⟩ | ⟨-, -, unwilling⟩)
  · exact meets_act ⟨ident, flags, ident', flags', rfl⟩
  · exact absurd willing unwilling

theorem Overlong.not_exact {p em : Packet6} (overlong : Overlong t raw p em) :
    ∃ q ∈ packets (translate Env.constant t raw ()).acts, ¬ LengthsExact raw q := by
  obtain ⟨inner, quoted, read⟩ := overlong.quoted
  obtain ⟨otype, ocode, oword, translated⟩ := overlong.translated
  obtain ⟨_, _, _, payload⟩ := overlong.payload
  obtain ⟨data, payload⟩ := rewrite6to4_addresses payload [192, 0, 2, 2] [192, 0, 2, 2]
  rw [translate_error6 overlong.found overlong.toThrough6 overlong.icmp overlong.kind]
  obtain ⟨ident, flags, ident', flags', sent⟩ := error6_sends Env.constant_willing (fun _ _ => rfl)
    quoted read overlong.answerable translated payload ()
  refine ⟨_, by rw [sent]; exact .head _, fun holds => ?_⟩
  have same := holds.quoted4 p inner em overlong.found overlong.icmp overlong.kind quoted read
    (sealedIPv4Header_first ..)
  have long := overlong.long
  rw [drop_error6to4 rfl rfl, inner6to4, sealedIPv4Header, ipv4Header_len] at same
  omega

end

/-- Every length field is exact, unless an ICMPv6 error quotes a packet whose translation
would not fit its own length field. -/
theorem lengthsExact_iff {t : Translator} {raw : Bytes} (short : raw.length ≤ 65535)
    (usable : mtuMin ≤ t.cfg.mtu) :
    (∀ {σ : Type} (env : Env σ) (w : σ), ∀ q ∈ packets (translate env t raw w).acts,
      LengthsExact raw q) ↔ ∀ p em, ¬ Overlong t raw p em := by
  constructor
  · intro holds p em overlong
    obtain ⟨q, sent, wrapped⟩ := overlong.not_exact
    exact wrapped (holds Env.constant () q sent)
  · intro fits σ env w q sent
    exact (translate_sends env t raw w).lengthsExact short usable fits sent

theorem lengthsExact_iff_expired :
    ∃ q ∈ packets (translate Env.constant (.sample 1500 .calc) expired ()).acts,
      q.length = 56 ∧ LengthsExact expired q := by
  obtain ⟨q, sent, size⟩ : ∃ q ∈ packets (translate Env.constant (.sample 1500 .calc) expired ()).acts,
      q.length = 56 := by decide +kernel
  refine ⟨q, sent, size, (lengthsExact_iff (by decide) (by decide)).mpr ?_ Env.constant () q sent⟩
  exact fun p em overlong => absurd (parse6_ok overlong.found).version (by decide)

/-- An error about a datagram of 65535 bytes, of which it quotes the first eight. -/
def overlongSample : Bytes :=
  [96, 0, 0, 0, 0, 56, 58, 64, 32, 1, 13, 184, 0, 0, 0, 0, 0, 0, 0, 0, 0, 0, 0, 9, 32, 1, 13, 184,
    0, 0, 0, 0, 0, 0, 0, 0, 0, 0, 0, 7, 1, 0, 195, 174, 0, 0, 0, 0, 96, 0, 0, 0, 255, 255, 17, 60,
    32, 1, 13, 184, 0, 0, 0, 0, 0, 0, 0, 0, 0, 0, 0, 7, 32, 1, 13, 184, 0, 0, 0, 0, 0, 0, 0, 0, 0, 0,
    0, 9, 0, 53, 0, 53, 255, 255, 18, 52]

/-- The quoted header says 19 bytes, less than the header alone. -/
theorem overlongSample_wraps : be16 (overlongSample.drop 48) 4 = 65535 ∧
    ∃ q ∈ packets (translate Env.constant (.sample 1500 .calc) overlongSample ()).acts,
      version q = 4 ∧ be16 (q.drop 28) 2 = 19 ∧ ¬ LengthsExact overlongSample q := by
  obtain ⟨q, sent, four, small⟩ : ∃ q ∈ packets (translate Env.constant (.sample 1500 .calc)
      overlongSample ()).acts, version q = 4 ∧ be16 (q.drop 28) 2 = 19 := by decide +kernel
  refine ⟨by decide +kernel, q, sent, four, small, fun holds => ?_⟩
  have same := holds.quoted4 _ _ _ rfl (by decide +kernel) (by decide +kernel) rfl rfl four
  rw [show ipv4HdrLen + icmpHdrLen = 28 from rfl, small] at same
  exact absurd same (by decide +kernel)

end Clatto.Xlate
